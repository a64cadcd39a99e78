import Xv6.Sched.MlfqOwner

/-!
# Levels and time slices of the MLFQ scheduler

A process of level `L` has a time slice of `2 ^ L` timer interrupts.  A record beside the kernel
counts the timer interrupts that a process has taken since it was dispatched, and keeps the level
it was dispatched at.

The end of `fork` starts a new slice and then yields.  A timer interrupt between the two leaves a
process `RUNNABLE` with part of its slice used up.
-/

namespace Xv6

open Function Proc

/-- What the scheduler relies on for a process that is not `UNUSED`. -/
structure Proc.Quantum (proc : Proc) : Prop where
  nonneg : 0 ≤ proc.priorityLevel
  le_four : proc.priorityLevel ≤ 4
  assTicks_eq : proc.assTicks = 2 ^ proc.priorityLevel.toNat
  runnable : proc.state = .runnable → proc.ticksElapsed = 0
  running : proc.state = .running → proc.ticksElapsed < proc.assTicks
  inBounds : proc.priorityLevel.toNat < proc.queueTicks.length

namespace Mlfq.Smp

open Transition

/-! ## The record -/

variable {Core : Type}

def Action.isTimer : Action → Bool
  | .timer _ => true
  | _ => false

/-- A kernel with, for each slot, the timer interrupts taken since the process was dispatched and
the level it was dispatched at. -/
structure Metered (Core : Type) where
  kernel : Kernel Core
  taken : Slot → Nat
  level : Slot → Int

namespace Metered

variable {before after : Metered Core} {core : Core} {slot : Slot}

/-- The record after a step to `kernel`. -/
def observe (before : Metered Core) (core : Core) (action : Action) (kernel : Kernel Core) :
    Metered Core :=
  match action, before.kernel.dispatched core, (before.kernel.pc core).myproc with
  | .schedule, some slot, _ =>
    { kernel
      taken := update before.taken slot 0
      level := update before.level slot (before.kernel.table slot).priorityLevel }
  | .timer _, _, some slot =>
    { before with
      kernel
      taken := update before.taken slot (before.taken slot + 1) }
  | _, _, _ => { before with kernel }

def boot (Core : Type) : Metered Core where
  kernel := .boot Core
  taken := fun _ => 0
  level := fun _ => 0

/-- No timer interrupt comes to a process at the end of `fork` before its call of `yield`. -/
def Undisturbed (metered : Metered Core) (label : Core × Action) : Prop :=
  label.2.isTimer = true →
    ∀ slot ∈ (metered.kernel.pc label.1).myproc, metered.kernel.leaving slot = false

instance (metered : Metered Core) (label : Core × Action) :
    Decidable (metered.Undisturbed label) :=
  inferInstanceAs (Decidable (_ → ∀ slot ∈ _, _))

/-- Every process keeps to its level's time slice: while it is `RUNNING` it has taken fewer timer
interrupts than the level it was dispatched at allows. -/
def Keeps (metered : Metered Core) : Prop :=
  ∀ slot, (metered.kernel.table slot).state ≠ .unused →
    (metered.kernel.table slot).Quantum ∧
    ((metered.kernel.table slot).state = .running →
      metered.level slot = (metered.kernel.table slot).priorityLevel ∧
        metered.taken slot < 2 ^ (metered.level slot).toNat)

/-! ## One entry -/

/-- What the steps keep of one process and its record. -/
structure EntryInv (proc : Proc) (leaving : Bool) (taken : Nat) (level : Int) : Prop where
  nonneg : proc.state ≠ .unused → 0 ≤ proc.priorityLevel
  le_four : proc.state ≠ .unused → proc.priorityLevel ≤ 4
  assTicks_eq : proc.state ≠ .unused → proc.assTicks = 2 ^ proc.priorityLevel.toNat
  length_eq : proc.state ≠ .unused → proc.queueTicks.length = 5
  rested : proc.state = .used ∨ proc.state = .runnable → proc.ticksElapsed = 0
  running : proc.state = .running → level = proc.priorityLevel ∧ taken < proc.assTicks ∧
    proc.ticksElapsed = if leaving then 0 else (taken : Int)
  leaving : leaving = true → proc.state = .running

namespace EntryInv

variable {proc : Proc} {leaving : Bool} {taken : Nat} {level : Int}

section

variable (entry : EntryInv proc leaving taken level) {next : Proc}
include entry

theorem assTicks_pos (inUse : proc.state ≠ .unused) : 0 < proc.assTicks := by
  rw [entry.assTicks_eq inUse]
  positivity

theorem quantum (inUse : proc.state ≠ .unused) : proc.Quantum where
  nonneg := entry.nonneg inUse
  le_four := entry.le_four inUse
  assTicks_eq := entry.assTicks_eq inUse
  runnable := fun runnable => entry.rested (Or.inr runnable)
  running := by
    intro running
    obtain ⟨-, within, elapsed⟩ := entry.running running
    have positive := entry.assTicks_pos inUse
    rw [elapsed]
    split_ifs
    · exact positive
    · exact within
  inBounds := by
    have high := entry.le_four inUse
    rw [entry.length_eq inUse]
    omega

theorem staying (stopped : proc.state ≠ .running) : leaving = false := by
  cases leaving with
  | false => rfl
  | true => exact (stopped (entry.leaving rfl)).elim

/-- A section that keeps the level, its time slice and the state. -/
theorem of_eq (state : next.state = proc.state) (level_eq : next.priorityLevel = proc.priorityLevel)
    (assTicks_eq : next.assTicks = proc.assTicks) (elapsed : next.ticksElapsed = proc.ticksElapsed)
    (length_eq : next.queueTicks.length = proc.queueTicks.length) :
    EntryInv next leaving taken level := by
  obtain ⟨nonneg, le_four, ass, length, rested, running, leaves⟩ := entry
  rw [← state] at nonneg le_four ass length rested running leaves
  rw [← level_eq] at nonneg le_four ass running
  rw [← assTicks_eq] at ass running
  rw [← elapsed] at rested running
  rw [← length_eq] at length
  exact ⟨nonneg, le_four, ass, length, rested, running, leaves⟩

/-- A process that is not on a CPU becomes `RUNNABLE` with a new time slice. -/
theorem wake (inUse : proc.state ≠ .unused) (stopped : proc.state ≠ .running)
    (state : next.state = .runnable) (level_eq : next.priorityLevel = proc.priorityLevel)
    (assTicks_eq : next.assTicks = proc.assTicks) (elapsed : next.ticksElapsed = 0)
    (length_eq : next.queueTicks = proc.queueTicks) : EntryInv next leaving taken level where
  nonneg := fun _ => level_eq ▸ entry.nonneg inUse
  le_four := fun _ => level_eq ▸ entry.le_four inUse
  assTicks_eq := by
    intro _
    rw [assTicks_eq, level_eq]
    exact entry.assTicks_eq inUse
  length_eq := fun _ => length_eq ▸ entry.length_eq inUse
  rested := fun _ => elapsed
  running := by simp [state]
  leaving := by simp [entry.staying stopped]

/-- A process leaves its CPU. -/
theorem leave (running : proc.state = .running)
    (stopped : next.state = .sleeping ∨ next.state = .zombie)
    (level_eq : next.priorityLevel = proc.priorityLevel)
    (assTicks_eq : next.assTicks = proc.assTicks) (length_eq : next.queueTicks = proc.queueTicks) :
    EntryInv next false taken level where
  nonneg := fun _ => level_eq ▸ entry.nonneg (by simp [running])
  le_four := fun _ => level_eq ▸ entry.le_four (by simp [running])
  assTicks_eq := by
    intro _
    rw [assTicks_eq, level_eq]
    exact entry.assTicks_eq (by simp [running])
  length_eq := fun _ => length_eq ▸ entry.length_eq (by simp [running])
  rested := by
    rintro (used | runnable)
    · rcases stopped with state | state <;> simp [state] at used
    · rcases stopped with state | state <;> simp [state] at runnable
  running := by
    intro still
    rcases stopped with state | state <;> simp [state] at still
  leaving := by simp

theorem updTime : EntryInv (proc.updTime .mlfq) leaving taken level := by
  apply entry.of_eq <;> unfold Proc.updTime <;> split_ifs <;> simp_all

theorem wakeup (ticks : UInt32) (chan : Chan) :
    EntryInv (proc.wakeup .mlfq ticks chan) leaving taken level := by
  by_cases woken : proc.state = .sleeping ∧ proc.chan = some chan
  · apply entry.wake (by simp [woken]) (by simp [woken])
    all_goals
      unfold Proc.wakeup
      rw [if_pos woken]
      simp only
      split_ifs <;> simp_all
  · rw [Proc.wakeup, if_neg woken]
    exact entry

theorem kill (ticks : UInt32) : EntryInv (proc.kill .mlfq ticks) leaving taken level := by
  by_cases asleep : proc.state = .sleeping
  · apply entry.wake (by simp [asleep]) (by simp [asleep])
    all_goals simp [Proc.kill, asleep]
  · apply entry.of_eq
    all_goals simp [Proc.kill, asleep]

theorem forked (unused : proc.state = .unused) (ticks : UInt32) (pid tickets : Int) (fits : Bool) :
    EntryInv (proc.forked .mlfq ticks pid tickets fits) leaving taken level := by
  have staying := entry.staying (by simp [unused])
  cases fits <;> constructor <;> simp [Proc.forked, alloc, free, staying]

theorem start (used : proc.state = .used) : EntryInv proc.start leaving taken level := by
  apply entry.wake (by simp [used]) (by simp [used])
  all_goals simp [Proc.start, entry.rested (Or.inl used)]

theorem reap (zombie : proc.state = .zombie) (ticks : UInt32) :
    EntryInv (proc.reap ticks) leaving taken level := by
  have staying := entry.staying (by simp [zombie])
  constructor <;> simp [Proc.reap, free, staying]

theorem agingCheck : EntryInv proc.agingCheck leaving taken level := by
  unfold Proc.agingCheck
  split_ifs with aged
  · obtain ⟨waiting, -, below⟩ := aged
    have inUse : proc.state ≠ .unused := by rcases waiting with state | state <;> simp [state]
    have stopped : proc.state ≠ .running := by rcases waiting with state | state <;> simp [state]
    have low := entry.nonneg inUse
    have high := entry.le_four inUse
    refine ⟨fun _ => ?_, fun _ => ?_, fun _ => ?_, fun _ => entry.length_eq inUse, entry.rested,
      fun running => (stopped running).elim, entry.leaving⟩
    · show 0 ≤ proc.priorityLevel - 1
      omega
    · show proc.priorityLevel - 1 ≤ 4
      omega
    · show proc.assTicks.tdiv 2 = 2 ^ (proc.priorityLevel - 1).toNat
      have up : proc.priorityLevel.toNat = (proc.priorityLevel - 1).toNat + 1 := by omega
      rw [entry.assTicks_eq inUse, up, pow_succ, Int.mul_tdiv_cancel _ (by decide)]
  · exact entry

/-- `swtch` to a `RUNNABLE` process. -/
theorem dispatch (runnable : proc.state = .runnable) (waitTime : Int) :
    EntryInv { proc with waitTime, state := .running, chan := none } leaving 0
      proc.priorityLevel where
  nonneg := fun _ => entry.nonneg (by simp [runnable])
  le_four := fun _ => entry.le_four (by simp [runnable])
  assTicks_eq := fun _ => entry.assTicks_eq (by simp [runnable])
  length_eq := fun _ => entry.length_eq (by simp [runnable])
  rested := by simp
  running := by
    refine fun _ => ⟨rfl, entry.assTicks_pos (by simp [runnable]), ?_⟩
    rw [entry.staying (by simp [runnable])]
    exact entry.rested (Or.inr runnable)
  leaving := fun _ => rfl

end

theorem timeSlice_false (expired : proc.timeSlice.2 = false) :
    proc.timeSlice.1 = { proc with ticksElapsed := proc.ticksElapsed + 1 } ∧
      proc.ticksElapsed + 1 < proc.assTicks := by
  unfold timeSlice at expired ⊢
  simp only at expired ⊢
  split_ifs at expired ⊢ with more
  exact ⟨rfl, Int.not_le.mp more⟩

theorem timeSlice_true (expired : proc.timeSlice.2 = true) :
    proc.timeSlice.1 = if proc.priorityLevel < 4 then
      { proc with
        ticksElapsed := 0
        priorityLevel := proc.priorityLevel + 1
        assTicks := proc.assTicks * 2 }
    else { proc with ticksElapsed := 0 } := by
  unfold timeSlice at expired ⊢
  simp only at expired ⊢
  split_ifs at expired ⊢ <;> rfl

section

variable (entry : EntryInv proc false taken level)
include entry

variable (running : proc.state = .running)
include running

/-- A timer interrupt inside the time slice. -/
theorem slice (goesOn : proc.timeSlice.2 = false) :
    EntryInv proc.timeSlice.1 false (taken + 1) level := by
  obtain ⟨slice_eq, within⟩ := timeSlice_false goesOn
  obtain ⟨level_eq, -, elapsed⟩ := entry.running running
  simp only [Bool.false_eq_true, if_false] at elapsed
  rw [slice_eq]
  refine ⟨entry.nonneg, entry.le_four, entry.assTicks_eq, entry.length_eq, ?_, fun _ => ?_, nofun⟩
  · simp [running]
  · refine ⟨level_eq, ?_, ?_⟩
    · push_cast
      simpa [elapsed] using within
    · simp [elapsed]

/-- The timer interrupt that ends the time slice: the process moves down a level and yields. -/
theorem expire {count : Nat} (expired : proc.timeSlice.2 = true) :
    EntryInv proc.timeSlice.1.yield false count level := by
  have inUse : proc.state ≠ .unused := by simp [running]
  have low := entry.nonneg inUse
  have high := entry.le_four inUse
  rw [timeSlice_true expired]
  split_ifs with below
  · refine ⟨fun _ => ?_, fun _ => ?_, fun _ => ?_, fun _ => entry.length_eq inUse, fun _ => rfl,
      nofun, nofun⟩
    · show 0 ≤ proc.priorityLevel + 1
      omega
    · show proc.priorityLevel + 1 ≤ 4
      omega
    · show proc.assTicks * 2 = 2 ^ (proc.priorityLevel + 1).toNat
      have up : (proc.priorityLevel + 1).toNat = proc.priorityLevel.toNat + 1 := by omega
      rw [entry.assTicks_eq inUse, up, pow_succ]
  · exact ⟨fun _ => low, fun _ => high, fun _ => entry.assTicks_eq inUse,
      fun _ => entry.length_eq inUse, fun _ => rfl, nofun, nofun⟩

/-- The end of `fork` starts a new time slice. -/
theorem reset : EntryInv { proc with ticksElapsed := 0 } true taken level := by
  obtain ⟨level_eq, within, -⟩ := entry.running running
  exact ⟨entry.nonneg, entry.le_four, entry.assTicks_eq, entry.length_eq, fun _ => rfl,
    fun _ => ⟨level_eq, within, rfl⟩, fun _ => running⟩

end

theorem yield (entry : EntryInv proc true taken level) : EntryInv proc.yield false taken level := by
  have running := entry.leaving rfl
  have inUse : proc.state ≠ .unused := by simp [running]
  obtain ⟨-, -, elapsed⟩ := entry.running running
  exact ⟨fun _ => entry.nonneg inUse, fun _ => entry.le_four inUse,
    fun _ => entry.assTicks_eq inUse, fun _ => entry.length_eq inUse,
      fun _ => elapsed, nofun, nofun⟩

end EntryInv

variable {kernel : Kernel Core} {action : Action} {proc : Proc}

theorem EntryInv.write {sect : Section} {leaving : Bool} {taken : Nat} {level : Int}
    {ticks : UInt32} {pid tickets : Int} (entry : EntryInv proc leaving taken level)
    (finds : sect.Finds proc.state) :
    EntryInv (sect.write .mlfq ticks pid tickets proc) leaving taken level := by
  cases sect with
  | updTime => exact entry.updTime
  | wakeup _ chan => exact entry.wakeup _ chan
  | kill =>
    simp only [Section.write]
    split_ifs
    · exact entry.kill _
    · exact entry
  | alloc => exact entry.forked finds _ _ _ _
  | start => exact entry.start finds
  | reap => exact entry.reap finds _

/-! ## Whole runs -/

variable [DecidableEq Core] {leaves : Bool}

/-- A step of the kernel, and what the record notes of it. -/
def exec (before : Metered Core) (label : Core × Action) : Option (Metered Core) :=
  (before.kernel.exec label.1 label.2).map (before.observe label.1 label.2)

def Step (before : Metered Core) (label : Core × Action) (after : Metered Core) : Prop :=
  before.exec label = some after

/-- The lock discipline, and every process within its time slice. -/
structure Inv (metered : Metered Core) : Prop where
  owned : metered.kernel.Owned
  entry : ∀ slot, EntryInv (metered.kernel.table slot) (metered.kernel.leaving slot)
    (metered.taken slot) (metered.level slot)

omit [DecidableEq Core] in
/-- A step that changes one entry, and the record of that process only. -/
theorem Inv.change (inv : before.Inv) (owned : after.kernel.Owned)
    (table_eq : after.kernel.table = update before.kernel.table slot proc)
    (leaving_eq : after.kernel.leaving = update before.kernel.leaving slot leaves)
    (taken_eq : ∀ other, other ≠ slot → after.taken other = before.taken other)
    (level_eq : ∀ other, other ≠ slot → after.level other = before.level other)
    (entry : EntryInv proc leaves (after.taken slot) (after.level slot)) : after.Inv := by
  refine ⟨owned, fun other => ?_⟩
  obtain rfl | same := eq_or_ne other slot
  · simpa [table_eq, leaving_eq] using entry
  · simpa [table_eq, leaving_eq, same, taken_eq other same, level_eq other same]
      using inv.entry other

omit [DecidableEq Core] in
/-- The record changes at a dispatch and at a timer interrupt only. -/
theorem observe_eq (kernel : Kernel Core)
    (noDispatch : action = .schedule → before.kernel.dispatched core = none)
    (noTimer : ∀ fromUser, action ≠ .timer fromUser) :
    before.observe core action kernel = { before with kernel } := by
  unfold observe
  split
  next dispatched =>
    rw [noDispatch rfl] at dispatched
    cases dispatched
  next => exact (noTimer _ rfl).elim
  next => rfl

omit [DecidableEq Core] in
/-- A step that changes one entry and nothing of the record. -/
theorem Inv.write (inv : before.Inv) (owned : kernel.Owned)
    (noDispatch : action = .schedule → before.kernel.dispatched core = none)
    (noTimer : ∀ fromUser, action ≠ .timer fromUser)
    (table_eq : kernel.table = update before.kernel.table slot proc)
    (leaving_eq : kernel.leaving = update before.kernel.leaving slot leaves)
    (entry : EntryInv proc leaves (before.taken slot) (before.level slot)) :
    (before.observe core action kernel).Inv := by
  rw [observe_eq kernel noDispatch noTimer]
  exact inv.change owned table_eq leaving_eq (fun _ _ => rfl) (fun _ _ => rfl) entry

omit [DecidableEq Core] in
theorem Inv.trap {fromUser : Bool} (inv : before.Inv) (owned : kernel.Owned)
    (myproc : (before.kernel.pc core).myproc = some slot)
    (table_eq : kernel.table = update before.kernel.table slot proc)
    (leaving_eq : kernel.leaving = before.kernel.leaving)
    (staying : before.kernel.leaving slot = false)
    (entry : EntryInv proc false (before.taken slot + 1) (before.level slot)) :
    (before.observe core (.timer fromUser) kernel).Inv := by
  have observed : before.observe core (.timer fromUser) kernel =
      { before with
        kernel
        taken := update before.taken slot (before.taken slot + 1) } := by
    simp [observe, myproc]
  rw [observed]
  have kept : kernel.leaving = update before.kernel.leaving slot false := by
    rw [leaving_eq, ← staying, update_eq_self]
  refine inv.change owned table_eq kept ?_ (fun _ _ => rfl) ?_
  · intro other ne
    simp [ne]
  · simpa using entry

theorem Inv.exec (inv : before.Inv) (undisturbed : before.Undisturbed (core, action))
    (executed : before.kernel.exec core action = some kernel) :
    (before.observe core action kernel).Inv := by
  have stepped : before.kernel.Step (core, action) kernel := executed
  have owned := inv.owned.step stepped
  have effect := Kernel.step_effect stepped
  have same : ∀ slot, before.kernel.leaving =
      update before.kernel.leaving slot (before.kernel.leaving slot) :=
    fun slot => (update_eq_self slot _).symm
  generalize table_eq : kernel.table = table, leaving_eq : kernel.leaving = leaving at effect
  cases effect with
  | tick =>
    rw [observe_eq kernel (by simp) (by simp)]
    refine ⟨owned, ?_⟩
    rw [table_eq, leaving_eq]
    exact inv.entry
  | scan _ idle =>
    rw [observe_eq kernel (fun _ => idle) (by simp)]
    refine ⟨owned, ?_⟩
    rw [table_eq, leaving_eq]
    exact inv.entry
  | age slot _ idle =>
    exact inv.write owned (fun _ => idle) (by simp) table_eq (leaving_eq.trans (same slot))
      (inv.entry slot).agingCheck
  | dispatch slot waitTime _ dispatched chosen =>
    have runnable : (before.kernel.table slot).state = .runnable :=
      chosen.elim (fun held => inv.owned.candidate core slot held.1) (fun free => free.2.1)
    have entry := (inv.entry slot).dispatch runnable waitTime
    have observed : before.observe core .schedule kernel =
        { kernel
          taken := update before.taken slot 0
          level :=
            update before.level slot (before.kernel.table slot).priorityLevel } := by
      simp [observe, dispatched]
    rw [observed]
    refine inv.change owned table_eq (leaving_eq.trans (same slot)) ?_ ?_ ?_
    · intro other ne
      simp [ne]
    · intro other ne
      simp [ne]
    · simpa using entry
  | sect sect tickets finds =>
    exact inv.write owned (by cases sect <;> simp)
      (by cases sect <;> simp) table_eq (leaving_eq.trans (same sect.slot))
      ((inv.entry sect.slot).write finds)
  | relate _ slot parent other =>
    exact inv.write owned (by rintro rfl; simp at other) (by rintro _ rfl; simp at other) table_eq
      (leaving_eq.trans (same slot)) ((inv.entry slot).of_eq rfl rfl rfl rfl rfl)
  | slice fromUser slot myproc goesOn =>
    have staying := undisturbed rfl slot myproc
    have entry := inv.entry slot
    rw [staying] at entry
    exact inv.trap owned myproc table_eq leaving_eq staying
      (entry.slice (inv.owned.running core slot myproc) goesOn)
  | expire fromUser slot myproc expired =>
    have staying := undisturbed rfl slot myproc
    have entry := inv.entry slot
    rw [staying] at entry
    exact inv.trap owned myproc table_eq leaving_eq staying
      (entry.expire (inv.owned.running core slot myproc) expired)
  | reset slot myproc staying =>
    have entry := inv.entry slot
    rw [staying] at entry
    exact inv.write owned (by simp) (by simp) table_eq leaving_eq
      (entry.reset (inv.owned.running core slot myproc))
  | yield slot myproc leaves =>
    have entry := inv.entry slot
    rw [leaves] at entry
    exact inv.write owned (by simp) (by simp) table_eq leaving_eq entry.yield
  | sleep slot chan myproc staying =>
    have entry : EntryInv ((before.kernel.table slot).sleep chan) false _ _ :=
      (inv.entry slot).leave (inv.owned.running core slot myproc) (Or.inl rfl) rfl rfl rfl
    rw [← staying] at entry
    exact inv.write owned (by simp) (by simp) table_eq (leaving_eq.trans (same slot)) entry
  | exit slot myproc staying =>
    have entry : EntryInv ((before.kernel.table slot).exit before.kernel.ticks) false _ _ :=
      (inv.entry slot).leave (inv.owned.running core slot myproc) (Or.inr rfl) rfl rfl rfl
    rw [← staying] at entry
    exact inv.write owned (by simp) (by simp) table_eq (leaving_eq.trans (same slot)) entry

omit [DecidableEq Core] in
theorem boot_inv (Core : Type) : (boot Core).Inv where
  owned := Kernel.boot_owned Core
  entry := by
    intro slot
    simp only [boot, Kernel.boot]
    split_ifs
    · constructor <;> simp [alloc, Proc.start]
    · constructor <;> simp

/-! ## Main results -/

/-- In every run on one CPU in which no timer interrupt comes between the last two statements of
`fork`, every process has a level from 0 to 4 and the time slice of that level, starts each slice
afresh and gives the CPU up before it has taken more timer interrupts than the slice allows. -/
theorem keeps_quantum {labels : List (Unit × Action)} {finish : Metered Unit}
    (run : Run (Guarded Undisturbed Step) (boot Unit) labels finish) : finish.Keeps := by
  have inv : finish.Inv := by
    refine run.invariant (fun before label after inv taken => ?_) (boot_inv Unit)
    obtain ⟨kernel, executed, rfl⟩ := Option.map_eq_some_iff.mp taken.2
    exact inv.exec taken.1 executed
  intro slot inUse
  have entry := inv.entry slot
  refine ⟨entry.quantum inUse, fun running => ?_⟩
  obtain ⟨level_eq, within, -⟩ := entry.running running
  rw [entry.assTicks_eq inUse, ← level_eq] at within
  exact ⟨level_eq, by exact_mod_cast within⟩

/-- The first process forks at level 1 and yields, its child uses up its slice at level 0, and the
first takes one of the two interrupts of its next slice. -/
def forking : List (Unit × Action) :=
  passTo 0 ++ useSlice [0] 0 ++ passTo 1 ++ fork 1 ++ [((), .reset), ((), .yield)] ++ passTo 0 ++
    useSlice [0, 1] 0 ++ passTo 1 ++ clockTick [0, 1]

theorem keeps_quantum_forking : ∃ finish,
    Run (Guarded Undisturbed Step) (boot Unit) forking finish ∧
    ((finish.kernel.table 0).state = .running ∧ (finish.level 0, finish.taken 0) = (1, 1) ∧
      finish.kernel.table.Runnable 1 ∧ (finish.kernel.table 1).priorityLevel = 1) ∧
    finish.Keeps :=
  Run.exists_and_of_guardedExec (fun _ _ _ => id) (by decide +kernel) fun _ run _ =>
    keeps_quantum run

/-- A process of level 1 forks, and the timer interrupts it before it calls `yield`: it is left
`RUNNABLE` with one timer interrupt of its next slice used up. -/
theorem slice_started_early : ∃ labels finish, Run Step (boot Unit) labels finish ∧
    (finish.kernel.table 0).state = .runnable ∧ (finish.kernel.table 0).ticksElapsed = 1 ∧
    ¬ finish.Keeps := by
  have outcome : ∃ finish ∈ runAll exec (boot Unit)
      (passTo 0 ++ useSlice [0] 0 ++ passTo 1 ++ fork 1 ++
        [((), .reset), ((), .timer false), ((), .yield)]),
      (finish.kernel.table 0).state = .runnable ∧ (finish.kernel.table 0).ticksElapsed = 1 := by
    decide +kernel
  obtain ⟨finish, executed, runnable, elapsed⟩ := outcome
  refine ⟨_, finish, .of_runAll (fun _ _ _ => id) executed, runnable, elapsed, fun keeps => ?_⟩
  have rested := (keeps 0 (by simp [runnable])).1.runnable runnable
  rw [elapsed] at rested
  cases rested

end Metered

end Mlfq.Smp

end Xv6
