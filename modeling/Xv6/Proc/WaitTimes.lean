import Xv6.Proc.LostChild

/-!
# The times that `waitx` reports

The clock over the processes of `fork`, `exit` and `wait`.  `clockintr` advances `ticks` and then
walks the table in `upd_time`, one entry under its lock at a time, while the other CPUs go on.
Ghost fields record at which tick each process was made and at which it exited.
-/

namespace Xv6

/-- What `waitx` stores in `*rtime`. -/
def Proc.rtime (proc : Proc) : UInt32 := proc.runTime

/-- What `waitx` stores in `*wtime`. -/
def Proc.wtime (proc : Proc) : UInt32 := proc.endTime - proc.creationTime - proc.runTime

namespace Family

open Transition

/-- The stages of the life of a process. -/
inductive Phase where
  | absent
  | live
  | dead
  deriving DecidableEq, Repr

def phase : ProcState → Phase
  | .unused => .absent
  | .zombie => .dead
  | _ => .live

variable {state : ProcState}

@[simp] theorem phase_eq_absent : phase state = .absent ↔ state = .unused := by
  cases state <;> simp [phase]

@[simp] theorem phase_eq_dead : phase state = .dead ↔ state = .zombie := by
  cases state <;> simp [phase]

/-- The entry that `wait` stamps with the time after it has released the locks. -/
def Pc.stamped : Pc → Option Slot
  | .stamp slot _ => some slot
  | _ => none

/-- What happens next in the machine. -/
inductive Event where
  /-- A process takes a step. -/
  | process (self : Slot) (action : Action)
  /-- `clockintr` advances the clock and calls `upd_time`. -/
  | tick
  /-- `upd_time` visits the next entry. -/
  | visit
  deriving DecidableEq, Repr

/-- The process that goes on in its system call. -/
def Event.proceeds : Event → Option Slot
  | .process self (.proceed _) => some self
  | _ => none

structure Timed where
  kernel : Kernel
  /-- The entries that `upd_time` has still to visit. -/
  pass : List Slot
  /-- The number of ticks since boot. -/
  now : Nat
  /-- The tick at which the process was made. -/
  created : Slot → Nat
  /-- The tick at which the process exited. -/
  exited : Slot → Nat

namespace Timed

/-- The record after a step of a process. -/
def record (timed : Timed) (after : Kernel) : Timed :=
  { timed with
    kernel := after
    created := fun slot =>
      if (timed.kernel.table slot).state = .unused ∧ (after.table slot).state ≠ .unused then
        timed.now
      else
        timed.created slot
    exited := fun slot =>
      if (timed.kernel.table slot).state ≠ .zombie ∧ (after.table slot).state = .zombie then
        timed.now
      else
        timed.exited slot }

/-- `clockintr` up to the loop of `upd_time`.  One CPU runs it, so the walks do not overlap. -/
def tick (timed : Timed) : Timed :=
  { timed with
    kernel := { timed.kernel with ticks := timed.kernel.ticks + 1 }
    pass := allSlots
    now := timed.now + 1 }

variable (build : Scheduler)

/-- The body of the loop of `upd_time`. -/
def visit (timed : Timed) (slot : Slot) (todo : List Slot) : Timed :=
  { timed with
    kernel := timed.kernel.set slot ((timed.kernel.table slot).updTime build)
    pass := todo }

def exec (timed : Timed) : Event → Option Timed
  | .process self action =>
    if action = .tick then none
    else (timed.kernel.exec build self action).map timed.record
  | .tick => if timed.pass = [] then some timed.tick else none
  | .visit =>
    match timed.pass with
    | [] => none
    | slot :: todo => some (timed.visit build slot todo)

def Step (before : Timed) (event : Event) (after : Timed) : Prop :=
  before.exec build event = some after

def boot : Timed where
  kernel := .boot build
  pass := []
  now := 0
  created := fun _ => 0
  exited := fun _ => 0

/-- The conditions on a step under which the times stay exact. -/
structure Punctual (timed : Timed) (event : Event) : Prop where
  /-- No process gets older than the counters can tell. -/
  tick : event = .tick → ∀ slot, phase (timed.kernel.table slot).state = .live →
    timed.kernel.ticks - (timed.kernel.table slot).creationTime ≠ 0xffffffff
  /-- `upd_time` does not charge a process for the tick in which it was made. -/
  visit : event = .visit → ∀ slot, timed.pass.head? = some slot →
    (timed.kernel.table slot).state = .running →
    (timed.kernel.table slot).creationTime ≠ timed.kernel.ticks
  /-- `wait` does not stamp an entry in which a later process has exited at an earlier tick. -/
  stamp : ∀ self, event.proceeds = some self → ∀ slot,
    (timed.kernel.pc self).stamped = some slot → (timed.kernel.table slot).state = .zombie →
    (timed.kernel.table slot).endTime = timed.kernel.ticks

instance (timed : Timed) (event : Event) : Decidable (timed.Punctual event) :=
  decidable_of_iff _ ⟨fun ⟨tick, visit, stamp⟩ => Punctual.mk tick visit stamp,
    fun punctual => And.intro punctual.tick (And.intro punctual.visit punctual.stamp)⟩

/-- `caller` finds its child in `slot` dead and reaps it by `waitx`. -/
structure Reaps (before : Timed) (caller slot : Slot) (after : Timed) : Prop where
  scanning : ∃ todo havekids, before.kernel.pc caller = .scan .waitx (slot :: todo) havekids
  child : (before.kernel.table slot).parent = some caller
  zombie : (before.kernel.table slot).state = .zombie
  step : before.Step build (.process caller (.proceed true)) after

end Timed

/-! ## What a step does to the times of an entry -/

/-- A section that leaves the times alone. -/
structure Keeps (before after : Proc) : Prop where
  creationTime : after.creationTime = before.creationTime
  runTime : after.runTime = before.runTime
  endTime : after.endTime = before.endTime
  phase : phase after.state = phase before.state

namespace Keeps

variable {build : Scheduler}

theorem refl (proc : Proc) : Keeps proc proc := ⟨rfl, rfl, rfl, rfl⟩

theorem phase_of_wakes {before after : Proc} (woken : Kernel.Wakes before after) :
    Family.phase after.state = Family.phase before.state := by
  rcases woken.state with same | ⟨sleeping, runnable⟩
  · rw [same]
  · rw [sleeping, runnable]
    rfl

theorem wakeup (proc : Proc) (ticks : UInt32) (chan : Chan) :
    Keeps proc (proc.wakeup build ticks chan) := by
  refine ⟨?_, ?_, ?_, phase_of_wakes (Kernel.wakes_wakeup ..)⟩ <;>
    simp only [Proc.wakeup] <;> split_ifs <;> rfl

theorem kill (proc : Proc) (ticks : UInt32) : Keeps proc (proc.kill build ticks) := by
  refine ⟨?_, ?_, ?_, phase_of_wakes (Kernel.wakes_kill ..)⟩ <;>
    simp only [Proc.kill] <;> split_ifs <;> rfl

end Keeps

/-- Everything a step at the time `ticks` can do to the times of an entry; `stamps` says that the
step is the last assignment of `wait` to the entry. -/
inductive Ages (ticks : UInt32) (stamps : Prop) (before after : Proc) : Prop where
  | keeps : Keeps before after → Ages ticks stamps before after
  | stamp : stamps → Keeps { before with endTime := ticks } after → Ages ticks stamps before after
  | born : before.state = .unused → phase after.state = .live → after.creationTime = ticks →
      after.runTime = 0 → Ages ticks stamps before after
  | dies : phase before.state = .live → Keeps (before.exit ticks) after →
      Ages ticks stamps before after
  | gone : after.state = .unused → Ages ticks stamps before after

theorem Ages.forked {ticks : UInt32} {stamps : Prop} {proc : Proc} (build : Scheduler)
    (pid tickets : Int) (fits : Bool) (unused : proc.state = .unused) :
    Ages ticks stamps proc (proc.forked build ticks pid tickets fits) := by
  cases fits with
  | false => exact .gone (by simp [Proc.forked_state])
  | true =>
    refine .born unused (by simp [Proc.forked_state, phase]) ?_ ?_ <;>
      simp only [Proc.forked, Proc.alloc] <;> split_ifs <;> rfl

namespace Kernel

variable {build : Scheduler} {kernel after : Kernel} {self slot : Slot} {proc : Proc}
  {stamps : Slot → Prop} {action : Action}

/-- Everything a step of a process can do to the times in the table. -/
structure Passes (stamps : Slot → Prop) (before after : Kernel) : Prop where
  ticks : after.ticks = before.ticks
  ages : ∀ slot, Ages before.ticks (stamps slot) (before.table slot) (after.table slot)

namespace Passes

theorem of_table_eq (ticks : after.ticks = kernel.ticks) (table : after.table = kernel.table) :
    Passes stamps kernel after where
  ticks := ticks
  ages := fun slot => by
    rw [table]
    exact .keeps (.refl _)

theorem set (ages : Ages kernel.ticks (stamps slot) (kernel.table slot) proc) :
    Passes stamps kernel (kernel.set slot proc) where
  ticks := rfl
  ages := fun query => by
    rw [set_table]
    split_ifs with same
    · rw [same]
      exact ages
    · exact .keeps (.refl _)

theorem goto {next : Pc} (passes : Passes stamps kernel after) :
    Passes stamps kernel (after.goto self next) := ⟨passes.ticks, passes.ages⟩

theorem setLock {holder : Option Slot} (passes : Passes stamps kernel after) :
    Passes stamps kernel (after.setLock holder) := ⟨passes.ticks, passes.ages⟩

theorem wakeOne (chan : Chan) : Passes stamps kernel (kernel.wakeOne build self chan slot) := by
  unfold Kernel.wakeOne
  split_ifs
  · exact .of_table_eq rfl rfl
  · exact .set (.keeps (.wakeup ..))

theorem scanOne (copied : Bool) (kind : WaitKind) (todo : List Slot) (havekids : Bool) :
    Passes stamps kernel (kernel.scanOne self copied kind slot todo havekids) := by
  unfold Kernel.scanOne
  split_ifs
  · exact (set (.gone rfl)).setLock.goto
  · exact (of_table_eq rfl rfl).setLock.goto
  · exact (of_table_eq rfl rfl).goto
  · exact (of_table_eq rfl rfl).goto

theorem sleep (chan : Chan) (running : (kernel.table self).state = .running) :
    Passes stamps kernel (kernel.set self ((kernel.table self).sleep chan)) :=
  .set (.keeps ⟨rfl, rfl, rfl, by simp [Proc.sleep, phase, running]⟩)

theorem scanned (kind : WaitKind) (havekids : Bool)
    (running : (kernel.table self).state = .running) :
    Passes stamps kernel (kernel.scanned self kind havekids) := by
  unfold Kernel.scanned
  split_ifs
  · exact (of_table_eq rfl rfl).setLock.goto
  · exact (sleep _ running).setLock.goto

end Passes

theorem proceed_passes {copied : Bool} (placed : kernel.Placed)
    (running : (kernel.table self).state = .running)
    (taken : kernel.proceed build self copied = some after) :
    Passes (fun slot => (kernel.pc self).stamped = some slot) kernel after := by
  have same : Passes (fun slot => (kernel.pc self).stamped = some slot) kernel kernel :=
    .of_table_eq rfl rfl
  unfold proceed at taken
  split at taken
  case h_1 | h_2 => cases taken
  case h_3 child here =>
    split_ifs at taken
    cases taken
    exact .goto (.set (.keeps ⟨rfl, rfl, rfl, rfl⟩))
  case h_4 child here =>
    cases taken
    have used := placed.newborn self child (by simp [here, Pc.child])
    exact .goto (.set (.keeps ⟨rfl, rfl, rfl, by simp [Proc.start, phase, used]⟩))
  case h_5 kind here =>
    split_ifs at taken
    cases taken
    exact same.setLock.goto
  case h_6 kind slot todo havekids here =>
    cases taken
    exact .scanOne ..
  case h_7 kind havekids here =>
    cases taken
    exact .scanned kind havekids running
  case h_8 slot pid here =>
    cases taken
    exact (Passes.set (.stamp (by simp [here, Pc.stamped]) (.refl _))).goto
  case h_9 value here =>
    cases taken
    exact same.goto
  case h_10 here =>
    split_ifs at taken
    cases taken
    exact same.setLock.goto
  case h_11 todo slot waking here =>
    cases taken
    exact (Passes.wakeOne _).goto
  case h_12 slot todo here =>
    split_ifs at taken
    · cases taken
      exact .goto (.set (.keeps ⟨rfl, rfl, rfl, rfl⟩))
    · cases taken
      exact same.goto
  case h_13 here =>
    cases taken
    exact same.goto
  case h_14 parent slot todo here =>
    cases taken
    exact (Passes.wakeOne _).goto
  case h_15 slot todo here =>
    cases taken
    exact same.goto
  case h_16 parent here =>
    cases taken
    exact (Passes.set (.dies (by simp [running, phase]) (.refl _))).setLock.goto

theorem Passes.mono {weaker : Slot → Prop} (passes : Passes stamps kernel after)
    (implies : ∀ slot, stamps slot → weaker slot) : Passes weaker kernel after where
  ticks := passes.ticks
  ages := fun slot => by
    cases passes.ages slot with
    | keeps kept => exact .keeps kept
    | stamp stamped kept => exact .stamp (implies slot stamped) kept
    | born unused live creationTime runTime => exact .born unused live creationTime runTime
    | dies live kept => exact .dies live kept
    | gone unused => exact .gone unused

theorem running_passes (placed : kernel.Placed) (isRunning : (kernel.table self).state = .running)
    (taken : kernel.running build self action = some after) :
    Passes (fun slot => (Event.process self action).proceeds = some self ∧
      (kernel.pc self).stamped = some slot) kernel after := by
  cases action with
  | dispatch | wakeup address | tick => cases taken
  | yield =>
    simp only [running] at taken
    split_ifs at taken
    cases taken
    exact .set (.keeps ⟨rfl, rfl, rfl, by simp [Proc.yield, phase, isRunning]⟩)
  | proceed copied =>
    exact (proceed_passes placed isRunning taken).mono fun slot stamped => ⟨rfl, stamped⟩
  | fork child fits =>
    simp only [running] at taken
    by_cases allowed : kernel.pc self = .user ∧ (kernel.table child).state = .unused
    · rw [if_pos allowed] at taken
      cases taken
      exact ⟨rfl, (Passes.set (.forked build _ _ fits allowed.2)).ages⟩
    · rw [if_neg allowed] at taken
      cases taken
  | wait kind | exit =>
    simp only [running] at taken
    split_ifs at taken
    cases taken
    exact .goto (.of_table_eq rfl rfl)
  | kill slot pid =>
    simp only [running] at taken
    split_ifs at taken
    · cases taken
      exact .set (.keeps (.kill ..))
    · cases taken
      exact .set (.keeps (.refl _))
  | setKilled =>
    simp only [running] at taken
    split_ifs at taken
    cases taken
    exact .set (.keeps ⟨rfl, rfl, rfl, rfl⟩)
  | sleep address =>
    simp only [running] at taken
    split_ifs at taken
    cases taken
    exact .sleep _ isRunning

theorem exec_passes (placed : kernel.Placed) (notTick : action ≠ .tick)
    (taken : kernel.exec build self action = some after) :
    Passes (fun slot => (Event.process self action).proceeds = some self ∧
      (kernel.pc self).stamped = some slot) kernel after := by
  unfold exec at taken
  split at taken
  · split_ifs at taken with runnable
    cases taken
    exact .set (.keeps ⟨rfl, rfl, rfl, by simp [phase, runnable]⟩)
  · cases taken
    exact .set (.keeps (.wakeup ..))
  · exact (notTick rfl).elim
  · split_ifs at taken with isRunning
    exact running_passes placed isRunning taken

end Kernel

/-! ## The exact times -/

theorem toNat_ofNat_sub {first second : Nat} (le : second ≤ first)
    (bound : first - second < 2 ^ 32) :
    (UInt32.ofNat first - UInt32.ofNat second).toNat = first - second := by
  rw [← UInt32.ofNat_sub le, UInt32.toNat_ofNat_of_lt' bound]

/-- The times of a process that has not exited; `due` says that `upd_time` has yet to visit it. -/
structure Lives (now created : Nat) (due : Prop) (proc : Proc) : Prop where
  created_le : created ≤ now
  age_lt : now - created < 2 ^ 32
  creationTime : proc.creationTime = UInt32.ofNat created
  runTime_le : proc.runTime.toNat ≤ now - created
  runTime_lt : due → created < now → proc.runTime.toNat < now - created

/-- The times of a process that has exited. -/
structure Ended (created exited : Nat) (proc : Proc) : Prop where
  created_le : created ≤ exited
  age_lt : exited - created < 2 ^ 32
  creationTime : proc.creationTime = UInt32.ofNat created
  endTime : proc.endTime = UInt32.ofNat exited
  runTime_le : proc.runTime.toNat ≤ exited - created

namespace Lives

variable {now created : Nat} {due : Prop} {before after proc : Proc}

theorem of_times_eq (lives : Lives now created due before)
    (sameCreationTime : after.creationTime = before.creationTime)
    (sameRunTime : after.runTime = before.runTime) : Lives now created due after := by
  obtain ⟨created_le, age_lt, creationTime, runTime_le, runTime_lt⟩ := lives
  rw [← sameCreationTime] at creationTime
  rw [← sameRunTime] at runTime_le runTime_lt
  exact ⟨created_le, age_lt, creationTime, runTime_le, runTime_lt⟩

theorem born (creationTime : proc.creationTime = UInt32.ofNat now) (runTime : proc.runTime = 0) :
    Lives now now due proc :=
  ⟨le_rfl, by simp, creationTime, by simp [runTime], fun _ earlier => (lt_irrefl _ earlier).elim⟩

variable {ticks : UInt32}

section

variable (lives : Lives now created due proc) (clock : ticks = UInt32.ofNat now)
include lives clock

/-- `exit` reads the clock. -/
theorem exit : Ended created now (proc.exit ticks) :=
  ⟨lives.created_le, lives.age_lt, lives.creationTime, clock, lives.runTime_le⟩

theorem age_toNat : (ticks - proc.creationTime).toNat = now - created := by
  rw [clock, lives.creationTime]
  exact toNat_ofNat_sub lives.created_le lives.age_lt

/-- The clock advances; `upd_time` owes a visit to every process. -/
theorem tick (young : ticks - proc.creationTime ≠ 0xffffffff) (owed : Prop) :
    Lives (now + 1) created owed proc := by
  have age := lives.age_toNat clock
  have notMax : now - created ≠ 2 ^ 32 - 1 := by
    intro isMax
    apply young
    apply UInt32.toNat_inj.mp
    rw [age, isMax]
    rfl
  have created_le := lives.created_le
  have age_lt := lives.age_lt
  have runTime_le := lives.runTime_le
  exact ⟨by omega, by omega, lives.creationTime, by omega, fun _ _ => by omega⟩

end

theorem updTime_runTime (build : Scheduler) : (proc.updTime build).runTime =
    if proc.state = .running then proc.runTime + 1 else proc.runTime := by
  simp only [Proc.updTime]
  split_ifs <;> rfl

/-- `upd_time` visits a process that it has not visited in this tick. -/
theorem updTime {owed : Prop} (build : Scheduler) (lives : Lives now created due proc) (isDue : due)
    (clock : ticks = UInt32.ofNat now) (older : proc.state = .running → proc.creationTime ≠ ticks)
    (visited : ¬ owed) : Lives now created owed (proc.updTime build) := by
  refine ⟨lives.created_le, lives.age_lt, ?_, ?_, fun again => (visited again).elim⟩
  · simp only [Proc.updTime]
    split_ifs <;> exact lives.creationTime
  · rw [updTime_runTime]
    split_ifs with running
    · have ne : created ≠ now := by
        rintro rfl
        apply older running
        rw [lives.creationTime, clock]
      have less := lives.runTime_lt isDue (lt_of_le_of_ne lives.created_le ne)
      rw [UInt32.toNat_add, UInt32.toNat_one, Nat.mod_eq_of_lt]
      · exact less
      · have age_lt := lives.age_lt
        omega
    · exact lives.runTime_le

end Lives

namespace Ended

variable {created exited : Nat} {before after proc : Proc}

theorem keeps (ended : Ended created exited before) (kept : Keeps before after) :
    Ended created exited after := by
  obtain ⟨created_le, age_lt, creationTime, endTime, runTime_le⟩ := ended
  rw [← kept.creationTime] at creationTime
  rw [← kept.endTime] at endTime
  rw [← kept.runTime] at runTime_le
  exact ⟨created_le, age_lt, creationTime, endTime, runTime_le⟩

variable (ended : Ended created exited proc)
include ended

theorem lifetime : (proc.endTime - proc.creationTime).toNat = exited - created := by
  rw [ended.endTime, ended.creationTime]
  exact toNat_ofNat_sub ended.created_le ended.age_lt

theorem runTime_le_lifetime : proc.runTime ≤ proc.endTime - proc.creationTime := by
  rw [UInt32.le_iff_toNat_le, ended.lifetime]
  exact ended.runTime_le

theorem rtime_add_wtime : proc.rtime.toNat + proc.wtime.toNat = exited - created := by
  have runTime_le := ended.runTime_le
  unfold Proc.rtime Proc.wtime
  rw [UInt32.toNat_sub_of_le _ _ ended.runTime_le_lifetime, ended.lifetime]
  omega

end Ended

namespace Timed

variable {build : Scheduler} {timed after : Timed} {slot : Slot}

/-- The times in the table are those of the record. -/
structure Exact (timed : Timed) : Prop where
  placed : timed.kernel.Placed
  clock : timed.kernel.ticks = UInt32.ofNat timed.now
  nodup : timed.pass.Nodup
  lives : ∀ slot, phase (timed.kernel.table slot).state = .live →
    Lives timed.now (timed.created slot) (slot ∈ timed.pass) (timed.kernel.table slot)
  ended : ∀ slot, (timed.kernel.table slot).state = .zombie →
    Ended (timed.created slot) (timed.exited slot) (timed.kernel.table slot)

section Record

variable (timed) {kernel : Kernel}

variable (same : phase (kernel.table slot).state = phase (timed.kernel.table slot).state)
include same

theorem record_created_of_phase : (timed.record kernel).created slot = timed.created slot := by
  apply if_neg
  rintro ⟨unused, used⟩
  rw [phase_eq_absent.mpr unused] at same
  exact used (phase_eq_absent.mp same)

theorem record_exited_of_phase : (timed.record kernel).exited slot = timed.exited slot := by
  apply if_neg
  rintro ⟨living, zombie⟩
  rw [phase_eq_dead.mpr zombie] at same
  exact living (phase_eq_dead.mp same.symm)

end Record

section

variable (exact : timed.Exact) {kernel : Kernel}
include exact

/-- A step of a process leaves the times of each entry exact. -/
theorem Exact.ages {stamps : Prop}
    (ages : Ages timed.kernel.ticks stamps (timed.kernel.table slot) (kernel.table slot))
    (onTime : stamps → (timed.kernel.table slot).state = .zombie →
      (timed.kernel.table slot).endTime = timed.kernel.ticks) :
    (phase (kernel.table slot).state = .live →
      Lives timed.now ((timed.record kernel).created slot) (slot ∈ timed.pass)
        (kernel.table slot)) ∧
    ((kernel.table slot).state = .zombie →
      Ended ((timed.record kernel).created slot) ((timed.record kernel).exited slot)
        (kernel.table slot)) := by
  cases ages with
  | keeps kept =>
    rw [record_created_of_phase _ kept.phase, record_exited_of_phase _ kept.phase]
    refine ⟨fun live => ?_, fun zombie => ?_⟩
    · rw [kept.phase] at live
      exact (exact.lives slot live).of_times_eq kept.creationTime kept.runTime
    · rw [← phase_eq_dead, kept.phase, phase_eq_dead] at zombie
      exact (exact.ended slot zombie).keeps kept
  | stamp stamped kept =>
    have same : phase (kernel.table slot).state = phase (timed.kernel.table slot).state :=
      kept.phase
    rw [record_created_of_phase _ same, record_exited_of_phase _ same]
    refine ⟨fun live => ?_, fun zombie => ?_⟩
    · rw [same] at live
      exact (exact.lives slot live).of_times_eq kept.creationTime kept.runTime
    · rw [← phase_eq_dead, same, phase_eq_dead] at zombie
      have endTime := kept.endTime.trans (onTime stamped zombie).symm
      exact (exact.ended slot zombie).keeps ⟨kept.creationTime, kept.runTime, endTime, same⟩
  | born unused live creationTime runTime =>
    refine ⟨fun _ => ?_, fun zombie => ?_⟩
    · have used : (kernel.table slot).state ≠ .unused := by
        rintro unused'
        rw [unused'] at live
        cases live
      have now : (timed.record kernel).created slot = timed.now := if_pos ⟨unused, used⟩
      rw [now]
      exact .born (creationTime.trans exact.clock) runTime
    · rw [zombie] at live
      cases live
  | dies live kept =>
    have dead : (kernel.table slot).state = .zombie := phase_eq_dead.mp kept.phase
    refine ⟨fun stillLive => ?_, fun _ => ?_⟩
    · rw [dead] at stillLive
      cases stillLive
    · have used : ¬ ((timed.kernel.table slot).state = .unused ∧
          (kernel.table slot).state ≠ .unused) := by
        rintro ⟨unused, -⟩
        rw [unused] at live
        cases live
      have living : (timed.kernel.table slot).state ≠ .zombie := by
        intro zombie
        rw [zombie] at live
        cases live
      have created : (timed.record kernel).created slot = timed.created slot := if_neg used
      have exited : (timed.record kernel).exited slot = timed.now := if_pos ⟨living, dead⟩
      rw [created, exited]
      exact ((exact.lives slot live).exit exact.clock).keeps kept
  | gone unused =>
    refine ⟨fun live => ?_, fun zombie => ?_⟩
    · rw [unused] at live
      cases live
    · rw [unused] at zombie
      cases zombie

theorem Exact.process {self : Slot} {action : Action}
    (punctual : timed.Punctual (.process self action)) (notTick : action ≠ .tick)
    (taken : timed.kernel.exec build self action = some kernel) : (timed.record kernel).Exact := by
  have passes := Kernel.exec_passes exact.placed notTick taken
  have stepped : timed.kernel.Step build (self, action) kernel := taken
  have change := Kernel.step_change stepped fun user =>
    exact.placed.not_held (by simp [user, Pc.Holds])
  have times : ∀ slot, _ := fun slot => exact.ages (passes.ages slot)
    fun stamps => punctual.stamp self stamps.1 slot stamps.2
  exact {
    placed := exact.placed.change change
    clock := passes.ticks.trans exact.clock
    nodup := exact.nodup
    lives := fun slot => (times slot).1
    ended := fun slot => (times slot).2 }

theorem Exact.tick (punctual : timed.Punctual .tick) : timed.tick.Exact where
  placed :=
    have change : Kernel.Change .default timed.kernel 0 timed.tick.kernel := .tick
    exact.placed.change change
  clock := by
    change timed.kernel.ticks + 1 = _
    rw [exact.clock]
    exact (UInt32.ofNat_add ..).symm
  nodup := List.nodup_finRange _
  lives := fun slot live =>
    (exact.lives slot live).tick exact.clock (punctual.tick rfl slot live) _
  ended := exact.ended

theorem Exact.visit {todo : List Slot} (punctual : timed.Punctual .visit)
    (next : timed.pass = slot :: todo) : (timed.visit build slot todo).Exact := by
  have nodup : (slot :: todo).Nodup := next ▸ exact.nodup
  obtain ⟨visited, nodup⟩ := List.nodup_cons.mp nodup
  have older := punctual.visit rfl slot (by simp [next])
  have state : ∀ query, ((timed.visit build slot todo).kernel.table query).state =
      (timed.kernel.table query).state := by
    intro query
    simp only [Timed.visit, Kernel.set_table]
    split_ifs with same <;> simp [same]
  refine ⟨?_, exact.clock, nodup, fun query live => ?_, fun query zombie => ?_⟩
  · exact exact.placed.restate (by simp)
  · rw [state] at live
    simp only [Timed.visit, Kernel.set_table]
    split_ifs with same
    · subst same
      have isDue : query ∈ timed.pass := by simp [next]
      exact (exact.lives query live).updTime build isDue exact.clock older visited
    · obtain ⟨created_le, age_lt, creationTime, runTime_le, runTime_lt⟩ := exact.lives query live
      refine ⟨created_le, age_lt, creationTime, runTime_le, fun due => runTime_lt ?_⟩
      rw [next]
      exact List.mem_cons_of_mem _ due
  · rw [state] at zombie
    have idle : (timed.visit build slot todo).kernel.table query = timed.kernel.table query := by
      simp only [Timed.visit, Kernel.set_table]
      split_ifs with same
      · subst same
        exact if_neg (by simp [zombie])
      · rfl
    rw [idle]
    exact exact.ended query zombie

theorem Exact.step {event : Event} (punctual : timed.Punctual event)
    (stepped : timed.Step build event after) : after.Exact := by
  cases event with
  | process self action =>
    simp only [Step, exec] at stepped
    split_ifs at stepped with notTick
    obtain ⟨kernel, taken, rfl⟩ := Option.map_eq_some_iff.mp stepped
    exact exact.process punctual notTick taken
  | tick =>
    simp only [Step, exec] at stepped
    split_ifs at stepped
    cases stepped
    exact exact.tick punctual
  | visit =>
    simp only [Step, exec] at stepped
    split at stepped
    · cases stepped
    · rename_i slot todo next
      cases stepped
      exact exact.visit punctual next

end

theorem Exact.boot : (boot build).Exact where
  placed := .boot
  clock := rfl
  nodup := .nil
  lives := fun slot live => by
    refine .born ?_ ?_ <;> simp only [Timed.boot, Kernel.boot] <;> split_ifs <;>
      cases build <;> rfl
  ended := fun slot zombie => by
    have state : (((Timed.boot build).kernel.table slot).state) = _ := Kernel.boot_state slot
    rw [zombie] at state
    split_ifs at state

/-- What `waitx` reports is exact in every run in which no process gets as old as the counters
can tell, `upd_time` charges no process for the tick in which it was made, and `wait` stamps no
entry that has been taken again and holds a process that exited before: the end of the child is
the tick at which it exited, it ran for no more than its lifetime, and its running and waiting
times add up to its lifetime. -/
theorem waitx_times_exact {events : List Event} {caller : Slot}
    (run : Run (Guarded Punctual (Timed.Step build)) (.boot build) events timed)
    (reaps : timed.Reaps build caller slot after) :
    (timed.kernel.table slot).endTime = UInt32.ofNat (timed.exited slot) ∧
    (timed.kernel.table slot).runTime ≤
      (timed.kernel.table slot).endTime - (timed.kernel.table slot).creationTime ∧
    (timed.kernel.table slot).rtime.toNat + (timed.kernel.table slot).wtime.toNat =
      timed.exited slot - timed.created slot := by
  have exact : timed.Exact :=
    run.invariant (fun _ _ _ before stepped => before.step stepped.1 stepped.2) .boot
  have ended := exact.ended slot reaps.zombie
  exact ⟨ended.endTime, ended.runTime_le_lifetime, ended.rtime_add_wtime⟩

/-- What the parent 0 and its child 1 look like when the parent is about to reap the child. -/
def reaping (timed : Timed) : Bool × Pc × Option Slot × ProcState :=
  ((timed.exec .default (.process 0 (.proceed true))).isSome, timed.kernel.pc 0,
    (timed.kernel.table 1).parent, (timed.kernel.table 1).state)

theorem Reaps.of_reaping {todo : List Slot} {havekids : Bool}
    (view : timed.reaping = (true, .scan .waitx (1 :: todo) havekids, some 0, .zombie)) :
    ∃ after, timed.Reaps .default 0 1 after := by
  simp only [reaping, Prod.mk.injEq] at view
  obtain ⟨stepped, here, child, zombie⟩ := view
  obtain ⟨after, taken⟩ := Option.isSome_iff_exists.mp stepped
  exact ⟨after, ⟨⟨todo, havekids, here⟩, child, zombie, taken⟩⟩

/-- The first process makes a child, which runs for a tick and exits. -/
def oneTick : List Event :=
  ([.process 0 .dispatch, .process 0 (.fork 1 true)] : List Event) ++
  (List.replicate 3 (.process 0 (.proceed true)) : List Event) ++
  ([.process 1 .dispatch, .tick, .visit, .visit, .process 1 .exit] : List Event) ++
  (List.replicate 131 (.process 1 (.proceed true)) : List Event) ++
  ([.process 0 (.wait .waitx)] : List Event) ++
  (List.replicate 2 (.process 0 (.proceed true)) : List Event)

theorem waitx_times_exact_oneTick : ∃ timed after,
    Run (Guarded Punctual (Timed.Step .default)) (.boot .default) oneTick timed ∧
    timed.Reaps .default 0 1 after ∧
    (timed.kernel.table 1).rtime = 1 ∧ (timed.kernel.table 1).wtime = 0 ∧
    (timed.kernel.table 1).rtime.toNat + (timed.kernel.table 1).wtime.toNat =
      timed.exited 1 - timed.created 1 := by
  have performed : ∃ timed ∈ runAll (guardedExec Punctual (Timed.exec .default)) (.boot .default)
      oneTick, timed.reaping = (true, .scan .waitx (1 :: allSlots.drop 2) false, some 0, .zombie) ∧
        (timed.kernel.table 1).rtime = 1 ∧ (timed.kernel.table 1).wtime = 0 := by
    decide +kernel
  obtain ⟨timed, done, view, rtime, wtime⟩ := performed
  obtain ⟨after, reaps⟩ := Reaps.of_reaping view
  have run : Run (Guarded Punctual (Timed.Step .default)) (.boot .default) oneTick timed :=
    Run.of_guardedExec (fun _ _ _ taken => taken) done
  exact ⟨timed, after, run, reaps, rtime, wtime, (waitx_times_exact run reaps).2.2⟩

/-- A child is made during a walk of `upd_time`, is charged by that walk and exits in the same
tick. -/
def chargedAtOnce : List Event :=
  ([.process 0 .dispatch, .tick, .process 0 (.fork 1 true)] : List Event) ++
  (List.replicate 3 (.process 0 (.proceed true)) : List Event) ++
  ([.process 1 .dispatch, .visit, .visit, .process 1 .exit] : List Event) ++
  (List.replicate 131 (.process 1 (.proceed true)) : List Event) ++
  ([.process 0 (.wait .waitx)] : List Event) ++
  (List.replicate 2 (.process 0 (.proceed true)) : List Event)

/-- A process can be charged for the tick in which it was made: `waitx` then reports a waiting
time of `2 ^ 32 - 1` ticks for a child that lived for none. -/
theorem waitx_wtime_underflows : ∃ timed after,
    Run (Timed.Step .default) (.boot .default) chargedAtOnce timed ∧
    timed.Reaps .default 0 1 after ∧
    (timed.kernel.table 1).endTime - (timed.kernel.table 1).creationTime <
      (timed.kernel.table 1).runTime ∧
    (timed.kernel.table 1).wtime = 0xffffffff ∧
    timed.exited 1 - timed.created 1 = 0 := by
  have performed : ∃ timed ∈ runAll (Timed.exec .default) (.boot .default) chargedAtOnce,
      timed.reaping = (true, .scan .waitx (1 :: allSlots.drop 2) false, some 0, .zombie) ∧
      (timed.kernel.table 1).endTime - (timed.kernel.table 1).creationTime <
        (timed.kernel.table 1).runTime ∧
      (timed.kernel.table 1).wtime = 0xffffffff ∧ timed.exited 1 - timed.created 1 = 0 := by
    decide +kernel
  obtain ⟨timed, done, view, times⟩ := performed
  obtain ⟨after, reaps⟩ := Reaps.of_reaping view
  exact ⟨timed, after, Run.of_runAll (fun _ _ _ taken => taken) done, reaps, times⟩

end Timed

end Family

end Xv6
