import Xv6.Sched.MlfqOwner

/-!
# Aging

`aging_check` promotes a process whose `wait_time` exceeds `AGE`.  A record beside the kernel
notes what the clock ticks found each process doing.  `upd_time` advances `wait_time` in the
ticks that find the process `RUNNING`, so that of a process above level 0 counts these and no
others: no waiting process is promoted for having waited.
-/

namespace Xv6.Mlfq.Smp

open Function Transition Proc

/-! ## The record -/

/-- What the clock ticks have found a process doing. -/
structure Wait where
  /-- Clock ticks in a row that found the process `RUNNABLE`. -/
  waited : Nat := 0
  /-- It has waited for more than `AGE` ticks above level 0 since `aging_check` last came to it. -/
  due : Bool := false
  /-- Clock ticks that found it `RUNNING` since it was created, promoted or dispatched from
  one of the levels 0 to 3. -/
  ran : Nat := 0
  deriving DecidableEq

namespace Wait

/-- A clock tick comes to the process. -/
def tick (proc : Proc) (wait : Wait) : Wait :=
  match proc.state with
  | .running => { wait with ran := wait.ran + 1 }
  | .runnable =>
    { wait with
      waited := wait.waited + 1
      due := wait.due || decide (0 < proc.priorityLevel ∧ AGE < wait.waited + 1) }
  | _ => wait

/-- `aging_check` comes to the process. -/
def visit (proc : Proc) (wait : Wait) : Wait :=
  if proc.agingCheck.priorityLevel = proc.priorityLevel then { wait with due := false } else {}

/-- The process is dispatched, from one of the levels 0 to 3 or by the loop over level 4. -/
def dispatch (candidate : Option Slot) (wait : Wait) : Wait :=
  { wait with waited := 0, ran := if candidate.isSome then 0 else wait.ran }

end Wait

/-- A kernel with what the clock ticks found its processes doing. -/
@[ext]
structure Timed (Core : Type) where
  kernel : Kernel Core
  wait : Slot → Wait

namespace Timed

variable {Core : Type} {before after timed : Timed Core} {core : Core} {slot : Slot}

/-- The record after a step to `kernel`. -/
def observe (before : Timed Core) (core : Core) (action : Action) (kernel : Kernel Core) :
    Timed Core where
  kernel := kernel
  wait :=
    match action, before.kernel.aged core, before.kernel.dispatched core with
    | .updTime slot, _, _ =>
      update before.wait slot ((before.wait slot).tick (before.kernel.table slot))
    | .alloc slot _, _, _ => update before.wait slot {}
    | .schedule, some slot, _ =>
      update before.wait slot ((before.wait slot).visit (before.kernel.table slot))
    | .schedule, none, some slot =>
      update before.wait slot
        ((before.wait slot).dispatch (before.kernel.pc core).candidate)
    | _, _, _ => before.wait

def boot (Core : Type) : Timed Core where
  kernel := .boot Core
  wait := fun _ => {}

/-- Whenever `aging_check` comes to a process, it promotes one that has waited for more than
`AGE` ticks, and promotes none that it would not promote without the ticks in which the
process was `RUNNING`. -/
def Fair (timed : Timed Core) : Prop :=
  ∀ core slot, timed.kernel.aged core = some slot →
    let proc := timed.kernel.table slot
    ((timed.wait slot).due = true → proc.agingCheck.priorityLevel = proc.priorityLevel - 1) ∧
    (proc.agingCheck.priorityLevel = proc.priorityLevel - 1 →
      AGE < proc.waitTime - (timed.wait slot).ran)

/-- No process that `aging_check` comes to has waited for more than `AGE` ticks, or is off the CPU
above level 0 after more than `AGE` ticks in which it was `RUNNING`. -/
def Short (timed : Timed Core) : Prop :=
  ∀ core slot, timed.kernel.aged core = some slot →
    let proc := timed.kernel.table slot
    (timed.wait slot).due = false ∧
    (proc.state = .sleeping ∨ proc.state = .runnable → proc.priorityLevel ≠ 0 →
      (timed.wait slot).ran ≤ AGE)

/-! ## One entry -/

/-- Above level 0, and on a CPU at any level, `wait_time` counts the ticks in which the process
was `RUNNING`. -/
def Counted (proc : Proc) (wait : Wait) : Prop :=
  proc.priorityLevel ≠ 0 ∨ proc.state = .running → proc.waitTime = wait.ran

theorem promoted_iff (proc : Proc) : proc.agingCheck.priorityLevel = proc.priorityLevel - 1 ↔
      (proc.state = .sleeping ∨ proc.state = .runnable) ∧ AGE < proc.waitTime ∧
        proc.priorityLevel ≠ 0 := by
  unfold Proc.agingCheck
  split_ifs with promoted
  · simp [promoted]
  · simp only [promoted, iff_false]
    omega

namespace Counted

variable {proc next : Proc} {wait : Wait}

section

variable (counted : Counted proc wait)
include counted

/-- A section that neither starts the process nor changes its level or its counter. -/
theorem keep (level_eq : next.priorityLevel = proc.priorityLevel)
    (stopped : next.state = .running → proc.state = .running)
    (waitTime_eq : next.waitTime = proc.waitTime) : Counted next wait := by
  intro observed
  rw [waitTime_eq]
  apply counted
  rw [level_eq] at observed
  exact observed.imp id stopped

theorem updTime : Counted (proc.updTime .mlfq) (wait.tick proc) := by
  intro observed
  rw [updTime_priorityLevel, updTime_state] at observed
  have count := counted observed
  by_cases running : proc.state = .running
  · simp [Proc.updTime, Wait.tick, running, count]
  · have same : (wait.tick proc).ran = wait.ran := by
      unfold Wait.tick
      split <;> first | rfl | contradiction
    rw [same, Proc.updTime, if_neg running]
    exact count

theorem wakeup (ticks : UInt32) (chan : Chan) : Counted (proc.wakeup .mlfq ticks chan) wait := by
  refine counted.keep (by simp) ?_ ?_
  · rw [wakeup_state]
    split_ifs <;> simp
  · simp only [Proc.wakeup]
    split_ifs <;> rfl

theorem kill (ticks : UInt32) : Counted (proc.kill .mlfq ticks) wait := by
  refine counted.keep (by simp) ?_ ?_
  · rw [kill_state]
    split_ifs <;> simp
  · simp only [Proc.kill]
    split_ifs <;> rfl

end

theorem forked (ticks : UInt32) (pid tickets : Int) (fits : Bool) :
    Counted (proc.forked .mlfq ticks pid tickets fits) wait := by
  intro observed
  cases fits <;> simp [Proc.forked, alloc, free] at observed

theorem agingCheck (counted : Counted proc wait) : Counted proc.agingCheck (wait.visit proc) := by
  unfold Wait.visit
  by_cases promoted : proc.agingCheck.priorityLevel = proc.priorityLevel
  · rw [if_pos promoted]
    refine counted.keep promoted ?_ ?_
    · unfold Proc.agingCheck
      split_ifs <;> exact id
    · unfold Proc.agingCheck at promoted ⊢
      split_ifs at promoted ⊢ with due
      · simp only at promoted
        omega
      · rfl
  · rw [if_neg promoted]
    intro _
    unfold Proc.agingCheck at promoted ⊢
    split_ifs at promoted ⊢ with due
    · rfl
    · exact (promoted rfl).elim

theorem timeSlice (counted : Counted proc wait) (running : proc.state = .running) :
    Counted proc.timeSlice.1 wait ∧ Counted proc.timeSlice.1.yield wait := by
  have count := counted (Or.inr running)
  have same : proc.timeSlice.1.waitTime = wait.ran := by
    rw [← count]
    unfold Proc.timeSlice
    simp only
    split_ifs <;> rfl
  exact ⟨fun _ => same, fun _ => same⟩

end Counted

/-! ## Whole runs -/

variable [DecidableEq Core] {kernel : Kernel Core} {action : Action}

/-- A step of the kernel, and what the record notes of it. -/
def exec (before : Timed Core) (label : Core × Action) : Option (Timed Core) :=
  (before.kernel.exec label.1 label.2).map (before.observe label.1 label.2)

def Step (before : Timed Core) (label : Core × Action) (after : Timed Core) : Prop :=
  before.exec label = some after

/-- The lock discipline, and every counter as `Counted` says. -/
structure Inv (timed : Timed Core) : Prop where
  owned : timed.kernel.Owned
  counted : ∀ slot, Counted (timed.kernel.table slot) (timed.wait slot)

omit [DecidableEq Core] in
/-- A step that changes one entry, and the record of that process only. -/
theorem Inv.change {proc : Proc} {wait : Wait} (inv : before.Inv) (owned : after.kernel.Owned)
    (table_eq : after.kernel.table = update before.kernel.table slot proc)
    (wait_eq : after.wait = update before.wait slot wait)
    (counted : Counted proc wait) : after.Inv := by
  refine ⟨owned, fun other => ?_⟩
  rw [table_eq, wait_eq]
  obtain rfl | same := eq_or_ne other slot
  · simpa using counted
  · simpa [same] using inv.counted other

omit [DecidableEq Core] in
/-- A step that changes one entry and nothing of the record. -/
theorem Inv.write {proc : Proc} (inv : before.Inv) (owned : after.kernel.Owned)
    (table_eq : after.kernel.table = update before.kernel.table slot proc)
    (wait_eq : after.wait = before.wait)
    (counted : Counted proc (before.wait slot)) : after.Inv :=
  inv.change owned table_eq (wait_eq.trans (update_eq_self slot _).symm) counted

omit [DecidableEq Core] in
theorem Inv.sect {sect : Section} {tickets : Int} (inv : before.Inv) (owned : kernel.Owned)
    (table_eq : kernel.table = update before.kernel.table sect.slot (sect.write .mlfq
      before.kernel.ticks before.kernel.nextpid tickets (before.kernel.table sect.slot))) :
    (before.observe core (.ofSection sect) kernel).Inv := by
  have counted := inv.counted sect.slot
  cases sect with
  | updTime => exact inv.change owned table_eq rfl counted.updTime
  | alloc => exact inv.change owned table_eq rfl (.forked _ _ _ _)
  | wakeup _ chan => exact inv.write owned table_eq rfl (counted.wakeup _ chan)
  | kill =>
    refine inv.write owned table_eq rfl ?_
    simp only [Section.write]
    split_ifs
    · exact counted.kill _
    · exact counted
  | start | reap => exact inv.write owned table_eq rfl (counted.keep rfl (by rintro ⟨⟩) rfl)

theorem Inv.exec (inv : before.Inv) (executed : before.kernel.exec core action = some kernel) :
    (before.observe core action kernel).Inv := by
  have stepped : before.kernel.Step (core, action) kernel := executed
  have owned := inv.owned.step stepped
  have effect := Kernel.step_effect stepped
  generalize table_eq : kernel.table = table, leaving_eq : kernel.leaving = leaving at effect
  cases effect with
  | tick => exact ⟨owned, by simpa [observe, table_eq] using inv.counted⟩
  | scan visits idle => exact ⟨owned, by simpa [observe, table_eq, visits, idle] using inv.counted⟩
  | age slot visits idle =>
    exact inv.change owned table_eq (by simp [observe, visits]) (inv.counted slot).agingCheck
  | dispatch slot waitTime visits dispatched chosen =>
    have wait_eq : (before.observe core .schedule kernel).wait = update before.wait slot
        ((before.wait slot).dispatch (before.kernel.pc core).candidate) := by
      simp [observe, visits, dispatched]
    refine inv.change owned table_eq wait_eq fun _ => ?_
    rcases chosen with ⟨held, rfl⟩ | ⟨free, -, level_eq, rfl⟩
    · simp [Wait.dispatch, held]
    · have count := inv.counted slot (Or.inl (by simp [level_eq]))
      simpa [Wait.dispatch, free] using count
  | sect sect tickets => exact inv.sect owned table_eq
  | relate _ slot parent other =>
    refine inv.write owned table_eq ?_ ((inv.counted slot).keep rfl id rfl)
    obtain rfl | rfl := other <;> rfl
  | slice fromUser slot myproc =>
    have running := inv.owned.running core slot myproc
    exact inv.write owned table_eq rfl ((inv.counted slot).timeSlice running).1
  | expire fromUser slot myproc =>
    have running := inv.owned.running core slot myproc
    exact inv.write owned table_eq rfl ((inv.counted slot).timeSlice running).2
  | reset slot => exact inv.write owned table_eq rfl ((inv.counted slot).keep rfl id rfl)
  | yield slot
  | sleep slot
  | exit slot => exact inv.write owned table_eq rfl ((inv.counted slot).keep rfl nofun rfl)

omit [DecidableEq Core] in
theorem boot_inv (Core : Type) : (boot Core).Inv where
  owned := Kernel.boot_owned Core
  counted := by
    intro slot observed
    simp only [boot, Kernel.boot] at observed ⊢
    split_ifs <;> rfl

/-! ## Main results -/

omit [DecidableEq Core] in
/-- A process above level 0 that is promoted owes it to the ticks in which it was `RUNNING`. -/
theorem Inv.fair_iff (inv : timed.Inv) : timed.Fair ↔ timed.Short := by
  refine forall_congr' fun core => forall_congr' fun slot => imp_congr_right fun _ => ?_
  have counted := inv.counted slot
  simp only [promoted_iff]
  constructor
  · rintro ⟨promoted, earned⟩
    have unpromoted : ¬ ((timed.kernel.table slot).state = .sleeping ∨
        (timed.kernel.table slot).state = .runnable) ∨ (timed.kernel.table slot).waitTime ≤ AGE ∨
        (timed.kernel.table slot).priorityLevel = 0 := by
      by_contra none
      push Not at none
      have more := earned none
      rw [counted (Or.inl none.2.2)] at more
      exact absurd more (by simp [AGE])
    constructor
    · by_contra due
      obtain ⟨waiting, long, above⟩ := promoted (by simpa using due)
      rcases unpromoted with stopped | short | low
      · exact stopped waiting
      · exact absurd long (Int.not_lt.mpr short)
      · exact above low
    · intro waiting above
      rw [← counted (Or.inl above)]
      rcases unpromoted with stopped | short | low
      · exact (stopped waiting).elim
      · exact short
      · exact (above low).elim
  · rintro ⟨early, short⟩
    refine ⟨fun due => by simp [early] at due, ?_⟩
    rintro ⟨waiting, long, above⟩
    have most := short waiting above
    rw [← counted (Or.inl above)] at most
    exact absurd long (Int.not_lt.mpr most)

/-- In every run of the MLFQ build, `aging_check` treats the processes it comes to fairly exactly
when none of them has waited for more than `AGE` ticks, and those above level 0 that are off the
CPU were `RUNNING` in at most `AGE` ticks. -/
theorem ages_fairly_iff {labels : List (Core × Action)} {finish : Timed Core}
    (run : Run Step (boot Core) labels finish) : finish.Fair ↔ finish.Short := by
  apply Inv.fair_iff
  refine run.invariant (fun before label after inv taken => ?_) (boot_inv Core)
  obtain ⟨kernel, executed, rfl⟩ := Option.map_eq_some_iff.mp taken
  exact inv.exec executed

theorem run_of_runAll {start finish : Timed Core} {labels : List (Core × Action)}
    (done : runAll exec start labels = some finish) : Run Step start labels finish :=
  Run.of_runAll (fun _ _ _ => id) done

/-- `aging_check` comes to the first process after its slice at level 0 and leaves it at level 1. -/
theorem ages_fairly_first : ∃ finish,
    Run Step (boot Unit) (passTo 0 ++ useSlice [0] 0 ++ [((), .schedule)]) finish ∧
    (finish.kernel.aged () = some 0 ∧ (finish.kernel.table 0).priorityLevel = 1) ∧
    (finish.Fair ↔ finish.Short) :=
  Run.exists_and_of_runAll (fun _ _ _ => id) (by decide +kernel) fun _ run _ => ages_fairly_iff run

/-! ## A promotion of a process that never waits -/

instance : DecidableEq (Kernel Unit) := fun _ _ => decidable_of_iff _ Kernel.ext_iff.symm

instance : DecidableEq (Timed Unit) := fun _ _ => decidable_of_iff _ Timed.ext_iff.symm

/-- The only process has used up its slices at the levels below `level`, and has then had `rounds`
slices at level 4. -/
def worn (level rounds : Nat) : Timed Unit :=
  let spent := 2 ^ level - 1 + 16 * rounds
  let counted := (if level = 0 then 0 else 2 ^ (level - 1)) + 16 * rounds
  let first : Proc :=
    { state := .runnable
      pid := 1
      tickets := 1
      timeAvail := 1
      sprior := 60
      niceness := 5
      runTime := UInt32.ofNat spent
      runTimePrev := UInt32.ofNat spent
      priorityLevel := level
      assTicks := 2 ^ level
      waitTime := counted
      queueTicks := (List.range 5).map fun i =>
        if i = 4 then 16 * rounds else if i < level then 2 ^ i else 0 }
  { kernel :=
      { Kernel.boot Unit with
        table := fun slot => if slot = 0 then first else {}
        ticks := UInt32.ofNat spent }
    wait := fun slot => if slot = 0 then { ran := counted } else {} }

/-- A pass that dispatches the process at level 4, its slice, and the rest of the pass. -/
def lastRound : List (Unit × Action) :=
  List.replicate (66 + 65 * 4 + 1) ((), .schedule) ++ useSlice [0] 4 ++
    List.replicate 64 ((), .schedule)

theorem first_demoted : ∀ level : Fin 4,
    runAll exec (worn level 0) (passTo level ++ useSlice [0] level) =
      some (worn (level + 1) 0) := by
  decide +kernel

theorem first_rounds : ∀ round : Fin 2,
    runAll exec (worn 4 round) lastRound = some (worn 4 (round + 1)) := by
  decide +kernel

theorem boot_reaches_worn : ∃ labels, Run Step (boot Unit) labels (worn 4 2) := by
  have start : boot Unit = worn 0 0 := by decide +kernel
  have down : ∀ level ≤ 4, ∃ labels, Run Step (boot Unit) labels (worn level 0) := by
    intro level bound
    induction level with
    | zero => exact ⟨[], start ▸ .nil _⟩
    | succ level ih =>
      obtain ⟨labels, run⟩ := ih (by omega)
      exact ⟨_, run.append (run_of_runAll (first_demoted ⟨level, by omega⟩))⟩
  obtain ⟨labels, run⟩ := down 4 le_rfl
  exact ⟨_, (run.append (run_of_runAll (first_rounds 0))).append (run_of_runAll (first_rounds 1))⟩

/-- The last pass comes to a process that was `RUNNING` in every tick and promotes it. -/
theorem promoted_for_running : ∃ labels finish, Run Step (boot Unit) labels finish ∧
    finish.kernel.aged () = some 0 ∧ (finish.kernel.table 0).priorityLevel = 4 ∧
    (finish.kernel.table 0).agingCheck.priorityLevel = 3 ∧
    (finish.wait 0).waited = 0 ∧ (finish.wait 0).ran = 40 ∧ ¬ finish.Fair := by
  obtain ⟨labels, run⟩ := boot_reaches_worn
  have outcome : ∃ finish ∈ runAll exec (worn 4 2) [((), .schedule)],
      finish.kernel.aged () = some 0 ∧ (finish.kernel.table 0).priorityLevel = 4 ∧
      (finish.kernel.table 0).agingCheck.priorityLevel = 3 ∧
      (finish.kernel.table 0).waitTime = 40 ∧ (finish.wait 0).waited = 0 ∧
      (finish.wait 0).ran = 40 := by
    decide +kernel
  obtain ⟨finish, executed, visits, level_eq, promoted, waitTime_eq, waited_eq, ran_eq⟩ := outcome
  refine ⟨_, finish, run.append (run_of_runAll executed), visits, level_eq, promoted, waited_eq,
    ran_eq, fun fair => ?_⟩
  have earned := (fair () 0 visits).2 (by rw [promoted, level_eq]; rfl)
  rw [waitTime_eq, ran_eq] at earned
  exact absurd earned (by decide)

end Timed

end Xv6.Mlfq.Smp
