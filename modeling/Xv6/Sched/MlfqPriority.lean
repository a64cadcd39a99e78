import Xv6.Sched.MlfqOwner

/-!
# Priority order of the MLFQ dispatches

On one CPU a pass never goes back to a level it has left.  As long as no process becomes `RUNNABLE`
at a level the pass has gone past, every dispatch is of a process of least level number.  The
level-4 loop stays under way while the processes it dispatches run, so one of them may make a
process of a lower level `RUNNABLE`, and the loop goes on to its next process.
-/

namespace Xv6.Mlfq

open Function Transition

/-- The pass under way will not come to a slot of this level before it dispatches a process of a
higher level number. -/
def Pc.Passed (slot : Slot) (level : Int) : Pc → Prop
  | .level i todo _ check => level < i ∨ (check = none ∧ level = i ∧ slot ∉ todo)
  | .roundRobin _ | .run _ (.roundRobin _) => level < 4
  | _ => False

instance (slot : Slot) (level : Int) : (pc : Pc) → Decidable (pc.Passed slot level)
  | .level .. => inferInstanceAs (Decidable (_ ∨ _ ∧ _ ∧ _ ∉ _))
  | .roundRobin _ | .run _ (.roundRobin _) => inferInstanceAs (Decidable (level < 4))
  | .top | .aging _ | .run _ .levels => instDecidableFalse

theorem Pc.passed_of_resume {own slot : Slot} {pass : Pass} {level : Int}
    (passed : pass.resume.Passed slot level) : (run own pass).Passed slot level := by
  cases pass with
  | levels => exact passed
  | roundRobin todo => exact passed

namespace Smp.Kernel

variable {kernel after : Kernel Unit} {label : Unit × Action}

/-- No process becomes `RUNNABLE` at a level the pass has gone past. -/
def ReadiesAhead (kernel : Kernel Unit) (label : Unit × Action) : Prop :=
  ∀ joined ∈ kernel.joins label.1 label.2, ¬ (kernel.pc label.1).Passed joined.1 joined.2

instance (kernel : Kernel Unit) (label : Unit × Action) : Decidable (kernel.ReadiesAhead label) :=
  inferInstanceAs (Decidable (∀ joined ∈ _, _))

/-- Every `RUNNABLE` process is still ahead of the pass. -/
structure Ahead (kernel : Kernel Unit) : Prop where
  owned : kernel.Owned
  nonneg : ∀ slot, 0 ≤ (kernel.table slot).priorityLevel
  ahead : ∀ slot, kernel.table.Runnable slot →
    ¬ (kernel.pc ()).Passed slot (kernel.table slot).priorityLevel
  chosen : ∀ i todo minTime candidate, kernel.pc () = .level i todo minTime (some candidate) →
    (kernel.table candidate).priorityLevel = i

/-! ## Steps -/

theorem step_nonneg (stepped : kernel.Step label after)
    (was : ∀ slot, 0 ≤ (kernel.table slot).priorityLevel) (slot : Slot) :
    0 ≤ (after.table slot).priorityLevel := by
  have effect := step_effect stepped
  obtain ⟨core, action⟩ := label
  generalize after.table = table at effect ⊢
  generalize after.leaving = leaving at effect
  have write {written : Slot} {proc : Proc} (low : 0 ≤ proc.priorityLevel) :
      0 ≤ (update kernel.table written proc slot).priorityLevel := by
    obtain rfl | other := eq_or_ne slot written
    · simpa using low
    · simpa [other] using was slot
  cases effect with
  | tick | scan => exact was slot
  | dispatch slot | reset slot | yield slot | sleep slot | exit slot | relate _ slot =>
    exact write (was slot)
  | age slot =>
    have low := was slot
    refine write ?_
    unfold Proc.agingCheck
    split_ifs
    · simp only
      omega
    · exact low
  | slice _ slot | expire _ slot =>
    have low := was slot
    refine write ?_
    simp only [Proc.timeSlice, Proc.yield]
    split_ifs <;> simp only <;> omega
  | sect sect =>
    have low := was sect.slot
    refine write ?_
    cases sect with
    | alloc _ fits => cases fits <;> simp [Section.write, Proc.forked, Proc.alloc, Proc.free]
    | kill =>
      simp only [Section.write]
      split_ifs
      · simpa using low
      · exact low
    | updTime | wakeup => simpa [Section.write] using low
    | start | reap => exact low

/-- The scheduler's own step goes past a process only if it had gone past it before. -/
theorem schedule_passed (owned : kernel.Owned) (stepped : kernel.schedule () = some after)
    {slot : Slot} {level : Int} (low : 0 ≤ level) (waits : Waits after.table level slot)
    (passed : (after.pc ()).Passed slot level) : (kernel.pc ()).Passed slot level := by
  have all := mem_allSlots slot
  unfold schedule at stepped
  split at stepped <;> rename_i here <;> rw [here]
  case h_1 | h_3 | h_6 =>
    cases stepped
    exact (passed : False).elim
  case h_2 =>
    cases stepped
    obtain below | ⟨-, -, absent⟩ := (passed : _ ∨ _ ∧ _ ∧ _)
    · exact absurd low (by simpa using below)
    · exact (absent all).elim
  case h_4 i head todo minTime check =>
    have seen := visit_cases head i owned.ctime_eq (owned.found _ _ _ _ _ here)
    obtain ⟨-, stepped⟩ := Option.ite_none_right_eq_some.mp stepped
    generalize visit kernel.table i head minTime check = visited at seen stepped
    cases stepped
    obtain below | ⟨unfound, rfl, absent⟩ := (passed : _ ∨ _ ∧ _ ∧ _)
    · exact .inl below
    · obtain ⟨-, -, rfl⟩ | ⟨rfl, skipped⟩ := seen
      · cases unfound
      · refine .inr ⟨unfound, rfl, fun member => ?_⟩
        obtain rfl | rest := List.mem_cons.mp member
        · exact skipped unfound waits
        · exact absent rest
  case h_5 i minTime check =>
    have found := owned.found _ _ _ _ _ here
    split_ifs at stepped with first below
    · cases stepped
      obtain below | ⟨-, -, absent⟩ := (passed : _ ∨ _ ∧ _ ∧ _)
      · have cases_of : level < i ∨ level = i := by omega
        exact cases_of.imp id fun same => ⟨found.mp first, same, List.not_mem_nil⟩
      · exact (absent all).elim
    · cases stepped
      have last : level < 4 := passed
      have cases_of : level < i ∨ level = i := by omega
      exact cases_of.imp id fun same => ⟨found.mp first, same, List.not_mem_nil⟩
    · obtain ⟨chosen, -, rfl⟩ := Option.map_eq_some_iff.mp stepped
      exact (passed : False).elim
  case h_7 =>
    split_ifs at stepped <;> cases stepped <;> exact passed
  case h_8 => cases stepped

/-- A scan's candidate is of the level it scans. -/
theorem schedule_chosen (inv : kernel.Ahead) (stepped : kernel.schedule () = some after) {i : Nat}
    {todo : List Slot} {minTime : Int} {candidate : Slot}
    (there : after.pc () = .level i todo minTime (some candidate)) :
    (after.table candidate).priorityLevel = i := by
  unfold schedule at stepped
  split at stepped <;> rename_i here
  case h_4 j head todo minTime check =>
    have seen := visit_cases head j inv.owned.ctime_eq (inv.owned.found _ _ _ _ _ here)
    obtain ⟨-, stepped⟩ := Option.ite_none_right_eq_some.mp stepped
    generalize visit kernel.table j head minTime check = visited at seen stepped
    cases stepped
    obtain ⟨waits, -, rfl⟩ | ⟨rfl, -⟩ := seen
    · cases there
      exact waits.2
    · cases there
      exact inv.chosen _ _ _ _ here
  case h_5 j minTime check =>
    have found := inv.owned.found _ _ _ _ _ here
    split_ifs at stepped with first
    · cases stepped
      cases there
      cases found.mp first
    · cases stepped
      cases there
    · obtain ⟨chosen, -, rfl⟩ := Option.map_eq_some_iff.mp stepped
      cases there
  case h_7 => split_ifs at stepped <;> cases stepped <;> cases there
  all_goals
    cases stepped
    try cases there

/-- Every step that readies processes only ahead of the pass keeps them all ahead of it. -/
theorem Ahead.step (inv : kernel.Ahead) (readies : kernel.ReadiesAhead label)
    (stepped : kernel.Step label after) : after.Ahead := by
  obtain ⟨core, action⟩ := label
  have nonneg := step_nonneg stepped inv.nonneg
  -- where the pass was before the step, it had not gone past a process that waits after it
  have before : ∀ slot, after.table.Runnable slot →
      ¬ (kernel.pc ()).Passed slot (after.table slot).priorityLevel := by
    intro slot runnable
    obtain ⟨was, same⟩ | joined := waits_cases stepped ⟨runnable, rfl⟩
    · exact same ▸ inv.ahead slot was
    · exact readies _ joined
  obtain rfl | scheduled := eq_or_ne action .schedule
  · refine ⟨inv.owned.step stepped, nonneg, fun slot runnable passed => ?_, ?_⟩
    · exact before slot runnable
        (schedule_passed inv.owned stepped (nonneg slot) ⟨runnable, rfl⟩ passed)
    · exact fun i todo minTime candidate => schedule_chosen inv stepped
  · obtain ⟨free, same | ⟨own, pass, here, moved⟩⟩ := other_pc stepped scheduled
    · rw [← same] at before free
      refine ⟨inv.owned.step stepped, nonneg, before, fun i todo minTime candidate here => ?_⟩
      exact absurd free (here ▸ Option.some_ne_none candidate)
    · refine ⟨inv.owned.step stepped, nonneg, fun slot runnable passed => ?_, ?_⟩
      · rw [moved, update_self] at passed
        exact before slot runnable (here ▸ Pc.passed_of_resume passed)
      · rw [moved, update_self]
        cases pass <;> simp [Pass.resume]

theorem boot_ahead : (boot Unit).Ahead where
  owned := boot_owned Unit
  nonneg := by decide +kernel
  ahead := fun _ _ => id
  chosen := by simp [boot]

/-! ## Main results -/

/-- The next dispatch is of a process of least level number. -/
def DispatchesHighest (kernel : Kernel Unit) : Prop :=
  ∀ slot ∈ kernel.dispatched (), ∀ other, kernel.table.Runnable other →
    (kernel.table slot).priorityLevel ≤ (kernel.table other).priorityLevel

theorem Ahead.dispatchesHighest (inv : kernel.Ahead) : kernel.DispatchesHighest := by
  intro slot chosen other runnable
  have ahead := inv.ahead other runnable
  unfold dispatched at chosen
  split at chosen
  next i minTime check here =>
    obtain ⟨-, rfl⟩ := Option.ite_none_left_eq_some.mp chosen
    have level_eq := inv.chosen _ _ _ _ here
    rw [here] at ahead
    simp only [Pc.Passed, not_or] at ahead
    omega
  next candidate todo here =>
    obtain ⟨found, ⟨⟩⟩ := Option.ite_none_right_eq_some.mp chosen
    rw [here] at ahead
    simp only [Pc.Passed] at ahead
    omega
  next => cases chosen

/-- In every run of the MLFQ build on one CPU in which no process becomes `RUNNABLE` at a level the
pass under way has gone past, no dispatch is of a process over a `RUNNABLE` one of a lower level
number. -/
theorem dispatches_highest {labels : List (Unit × Action)}
    (run : Run (Guarded ReadiesAhead Step) (boot Unit) labels kernel) :
    kernel.DispatchesHighest :=
  (run.invariant (fun _ _ _ inv taken => inv.step taken.1 taken.2) boot_ahead).dispatchesHighest

/-- The first process forks; it uses up its slices at the levels 0 and 1, its child the one at
level 0, and the next pass finds the child at level 1. -/
def demoting : List (Unit × Action) :=
  passTo 0 ++ fork 1 ++ useSlice [0, 1] 0 ++ passTo 0 ++ useSlice [0, 1] 0 ++
    passTo 1 ++ useSlice [0, 1] 1 ++ (passTo 1).dropLast

theorem dispatches_highest_demoting : ∃ finish,
    Run (Guarded ReadiesAhead Step) (boot Unit) demoting finish ∧
    (finish.dispatched () = some 1 ∧ Waits finish.table 1 1 ∧ Waits finish.table 2 0) ∧
    finish.DispatchesHighest :=
  Run.exists_and_of_guardedExec (fun _ _ _ => id) (by decide +kernel) fun _ run _ =>
    dispatches_highest run

/-- Two processes use up their slices at all levels.  In the level-4 loop the one in slot 0 forks
and yields. -/
def forking : List (Unit × Action) :=
  passTo 0 ++ fork 1 ++ useSlice [0, 1] 0 ++ passTo 0 ++ useSlice [0, 1] 0 ++
    ([1, 2, 3].flatMap fun level =>
      passTo level ++ useSlice [0, 1] level ++ passTo level ++ useSlice [0, 1] level) ++
    List.replicate (66 + 65 * 4 + 1) ((), .schedule) ++ fork 2 ++ [((), .reset), ((), .yield)]

/-- The level-4 loop goes on to slot 1 while the child in slot 2, at level 0, is `RUNNABLE`. -/
theorem dispatches_over_child : ∃ finish, Run Step (boot Unit) forking finish ∧
    finish.dispatched () = some 1 ∧ Waits finish.table 4 1 ∧ Waits finish.table 0 2 ∧
    ¬ finish.DispatchesHighest := by
  obtain ⟨finish, executed, dispatched, last, first⟩ :
      ∃ finish ∈ runAll (fun kernel label => kernel.exec label.1 label.2) (boot Unit) forking,
        finish.dispatched () = some 1 ∧ Waits finish.table 4 1 ∧ Waits finish.table 0 2 := by
    decide +kernel
  refine ⟨finish, Run.of_runAll (fun _ _ _ => id) executed, dispatched, last, first, ?_⟩
  intro highest
  have ordered := highest 1 dispatched 2 first.1
  rw [last.2, first.2] at ordered
  exact absurd ordered (by decide)

end Smp.Kernel

end Xv6.Mlfq
