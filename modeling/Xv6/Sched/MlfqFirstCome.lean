import Xv6.Sched.MlfqOwner

/-!
# First come, first served at the levels 0 to 3

The scan of a level keeps its first candidate unless it comes to a process with a smaller `ctime`.
`allocproc` records the time of creation in `creationTime` and nothing writes `ctime`, so what is
dispatched is the first process of the level in the order of the table.
-/

namespace Xv6.Mlfq

open Function Proc

/-- The level that a scheduler scans, the slots it has not come to and its candidate. -/
structure Scan where
  level : Nat
  todo : List Slot
  check : Option Slot

def Pc.scan : Pc → Option Scan
  | .level i todo _ check => some ⟨i, todo, check⟩
  | _ => none

theorem Pc.candidate_eq {pc : Pc} {scan : Scan} (position : scan ∈ pc.scan) :
    pc.candidate = scan.check := by
  cases pc <;> cases position
  rfl

theorem Pass.scan_resume (pass : Pass) : pass.resume.scan = none := by cases pass <;> rfl

namespace Smp.Kernel

open Transition

variable {Core : Type} {kernel after : Kernel Core} {core : Core} {slot : Slot} {pass : Pass}
  {action : Action}

/-- The candidate was created no later than a process. -/
def Precedes (table : Table) (check : Option Slot) (slot : Slot) : Prop :=
  ∃ chosen ∈ check, (table chosen).creationTime ≤ (table slot).creationTime

instance (table : Table) (check : Option Slot) (slot : Slot) :
    Decidable (Precedes table check slot) :=
  inferInstanceAs (Decidable (∃ chosen ∈ check, _))

/-- What is dispatched from a level is as old as any process waiting there, and its lock is the
only one that the scheduler holds. -/
def FirstCome (kernel : Kernel Core) (core : Core) : Prop :=
  ∀ i todo minTime check slot, kernel.pc core = .level i todo minTime check →
    kernel.dispatched core = some slot →
    (∀ other, Waits kernel.table i other →
      (kernel.table slot).creationTime ≤ (kernel.table other).creationTime) ∧
    ∀ query, kernel.owner query = some core ↔ query = slot

variable [DecidableEq Core] {label : Core × Action}

/-- A scan with a candidate comes to no older process of its level, and none joins the level in a
slot that a scan of it has passed. -/
def InTurn (kernel : Kernel Core) (label : Core × Action) : Prop :=
  (label.2 = .schedule → ∀ scan ∈ (kernel.pc label.1).scan, ∀ slot ∈ scan.todo.head?,
    scan.check ≠ none → Waits kernel.table scan.level slot →
      Precedes kernel.table scan.check slot) ∧
  ∀ joined ∈ kernel.joins label.1 label.2, ∀ core, ∀ scan ∈ (kernel.pc core).scan,
    joined.2 = scan.level → joined.1 ∉ scan.todo →
      Waits kernel.table scan.level joined.1 ∨ Precedes kernel.table scan.check joined.1

instance [Fintype Core] (kernel : Kernel Core) (label : Core × Action) :
    Decidable (kernel.InTurn label) :=
  @instDecidableAnd _ _ inferInstance inferInstance

/-- The processes of the level in the slots that a scan has passed are no older than its
candidate. -/
def Settled (kernel : Kernel Core) : Prop :=
  ∀ core, ∀ scan ∈ (kernel.pc core).scan, ∀ slot, slot ∉ scan.todo →
    Waits kernel.table scan.level slot → Precedes kernel.table scan.check slot

/-! ## Steps -/

/-- A scan after a step of its scheduler: at its start, or one slot further. -/
def Advanced (kernel after : Kernel Core) (core : Core) (scan : Scan) : Prop :=
  scan.todo = allSlots ∨ after.table = kernel.table ∧ ∃ slot check,
    ⟨scan.level, slot :: scan.todo, check⟩ ∈ (kernel.pc core).scan ∧
    (scan.check = check ∧ (check = none → ¬ Waits kernel.table scan.level slot) ∨
      check = none ∧ scan.check = some slot)

theorem schedule_pc (owned : kernel.Owned) (stepped : kernel.schedule core = some after) :
    ∃ pc, after.pc = update kernel.pc core pc ∧
      ∀ scan ∈ pc.scan, kernel.Advanced after core scan := by
  unfold schedule at stepped
  split at stepped
  case h_4 i slot todo minTime check here =>
    by_cases free : kernel.owner slot = none
    · rw [if_pos free] at stepped
      cases stepped
      refine ⟨_, rfl, fun scan member => ?_⟩
      obtain rfl : _ = scan := Option.some.inj member
      refine .inr ⟨rfl, slot, check, here ▸ rfl, ?_⟩
      obtain ⟨-, none, visited⟩ | ⟨visited, skipped⟩ :=
        visit_cases slot i owned.ctime_eq (owned.found _ _ _ _ _ here)
      · exact .inr ⟨none, congrArg Prod.snd visited⟩
      · exact .inl ⟨congrArg Prod.snd visited, skipped⟩
    · rw [if_neg free] at stepped
      cases stepped
  case h_5 =>
    split_ifs at stepped
    · cases stepped
      exact ⟨_, rfl, by rintro _ ⟨⟩; exact .inl rfl⟩
    · cases stepped
      exact ⟨_, rfl, by rintro _ ⟨⟩⟩
    · obtain ⟨slot, -, rfl⟩ := Option.map_eq_some_iff.mp stepped
      exact ⟨_, rfl, by rintro _ ⟨⟩⟩
  case h_7 => split_ifs at stepped <;> cases stepped <;> exact ⟨_, rfl, by rintro _ ⟨⟩⟩
  case h_2 =>
    cases stepped
    exact ⟨_, rfl, by rintro _ ⟨⟩; exact .inl rfl⟩
  all_goals
    cases stepped
    try exact ⟨_, rfl, by rintro _ ⟨⟩⟩

/-- The other steps leave the scans where they are. -/
theorem step_pc (owned : kernel.Owned) (stepped : kernel.Step label after) :
    ∃ pc, after.pc = update kernel.pc label.1 pc ∧ ∀ scan ∈ pc.scan,
      scan ∈ (kernel.pc label.1).scan ∨ label.2 = .schedule ∧
        kernel.Advanced after label.1 scan := by
  by_cases scheduled : label.2 = .schedule
  · have stepped' := stepped
    rw [Step, scheduled] at stepped'
    obtain ⟨pc, moved, advanced⟩ := schedule_pc owned stepped'
    exact ⟨pc, moved, fun scan member => .inr ⟨scheduled, advanced scan member⟩⟩
  · obtain ⟨-, same | ⟨-, pass, -, moved⟩⟩ := other_pc stepped scheduled
    · exact ⟨_, same.trans (update_eq_self ..).symm, fun _ => .inl⟩
    · exact ⟨_, moved, by simp [pass.scan_resume]⟩

/-- Only `allocproc` writes the time of creation, and it leaves the process `USED`. -/
theorem step_creationTime (stepped : kernel.Step label after)
    (runnable : after.table.Runnable slot) :
    (after.table slot).creationTime = (kernel.table slot).creationTime := by
  have effect := step_effect stepped
  obtain ⟨core, action⟩ := label
  unfold Table.Runnable at runnable
  generalize after.table = table at effect runnable ⊢
  generalize after.leaving = leaving at effect
  have kept {written : Slot} {proc : Proc}
      (same : proc.state = .runnable → proc.creationTime = (kernel.table written).creationTime)
      (runnable : (update kernel.table written proc slot).state = .runnable) :
      (update kernel.table written proc slot).creationTime =
        (kernel.table slot).creationTime := by
    obtain rfl | other := eq_or_ne slot written
    · rw [update_self] at runnable ⊢
      exact same runnable
    · rw [update_of_ne other]
  cases effect with
  | tick | scan => rfl
  | dispatch | reset | yield | sleep | exit | relate => exact kept (fun _ => rfl) runnable
  | age | slice | expire =>
    refine kept (fun _ => ?_) runnable
    simp only [agingCheck, Proc.timeSlice, yield]
    split_ifs <;> rfl
  | sect sect =>
    refine kept (fun runnable => ?_) runnable
    cases sect with
    | alloc =>
      rw [Section.write, forked_state] at runnable
      split_ifs at runnable
    | reap => cases runnable
    | updTime | wakeup | kill | start =>
      simp only [Section.write, updTime, wakeup, kill, start]
      try split_ifs <;> rfl

theorem Settled.step (settled : kernel.Settled) (owned : kernel.Owned)
    (inTurn : kernel.InTurn label) (stepped : kernel.Step label after) : after.Settled := by
  intro core scan position slot passed waits
  -- the candidate and the waiting process are `RUNNABLE` after the step
  have kept (precedes : Precedes kernel.table scan.check slot) :
      Precedes after.table scan.check slot := by
    obtain ⟨chosen, member, le⟩ := precedes
    have runnable :=
      (owned.step stepped).candidate core chosen ((Pc.candidate_eq position).trans member)
    refine ⟨chosen, member, ?_⟩
    rwa [step_creationTime stepped runnable, step_creationTime stepped waits.1]
  have stays (position : scan ∈ (kernel.pc core).scan) : Precedes after.table scan.check slot := by
    have before : Waits kernel.table scan.level slot ∨ Precedes kernel.table scan.check slot :=
      (waits_cases stepped waits).elim .inl fun joins =>
        inTurn.2 _ joins core scan position rfl passed
    exact kept (before.elim (settled core scan position slot passed) id)
  obtain ⟨pc, moved, advanced⟩ := step_pc owned stepped
  by_cases same : core = label.1
  case neg =>
    rw [moved, update_of_ne same] at position
    exact stays position
  subst same
  rw [moved, update_self] at position
  obtain position | ⟨scheduled, start | ⟨table_eq, head, check, position, visited⟩⟩ :=
    advanced scan position
  · exact stays position
  · exact absurd (start ▸ mem_allSlots slot) passed
  rw [table_eq] at waits
  obtain rfl | other := eq_or_ne slot head
  · obtain ⟨rfl, skipped⟩ | ⟨-, chosen⟩ := visited
    · exact kept (inTurn.1 scheduled _ position slot rfl (fun none => skipped none waits) waits)
    · exact ⟨slot, chosen, UInt32.le_refl _⟩
  · have precedes := settled label.1 _ position slot (by simp [other, passed]) waits
    obtain ⟨rfl, -⟩ | ⟨rfl, -⟩ := visited
    · exact kept precedes
    · obtain ⟨_, ⟨⟩, -⟩ := precedes

/-! ## Main results -/

/-- In every run in which no scan passes over an older process, the levels 0 to 3 are served in
the order of creation. -/
theorem levels_firstCome {labels : List (Core × Action)} {finish : Kernel Core}
    (run : Run (Guarded InTurn Step) (boot Core) labels finish) (core : Core) :
    finish.FirstCome core := by
  have inv : finish.Owned ∧ finish.Settled := by
    induction run with
    | nil => exact ⟨boot_owned Core, by rintro core _ ⟨⟩⟩
    | snoc _ taken inv => exact ⟨inv.1.step taken.2, inv.2.step inv.1 taken.1 taken.2⟩
  intro i todo minTime check slot position dispatched
  simp only [Kernel.dispatched, position] at dispatched
  cases todo with
  | cons => cases dispatched
  | nil =>
    obtain ⟨-, rfl⟩ := Option.ite_none_left_eq_some.mp dispatched
    refine ⟨fun other waits => ?_, fun query => ?_⟩
    · have scanned : ⟨i, [], some slot⟩ ∈ (finish.pc core).scan := position ▸ rfl
      obtain ⟨_, ⟨⟩, le⟩ := inv.2 core _ scanned other List.not_mem_nil waits
      exact le
    · rw [inv.1.owner_iff, position]
      exact Option.some_inj.trans eq_comm

/-- The first process makes a child in slot 1, a tick later one in slot 2, and sleeps. -/
def twoChildren : List (Unit × Action) :=
  passTo 0 ++ fork 1 ++ [((), .tick)] ++ fork 2 ++ [((), .sleep (.proc 0))] ++ (passTo 0).dropLast

/-- The older child is dispatched, and the scheduler holds no other lock. -/
theorem levels_firstCome_twoChildren : ∃ finish,
    Run (Guarded InTurn Step) (boot Unit) twoChildren finish ∧
    (finish.dispatched () = some 1 ∧ Waits finish.table 0 1 ∧ Waits finish.table 0 2 ∧
      (finish.table 1).creationTime = 0 ∧ (finish.table 2).creationTime = 1) ∧
    finish.FirstCome () :=
  Run.exists_and_of_guardedExec (fun _ _ _ => id) (by decide +kernel) fun _ run _ =>
    levels_firstCome run ()

/-- The first process makes two children in the slots 1 and 2, and after the exit of the one in
slot 1 a third, which takes its place and is dispatched while the older second child waits. -/
theorem younger_dispatched : ∃ labels, ∃ finish : Kernel Unit, Run Step (boot Unit) labels finish ∧
    finish.dispatched () = some 1 ∧ Waits finish.table 0 2 ∧
    (finish.table 1).creationTime = 1 ∧ (finish.table 2).creationTime = 0 ∧
    ¬ finish.FirstCome () := by
  obtain ⟨finish, executed, position, waits, younger, older⟩ :
      ∃ finish ∈ runAll (fun kernel label => kernel.exec label.1 label.2) (boot Unit)
        (passTo 0 ++ fork 1 ++ fork 2 ++ [((), .sleep (.proc 0))] ++ passTo 0 ++
          [((), .wakeup 0 (.proc 0)), ((), .exit)] ++ passTo 0 ++ [((), .reap 1), ((), .tick)] ++
          fork 1 ++ [((), .sleep (.proc 0))] ++ (passTo 0).dropLast),
        finish.pc () = .level 0 [] 0 (some 1) ∧ Waits finish.table 0 2 ∧
        (finish.table 1).creationTime = 1 ∧ (finish.table 2).creationTime = 0 := by
    decide +kernel
  have dispatched : finish.dispatched () = some 1 := by simp [Kernel.dispatched, position]
  refine ⟨_, finish, Run.of_runAll (fun _ _ _ => id) executed, dispatched, waits, younger, older,
    fun firstCome => ?_⟩
  have le := (firstCome _ _ _ _ _ position dispatched).1 2 waits
  rw [younger, older] at le
  exact absurd le (by decide)

end Smp.Kernel

end Xv6.Mlfq
