import Xv6.Sched.Sections

/-!
# Reuse of process-table slots

Two kernels that agree on everything except the fields of `UNUSED` slots are run side by side
with the same steps.  `allocproc` resets some of the fields that an earlier process has left in
its slot and not others.  As long as these others agree in the two kernels when a slot is taken,
the kernels go on to agree, and their schedulers choose the same processes.
-/

namespace Xv6.Builds

open Transition

/-! ## What a slot carries over -/

/-- The fields of a slot that neither `allocproc` nor `fork` writes. -/
structure Leftovers where
  alarm : Alarm
  killed : Bool
  dprior : UInt32
  ctime : UInt32
  countTimeCalled : UInt32
  totalSleep : UInt32
  waitTime : Int
  /-- The level, its time slice and the counters of the MLFQ build, which `allocproc` writes in
  that build only. -/
  queue : Option (Int × Int × Int × List Int)
  deriving DecidableEq

def Entry.leftovers (build : Scheduler) (entry : Entry) : Leftovers :=
  let proc := entry.proc
  { alarm := entry.alarm
    killed := proc.killed
    dprior := proc.dprior
    ctime := proc.ctime
    countTimeCalled := proc.countTimeCalled
    totalSleep := proc.totalSleep
    waitTime := proc.waitTime
    queue :=
      if build = .mlfq then none
      else some (proc.priorityLevel, proc.assTicks, proc.ticksElapsed, proc.queueTicks) }

/-- Two processes made in the same way are the same exactly when their slots carried the same
leftovers. -/
theorem forked_eq_iff {build : Scheduler} {first second : Entry} (firstBlank : Blank first.proc)
    (secondBlank : Blank second.proc) (ticks : UInt32) (pid tickets : Int) :
    ({ first with proc := first.proc.forked build ticks pid tickets true } : Entry) =
        { second with proc := second.proc.forked build ticks pid tickets true } ↔
      first.leftovers build = second.leftovers build := by
  obtain ⟨-, -, firstParent, firstChan⟩ := firstBlank
  obtain ⟨-, -, secondParent, secondChan⟩ := secondBlank
  cases build <;>
    simp [Proc.forked, Proc.alloc, Entry.leftovers, firstParent, secondParent, firstChan,
      secondChan] <;>
    tauto

/-! ## Two kernels that agree -/

/-- The same entry, or two slots as `freeproc` leaves them. -/
def Same (first second : Entry) : Prop :=
  first = second ∨ Blank first.proc ∧ Blank second.proc

namespace Same

variable {first second : Entry}

variable (same : Same first second)
include same

theorem state_eq : first.proc.state = second.proc.state := by
  rcases same with rfl | ⟨left, right⟩
  · rfl
  · rw [left.state, right.state]

theorem parent_eq : first.proc.parent = second.proc.parent := by
  rcases same with rfl | ⟨left, right⟩
  · rfl
  · rw [left.parent, right.parent]

theorem eq_of_state (inUse : first.proc.state ≠ .unused) : first = second :=
  same.resolve_right fun blank => inUse blank.1.state

theorem map {update : Proc → Proc} (blanks : ∀ proc, Blank proc → Blank (update proc)) :
    Same { first with proc := update first.proc } { second with proc := update second.proc } := by
  rcases same with rfl | ⟨left, right⟩
  · exact .inl rfl
  · exact .inr ⟨blanks _ left, blanks _ right⟩

end Same

namespace Kernel

variable {Core : Type} {first second kernel after : Kernel Core} {core : Core} {slot : Slot}

/-- The kernels differ in the fields of `UNUSED` slots only. -/
structure Agrees (first second : Kernel Core) : Prop where
  pos_eq : first.pos = second.pos
  ticks_eq : first.ticks = second.ticks
  nextpid_eq : first.nextpid = second.nextpid
  initproc_eq : first.initproc = second.initproc
  entry : ∀ slot, first.table slot = second.table slot ∨
    (first.procs slot).state = .unused ∧ (second.procs slot).state = .unused

/-- Kernels that agree, with their `UNUSED` slots as `freeproc` leaves them. -/
structure Twin (first second : Kernel Core) : Prop where
  pos_eq : first.pos = second.pos
  ticks_eq : first.ticks = second.ticks
  nextpid_eq : first.nextpid = second.nextpid
  initproc_eq : first.initproc = second.initproc
  entry : ∀ slot, Same (first.table slot) (second.table slot)

theorem Twin.agrees (twin : first.Twin second) : first.Agrees second :=
  ⟨twin.pos_eq, twin.ticks_eq, twin.nextpid_eq, twin.initproc_eq, fun slot =>
    (twin.entry slot).imp id fun blank => ⟨blank.1.state, blank.2.state⟩⟩

theorem Agrees.twin (agrees : first.Agrees second) (left : first.Sound) (right : second.Sound) :
    first.Twin second :=
  ⟨agrees.pos_eq, agrees.ticks_eq, agrees.nextpid_eq, agrees.initproc_eq, fun slot =>
    (agrees.entry slot).imp id fun unused =>
      ⟨left.blank slot unused.1, right.blank slot unused.2⟩⟩

namespace Twin

section

variable (twin : first.Twin second) {update : Proc → Proc}
include twin

theorem state_eq (slot : Slot) : (first.procs slot).state = (second.procs slot).state :=
  (twin.entry slot).state_eq

theorem parent_eq (slot : Slot) : (first.procs slot).parent = (second.procs slot).parent :=
  (twin.entry slot).parent_eq

theorem runnable_iff (slot : Slot) : first.procs.Runnable slot ↔ second.procs.Runnable slot := by
  rw [Table.Runnable, Table.Runnable, twin.state_eq]

theorem keeps_iff (check : Option Slot) : first.Keeps check ↔ second.Keeps check :=
  forall₂_congr fun slot _ => twin.runnable_iff slot

theorem eq_of_state (inUse : (first.procs slot).state ≠ .unused) :
    first.table slot = second.table slot :=
  (twin.entry slot).eq_of_state inUse

theorem proc_of_runnable (runnable : first.procs.Runnable slot) :
    first.procs slot = second.procs slot := by
  have inUse : (first.procs slot).state ≠ .unused := by
    rw [runnable]
    simp
  exact congrArg Entry.proc (twin.eq_of_state inUse)

theorem set {left right : Entry} (same : Same left right) :
    (first.set slot left).Twin (second.set slot right) := by
  refine ⟨twin.pos_eq, twin.ticks_eq, twin.nextpid_eq, twin.initproc_eq, fun query => ?_⟩
  obtain rfl | here := eq_or_ne query slot
  · simpa [Kernel.set] using same
  · simpa [Kernel.set, here] using twin.entry query

theorem edit (slot : Slot) (blanks : ∀ proc, Blank proc → Blank (update proc)) :
    (first.edit slot update).Twin (second.edit slot update) :=
  twin.set ((twin.entry slot).map blanks)

/-- A write to an entry in use. -/
theorem editInUse (inUse : (first.procs slot).state ≠ .unused) :
    (first.edit slot update).Twin (second.edit slot update) := by
  refine twin.set (Or.inl ?_)
  simp only [procs]
  rw [twin.eq_of_state inUse]

theorem goto [DecidableEq Core] {pos : Pos} (core : Core) :
    (first.goto core pos).Twin (second.goto core pos) :=
  ⟨by simp only [Kernel.goto, twin.pos_eq], twin.ticks_eq, twin.nextpid_eq,
    twin.initproc_eq, twin.entry⟩

/-! ## The schedulers choose alike -/

end

variable {check : Option Slot}

/-- A scan that starts by asking whether the slot is `RUNNABLE` sees the same in both kernels. -/
theorem bestOf_eq (twin : first.Twin second) (keeps : first.Keeps check) (slot : Slot) :
    bestOf older first.procs check slot = bestOf older second.procs check slot := by
  unfold bestOf
  by_cases runnable : first.procs.Runnable slot
  · rw [if_pos runnable, if_pos ((twin.runnable_iff slot).mp runnable)]
    cases check with
    | none => rfl
    | some candidate =>
      refine if_congr ?_ rfl rfl
      rw [older, older, twin.proc_of_runnable runnable,
        twin.proc_of_runnable (keeps candidate rfl)]
  · rw [if_neg runnable, if_neg (mt (twin.runnable_iff slot).mpr runnable)]

theorem pbsNext_eq (twin : first.Twin second) (keeps : first.Keeps check) (slot : Slot) :
    pbsNext first.procs check slot = pbsNext second.procs check slot := by
  unfold pbsNext
  by_cases runnable : first.procs.Runnable slot
  · rw [if_pos runnable, if_pos ((twin.runnable_iff slot).mp runnable)]
    cases check with
    | none => rfl
    | some candidate =>
      simp only [twin.proc_of_runnable runnable, twin.proc_of_runnable (keeps candidate rfl)]
  · rw [if_neg runnable, if_neg (mt (twin.runnable_iff slot).mpr runnable)]

theorem visit_eq (twin : first.Twin second) (keeps : first.Keeps check) (i : Nat) (slot : Slot)
    (minTime : Int) :
    Mlfq.visit first.procs i slot minTime check =
      Mlfq.visit second.procs i slot minTime check := by
  unfold Mlfq.visit
  by_cases runnable : first.procs.Runnable slot
  · have runnable' := (twin.runnable_iff slot).mp runnable
    simp only [runnable, runnable', true_and, twin.proc_of_runnable runnable]
    cases check with
    | none => rfl
    | some candidate => simp only [twin.proc_of_runnable (keeps candidate rfl)]
  · have stopped := mt (twin.runnable_iff slot).mpr runnable
    simp only [runnable, stopped, false_and, if_false]

variable [DecidableEq Core] {build : Scheduler}

variable (twin : first.Twin second)
include twin

theorem dispatch {select : Proc → Proc} {next : Pos} (runnable : first.procs.Runnable slot)
    (core : Core) :
    (first.dispatch core slot select next).Twin (second.dispatch core slot select next) := by
  have inUse : (first.procs slot).state ≠ .unused := by
    rw [runnable]
    simp
  exact (twin.editInUse inUse).goto core

theorem visit {draw : Nat} {todo : List Slot} (keeps : first.Keeps check) (core : Core)
    (slot : Slot) :
    Option.Rel Twin (first.visit build draw core slot todo check)
      (second.visit build draw core slot todo check) := by
  cases build with
  | default | lbs =>
    simp only [Kernel.visit, ← twin.runnable_iff slot]
    split_ifs with runnable
    · exact .some (twin.dispatch runnable core)
    · exact .some (twin.goto core)
  | fcfs =>
    simp only [Kernel.visit, twin.bestOf_eq keeps]
    exact .some (twin.goto core)
  | pbs =>
    simp only [Kernel.visit, twin.pbsNext_eq keeps]
    exact .some ((twin.edit slot fun _ => Blank.refreshPriority).goto core)
  | mlfq => exact .none

theorem queues {pc : Mlfq.Pc} (core : Core) :
    Option.Rel Twin (first.queues core pc) (second.queues core pc) := by
  cases pc with
  | top => exact .some (twin.goto core)
  | aging todo =>
    cases todo with
    | nil => exact .some (twin.goto core)
    | cons slot todo => exact .some ((twin.edit slot fun _ => Blank.agingCheck).goto core)
  | level i todo minTime check =>
    cases todo with
    | cons slot todo =>
      simp only [Kernel.queues, twin.keeps_iff check]
      split_ifs with keeps
      · rw [twin.visit_eq ((twin.keeps_iff check).mpr keeps)]
        exact .some (twin.goto core)
      · exact .none
    | nil =>
      simp only [Kernel.queues]
      simp only [← twin.keeps_iff check]
      split_ifs with first low keeps
      · exact .some (twin.goto core)
      · exact .some (twin.goto core)
      · cases check with
        | none => exact .none
        | some slot => exact .some (twin.dispatch (keeps slot rfl) core)
      · exact .none
  | roundRobin todo =>
    cases todo with
    | nil => exact .some (twin.goto core)
    | cons slot todo =>
      simp only [Kernel.queues]
      by_cases runnable : first.procs.Runnable slot
      · have runnable' := (twin.runnable_iff slot).mp runnable
        simp only [runnable, runnable', true_and, twin.proc_of_runnable runnable]
        split_ifs
        · exact .some (twin.dispatch runnable core)
        · exact .some (twin.goto core)
      · have stopped := mt (twin.runnable_iff slot).mpr runnable
        simp only [runnable, stopped, false_and, if_false]
        exact .some (twin.goto core)
  | run slot pass => exact .none

theorem schedule {draw : Nat} (fresh : first.Fresh build (core, .schedule draw)) :
    Option.Rel Twin (first.schedule build draw core) (second.schedule build draw core) := by
  have kept : ∀ check, (first.pos core).check = check →
      build = .fcfs ∨ first.Keeps check → first.Keeps check := by
    rintro _ rfl kept
    exact kept.elim (fresh · rfl) id
  simp only [Kernel.schedule, ← twin.pos_eq]
  cases here : first.pos core with
  | scan todo check =>
    cases todo with
    | nil =>
      cases check with
      | none => exact .some (twin.goto core)
      | some slot =>
        simp only [← twin.keeps_iff]
        split_ifs with keeps
        · exact .some (twin.dispatch (kept _ (by simp [here, Pos.check]) keeps slot rfl) core)
        · exact .none
    | cons slot todo =>
      simp only [← twin.keeps_iff]
      split_ifs with keeps
      · exact twin.visit (kept _ (by simp [here, Pos.check]) keeps) core slot
      · exact .none
  | queues pc => exact twin.queues core
  | run slot next => exact .none

end Twin

/-! ## Steps side by side -/

variable [DecidableEq Core] {build : Scheduler} {labels : List (Core × Action)}

/-- The slots that the step's `allocproc` takes carry the same leftovers. -/
def SameLeftovers (build : Scheduler) (pair : Kernel Core × Kernel Core)
    (label : Core × Action) : Prop :=
  ∀ child, label.2 = .alloc child true →
    (pair.1.table child).leftovers build = (pair.2.table child).leftovers build

/-- What the two kernels keep. -/
def Together (pair : Kernel Core × Kernel Core) : Prop := pair.1.Twin pair.2 ∧ pair.1.Sound

/-- Both kernels take the same step. -/
def Both (step : Kernel Core → Core × Action → Kernel Core → Prop)
    (before : Kernel Core × Kernel Core) (label : Core × Action)
    (after : Kernel Core × Kernel Core) : Prop :=
  step before.1 label after.1 ∧ step before.2 label after.2

namespace Twin

variable {build : Scheduler} {action : Action}

variable (twin : first.Twin second)
include twin

theorem alloc {next : Pos} {child : Slot} {fits : Bool}
    (inUse : first.table slot = second.table slot)
    (same : SameLeftovers build (first, second) (core, .alloc child fits)) :
    Option.Rel Twin (first.running build core slot next (.alloc child fits))
      (second.running build core slot next (.alloc child fits)) := by
  have tickets_eq : (first.procs slot).tickets = (second.procs slot).tickets := by
    simp only [procs, inUse]
  unfold Kernel.running
  simp only [twin.state_eq child, twin.ticks_eq, twin.nextpid_eq, tickets_eq]
  split_ifs with unused
  · have made : (first.edit child (Proc.forked build second.ticks second.nextpid
        (second.procs slot).tickets fits)).Twin (second.edit child (Proc.forked build second.ticks
          second.nextpid (second.procs slot).tickets fits)) := by
      apply twin.set
      cases fits with
      | false => exact .inr ⟨⟨rfl, rfl, rfl, rfl⟩, ⟨rfl, rfl, rfl, rfl⟩⟩
      | true =>
        rcases twin.entry child with equal | ⟨left, right⟩
        · exact .inl (by simp only [procs, equal])
        · exact .inl ((forked_eq_iff left right _ _ _).mpr (same child rfl))
    exact .some { made with nextpid_eq := rfl }
  · exact .none

theorem process {next : Pos} (running : (first.procs slot).state = .running)
    (same : SameLeftovers build (first, second) (core, action)) :
    Option.Rel Twin (first.running build core slot next action)
      (second.running build core slot next action) := by
  have inUse : (first.procs slot).state ≠ .unused := by simp [running]
  have entry_eq := twin.eq_of_state inUse
  have proc_eq : first.procs slot = second.procs slot := congrArg Entry.proc entry_eq
  have edits : ∀ update : Proc → Proc,
      (first.edit slot update).Twin (second.edit slot update) := fun _ => twin.editInUse inUse
  have leaves : ∀ update : Proc → Proc, (first.giveUp core slot next update).Twin
      (second.giveUp core slot next update) := fun update => (edits update).goto core
  cases action with
  | schedule | tick | updTime | wakeup => exact .none
  | timer fromUser =>
    unfold Kernel.running
    simp only [proc_eq]
    split_ifs
    · exact .none
    · exact .some (leaves _)
    · exact .some (edits _)
  | alloc child fits => exact twin.alloc entry_eq same
  | adopt child | start child =>
    unfold Kernel.running
    simp only [← twin.state_eq child]
    split_ifs with used
    · exact .some (twin.editInUse (by simp [used]))
    · exact .none
  | reset =>
    unfold Kernel.running
    simp only [proc_eq]
    split_ifs
    · exact .some (edits _)
    · exact .none
  | yield =>
    unfold Kernel.running
    simp only
    split_ifs
    · exact .some (leaves _)
    · exact .none
  | kill other pid =>
    unfold Kernel.running
    simp only [twin.ticks_eq]
    refine .some (twin.edit other fun proc blank => ?_)
    split_ifs
    · exact blank.kill build _
    · exact blank
  | setKilled => exact .some (edits _)
  | setPriority other prior =>
    exact .some (twin.edit other fun _ blank => blank.setPriority prior)
  | setTickets n => exact .some (edits _)
  | sigalarm ticks handler =>
    unfold Kernel.running
    simp only [entry_eq]
    exact .some (twin.set (Or.inl rfl))
  | sigreturn =>
    unfold Kernel.running
    simp only [entry_eq]
    split_ifs
    · exact .none
    · exact .some (twin.set (Or.inl rfl))
  | reparent other =>
    unfold Kernel.running
    simp only [← twin.parent_eq other, twin.initproc_eq]
    split_ifs with child
    · refine .some (twin.set ?_)
      rcases twin.entry other with equal | ⟨left, -⟩
      · exact .inl (by simp only [procs, equal])
      · have orphan : (first.procs other).parent = none := left.parent
        rw [orphan] at child
        cases child
    · exact .none
  | reap other =>
    unfold Kernel.running
    simp only [← twin.parent_eq other, ← twin.state_eq other]
    split_ifs with child
    · exact .some (twin.editInUse (by simp [child.2]))
    · exact .none
  | stamp other =>
    unfold Kernel.running
    simp only [twin.ticks_eq]
    exact .some (twin.edit other fun _ blank =>
      { blank with })
  | sleep chan => exact .some (leaves _)
  | exit =>
    unfold Kernel.running
    simp only [twin.initproc_eq, twin.ticks_eq]
    split_ifs
    · exact .none
    · exact .some (leaves _)

/-- The same step can be taken in both kernels or in neither, and they go on to agree. -/
theorem exec (sound : first.Sound) (same : SameLeftovers build (first, second) (core, action))
    (fresh : first.Fresh build (core, action)) :
    Option.Rel Twin (first.exec build core action) (second.exec build core action) := by
  cases action with
  | schedule draw => exact twin.schedule fresh
  | tick =>
    refine .some ⟨twin.pos_eq, ?_, twin.nextpid_eq, twin.initproc_eq, twin.entry⟩
    simp only [twin.ticks_eq]
  | updTime slot => exact .some (twin.edit slot fun _ blank => blank.updTime build)
  | wakeup slot chan =>
    simp only [Kernel.exec, twin.pos_eq, twin.ticks_eq]
    split_ifs
    · exact .none
    · exact .some (twin.edit slot fun _ blank => blank.wakeup build _ chan)
  | timer | alloc | adopt | start | reset | yield | kill | setKilled | setPriority | setTickets
  | sigalarm | sigreturn | reparent | reap | stamp | sleep | exit =>
    simp only [Kernel.exec, ← twin.pos_eq]
    cases here : first.pos core with
    | scan | queues => exact .none
    | run slot next =>
      exact twin.process (sound.running core slot (by simp [here, Pos.myproc])) same

theorem step {label : Core × Action} (sound : first.Sound)
    (same : SameLeftovers build (first, second) label)
    (taken : first.FreshStep build label after) :
    ∃ other, second.FreshStep build label other ∧ after.Twin other := by
  obtain ⟨fresh, stepped⟩ := taken
  have related := twin.exec sound same fresh
  have fresh' : second.Fresh build label := fun isFcfs schedules => by
    simpa [← twin.pos_eq, ← twin.keeps_iff] using fresh isFcfs schedules
  unfold Step at stepped
  rw [stepped] at related
  cases done : second.exec build label.1 label.2 with
  | none =>
    rw [done] at related
    cases related
  | some other =>
    rw [done] at related
    cases related with
    | some twins => exact ⟨other, ⟨fresh', done⟩, twins⟩

end Twin

/-- What a successful `fork` writes into the slot it takes. -/
theorem alloc_step {child : Slot} (stepped : kernel.Step build (core, .alloc child true) after) :
    ∃ slot next, kernel.pos core = .run slot next ∧ (kernel.procs child).state = .unused ∧
      after.table child =
        { kernel.table child with
          proc := (kernel.table child).proc.forked build kernel.ticks kernel.nextpid
            (kernel.procs slot).tickets true } := by
  unfold Step at stepped
  simp only [Kernel.exec] at stepped
  split at stepped
  next slot next here =>
    unfold Kernel.running at stepped
    simp only at stepped
    split_ifs at stepped with unused
    cases stepped
    exact ⟨slot, next, here, unused, by simp [Kernel.edit, Kernel.set, procs]⟩
  next => cases stepped

/-! ## Main results -/

/-- Let two kernels agree on everything except the fields of `UNUSED` slots, reached while the FCFS
scheduler had no stale candidate.  A process made in such a slot is the same in both exactly when
its slot carries the same leftovers; and as long as that is the case whenever a process is made,
every step that one kernel can take the other can take too, and they agree in every state they
reach, the choices of their schedulers included. -/
theorem slots_carry_over_iff {build : Scheduler} {left right : List (Core × Action)}
    (leftRun : Run (FreshStep build) (boot Core build) left first)
    (rightRun : Run (FreshStep build) (boot Core build) right second)
    (agrees : first.Agrees second) :
    (∀ core child firstAfter secondAfter,
      Both (Step build) (first, second) (core, .alloc child true) (firstAfter, secondAfter) →
      (firstAfter.table child = secondAfter.table child ↔
        (first.table child).leftovers build = (second.table child).leftovers build)) ∧
    ∀ labels ends,
      Run (Guarded (SameLeftovers build) (Both (FreshStep build))) (first, second) labels ends →
      ends.1.Agrees ends.2 ∧
      ∀ label after, SameLeftovers build ends label → ends.1.FreshStep build label after →
        ∃ other, ends.2.FreshStep build label other ∧ after.Agrees other := by
  have leftSound : first.Sound :=
    leftRun.invariant (fun _ _ _ sound stepped => sound.step stepped) (.boot build)
  have rightSound : second.Sound :=
    rightRun.invariant (fun _ _ _ sound stepped => sound.step stepped) (.boot build)
  have twin := agrees.twin leftSound rightSound
  constructor
  · rintro core child firstAfter secondAfter ⟨leftStep, rightStep⟩
    simp only at leftStep rightStep
    obtain ⟨slot, next, position, leftUnused, leftEq⟩ := alloc_step leftStep
    obtain ⟨other, rest, position', rightUnused, rightEq⟩ := alloc_step rightStep
    rw [← twin.pos_eq, position] at position'
    cases position'
    have running : (first.procs slot).state = .running :=
      leftSound.running core slot (by simp [position, Pos.myproc])
    have parent : first.procs slot = second.procs slot :=
      congrArg Entry.proc (twin.eq_of_state (by simp [running]))
    rw [leftEq, rightEq, twin.ticks_eq, twin.nextpid_eq, parent]
    exact forked_eq_iff (leftSound.blank child leftUnused)
      (rightSound.blank child rightUnused) _ _ _
  · intro labels ends run
    have both : Together ends := by
      refine run.invariant ?_ (⟨twin, leftSound⟩ : Together (first, second))
      rintro before label after ⟨twins, sound⟩ ⟨same, leftStep, rightStep⟩
      obtain ⟨other, otherStep, related⟩ := twins.step sound same leftStep
      have determined : other = after.2 := Option.some.inj (otherStep.2.symm.trans rightStep.2)
      exact ⟨determined ▸ related, sound.step leftStep⟩
    refine ⟨both.1.agrees, fun label after same stepped => ?_⟩
    obtain ⟨other, otherStep, related⟩ := both.1.step both.2 same stepped
    exact ⟨other, otherStep, related.agrees⟩

/-! ## A slot that was dispatched once, and one that was dispatched twice -/

/-- One scan of the only CPU and the dispatch of its candidate. -/
def pass : List (Unit × Action) := List.replicate 65 ((), .schedule 0)

/-- The sections of a `fork` that succeeds. -/
def fork (child : Slot) : List (Unit × Action) :=
  [((), .alloc child true), ((), .adopt child), ((), .start child)]

/-- The first process forks and waits; its child in slot 1 is dispatched, does `work` and exits,
and is reaped. -/
def reuse (work : List (Unit × Action)) : List (Unit × Action) :=
  pass ++ fork 1 ++ ([((), .sleep (.proc 0))] : List (Unit × Action)) ++ pass ++ work ++
    ([((), .wakeup 0 (.proc 0)), ((), .exit)] : List (Unit × Action)) ++ pass ++
    ([((), .reap 1), ((), .stamp 1)] : List (Unit × Action))

/-- The child sleeps once and is dispatched again. -/
def nap : List (Unit × Action) :=
  [((), .sleep (.object 1)), ((), .wakeup 1 (.object 1))] ++ pass

/-- The first process forks again, sleeps and wakes up, and the scheduler looks for a process. -/
def compete : List (Unit × Action) :=
  fork 1 ++ [((), .sleep (.object 2)), ((), .wakeup 0 (.object 2))] ++
    List.replicate 64 ((), .schedule 0)

/-- The first process forks into a slot that no process has used, and sleeps; the scheduler
dispatches the child. -/
def elsewhere : List (Unit × Action) := fork 2 ++ [((), .sleep (.object 2))] ++ pass

/-- Both kernels take the same step. -/
def execBoth (build : Scheduler) (pair : Kernel Core × Kernel Core) (label : Core × Action) :
    Option (Kernel Core × Kernel Core) :=
  (pair.1.exec build label.1 label.2).bind fun first =>
    (pair.2.exec build label.1 label.2).map fun second => (first, second)

theorem both_of_execBoth (before : Kernel Core × Kernel Core) (label : Core × Action)
    (after : Kernel Core × Kernel Core) (done : execBoth build before label = some after) :
    Both (Step build) before label after := by
  obtain ⟨first, left, done⟩ := Option.bind_eq_some_iff.mp done
  obtain ⟨second, right, rfl⟩ := Option.map_eq_some_iff.mp done
  exact ⟨left, right⟩

/-- Only the FCFS scheduler has stale candidates. -/
theorem freshStep {label : Core × Action} (other : build ≠ .fcfs)
    (stepped : kernel.Step build label after) : kernel.FreshStep build label after :=
  ⟨fun isFcfs => (other isFcfs).elim, stepped⟩

instance (pair : Kernel Core × Kernel Core) (label : Core × Action) :
    Decidable (SameLeftovers build pair label) :=
  inferInstanceAs (Decidable (∀ _, _ → _))

instance (first second : Kernel Unit) : Decidable (first.Agrees second) :=
  decidable_of_iff
    (first.pos = second.pos ∧ first.ticks = second.ticks ∧ first.nextpid = second.nextpid ∧
      first.initproc = second.initproc ∧ ∀ slot, first.table slot = second.table slot ∨
        (first.procs slot).state = .unused ∧ (second.procs slot).state = .unused)
    ⟨fun ⟨pos, ticks, nextpid, initproc, entry⟩ => ⟨pos, ticks, nextpid, initproc, entry⟩,
      fun agrees => ⟨agrees.pos_eq, agrees.ticks_eq, agrees.nextpid_eq, agrees.initproc_eq,
        agrees.entry⟩⟩

/-- Two runs of the PBS build that differ in a nap of a process that is gone at their end. -/
theorem reused_runs :
    ∃ first ∈ runAll (fun kernel label => kernel.exec .pbs label.1 label.2) (boot Unit .pbs)
      (reuse []),
    ∃ second ∈ runAll (fun kernel label => kernel.exec .pbs label.1 label.2) (boot Unit .pbs)
      (reuse nap), first.Agrees second ∧
    (∃ ends ∈ runAll (execBoth .pbs) (first, second) compete,
      ends.1.pos () = .scan [] (some 1) ∧ ends.2.pos () = .scan [] (some 0)) ∧
    (first.table 1).leftovers .pbs ≠ (second.table 1).leftovers .pbs ∧
    ∃ ends ∈ runAll (guardedExec (SameLeftovers .pbs) (execBoth .pbs)) (first, second) elsewhere,
      (ends.1.pos ()).myproc = some 2 := by
  decide +kernel

/-- The kernels after the two runs differ in slot 1, and agree as long as no process is made
there. -/
theorem slots_carry_over_reused : ∃ first second, ∃ ends : Kernel Unit × Kernel Unit,
    Run (FreshStep .pbs) (boot Unit .pbs) (reuse []) first ∧
    Run (FreshStep .pbs) (boot Unit .pbs) (reuse nap) second ∧ first.Agrees second ∧
    (first.table 1).leftovers .pbs ≠ (second.table 1).leftovers .pbs ∧
    Run (Guarded (SameLeftovers .pbs) (Both (FreshStep .pbs))) (first, second) elsewhere ends ∧
    (ends.1.pos ()).myproc = some 2 ∧ ends.1.Agrees ends.2 := by
  obtain ⟨first, left, second, right, agrees, -, differ, ends, executed, myproc⟩ := reused_runs
  have left := Run.of_runAll (fun _ _ _ => freshStep (by decide)) left
  have right := Run.of_runAll (fun _ _ _ => freshStep (by decide)) right
  have both : Run (Guarded (SameLeftovers .pbs) (Both (FreshStep .pbs))) (first, second) elsewhere
      ends := by
    refine Run.of_guardedExec (fun before label after done => ?_) executed
    obtain ⟨left, right⟩ := both_of_execBoth before label after done
    exact ⟨freshStep (by decide) left, freshStep (by decide) right⟩
  exact ⟨first, second, ends, left, right, agrees, differ, both, myproc,
    ((slots_carry_over_iff left right agrees).2 _ _ both).1⟩

/-- The two kernels agree, and go on to take the same steps, but the new process in slot 1 keeps
the dispatches of the old one as its own: in one kernel the scheduler prefers it to the first
process, in the other it does not. -/
theorem dispatches_carried_over : ∃ left right labels, ∃ first second firstEnd secondEnd :
    Kernel Unit, Run (Step .pbs) (boot Unit .pbs) left first ∧
    Run (Step .pbs) (boot Unit .pbs) right second ∧ first.Agrees second ∧
    Run (Both (Step .pbs)) (first, second) labels (firstEnd, secondEnd) ∧
    firstEnd.pos () = .scan [] (some 1) ∧ secondEnd.pos () = .scan [] (some 0) := by
  obtain ⟨first, left, second, right, agrees, ⟨ends, executed, chosen⟩, -⟩ := reused_runs
  exact ⟨_, _, _, first, second, ends.1, ends.2, .of_runAll (fun _ _ _ => id) left,
    .of_runAll (fun _ _ _ => id) right, agrees, .of_runAll both_of_execBoth executed, chosen⟩

end Kernel

end Xv6.Builds
