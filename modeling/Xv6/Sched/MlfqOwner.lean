import Xv6.Sched.Mlfq

/-!
# Candidates and running processes of the MLFQ scheduler

The lock that a scheduler keeps makes its candidate stay `RUNNABLE` until it is dispatched, and
a process that a CPU has dispatched stays `RUNNING` there until it gives the CPU up.
-/

namespace Xv6.Mlfq

open Function Option

namespace Pc

variable (i : Nat) (slot : Slot) (todo : List Slot) (minTime : Int) (check : Option Slot)
  (pass : Pass)

@[simp] theorem candidate_top : top.candidate = none := rfl
@[simp] theorem candidate_aging : (aging todo).candidate = none := rfl
@[simp] theorem candidate_level : (level i todo minTime check).candidate = check := rfl
@[simp] theorem candidate_roundRobin : (roundRobin todo).candidate = none := rfl
@[simp] theorem candidate_run : (run slot pass).candidate = none := rfl
@[simp] theorem myproc_top : top.myproc = none := rfl
@[simp] theorem myproc_aging : (aging todo).myproc = none := rfl
@[simp] theorem myproc_level : (level i todo minTime check).myproc = none := rfl
@[simp] theorem myproc_roundRobin : (roundRobin todo).myproc = none := rfl
@[simp] theorem myproc_run : (run slot pass).myproc = some slot := rfl

@[simp] theorem candidate_resume : pass.resume.candidate = none := by cases pass <;> rfl
@[simp] theorem myproc_resume : pass.resume.myproc = none := by cases pass <;> rfl

end Pc

namespace Smp

/-- The step that runs a section. -/
def Action.ofSection : Section → Action
  | .updTime slot => .updTime slot
  | .wakeup slot chan => .wakeup slot chan
  | .kill slot pid => .kill slot pid
  | .alloc child fits => .alloc child fits
  | .start child => .start child
  | .reap slot => .reap slot

namespace Kernel

variable {Core : Type} {kernel after : Kernel Core} {core : Core} {slot : Slot} {proc : Proc}

/-- What the schedulers and the processes on the CPUs rely on. -/
structure Owned (kernel : Kernel Core) : Prop where
  owner_iff : ∀ slot core, kernel.owner slot = some core ↔ (kernel.pc core).candidate = some slot
  candidate : ∀ core slot, (kernel.pc core).candidate = some slot → kernel.table.Runnable slot
  running : ∀ core slot, (kernel.pc core).myproc = some slot → (kernel.table slot).state = .running
  unique : ∀ slot core other, (kernel.pc core).myproc = some slot →
    (kernel.pc other).myproc = some slot → core = other
  found : ∀ core i todo minTime check, kernel.pc core = .level i todo minTime check →
    (minTime = -1 ↔ check = none)
  ctime_eq : ∀ slot, (kernel.table slot).ctime = 0

/-- A write to one entry that keeps its state, or is made while no scheduler holds its lock and
neither starts nor stops a process. -/
theorem Owned.set (owned : kernel.Owned) (ctime_eq : proc.ctime = (kernel.table slot).ctime)
    (kept : proc.state = (kernel.table slot).state ∨
      (kernel.owner slot = none ∧ (kernel.table slot).state ≠ .running)) :
    (kernel.set slot proc).Owned := by
  refine ⟨owned.owner_iff, fun core query here => ?_, fun core query here => ?_, owned.unique,
    owned.found, fun query => ?_⟩
  · have was := owned.candidate core query here
    obtain rfl | same := eq_or_ne query slot
    · rcases kept with state | ⟨free, -⟩
      · simpa [Table.Runnable, Kernel.set, state] using was
      · have held := (owned.owner_iff query core).mpr here
        rw [free] at held
        cases held
    · simpa [Table.Runnable, Kernel.set, same] using was
  · have was := owned.running core query here
    obtain rfl | same := eq_or_ne query slot
    · rcases kept with state | ⟨-, stopped⟩
      · simpa [Kernel.set, state] using was
      · exact (stopped was).elim
    · simpa [Kernel.set, same] using was
  · obtain rfl | same := eq_or_ne query slot
    · simpa [Kernel.set, ctime_eq] using owned.ctime_eq query
    · simpa [Kernel.set, same] using owned.ctime_eq query

variable [DecidableEq Core] {pc : Pc}

/-- What a CPU may change its position to. -/
structure Moves (kernel : Kernel Core) (core : Core) (pc : Pc) (after : Kernel Core) : Prop where
  pc_eq : after.pc = update kernel.pc core pc
  owner_eq : ∀ slot, after.owner slot =
    if pc.candidate = some slot then some core
    else if (kernel.pc core).candidate = some slot then none
    else kernel.owner slot
  free : ∀ slot, pc.candidate = some slot →
    kernel.owner slot = none ∨ (kernel.pc core).candidate = some slot
  candidate : ∀ slot, pc.candidate = some slot → after.table.Runnable slot
  others : ∀ slot other, other ≠ core → (kernel.pc other).candidate = some slot →
    after.table.Runnable slot
  myproc : ∀ slot, pc.myproc = some slot → (after.table slot).state = .running ∧
    ∀ other, other ≠ core → (kernel.pc other).myproc ≠ some slot
  running : ∀ slot other, other ≠ core → (kernel.pc other).myproc = some slot →
    (after.table slot).state = .running
  found : ∀ i todo minTime check, pc = .level i todo minTime check → (minTime = -1 ↔ check = none)
  ctime_eq : ∀ slot, (after.table slot).ctime = (kernel.table slot).ctime

theorem Owned.move (owned : kernel.Owned) (moves : kernel.Moves core pc after) : after.Owned := by
  constructor
  case owner_iff =>
    intro query other
    rw [moves.owner_eq, moves.pc_eq]
    obtain rfl | same := eq_or_ne other core
    · rw [update_self]
      split_ifs with here before
      · simp [here]
      · simp [here]
      · simp [here, owned.owner_iff, before]
    · rw [update_of_ne same, ← owned.owner_iff query other]
      have ne : ∀ {slot : Slot}, kernel.owner slot = some other →
          (kernel.pc core).candidate ≠ some slot := by
        intro slot held before
        rw [← owned.owner_iff, held] at before
        exact same (some.inj before)
      split_ifs with here before
      · simp only [some.injEq, Ne.symm same, false_iff]
        intro held
        cases moves.free query here with
        | inl free =>
          rw [free] at held
          cases held
        | inr before => exact ne held before
      · simp only [false_iff]
        exact fun held => ne held before
      · rfl
  case candidate =>
    intro other query here
    rw [moves.pc_eq] at here
    obtain rfl | same := eq_or_ne other core
    · exact moves.candidate query (by simpa using here)
    · exact moves.others query other same (by simpa [same] using here)
  case running =>
    intro other query here
    rw [moves.pc_eq] at here
    obtain rfl | same := eq_or_ne other core
    · exact (moves.myproc query (by simpa using here)).1
    · exact moves.running query other same (by simpa [same] using here)
  case unique =>
    intro query first second left right
    rw [moves.pc_eq] at left right
    by_cases isFirst : first = core
    · by_cases isSecond : second = core
      · exact isFirst.trans isSecond.symm
      · subst isFirst
        rw [update_self] at left
        rw [update_of_ne isSecond] at right
        exact ((moves.myproc query left).2 second isSecond right).elim
    · rw [update_of_ne isFirst] at left
      obtain rfl | isSecond := eq_or_ne second core
      · rw [update_self] at right
        exact ((moves.myproc query right).2 first isFirst left).elim
      · rw [update_of_ne isSecond] at right
        exact owned.unique query first second left right
  case found =>
    intro other i todo minTime check here
    rw [moves.pc_eq] at here
    obtain rfl | same := eq_or_ne other core
    · exact moves.found i todo minTime check (by simpa using here)
    · exact owned.found other i todo minTime check (by simpa [same] using here)
  case ctime_eq =>
    intro query
    rw [moves.ctime_eq]
    exact owned.ctime_eq query

/-- The position of a CPU changes and the table does not. -/
theorem Owned.step_pc (owned : kernel.Owned) (table_eq : after.table = kernel.table)
    (pc_eq : after.pc = update kernel.pc core pc) (owner_eq : ∀ slot, after.owner slot =
      if pc.candidate = some slot then some core
      else if (kernel.pc core).candidate = some slot then none
      else kernel.owner slot)
    (candidate : ∀ slot, pc.candidate = some slot → kernel.table.Runnable slot ∧
      (kernel.owner slot = none ∨ (kernel.pc core).candidate = some slot))
    (myproc : pc.myproc = none) (found : ∀ i todo minTime check, pc = .level i todo minTime check →
      (minTime = -1 ↔ check = none)) : after.Owned := by
  have moves : kernel.Moves core pc after := by
    constructor
    case pc_eq => exact pc_eq
    case owner_eq => exact owner_eq
    case free => exact fun slot here => (candidate slot here).2
    case candidate => exact fun slot here => table_eq ▸ (candidate slot here).1
    case others => exact fun slot other _ here => table_eq ▸ owned.candidate other slot here
    case myproc => simp [myproc]
    case running => exact fun slot other _ here => table_eq ▸ owned.running other slot here
    case found => exact found
    case ctime_eq => exact fun _ => by rw [table_eq]
  exact owned.move moves

/-- The scheduler goes on with no candidate. -/
theorem Owned.advance (owned : kernel.Owned) (before : (kernel.pc core).candidate = none)
    (candidate : pc.candidate = none) (myproc : pc.myproc = none)
    (found : ∀ i todo minTime check, pc = .level i todo minTime check →
      (minTime = -1 ↔ check = none)) : (kernel.goto core pc).Owned :=
  owned.step_pc rfl rfl (by simp [candidate, before, goto]) (by simp [candidate]) myproc found

variable {pass : Pass} {minTime : Int}

/-- A process is dispatched: the candidate of the scheduler, or one whose lock was free. -/
theorem Owned.dispatch (owned : kernel.Owned) (runnable : kernel.table.Runnable slot)
    (alone : kernel.owner slot = none ∨ (kernel.pc core).candidate = some slot)
    (ctime_eq : proc.ctime = (kernel.table slot).ctime) (table_eq : after.table =
      update kernel.table slot { proc with state := .running, chan := none })
    (pc_eq : after.pc = update kernel.pc core (.run slot pass))
    (owner_eq : ∀ query, after.owner query =
      if (kernel.pc core).candidate = some query then none else kernel.owner query) :
    after.Owned := by
  have moves : kernel.Moves core (.run slot pass) after := by
    constructor
    case pc_eq => exact pc_eq
    case owner_eq => simpa using owner_eq
    case free => simp
    case candidate => simp
    case others =>
      intro query other ne here
      have isRunnable := owned.candidate other query here
      have notSlot : query ≠ slot := by
        rintro rfl
        have held := (owned.owner_iff query other).mpr here
        rcases alone with free | mine
        · rw [free] at held
          cases held
        · rw [← owned.owner_iff, held] at mine
          exact ne (some.inj mine)
      simpa [Table.Runnable, table_eq, notSlot] using isRunnable
    case myproc =>
      intro query here
      cases here
      refine ⟨by simp [table_eq], fun other _ runs => ?_⟩
      have running := owned.running other slot runs
      rw [Table.Runnable, running] at runnable
      cases runnable
    case running =>
      intro query other _ runs
      obtain rfl | same := eq_or_ne query slot
      · simp [table_eq]
      · simpa [table_eq, same] using owned.running other query runs
    case found => simp
    case ctime_eq =>
      intro query
      obtain rfl | same := eq_or_ne query slot
      · simp [table_eq, ctime_eq]
      · simp [table_eq, same]
  exact owned.move moves

theorem Owned.giveUp {pass rest : Pass} (owned : kernel.Owned)
    (position : kernel.pc core = .run slot pass)
    (done : kernel.giveUp core slot rest proc = some after)
    (ctime_eq : proc.ctime = (kernel.table slot).ctime) : after.Owned := by
  unfold Kernel.giveUp at done
  split_ifs at done with free
  cases done
  have moves : kernel.Moves core rest.resume ((kernel.set slot proc).goto core rest.resume) := by
    constructor
    case pc_eq => rfl
    case owner_eq => simp [position, goto, Kernel.set]
    case free => simp
    case candidate => simp
    case others =>
      intro query other _ here
      have isRunnable := owned.candidate other query here
      have notSlot : query ≠ slot := by
        rintro rfl
        rw [← owned.owner_iff, free] at here
        cases here
      simpa [Table.Runnable, goto, Kernel.set, notSlot] using isRunnable
    case myproc => simp
    case running =>
      intro query other ne runs
      have notSlot : query ≠ slot := by
        rintro rfl
        exact ne (owned.unique query other core runs (by simp [position]))
      simpa [goto, Kernel.set, notSlot] using owned.running other query runs
    case found => cases rest <;> simp [Pass.resume]
    case ctime_eq =>
      intro query
      obtain rfl | same := eq_or_ne query slot
      · simp [goto, Kernel.set, ctime_eq]
      · simp [goto, Kernel.set, same]
  exact owned.move moves

/-- What one visit of a level can do. -/
theorem visit_cases {table : Table} (slot : Slot) (i : Nat) {check : Option Slot}
    (ctime_eq : ∀ slot, (table slot).ctime = 0) (found : minTime = -1 ↔ check = none) :
    (Waits table i slot ∧ check = none ∧ visit table i slot minTime check = (0, some slot)) ∨
      visit table i slot minTime check = (minTime, check) ∧
        (check = none → ¬ Waits table i slot) := by
  unfold visit
  split_ifs with matching first
  · exact .inl ⟨matching, found.mp first, by simp [ctime_eq]⟩
  · right
    cases check with
    | none => exact (first (found.mpr rfl)).elim
    | some candidate => simp [ctime_eq]
  · exact .inr ⟨rfl, fun _ => matching⟩

/-- One visit of a level takes the lock of a first candidate or goes on with the one it has. -/
theorem Owned.visit {i : Nat} {todo : List Slot} {check : Option Slot} (owned : kernel.Owned)
    (position : kernel.pc core = .level i (slot :: todo) minTime check)
    (free : kernel.owner slot = none) :
    ((kernel.keep core (if minTime = -1 then none else check)
      (visit kernel.table i slot minTime check).2).goto core
      (.level i todo (visit kernel.table i slot minTime check).1
        (visit kernel.table i slot minTime check).2)).Owned := by
  have found := owned.found core i _ minTime check position
  have old_eq : (if minTime = -1 then none else check) = check := by
    split_ifs with first
    · exact (found.mp first).symm
    · rfl
  rw [old_eq]
  rcases visit_cases slot i owned.ctime_eq found with ⟨waits, rfl, visited⟩ | ⟨visited, -⟩
  · rw [visited]
    refine owned.step_pc rfl rfl (by simp [keep, goto, position]) ?_ rfl ?_
    · rintro query ⟨⟩
      exact ⟨waits.1, .inl free⟩
    · rintro _ _ _ _ ⟨⟩
      simp
  · rw [visited]
    refine owned.step_pc rfl rfl (by simp [keep, goto, position]) (fun query here => ?_) rfl ?_
    · have same : (kernel.pc core).candidate = some query := by simpa [position] using here
      exact ⟨owned.candidate core query same, .inr same⟩
    · rintro _ _ _ _ ⟨⟩
      exact found

theorem timeSlice_frame (proc : Proc) :
    proc.timeSlice.1.ctime = proc.ctime ∧ proc.timeSlice.1.state = proc.state := by
  unfold Proc.timeSlice
  dsimp only
  split_ifs <;> exact ⟨rfl, rfl⟩

variable {action : Action} {label : Core × Action}

/-! ## What a step does to the table -/

/-- The table, and the processes at the end of `fork`, after a step. -/
inductive Effect (kernel : Kernel Core) (core : Core) :
    Action → Table → (Slot → Bool) → Prop where
  | tick : Effect kernel core .tick kernel.table kernel.leaving
  | scan : kernel.aged core = none → kernel.dispatched core = none →
      Effect kernel core .schedule kernel.table kernel.leaving
  | age (slot : Slot) : kernel.aged core = some slot → kernel.dispatched core = none →
      Effect kernel core .schedule
        (update kernel.table slot (kernel.table slot).agingCheck) kernel.leaving
  | dispatch (slot : Slot) (waitTime : Int) :
      kernel.aged core = none → kernel.dispatched core = some slot →
      ((kernel.pc core).candidate = some slot ∧ waitTime = 0 ∨
        (kernel.pc core).candidate = none ∧ kernel.table.Runnable slot ∧
          (kernel.table slot).priorityLevel = 4 ∧ waitTime = (kernel.table slot).waitTime) →
      Effect kernel core .schedule
        (update kernel.table slot
          { kernel.table slot with waitTime, state := .running, chan := none })
        kernel.leaving
  | sect (sect : Section) (tickets : Int) : sect.Finds (kernel.table sect.slot).state →
      Effect kernel core (.ofSection sect)
        (update kernel.table sect.slot
          (sect.write .mlfq kernel.ticks kernel.nextpid tickets (kernel.table sect.slot)))
        kernel.leaving
  | relate (action : Action) (slot parent : Slot) :
      action = .adopt slot ∨ action = .reparent slot →
      Effect kernel core action
        (update kernel.table slot { kernel.table slot with parent := some parent })
        kernel.leaving
  | slice (fromUser : Bool) (slot : Slot) :
      (kernel.pc core).myproc = some slot → (kernel.table slot).timeSlice.2 = false →
      Effect kernel core (.timer fromUser)
        (update kernel.table slot (kernel.table slot).timeSlice.1) kernel.leaving
  | expire (fromUser : Bool) (slot : Slot) :
      (kernel.pc core).myproc = some slot → (kernel.table slot).timeSlice.2 = true →
      Effect kernel core (.timer fromUser)
        (update kernel.table slot (kernel.table slot).timeSlice.1.yield) kernel.leaving
  | reset (slot : Slot) :
      (kernel.pc core).myproc = some slot → kernel.leaving slot = false →
      Effect kernel core .reset
        (update kernel.table slot { kernel.table slot with ticksElapsed := 0 })
        (update kernel.leaving slot true)
  | yield (slot : Slot) :
      (kernel.pc core).myproc = some slot → kernel.leaving slot = true →
      Effect kernel core .yield
        (update kernel.table slot (kernel.table slot).yield)
        (update kernel.leaving slot false)
  | sleep (slot : Slot) (chan : Chan) :
      (kernel.pc core).myproc = some slot → kernel.leaving slot = false →
      Effect kernel core (.sleep chan)
        (update kernel.table slot ((kernel.table slot).sleep chan)) kernel.leaving
  | exit (slot : Slot) :
      (kernel.pc core).myproc = some slot → kernel.leaving slot = false →
      Effect kernel core .exit
        (update kernel.table slot ((kernel.table slot).exit kernel.ticks)) kernel.leaving

/-- What a step does to the table, and that the candidates and the running processes stay. -/
def Follows (kernel : Kernel Core) (core : Core) (action : Action) (after : Kernel Core) : Prop :=
  (kernel.Owned → after.Owned) ∧ kernel.Effect core action after.table after.leaving

namespace Follows

omit [DecidableEq Core] in
theorem withLock (sect : Section) (tickets : Int)
    (finds : sect.Finds (kernel.table sect.slot).state)
    (done : kernel.withLock sect.slot (sect.write .mlfq kernel.ticks kernel.nextpid tickets) =
      some after) : kernel.Follows core (.ofSection sect) after := by
  obtain ⟨free, ⟨⟩⟩ := ite_none_right_eq_some.mp done
  have running := sect.write_running .mlfq kernel.ticks kernel.nextpid tickets finds
  refine ⟨fun owned => owned.set (sect.write_ctime ..) ?_, .sect sect tickets finds⟩
  by_cases runs : (kernel.table sect.slot).state = .running
  · exact .inl ((running.mpr runs).trans runs.symm)
  · exact .inr ⟨free, runs⟩

theorem giveUp {proc : Proc} {pass rest : Pass}
    (effect : kernel.Effect core action (update kernel.table slot proc) kernel.leaving)
    (here : kernel.pc core = .run slot pass) (ctime_eq : proc.ctime = (kernel.table slot).ctime)
    (done : kernel.giveUp core slot rest proc = some after) : kernel.Follows core action after := by
  refine ⟨fun owned => owned.giveUp here done ctime_eq, ?_⟩
  obtain ⟨-, ⟨⟩⟩ := ite_none_right_eq_some.mp done
  exact effect

theorem schedule (stepped : kernel.schedule core = some after) :
    kernel.Follows core .schedule after := by
  unfold Kernel.schedule at stepped
  split at stepped
  case h_1 here =>
    cases stepped
    exact ⟨fun owned => owned.advance (by simp [here]) rfl rfl (by simp),
      .scan (by simp [aged, here]) (by simp [dispatched, here])⟩
  case h_2 here =>
    cases stepped
    refine ⟨fun owned => owned.advance (by simp [here]) rfl rfl ?_,
      .scan (by simp [aged, here]) (by simp [dispatched, here])⟩
    rintro _ _ _ _ ⟨⟩
    simp
  case h_3 slot todo here =>
    cases stepped
    refine ⟨fun owned => ?_, .age slot (by simp [aged, here]) (by simp [dispatched, here])⟩
    have aged : (kernel.set slot (kernel.table slot).agingCheck).Owned := by
      apply owned.set
      · unfold Proc.agingCheck
        split_ifs <;> rfl
      · left
        unfold Proc.agingCheck
        split_ifs <;> rfl
    exact aged.advance (by simp [Kernel.set, here]) rfl rfl (by simp)
  case h_4 i slot todo minTime check here =>
    obtain ⟨free, ⟨⟩⟩ := ite_none_right_eq_some.mp stepped
    exact ⟨fun owned => owned.visit here free,
      .scan (by simp [aged, here]) (by simp [dispatched, here])⟩
  case h_5 i minTime check here =>
    split_ifs at stepped with first below
    · cases stepped
      refine ⟨fun owned => ?_, .scan (by simp [aged, here]) (by simp [dispatched, here, first])⟩
      cases (owned.found core i _ minTime check here).mp first
      refine owned.advance (by simp [here]) rfl rfl ?_
      rintro _ _ _ _ ⟨⟩
      simp [first]
    · cases stepped
      refine ⟨fun owned => ?_, .scan (by simp [aged, here]) (by simp [dispatched, here, first])⟩
      cases (owned.found core i _ minTime check here).mp first
      exact owned.advance (by simp [here]) rfl rfl (by simp)
    · obtain ⟨slot, rfl, rfl⟩ := map_eq_some_iff.mp stepped
      have candidate : (kernel.pc core).candidate = some slot := by simp [here]
      refine ⟨fun owned => ?_, .dispatch slot 0 (by simp [aged, here])
        (by simp [dispatched, here, first]) (.inl ⟨candidate, rfl⟩)⟩
      refine owned.dispatch (owned.candidate core slot candidate) (.inr candidate) ?_ rfl rfl ?_
      · rfl
      · simp [candidate, Kernel.dispatch, goto, Kernel.set, keep]
  case h_6 here =>
    cases stepped
    exact ⟨fun owned => owned.advance (by simp [here]) rfl rfl (by simp),
      .scan (by simp [aged, here]) (by simp [dispatched, here])⟩
  case h_7 slot todo here =>
    split_ifs at stepped with free chosen
    · cases stepped
      refine ⟨fun owned => owned.dispatch chosen.1 (.inl free) rfl rfl rfl ?_,
        .dispatch slot _ (by simp [aged, here]) (by simp [dispatched, here, chosen])
          (.inr ⟨by simp [here], chosen.1, chosen.2, rfl⟩)⟩
      simp [here, Kernel.dispatch, goto, Kernel.set]
    · cases stepped
      exact ⟨fun owned => owned.advance (by simp [here]) rfl rfl (by simp),
        .scan (by simp [aged, here]) (by simp [dispatched, here, chosen])⟩
  case h_8 => cases stepped

theorem syscall (here : kernel.pc core = .run slot pass) (staying : kernel.leaving slot = false)
    (stepped : kernel.syscall core slot pass action = some after) :
    kernel.Follows core action after := by
  have myproc : (kernel.pc core).myproc = some slot := by simp [here]
  cases action with
  | schedule | tick | updTime | wakeup | timer | yield => cases stepped
  | alloc child fits =>
    obtain ⟨unused, stepped⟩ := ite_none_right_eq_some.mp stepped
    obtain ⟨inner, done, rfl⟩ := map_eq_some_iff.mp stepped
    obtain ⟨kept, effect⟩ := withLock (.alloc child fits) _ unused done
    exact ⟨fun owned => { kept owned with }, effect⟩
  | adopt child =>
    obtain ⟨-, ⟨⟩⟩ := ite_none_right_eq_some.mp stepped
    exact ⟨fun owned => owned.set rfl (.inl rfl), .relate _ child slot (.inl rfl)⟩
  | start child =>
    obtain ⟨used, stepped⟩ := ite_none_right_eq_some.mp stepped
    exact withLock (.start child) 0 used stepped
  | reset =>
    obtain ⟨-, ⟨⟩⟩ := ite_none_right_eq_some.mp stepped
    refine ⟨fun owned => ?_, .reset slot myproc staying⟩
    have kept : (kernel.set slot { kernel.table slot with ticksElapsed := 0 }).Owned :=
      owned.set rfl (.inl rfl)
    exact { kept with }
  | kill other pid => exact withLock (.kill other pid) 0 trivial stepped
  | reparent other =>
    obtain ⟨-, ⟨⟩⟩ := ite_none_right_eq_some.mp stepped
    exact ⟨fun owned => owned.set rfl (.inl rfl),
      .relate _ other kernel.initproc (.inr rfl)⟩
  | sleep chan =>
    exact giveUp (.sleep slot chan myproc staying) here rfl stepped
  | exit =>
    obtain ⟨-, stepped⟩ := ite_none_left_eq_some.mp stepped
    exact giveUp (.exit slot myproc staying) here rfl stepped
  | reap other =>
    obtain ⟨zombie, stepped⟩ := ite_none_right_eq_some.mp stepped
    exact withLock (.reap other) 0 zombie.2 stepped

theorem process (here : kernel.pc core = .run slot pass)
    (stepped : kernel.running core slot pass action = some after) :
    kernel.Follows core action after := by
  have myproc : (kernel.pc core).myproc = some slot := by simp [here]
  cases action with
  | timer fromUser =>
    obtain ⟨ctime_eq, state_eq⟩ := timeSlice_frame (kernel.table slot)
    simp only [Kernel.running, timeSlice] at stepped
    split_ifs at stepped with _ expired
    · exact giveUp (.expire fromUser slot myproc expired) here ctime_eq stepped
    · cases stepped
      exact ⟨fun owned => owned.set ctime_eq (.inl state_eq),
        .slice fromUser slot myproc (by simpa using expired)⟩
  | yield =>
    obtain ⟨leaves, stepped⟩ := ite_none_right_eq_some.mp stepped
    obtain ⟨inner, done, rfl⟩ := map_eq_some_iff.mp stepped
    refine ⟨fun owned => { owned.giveUp here done rfl with }, ?_⟩
    obtain ⟨-, ⟨⟩⟩ := ite_none_right_eq_some.mp done
    exact .yield slot myproc leaves
  | schedule | tick | updTime | wakeup | alloc | adopt | start | reset | kill | reparent | sleep
  | exit | reap =>
    obtain ⟨leaves, stepped⟩ := ite_none_left_eq_some.mp stepped
    exact syscall here (by simpa using leaves) stepped

theorem step {label : Core × Action} (stepped : kernel.Step label after) :
    kernel.Follows label.1 label.2 after := by
  obtain ⟨core, action⟩ := label
  unfold Step at stepped
  cases action with
  | schedule => exact schedule stepped
  | tick =>
    obtain ⟨-, ⟨⟩⟩ := ite_none_right_eq_some.mp stepped
    exact ⟨fun owned => { owned with }, .tick⟩
  | updTime slot =>
    obtain ⟨-, stepped⟩ := ite_none_right_eq_some.mp stepped
    exact withLock (.updTime slot) 0 trivial stepped
  | wakeup slot chan =>
    obtain ⟨-, stepped⟩ := ite_none_right_eq_some.mp stepped
    exact withLock (.wakeup slot chan) 0 trivial stepped
  | timer | alloc | adopt | start | reset | yield | kill | reparent | sleep | exit | reap =>
    simp only [Kernel.exec] at stepped
    split at stepped
    next slot pass here => exact process here stepped
    next => cases stepped

end Follows

/-- Every step keeps candidates `RUNNABLE` and dispatched processes `RUNNING`. -/
theorem Owned.step (owned : kernel.Owned) (stepped : kernel.Step label after) : after.Owned :=
  (Follows.step stepped).1 owned

/-- Everything a step can do to the table. -/
theorem step_effect (stepped : kernel.Step label after) :
    kernel.Effect label.1 label.2 after.table after.leaving :=
  (Follows.step stepped).2

theorem process_pc (stepped : kernel.running core slot pass action = some after) :
    after.pc = kernel.pc ∨ after.pc = update kernel.pc core pass.resume := by
  cases action <;>
    simp only [running, syscall, timeSlice, giveUp, withLock] at stepped <;>
    split_ifs at stepped <;> simp_all <;> grind [set, goto, setLeaving]

/-- A step other than the scheduler's own is one of the process or of an interrupt. -/
theorem other_pc (stepped : kernel.Step label after) (other : label.2 ≠ .schedule) :
    (kernel.pc label.1).candidate = none ∧ (after.pc = kernel.pc ∨ ∃ slot pass,
      kernel.pc label.1 = .run slot pass ∧ after.pc = update kernel.pc label.1 pass.resume) := by
  obtain ⟨core, action⟩ := label
  unfold Step at stepped
  cases action with
  | schedule => exact (other rfl).elim
  | tick | updTime | wakeup =>
    simp only [exec, withLock] at stepped
    split_ifs at stepped with quiet
    all_goals
      cases stepped
      simp [quiet, set]
  | timer | alloc | adopt | start | reset | yield | kill | reparent | sleep | exit | reap =>
    simp only [exec] at stepped
    split at stepped
    next slot pass here =>
      exact ⟨by simp [here], (process_pc stepped).imp id fun moved => ⟨slot, pass, here, moved⟩⟩
    next => cases stepped

/-- A process that waits at a level after a step has waited there before, or joins it. -/
theorem waits_cases {level : Int} (stepped : kernel.Step label after)
    (waits : Waits after.table level slot) :
    Waits kernel.table level slot ∨ kernel.joins label.1 label.2 = some (slot, level) := by
  have effect := step_effect stepped
  obtain ⟨core, action⟩ := label
  generalize after.table = table at effect waits
  generalize after.leaving = leaving at effect
  have write {written : Slot} {proc : Proc}
      (waits : Waits (update kernel.table written proc) level slot)
      (joined : proc.state = .runnable → Waits kernel.table proc.priorityLevel written ∨
        kernel.joins core action = some (written, proc.priorityLevel)) :
      Waits kernel.table level slot ∨ kernel.joins core action = some (slot, level) := by
    obtain rfl | other := eq_or_ne slot written
    · obtain ⟨runnable, rfl⟩ := waits
      simp only [Table.Runnable, update_self] at runnable ⊢
      exact joined runnable
    · simpa [Waits, Table.Runnable, other] using Or.inl waits
  cases effect with
  | tick | scan => exact .inl waits
  | dispatch | sleep | exit => exact write waits nofun
  | reset slot myproc => exact write waits fun runnable => .inl ⟨runnable, rfl⟩
  | age slot aged =>
    refine write waits fun runnable => .inr ?_
    have was : kernel.table.Runnable slot := by
      unfold Proc.agingCheck at runnable
      split_ifs at runnable <;> exact runnable
    simp [joins, aged, was]
  | slice _ slot myproc stays =>
    obtain ⟨-, state⟩ := timeSlice_frame (kernel.table slot)
    refine write waits fun runnable => .inl ⟨state.symm.trans runnable, ?_⟩
    unfold Proc.timeSlice at stays ⊢
    simp only at stays ⊢
    split_ifs at stays ⊢
    rfl
  | expire _ slot myproc yields =>
    exact write waits fun _ => .inr (by simp [joins, myproc, yields, Proc.yield])
  | yield slot myproc => exact write waits fun _ => .inr (by simp [joins, myproc, Proc.yield])
  | relate action slot parent => exact write waits fun runnable => .inl ⟨runnable, rfl⟩
  | sect sect tickets finds =>
    refine write waits fun runnable => ?_
    cases sect <;> simp only [Section.slot] at runnable ⊢ <;>
      simp only [Section.write] at runnable ⊢
    case updTime => exact .inl ⟨(Proc.updTime_state ..).symm.trans runnable, by simp⟩
    case start => exact .inr rfl
    case reap => cases runnable
    case alloc =>
      rw [Proc.forked_state] at runnable
      split_ifs at runnable
    case wakeup =>
      rw [Proc.wakeup_state] at runnable
      split_ifs at runnable with woken
      · exact .inr (by simp [joins, woken])
      · exact .inl ⟨runnable, by simp⟩
    case kill =>
      split_ifs at runnable ⊢ with named
      · rw [Proc.kill_state] at runnable
        split_ifs at runnable with woken
        · exact .inr (by simp [joins, woken, named])
        · exact .inl ⟨runnable, by simp⟩
      · exact .inl ⟨runnable, rfl⟩

omit [DecidableEq Core] in
theorem boot_owned (Core : Type) : (boot Core).Owned where
  owner_iff := by simp [boot]
  candidate := by simp [boot]
  running := by simp [boot]
  unique := by simp [boot]
  found := by simp [boot]
  ctime_eq := by
    intro slot
    simp only [boot]
    split_ifs <;> rfl

end Kernel

end Smp

end Xv6.Mlfq
