import Xv6.Sched.Loop

/-!
# Lock discipline of the scheduler loop

A build is disciplined under a guard when every visit the guard admits hands the
lock over correctly: from holding exactly the candidate's lock to holding exactly
the new candidate's lock.  For such a build no CPU panics and no two CPUs run
the same process, in every interleaving whose visits all meet the guard.
-/

namespace Xv6

open Function Machine Transition Option

/-- A condition on one visit of the scan: the slot and the candidate so far. -/
abbrev VisitGuard := Table → Slot → Option Slot → Prop

/-- What one admitted visit of a build does. -/
structure ScanBuild.Disciplined (build : ScanBuild) (guard : VisitGuard) : Prop where
  visit : ∀ machine id slot check,
    machine.Owned → machine.Holds id check.toFinset →
    (∀ candidate ∈ check, machine.table.Runnable candidate ∧ candidate ≠ slot) →
    guard machine.table slot check →
    build.visit id slot check machine = .error .blocked ∨
      ∃ next after, build.visit id slot check machine = .ok (next, after) ∧
        after.Owned ∧ after.Holds id next.toFinset ∧ Frame id machine after ∧
        ∀ candidate ∈ next,
          machine.table.Runnable candidate ∧ (candidate ∈ check ∨ candidate = slot)
  select_running : ∀ proc, (build.select proc).state = .running

/-- The guard of a step: visits meet the build's guard, other steps are free. -/
def System.Meets (guard : VisitGuard) (system : System) (label : CpuId × Action) : Prop :=
  label.2 = .visit → ∀ slot todo check,
    system.pc label.1 = .scan (slot :: todo) check →
    guard system.machine.table slot check

/-- The next visit of a CPU, if it is in a scan, meets the guard. -/
def Pc.Admits (guard : VisitGuard) (table : Table) : Pc → Prop
  | .scan (slot :: _) check => guard table slot check
  | _ => True

theorem Pc.admits_iff {guard : VisitGuard} {table : Table} {pc : Pc} : pc.Admits guard table ↔
    ∀ slot todo check, pc = .scan (slot :: todo) check → guard table slot check := by
  constructor
  · rintro admits slot todo check rfl
    exact admits
  · intro meets
    unfold Admits
    split
    · exact meets _ _ _ rfl
    · trivial

instance (guard : VisitGuard) [∀ table slot check, Decidable (guard table slot check)]
    (table : Table) (pc : Pc) : Decidable (pc.Admits guard table) := by
  unfold Pc.Admits
  split <;> infer_instance

instance (guard : VisitGuard) [∀ table slot check, Decidable (guard table slot check)]
    (system : System) (label : CpuId × Action) : Decidable (system.Meets guard label) :=
  decidable_of_iff (label.2 = .visit → (system.pc label.1).Admits guard system.machine.table)
    (imp_congr_right fun _ => Pc.admits_iff)

/-- Two CPUs in turn scan the table and switch to what they have found. -/
def dispatchBoth : List (CpuId × Action) :=
  [0, 1].flatMap fun id => List.replicate NPROC (id, .visit) ++ [(id, .dispatch), (id, .resume)]

/-- The slot a CPU's position refers to. -/
def Pc.slot? : Pc → Option Slot
  | .scan _ check => check
  | .resume slot => some slot
  | .run slot => some slot
  | .back slot => some slot

/-- No other CPU is in the way of a scan: the locks taken are exactly those this
CPU holds. -/
structure Machine.Alone (machine : Machine) (id : CpuId) (held : Finset Slot) : Prop where
  holds : machine.Holds id held
  locked : ∀ slot, (machine.lock slot).locked = true → slot ∈ held

/-- A CPU about to start a scan, with every lock free. -/
structure Machine.Idle (machine : Machine) (id : CpuId) : Prop where
  free : ∀ slot, machine.lock slot = ⟨false, none⟩
  noff_eq : (machine.cpu id).noff = 0

variable {machine : Machine} {id : CpuId}

theorem Machine.Idle.alone (idle : machine.Idle id) : machine.Alone id ∅ where
  holds := ⟨by simp [holding, idle.free], by simpa using idle.noff_eq, by simp⟩
  locked := by simp [idle.free]

/-- From a `swtch` at which the CPU holds only the lock of its process, the way
back to the next scan succeeds and leaves no lock held. -/
theorem roundTrip_spec {slot : Slot} (alone : machine.Alone id {slot}) {proc : Proc}
    (stopped : proc.state ≠ .running) :
    ∃ after, roundTrip id slot proc machine = .ok after ∧ after.Alone id ∅ := by
  obtain ⟨first, released, holdsFirst, -, -, lockFirst⟩ :=
    release_spec alone.holds (Finset.mem_singleton_self slot)
  have free : (first.lock slot).locked = false := by simp [lockFirst]
  rcases acquire_spec holdsFirst (by simp : slot ∉ ({slot} : Finset Slot).erase slot) with
    ⟨-, locked⟩ | ⟨second, acquired, -, holdsSecond, -, -, lockSecond⟩
  · rw [free] at locked
    cases locked
  have held : holding (second.lock slot) id :=
    (holdsSecond.holding_iff slot).mpr (by simp)
  have depth : (second.cpu id).noff = 1 := by simpa using holdsSecond.noff_eq
  have interruptsOff : (second.cpu id).sie = false := holdsSecond.sie_off ⟨slot, by simp⟩
  have gaveUp : giveUp id slot proc first = .ok (second.setProc slot proc) := by
    simp [giveUp, acquired, sched, held, depth, stopped, interruptsOff]
  have holdsCleared :
      ((second.setProc slot proc).setCpu id { second.cpu id with proc := none }).Holds
        id {slot} := by
    refine ⟨by simpa using holdsSecond.holding_iff, by simpa using depth, ?_⟩
    simpa using interruptsOff
  obtain ⟨third, releasedAgain, holdsThird, -, -, lockThird⟩ :=
    release_spec holdsCleared (Finset.mem_singleton_self slot)
  refine ⟨third.intrOn id, ?_, ⟨⟨?_, ?_, by simp⟩, ?_⟩⟩
  · simp [roundTrip, released, gaveUp, afterSwitch, releasedAgain, bind, Except.bind, pure,
      Except.pure]
  · simpa [intrOn] using holdsThird.holding_iff
  · simpa [intrOn] using holdsThird.noff_eq
  · intro query locked
    obtain rfl | same := eq_or_ne query slot
    · simp [intrOn, lockThird] at locked
    · have taken : (machine.lock query).locked = true := by
        simpa [intrOn, lockThird, lockSecond, lockFirst, same] using locked
      exact (same (by simpa using alone.locked query taken)).elim

theorem Machine.Alone.intrOn (alone : machine.Alone id ∅) : (machine.intrOn id).Alone id ∅ where
  holds := by
    refine ⟨alone.holds.holding_iff, ?_, by simp⟩
    simpa [Machine.intrOn] using alone.holds.noff_eq
  locked := alone.locked

/-- Switching to a candidate whose lock is the only one held. -/
theorem ScanBuild.switchTo_alone (build : ScanBuild) {slot : Slot}
    (alone : machine.Alone id {slot}) :
    (build.switchTo id slot machine).Alone id {slot} where
  holds := by
    refine ⟨alone.holds.holding_iff, ?_, ?_⟩
    · simpa [ScanBuild.switchTo] using alone.holds.noff_eq
    · simpa [ScanBuild.switchTo] using alone.holds.sie_off
  locked := alone.locked

/-- A build whose scans complete with a wanted candidate, whenever the CPU starts without locks, is
correct exactly if the scan ends with the lock of that candidate and no other. -/
theorem ScanBuild.scanCorrect_iff {build : ScanBuild} {Wanted : Table → Option Slot → Prop}
    {Clean : Table → Prop} (scans : ∀ start : Machine, start.Alone id ∅ → ∃ check after held,
      build.scan id allSlots none start = .ok (check, after) ∧ Wanted start.table check ∧
        after.Alone id held ∧ (held = check.toFinset ↔ Clean start.table))
    (idle : machine.Alone id ∅) : build.ScanCorrect Wanted id machine ↔ Clean machine.table := by
  obtain ⟨check, after, held, scanned, wanted, alone, clean⟩ := scans machine idle
  have locks : (build.atSwitch id after check).lock = after.lock := by
    cases check <;> rfl
  rw [← clean]
  constructor
  · rintro ⟨check', after', scanned', -, holds, -⟩
    rw [scanned, Except.ok.injEq, Prod.mk.injEq] at scanned'
    obtain ⟨rfl, rfl⟩ := scanned'
    ext slot
    rw [← alone.holds.holding_iff slot, mem_toFinset, mem_def, ← locks, holds slot]
  · rintro rfl
    have completes : ∀ start : Machine, start.Alone id ∅ →
        ∃ result, build.scan id allSlots none start = .ok result := by
      intro start idle
      obtain ⟨check, after, -, completed, -⟩ := scans start idle
      exact ⟨_, completed⟩
    refine ⟨check, after, scanned, wanted, ?_, ?_, ?_⟩
    · intro slot
      rw [locks, alone.holds.holding_iff slot, mem_toFinset, mem_def]
    · intro empty
      subst empty
      exact completes _ (by simpa using alone.intrOn)
    · intro slot chosen proc stopped
      rw [mem_def] at chosen
      subst chosen
      obtain ⟨next, returned, aloneNext⟩ :=
        roundTrip_spec (build.switchTo_alone (by simpa using alone)) stopped
      exact ⟨next, returned, completes next aloneNext⟩

namespace System

/-- What one CPU knows at its position: the locks it holds, its process, and the
state of the slot it refers to. -/
def CpuInv (machine : Machine) (id : CpuId) : Pc → Prop
  | .scan todo check =>
    machine.Holds id check.toFinset ∧ (machine.cpu id).proc = none ∧
      (∀ slot ∈ check, machine.table.Runnable slot ∧ slot ∉ todo) ∧ todo.Nodup
  | .resume slot =>
    machine.Holds id {slot} ∧ (machine.cpu id).proc = some slot ∧
      (machine.table slot).state = .running
  | .run slot =>
    machine.Holds id ∅ ∧ (machine.cpu id).proc = some slot ∧
      (machine.table slot).state = .running
  | .back slot =>
    machine.Holds id {slot} ∧ (machine.cpu id).proc = some slot ∧
      (machine.table slot).state ≠ .running

/-- The lock discipline of all CPUs together. -/
structure Inv (system : System) : Prop where
  owned : system.machine.Owned
  local_ : ∀ id, CpuInv system.machine id (system.pc id)
  unique : ∀ id other slot, (system.machine.cpu id).proc = some slot →
    (system.machine.cpu other).proc = some slot → id = other

variable {system : System}

theorem Initial.inv (initial : system.Initial) : system.Inv where
  owned := by
    intro slot locked
    simp [initial.free slot] at locked
  local_ := by
    intro id
    rw [initial.scanning id]
    refine ⟨⟨?_, ?_, ?_⟩, (initial.idle id).2, by simp, List.nodup_finRange _⟩
    · intro slot
      simp [holding, initial.free slot]
    · simpa using (initial.idle id).1
    · simp
  unique := by
    intro id other slot runs
    simp [(initial.idle id).2] at runs

variable {id : CpuId} {pc : Pc}

/-- A CPU's knowledge survives steps of others that leave alone its record, its
locks and the slot it refers to. -/
theorem CpuInv.frame {before after : Machine} (known : CpuInv before id pc)
    (cpu_eq : after.cpu id = before.cpu id)
    (holding_iff : ∀ slot, holding (after.lock slot) id ↔ holding (before.lock slot) id)
    (state_eq : ∀ slot ∈ pc.slot?, (after.table slot).state = (before.table slot).state) :
    CpuInv after id pc := by
  have holds : ∀ held, before.Holds id held → after.Holds id held := by
    intro held holds
    refine ⟨fun slot => (holding_iff slot).trans (holds.holding_iff slot), ?_, ?_⟩
    · rw [cpu_eq]
      exact holds.noff_eq
    · rw [cpu_eq]
      exact holds.sie_off
  cases pc with
  | scan todo check =>
    obtain ⟨held, idle, candidate, nodup⟩ := known
    refine ⟨holds _ held, by rw [cpu_eq]; exact idle, ?_, nodup⟩
    intro slot member
    refine ⟨?_, (candidate slot member).2⟩
    rw [Table.Runnable, state_eq slot member]
    exact (candidate slot member).1
  | resume slot | run slot | back slot =>
    exact ⟨holds _ known.1, by rw [cpu_eq]; exact known.2.1,
      by rw [state_eq slot rfl]; exact known.2.2⟩

variable {slot : Slot} {id other : CpuId} {after : Machine}

/-- A slot whose lock one CPU holds, or whose process another CPU does not run,
is not the slot another CPU refers to. -/
theorem Inv.slot?_ne (inv : system.Inv) (ne : other ≠ id)
    (held : holding (system.machine.lock slot) id)
    (notRunning : (system.machine.table slot).state ≠ .running) :
    slot ∉ (system.pc other).slot? := by
  intro refers
  have known := inv.local_ other
  have exclusive : ¬ holding (system.machine.lock slot) other := by
    intro otherHolds
    exact ne (some.inj (otherHolds.2.symm.trans held.2))
  cases here : system.pc other with
  | scan todo check =>
    rw [here] at known refers
    simp only [Pc.slot?, mem_def] at refers
    exact exclusive ((known.1.holding_iff slot).mpr (by simp [refers]))
  | resume slot' | run slot' =>
    rw [here] at known refers
    simp only [Pc.slot?, mem_def, some.injEq] at refers
    subst refers
    exact notRunning known.2.2
  | back slot' =>
    rw [here] at known refers
    simp only [Pc.slot?, mem_def, some.injEq] at refers
    subst refers
    exact exclusive ((known.1.holding_iff slot').mpr (by simp))

/-- The invariant after a step of one CPU, from that CPU's new knowledge and a
frame for all others. -/
theorem Inv.goto (inv : system.Inv) (owned : after.Owned) (known : CpuInv after id pc)
    (cpu_eq : ∀ other, other ≠ id → after.cpu other = system.machine.cpu other)
    (holding_iff : ∀ other slot, other ≠ id →
      (holding (after.lock slot) other ↔ holding (system.machine.lock slot) other))
    (state_eq : ∀ other, other ≠ id → ∀ slot ∈ (system.pc other).slot?,
      (after.table slot).state = (system.machine.table slot).state)
    (fresh : ∀ other slot, other ≠ id → (after.cpu id).proc = some slot →
      (system.machine.cpu other).proc ≠ some slot) : (system.goto id after pc).Inv where
  owned := owned
  local_ := by
    intro other
    obtain rfl | same := eq_or_ne other id
    · simpa [System.goto] using known
    · simp only [System.goto, ne_eq, same, not_false_eq_true, update_of_ne]
      exact (inv.local_ other).frame (cpu_eq other same)
        (fun slot => holding_iff other slot same) (state_eq other same)
  unique := by
    intro left right slot leftRuns rightRuns
    simp only [System.goto] at leftRuns rightRuns
    by_cases leftSame : left = id
    · by_cases rightSame : right = id
      · exact leftSame.trans rightSame.symm
      · subst leftSame
        rw [cpu_eq right rightSame] at rightRuns
        exact (fresh right slot rightSame leftRuns rightRuns).elim
    · obtain rfl | rightSame := eq_or_ne right id
      · rw [cpu_eq left leftSame] at leftRuns
        exact (fresh left slot leftSame rightRuns leftRuns).elim
      · rw [cpu_eq left leftSame] at leftRuns
        rw [cpu_eq right rightSame] at rightRuns
        exact inv.unique left right slot leftRuns rightRuns

/-- A step framed by `Frame` changes nothing that another CPU knows. -/
theorem Inv.goto_frame (inv : system.Inv) (owned : after.Owned) (known : CpuInv after id pc)
    (frame : Frame id system.machine after) :
    (system.goto id after pc).Inv := by
  apply inv.goto owned known frame.cpu_eq frame.holding_iff
  · intro other _ slot _
    exact frame.state_eq slot
  · intro other slot ne runs otherRuns
    rw [frame.proc_eq] at runs
    exact ne (inv.unique other id slot otherRuns runs)

/-- One step either waits or keeps the invariant; it never panics. -/
def Safe (result : Except Stop System) : Prop :=
  result = .error .blocked ∨ ∃ after, result = .ok after ∧ after.Inv

variable {build : ScanBuild} {guard : VisitGuard}

theorem Inv.visit (disciplined : build.Disciplined guard) (inv : system.Inv) {todo : List Slot}
    {check : Option Slot} (here : system.pc id = .scan (slot :: todo) check)
    (admitted : guard system.machine.table slot check) : Safe (system.exec build id .visit) := by
  have known := inv.local_ id
  rw [here] at known
  obtain ⟨holds, idle, candidate, nodup⟩ := known
  have distinct : ∀ query ∈ check,
      system.machine.table.Runnable query ∧ query ≠ slot := by
    intro query member
    refine ⟨(candidate query member).1, ?_⟩
    intro same
    exact (candidate query member).2 (by simp [same])
  rcases disciplined.visit system.machine id slot check inv.owned holds distinct admitted
    with blocked | ⟨next, after, visited, owned, holdsNext, frame, candidates⟩
  · left
    simp [exec, here, blocked, Except.map]
  · right
    refine ⟨system.goto id after (.scan todo next),
      by simp [exec, here, visited, Except.map], ?_⟩
    apply inv.goto_frame owned _ frame
    refine ⟨holdsNext, frame.proc_eq.trans idle, ?_, nodup.of_cons⟩
    intro query member
    constructor
    · rw [Table.Runnable, frame.state_eq]
      exact (candidates query member).1
    · rcases (candidates query member).2 with old | new
      · exact fun inTodo => (candidate query old).2 (List.mem_cons_of_mem _ inTodo)
      · subst new
        exact (List.nodup_cons.mp nodup).1

theorem Inv.dispatch (disciplined : build.Disciplined guard) (inv : system.Inv) :
    Safe (system.exec build id .dispatch) := by
  have known := inv.local_ id
  cases here : system.pc id with
  | resume slot | run slot | back slot =>
    left
    simp [exec, here]
  | scan todo check =>
    cases todo with
    | cons slot todo =>
      left
      simp [exec, here]
    | nil =>
      right
      rw [here] at known
      obtain ⟨holds, idle, candidate, -⟩ := known
      cases check with
      | none =>
        refine ⟨system.goto id (system.machine.intrOn id) (.scan allSlots none),
          by simp [exec, here], ?_⟩
        apply inv.goto
        · exact inv.owned
        · refine ⟨⟨holds.holding_iff, ?_, by simp⟩, by simpa [intrOn] using idle,
            by simp, List.nodup_finRange _⟩
          simpa [intrOn] using holds.noff_eq
        · intro other ne
          simp [intrOn, ne]
        · exact fun _ _ _ => Iff.rfl
        · exact fun _ _ _ _ => rfl
        · intro other slot _ runs
          simp [intrOn, idle] at runs
      | some slot =>
        have runnable := (candidate slot rfl).1
        have held : holding (system.machine.lock slot) id :=
          (holds.holding_iff slot).mpr (by simp)
        have notRunning : (system.machine.table slot).state ≠ .running := by
          rw [runnable]
          simp
        refine ⟨system.goto id (build.switchTo id slot system.machine) (.resume slot),
          by simp [exec, here], ?_⟩
        apply inv.goto
        · exact inv.owned
        · refine ⟨⟨?_, ?_, ?_⟩, by simp [ScanBuild.switchTo], ?_⟩
          · simpa [ScanBuild.switchTo] using holds.holding_iff
          · simpa [ScanBuild.switchTo] using holds.noff_eq
          · simpa [ScanBuild.switchTo] using holds.sie_off
          · simp [ScanBuild.switchTo, disciplined.select_running]
        · intro other ne
          simp [ScanBuild.switchTo, ne]
        · exact fun _ _ _ => Iff.rfl
        · intro other ne query refers
          have distinct : query ≠ slot := by
            intro same
            subst same
            exact inv.slot?_ne ne held notRunning refers
          simp [ScanBuild.switchTo, distinct]
        · intro other query ne runs otherRuns
          simp only [ScanBuild.switchTo, setCpu_cpu, update_self,
            some.injEq] at runs
          subst runs
          apply inv.slot?_ne ne held notRunning
          have otherKnown := inv.local_ other
          cases otherPosition : system.pc other with
          | scan todo check =>
            rw [otherPosition] at otherKnown
            simp [otherKnown.2.1] at otherRuns
          | resume own | run own | back own =>
            rw [otherPosition] at otherKnown
            simpa [Pc.slot?, otherKnown.2.1] using otherRuns

theorem Inv.resume (inv : system.Inv) : Safe (system.exec build id .resume) := by
  have known := inv.local_ id
  cases here : system.pc id with
  | scan todo check =>
    left
    simp [exec, here]
  | run slot | back slot =>
    left
    simp [exec, here]
  | resume slot =>
    right
    rw [here] at known
    obtain ⟨holds, runs, running⟩ := known
    obtain ⟨after, released, holdsAfter, frame, -, lockEq⟩ :=
      release_spec holds (Finset.mem_singleton_self slot)
    refine ⟨system.goto id after (.run slot),
      by simp [exec, here, released, Except.map], ?_⟩
    apply inv.goto_frame (owned_of_lock_eq inv.owned lockEq (by simp)) _ frame
    refine ⟨by simpa using holdsAfter, frame.proc_eq.trans runs, ?_⟩
    rw [frame.state_eq]
    exact running

/-- `acquire`, a write that neither starts nor stops a process, `release`. -/
theorem lockedUpdate_spec {machine : Machine} (owned : machine.Owned) (holds : machine.Holds id ∅)
    (slot : Slot) (proc : Proc) :
    lockedUpdate id slot proc machine = .error .blocked ∨
      ∃ after, lockedUpdate id slot proc machine = .ok after ∧ after.Owned ∧
        after.Holds id ∅ ∧ (machine.lock slot).locked = false ∧
        UpdateAllowed (machine.table slot) proc ∧
        after.table = update machine.table slot proc ∧
        (∀ other, other ≠ id → after.cpu other = machine.cpu other) ∧
        (∀ other query, other ≠ id →
          (holding (after.lock query) other ↔ holding (machine.lock query) other)) ∧
        (after.cpu id).proc = (machine.cpu id).proc := by
  rcases acquire_spec holds (Finset.notMem_empty slot) with
    ⟨blocked, -⟩ | ⟨middle, acquired, free, holdsSlot, frame, tableEq, lockEq⟩
  · left
    simp [lockedUpdate, blocked]
  · by_cases allowed : UpdateAllowed (machine.table slot) proc
    · right
      have holdsWritten : (middle.setProc slot proc).Holds id (insert slot ∅) :=
        ⟨holdsSlot.holding_iff, holdsSlot.noff_eq, holdsSlot.sie_off⟩
      obtain ⟨after, released, holdsAfter, frameAfter, tableAfter, lockAfter⟩ :=
        release_spec holdsWritten (Finset.mem_insert_self slot ∅)
      refine ⟨after, by simp [lockedUpdate, acquired, tableEq, allowed, released], ?_,
        by simpa using holdsAfter, free, allowed, ?_, ?_, ?_, ?_⟩
      · have ownedMiddle : (middle.setProc slot proc).Owned :=
          owned_of_lock_eq owned lockEq (fun _ => ⟨id, rfl, rfl⟩)
        exact owned_of_lock_eq ownedMiddle lockAfter (by simp)
      · rw [tableAfter, setProc_table, tableEq]
      · intro other ne
        rw [frameAfter.cpu_eq other ne, setProc_cpu, frame.cpu_eq other ne]
      · intro other query ne
        rw [frameAfter.holding_iff other query ne, setProc_lock,
          frame.holding_iff other query ne]
      · rw [frameAfter.proc_eq, setProc_cpu, frame.proc_eq]
    · left
      simp [lockedUpdate, acquired, tableEq, allowed]

section

variable (inv : system.Inv)
include inv

/-- A process that is referred to by a CPU which does not hold its lock is
`RUNNING`. -/
theorem Inv.running_of_slot? (refers : slot ∈ (system.pc id).slot?)
    (free : (system.machine.lock slot).locked = false) :
    (system.machine.table slot).state = .running := by
  have known := inv.local_ id
  have notHeld : ¬ holding (system.machine.lock slot) id := by
    simp [holding, free]
  cases here : system.pc id with
  | scan todo check =>
    rw [here] at known refers
    simp only [Pc.slot?, mem_def] at refers
    exact (notHeld ((known.1.holding_iff slot).mpr (by simp [refers]))).elim
  | resume own | run own =>
    rw [here] at known refers
    simp only [Pc.slot?, mem_def, some.injEq] at refers
    subst refers
    exact known.2.2
  | back own =>
    rw [here] at known refers
    simp only [Pc.slot?, mem_def, some.injEq] at refers
    subst refers
    exact (notHeld ((known.1.holding_iff own).mpr (by simp))).elim

/-- An admitted write under the lock does not change the state of a slot that
some CPU refers to. -/
theorem Inv.update_state_eq {proc : Proc} (free : (system.machine.lock slot).locked = false)
    (allowed : UpdateAllowed (system.machine.table slot) proc) {query : Slot}
    (refers : query ∈ (system.pc id).slot?) :
    (update system.machine.table slot proc query).state =
      (system.machine.table query).state := by
  obtain rfl | same := eq_or_ne query slot
  · have running := inv.running_of_slot? refers free
    rw [update_self, running]
    exact allowed.mp running
  · simp [same]

theorem Inv.update (slot : Slot) (proc : Proc) :
    Safe (system.exec build id (.update slot proc)) := by
  have known := inv.local_ id
  have result : system.machine.Holds id ∅ →
      (∀ after : Machine, after.Holds id ∅ →
        (after.cpu id).proc = (system.machine.cpu id).proc →
        (∀ query ∈ (system.pc id).slot?,
          (after.table query).state = (system.machine.table query).state) →
        CpuInv after id (system.pc id)) →
      Safe ((lockedUpdate id slot proc system.machine).map fun machine =>
        { system with machine }) := by
    intro holds ownKnown
    rcases lockedUpdate_spec inv.owned holds slot proc with
      blocked | ⟨after, updated, owned, holdsAfter, free, allowed, tableEq,
        cpuEq, holdingIff, procEq⟩
    · left
      simp [blocked, Except.map]
    · right
      refine ⟨{ system with machine := after }, by simp [updated, Except.map], ?_⟩
      have stays : ({ system with machine := after } : System) =
          system.goto id after (system.pc id) := by
        simp [System.goto]
      rw [stays]
      apply inv.goto owned _ cpuEq holdingIff
      · intro other _ query refers
        rw [tableEq]
        exact inv.update_state_eq free allowed refers
      · intro other query ne runs otherRuns
        rw [procEq] at runs
        exact ne (inv.unique other id query otherRuns runs)
      · apply ownKnown after holdsAfter procEq
        intro query refers
        rw [tableEq]
        exact inv.update_state_eq free allowed refers
  cases here : system.pc id with
  | resume own | back own =>
    left
    simp [exec, here]
  | run own =>
    rw [here] at known
    simp only [exec, here]
    apply result known.1
    intro after holdsAfter procEq stateEq
    rw [here] at stateEq ⊢
    exact ⟨holdsAfter, procEq.trans known.2.1, (stateEq own rfl).trans known.2.2⟩
  | scan todo check =>
    cases check with
    | some candidate =>
      left
      simp [exec, here]
    | none =>
      rw [here] at known
      simp only [exec, here]
      apply result (by simpa using known.1)
      intro after holdsAfter procEq _
      rw [here]
      exact ⟨by simpa using holdsAfter, procEq.trans known.2.1, by simp, known.2.2.2⟩

theorem Inv.giveUp (proc : Proc) : Safe (system.exec build id (.giveUp proc)) := by
  have known := inv.local_ id
  cases here : system.pc id with
  | scan todo check =>
    left
    simp [exec, here]
  | resume own | back own =>
    left
    simp [exec, here]
  | run own =>
    by_cases stopping :
        proc.state = .runnable ∨ proc.state = .sleeping ∨ proc.state = .zombie
    · have notRunning : proc.state ≠ .running := by
        rcases stopping with runnable | sleeping | zombie
        · simp [runnable]
        · simp [sleeping]
        · simp [zombie]
      rw [here] at known
      obtain ⟨holds, runs, running⟩ := known
      rcases acquire_spec holds (Finset.notMem_empty own) with
        ⟨blocked, -⟩ | ⟨middle, acquired, free, holdsOwn, frame, tableEq, lockEq⟩
      · left
        simp [exec, here, stopping, Xv6.giveUp, blocked, Except.map]
      · right
        have held : holding (middle.lock own) id :=
          (holdsOwn.holding_iff own).mpr (by simp)
        have depth : (middle.cpu id).noff = 1 := by
          simpa using holdsOwn.noff_eq
        have interruptsOff : (middle.cpu id).sie = false :=
          holdsOwn.sie_off ⟨own, by simp⟩
        refine ⟨system.goto id (middle.setProc own proc) (.back own), ?_, ?_⟩
        · simp [exec, here, stopping, Xv6.giveUp, acquired, Except.map, sched, held,
            depth, interruptsOff, notRunning]
        · have others : ∀ other, other ≠ id → own ∉ (system.pc other).slot? := by
            intro other ne refers
            have otherKnown := inv.local_ other
            have otherRuns : (system.machine.cpu other).proc = some own := by
              cases otherPosition : system.pc other with
              | scan todo check =>
                rw [otherPosition] at otherKnown refers
                simp only [Pc.slot?, mem_def] at refers
                have runnable := (otherKnown.2.2.1 own refers).1
                rw [Table.Runnable, running] at runnable
                cases runnable
              | resume slot | run slot | back slot =>
                rw [otherPosition] at otherKnown refers
                simp only [Pc.slot?, mem_def, some.injEq] at refers
                rw [otherKnown.2.1, refers]
            exact ne (inv.unique other id own otherRuns runs)
          apply inv.goto
          · exact owned_of_lock_eq inv.owned lockEq (fun _ => ⟨id, rfl, rfl⟩)
          · refine ⟨⟨?_, ?_, ?_⟩, ?_, ?_⟩
            · simpa using holdsOwn.holding_iff
            · simpa using holdsOwn.noff_eq
            · exact fun _ => interruptsOff
            · exact frame.proc_eq.trans runs
            · simpa using notRunning
          · exact frame.cpu_eq
          · exact frame.holding_iff
          · intro other ne query refers
            have distinct : query ≠ own := by
              intro same
              subst same
              exact others other ne refers
            simp [distinct, tableEq]
          · intro other query ne runsAfter otherRuns
            have same : query = own := by
              have runsOwn : (middle.cpu id).proc = some own := frame.proc_eq.trans runs
              simpa [runsOwn] using runsAfter.symm
            subst same
            exact ne (inv.unique other id query otherRuns runs)
    · left
      simp [exec, here, stopping]

theorem Inv.finish : Safe (system.exec build id .finish) := by
  have known := inv.local_ id
  cases here : system.pc id with
  | scan todo check =>
    left
    simp [exec, here]
  | resume own | run own =>
    left
    simp [exec, here]
  | back own =>
    right
    rw [here] at known
    obtain ⟨holds, runs, notRunning⟩ := known
    have holdsCleared :
        (system.machine.setCpu id { system.machine.cpu id with proc := none }).Holds
          id {own} := by
      refine ⟨holds.holding_iff, ?_, ?_⟩
      · simpa using holds.noff_eq
      · simpa using holds.sie_off
    obtain ⟨after, released, holdsAfter, frame, tableEq, lockEq⟩ :=
      release_spec holdsCleared (Finset.mem_singleton_self own)
    refine ⟨system.goto id (after.intrOn id) (.scan allSlots none),
      by simp [exec, here, afterSwitch, released, Except.map], ?_⟩
    have idle : (after.cpu id).proc = none := by
      rw [frame.proc_eq]
      simp
    apply inv.goto
    · exact owned_of_lock_eq inv.owned lockEq (by simp)
    · refine ⟨⟨?_, ?_, by simp⟩, by simpa [intrOn] using idle, by simp,
        List.nodup_finRange _⟩
      · simpa [intrOn] using holdsAfter.holding_iff
      · simpa [intrOn] using holdsAfter.noff_eq
    · intro other ne
      simp [intrOn, ne, frame.cpu_eq other ne]
    · intro other query ne
      simpa [intrOn] using frame.holding_iff other query ne
    · intro other _ query _
      simp [intrOn, tableEq]
    · intro other query _ runsAfter
      simp [intrOn, idle] at runsAfter

end

/-- Every admitted step waits or keeps the invariant. -/
theorem Inv.exec (disciplined : build.Disciplined guard) (inv : system.Inv) (label : CpuId × Action)
    (meets : system.Meets guard label) : Safe (system.exec build label.1 label.2) := by
  obtain ⟨id, action⟩ := label
  cases action with
  | visit =>
    cases here : system.pc id with
    | resume slot | run slot | back slot =>
      left
      simp [System.exec, here]
    | scan todo check =>
      cases todo with
      | nil =>
        left
        simp [System.exec, here]
      | cons slot todo =>
        exact inv.visit disciplined here (meets rfl slot todo check here)
  | dispatch => exact inv.dispatch disciplined
  | resume => exact inv.resume
  | update slot proc => exact inv.update slot proc
  | giveUp proc => exact inv.giveUp proc
  | finish => exact inv.finish

variable {labels : List (CpuId × Action)}

variable (disciplined : build.Disciplined guard) {start finish : System}
include disciplined

/-- In every run whose visits all meet the guard the discipline holds. -/
theorem Initial.run_inv (initial : start.Initial)
    (run : Run (Guarded (Meets guard) (Step build)) start labels finish) : finish.Inv := by
  apply run.invariant _ initial.inv
  intro before label after inv taken
  obtain ⟨meets, stepped⟩ := taken
  rcases inv.exec disciplined label meets with blocked | ⟨next, executed, nextInv⟩
  · rw [Step, blocked] at stepped
    cases stepped
  · rw [Step, executed] at stepped
    cases stepped
    exact nextInv

/-- In such a run no two CPUs have dispatched the same process. -/
theorem Initial.run_unique (initial : start.Initial)
    (run : Run (Guarded (Meets guard) (Step build)) start labels finish)
    (runs : (finish.machine.cpu id).proc = some slot)
    (otherRuns : (finish.machine.cpu other).proc = some slot) : id = other :=
  (initial.run_inv disciplined run).unique id other slot runs otherRuns

/-- In such a run no admitted next step panics. -/
theorem Initial.run_not_panic (initial : start.Initial)
    (run : Run (Guarded (Meets guard) (Step build)) start labels finish) (label : CpuId × Action)
    (meets : finish.Meets guard label) (cause : Panic) :
    finish.exec build label.1 label.2 ≠ .error (.panic cause) := by
  intro panics
  rcases (initial.run_inv disciplined run).exec disciplined label meets with
    blocked | ⟨next, executed, -⟩
  · rw [blocked] at panics
    cases panics
  · rw [executed] at panics
    cases panics

end System

end Xv6
