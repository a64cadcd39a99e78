import Xv6.Sched.Selection

/-!
# The priority scheduler

The PBS build of `scheduler()`.  Its scan always selects a process of least
priority value.  A process that ties with the candidate in priority and does not
win the tie keeps its lock held by the scanning CPU.
-/

namespace Xv6

open Function Machine Transition Finset

/-- The niceness `calculateDynamicPriority` stores.  The only division is by
zero, which C leaves undefined; the compiled kernel of this repository stores
zero there, as `UInt32` division does. -/
def dynamicNiceness (process : Proc) : UInt32 :=
  if process.runTimePrev = 0 then
    if process.sleepTimePrev = 0 then
      process.sleepTimePrev * 10 / (process.runTimePrev + process.sleepTimePrev)
    else
      5
  else
    5

/-- The updated process and the value returned. -/
def calculateDynamicPriority (process : Proc) : Proc × Int :=
  let process := { process with niceness := dynamicNiceness process }
  let checker : Int := (process.sprior - process.niceness + 5).toBitVec.toInt
  if checker > 100 then (process, 100)
  else if checker < 0 then (process, 0)
  else (process, checker)

/-- `p->dprior = calculateDynamicPriority(p)`. -/
def refreshPriority (process : Proc) : Proc :=
  let (process, retval) := calculateDynamicPriority process
  { process with dprior := UInt32.ofInt retval }

/-- One iteration of the PBS scan. -/
def pbsVisit (id : CpuId) (slot : Slot) (check : Option Slot) (machine : Machine) :
    Except Stop (Option Slot × Machine) := do
  let machine ← machine.acquire id slot
  let machine := machine.setProc slot (refreshPriority (machine.table slot))
  let process := machine.table slot
  if process.state = .runnable then
    match check with
    | none => return (some slot, machine)
    | some candidate =>
      let best := machine.table candidate
      if process.dprior < best.dprior then
        let machine ← machine.release id candidate
        return (some slot, machine)
      else if process.dprior = best.dprior then
        if process.countTimeCalled < best.countTimeCalled then
          let machine ← machine.release id candidate
          return (some slot, machine)
        else if process.countTimeCalled = best.countTimeCalled then
          if process.creationTime > best.creationTime then
            let machine ← machine.release id candidate
            return (some slot, machine)
          else
            return (check, machine)
        else
          return (check, machine)
      else
        let machine ← machine.release id slot
        return (check, machine)
  else
    let machine ← machine.release id slot
    return (check, machine)

/-- The PBS build. -/
def pbs : ScanBuild where
  visit := pbsVisit
  select proc :=
    { proc with
      countTimeCalled := proc.countTimeCalled + 1
      state := .running
      sleepTimePrev := 0
      runTimePrev := 0 }

section RefreshPriority

variable (process : Proc)

theorem refreshPriority_eq : refreshPriority process =
    { process with
      niceness := dynamicNiceness process
      dprior := (refreshPriority process).dprior } := by
  simp only [refreshPriority, calculateDynamicPriority]
  split
  · rfl
  · split <;> rfl

@[simp] theorem refreshPriority_state : (refreshPriority process).state = process.state := by
  rw [refreshPriority_eq]

@[simp] theorem refreshPriority_countTimeCalled :
    (refreshPriority process).countTimeCalled = process.countTimeCalled := by
  rw [refreshPriority_eq]

@[simp] theorem refreshPriority_creationTime :
    (refreshPriority process).creationTime = process.creationTime := by
  rw [refreshPriority_eq]

end RefreshPriority

/-- The order of the scan on two entries: smaller priority value, then fewer
dispatches, then later creation. -/
def Wins (left right : Proc) : Prop :=
  left.dprior < right.dprior ∨ left.dprior = right.dprior ∧
    (left.countTimeCalled < right.countTimeCalled ∨
      left.countTimeCalled = right.countTimeCalled ∧
        right.creationTime < left.creationTime)

instance (left right : Proc) : Decidable (Wins left right) :=
  inferInstanceAs (Decidable (_ ∨ _))

/-- The nested comparisons of the scan, by their three outcomes. -/
theorem comparison_eq {Result : Type*} (process best : Proc) (taken kept dropped : Result) :
    (if process.dprior < best.dprior then taken
      else if process.dprior = best.dprior then
        if process.countTimeCalled < best.countTimeCalled then taken
        else if process.countTimeCalled = best.countTimeCalled then
          if process.creationTime > best.creationTime then taken else kept
        else kept
      else dropped) =
    if Wins process best then taken
    else if process.dprior = best.dprior then kept else dropped := by
  simp only [Wins, gt_iff_lt, UInt32.lt_iff_toNat_lt, ← UInt32.toNat_inj]
  grind

/-- The locks held after a visit to a fresh slot. -/
def heldAfter (table : Table) (check : Option Slot) (slot : Slot)
    (held : Finset Slot) : Finset Slot :=
  if table.Runnable slot then
    match check with
    | none => insert slot held
    | some candidate =>
      if Wins (refreshPriority (table slot)) (table candidate) then
        insert slot (held.erase candidate)
      else if (refreshPriority (table slot)).dprior = (table candidate).dprior then
        insert slot held
      else
        held
  else
    held

variable {table : Table} {check : Option Slot} {held : Finset Slot}

theorem heldAfter_subset {slot query : Slot} (member : query ∈ heldAfter table check slot held) :
    query ∈ held ∨ query = slot := by
  unfold heldAfter at member
  split at member
  · split at member
    · exact (mem_insert.mp member).symm
    · split at member
      · exact (mem_insert.mp member).symm.imp_left mem_of_mem_erase
      · split at member
        · exact (mem_insert.mp member).symm
        · exact .inl member
  · exact .inl member

/-- The candidate after a visit, on the entries as they are stored. -/
def pbsNext (table : Table) (check : Option Slot) (slot : Slot) : Option Slot :=
  if table.Runnable slot then
    match check with
    | none => some slot
    | some candidate =>
      if Wins (refreshPriority (table slot)) (table candidate) then some slot else check
  else
    check

variable {machine : Machine} {id : CpuId}

/-- Writing one entry changes neither the held locks nor the CPUs. -/
theorem holds_setProc (holds : machine.Holds id held) (slot : Slot) (proc : Proc) :
    (machine.setProc slot proc).Holds id held :=
  ⟨holds.holding_iff, holds.noff_eq, holds.sie_off⟩

/-- What a visit does to the locks and the table. -/
structure PbsVisited (id : CpuId) (slot : Slot) (check : Option Slot) (held : Finset Slot)
    (machine after : Machine) : Prop where
  holds : after.Holds id (heldAfter machine.table check slot held)
  frame : Frame id machine after
  table_eq : after.table =
    Function.update machine.table slot (refreshPriority (machine.table slot))
  lock_eq : ∀ query, (after.lock query = machine.lock query ∧ query ≠ slot) ∨
    after.lock query = ⟨false, none⟩ ∨ after.lock query = ⟨true, some id⟩

variable {slot : Slot} {seen : Slot → Prop}

theorem pbsVisit_spec (holds : machine.Holds id held) (fresh : slot ∉ held)
    (candidateHeld : ∀ candidate ∈ check, candidate ∈ held) :
    (pbsVisit id slot check machine = .error .blocked ∧
      (machine.lock slot).locked = true) ∨
      ∃ after, pbsVisit id slot check machine =
          .ok (pbsNext machine.table check slot, after) ∧
        PbsVisited id slot check held machine after := by
  rcases acquire_spec holds fresh with
    ⟨blocked, locked⟩ | ⟨middle, acquired, -, holdsSlot, frame, tableEq, lockEq⟩
  · left
    exact ⟨by simp [pbsVisit, blocked, bind, Except.bind], locked⟩
  · right
    have written : (middle.setProc slot (refreshPriority (machine.table slot))).Holds id
        (insert slot held) := holds_setProc holdsSlot _ _
    have frameWritten : Frame id machine
        (middle.setProc slot (refreshPriority (machine.table slot))) := by
      refine ⟨frame.cpu_eq, frame.holding_iff, ?_, frame.proc_eq⟩
      intro query
      obtain rfl | same := eq_or_ne query slot
      · simp [tableEq]
      · simp [same, tableEq]
    have lockKept : ∀ query,
        (middle.lock query = machine.lock query ∧ query ≠ slot) ∨
          middle.lock query = ⟨false, none⟩ ∨ middle.lock query = ⟨true, some id⟩ := by
      intro query
      obtain rfl | same := eq_or_ne query slot
      · exact .inr (Or.inr (by simp [lockEq]))
      · exact .inl ⟨by simp [lockEq, same], same⟩
    have lockReleased : ∀ freed query,
        (update middle.lock freed ⟨false, none⟩ query = machine.lock query ∧
            query ≠ slot) ∨
          update middle.lock freed ⟨false, none⟩ query = ⟨false, none⟩ ∨
          update middle.lock freed ⟨false, none⟩ query = ⟨true, some id⟩ := by
      intro freed query
      obtain rfl | same := eq_or_ne query freed
      · exact .inr (Or.inl (by simp))
      · simpa [same] using lockKept query
    obtain ⟨dropped, releasedSlot, holdsDropped, frameDropped, tableDropped, lockDropped⟩ :=
      release_spec written (mem_insert_self slot held)
    rw [erase_insert fresh] at holdsDropped
    by_cases runnable : machine.table.Runnable slot
    · have isRunnable : (machine.table slot).state = .runnable := runnable
      cases check with
      | none =>
        refine ⟨middle.setProc slot (refreshPriority (machine.table slot)), ?_, ?_⟩
        · simp [pbsVisit, acquired, bind, Except.bind, pure, Except.pure, tableEq,
            isRunnable, pbsNext, runnable]
        · exact ⟨by simpa [heldAfter, runnable] using written, frameWritten,
            by simp [tableEq], lockKept⟩
      | some candidate =>
        have candidateMem := candidateHeld candidate rfl
        have distinct : candidate ≠ slot := fun same => fresh (same ▸ candidateMem)
        obtain ⟨taken, releasedCandidate, holdsTaken, frameTaken, tableTaken, lockTaken⟩ :=
          release_spec written (mem_insert_of_mem candidateMem)
        rw [erase_insert_of_ne (Ne.symm distinct)] at holdsTaken
        simp only [pbsVisit, acquired, bind, Except.bind, pure, Except.pure, setProc_table,
          update_self, update_of_ne distinct, tableEq,
          refreshPriority_state, isRunnable, ↓reduceIte, releasedCandidate, releasedSlot,
          pbsNext, runnable]
        rw [comparison_eq]
        by_cases wins : Wins (refreshPriority (machine.table slot)) (machine.table candidate)
        · refine ⟨taken, by simp [wins], by simpa [heldAfter, runnable, wins] using holdsTaken,
            frameWritten.trans frameTaken, by simp [tableTaken, tableEq], ?_⟩
          rw [lockTaken]
          exact lockReleased candidate
        · by_cases ties : (refreshPriority (machine.table slot)).dprior =
              (machine.table candidate).dprior
          · exact ⟨_, by simp [wins, ties],
              by simpa [heldAfter, runnable, wins, ties] using written,
              frameWritten, by simp [tableEq], lockKept⟩
          · refine ⟨dropped, by simp [wins, ties],
              by simpa [heldAfter, runnable, wins, ties] using holdsDropped,
              frameWritten.trans frameDropped, by simp [tableDropped, tableEq], ?_⟩
            rw [lockDropped]
            exact lockReleased slot
    · have notRunnable : ¬ (machine.table slot).state = .runnable := runnable
      refine ⟨dropped, ?_, ?_⟩
      · simp [pbsVisit, acquired, releasedSlot, bind, Except.bind, pure, Except.pure,
          notRunnable, tableEq, pbsNext, runnable]
      · refine ⟨by simpa [heldAfter, runnable] using holdsDropped,
          frameWritten.trans frameDropped, by rw [tableDropped]; simp [tableEq], ?_⟩
        rw [lockDropped]
        exact lockReleased slot

/-- The visit does not lose a tie in priority. -/
def pbsGuard : VisitGuard := fun table slot check =>
  table.Runnable slot → ∀ candidate ∈ check,
    (refreshPriority (table slot)).dprior = (table candidate).dprior →
      Wins (refreshPriority (table slot)) (table candidate)

instance (table : Table) (slot : Slot) (check : Option Slot) :
    Decidable (pbsGuard table slot check) :=
  inferInstanceAs (Decidable (_ → ∀ candidate ∈ check, _ → _))

/-- A visit that loses no tie hands the lock over. -/
theorem heldAfter_candidate (admitted : pbsGuard table slot check) :
    heldAfter table check slot check.toFinset = (pbsNext table check slot).toFinset := by
  by_cases runnable : table.Runnable slot
  · cases check with
    | none => simp [heldAfter, pbsNext, runnable]
    | some candidate =>
      by_cases wins : Wins (refreshPriority (table slot)) (table candidate)
      · simp [heldAfter, pbsNext, runnable, wins]
      · have differs : (refreshPriority (table slot)).dprior ≠ (table candidate).dprior :=
          fun ties => wins (admitted runnable candidate rfl ties)
        simp [heldAfter, pbsNext, runnable, wins, differs]
  · simp [heldAfter, pbsNext, runnable]

theorem PbsVisited.owned {machine after : Machine}
    (visited : PbsVisited id slot check held machine after) (owned : machine.Owned) :
    after.Owned := by
  intro query locked
  rcases visited.lock_eq query with ⟨kept, -⟩ | freed | taken
  · rw [kept] at locked ⊢
    exact owned query locked
  · simp [freed] at locked
  · exact ⟨id, by simp [holding, taken]⟩

theorem pbs_disciplined : pbs.Disciplined pbsGuard where
  visit := by
    intro machine id slot check owned holds distinct admitted
    have fresh : slot ∉ check.toFinset := by
      intro member
      exact (distinct slot (Option.mem_toFinset.mp member)).2 rfl
    rcases pbsVisit_spec holds fresh (fun _ => Option.mem_toFinset.mpr) with
      ⟨blocked, -⟩ | ⟨after, result, visited⟩
    · exact .inl blocked
    · right
      refine ⟨_, after, result, visited.owned owned, ?_, visited.frame, ?_⟩
      · rw [← heldAfter_candidate admitted]
        exact visited.holds
      · intro candidate chosen
        have best : candidate ∈ bestOf (fun table slot best => Wins (refreshPriority (table slot))
          (table best)) machine.table check slot := chosen
        rcases mem_bestOf best with old | ⟨rfl, runnable⟩
        · exact ⟨(distinct candidate old).1, .inl old⟩
        · exact ⟨runnable, .inr rfl⟩
  select_running := fun _ => rfl

/-! ## One scan of the whole table -/

/-- The scan prefers the process that wins after both priorities are refreshed. -/
def urgent (table : Table) (slot candidate : Slot) : Prop :=
  Wins (refreshPriority (table slot)) (refreshPriority (table candidate))

instance (table : Table) : DecidableRel (urgent table) := fun _ _ =>
  inferInstanceAs (Decidable (Wins _ _))

theorem urgent_strictWeak (table : Table) : StrictWeak (urgent table) where
  irrefl := by
    intro slot
    simp [urgent, Wins]
  asymm := by
    intro left right
    simp only [urgent, Wins, UInt32.lt_iff_toNat_lt, ← UInt32.toNat_inj]
    omega
  cotrans := by
    intro left right other
    simp only [urgent, Wins, UInt32.lt_iff_toNat_lt, ← UInt32.toNat_inj]
    omega

/-- The visited slot ties with the candidate and does not win. -/
def LosesTie (table : Table) (check : Option Slot) (slot : Slot) : Prop :=
  table.Runnable slot ∧ ∃ candidate ∈ check,
    (refreshPriority (table slot)).dprior = (refreshPriority (table candidate)).dprior ∧
      ¬ urgent table slot candidate

/-- No visit of the remaining scan loses a tie. -/
def LosesNoTie (table : Table) : Option Slot → List Slot → Prop
  | _, [] => True
  | check, slot :: todo =>
    ¬ LosesTie table check slot ∧ LosesNoTie table (bestOf urgent table check slot) todo

/-- The locks a visit leaves behind, when the candidate's entry is refreshed. -/
theorem heldAfter_leaked {table original : Table} {leaked : Finset Slot}
    (unvisited : table slot = original slot)
    (refreshed : ∀ candidate ∈ check, table candidate = refreshPriority (original candidate))
    (apart : ∀ candidate ∈ check, candidate ∉ leaked) (fresh : slot ∉ check.toFinset ∪ leaked) :
    pbsNext table check slot = bestOf urgent original check slot ∧
    ∃ next, heldAfter table check slot (check.toFinset ∪ leaked) =
        (bestOf urgent original check slot).toFinset ∪ next ∧
      (∀ candidate ∈ bestOf urgent original check slot, candidate ∉ next) ∧
      (next = ∅ ↔ leaked = ∅ ∧ ¬ LosesTie original check slot) := by
  have runnableIff : table.Runnable slot ↔ original.Runnable slot := by
    rw [Table.Runnable, Table.Runnable, unvisited]
  by_cases runnable : original.Runnable slot
  · have isRunnable := runnableIff.mpr runnable
    cases check with
    | none =>
      refine ⟨by simp [pbsNext, bestOf, isRunnable, runnable], leaked, ?_, ?_, ?_⟩
      · simp [heldAfter, bestOf, isRunnable, runnable]
      · simpa [bestOf, runnable] using fresh
      · simp [LosesTie]
    | some candidate =>
      have entry := refreshed candidate rfl
      have kept := apart candidate rfl
      simp only [Option.toFinset_some, mem_union, mem_singleton, not_or] at fresh
      by_cases wins : urgent original slot candidate
      · have wins' : Wins (refreshPriority (original slot))
            (refreshPriority (original candidate)) := wins
        refine ⟨by simp [pbsNext, bestOf, isRunnable, runnable, unvisited, entry, wins, wins'],
          leaked, ?_, ?_, ?_⟩
        · simp [heldAfter, bestOf, isRunnable, runnable, unvisited, entry, wins, wins', kept]
        · simpa [bestOf, runnable, wins] using fresh.2
        · simp [LosesTie, wins]
      · have loses : ¬ Wins (refreshPriority (original slot))
            (refreshPriority (original candidate)) := wins
        refine ⟨by simp [pbsNext, bestOf, isRunnable, runnable, unvisited, entry, wins, loses], ?_⟩
        by_cases ties : (refreshPriority (original slot)).dprior =
            (refreshPriority (original candidate)).dprior
        · refine ⟨insert slot leaked, ?_, ?_, ?_⟩
          · simp [heldAfter, bestOf, isRunnable, runnable, unvisited, entry, wins, loses, ties]
          · simpa [bestOf, runnable, wins, kept] using Ne.symm fresh.1
          · simp [LosesTie, runnable, wins, ties]
        · refine ⟨leaked, ?_, ?_, ?_⟩
          · simp [heldAfter, bestOf, isRunnable, runnable, unvisited, entry, wins, loses, ties]
          · simpa [bestOf, runnable, wins] using kept
          · simp [LosesTie, ties]
  · have notRunnable : ¬ table.Runnable slot := fun isRunnable =>
      runnable (runnableIff.mp isRunnable)
    refine ⟨by simp [pbsNext, bestOf, runnable, notRunnable], leaked, ?_, ?_, ?_⟩
    · simp [heldAfter, bestOf, runnable, notRunnable]
    · simpa [bestOf, runnable] using apart
    · simp [LosesTie, runnable]

/-- A scan nobody interferes with ends with the best candidate, and with the
locks of the slots that lost a tie besides the candidate's. -/
theorem pbs_scan_spec {original : Table} (todo : List Slot) {leaked : Finset Slot}
    (alone : machine.Alone id (check.toFinset ∪ leaked)) (nodup : todo.Nodup)
    (fresh : ∀ slot ∈ todo, slot ∉ check.toFinset ∪ leaked)
    (apart : ∀ candidate ∈ check, candidate ∉ leaked)
    (unvisited : ∀ slot ∈ todo, machine.table slot = original slot)
    (refreshed : ∀ candidate ∈ check,
      machine.table candidate = refreshPriority (original candidate)) :
    ∃ after finally_, pbs.scan id todo check machine =
        .ok (todo.foldl (bestOf urgent original) check, after) ∧
      after.Alone id ((todo.foldl (bestOf urgent original) check).toFinset ∪ finally_) ∧
      (∀ candidate ∈ todo.foldl (bestOf urgent original) check, candidate ∉ finally_) ∧
      (finally_ = ∅ ↔ leaked = ∅ ∧ LosesNoTie original check todo) := by
  induction todo generalizing machine check leaked with
  | nil => exact ⟨machine, leaked, rfl, alone, apart, by simp [LosesNoTie]⟩
  | cons slot todo ih =>
    obtain ⟨notMem, nodupTodo⟩ := List.nodup_cons.mp nodup
    have freshSlot := fresh slot (by simp)
    have candidateHeld : ∀ candidate ∈ check, candidate ∈ check.toFinset ∪ leaked := by
      intro candidate member
      exact mem_union_left _ (Option.mem_toFinset.mpr member)
    rcases pbsVisit_spec alone.holds freshSlot candidateHeld with
      ⟨-, locked⟩ | ⟨middle, result, visited⟩
    · exact (freshSlot (alone.locked slot locked)).elim
    · obtain ⟨nextEq, next, heldEq, apartNext, emptyIff⟩ :=
        heldAfter_leaked (unvisited slot (by simp)) refreshed apart freshSlot
      have aloneMiddle : middle.Alone id
          ((bestOf urgent original check slot).toFinset ∪ next) := by
        rw [← heldEq]
        refine ⟨visited.holds, ?_⟩
        intro query locked
        rw [← visited.holds.holding_iff query]
        rcases visited.lock_eq query with ⟨kept, ne⟩ | freed | taken
        · have held := alone.locked query (by rwa [kept] at locked)
          rw [kept]
          exact (alone.holds.holding_iff query).mpr held
        · simp [freed] at locked
        · simp [holding, taken]
      have heldSubset : ∀ query, query ∈ (bestOf urgent original check slot).toFinset ∪ next →
          query ∈ check.toFinset ∪ leaked ∨ query = slot := by
        intro query member
        rw [← heldEq] at member
        exact heldAfter_subset member
      obtain ⟨after, finally_, scanned, aloneAfter, apartAfter, finallyIff⟩ :=
        ih aloneMiddle nodupTodo
          (by
            intro query member held
            rcases heldSubset query held with old | new
            · exact fresh query (by simp [member]) old
            · exact notMem (new ▸ member))
          apartNext
          (by
            intro query member
            have ne : query ≠ slot := fun same => notMem (same ▸ member)
            rw [visited.table_eq, update_of_ne ne]
            exact unvisited query (by simp [member]))
          (by
            intro candidate member
            rw [visited.table_eq]
            obtain rfl | same := eq_or_ne candidate slot
            · rw [update_self, unvisited candidate (by simp)]
            · rw [update_of_ne same]
              rcases mem_bestOf member with old | ⟨new, -⟩
              · exact refreshed candidate old
              · exact (same new).elim)
      refine ⟨after, finally_, ?_, aloneAfter, apartAfter, ?_⟩
      · rw [← nextEq] at scanned
        simp only [ScanBuild.scan, pbs, List.foldl_cons] at scanned ⊢
        rw [result, ← nextEq]
        exact scanned
      · rw [finallyIff, emptyIff, and_assoc]
        rfl

/-! ## When a scan loses no tie -/

/-- The priority a scan computes for a slot. -/
def priority (table : Table) (slot : Slot) : UInt32 := (refreshPriority (table slot)).dprior

/-- A slot wins against every earlier seen slot of its priority, unless an
earlier one has a smaller priority value. -/
def WinsTies (table : Table) (seen : Slot → Prop) (slot : Slot) : Prop :=
  table.Runnable slot → ∀ earlier < slot, seen earlier → table.Runnable earlier →
    priority table slot = priority table earlier →
    (∀ other < slot, seen other → table.Runnable other →
      priority table slot ≤ priority table other) →
    urgent table slot earlier

/-- Of two `RUNNABLE` slots that tie for the least priority value so far, the
later one is dispatched less often, or as often and created later. -/
def NoLostTie (table : Table) : Prop := ∀ slot, WinsTies table (fun _ => True) slot

instance (table : Table) : Decidable (NoLostTie table) := by
  unfold NoLostTie WinsTies
  infer_instance

theorem priority_le_of_not_urgent {left right : Slot} (loses : ¬ urgent table left right) :
    priority table right ≤ priority table left := by
  simp only [urgent, Wins, not_or, UInt32.not_lt] at loses
  exact loses.1

/-- Against the candidate chosen so far, not losing a tie is winning them all. -/
theorem winsTies_iff (chosen : Chosen urgent table seen check)
    (later : ∀ query, seen query → query < slot) :
    WinsTies table seen slot ↔ ¬ LosesTie table check slot := by
  constructor
  · intro winsTies loses
    obtain ⟨runnable, candidate, rfl, ties, notUrgent⟩ := loses
    obtain ⟨candidateRunnable, candidateSeen, least⟩ := chosen
    apply notUrgent
    apply winsTies runnable candidate (later candidate candidateSeen) candidateSeen
      candidateRunnable ties
    intro other _ otherSeen otherRunnable
    rw [priority, ties]
    exact priority_le_of_not_urgent (least other otherSeen otherRunnable).1
  · intro notLost runnable earlier _ earlierSeen earlierRunnable ties least
    cases check with
    | none => exact (chosen earlier earlierSeen earlierRunnable).elim
    | some candidate =>
      obtain ⟨candidateRunnable, candidateSeen, best⟩ := chosen
      have notBeaten := (best earlier earlierSeen earlierRunnable).1
      have candidateTies : priority table slot = priority table candidate := by
        apply UInt32.le_antisymm
        · exact least candidate (later candidate candidateSeen) candidateSeen
            candidateRunnable
        · rw [ties]
          exact priority_le_of_not_urgent notBeaten
      have beatsCandidate : urgent table slot candidate := by
        by_contra notUrgent
        exact notLost ⟨runnable, candidate, rfl, candidateTies, notUrgent⟩
      exact (urgent_strictWeak table).cotrans slot candidate earlier beatsCandidate notBeaten

theorem losesNoTie_iff (todo : List Slot) (chosen : Chosen urgent table seen check)
    (sorted : todo.Pairwise (· < ·)) (later : ∀ slot ∈ todo, ∀ query, seen query → query < slot) :
    LosesNoTie table check todo ↔
      ∀ slot ∈ todo, WinsTies table (fun query => seen query ∨ query ∈ todo) slot := by
  induction todo generalizing seen check with
  | nil => simp [LosesNoTie]
  | cons slot todo ih =>
    obtain ⟨first, rest⟩ := List.pairwise_cons.mp sorted
    have laterSlot := later slot (by simp)
    have headIff : WinsTies table (fun query => seen query ∨ query ∈ slot :: todo) slot ↔
        WinsTies table seen slot := by
      have sameBefore : ∀ query < slot, (seen query ∨ query ∈ slot :: todo ↔ seen query) := by
        intro query less
        refine ⟨?_, Or.inl⟩
        intro either
        rcases either with old | member
        · exact old
        · rcases List.mem_cons.mp member with same | rest
          · exact (less.ne same).elim
          · exact (lt_asymm less (first query rest)).elim
      unfold WinsTies
      constructor
      · intro wins runnable earlier less earlierSeen earlierRunnable ties least
        apply wins runnable earlier less (Or.inl earlierSeen) earlierRunnable ties
        intro other otherLess otherSeen
        exact least other otherLess ((sameBefore other otherLess).mp otherSeen)
      · intro wins runnable earlier less earlierSeen earlierRunnable ties least
        apply wins runnable earlier less ((sameBefore earlier less).mp earlierSeen)
          earlierRunnable ties
        intro other otherLess otherSeen
        exact least other otherLess (Or.inl otherSeen)
    have restIff := ih (chosen.visit (urgent_strictWeak table) laterSlot) rest (by
      intro other member query seen_
      rcases seen_ with old | new
      · exact later other (by simp [member]) query old
      · exact new ▸ first other member)
    simp only [or_assoc, ← List.mem_cons] at restIff
    rw [LosesNoTie, restIff, ← winsTies_iff chosen laterSlot, List.forall_mem_cons, headIff]

theorem losesNoTie_allSlots (table : Table) : LosesNoTie table none allSlots ↔ NoLostTie table := by
  have start : Chosen urgent table (fun _ => False) none := fun _ seen => seen.elim
  rw [losesNoTie_iff allSlots start (List.pairwise_lt_finRange NPROC)
    (fun _ _ _ seen => seen.elim)]
  simp [NoLostTie, allSlots]

/-! ## Main results -/

/-- The candidate PBS is meant to dispatch: a `RUNNABLE` process to which no other
is preferred, by the priorities the scan computes. -/
def LeastPriority (table : Table) : Option Slot → Prop
  | none => ∀ slot, ¬ table.Runnable slot
  | some chosen => table.Runnable chosen ∧ ∀ slot, table.Runnable slot →
      ¬ Wins (refreshPriority (table slot)) (refreshPriority (table chosen))

theorem leastPriority_of_chosen (chosen : Chosen urgent table (fun _ => True) check) :
    LeastPriority table check := by
  cases check with
  | none => exact fun slot => chosen slot trivial
  | some candidate =>
    exact ⟨chosen.1, fun slot runnable => (chosen.2.2 slot trivial runnable).1⟩

/-- From an idle CPU the scan completes with the right candidate; it holds a lock
besides the candidate's unless no tie was lost. -/
theorem pbs_scan_idle (alone : machine.Alone id ∅) :
    ∃ check after held, pbs.scan id allSlots none machine = .ok (check, after) ∧
      LeastPriority machine.table check ∧ after.Alone id held ∧
      (held = check.toFinset ↔ NoLostTie machine.table) := by
  obtain ⟨after, leaked, scanned, aloneAfter, apart, emptyIff⟩ :=
    @pbs_scan_spec none machine id machine.table allSlots ∅ (by simpa using alone)
      (List.nodup_finRange NPROC) (by simp) (by simp) (fun _ _ => rfl) (by simp)
  refine ⟨_, after, _, scanned,
    leastPriority_of_chosen (chosen_allSlots (urgent_strictWeak machine.table)), aloneAfter, ?_⟩
  have clean : leaked = ∅ ↔ NoLostTie machine.table := by
    rw [emptyIff, losesNoTie_allSlots]
    simp
  rw [← clean, union_eq_left]
  constructor
  · intro inside
    apply eq_empty_of_forall_notMem
    intro slot member
    exact apart slot (Option.mem_toFinset.mp (inside member)) member
  · rintro rfl
    exact empty_subset _

theorem pbs_scanCorrect_iff (alone : machine.Alone id ∅) :
    pbs.ScanCorrect LeastPriority id machine ↔ NoLostTie machine.table :=
  ScanBuild.scanCorrect_iff (fun _ => pbs_scan_idle) alone

/-- The PBS build selects and locks as it should exactly when no tie is lost in
the scan; and in every run, on any number of CPUs, in which no visit loses a tie,
no two CPUs dispatch the same process and no lock operation panics. -/
theorem pbs_dispatch_correct_iff (id : CpuId) (machine : Machine)
    (idle : machine.Idle id) (start finish : System) (labels : List (CpuId × Action))
    (initial : start.Initial)
    (run : Run (Guarded (System.Meets pbsGuard) (System.Step pbs)) start labels finish) :
    (pbs.ScanCorrect LeastPriority id machine ↔ NoLostTie machine.table) ∧
      (∀ left right slot, (finish.machine.cpu left).proc = some slot →
        (finish.machine.cpu right).proc = some slot → left = right) ∧
      ∀ label, finish.Meets pbsGuard label → ∀ cause,
        finish.exec pbs label.1 label.2 ≠ .error (.panic cause) := by
  refine ⟨pbs_scanCorrect_iff idle.alone, ?_, ?_⟩
  · intro left right slot leftRuns rightRuns
    exact initial.run_unique pbs_disciplined run leftRuns rightRuns
  · intro label meets cause
    exact initial.run_not_panic pbs_disciplined run label meets cause

/-- Two `RUNNABLE` processes that differ in nothing but their creation time. -/
def laterWins : Table := fun slot =>
  if slot = 0 then { state := .runnable, creationTime := 3 }
  else if slot = 1 then { state := .runnable, creationTime := 5 }
  else {}

/-- The first CPU takes the process that wins the tie, the second the other one. -/
theorem pbs_dispatch_correct_laterWins : ∃ finish,
    Run (Guarded (System.Meets pbsGuard) (System.Step pbs)) (System.atBoot laterWins) dispatchBoth
      finish ∧
    ((finish.machine.cpu 0).proc = some 1 ∧ (finish.machine.cpu 1).proc = some 0) ∧
    pbs.ScanCorrect LeastPriority 0 (Machine.atBoot laterWins) ∧
    ∀ id proc cause, finish.exec pbs id (.giveUp proc) ≠ .error (.panic cause) :=
  Run.exists_and_of_guardedExec (fun _ _ _ => ok_of_mem_toOption) (by decide +kernel)
    fun finish run _ =>
      have correct := pbs_dispatch_correct_iff 0 (Machine.atBoot laterWins) ⟨fun _ => rfl, rfl⟩
        (System.atBoot laterWins) finish dispatchBoth (System.atBoot_initial (by decide)) run
      ⟨correct.1.mpr (by decide +kernel), fun id proc => correct.2.2 (id, .giveUp proc) nofun⟩

/-- Two `RUNNABLE` processes that differ in nothing. -/
def tied : Table := fun slot =>
  if slot = 0 ∨ slot = 1 then { state := .runnable } else {}

/-- With two equal processes the scan selects the first, and the CPU reaches
`swtch` with the locks of both. -/
theorem pbs_dispatch_wrong_tied :
    scanOutcome pbs (Machine.atBoot tied) = some (some 0, true, true) ∧
      ¬ pbs.ScanCorrect LeastPriority 0 (Machine.atBoot tied) := by
  constructor
  · decide +kernel
  · rw [pbs_scanCorrect_iff (Machine.Idle.alone ⟨fun _ => rfl, rfl⟩)]
    intro noLostTie
    have wins := noLostTie 1 rfl 0 (by decide) trivial rfl (by decide) (by
      intro other less _ _
      have isFirst : other = 0 := Fin.ext (Nat.lt_one_iff.mp less)
      subst isFirst
      decide)
    exact absurd wins (by decide)

/-! ## The formula for the dynamic priority -/

/-- The niceness of a process that has run and slept for these times since its last dispatch. -/
def niceness (runTime sleepTime : Nat) : Nat :=
  if sleepTime + runTime = 0 then 5 else 10 * sleepTime / (sleepTime + runTime)

/-- The factor of ten and the divisor in the quotient that `calculateDynamicPriority` computes. -/
def quotient (process : Proc) : Option (UInt32 × UInt32) :=
  if process.runTimePrev = 0 then
    if process.sleepTimePrev = 0 then
      some (process.sleepTimePrev, process.runTimePrev + process.sleepTimePrev)
    else none
  else none

/-- What the dynamic priority is meant to be: it is computed without an overflow or a division by
zero, and follows the niceness. -/
structure FollowsFormula (process : Proc) : Prop where
  defined : ∀ factor divisor, quotient process = some (factor, divisor) →
    divisor ≠ 0 ∧ factor.toNat * 10 < 2 ^ 32
  niceness_eq : (calculateDynamicPriority process).1.niceness.toNat =
    niceness process.runTimePrev.toNat process.sleepTimePrev.toNat
  priority_eq : (calculateDynamicPriority process).2 =
    max 0 (min 100 ((process.sprior.toNat : Int) -
    niceness process.runTimePrev.toNat process.sleepTimePrev.toNat + 5))

theorem niceness_eq_five {runTime sleepTime : Nat} (some_time : sleepTime + runTime ≠ 0) :
    niceness runTime sleepTime = 5 ↔ runTime ≤ sleepTime ∧ 2 * sleepTime < 3 * runTime := by
  rw [niceness, if_neg some_time, Nat.div_eq_iff (by omega)]
  omega

/-- A process that has run or slept keeps the niceness 5, and its static priority. -/
theorem calculateDynamicPriority_eq {process : Proc} (range : process.sprior ≤ 100)
    (some_time : ¬ (process.runTimePrev = 0 ∧ process.sleepTimePrev = 0)) :
    calculateDynamicPriority process =
      ({ process with niceness := 5 }, (process.sprior.toNat : Int)) := by
  have kept : dynamicNiceness process = 5 := by
    unfold dynamicNiceness
    split_ifs <;> simp_all
  have range' : process.sprior.toNat ≤ 100 := range
  have same : process.sprior - 5 + 5 = process.sprior := UInt32.sub_add_cancel _ _
  have value : process.sprior.toBitVec.toInt = process.sprior.toNat :=
    BitVec.toInt_eq_toNat_of_lt (by show 2 * process.sprior.toNat < 2 ^ 32; omega)
  simp only [calculateDynamicPriority, kept, same, value]
  split_ifs <;> first | rfl | omega

/-- The dynamic priority follows its formula exactly for a process that has slept at least as long
as it has run, but less than half as long again. -/
theorem followsFormula_iff (process : Proc) (range : process.sprior ≤ 100) :
    FollowsFormula process ↔ process.runTimePrev.toNat ≤ process.sleepTimePrev.toNat ∧
      2 * process.sleepTimePrev.toNat < 3 * process.runTimePrev.toNat := by
  by_cases idle : process.runTimePrev = 0 ∧ process.sleepTimePrev = 0
  · constructor
    · intro formula
      have divided : quotient process = some (0, 0) := by simp [quotient, idle]
      exact ((formula.defined 0 0 divided).1 rfl).elim
    · simp [idle]
  · have some_time : process.sleepTimePrev.toNat + process.runTimePrev.toNat ≠ 0 := by
      simpa [← UInt32.toNat_inj, and_comm] using idle
    have result := calculateDynamicPriority_eq range idle
    rw [← niceness_eq_five some_time]
    constructor
    · intro formula
      rw [← formula.niceness_eq, result]
      rfl
    · intro five
      have range' : process.sprior.toNat ≤ 100 := range
      refine ⟨fun factor divisor divided => ?_, ?_, ?_⟩
      · unfold quotient at divided
        split_ifs at divided
        simp_all
      · rw [result, five]
        rfl
      · rw [result, five]
        simp only
        omega

/-- A process that has run for two ticks and slept for two. -/
theorem followsFormula_iff_even :
    FollowsFormula { sprior := 60, runTimePrev := 2, sleepTimePrev := 2 } :=
  (followsFormula_iff _ (by decide)).mpr (by decide)

/-- A new process is divided by zero, and one that has only slept keeps the niceness 5. -/
theorem formula_not_followed : ¬ FollowsFormula { sprior := 60 } ∧
    (calculateDynamicPriority { sprior := 60, sleepTimePrev := 8 }).2 = 60 ∧
    ¬ FollowsFormula { sprior := 60, sleepTimePrev := 8 } := by
  refine ⟨fun formula => ?_, by decide, fun formula => ?_⟩
  · exact (formula.defined 0 0 rfl).1 rfl
  · exact absurd formula.niceness_eq (by decide)

end Xv6
