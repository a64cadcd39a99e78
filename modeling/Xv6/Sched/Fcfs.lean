import Xv6.Sched.Selection

/-!
# The first-come-first-served scheduler

The FCFS build of `scheduler()`.  Its scan always selects the first process of
least creation time.  The lock it holds at `swtch`, however, is that of the first
`RUNNABLE` slot: a later candidate is taken over after its own lock has been
released.
-/

namespace Xv6

open Function Machine Transition List

/-- One iteration of the FCFS scan. -/
def fcfsVisit (id : CpuId) (slot : Slot) (check : Option Slot) (machine : Machine) :
    Except Stop (Option Slot × Machine) := do
  let machine ← machine.acquire id slot
  if (machine.table slot).state = .runnable then
    match check with
    | none => return (some slot, machine)
    | some candidate =>
      if (machine.table slot).creationTime < (machine.table candidate).creationTime then
        let machine ← machine.release id slot
        return (some slot, machine)
      else
        let machine ← machine.release id slot
        return (check, machine)
  else
    let machine ← machine.release id slot
    return (check, machine)

/-- The FCFS build. -/
def fcfs : ScanBuild where
  visit := fcfsVisit
  select proc := { proc with state := .running }

/-- The scan prefers a strictly older process to the candidate. -/
def older (table : Table) (slot candidate : Slot) : Prop :=
  (table slot).creationTime < (table candidate).creationTime

instance (table : Table) : DecidableRel (older table) := fun slot candidate =>
  inferInstanceAs (Decidable ((table slot).creationTime < (table candidate).creationTime))

variable {machine : Machine} {id : CpuId} {held : Finset Slot} {check : Option Slot} {table : Table}

/-- A visit keeps the lock of the slot only when it is the first candidate. -/
theorem fcfsVisit_spec (holds : machine.Holds id held) {slot : Slot} (fresh : slot ∉ held)
    (check : Option Slot) :
    (fcfsVisit id slot check machine = .error .blocked ∧
      (machine.lock slot).locked = true) ∨
      ∃ after, fcfsVisit id slot check machine =
          .ok (bestOf older machine.table check slot, after) ∧
        after.Holds id
          (if machine.table.Runnable slot ∧ check = none then insert slot held else held) ∧
        Frame id machine after ∧ after.table = machine.table ∧
        ∃ lock, after.lock = update machine.lock slot lock ∧
          (lock.locked = true → lock.cpu = some id ∧ machine.table.Runnable slot ∧
            check = none) := by
  rcases acquire_spec holds fresh with
    ⟨blocked, locked⟩ | ⟨middle, acquired, -, holdsSlot, frame, tableEq, lockEq⟩
  · left
    exact ⟨by simp [fcfsVisit, blocked, bind, Except.bind], locked⟩
  · right
    obtain ⟨after, released, holdsAfter, frameAfter, tableAfter, lockAfter⟩ :=
      release_spec holdsSlot (Finset.mem_insert_self slot held)
    rw [Finset.erase_insert fresh] at holdsAfter
    have lockReleased : after.lock = update machine.lock slot ⟨false, none⟩ := by
      rw [lockAfter, lockEq, update_idem]
    by_cases runnable : machine.table.Runnable slot
    · have isRunnable : (machine.table slot).state = .runnable := runnable
      cases check with
      | none =>
        refine ⟨middle, ?_, by simpa [runnable] using holdsSlot, frame, tableEq,
          ⟨true, some id⟩, lockEq, fun _ => ⟨rfl, runnable, rfl⟩⟩
        simp [fcfsVisit, acquired, bind, Except.bind, pure, Except.pure, tableEq,
          isRunnable, bestOf, runnable]
      | some candidate =>
        refine ⟨after, ?_, by simpa using holdsAfter, frame.trans frameAfter,
          tableAfter.trans tableEq, ⟨false, none⟩, lockReleased, by simp⟩
        by_cases prefers : older machine.table slot candidate
        · have less : (machine.table slot).creationTime <
              (machine.table candidate).creationTime := prefers
          simp [fcfsVisit, acquired, released, bind, Except.bind, pure, Except.pure,
            tableEq, isRunnable, bestOf, runnable, prefers, less]
        · have notLess : ¬ (machine.table slot).creationTime <
              (machine.table candidate).creationTime := prefers
          simp [fcfsVisit, acquired, released, bind, Except.bind, pure, Except.pure,
            tableEq, isRunnable, bestOf, runnable, prefers, notLess]
    · have notRunnable : ¬ (machine.table slot).state = .runnable := runnable
      refine ⟨after, ?_, by simpa [runnable] using holdsAfter, frame.trans frameAfter,
        tableAfter.trans tableEq, ⟨false, none⟩, lockReleased, by simp⟩
      simp [fcfsVisit, acquired, released, bind, Except.bind, pure, Except.pure, tableEq,
        notRunnable, bestOf, runnable]

/-- The visit does not replace the candidate. -/
def fcfsGuard : VisitGuard := fun table slot check =>
  table.Runnable slot → ∀ candidate ∈ check, ¬ older table slot candidate

instance (table : Table) (slot : Slot) (check : Option Slot) :
    Decidable (fcfsGuard table slot check) :=
  inferInstanceAs (Decidable (_ → ∀ candidate ∈ check, _))

theorem fcfs_disciplined : fcfs.Disciplined fcfsGuard where
  visit := by
    intro machine id slot check owned holds distinct admitted
    have fresh : slot ∉ check.toFinset := by
      intro member
      exact (distinct slot (Option.mem_toFinset.mp member)).2 rfl
    rcases fcfsVisit_spec holds fresh check with
      ⟨blocked, -⟩ | ⟨after, visited, holdsAfter, frame, tableEq, lock, lockEq, lockOwned⟩
    · exact .inl blocked
    · right
      refine ⟨_, after, visited, ?_, ?_, frame, ?_⟩
      · apply owned_of_lock_eq owned lockEq
        intro locked
        exact ⟨id, locked, (lockOwned locked).1⟩
      · cases check with
        | none =>
          by_cases runnable : machine.table.Runnable slot
          · simpa [bestOf, runnable] using holdsAfter
          · simpa [bestOf, runnable] using holdsAfter
        | some candidate =>
          have kept : bestOf older machine.table (some candidate) slot =
              some candidate := by
            by_cases runnable : machine.table.Runnable slot
            · simp [bestOf, runnable, admitted runnable candidate rfl]
            · simp [bestOf, runnable]
          rw [kept]
          simpa using holdsAfter
      · intro candidate chosen
        rcases mem_bestOf chosen with old | ⟨rfl, runnable⟩
        · exact ⟨(distinct candidate old).1, Or.inl old⟩
        · exact ⟨runnable, Or.inr rfl⟩
  select_running := fun _ => rfl

/-! ## One scan of the whole table -/

/-- The lock a scan ends with: the first candidate's. -/
def firstRunnable (table : Table) (todo : List Slot) : Option Slot :=
  todo.find? fun slot => decide (table.Runnable slot)

/-- A scan nobody interferes with ends with the best candidate and the lock of
the first one. -/
theorem fcfs_scan_spec (todo : List Slot) (alone : machine.Alone id held) (nodup : todo.Nodup)
    (fresh : ∀ slot ∈ todo, slot ∉ held) (start : check = none → held = ∅) :
    ∃ after, fcfs.scan id todo check machine =
        .ok (todo.foldl (bestOf older machine.table) check, after) ∧
      after.Alone id
        (if check = none then (firstRunnable machine.table todo).toFinset else held) ∧
      after.table = machine.table := by
  induction todo generalizing machine check held with
  | nil =>
    refine ⟨machine, rfl, ?_, rfl⟩
    by_cases empty : check = none
    · simpa [empty, firstRunnable, start empty] using alone
    · simpa [empty] using alone
  | cons slot todo ih =>
    rcases fcfsVisit_spec alone.holds (fresh slot (by simp)) check with
      ⟨-, locked⟩ | ⟨middle, visited, holds, -, tableEq, lock, lockEq, lockOwned⟩
    · exact (fresh slot (by simp) (alone.locked slot locked)).elim
    · have notMem := (nodup_cons.mp nodup).1
      have aloneMiddle : middle.Alone id
          (if machine.table.Runnable slot ∧ check = none then insert slot held
            else held) := by
        refine ⟨holds, ?_⟩
        intro query locked
        obtain rfl | same := eq_or_ne query slot
        · rw [lockEq, update_self] at locked
          simp [(lockOwned locked).2]
        · rw [lockEq, update_of_ne same] at locked
          split
          · exact Finset.mem_insert_of_mem (alone.locked query locked)
          · exact alone.locked query locked
      have freshMiddle : ∀ query ∈ todo, query ∉
          (if machine.table.Runnable slot ∧ check = none then insert slot held
            else held) := by
        intro query member
        split
        · simp only [Finset.mem_insert, not_or]
          exact ⟨fun same => notMem (same ▸ member), fresh query (by simp [member])⟩
        · exact fresh query (by simp [member])
      have startMiddle : bestOf older machine.table check slot = none →
          (if machine.table.Runnable slot ∧ check = none then insert slot held
            else held) = ∅ := by
        intro none_
        by_cases runnable : machine.table.Runnable slot
        · cases check with
          | none => simp [bestOf, runnable] at none_
          | some candidate =>
            simp only [bestOf, runnable, ↓reduceIte] at none_
            split at none_ <;> cases none_
        · simp only [bestOf, runnable, ↓reduceIte] at none_
          simp [runnable, start none_]
      obtain ⟨after, scanned, aloneAfter, tableAfter⟩ :=
        ih aloneMiddle (nodup_cons.mp nodup).2 freshMiddle startMiddle
      refine ⟨after, ?_, ?_, tableAfter.trans tableEq⟩
      · simp only [ScanBuild.scan, fcfs] at scanned ⊢
        rw [visited]
        simpa [tableEq] using scanned
      · rw [tableEq] at aloneAfter
        by_cases runnable : machine.table.Runnable slot
        · cases check with
          | none =>
            have empty := start rfl
            subst empty
            simpa [bestOf, runnable, firstRunnable] using aloneAfter
          | some candidate =>
            have some_ : bestOf older machine.table (some candidate) slot ≠ none := by
              simp only [bestOf, runnable, ↓reduceIte]
              split <;> simp
            simpa [some_] using aloneAfter
        · simpa [bestOf, runnable, firstRunnable] using aloneAfter

theorem older_strictWeak (table : Table) : StrictWeak (older table) where
  irrefl := by
    intro slot
    simp [older]
  asymm := by
    intro left right less
    simp only [older, UInt32.lt_iff_toNat_lt] at less ⊢
    omega
  cotrans := by
    intro left right other less notLess
    simp only [older, UInt32.lt_iff_toNat_lt] at less notLess ⊢
    omega

/-- The candidate FCFS is meant to dispatch: a `RUNNABLE` process of least
creation time, the first such slot on ties. -/
def FirstCome (table : Table) : Option Slot → Prop
  | none => ∀ slot, ¬ table.Runnable slot
  | some chosen => table.Runnable chosen ∧ ∀ slot, table.Runnable slot →
      (table chosen).creationTime ≤ (table slot).creationTime ∧
        (slot < chosen → (table chosen).creationTime < (table slot).creationTime)

/-- The first `RUNNABLE` slot already has the least creation time, so that no
visit takes the candidate over. -/
def FirstIsOldest (table : Table) : Prop :=
  ∀ first slot, table.Runnable first → (∀ earlier < first, ¬ table.Runnable earlier) →
    table.Runnable slot → (table first).creationTime ≤ (table slot).creationTime

instance (table : Table) : Decidable (FirstIsOldest table) :=
  inferInstanceAs (Decidable (∀ _ _, _ → _ → _ → _))

theorem chosen_iff_firstCome (table : Table) (check : Option Slot) :
    Chosen older table (fun _ => True) check ↔ FirstCome table check := by
  cases check with
  | none => simp [Chosen, FirstCome]
  | some chosen =>
    simp only [Chosen, FirstCome, older, true_and, forall_const, UInt32.not_lt]

theorem firstRunnable_eq_some {first : Slot} : firstRunnable table allSlots = some first ↔
      table.Runnable first ∧ ∀ earlier < first, ¬ table.Runnable earlier := by
  rw [firstRunnable, allSlots, ← ofFn_id, find?_ofFn_eq_some]
  simp

/-- The candidate is the first `RUNNABLE` slot exactly when that slot is oldest. -/
theorem chosen_eq_firstRunnable_iff (chosen : FirstCome table check) :
    check = firstRunnable table allSlots ↔ FirstIsOldest table := by
  constructor
  · intro equal first slot runnable earliest slotRunnable
    have isFirst := firstRunnable_eq_some.mpr ⟨runnable, earliest⟩
    rw [← equal] at isFirst
    subst isFirst
    exact (chosen.2 slot slotRunnable).1
  · intro oldest
    cases located : firstRunnable table allSlots with
    | none =>
      cases check with
      | none => rfl
      | some candidate =>
        have absent := find?_eq_none.mp located candidate (mem_allSlots candidate)
        simp [chosen.1] at absent
    | some first =>
      obtain ⟨runnable, earliest⟩ := firstRunnable_eq_some.mp located
      cases check with
      | none => exact (chosen first runnable).elim
      | some candidate =>
        have notLater : ¬ first < candidate := by
          intro less
          have younger := (chosen.2 first runnable).2 less
          have older := oldest first candidate runnable earliest chosen.1
          rw [UInt32.lt_iff_toNat_lt] at younger
          rw [UInt32.le_iff_toNat_le] at older
          omega
        have notEarlier : ¬ candidate < first := fun less =>
          earliest candidate less chosen.1
        rw [Option.some.injEq]
        exact le_antisymm (not_lt.mp notLater) (not_lt.mp notEarlier)

/-- From an idle CPU the scan completes with the right candidate and the lock of
the first one. -/
theorem fcfs_scan_idle (alone : machine.Alone id ∅) :
    ∃ check after held, fcfs.scan id allSlots none machine = .ok (check, after) ∧
      FirstCome machine.table check ∧ after.Alone id held ∧
      (held = check.toFinset ↔ FirstIsOldest machine.table) := by
  obtain ⟨after, scanned, aloneAfter, -⟩ :=
    fcfs_scan_spec allSlots alone (nodup_finRange NPROC) (by simp) (fun _ => rfl)
  have chosen := chosen_allSlots (older_strictWeak machine.table)
  rw [chosen_iff_firstCome] at chosen
  refine ⟨_, after, _, scanned, chosen, aloneAfter, ?_⟩
  rw [← chosen_eq_firstRunnable_iff chosen, if_pos rfl, Finset.ext_iff, Option.ext_iff]
  simp only [Option.mem_toFinset, Option.mem_def, iff_comm]

theorem fcfs_scanCorrect_iff (alone : machine.Alone id ∅) :
    fcfs.ScanCorrect FirstCome id machine ↔ FirstIsOldest machine.table :=
  ScanBuild.scanCorrect_iff (fun _ => fcfs_scan_idle) alone

/-! ## Main results -/

/-- The FCFS build dispatches as it should exactly when the first `RUNNABLE` slot
is the oldest; and in every run, on any number of CPUs, whose visits never take
the candidate over, no two CPUs dispatch the same process and no lock operation
panics. -/
theorem fcfs_dispatch_correct_iff (id : CpuId) (machine : Machine)
    (idle : machine.Idle id) (start finish : System) (labels : List (CpuId × Action))
    (initial : start.Initial)
    (run : Run (Guarded (System.Meets fcfsGuard) (System.Step fcfs)) start labels finish) :
    (fcfs.ScanCorrect FirstCome id machine ↔ FirstIsOldest machine.table) ∧
      (∀ left right slot, (finish.machine.cpu left).proc = some slot →
        (finish.machine.cpu right).proc = some slot → left = right) ∧
      ∀ label, finish.Meets fcfsGuard label → ∀ cause,
        finish.exec fcfs label.1 label.2 ≠ .error (.panic cause) := by
  refine ⟨fcfs_scanCorrect_iff idle.alone, ?_, ?_⟩
  · intro left right slot leftRuns rightRuns
    exact initial.run_unique fcfs_disciplined run leftRuns rightRuns
  · intro label meets cause
    exact initial.run_not_panic fcfs_disciplined run label meets cause

/-- Two `RUNNABLE` processes, the older one in the earlier slot. -/
def inOrder : Table := fun slot =>
  if slot = 0 then { state := .runnable, creationTime := 3 }
  else if slot = 1 then { state := .runnable, creationTime := 5 }
  else {}

/-- Two CPUs take a process each, and none panics in what it does next. -/
theorem fcfs_dispatch_correct_inOrder : ∃ finish,
    Run (Guarded (System.Meets fcfsGuard) (System.Step fcfs)) (System.atBoot inOrder) dispatchBoth
      finish ∧
    ((finish.machine.cpu 0).proc = some 0 ∧ (finish.machine.cpu 1).proc = some 1) ∧
    fcfs.ScanCorrect FirstCome 0 (Machine.atBoot inOrder) ∧
    ∀ id proc cause, finish.exec fcfs id (.giveUp proc) ≠ .error (.panic cause) :=
  Run.exists_and_of_guardedExec (fun _ _ _ => ok_of_mem_toOption) (by decide +kernel)
    fun finish run _ =>
      have correct := fcfs_dispatch_correct_iff 0 (Machine.atBoot inOrder) ⟨fun _ => rfl, rfl⟩
        (System.atBoot inOrder) finish dispatchBoth (System.atBoot_initial (by decide)) run
      ⟨correct.1.mpr (by decide +kernel), fun id proc => correct.2.2 (id, .giveUp proc) nofun⟩

/-- Two `RUNNABLE` processes, the older one in the later slot. -/
def outOfOrder : Table := fun slot =>
  if slot = 0 then { state := .runnable, creationTime := 5 }
  else if slot = 1 then { state := .runnable, creationTime := 3 }
  else {}

/-- With the older process in slot 1 the scan selects it, but the CPU reaches
`swtch` with the lock of slot 0. -/
theorem fcfs_dispatch_wrong_outOfOrder :
    scanOutcome fcfs (Machine.atBoot outOfOrder) = some (some 1, true, false) ∧
      ¬ fcfs.ScanCorrect FirstCome 0 (Machine.atBoot outOfOrder) := by
  constructor
  · decide +kernel
  · rw [fcfs_scanCorrect_iff (Machine.Idle.alone ⟨fun _ => rfl, rfl⟩)]
    intro oldest
    have wrong := oldest 0 1 rfl (fun earlier less => (Fin.not_lt_zero earlier less).elim) rfl
    exact absurd wrong (by decide)

end Xv6
