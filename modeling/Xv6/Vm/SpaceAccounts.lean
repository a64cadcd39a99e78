import Xv6.Vm.Accounts

/-!
# References held by address spaces

The specifications of `kernel/proc.c`'s and `kernel/exec.c`'s functions in terms of
the references they take and give up.
-/

namespace Xv6.Vm

open Function PageTable FinMap Space

variable {layout : Layout} {ext own own' : Frame → ℤ} {mem after : Mem}
variable {frame : Frame} {table table' : PageTable} {vpn : Nat} {sz : Nat}

/-! ## Freeing a page table -/

/-- The references that a list of pages stands for. -/
def listRefs (frames : List Frame) : Frame → ℤ := fun frame => frames.count frame

theorem listRefs_nonneg (frames : List Frame) (frame : Frame) : 0 ≤ listRefs frames frame :=
  Int.natCast_nonneg _

theorem listRefs_cons (frame : Frame) (frames : List Frame) :
    listRefs (frame :: frames) = listRefs frames + Pi.single frame 1 := by
  funext other
  simp only [listRefs, List.count_cons, Pi.add_apply, Pi.single_apply]
  obtain rfl | same := eq_or_ne frame other
  · simp
  · simp [same, Ne.symm same]

theorem listRefs_append (frames more : List Frame) :
    listRefs (frames ++ more) = listRefs frames + listRefs more := by
  funext other
  simp [listRefs]

theorem listRefs_perm {frames more : List Frame} (perm : frames.Perm more) :
    listRefs frames = listRefs more := by
  funext frame
  rw [listRefs, perm.count_eq, listRefs]

theorem listRefs_values (nodes : FinMap Nat Frame) : listRefs nodes.values = nodeRefs nodes := by
  funext other
  have counted := nodes.count_eq_countP_values fun node => node = other
  simp only [listRefs, nodeRefs, counted, List.count]
  rfl

theorem PageTable.listRefs_nodes (table : PageTable) : listRefs table.nodes = table.nodesRefs := by
  rw [listRefs_perm table.nodes_perm]
  simp only [listRefs_append, listRefs_values, listRefs_cons, nodesRefs]
  have empty : listRefs [] = 0 := rfl
  rw [empty]
  abel

theorem Good.kfreeAll {frames : List Frame} (good : Good layout ext mem (listRefs frames))
    (done : kfreeAll layout frames mem = .ok after) :
    Keeps layout ext mem (listRefs frames) after 0 := by
  induction frames generalizing mem with
  | nil =>
    cases done
    exact good.refl
  | cons frame frames ih =>
    obtain ⟨freed, free, rest⟩ := ok_of_bind done
    rw [listRefs_cons] at good ⊢
    have held : 1 ≤ (listRefs frames + Pi.single frame 1 : Frame → ℤ) frame := by
      have := listRefs_nonneg frames frame
      simp
      omega
    have step := good.kfree held free
    rw [add_sub_cancel_right] at step
    exact step.trans (ih (good.keeps step) rest)

/-- A table without leaves refers to its own pages only. -/
theorem PageTable.refs_of_no_leaves (table : PageTable) (noLeaves : table.leaves.keys = []) :
    table.refs = table.nodesRefs := by
  have leaves : leafRefs table.leaves = 0 := by
    funext frame
    simp [leafRefs, count_of_keys_nil noLeaves]
  rw [refs, leaves, add_zero]

theorem Good.freewalk (good : Good layout ext mem table.refs)
    (done : table.freewalk layout mem = .ok after) : Keeps layout ext mem table.refs after 0 := by
  unfold PageTable.freewalk at done
  split_ifs at done with noLeaves
  rw [table.refs_of_no_leaves noLeaves, ← table.listRefs_nodes] at good ⊢
  exact good.kfreeAll done

theorem Good.uvmfree (good : Good layout ext mem table.refs)
    (range : table.UserRange 0 (pgRoundUp sz)) (done : table.uvmfree layout sz mem = .ok after) :
    Keeps layout ext mem table.refs after 0 := by
  obtain ⟨⟨rest, mem'⟩, unmapped, walked⟩ := ok_of_bind done
  have step := good.uvmunmap range unmapped
  exact step.trans ((good.keeps step).freewalk walked)

/-- Unmapping one of the two top pages without freeing it. -/
theorem PageTable.uvmunmap_top (top : TRAPFRAME ≤ vpn)
    (done : uvmunmap layout false 1 vpn table mem = .ok (table', after)) :
    after = mem ∧ table'.refs = table.refs ∧
      table' = { table with leaves := table.leaves.erase vpn } := by
  obtain ⟨pte, freed, -, found, free, rest⟩ := uvmunmap_succ done
  cases free
  cases rest
  refine ⟨rfl, ?_, rfl⟩
  rw [refs_erase found, leafRef_top top, sub_zero]

theorem Good.procFreepagetable (good : Good layout ext mem table.refs)
    (done : procFreepagetable layout sz table mem = .ok after) :
    Keeps layout ext mem table.refs after 0 := by
  obtain ⟨⟨first, mem'⟩, trampoline, rest⟩ := ok_of_bind done
  obtain ⟨⟨second, mem''⟩, trapframe, free⟩ := ok_of_bind rest
  obtain ⟨rfl, firstRefs, rfl⟩ := uvmunmap_top (by decide) trampoline
  obtain ⟨rfl, secondRefs, rfl⟩ := uvmunmap_top le_rfl trapframe
  rw [← firstRefs, ← secondRefs] at good ⊢
  refine good.uvmfree ?_ free
  intro other _ _ inside top
  have last : other = TRAPFRAME ∨ other = TRAMPOLINE := by
    simp only [TRAPFRAME, TRAMPOLINE] at *
    omega
  rcases last with rfl | rfl
  · simp
  · simp [update_apply]

/-! ## Making a page table -/

/-- A page table without user pages. -/
def PageTable.Vacant (table : PageTable) : Prop :=
  ∀ vpn, vpn < TRAPFRAME → table.leaves.find vpn = none

variable {pte : Pte}

/-- Mapping one of the two top pages takes no reference to it. -/
theorem Good.mappages_top {mapped : Bool} (good : Good layout ext mem table.refs)
    (top : TRAPFRAME ≤ vpn) (done : table.mappages vpn pte mem = .ok (mapped, table', after)) :
    Keeps layout ext mem table.refs after table'.refs := by
  have restNonneg := leafRefs_nonneg table.leaves
  have keeps := (good.part table.nodesRefs_nonneg restNonneg).mappages done
  have shape := mappages_shape done
  have leaves : leafRefs table'.leaves = leafRefs table.leaves := by
    rw [shape.leaves]
    split_ifs with isMapped
    · rw [leafRefs_insert_new (shape.missing isMapped), leafRef_top top, add_zero]
    · rfl
  have result : table'.refs = table'.nodesRefs + leafRefs table.leaves := by
    rw [refs, leaves]
  rw [result]
  exact keeps.framed restNonneg

/-- The page table of a new process once both top pages are mapped. -/
theorem PageTable.wellFormed_of_top {middle last : PageTable} {root trapframe : Frame}
    (first : Mapped TRAMPOLINE (trampolinePte layout) true { root } middle mem)
    (second : Mapped TRAPFRAME (trapframePte trapframe) true middle last after) :
    last.WellFormed ∧ last.Vacant := by
  have find : last.leaves.find = update (update (fun _ => none) TRAMPOLINE
      (some (trampolinePte layout))) TRAPFRAME (some (trapframePte trapframe)) := by
    rw [second.leaves, if_pos rfl, find_insert, first.leaves, if_pos rfl,
      find_insert]
    rfl
  refine ⟨⟨?_, ?_, ?_⟩, ?_⟩
  · simp [find]
  · intro other pte _ found
    rw [find, update_apply, update_apply] at found
    split_ifs at found
    · cases found
      rfl
    · cases found
      rfl
  · intro other pte found
    rw [find, update_apply, update_apply] at found
    split_ifs at found with isTrapframe isTrampoline
    · exact isTrapframe ▸ second.reached rfl
    · exact isTrampoline ▸ second.reaches _ (first.reached rfl)
  · intro other below
    have notTrapframe : other ≠ TRAPFRAME := below.ne
    have notTrampoline : other ≠ TRAMPOLINE := by
      simp only [TRAPFRAME, TRAMPOLINE] at *
      omega
    simp [find, notTrapframe, notTrampoline]

theorem Good.procPagetable {trapframe : Frame} {made : Option PageTable}
    (good : Good layout ext mem 0)
    (done : procPagetable layout trapframe mem = .ok (made, after)) :
    Keeps layout ext mem 0 after (made.elim 0 refs) ∧
      (∀ table, made = some table → table.WellFormed ∧ table.Vacant) ∧
      (made = none → after.failed = true) ∧ (made ≠ none → Allocates mem after) := by
  unfold Space.procPagetable at done
  split at done
  case h_1 mem' refused =>
    cases done
    refine ⟨good.kalloc_none refused, by simp, fun _ => ?_, by simp⟩
    rw [Mem.kalloc_none refused]
    rfl
  case h_2 root mem' allocated =>
    have first := good.kalloc_fill allocated 0
    have empty : (0 + Pi.single root 1 : Frame → ℤ) = ({ root } : PageTable).refs := by
      simp [refs, nodesRefs]
    rw [empty] at first
    obtain ⟨⟨mapped, middle, mem1⟩, mapTrampoline, rest⟩ := ok_of_bind done
    have shape := mappages_shape mapTrampoline
    have sofar := first.trans ((good.keeps first).mappages_top (by decide) mapTrampoline)
    cases mapped with
    | false =>
      obtain ⟨mem2, freed, finished⟩ := ok_of_bind rest
      cases finished
      have range : middle.UserRange 0 (pgRoundUp 0) := userRange_of_le (by decide)
      have third := (good.keeps sofar).uvmfree range freed
      exact ⟨sofar.trans third, by simp, fun _ => third.failed (shape.failed rfl), by simp⟩
    | true =>
      obtain ⟨⟨mapped', last, mem2⟩, mapTrapframe, rest⟩ := ok_of_bind rest
      have shape' := mappages_shape mapTrapframe
      have sofar' := sofar.trans ((good.keeps sofar).mappages_top le_rfl mapTrapframe)
      cases mapped' with
      | false =>
        obtain ⟨⟨unmapped, mem3⟩, unmap, rest⟩ := ok_of_bind rest
        obtain ⟨mem4, freed, finished⟩ := ok_of_bind rest
        cases finished
        obtain ⟨rfl, unmappedRefs, -⟩ := uvmunmap_top (by decide) unmap
        rw [← unmappedRefs] at sofar'
        have range : unmapped.UserRange 0 (pgRoundUp 0) :=
          userRange_of_le (by decide)
        have fourth := (good.keeps sofar').uvmfree range freed
        exact ⟨sofar'.trans fourth, by simp, fun _ => fourth.failed (shape'.failed rfl), by simp⟩
      | true =>
        cases rest
        refine ⟨sofar', ?_, by simp, fun _ => ?_⟩
        · rintro _ ⟨⟩
          exact wellFormed_of_top shape shape'
        · exact ((Allocates.kalloc_fill allocated 0).trans (.mappages mapTrampoline)).trans
            (.mappages mapTrapframe)

/-! ## Processes -/

/-- The references held by an address space. -/
def Space.refs (space : Space) : Frame → ℤ := Pi.single space.trapframe 1 + space.table.refs

/-- The address spaces of processes. -/
structure Space.WellFormed (space : Space) : Prop where
  table : space.table.WellFormed
  fits : space.sz ≤ TRAPFRAME * PGSIZE

theorem Space.refs_nonneg (space : Space) (frame : Frame) : 0 ≤ space.refs frame :=
  add_nonneg (single_nonneg _ _) (space.table.refs_nonneg frame)

theorem Space.one_le_refs (space : Space) : 1 ≤ space.refs space.trapframe := by
  have := space.table.refs_nonneg space.trapframe
  simp [refs]
  omega

variable {space : Space} {made : Option Space}

/-- The page table of an address space, with the trapframe counted elsewhere. -/
theorem Good.tablePart (good : Good layout ext mem space.refs) :
    Good layout (ext + Pi.single space.trapframe 1) mem space.table.refs := by
  have whole : Good layout ext mem (space.table.refs + Pi.single space.trapframe 1) := by
    rw [add_comm]
    exact good
  exact whole.part space.table.refs_nonneg (single_nonneg space.trapframe)

theorem Good.allocproc (good : Good layout ext mem 0)
    (done : allocproc layout mem = .ok (made, after)) :
    Keeps layout ext mem 0 after (made.elim 0 refs) ∧
      (∀ space, made = some space → space.WellFormed ∧ space.table.Vacant) ∧
      (made = none → after.failed = true) := by
  unfold Space.allocproc at done
  split at done
  case h_1 refused =>
    cases done
    refine ⟨good.kalloc_none refused, by simp, fun _ => ?_⟩
    rw [Mem.kalloc_none refused]
    rfl
  case h_2 trapframe mem' allocated =>
    obtain ⟨⟨table, mem1⟩, created, rest⟩ := ok_of_bind done
    have first := good.kalloc_some allocated
    have trapframeNonneg := single_nonneg trapframe
    have part := ((good.keeps first).part (fun _ => le_rfl) trapframeNonneg)
    obtain ⟨second, shape, failed, -⟩ := part.procPagetable created
    have sofar := first.trans (second.framed trapframeNonneg)
    cases table with
    | none =>
      obtain ⟨mem2, freed, finished⟩ := ok_of_bind rest
      cases finished
      have third := (good.keeps sofar).kfree (by simp) freed
      have back : ((none : Option PageTable).elim 0 refs + Pi.single trapframe 1 -
          Pi.single trapframe 1 : Frame → ℤ) = 0 := add_sub_cancel_right _ _
      rw [back] at third
      exact ⟨sofar.trans third, by simp, fun _ => third.failed (failed rfl)⟩
    | some table =>
      cases rest
      refine ⟨?_, ?_, by simp⟩
      · have refs : (some table).elim 0 refs + Pi.single trapframe 1 =
            ({ trapframe, table } : Space).refs := by
          simp [Space.refs, add_comm]
        rw [refs] at sofar
        exact sofar
      · rintro _ ⟨⟩
        obtain ⟨wf, vacant⟩ := shape table rfl
        exact ⟨⟨wf, Nat.zero_le _⟩, vacant⟩

theorem Good.kfree_trapframe (good : Good layout ext mem space.refs)
    (freed : mem.kfree layout space.trapframe = .ok after) :
    Keeps layout ext mem space.refs after space.table.refs := by
  have keeps := good.kfree space.one_le_refs freed
  have back : space.refs - Pi.single space.trapframe 1 = space.table.refs :=
    add_sub_cancel_left _ _
  rwa [back] at keeps

theorem Good.freeproc (good : Good layout ext mem space.refs)
    (done : space.freeproc layout mem = .ok after) : Keeps layout ext mem space.refs after 0 := by
  obtain ⟨mem', freed, rest⟩ := ok_of_bind done
  have first := good.kfree_trapframe freed
  exact first.trans ((good.keeps first).procFreepagetable rest)

/-! ## `fork` -/

theorem pagesBelow_le {sz bound : Nat} (fits : sz ≤ bound * PGSIZE) : pagesBelow sz ≤ bound := by
  unfold pagesBelow
  simp only [PGSIZE] at *
  omega

/-- The user pages of a page table are counted among the references elsewhere. -/
def PageTable.HeldBy (ext : Frame → ℤ) (table : PageTable) : Prop :=
  ∀ vpn pte, vpn < TRAPFRAME → table.leaves.find vpn = some pte → 1 ≤ ext pte.frame

theorem PageTable.HeldBy.add_single (held : table.HeldBy ext) (frame : Frame) :
    table.HeldBy (ext + Pi.single frame 1) := by
  intro vpn pte below found
  exact (held vpn pte below found).trans (le_add_of_nonneg_right (single_nonneg frame pte.frame))

theorem Good.used_of_heldBy (good : Good layout ext mem own) (held : table.HeldBy ext)
    (below : vpn < TRAPFRAME) (found : table.leaves.find vpn = some pte) :
    1 ≤ mem.count pte.frame := by
  have bound := good.le_count pte.frame
  have elsewhere := held vpn pte below found
  have nonneg := good.own_nonneg pte.frame
  omega

variable {copied : Bool} {npages : Nat} {old new new' : PageTable}

/-- One turn of the loop of `uvmcopy`. -/
theorem PageTable.uvmcopyLoop_succ
    (done : uvmcopyLoop layout old (npages + 1) vpn new mem = .ok (copied, new', after)) :
    ∃ pte counted mapped mapTable mapMem, old.leaves.find vpn = some pte ∧
      mem.krefincr layout pte.frame = .ok counted ∧
      new.mappages vpn pte.shared counted = .ok (mapped, mapTable, mapMem) ∧
      ((mapped = true ∧
          uvmcopyLoop layout old npages (vpn + 1) mapTable mapMem = .ok (copied, new', after)) ∨
        (mapped = false ∧ copied = false ∧
          uvmunmap layout true vpn 0 mapTable mapMem = .ok (new', after))) := by
  rw [uvmcopyLoop] at done
  split_ifs at done
  split at done
  · cases done
  case h_2 pte found =>
    obtain ⟨counted, incr, rest⟩ := ok_of_bind done
    obtain ⟨⟨mapped, mapTable, mapMem⟩, mapOutcome, rest⟩ := ok_of_bind rest
    refine ⟨pte, counted, mapped, mapTable, mapMem, found, incr, mapOutcome, ?_⟩
    cases mapped with
    | true => exact .inl ⟨rfl, rest⟩
    | false =>
      obtain ⟨⟨table, mem'⟩, unmapped, finished⟩ := ok_of_bind rest
      cases finished
      exact .inr ⟨rfl, rfl, unmapped⟩

/-- `uvmcopy` takes a reference for each entry it makes.  When it fails, the page it
stopped at keeps a counted reference that nobody holds. -/
theorem Good.uvmcopyLoop (good : Good layout ext mem new.refs) (wf : new.WellFormed)
    (held : old.HeldBy ext) (low : vpn + npages ≤ TRAPFRAME)
    (outcome : uvmcopyLoop layout old npages vpn new mem = .ok (copied, new', after)) :
    new'.WellFormed ∧
      (copied = true → Keeps layout ext mem new.refs after new'.refs) ∧
      (copied = false → after.failed = true ∧
        ∃ frame, Keeps layout ext mem new.refs after (new'.refs + Pi.single frame 1)) := by
  induction npages generalizing vpn new mem with
  | zero =>
    cases outcome
    exact ⟨wf, fun _ => good.refl, by simp⟩
  | succ npages ih =>
    obtain ⟨pte, counted, mapped, mapTable, mapMem, found, incr, mapOutcome, turn⟩ :=
      uvmcopyLoop_succ outcome
    have first := good.krefincr (good.used_of_heldBy held (by omega) found) incr
    have shape := mappages_shape mapOutcome
    obtain ⟨wf', below⟩ := wf.mapped (by omega) shape
    have second := first.trans ((good.keeps first).mappages_held pte.shared wf
      (by omega) mapOutcome)
    obtain ⟨rfl, rest⟩ | ⟨rfl, rfl, unmapped⟩ := turn
    · obtain ⟨wf'', success, failure⟩ :=
        ih (good.keeps second) wf' (by omega) rest
      refine ⟨wf'', fun done => second.trans (success done), fun stopped => ?_⟩
      obtain ⟨failed, frame, keeps⟩ := failure stopped
      exact ⟨failed, frame, second.trans keeps⟩
    · have range : (0 : Nat) + vpn ≤ TRAPFRAME := by omega
      refine ⟨wf'.unmapped range (uvmunmap_shape unmapped), by simp, fun _ => ?_⟩
      have pageNonneg := single_nonneg pte.frame
      have part := (good.keeps second).part mapTable.refs_nonneg pageNonneg
      have third := part.uvmunmap (userRange_of_le range) unmapped
      exact ⟨third.failed (shape.failed rfl), pte.frame, second.trans (third.framed pageNonneg)⟩

/-- The child of a `fork` that succeeds. -/
theorem Space.fork_some {parent child : Space}
    (done : parent.fork layout mem = .ok (some child, after)) :
    ∃ fresh mem1 table, allocproc layout mem = .ok (some fresh, mem1) ∧
      parent.table.uvmcopy layout fresh.table parent.sz mem1 = .ok (true, table, after) ∧
      child = { fresh with table, sz := parent.sz } := by
  obtain ⟨⟨made, mem1⟩, created, rest⟩ := ok_of_bind done
  cases made with
  | none => cases rest
  | some fresh =>
    obtain ⟨⟨copied, table, mem2⟩, copy, rest⟩ := ok_of_bind rest
    cases copied with
    | true =>
      cases rest
      exact ⟨fresh, mem1, table, created, copy, rfl⟩
    | false =>
      obtain ⟨mem3, -, finished⟩ := ok_of_bind rest
      cases finished

/-! ## `sbrk` -/

theorem Good.growproc {space space' : Space} {n : ℤ} {grown : Bool}
    (good : Good layout ext mem space.refs) (wf : space.WellFormed)
    (done : space.growproc layout n mem = .ok (grown, space', after)) :
    Keeps layout ext mem space.refs after space'.refs ∧ space'.WellFormed := by
  have trapframeNonneg := single_nonneg space.trapframe
  have refs : ∀ space : Space, space.refs = space.table.refs + Pi.single space.trapframe 1 :=
    fun space => add_comm _ _
  rw [refs] at good ⊢
  have part := good.part space.table.refs_nonneg trapframeNonneg
  unfold Space.growproc at done
  simp only at done
  split_ifs at done with grow shrink
  · obtain ⟨⟨sz, table, mem'⟩, alloc, finished⟩ := ok_of_bind done
    obtain ⟨keeps, wf', fits⟩ := part.uvmalloc wf.table wf.fits alloc
    have framed := keeps.framed trapframeNonneg
    simp only [Except.ok.injEq] at finished
    split_ifs at finished
    · cases finished
      exact ⟨refs { space with table } ▸ framed, ⟨wf', wf.fits⟩⟩
    · cases finished
      exact ⟨refs { space with table, sz } ▸ framed, ⟨wf', fits⟩⟩
  · obtain ⟨⟨sz, table, mem'⟩, dealloc, finished⟩ := ok_of_bind done
    cases finished
    obtain ⟨keeps, fits⟩ := part.uvmdealloc wf.fits dealloc
    have framed := keeps.framed trapframeNonneg
    exact ⟨refs { space with table, sz } ▸ framed,
      ⟨wf.table.uvmdealloc wf.fits dealloc, fits.trans wf.fits⟩⟩
  · cases done
    rw [← refs] at good ⊢
    exact ⟨good.refl, wf⟩

/-! ## Copy-on-write -/

/-- A user page that `cowalloc` accepts. -/
structure Accepted (table : PageTable) (va : Nat) (pte : Pte) : Prop where
  ne_zero : va ≠ 0
  below : va < MAXVA
  lookup : table.lookup (va / PGSIZE) = some pte
  user : pte.perm.user = true
  frame : pte.frame ≠ 0

/-- The ways `cowalloc` can end. -/
inductive CowOutcome (layout : Layout) (table : PageTable) (va : Nat) (mem : Mem) :
    Bool → PageTable → Mem → Prop
  | refused (no : ∀ pte, ¬ Accepted table va pte) : CowOutcome layout table va mem false table mem
  | noMemory {pte : Pte} {after : Mem} (accepted : Accepted table va pte) (cow : pte.cow = true)
      (noPage : mem.kalloc = (none, after)) : CowOutcome layout table va mem false table after
  | plain {pte : Pte} (accepted : Accepted table va pte) (plain : pte.cow = false) :
      CowOutcome layout table va mem true table mem
  | resolved {pte : Pte} {frame : Frame} {taken after : Mem} (accepted : Accepted table va pte)
      (cow : pte.cow = true) (allocated : mem.kalloc = (some frame, taken))
      (dropped : (taken.fill frame (taken.page pte.frame)).krefdecr layout pte.frame = .ok after) :
      CowOutcome layout table va mem true
        { table with leaves := table.leaves.insert (va / PGSIZE) (pte.resolved frame) } after

variable {allowed : Bool} {va : Nat} {oldsz newsz sz : Nat}

theorem PageTable.cowalloc_outcome
    (done : table.cowalloc layout va mem = .ok (allowed, table', after)) :
    CowOutcome layout table va mem allowed table' after := by
  unfold cowalloc at done
  split_ifs at done with outOfRange
  · cases done
    refine .refused fun pte accepted => ?_
    exact outOfRange.elim accepted.ne_zero (not_le.mpr accepted.below)
  · obtain ⟨nonzero, below⟩ := not_or.mp outOfRange
    split at done
    case h_1 missing =>
      cases done
      refine .refused fun pte accepted => ?_
      have found := accepted.lookup
      simp [missing] at found
    case h_2 pte found =>
      split_ifs at done with bad cow
      · cases done
        refine .refused fun other accepted => ?_
        obtain rfl : pte = other := by simpa [found] using accepted.lookup
        rcases bad with notUser | noFrame
        · exact notUser accepted.user
        · exact accepted.frame noFrame
      · have accepted : Accepted table va pte := by
          simp only [not_or, not_not] at bad
          exact ⟨nonzero, not_le.mp below, found, bad.1, bad.2⟩
        split at done
        case h_1 noPage =>
          cases done
          exact .noMemory accepted cow noPage
        case h_2 frame taken allocated =>
          obtain ⟨mem', dropped, finished⟩ := ok_of_bind done
          cases finished
          exact .resolved accepted cow allocated dropped
      · cases done
        simp only [not_or, not_not] at bad
        exact .plain ⟨nonzero, not_le.mp below, found, bad.1, bad.2⟩ (by simpa using cow)

theorem PageTable.find_of_lookup (found : table.lookup vpn = some pte) :
    table.leaves.find vpn = some pte := by
  unfold lookup at found
  split_ifs at found
  exact found

theorem Accepted.find (accepted : Accepted table va pte) :
    table.leaves.find (va / PGSIZE) = some pte :=
  find_of_lookup accepted.lookup

theorem PageTable.WellFormed.user_below (wf : table.WellFormed)
    (found : table.leaves.find vpn = some pte) (user : pte.perm.user = true) : vpn < TRAPFRAME := by
  by_contra top
  have private' := wf.top vpn pte (not_lt.mp top) found
  simp [private'] at user

/-- Replacing an entry by one that user code cannot reach more than before. -/
theorem PageTable.WellFormed.replaced {pte pte' : Pte} (wf : table.WellFormed)
    (found : table.leaves.find vpn = some pte) (user : pte'.perm.user → pte.perm.user) :
    ({ table with leaves := table.leaves.insert vpn pte' } : PageTable).WellFormed where
  trapframe := by
    by_cases same : TRAPFRAME = vpn
    · simp [same]
    · simpa [same] using wf.trapframe
  top := by
    intro other entry top here
    obtain rfl | same := eq_or_ne other vpn
    · have before := wf.top other pte top found
      simp only [find_insert, update_self, Option.some.injEq] at here
      subst here
      simpa [before] using user
    · exact wf.top other entry top (by simpa [same] using here)
  reached := by
    intro other entry here
    by_cases same : other = vpn
    · exact same ▸ wf.reached vpn pte found
    · exact wf.reached other entry (by simpa [same] using here)

theorem PageTable.WellFormed.cowalloc (wf : table.WellFormed)
    (done : table.cowalloc layout va mem = .ok (allowed, table', after)) :
    table'.WellFormed := by
  cases cowalloc_outcome done with
  | refused | noMemory | plain => exact wf
  | resolved accepted => exact wf.replaced accepted.find fun _ => accepted.user

/-- The page at an address is copy-on-write and has no other reference. -/
def LastReference (table : PageTable) (va : Nat) (mem : Mem) : Prop :=
  va ≠ 0 ∧ va < MAXVA ∧ ∃ pte ∈ table.lookup (va / PGSIZE),
    pte.perm.user = true ∧ pte.frame ≠ 0 ∧ pte.cow = true ∧ mem.count pte.frame ≤ 1

instance (table : PageTable) (va : Nat) (mem : Mem) : Decidable (LastReference table va mem) :=
  inferInstanceAs (Decidable (_ ∧ _))

/-- The frame of a user page is counted. -/
theorem Good.leaf_managed (good : Good layout ext mem table.refs) (below : vpn < TRAPFRAME)
    (found : table.leaves.find vpn = some pte) : layout.Managed pte.frame := by
  have held := one_le_refs found below
  have nonneg := good.ext_nonneg pte.frame
  apply good.covers.isManaged
  simp only [Pi.add_apply]
  omega

theorem Good.cowalloc_returns (good : Good layout ext mem table.refs)
    (wf : table.WellFormed) (va : Nat) :
    Returns (fun _ => True) (table.cowalloc layout va mem) := by
  unfold cowalloc
  split_ifs
  · exact .pure trivial
  · split
    · exact .pure trivial
    case h_2 pte looked =>
      split_ifs with refused cow
      · exact .pure trivial
      · split
        · exact .pure trivial
        case h_2 frame taken allocated =>
          have user : pte.perm.user = true := by simpa using (not_or.mp refused).1
          have found := find_of_lookup looked
          have managed := good.leaf_managed (wf.user_below found user) found
          unfold Mem.krefdecr
          rw [if_neg (not_lt.mpr managed.2.le)]
          exact .pure trivial
      · exact .pure trivial

theorem PageTable.refs_resolved (found : table.leaves.find vpn = some pte)
    (below : vpn < TRAPFRAME) : ({ table with
      leaves := table.leaves.insert vpn (pte.resolved frame) } : PageTable).refs =
        table.refs + Pi.single frame 1 - Pi.single pte.frame 1 := by
  simp only [refs, nodesRefs, leafRefs_insert_old found, leafRef_user below, Pte.resolved]
  abel

/-- `cowalloc` exchanges one reference for another; the page it gives up is lost when
that was its last reference. -/
theorem Good.cowalloc (good : Good layout ext mem table.refs) (wf : table.WellFormed)
    (done : table.cowalloc layout va mem = .ok (allowed, table', after)) :
    Moves layout ext mem table.refs after table'.refs ∧
      (¬ LastReference table va mem → Keeps layout ext mem table.refs after table'.refs) := by
  cases cowalloc_outcome done with
  | refused => exact ⟨good.refl.toMoves, fun _ => good.refl⟩
  | noMemory _ _ noPage =>
    have keeps := good.kalloc_none noPage
    exact ⟨keeps.toMoves, fun _ => keeps⟩
  | plain => exact ⟨good.refl.toMoves, fun _ => good.refl⟩
  | @resolved pte frame taken _ accepted cow allocated dropped =>
    have below := wf.user_below accepted.find accepted.user
    have first := good.kalloc_fill allocated (taken.page pte.frame)
    have heldBefore := one_le_refs accepted.find below
    have held : 1 ≤ (table.refs + Pi.single frame 1 : Frame → ℤ) pte.frame := by
      have := single_nonneg frame pte.frame
      simp only [Pi.add_apply]
      omega
    obtain ⟨moves, keeps⟩ := (good.keeps first).krefdecr held dropped
    rw [refs_resolved accepted.find below]
    refine ⟨first.toMoves.trans moves, fun shared => first.trans (keeps ?_)⟩
    have used : 0 < mem.count pte.frame := by
      have bound := good.le_count pte.frame
      have nonneg := good.ext_nonneg pte.frame
      omega
    rw [((Allocates.kalloc_fill allocated (taken.page pte.frame)).used pte.frame used).1]
    by_contra few
    exact shared ⟨accepted.ne_zero, accepted.below, pte, accepted.lookup, accepted.user,
      accepted.frame, cow, not_lt.mp few⟩

/-! ## `exec` -/

/-- No user page is shared or copy-on-write. -/
def PageTable.Fresh (table : PageTable) (mem : Mem) : Prop :=
  ∀ vpn pte, vpn < TRAPFRAME → table.leaves.find vpn = some pte →
    pte.cow = false ∧ mem.count pte.frame = 1

theorem PageTable.Fresh.grown {perm : Perm} (fresh : table.Fresh mem)
    (grown : Grown perm vpn npages table mem table' after) : table'.Fresh after := by
  intro other pte below found
  by_cases inside : vpn ≤ other ∧ other < vpn + npages
  · obtain ⟨frame, -, added, count, -⟩ := grown.inside other inside.1 inside.2
    obtain rfl : pte = .made perm frame := by simpa [found] using added
    exact ⟨rfl, count⟩
  · rw [grown.outside other inside] at found
    obtain ⟨plain, single⟩ := fresh other pte below found
    refine ⟨plain, ?_⟩
    rw [(grown.allocates.used pte.frame (by omega)).1, single]

/-- A page that is counted once and mapped here is mapped nowhere else. -/
theorem Good.unshared (good : Good layout ext mem table.refs) (below : vpn < TRAPFRAME)
    (found : table.leaves.find vpn = some pte) (single : mem.count pte.frame = 1) :
    ext pte.frame = 0 := by
  have bound := good.le_count pte.frame
  have mapped := one_le_refs found below
  have nonneg := good.ext_nonneg pte.frame
  omega

/-- The entry behind a physical address that `walkaddr` returns. -/
theorem PageTable.walkaddr_some (done : table.walkaddr vpn = some frame) :
    ∃ pte, table.lookup vpn = some pte ∧ pte.perm.user = true ∧ pte.frame = frame := by
  unfold walkaddr at done
  split_ifs at done
  split at done
  · cases done
  case h_2 pte found =>
    split_ifs at done with user
    exact ⟨pte, found, user.1, Option.some.inj done⟩

/-- The result of a successful `uvmalloc`. -/
theorem PageTable.uvmalloc_grown {xperm : Perm} (nonzero : sz ≠ 0)
    (outcome : uvmalloc layout oldsz newsz xperm table mem = .ok (sz, table', after)) :
    (newsz < oldsz ∧ sz = oldsz ∧ table' = table ∧ after = mem) ∨
      (oldsz ≤ newsz ∧ sz = newsz ∧
        Grown xperm.forUser (pgRoundUp oldsz)
          (pagesBelow newsz - pgRoundUp oldsz) table mem table' after) := by
  unfold uvmalloc at outcome
  split_ifs at outcome with shrinks
  · cases outcome
    exact .inl ⟨shrinks, rfl, rfl, rfl⟩
  · obtain ⟨⟨done, rest, mem'⟩, loop, finished⟩ := ok_of_bind outcome
    cases done with
    | false =>
      cases finished
      exact absurd rfl nonzero
    | true =>
      cases finished
      exact .inr ⟨not_lt.mp shrinks, rfl, uvmallocLoop_grown loop⟩

theorem PageTable.Fresh.uvmalloc {xperm : Perm} (fresh : table.Fresh mem) (nonzero : sz ≠ 0)
    (done : uvmalloc layout oldsz newsz xperm table mem = .ok (sz, table', after)) :
    table'.Fresh after := by
  obtain ⟨-, -, rfl, rfl⟩ | ⟨-, -, grown⟩ := uvmalloc_grown nonzero done
  · exact fresh
  · exact fresh.grown grown

/-- Memory in which only the contents of pages changed. -/
structure Rewrites (layout : Layout) (ext own : Frame → ℤ) (mem after : Mem) : Prop where
  keeps : Keeps layout ext mem own after own
  count : after.count = mem.count

theorem Rewrites.refl (good : Good layout ext mem own) : Rewrites layout ext own mem mem :=
  ⟨good.refl, rfl⟩

theorem Rewrites.trans {last : Mem} (first : Rewrites layout ext own mem after)
    (second : Rewrites layout ext own after last) : Rewrites layout ext own mem last :=
  ⟨first.keeps.trans second.keeps, second.count.trans first.count⟩

theorem PageTable.Fresh.rewrites (fresh : table.Fresh mem)
    (rewrites : Rewrites layout ext own mem after) : table.Fresh after := by
  intro vpn pte below found
  rw [rewrites.count]
  exact fresh vpn pte below found

/-- Writing to a user page of a table without shared pages. -/
theorem Good.fill_fresh (good : Good layout ext mem table.refs) (wf : table.WellFormed)
    (fresh : table.Fresh mem) (found : table.walkaddr vpn = some frame) (contents : Page) :
    Rewrites layout ext table.refs mem (mem.fill frame contents) := by
  obtain ⟨pte, looked, user, rfl⟩ := walkaddr_some found
  have entry := find_of_lookup looked
  have below := wf.user_below entry user
  exact ⟨good.fill (good.unshared below entry (fresh vpn pte below entry).2) contents, rfl⟩

variable {program : Program} {loaded : Bool}

theorem Good.loadsegLoop {va off sz turns i : Nat} (good : Good layout ext mem table.refs)
    (wf : table.WellFormed) (fresh : table.Fresh mem)
    (done : loadsegLoop program va off sz turns i table mem = .ok (loaded, after)) :
    Rewrites layout ext table.refs mem after := by
  induction turns generalizing i mem with
  | zero =>
    cases done
    exact .refl good
  | succ turns ih =>
    rw [loadsegLoop] at done
    split at done
    · cases done
    case h_2 frame found =>
      have first := good.fill_fresh wf fresh found
        ((mem.page frame).write 0
          (program.readi ((off + i) % 2 ^ 32) (min (sz - i) PGSIZE)))
      simp only at done
      split_ifs at done
      · exact first.trans (ih (good.keeps first.keeps) (fresh.rewrites first) done)
      · cases done
        exact first

theorem Good.loadSegments {headers : List (Option ProgHdr)} {sz sz' : Nat}
    (good : Good layout ext mem table.refs) (wf : table.WellFormed)
    (fresh : table.Fresh mem) (fits : sz ≤ TRAPFRAME * PGSIZE)
    (done : loadSegments layout program headers sz table mem =
      .ok (loaded, sz', table', after)) :
    Keeps layout ext mem table.refs after table'.refs ∧ table'.WellFormed ∧
      sz' ≤ TRAPFRAME * PGSIZE ∧ (loaded = true → table'.Fresh after) := by
  induction headers generalizing sz table mem with
  | nil =>
    cases done
    exact ⟨good.refl, wf, fits, fun _ => fresh⟩
  | cons header headers ih =>
    cases header with
    | none =>
      cases done
      exact ⟨good.refl, wf, fits, by simp⟩
    | some ph =>
      rw [loadSegments] at done
      split_ifs at done
      · obtain ⟨⟨sz1, table1, mem1⟩, alloc, rest⟩ := ok_of_bind done
        obtain ⟨first, wf1, fits1⟩ := good.uvmalloc wf fits alloc
        simp only at rest
        split_ifs at rest with noMemory
        · cases rest
          exact ⟨first, wf1, fits, by simp⟩
        · obtain ⟨⟨loaded1, mem2⟩, load, rest⟩ := ok_of_bind rest
          have fresh1 := fresh.uvmalloc noMemory alloc
          have written := (good.keeps first).loadsegLoop wf1 fresh1 load
          have second := first.trans written.keeps
          cases loaded1 with
          | true =>
            obtain ⟨third, wf2, fits2, fresh2⟩ :=
              ih (good.keeps second) wf1 (fresh1.rewrites written) fits1 rest
            exact ⟨second.trans third, wf2, fits2, fresh2⟩
          | false =>
            cases rest
            exact ⟨second, wf1, fits1, by simp⟩
      · cases done
        exact ⟨good.refl, wf, fits, by simp⟩
      · exact ih good wf fresh fits done

/-- No user page is copy-on-write. -/
def PageTable.Plain (table : PageTable) : Prop :=
  ∀ vpn pte, vpn < TRAPFRAME → table.leaves.find vpn = some pte → pte.cow = false

theorem PageTable.Fresh.plain (fresh : table.Fresh mem) : table.Plain :=
  fun vpn pte below found => (fresh vpn pte below found).1

/-- `cowalloc` changes nothing in a table without copy-on-write pages. -/
theorem PageTable.Plain.cowalloc (plain : table.Plain) (wf : table.WellFormed)
    (done : table.cowalloc layout va mem = .ok (allowed, table', after)) :
    table' = table ∧ after = mem := by
  cases cowalloc_outcome done with
  | refused | plain => exact ⟨rfl, rfl⟩
  | noMemory accepted isCow | resolved accepted isCow =>
    have below := wf.user_below accepted.find accepted.user
    have notCow := plain _ _ below accepted.find
    simp [isCow] at notCow

variable {src : List UInt8}

/-- A turn of `copyout` on a table without copy-on-write pages. -/
theorem PageTable.Plain.copyoutPage {dstva : Nat} (plain : table.Plain)
    (wf : table.WellFormed)
    (done : table.copyoutPage layout dstva src mem = .ok (copied, table', after)) :
    table' = table ∧
      ((copied = false ∧ after = mem) ∨
        ∃ frame, copied = true ∧ table.walkaddr (dstva / PGSIZE) = some frame ∧
          after = mem.fill frame ((mem.page frame).write (dstva % PGSIZE) src)) := by
  unfold PageTable.copyoutPage at done
  split_ifs at done
  · cases done
    exact ⟨rfl, .inl ⟨rfl, rfl⟩⟩
  · obtain ⟨⟨allowed, table1, mem1⟩, check, rest⟩ := ok_of_bind done
    obtain ⟨rfl, rfl⟩ := plain.cowalloc wf check
    cases allowed with
    | false =>
      cases rest
      exact ⟨rfl, .inl ⟨rfl, rfl⟩⟩
    | true =>
      simp only [if_true] at rest
      split at rest
      · cases rest
        exact ⟨rfl, .inl ⟨rfl, rfl⟩⟩
      case h_2 frame found =>
        cases rest
        exact ⟨rfl, .inr ⟨frame, rfl, found, rfl⟩⟩

theorem Good.copyoutLoop_fresh {turns dstva : Nat} (good : Good layout ext mem table.refs)
    (wf : table.WellFormed) (fresh : table.Fresh mem)
    (done : copyoutLoop layout turns dstva src table mem = .ok (copied, table', after)) :
    table' = table ∧ Rewrites layout ext table.refs mem after := by
  induction turns generalizing dstva src mem with
  | zero =>
    cases done
    exact ⟨rfl, .refl good⟩
  | succ turns ih =>
    rw [copyoutLoop] at done
    split_ifs at done
    · cases done
      exact ⟨rfl, .refl good⟩
    · obtain ⟨⟨copied1, table1, mem1⟩, page, rest⟩ := ok_of_bind done
      obtain ⟨rfl, ⟨rfl, rfl⟩ | ⟨frame, rfl, found, rfl⟩⟩ :=
        fresh.plain.copyoutPage wf page
      · cases rest
        exact ⟨rfl, .refl good⟩
      · have first := good.fill_fresh wf fresh found
          ((mem.page frame).write (dstva % PGSIZE) (src.take (PGSIZE - dstva % PGSIZE)))
        obtain ⟨same, second⟩ := ih (good.keeps first.keeps) (fresh.rewrites first) rest
        exact ⟨same, first.trans second⟩

variable {argv : List (List UInt8)} {image : Option Space}

theorem Good.pushArgs {stackbase sp : Nat} {ustack : List Nat} {done : Bool}
    (good : Good layout ext mem table.refs) (wf : table.WellFormed)
    (fresh : table.Fresh mem)
    (outcome : pushArgs layout stackbase argv ustack sp table mem = .ok (done, table', after)) :
    table' = table ∧ Rewrites layout ext table.refs mem after := by
  induction argv generalizing ustack sp mem with
  | nil =>
    rw [pushArgs] at outcome
    split_ifs at outcome
    · cases outcome
      exact ⟨rfl, .refl good⟩
    · exact good.copyoutLoop_fresh wf fresh outcome
  | cons arg argv ih =>
    rw [pushArgs] at outcome
    simp only at outcome
    split_ifs at outcome
    · cases outcome
      exact ⟨rfl, .refl good⟩
    · obtain ⟨⟨copied, table1, mem1⟩, copy, rest⟩ := ok_of_bind outcome
      obtain ⟨rfl, first⟩ := good.copyoutLoop_fresh wf fresh copy
      cases copied with
      | false =>
        cases rest
        exact ⟨rfl, first⟩
      | true =>
        obtain ⟨same, second⟩ := ih (good.keeps first.keeps) (fresh.rewrites first) rest
        exact ⟨same, first.trans second⟩

theorem PageTable.uvmclear_ok (done : table.uvmclear vpn = .ok table') :
    table' = table ∨ ∃ pte, table.leaves.find vpn = some pte ∧
      table' = { table with leaves := table.leaves.insert vpn pte.guarded } := by
  unfold uvmclear at done
  split_ifs at done
  split at done
  · cases done
    exact .inl rfl
  case h_2 pte found =>
    cases done
    exact .inr ⟨pte, found, rfl⟩

/-- `uvmclear` changes no reference. -/
theorem PageTable.uvmclear_refs (done : table.uvmclear vpn = .ok table') :
    table'.refs = table.refs := by
  obtain rfl | ⟨pte, found, rfl⟩ := uvmclear_ok done
  · rfl
  · simp only [refs, nodesRefs, leafRefs_insert_old found, Pte.guarded]
    abel

theorem PageTable.WellFormed.uvmclear (wf : table.WellFormed)
    (done : table.uvmclear vpn = .ok table') : table'.WellFormed := by
  obtain rfl | ⟨pte, found, rfl⟩ := uvmclear_ok done
  · exact wf
  · exact wf.replaced found (by simp [Pte.guarded])

theorem PageTable.Fresh.uvmclear (fresh : table.Fresh mem)
    (done : table.uvmclear vpn = .ok table') : table'.Fresh mem := by
  obtain rfl | ⟨pte, found, rfl⟩ := uvmclear_ok done
  · exact fresh
  · intro other entry below here
    obtain rfl | same := eq_or_ne other vpn
    · simp only [find_insert, update_self, Option.some.injEq] at here
      subst here
      exact fresh other pte below found
    · exact fresh other entry below (by simpa [same] using here)

theorem pgRoundUp_mul_le (fits : sz ≤ TRAPFRAME * PGSIZE) :
    pgRoundUp sz * PGSIZE ≤ TRAPFRAME * PGSIZE :=
  Nat.mul_le_mul_right _ (pgRoundUp_le fits le_rfl)

theorem Good.buildImage {built : Bool} (good : Good layout ext mem table.refs)
    (wf : table.WellFormed) (fresh : table.Fresh mem)
    (outcome : buildImage layout program argv table mem = .ok (built, sz, table', after)) :
    Keeps layout ext mem table.refs after table'.refs ∧ table'.WellFormed ∧
      sz ≤ TRAPFRAME * PGSIZE := by
  obtain ⟨⟨loaded, sz1, table1, mem1⟩, load, rest⟩ := ok_of_bind outcome
  obtain ⟨first, wf1, fits1, fresh1⟩ :=
    good.loadSegments wf fresh (Nat.zero_le _) load
  have rounded := pgRoundUp_mul_le fits1
  cases loaded with
  | false =>
    cases rest
    exact ⟨first, wf1, fits1⟩
  | true =>
    obtain ⟨⟨sz2, table2, mem2⟩, alloc, rest⟩ := ok_of_bind rest
    obtain ⟨second, wf2, fits2⟩ := (good.keeps first).uvmalloc wf1 rounded alloc
    have sofar := first.trans second
    simp only at rest
    split_ifs at rest with noMemory
    · cases rest
      exact ⟨sofar, wf2, rounded⟩
    · obtain ⟨table3, clear, rest⟩ := ok_of_bind rest
      obtain ⟨⟨done, table4, mem4⟩, push, finished⟩ := ok_of_bind rest
      cases finished
      have wf3 := wf2.uvmclear clear
      have fresh3 := ((fresh1 rfl).uvmalloc noMemory alloc).uvmclear clear
      rw [← uvmclear_refs clear] at sofar
      obtain ⟨rfl, third⟩ := (good.keeps sofar).pushArgs wf3 fresh3 push
      exact ⟨sofar.trans third.keeps, wf3, fits2⟩

theorem PageTable.Vacant.fresh (vacant : table.Vacant) (mem : Mem) : table.Fresh mem := by
  intro vpn pte below found
  simp [vacant vpn below] at found

/-- The ways `exec` can end: without a page table, with the new image in place and the
old one freed, or with the new one freed. -/
inductive ExecOutcome (layout : Layout) (ext : Frame → ℤ) (program : Program)
    (argv : List (List UInt8)) (space : Space) (mem : Mem) : Option Space → Mem → Prop
  | invalid (no : program.valid = false) : ExecOutcome layout ext program argv space mem none mem
  | noTable {after : Mem} (keeps : Keeps layout (ext + space.refs) mem 0 after 0)
      (failed : after.failed = true) : ExecOutcome layout ext program argv space mem none after
  | built {first last : PageTable} {mem1 mem2 after : Mem} {sz : Nat} (valid : program.valid = true)
      (made : Keeps layout (ext + space.refs) mem 0 mem1 first.refs)
      (wellFormed : first.WellFormed) (vacant : first.Vacant)
      (build : Space.buildImage layout program argv first mem1 = .ok (true, sz, last, mem2))
      (freed : Space.procFreepagetable layout space.sz space.table mem2 = .ok after) :
      ExecOutcome layout ext program argv space mem (some { space with table := last, sz }) after
  | undone {first last : PageTable} {mem1 mem2 after : Mem} {sz : Nat}
      (valid : program.valid = true)
      (made : Keeps layout (ext + space.refs) mem 0 mem1 first.refs)
      (wellFormed : first.WellFormed) (vacant : first.Vacant)
      (build : Space.buildImage layout program argv first mem1 = .ok (false, sz, last, mem2))
      (freed : Space.procFreepagetable layout sz last mem2 = .ok after) :
      ExecOutcome layout ext program argv space mem none after

section

variable (good : Good layout ext mem space.refs)
include good

/-- A new address space beside the one of the caller. -/
theorem Good.beside : Good layout (ext + space.refs) mem 0 := by
  have start : Good layout ext mem (0 + space.refs) := by rwa [zero_add]
  exact start.part (fun _ => le_rfl) space.refs_nonneg

theorem Good.exec_outcome (done : space.exec layout program argv mem = .ok (image, after)) :
    ExecOutcome layout ext program argv space mem image after := by
  unfold exec at done
  split_ifs at done with valid
  · obtain ⟨⟨made, mem1⟩, created, rest⟩ := ok_of_bind done
    obtain ⟨keeps, shape, failed, -⟩ := good.beside.procPagetable created
    cases made with
    | none =>
      cases rest
      exact .noTable keeps (failed rfl)
    | some first =>
      obtain ⟨wf, vacant⟩ := shape first rfl
      obtain ⟨⟨built, sz, last, mem2⟩, build, rest⟩ := ok_of_bind rest
      cases built with
      | true =>
        obtain ⟨mem3, freed, finished⟩ := ok_of_bind rest
        cases finished
        exact .built valid keeps wf vacant build freed
      | false =>
        obtain ⟨mem3, freed, finished⟩ := ok_of_bind rest
        cases finished
        exact .undone valid keeps wf vacant build freed
  · cases done
    exact .invalid (by simpa using valid)

theorem Good.exec (wf : space.WellFormed)
    (done : space.exec layout program argv mem = .ok (image, after)) :
    Keeps layout ext mem space.refs after (image.getD space).refs ∧
      (image.getD space).WellFormed := by
  have spaceNonneg := space.refs_nonneg
  have beside := good.beside
  have back : ∀ {mem after : Mem} {own own' : Frame → ℤ},
      Keeps layout (ext + space.refs) mem own after own' →
      Keeps layout ext mem (own + space.refs) after (own' + space.refs) :=
    fun keeps => keeps.framed spaceNonneg
  cases good.exec_outcome done with
  | invalid => exact ⟨good.refl, wf⟩
  | noTable keeps =>
    have final := back keeps
    rw [zero_add] at final
    exact ⟨final, wf⟩
  | @built first last mem1 mem2 _ sz _ made wf1 vacant build freed =>
    obtain ⟨second, wf2, fits⟩ :=
      (beside.keeps made).buildImage wf1 (vacant.fresh _) build
    have sofar := back (made.trans second)
    have split : last.refs + space.refs =
        space.table.refs + ({ space with table := last, sz } : Space).refs := by
      simp only [Space.refs]
      abel
    rw [zero_add, split] at sofar
    have newNonneg := refs_nonneg { space with table := last, sz }
    have third := ((good.keeps sofar).part space.table.refs_nonneg newNonneg).procFreepagetable
      freed
    have final := sofar.trans (third.framed newNonneg)
    rw [zero_add] at final
    exact ⟨final, ⟨wf2, fits⟩⟩
  | @undone first last mem1 mem2 _ sz _ made wf1 vacant build freed =>
    obtain ⟨second, -⟩ := (beside.keeps made).buildImage wf1 (vacant.fresh _) build
    have sofar := made.trans second
    have final := back (sofar.trans ((beside.keeps sofar).procFreepagetable freed))
    rw [zero_add] at final
    exact ⟨final, wf⟩

/-! ## The first process -/

end

/-- What `uvmfirst` does when it does not panic. -/
theorem Space.uvmfirst_ok (done : uvmfirst src table mem = .ok (table', after)) :
    ∃ frame taken mapMem, mem.kalloc = (some frame, taken) ∧
      table.mappages 0 (.made ⟨true, true, true, true⟩ frame) (taken.fill frame 0) =
        .ok (true, table', mapMem) ∧
      after = mapMem.fill frame ((mapMem.page frame).write 0 src) := by
  unfold uvmfirst at done
  split_ifs at done
  split at done
  · cases done
  case h_2 frame taken allocated =>
    obtain ⟨⟨mapped, mapTable, mapMem⟩, mapping, rest⟩ := ok_of_bind done
    cases mapped with
    | false => cases rest
    | true =>
      cases rest
      exact ⟨frame, taken, mapMem, allocated, mapping, rfl⟩

theorem Good.uvmfirst (good : Good layout ext mem table.refs) (wf : table.WellFormed)
    (done : uvmfirst src table mem = .ok (table', after)) :
    Keeps layout ext mem table.refs after table'.refs ∧ table'.WellFormed := by
  obtain ⟨frame, taken, mapMem, allocated, mapping, rfl⟩ := uvmfirst_ok done
  have first := good.kalloc_fill allocated 0
  have second := first.trans ((good.keeps first).mappages_held
    (.made ⟨true, true, true, true⟩ frame) wf (Nat.zero_le _) mapping)
  refine ⟨second.trans ((good.keeps second).fill (good.kalloc_unused allocated).1 _), ?_⟩
  exact (wf.mapped (Nat.zero_le _) (mappages_shape mapping)).1

theorem Good.userinit {initcode : List UInt8} (good : Good layout ext mem 0)
    (done : userinit layout initcode mem = .ok (space, after)) :
    Keeps layout ext mem 0 after space.refs ∧ space.WellFormed := by
  obtain ⟨⟨made, mem1⟩, created, rest⟩ := ok_of_bind done
  obtain ⟨first, shape, -⟩ := good.allocproc created
  cases made with
  | none => cases rest
  | some empty =>
    obtain ⟨⟨table, mem2⟩, mapped, finished⟩ := ok_of_bind rest
    cases finished
    obtain ⟨wf, -⟩ := shape empty rfl
    have trapframeNonneg := single_nonneg empty.trapframe
    have split : (some empty).elim 0 refs =
        empty.table.refs + Pi.single empty.trapframe 1 := add_comm _ _
    rw [split] at first
    have part := (good.keeps first).part empty.table.refs_nonneg trapframeNonneg
    obtain ⟨second, wf'⟩ := part.uvmfirst wf.table mapped
    have final := first.trans (second.framed trapframeNonneg)
    rw [add_comm] at final
    exact ⟨final, ⟨wf', show PGSIZE ≤ TRAPFRAME * PGSIZE by decide⟩⟩

end Xv6.Vm
