import Xv6.Vm.Space

/-!
# References to physical pages

Which references to physical pages a page table holds, and that every function on
page tables moves the reference counters along with them.  A function is specified
for the references it works on; what the rest of the kernel holds is `ext`.
-/

namespace Xv6.Vm

open PageTable FinMap Mem

variable {layout : Layout} {ext own own' extra : Frame → ℤ} {mem after last : Mem}
variable {frame : Frame} {table table' : PageTable} {vpn : Nat}

/-! ## The frame rule -/

theorem Moves.framed (nonneg : ∀ frame, 0 ≤ extra frame)
    (moves : Moves layout (ext + extra) mem own after own') :
    Moves layout ext mem (own + extra) after (own' + extra) where
  pool := by
    have regroup : ∀ refs : Frame → ℤ, ext + (refs + extra) = ext + extra + refs :=
      fun refs => by rw [add_comm refs, add_assoc]
    rw [regroup, regroup]
    exact moves.pool
  own_nonneg := fun frame => add_nonneg (moves.own_nonneg frame) (nonneg frame)
  page := by
    intro frame held
    apply moves.page
    have := nonneg frame
    simp only [Pi.add_apply]
    omega
  failed := moves.failed

theorem Keeps.framed (nonneg : ∀ frame, 0 ≤ extra frame)
    (keeps : Keeps layout (ext + extra) mem own after own') :
    Keeps layout ext mem (own + extra) after (own' + extra) where
  toMoves := keeps.toMoves.framed nonneg
  complete := keeps.complete

/-- Code that works on a part of the references sees the others as the rest of the
kernel's. -/
theorem Good.part (good : Good layout ext mem (own + extra)) (ownNonneg : ∀ frame, 0 ≤ own frame)
    (nonneg : ∀ frame, 0 ≤ extra frame) : Good layout (ext + extra) mem own := by
  apply good.regroup _ ownNonneg
  · intro frame
    exact add_nonneg (good.ext_nonneg frame) (nonneg frame)
  · rw [add_comm own, add_assoc]

/-! ## Counting references -/

/-- The references held by a level of page-table pages. -/
def nodeRefs (nodes : FinMap Nat Frame) : Frame → ℤ :=
  fun frame => nodes.count fun _ node => node = frame

/-- The references held by the leaf entries for user memory. -/
def leafRefs (leaves : FinMap Nat Pte) : Frame → ℤ :=
  fun frame => leaves.count fun vpn pte => vpn < TRAPFRAME ∧ pte.frame = frame

/-- The reference that one leaf entry holds. -/
def leafRef (vpn : Nat) (frame : Frame) : Frame → ℤ :=
  if vpn < TRAPFRAME then Pi.single frame 1 else 0

/-- The page-table pages of a page table. -/
def PageTable.nodesRefs (table : PageTable) : Frame → ℤ :=
  Pi.single table.root 1 + nodeRefs table.mids + nodeRefs table.lows

/-- All references held by a page table: its page-table pages, and a page for each
leaf entry for user memory. -/
def PageTable.refs (table : PageTable) : Frame → ℤ :=
  table.nodesRefs + leafRefs table.leaves

@[simp] theorem nodeRefs_empty : nodeRefs .empty = 0 := rfl

@[simp] theorem leafRefs_empty : leafRefs .empty = 0 := rfl

theorem nodeRefs_nonneg (nodes : FinMap Nat Frame) (frame : Frame) : 0 ≤ nodeRefs nodes frame :=
  Int.natCast_nonneg _

theorem leafRefs_nonneg (leaves : FinMap Nat Pte) (frame : Frame) : 0 ≤ leafRefs leaves frame :=
  Int.natCast_nonneg _

theorem single_nonneg (frame other : Frame) : 0 ≤ (Pi.single frame 1 : Frame → ℤ) other := by
  rw [Pi.single_apply]
  split <;> simp

theorem PageTable.nodesRefs_nonneg (table : PageTable) (frame : Frame) :
    0 ≤ table.nodesRefs frame :=
  add_nonneg (add_nonneg (single_nonneg _ _) (nodeRefs_nonneg _ _)) (nodeRefs_nonneg _ _)

theorem PageTable.refs_nonneg (table : PageTable) (frame : Frame) : 0 ≤ table.refs frame :=
  add_nonneg (table.nodesRefs_nonneg frame) (leafRefs_nonneg _ _)

private theorem toNat_decide_eq (frame other : Frame) :
    ((decide (frame = other)).toNat : ℤ) = (Pi.single frame 1 : Frame → ℤ) other := by
  obtain rfl | same := eq_or_ne frame other
  · simp
  · simp [same, Ne.symm same]

private theorem toNat_decide_leaf (vpn : Nat) (frame other : Frame) :
    ((decide (vpn < TRAPFRAME ∧ frame = other)).toNat : ℤ) = leafRef vpn frame other := by
  by_cases below : vpn < TRAPFRAME
  · have reduced : decide (vpn < TRAPFRAME ∧ frame = other) = decide (frame = other) := by
      simp only [below, true_and]
    rw [reduced, toNat_decide_eq, leafRef, if_pos below]
  · have reduced : decide (vpn < TRAPFRAME ∧ frame = other) = false := by
      simp only [below, false_and, decide_false]
    rw [reduced, leafRef, if_neg below]
    rfl

variable {index : Nat} {nodes : FinMap Nat Frame}

theorem nodeRefs_insert (missing : nodes.find index = none) (frame : Frame) :
    nodeRefs (nodes.insert index frame) = nodeRefs nodes + Pi.single frame 1 := by
  funext other
  simp only [nodeRefs, count_insert_new missing, Int.natCast_add, toNat_decide_eq,
    Pi.add_apply]

variable {leaves : FinMap Nat Pte}

theorem leafRefs_insert_new (missing : leaves.find vpn = none) (pte : Pte) :
    leafRefs (leaves.insert vpn pte) = leafRefs leaves + leafRef vpn pte.frame := by
  funext other
  simp only [leafRefs, count_insert_new missing, Int.natCast_add, toNat_decide_leaf,
    Pi.add_apply]

variable {pte : Pte} {nodes nodes' : FinMap Nat Frame} {found : Bool}

theorem leafRefs_erase (found : leaves.find vpn = some pte) :
    leafRefs (leaves.erase vpn) = leafRefs leaves - leafRef vpn pte.frame := by
  funext other
  have count := count_erase found fun vpn pte => vpn < TRAPFRAME ∧ pte.frame = other
  have leaf := toNat_decide_leaf vpn pte.frame other
  simp only [leafRefs, Pi.sub_apply]
  omega

theorem leafRefs_insert_old (found : leaves.find vpn = some pte) (replacement : Pte) :
    leafRefs (leaves.insert vpn replacement) =
      leafRefs leaves - leafRef vpn pte.frame + leafRef vpn replacement.frame := by
  funext other
  have count := count_insert_old found replacement
    fun vpn pte => vpn < TRAPFRAME ∧ pte.frame = other
  have leaf := toNat_decide_leaf vpn pte.frame other
  have leaf' := toNat_decide_leaf vpn replacement.frame other
  simp only [leafRefs, Pi.sub_apply, Pi.add_apply]
  omega

/-- A leaf entry for user memory refers to its page. -/
theorem one_le_leafRefs (found : leaves.find vpn = some pte) (below : vpn < TRAPFRAME) :
    1 ≤ leafRefs leaves pte.frame := by
  have counted := one_le_count
    (fun vpn entry => vpn < TRAPFRAME ∧ entry.frame = pte.frame) found (by simpa using below)
  simp only [leafRefs]
  omega

/-- Two leaf entries for one page refer to it twice. -/
theorem two_le_leafRefs {pte pte' : Pte} {other : Nat} (ne : vpn ≠ other)
    (found : leaves.find vpn = some pte) (below : vpn < TRAPFRAME)
    (found' : leaves.find other = some pte') (below' : other < TRAPFRAME)
    (same : pte'.frame = pte.frame) : 2 ≤ leafRefs leaves pte.frame := by
  have counted := two_le_count
    (fun vpn entry => vpn < TRAPFRAME ∧ entry.frame = pte.frame) ne found
    (by simpa using below) found' (by simpa using ⟨below', same⟩)
  simp only [leafRefs]
  omega

/-! ## Walking and mapping -/

/-- A failed allocation in `walk` is recorded. -/
theorem PageTable.walkLevel_none (done : walkLevel nodes index mem = (none, after)) :
    mem.kalloc = (none, after) := by
  unfold walkLevel at done
  split at done
  · simp at done
  · split at done
    case h_1 mem' refused => simpa [refused] using done
    case h_2 => simp at done

/-- A level either has the page-table page already or gets a zeroed one. -/
theorem PageTable.walkLevel_some (done : walkLevel nodes index mem = (some nodes', after)) :
    ((nodes.find index).isSome ∧ nodes' = nodes ∧ after = mem) ∨
      ∃ frame taken, nodes.find index = none ∧ mem.kalloc = (some frame, taken) ∧
        nodes' = nodes.insert index frame ∧ after = taken.fill frame 0 := by
  unfold walkLevel at done
  split at done
  case h_1 found =>
    simp only [Prod.mk.injEq, Option.some.injEq] at done
    exact .inl ⟨by simp [found], done.1.symm, done.2.symm⟩
  case h_2 missing =>
    split at done
    case h_1 => simp at done
    case h_2 frame taken allocated =>
      simp only [Prod.mk.injEq, Option.some.injEq] at done
      exact .inr ⟨frame, taken, missing, allocated, done.1.symm, done.2.symm⟩

/-- Filling a page that nobody else refers to. -/
theorem Good.fill (good : Good layout ext mem own) (unshared : ext frame = 0) (contents : Page) :
    Keeps layout ext mem own (mem.fill frame contents) own := by
  apply good.keeps_of_pool
  · rfl
  · intro other held
    have ne : other ≠ frame := by
      rintro rfl
      omega
    simp [ne]
  · exact id

/-- A fresh page, filled. -/
theorem Good.kalloc_fill (good : Good layout ext mem own)
    (allocated : mem.kalloc = (some frame, after)) (contents : Page) :
    Keeps layout ext mem own (after.fill frame contents) (own + Pi.single frame 1) :=
  have taken := good.kalloc_some allocated
  taken.trans ((good.keeps taken).fill (good.kalloc_unused allocated).1 contents)

/-- A level never loses a page-table page, and has the one that was asked for. -/
theorem PageTable.walkLevel_grows (done : walkLevel nodes index mem = (some nodes', after)) :
    (nodes'.find index).isSome ∧
      ∀ other, (nodes.find other).isSome → (nodes'.find other).isSome := by
  obtain ⟨found, rfl, -⟩ | ⟨frame, taken, -, -, rfl, -⟩ := walkLevel_some done
  · exact ⟨found, fun _ => id⟩
  · refine ⟨by simp, fun other found => ?_⟩
    by_cases same : other = index
    · simp [same]
    · simpa [same] using found

theorem Good.walkLevel_some (good : Good layout ext mem (nodeRefs nodes))
    (done : PageTable.walkLevel nodes index mem = (some nodes', after)) :
    Keeps layout ext mem (nodeRefs nodes) after (nodeRefs nodes') := by
  obtain ⟨-, rfl, rfl⟩ | ⟨frame, taken, missing, allocated, rfl, rfl⟩ :=
    PageTable.walkLevel_some done
  · exact good.refl
  · rw [nodeRefs_insert missing]
    exact good.kalloc_fill allocated 0

/-- The ways `walk` with allocation can end. -/
inductive WalkOutcome (table : PageTable) (vpn : Nat) (mem : Mem) : Bool → PageTable → Mem → Prop
  | noMid {after : Mem} (refused : mem.kalloc = (none, after)) :
      WalkOutcome table vpn mem false table after
  | noLow {mids : FinMap Nat Frame} {middle after : Mem}
      (mid : PageTable.walkLevel table.mids (vpn / 2 ^ 18) mem = (some mids, middle))
      (refused : middle.kalloc = (none, after)) :
      WalkOutcome table vpn mem false { table with mids } after
  | found {mids lows : FinMap Nat Frame} {middle after : Mem}
      (mid : PageTable.walkLevel table.mids (vpn / 2 ^ 18) mem = (some mids, middle))
      (low : PageTable.walkLevel table.lows (vpn / 2 ^ 9) middle = (some lows, after)) :
      WalkOutcome table vpn mem true { table with mids, lows } after

theorem PageTable.walk_outcome (done : table.walk vpn mem = (found, table', after)) :
    WalkOutcome table vpn mem found table' after := by
  unfold walk at done
  split at done
  case h_1 noMid =>
    cases done
    exact .noMid (walkLevel_none noMid)
  case h_2 mid =>
    split at done
    case h_1 noLow =>
      cases done
      exact .noLow mid (walkLevel_none noLow)
    case h_2 low =>
      cases done
      exact .found mid low

/-- What `walk` with allocation does to the page table. -/
structure Walked (vpn : Nat) (found : Bool) (table table' : PageTable) (after : Mem) : Prop where
  leaves : table'.leaves = table.leaves
  reaches : ∀ other, table.reaches other → table'.reaches other
  reached : found = true → table'.reaches vpn
  failed : found = false → after.failed = true

theorem PageTable.walk_shape (done : table.walk vpn mem = (found, table', after)) :
    Walked vpn found table table' after := by
  cases walk_outcome done with
  | noMid refused =>
    refine ⟨rfl, fun _ => id, by simp, fun _ => ?_⟩
    rw [kalloc_none refused]
    rfl
  | noLow mid refused =>
    refine ⟨rfl, fun other => ?_, by simp, fun _ => ?_⟩
    · simp only [reaches, Bool.and_eq_true]
      exact fun found => ⟨(walkLevel_grows mid).2 _ found.1, found.2⟩
    · rw [kalloc_none refused]
      rfl
  | found mid low =>
    refine ⟨rfl, fun other => ?_, fun _ => ?_, by simp⟩
    · simp only [reaches, Bool.and_eq_true]
      exact fun found => ⟨(walkLevel_grows mid).2 _ found.1, (walkLevel_grows low).2 _ found.2⟩
    · simp only [reaches, Bool.and_eq_true]
      exact ⟨(walkLevel_grows mid).1, (walkLevel_grows low).1⟩

/-- The page-table pages with the middle level, or the lowest level, set apart. -/
theorem PageTable.nodesRefs_mids (table : PageTable) :
    table.nodesRefs = nodeRefs table.mids + (Pi.single table.root 1 + nodeRefs table.lows) := by
  rw [nodesRefs]
  abel

theorem PageTable.nodesRefs_lows (table : PageTable) :
    table.nodesRefs = nodeRefs table.lows + (Pi.single table.root 1 + nodeRefs table.mids) := by
  rw [nodesRefs]
  abel

theorem rootRefs_nonneg (root : Frame) (nodes : FinMap Nat Frame) (frame : Frame) :
    0 ≤ (Pi.single root 1 + nodeRefs nodes : Frame → ℤ) frame :=
  add_nonneg (single_nonneg _ _) (nodeRefs_nonneg _ _)

theorem Good.walkMid {mids : FinMap Nat Frame} (good : Good layout ext mem table.nodesRefs)
    (mid : walkLevel table.mids (vpn / 2 ^ 18) mem = (some mids, after)) :
    Keeps layout ext mem table.nodesRefs after
      ({ table with mids } : PageTable).nodesRefs := by
  rw [nodesRefs_mids] at good ⊢
  rw [nodesRefs_mids]
  have rest := rootRefs_nonneg table.root table.lows
  exact ((good.part (nodeRefs_nonneg _) rest).walkLevel_some mid).framed rest

theorem Good.walkLow (vpn : Nat) {lows : FinMap Nat Frame}
    (good : Good layout ext mem table.nodesRefs)
    (low : walkLevel table.lows (vpn / 2 ^ 9) mem = (some lows, after)) :
    Keeps layout ext mem table.nodesRefs after
      ({ table with lows } : PageTable).nodesRefs := by
  rw [nodesRefs_lows] at good ⊢
  rw [nodesRefs_lows]
  have rest := rootRefs_nonneg table.root table.mids
  exact ((good.part (nodeRefs_nonneg _) rest).walkLevel_some low).framed rest

theorem Good.walk (good : Good layout ext mem table.nodesRefs)
    (done : table.walk vpn mem = (found, table', after)) :
    Keeps layout ext mem table.nodesRefs after table'.nodesRefs := by
  cases walk_outcome done with
  | noMid refused => exact good.kalloc_none refused
  | noLow mid refused =>
    have first := good.walkMid mid
    exact first.trans ((good.keeps first).kalloc_none refused)
  | found mid low =>
    have first := good.walkMid mid
    exact first.trans ((good.keeps first).walkLow vpn low)

/-- What `mappages` did, when it did not panic. -/
theorem PageTable.mappages_ok {mapped : Bool}
    (done : table.mappages vpn pte mem = .ok (mapped, table', after)) :
    vpn < MAXVPN ∧ ∃ walked, table.walk vpn mem = (mapped, walked, after) ∧
      ((mapped = false ∧ table' = walked) ∨
        (mapped = true ∧ walked.leaves.find vpn = none ∧
          table' = { walked with leaves := walked.leaves.insert vpn pte })) := by
  unfold mappages at done
  split_ifs at done with tooHigh
  refine ⟨not_le.mp tooHigh, ?_⟩
  split at done
  case h_1 walked mem' noEntry =>
    cases done
    exact ⟨_, noEntry, .inl ⟨rfl, rfl⟩⟩
  case h_2 walked mem' entry =>
    split at done
    · cases done
    case h_2 missing =>
      cases done
      exact ⟨_, entry, .inr ⟨rfl, missing, rfl⟩⟩

/-- What a call of `mappages` leaves in the page table. -/
structure Mapped (vpn : Nat) (pte : Pte) (mapped : Bool) (table table' : PageTable)
    (after : Mem) : Prop where
  below : vpn < MAXVPN
  missing : mapped = true → table.leaves.find vpn = none
  leaves : table'.leaves = if mapped then table.leaves.insert vpn pte else table.leaves
  reached : mapped = true → table'.reaches vpn
  reaches : ∀ other, table.reaches other → table'.reaches other
  failed : mapped = false → after.failed = true

theorem PageTable.mappages_shape {mapped : Bool}
    (done : table.mappages vpn pte mem = .ok (mapped, table', after)) :
    Mapped vpn pte mapped table table' after := by
  obtain ⟨below, walked, walk, ⟨rfl, rfl⟩ | ⟨rfl, missing, rfl⟩⟩ := mappages_ok done
  · have shape := walk_shape walk
    exact ⟨below, by simp, by simp [shape.leaves], by simp, shape.reaches, shape.failed⟩
  · have shape := walk_shape walk
    refine ⟨below, fun _ => shape.leaves ▸ missing, ?_, shape.reached, shape.reaches, by simp⟩
    simp [shape.leaves]

theorem Good.mappages {mapped : Bool} (good : Good layout ext mem table.nodesRefs)
    (done : table.mappages vpn pte mem = .ok (mapped, table', after)) :
    Keeps layout ext mem table.nodesRefs after table'.nodesRefs := by
  obtain ⟨-, walked, walk, ⟨rfl, rfl⟩ | ⟨rfl, -, rfl⟩⟩ := mappages_ok done
  · exact good.walk walk
  · have walked := good.walk walk
    exact walked

/-! ## Unmapping -/

variable {npages : Nat} {doFree : Bool} {oldsz newsz sz : Nat} {base npages : Nat}

/-- One turn of the loop of `uvmunmap`. -/
theorem PageTable.uvmunmap_succ
    (done : uvmunmap layout doFree (npages + 1) vpn table mem = .ok (table', after)) :
    ∃ pte freed, vpn < MAXVPN ∧ table.leaves.find vpn = some pte ∧
      freeIf layout doFree pte.frame mem = .ok freed ∧
      uvmunmap layout doFree npages (vpn + 1)
        { table with leaves := table.leaves.erase vpn } freed = .ok (table', after) := by
  rw [uvmunmap] at done
  split_ifs at done with tooHigh unreached
  split at done
  · cases done
  case h_2 pte found =>
    split_ifs at done
    obtain ⟨mem', freed, rest⟩ := ok_of_bind done
    exact ⟨pte, mem', not_le.mp tooHigh, found, freed, rest⟩

/-- What `uvmunmap` leaves in the page table. -/
structure Unmapped (vpn npages : Nat) (table table' : PageTable) : Prop where
  root : table'.root = table.root
  mids : table'.mids = table.mids
  lows : table'.lows = table.lows
  find : ∀ other, table'.leaves.find other =
    if vpn ≤ other ∧ other < vpn + npages then none else table.leaves.find other

theorem PageTable.uvmunmap_shape
    (done : uvmunmap layout doFree npages vpn table mem = .ok (table', after)) :
    Unmapped vpn npages table table' := by
  induction npages generalizing vpn table mem with
  | zero =>
    cases done
    refine ⟨rfl, rfl, rfl, fun other => ?_⟩
    rw [if_neg (by omega)]
  | succ npages ih =>
    obtain ⟨pte, freed, -, -, -, rest⟩ := uvmunmap_succ done
    have shape := ih rest
    refine ⟨shape.root, shape.mids, shape.lows, fun other => ?_⟩
    rw [shape.find other]
    obtain rfl | same := eq_or_ne other vpn
    · simp
    · simp only [find_erase, Function.update_of_ne same]
      congr 1
      simp only [eq_iff_iff]
      omega

theorem PageTable.refs_erase (found : table.leaves.find vpn = some pte) :
    ({ table with leaves := table.leaves.erase vpn } : PageTable).refs =
      table.refs - leafRef vpn pte.frame := by
  simp only [refs, nodesRefs, leafRefs_erase found]
  abel

theorem leafRef_user (below : vpn < TRAPFRAME) (frame : Frame) :
    leafRef vpn frame = Pi.single frame 1 :=
  if_pos below

theorem leafRef_top (top : TRAPFRAME ≤ vpn) (frame : Frame) : leafRef vpn frame = 0 :=
  if_neg (not_lt.mpr top)

/-- A leaf entry for user memory is among the references of its table. -/
theorem PageTable.one_le_refs (found : table.leaves.find vpn = some pte) (below : vpn < TRAPFRAME) :
    1 ≤ table.refs pte.frame := by
  have leaf := one_le_leafRefs found below
  have nodes := table.nodesRefs_nonneg pte.frame
  simp only [refs, Pi.add_apply]
  omega

/-- The entries in a range of pages are for user memory. -/
def PageTable.UserRange (vpn npages : Nat) (table : PageTable) : Prop :=
  ∀ other, vpn ≤ other → other < vpn + npages → other < MAXVPN → TRAPFRAME ≤ other →
    table.leaves.find other = none

theorem PageTable.userRange_of_le (below : vpn + npages ≤ TRAPFRAME) :
    table.UserRange vpn npages := by
  intro other _ inside _ top
  omega

/-- Unmapping and freeing user pages gives up the references that they held. -/
theorem Good.uvmunmap (good : Good layout ext mem table.refs) (range : table.UserRange vpn npages)
    (done : uvmunmap layout true npages vpn table mem = .ok (table', after)) :
    Keeps layout ext mem table.refs after table'.refs := by
  induction npages generalizing vpn table mem with
  | zero =>
    cases done
    exact good.refl
  | succ npages ih =>
    obtain ⟨pte, freed, inside, found, free, rest⟩ := uvmunmap_succ done
    have below : vpn < TRAPFRAME := by
      by_contra top
      have missing := range vpn le_rfl (by omega) inside (not_lt.mp top)
      simp [missing] at found
    have step := good.kfree (one_le_refs found below) free
    rw [← leafRef_user below, ← refs_erase found] at step
    refine step.trans (ih (good.keeps step) ?_ rest)
    intro other low high maxvpn top
    have ne : other ≠ vpn := by omega
    simpa [ne] using range other (by omega) (by omega) maxvpn top

theorem pgRoundUp_le {sz bound : Nat} (fits : sz ≤ bound * PGSIZE) (small : bound ≤ TRAPFRAME) :
    pgRoundUp sz ≤ bound := by
  unfold pgRoundUp
  have noWrap : sz + (PGSIZE - 1) < 2 ^ 64 := by
    simp only [TRAPFRAME, MAXVPN, MAXVA, PGSIZE] at *
    omega
  rw [Nat.mod_eq_of_lt noWrap]
  simp only [PGSIZE] at *
  omega

theorem Good.uvmdealloc (good : Good layout ext mem table.refs) (fits : oldsz ≤ TRAPFRAME * PGSIZE)
    (outcome : uvmdealloc layout oldsz newsz table mem = .ok (sz, table', after)) :
    Keeps layout ext mem table.refs after table'.refs ∧ sz ≤ oldsz := by
  unfold PageTable.uvmdealloc at outcome
  split_ifs at outcome with grows
  · cases outcome
    exact ⟨good.refl, le_rfl⟩
  · obtain ⟨⟨rest, mem'⟩, unmapped, done⟩ := ok_of_bind outcome
    cases done
    have old := pgRoundUp_le fits le_rfl
    have new := pgRoundUp_le (show newsz ≤ TRAPFRAME * PGSIZE by omega) le_rfl
    refine ⟨good.uvmunmap (userRange_of_le ?_) unmapped, by omega⟩
    omega

/-! ## Growing -/

/-- The page tables of processes: the trapframe page is mapped, so that no user page
can be mapped there, user code cannot reach it or the page above it, and `walk` finds
every entry. -/
structure PageTable.WellFormed (table : PageTable) : Prop where
  trapframe : (table.leaves.find TRAPFRAME).isSome
  top : ∀ vpn pte, TRAPFRAME ≤ vpn → table.leaves.find vpn = some pte → pte.perm.user = false
  reached : ∀ vpn pte, table.leaves.find vpn = some pte → table.reaches vpn

theorem PageTable.WellFormed.mapped {mapped : Bool} (wf : table.WellFormed)
    (low : vpn ≤ TRAPFRAME) (shape : Mapped vpn pte mapped table table' after) :
    table'.WellFormed ∧ (mapped = true → vpn < TRAPFRAME) := by
  cases mapped with
  | false =>
    have leaves : table'.leaves = table.leaves := shape.leaves
    refine ⟨⟨leaves ▸ wf.trapframe, leaves ▸ wf.top, ?_⟩, by simp⟩
    intro other entry found
    exact shape.reaches other (wf.reached other entry (leaves ▸ found))
  | true =>
    have leaves : table'.leaves = table.leaves.insert vpn pte := shape.leaves
    have below : vpn < TRAPFRAME := by
      apply lt_of_le_of_ne low
      rintro rfl
      have mappedThere := wf.trapframe
      simp [shape.missing rfl] at mappedThere
    refine ⟨⟨?_, ?_, ?_⟩, fun _ => below⟩
    · simpa [leaves, below.ne'] using wf.trapframe
    · intro other entry top found
      have ne : other ≠ vpn := by omega
      rw [leaves] at found
      exact wf.top other entry top (by simpa [ne] using found)
    · intro other entry found
      by_cases same : other = vpn
      · exact same ▸ shape.reached rfl
      · rw [leaves] at found
        exact shape.reaches other
          (wf.reached other entry (by simpa [same] using found))

theorem PageTable.WellFormed.unmapped (wf : table.WellFormed)
    (below : vpn + npages ≤ TRAPFRAME) (shape : Unmapped vpn npages table table') :
    table'.WellFormed := by
  have kept : ∀ other pte, table'.leaves.find other = some pte →
      table.leaves.find other = some pte := by
    intro other pte found
    rw [shape.find other] at found
    split_ifs at found
    exact found
  refine ⟨?_, ?_, ?_⟩
  · rw [shape.find, if_neg (by omega)]
    exact wf.trapframe
  · exact fun other pte top found => wf.top other pte top (kept other pte found)
  · intro other pte found
    have reached := wf.reached other pte (kept other pte found)
    simpa [reaches, shape.mids, shape.lows] using reached

/-- Mapping a page that the caller holds one reference to. -/
theorem Good.mappages_held (pte : Pte) {mapped : Bool}
    (good : Good layout ext mem (table.refs + Pi.single pte.frame 1)) (wf : table.WellFormed)
    (low : vpn ≤ TRAPFRAME)
    (done : table.mappages vpn pte mem = .ok (mapped, table', after)) :
    Keeps layout ext mem (table.refs + Pi.single pte.frame 1) after
      (if mapped then table'.refs else table'.refs + Pi.single pte.frame 1) := by
  have split : table.refs + Pi.single pte.frame 1 =
      table.nodesRefs + (leafRefs table.leaves + Pi.single pte.frame 1) := by
    rw [refs, add_assoc]
  have restNonneg : ∀ frame, 0 ≤ (leafRefs table.leaves + Pi.single pte.frame 1 : Frame → ℤ)
      frame :=
    fun frame => add_nonneg (leafRefs_nonneg _ _) (single_nonneg _ _)
  rw [split] at good ⊢
  have keeps := (good.part table.nodesRefs_nonneg restNonneg).mappages done
  have framed := keeps.framed restNonneg
  have shape := mappages_shape done
  cases mapped with
  | false =>
    have sameLeaves : table'.leaves = table.leaves := shape.leaves
    simpa [refs, sameLeaves, add_assoc] using framed
  | true =>
    have below := (wf.mapped low shape).2 rfl
    have leaves : table'.leaves = table.leaves.insert vpn pte := shape.leaves
    simpa [refs, leaves, leafRefs_insert_new (shape.missing rfl),
      leafRef_user below] using framed

theorem PageTable.WellFormed.uvmdealloc (wf : table.WellFormed)
    (fits : oldsz ≤ TRAPFRAME * PGSIZE)
    (done : uvmdealloc layout oldsz newsz table mem = .ok (sz, table', after)) :
    table'.WellFormed := by
  unfold PageTable.uvmdealloc at done
  split_ifs at done with grows
  · cases done
    exact wf
  · obtain ⟨⟨rest, mem'⟩, unmapped, finished⟩ := ok_of_bind done
    cases finished
    have old := pgRoundUp_le fits le_rfl
    have new := pgRoundUp_le (show newsz ≤ TRAPFRAME * PGSIZE by omega) le_rfl
    exact wf.unmapped (by omega) (uvmunmap_shape unmapped)

theorem Good.uvmallocUndo {base : Nat} {done : Bool} (good : Good layout ext mem table.refs)
    (wf : table.WellFormed) (low : vpn ≤ TRAPFRAME)
    (outcome : uvmallocUndo layout base vpn table mem = .ok (done, table', after)) :
    Keeps layout ext mem table.refs after table'.refs ∧ done = false ∧ table'.WellFormed := by
  obtain ⟨⟨sz, rest, mem'⟩, dealloc, finished⟩ := ok_of_bind outcome
  cases finished
  have fits : vpn * PGSIZE ≤ TRAPFRAME * PGSIZE := Nat.mul_le_mul_right _ low
  refine ⟨(good.uvmdealloc fits dealloc).1, rfl, ?_⟩
  exact wf.uvmdealloc fits dealloc

theorem Good.uvmallocLoop {perm : Perm} {done : Bool} (good : Good layout ext mem table.refs)
    (wf : table.WellFormed) (low : vpn ≤ TRAPFRAME)
    (outcome : uvmallocLoop layout perm base npages vpn table mem =
      .ok (done, table', after)) :
    Keeps layout ext mem table.refs after table'.refs ∧ table'.WellFormed ∧
      (done = true → vpn + npages ≤ TRAPFRAME) ∧ (done = false → after.failed = true) := by
  induction npages generalizing vpn table mem with
  | zero =>
    cases outcome
    exact ⟨good.refl, wf, fun _ => low, by simp⟩
  | succ npages ih =>
    rw [uvmallocLoop] at outcome
    split at outcome
    case h_1 mem' refused =>
      have first := good.kalloc_none refused
      obtain ⟨keeps, rfl, wf'⟩ := (good.keeps first).uvmallocUndo wf low outcome
      refine ⟨first.trans keeps, wf', by simp, fun _ => keeps.failed ?_⟩
      rw [Mem.kalloc_none refused]
      rfl
    case h_2 frame mem' allocated =>
      obtain ⟨⟨mapped, mapTable, mapMem⟩, mapOutcome, rest⟩ := ok_of_bind outcome
      have first := good.kalloc_fill allocated 0
      have shape := mappages_shape mapOutcome
      obtain ⟨wf', below⟩ := wf.mapped low shape
      have second := first.trans ((good.keeps first).mappages_held
        (.made perm frame) wf low mapOutcome)
      cases mapped with
      | true =>
        obtain ⟨third, wf'', reached, failed'⟩ :=
          ih (good.keeps second) wf' (below rfl) rest
        refine ⟨second.trans third, wf'', fun finished => ?_, failed'⟩
        have := reached finished
        omega
      | false =>
        obtain ⟨freedMem, freed, undo⟩ := ok_of_bind rest
        have held : 1 ≤ (mapTable.refs + Pi.single frame 1 : Frame → ℤ) frame := by
          have := mapTable.refs_nonneg frame
          simp
          omega
        have third := (good.keeps second).kfree held freed
        have back : (mapTable.refs + Pi.single frame 1 - Pi.single frame 1 : Frame → ℤ) =
            mapTable.refs := add_sub_cancel_right _ _
        simp only [Bool.false_eq_true, if_false, Pte.made_frame, back] at third
        have fourth := second.trans third
        obtain ⟨keeps', rfl, wf''⟩ := (good.keeps fourth).uvmallocUndo wf' low undo
        refine ⟨fourth.trans keeps', wf'', by simp, fun _ => keeps'.failed ?_⟩
        exact third.failed (shape.failed rfl)

theorem le_pagesBelow_mul (sz : Nat) : sz ≤ pagesBelow sz * PGSIZE := by
  unfold pagesBelow
  simp only [PGSIZE]
  omega

theorem Good.uvmalloc {xperm : Perm} (good : Good layout ext mem table.refs)
    (wf : table.WellFormed) (fits : oldsz ≤ TRAPFRAME * PGSIZE)
    (outcome : uvmalloc layout oldsz newsz xperm table mem = .ok (sz, table', after)) :
    Keeps layout ext mem table.refs after table'.refs ∧ table'.WellFormed ∧
      sz ≤ TRAPFRAME * PGSIZE := by
  unfold PageTable.uvmalloc at outcome
  split_ifs at outcome with shrinks
  · cases outcome
    exact ⟨good.refl, wf, fits⟩
  · obtain ⟨⟨done, rest, mem'⟩, loop, finished⟩ := ok_of_bind outcome
    cases finished
    have low := pgRoundUp_le fits le_rfl
    obtain ⟨keeps, wf', reached, -⟩ := good.uvmallocLoop wf low loop
    refine ⟨keeps, wf', ?_⟩
    cases done with
    | false => simp
    | true =>
      have covered := reached rfl
      have pages := le_pagesBelow_mul newsz
      have bound : pagesBelow newsz * PGSIZE ≤ TRAPFRAME * PGSIZE :=
        Nat.mul_le_mul_right _ (by omega)
      simpa using pages.trans bound

/-! ## Code that only allocates -/

/-- Pages that are in use keep their counters and their contents, and no page becomes
free. -/
structure Allocates (mem after : Mem) : Prop where
  used : ∀ frame, 0 < mem.count frame →
    after.count frame = mem.count frame ∧ after.page frame = mem.page frame
  free : after.freelist ⊆ mem.freelist

theorem Allocates.refl (mem : Mem) : Allocates mem mem := ⟨fun _ _ => ⟨rfl, rfl⟩, fun _ => id⟩

theorem Allocates.trans (first : Allocates mem after) (second : Allocates after last) :
    Allocates mem last where
  used := by
    intro frame used
    have middle := first.used frame used
    have final := second.used frame (middle.1 ▸ used)
    exact ⟨final.1.trans middle.1, final.2.trans middle.2⟩
  free := fun _ member => first.free (second.free member)

/-- `kalloc` does not hand out a page in use. -/
theorem Mem.kalloc_count (allocated : mem.kalloc = (some frame, after)) :
    ¬ 0 < mem.count frame := by
  unfold kalloc at allocated
  split at allocated
  · simp at allocated
  · simp at allocated
  · split_ifs at allocated with used
    · simp at allocated
    · simp only [Prod.mk.injEq, Option.some.injEq] at allocated
      exact allocated.1 ▸ used

theorem Mem.kalloc_mem (allocated : mem.kalloc = (some frame, after)) : frame ∈ mem.freelist := by
  obtain ⟨rest, freelist, -⟩ := kalloc_some allocated
  simp [freelist]

theorem Allocates.kalloc_none (refused : mem.kalloc = (none, after)) : Allocates mem after := by
  rw [Mem.kalloc_none refused]
  exact ⟨fun _ _ => ⟨rfl, rfl⟩, fun _ => id⟩

theorem Allocates.kalloc_fill (allocated : mem.kalloc = (some frame, after)) (contents : Page) :
    Allocates mem (after.fill frame contents) := by
  constructor
  · intro other used
    have ne : other ≠ frame := by
      rintro rfl
      exact kalloc_count allocated used
    obtain ⟨rest, -, rfl⟩ := kalloc_some allocated
    simp [ne]
  · obtain ⟨rest, freelist, rfl⟩ := kalloc_some allocated
    intro other member
    rw [freelist]
    exact List.mem_cons_of_mem _ member

theorem Allocates.walkLevel (done : walkLevel nodes index mem = (some nodes', after)) :
    Allocates mem after := by
  obtain ⟨-, -, rfl⟩ | ⟨frame, taken, -, allocated, -, rfl⟩ := walkLevel_some done
  · exact .refl _
  · exact .kalloc_fill allocated 0

theorem Allocates.walk (done : table.walk vpn mem = (found, table', after)) :
    Allocates mem after := by
  cases walk_outcome done with
  | noMid refused => exact .kalloc_none refused
  | noLow mid refused => exact (Allocates.walkLevel mid).trans (.kalloc_none refused)
  | found mid low => exact (Allocates.walkLevel mid).trans (.walkLevel low)

theorem Allocates.mappages {mapped : Bool}
    (done : table.mappages vpn pte mem = .ok (mapped, table', after)) : Allocates mem after := by
  obtain ⟨-, walked, walk, -⟩ := mappages_ok done
  exact .walk walk

/-- New zeroed pages that nobody else refers to, in a range of an address space. -/
structure Grown (perm : Perm) (vpn npages : Nat) (table : PageTable) (mem : Mem)
    (table' : PageTable) (after : Mem) : Prop where
  allocates : Allocates mem after
  outside : ∀ other, ¬ (vpn ≤ other ∧ other < vpn + npages) →
    table'.leaves.find other = table.leaves.find other
  inside : ∀ other, vpn ≤ other → other < vpn + npages →
    ∃ frame ∈ mem.freelist, table'.leaves.find other = some (.made perm frame) ∧
      after.count frame = 1 ∧ after.page frame = 0

theorem PageTable.uvmallocLoop_grown {perm : Perm}
    (done : uvmallocLoop layout perm base npages vpn table mem = .ok (true, table', after)) :
    Grown perm vpn npages table mem table' after := by
  induction npages generalizing vpn table mem with
  | zero =>
    cases done
    exact ⟨.refl _, fun _ _ => rfl, fun other _ _ => by omega⟩
  | succ npages ih =>
    rw [uvmallocLoop] at done
    split at done
    case h_1 =>
      obtain ⟨_, -, finished⟩ := ok_of_bind done
      cases finished
    case h_2 frame mem' allocated =>
      obtain ⟨⟨mapped, mapTable, mapMem⟩, mapOutcome, rest⟩ := ok_of_bind done
      cases mapped with
      | false =>
        obtain ⟨freedMem, freed, undo⟩ := ok_of_bind rest
        obtain ⟨_, -, finished⟩ := ok_of_bind undo
        cases finished
      | true =>
        have grown := ih rest
        have leaves : mapTable.leaves = table.leaves.insert vpn (.made perm frame) :=
          (mappages_shape mapOutcome).leaves
        have mapping := Allocates.mappages mapOutcome
        refine ⟨((Allocates.kalloc_fill allocated 0).trans mapping).trans grown.allocates,
          ?_, ?_⟩
        · intro other outside
          have ne : other ≠ vpn := by omega
          rw [grown.outside other (by omega), leaves]
          simp [ne]
        · intro other low high
          obtain rfl | same := eq_or_ne other vpn
          · have fresh : (mem'.fill frame 0).count frame = 1 := by
              obtain ⟨_, -, rfl⟩ := kalloc_some allocated
              simp
            have kept := (mapping.trans grown.allocates).used frame (by omega)
            refine ⟨frame, kalloc_mem allocated, ?_, kept.1.trans fresh, ?_⟩
            · rw [grown.outside other (by omega), leaves]
              simp
            · rw [kept.2]
              simp
          · obtain ⟨added, free, rest⟩ := grown.inside other (by omega) (by omega)
            have earlier := (Allocates.kalloc_fill allocated 0).trans mapping
            exact ⟨added, earlier.free free, rest⟩

end Xv6.Vm
