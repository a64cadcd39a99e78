import Xv6.Vm.Leaves

/-!
# The pages of user memory

The user pages of a page table are the first ones, up to the size of the process, each in a
page of physical memory of its own; so a process has no more pages than the machine, and the
functions of `kernel/vm.c` find every entry they look for and none where they add one.
-/

namespace Xv6.Vm

open Function FinMap Option Finset

variable {layout : Layout} {ext own : Frame → ℤ} {mem after : Mem}
variable {table table' : PageTable} {vpn pages npages : Nat} {frame : Frame}

/-- `PHYSTOP / PGSIZE`. -/
abbrev PHYSTOP : Frame := 0x88000

namespace PageTable

/-- There are entries for the first pages and for the two at the top. -/
def Spans (table : PageTable) (pages : Nat) : Prop :=
  ∀ vpn, (table.leaves.find vpn).isSome ↔ vpn < pages ∨ vpn = TRAPFRAME ∨ vpn = TRAMPOLINE

/-- `walk` finds every entry, and none of them points to another table. -/
def Solid (table : PageTable) : Prop :=
  ∀ vpn pte, table.leaves.find vpn = some pte → table.reaches vpn ∧ pte.perm.readable = true

/-- No page of physical memory is mapped twice. -/
def Distinct (table : PageTable) : Prop :=
  ∀ vpn other pte pte', vpn < TRAPFRAME → other < TRAPFRAME →
    table.leaves.find vpn = some pte → table.leaves.find other = some pte' →
    pte.frame = pte'.frame → vpn = other

/-- The entries of a table are in order. -/
structure Laid (table : PageTable) (pages : Nat) : Prop where
  spans : table.Spans pages
  solid : table.Solid
  distinct : table.Distinct

/-- The entries are in order, and code that holds the references of the table runs. -/
structure Tidy (layout : Layout) (ext : Frame → ℤ) (mem : Mem) (pages : Nat)
    (table : PageTable) : Prop extends Laid table pages where
  good : Good layout ext mem table.refs
  wellFormed : table.WellFormed
  low : pages ≤ TRAPFRAME

theorem Spans.present (spans : table.Spans pages) (below : vpn < pages) :
    ∃ pte, table.leaves.find vpn = some pte :=
  isSome_iff_exists.mp ((spans vpn).mpr (Or.inl below))

theorem Spans.missing (spans : table.Spans pages) (above : pages ≤ vpn) (below : vpn < TRAPFRAME) :
    table.leaves.find vpn = none := by
  rw [← not_isSome_iff_eq_none, spans]
  have trampoline : TRAPFRAME < TRAMPOLINE := by decide
  omega

theorem Spans.vacant (spans : table.Spans 0) : table.Vacant :=
  fun _ below => spans.missing (Nat.zero_le _) below

/-- A table without user pages. -/
theorem Spans.laid_zero (spans : table.Spans 0) (solid : table.Solid) : table.Laid 0 := by
  refine ⟨spans, solid, fun vpn other pte pte' below _ found => ?_⟩
  rw [spans.vacant vpn below] at found
  cases found

variable {pte : Pte} {base : Nat} {sz : Nat} {oldsz newsz : Nat}

theorem Solid.not_pointsToTable (solid : table.Solid) (found : table.leaves.find vpn = some pte) :
    pte.pointsToTable = false := by
  have readable := (solid vpn pte found).2
  unfold Pte.pointsToTable
  rw [Bool.and_eq_false_iff]
  left
  apply beq_false_of_ne
  intro empty
  rw [empty] at readable
  cases readable

/-- `walk` finds the entries that there are. -/
theorem Solid.lookup_eq (solid : table.Solid) (vpn : Nat) :
    table.lookup vpn = table.leaves.find vpn := by
  unfold lookup
  split_ifs with reached
  · rfl
  · cases found : table.leaves.find vpn with
    | none => rfl
    | some pte => exact (reached (solid vpn pte found).1).elim

/-! ## Physical memory bounds the number of pages -/

section

variable (tidy : table.Tidy layout ext mem pages)
include tidy

theorem Tidy.managed (below : vpn < TRAPFRAME) (found : table.leaves.find vpn = some pte) :
    layout.Managed pte.frame :=
  tidy.good.leaf_managed below found

theorem Tidy.bound : pages ≤ layout.last - layout.first := by
  have inside : ∀ vpn ∈ range pages,
      ((table.leaves.find vpn).elim 0 Pte.frame) ∈ Finset.Ico layout.first layout.last := by
    intro vpn member
    have below : vpn < pages := mem_range.mp member
    obtain ⟨pte, found⟩ := tidy.spans.present below
    rw [found, mem_Ico]
    exact tidy.managed (below.trans_le tidy.low) found
  have once : Set.InjOn (fun vpn => (table.leaves.find vpn).elim 0 Pte.frame)
      (range pages) := by
    intro vpn member other member' same
    have below : vpn < pages := mem_range.mp member
    have below' : other < pages := mem_range.mp member'
    obtain ⟨pte, found⟩ := tidy.spans.present below
    obtain ⟨pte', found'⟩ := tidy.spans.present below'
    simp only [found, found', elim_some] at same
    exact tidy.distinct vpn other pte pte' (below.trans_le tidy.low) (below'.trans_le tidy.low)
      found found' same
  have card := card_le_card_of_injOn _ inside once
  simpa using card

theorem Tidy.below (memory : layout.last ≤ PHYSTOP) : pages < TRAPFRAME :=
  calc
    pages ≤ layout.last - layout.first := tidy.bound
    _ ≤ layout.last := Nat.sub_le _ _
    _ ≤ PHYSTOP := memory
    _ < TRAPFRAME := by decide

/-! ## Freeing -/

end

theorem kfree_returns (good : Good layout ext mem own) (held : 1 ≤ own frame) :
    Returns (fun _ => True) (mem.kfree layout frame) := by
  have counted := good.le_count frame
  have nonneg := good.ext_nonneg frame
  have managed := good.covers.sound.used frame (by
    have : mem.pool.count frame = mem.count frame := rfl
    omega)
  unfold Mem.kfree
  rw [if_neg (not_not.mpr managed), if_neg (by omega)]
  split_ifs
  · exact .pure trivial
  · exact .pure trivial

theorem Solid.erase (solid : table.Solid) (vpn : Nat) :
    ({ table with leaves := table.leaves.erase vpn } : PageTable).Solid := by
  intro other pte found
  obtain rfl | same := eq_or_ne other vpn
  · simp at found
  · exact solid other pte (by simpa [same] using found)

/-- `uvmunmap` finds the entries it is to remove. -/
theorem uvmunmap_returns {doFree : Bool} (solid : table.Solid) (low : vpn + npages ≤ MAXVPN)
    (present : ∀ other, vpn ≤ other → other < vpn + npages → (table.leaves.find other).isSome)
    (good : doFree = true → vpn + npages ≤ TRAPFRAME ∧ Good layout ext mem table.refs) :
    Returns (fun _ => True) (uvmunmap layout doFree npages vpn table mem) := by
  induction npages generalizing vpn table mem with
  | zero => exact .pure trivial
  | succ npages ih =>
    obtain ⟨pte, found⟩ := isSome_iff_exists.mp (present vpn le_rfl (by omega))
    rw [uvmunmap, if_neg (by omega), if_neg (not_not.mpr (solid vpn pte found).1)]
    simp only [found, solid.not_pointsToTable found, Bool.false_eq_true, if_false]
    have freed : Returns (fun freed => doFree = true →
        Good layout ext freed ({ table with leaves := table.leaves.erase vpn } : PageTable).refs)
        (freeIf layout doFree pte.frame mem) := by
      cases doFree with
      | false => exact .pure (by simp)
      | true =>
        obtain ⟨user, held⟩ := good rfl
        have below : vpn < TRAPFRAME := by omega
        refine (kfree_returns held (one_le_refs found below)).strengthen ?_
        intro freed done _ _
        have keeps := held.kfree (one_le_refs found below) done
        rw [refs_erase found, leafRef_user below]
        exact held.keeps keeps
    refine freed.bind fun mem' _ good' => ?_
    refine ih (solid.erase vpn) (by omega) ?_ ?_
    · intro other above inside
      have ne : other ≠ vpn := by omega
      simpa [ne] using present other (by omega) (by omega)
    · intro isFree
      have user := (good isFree).1
      exact ⟨by omega, good' isFree⟩

theorem kfreeAll_returns {frames : List Frame} (good : Good layout ext mem (listRefs frames)) :
    Returns (fun _ => True) (kfreeAll layout frames mem) := by
  induction frames generalizing mem with
  | nil => exact .pure trivial
  | cons frame frames ih =>
    rw [listRefs_cons] at good
    have held : 1 ≤ (listRefs frames + Pi.single frame 1 : Frame → ℤ) frame := by
      have := listRefs_nonneg frames frame
      simp
      omega
    refine (kfree_returns good held).bind fun freed done _ => ih ?_
    have keeps := good.kfree held done
    rw [add_sub_cancel_right] at keeps
    exact good.keeps keeps

theorem freewalk_returns (good : Good layout ext mem table.refs)
    (empty : ∀ vpn, table.leaves.find vpn = none) :
    Returns (fun _ => True) (table.freewalk layout mem) := by
  have noKeys : table.leaves.keys = [] := by
    apply List.eq_nil_iff_forall_not_mem.mpr
    intro vpn
    exact not_mem_keys (empty vpn)
  unfold freewalk
  rw [if_pos noKeys]
  apply kfreeAll_returns
  rwa [listRefs_nodes, ← table.refs_of_no_leaves noKeys]

theorem uvmfree_returns (good : Good layout ext mem table.refs) (solid : table.Solid)
    (low : pages ≤ TRAPFRAME) (spans : ∀ vpn, (table.leaves.find vpn).isSome ↔ vpn < pages)
    (size : pgRoundUp sz = pages) : Returns (fun _ => True) (table.uvmfree layout sz mem) := by
  unfold uvmfree
  rw [size]
  have range : table.UserRange 0 pages := userRange_of_le (by omega)
  have top : TRAPFRAME ≤ MAXVPN := by decide
  have unmapped : Returns (fun _ => True) (uvmunmap layout true pages 0 table mem) :=
    uvmunmap_returns solid (by omega) (fun other _ inside => (spans other).mpr (by omega))
      (fun _ => ⟨by omega, good⟩)
  refine unmapped.bind fun (rest, mem') done _ => ?_
  refine freewalk_returns (good.keeps (good.uvmunmap range done)) fun vpn => ?_
  rw [(uvmunmap_shape done).find vpn]
  split_ifs with inside
  · rfl
  · rw [← not_isSome_iff_eq_none, spans]
    omega

/-- `uvmunmap` of one of the two top pages. -/
theorem uvmunmap_top_returns (solid : table.Solid) (inside : vpn < MAXVPN)
    (present : (table.leaves.find vpn).isSome) :
    Returns (fun _ => True) (uvmunmap layout false 1 vpn table mem) := by
  have nothing : false = true → vpn + 1 ≤ TRAPFRAME ∧ Good layout 0 mem table.refs := by simp
  refine uvmunmap_returns solid inside (fun other above below => ?_) nothing
  obtain rfl : other = vpn := by omega
  exact present

theorem procFreepagetable_returns (good : Good layout ext mem table.refs) (solid : table.Solid)
    (low : pages ≤ TRAPFRAME) (spans : table.Spans pages) (size : pgRoundUp sz = pages) :
    Returns (fun _ => True) (Space.procFreepagetable layout sz table mem) := by
  have order : TRAPFRAME < TRAMPOLINE := by decide
  refine (uvmunmap_top_returns solid (by decide) ((spans TRAMPOLINE).mpr (by simp))).bind
    fun (first, mem1) trampoline _ => ?_
  obtain ⟨rfl, firstRefs, rfl⟩ := uvmunmap_top (by decide) trampoline
  have present : ((table.leaves.erase TRAMPOLINE).find TRAPFRAME).isSome := by
    simpa [order.ne] using (spans TRAPFRAME).mpr (by simp)
  refine (uvmunmap_top_returns (solid.erase _) (by decide) present).bind
    fun (second, mem2) trapframe _ => ?_
  obtain ⟨rfl, secondRefs, rfl⟩ := uvmunmap_top le_rfl trapframe
  rw [← firstRefs, ← secondRefs] at good
  refine uvmfree_returns good ((solid.erase _).erase _) low (fun vpn => ?_) size
  obtain rfl | isTrapframe := eq_or_ne vpn TRAPFRAME
  · simp only [find_erase, update_self, isSome_none, Bool.false_eq_true,
      false_iff]
    omega
  · obtain rfl | isTrampoline := eq_or_ne vpn TRAMPOLINE
    · simp only [find_erase, update_of_ne isTrapframe, update_self,
        isSome_none, Bool.false_eq_true, false_iff]
      omega
    · simpa [isTrapframe, isTrampoline] using spans vpn

/-! ## Mapping -/

theorem mappages_returns (pte : Pte) (inside : vpn < MAXVPN)
    (missing : table.leaves.find vpn = none) :
    Returns (fun _ => True) (table.mappages vpn pte mem) := by
  unfold mappages
  rw [if_neg (not_le.mpr inside)]
  split
  · exact .pure trivial
  case h_2 walked mem' walk =>
    have leaves := (walk_shape walk).leaves
    simp only [leaves, missing]
    exact .pure trivial

theorem Solid.mapped {mapped : Bool} (solid : table.Solid) (readable : pte.perm.readable = true)
    (shape : Mapped vpn pte mapped table table' after) : table'.Solid := by
  intro other entry found
  rw [shape.leaves] at found
  split_ifs at found with isMapped
  · obtain rfl | same := eq_or_ne other vpn
    · obtain rfl : pte = entry := by simpa using found
      exact ⟨shape.reached isMapped, readable⟩
    · obtain ⟨reaches, isReadable⟩ := solid other entry (by simpa [same] using found)
      exact ⟨shape.reaches other reaches, isReadable⟩
  · obtain ⟨reaches, isReadable⟩ := solid other entry found
    exact ⟨shape.reaches other reaches, isReadable⟩

theorem Spans.mapped (spans : table.Spans vpn) (below : vpn < TRAPFRAME)
    (shape : Mapped vpn pte true table table' after) : table'.Spans (vpn + 1) := by
  intro other
  rw [shape.leaves, if_pos rfl, find_insert]
  obtain rfl | same := eq_or_ne other vpn
  · simp
  · rw [update_of_ne same, spans other]
    omega

/-! ## Making and freeing the memory of a process -/

theorem procPagetable_returns {trapframe : Frame} (good : Good layout ext mem 0) :
    Returns (fun (made, _) => ∀ table, made = some table → table.Laid 0)
      (Space.procPagetable layout trapframe mem) := by
  have order : TRAPFRAME < TRAMPOLINE := by decide
  unfold Space.procPagetable
  split
  case h_1 => exact .pure (by simp)
  case h_2 root mem' allocated =>
    have first := good.kalloc_fill allocated 0
    have empty : (0 + Pi.single root 1 : Frame → ℤ) = ({ root } : PageTable).refs := by
      simp [refs, nodesRefs]
    rw [empty] at first
    have bare : ({ root } : PageTable).Solid := fun other pte found => by cases found
    refine (mappages_returns _ (by decide) rfl).bind ?_
    rintro ⟨mapped, middle, mem1⟩ mapTrampoline -
    have shape := mappages_shape mapTrampoline
    have sofar := first.trans ((good.keeps first).mappages_top (by decide) mapTrampoline)
    have solid := bare.mapped rfl shape
    cases mapped with
    | false =>
      have leaves : middle.leaves = .empty := shape.leaves
      have spans : ∀ vpn, (middle.leaves.find vpn).isSome ↔ vpn < 0 := by simp [leaves]
      exact (uvmfree_returns (good.keeps sofar) solid (Nat.zero_le _) spans rfl).bind
        fun freed _ _ => .pure (by simp)
    | true =>
      have leaves : middle.leaves.find = update (fun _ => none) TRAMPOLINE
          (some (Space.trampolinePte layout)) := by
        rw [shape.leaves, if_pos rfl, find_insert]
        rfl
      refine (mappages_returns _ (by decide) (by simp [leaves, order.ne])).bind ?_
      rintro ⟨mapped', last, mem2⟩ mapTrapframe -
      have shape' := mappages_shape mapTrapframe
      have sofar' := sofar.trans ((good.keeps sofar).mappages_top le_rfl mapTrapframe)
      have solid' := solid.mapped rfl shape'
      cases mapped' with
      | false =>
        have leaves' : last.leaves = middle.leaves := shape'.leaves
        have present : (last.leaves.find TRAMPOLINE).isSome := by simp [leaves', leaves]
        refine (uvmunmap_top_returns solid' (by decide) present).bind ?_
        rintro ⟨unmapped, mem3⟩ unmap -
        obtain ⟨rfl, unmappedRefs, rfl⟩ := uvmunmap_top (by decide) unmap
        rw [← unmappedRefs] at sofar'
        have spans : ∀ vpn, ((last.leaves.erase TRAMPOLINE).find vpn).isSome ↔ vpn < 0 := by
          simp [leaves', leaves]
        exact (uvmfree_returns (good.keeps sofar') (solid'.erase _) (Nat.zero_le _) spans
          rfl).bind fun freed _ _ => .pure (by simp)
      | true =>
        refine .pure ?_
        rintro _ ⟨⟩
        refine Spans.laid_zero (fun vpn => ?_) solid'
        rw [shape'.leaves, if_pos rfl, find_insert, leaves]
        by_cases isTrapframe : vpn = TRAPFRAME
        · simp [isTrapframe]
        · obtain rfl | isTrampoline := eq_or_ne vpn TRAMPOLINE
          · simp [isTrapframe]
          · simp [isTrapframe, isTrampoline]

/-! ## Growing and shrinking -/

theorem Laid.tidy (laid : table.Laid pages) (good : Good layout ext mem table.refs)
    (wf : table.WellFormed) (low : pages ≤ TRAPFRAME) : table.Tidy layout ext mem pages :=
  ⟨laid, good, wf, low⟩

theorem pgRoundUp_eq (fits : sz ≤ TRAPFRAME * PGSIZE) : pgRoundUp sz = pagesBelow sz := by
  unfold pgRoundUp pagesBelow
  rw [Nat.mod_eq_of_lt]
  simp only [TRAPFRAME, MAXVPN, MAXVA, PGSIZE] at *
  omega

theorem pagesBelow_mul (pages : Nat) : pagesBelow (pages * PGSIZE) = pages := by
  unfold pagesBelow
  simp only [PGSIZE]
  omega

theorem pagesBelow_mono {sz sz' : Nat} (le : sz ≤ sz') : pagesBelow sz ≤ pagesBelow sz' :=
  Nat.div_le_div_right (Nat.add_le_add_right le _)

theorem Spans.unmapped (spans : table.Spans pages) (order : base ≤ pages) (low : pages ≤ TRAPFRAME)
    (shape : Unmapped base (pages - base) table table') :
    table'.Spans base := by
  have top : TRAPFRAME < TRAMPOLINE := by decide
  intro other
  rw [shape.find other]
  split_ifs with inside
  · simp only [isSome_none, Bool.false_eq_true, false_iff]
    omega
  · rw [spans other]
    omega

theorem Solid.unmapped (solid : table.Solid) (shape : Unmapped vpn npages table table') :
    table'.Solid := by
  intro other pte found
  have old := solid other pte (Unmapped.kept shape other pte found).1
  simpa [reaches, shape.mids, shape.lows] using old

theorem Laid.unmapped (laid : table.Laid pages) (order : base ≤ pages) (low : pages ≤ TRAPFRAME)
    (shape : Unmapped base (pages - base) table table') :
    table'.Laid base := by
  have kept := fun other pte found => (Unmapped.kept shape other pte found).1
  refine ⟨laid.spans.unmapped order low shape, laid.solid.unmapped shape, ?_⟩
  intro vpn other pte pte' below below' found found'
  exact laid.distinct vpn other pte pte' below below' (kept _ _ found) (kept _ _ found')

theorem uvmdealloc_returns (tidy : table.Tidy layout ext mem (pagesBelow oldsz))
    (fits : oldsz ≤ TRAPFRAME * PGSIZE) :
    Returns (fun (sz, rest, _) => rest.Laid (pagesBelow sz))
      (uvmdealloc layout oldsz newsz table mem) := by
  unfold uvmdealloc
  split_ifs with grows
  · exact .pure tidy.toLaid
  · rw [pgRoundUp_eq fits, pgRoundUp_eq (show newsz ≤ TRAPFRAME * PGSIZE by omega)]
    have order : pagesBelow newsz ≤ pagesBelow oldsz := pagesBelow_mono (by omega)
    have low := tidy.low
    have top : TRAPFRAME ≤ MAXVPN := by decide
    refine (uvmunmap_returns tidy.solid (by omega) (fun other above below => ?_)
      (fun _ => ⟨by omega, tidy.good⟩)).bind fun (rest, mem') unmapped _ => .pure ?_
    · exact (tidy.spans other).mpr (by omega)
    · exact tidy.toLaid.unmapped order low (uvmunmap_shape unmapped)

theorem uvmallocUndo_returns (tidy : table.Tidy layout ext mem vpn) (order : base ≤ vpn) :
    Returns (fun (done, rest, _) => done = false ∧ rest.Laid base)
      (uvmallocUndo layout base vpn table mem) := by
  have fits : vpn * PGSIZE ≤ TRAPFRAME * PGSIZE := Nat.mul_le_mul_right _ tidy.low
  have tidy' := tidy
  rw [← pagesBelow_mul vpn] at tidy'
  refine (uvmdealloc_returns tidy' fits).bind fun (sz, rest, mem') dealloc laid => .pure ⟨rfl, ?_⟩
  have size : pagesBelow sz = base := by
    unfold uvmdealloc at dealloc
    split_ifs at dealloc with grows
    · cases dealloc
      have := Nat.le_of_mul_le_mul_right grows (by decide)
      rw [pagesBelow_mul]
      omega
    · obtain ⟨⟨rest', mem''⟩, -, finished⟩ := ok_of_bind dealloc
      cases finished
      exact pagesBelow_mul base
  exact size ▸ laid

/-- An entry is set to one that maps a page not mapped so far, or the same. -/
theorem Distinct.insert (distinct : table.Distinct)
    (leaves : table'.leaves = table.leaves.insert vpn pte)
    (fresh : vpn < TRAPFRAME → ∀ other entry, other ≠ vpn → other < TRAPFRAME →
      table.leaves.find other = some entry → entry.frame ≠ pte.frame) : table'.Distinct := by
  intro first second entry entry' low low' found found' same
  rw [leaves, find_insert] at found found'
  by_cases isFirst : first = vpn
  · by_cases isSecond : second = vpn
    · omega
    · subst isFirst
      rw [update_self] at found
      rw [update_of_ne isSecond] at found'
      cases found
      exact (fresh low second entry' isSecond low' found' same.symm).elim
  · rw [update_of_ne isFirst] at found
    obtain rfl | isSecond := eq_or_ne second vpn
    · rw [update_self] at found'
      cases found'
      exact (fresh low' first entry isFirst low found same).elim
    · rw [update_of_ne isSecond] at found'
      exact distinct first second entry entry' low low' found found' same

theorem Laid.mapped (laid : table.Laid vpn) (below : vpn < TRAPFRAME)
    (readable : pte.perm.readable = true)
    (fresh : ∀ other entry, other < TRAPFRAME → table.leaves.find other = some entry →
      entry.frame ≠ pte.frame) (shape : Mapped vpn pte true table table' after) :
    table'.Laid (vpn + 1) :=
  ⟨laid.spans.mapped below shape, laid.solid.mapped readable shape,
    laid.distinct.insert shape.leaves fun _ other entry _ => fresh other entry⟩

theorem Laid.walked (laid : table.Laid pages) (shape : Mapped vpn pte false table table' after) :
    table'.Laid pages := by
  have leaves : table'.leaves = table.leaves := shape.leaves
  refine ⟨?_, fun other entry found => ?_, ?_⟩
  · rw [Spans, leaves]
    exact laid.spans
  · rw [leaves] at found
    obtain ⟨reaches, readable⟩ := laid.solid other entry found
    exact ⟨shape.reaches other reaches, readable⟩
  · rw [Distinct, leaves]
    exact laid.distinct

/-- The page that `kalloc` returns is not mapped yet. -/
theorem unmapped_of_kalloc {taken : Mem} (good : Good layout ext mem table.refs)
    (allocated : mem.kalloc = (some frame, taken)) (below : vpn < TRAPFRAME)
    (found : table.leaves.find vpn = some pte) : pte.frame ≠ frame := by
  rintro rfl
  have unused := (good.kalloc_unused allocated).2
  have held := one_le_refs found below
  omega

theorem uvmallocLoop_returns {perm : Perm} (memory : layout.last ≤ PHYSTOP)
    (readable : perm.readable = true) (tidy : table.Tidy layout ext mem vpn) (order : base ≤ vpn) :
    Returns (fun (done, rest, _) => rest.Laid (if done then vpn + npages else base))
      (uvmallocLoop layout perm base npages vpn table mem) := by
  induction npages generalizing vpn table mem with
  | zero => exact .pure tidy.toLaid
  | succ npages ih =>
    have below := tidy.below memory
    have top : TRAPFRAME < MAXVPN := by decide
    rw [uvmallocLoop]
    split
    case h_1 mem' refused =>
      have keeps := tidy.good.kalloc_none refused
      have tidy' := tidy.toLaid.tidy (tidy.good.keeps keeps) tidy.wellFormed tidy.low
      refine (uvmallocUndo_returns tidy' order).mono ?_
      rintro ⟨done, rest, mem''⟩ ⟨rfl, laid⟩
      exact laid
    case h_2 frame mem' allocated =>
      have first := tidy.good.kalloc_fill allocated 0
      refine (mappages_returns _ (below.trans top) (tidy.spans.missing le_rfl below)).bind ?_
      rintro ⟨mapped, mapTable, mapMem⟩ mapOutcome -
      have shape := mappages_shape mapOutcome
      have wf := (tidy.wellFormed.mapped below.le shape).1
      have second := first.trans ((tidy.good.keeps first).mappages_held
        (.made perm frame) tidy.wellFormed below.le mapOutcome)
      have good := tidy.good.keeps second
      cases mapped with
      | true =>
        have laid := tidy.toLaid.mapped below readable (fun other entry low found =>
          unmapped_of_kalloc tidy.good allocated low found) shape
        refine (ih (laid.tidy good wf below) (by omega)).mono ?_
        rintro ⟨done, rest, mem''⟩ result
        cases done with
        | true =>
          have same : vpn + 1 + npages = vpn + (npages + 1) := by omega
          exact same ▸ result
        | false => exact result
      | false =>
        have held : 1 ≤ (mapTable.refs + Pi.single frame 1 : Frame → ℤ) frame := by
          have := mapTable.refs_nonneg frame
          simp
          omega
        refine (kfree_returns good held).bind fun freed done _ => ?_
        have third := good.kfree held done
        simp only [Bool.false_eq_true, if_false, Pte.made_frame, add_sub_cancel_right] at third
        have tidy' := (tidy.toLaid.walked shape).tidy (good.keeps third) wf tidy.low
        refine (uvmallocUndo_returns tidy' order).mono ?_
        rintro ⟨done, rest, mem''⟩ ⟨rfl, laid⟩
        exact laid

/-- `uvmalloc` grows user memory to the size that it returns, or leaves it as it was. -/
theorem uvmalloc_returns {xperm : Perm} (memory : layout.last ≤ PHYSTOP)
    (tidy : table.Tidy layout ext mem (pagesBelow oldsz)) (fits : oldsz ≤ TRAPFRAME * PGSIZE) :
    Returns (fun (sz, rest, _) => rest.Laid (pagesBelow (if sz = 0 then oldsz else sz)))
      (uvmalloc layout oldsz newsz xperm table mem) := by
  unfold uvmalloc
  split_ifs with shrinks
  · have nonzero : oldsz ≠ 0 := by omega
    refine .pure ?_
    simp only [if_neg nonzero]
    exact tidy.toLaid
  · rw [pgRoundUp_eq fits]
    have order : pagesBelow oldsz ≤ pagesBelow newsz := pagesBelow_mono (by omega)
    refine (uvmallocLoop_returns memory rfl tidy le_rfl).bind fun (done, rest, mem') _ laid =>
      .pure ?_
    cases done with
    | false => exact laid
    | true =>
      simp only [if_true] at laid ⊢
      have pages : pagesBelow oldsz + (pagesBelow newsz - pagesBelow oldsz) =
          pagesBelow (if newsz = 0 then oldsz else newsz) := by
        split_ifs
        · obtain rfl : oldsz = newsz := by omega
          omega
        · omega
      exact pages ▸ laid

/-! ## Sharing -/

/-- A page whose references are held elsewhere. -/
theorem krefincr_returns (good : Good layout ext mem own) (held : 1 ≤ ext frame + own frame) :
    Returns (fun _ => True) (mem.krefincr layout frame) := by
  have managed : layout.Managed frame := good.covers.isManaged held
  unfold Mem.krefincr
  rw [if_neg (not_lt.mpr managed.2.le)]
  exact .pure trivial

theorem uvmcopyLoop_returns {old new : PageTable} (old_solid : old.Solid)
    (present : ∀ vpn < pages, (old.leaves.find vpn).isSome) (held : old.HeldBy ext)
    (low : vpn + npages ≤ pages) (top : pages ≤ TRAPFRAME)
    (good : Good layout ext mem new.refs) (wf : new.WellFormed) (solid : new.Solid)
    (spans : new.Spans vpn) :
    Returns (fun (copied, rest, _) => rest.Solid ∧ rest.Spans (if copied then vpn + npages else 0))
      (uvmcopyLoop layout old npages vpn new mem) := by
  induction npages generalizing vpn new mem with
  | zero => exact .pure ⟨solid, spans⟩
  | succ npages ih =>
    have maxvpn : TRAPFRAME < MAXVPN := by decide
    have below : vpn < TRAPFRAME := by omega
    obtain ⟨pte, found⟩ := isSome_iff_exists.mp (present vpn (by omega))
    obtain ⟨reached, readable⟩ := old_solid vpn pte found
    rw [uvmcopyLoop, if_neg (by omega), if_neg (not_not.mpr reached)]
    simp only [found]
    have elsewhere := held vpn pte below found
    have nonneg := good.own_nonneg pte.frame
    refine (krefincr_returns good (by omega)).bind fun counted incr _ => ?_
    have first := good.krefincr (good.used_of_heldBy held below found) incr
    refine (mappages_returns _ (below.trans maxvpn) (spans.missing le_rfl below)).bind ?_
    rintro ⟨mapped, mapTable, mapMem⟩ mapOutcome -
    have shape := mappages_shape mapOutcome
    have wf' := (wf.mapped below.le shape).1
    have second := first.trans ((good.keeps first).mappages_held pte.shared wf
      below.le mapOutcome)
    have good' := good.keeps second
    have solid' := solid.mapped (show pte.shared.perm.readable = true from readable) shape
    cases mapped with
    | true =>
      refine (ih (by omega) good' wf' solid' (spans.mapped below shape)).mono ?_
      rintro ⟨copied, rest, mem'⟩ ⟨restSolid, restSpans⟩
      refine ⟨restSolid, ?_⟩
      cases copied with
      | true =>
        have same : vpn + 1 + npages = vpn + (npages + 1) := by omega
        exact same ▸ restSpans
      | false => exact restSpans
    | false =>
      have leaves : mapTable.leaves = new.leaves := shape.leaves
      have part := good'.part mapTable.refs_nonneg (single_nonneg pte.frame)
      refine (uvmunmap_returns solid' (by omega) (fun other _ inside => ?_)
        (fun _ => ⟨by omega, part⟩)).bind fun _ unmapped _ => .pure ?_
      · rw [leaves]
        exact (spans other).mpr (by omega)
      · have spans' : mapTable.Spans vpn := by
          rw [Spans, leaves]
          exact spans
        have undone := uvmunmap_shape unmapped
        exact ⟨solid'.unmapped undone, spans'.unmapped (Nat.zero_le _) below.le undone⟩

theorem uvmcopyLoop_distinct {old new new' : PageTable} (distinct : old.Distinct)
    (vacant : new.Vacant)
    (done : uvmcopyLoop layout old npages 0 new mem = .ok (true, new', after)) :
    new'.Distinct := by
  have source : ∀ vpn pte, vpn < TRAPFRAME → new'.leaves.find vpn = some pte →
      ∃ pte', old.leaves.find vpn = some pte' ∧ pte'.frame = pte.frame := by
    intro vpn pte below found
    rw [uvmcopyLoop_find done vpn] at found
    split_ifs at found
    · obtain ⟨pte', found', rfl⟩ := map_eq_some_iff.mp found
      exact ⟨pte', found', rfl⟩
    · rw [vacant vpn below] at found
      cases found
  intro vpn other pte pte' below below' found found' same
  obtain ⟨first, foundFirst, firstFrame⟩ := source vpn pte below found
  obtain ⟨second, foundSecond, secondFrame⟩ := source other pte' below' found'
  exact distinct vpn other first second below below' foundFirst foundSecond
    (firstFrame.trans (same.trans secondFrame.symm))

/-! ## Copy-on-write -/

/-- An entry is replaced by one that maps a page not mapped so far, or the same. -/
theorem Laid.replaced {pte pte' : Pte} (laid : table.Laid pages)
    (found : table.leaves.find vpn = some pte) (readable : pte'.perm.readable = true)
    (fresh : vpn < TRAPFRAME → ∀ other entry, other ≠ vpn → other < TRAPFRAME →
      table.leaves.find other = some entry → entry.frame ≠ pte'.frame) :
    ({ table with leaves := table.leaves.insert vpn pte' } : PageTable).Laid pages := by
  refine ⟨fun other => ?_, fun other entry here => ?_, laid.distinct.insert rfl fresh⟩
  · rw [← laid.spans other, find_insert]
    obtain rfl | same := eq_or_ne other vpn
    · simp [found]
    · rw [update_of_ne same]
  · obtain rfl | same := eq_or_ne other vpn
    · obtain rfl : pte' = entry := by simpa using here
      exact ⟨(laid.solid other pte found).1, readable⟩
    · exact laid.solid other entry (by simpa [same] using here)

theorem cowalloc_returns {va : Nat} (good : Good layout ext mem table.refs)
    (wf : table.WellFormed) (laid : table.Laid pages) :
    Returns (fun (_, rest, _) => rest.Laid pages) (table.cowalloc layout va mem) := by
  refine (good.cowalloc_returns wf va).strengthen fun (allowed, rest, mem') done _ => ?_
  cases cowalloc_outcome done with
  | refused | noMemory | plain => exact laid
  | resolved accepted _ allocated =>
    exact laid.replaced accepted.find rfl fun _ other entry _ low here =>
      unmapped_of_kalloc good allocated low here

theorem copyoutPage_returns {dstva : Nat} {src : List UInt8} (good : Good layout ext mem table.refs)
    (wf : table.WellFormed) (laid : table.Laid pages) :
    Returns (fun (_, rest, _) => rest.Laid pages) (table.copyoutPage layout dstva src mem) := by
  unfold copyoutPage
  split_ifs
  · exact .pure laid
  · refine (cowalloc_returns good wf laid).bind fun (allowed, rest, mem') _ laid' => ?_
    simp only
    split_ifs
    · split
      · exact .pure laid'
      · exact .pure laid'
    · exact .pure laid'

end PageTable

end Xv6.Vm
