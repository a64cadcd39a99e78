import Xv6.Vm.AddressSpace
import Xv6.Vm.Supply

/-!
# Giving up when memory runs out

`uvmalloc` and `uvmcopy` of `kernel/vm.c` stop at the first page they find no memory for and undo
what they did.  `uvmalloc` leaves nothing behind but page-table pages.  `uvmcopy` counts a
reference to the page it stops at before it knows that it can map it, and does not give it back.
-/

namespace Xv6.Vm

open Transition PageTable Mem

variable {layout : Layout} {ext own : Frame → ℤ} {mem after last : Mem}
variable {frame : Frame} {table table' : PageTable} {vpn npages pages : Nat}

/-! ## No page is lost -/

/-- The pages that are free or counted are the same. -/
def Retains (mem after : Mem) : Prop :=
  ∀ frame, after.pool.Tracked frame ↔ mem.pool.Tracked frame

namespace Retains

theorem refl (mem : Mem) : Retains mem mem := fun _ => .rfl

theorem trans (first : Retains mem after) (second : Retains after last) : Retains mem last :=
  fun frame => (second frame).trans (first frame)

theorem of_pool (pool : after.pool = mem.pool) : Retains mem after := by
  intro frame
  rw [pool]

theorem kalloc_none (refused : mem.kalloc = (none, after)) : Retains mem after := by
  rw [Mem.kalloc_none refused]
  exact of_pool rfl

theorem kalloc_fill (allocated : mem.kalloc = (some frame, after)) (contents : Page) :
    Retains mem (after.fill frame contents) := by
  obtain ⟨rest, freelist, rfl⟩ := kalloc_some allocated
  exact RefCount.Pool.tracked_take (show mem.pool.free = frame :: rest from freelist)

theorem kfree (freed : mem.kfree layout frame = .ok after) : Retains mem after := by
  obtain ⟨-, ⟨shared, rfl⟩ | ⟨single, rfl⟩⟩ := kfree_ok freed
  · exact RefCount.Pool.tracked_update (show 1 ≤ mem.pool.count frame from shared.le)
      (show 1 ≤ mem.count frame + -1 by omega)
  · exact RefCount.Pool.tracked_release (show 1 ≤ mem.pool.count frame from single.ge)

theorem walkLevel {nodes nodes' : FinMap Nat Frame} {index : Nat}
    (done : PageTable.walkLevel nodes index mem = (some nodes', after)) : Retains mem after := by
  obtain ⟨-, -, rfl⟩ | ⟨frame, taken, -, allocated, -, rfl⟩ := walkLevel_some done
  · exact refl _
  · exact kalloc_fill allocated 0

theorem walk {found : Bool} (done : table.walk vpn mem = (found, table', after)) :
    Retains mem after := by
  cases walk_outcome done with
  | noMid refused => exact kalloc_none refused
  | noLow mid refused => exact (walkLevel mid).trans (kalloc_none refused)
  | found mid low => exact (walkLevel mid).trans (walkLevel low)

theorem mappages {pte : Pte} {mapped : Bool}
    (done : table.mappages vpn pte mem = .ok (mapped, table', after)) : Retains mem after := by
  obtain ⟨-, walked, walked', -⟩ := mappages_ok done
  exact walk walked'

theorem uvmunmap {doFree : Bool}
    (done : PageTable.uvmunmap layout doFree npages vpn table mem = .ok (table', after)) :
    Retains mem after := by
  induction npages generalizing vpn table mem with
  | zero =>
    cases done
    exact refl _
  | succ npages ih =>
    obtain ⟨pte, freed, -, -, free, rest⟩ := uvmunmap_succ done
    cases doFree with
    | false =>
      cases free
      exact ih rest
    | true => exact (kfree free).trans (ih rest)

variable {oldsz newsz sz : Nat}

theorem uvmdealloc
    (done : PageTable.uvmdealloc layout oldsz newsz table mem = .ok (sz, table', after)) :
    Retains mem after := by
  unfold PageTable.uvmdealloc at done
  split_ifs at done
  · cases done
    exact refl _
  · obtain ⟨⟨rest, mem'⟩, unmapped, finished⟩ := ok_of_bind done
    cases finished
    exact uvmunmap unmapped

theorem uvmallocUndo {base : Nat} {done : Bool}
    (outcome : PageTable.uvmallocUndo layout base vpn table mem = .ok (done, table', after)) :
    Retains mem after := by
  obtain ⟨_, dealloc, finished⟩ := ok_of_bind outcome
  cases finished
  exact uvmdealloc dealloc

theorem uvmallocLoop {perm : Perm} {base : Nat} {done : Bool}
    (outcome : PageTable.uvmallocLoop layout perm base npages vpn table mem =
      .ok (done, table', after)) : Retains mem after := by
  induction npages generalizing vpn table mem with
  | zero =>
    cases outcome
    exact refl _
  | succ npages ih =>
    rw [PageTable.uvmallocLoop] at outcome
    split at outcome
    case h_1 refused => exact (kalloc_none refused).trans (uvmallocUndo outcome)
    case h_2 frame mem' allocated =>
      obtain ⟨⟨mapped, mapTable, mapMem⟩, mapOutcome, rest⟩ := ok_of_bind outcome
      have first := (kalloc_fill allocated 0).trans (mappages mapOutcome)
      cases mapped with
      | true => exact first.trans (ih rest)
      | false =>
        obtain ⟨freedMem, freed, undo⟩ := ok_of_bind rest
        exact (first.trans (kfree freed)).trans (uvmallocUndo undo)

theorem uvmalloc {xperm : Perm}
    (outcome : PageTable.uvmalloc layout oldsz newsz xperm table mem = .ok (sz, table', after)) :
    Retains mem after := by
  unfold PageTable.uvmalloc at outcome
  split_ifs at outcome
  · cases outcome
    exact refl _
  · obtain ⟨⟨done, rest, mem'⟩, loop, finished⟩ := ok_of_bind outcome
    cases finished
    exact uvmallocLoop loop

end Retains

/-! ## Nothing but free pages is touched -/

/-- Every page outside a set keeps its counter and its contents, and no such page becomes free. -/
structure Confined (drawn : List Frame) (mem after : Mem) : Prop where
  free : after.freelist ⊆ drawn
  outside : ∀ frame, frame ∉ drawn →
    after.page frame = mem.page frame ∧ after.count frame = mem.count frame

namespace Confined

variable {drawn : List Frame}

theorem refl (free : mem.freelist ⊆ drawn) : Confined drawn mem mem :=
  ⟨free, fun _ _ => ⟨rfl, rfl⟩⟩

theorem trans (first : Confined drawn mem after) (second : Confined drawn after last) :
    Confined drawn mem last where
  free := second.free
  outside := fun frame out =>
    ⟨(second.outside frame out).1.trans (first.outside frame out).1,
      (second.outside frame out).2.trans (first.outside frame out).2⟩

section

variable (free : mem.freelist ⊆ drawn)
include free

theorem kalloc_none (refused : mem.kalloc = (none, after)) : Confined drawn mem after := by
  rw [Mem.kalloc_none refused]
  exact ⟨free, fun _ _ => ⟨rfl, rfl⟩⟩

theorem kalloc_fill (allocated : mem.kalloc = (some frame, after)) (contents : Page) :
    Confined drawn mem (after.fill frame contents) := by
  have here := free (kalloc_mem allocated)
  obtain ⟨rest, freelist, rfl⟩ := kalloc_some allocated
  refine ⟨fun other member => free (freelist ▸ List.mem_cons_of_mem _ member), ?_⟩
  intro other out
  have ne : other ≠ frame := fun same => out (same ▸ here)
  simp [ne]

theorem kfree (here : frame ∈ drawn) (freed : mem.kfree layout frame = .ok after) :
    Confined drawn mem after := by
  obtain ⟨-, ⟨-, rfl⟩ | ⟨-, rfl⟩⟩ := kfree_ok freed
  · refine ⟨free, fun other out => ?_⟩
    have ne : other ≠ frame := fun same => out (same ▸ here)
    simp [ne]
  · refine ⟨List.cons_subset.mpr ⟨here, free⟩, fun other out => ?_⟩
    have ne : other ≠ frame := fun same => out (same ▸ here)
    simp [ne]

theorem walkLevel {nodes nodes' : FinMap Nat Frame} {index : Nat}
    (done : PageTable.walkLevel nodes index mem = (some nodes', after)) :
    Confined drawn mem after := by
  obtain ⟨-, -, rfl⟩ | ⟨frame, taken, -, allocated, -, rfl⟩ := walkLevel_some done
  · exact refl free
  · exact kalloc_fill free allocated 0

theorem mappages {pte : Pte} {mapped : Bool}
    (done : table.mappages vpn pte mem = .ok (mapped, table', after)) :
    Confined drawn mem after := by
  obtain ⟨-, walked, walk, -⟩ := mappages_ok done
  cases walk_outcome walk with
  | noMid refused => exact kalloc_none free refused
  | noLow mid refused =>
    have first := walkLevel free mid
    exact first.trans (kalloc_none first.free refused)
  | found mid low =>
    have first := walkLevel free mid
    exact first.trans (walkLevel first.free low)

/-- Unmapping pages that lie in the set. -/
theorem uvmunmap (inside : ∀ other pte, vpn ≤ other → other < vpn + npages →
      table.leaves.find other = some pte → pte.frame ∈ drawn)
    (done : PageTable.uvmunmap layout true npages vpn table mem = .ok (table', after)) :
    Confined drawn mem after := by
  induction npages generalizing vpn table mem with
  | zero =>
    cases done
    exact refl free
  | succ npages ih =>
    obtain ⟨pte, freed, -, found, kfreed, rest⟩ := uvmunmap_succ done
    have first : Confined drawn mem freed :=
      kfree free (inside vpn pte le_rfl (by omega) found) kfreed
    refine first.trans (ih first.free (fun other entry low high foundOther => ?_) rest)
    have ne : other ≠ vpn := by omega
    exact inside other entry (by omega) (by omega) (by simpa [ne] using foundOther)

theorem uvmallocUndo {base : Nat} {done : Bool} (order : base ≤ vpn) (low : vpn ≤ TRAPFRAME)
    (inside : ∀ other pte, base ≤ other → other < vpn →
      table.leaves.find other = some pte → pte.frame ∈ drawn)
    (outcome : PageTable.uvmallocUndo layout base vpn table mem = .ok (done, table', after)) :
    Confined drawn mem after := by
  obtain ⟨⟨sz, rest, mem'⟩, dealloc, finished⟩ := ok_of_bind outcome
  cases finished
  unfold PageTable.uvmdealloc at dealloc
  split_ifs at dealloc
  · cases dealloc
    exact refl free
  · obtain ⟨⟨rest', mem''⟩, unmapped, finished⟩ := ok_of_bind dealloc
    cases finished
    rw [pgRoundUp_mul low, pgRoundUp_mul (order.trans low)] at unmapped
    exact uvmunmap free (fun other pte above below found =>
      inside other pte above (by omega) found) unmapped

end

/-- `uvmalloc` touches free pages only: the pages it adds are free ones, and it removes no
others. -/
theorem uvmallocLoop {perm : Perm} {base : Nat} {done : Bool} (wf : table.WellFormed)
    (order : base ≤ vpn) (low : vpn ≤ TRAPFRAME) (free : mem.freelist ⊆ drawn)
    (inside : ∀ other pte, base ≤ other → other < vpn →
      table.leaves.find other = some pte → pte.frame ∈ drawn)
    (outcome : PageTable.uvmallocLoop layout perm base npages vpn table mem =
      .ok (done, table', after)) : Confined drawn mem after := by
  induction npages generalizing vpn table mem with
  | zero =>
    cases outcome
    exact refl free
  | succ npages ih =>
    rw [PageTable.uvmallocLoop] at outcome
    split at outcome
    case h_1 refused =>
      have first := kalloc_none free refused
      exact first.trans (uvmallocUndo first.free order low inside outcome)
    case h_2 frame mem' allocated =>
      obtain ⟨⟨mapped, mapTable, mapMem⟩, mapOutcome, rest⟩ := ok_of_bind outcome
      have shape := mappages_shape mapOutcome
      obtain ⟨wf', below⟩ := wf.mapped low shape
      have here := free (kalloc_mem allocated)
      have taken := kalloc_fill free allocated 0
      have first := taken.trans (mappages taken.free mapOutcome)
      cases mapped with
      | true =>
        have leaves : mapTable.leaves = table.leaves.insert vpn (.made perm frame) :=
          shape.leaves
        refine first.trans (ih wf' (by omega) (below rfl) first.free
          (fun other pte above under found => ?_) rest)
        rw [leaves] at found
        obtain rfl | same := eq_or_ne other vpn
        · obtain rfl : pte = .made perm frame := by simpa using found.symm
          exact here
        · exact inside other pte above (by omega) (by simpa [same] using found)
      | false =>
        have leaves : mapTable.leaves = table.leaves := shape.leaves
        obtain ⟨freedMem, freed, undo⟩ := ok_of_bind rest
        have second := first.trans (kfree first.free here freed)
        exact second.trans (uvmallocUndo second.free order low (leaves ▸ inside) undo)

end Confined

/-! ## `uvmalloc` -/

/-- A page that the leaf entries for user memory refer to is mapped. -/
theorem exists_leaf {leaves : FinMap Nat Pte} (held : 1 ≤ leafRefs leaves frame) :
    ∃ vpn pte, vpn < TRAPFRAME ∧ leaves.find vpn = some pte ∧ pte.frame = frame := by
  have positive : 0 < leaves.count fun vpn pte => vpn < TRAPFRAME ∧ pte.frame = frame := by
    simp only [leafRefs] at held
    omega
  obtain ⟨vpn, -, passes⟩ := List.countP_pos_iff.mp positive
  obtain ⟨pte, found, test⟩ := (Option.any_eq_true _ _).mp passes
  exact ⟨vpn, pte, (of_decide_eq_true test).1, found, (of_decide_eq_true test).2⟩

namespace PageTable

/-- No page that the entries refer to is free. -/
theorem Tidy.not_free (tidy : table.Tidy layout ext mem pages) {pte : Pte}
    (below : vpn < TRAPFRAME) (found : table.leaves.find vpn = some pte) :
    pte.frame ∉ mem.freelist := by
  intro free
  have idle := tidy.good.covers.idle (show pte.frame ∈ mem.pool.free from free)
  have held := one_le_refs found below
  have nonneg := tidy.good.ext_nonneg pte.frame
  simp only [Pi.add_apply] at idle
  omega

/-- The entries and the pages are as before.  What was free is free again, except for pages that
the table now uses as page-table pages. -/
structure Restored (table : PageTable) (mem : Mem) (table' : PageTable) (after : Mem) : Prop where
  leaves : ∀ vpn, table'.leaves.find vpn = table.leaves.find vpn
  contents : ∀ vpn pte, vpn < TRAPFRAME → table.leaves.find vpn = some pte →
    after.page pte.frame = mem.page pte.frame
  others : ∀ frame, frame ∉ mem.freelist → after.page frame = mem.page frame
  returned : ∀ frame ∈ mem.freelist, frame ∈ after.freelist ∨ frame ∈ table'.nodes

/-- Zeroed pages have been added, from page `first` up to `last`, each in a page of its own that
was free. -/
structure Extended (perm : Perm) (first last : Nat) (table : PageTable) (mem : Mem)
    (table' : PageTable) (after : Mem) : Prop where
  missing : ∀ vpn, first ≤ vpn → vpn < last → table.leaves.find vpn = none
  added : ∀ vpn, first ≤ vpn → vpn < last → ∃ frame ∈ mem.freelist,
    table'.leaves.find vpn = some (.made perm frame) ∧ after.page frame = 0
  distinct : ∀ vpn other pte pte', first ≤ vpn → vpn < last → first ≤ other → other < last →
    table'.leaves.find vpn = some pte → table'.leaves.find other = some pte' →
    pte.frame = pte'.frame → vpn = other
  leaves : ∀ vpn, ¬ (first ≤ vpn ∧ vpn < last) →
    table'.leaves.find vpn = table.leaves.find vpn
  contents : ∀ vpn pte, vpn < TRAPFRAME → table.leaves.find vpn = some pte →
    after.page pte.frame = mem.page pte.frame
  others : ∀ frame, frame ∉ mem.freelist → after.page frame = mem.page frame

theorem Tidy.fits {sz : Nat} (tidy : table.Tidy layout ext mem (pagesBelow sz)) :
    sz ≤ TRAPFRAME * PGSIZE :=
  (le_pagesBelow_mul sz).trans (Nat.mul_le_mul_right _ tidy.low)

section

variable (tidy : table.Tidy layout ext mem pages)
include tidy

/-- A free page that a table did not refer to and that no entry refers to now is free or a
page-table page. -/
theorem Tidy.returned (keeps : Keeps layout ext mem table.refs after table'.refs)
    (retains : Retains mem after) (leaves : ∀ vpn, table'.leaves.find vpn = table.leaves.find vpn)
    (free : frame ∈ mem.freelist) : frame ∈ after.freelist ∨ frame ∈ table'.nodes := by
  have idle := (tidy.good.covers.sound.idle frame free).1
  have slack := keeps.pool.slack frame
  have bound := tidy.good.covers.idle (show frame ∈ mem.pool.free from free)
  have extNonneg := tidy.good.ext_nonneg frame
  have refsNonneg := table.refs_nonneg frame
  have unmapped : ¬ 1 ≤ leafRefs table'.leaves frame := by
    intro held
    obtain ⟨vpn, pte, below, found, rfl⟩ := exists_leaf held
    exact tidy.not_free below (leaves vpn ▸ found) free
  have leafNonneg := leafRefs_nonneg table'.leaves frame
  have nodesNonneg := table'.nodesRefs_nonneg frame
  have split : table'.refs frame = table'.nodesRefs frame + leafRefs table'.leaves frame := rfl
  simp only [Pi.add_apply] at slack bound
  by_cases isNode : 1 ≤ table'.nodesRefs frame
  · rw [← table'.listRefs_nodes] at isNode
    exact .inr (List.count_pos_iff.mp (by simp only [listRefs] at isNode; omega))
  · exact .inl (((retains frame).mpr (.inl free)).free (by omega))

/-- What a loop of `uvmalloc` that gives up leaves behind. -/
theorem Tidy.restored {perm : Perm}
    (loop : uvmallocLoop layout perm pages npages pages table mem = .ok (false, table', after)) :
    table.Restored mem table' after := by
  have confined := Confined.uvmallocLoop tidy.wellFormed le_rfl tidy.low (List.Subset.refl _)
    (fun _ _ _ _ => by omega) loop
  have leaves : ∀ vpn, table'.leaves.find vpn = table.leaves.find vpn := by
    intro vpn
    rw [uvmallocLoop_undone tidy.wellFormed le_rfl tidy.low loop, if_neg (by omega)]
  have keeps := (tidy.good.uvmallocLoop tidy.wellFormed tidy.low loop).1
  exact ⟨leaves, fun vpn pte below found => (confined.outside _ (tidy.not_free below found)).1,
    fun frame out => (confined.outside frame out).1,
    fun frame free => tidy.returned keeps (.uvmallocLoop loop) leaves free⟩

/-- What a loop of `uvmalloc` that does not give up leaves behind. -/
theorem Tidy.extended {perm : Perm}
    (loop : uvmallocLoop layout perm pages npages pages table mem = .ok (true, table', after)) :
    table.Extended perm pages (pages + npages) mem table' after := by
  have confined := Confined.uvmallocLoop tidy.wellFormed le_rfl tidy.low (List.Subset.refl _)
    (fun _ _ _ _ => by omega) loop
  have grown := uvmallocLoop_grown loop
  obtain ⟨keeps, -, top, -⟩ := tidy.good.uvmallocLoop tidy.wellFormed tidy.low loop
  have inside := top rfl
  refine ⟨fun vpn above below => tidy.spans.missing above (by omega), fun vpn above below => ?_,
    ?_, grown.outside, fun vpn pte below found =>
      (confined.outside _ (tidy.not_free below found)).1,
    fun frame out => (confined.outside frame out).1⟩
  · obtain ⟨frame, free, found, -, zeroed⟩ := grown.inside vpn above below
    exact ⟨frame, free, found, zeroed⟩
  · intro vpn other pte pte' above below above' below' found found' same
    by_contra ne
    obtain ⟨frame, -, isMade, single, -⟩ := grown.inside vpn above below
    obtain rfl : pte = .made perm frame := by simpa [found] using isMade
    have twice := two_le_leafRefs ne found (by omega) found' (by omega) same.symm
    have counted := (tidy.good.keeps keeps).le_count frame
    have extNonneg := tidy.good.ext_nonneg frame
    have nodesNonneg := table'.nodesRefs_nonneg frame
    have split : table'.refs frame = table'.nodesRefs frame + leafRefs table'.leaves frame := rfl
    simp only [Pte.made_frame] at twice
    omega

end

/-- How `uvmalloc` can end: it returns 0 and leaves the pages as they were, or it returns the
larger size and has added the pages up to it. -/
structure AllOrNothing (xperm : Perm) (oldsz newsz : Nat) (table : PageTable) (mem : Mem) (sz : Nat)
    (table' : PageTable) (after : Mem) : Prop where
  failed : sz = 0 → newsz ≠ 0 → table.Restored mem table' after
  succeeded : sz ≠ 0 ∨ newsz = 0 → sz = max oldsz newsz ∧
    table.Extended xperm.forUser (pagesBelow oldsz) (pagesBelow newsz) mem table' after

/-- `uvmalloc` returns, and either all pages have been added or none. -/
theorem uvmalloc_all_or_nothing (memory : layout.last ≤ PHYSTOP) {oldsz : Nat}
    (tidy : table.Tidy layout ext mem (pagesBelow oldsz)) (newsz : Nat) (xperm : Perm) :
    Returns (fun (sz, table', after) => table.AllOrNothing xperm oldsz newsz mem sz table' after)
      (uvmalloc layout oldsz newsz xperm table mem) := by
  refine (uvmalloc_returns memory tidy tidy.fits).strengthen ?_
  rintro ⟨sz, table', after⟩ outcome -
  unfold uvmalloc at outcome
  split_ifs at outcome with shrinks
  · -- A smaller size leaves everything as it is.
    cases outcome
    have empty : pagesBelow newsz ≤ pagesBelow oldsz := pagesBelow_mono shrinks.le
    refine ⟨fun none => by omega, fun _ => ⟨by omega, ?_⟩⟩
    exact ⟨fun _ _ _ => by omega, fun _ _ _ => by omega, fun _ _ _ _ _ _ _ _ => by omega,
      fun _ _ => rfl, fun _ _ _ _ => rfl, fun _ _ => rfl⟩
  · obtain ⟨⟨done, rest, mem'⟩, loop, finished⟩ := ok_of_bind outcome
    cases finished
    have order : pagesBelow oldsz ≤ pagesBelow newsz := pagesBelow_mono (not_lt.mp shrinks)
    rw [pgRoundUp_eq tidy.fits] at loop
    cases done with
    | false =>
      refine ⟨fun _ _ => tidy.restored loop, fun noFailure => ?_⟩
      -- With nothing to add there is no turn that could fail.
      obtain rfl : newsz = 0 := by simpa using noFailure
      rw [Nat.sub_eq_zero_of_le (show pagesBelow 0 ≤ _ from Nat.zero_le _)] at loop
      cases loop
    | true =>
      have extended := tidy.extended loop
      rw [Nat.add_sub_cancel' order] at extended
      refine ⟨fun none nonzero => absurd none nonzero, fun _ => ⟨?_, extended⟩⟩
      simp only [if_true]
      omega

/-- A process of one page that asks for three more and gets one. -/
theorem uvmalloc_all_or_nothing_refused :
    ∃ system space, Run (Step smallMachine) (System.boot smallMachine)
        [{ op := .userinit 0 [0x17, 0x05] }] system ∧ system.space 0 = some space ∧
      Returns (fun (sz, table', after) =>
          space.table.AllOrNothing { writable := true } space.sz 16384
            (system.withFails [false, true]).mem sz table' after)
        (uvmalloc smallMachine space.sz 16384 { writable := true } space.table
          (system.withFails [false, true]).mem) := by
  obtain ⟨system, space, run, occupied, safe, wellFormed, laid, -⟩ :=
    System.first_process (P := fun _ _ => True) (by decide +kernel)
  have part := ((safe.withFails [false, true]).occupiedPart occupied).tablePart
  exact ⟨system, space, run, occupied, uvmalloc_all_or_nothing (by decide)
    (Laid.tidy laid part wellFormed.table (pagesBelow_le wellFormed.fits)) _ _⟩

/-! ## `uvmcopy` -/

/-- Unmapping takes one from the counter of a page for each entry that it removes. -/
theorem uvmunmap_count (low : vpn + npages ≤ TRAPFRAME)
    (done : uvmunmap layout true npages vpn table mem = .ok (table', after)) (frame : Frame) :
    after.count frame - leafRefs table'.leaves frame =
      mem.count frame - leafRefs table.leaves frame := by
  induction npages generalizing vpn table mem with
  | zero =>
    cases done
    rfl
  | succ npages ih =>
    obtain ⟨pte, freed, -, found, kfreed, rest⟩ := uvmunmap_succ done
    have below : vpn < TRAPFRAME := by omega
    rw [ih (by omega) rest, leafRefs_erase found, leafRef_user below]
    have count : freed.count = Function.update mem.count pte.frame (mem.count pte.frame + -1) := by
      obtain ⟨-, ⟨-, rfl⟩ | ⟨-, rfl⟩⟩ := kfree_ok kfreed
      · rfl
      · rfl
    rw [count]
    obtain rfl | same := eq_or_ne frame pte.frame
    · simp
      omega
    · simp [same]

/-- A loop of `uvmcopy` that gives up leaves one more reference than entries, to a page of the
parent. -/
theorem uvmcopyLoop_failed {old new new' : PageTable} (low : vpn + npages ≤ TRAPFRAME)
    (done : uvmcopyLoop layout old npages vpn new mem = .ok (false, new', after)) :
    ∃ other pte, other < TRAPFRAME ∧ old.leaves.find other = some pte ∧
      ∀ frame, 0 < mem.count frame → after.count frame - leafRefs new'.leaves frame =
        mem.count frame - leafRefs new.leaves frame +
          (Pi.single pte.frame 1 : Frame → ℤ) frame := by
  induction npages generalizing vpn new mem with
  | zero => cases done
  | succ npages ih =>
    obtain ⟨pte, counted, mapped, mapTable, mapMem, found, incr, mapOutcome, turn⟩ :=
      uvmcopyLoop_succ done
    have below : vpn < TRAPFRAME := by omega
    have count : ∀ frame, counted.count frame =
        mem.count frame + (Pi.single pte.frame 1 : Frame → ℤ) frame := by
      unfold krefincr at incr
      split_ifs at incr
      cases incr
      intro frame
      obtain rfl | same := eq_or_ne frame pte.frame
      · simp
      · simp [same]
    have used : ∀ frame, 0 < mem.count frame → mapMem.count frame = counted.count frame := by
      intro frame positive
      refine ((Allocates.mappages mapOutcome).used frame ?_).1
      have := count frame
      have := single_nonneg pte.frame frame
      omega
    have shape := mappages_shape mapOutcome
    obtain ⟨rfl, rest⟩ | ⟨rfl, -, unmapped⟩ := turn
    · obtain ⟨other, entry, otherBelow, otherFound, ends⟩ := ih (by omega) rest
      refine ⟨other, entry, otherBelow, otherFound, fun frame positive => ?_⟩
      have leaves : mapTable.leaves = new.leaves.insert vpn pte.shared := shape.leaves
      have refs : leafRefs mapTable.leaves frame =
          leafRefs new.leaves frame + (Pi.single pte.frame 1 : Frame → ℤ) frame := by
        rw [leaves, leafRefs_insert_new (shape.missing rfl), leafRef_user below]
        rfl
      have single := single_nonneg pte.frame frame
      have first := used frame positive
      have second := count frame
      rw [ends frame (by omega)]
      omega
    · refine ⟨vpn, pte, below, found, fun frame positive => ?_⟩
      have leaves : mapTable.leaves = new.leaves := shape.leaves
      have removed := uvmunmap_count (by omega) unmapped frame
      have first := used frame positive
      have second := count frame
      rw [leaves] at removed
      omega

/-- The parent's counters and the pages of the child are as before when `uvmcopy` fails.  It does
not write to the parent's page table at all. -/
def CopyAtomic (layout : Layout) (old new : PageTable) (sz : Nat) (mem : Mem) : Prop :=
  ∀ new' after, uvmcopy layout old new sz mem = .ok (false, new', after) →
    (∀ vpn pte, vpn < TRAPFRAME → old.leaves.find vpn = some pte →
      after.count pte.frame = mem.count pte.frame) ∧
    ∀ vpn < pagesBelow sz, (new'.leaves.find vpn).isSome = (new.leaves.find vpn).isSome

theorem Vacant.leafRefs (vacant : table.Vacant) (frame : Frame) :
    leafRefs table.leaves frame = 0 := by
  have nonneg := leafRefs_nonneg table.leaves frame
  have none : ¬ 1 ≤ Xv6.Vm.leafRefs table.leaves frame := by
    intro held
    obtain ⟨vpn, pte, below, found, -⟩ := exists_leaf held
    rw [vacant vpn below] at found
    cases found
  omega

/-- `uvmcopy` is atomic exactly when it does not fail: the memory serves the page-table pages that
the child lacks. -/
theorem uvmcopy_atomic_iff {old new : PageTable} {sz : Nat} (parent : old.Laid (pagesBelow sz))
    (held : old.HeldBy ext) (low : pagesBelow sz ≤ TRAPFRAME) (child : new.Tidy layout ext mem 0) :
    CopyAtomic layout old new sz mem ↔ new.needs 0 (pagesBelow sz) ≤ mem.supply := by
  have range : 0 + pagesBelow sz ≤ TRAPFRAME := by omega
  constructor
  · intro atomic
    obtain ⟨⟨copied, new', after⟩, outcome, -, spans⟩ := uvmcopyLoop_returns parent.solid
      (fun vpn below => (parent.spans vpn).mpr (.inl below)) held (Nat.zero_add _).le low child.good
      child.wellFormed child.solid child.spans
    rw [← child.good.uvmcopyLoop_copied child.wellFormed held range outcome]
    by_contra stopped
    obtain rfl : copied = false := by simpa using stopped
    obtain ⟨other, pte, below, found, ends⟩ := uvmcopyLoop_failed range outcome
    have used : 0 < mem.count pte.frame := child.good.used_of_heldBy held below found
    have same := (atomic new' after outcome).1 other pte below found
    have count := ends pte.frame used
    rw [child.spans.vacant.leafRefs, (Spans.vacant spans).leafRefs] at count
    simp at count
    omega
  · intro enough new' after outcome
    have copied := (child.good.uvmcopyLoop_copied child.wellFormed held range outcome).mpr enough
    cases copied

/-- `fork` calls `uvmcopy` with page tables that are in order. -/
theorem copy_tables {system : System} {slot empty : Slot} {parent child : Space}
    (safe : system.Safe layout) (occupied : system.space slot = some parent)
    (vacancy : system.space empty = none)
    (made : Space.allocproc layout system.mem = .ok (some child, mem)) :
    ∃ ext, parent.table.HeldBy ext ∧ child.table.Tidy layout ext mem 0 := by
  have ne : slot ≠ empty := by
    rintro rfl
    rw [vacancy] at occupied
    cases occupied
  have good := (safe.part_empty vacancy).1
  obtain ⟨keeps, shape, -⟩ := good.allocproc made
  have laid := ((Space.allocproc_returns good).of_ok made child rfl).1
  refine ⟨_, fun vpn pte below found => ?_,
    laid.tidy (good.keeps keeps).tablePart (shape child rfl).1.table (Nat.zero_le _)⟩
  have elsewhere := System.heldBy_others ne occupied vpn pte below found
  have nonneg := single_nonneg child.trapframe pte.frame
  simp only [Pi.add_apply]
  omega

/-- The first process, of one page, forks on a machine with 128 pages. -/
theorem uvmcopy_atomic_iff_fork :
    ∃ system parent child mem, Run (Step smallMachine) (System.boot smallMachine)
        [{ op := .userinit 0 [0x17, 0x05] }] system ∧ system.space 0 = some parent ∧
      Space.allocproc smallMachine system.mem = .ok (some child, mem) ∧
      (CopyAtomic smallMachine parent.table child.table parent.sz mem ↔
        child.table.needs 0 (pagesBelow parent.sz) ≤ mem.supply) := by
  obtain ⟨system, parent, run, occupied, safe, wellFormed, laid, vacancy, ⟨_, mem⟩, allocated,
      child, rfl, -⟩ :=
    System.first_process (P := fun system _ => (system.space 1).isNone ∧
      ∃ made ∈ (Space.allocproc smallMachine system.mem).toOption, ∃ child ∈ made.1, True)
      (by decide +kernel)
  have allocated := ok_of_mem_toOption allocated
  obtain ⟨ext, held, tidy⟩ :=
    copy_tables safe occupied (Option.isNone_iff_eq_none.mp vacancy) allocated
  exact ⟨system, parent, child, mem, run, occupied, allocated,
    uvmcopy_atomic_iff laid held (pagesBelow_le wellFormed.fits) tidy⟩

/-- `fork` fails for want of a page-table page, and the page of the parent stays counted twice. -/
theorem uvmcopy_leaks_reference : ∃ system parent child mem new' after pte,
      Run (Step smallMachine) (System.boot smallMachine)
        [{ op := .userinit 0 [0x17, 0x05] }] system ∧ system.space 0 = some parent ∧
      Space.allocproc smallMachine (system.withFails [false, false, false, false, true]).mem =
        .ok (some child, mem) ∧
      uvmcopy smallMachine parent.table child.table parent.sz mem = .ok (false, new', after) ∧
      parent.table.leaves.find 0 = some pte ∧
      mem.count pte.frame = 1 ∧ after.count pte.frame = 2 := by
  obtain ⟨system, parent, run, occupied, -, -, -, ⟨_, mem⟩, allocated, child, rfl,
      ⟨_, new', after⟩, copy, pte, found, rfl, counts⟩ :=
    System.first_process (P := fun system parent => ∃ made ∈ (Space.allocproc smallMachine
        (system.withFails [false, false, false, false, true]).mem).toOption, ∃ child ∈ made.1,
      ∃ copy ∈ (uvmcopy smallMachine parent.table child.table parent.sz made.2).toOption,
      ∃ pte ∈ parent.table.leaves.find 0, copy.1 = false ∧ made.2.count pte.frame = 1 ∧
        copy.2.2.count pte.frame = 2) (by decide +kernel)
  exact ⟨system, parent, child, mem, new', after, pte, run, occupied,
    ok_of_mem_toOption allocated, ok_of_mem_toOption copy, found, counts⟩

end PageTable

end Xv6.Vm
