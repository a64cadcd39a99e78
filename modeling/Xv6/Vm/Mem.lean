import Xv6.Lib.RefCount
import Xv6.Lib.Result
import Xv6.Param

/-!
# Physical pages

The page allocator of `kernel/kalloc.c` with the reference counters that
copy-on-write fork adds to it, and the contents of the pages.  Addresses are page
frame numbers, because every page the allocator sees is page-aligned.

An allocation may fail at any point: `fails` says which of the coming calls of
`kalloc` find no memory, and a call beyond that list fails only when the free list
gives it nothing.
-/

namespace Xv6.Vm

open Function (update)

abbrev PGSIZE : Nat := 4096

instance : NeZero PGSIZE := ⟨by decide⟩

/-- A physical page, `pa / PGSIZE`. -/
abbrev Frame := Nat

abbrev Page := Fin PGSIZE → UInt8

/-- The calls of `panic` in the modelled code. -/
inductive Panic where
  /-- `"kfree"`. -/
  | kfree
  /-- `"kfree_decr"`. -/
  | kfreeDecr
  /-- `"Physical Address limit exceeded"`. -/
  | limitExceeded
  /-- `"walk"`. -/
  | walk
  /-- `"mappages: remap"`. -/
  | remap
  /-- `"uvmunmap: walk"`. -/
  | unmapWalk
  /-- `"uvmunmap: not mapped"`. -/
  | notMapped
  /-- `"uvmunmap: not a leaf"`. -/
  | notLeaf
  /-- `"freewalk: leaf"`. -/
  | freewalkLeaf
  /-- `"uvmcopy: pte should exist"`. -/
  | copyNoPte
  /-- `"uvmcopy: page not present"`. -/
  | copyNotPresent
  /-- `"uvmclear"`. -/
  | uvmclear
  /-- `"uvmfirst: more than a page"`. -/
  | uvmfirst
  /-- `"loadseg: address should exist"`. -/
  | loadseg
  /-- A store through the null pointer that `userinit` does not check for. -/
  | nullStore
  deriving DecidableEq, Repr

/-- The physical memory that the linker and `PHYSTOP` leave to the allocator, and
the page of kernel text that holds the trampoline. -/
structure Layout where
  /-- `PGROUNDUP(end) / PGSIZE`. -/
  first : Frame
  /-- `PHYSTOP / PGSIZE`. -/
  last : Frame
  trampoline : Frame
  /-- No page lies at the null pointer. -/
  first_pos : 0 < first

/-- The pages in `[PGROUNDUP(end), PHYSTOP)`. -/
def Layout.Managed (layout : Layout) (frame : Frame) : Prop :=
  layout.first ≤ frame ∧ frame < layout.last

instance (layout : Layout) (frame : Frame) : Decidable (layout.Managed frame) :=
  inferInstanceAs (Decidable (_ ∧ _))

/-- `kmem`, `refcnt` and the contents of memory. -/
structure Mem where
  freelist : List Frame
  count : Frame → ℤ
  page : Frame → Page
  /-- Which of the next calls of `kalloc` fail. -/
  fails : List Bool := []
  /-- Whether any call of `kalloc` has failed so far. -/
  failed : Bool := false

namespace Mem

/-- The free list and the counters as a reference-counted pool. -/
def pool (mem : Mem) : RefCount.Pool Frame := ⟨mem.freelist, mem.count⟩

/-- Fill a page, as `memset` and `memmove` of whole pages do. -/
@[simps -fullyApplied]
def fill (mem : Mem) (frame : Frame) (contents : Page) : Mem :=
  { mem with page := update mem.page frame contents }

/-- A call of `kalloc` that returns 0. -/
@[simps -fullyApplied]
def refuse (mem : Mem) (fails : List Bool) : Mem :=
  { mem with fails, failed := true }

/-- The page at the head of the free list is handed out, filled with junk. -/
@[simps -fullyApplied]
def take (mem : Mem) (fails : List Bool) (frame : Frame) (rest : List Frame) : Mem :=
  { mem with
    freelist := rest
    count := update mem.count frame 1
    page := update mem.page frame fun _ => 5
    fails }

/-- `refcnt.count[pn] += delta`. -/
@[simps -fullyApplied]
def adjust (mem : Mem) (frame : Frame) (delta : ℤ) : Mem :=
  { mem with count := update mem.count frame (mem.count frame + delta) }

/-- A page whose last reference is gone is filled with junk and put on the free
list. -/
@[simps -fullyApplied]
def recycle (mem : Mem) (frame : Frame) : Mem :=
  { mem with
    freelist := frame :: mem.freelist
    page := update mem.page frame fun _ => 1 }

/-- `kalloc`. -/
def kalloc (mem : Mem) : Option Frame × Mem :=
  match mem.fails.headD false, mem.freelist with
  | true, _ => (none, mem.refuse mem.fails.tail)
  | false, [] => (none, mem.refuse mem.fails.tail)
  | false, frame :: rest =>
    if 0 < mem.count frame then (none, mem.refuse mem.fails.tail)
    else (some frame, mem.take mem.fails.tail frame rest)

/-- `kfree`. -/
def kfree (layout : Layout) (frame : Frame) (mem : Mem) : Except Panic Mem :=
  if ¬ layout.Managed frame then .error .kfree
  else if mem.count frame < 1 then .error .kfreeDecr
  else if 0 < mem.count frame - 1 then .ok (mem.adjust frame (-1))
  else .ok ((mem.adjust frame (-1)).recycle frame)

/-- `krefincr`. -/
def krefincr (layout : Layout) (frame : Frame) (mem : Mem) : Except Panic Mem :=
  if layout.last < frame then .error .limitExceeded else .ok (mem.adjust frame 1)

/-- `krefdecr`. -/
def krefdecr (layout : Layout) (frame : Frame) (mem : Mem) : Except Panic Mem :=
  if layout.last < frame then .error .limitExceeded else .ok (mem.adjust frame (-1))

/-- The state after `kinit`: `freerange` frees the pages from the lowest up. -/
def kinit (layout : Layout) : Mem where
  freelist := (List.range' layout.first (layout.last - layout.first)).reverse
  count := fun _ => 0
  page := fun _ _ => 1

end Mem

/-! ## What the allocator does to the accounts

`ext` counts the references held elsewhere in the kernel and `own` those of the
code that is running. -/

variable {layout : Layout} {ext own own' own'' : Frame → ℤ} {mem after last : Mem}
variable {frame other : Frame}

/-- The references to the pages are counted. -/
structure Good (layout : Layout) (ext : Frame → ℤ) (mem : Mem) (own : Frame → ℤ) : Prop where
  covers : mem.pool.Covers layout.Managed (ext + own)
  own_nonneg : ∀ frame, 0 ≤ own frame
  ext_nonneg : ∀ frame, 0 ≤ ext frame

/-- A change of memory by code that holds `own` before and `own'` after: the
counters follow, and pages referenced elsewhere keep their contents. -/
structure Moves (layout : Layout) (ext : Frame → ℤ) (mem : Mem) (own : Frame → ℤ)
    (after : Mem) (own' : Frame → ℤ) : Prop where
  pool : RefCount.Pool.Moves layout.Managed mem.pool (ext + own) after.pool (ext + own')
  own_nonneg : ∀ frame, 0 ≤ own' frame
  page : ∀ frame, 0 < ext frame → after.page frame = mem.page frame
  failed : mem.failed = true → after.failed = true

/-- A change of memory that also loses no page. -/
structure Keeps (layout : Layout) (ext : Frame → ℤ) (mem : Mem) (own : Frame → ℤ)
    (after : Mem) (own' : Frame → ℤ) : Prop extends Moves layout ext mem own after own' where
  complete : mem.pool.Complete layout.Managed → after.pool.Complete layout.Managed

theorem Good.moves (good : Good layout ext mem own) (moves : Moves layout ext mem own after own') :
    Good layout ext after own' :=
  ⟨good.covers.moves moves.pool, moves.own_nonneg, good.ext_nonneg⟩

theorem Good.keeps (good : Good layout ext mem own) (keeps : Keeps layout ext mem own after own') :
    Good layout ext after own' :=
  good.moves keeps.toMoves

theorem Moves.trans (first : Moves layout ext mem own after own')
    (second : Moves layout ext after own' last own'') : Moves layout ext mem own last own'' where
  pool := first.pool.trans second.pool
  own_nonneg := second.own_nonneg
  page := fun frame held => (second.page frame held).trans (first.page frame held)
  failed := fun failed => second.failed (first.failed failed)

theorem Keeps.trans (first : Keeps layout ext mem own after own')
    (second : Keeps layout ext after own' last own'') : Keeps layout ext mem own last own'' where
  toMoves := first.toMoves.trans second.toMoves
  complete := fun complete => second.complete (first.complete complete)

section

variable (good : Good layout ext mem own)
include good

/-- A change that touches neither the pool nor the pages held elsewhere. -/
theorem Good.keeps_of_pool (pool : after.pool = mem.pool)
    (page : ∀ frame, 0 < ext frame → after.page frame = mem.page frame)
    (failed : mem.failed = true → after.failed = true) : Keeps layout ext mem own after own where
  pool := by
    rw [pool]
    exact (RefCount.Pool.Settles.refl good.covers.sound).toMoves
  own_nonneg := good.own_nonneg
  page := page
  failed := failed
  complete := by
    rw [pool]
    exact id

theorem Good.refl : Keeps layout ext mem own mem own :=
  good.keeps_of_pool rfl (fun _ _ => rfl) id

/-- References change hands between the running code and the rest of the kernel. -/
theorem Good.regroup {ext' : Frame → ℤ} (same : ext' + own' = ext + own)
    (own_nonneg : ∀ frame, 0 ≤ own' frame) (ext_nonneg : ∀ frame, 0 ≤ ext' frame) :
    Good layout ext' mem own' where
  covers := same ▸ good.covers
  own_nonneg := own_nonneg
  ext_nonneg := ext_nonneg

/-- A page is counted at least once for each reference. -/
theorem Good.le_count (frame : Frame) : ext frame + own frame ≤ mem.count frame :=
  good.covers.counted frame

end

theorem add_single_nonneg (nonneg : ∀ frame, 0 ≤ own frame) (other : Frame) :
    0 ≤ (own + Pi.single frame 1 : Frame → ℤ) other := by
  have before := nonneg other
  obtain rfl | same := eq_or_ne other frame
  · simp
    omega
  · simpa [same] using before

theorem sub_single_nonneg (nonneg : ∀ frame, 0 ≤ own frame) (held : 1 ≤ own frame)
    (other : Frame) : 0 ≤ (own - Pi.single frame 1 : Frame → ℤ) other := by
  have before := nonneg other
  obtain rfl | same := eq_or_ne other frame
  · simpa using held
  · simpa [same] using before

/-! ## The allocator's functions -/

/-- `kalloc` hands out the head of the free list. -/
theorem Mem.kalloc_some (done : mem.kalloc = (some frame, after)) :
    ∃ rest, mem.freelist = frame :: rest ∧ after = mem.take mem.fails.tail frame rest := by
  unfold kalloc at done
  split at done
  · simp at done
  · simp at done
  case h_3 head rest _ freelist =>
    split_ifs at done
    · simp at done
    · simp only [Prod.mk.injEq, Option.some.injEq] at done
      exact ⟨rest, done.1 ▸ freelist, done.1 ▸ done.2.symm⟩

/-- A failed `kalloc` changes nothing but the record of failures. -/
theorem Mem.kalloc_none (done : mem.kalloc = (none, after)) :
    after = mem.refuse mem.fails.tail := by
  unfold kalloc at done
  split at done
  · simpa using done.symm
  · simpa using done.symm
  · split_ifs at done
    · simpa using done.symm
    · simp at done

section

variable (good : Good layout ext mem own)
include good

theorem Good.kalloc_none (done : mem.kalloc = (none, after)) :
    Keeps layout ext mem own after own := by
  rw [Mem.kalloc_none done]
  exact good.keeps_of_pool rfl (fun _ _ => rfl) (fun _ => rfl)

/-- The page that `kalloc` returns had no references. -/
theorem Good.kalloc_unused (done : mem.kalloc = (some frame, after)) :
    ext frame = 0 ∧ own frame = 0 := by
  obtain ⟨rest, freelist, -⟩ := Mem.kalloc_some done
  have idle := good.covers.idle (show frame ∈ mem.pool.free by simp [Mem.pool, freelist])
  have extSide := good.ext_nonneg frame
  have ownSide := good.own_nonneg frame
  simp only [Pi.add_apply] at idle
  omega

/-- The null pointer is not on the free list. -/
theorem Good.null_not_free : 0 ∉ mem.freelist := by
  intro free
  have managed := (good.covers.sound.idle 0 free).2
  exact absurd managed.1 (not_le.mpr layout.first_pos)

/-- A page that `kalloc` returns is held once by its caller. -/
theorem Good.kalloc_some (done : mem.kalloc = (some frame, after)) :
    Keeps layout ext mem own after (own + Pi.single frame 1) := by
  have unused := good.kalloc_unused done
  obtain ⟨rest, freelist, rfl⟩ := Mem.kalloc_some done
  have settles := good.covers.sound.take (ext + own) freelist
  rw [add_assoc] at settles
  refine ⟨⟨settles.toMoves, add_single_nonneg good.own_nonneg, ?_, id⟩, settles.complete⟩
  intro other held
  have ne : other ≠ frame := by
    rintro rfl
    omega
  simp [ne]

end

/-- What `kfree` checks, and the two ways it ends. -/
theorem Mem.kfree_ok (done : mem.kfree layout frame = .ok after) : layout.Managed frame ∧
      ((1 < mem.count frame ∧ after = mem.adjust frame (-1)) ∨
        (mem.count frame = 1 ∧ after = (mem.adjust frame (-1)).recycle frame)) := by
  unfold kfree at done
  split_ifs at done with managed uncounted more
  · exact ⟨managed, .inl ⟨by omega, (Except.ok.inj done).symm⟩⟩
  · exact ⟨managed, .inr ⟨by omega, (Except.ok.inj done).symm⟩⟩

variable (good : Good layout ext mem own)
include good

/-- Freeing a page gives up one reference to it. -/
theorem Good.kfree (held : 1 ≤ own frame) (done : mem.kfree layout frame = .ok after) :
    Keeps layout ext mem own after (own - Pi.single frame 1) := by
  have counted := good.le_count frame
  obtain ⟨managed, ⟨shared, rfl⟩ | ⟨single, rfl⟩⟩ := Mem.kfree_ok done
  · have settles := good.covers.sound.drop_shared (ext + own) frame shared
    rw [add_sub_assoc] at settles
    exact ⟨⟨settles.toMoves, sub_single_nonneg good.own_nonneg held, fun _ _ => rfl, id⟩,
      settles.complete⟩
  · have settles := good.covers.sound.release (ext + own) managed single
    rw [add_sub_assoc] at settles
    have zero : mem.count frame + -1 = 0 := by omega
    have pool : ((mem.adjust frame (-1)).recycle frame).pool =
        ⟨frame :: mem.freelist, update mem.count frame 0⟩ := by
      simp [Mem.pool, zero]
    refine ⟨⟨pool ▸ settles.toMoves, sub_single_nonneg good.own_nonneg held, ?_, id⟩,
      pool ▸ settles.complete⟩
    intro other othersHold
    have ne : other ≠ frame := by
      rintro rfl
      omega
    simp [ne]

/-- `krefincr` on a page that has a reference takes one more. -/
theorem Good.krefincr (counted : 1 ≤ mem.count frame)
    (done : mem.krefincr layout frame = .ok after) :
    Keeps layout ext mem own after (own + Pi.single frame 1) := by
  unfold Mem.krefincr at done
  split_ifs at done
  cases done
  have settles := good.covers.sound.share (ext + own) frame counted
  rw [add_assoc] at settles
  exact ⟨⟨settles.toMoves, add_single_nonneg good.own_nonneg, fun _ _ => rfl, id⟩,
    settles.complete⟩

/-- `krefdecr` gives up a reference; the page is lost when it was the last. -/
theorem Good.krefdecr (held : 1 ≤ own frame) (done : mem.krefdecr layout frame = .ok after) :
    Moves layout ext mem own after (own - Pi.single frame 1) ∧
      (1 < mem.count frame → Keeps layout ext mem own after (own - Pi.single frame 1)) := by
  unfold Mem.krefdecr at done
  split_ifs at done
  cases done
  have counted : 1 ≤ mem.count frame := by
    have le := good.le_count frame
    have nonneg := good.ext_nonneg frame
    omega
  have pool := good.covers.sound.drop (ext + own) frame counted
  rw [add_sub_assoc] at pool
  have moves : Moves layout ext mem own (mem.adjust frame (-1)) (own - Pi.single frame 1) :=
    ⟨pool, sub_single_nonneg good.own_nonneg held, fun _ _ => rfl, id⟩
  refine ⟨moves, fun shared => ⟨moves, ?_⟩⟩
  exact (good.covers.sound.drop_shared (ext + own) frame shared).complete

end Xv6.Vm
