import Xv6.Lib.Interval
import Xv6.Vm.UserPages

/-!
# How much memory a call needs

`kalloc` serves a number of calls before the first that fails.  A function that maps pages
takes one page for each page-table page that is missing, so it succeeds exactly when the memory
serves what the range of pages lacks.
-/

namespace Xv6.Vm

open PageTable Mem Finset

variable {layout : Layout} {ext own : Frame → ℤ} {mem after : Mem}
variable {frame : Frame} {table table' : PageTable} {vpn npages : Nat}
  {nodes nodes' : FinMap Nat Frame} {index : Nat}

/-! ## The calls that succeed -/

/-- The number of calls of `kalloc` before the first that fails. -/
def supplyOf : List Frame → (fails : List Bool) → Nat
  | [], _ => 0
  | _ :: free, fails => if fails.headD false then 0 else supplyOf free fails.tail + 1

def Mem.supply (mem : Mem) : Nat := supplyOf mem.freelist mem.fails

@[simp] theorem Mem.supply_fill (mem : Mem) (frame : Frame) (contents : Page) :
    (mem.fill frame contents).supply = mem.supply := rfl

@[simp] theorem Mem.supply_adjust (mem : Mem) (frame : Frame) (delta : ℤ) :
    (mem.adjust frame delta).supply = mem.supply := rfl

theorem Mem.supply_kalloc (allocated : mem.kalloc = (some frame, after)) :
    mem.supply = after.supply + 1 := by
  unfold kalloc at allocated
  split at allocated
  · simp at allocated
  · simp at allocated
  case h_3 head rest served freelist =>
    split_ifs at allocated
    · simp at allocated
    · simp only [Prod.mk.injEq] at allocated
      rw [← allocated.2, supply, freelist, supplyOf, served]
      rfl

theorem Good.supply_kalloc_none (good : Good layout ext mem own)
    (refused : mem.kalloc = (none, after)) : mem.supply = 0 := by
  unfold kalloc at refused
  unfold supply
  split at refused
  case h_1 fails =>
    cases mem.freelist with
    | nil => rfl
    | cons head rest => rw [supplyOf, fails, if_pos rfl]
  case h_2 freelist => rw [freelist]; rfl
  case h_3 head rest _ freelist =>
    have idle := (good.covers.sound.idle head (by simp [pool, freelist])).1
    have unused : ¬ 0 < mem.count head := by
      have same : mem.count head = 0 := idle
      omega
    rw [if_neg unused] at refused
    simp at refused

/-! ## The page-table pages that are missing -/

/-- The page-table pages of one level that the pages of a range need and that are missing; each
page-table page of the level serves `span` pages. -/
def lacking (nodes : FinMap Nat Frame) (span vpn npages : Nat) : Nat :=
  (((Finset.Ico vpn (vpn + npages)).image (· / span)).filter
    fun index => nodes.find index = none).card

/-- The page-table pages that a range of pages needs and that are missing. -/
def PageTable.needs (table : PageTable) (vpn npages : Nat) : Nat :=
  lacking table.mids (2 ^ 18) vpn npages + lacking table.lows (2 ^ 9) vpn npages

@[simp] theorem lacking_zero (nodes : FinMap Nat Frame) (span vpn : Nat) :
    lacking nodes span vpn 0 = 0 := by
  simp [lacking]

@[simp] theorem PageTable.needs_zero (table : PageTable) (vpn : Nat) : table.needs vpn 0 = 0 := by
  simp [needs]

/-- Whether one page-table page is missing. -/
def lack (nodes : FinMap Nat Frame) (index : Nat) : Nat :=
  if nodes.find index = none then 1 else 0

/-- The first page of a range is served, and then the others. -/
theorem lacking_succ {span : Nat}
    (served : ∀ index, nodes'.find index = none ↔ nodes.find index = none ∧ index ≠ vpn / span) :
    lacking nodes span vpn (npages + 1) =
      lack nodes (vpn / span) + lacking nodes' span (vpn + 1) npages := by
  have range := Interval.Ico_succ vpn npages
  have rest : ((Finset.Ico (vpn + 1) (vpn + 1 + npages)).image (· / span)).filter
        (fun index => nodes'.find index = none) =
      (((Finset.Ico vpn (vpn + (npages + 1))).image (· / span)).filter
        fun index => nodes.find index = none).erase (vpn / span) := by
    rw [range, image_insert]
    ext index
    simp only [mem_filter, mem_erase, mem_insert, served]
    tauto
  unfold lacking lack
  rw [rest]
  split_ifs with missing
  · have member : vpn / span ∈ ((Finset.Ico vpn (vpn + (npages + 1))).image (· / span)).filter
        fun index => nodes.find index = none := by
      rw [range, image_insert, mem_filter]
      exact ⟨mem_insert_self _ _, missing⟩
    rw [← card_erase_add_one member, add_comm]
  · rw [erase_eq_of_notMem, Nat.zero_add]
    simp [missing]

theorem lack_le_lacking (nodes : FinMap Nat Frame) (span : Nat) :
    lack nodes (vpn / span) ≤ lacking nodes span vpn (npages + 1) := by
  unfold lack lacking
  split_ifs with missing
  · apply card_pos.mpr
    refine ⟨vpn / span, mem_filter.mpr ⟨mem_image.mpr ⟨vpn, ?_, rfl⟩, missing⟩⟩
    simp
  · exact Nat.zero_le _

/-! ## Walking and mapping -/

theorem PageTable.walkLevel_served (done : walkLevel nodes index mem = (some nodes', after))
    (other : Nat) :
    nodes'.find other = none ↔ nodes.find other = none ∧ other ≠ index := by
  obtain ⟨found, rfl, -⟩ | ⟨frame, taken, -, -, rfl, -⟩ := walkLevel_some done
  · refine ⟨fun missing => ⟨missing, ?_⟩, And.left⟩
    rintro rfl
    simp [missing] at found
  · by_cases same : other = index
    · simp [same]
    · simp [same]

theorem PageTable.supply_walkLevel (done : walkLevel nodes index mem = (some nodes', after)) :
    mem.supply = after.supply + lack nodes index := by
  unfold lack
  obtain ⟨found, -, rfl⟩ | ⟨frame, taken, missing, allocated, -, rfl⟩ := walkLevel_some done
  · rw [if_neg (Option.isSome_iff_ne_none.mp found), Nat.add_zero]
  · rw [if_pos missing, supply_kalloc allocated, supply_fill]

theorem PageTable.lack_of_walkLevel_none {nodes : FinMap Nat Frame}
    (done : walkLevel nodes index mem = (none, after)) : lack nodes index = 1 := by
  unfold walkLevel at done
  split at done
  · simp at done
  case h_2 missing => exact if_pos missing

/-- After a page-table page has been allocated the pages are still counted. -/
theorem Good.walkLevel_good (good : Good layout ext mem own)
    (done : walkLevel nodes index mem = (some nodes', after)) :
    ∃ own', Good layout ext after own' := by
  obtain ⟨-, -, rfl⟩ | ⟨frame, taken, -, allocated, -, rfl⟩ := PageTable.walkLevel_some done
  · exact ⟨own, good⟩
  · exact ⟨_, good.keeps (good.kalloc_fill allocated 0)⟩

/-- A walk that succeeds takes what the page lacks. -/
theorem PageTable.supply_walk (done : table.walk vpn mem = (true, table', after))
    (npages : Nat) :
    mem.supply + table'.needs (vpn + 1) npages = after.supply + table.needs vpn (npages + 1) := by
  unfold walk at done
  split at done
  · simp at done
  case h_2 mids middle mid =>
    split at done
    · simp at done
    case h_2 lows last low =>
      cases done
      have first := supply_walkLevel mid
      have second := supply_walkLevel low
      simp only [needs, lacking_succ (walkLevel_served mid), lacking_succ (walkLevel_served low)]
      omega

/-- A walk that fails finds less than the page lacks. -/
theorem Good.supply_walk_failed (good : Good layout ext mem own)
    (done : table.walk vpn mem = (false, table', after)) (npages : Nat) :
    mem.supply < table.needs vpn (npages + 1) := by
  have midLack : _ ≤ lacking _ _ vpn (npages + 1) := lack_le_lacking table.mids (2 ^ 18)
  have lowLack : _ ≤ lacking _ _ vpn (npages + 1) := lack_le_lacking table.lows (2 ^ 9)
  unfold PageTable.walk at done
  unfold needs
  split at done
  case h_1 noMid =>
    have none := good.supply_kalloc_none (walkLevel_none noMid)
    have missing := lack_of_walkLevel_none noMid
    omega
  case h_2 mids middle mid =>
    split at done
    case h_1 noLow =>
      obtain ⟨own', good'⟩ := good.walkLevel_good mid
      have none := good'.supply_kalloc_none (walkLevel_none noLow)
      have missing := lack_of_walkLevel_none noLow
      have first := supply_walkLevel mid
      omega
    · simp at done

theorem PageTable.supply_mappages {pte : Pte}
    (done : table.mappages vpn pte mem = .ok (true, table', after)) (npages : Nat) :
    mem.supply + table'.needs (vpn + 1) npages = after.supply + table.needs vpn (npages + 1) := by
  obtain ⟨-, walked, walk, ⟨no, -⟩ | ⟨-, -, rfl⟩⟩ := mappages_ok done
  · cases no
  · exact supply_walk walk npages

theorem Good.supply_mappages_failed {pte : Pte} (good : Good layout ext mem own)
    (done : table.mappages vpn pte mem = .ok (false, table', after)) (npages : Nat) :
    mem.supply < table.needs vpn (npages + 1) := by
  obtain ⟨-, walked, walk, -⟩ := mappages_ok done
  exact good.supply_walk_failed walk npages

/-! ## Growing and sharing -/

/-- `uvmalloc` succeeds when the memory serves the pages and the page-table pages for them. -/
theorem Good.uvmallocLoop_done {perm : Perm} {base : Nat} {done : Bool}
    (good : Good layout ext mem table.refs) (wf : table.WellFormed) (low : vpn ≤ TRAPFRAME)
    (outcome : PageTable.uvmallocLoop layout perm base npages vpn table mem =
      .ok (done, table', after)) : done = true ↔ npages + table.needs vpn npages ≤ mem.supply := by
  induction npages generalizing vpn table mem with
  | zero =>
    cases outcome
    simp
  | succ npages ih =>
    rw [PageTable.uvmallocLoop] at outcome
    split at outcome
    case h_1 mem' refused =>
      obtain ⟨_, -, finished⟩ := ok_of_bind outcome
      cases finished
      have none := good.supply_kalloc_none refused
      simp only [Bool.false_eq_true, false_iff]
      omega
    case h_2 frame mem' allocated =>
      obtain ⟨⟨mapped, mapTable, mapMem⟩, mapOutcome, rest⟩ := ok_of_bind outcome
      have supply := supply_kalloc allocated
      have first := good.kalloc_fill allocated 0
      cases mapped with
      | true =>
        have second := first.trans ((good.keeps first).mappages_held
          (.made perm frame) wf low mapOutcome)
        obtain ⟨wf', below⟩ := wf.mapped low (mappages_shape mapOutcome)
        have served := supply_mappages mapOutcome npages
        have more : done = true ↔ npages + mapTable.needs (vpn + 1) npages ≤ mapMem.supply :=
          ih (good.keeps second) wf' (below rfl) rest
        rw [supply_fill] at served
        rw [more]
        omega
      | false =>
        obtain ⟨freedMem, freed, undo⟩ := ok_of_bind rest
        obtain ⟨_, -, finished⟩ := ok_of_bind undo
        cases finished
        have short := (good.keeps first).supply_mappages_failed mapOutcome npages
        rw [supply_fill] at short
        simp only [Bool.false_eq_true, false_iff]
        omega

/-- `uvmcopy` succeeds when the memory serves the page-table pages that the child lacks. -/
theorem Good.uvmcopyLoop_copied {old new new' : PageTable} {copied : Bool}
    (good : Good layout ext mem new.refs) (wf : new.WellFormed) (held : old.HeldBy ext)
    (low : vpn + npages ≤ TRAPFRAME)
    (done : PageTable.uvmcopyLoop layout old npages vpn new mem = .ok (copied, new', after)) :
    copied = true ↔ new.needs vpn npages ≤ mem.supply := by
  induction npages generalizing vpn new mem with
  | zero =>
    cases done
    simp
  | succ npages ih =>
    obtain ⟨pte, counted, mapped, mapTable, mapMem, found, incr, mapOutcome, turn⟩ :=
      PageTable.uvmcopyLoop_succ done
    have first := good.krefincr (good.used_of_heldBy held (by omega) found) incr
    have supply : counted.supply = mem.supply := by
      unfold Mem.krefincr at incr
      split_ifs at incr
      cases incr
      rfl
    obtain ⟨rfl, rest⟩ | ⟨rfl, rfl, -⟩ := turn
    · have second := first.trans ((good.keeps first).mappages_held pte.shared wf
        (by omega) mapOutcome)
      have wf' := (wf.mapped (by omega) (PageTable.mappages_shape mapOutcome)).1
      have served := supply_mappages mapOutcome npages
      rw [ih (good.keeps second) wf' (by omega) rest]
      omega
    · have short := (good.keeps first).supply_mappages_failed mapOutcome npages
      simp only [Bool.false_eq_true, false_iff]
      omega

/-! ## `fork` -/

/-- The memory serves the page-table pages that the child of a `fork` lacks for the copy. -/
def Space.CopyServed (layout : Layout) (parent : Space) (mem : Mem) : Prop :=
  ∀ made ∈ (allocproc layout mem).toOption, ∀ child ∈ made.1,
    child.table.needs 0 (pagesBelow parent.sz) ≤ made.2.supply

instance (parent : Space) : Decidable (parent.CopyServed layout mem) :=
  inferInstanceAs (Decidable (∀ made ∈ _, ∀ child ∈ _, _))

/-- `fork` takes the references of the child.  When `uvmcopy` fails in it, a page is
left counted once too often. -/
theorem Good.fork {parent : Space} {made : Option Space} (good : Good layout ext mem 0)
    (wf : parent.WellFormed)
    (held : parent.table.HeldBy ext) (done : parent.fork layout mem = .ok (made, after)) :
    (∀ child, made = some child → child.WellFormed ∧ Keeps layout ext mem 0 after child.refs) ∧
      (made = none → after.failed = true ∧ (Keeps layout ext mem 0 after 0 ∨
        ¬ parent.CopyServed layout mem ∧
          ∃ frame, Keeps layout ext mem 0 after (Pi.single frame 1))) := by
  obtain ⟨⟨child, mem1⟩, created, rest⟩ := ok_of_bind done
  obtain ⟨first, shape, failed⟩ := good.allocproc created
  cases child with
  | none =>
    cases rest
    exact ⟨by simp, fun _ => ⟨failed rfl, .inl first⟩⟩
  | some child =>
    obtain ⟨wf', -⟩ := shape child rfl
    obtain ⟨⟨copied, table, mem2⟩, copy, rest⟩ := ok_of_bind rest
    have trapframeNonneg := single_nonneg child.trapframe
    have childRefs : (some child).elim 0 Space.refs =
        child.table.refs + Pi.single child.trapframe 1 := by
      simp [Space.refs, add_comm]
    rw [childRefs] at first
    have part := (good.keeps first).part child.table.refs_nonneg trapframeNonneg
    have heldPart := held.add_single child.trapframe
    have low : 0 + pagesBelow parent.sz ≤ TRAPFRAME := by
      rw [Nat.zero_add]
      exact pagesBelow_le wf.fits
    obtain ⟨wf'', success, failure⟩ :=
      part.uvmcopyLoop wf'.table heldPart low copy
    have newRefs : table.refs + Pi.single child.trapframe 1 =
        ({ child with table } : Space).refs := by
      simp [Space.refs, add_comm]
    cases copied with
    | true =>
      cases rest
      have second := first.trans ((success rfl).framed trapframeNonneg)
      rw [newRefs] at second
      refine ⟨?_, by simp⟩
      rintro _ ⟨⟩
      exact ⟨⟨wf'', wf.fits⟩, second⟩
    | false =>
      obtain ⟨mem3, freed, finished⟩ := ok_of_bind rest
      cases finished
      obtain ⟨stopped, frame, keeps⟩ := failure rfl
      have second := first.trans (keeps.framed trapframeNonneg)
      have regroup : table.refs + Pi.single frame 1 + Pi.single child.trapframe 1 =
          ({ child with table } : Space).refs + Pi.single frame 1 := by
        rw [← newRefs]
        abel
      rw [regroup] at second
      have leakNonneg := single_nonneg frame
      have childPart := (good.keeps second).part (Space.refs_nonneg _) leakNonneg
      have third := childPart.freeproc freed
      have final := second.trans (third.framed leakNonneg)
      rw [zero_add] at final
      refine ⟨by simp, fun _ => ⟨third.failed stopped, .inr ⟨fun served => ?_, frame, final⟩⟩⟩
      have enough := served (some child, mem1) (by rw [created]; rfl) child rfl
      cases (part.uvmcopyLoop_copied wf'.table heldPart low copy).mpr enough

end Xv6.Vm
