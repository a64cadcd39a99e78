import Xv6.Vm.Rollback
import Xv6.Vm.View

/-!
# Changing the size of a process

`growproc` of `kernel/proc.c` adds a signed number to a 64-bit size.  A size that would fall below
zero wraps around to a large one, which `uvmdealloc` takes for growth and answers with the old
size.  A process that grows again after it has shrunk finds the old bytes in the part of its last
page that it had given up.
-/

namespace Xv6.Vm

open Transition PageTable

variable {layout : Layout} {ext : Frame → ℤ} {mem after : Mem} {space space' : Space} {n : ℤ}

namespace Space

/-- `growproc` changes the size by `n` and the mapped pages with it, or nothing at all. -/
structure GrowsExactly (layout : Layout) (space : Space) (n : ℤ) (mem : Mem) : Prop where
  size : ∀ space' after, space.growproc layout n mem = .ok (true, space', after) →
    (space'.sz : ℤ) = space.sz + n
  mapped : ∀ space' after, space.growproc layout n mem = .ok (true, space', after) →
    ∀ vpn, (space'.table.lookup vpn).isSome ↔
      vpn < pagesBelow space'.sz ∨ vpn = TRAPFRAME ∨ vpn = TRAMPOLINE
  zeroed : ∀ space' after, space.growproc layout n mem = .ok (true, space', after) →
    ∀ va, space.sz ≤ va → va < space'.sz → space'.table.byteAt after va = some 0
  kept : ∀ space' after, space.growproc layout n mem = .ok (true, space', after) →
    ∀ va, va < space.sz → va < space'.sz →
      space'.table.byteAt after va = space.table.byteAt mem va
  unchanged : ∀ space' after, space.growproc layout n mem = .ok (false, space', after) →
    space'.sz = space.sz ∧ ∀ vpn, space'.table.lookup vpn = space.table.lookup vpn

/-- The memory serves the pages that a larger size needs. -/
def Affords (space : Space) (newsz : Nat) (mem : Mem) : Prop :=
  (pagesBelow newsz - pagesBelow space.sz) +
    space.table.needs (pagesBelow space.sz) (pagesBelow newsz - pagesBelow space.sz) ≤ mem.supply

/-- The part of the last page between the size and a larger one holds zeroes. -/
def CleanTail (space : Space) (newsz : Nat) (mem : Mem) : Prop :=
  ∀ va, space.sz ≤ va → va < newsz → va < pagesBelow space.sz * PGSIZE →
    space.table.byteAt mem va = some 0

/-! ## The two calls -/

variable {newsz : Nat}

/-- `growproc` with a positive number. -/
theorem growproc_up {grown : Bool} (positive : 0 < n)
    (target : ((space.sz + n) % 2 ^ 64).toNat = newsz)
    (done : space.growproc layout n mem = .ok (grown, space', after)) :
    ∃ sz table', space.table.uvmalloc layout space.sz newsz { writable := true } mem =
        .ok (sz, table', after) ∧
      ((sz = 0 ∧ grown = false ∧ space' = { space with table := table' }) ∨
        (sz ≠ 0 ∧ grown = true ∧ space' = { space with table := table', sz })) := by
  unfold growproc at done
  simp only [target, if_pos positive] at done
  obtain ⟨⟨sz, table', mem'⟩, alloc, finished⟩ := ok_of_bind done
  simp only [Except.ok.injEq] at finished
  split_ifs at finished with none
  · cases finished
    exact ⟨sz, table', alloc, .inl ⟨none, rfl, rfl⟩⟩
  · cases finished
    exact ⟨sz, table', alloc, .inr ⟨none, rfl, rfl⟩⟩

/-- `growproc` with a negative number. -/
theorem growproc_down {grown : Bool} (negative : n < 0)
    (target : ((space.sz + n) % 2 ^ 64).toNat = newsz)
    (done : space.growproc layout n mem = .ok (grown, space', after)) :
    ∃ sz table', space.table.uvmdealloc layout space.sz newsz mem = .ok (sz, table', after) ∧
      grown = true ∧ space' = { space with table := table', sz } := by
  unfold growproc at done
  simp only [target, if_neg (Int.not_lt.mpr negative.le), if_pos negative] at done
  obtain ⟨⟨sz, table', mem'⟩, dealloc, finished⟩ := ok_of_bind done
  cases finished
  exact ⟨sz, table', dealloc, rfl, rfl⟩

/-- The size of a process and an `int` add up without wrapping when the sum is not negative. -/
theorem target_of_nonneg (wf : space.WellFormed) (int : n < 2 ^ 31)
    (sum : (newsz : ℤ) = space.sz + n) : ((space.sz + n) % 2 ^ 64).toNat = newsz := by
  have fits := wf.fits
  simp only [TRAPFRAME, MAXVPN, MAXVA, PGSIZE] at fits
  omega

/-- The address space is in order. -/
theorem tidy (good : Good layout ext mem space.refs) (wf : space.WellFormed)
    (laid : space.Laid) :
    space.table.Tidy layout (ext + Pi.single space.trapframe 1) mem (pagesBelow space.sz) :=
  laid.tidy good.tablePart wf.table (pagesBelow_le wf.fits)

end Space

namespace PageTable

variable {table table' : PageTable} {va oldsz newsz : Nat} {first last : Nat}

theorem page_lt_pagesBelow {sz : Nat} (inside : va < sz) : va / PGSIZE < pagesBelow sz := by
  unfold pagesBelow
  simp only [PGSIZE]
  omega

/-- Old pages keep their bytes when pages are added after them. -/
theorem Extended.byteAt_old {perm : Perm}
    (extended : Extended perm first last table mem table' after) (solid : table.Solid)
    (solid' : table'.Solid) (old : va / PGSIZE < first) (low : first ≤ TRAPFRAME) :
    table'.byteAt after va = table.byteAt mem va := by
  unfold byteAt
  rw [solid.lookup_eq, solid'.lookup_eq, extended.leaves _ (by omega)]
  cases found : table.leaves.find (va / PGSIZE) with
  | none => rfl
  | some pte => rw [Option.map_some, Option.map_some, extended.contents _ pte (by omega) found]

/-- New pages hold zeroes. -/
theorem Extended.byteAt_new {perm : Perm}
    (extended : Extended perm first last table mem table' after) (solid' : table'.Solid)
    (above : first ≤ va / PGSIZE) (below : va / PGSIZE < last) :
    table'.byteAt after va = some 0 := by
  obtain ⟨frame, -, found, zeroed⟩ := extended.added _ above below
  unfold byteAt
  rw [solid'.lookup_eq, found, Option.map_some, Pte.made_frame, zeroed]
  rfl

/-- `uvmalloc` succeeds exactly when the memory serves the pages and the page-table pages. -/
theorem Tidy.uvmalloc_served {sz : Nat} {xperm : Perm}
    (tidy : table.Tidy layout ext mem (pagesBelow oldsz)) (order : oldsz ≤ newsz)
    (nonzero : newsz ≠ 0)
    (outcome : table.uvmalloc layout oldsz newsz xperm mem = .ok (sz, table', after)) :
    sz ≠ 0 ↔ (pagesBelow newsz - pagesBelow oldsz) +
      table.needs (pagesBelow oldsz) (pagesBelow newsz - pagesBelow oldsz) ≤ mem.supply := by
  unfold uvmalloc at outcome
  rw [if_neg (Nat.not_lt.mpr order), pgRoundUp_eq tidy.fits] at outcome
  obtain ⟨⟨done, rest, mem'⟩, loop, finished⟩ := ok_of_bind outcome
  cases finished
  rw [← tidy.good.uvmallocLoop_done tidy.wellFormed tidy.low loop]
  cases done <;> simp [nonzero]

end PageTable

namespace Space

/-! ## Growing -/

theorem growsExactly_of_refused (done : space.growproc layout n mem = .ok (false, space', after))
    (size : space'.sz = space.sz)
    (lookup : ∀ vpn, space'.table.lookup vpn = space.table.lookup vpn) :
    space.GrowsExactly layout n mem := by
  have refused : ∀ other last, space.growproc layout n mem ≠ .ok (true, other, last) := by
    intro other last grown
    rw [done] at grown
    cases grown
  refine ⟨fun _ _ grown => absurd grown (refused _ _), fun _ _ grown => absurd grown (refused _ _),
    fun _ _ grown => absurd grown (refused _ _), fun _ _ grown => absurd grown (refused _ _), ?_⟩
  intro other last same
  rw [done] at same
  cases same
  exact ⟨size, lookup⟩

/-- What has to be shown of a call that returns 0. -/
theorem growsExactly_of_grown (done : space.growproc layout n mem = .ok (true, space', after))
    (size : (space'.sz : ℤ) = space.sz + n) (laid : space'.Laid)
    (zeroed : ∀ va, space.sz ≤ va → va < space'.sz → space'.table.byteAt after va = some 0)
    (kept : ∀ va, va < space.sz → va < space'.sz →
      space'.table.byteAt after va = space.table.byteAt mem va) :
    space.GrowsExactly layout n mem := by
  have only : ∀ other last, space.growproc layout n mem = .ok (true, other, last) →
      other = space' ∧ last = after := by
    intro other last grown
    rw [done] at grown
    cases grown
    exact ⟨rfl, rfl⟩
  refine ⟨?_, ?_, ?_, ?_, ?_⟩
  · intro other last grown
    obtain ⟨rfl, rfl⟩ := only other last grown
    exact size
  · intro other last grown vpn
    obtain ⟨rfl, rfl⟩ := only other last grown
    rw [laid.solid.lookup_eq]
    exact laid.spans vpn
  · intro other last grown
    obtain ⟨rfl, rfl⟩ := only other last grown
    exact zeroed
  · intro other last grown
    obtain ⟨rfl, rfl⟩ := only other last grown
    exact kept
  · intro other last refused
    rw [done] at refused
    cases refused

theorem growsExactly_up_iff {newsz : Nat} (memory : layout.last ≤ PHYSTOP)
    (good : Good layout ext mem space.refs) (wf : space.WellFormed) (laid : space.Laid)
    (positive : 0 < n) (int : n < 2 ^ 31) (sum : (newsz : ℤ) = space.sz + n) :
    space.GrowsExactly layout n mem ↔ (space.Affords newsz mem → space.CleanTail newsz mem) := by
  have inOrder := tidy good wf laid
  obtain ⟨⟨grown, space', after⟩, done, laid'⟩ :=
    growproc_returns memory good wf laid (n := n)
  obtain ⟨sz, table', alloc, ending⟩ :=
    growproc_up positive (target_of_nonneg wf int sum) done
  have all := (uvmalloc_all_or_nothing memory inOrder newsz _).of_ok alloc
  have served := inOrder.uvmalloc_served (by omega) (by omega) alloc
  obtain ⟨none, rfl, rfl⟩ | ⟨some, rfl, rfl⟩ := ending
  · have restored := all.failed none (by omega)
    refine ⟨fun _ affords => absurd none (served.mpr affords), fun _ => ?_⟩
    refine growsExactly_of_refused done rfl fun vpn => ?_
    have laidTable : table'.Laid (pagesBelow space.sz) := laid'
    rw [laidTable.solid.lookup_eq, laid.solid.lookup_eq]
    exact restored.leaves vpn
  · obtain ⟨size, extended⟩ := all.succeeded (.inl some)
    obtain rfl : sz = newsz := by omega
    have laidTable : table'.Laid (pagesBelow sz) := laid'
    have old : ∀ va, va / PGSIZE < pagesBelow space.sz →
        table'.byteAt after va = space.table.byteAt mem va :=
      fun va inside => extended.byteAt_old laid.solid laidTable.solid inside inOrder.low
    constructor
    · intro exact' _ va above below inside
      rw [← old va ((Nat.div_lt_iff_lt_mul (by decide)).mpr inside)]
      exact exact'.zeroed _ _ done va above below
    · intro clean
      have tail := clean (served.mp some)
      refine growsExactly_of_grown done sum laid' (fun va above below => ?_)
        fun va inside _ => old va (page_lt_pagesBelow inside)
      by_cases inLast : va / PGSIZE < pagesBelow space.sz
      · have inside : va < pagesBelow space.sz * PGSIZE :=
          (Nat.div_lt_iff_lt_mul (by decide)).mp inLast
        exact (old va inLast).trans (tail va above below inside)
      · exact extended.byteAt_new laidTable.solid (Nat.le_of_not_lt inLast)
          (page_lt_pagesBelow below)

/-! ## Shrinking -/

theorem growsExactly_down_iff (memory : layout.last ≤ PHYSTOP)
    (good : Good layout ext mem space.refs) (wf : space.WellFormed) (laid : space.Laid)
    (negative : n < 0) (int : -2 ^ 31 ≤ n) : space.GrowsExactly layout n mem ↔ -n ≤ space.sz := by
  have fits := wf.fits
  obtain ⟨⟨grown, space', after⟩, done, laid'⟩ :=
    growproc_returns memory good wf laid (n := n)
  obtain ⟨sz, table', dealloc, rfl, rfl⟩ := growproc_down negative rfl done
  constructor
  · -- A sum below zero is a size above the old one.
    intro exact'
    by_contra wraps
    have size := exact'.size _ _ done
    unfold uvmdealloc at dealloc
    rw [if_pos (by simp only [TRAPFRAME, MAXVPN, MAXVA, PGSIZE] at fits; omega)] at dealloc
    cases dealloc
    simp only at size
    omega
  · intro enough
    obtain ⟨newsz, sum⟩ : ∃ newsz : Nat, (newsz : ℤ) = space.sz + n :=
      ⟨_, Int.toNat_of_nonneg (by omega)⟩
    rw [target_of_nonneg wf (by omega) sum] at dealloc
    have view := good.tablePart.view_uvmdealloc fits dealloc
    have wf' := wf.table.uvmdealloc fits dealloc
    have smaller : ¬ space.sz ≤ newsz := by omega
    unfold Eager.Pages.uvmdealloc at view
    rw [if_neg smaller, Prod.mk.injEq] at view
    obtain ⟨rfl, view⟩ := view
    refine growsExactly_of_grown done sum laid' (fun va above below => by simp only at below; omega)
      fun va _ inside => ?_
    have below : va / PGSIZE < pagesBelow newsz := page_lt_pagesBelow inside
    have low := pagesBelow_le (show newsz ≤ TRAPFRAME * PGSIZE by omega)
    rw [wf'.byteAt_eq_view (by omega), wf.table.byteAt_eq_view (by omega), ← view,
      Eager.Pages.shrink, pgRoundUp_eq (by omega), if_neg (by omega)]

/-- `growproc` changes the size by exactly `n`, or nothing, unless it is asked to take away more
than there is, or to grow into a page whose end still holds old bytes. -/
theorem growproc_exact_iff (memory : layout.last ≤ PHYSTOP) (good : Good layout ext mem space.refs)
    (wellFormed : space.WellFormed) (laid : space.Laid) (int : -2 ^ 31 ≤ n ∧ n < 2 ^ 31) :
    space.GrowsExactly layout n mem ↔
      (n < 0 → -n ≤ space.sz) ∧
      (0 < n → space.Affords (space.sz + n).toNat mem →
        space.CleanTail (space.sz + n).toNat mem) := by
  rcases lt_trichotomy n 0 with negative | rfl | positive
  · rw [growsExactly_down_iff memory good wellFormed laid negative int.1]
    exact ⟨fun enough => ⟨fun _ => enough, fun positive => by omega⟩,
      fun condition => condition.1 negative⟩
  · have outcome : space.growproc layout 0 mem = .ok (true, space, mem) := rfl
    refine ⟨fun _ => ⟨by simp, by simp⟩, fun _ => ?_⟩
    exact growsExactly_of_grown outcome (by simp) laid (fun va above below => by omega)
      fun _ _ _ => rfl
  · rw [growsExactly_up_iff memory good wellFormed laid positive int.2
      (Int.toNat_of_nonneg (by omega))]
    exact ⟨fun clean => ⟨fun negative => by omega, fun _ => clean⟩,
      fun condition => condition.2 positive⟩

/-- The first process asks for one more page. -/
theorem growproc_exact_iff_init : ∃ system space, Run (Step smallMachine) (System.boot smallMachine)
        [{ op := .userinit 0 [0x17, 0x05] }] system ∧ system.space 0 = some space ∧
      (space.GrowsExactly smallMachine 4096 system.mem ↔
        ((4096 : ℤ) < 0 → -4096 ≤ (space.sz : ℤ)) ∧
        ((0 : ℤ) < 4096 → space.Affords (space.sz + 4096 : ℤ).toNat system.mem →
          space.CleanTail (space.sz + 4096 : ℤ).toNat system.mem)) := by
  obtain ⟨system, space, run, occupied, safe, wellFormed, laid, -⟩ :=
    System.first_process (P := fun _ _ => True) (by decide +kernel)
  exact ⟨system, space, run, occupied, growproc_exact_iff (by decide) (safe.occupiedPart occupied)
    wellFormed laid (by decide)⟩

/-- A process of one page gives back two.  `growproc` returns 0 and the size stays as it is. -/
theorem growproc_underflow :
    ∃ system space space' after, Run (Step smallMachine) (System.boot smallMachine)
        [{ op := .userinit 0 [0x17, 0x05] }] system ∧ system.space 0 = some space ∧
      space.growproc smallMachine (-8192) system.mem = .ok (true, space', after) ∧
      space.sz = 4096 ∧ space'.sz = 4096 := by
  obtain ⟨system, space, run, occupied, -, -, -, ⟨_, space', after⟩, shrunk, rfl, sizes⟩ :=
    System.first_process (P := fun system space =>
      ∃ result ∈ (space.growproc smallMachine (-8192) system.mem).toOption,
        result.1 = true ∧ space.sz = 4096 ∧ result.2.1.sz = 4096) (by decide +kernel)
  exact ⟨system, space, space', after, run, occupied, ok_of_mem_toOption shrunk, sizes⟩

end Space

end Xv6.Vm
