import Xv6.Vm.SpaceAccounts

/-!
# The leaf entries that the functions leave behind

Which entries for user pages a function makes, keeps or removes, and how a property
of all user pages of an address space is kept.
-/

namespace Xv6.Vm

variable {layout : Layout} {ext : Frame → ℤ} {mem after : Mem}
variable {table table' : PageTable} {vpn : Nat}

/-- A property of every user page of a page table. -/
def PageTable.Every (P : Nat → Pte → Prop) (table : PageTable) : Prop :=
  ∀ vpn pte, vpn < TRAPFRAME → table.leaves.find vpn = some pte → P vpn pte

variable {P : Nat → Pte → Prop}

namespace PageTable

theorem Vacant.every (vacant : table.Vacant) : table.Every P := by
  intro vpn pte below found
  simp [vacant vpn below] at found

theorem Every.sub (every : table.Every P)
    (kept : ∀ vpn pte, table'.leaves.find vpn = some pte → table.leaves.find vpn = some pte) :
    table'.Every P :=
  fun vpn pte below found => every vpn pte below (kept vpn pte found)

theorem Every.replaced {pte : Pte} (every : table.Every P) (holds : vpn < TRAPFRAME → P vpn pte) :
    ({ table with leaves := table.leaves.insert vpn pte } : PageTable).Every P := by
  intro other entry below found
  obtain rfl | same := eq_or_ne other vpn
  · simp only [FinMap.find_insert, Function.update_self, Option.some.injEq] at found
    exact found ▸ holds below
  · exact every other entry below (by simpa [same] using found)

variable {npages : Nat} {oldsz newsz sz : Nat} {old new new' : PageTable} {program : Program}

theorem Every.grown {perm : Perm} (every : table.Every P) (nonNull : 0 ∉ mem.freelist)
    (added : ∀ other frame, frame ≠ 0 → vpn ≤ other → other < vpn + npages →
      P other (.made perm frame)) (grown : Grown perm vpn npages table mem table' after) :
    table'.Every P := by
  intro other pte below found
  by_cases inside : vpn ≤ other ∧ other < vpn + npages
  · obtain ⟨frame, free, here, -, -⟩ := grown.inside other inside.1 inside.2
    obtain rfl : pte = .made perm frame := by simpa [found] using here
    exact added other frame (fun null => nonNull (null ▸ free)) inside.1 inside.2
  · exact every other pte below (grown.outside other inside ▸ found)

/-! ## Growing and shrinking -/

theorem Unmapped.kept (shape : Unmapped vpn npages table table') (other : Nat) (pte : Pte)
    (found : table'.leaves.find other = some pte) :
    table.leaves.find other = some pte ∧ ¬ (vpn ≤ other ∧ other < vpn + npages) := by
  rw [shape.find other] at found
  split_ifs at found with inside
  exact ⟨found, inside⟩

theorem uvmdealloc_kept (done : uvmdealloc layout oldsz newsz table mem = .ok (sz, table', after))
    (other : Nat) (pte : Pte) (found : table'.leaves.find other = some pte) :
    table.leaves.find other = some pte := by
  unfold uvmdealloc at done
  split_ifs at done
  · cases done
    exact found
  · obtain ⟨⟨rest, mem'⟩, unmapped, finished⟩ := ok_of_bind done
    cases finished
    exact (Unmapped.kept (uvmunmap_shape unmapped) other pte found).1

theorem pgRoundUp_mul {pages : Nat} (low : pages ≤ TRAPFRAME) :
    pgRoundUp (pages * PGSIZE) = pages := by
  unfold pgRoundUp
  have noWrap : pages * PGSIZE + (PGSIZE - 1) < 2 ^ 64 := by
    simp only [TRAPFRAME, MAXVPN, MAXVA, PGSIZE] at *
    omega
  rw [Nat.mod_eq_of_lt noWrap]
  simp only [PGSIZE]
  omega

/-- After a failure `uvmalloc` has removed the pages it had added. -/
theorem uvmallocUndo_find {base : Nat} {done : Bool} (order : base ≤ vpn) (low : vpn ≤ TRAPFRAME)
    (outcome : uvmallocUndo layout base vpn table mem = .ok (done, table', after)) (other : Nat) :
    table'.leaves.find other =
      if base ≤ other ∧ other < vpn then none else table.leaves.find other := by
  obtain ⟨⟨sz, rest, mem'⟩, dealloc, finished⟩ := ok_of_bind outcome
  cases finished
  unfold uvmdealloc at dealloc
  split_ifs at dealloc with empty
  · cases dealloc
    have := Nat.le_of_mul_le_mul_right empty (by decide)
    rw [if_neg (by omega)]
  · obtain ⟨⟨rest', mem''⟩, unmapped, finished⟩ := ok_of_bind dealloc
    cases finished
    rw [pgRoundUp_mul low, pgRoundUp_mul (order.trans low)] at unmapped
    rw [(uvmunmap_shape unmapped).find other, Nat.add_sub_cancel' order]

theorem uvmallocLoop_undone {perm : Perm} {base npages : Nat} (wf : table.WellFormed)
    (order : base ≤ vpn) (low : vpn ≤ TRAPFRAME)
    (done : uvmallocLoop layout perm base npages vpn table mem = .ok (false, table', after))
    (other : Nat) :
    table'.leaves.find other =
      if base ≤ other ∧ other < vpn then none else table.leaves.find other := by
  induction npages generalizing vpn table mem with
  | zero => cases done
  | succ npages ih =>
    rw [uvmallocLoop] at done
    split at done
    case h_1 => exact uvmallocUndo_find order low done other
    case h_2 frame mem' allocated =>
      obtain ⟨⟨mapped, mapTable, mapMem⟩, mapOutcome, rest⟩ := ok_of_bind done
      have shape := mappages_shape mapOutcome
      obtain ⟨wf', below⟩ := wf.mapped low shape
      cases mapped with
      | true =>
        have leaves : mapTable.leaves =
            table.leaves.insert vpn (.made perm frame) := shape.leaves
        rw [ih wf' (by omega) (below rfl) rest, leaves]
        obtain rfl | same := eq_or_ne other vpn
        · rw [if_pos (by omega), if_neg (by omega), shape.missing rfl]
        · simp only [FinMap.find_insert, Function.update_of_ne same]
          congr 1
          simp only [eq_iff_iff]
          omega
      | false =>
        obtain ⟨freedMem, freed, undo⟩ := ok_of_bind rest
        have leaves : mapTable.leaves = table.leaves := shape.leaves
        rw [← leaves]
        exact uvmallocUndo_find order low undo other

theorem Every.uvmalloc {xperm : Perm} (every : table.Every P) (wf : table.WellFormed)
    (fits : oldsz ≤ TRAPFRAME * PGSIZE) (nonNull : 0 ∉ mem.freelist)
    (added : ∀ other frame, frame ≠ 0 → other < pagesBelow newsz →
      P other (.made xperm.forUser frame))
    (outcome : PageTable.uvmalloc layout oldsz newsz xperm table mem = .ok (sz, table', after)) :
    table'.Every P := by
  unfold PageTable.uvmalloc at outcome
  split_ifs at outcome
  · cases outcome
    exact every
  · obtain ⟨⟨done, rest, mem'⟩, loop, finished⟩ := ok_of_bind outcome
    cases finished
    have low := pgRoundUp_le fits le_rfl
    cases done with
    | true =>
      refine every.grown nonNull (fun other frame used _ high => added other frame used ?_)
        (uvmallocLoop_grown loop)
      omega
    | false =>
      refine every.sub fun other pte found => ?_
      rwa [uvmallocLoop_undone wf le_rfl low loop, if_neg (by omega)] at found

/-! ## Sharing -/

/-- What a successful `uvmcopy` leaves in the child's page table. -/
theorem uvmcopyLoop_find
    (done : uvmcopyLoop layout old npages vpn new mem = .ok (true, new', after)) (other : Nat) :
    new'.leaves.find other =
      if vpn ≤ other ∧ other < vpn + npages then (old.leaves.find other).map Pte.shared
      else new.leaves.find other := by
  induction npages generalizing vpn new mem with
  | zero =>
    cases done
    rw [if_neg (by omega)]
  | succ npages ih =>
    obtain ⟨pte, counted, mapped, mapTable, mapMem, found, incr, mapOutcome, turn⟩ :=
      uvmcopyLoop_succ done
    obtain ⟨rfl, rest⟩ | ⟨-, noCopy, -⟩ := turn
    · have leaves : mapTable.leaves = new.leaves.insert vpn pte.shared :=
        (mappages_shape mapOutcome).leaves
      rw [ih rest, leaves]
      obtain rfl | same := eq_or_ne other vpn
      · rw [if_neg (by omega), if_pos (by omega), found]
        simp
      · simp only [FinMap.find_insert, Function.update_of_ne same]
        congr 1
        simp only [eq_iff_iff]
        omega
    · cases noCopy

theorem Every.uvmcopy (every : new.Every P) (shared : old.Every fun vpn pte => P vpn pte.shared)
    (done : uvmcopyLoop layout old npages vpn new mem = .ok (true, new', after)) :
    new'.Every P := by
  intro other pte below found
  rw [uvmcopyLoop_find done other] at found
  split_ifs at found with inside
  · obtain ⟨source, sourceFound, rfl⟩ := Option.map_eq_some_iff.mp found
    exact shared other source below sourceFound
  · exact every other pte below found

theorem Every.cowalloc {va : Nat} {allowed : Bool} (every : table.Every P)
    (nonNull : 0 ∉ mem.freelist)
    (resolved : ∀ pte frame, frame ≠ 0 → Accepted table va pte → pte.cow = true →
      P (va / PGSIZE) pte → P (va / PGSIZE) (pte.resolved frame))
    (done : table.cowalloc layout va mem = .ok (allowed, table', after)) : table'.Every P := by
  cases cowalloc_outcome done with
  | refused | noMemory | plain => exact every
  | resolved accepted isCow allocated =>
    refine every.replaced fun below => ?_
    exact resolved _ _ (fun null => nonNull (null ▸ Mem.kalloc_mem allocated)) accepted isCow
      (every _ _ below accepted.find)

/-! ## Loading a program -/

theorem Every.loadSegments {headers : List (Option ProgHdr)} {sz sz' : Nat} {loaded : Bool}
    (every : table.Every P) (good : Good layout ext mem table.refs) (wf : table.WellFormed)
    (fresh : table.Fresh mem) (fits : sz ≤ TRAPFRAME * PGSIZE)
    (segment : ∀ ph, some ph ∈ headers → ph.load = true → ∀ vpn frame, frame ≠ 0 →
      vpn < pagesBelow (add64 ph.vaddr ph.memsz) →
      P vpn (.made (flags2perm ph.flags).forUser frame))
    (done : Space.loadSegments layout program headers sz table mem =
      .ok (loaded, sz', table', after)) : table'.Every P := by
  induction headers generalizing sz table mem with
  | nil =>
    cases done
    exact every
  | cons header headers ih =>
    cases header with
    | none =>
      cases done
      exact every
    | some ph =>
      have segments := fun ph member => segment ph (List.mem_cons_of_mem _ member)
      rw [Space.loadSegments] at done
      split_ifs at done with load
      · obtain ⟨⟨sz1, table1, mem1⟩, alloc, rest⟩ := ok_of_bind done
        obtain ⟨first, wf1, fits1⟩ := good.uvmalloc wf fits alloc
        have every1 := every.uvmalloc wf fits good.null_not_free
          (segment ph List.mem_cons_self load) alloc
        simp only at rest
        split_ifs at rest with noMemory
        · cases rest
          exact every1
        · obtain ⟨⟨loaded1, mem2⟩, loadOutcome, rest⟩ := ok_of_bind rest
          have fresh1 := fresh.uvmalloc noMemory alloc
          have written := (good.keeps first).loadsegLoop wf1 fresh1 loadOutcome
          cases loaded1 with
          | true =>
            exact ih every1 (good.keeps (first.trans written.keeps)) wf1
              (fresh1.rewrites written) fits1 segments rest
          | false =>
            cases rest
            exact every1
      · cases done
        exact every
      · exact ih every good wf fresh fits segments done

/-- Properties of the pages of a new image. -/
structure ImageProperty (P : Nat → Pte → Prop) (program : Program) : Prop where
  segment : ∀ ph, some ph ∈ program.headers → ph.load = true → ∀ vpn frame, frame ≠ 0 →
    vpn < pagesBelow (add64 ph.vaddr ph.memsz) →
    P vpn (.made (flags2perm ph.flags).forUser frame)
  stack : ∀ vpn frame, frame ≠ 0 → P vpn (.made (Perm.forUser { writable := true }) frame)
  guard : ∀ vpn pte, P vpn pte → P vpn pte.guarded

theorem Every.buildImage {argv : List (List UInt8)} {built : Bool} {sz : Nat}
    (vacant : table.Vacant) (good : Good layout ext mem table.refs) (wf : table.WellFormed)
    (image : ImageProperty P program)
    (outcome : Space.buildImage layout program argv table mem = .ok (built, sz, table', after)) :
    table'.Every P := by
  have fresh := vacant.fresh mem
  obtain ⟨⟨loaded, sz1, table1, mem1⟩, load, rest⟩ := ok_of_bind outcome
  have every1 : table1.Every P :=
    vacant.every.loadSegments good wf fresh (Nat.zero_le _) image.segment load
  obtain ⟨first, wf1, fits1, fresh1⟩ :=
    good.loadSegments wf fresh (Nat.zero_le _) load
  cases loaded with
  | false =>
    cases rest
    exact every1
  | true =>
    obtain ⟨⟨sz2, table2, mem2⟩, alloc, rest⟩ := ok_of_bind rest
    have rounded := pgRoundUp_mul_le fits1
    obtain ⟨second, wf2, -⟩ := (good.keeps first).uvmalloc wf1 rounded alloc
    have every2 := every1.uvmalloc wf1 rounded (good.keeps first).null_not_free
      (fun vpn frame used _ => image.stack vpn frame used) alloc
    simp only at rest
    split_ifs at rest with noMemory
    · cases rest
      exact every2
    · obtain ⟨table3, clear, rest⟩ := ok_of_bind rest
      obtain ⟨⟨done, table4, mem4⟩, push, finished⟩ := ok_of_bind rest
      cases finished
      have every3 : table3.Every P := by
        obtain rfl | ⟨pte, found, rfl⟩ := uvmclear_ok clear
        · exact every2
        · exact every2.replaced fun below => image.guard _ _ (every2 _ _ below found)
      have sofar := first.trans second
      rw [← uvmclear_refs clear] at sofar
      obtain ⟨rfl, -⟩ := (good.keeps sofar).pushArgs (wf2.uvmclear clear)
        (((fresh1 rfl).uvmalloc noMemory alloc).uvmclear clear) push
      exact every3

end PageTable

end Xv6.Vm
