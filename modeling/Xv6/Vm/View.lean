import Xv6.Vm.Eager
import Xv6.Vm.PageInvariant

/-!
# User memory as the reference kernel sees it

The pages that a page table maps, with their contents and the permissions they were
made with, and how the functions on page tables change that view.
-/

namespace Xv6.Vm

open Function PageTable Eager.Pages Option

variable {layout : Layout} {ext : Frame → ℤ} {mem after : Mem}
variable {table table' : PageTable} {vpn : Nat} {pte : Pte}

/-- The user memory behind a page table. -/
def PageTable.view (table : PageTable) (mem : Mem) : Eager.Pages :=
  fun vpn =>
    if vpn < TRAPFRAME then
      (table.leaves.find vpn).map fun pte => ⟨mem.page pte.frame, pte.born⟩
    else none

theorem PageTable.view_below (below : vpn < TRAPFRAME) (mem : Mem) : table.view mem vpn =
      (table.leaves.find vpn).map fun pte => ⟨mem.page pte.frame, pte.born⟩ :=
  if_pos below

theorem PageTable.view_top (top : TRAPFRAME ≤ vpn) (mem : Mem) : table.view mem vpn = none :=
  if_neg (not_lt.mpr top)

theorem PageTable.view_found (below : vpn < TRAPFRAME) (found : table.leaves.find vpn = some pte)
    (mem : Mem) : table.view mem vpn = some ⟨mem.page pte.frame, pte.born⟩ := by
  rw [view_below below, found]
  rfl

/-! ## Memory that changes elsewhere -/

theorem PageTable.view_kept
    (kept : ∀ vpn pte, vpn < TRAPFRAME → table.leaves.find vpn = some pte →
      after.page pte.frame = mem.page pte.frame) : table.view after = table.view mem := by
  funext vpn
  by_cases below : vpn < TRAPFRAME
  · rw [view_below below, view_below below]
    cases found : table.leaves.find vpn with
    | none => rfl
    | some pte => simp [kept vpn pte below found]
  · rw [view_top (not_lt.mp below), view_top (not_lt.mp below)]

/-- Pages that are referred to elsewhere do not change. -/
theorem PageTable.HeldBy.view (held : table.HeldBy ext)
    (page : ∀ frame, 0 < ext frame → after.page frame = mem.page frame) :
    table.view after = table.view mem :=
  view_kept fun vpn pte below found => page pte.frame (held vpn pte below found)

section

variable (good : Good layout ext mem table.refs) {oldsz newsz sz : Nat}
include good

/-- A mapped page is in use. -/
theorem Good.used (below : vpn < TRAPFRAME) (found : table.leaves.find vpn = some pte) :
    0 < mem.count pte.frame := by
  have bound := good.le_count pte.frame
  have mapped := one_le_refs found below
  have nonneg := good.ext_nonneg pte.frame
  omega

theorem Good.view_allocates (allocates : Allocates mem after) : table.view after = table.view mem :=
  view_kept fun _ _ below found => (allocates.used _ (good.used below found)).2

/-! ## Growing -/

theorem Good.view_grown {perm : Perm} {npages : Nat} (low : vpn + npages ≤ TRAPFRAME)
    (grown : Grown perm vpn npages table mem table' after) :
    table'.view after = (table.view mem).grow perm vpn npages := by
  funext other
  unfold grow
  split_ifs with inside
  · obtain ⟨frame, -, found, -, zero⟩ := grown.inside other inside.1 inside.2
    rw [view_found (by omega) found, Pte.made_frame, zero]
    rfl
  · by_cases below : other < TRAPFRAME
    · rw [view_below below, view_below below, grown.outside other inside]
      cases found : table.leaves.find other with
      | none => rfl
      | some pte => simp [(grown.allocates.used _ (good.used below found)).2]
    · rw [view_top (not_lt.mp below), view_top (not_lt.mp below)]

/-- When no allocation fails `uvmalloc` adds the same pages as the reference kernel. -/
theorem Good.view_uvmalloc {xperm : Perm} (wf : table.WellFormed)
    (fits : oldsz ≤ TRAPFRAME * PGSIZE)
    (outcome : PageTable.uvmalloc layout oldsz newsz xperm table mem = .ok (sz, table', after))
    (succeeded : after.failed = false) :
    (table.view mem).uvmalloc oldsz newsz xperm = (sz, table'.view after) := by
  unfold PageTable.uvmalloc at outcome
  unfold Eager.Pages.uvmalloc
  split_ifs at outcome ⊢ with shrinks
  · cases outcome
    rfl
  · obtain ⟨⟨done, rest, mem'⟩, loop, finished⟩ := ok_of_bind outcome
    cases finished
    have low := pgRoundUp_le fits le_rfl
    obtain ⟨-, -, reached, failed⟩ := good.uvmallocLoop wf low loop
    cases done with
    | false => simp [failed rfl] at succeeded
    | true =>
      rw [good.view_grown (reached rfl) (uvmallocLoop_grown loop)]
      rfl

/-! ## Shrinking -/

/-- A page that is counted once is mapped at one place only. -/
theorem Good.alone (below : vpn < TRAPFRAME) (found : table.leaves.find vpn = some pte)
    (single : mem.count pte.frame = 1) {other : Nat} {entry : Pte} (ne : other ≠ vpn)
    (otherBelow : other < TRAPFRAME) (otherFound : table.leaves.find other = some entry) :
    entry.frame ≠ pte.frame := by
  intro equal
  have twice := two_le_leafRefs ne.symm found below otherFound otherBelow equal
  have bound := good.le_count pte.frame
  have extNonneg := good.ext_nonneg pte.frame
  have nodesNonneg := table.nodesRefs_nonneg pte.frame
  simp only [refs, Pi.add_apply] at bound
  omega

/-- Freeing one page does not change the others of the address space. -/
theorem Good.view_kfree (below : vpn < TRAPFRAME) (found : table.leaves.find vpn = some pte)
    (freed : mem.kfree layout pte.frame = .ok after) :
    ({ table with leaves := table.leaves.erase vpn } : PageTable).view after =
      (table.view mem).shrink vpn 1 := by
  funext other
  unfold shrink
  obtain rfl | same := eq_or_ne other vpn
  · rw [if_pos (by omega), view_below below]
    simp
  · rw [if_neg (by omega)]
    by_cases otherBelow : other < TRAPFRAME
    · rw [view_below otherBelow, view_below otherBelow]
      simp only [FinMap.find_erase, update_of_ne same]
      cases otherFound : table.leaves.find other with
      | none => rfl
      | some entry =>
        have page : after.page entry.frame = mem.page entry.frame := by
          obtain ⟨-, ⟨-, rfl⟩ | ⟨single, rfl⟩⟩ := Mem.kfree_ok freed
          · rfl
          · have ne := good.alone below found single same otherBelow otherFound
            simp [ne]
        simp [page]
    · rw [view_top (not_lt.mp otherBelow), view_top (not_lt.mp otherBelow)]

theorem Good.view_uvmunmap {npages : Nat} (low : vpn + npages ≤ TRAPFRAME)
    (done : PageTable.uvmunmap layout true npages vpn table mem = .ok (table', after)) :
    table'.view after = (table.view mem).shrink vpn npages := by
  induction npages generalizing vpn table mem with
  | zero =>
    cases done
    funext other
    unfold Eager.Pages.shrink
    rw [if_neg (by omega)]
  | succ npages ih =>
    obtain ⟨pte, freed, -, found, free, rest⟩ := uvmunmap_succ done
    have below : vpn < TRAPFRAME := by omega
    have step := good.kfree (PageTable.one_le_refs found below) free
    rw [← leafRef_user below, ← refs_erase found] at step
    rw [ih (good.keeps step) (by omega) rest, good.view_kfree below found free]
    funext other
    unfold shrink
    split_ifs <;> first | rfl | omega

theorem Good.view_uvmdealloc (fits : oldsz ≤ TRAPFRAME * PGSIZE)
    (done : PageTable.uvmdealloc layout oldsz newsz table mem = .ok (sz, table', after)) :
    (table.view mem).uvmdealloc oldsz newsz = (sz, table'.view after) := by
  unfold PageTable.uvmdealloc at done
  unfold Eager.Pages.uvmdealloc
  split_ifs at done ⊢ with grows
  · cases done
    rfl
  · obtain ⟨⟨rest, mem'⟩, unmapped, finished⟩ := ok_of_bind done
    cases finished
    have old := pgRoundUp_le fits le_rfl
    have new := pgRoundUp_le (show newsz ≤ TRAPFRAME * PGSIZE by omega) le_rfl
    rw [good.view_uvmunmap (by omega) unmapped]

/-! ## Writing -/

theorem Good.view_write (below : vpn < TRAPFRAME) (found : table.leaves.find vpn = some pte)
    (single : mem.count pte.frame = 1) (offset : Nat) (bytes : List UInt8) :
    table.view (mem.fill pte.frame ((mem.page pte.frame).write offset bytes)) =
      (table.view mem).write vpn offset bytes := by
  funext other
  unfold write
  obtain rfl | same := eq_or_ne other vpn
  · rw [view_found below found, view_found below found]
    simp
  · rw [update_of_ne same]
    by_cases otherBelow : other < TRAPFRAME
    · rw [view_below otherBelow, view_below otherBelow]
      cases otherFound : table.leaves.find other with
      | none => rfl
      | some entry =>
        have ne := good.alone below found single same otherBelow otherFound
        simp [ne]
    · rw [view_top (not_lt.mp otherBelow), view_top (not_lt.mp otherBelow)]

/-! ## Pages that user code can reach -/

end

/-- The entry of a user page lets the process do at least what the page was made for,
if need be after a fault. -/
structure Serves (_vpn : Nat) (pte : Pte) : Prop where
  frame : pte.frame ≠ 0
  user : pte.perm.user = pte.born.user
  readable : pte.perm.readable = true ∧ pte.born.readable = true
  writable : pte.born.writable = true → pte.perm.writable = true ∨ pte.cow = true

variable {frame : Frame} {va : Nat} {src : List UInt8} {copied : Bool}

theorem Serves.made {perm : Perm} (used : frame ≠ 0) (readable : perm.readable = true) :
    Serves vpn (.made perm frame) :=
  ⟨used, rfl, ⟨readable, readable⟩, .inl⟩

theorem serves_rule : PageRule Serves where
  init := fun _ used => .made used rfl
  heap := fun _ _ used => .made used rfl
  shared := fun _ _ serves => ⟨serves.frame, serves.user, serves.readable, fun _ => .inr rfl⟩
  guarded := fun _ _ serves => ⟨serves.frame, rfl, serves.readable, serves.writable⟩

theorem Serves.resolved (serves : Serves vpn pte) (user : pte.perm.user = true) (used : frame ≠ 0) :
    Serves vpn (pte.resolved frame) :=
  ⟨used, user.symm.trans serves.user, ⟨rfl, serves.readable.2⟩, fun _ => .inl rfl⟩

theorem serves_permits (system : System) (op : Op) : system.Permits Serves op := by
  cases op with
  | exec => exact fun ph _ _ _ _ used _ => .made used rfl
  | store | copyout => exact fun _ _ _ _ _ user _ serves _ used => serves.resolved user used
  | kalloc | kfree | userinit | fork | growproc | freeproc => trivial

theorem PageTable.WellFormed.lookup_eq (wf : table.WellFormed) (vpn : Nat) :
    table.lookup vpn = table.leaves.find vpn := by
  cases found : table.leaves.find vpn with
  | none => simp [lookup, found]
  | some pte => rw [lookup, if_pos (wf.reached vpn pte found), found]

theorem PageTable.WellFormed.lookup (wf : table.WellFormed)
    (found : table.leaves.find vpn = some pte) : table.lookup vpn = some pte :=
  (wf.lookup_eq vpn).trans found

/-- The byte that an address is mapped to. -/
def PageTable.byteAt (table : PageTable) (mem : Mem) (va : Nat) : Option UInt8 :=
  (table.lookup (va / PGSIZE)).map fun pte => mem.page pte.frame (Fin.ofNat PGSIZE va)

theorem PageTable.WellFormed.byteAt_eq_view (wf : table.WellFormed)
    (below : va / PGSIZE < TRAPFRAME) (mem : Mem) :
    table.byteAt mem va =
      (table.view mem (va / PGSIZE)).map fun page => page.data (Fin.ofNat PGSIZE va) := by
  rw [byteAt, wf.lookup_eq, view_below below, map_map]
  rfl

/-- `cowalloc` accepts the user pages of the address space, except page 0. -/
theorem PageTable.accepted_iff (serves : table.Every Serves) (wf : table.WellFormed)
    (va : Nat) (mem : Mem) :
    (∃ pte, Accepted table (va / PGSIZE * PGSIZE) pte) ↔
      va / PGSIZE ≠ 0 ∧ va < MAXVA ∧ (table.view mem).IsUser (va / PGSIZE) := by
  have base : va / PGSIZE * PGSIZE < MAXVA ↔ va < MAXVA := by
    simp only [PGSIZE, MAXVA]
    omega
  constructor
  · rintro ⟨pte, accepted⟩
    obtain ⟨nonzero, lookup⟩ := accepted.page
    have found := find_of_lookup lookup
    have below := wf.user_below found accepted.user
    refine ⟨nonzero, base.mp accepted.below, _, view_found below found mem, ?_⟩
    exact (serves _ _ below found).user ▸ accepted.user
  · rintro ⟨nonzero, maxva, page, shown, user⟩
    have below : va / PGSIZE < TRAPFRAME := by
      by_contra top
      simp [view_top (not_lt.mp top)] at shown
    rw [view_below below] at shown
    obtain ⟨pte, found, rfl⟩ := map_eq_some_iff.mp shown
    have here := serves _ _ below found
    refine ⟨pte, ?_, base.mpr maxva, ?_, here.user.trans user, here.frame⟩
    · simp only [PGSIZE] at *
      omega
    · rw [page_of_base]
      exact wf.lookup found

/-! ## Copy-on-write -/

theorem Mem.krefdecr_ok (done : mem.krefdecr layout frame = .ok after) :
    after = mem.adjust frame (-1) := by
  unfold krefdecr at done
  split_ifs at done
  exact (Except.ok.inj done).symm

/-- The page that `cowalloc` puts in place is a private copy. -/
theorem Good.resolved_page {taken : Mem} (good : Good layout ext mem table.refs)
    (below : vpn < TRAPFRAME) (found : table.leaves.find vpn = some pte)
    (allocated : mem.kalloc = (some frame, taken))
    (dropped : (taken.fill frame (taken.page pte.frame)).krefdecr layout pte.frame = .ok after) :
    after.count frame = 1 ∧ after.page frame = mem.page pte.frame ∧
      ∀ other, 0 < mem.count other → after.page other = mem.page other := by
  have ne : frame ≠ pte.frame := by
    rintro rfl
    exact Mem.kalloc_count allocated (good.used below found)
  rw [Mem.krefdecr_ok dropped]
  have allocates := Allocates.kalloc_fill allocated (taken.page pte.frame)
  refine ⟨?_, ?_, fun other used => (allocates.used other used).2⟩
  · obtain ⟨rest, -, rfl⟩ := Mem.kalloc_some allocated
    simp [ne]
  · obtain ⟨rest, -, rfl⟩ := Mem.kalloc_some allocated
    simp [ne.symm]

/-- `cowalloc` changes no byte of the address space. -/
theorem Good.view_cowalloc {allowed : Bool} (good : Good layout ext mem table.refs)
    (wf : table.WellFormed)
    (done : table.cowalloc layout va mem = .ok (allowed, table', after)) :
    table'.view after = table.view mem := by
  cases cowalloc_outcome done with
  | refused | plain => rfl
  | noMemory _ _ noPage => exact good.view_allocates (.kalloc_none noPage)
  | @resolved pte frame taken _ accepted _ allocated dropped =>
    have below := wf.user_below accepted.find accepted.user
    obtain ⟨-, copied, others⟩ := good.resolved_page below accepted.find allocated dropped
    funext other
    obtain rfl | same := eq_or_ne other (va / PGSIZE)
    · have here : (table.leaves.insert (va / PGSIZE) (pte.resolved frame)).find (va / PGSIZE) =
          some (pte.resolved frame) := by simp
      rw [view_found below here, view_found below accepted.find]
      simp [Pte.resolved, copied]
    · by_cases otherBelow : other < TRAPFRAME
      · rw [view_below otherBelow, view_below otherBelow]
        simp only [FinMap.find_insert, update_of_ne same]
        cases otherFound : table.leaves.find other with
        | none => rfl
        | some entry => simp [others _ (good.used otherBelow otherFound)]
      · rw [view_top (not_lt.mp otherBelow), view_top (not_lt.mp otherBelow)]

/-- Failed allocations are never forgotten. -/
theorem Moves.succeeded {own own' : Frame → ℤ} (moves : Moves layout ext mem own after own')
    (succeeded : after.failed = false) : mem.failed = false := by
  by_contra failed
  simp [moves.failed (by simpa using failed)] at succeeded

/-! ## One turn of `copyout` -/

/-- The ways a turn of `copyout` can end when a page is found or allocated. -/
inductive CopyOutcome (layout : Layout) (table : PageTable) (dstva : Nat) (src : List UInt8)
    (mem : Mem) : Bool → PageTable → Mem → Prop
  | refused (no : ∀ pte, ¬ Accepted table (dstva / PGSIZE * PGSIZE) pte) :
      CopyOutcome layout table dstva src mem false table mem
  | noMemory {after : Mem} (noPage : mem.kalloc = (none, after)) :
      CopyOutcome layout table dstva src mem false table after
  | plain {pte : Pte} (accepted : Accepted table (dstva / PGSIZE * PGSIZE) pte)
      (plain : pte.cow = false) :
      CopyOutcome layout table dstva src mem true table
        (mem.fill pte.frame ((mem.page pte.frame).write (dstva % PGSIZE) src))
  | resolved {pte : Pte} {table' : PageTable} {mem1 : Mem}
      (cow : table.cowalloc layout (dstva / PGSIZE * PGSIZE) mem = .ok (true, table', mem1))
      (accepted : Accepted table (dstva / PGSIZE * PGSIZE) pte)
      {entry : Pte} (found : table'.leaves.find (dstva / PGSIZE) = some entry)
      (single : mem1.count entry.frame = 1) :
      CopyOutcome layout table dstva src mem true table'
        (mem1.fill entry.frame ((mem1.page entry.frame).write (dstva % PGSIZE) src))

theorem PageTable.walkaddr_of_lookup (maxvpn : vpn < MAXVPN) (found : table.lookup vpn = some pte)
    (user : pte.perm.user = true) (used : pte.frame ≠ 0) : table.walkaddr vpn = some pte.frame := by
  rw [walkaddr, if_neg (not_le.mpr maxvpn), found]
  simp [user, used]

theorem Good.copyoutPage_outcome {dstva : Nat} (good : Good layout ext mem table.refs)
    (wf : table.WellFormed)
    (done : table.copyoutPage layout dstva src mem = .ok (copied, table', after)) :
    CopyOutcome layout table dstva src mem copied table' after := by
  unfold PageTable.copyoutPage at done
  split_ifs at done with tooHigh
  · cases done
    exact .refused fun pte accepted => absurd accepted.below (not_lt.mpr tooHigh.le)
  · obtain ⟨⟨allowed, table1, mem1⟩, cow, rest⟩ := ok_of_bind done
    cases cowalloc_outcome cow with
    | refused no =>
      cases rest
      exact .refused no
    | noMemory _ _ noPage =>
      cases rest
      exact .noMemory noPage
    | plain accepted plain =>
      have page := accepted.page.2
      have maxvpn : dstva / PGSIZE < MAXVPN :=
        (wf.user_below (find_of_lookup page) accepted.user).trans (by decide)
      simp only [if_true,
        walkaddr_of_lookup maxvpn page accepted.user accepted.frame] at rest
      cases rest
      exact .plain accepted plain
    | @resolved pte frame taken _ accepted _ allocated dropped =>
      have below := wf.user_below accepted.find accepted.user
      have used : frame ≠ 0 := fun null => good.null_not_free (null ▸ Mem.kalloc_mem allocated)
      have single := (good.resolved_page below accepted.find allocated dropped).1
      have wf' := wf.cowalloc cow
      rw [page_of_base] at below cow rest wf'
      have found : (table.leaves.insert (dstva / PGSIZE) (pte.resolved frame)).find
          (dstva / PGSIZE) = some (pte.resolved frame) := by simp
      simp only [if_true, walkaddr_of_lookup (below.trans (by decide))
        (wf'.lookup found) rfl used] at rest
      cases rest
      exact .resolved cow accepted found single

/-- A turn of `copyout` writes the same bytes as the reference kernel when it does not
run out of memory and the page it writes to without copying is not shared. -/
theorem Good.view_copyoutPage {dstva : Nat} (good : Good layout ext mem table.refs)
    (wf : table.WellFormed) (serves : table.Every Serves)
    (single : ∀ pte, Accepted table (dstva / PGSIZE * PGSIZE) pte → pte.cow = false →
      mem.count pte.frame = 1)
    (done : table.copyoutPage layout dstva src mem = .ok (copied, table', after))
    (succeeded : after.failed = false) :
    (table.view mem).copyoutPage dstva src = (if copied then some (table'.view after) else none) ∧
      (copied = false → table'.view after = table.view mem) := by
  have accepted := table.accepted_iff serves wf dstva mem
  unfold Eager.Pages.copyoutPage
  cases good.copyoutPage_outcome wf done with
  | refused no =>
    rw [if_neg fun reached => (accepted.mpr reached).elim no]
    exact ⟨rfl, fun _ => rfl⟩
  | noMemory noPage =>
    rw [Mem.kalloc_none noPage] at succeeded
    cases succeeded
  | @plain pte accept plain =>
    have found := find_of_lookup accept.page.2
    have below := wf.user_below found accept.user
    rw [if_pos (accepted.mp ⟨pte, accept⟩), good.view_write below found (single pte accept plain)]
    exact ⟨rfl, by simp⟩
  | @resolved pte table' mem1 cow accept entry found alone =>
    have wf' := wf.cowalloc cow
    have good' := good.moves (good.cowalloc wf cow).1
    have below := wf.user_below (find_of_lookup accept.page.2) accept.user
    rw [if_pos (accepted.mp ⟨pte, accept⟩), good'.view_write below found alone,
      good.view_cowalloc wf cow]
    exact ⟨rfl, by simp⟩

/-! ## Loading a program -/

theorem PageTable.Fresh.accepted (fresh : table.Fresh mem) (wf : table.WellFormed)
    (accepted : Accepted table va pte) : mem.count pte.frame = 1 :=
  (fresh _ _ (wf.user_below accepted.find accepted.user) accepted.find).2

section

variable (good : Good layout ext mem table.refs)
include good

variable (wf : table.WellFormed) {program : Program} {loaded : Bool}
include wf

variable (fresh : table.Fresh mem)
include fresh

theorem Good.view_loadsegLoop {va off sz turns i : Nat}
    (done : Space.loadsegLoop program va off sz turns i table mem = .ok (loaded, after)) :
    Eager.Pages.loadsegLoop program va off sz turns i (table.view mem) =
      if loaded then some (table.view after) else none := by
  induction turns generalizing i mem with
  | zero =>
    cases done
    rfl
  | succ turns ih =>
    rw [Space.loadsegLoop] at done
    rw [Eager.Pages.loadsegLoop]
    split at done
    · cases done
    case h_2 frame walked =>
      simp only at done ⊢
      split_ifs at done with complete
      · rw [if_pos complete]
        have first := good.fill_fresh wf fresh walked ((mem.page frame).write 0
          (program.readi ((off + i) % 2 ^ 32) (min (sz - i) PGSIZE)))
        rw [← ih (good.keeps first.keeps) (fresh.rewrites first) done]
        obtain ⟨pte, looked, user, rfl⟩ := walkaddr_some walked
        have found := find_of_lookup looked
        have below := wf.user_below found user
        rw [good.view_write below found (fresh _ _ below found).2]
      · rw [if_neg complete]
        cases done
        rfl

theorem Good.view_copyoutLoop {turns dstva : Nat} {src : List UInt8} {copied : Bool}
    (serves : table.Every Serves)
    (done : PageTable.copyoutLoop layout turns dstva src table mem = .ok (copied, table', after))
    (succeeded : after.failed = false) :
    Eager.Pages.copyoutLoop turns dstva src (table.view mem) =
      if copied then some (table.view after) else none := by
  induction turns generalizing dstva src mem with
  | zero =>
    cases done
    rfl
  | succ turns ih =>
    rw [PageTable.copyoutLoop] at done
    rw [Eager.Pages.copyoutLoop]
    split_ifs at done with empty
    · rw [if_pos empty]
      cases done
      rfl
    · rw [if_neg empty]
      simp only
      obtain ⟨⟨copied1, table1, mem1⟩, page, rest⟩ := ok_of_bind done
      have simulated := good.view_copyoutPage wf serves
        (fun pte accepted _ => fresh.accepted wf accepted) page
      obtain ⟨rfl, ⟨rfl, rfl⟩ | ⟨frame, rfl, found, rfl⟩⟩ :=
        fresh.plain.copyoutPage wf page
      · cases rest
        rw [(simulated succeeded).1]
        rfl
      · have first := good.fill_fresh wf fresh found
          ((mem.page frame).write (dstva % PGSIZE) (src.take (PGSIZE - dstva % PGSIZE)))
        have good1 := good.keeps first.keeps
        have fresh1 := fresh.rewrites first
        obtain ⟨-, second⟩ := good1.copyoutLoop_fresh wf fresh1 rest
        rw [(simulated (second.keeps.succeeded succeeded)).1]
        exact ih good1 fresh1 rest

theorem Good.view_loadSegments {headers : List (Option ProgHdr)} {sz sz' : Nat}
    (fits : sz ≤ TRAPFRAME * PGSIZE)
    (done : Space.loadSegments layout program headers sz table mem =
      .ok (loaded, sz', table', after)) (succeeded : after.failed = false) :
    Eager.Pages.loadSegments program headers sz (table.view mem) =
      if loaded then some (sz', table'.view after) else none := by
  induction headers generalizing sz table mem with
  | nil =>
    cases done
    rfl
  | cons header headers ih =>
    cases header with
    | none =>
      cases done
      rfl
    | some ph =>
      rw [Space.loadSegments] at done
      rw [Eager.Pages.loadSegments]
      split_ifs at done with load checked
      · rw [if_pos load, if_pos checked]
        obtain ⟨⟨sz1, table1, mem1⟩, alloc, rest⟩ := ok_of_bind done
        obtain ⟨first, wf1, fits1⟩ := good.uvmalloc wf fits alloc
        have simulated := good.view_uvmalloc wf fits alloc
        simp only at rest ⊢
        split_ifs at rest with noMemory
        · cases rest
          rw [simulated succeeded]
          exact if_pos noMemory
        · obtain ⟨⟨loaded1, mem2⟩, read, rest⟩ := ok_of_bind rest
          have fresh1 := fresh.uvmalloc noMemory alloc
          have good1 := good.keeps first
          have written := good1.loadsegLoop wf1 fresh1 read
          have fresh2 := fresh1.rewrites written
          have contents := good1.view_loadsegLoop wf1 fresh1 read
          cases loaded1 with
          | true =>
            have good2 := good1.keeps written.keeps
            obtain ⟨third, -⟩ := good2.loadSegments wf1 fresh2 fits1 rest
            have succeeded2 := third.succeeded succeeded
            rw [simulated (written.keeps.succeeded succeeded2), if_neg noMemory]
            rw [Eager.Pages.loadseg, contents]
            exact ih good2 wf1 fresh2 fits1 rest
          | false =>
            cases rest
            rw [simulated (written.keeps.succeeded succeeded), if_neg noMemory]
            rw [Eager.Pages.loadseg, contents]
            rfl
      · rw [if_pos load, if_neg checked]
        cases done
        rfl
      · rw [if_neg load]
        exact ih good wf fresh fits done

theorem Good.view_pushArgs {stackbase sp : Nat} {argv : List (List UInt8)} {ustack : List Nat}
    {done : Bool} (serves : table.Every Serves)
    (outcome : Space.pushArgs layout stackbase argv ustack sp table mem = .ok (done, table', after))
    (succeeded : after.failed = false) :
    Eager.Pages.pushArgs stackbase argv ustack sp (table.view mem) =
      if done then some (table.view after) else none := by
  induction argv generalizing ustack sp mem with
  | nil =>
    rw [Space.pushArgs] at outcome
    rw [Eager.Pages.pushArgs]
    split_ifs at outcome with overflow
    · rw [if_pos overflow]
      cases outcome
      rfl
    · rw [if_neg overflow]
      exact good.view_copyoutLoop wf fresh serves outcome succeeded
  | cons arg argv ih =>
    rw [Space.pushArgs] at outcome
    rw [Eager.Pages.pushArgs]
    simp only at outcome ⊢
    split_ifs at outcome with overflow
    · rw [if_pos overflow]
      cases outcome
      rfl
    · rw [if_neg overflow]
      obtain ⟨⟨copied, table1, mem1⟩, copy, rest⟩ := ok_of_bind outcome
      have simulated := good.view_copyoutLoop wf fresh serves copy
      obtain ⟨rfl, first⟩ := good.copyoutLoop_fresh wf fresh copy
      cases copied with
      | false =>
        cases rest
        rw [Eager.Pages.copyout, simulated succeeded]
        rfl
      | true =>
        have good1 := good.keeps first.keeps
        have fresh1 := fresh.rewrites first
        obtain ⟨-, second⟩ := good1.pushArgs wf fresh1 rest
        rw [Eager.Pages.copyout, simulated (second.keeps.succeeded succeeded)]
        exact ih good1 fresh1 rest

end

theorem PageTable.view_uvmclear (done : table.uvmclear vpn = .ok table') (mem : Mem) :
    table'.view mem = (table.view mem).uvmclear vpn := by
  funext other
  unfold Eager.Pages.uvmclear
  unfold uvmclear at done
  split_ifs at done
  obtain rfl | same := eq_or_ne other vpn
  · rw [update_self]
    by_cases below : other < TRAPFRAME
    · rw [view_below below, view_below below]
      split at done
      case h_1 missing =>
        cases done
        rw [missing]
        rfl
      case h_2 pte found =>
        cases done
        rw [found]
        simp [Pte.guarded]
    · rw [view_top (not_lt.mp below), view_top (not_lt.mp below)]
      rfl
  · rw [update_of_ne same]
    unfold view
    split at done
    · cases done
      rfl
    · cases done
      simp [same]

/-- When no allocation fails, `exec` builds the same image as the reference kernel. -/
theorem Good.view_buildImage {program : Program} {argv : List (List UInt8)} {built : Bool}
    {sz : Nat} (good : Good layout ext mem table.refs) (wf : table.WellFormed)
    (vacant : table.Vacant)
    (outcome : Space.buildImage layout program argv table mem = .ok (built, sz, table', after))
    (succeeded : after.failed = false) :
    Eager.Pages.buildImage program argv (table.view mem) =
      if built then some (sz, table'.view after) else none := by
  have fresh := vacant.fresh mem
  have image : PageTable.ImageProperty Serves program :=
    ⟨fun ph _ _ _ _ used _ => .made used rfl, serves_rule.heap, serves_rule.guarded⟩
  have every := PageTable.Every.buildImage vacant good wf image outcome
  obtain ⟨⟨loaded, sz1, table1, mem1⟩, load, rest⟩ := ok_of_bind outcome
  obtain ⟨first, wf1, fits1, fresh1⟩ :=
    good.loadSegments wf fresh (Nat.zero_le _) load
  have segments := good.view_loadSegments wf fresh (Nat.zero_le _) load
  have rounded := pgRoundUp_mul_le fits1
  unfold Eager.Pages.buildImage
  cases loaded with
  | false =>
    cases rest
    rw [segments succeeded]
    rfl
  | true =>
    obtain ⟨⟨sz2, table2, mem2⟩, alloc, rest⟩ := ok_of_bind rest
    have good1 := good.keeps first
    obtain ⟨second, wf2, -⟩ := good1.uvmalloc wf1 rounded alloc
    have stack := good1.view_uvmalloc wf1 rounded alloc
    simp only at rest
    split_ifs at rest with noMemory
    · cases rest
      rw [segments (second.succeeded succeeded)]
      simp only [if_true, bind_some, stack succeeded]
      exact if_pos noMemory
    · obtain ⟨table3, clear, rest⟩ := ok_of_bind rest
      obtain ⟨⟨done, table4, mem4⟩, push, finished⟩ := ok_of_bind rest
      cases finished
      have wf3 := wf2.uvmclear clear
      have fresh3 := ((fresh1 rfl).uvmalloc noMemory alloc).uvmclear clear
      have sofar := first.trans second
      rw [← PageTable.uvmclear_refs clear] at sofar
      have good3 := good.keeps sofar
      obtain ⟨rfl, third⟩ := good3.pushArgs wf3 fresh3 push
      have arguments := good3.view_pushArgs wf3 fresh3 every push succeeded
      have succeeded2 := third.keeps.succeeded succeeded
      rw [segments (second.succeeded succeeded2)]
      simp only [if_true, bind_some, stack succeeded2, if_neg noMemory]
      rw [← PageTable.view_uvmclear clear, arguments]
      cases done <;> rfl

end Xv6.Vm
