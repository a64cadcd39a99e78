import Xv6.Lib.FinMap
import Xv6.Vm.Mem

/-!
# User page tables

The functions of `kernel/vm.c` that build, change, copy and free a user page
table, and `cowalloc` of `kernel/trap.c`.  A page table is kept as the three
levels it has: the root, the page-table pages of the middle and the lowest level,
and the valid leaf entries.  Virtual addresses are cut into page numbers; the
middle page of page number `vpn` has index `vpn / 2^18`, the lowest `vpn / 2^9`.
-/

namespace Xv6.Vm

/-- One bit less than the largest address that Sv39 allows. -/
abbrev MAXVA : Nat := 2 ^ 38

/-- The number of virtual pages below `MAXVA`. -/
abbrev MAXVPN : Nat := MAXVA / PGSIZE

/-- The page number of `TRAMPOLINE`. -/
abbrev TRAMPOLINE : Nat := MAXVPN - 1

/-- The page number of `TRAPFRAME`; user memory lies below it. -/
abbrev TRAPFRAME : Nat := MAXVPN - 2

/-- `PTE_R`, `PTE_W`, `PTE_X` and `PTE_U`. -/
structure Perm where
  readable : Bool := false
  writable : Bool := false
  executable : Bool := false
  user : Bool := false
  deriving DecidableEq, Repr

/-- A valid leaf entry.  `cow` is `PTE_C`.  The kernel does not store `born`: it
records the permissions with which the page was made in this address space or in
the one it was forked from. -/
structure Pte where
  perm : Perm
  cow : Bool := false
  frame : Frame
  born : Perm
  deriving DecidableEq, Repr

/-- `PTE_R | PTE_U | xperm`. -/
def Perm.forUser (xperm : Perm) : Perm := { xperm with readable := true, user := true }

/-- The entry of a page that is made with the given permissions. -/
@[simps]
def Pte.made (perm : Perm) (frame : Frame) : Pte := { perm, frame, born := perm }

/-- `PTE_FLAGS(*pte) == PTE_V`. -/
def Pte.pointsToTable (pte : Pte) : Bool :=
  pte.perm == {} && !pte.cow

/-- The entry that `uvmcopy` gives the child: without `PTE_W`, with `PTE_C`. -/
def Pte.shared (pte : Pte) : Pte :=
  { pte with perm := { pte.perm with writable := false }, cow := true }

/-- The entry after `uvmclear`. -/
def Pte.guarded (pte : Pte) : Pte :=
  { pte with
    perm := { pte.perm with user := false }
    born := { pte.born with user := false } }

/-- The entry that `cowalloc` writes: the new page with every permission. -/
def Pte.resolved (pte : Pte) (frame : Frame) : Pte :=
  { pte with perm := ⟨true, true, true, true⟩, cow := false, frame }

/-- A three-level page table. -/
structure PageTable where
  root : Frame
  mids : FinMap Nat Frame := .empty
  lows : FinMap Nat Frame := .empty
  leaves : FinMap Nat Pte := .empty

/-- `PGROUNDUP(sz) / PGSIZE`, in 64-bit arithmetic. -/
def pgRoundUp (sz : Nat) : Nat := (sz + (PGSIZE - 1)) % 2 ^ 64 / PGSIZE

/-- The number of turns of a loop from 0 up to `sz` in steps of `PGSIZE`. -/
def pagesBelow (sz : Nat) : Nat := (sz + (PGSIZE - 1)) / PGSIZE

/-- Overwrite part of a page, as `memmove` does. -/
def Page.write (page : Page) (offset : Nat) (bytes : List UInt8) : Page :=
  fun i => if offset ≤ i then (bytes[i.val - offset]?).getD (page i) else page i

namespace PageTable

variable (layout : Layout)

/-- `walk` without allocation finds an entry for the page. -/
def reaches (table : PageTable) (vpn : Nat) : Bool :=
  (table.mids.find (vpn / 2 ^ 18)).isSome && (table.lows.find (vpn / 2 ^ 9)).isSome

/-- The entry that `walk(pagetable, va, 0)` finds, when it is valid. -/
def lookup (table : PageTable) (vpn : Nat) : Option Pte :=
  if table.reaches vpn then table.leaves.find vpn else none

/-- One level of `walk` with allocation. -/
def walkLevel (nodes : FinMap Nat Frame) (index : Nat) (mem : Mem) :
    Option (FinMap Nat Frame) × Mem :=
  match nodes.find index with
  | some _ => (some nodes, mem)
  | none =>
    match mem.kalloc with
    | (none, mem) => (none, mem)
    | (some frame, mem) => (some (nodes.insert index frame), mem.fill frame 0)

/-- `walk` with allocation, below `MAXVA`. -/
def walk (table : PageTable) (vpn : Nat) (mem : Mem) : Bool × PageTable × Mem :=
  match walkLevel table.mids (vpn / 2 ^ 18) mem with
  | (none, mem) => (false, table, mem)
  | (some mids, mem) =>
    match walkLevel table.lows (vpn / 2 ^ 9) mem with
    | (none, mem) => (false, { table with mids }, mem)
    | (some lows, mem) => (true, { table with mids, lows }, mem)

/-- `walkaddr`, with `none` for the address 0. -/
def walkaddr (table : PageTable) (vpn : Nat) : Option Frame :=
  if MAXVPN ≤ vpn then none
  else
    match table.lookup vpn with
    | none => none
    | some pte => if pte.perm.user ∧ pte.frame ≠ 0 then some pte.frame else none

/-- `mappages` for one page; every caller in user memory code maps one. -/
def mappages (table : PageTable) (vpn : Nat) (pte : Pte) (mem : Mem) :
    Except Panic (Bool × PageTable × Mem) :=
  if MAXVPN ≤ vpn then .error .walk
  else
    match table.walk vpn mem with
    | (false, table, mem) => .ok (false, table, mem)
    | (true, table, mem) =>
      match table.leaves.find vpn with
      | some _ => .error .remap
      | none => .ok (true, { table with leaves := table.leaves.insert vpn pte }, mem)

/-- `kfree` when `do_free` is set. -/
def freeIf (doFree : Bool) (frame : Frame) (mem : Mem) : Except Panic Mem :=
  if doFree then mem.kfree layout frame else .ok mem

/-- `uvmunmap`: remove `npages` leaves from page `vpn` up. -/
def uvmunmap (doFree : Bool) :
    (npages vpn : Nat) → PageTable → Mem → Except Panic (PageTable × Mem)
  | 0, _, table, mem => .ok (table, mem)
  | npages + 1, vpn, table, mem =>
    if MAXVPN ≤ vpn then .error .walk
    else if ¬ table.reaches vpn then .error .unmapWalk
    else
      match table.leaves.find vpn with
      | none => .error .notMapped
      | some pte =>
        if pte.pointsToTable then .error .notLeaf
        else do
          let mem ← freeIf layout doFree pte.frame mem
          uvmunmap doFree npages (vpn + 1)
            { table with leaves := table.leaves.erase vpn } mem

/-- `uvmdealloc`; the first result is the new size. -/
def uvmdealloc (oldsz newsz : Nat) (table : PageTable) (mem : Mem) :
    Except Panic (Nat × PageTable × Mem) :=
  if oldsz ≤ newsz then .ok (oldsz, table, mem)
  else do
    let (table, mem) ← uvmunmap layout true (pgRoundUp oldsz - pgRoundUp newsz)
      (pgRoundUp newsz) table mem
    .ok (newsz, table, mem)

/-- The failure exit of `uvmalloc`: give up the pages from `base` to `vpn`. -/
def uvmallocUndo (base vpn : Nat) (table : PageTable) (mem : Mem) :
    Except Panic (Bool × PageTable × Mem) := do
  let (_, table, mem) ← uvmdealloc layout (vpn * PGSIZE) (base * PGSIZE) table mem
  .ok (false, table, mem)

/-- The loop of `uvmalloc`: add `npages` zeroed pages from page `vpn` up. -/
def uvmallocLoop (perm : Perm) (base : Nat) :
    (npages vpn : Nat) → PageTable → Mem → Except Panic (Bool × PageTable × Mem)
  | 0, _, table, mem => .ok (true, table, mem)
  | npages + 1, vpn, table, mem =>
    match mem.kalloc with
    | (none, mem) => uvmallocUndo layout base vpn table mem
    | (some frame, mem) => do
      let (mapped, table, mem) ← mappages table vpn (.made perm frame) (mem.fill frame 0)
      if mapped then uvmallocLoop perm base npages (vpn + 1) table mem
      else do
        let mem ← mem.kfree layout frame
        uvmallocUndo layout base vpn table mem

/-- `uvmalloc`; the first result is the new size, 0 when memory ran out. -/
def uvmalloc (oldsz newsz : Nat) (xperm : Perm) (table : PageTable) (mem : Mem) :
    Except Panic (Nat × PageTable × Mem) :=
  if newsz < oldsz then .ok (oldsz, table, mem)
  else do
    let base := pgRoundUp oldsz
    let (done, table, mem) ←
      uvmallocLoop layout xperm.forUser base (pagesBelow newsz - base) base table mem
    .ok (if done then newsz else 0, table, mem)

/-- `kfree` each page of a list. -/
def kfreeAll : List Frame → Mem → Except Panic Mem
  | [], mem => .ok mem
  | frame :: frames, mem => do
    let mem ← mem.kfree layout frame
    kfreeAll frames mem

/-- The page-table pages in the order in which `freewalk` leaves them: by index, a page of the
middle level after those of the lowest level below it, and the root last. -/
def nodes (table : PageTable) : List Frame :=
  let lows := table.lows.keys.map fun index => (2 * index, table.lows.find index)
  let mids := table.mids.keys.map fun index =>
    (2 * (2 ^ 9 * index + 511) + 1, table.mids.find index)
  ((lows ++ mids).insertionSort (·.1 ≤ ·.1)).filterMap Prod.snd ++ [table.root]

theorem nodes_perm (table : PageTable) :
    table.nodes.Perm (table.lows.values ++ table.mids.values ++ [table.root]) := by
  refine .append_right _ (((List.perm_insertionSort _ _).filterMap _).trans (.of_eq ?_))
  simp only [List.filterMap_append, List.filterMap_map]
  rfl

/-- `freewalk`. -/
def freewalk (table : PageTable) (mem : Mem) : Except Panic Mem :=
  if table.leaves.keys = [] then kfreeAll layout table.nodes mem else .error .freewalkLeaf

/-- `uvmfree`. -/
def uvmfree (sz : Nat) (table : PageTable) (mem : Mem) : Except Panic Mem := do
  let (table, mem) ← uvmunmap layout true (pgRoundUp sz) 0 table mem
  freewalk layout table mem

/-- `uvmcopy` from page `vpn` on: share `npages` pages of `old` with `new`. -/
def uvmcopyLoop (old : PageTable) :
    (npages vpn : Nat) → PageTable → Mem → Except Panic (Bool × PageTable × Mem)
  | 0, _, new, mem => .ok (true, new, mem)
  | npages + 1, vpn, new, mem =>
    if MAXVPN ≤ vpn then .error .walk
    else if ¬ old.reaches vpn then .error .copyNoPte
    else
      match old.leaves.find vpn with
      | none => .error .copyNotPresent
      | some pte => do
        let mem ← mem.krefincr layout pte.frame
        let (mapped, new, mem) ← mappages new vpn pte.shared mem
        if mapped then uvmcopyLoop old npages (vpn + 1) new mem
        else do
          let (new, mem) ← uvmunmap layout true vpn 0 new mem
          .ok (false, new, mem)

/-- `uvmcopy`. -/
def uvmcopy (old new : PageTable) (sz : Nat) (mem : Mem) :
    Except Panic (Bool × PageTable × Mem) :=
  uvmcopyLoop layout old (pagesBelow sz) 0 new mem

/-- `uvmclear`. -/
def uvmclear (table : PageTable) (vpn : Nat) : Except Panic PageTable :=
  if MAXVPN ≤ vpn then .error .walk
  else if ¬ table.reaches vpn then .error .uvmclear
  else
    match table.leaves.find vpn with
    | none => .ok table
    | some pte => .ok { table with leaves := table.leaves.insert vpn pte.guarded }

/-- `cowalloc`; `false` stands for -1. -/
def cowalloc (table : PageTable) (va : Nat) (mem : Mem) :
    Except Panic (Bool × PageTable × Mem) :=
  if va = 0 ∨ MAXVA ≤ va then .ok (false, table, mem)
  else
    match table.lookup (va / PGSIZE) with
    | none => .ok (false, table, mem)
    | some pte =>
      if ¬ pte.perm.user ∨ pte.frame = 0 then .ok (false, table, mem)
      else if pte.cow then
        match mem.kalloc with
        | (none, mem) => .ok (false, table, mem)
        | (some frame, mem) => do
          let mem ← (mem.fill frame (mem.page pte.frame)).krefdecr layout pte.frame
          .ok (true,
            { table with leaves := table.leaves.insert (va / PGSIZE) (pte.resolved frame) },
            mem)
      else .ok (true, table, mem)

/-- One turn of the loop of `copyout`: the bytes that go to one page. -/
def copyoutPage (table : PageTable) (dstva : Nat) (src : List UInt8) (mem : Mem) :
    Except Panic (Bool × PageTable × Mem) :=
  if MAXVA < dstva / PGSIZE * PGSIZE then .ok (false, table, mem)
  else do
    let (allowed, table, mem) ← table.cowalloc layout (dstva / PGSIZE * PGSIZE) mem
    if allowed then
      match table.walkaddr (dstva / PGSIZE) with
      | none => .ok (false, table, mem)
      | some frame =>
        .ok (true, table, mem.fill frame ((mem.page frame).write (dstva % PGSIZE) src))
    else .ok (false, table, mem)

/-- The loop of `copyout`; each turn copies at least one byte. -/
def copyoutLoop : (turns dstva : Nat) → List UInt8 → PageTable → Mem →
    Except Panic (Bool × PageTable × Mem)
  | 0, _, _, table, mem => .ok (true, table, mem)
  | turns + 1, dstva, src, table, mem =>
    if src = [] then .ok (true, table, mem)
    else do
      let n := PGSIZE - dstva % PGSIZE
      let (copied, table, mem) ← table.copyoutPage layout dstva (src.take n) mem
      if copied then copyoutLoop turns ((dstva / PGSIZE + 1) * PGSIZE) (src.drop n) table mem
      else .ok (false, table, mem)

/-- `copyout`; `false` stands for -1. -/
def copyout (table : PageTable) (dstva : Nat) (src : List UInt8) (mem : Mem) :
    Except Panic (Bool × PageTable × Mem) :=
  copyoutLoop layout src.length dstva src table mem

end PageTable

end Xv6.Vm
