import Xv6.Vm.PageTable

/-!
# Process address spaces

What `kernel/proc.c`, `kernel/exec.c` and `usertrap` of `kernel/trap.c` do with
user memory: creating and freeing a process's page table, `fork`, `exec`,
`growproc`, and a store instruction with its page fault.
-/

namespace Xv6.Vm

/-- The fields of `struct proc` that describe user memory. -/
structure Space where
  trapframe : Frame
  table : PageTable
  sz : Nat := 0
  killed : Bool := false

/-- Subtraction of 64-bit unsigned numbers. -/
def sub64 (a b : Nat) : Nat := (a + 2 ^ 64 - b % 2 ^ 64) % 2 ^ 64

/-- Addition of 64-bit unsigned numbers. -/
def add64 (a b : Nat) : Nat := (a + b) % 2 ^ 64

namespace Space

variable (layout : Layout)

/-! ## Making and freeing page tables -/

/-- The entry that maps the trampoline. -/
def trampolinePte (layout : Layout) : Pte :=
  .made { readable := true, executable := true } layout.trampoline

/-- The entry that maps the trapframe. -/
def trapframePte (trapframe : Frame) : Pte :=
  .made { readable := true, writable := true } trapframe

/-- `proc_pagetable`. -/
def procPagetable (trapframe : Frame) (mem : Mem) : Except Panic (Option PageTable × Mem) :=
  match mem.kalloc with
  | (none, mem) => .ok (none, mem)
  | (some root, mem) => do
    let (mapped, table, mem) ←
      PageTable.mappages { root } TRAMPOLINE (trampolinePte layout) (mem.fill root 0)
    if mapped then
      let (mapped, table, mem) ← table.mappages TRAPFRAME (trapframePte trapframe) mem
      if mapped then .ok (some table, mem)
      else do
        let (table, mem) ← PageTable.uvmunmap layout false 1 TRAMPOLINE table mem
        let mem ← PageTable.uvmfree layout 0 table mem
        .ok (none, mem)
    else do
      let mem ← PageTable.uvmfree layout 0 table mem
      .ok (none, mem)

/-- `proc_freepagetable`. -/
def procFreepagetable (sz : Nat) (table : PageTable) (mem : Mem) : Except Panic Mem := do
  let (table, mem) ← PageTable.uvmunmap layout false 1 TRAMPOLINE table mem
  let (table, mem) ← PageTable.uvmunmap layout false 1 TRAPFRAME table mem
  PageTable.uvmfree layout sz table mem

/-- `allocproc`: a trapframe and a page table without user memory. -/
def allocproc (mem : Mem) : Except Panic (Option Space × Mem) :=
  match mem.kalloc with
  | (none, mem) => .ok (none, mem)
  | (some trapframe, mem) => do
    let (table, mem) ← procPagetable layout trapframe mem
    match table with
    | some table => .ok (some { trapframe, table }, mem)
    | none => do
      let mem ← mem.kfree layout trapframe
      .ok (none, mem)

/-- `freeproc`. -/
def freeproc (space : Space) (mem : Mem) : Except Panic Mem := do
  let mem ← mem.kfree layout space.trapframe
  procFreepagetable layout space.sz space.table mem

/-- `uvmfirst`.  Neither it nor `userinit` checks its allocations; they run when all
of memory is free, and a machine too small for them is not modelled. -/
def uvmfirst (src : List UInt8) (table : PageTable) (mem : Mem) :
    Except Panic (PageTable × Mem) :=
  if PGSIZE ≤ src.length then .error .uvmfirst
  else
    match mem.kalloc with
    | (none, _) => .error .nullStore
    | (some frame, mem) => do
      let (mapped, table, mem) ←
        table.mappages 0 (.made ⟨true, true, true, true⟩ frame) (mem.fill frame 0)
      if mapped then .ok (table, mem.fill frame ((mem.page frame).write 0 src))
      else .error .nullStore

/-- `userinit`. -/
def userinit (initcode : List UInt8) (mem : Mem) : Except Panic (Space × Mem) := do
  let (space, mem) ← allocproc layout mem
  match space with
  | none => .error .nullStore
  | some space => do
    let (table, mem) ← uvmfirst initcode space.table mem
    .ok ({ space with table, sz := PGSIZE }, mem)

/-! ## `fork` and `sbrk` -/

/-- `fork`: the child's space, or `none` for -1. -/
def fork (parent : Space) (mem : Mem) : Except Panic (Option Space × Mem) := do
  let (child, mem) ← allocproc layout mem
  match child with
  | none => .ok (none, mem)
  | some child => do
    let (copied, table, mem) ←
      PageTable.uvmcopy layout parent.table child.table parent.sz mem
    if copied then .ok (some { child with table, sz := parent.sz }, mem)
    else do
      let mem ← freeproc layout { child with table } mem
      .ok (none, mem)

/-- `growproc`: the space afterwards, and whether it returned 0. -/
def growproc (space : Space) (n : ℤ) (mem : Mem) : Except Panic (Bool × Space × Mem) :=
  let newsz := ((space.sz + n) % 2 ^ 64).toNat
  if 0 < n then do
    let (sz, table, mem) ←
      PageTable.uvmalloc layout space.sz newsz { writable := true } space.table mem
    .ok (if sz = 0 then (false, { space with table }, mem)
      else (true, { space with table, sz }, mem))
  else if n < 0 then do
    let (sz, table, mem) ← PageTable.uvmdealloc layout space.sz newsz space.table mem
    .ok (true, { space with table, sz }, mem)
  else .ok (true, space, mem)

end Space

/-! ## `exec` -/

/-- `struct proghdr`. -/
structure ProgHdr where
  /-- `type == ELF_PROG_LOAD`. -/
  load : Bool
  flags : Nat
  off : Nat
  vaddr : Nat
  filesz : Nat
  memsz : Nat
  /-- The size in memory is a 64-bit number. -/
  memsz_lt : memsz < 2 ^ 64 := by decide

/-- What `exec` reads from the file: whether the header is complete and has the
magic number, the program headers (`none` for one that cannot be read in full), and
the bytes of the file. -/
structure Program where
  valid : Bool
  headers : List (Option ProgHdr)
  file : List UInt8

/-- `MAXARG`. -/
abbrev MAXARG : Nat := 32

/-- `flags2perm`. -/
def flags2perm (flags : Nat) : Perm :=
  { writable := flags.testBit 1, executable := flags.testBit 0 }

/-- The checks of `exec` on a segment to load. -/
def ProgHdr.WellFormed (ph : ProgHdr) : Prop :=
  ph.filesz ≤ ph.memsz ∧ ph.vaddr ≤ add64 ph.vaddr ph.memsz ∧ ph.vaddr % PGSIZE = 0

instance (ph : ProgHdr) : Decidable ph.WellFormed :=
  inferInstanceAs (Decidable (_ ∧ _))

/-- The bytes that `readi` delivers, at most `n`. -/
def Program.readi (program : Program) (off n : Nat) : List UInt8 :=
  if 2 ^ 32 ≤ off + n then [] else (program.file.drop off).take n

/-- A 64-bit number in memory. -/
def littleEndian64 (value : Nat) : List UInt8 :=
  (List.range 8).map fun i => UInt8.ofNat (value / 256 ^ i)

namespace Space

variable (layout : Layout) (program : Program)

/-- The loop of `loadseg`, at byte `i` of the segment. -/
def loadsegLoop (va off sz : Nat) :
    (turns i : Nat) → PageTable → Mem → Except Panic (Bool × Mem)
  | 0, _, _, mem => .ok (true, mem)
  | turns + 1, i, table, mem =>
    match table.walkaddr (add64 va i / PGSIZE) with
    | none => .error .loadseg
    | some frame =>
      let n := min (sz - i) PGSIZE
      let bytes := program.readi ((off + i) % 2 ^ 32) n
      let mem := mem.fill frame ((mem.page frame).write 0 bytes)
      if bytes.length = n then loadsegLoop va off sz turns (i + PGSIZE) table mem
      else .ok (false, mem)

/-- `loadseg`; its `offset` and `sz` are 32-bit numbers. -/
def loadseg (va off sz : Nat) (table : PageTable) (mem : Mem) : Except Panic (Bool × Mem) :=
  loadsegLoop program va (off % 2 ^ 32) (sz % 2 ^ 32) (pagesBelow (sz % 2 ^ 32)) 0 table mem

/-- The loop of `exec` over the program headers. -/
def loadSegments : List (Option ProgHdr) → Nat → PageTable → Mem →
    Except Panic (Bool × Nat × PageTable × Mem)
  | [], sz, table, mem => .ok (true, sz, table, mem)
  | none :: _, sz, table, mem => .ok (false, sz, table, mem)
  | some ph :: headers, sz, table, mem =>
    if ph.load then
      if ph.WellFormed then do
        let (sz1, table, mem) ←
          PageTable.uvmalloc layout sz (add64 ph.vaddr ph.memsz) (flags2perm ph.flags) table mem
        if sz1 = 0 then .ok (false, sz, table, mem)
        else do
          let (loaded, mem) ← loadseg program ph.vaddr ph.off ph.filesz table mem
          if loaded then loadSegments headers sz1 table mem
          else .ok (false, sz1, table, mem)
      else .ok (false, sz, table, mem)
    else loadSegments headers sz table mem

/-- `sp -= size; sp -= sp % 16`. -/
def pushed (sp size : Nat) : Nat :=
  let sp := sub64 sp size
  sp - sp % 16

/-- The loop of `exec` over the arguments, and the push of `ustack` after it. -/
def pushArgs (stackbase : Nat) : List (List UInt8) → (ustack : List Nat) → (sp : Nat) →
    PageTable → Mem → Except Panic (Bool × PageTable × Mem)
  | [], ustack, sp, table, mem =>
    let sp := pushed sp ((ustack.length + 1) * 8)
    if sp < stackbase then .ok (false, table, mem)
    else table.copyout layout sp ((ustack ++ [0]).flatMap littleEndian64) mem
  | arg :: argv, ustack, sp, table, mem =>
    let sp := pushed sp (arg.length + 1)
    if MAXARG ≤ ustack.length ∨ sp < stackbase then .ok (false, table, mem)
    else do
      let (copied, table, mem) ← table.copyout layout sp (arg ++ [0]) mem
      if copied then pushArgs stackbase argv (ustack ++ [sp]) sp table mem
      else .ok (false, table, mem)

/-- `exec` between `proc_pagetable` and the commit to the new image: whether it got
that far, and `sz` and the page table at that point. -/
def buildImage (argv : List (List UInt8)) (table : PageTable) (mem : Mem) :
    Except Panic (Bool × Nat × PageTable × Mem) := do
  let (loaded, sz, table, mem) ← loadSegments layout program program.headers 0 table mem
  if loaded then
    let sz := pgRoundUp sz * PGSIZE
    let (sz1, table, mem) ←
      PageTable.uvmalloc layout sz (add64 sz (2 * PGSIZE)) { writable := true } table mem
    if sz1 = 0 then .ok (false, sz, table, mem)
    else do
      let table ← table.uvmclear (sub64 sz1 (2 * PGSIZE) / PGSIZE)
      let (done, table, mem) ← pushArgs layout (sub64 sz1 PGSIZE) argv [] sz1 table mem
      .ok (done, sz1, table, mem)
  else .ok (false, sz, table, mem)

/-- `exec`: the new space, or `none` for -1. -/
def exec (space : Space) (argv : List (List UInt8)) (mem : Mem) :
    Except Panic (Option Space × Mem) :=
  if program.valid then do
    let (table, mem) ← procPagetable layout space.trapframe mem
    match table with
    | none => .ok (none, mem)
    | some table => do
      let (built, sz, table, mem) ← buildImage layout program argv table mem
      if built then do
        let mem ← procFreepagetable layout space.sz space.table mem
        .ok (some { space with table, sz }, mem)
      else do
        let mem ← procFreepagetable layout sz table mem
        .ok (none, mem)
  else .ok (none, mem)

/-! ## Loads and stores -/

/-- The entry the hardware finds for an address. -/
def translate (space : Space) (va : Nat) : Option Pte :=
  if va < MAXVA then space.table.lookup (va / PGSIZE) else none

/-- A load instruction in user mode. -/
def load (space : Space) (va : Nat) (mem : Mem) : Option UInt8 :=
  match space.translate va with
  | none => none
  | some pte =>
    if ¬ space.killed ∧ pte.perm.user ∧ pte.perm.readable then
      some (mem.page pte.frame (Fin.ofNat PGSIZE va))
    else none

/-- A store instruction in user mode that does not fault. -/
def write (space : Space) (va : Nat) (byte : UInt8) (mem : Mem) : Option Mem :=
  match space.translate va with
  | none => none
  | some pte =>
    if pte.perm.user ∧ pte.perm.writable then
      some (mem.fill pte.frame ((mem.page pte.frame).write (va % PGSIZE) [byte]))
    else none

/-- The addresses for which `usertrap` kills the process before it looks further. -/
def Forbidden (sp va : Nat) : Prop :=
  MAXVA ≤ va ∨ (va < sp ∧ sub64 sp PGSIZE ≤ va)

instance (sp va : Nat) : Decidable (Forbidden sp va) :=
  inferInstanceAs (Decidable (_ ∨ _))

/-- A store instruction; `sp` is the user's stack pointer.  When it faults,
`usertrap` handles the fault and the instruction runs again; a second fault would be
handled the same way and changes nothing. -/
def store (space : Space) (va : Nat) (byte : UInt8) (sp : Nat) (mem : Mem) :
    Except Panic (Space × Mem) :=
  match space.write va byte mem with
  | some mem => .ok (space, mem)
  | none => do
    let (resolved, table, mem) ←
      space.table.cowalloc layout (va / PGSIZE * PGSIZE) mem
    let space := { space with table }
    if Forbidden sp va ∨ ¬ resolved then .ok ({ space with killed := true }, mem)
    else .ok (space, (space.write va byte mem).getD mem)

end Space

end Xv6.Vm
