import Xv6.Vm.UserCopy

/-!
# The system call `exec`

`exec` of `kernel/exec.c` with the file system calls around it, and `sys_exec` of
`kernel/sysfile.c`, which fetches the arguments from user memory.  The address space is built by
the functions of `Space`; here they run in a state that also has what `exec` changes or has to give
back: the saved registers, the name of the process, the references to inodes and the locks that it
holds, and the transactions that it has begun and ended.
-/

namespace Xv6.Vm

/-! ## The program file -/

/-- A number that is stored with its low byte first. -/
def ofBytes (bytes : List UInt8) : Nat := bytes.foldr (fun byte rest => byte.toNat + 256 * rest) 0

theorem ofBytes_lt (bytes : List UInt8) : ofBytes bytes < 256 ^ bytes.length := by
  induction bytes with
  | nil => exact Nat.one_pos
  | cons byte bytes ih =>
    have small := byte.toNat_lt
    rw [List.length_cons, Nat.pow_succ]
    simp only [ofBytes, List.foldr_cons] at ih ⊢
    omega

/-- The field of a struct that starts at `offset`. -/
def field (bytes : List UInt8) (offset size : Nat) : Nat := ofBytes ((bytes.drop offset).take size)

/-- `ELF_MAGIC`. -/
abbrev ELF_MAGIC : Nat := 0x464C457F

/-- `struct proghdr`, `none` if it cannot be read in full. -/
def ProgHdr.decode (bytes : List UInt8) : Option ProgHdr :=
  if bytes.length = 56 then
    some
      { load := field bytes 0 4 = 1
        flags := field bytes 4 4
        off := field bytes 8 8
        vaddr := field bytes 16 8
        filesz := field bytes 32 8
        memsz := field bytes 40 8
        memsz_lt := by
          have bound : ((bytes.drop 40).take 8).length ≤ 8 := List.length_take_le ..
          exact (ofBytes_lt _).trans_le (Nat.pow_le_pow_right (by decide) bound) }
  else none

/-- What `exec` reads from a file: the ELF header at its start and `phnum` program headers from
`phoff` on, an `int`. -/
def Program.ofFile (file : List UInt8) : Program :=
  let elf := file.take 64
  let program : Program := { valid := false, headers := [], file }
  { program with
    valid := elf.length = 64 ∧ field elf 0 4 = ELF_MAGIC
    headers := (List.range (field elf 56 2)).map fun i =>
      ProgHdr.decode (program.readi ((field elf 32 8 + 56 * i) % 2 ^ 32) 56) }

/-- `elf.entry`. -/
def Program.entry (program : Program) : Nat := field program.file 24 8

/-- A file with a segment of 100 bytes at address 0, four of them from the file. -/
def smallProgram : List UInt8 :=
  let zeroes (n : Nat) : List UInt8 := .replicate n 0
  let byte (b : UInt8) : List UInt8 := [b]
  ([0x7f, 0x45, 0x4c, 0x46] : List UInt8) ++ zeroes 28 ++ byte 64 ++ zeroes 23 ++ byte 1 ++
    zeroes 7 ++ ([1, 0, 0, 0, 5] : List UInt8) ++ zeroes 27 ++ byte 4 ++ zeroes 7 ++ byte 100 ++
    zeroes 15

example : (Program.ofFile smallProgram).headers.map
    (·.map fun ph => (ph.load, ph.flags, ph.vaddr, ph.filesz, ph.memsz)) =
      [some (true, 5, 0, 4, 100)] := by
  decide

/-! ## The state of a system call -/

/-- The registers in the trapframe that `exec` sets. -/
structure Trapframe where
  epc : Nat
  sp : Nat
  a1 : Nat

/-- The fields of `struct proc` that `exec` changes. -/
structure Caller where
  space : Space
  trapframe : Trapframe
  name : List UInt8

/-- An inode, by its number. -/
abbrev Inode := Nat

/-- Memory, the calling process, and what it holds in the file system. -/
structure Env where
  mem : Mem
  proc : Caller
  /-- The inodes that it has a reference to. -/
  refs : List Inode := []
  /-- The inodes that it has locked. -/
  locks : List Inode := []
  /-- The calls of `begin_op` and of `end_op`. -/
  begun : Nat := 0
  ended : Nat := 0

namespace Env

def beginOp (env : Env) : Env := { env with begun := env.begun + 1 }

def endOp (env : Env) : Env := { env with ended := env.ended + 1 }

/-- The reference that `namei` returns with. -/
def iget (env : Env) (ip : Inode) : Env := { env with refs := ip :: env.refs }

def ilock (env : Env) (ip : Inode) : Env := { env with locks := ip :: env.locks }

def iunlockput (env : Env) (ip : Inode) : Env :=
  { env with refs := env.refs.erase ip, locks := env.locks.erase ip }

end Env

namespace Space

variable (layout : Layout)

/-! ## `exec` -/

/-- The loop of `exec` over the arguments, and the push of `ustack` after it; `sp` is returned
too. -/
def pushArgv (stackbase : Nat) : List (List UInt8) → (ustack : List Nat) → (sp : Nat) →
    PageTable → Mem → Except Panic (Bool × Nat × PageTable × Mem)
  | [], ustack, sp, table, mem =>
    let sp := pushed sp ((ustack.length + 1) * 8)
    if sp < stackbase then .ok (false, sp, table, mem)
    else do
      let (copied, table, mem) ←
        table.copyout layout sp ((ustack ++ [0]).flatMap littleEndian64) mem
      .ok (copied, sp, table, mem)
  | arg :: argv, ustack, sp, table, mem =>
    let sp := pushed sp (arg.length + 1)
    if MAXARG ≤ ustack.length ∨ sp < stackbase then .ok (false, sp, table, mem)
    else do
      let (copied, table, mem) ← table.copyout layout sp (arg ++ [0]) mem
      if copied then pushArgv stackbase argv (ustack ++ [sp]) sp table mem
      else .ok (false, sp, table, mem)

/-- The name of a process that executes a path: what follows the last `/`, at most 15 bytes. -/
def lastElement (path : List UInt8) : List UInt8 :=
  ((path.reverse.takeWhile (· ≠ 0x2f)).reverse).take 15

/-- The end of `exec` after the label `bad`: `pagetable` and `ip` are `none` when they are 0. -/
def execBad (pagetable : Option PageTable) (sz : Nat) (ip : Option Inode) (env : Env) :
    Except Panic (Option Nat × Env) := do
  let mem ←
    match pagetable with
    | none => .ok env.mem
    | some table => procFreepagetable layout sz table env.mem
  let env := { env with mem }
  match ip with
  | none => .ok (none, env)
  | some ip => .ok (none, (env.iunlockput ip).endOp)

/-- `exec` after `sz = PGROUNDUP(sz)` and before the commit to the new image: whether it got that
far, and `sz`, `sp` and the page table at that point. -/
def execStack (argv : List (List UInt8)) (sz : Nat) (table : PageTable) (mem : Mem) :
    Except Panic (Bool × Nat × Nat × PageTable × Mem) := do
  let (sz1, table, mem) ←
    table.uvmalloc layout sz (add64 sz (2 * PGSIZE)) { writable := true } mem
  if sz1 = 0 then .ok (false, sz, sz, table, mem)
  else do
    let table ← table.uvmclear (sub64 sz1 (2 * PGSIZE) / PGSIZE)
    let (done, sp, table, mem) ← pushArgv layout (sub64 sz1 PGSIZE) argv [] sz1 table mem
    .ok (done, sz1, sp, table, mem)

/-- `exec` commits to the new image. -/
def execCommit (program : Program) (path : List UInt8) (argc sz sp : Nat) (table : PageTable)
    (env : Env) : Except Panic (Option Nat × Env) := do
  let old := env.proc.space
  let proc : Caller :=
    { space := { old with table, sz }
      trapframe := { epc := program.entry, sp, a1 := sp }
      name := lastElement path }
  let mem ← procFreepagetable layout old.sz old.table env.mem
  .ok (some argc, { env with mem, proc })

/-- `exec`: the number of arguments, or `none` for -1.  `files` is what `namei` finds. -/
def execCall (files : List UInt8 → Option (Inode × List UInt8)) (path : List UInt8)
    (argv : List (List UInt8)) (env : Env) : Except Panic (Option Nat × Env) :=
  let env := env.beginOp
  match files path with
  | none => .ok (none, env.endOp)
  | some (ip, file) =>
    let env := (env.iget ip).ilock ip
    let program := Program.ofFile file
    if program.valid then do
      let (table, mem) ← procPagetable layout env.proc.space.trapframe env.mem
      match table with
      | none => execBad layout none 0 (some ip) { env with mem }
      | some table => do
        let (loaded, sz, table, mem) ←
          loadSegments layout program program.headers 0 table mem
        if loaded then do
          let env := (env.iunlockput ip).endOp
          let (done, sz, sp, table, mem) ←
            execStack layout argv (pgRoundUp sz * PGSIZE) table mem
          if done then execCommit layout program path argv.length sz sp table { env with mem }
          else execBad layout (some table) sz none { env with mem }
        else execBad layout (some table) sz (some ip) { env with mem }
    else execBad layout none 0 (some ip) env

/-! ## `sys_exec` -/

/-- `MAXPATH`. -/
abbrev MAXPATH : Nat := 128

/-- The loop of `copyinstr`: whether the string ended, and its bytes so far. -/
def copyinstrLoop (table : PageTable) (mem : Mem) : (turns srcva max : Nat) → Bool × List UInt8
  | 0, _, _ => (false, [])
  | turns + 1, srcva, max =>
    if max = 0 then (false, [])
    else
      match table.walkaddr (srcva / PGSIZE) with
      | none => (false, [])
      | some frame =>
        let n := min (PGSIZE - srcva % PGSIZE) max
        let string :=
          (PageTable.pageBytes mem frame (srcva % PGSIZE) n).takeWhile (· ≠ 0)
        if string.length < n then (true, string)
        else
          let (ended, rest) :=
            copyinstrLoop table mem turns ((srcva / PGSIZE + 1) * PGSIZE) (max - n)
          (ended, string ++ rest)

/-- `fetchstr`: whether the string ended, and the bytes before the 0. -/
def fetchstr (space : Space) (mem : Mem) (addr max : Nat) : Bool × List UInt8 :=
  copyinstrLoop space.table mem max addr max

/-- `fetchaddr`: `none` for -1. -/
def fetchaddr (space : Space) (mem : Mem) (addr : Nat) : Option Nat :=
  if space.sz ≤ addr ∨ space.sz < add64 addr 8 then none
  else
    match space.table.copyin mem addr 8 with
    | (true, bytes) => some (ofBytes bytes)
    | (false, _) => none

/-- The loop of `sys_exec` from argument `i` on, with `left` places in `argv`: whether it reached
the end of the array, the pages it took, and the strings in them. -/
def fetchArgs (space : Space) (uargv : Nat) :
    (left i : Nat) → Mem → Bool × List Frame × List (List UInt8) × Mem
  | 0, _, mem => (false, [], [], mem)
  | left + 1, i, mem =>
    match space.fetchaddr mem (add64 uargv (8 * i)) with
    | none => (false, [], [], mem)
    | some uarg =>
      if uarg = 0 then (true, [], [], mem)
      else
        match mem.kalloc with
        | (none, mem) => (false, [], [], mem)
        | (some frame, mem) =>
          match space.fetchstr mem uarg PGSIZE with
          | (false, string) =>
            (false, [frame], [], mem.fill frame ((mem.page frame).write 0 string))
          | (true, string) =>
            let mem := mem.fill frame ((mem.page frame).write 0 (string ++ [0]))
            let (complete, frames, argv, mem) := fetchArgs space uargv left (i + 1) mem
            (complete, frame :: frames, string :: argv, mem)

/-- `sys_exec`, with its two arguments. -/
def sysExec (files : List UInt8 → Option (Inode × List UInt8)) (upath uargv : Nat) (env : Env) :
    Except Panic (Option Nat × Env) :=
  match env.proc.space.fetchstr env.mem upath MAXPATH with
  | (false, _) => .ok (none, env)
  | (true, path) => do
    let (complete, frames, argv, mem) := fetchArgs env.proc.space uargv MAXARG 0 env.mem
    let (ret, env) ←
      if complete then execCall layout files path argv { env with mem }
      else .ok (none, { env with mem })
    let mem ← PageTable.kfreeAll layout frames env.mem
    .ok (ret, { env with mem })

/-! ## The address space -/

section AddressSpace

variable {layout : Layout} {program : Program} {path : List UInt8} {argv : List (List UInt8)}
variable {files : List UInt8 → Option (Inode × List UInt8)} {env env' : Env}
variable {table : PageTable} {mem : Mem} {ret : Option Nat}

/-- The arguments are pushed as in the model without registers. -/
theorem pushArgs_eq (stackbase : Nat) (ustack : List Nat) (sp : Nat) :
    pushArgs layout stackbase argv ustack sp table mem =
      (pushArgv layout stackbase argv ustack sp table mem).map
        fun (done, _, table, mem) => (done, table, mem) := by
  induction argv generalizing ustack sp table mem with
  | nil =>
    rw [pushArgs, pushArgv]
    split_ifs
    · rfl
    · cases table.copyout layout (pushed sp ((ustack.length + 1) * 8))
        ((ustack ++ [0]).flatMap littleEndian64) mem <;> rfl
  | cons arg argv ih =>
    rw [pushArgs, pushArgv]
    split_ifs
    · rfl
    · cases table.copyout layout (pushed sp (arg.length + 1)) (arg ++ [0]) mem with
      | error cause => rfl
      | ok copy =>
        obtain ⟨copied, table', mem'⟩ := copy
        cases copied with
        | true => exact ih _ _
        | false => rfl

/-- How `execStack` gets to its end. -/
theorem execStack_ok {size sz sp : Nat} {done : Bool} {last : PageTable} {after : Mem}
    (outcome : execStack layout argv size table mem = .ok (done, sz, sp, last, after)) :
    ∃ sz1 grown mem1, table.uvmalloc layout size (add64 size (2 * PGSIZE)) { writable := true }
        mem = .ok (sz1, grown, mem1) ∧
      ((sz1 = 0 ∧ done = false ∧ sz = size ∧ last = grown ∧ after = mem1) ∨
        (sz1 ≠ 0 ∧ sz = sz1 ∧ ∃ guarded,
          grown.uvmclear (sub64 sz1 (2 * PGSIZE) / PGSIZE) = .ok guarded ∧
          pushArgv layout (sub64 sz1 PGSIZE) argv [] sz1 guarded mem1 =
            .ok (done, sp, last, after))) := by
  obtain ⟨⟨sz1, grown, mem1⟩, alloc, rest⟩ := ok_of_bind outcome
  refine ⟨sz1, grown, mem1, alloc, ?_⟩
  dsimp only at rest
  split_ifs at rest with failed
  · cases rest
    exact .inl ⟨failed, rfl, rfl, rfl, rfl⟩
  · obtain ⟨guarded, cleared, rest⟩ := ok_of_bind rest
    obtain ⟨⟨done, sp, table', mem2⟩, push, finished⟩ := ok_of_bind rest
    cases finished
    exact .inr ⟨failed, rfl, guarded, cleared, push⟩

/-- The stack is built as in the model without registers. -/
theorem execStack_map (size : Nat) : (execStack layout argv size table mem).map
        (fun (done, sz, _, table, mem) => (done, sz, table, mem)) =
      (do
        let (sz1, table, mem) ←
          table.uvmalloc layout size (add64 size (2 * PGSIZE)) { writable := true } mem
        if sz1 = 0 then .ok (false, size, table, mem)
        else do
          let table ← table.uvmclear (sub64 sz1 (2 * PGSIZE) / PGSIZE)
          let (done, table, mem) ← pushArgs layout (sub64 sz1 PGSIZE) argv [] sz1 table mem
          .ok (done, sz1, table, mem)) := by
  rw [execStack, map_bind]
  congr 1
  funext alloc
  obtain ⟨sz1, grown, mem1⟩ := alloc
  dsimp only
  split_ifs
  · rfl
  · rw [map_bind]
    congr 1
    funext guarded
    rw [map_bind, pushArgs_eq, bind_map]
    rfl

theorem buildImage_eq {sz : Nat} {loaded : PageTable} {mem1 : Mem}
    (load : loadSegments layout program program.headers 0 table mem =
      .ok (true, sz, loaded, mem1)) :
    buildImage layout program argv table mem =
      (execStack layout argv (pgRoundUp sz * PGSIZE) loaded mem1).map
        (fun (done, sz, _, table, mem) => (done, sz, table, mem)) := by
  rw [execStack_map, buildImage, load]
  rfl

/-- What a result says about the address space. -/
def imageOf : Option Nat × Env → Option Space × Mem
  | (some _, env) => (some env.proc.space, env.mem)
  | (none, env) => (none, env.mem)

theorem execBad_imageOf (sz : Nat) (ip : Option Inode) :
    (execBad layout (some table) sz ip env).map imageOf =
      procFreepagetable layout sz table env.mem >>= fun mem => .ok (none, mem) := by
  rw [execBad, map_bind]
  congr 1
  funext mem
  cases ip <;> rfl

/-- The memory and the address space after `exec` are those of the model without registers. -/
theorem execCall_imageOf {ip : Inode} {file : List UInt8} (found : files path = some (ip, file)) :
    (execCall layout files path argv env).map imageOf =
      env.proc.space.exec layout (Program.ofFile file) argv env.mem := by
  unfold execCall Space.exec
  simp only [found]
  split_ifs
  · rw [map_bind]
    congr 1
    funext made
    obtain ⟨made, mem1⟩ := made
    cases made with
    | none => rfl
    | some first =>
      dsimp only
      rw [map_bind]
      cases load : loadSegments layout (Program.ofFile file) (Program.ofFile file).headers 0
          first mem1 with
      | error cause =>
        rw [buildImage, load]
        rfl
      | ok loaded =>
        obtain ⟨loaded, sz, table, mem2⟩ := loaded
        cases loaded with
        | true =>
          rw [buildImage_eq load, bind_map]
          change Except.map imageOf (execStack .. >>= _) = _
          rw [map_bind]
          congr 1
          funext built
          obtain ⟨done, sz, sp, table, mem⟩ := built
          cases done with
          | true => exact map_bind ..
          | false =>
            change (execBad layout (some table) sz none _).map imageOf = _
            rw [execBad_imageOf]
            rfl
        | false =>
          rw [buildImage, load]
          change (execBad layout (some table) sz (some ip) _).map imageOf = _
          rw [execBad_imageOf]
          rfl
  · rfl

/-- The ways `exec` can end: there is no such file, the new image is given up, or it replaces the
old one. -/
inductive CallOutcome (layout : Layout) (files : List UInt8 → Option (Inode × List UInt8))
    (path : List UInt8) (argv : List (List UInt8)) (env : Env) : Option Nat → Env → Prop
  | notFound (missing : files path = none) :
      CallOutcome layout files path argv env none env.beginOp.endOp
  | failed {ip : Inode} {file : List UInt8} {mem : Mem} (found : files path = some (ip, file)) :
      CallOutcome layout files path argv env none { env.beginOp.endOp with mem }
  | committed {ip : Inode} {file : List UInt8} {first loaded last : PageTable}
      {mem1 mem2 mem3 mem : Mem} {size sz sp : Nat} (found : files path = some (ip, file))
      (made : procPagetable layout env.proc.space.trapframe env.mem = .ok (some first, mem1))
      (load : loadSegments layout (Program.ofFile file) (Program.ofFile file).headers 0 first mem1 =
        .ok (true, size, loaded, mem2))
      (stack : execStack layout argv (pgRoundUp size * PGSIZE) loaded mem2 =
        .ok (true, sz, sp, last, mem3))
      (freed : procFreepagetable layout env.proc.space.sz env.proc.space.table mem3 = .ok mem) :
      CallOutcome layout files path argv env (some argv.length)
        { env.beginOp.endOp with
          mem
          proc :=
            { space := { env.proc.space with table := last, sz }
              trapframe := { epc := (Program.ofFile file).entry, sp, a1 := sp }
              name := lastElement path } }

/-- `iunlockput` gives back what `namei` and `ilock` took. -/
@[simp] theorem iunlockput_ilock_iget (env : Env) (ip : Inode) :
    ((env.iget ip).ilock ip).iunlockput ip = env := by
  simp [Env.iget, Env.ilock, Env.iunlockput]

theorem execBad_ok {pagetable : Option PageTable} {sz : Nat} {ip : Option Inode}
    (done : execBad layout pagetable sz ip env = .ok (ret, env')) :
    ∃ mem, ret = none ∧
      env' = (ip.elim { env with mem } fun ip => ({ env with mem }.iunlockput ip).endOp) := by
  unfold execBad at done
  cases pagetable with
  | none => cases ip <;> cases done <;> exact ⟨env.mem, rfl, rfl⟩
  | some table =>
    obtain ⟨mem, -, rest⟩ := ok_of_bind done
    cases ip <;> cases rest <;> exact ⟨mem, rfl, rfl⟩

theorem execCall_outcome (outcome : execCall layout files path argv env = .ok (ret, env')) :
    CallOutcome layout files path argv env ret env' := by
  -- every way to `bad` with the inode still locked ends in the same state but for memory
  have undone : ∀ {ip file pagetable sz mem}, files path = some (ip, file) →
      execBad layout pagetable sz (some ip) { (env.beginOp.iget ip).ilock ip with mem } =
        .ok (ret, env') → CallOutcome layout files path argv env ret env' := by
    intro ip file pagetable sz mem found bad
    obtain ⟨after, rfl, rfl⟩ := execBad_ok bad
    have state : ({ (env.beginOp.iget ip).ilock ip with mem := after }.iunlockput ip).endOp =
        { env.beginOp.endOp with mem := after } := by
      simp [Env.iget, Env.ilock, Env.iunlockput, Env.endOp]
    change CallOutcome layout files path argv env none
      ({ (env.beginOp.iget ip).ilock ip with mem := after }.iunlockput ip).endOp
    rw [state]
    exact .failed found
  unfold execCall at outcome
  split at outcome
  case h_1 missing =>
    cases outcome
    exact .notFound missing
  case h_2 ip file found =>
    dsimp only at outcome
    split_ifs at outcome
    · obtain ⟨⟨made, mem1⟩, created, rest⟩ := ok_of_bind outcome
      cases made with
      | none => exact undone found rest
      | some first =>
        obtain ⟨⟨done, size, loaded, mem2⟩, load, rest⟩ := ok_of_bind rest
        cases done with
        | false =>
          simp only [Bool.false_eq_true, if_false] at rest
          exact undone found rest
        | true =>
          obtain ⟨⟨built, sz, sp, last, mem3⟩, stack, rest⟩ := ok_of_bind rest
          rw [iunlockput_ilock_iget] at rest
          cases built with
          | true =>
            obtain ⟨mem, freed, finished⟩ := ok_of_bind rest
            cases finished
            exact .committed found created load stack freed
          | false =>
            simp only [Bool.false_eq_true, if_false] at rest
            obtain ⟨mem, rfl, rfl⟩ := execBad_ok rest
            exact .failed found
    · exact undone found outcome

end AddressSpace

end Space

end Xv6.Vm
