import Xv6.Vm.ExecTrace

/-!
# The arguments of a new program

`exec` of `kernel/exec.c` copies the argument strings to the new stack, each below the one before,
and an array of pointers to them below all strings.  A program that starts at `sp` finds there
exactly the strings that were passed.
-/

namespace Xv6.Vm

open Transition PageTable Space List Option

/-! ## Reading through a page table -/

section Reading

variable (read : Nat → Option UInt8)

/-- The `n` bytes from an address on. -/
def readBytes : (n va : Nat) → Option (List UInt8)
  | 0, _ => some []
  | n + 1, va => (read va).bind fun byte => (readBytes n (va + 1)).map (byte :: ·)

/-- The 64-bit number at an address. -/
def readWord (va : Nat) : Option Nat := (readBytes read 8 va).map ofBytes

/-- The string at an address, up to the 0 that ends it. -/
def readString : (fuel va : Nat) → Option (List UInt8)
  | 0, _ => none
  | fuel + 1, va =>
    (read va).bind fun byte =>
      if byte = 0 then some [] else (readString fuel (va + 1)).map (byte :: ·)

/-- The array of pointers at an address, up to the null pointer that ends it. -/
def readPointers : (fuel va : Nat) → Option (List Nat)
  | 0, _ => none
  | fuel + 1, va =>
    (readWord read va).bind fun pointer =>
      if pointer = 0 then some [] else (readPointers fuel (va + 8)).map (pointer :: ·)

/-- The arguments that a program finds: `argc` pointers at `argv`, and a string at each. -/
def readArgs (argc argv : Nat) : Option (List (List UInt8)) :=
  (readPointers read (argc + 1) argv).bind fun pointers =>
    if pointers.length = argc then pointers.mapM (readString read PGSIZE) else none

/-- The bytes from an address on are the given ones. -/
def Holds (va : Nat) (bytes : List UInt8) : Prop :=
  ∀ i (inside : i < bytes.length), read (va + i) = some bytes[i]

variable {read} {va fuel : Nat}

variable {bytes : List UInt8} {bytes more : List UInt8} {string : List UInt8} {pointers : List Nat}

theorem Holds.head {byte : UInt8} (holds : Holds read va (byte :: bytes)) : read va = some byte :=
  holds 0 (by simp)

theorem Holds.tail {byte : UInt8} (holds : Holds read va (byte :: bytes)) :
    Holds read (va + 1) bytes := by
  intro i inside
  have next := holds (i + 1) (by simpa using inside)
  rwa [getElem_cons_succ, show va + (i + 1) = va + 1 + i by omega] at next

theorem Holds.left (holds : Holds read va (bytes ++ more)) : Holds read va bytes := by
  intro i inside
  have here := holds i (by rw [length_append]; omega)
  rwa [getElem_append_left inside] at here

theorem Holds.right (holds : Holds read va (bytes ++ more)) :
    Holds read (va + bytes.length) more := by
  intro i inside
  have here := holds (bytes.length + i) (by rw [length_append]; omega)
  simpa [getElem_append_right, Nat.add_assoc] using here

/-- The same bytes, read another way. -/
theorem Holds.congr {read' : Nat → Option UInt8} (holds : Holds read va bytes)
    (same : ∀ addr, va ≤ addr → addr < va + bytes.length → read' addr = read addr) :
    Holds read' va bytes := by
  intro i inside
  rw [same (va + i) (by omega) (by omega), holds i inside]

theorem Holds.readBytes (holds : Holds read va bytes) :
    readBytes read bytes.length va = some bytes := by
  induction bytes generalizing va with
  | nil => rfl
  | cons byte bytes ih =>
    rw [length_cons, Vm.readBytes, holds.head, bind_some, ih holds.tail, map_some]

theorem littleEndian64_length (value : Nat) : (littleEndian64 value).length = 8 := by
  simp [littleEndian64]

/-- A 64-bit number is read as it was written. -/
theorem ofBytes_littleEndian64 {value : Nat} (small : value < 2 ^ 64) :
    ofBytes (littleEndian64 value) = value := by
  simp only [littleEndian64, range, range.loop, map_cons, map_nil, ofBytes,
    foldr_cons, foldr_nil, UInt8.toNat_ofNat']
  omega

theorem Holds.readWord {value : Nat} (holds : Holds read va (littleEndian64 value))
    (small : value < 2 ^ 64) : readWord read va = some value := by
  have bytes := holds.readBytes
  rw [littleEndian64_length] at bytes
  rw [Vm.readWord, bytes, map_some, ofBytes_littleEndian64 small]

theorem Holds.readString (holds : Holds read va (string ++ [0])) (noNul : 0 ∉ string)
    (enough : string.length < fuel) :
    readString read fuel va = some string := by
  induction string generalizing va fuel with
  | nil =>
    obtain ⟨fuel, rfl⟩ := Nat.exists_eq_succ_of_ne_zero (Nat.ne_of_gt enough)
    rw [Vm.readString, holds.head, bind_some, if_pos rfl]
  | cons byte string ih =>
    obtain ⟨fuel, rfl⟩ := Nat.exists_eq_succ_of_ne_zero (Nat.ne_zero_of_lt enough)
    rw [mem_cons, not_or] at noNul
    rw [length_cons] at enough
    rw [Vm.readString, holds.head, bind_some, if_neg (Ne.symm noNul.1),
      ih holds.tail noNul.2 (by omega), map_some]

/-- A string that can be read. -/
theorem holds_of_readString (found : readString read fuel va = some string) :
    0 ∉ string ∧ string.length < fuel ∧ Holds read va (string ++ [0]) := by
  induction fuel generalizing va string with
  | zero => cases found
  | succ fuel ih =>
    obtain ⟨byte, first, found⟩ := bind_eq_some_iff.mp found
    split_ifs at found with nul
    · cases found
      refine ⟨nofun, Nat.succ_pos fuel, fun i inside => ?_⟩
      obtain rfl : i = 0 := Nat.lt_one_iff.mp inside
      rw [Nat.add_zero, first, nul]
      rfl
    · obtain ⟨rest, later, rfl⟩ := map_eq_some_iff.mp found
      obtain ⟨noNul, short, holds⟩ := ih later
      refine ⟨by simp [noNul, Ne.symm nul], Nat.succ_lt_succ short, fun i inside => ?_⟩
      cases i with
      | zero => exact first
      | succ i =>
        rw [← Nat.add_assoc, Nat.add_right_comm]
        exact holds i (Nat.lt_of_succ_lt_succ inside)

/-- A string in the `n` bytes of a page, or one that goes on behind them. -/
theorem readString_page {mem : Mem} {frame : Frame} {n rest offset : Nat} (mapped : ∀ i < n,
      read (va + i) = some (mem.page frame (Fin.ofNat PGSIZE (offset + i)))) :
    readString read (n + rest) va =
      let string := (pageBytes mem frame offset n).takeWhile (· ≠ 0)
      if string.length < n then some string
      else (readString read rest (va + n)).map (string ++ ·) := by
  induction n generalizing va offset with
  | zero => simp [pageBytes]
  | succ n ih =>
    have bytes : pageBytes mem frame offset (n + 1) =
        mem.page frame (Fin.ofNat PGSIZE offset) :: pageBytes mem frame (offset + 1) n := by
      simp [pageBytes, range_succ_eq_map, Nat.add_assoc, Nat.add_comm 1]
    have later := @ih (va + 1) (offset + 1) fun i below => by
      simpa only [Nat.add_assoc, Nat.add_comm 1] using mapped (i + 1) (Nat.succ_lt_succ below)
    have first : read va = some (mem.page frame (Fin.ofNat PGSIZE offset)) :=
      mapped 0 (Nat.succ_pos n)
    rw [Nat.add_right_comm, readString, first, bind_some, later, bytes, takeWhile_cons,
      Nat.add_right_comm va, Nat.add_assoc va]
    generalize mem.page frame (Fin.ofNat PGSIZE offset) = byte
    by_cases nul : byte = 0
    · simp [nul]
    · simp only [nul, if_false, ne_eq, not_false_eq_true, decide_true, if_true, length_cons,
        Nat.add_lt_add_iff_right]
      split_ifs
      · rfl
      · rw [Option.map_map]
        rfl

theorem Holds.readPointers (holds : Holds read va ((pointers ++ [0]).flatMap littleEndian64))
    (valid : ∀ pointer ∈ pointers, pointer ≠ 0 ∧ pointer < 2 ^ 64)
    (enough : pointers.length < fuel) : readPointers read fuel va = some pointers := by
  induction pointers generalizing va fuel with
  | nil =>
    obtain ⟨fuel, rfl⟩ := Nat.exists_eq_succ_of_ne_zero (Nat.ne_of_gt enough)
    rw [nil_append, flatMap_cons] at holds
    rw [Vm.readPointers, holds.left.readWord (by decide), bind_some, if_pos rfl]
  | cons pointer pointers ih =>
    obtain ⟨fuel, rfl⟩ := Nat.exists_eq_succ_of_ne_zero (Nat.ne_zero_of_lt enough)
    rw [length_cons] at enough
    rw [cons_append, flatMap_cons] at holds
    have first := valid pointer (by simp)
    have rest := holds.right
    rw [littleEndian64_length] at rest
    rw [Vm.readPointers, holds.left.readWord first.2, bind_some, if_neg first.1,
      ih rest (fun other member => valid other (mem_cons_of_mem _ member)) (by omega),
      map_some]

/-- The strings that the pointers lead to. -/
theorem mapM_readString {strings : List (List UInt8)}
    (held : List.Forall₂ (fun pointer string => Holds read pointer (string ++ [0])) pointers
      strings)
    (noNul : ∀ string ∈ strings, 0 ∉ string ∧ string.length < fuel) :
    pointers.mapM (readString read fuel) = some strings := by
  induction held with
  | nil => rfl
  | cons holds rest ih =>
    rename_i pointer string pointers strings
    have first := noNul string (by simp)
    rw [mapM_cons, holds.readString first.1 first.2,
      ih fun other member => noNul other (mem_cons_of_mem _ member)]
    rfl

end Reading

/-! ## What the program is given -/

/-- A byte that a user program can read. -/
def Space.readUser (space : Space) (mem : Mem) (va : Nat) : Option UInt8 :=
  (space.translate va).bind fun pte =>
    if pte.perm.user ∧ pte.perm.readable then some (mem.page pte.frame (Fin.ofNat PGSIZE va))
    else none

/-- Where the strings are, and how many bytes each takes with the 0 after it. -/
def blocks (ustack : List Nat) (strings : List (List UInt8)) : List (Nat × Nat) :=
  List.zipWith (fun pointer string => (pointer, string.length + 1)) ustack strings

/-- The blocks do not overlap: each lies below those before it. -/
def Descending (regions : List (Nat × Nat)) : Prop :=
  regions.Pairwise fun high low => low.1 + low.2 ≤ high.1

/-- A program finds its arguments. -/
structure ArgsPassed (argv : List (List UInt8)) (argc : Nat) (proc : Caller) (mem : Mem) :
    Prop where
  argc_eq : argc = argv.length
  a1_eq : proc.trapframe.a1 = proc.trapframe.sp
  aligned : proc.trapframe.sp % 16 = 0
  decoded : readArgs (proc.space.readUser mem) argc proc.trapframe.a1 = some argv
  placed : ∃ ustack,
    readPointers (proc.space.readUser mem) (argc + 1) proc.trapframe.a1 = some ustack ∧
    Descending (blocks ustack argv ++ [(proc.trapframe.sp, (argc + 1) * 8)]) ∧
    ∀ block ∈ blocks ustack argv ++ [(proc.trapframe.sp, (argc + 1) * 8)],
      proc.space.sz - PGSIZE ≤ block.1 ∧ block.1 + block.2 ≤ proc.space.sz

/-! ## Pushing the strings -/

section Stack

variable {layout : Layout} {ext : Frame → ℤ} {mem after : Mem} {table table' : PageTable}
variable {pages base top sp : Nat} {ustack : List Nat} {strings argv : List (List UInt8)}
  {src : List UInt8}

theorem PageTable.Written.holds {dstva : Nat} (written : Written dstva src table mem table' after)
    (low : dstva + src.length ≤ TRAPFRAME * PGSIZE) : Holds (table'.byteAt after) dstva src := by
  intro i inside
  have below : (dstva + i) / PGSIZE < TRAPFRAME :=
    (Nat.div_lt_iff_lt_mul (by decide)).mpr (by omega)
  rw [written.bytes _ below, if_pos ⟨by omega, by omega⟩, Nat.add_sub_cancel_left,
    getElem?_eq_getElem inside]

/-- The strings on the stack, between `sp` and `top`. -/
structure Stacked (table : PageTable) (mem : Mem) (top sp : Nat) (ustack : List Nat)
    (strings : List (List UInt8)) : Prop where
  held : List.Forall₂ (fun pointer string => Holds (table.byteAt mem) pointer (string ++ [0]))
    ustack strings
  order : Descending (blocks ustack strings)
  inside : ∀ block ∈ blocks ustack strings, sp ≤ block.1 ∧ block.1 + block.2 ≤ top

theorem Stacked.nil (table : PageTable) (mem : Mem) (top : Nat) : Stacked table mem top top [] [] :=
  ⟨.nil, .nil, by simp [blocks]⟩

/-- A block below all others. -/
theorem Descending.append {regions : List (Nat × Nat)} {block : Nat × Nat}
    (order : Descending regions) (below : ∀ region ∈ regions, block.1 + block.2 ≤ region.1) :
    Descending (regions ++ [block]) := by
  apply pairwise_append.mpr
  exact ⟨order, pairwise_singleton _ _, fun region member _ here =>
    mem_singleton.mp here ▸ below region member⟩

section

variable (stacked : Stacked table mem top sp ustack strings)
include stacked

/-- The strings, read another way. -/
theorem Stacked.held_congr {read : Nat → Option UInt8}
    (same : ∀ va, sp ≤ va → va < top → read va = table.byteAt mem va) :
    List.Forall₂ (fun pointer string => Holds read pointer (string ++ [0])) ustack strings := by
  obtain ⟨held, -, inside⟩ := stacked
  induction held with
  | nil => exact .nil
  | cons holds rest ih =>
    rename_i pointer string pointers strings
    have here := inside (pointer, string.length + 1) (by simp [blocks])
    refine .cons (holds.congr fun va from_ below => same va (by omega) ?_)
      (ih fun block member => inside block (mem_cons_of_mem _ member))
    rw [length_append, length_singleton] at below
    omega

/-- Bytes written below the strings leave them in place. -/
theorem Stacked.written {dstva : Nat} {src : List UInt8}
    (written : PageTable.Written dstva src table mem table' after) (below : dstva + src.length ≤ sp)
    (low : top ≤ TRAPFRAME * PGSIZE) : Stacked table' after top sp ustack strings := by
  refine ⟨stacked.held_congr fun va above limit => ?_, stacked.order, stacked.inside⟩
  have page : va / PGSIZE < TRAPFRAME := (Nat.div_lt_iff_lt_mul (by decide)).mpr (by omega)
  rw [written.bytes va page, if_neg (by omega)]

theorem Stacked.mono {low : Nat} (lower : low ≤ sp) : Stacked table mem top low ustack strings :=
  ⟨stacked.held, stacked.order, fun block member =>
    have inside := stacked.inside block member
    ⟨lower.trans inside.1, inside.2⟩⟩

/-- One string more. -/
theorem Stacked.push {dstva : Nat} {string : List UInt8}
    (written : PageTable.Written dstva (string ++ [0]) table mem table' after)
    (below : dstva + (string.length + 1) ≤ sp) (limit : sp ≤ top) (low : top ≤ TRAPFRAME * PGSIZE) :
    Stacked table' after top dstva (ustack ++ [dstva]) (strings ++ [string]) := by
  have length : (string ++ [0]).length = string.length + 1 := length_append
  have kept := stacked.written written (by omega) low
  have same := stacked.held.length_eq
  have new : blocks (ustack ++ [dstva]) (strings ++ [string]) =
      blocks ustack strings ++ [(dstva, string.length + 1)] := zipWith_append same
  refine ⟨rel_append kept.held (.cons (written.holds (by omega)) .nil), ?_, ?_⟩
  · rw [new]
    apply stacked.order.append
    intro block member
    have inside := (stacked.inside block member).1
    omega
  · rw [new]
    intro block member
    obtain member | member := mem_append.mp member
    · have inside := stacked.inside block member
      omega
    · rw [mem_singleton.mp member]
      omega

end

theorem pushed_le {size : Nat} (fits : size ≤ sp) (small : sp < 2 ^ 64) :
    pushed sp size + size ≤ sp ∧ pushed sp size % 16 = 0 := by
  simp only [pushed, sub64]
  omega

theorem flatMap_littleEndian64_length (values : List Nat) :
    (values.flatMap littleEndian64).length = values.length * 8 := by
  induction values with
  | nil => rfl
  | cons value values ih =>
    rw [flatMap_cons, length_append, ih, littleEndian64_length, length_cons]
    omega

/-- The strings and the array of pointers to them are on the stack. -/
structure Complete (table : PageTable) (mem : Mem) (base top sp : Nat) (ustack : List Nat)
    (strings : List (List UInt8)) : Prop where
  stacked : Stacked table mem top (sp + (ustack.length + 1) * 8) ustack strings
  array : Holds (table.byteAt mem) sp ((ustack ++ [0]).flatMap littleEndian64)
  aligned : sp % 16 = 0
  above : base ≤ sp
  fits : sp + (ustack.length + 1) * 8 ≤ top
  user : table.UserPage (sp / PGSIZE)

/-- What a successful `copyout` of some bytes has done. -/
theorem PageTable.Tidy.copyout_done {dstva : Nat} (tidy : table.Tidy layout ext mem pages)
    (nonempty : src ≠ []) (copy : table.copyout layout dstva src mem = .ok (true, table', after)) :
    table'.Tidy layout ext after pages ∧ Written dstva src table mem table' after ∧
      table'.UserPage (dstva / PGSIZE) := by
  obtain ⟨granted, done⟩ := (tidy.copyoutLoop_spec le_rfl).of_ok copy
  obtain ⟨tidy', written⟩ := done rfl
  have pages : touched dstva src.length = _ := touched_succ (length_pos_iff.mpr nonempty).ne'
  have user := ((granted.mp rfl).1 (dstva / PGSIZE) le_rfl (by omega)).2
  exact ⟨tidy', written, (written.user _).mpr user⟩

/-- The loop over the arguments, and the array after it. -/
theorem pushArgv_complete {sp' : Nat} (tidy : table.Tidy layout ext mem pages)
    (stacked : Stacked table mem top sp ustack strings) (bounds : base ≤ sp ∧ sp ≤ top)
    (room : PGSIZE ≤ base) (low : top ≤ TRAPFRAME * PGSIZE)
    (short : ∀ arg ∈ argv, arg.length < PGSIZE) (few : ustack.length + argv.length < MAXARG)
    (done : pushArgv layout base argv ustack sp table mem = .ok (true, sp', table', after)) :
    table'.Tidy layout ext after pages ∧
      ∃ ustack', Complete table' after base top sp' ustack' (strings ++ argv) := by
  have small : sp < 2 ^ 64 := by
    have limit := bounds.2
    simp only [TRAPFRAME, MAXVPN, MAXVA, PGSIZE] at low
    omega
  induction argv generalizing ustack strings sp table mem with
  | nil =>
    rw [pushArgv] at done
    split_ifs at done with below
    · cases done
    obtain ⟨⟨copied, last, mem1⟩, copy, finished⟩ := ok_of_bind done
    cases finished
    have length : ((ustack ++ [0]).flatMap littleEndian64).length = (ustack.length + 1) * 8 := by
      rw [flatMap_littleEndian64_length, length_append, length_singleton]
    obtain ⟨tidy', written, user⟩ :=
      tidy.copyout_done (ne_nil_of_length_pos (by omega)) copy
    rw [length_nil] at few
    obtain ⟨fits, aligned⟩ :
        pushed sp ((ustack.length + 1) * 8) + (ustack.length + 1) * 8 ≤ sp ∧ _ :=
      pushed_le (by simp only [MAXARG, PGSIZE] at *; omega) small
    refine ⟨tidy', ustack, ?_, written.holds (by omega), aligned, not_lt.mp below,
      fits.trans bounds.2, user⟩
    rw [append_nil]
    exact (stacked.written written (by omega) low).mono fits
  | cons arg argv ih =>
    rw [pushArgv] at done
    split_ifs at done with stop
    · cases done
    rw [not_or, not_lt] at stop
    obtain ⟨⟨copied, last, mem1⟩, copy, rest⟩ := ok_of_bind done
    cases copied with
    | false => cases rest
    | true =>
      obtain ⟨tidy', written, -⟩ := tidy.copyout_done (by simp) copy
      have argShort := short arg (by simp)
      obtain ⟨fits, -⟩ : pushed sp (arg.length + 1) + (arg.length + 1) ≤ sp ∧ _ :=
        pushed_le (by simp only [PGSIZE] at *; omega) small
      have next := ih tidy' (stacked.push written fits bounds.2 low)
        ⟨stop.2, (Nat.le_of_add_right_le fits).trans bounds.2⟩
        (fun other member => short other (mem_cons_of_mem _ member))
        (by simpa [Nat.add_comm, Nat.add_left_comm] using few) rest (by omega)
      rwa [append_assoc] at next

/-- Arguments that `sys_exec` accepts. -/
structure Accepts (argv : List (List UInt8)) : Prop where
  few : argv.length < MAXARG
  strings : ∀ arg ∈ argv, 0 ∉ arg ∧ arg.length < PGSIZE

theorem exists_block {pointer : Nat} (length : ustack.length = strings.length)
    (member : pointer ∈ ustack) : ∃ size, (pointer, size) ∈ blocks ustack strings := by
  obtain ⟨i, inside, rfl⟩ := mem_iff_getElem.mp member
  have other : i < strings.length := length ▸ inside
  refine ⟨strings[i].length + 1, mem_iff_getElem.mpr ⟨i, ?_, ?_⟩⟩
  · simp [blocks, inside, other]
  · simp [blocks]

section Decoding

variable {read : Nat → Option UInt8} (complete : Complete table mem base top sp ustack argv)
  (same : ∀ va, base ≤ va → va < top → read va = table.byteAt mem va)
include complete same

theorem Complete.readPointers (room : 0 < base) (low : top ≤ TRAPFRAME * PGSIZE) :
    readPointers read (argv.length + 1) sp = some ustack := by
  have above := complete.above
  have fits := complete.fits
  have length := complete.stacked.held.length_eq
  have array : Holds read sp ((ustack ++ [0]).flatMap littleEndian64) := by
    apply complete.array.congr
    rw [flatMap_littleEndian64_length, length_append, length_singleton]
    intro addr from_ below
    exact same addr (by omega) (by omega)
  apply array.readPointers _ (by omega)
  intro pointer member
  obtain ⟨size, block⟩ := exists_block length member
  have inside := complete.stacked.inside _ block
  simp only [TRAPFRAME, MAXVPN, MAXVA, PGSIZE] at low
  omega

theorem Complete.readArgs (room : 0 < base) (low : top ≤ TRAPFRAME * PGSIZE)
    (accepts : Accepts argv) : readArgs read argv.length sp = some argv := by
  have above := complete.above
  rw [Vm.readArgs, complete.readPointers same room low, bind_some,
    if_pos complete.stacked.held.length_eq]
  apply mapM_readString _ accepts.strings
  exact complete.stacked.held_congr fun va from_ below => same va (by omega) below

end Decoding

/-- The strings and the array do not overlap and lie in the stack page. -/
theorem Complete.placed (complete : Complete table mem base top sp ustack argv) :
    Descending (blocks ustack argv ++ [(sp, (argv.length + 1) * 8)]) ∧
      ∀ block ∈ blocks ustack argv ++ [(sp, (argv.length + 1) * 8)],
        base ≤ block.1 ∧ block.1 + block.2 ≤ top := by
  have length := complete.stacked.held.length_eq
  have above := complete.above
  have fits := complete.fits
  rw [length] at fits
  constructor
  · apply complete.stacked.order.append
    intro block member
    have inside := (complete.stacked.inside block member).1
    rwa [length] at inside
  · intro block member
    obtain member | member := mem_append.mp member
    · have inside := complete.stacked.inside block member
      omega
    · rw [mem_singleton.mp member]
      exact ⟨above, fits⟩

end Stack

/-! ## The new image -/

section Image

variable {layout : Layout} {ext : Frame → ℤ} {mem after : Mem} {program : Program}
variable {argv : List (List UInt8)} {space : Space}

/-- The size after the two pages of the stack have been added. -/
theorem stack_size {size sz : Nat} {table table' : PageTable} {xperm : Perm}
    (fits : size ≤ TRAPFRAME * PGSIZE) (nonzero : sz ≠ 0)
    (alloc : table.uvmalloc layout size (add64 size (2 * PGSIZE)) xperm mem =
      .ok (sz, table', after)) : sz = size + 2 * PGSIZE := by
  have sum : add64 size (2 * PGSIZE) = size + 2 * PGSIZE := by
    simp only [add64, TRAPFRAME, MAXVPN, MAXVA, PGSIZE] at *
    omega
  obtain ⟨less, -⟩ | ⟨-, same, -⟩ := uvmalloc_grown nonzero alloc
  · omega
  · exact same.trans sum

/-- The new image when `exec` commits to it. -/
structure Image (layout : Layout) (ext : Frame → ℤ) (argv : List (List UInt8)) (mem : Mem)
    (refs : Frame → ℤ) (sz sp : Nat) (last : PageTable) (after : Mem) : Prop where
  keeps : Keeps layout ext mem refs after last.refs
  wellFormed : last.WellFormed
  laid : last.Laid (pagesBelow sz)
  complete : ∃ ustack, Complete last after (sz - PGSIZE) sz sp ustack argv
  aligned : sz % PGSIZE = 0
  room : 2 * PGSIZE ≤ sz
  fits : sz ≤ TRAPFRAME * PGSIZE

theorem Space.execStack_image {first loaded last : PageTable} {mem1 : Mem} {size sz sp : Nat}
    (memory : layout.last ≤ PHYSTOP) (good : Good layout ext mem first.refs)
    (wf : first.WellFormed) (vacant : first.Vacant) (laid : first.Laid 0)
    (load : loadSegments layout program program.headers 0 first mem =
      .ok (true, size, loaded, mem1))
    (stack : execStack layout argv (pgRoundUp size * PGSIZE) loaded mem1 =
      .ok (true, sz, sp, last, after)) (accepts : Accepts argv) :
    Image layout ext argv mem first.refs sz sp last after := by
  have build : buildImage layout program argv first mem = .ok (true, sz, last, after) := by
    rw [buildImage_eq load, stack]
    rfl
  obtain ⟨keeps, wf', fits⟩ := good.buildImage wf (vacant.fresh _) build
  have laid' := (buildImage_returns memory good wf laid).of_ok build
  obtain ⟨-, -, sizeFits, -⟩ :=
    good.loadSegments wf (vacant.fresh _) (Nat.zero_le _) load
  obtain ⟨sz1, grown, mem2, alloc, ⟨-, no, -⟩ | ⟨nonzero, rfl, guarded, cleared, push⟩⟩ :=
    execStack_ok stack
  · cases no
  obtain ⟨keeps3, wf3, fresh3⟩ :=
    good.stack_table wf (vacant.fresh _) load alloc nonzero cleared
  have pushed : pushArgs layout (sub64 sz PGSIZE) argv [] sz guarded mem2 =
      .ok (true, last, after) := by
    rw [pushArgs_eq, push]
    rfl
  obtain ⟨rfl, -⟩ := fresh3.plain.pushArgs_pool wf3 pushed
  have size_eq := stack_size (pgRoundUp_mul_le sizeFits) nonzero alloc
  have base : sub64 sz PGSIZE = sz - PGSIZE := by
    simp only [sub64, TRAPFRAME, MAXVPN, MAXVA, PGSIZE] at *
    omega
  rw [base] at push
  have tidy := laid'.tidy (good.keeps keeps3) wf3 (pagesBelow_le fits)
  obtain ⟨-, complete⟩ := pushArgv_complete tidy (Stacked.nil last mem2 sz)
    ⟨Nat.sub_le _ _, le_rfl⟩ (by omega) fits (fun arg member => (accepts.strings arg member).2)
    (by simpa using accepts.few) push
  refine ⟨keeps, wf', laid', complete, ?_, by omega, fits⟩
  rw [size_eq]
  simp only [PGSIZE]
  omega

/-- The page of the stack, as the program reads it. -/
theorem Complete.readUser {table : PageTable} {final : Mem} {sz sp : Nat} {ustack : List Nat}
    (complete : Complete table mem (sz - PGSIZE) sz sp ustack argv) (solid : table.Solid)
    (aligned : sz % PGSIZE = 0) (room : 2 * PGSIZE ≤ sz) (fits : sz ≤ TRAPFRAME * PGSIZE)
    (same : space.table = table)
    (held : ∀ frame, 1 ≤ table.refs frame → final.page frame = mem.page frame) {va : Nat}
    (above : sz - PGSIZE ≤ va) (below : va < sz) :
    space.readUser final va = table.byteAt mem va := by
  have page : va / PGSIZE = sp / PGSIZE := by
    have start := complete.above
    have limit := complete.fits
    simp only [PGSIZE] at *
    omega
  have low : va / PGSIZE < TRAPFRAME := (Nat.div_lt_iff_lt_mul (by decide)).mpr (by omega)
  have address : va < MAXVA := by
    simp only [TRAPFRAME, MAXVPN, MAXVA, PGSIZE] at *
    omega
  obtain ⟨pte, found, user⟩ := complete.user
  rw [← page, mem_def] at found
  have leaf := find_of_lookup found
  have readable := (solid _ pte leaf).2
  unfold Space.readUser Space.translate byteAt
  rw [if_pos address, same, found, bind_some, if_pos ⟨user, readable⟩, map_some,
    held pte.frame (one_le_refs leaf low)]

theorem Image.argsPassed {final : Mem} {proc : Caller} {sz sp : Nat} {refs : Frame → ℤ}
    {last : PageTable} (image : Image layout ext argv mem refs sz sp last after)
    (accepts : Accepts argv) (table : proc.space.table = last) (size : proc.space.sz = sz)
    (a1 : proc.trapframe.a1 = sp) (stack : proc.trapframe.sp = sp)
    (held : ∀ frame, 1 ≤ last.refs frame → final.page frame = after.page frame) :
    ArgsPassed argv argv.length proc final := by
  obtain ⟨ustack, complete⟩ := image.complete
  have room := image.room
  have positive : 0 < sz - PGSIZE := by
    simp only [PGSIZE] at *
    omega
  have same : ∀ va, sz - PGSIZE ≤ va → va < sz →
      proc.space.readUser final va = last.byteAt after va :=
    fun va above below => complete.readUser image.laid.solid image.aligned room image.fits table
      held above below
  refine ⟨rfl, a1.trans stack.symm, stack ▸ complete.aligned, ?_, ustack, ?_, ?_⟩
  · rw [a1]
    exact complete.readArgs same positive image.fits accepts
  · rw [a1]
    exact complete.readPointers same positive image.fits
  · rw [stack, size]
    exact complete.placed

/-- The pages of the new image keep their contents when the old one is freed. -/
theorem Good.free_old {first last : PageTable} {mem1 mem2 : Mem} {sz : Nat}
    (good : Good layout ext mem space.refs)
    (made : Keeps layout (ext + space.refs) mem 0 mem1 first.refs)
    (built : Keeps layout (ext + space.refs) mem1 first.refs mem2 last.refs)
    (freed : Space.procFreepagetable layout sz space.table mem2 = .ok after) {frame : Frame}
    (held : 1 ≤ last.refs frame) : after.page frame = mem2.page frame := by
  have spaceNonneg := space.refs_nonneg
  have newNonneg : ∀ other, 0 ≤ (last.refs + Pi.single space.trapframe 1 : Frame → ℤ) other :=
    fun other => add_nonneg (last.refs_nonneg other) (single_nonneg _ _)
  have both : Good layout (ext + (last.refs + Pi.single space.trapframe 1)) mem2
      space.table.refs := by
    apply ((good.beside.keeps made).keeps built).regroup
    · simp only [Space.refs]
      abel
    · exact space.table.refs_nonneg
    · exact fun other => add_nonneg (good.ext_nonneg other) (newNonneg other)
  apply (both.procFreepagetable freed).page
  have rest := good.ext_nonneg frame
  have trapframe := single_nonneg space.trapframe frame
  simp only [Pi.add_apply]
  omega

end Image

/-! ## Strings from user memory -/

/-- The byte at an address of user memory, if its page is mapped for the user. -/
def PageTable.userByte (table : PageTable) (mem : Mem) (va : Nat) : Option UInt8 :=
  (table.walkaddr (va / PGSIZE)).map fun frame => mem.page frame (Fin.ofNat PGSIZE va)

/-- The loop of `copyinstr` finds the string that is read byte by byte. -/
theorem Space.copyinstrLoop_eq {table : PageTable} {mem : Mem} {turns srcva max : Nat}
    {ended : Bool} {string : List UInt8} (enough : max ≤ turns)
    (done : copyinstrLoop table mem turns srcva max = (ended, string)) : string.length ≤ max ∧
      readString (table.userByte mem) max srcva = if ended then some string else none := by
  induction turns generalizing srcva max ended string with
  | zero =>
    cases Nat.le_zero.mp enough
    cases done
    exact ⟨le_rfl, rfl⟩
  | succ turns ih =>
    have offset := Nat.mod_lt srcva (show 0 < PGSIZE by decide)
    rw [copyinstrLoop] at done
    split_ifs at done with empty
    · cases done
      rw [empty]
      exact ⟨le_rfl, rfl⟩
    cases found : table.walkaddr (srcva / PGSIZE) with
    | none =>
      rw [found] at done
      cases done
      obtain ⟨max, rfl⟩ := Nat.exists_eq_succ_of_ne_zero empty
      simp [readString, userByte, found]
    | some frame =>
      simp only [found] at done
      generalize size : min (PGSIZE - srcva % PGSIZE) max = n at done
      have mapped : ∀ i < n, table.userByte mem (srcva + i) =
          some (mem.page frame (Fin.ofNat PGSIZE (srcva % PGSIZE + i))) := by
        intro i inside
        have page : (srcva + i) / PGSIZE = srcva / PGSIZE := by
          simp only [PGSIZE] at *
          omega
        rw [userByte, page, found]
        simp [Fin.ofNat, Nat.add_mod]
      have whole := @readString_page _ _ _ _ _ (max - n) _ mapped
      rw [Nat.add_sub_cancel' (by omega)] at whole
      rw [whole]
      have bound := (takeWhile_sublist (p := (· ≠ 0))
        (l := pageBytes mem frame (srcva % PGSIZE) n)).length_le
      rw [pageBytes_length] at bound
      dsimp only
      split_ifs at done with stopped
      · cases done
        rw [if_pos stopped]
        exact ⟨by omega, rfl⟩
      · rw [if_neg stopped]
        cases loop : copyinstrLoop table mem turns ((srcva / PGSIZE + 1) * PGSIZE) (max - n) with
        | mk ended rest =>
          rw [loop] at done
          cases done
          obtain ⟨length, same⟩ := ih (by omega) loop
          have next : readString (table.userByte mem) (max - n) (srcva + n) =
              readString (table.userByte mem) (max - n) ((srcva / PGSIZE + 1) * PGSIZE) := by
            by_cases spent : max - n = 0
            · rw [spent]
              rfl
            · congr 1
              simp only [PGSIZE] at *
              omega
          rw [next, same, length_append]
          refine ⟨by dsimp only; omega, ?_⟩
          cases ended <;> rfl

/-- `copyinstr` in `turns` turns: whether it returns 0, and the bytes that it has written to
`dst`. -/
def PageTable.copyinstr (table : PageTable) (mem : Mem) (turns srcva max : Nat) :
    Bool × List UInt8 :=
  match Space.copyinstrLoop table mem turns srcva max with
  | (true, string) => (true, string ++ [0])
  | (false, bytes) => (false, bytes)

/-- `copyinstr` returns 0 exactly if user memory holds a string from `srcva` on, which takes with
its 0 at most `max` bytes; this is then what it has written.  It never writes more than `max` bytes,
and needs no more than `max` turns. -/
theorem copyinstr_copies (table : PageTable) (mem : Mem) (srcva max more : Nat) :
    (∀ dst, table.copyinstr mem (max + more) srcva max = (true, dst) ↔
      ∃ string, 0 ∉ string ∧ dst = string ++ [0] ∧ dst.length ≤ max ∧
        Holds (table.userByte mem) srcva dst) ∧
      (table.copyinstr mem (max + more) srcva max).2.length ≤ max := by
  cases loop : Space.copyinstrLoop table mem (max + more) srcva max with
  | mk ended string =>
    obtain ⟨length, same⟩ := Space.copyinstrLoop_eq (Nat.le_add_right max more) loop
    have only : ∀ {other}, 0 ∉ other → (other ++ [0]).length ≤ max →
        Holds (table.userByte mem) srcva (other ++ [0]) → ended = true ∧ other = string := by
      intro other noNul short holds
      rw [List.length_append] at short
      rw [holds.readString noNul short] at same
      cases ended with
      | false => cases same
      | true => exact ⟨rfl, Option.some.inj same⟩
    rw [PageTable.copyinstr, loop]
    cases ended with
    | false =>
      refine ⟨fun dst => ⟨nofun, ?_⟩, length⟩
      rintro ⟨other, noNul, rfl, short, holds⟩
      cases (only noNul short holds).1
    | true =>
      obtain ⟨noNul, short, holds⟩ := holds_of_readString same
      have whole : (string ++ [0]).length ≤ max := by
        rw [List.length_append]
        exact short
      refine ⟨fun dst => ⟨?_, ?_⟩, whole⟩
      · rintro ⟨⟩
        exact ⟨string, noNul, rfl, whole, holds⟩
      · rintro ⟨other, noNul, rfl, short, holds⟩
        rw [(only noNul short holds).2]

theorem Space.fetchArgs_accepts {space : Space} {mem after : Mem} {uargv left i : Nat}
    {frames : List Frame} {argv : List (List UInt8)}
    (done : fetchArgs space uargv left i mem = (true, frames, argv, after)) :
    argv.length < left ∧ ∀ arg ∈ argv, 0 ∉ arg ∧ arg.length < PGSIZE := by
  induction left generalizing i mem frames argv with
  | zero => cases done
  | succ left ih =>
    rw [fetchArgs] at done
    split at done <;> [cases done; rename_i uarg fetched]
    split_ifs at done
    · cases done
      simp
    · split at done <;> [cases done; rename_i frame taken allocated]
      split at done <;> [cases done; rename_i string copied]
      cases loop : fetchArgs space uargv left (i + 1)
          (taken.fill frame ((taken.page frame).write 0 (string ++ [0]))) with
      | mk complete rest =>
        obtain ⟨frames, argv, mem1⟩ := rest
        dsimp only at done
        rw [loop] at done
        cases done
        obtain ⟨few, short⟩ := ih loop
        refine ⟨by simpa using few, fun arg member => ?_⟩
        obtain rfl | member := mem_cons.mp member
        · obtain ⟨noNul, short, -⟩ := holds_of_readString (copyinstrLoop_eq le_rfl copied).2
          exact ⟨noNul, short⟩
        · exact short arg member

/-! ## The system call -/

section Call

variable {layout : Layout} {ext : Frame → ℤ} {env env' : Env} {argv : List (List UInt8)}
variable {files : List UInt8 → Option (Inode × List UInt8)} {path : List UInt8} {argc : Nat}

/-- The arguments are in the pages of the new image. -/
theorem Space.execCall_passes (memory : layout.last ≤ PHYSTOP)
    (good : Good layout ext env.mem env.proc.space.refs) (accepts : Accepts argv)
    (call : execCall layout files path argv env = .ok (some argc, env')) {final : Mem}
    (held : ∀ frame, 1 ≤ env'.proc.space.refs frame → final.page frame = env'.mem.page frame) :
    ArgsPassed argv argc env'.proc final := by
  cases execCall_outcome call with
  | @committed ip file first loaded last mem1 mem2 mem3 mem size sz sp found made load stack
      freed =>
    obtain ⟨keeps, formed, -⟩ := good.beside.procPagetable made
    obtain ⟨wf, vacant⟩ := formed first rfl
    have laid := (procPagetable_returns good.beside).of_ok made first rfl
    have image := execStack_image memory (good.beside.keeps keeps) wf vacant laid load
      stack accepts
    apply image.argsPassed accepts rfl rfl rfl rfl
    intro frame referenced
    have space : 1 ≤ ({ env.proc.space with table := last, sz } : Space).refs frame := by
      have single := single_nonneg env.proc.space.trapframe frame
      simp only [refs, Pi.add_apply]
      omega
    exact (held frame space).trans (good.free_old keeps image.keeps freed referenced)

/-- How `sys_exec` gets to its end. -/
theorem Space.sysExec_some {upath uargv : Nat}
    (done : sysExec layout files upath uargv env = .ok (some argc, env')) :
    ∃ path frames argv mem1 env2 mem2,
      fetchArgs env.proc.space uargv MAXARG 0 env.mem = (true, frames, argv, mem1) ∧
      execCall layout files path argv { env with mem := mem1 } = .ok (some argc, env2) ∧
      kfreeAll layout frames env2.mem = .ok mem2 ∧ env' = { env2 with mem := mem2 } := by
  unfold sysExec at done
  split at done <;> [cases done; rename_i path ended]
  cases fetch : fetchArgs env.proc.space uargv MAXARG 0 env.mem with
  | mk complete rest =>
    obtain ⟨frames, argv, mem1⟩ := rest
    rw [fetch] at done
    cases complete with
    | false =>
      obtain ⟨_, stopped, rest⟩ := ok_of_bind done
      cases stopped
      obtain ⟨mem2, -, finished⟩ := ok_of_bind rest
      cases finished
    | true =>
      obtain ⟨⟨ret, env2⟩, call, rest⟩ := ok_of_bind done
      obtain ⟨mem2, freed, finished⟩ := ok_of_bind rest
      cases finished
      exact ⟨path, frames, argv, mem1, env2, mem2, rfl, call, freed, rfl⟩

/-- A program finds the arguments that were passed to `exec`, also when `sys_exec` has freed the
pages it fetched them to. -/
theorem Space.exec_passes_args (memory : layout.last ≤ PHYSTOP)
    (good : Good layout ext env.mem env.proc.space.refs) (wellFormed : env.proc.space.WellFormed)
    (files : List UInt8 → Option (Inode × List UInt8)) (upath uargv : Nat) :
    (∀ path argv argc env', Accepts argv →
      execCall layout files path argv env = .ok (some argc, env') →
        ArgsPassed argv argc env'.proc env'.mem) ∧
    ∀ argc env', sysExec layout files upath uargv env = .ok (some argc, env') →
      ArgsPassed (fetchArgs env.proc.space uargv MAXARG 0 env.mem).2.2.1 argc env'.proc
        env'.mem := by
  constructor
  · intro path argv argc env' accepts call
    exact execCall_passes memory good accepts call fun _ _ => rfl
  · intro argc env' outcome
    obtain ⟨path, frames, argv, mem1, env2, mem2, fetch, call, freed, rfl⟩ := sysExec_some outcome
    have part := (good.beside.fetchArgs fetch).good good
    have executed : Executed layout _ { env with mem := mem1 } (some argc) env2 :=
      execCall_executed part wellFormed call
    have keeps := (executed.good good.ext_nonneg part).kfreeAll freed
    have accepts : Accepts argv := ⟨(fetchArgs_accepts fetch).1, (fetchArgs_accepts fetch).2⟩
    rw [fetch]
    refine execCall_passes memory part accepts call fun frame referenced => keeps.page frame ?_
    have rest := good.ext_nonneg frame
    simp only [Pi.add_apply]
    omega

end Call

/-- A program with two arguments, one of them empty. -/
theorem Space.exec_passes_args_two :
    ∃ system space env env', Run (Step smallMachine) (System.boot smallMachine)
        [{ op := .userinit 0 [0x17, 0x05] }] system ∧ system.space 0 = some space ∧
      env = { mem := system.mem
              proc := { space, trapframe := ⟨0, 4096, 0⟩, name := [0x69] } } ∧
      execCall smallMachine (fun _ => some (2, smallProgram)) [0x61] [[0x61, 0x62], []] env =
        .ok (some 2, env') ∧ ArgsPassed [[0x61, 0x62], []] 2 env'.proc env'.mem := by
  obtain ⟨system, space, run, occupied, safe, wellFormed, -, ⟨_, env'⟩, call, rfl⟩ :=
    System.first_process (P := fun system space => ∃ result ∈
      (execCall smallMachine (fun _ => some (2, smallProgram)) [0x61] [[0x61, 0x62], []]
        { mem := system.mem
          proc := { space, trapframe := ⟨0, 4096, 0⟩, name := [0x69] } }).toOption,
      result.1 = some 2) (by decide +kernel)
  have call := ok_of_mem_toOption call
  refine ⟨system, space, _, env', run, occupied, rfl, call, ?_⟩
  exact (exec_passes_args (by decide) (safe.occupiedPart occupied) wellFormed _ 0 0).1 _ _ _ _
    ⟨by decide, by decide⟩ call

end Xv6.Vm
