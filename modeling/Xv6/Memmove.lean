import Mathlib

/-!
# Copying overlapping memory

The two versions of `memmove`, of `kernel/string.c` and of `user/ulib.c`.  They choose the direction
of the copy by different tests; neither overwrites a byte that it has still to read.  The count is a
`uint` in the kernel and an `int` in the library.  Addresses are numbers: as the regions do not wrap
around, the pointers into them do not either.
-/

namespace Xv6.Memmove

open Function

abbrev Memory := Nat → UInt8

/-- `while(n-- > 0) *dst++ = *src++`. -/
def ascend : (n dst src : Nat) → Memory → Memory
  | 0, _, _, mem => mem
  | n + 1, dst, src, mem => ascend n (dst + 1) (src + 1) (update mem dst (mem src))

/-- `while(n-- > 0) *--dst = *--src`. -/
def descend : (n dst src : Nat) → Memory → Memory
  | 0, _, _, mem => mem
  | n + 1, dst, src, mem =>
    descend n (dst - 1) (src - 1) (update mem (dst - 1) (mem (src - 1)))

/-- `memmove` of the kernel. -/
def kernelMemmove (dst src : Nat) (n : UInt32) (mem : Memory) : Memory :=
  let n := n.toNat
  if n = 0 then mem
  else if src < dst ∧ src + n > dst then descend n (dst + n) (src + n) mem
  else ascend n dst src mem

/-- `memmove` of the user library.  A negative `n` moves the pointers only. -/
def userMemmove (dst src : Nat) (n : Int32) (mem : Memory) : Memory :=
  let n := n.toInt.toNat
  if src > dst then ascend n dst src mem
  else descend n (dst + n) (src + n) mem

/-- The memory with the `n` bytes that were at `src` also at `dst`. -/
def snapshot (dst src n : Nat) (mem : Memory) : Memory := fun addr =>
  if dst ≤ addr ∧ addr < dst + n then mem (src + (addr - dst)) else mem addr

variable {dst src n : Nat} {mem : Memory}

/-- Upwards, unless the destination starts inside the source. -/
theorem ascend_eq (order : dst ≤ src ∨ src + n ≤ dst) :
    ascend n dst src mem = snapshot dst src n mem := by
  induction n generalizing dst src mem with
  | zero =>
    funext addr
    rw [ascend, snapshot, if_neg (by omega)]
  | succ n ih =>
    rw [ascend, ih (by omega)]
    funext addr
    unfold snapshot
    by_cases later : dst + 1 ≤ addr ∧ addr < dst + 1 + n
    · -- the byte that is read here lies behind the one just written
      rw [if_pos later, if_pos (by omega), update_of_ne (by omega)]
      congr 1
      omega
    · rw [if_neg later]
      by_cases first : addr = dst
      · rw [first, update_self, if_pos (by omega), Nat.sub_self, Nat.add_zero]
      · rw [update_of_ne first, if_neg (by omega)]

/-- Downwards, unless the source starts inside the destination. -/
theorem descend_eq (order : src ≤ dst ∨ dst + n ≤ src) :
    descend n (dst + n) (src + n) mem = snapshot dst src n mem := by
  induction n generalizing mem with
  | zero =>
    funext addr
    rw [descend, snapshot, if_neg (by omega)]
  | succ n ih =>
    rw [descend, ← Nat.add_assoc, ← Nat.add_assoc, Nat.add_sub_cancel, Nat.add_sub_cancel,
      ih (by omega)]
    funext addr
    unfold snapshot
    by_cases earlier : dst ≤ addr ∧ addr < dst + n
    · -- the byte that is read here lies before the one just written
      rw [if_pos earlier, if_pos (by omega), update_of_ne (by omega)]
    · rw [if_neg earlier]
      by_cases last : addr = dst + n
      · rw [last, update_self, if_pos (by omega), Nat.add_sub_cancel_left]
      · rw [update_of_ne last, if_neg (by omega)]

theorem kernelMemmove_eq (dst src : Nat) (n : UInt32) (mem : Memory) :
    kernelMemmove dst src n mem = snapshot dst src n.toNat mem := by
  simp only [kernelMemmove]
  split_ifs with empty overlaps
  · rw [empty, ← @ascend_eq dst src 0 mem (by omega), ascend]
  · exact descend_eq (.inl (Nat.le_of_lt overlaps.1))
  · exact ascend_eq (by omega)

theorem userMemmove_eq (dst src : Nat) (n : Int32) (mem : Memory) :
    userMemmove dst src n mem = snapshot dst src n.toInt.toNat mem := by
  simp only [userMemmove]
  split_ifs with behind
  · exact ascend_eq (.inl (Nat.le_of_lt behind))
  · exact descend_eq (.inl (Nat.not_lt.mp behind))

/-- A count that an `int` can hold is the same number for both. -/
theorem toInt_toInt32 {n : UInt32} (fits : n.toNat < 2 ^ 31) : n.toInt32.toInt = n.toNat := by
  change n.toBitVec.toInt = n.toNat
  rw [BitVec.toInt_eq_toNat_of_lt (by simpa using Nat.mul_lt_mul_of_pos_left fits (by decide))]
  rfl

/-- Both versions copy the bytes that were at `src` before the call and change no other byte,
however the two regions lie; they agree on every count that an `int` can hold. -/
theorem memmove_snapshot (dst src : Nat) (n : UInt32) (m : Int32) (mem : Memory) :
    kernelMemmove dst src n mem = snapshot dst src n.toNat mem ∧
      userMemmove dst src m mem = snapshot dst src m.toInt.toNat mem ∧
      (n.toNat < 2 ^ 31 → kernelMemmove dst src n mem = userMemmove dst src n.toInt32 mem) := by
  refine ⟨kernelMemmove_eq .., userMemmove_eq .., fun fits => ?_⟩
  rw [kernelMemmove_eq, userMemmove_eq, toInt_toInt32 fits, Int.toNat_natCast]

/-- Three bytes move up by one. -/
theorem memmove_snapshot_overlap : (3 : UInt32).toNat < 2 ^ 31 ∧
    kernelMemmove 1 0 3 UInt8.ofNat = userMemmove 1 0 (UInt32.toInt32 3) UInt8.ofNat ∧
    kernelMemmove 1 0 3 UInt8.ofNat 3 = 2 :=
  have fits : (3 : UInt32).toNat < 2 ^ 31 := by decide
  ⟨fits, (memmove_snapshot 1 0 3 3 UInt8.ofNat).2.2 fits, rfl⟩

/-- The count 2 ^ 31 is negative as an `int`: the user library copies nothing. -/
theorem memmove_differ : ∃ mem : Memory,
    userMemmove 0 (2 ^ 31) (UInt32.toInt32 (2 ^ 31)) mem ≠ snapshot 0 (2 ^ 31) (2 ^ 31) mem ∧
    kernelMemmove 0 (2 ^ 31) (2 ^ 31) mem ≠
      userMemmove 0 (2 ^ 31) (UInt32.toInt32 (2 ^ 31)) mem := by
  have negative : (UInt32.toInt32 (2 ^ 31)).toInt.toNat = 0 := by decide
  have count : (2 ^ 31 : UInt32).toNat = 2 ^ 31 := by decide
  let mem : Memory := fun addr => if addr = 0 then 0 else 1
  have differ : snapshot 0 (2 ^ 31) 0 mem ≠ snapshot 0 (2 ^ 31) (2 ^ 31) mem := by
    intro same
    have zero := congrFun same 0
    simp [snapshot, mem] at zero
  refine ⟨mem, ?_, ?_⟩
  · rwa [userMemmove_eq, negative]
  · rw [kernelMemmove_eq, userMemmove_eq, negative, count]
    exact differ.symm

end Xv6.Memmove
