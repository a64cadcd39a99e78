import Xv6.Fs.Disk

/-!
# The on-disk format

The structures of `kernel/fs.h` as the bytes of blocks, least significant byte first.  The kernel
and `mkfs` share this header.
-/

namespace Xv6.Fs

abbrev FSMAGIC : Nat := 0x10203040

/-- Inodes per block; a `struct dinode` has 64 bytes. -/
abbrev IPB : Nat := BSIZE / 64

/-- Bits of the free map per block. -/
abbrev BPB : Nat := BSIZE * 8

/-! ## Numbers in a block -/

/-- Byte `k` of a number. -/
def byteOf (value k : Nat) : UInt8 := UInt8.ofNat (value / 256 ^ k)

/-- Entry `i` of a block read as an array of `ushort`. -/
def Block.half (block : Block) (i : Nat) : Nat :=
  (block (2 * i)).toNat + 256 * (block (2 * i + 1)).toNat

variable {block : Block} {i value : Nat}

theorem Block.half_eq (fits : value < 2 ^ 16)
    (bytes : ∀ k < 2, block (2 * i + k) = byteOf value k) : block.half i = value := by
  have first := bytes 0 (by omega)
  have second := bytes 1 (by omega)
  simp only [Nat.add_zero] at first
  simp only [half, first, second, byteOf, UInt8.toNat_ofNat', Nat.reducePow]
  omega

theorem Block.word_eq (fits : value < 2 ^ 32)
    (bytes : ∀ k < 4, block (4 * i + k) = byteOf value k) : block.word i = value := by
  have first := bytes 0 (by omega)
  have second := bytes 1 (by omega)
  have third := bytes 2 (by omega)
  have fourth := bytes 3 (by omega)
  simp only [Nat.add_zero] at first
  simp only [word, first, second, third, fourth, byteOf, UInt8.toNat_ofNat', Nat.reducePow]
  omega

variable {block other : Block}

theorem Block.half_congr {i : Nat} (bytes : ∀ k < 2, block (2 * i + k) = other (2 * i + k)) :
    block.half i = other.half i := by
  have first := bytes 0 (by omega)
  have second := bytes 1 (by omega)
  simp only [Nat.add_zero] at first
  simp only [half, first, second]

theorem Block.word_congr {i : Nat} (bytes : ∀ k < 4, block (4 * i + k) = other (4 * i + k)) :
    block.word i = other.word i := by
  have first := bytes 0 (by omega)
  have second := bytes 1 (by omega)
  have third := bytes 2 (by omega)
  have fourth := bytes 3 (by omega)
  simp only [Nat.add_zero] at first
  simp only [word, first, second, third, fourth]

/-- `data[i / 8] & (1 << (i % 8))`. -/
def Block.bit (block : Block) (i : Nat) : Bool := (block (i / 8)).toNat.testBit (i % 8)

/-- `data[i / 8] |= 1 << (i % 8)`. -/
def Block.setBit (block : Block) (i : Nat) : Block :=
  Function.update block (i / 8) (block (i / 8) ||| UInt8.ofNat (1 <<< (i % 8)))

theorem Block.bit_setBit (block : Block) (i j : Nat) :
    (block.setBit i).bit j = (block.bit j || decide (i = j)) := by
  unfold bit setBit
  by_cases sameByte : j / 8 = i / 8
  · rw [sameByte, Function.update_self, UInt8.toNat_or, Nat.testBit_or, UInt8.toNat_ofNat',
      Nat.one_shiftLeft, Nat.mod_eq_of_lt (Nat.pow_lt_pow_right (by omega) (by omega)),
      Nat.testBit_two_pow]
    congr 2
    rw [eq_iff_iff]
    omega
  · have ne : i ≠ j := by
      rintro rfl
      exact sameByte rfl
    rw [Function.update_of_ne sameByte, decide_eq_false ne, Bool.or_false]

/-! ## The super block -/

/-- `struct superblock`. -/
structure RawSuperblock where
  magic : Nat
  size : Nat
  nblocks : Nat
  ninodes : Nat
  nlog : Nat
  logstart : Nat
  inodestart : Nat
  bmapstart : Nat
  deriving DecidableEq, Repr

namespace RawSuperblock

def words (sb : RawSuperblock) : List Nat :=
  [sb.magic, sb.size, sb.nblocks, sb.ninodes, sb.nlog, sb.logstart, sb.inodestart, sb.bmapstart]

/-- The bytes of a super block, and zeroes after them. -/
def encode (sb : RawSuperblock) : Block :=
  fun j => byteOf (sb.words.getD (j / 4) 0) (j % 4)

def decode (block : Block) : RawSuperblock where
  magic := block.word 0
  size := block.word 1
  nblocks := block.word 2
  ninodes := block.word 3
  nlog := block.word 4
  logstart := block.word 5
  inodestart := block.word 6
  bmapstart := block.word 7

variable {sb : RawSuperblock}

theorem encode_word (fits : ∀ value ∈ sb.words, value < 2 ^ 32) (i : Nat) :
    sb.encode.word i = sb.words.getD i 0 := by
  refine Block.word_eq ?_ fun k small => ?_
  · by_cases inside : i < sb.words.length
    · rw [List.getD_eq_getElem _ _ inside]
      exact fits _ (List.getElem_mem inside)
    · rw [List.getD_eq_default _ _ (Nat.le_of_not_lt inside)]
      omega
  · simp only [encode, show (4 * i + k) / 4 = i by omega, show (4 * i + k) % 4 = k by omega]

theorem decode_encode (fits : ∀ value ∈ sb.words, value < 2 ^ 32) : decode sb.encode = sb := by
  simp only [decode, encode_word fits]
  rfl

/-- `IBLOCK(inum, sb)`. -/
def iblock (sb : RawSuperblock) (inum : Inum) : Nat := inum / IPB + sb.inodestart

/-- `BBLOCK(b, sb)`. -/
def bblock (sb : RawSuperblock) (b : Nat) : Nat := b / BPB + sb.bmapstart

end RawSuperblock

/-! ## Inodes -/

namespace FileType

/-- `T_DIR`, `T_FILE` and `T_DEVICE`. -/
def code : FileType → Nat
  | .free => 0
  | .dir => 1
  | .file => 2
  | .device => 3

/-- The type of a number; no larger number than `T_DEVICE` is ever stored. -/
def ofCode : Nat → FileType
  | 0 => .free
  | 1 => .dir
  | 2 => .file
  | _ => .device

@[simp] theorem ofCode_code (type : FileType) : ofCode type.code = type := by
  cases type <;> rfl

theorem code_lt (type : FileType) : type.code < 2 ^ 16 := by
  cases type <;> decide

end FileType

namespace Dinode

/-- The `short`s at the start of a `struct dinode`. -/
def short (ip : Dinode) : Nat → Nat
  | 0 => ip.type.code
  | 1 => ip.major.toNat
  | 2 => ip.minor.toNat
  | _ => ip.nlink.toNat

/-- The `uint`s of a `struct dinode`, counted from its start. -/
def uint (ip : Dinode) (i : Nat) : Nat := if i = 2 then ip.size else ip.addrs (i - 3)

/-- Store an inode into the place `slot` of a block of inodes. -/
def store (ip : Dinode) (block : Block) (slot : Nat) : Block := fun j =>
  if j / 64 = slot then
    if j % 64 < 8 then byteOf (ip.short (j % 64 / 2)) (j % 2)
    else byteOf (ip.uint (j % 64 / 4)) (j % 4)
  else block j

/-- The inode at the place `slot` of a block of inodes. -/
def load (block : Block) (slot : Nat) : Dinode where
  type := .ofCode (block.half (32 * slot))
  major := BitVec.ofNat 16 (block.half (32 * slot + 1))
  minor := BitVec.ofNat 16 (block.half (32 * slot + 2))
  nlink := BitVec.ofNat 16 (block.half (32 * slot + 3))
  size := block.word (16 * slot + 2)
  addrs := fun i => if i ≤ NDIRECT then block.word (16 * slot + 3 + i) else 0

/-- The numbers of an inode fit their places. -/
structure Fits (ip : Dinode) : Prop where
  size : ip.size < 2 ^ 32
  addrs : ∀ i ≤ NDIRECT, ip.addrs i < 2 ^ 32
  rest : ∀ i, NDIRECT < i → ip.addrs i = 0

variable (block : Block) (slot : Nat)

theorem short_lt (ip : Dinode) (i : Nat) : ip.short i < 2 ^ 16 := by
  unfold short
  split
  · exact ip.type.code_lt
  · exact ip.major.isLt
  · exact ip.minor.isLt
  · exact ip.nlink.isLt

theorem store_half (ip : Dinode) {i : Nat} (small : i < 4) :
    (ip.store block slot).half (32 * slot + i) = ip.short i := by
  refine Block.half_eq (ip.short_lt i) fun k smallByte => ?_
  simp only [store, show (2 * (32 * slot + i) + k) / 64 = slot by omega,
    show (2 * (32 * slot + i) + k) % 64 = 2 * i + k by omega,
    show (2 * (32 * slot + i) + k) % 2 = k by omega, show (2 * i + k) / 2 = i by omega,
    show 2 * i + k < 8 by omega, if_true]

theorem store_word (ip : Dinode) {i : Nat} (fits : ip.uint i < 2 ^ 32) (large : 2 ≤ i)
    (small : i < 16) : (ip.store block slot).word (16 * slot + i) = ip.uint i := by
  refine Block.word_eq fits fun k smallByte => ?_
  simp only [store, show (4 * (16 * slot + i) + k) / 64 = slot by omega,
    show (4 * (16 * slot + i) + k) % 64 = 4 * i + k by omega,
    show (4 * (16 * slot + i) + k) % 4 = k by omega, show (4 * i + k) / 4 = i by omega,
    show ¬ 4 * i + k < 8 by omega, if_true, if_false]

theorem load_store {ip : Dinode} (fits : ip.Fits) : load (ip.store block slot) slot = ip := by
  have half : ∀ i < 4, (ip.store block slot).half (32 * slot + i) = ip.short i :=
    fun i small => ip.store_half block slot small
  have size : (ip.store block slot).word (16 * slot + 2) = ip.size :=
    ip.store_word block slot fits.size (by omega) (by omega)
  have addrs : (fun i => if i ≤ NDIRECT then (ip.store block slot).word (16 * slot + 3 + i)
    else 0) =
      ip.addrs := by
    funext i
    split_ifs with inside
    · have uint : ip.uint (3 + i) = ip.addrs i := by
        rw [Dinode.uint, if_neg (by omega), Nat.add_sub_cancel_left]
      rw [Nat.add_assoc, ip.store_word block slot (uint ▸ fits.addrs i inside) (by omega)
        (by simp only [NDIRECT] at inside; omega), uint]
    · exact (fits.rest i (Nat.lt_of_not_le inside)).symm
  have first := half 0 (by omega)
  rw [Nat.add_zero] at first
  simp only [load, first, half 1 (by omega), half 2 (by omega), half 3 (by omega), size, addrs,
    short, FileType.ofCode_code, BitVec.ofNat_toNat, BitVec.setWidth_eq]

theorem load_store_ne (ip : Dinode) {other : Nat} (ne : other ≠ slot) :
    load (ip.store block slot) other = load block other := by
  have half : ∀ i < 4, (ip.store block slot).half (32 * other + i) =
      block.half (32 * other + i) := by
    intro i small
    refine Block.half_congr fun k smallByte => if_neg ?_
    omega
  have word : ∀ i < 16, (ip.store block slot).word (16 * other + i) =
      block.word (16 * other + i) := by
    intro i small
    refine Block.word_congr fun k smallByte => if_neg ?_
    omega
  have addrs : (fun i => if i ≤ NDIRECT then (ip.store block slot).word (16 * other + 3 + i)
    else 0) =
      fun i => if i ≤ NDIRECT then block.word (16 * other + 3 + i) else 0 := by
    funext i
    split_ifs with inside
    · rw [Nat.add_assoc, word _ (by simp only [NDIRECT] at inside; omega)]
    · rfl
  have first := half 0 (by omega)
  rw [Nat.add_zero] at first
  simp only [load, first, half 1 (by omega), half 2 (by omega), half 3 (by omega),
    word 2 (by omega), addrs]

end Dinode

end Xv6.Fs
