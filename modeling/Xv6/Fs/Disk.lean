import Xv6.Param

/-!
# Blocks and on-disk inodes

The file system image as `kernel/fs.c` sees it through the buffer cache: the inode
area, the free map and the blocks.  A write that has gone through `log_write` is
visible to every later read; the log itself is the subject of `Xv6.Log`.
-/

namespace Xv6.Fs

/-- Block size in bytes. -/
abbrev BSIZE : Nat := 1024

/-- Number of direct blocks of an inode. -/
abbrev NDIRECT : Nat := 12

/-- Number of block addresses in an indirect block. -/
abbrev NINDIRECT : Nat := BSIZE / 4

/-- Maximum number of blocks of a file. -/
abbrev MAXFILE : Nat := NDIRECT + NINDIRECT

/-- The root directory. -/
abbrev ROOTINO : Nat := 1

/-- An inode number. -/
abbrev Inum := Nat

/-- The contents of a block, by byte offset below `BSIZE`. -/
abbrev Block := Nat → UInt8

/-- The fields of the super block that the modelled code depends on.  The blocks
before the `nblocks` data blocks hold the boot block, the super block, the log, the
inodes and the free map. -/
structure Superblock where
  size : Nat
  nblocks : Nat
  ninodes : Nat
  nblocks_lt : nblocks < size
  /-- The loop counter of `balloc` is an `int`. -/
  size_le : size ≤ 2 ^ 31

/-- `type` of an inode; `free` is 0. -/
inductive FileType where
  | free
  | dir
  | file
  | device
  deriving DecidableEq, Repr

/-- `struct dinode`, and the copy of it in `struct inode`.  `addrs` has
`NDIRECT + 1` entries. -/
structure Dinode where
  type : FileType := .free
  major : BitVec 16 := 0
  minor : BitVec 16 := 0
  nlink : BitVec 16 := 0
  size : Nat := 0
  addrs : Nat → Nat := fun _ => 0

/-- Causes of a panic in `kernel/fs.c`. -/
inductive Panic where
  | freeingFreeBlock
  | bmapOutOfRange
  | ilockNoType
  | dirlookupNotDir
  | dirlookupRead
  deriving DecidableEq, Repr

/-- The disk behind the buffer cache. -/
structure Disk where
  dinode : Inum → Dinode
  /-- The bits of the free map. -/
  used : Nat → Bool
  block : Nat → Block

/-! ## Words of an indirect block -/

/-- Entry `i` of a block read as an array of `uint`. -/
def Block.word (block : Block) (i : Nat) : Nat :=
  (block (4 * i)).toNat + 256 * (block (4 * i + 1)).toNat + 65536 * (block (4 * i + 2)).toNat +
    16777216 * (block (4 * i + 3)).toNat

/-- Store to entry `i` of a block read as an array of `uint`. -/
def Block.setWord (block : Block) (i value : Nat) : Block :=
  fun j => if j / 4 = i then UInt8.ofNat (value / 256 ^ (j % 4)) else block j

/-- Overwrite part of a block. -/
def Block.write (block : Block) (offset : Nat) (bytes : List UInt8) : Block :=
  fun j => if offset ≤ j then (bytes[j - offset]?).getD (block j) else block j

/-- Part of a block. -/
def Block.read (block : Block) (offset n : Nat) : List UInt8 :=
  (List.range n).map fun j => block (offset + j)

@[simp] theorem Block.word_zero (i : Nat) : Block.word (fun _ => 0) i = 0 := rfl

theorem Block.word_setWord_ne (block : Block) {i j : Nat} (value : Nat) (ne : i ≠ j) :
    (block.setWord j value).word i = block.word i := by
  have quotients : (4 * i) / 4 = i ∧ (4 * i + 1) / 4 = i ∧ (4 * i + 2) / 4 = i ∧
      (4 * i + 3) / 4 = i := by omega
  simp only [word, setWord, quotients, if_neg ne]

theorem Block.word_setWord (block : Block) (i : Nat) {value : Nat} (fits : value < 2 ^ 32) :
    (block.setWord i value).word i = value := by
  have quotients : (4 * i) / 4 = i ∧ (4 * i + 1) / 4 = i ∧ (4 * i + 2) / 4 = i ∧
      (4 * i + 3) / 4 = i := by omega
  have remainders : (4 * i) % 4 = 0 ∧ (4 * i + 1) % 4 = 1 ∧ (4 * i + 2) % 4 = 2 ∧
      (4 * i + 3) % 4 = 3 := by omega
  simp only [word, setWord, quotients, remainders, if_true, UInt8.toNat_ofNat', Nat.reducePow]
  omega

namespace Disk

variable (sb : Superblock) (disk : Disk)

/-! ## Blocks -/

/-- `balloc`: a zeroed block, or 0. -/
def balloc : Nat × Disk :=
  match (List.range sb.size).find? fun b => !disk.used b with
  | some b =>
    (b, { disk with
      used := Function.update disk.used b true
      block := Function.update disk.block b fun _ => 0 })
  | none => (0, disk)

/-- `bfree`. -/
def bfree (b : Nat) : Except Panic Disk :=
  if disk.used b then .ok { disk with used := Function.update disk.used b false }
  else .error .freeingFreeBlock

/-- Store to a block. -/
def setBlock (b : Nat) (contents : Block) : Disk :=
  { disk with block := Function.update disk.block b contents }

/-! ## Inodes -/

/-- `iupdate`. -/
def iupdate (inum : Inum) (ip : Dinode) : Disk :=
  { disk with dinode := Function.update disk.dinode inum ip }

/-- `ilock`: the inode as it is on the disk. -/
def ilock (inum : Inum) : Except Panic Dinode :=
  if (disk.dinode inum).type = .free then .error .ilockNoType else .ok (disk.dinode inum)

end Disk

end Xv6.Fs
