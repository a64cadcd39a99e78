import Xv6.Fs.Dir
import Xv6.Fs.OnDisk

/-!
# Booting on an image

What the kernel makes of the blocks of a disk: `fsinit` with `initlog`, the places of `ilock` and
`balloc` that find an inode and a bit of the free map in a block, and `namei` while no other
process runs.
-/

namespace Xv6.Fs

/-- `lh->n`, an `int`. -/
def logged (head : Block) : Nat := if head.word 0 < 2 ^ 31 then head.word 0 else 0

/-- `recover_from_log`. -/
def recoverFromLog (sb : RawSuperblock) (image : Nat → Block) : Nat → Block :=
  let head := image sb.logstart
  let install := fun (image : Nat → Block) tail =>
    Function.update image (head.word (tail + 1)) (image (sb.logstart + tail + 1))
  let image := (List.range (logged head)).foldl install image
  Function.update image sb.logstart ((image sb.logstart).setWord 0 0)

/-- The disk as `ilock`, `balloc` and `bread` see it. -/
def mount (sb : RawSuperblock) (image : Nat → Block) : Disk where
  dinode := fun inum => .load (image (sb.iblock inum)) (inum % IPB)
  used := fun b => (image (sb.bblock b)).bit (b % BPB)
  block := image

/-- `fsinit`; `none` is its panic.  A super block with more blocks than an `int` counts is
outside the model. -/
def fsinit (image : Nat → Block) : Option (Superblock × Disk) :=
  let sb := RawSuperblock.decode (image 1)
  if sb.magic = FSMAGIC then
    if valid : sb.nblocks < sb.size ∧ sb.size ≤ 2 ^ 31 then
      some ({ size := sb.size, nblocks := sb.nblocks, ninodes := sb.ninodes,
              nblocks_lt := valid.1, size_le := valid.2 },
        mount sb (recoverFromLog sb image))
    else none
  else none

namespace Disk

variable (sb : Superblock)

/-- `iput` of an inode that the caller has locked; `held` says whether there is another reference
to it. -/
def iput (held : Bool) (inum : Inum) (ip : Dinode) (disk : Disk) : Except Panic Disk :=
  if held = false ∧ ip.nlink = 0 then do
    let (ip, disk) ← itrunc inum ip disk
    .ok (disk.iupdate inum { ip with type := .free })
  else .ok disk

/-- The body of the loop of `namex`: from inode `inum` to what it has under a name.  The process
has a reference to `cwd`, and `dirlookup` takes one to what it finds. -/
def enter (cwd : Inum) (name : List UInt8) (inum : Inum) (disk : Disk) :
    Except Panic (Option Inum × Disk) := do
  let ip ← disk.ilock inum
  if ip.type ≠ .dir then
    let disk ← iput (inum == cwd) inum ip disk
    .ok (none, disk)
  else
    let (found, ip, disk) ← dirlookup sb ip name disk
    let next := found.map Prod.fst
    let disk ← iput (inum == cwd || next == some inum) inum ip disk
    .ok (next, disk)

/-- The loop of `namex` for `namei`. -/
def nameiLoop (cwd : Inum) : (turns : Nat) → (path : List UInt8) → Inum → Disk →
    Except Panic (Option Inum × Disk)
  | 0, _, inum, disk => .ok (some inum, disk)
  | turns + 1, path, inum, disk =>
    match skipelem path with
    | none => .ok (some inum, disk)
    | some (name, path) => do
      let (next, disk) ← enter sb cwd name inum disk
      match next with
      | none => .ok (none, disk)
      | some next => nameiLoop cwd turns path next disk

/-- `namei` in a process whose current directory is `cwd` and which has no other inode; each element
shortens the path. -/
def namei (cwd : Inum) (path : List UInt8) (disk : Disk) : Except Panic (Option Inum × Disk) :=
  nameiLoop sb cwd (path.length + 1) path (if path.headD 0 = slash then ROOTINO else cwd) disk

end Disk

/-- A log whose header counts no block has nothing to recover. -/
theorem recoverFromLog_eq {sb : RawSuperblock} {image : Nat → Block}
    (empty : image sb.logstart = fun _ => 0) : recoverFromLog sb image = image := by
  have none : logged (image sb.logstart) = 0 := by simp [logged, empty]
  have head : (image sb.logstart).setWord 0 0 = image sb.logstart := by
    rw [empty]
    funext j
    simp only [Block.setWord, Nat.zero_div]
    split_ifs <;> rfl
  simp only [recoverFromLog, none, List.range_zero, List.foldl_nil, head]
  exact Function.update_eq_self ..

end Xv6.Fs
