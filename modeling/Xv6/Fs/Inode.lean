import Xv6.Fs.Disk

/-!
# Inode contents

`bmap`, `itrunc`, `readi` and `writei` of `kernel/fs.c`.  The functions work on the
in-memory copy `ip` of inode `inum` and on the disk.
-/

namespace Xv6.Fs

/-- Set `addrs[i]`. -/
@[simps -fullyApplied]
def Dinode.setAddr (ip : Dinode) (i addr : Nat) : Dinode :=
  { ip with addrs := Function.update ip.addrs i addr }

/-- `off + n < off` in 32-bit arithmetic. -/
def Overflows (off n : Nat) : Prop := 2 ^ 32 ≤ off + n

instance (off n : Nat) : Decidable (Overflows off n) :=
  inferInstanceAs (Decidable (_ ≤ _))

namespace Disk

variable (sb : Superblock)

/-- The block of `addrs[i]`, allocated if necessary; 0 when the disk is full. -/
def addrBlock (ip : Dinode) (i : Nat) (disk : Disk) : Nat × Dinode × Disk :=
  if ip.addrs i = 0 then
    match disk.balloc sb with
    | (addr, disk) => if addr = 0 then (0, ip, disk) else (addr, ip.setAddr i addr, disk)
  else (ip.addrs i, ip, disk)

/-- Entry `i` of the indirect block at `addr`, allocated if necessary. -/
def entryBlock (addr i : Nat) (disk : Disk) : Nat × Disk :=
  if (disk.block addr).word i = 0 then
    match disk.balloc sb with
    | (entry, after) =>
      -- the buffer of the indirect block was read before `balloc`
      if entry = 0 then (0, after)
      else (entry, after.setBlock addr ((disk.block addr).setWord i entry))
  else ((disk.block addr).word i, disk)

/-- `bmap`. -/
def bmap (ip : Dinode) (bn : Nat) (disk : Disk) : Except Panic (Nat × Dinode × Disk) :=
  if bn < NDIRECT then .ok (addrBlock sb ip bn disk)
  else if bn - NDIRECT < NINDIRECT then
    match addrBlock sb ip NDIRECT disk with
    | (addr, ip, disk) =>
      if addr = 0 then .ok (0, ip, disk)
      else
        match entryBlock sb addr (bn - NDIRECT) disk with
        | (entry, disk) => .ok (entry, ip, disk)
  else .error .bmapOutOfRange

/-! ## Truncation -/

/-- The loop of `itrunc` over the direct blocks, from `addrs[i]` on. -/
def truncDirect : (turns i : Nat) → Dinode → Disk → Except Panic (Dinode × Disk)
  | 0, _, ip, disk => .ok (ip, disk)
  | turns + 1, i, ip, disk =>
    if ip.addrs i = 0 then truncDirect turns (i + 1) ip disk
    else do
      let disk ← disk.bfree (ip.addrs i)
      truncDirect turns (i + 1) (ip.setAddr i 0) disk

/-- The loop of `itrunc` over the entries of the indirect block `a`. -/
def truncEntries (a : Block) : (turns j : Nat) → Disk → Except Panic Disk
  | 0, _, disk => .ok disk
  | turns + 1, j, disk =>
    if a.word j = 0 then truncEntries a turns (j + 1) disk
    else do
      let disk ← disk.bfree (a.word j)
      truncEntries a turns (j + 1) disk

/-- The part of `itrunc` for the indirect block. -/
def truncIndirect (ip : Dinode) (disk : Disk) : Except Panic (Dinode × Disk) :=
  if ip.addrs NDIRECT = 0 then .ok (ip, disk)
  else do
    let disk ← truncEntries (disk.block (ip.addrs NDIRECT)) NINDIRECT 0 disk
    let disk ← disk.bfree (ip.addrs NDIRECT)
    .ok (ip.setAddr NDIRECT 0, disk)

/-- `itrunc`. -/
def itrunc (inum : Inum) (ip : Dinode) (disk : Disk) : Except Panic (Dinode × Disk) := do
  let (ip, disk) ← truncDirect NDIRECT 0 ip disk
  let (ip, disk) ← truncIndirect ip disk
  let ip := { ip with size := 0 }
  .ok (ip, disk.iupdate inum ip)

/-! ## Reading and writing -/

/-- The loop of `readi`; each turn delivers at least one byte. -/
def readiLoop : (turns off n : Nat) → Dinode → Disk → Except Panic (List UInt8 × Dinode × Disk)
  | 0, _, _, ip, disk => .ok ([], ip, disk)
  | turns + 1, off, n, ip, disk =>
    if n = 0 then .ok ([], ip, disk)
    else do
      let (addr, ip, disk) ← bmap sb ip (off / BSIZE) disk
      if addr = 0 then .ok ([], ip, disk)
      else do
        let m := min n (BSIZE - off % BSIZE)
        let (rest, ip', disk') ← readiLoop turns (off + m) (n - m) ip disk
        .ok ((disk.block addr).read (off % BSIZE) m ++ rest, ip', disk')

/-- `readi` to a kernel address: the bytes it copies. -/
def readi (ip : Dinode) (off n : Nat) (disk : Disk) :
    Except Panic (List UInt8 × Dinode × Disk) :=
  if ip.size < off ∨ Overflows off n then .ok ([], ip, disk)
  else
    let n := min n (ip.size - off)
    readiLoop sb n off n ip disk

/-- The loop of `writei` once `tot` bytes are written.  The source bytes from `limit`
on cannot be read; `either_copyin` stops there in the middle of a block. -/
def writeiLoop (src : List UInt8) (limit : Nat) :
    (turns off tot : Nat) → Dinode → Disk → Except Panic (Nat × Nat × Dinode × Disk)
  | 0, off, tot, ip, disk => .ok (tot, off, ip, disk)
  | turns + 1, off, tot, ip, disk =>
    if src.length ≤ tot then .ok (tot, off, ip, disk)
    else do
      let (addr, ip, disk) ← bmap sb ip (off / BSIZE) disk
      if addr = 0 then .ok (tot, off, ip, disk)
      else
        let m := min (src.length - tot) (BSIZE - off % BSIZE)
        let copied := if tot + m ≤ limit then m else limit - tot
        let disk := disk.setBlock addr
          ((disk.block addr).write (off % BSIZE) ((src.drop tot).take copied))
        if tot + m ≤ limit then writeiLoop src limit turns (off + m) (tot + m) ip disk
        else .ok (tot, off, ip, disk)

/-- `writei`; the result is the number of bytes, `none` for -1. -/
def writei (inum : Inum) (ip : Dinode) (src : List UInt8) (limit off : Nat) (disk : Disk) :
    Except Panic (Option Nat × Dinode × Disk) :=
  if ip.size < off ∨ Overflows off src.length ∨ MAXFILE * BSIZE < off + src.length then
    .ok (none, ip, disk)
  else do
    let (tot, off, ip, disk) ← writeiLoop sb src limit src.length off 0 ip disk
    let ip := { ip with size := max ip.size off }
    .ok (some tot, ip, disk.iupdate inum ip)

end Disk

end Xv6.Fs
