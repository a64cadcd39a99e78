import Xv6.Fs.Dir
import Xv6.Fs.OnDisk

/-!
# `mkfs`

`mkfs/mkfs.c`: the program that builds the file system image from a list of files.  The image is
a host file of sectors.  Calls of the host that the program checks fail where the arguments make
them fail: a sector is read past the end of the image, or an input file cannot be opened.
-/

namespace Xv6.Mkfs

open Fs

/-- Size of the file system in blocks. -/
abbrev FSSIZE : Nat := 2000

abbrev NINODES : Nat := 200

def nbitmap : Nat := FSSIZE / (BSIZE * 8) + 1

def ninodeblocks : Nat := NINODES / IPB + 1

def nlog : Nat := LOGSIZE

/-- Number of metadata blocks. -/
def nmeta : Nat := 2 + nlog + ninodeblocks + nbitmap

/-- Number of data blocks. -/
def nblocks : Nat := FSSIZE - nmeta

def sb : RawSuperblock where
  magic := FSMAGIC
  size := FSSIZE
  nblocks := nblocks
  ninodes := NINODES
  nlog := nlog
  logstart := 2
  inodestart := 2 + nlog
  bmapstart := 2 + nlog + ninodeblocks

/-- Why the program stops early. -/
inductive Failure where
  /-- `die("read")`. -/
  | read
  /-- `die(argv[i])`. -/
  | openFile (arg : List UInt8)
  /-- `assert(rootino == ROOTINO)`. -/
  | rootino
  /-- `assert(index(shortname, '/') == 0)`. -/
  | slash
  /-- `assert(fbn < MAXFILE)`. -/
  | maxfile
  /-- `assert(used < BSIZE*8)`. -/
  | used
  deriving DecidableEq, Repr

/-- The image file and the global counters. -/
structure State where
  /-- Number of sectors of the file. -/
  length : Nat
  sector : Nat → Block
  freeinode : Nat
  freeblock : Nat

def zeroes : Block := fun _ => 0

/-- The sector at the offset `sec * BSIZE`, which is computed in 32 bits. -/
def position (sec : Nat) : Nat := sec % 2 ^ 22

namespace State

def wsect (state : State) (sec : Nat) (buf : Block) : State :=
  { state with
    length := max state.length (position sec + 1)
    sector := Function.update state.sector (position sec) buf }

def rsect (state : State) (sec : Nat) : Except Failure Block :=
  if position sec < state.length then .ok (state.sector (position sec)) else .error .read

def winode (state : State) (inum : Inum) (ip : Dinode) : Except Failure State := do
  let buf ← state.rsect (sb.iblock inum)
  .ok (state.wsect (sb.iblock inum) (ip.store buf (inum % IPB)))

def rinode (state : State) (inum : Inum) : Except Failure Dinode := do
  let buf ← state.rsect (sb.iblock inum)
  .ok (.load buf (inum % IPB))

/-- `freeinode++`. -/
def takeInode (state : State) : State := { state with freeinode := state.freeinode + 1 }

/-- `freeblock++`. -/
def takeBlock (state : State) : State := { state with freeblock := state.freeblock + 1 }

def ialloc (state : State) (type : FileType) : Except Failure (Inum × State) := do
  let inum := state.freeinode
  let state ← state.takeInode.winode inum { type, nlink := 1 }
  .ok (inum, state)

/-- The block that `balloc` writes. -/
def bitmap (used : Nat) : Block := (List.range used).foldl Block.setBit zeroes

def balloc (state : State) (used : Nat) : Except Failure State :=
  if used < BSIZE * 8 then .ok (state.wsect sb.bmapstart (bitmap used)) else .error .used

/-- The block at `addrs[i]`, allocated if there is none. -/
def addrBlock (state : State) (din : Dinode) (i : Nat) : Dinode × State :=
  if din.addrs i = 0 then (din.setAddr i state.freeblock, state.takeBlock) else (din, state)

/-- The block at entry `j` of the indirect block `addr`, allocated if there is none. -/
def entryBlock (state : State) (addr j : Nat) : Except Failure (Nat × State) := do
  let indirect ← state.rsect addr
  if indirect.word j = 0 then
    let indirect := indirect.setWord j state.freeblock
    .ok (indirect.word j, state.takeBlock.wsect addr indirect)
  else
    .ok (indirect.word j, state)

/-- The block for `fbn` in the loop of `iappend`. -/
def blockFor (state : State) (din : Dinode) (fbn : Nat) :
    Except Failure (Nat × Dinode × State) :=
  if fbn < NDIRECT then
    match state.addrBlock din fbn with
    | (din, state) => .ok (din.addrs fbn, din, state)
  else
    match state.addrBlock din NDIRECT with
    | (din, state) => do
      let (x, state) ← state.entryBlock (din.addrs NDIRECT) (fbn - NDIRECT)
      .ok (x, din, state)

/-- The loop of `iappend`; each turn writes at least one byte. -/
def iappendLoop : (turns : Nat) → (p : List UInt8) → (off : Nat) → Dinode → State →
    Except Failure (Nat × Dinode × State)
  | 0, _, off, din, state => .ok (off, din, state)
  | turns + 1, p, off, din, state =>
    if p = [] then .ok (off, din, state)
    else
      let fbn := off / BSIZE
      if fbn < MAXFILE then do
        let (x, din, state) ← state.blockFor din fbn
        let n1 := min p.length ((fbn + 1) * BSIZE - off)
        let buf ← state.rsect x
        let state := state.wsect x (buf.write (off - fbn * BSIZE) (p.take n1))
        iappendLoop turns (p.drop n1) (off + n1) din state
      else .error .maxfile

def iappend (state : State) (inum : Inum) (p : List UInt8) : Except Failure State := do
  let din ← state.rinode inum
  let (off, din, state) ← iappendLoop p.length p din.size din state
  state.winode inum { din with size := off }

/-- The image with the super block and without inodes. -/
def blank : State :=
  let state : State :=
    { length := 0, sector := fun _ => zeroes, freeinode := 1, freeblock := nmeta }
  ((List.range FSSIZE).foldl (fun state i => state.wsect i zeroes) state).wsect 1 sb.encode

end State

/-- The bytes that a call of `read` delivers. -/
structure Chunk where
  bytes : List UInt8
  bytes_ne_nil : bytes ≠ []
  length_le : bytes.length ≤ BSIZE

/-- An argument of the program and the file of that name. -/
structure InputFile where
  arg : List UInt8
  /-- What the calls of `read` deliver, if the file can be opened. -/
  reads : Option (List Chunk)
  arg_ne_zero : 0 ∉ arg

namespace InputFile

/-- `"user/"`. -/
def user : List UInt8 := [0x75, 0x73, 0x65, 0x72, 0x2f]

/-- `'_'`. -/
def underscore : UInt8 := 0x5f

/-- The argument without `"user/"`. -/
def shortname (file : InputFile) : List UInt8 :=
  if strncmp file.arg user 5 = 0 then file.arg.drop 5 else file.arg

/-- The name for the directory, of which `DIRSIZ` bytes are stored. -/
def name (file : InputFile) : List UInt8 :=
  if file.shortname.headD 0 = underscore then file.shortname.drop 1 else file.shortname

end InputFile

namespace State

/-- One iteration over the arguments. -/
def addFile (rootino : Inum) (state : State) (file : InputFile) : Except Failure State :=
  if slash ∈ file.shortname then .error .slash
  else
    match file.reads with
    | none => .error (.openFile file.arg)
    | some chunks => do
      let (inum, state) ← state.ialloc .file
      let state ← state.iappend rootino (Dirent.encode inum file.name)
      chunks.foldlM (fun state chunk => state.iappend inum chunk.bytes) state

/-- The end of `main`: round up the size of the root directory and write the free map. -/
def finish (rootino : Inum) (state : State) : Except Failure State := do
  let din ← state.rinode rootino
  let off := (din.size / BSIZE + 1) * BSIZE
  let state ← state.winode rootino { din with size := off }
  state.balloc state.freeblock

/-- `main` once the image has been cleared. -/
def populate (state : State) (files : List InputFile) : Except Failure State := do
  let (rootino, state) ← state.ialloc .dir
  if rootino = ROOTINO then
    let state ← state.iappend rootino (Dirent.encode rootino dot)
    let state ← state.iappend rootino (Dirent.encode rootino dotdot)
    let state ← files.foldlM (addFile rootino) state
    state.finish rootino
  else
    .error .rootino

end State

/-- `main`: the image, if the program exits with status 0. -/
def main (files : List InputFile) : Except Failure State := State.blank.populate files

end Xv6.Mkfs
