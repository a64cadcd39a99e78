import Xv6.Fs.Inode

/-!
# Directories and path elements

`dirlookup` and `skipelem` of `kernel/fs.c`.  A directory is a file of 16-byte
entries.  Names are byte lists; a byte past the end of a list counts as the
terminating 0.
-/

namespace Xv6.Fs

/-- The bytes of a name in a directory entry. -/
abbrev DIRSIZ : Nat := 14

/-- `sizeof(struct dirent)`. -/
abbrev DIRENT : Nat := 16

/-! ## Strings -/

/-- `strncmp`. -/
def strncmp : List UInt8 → List UInt8 → (n : Nat) → Int
  | _, _, 0 => 0
  | p, q, n + 1 =>
    if p.headD 0 ≠ 0 ∧ p.headD 0 = q.headD 0 then strncmp p.tail q.tail n
    else (p.headD 0).toNat - (q.headD 0).toNat

/-- `strncpy`: the `n` bytes that it stores. -/
def strncpy : (t : List UInt8) → (n : Nat) → List UInt8
  | _, 0 => []
  | t, n + 1 => if t.headD 0 = 0 then List.replicate (n + 1) 0 else t.headD 0 :: strncpy t.tail n

/-- `namecmp`. -/
def namecmp (s t : List UInt8) : Int := strncmp s t DIRSIZ

/-- `"."`. -/
abbrev dot : List UInt8 := [0x2e]

/-- `".."`. -/
abbrev dotdot : List UInt8 := [0x2e, 0x2e]

/-- `'/'`. -/
abbrev slash : UInt8 := 0x2f

/-- `skipelem`: the next path element and the rest of the path. -/
def skipelem (path : List UInt8) : Option (List UInt8 × List UInt8) :=
  let path := path.dropWhile (· == slash)
  if path = [] then none
  else
    let elem := path.takeWhile (· != slash)
    some (elem.take DIRSIZ, (path.drop elem.length).dropWhile (· == slash))

/-! ## Entries -/

/-- `struct dirent`. -/
structure Dirent where
  inum : Nat
  name : List UInt8

/-- The entry that is stored in 16 bytes. -/
def Dirent.decode (bytes : List UInt8) : Dirent where
  inum := (bytes.getD 0 0).toNat + 256 * (bytes.getD 1 0).toNat
  name := bytes.drop 2

/-- The 16 bytes of an entry; `inum` is a 16-bit number. -/
def Dirent.encode (inum : Inum) (name : List UInt8) : List UInt8 :=
  UInt8.ofNat inum :: UInt8.ofNat (inum / 256) :: strncpy name DIRSIZ

namespace Disk

variable (sb : Superblock)

/-- Read one entry. -/
def readDirent (dp : Dinode) (off : Nat) (disk : Disk) :
    Except Panic (Dirent × Dinode × Disk) := do
  let (bytes, dp, disk) ← readi sb dp off DIRENT disk
  if bytes.length = DIRENT then .ok (.decode bytes, dp, disk) else .error .dirlookupRead

/-- The loop of `dirlookup` from `off` on. -/
def dirlookupLoop (name : List UInt8) :
    (turns off : Nat) → Dinode → Disk → Except Panic (Option (Inum × Nat) × Dinode × Disk)
  | 0, _, dp, disk => .ok (none, dp, disk)
  | turns + 1, off, dp, disk =>
    if dp.size ≤ off then .ok (none, dp, disk)
    else do
      let (de, dp, disk) ← readDirent sb dp off disk
      if de.inum ≠ 0 ∧ namecmp name de.name = 0 then .ok (some (de.inum, off), dp, disk)
      else dirlookupLoop name turns (off + DIRENT) dp disk

/-- `dirlookup`, without its `iget`: the inode number and the offset of the entry. -/
def dirlookup (dp : Dinode) (name : List UInt8) (disk : Disk) :
    Except Panic (Option (Inum × Nat) × Dinode × Disk) :=
  if dp.type = .dir then dirlookupLoop sb name (dp.size / DIRENT + 1) 0 dp disk
  else .error .dirlookupNotDir

end Disk

end Xv6.Fs
