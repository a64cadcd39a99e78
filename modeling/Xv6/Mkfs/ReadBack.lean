import Xv6.Mkfs.Valid

/-!
# The kernel reads what `mkfs` wrote

Booting on the image, `namei` finds each file under its name and `readi` returns its bytes.
-/

namespace Xv6.Mkfs

open Fs List

/-! ## Booting -/

/-- The super block of the image, as the kernel keeps it. -/
def superblock : Superblock where
  size := FSSIZE
  nblocks := nblocks
  ninodes := NINODES
  nblocks_lt := by decide
  size_le := by decide

variable {state : State} {files : List InputFile}

theorem Built.fsinit_eq (built : Built state files) :
    fsinit state.sector = some (superblock, mount sb state.sector) := by
  have isSuper : RawSuperblock.decode (state.sector 1) = sb := by
    rw [built.super]
    exact RawSuperblock.decode_encode (by decide)
  have valid : sb.nblocks < sb.size ∧ sb.size ≤ 2 ^ 31 := by decide
  simp only [fsinit, isSuper, recoverFromLog_eq built.log]
  rw [if_pos (by rfl), dif_pos valid]
  rfl

/-! ## Names -/

theorem strncpy_take (t : List UInt8) (n : Nat) : strncpy (t.take n) n = strncpy t n := by
  induction n generalizing t with
  | zero => rfl
  | succ n ih =>
    cases t with
    | nil => rfl
    | cons head tail =>
      rw [take_succ_cons, Stores.strncpy_succ, Stores.strncpy_succ, headD_cons,
        headD_cons, tail_cons, tail_cons, ih]

theorem InputFile.slash_not_mem_name {file : InputFile} (readable : file.Readable) :
    slash ∉ file.name := by
  unfold InputFile.name
  split_ifs
  · exact fun member => readable.1 (mem_of_mem_drop member)
  · exact readable.1

/-- The path of a file in the root directory has one element. -/
theorem skipelem_name {name : List UInt8} (nonempty : name ≠ []) (plain : slash ∉ name) :
    skipelem (slash :: name) = some (name.take DIRSIZ, []) := by
  have keep : ∀ byte ∈ name, (byte != slash) = true := by
    intro byte member
    have ne : byte ≠ slash := by
      rintro rfl
      exact plain member
    simpa using ne
  have start : (slash :: name).dropWhile (· == slash) = name := by
    cases name with
    | nil => exact (nonempty rfl).elim
    | cons head tail =>
      have ne : head ≠ slash := by
        rintro rfl
        exact plain mem_cons_self
      rw [dropWhile_cons_of_pos (by rfl), dropWhile_cons_of_neg (by simpa using ne)]
  have whole : name.takeWhile (· != slash) = name := takeWhile_eq_self_iff.mpr keep
  simp only [skipelem, start, if_neg nonempty, whole, drop_length, dropWhile_nil]

/-! ## Finding and reading a file -/

theorem storedNames_getElem {i : Nat} (isEntry : i < (entries files).length)
    (isName : i < (storedNames files).length) :
    (storedNames files)[i] = strncpy (entries files)[i].2 DIRSIZ := by
  simp [storedNames]

namespace Built

variable (built : Built state files)
include built

section

variable (few : files.length + 2 ≤ NINODES) {k : Nat}
include few

/-- The entry of a file is the first of its name. -/
theorem dirlookup_eq (distinct : (storedNames files).Nodup) (inside : k < files.length) :
    Disk.dirlookup superblock (state.dinode ROOTINO) (files[k].name.take DIRSIZ)
        (mount sb state.sector) =
      .ok (some (k + 2, DIRENT * (k + 2)), state.dinode ROOTINO, mount sb state.sector) := by
  have isDir : (state.dinode ROOTINO).type = .dir := built.type ROOTINO rootArea
  have stores := built.stores rootArea
  rw [contents, if_pos rfl] at stores
  have isEntry : k + 2 < (entries files).length := by
    rw [length_entries]
    omega
  have entry : (entries files)[k + 2] = (k + 2, files[k].name) := by simp [entries]
  have small : (k + 2) % 65536 = k + 2 := by
    simp only [NINODES] at few
    omega
  have found : Stores.Matches (files[k].name.take DIRSIZ) (entries files)[k + 2] := by
    rw [entry]
    refine ⟨?_, strncpy_take ..⟩
    change (k + 2) % 65536 ≠ 0
    omega
  have others : ∀ j (earlier : j < k + 2),
      ¬ Stores.Matches (files[k].name.take DIRSIZ) (entries files)[j] := by
    intro j earlier matched
    have sameName := matched.2
    have names : (storedNames files).length = (entries files).length := length_map _
    have equal : (storedNames files)[j] = (storedNames files)[k + 2] := by
      rw [storedNames_getElem (Nat.lt_trans earlier isEntry), storedNames_getElem isEntry, entry,
        ← sameName, strncpy_take]
    have := distinct.getElem_inj_iff.mp equal
    omega
  have onDisk : Stores (mount sb state.sector).block (state.dinode ROOTINO)
      (Stores.direntsBytes (entries files)) := stores
  have result : Disk.dirlookup superblock (state.dinode ROOTINO) (files[k].name.take DIRSIZ)
      (mount sb state.sector) = _ := onDisk.dirlookup_eq isDir isEntry found others
  rw [entry, small] at result
  exact result

theorem namei_eq (distinct : (storedNames files).Nodup) (cwd : Inum) (inside : k < files.length)
    (readable : files[k].Readable) (nonempty : files[k].name ≠ []) :
    Disk.namei superblock cwd (slash :: files[k].name) (mount sb state.sector) =
      .ok (some (k + 2), mount sb state.sector) := by
  have elem := skipelem_name nonempty (InputFile.slash_not_mem_name readable)
  have isDir : (state.dinode ROOTINO).type = .dir := built.type ROOTINO rootArea
  have root : (mount sb state.sector).dinode ROOTINO = state.dinode ROOTINO := rfl
  have found := built.dirlookup_eq few distinct inside
  have ended : skipelem [] = none := rfl
  have entered : Disk.enter superblock cwd (files[k].name.take DIRSIZ) ROOTINO
      (mount sb state.sector) = .ok (some (k + 2), mount sb state.sector) := by
    simp [Disk.enter, Disk.ilock, Disk.iput, root, isDir, built.root_linked, found, bind,
      Except.bind]
  simp only [Disk.namei, headD_cons, if_true, length_cons, Disk.nameiLoop, elem, entered,
    bind, Except.bind, ended]

theorem readi_eq (inside : k < files.length) :
    Disk.readi superblock (state.dinode (k + 2)) 0 (state.dinode (k + 2)).size
        (mount sb state.sector) =
      .ok (files[k].bytes, state.dinode (k + 2), mount sb state.sector) := by
  have inArea : InArea (k + 2) := by
    change k + 2 < ninodeblocks * IPB
    exact Nat.lt_of_lt_of_le (Nat.add_lt_add_right inside 2) (Nat.le_trans few (by decide))
  have stores := built.stores inArea
  have size := built.size (k + 2) inArea (rootino_ne k).symm
  rw [contents_file inside] at stores size
  have onDisk : Stores (mount sb state.sector).block (state.dinode (k + 2)) files[k].bytes := stores
  rw [size, onDisk.readi_eq (by omega), drop_zero, take_length]

theorem type_eq (inside : k < files.length) : (state.dinode (k + 2)).type = .file := by
  have isFile : k + 2 < files.length + 2 := Nat.add_lt_add_right inside 2
  have inArea : InArea (k + 2) := Nat.lt_of_lt_of_le isFile (Nat.le_trans few (by decide))
  rw [built.type (k + 2) inArea, kinds, if_neg (rootino_ne k).symm,
    if_pos ⟨Nat.le_add_left 2 k, isFile⟩]

end

/-- The root directory as the kernel reads it: its entries, and zeroes up to the end of its last
block. -/
theorem root_stores (gap : (files.length + 2) % (BSIZE / DIRENT) ≠ 0) :
    Stores state.sector (state.dinode ROOTINO) (contents files ROOTINO ++
      replicate (rootSize files - (contents files ROOTINO).length) 0) := by
  have bounds := built.length_le_size rootArea
  have allocated := built.root_allocated.mpr gap
  rw [built.root_size] at bounds allocated
  have length : (contents files ROOTINO ++ replicate
      (rootSize files - (contents files ROOTINO).length) 0).length = rootSize files := by
    rw [length_append, length_replicate]
    omega
  refine ⟨?_, ?_, ?_, fun off inside => ?_⟩
  · rw [built.root_size, length]
  · rw [built.root_size]
    exact bounds.2
  · rw [length]
    exact allocated
  · rw [length] at inside
    rw [built.byte rootArea (allocated _
      (Nat.lt_of_le_of_lt (Nat.div_mul_le_self off BSIZE) inside))]
    by_cases isEntry : off < (contents files ROOTINO).length
    · rw [getD_append _ _ _ _ isEntry]
    · rw [getD_append_right _ _ _ _ (Nat.le_of_not_lt isEntry),
        getD_eq_default _ _ (Nat.le_of_not_lt isEntry), getD_replicate _ (by omega)]

end Built

/-- The kernel reads what `mkfs` wrote.  For every list of readable files that needs fewer than
`NINODES` inodes and at most `FSSIZE` blocks, with at most `MAXFILE` blocks each, and whose stored
names are not empty and differ from each other and from `"."` and `".."`: `mkfs` builds an image,
the kernel boots on it, `namei` finds a regular file under the path of each name, and `readi`
returns its bytes. -/
theorem kernel_reads_image {files : List InputFile} (inodes : files.length + 1 < NINODES)
    (blocks : imageBlocks files ≤ FSSIZE)
    (sizes : ∀ file ∈ files, file.bytes.length ≤ MAXFILE * BSIZE)
    (readable : ∀ file ∈ files, file.Readable) (nonempty : ∀ file ∈ files, file.name ≠ [])
    (distinct : (storedNames files).Nodup) (cwd : Inum) :
    ∃ state superblock disk, main files = .ok state ∧
      fsinit state.sector = some (superblock, disk) ∧
      ∀ file ∈ files, ∃ inum,
        Disk.namei superblock cwd (slash :: file.name) disk = .ok (some inum, disk) ∧
        (disk.dinode inum).type = .file ∧
        Disk.readi superblock (disk.dinode inum) 0 (disk.dinode inum).size disk =
          .ok (file.bytes, disk.dinode inum, disk) := by
  have few : files.length + 2 ≤ NINODES := inodes
  have room : files.length + 2 ≤ ninodeblocks * IPB := Nat.le_trans few (by decide)
  obtain ⟨state, accepted, built⟩ := main_returns room readable (not_overrun room blocks sizes)
  refine ⟨state, superblock, mount sb state.sector, accepted,
    built.fsinit_eq, fun file member => ?_⟩
  obtain ⟨k, inside, rfl⟩ := List.getElem_of_mem member
  exact ⟨k + 2,
    built.namei_eq few distinct cwd inside (readable _ member) (nonempty _ member),
    built.type_eq few inside, built.readi_eq few inside⟩

theorem kernel_reads_image_twoFiles : ∃ state superblock disk, main twoFiles = .ok state ∧
    fsinit state.sector = some (superblock, disk) ∧
    ∀ file ∈ twoFiles, ∃ inum,
      Disk.namei superblock ROOTINO (slash :: file.name) disk = .ok (some inum, disk) ∧
      (disk.dinode inum).type = .file ∧
      Disk.readi superblock (disk.dinode inum) 0 (disk.dinode inum).size disk =
        .ok (file.bytes, disk.dinode inum, disk) :=
  kernel_reads_image (by decide) (by decide +kernel) (by decide +kernel)
    (by simp [twoFiles, InputFile.Readable]; decide) (by decide) (by decide) ROOTINO

/-- `mkfs fs.img _`. -/
def fileUnderscore : List InputFile := [oneByte [0x5f] (by decide)]

/-- A file named `"_"` is stored without a name, and its path is that of the root directory. -/
theorem nameless_file_not_read : fileUnderscore.length + 1 < NINODES ∧
    imageBlocks fileUnderscore ≤ FSSIZE ∧
    (∀ file ∈ fileUnderscore, file.bytes.length ≤ MAXFILE * BSIZE ∧ file.Readable) ∧
    (fileUnderscore.map fun file => strncpy file.name DIRSIZ).Nodup ∧
    ∃ state superblock disk bytes, main fileUnderscore = .ok state ∧
      fsinit state.sector = some (superblock, disk) ∧
      ∀ file ∈ fileUnderscore,
        Disk.namei superblock ROOTINO (slash :: file.name) disk = .ok (some ROOTINO, disk) ∧
        Disk.readi superblock (disk.dinode ROOTINO) 0 (disk.dinode ROOTINO).size disk =
          .ok (bytes, disk.dinode ROOTINO, disk) ∧
        bytes ≠ file.bytes := by
  have readable : ∀ file ∈ fileUnderscore, file.Readable := by
    simp [fileUnderscore, InputFile.Readable]
    decide
  obtain ⟨state, accepted, built⟩ : Returns (Built · fileUnderscore) (main fileUnderscore) :=
    main_returns (by decide) readable (not_overrun (by decide) (by decide) (by decide))
  have stores : Stores (mount sb state.sector).block (state.dinode ROOTINO) _ :=
    built.root_stores (by decide)
  generalize isRoot : contents fileUnderscore ROOTINO ++ List.replicate
    (rootSize fileUnderscore - (contents fileUnderscore ROOTINO).length) 0 = root at stores
  have size : (state.dinode ROOTINO).size = root.length := by
    rw [built.root_size, ← isRoot]
    decide +kernel
  have read : Disk.readi superblock (state.dinode ROOTINO) 0 root.length
      (mount sb state.sector) = _ := stores.readi_eq (by omega)
  rw [List.drop_zero, List.take_length, ← size] at read
  refine ⟨by decide, by decide, fun file member => ⟨?_, readable file member⟩, by decide, state,
    superblock, mount sb state.sector, root, accepted, built.fsinit_eq, fun file member => ?_⟩
  · obtain rfl := List.mem_singleton.mp member
    decide
  · obtain rfl := List.mem_singleton.mp member
    refine ⟨rfl, read, fun same => ?_⟩
    have lengths := congrArg List.length same
    rw [← size, built.root_size] at lengths
    exact absurd lengths (by decide +kernel)

end Xv6.Mkfs
