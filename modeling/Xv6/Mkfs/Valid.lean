import Xv6.Fs.Boot
import Xv6.Mkfs.Contents

/-!
# When the image is a valid file system

`mkfs` does not compare the number of files with the number of inodes, nor the names with each
other, and it gives the root directory a block too many if its entries fill its blocks.  In all
other cases the image that it accepts is a valid file system.
-/

namespace Xv6.Mkfs

open Fs State List

namespace State

/-- Entry `i` of the root directory. -/
def rootEntry (state : State) (i : Nat) : Dirent :=
  let block := blockOf state.sector (state.dinode ROOTINO) (DIRENT * i / BSIZE)
  .decode ((state.sector block).read (DIRENT * i % BSIZE) DIRENT)

/-- The root directory has entry `i`, and it is in use. -/
structure HasEntry (state : State) (i : Nat) : Prop where
  inside : DIRENT * i < (state.dinode ROOTINO).size
  allocated : blockOf state.sector (state.dinode ROOTINO) (DIRENT * i / BSIZE) ≠ 0
  used : (state.rootEntry i).inum ≠ 0

/-- The image is a valid file system. -/
structure Valid (state : State) : Prop where
  /-- The inodes that were handed out exist. -/
  inodes : ∀ inum, ROOTINO ≤ inum → inum < state.freeinode →
    inum < sb.ninodes ∧ sb.iblock inum < sb.bmapstart
  /-- Every block number in an inode or an indirect block is one of a data block. -/
  blocks : ∀ inum, InArea inum → ∀ r < NPLACE, ref state.sector (state.dinode inum) r ≠ 0 →
    nmeta ≤ ref state.sector (state.dinode inum) r ∧
      ref state.sector (state.dinode inum) r < sb.size
  /-- It is used once. -/
  once : ∀ inum other, InArea inum → InArea other → ∀ r < NPLACE, ∀ r' < NPLACE,
    ref state.sector (state.dinode inum) r ≠ 0 →
    ref state.sector (state.dinode inum) r = ref state.sector (state.dinode other) r' →
    inum = other ∧ r = r'
  /-- The free map marks the metadata and the used blocks. -/
  marks : ∀ b < BPB, (state.sector sb.bmapstart).bit b ↔
    b < nmeta ∨ ∃ inum, InArea inum ∧ ∃ r < NPLACE, ref state.sector (state.dinode inum) r = b
  /-- No two entries of the root directory have the same name. -/
  names : ∀ i j, state.HasEntry i → state.HasEntry j →
    namecmp (state.rootEntry i).name (state.rootEntry j).name = 0 → i = j
  /-- Every inode has all the blocks of its size. -/
  allocated : ∀ inum, ROOTINO ≤ inum → inum < state.freeinode → ∀ fbn,
    fbn * BSIZE < (state.dinode inum).size → blockOf state.sector (state.dinode inum) fbn ≠ 0

end State

/-- The names in the root directory, as they are stored. -/
def storedNames (files : List InputFile) : List (List UInt8) :=
  (entries files).map fun entry => strncpy entry.2 DIRSIZ

theorem bitmap_bit (used b : Nat) : (State.bitmap used).bit b = decide (b < used) := by
  induction used with
  | zero => simp [State.bitmap, Block.bit, zeroes]
  | succ used ih =>
    have last : State.bitmap (used + 1) = (State.bitmap used).setBit used := by
      simp [State.bitmap, range_succ]
    rw [last, Block.bit_setBit, ih, ← Bool.decide_or]
    exact decide_eq_decide.mpr (by omega)

namespace Built

variable {state : State} {files : List InputFile} {inum : Inum}

section

variable (built : Built state files)
include built

theorem filled_of_ref_ne_zero (inArea : InArea inum) {r : Nat} (small : r < NPLACE)
    (present : ref state.sector (state.dinode inum) r ≠ 0) : r < counts (contents files) inum := by
  by_contra free
  exact present (built.laid.empty inum inArea r (Nat.le_of_not_lt free) small)

theorem blocks (inArea : InArea inum) {r : Nat} (small : r < NPLACE)
    (present : ref state.sector (state.dinode inum) r ≠ 0) :
    nmeta ≤ ref state.sector (state.dinode inum) r ∧
      ref state.sector (state.dinode inum) r < sb.size := by
  have bounds := built.laid.mem_Ico inArea (built.filled_of_ref_ne_zero inArea small present)
  exact ⟨bounds.1, Nat.lt_of_lt_of_le bounds.2 built.free_le⟩

theorem once {other : Inum} (inArea : InArea inum) (otherArea : InArea other) {r r' : Nat}
    (small : r < NPLACE) (small' : r' < NPLACE)
    (present : ref state.sector (state.dinode inum) r ≠ 0)
    (same : ref state.sector (state.dinode inum) r = ref state.sector (state.dinode other) r') :
    inum = other ∧ r = r' :=
  built.laid.inj inArea otherArea (built.filled_of_ref_ne_zero inArea small present)
    (built.filled_of_ref_ne_zero otherArea small' (same ▸ present)) same

theorem marks (b : Nat) : (state.sector sb.bmapstart).bit b ↔
    b < nmeta ∨ ∃ inum, InArea inum ∧ ∃ r < NPLACE, ref state.sector (state.dinode inum) r = b := by
  rw [built.bitmap, bitmap_bit, decide_eq_true_iff]
  constructor
  · intro used
    rcases Nat.lt_or_ge b nmeta with isMeta | isData
    · exact .inl isMeta
    · obtain ⟨⟨inum, r⟩, member, same⟩ := built.laid.handed.surjOn ⟨isData, used⟩
      obtain ⟨inArea, filled⟩ := mem_filled.mp member
      exact .inr ⟨inum, inArea, r, Nat.lt_of_lt_of_le filled (built.laid.count_le inum inArea),
        same⟩
  · rintro (isMeta | ⟨inum, inArea, r, small, rfl⟩)
    · exact Nat.lt_of_lt_of_le isMeta built.laid.nmeta_le
    · by_cases absent : ref state.sector (state.dinode inum) r = 0
      · rw [absent]
        exact Nat.lt_of_lt_of_le (by decide) built.laid.nmeta_le
      · exact (built.laid.mem_Ico inArea (built.filled_of_ref_ne_zero inArea small absent)).2

/-- A file has the blocks of its contents, and no more. -/
theorem blockOf_ne_zero (inArea : InArea inum) {fbn : Nat} :
    blockOf state.sector (state.dinode inum) fbn ≠ 0 ↔
      fbn * BSIZE < (contents files inum).length := by
  have length_le := blocksFor_le.mp (built.laid.count_le inum inArea)
  by_cases small : fbn < MAXFILE
  · rw [blockOf_eq_ref _ _ small, ← place_lt_blocksFor]
    exact ⟨built.filled_of_ref_ne_zero inArea (place_lt small), built.laid.ref_ne_zero inArea⟩
  · have absent : blockOf state.sector (state.dinode inum) fbn = 0 := by
      unfold blockOf
      simp only [MAXFILE, NDIRECT, NINDIRECT, BSIZE] at *
      rw [if_neg (by omega), if_neg (by omega)]
    refine ⟨fun present => (present absent).elim, fun inside => ?_⟩
    simp only [MAXFILE, NDIRECT, NINDIRECT, BSIZE] at *
    omega

/-- The root directory has the blocks of its rounded size unless its entries fill its blocks. -/
theorem root_allocated : (∀ fbn, fbn * BSIZE < (state.dinode ROOTINO).size →
      blockOf state.sector (state.dinode ROOTINO) fbn ≠ 0) ↔
    (files.length + 2) % (BSIZE / DIRENT) ≠ 0 := by
  simp only [built.blockOf_ne_zero rootArea, built.root_size, rootSize, length_root]
  constructor
  · intro all fills
    have := all (DIRENT * (files.length + 2) / BSIZE) (by simp only [BSIZE]; omega)
    simp only [BSIZE, DIRENT] at *
    omega
  · intro gap fbn inside
    simp only [BSIZE, DIRENT] at *
    omega

/-- The bytes of a file, and zeroes up to the end of its last block. -/
theorem byte (inArea : InArea inum) {off : Nat}
    (allocated : blockOf state.sector (state.dinode inum) (off / BSIZE) ≠ 0) :
    state.sector (blockOf state.sector (state.dinode inum) (off / BSIZE)) (off % BSIZE) =
      (contents files inum).getD off 0 := by
  have inside := (built.blockOf_ne_zero inArea).mp allocated
  have length_le := blocksFor_le.mp (built.laid.count_le inum inArea)
  have small : off / BSIZE < MAXFILE := by
    simp only [MAXFILE, NDIRECT, NINDIRECT, BSIZE] at *
    omega
  rw [blockOf_eq_ref _ _ small]
  exact built.laid.byte inum inArea off (place_lt_blocksFor.mpr inside)

theorem length_le_size (inArea : InArea inum) :
    (contents files inum).length ≤ (state.dinode inum).size ∧
      (state.dinode inum).size < 2 ^ 32 := by
  have length_le := blocksFor_le.mp (built.laid.count_le inum inArea)
  by_cases isRoot : inum = ROOTINO
  · rw [isRoot, built.root_size, rootSize]
    rw [isRoot] at length_le
    simp only [MAXFILE, NDIRECT, NINDIRECT, BSIZE] at *
    omega
  · rw [built.size inum inArea isRoot]
    simp only [MAXFILE, NDIRECT, NINDIRECT, BSIZE] at *
    omega

theorem stores (inArea : InArea inum) :
    Stores state.sector (state.dinode inum) (contents files inum) where
  length_le := (built.length_le_size inArea).1
  size_lt := (built.length_le_size inArea).2
  block_ne_zero := fun _ inside => (built.blockOf_ne_zero inArea).mpr inside
  byte := fun off inside => by
    refine built.byte inArea ((built.blockOf_ne_zero inArea).mpr ?_)
    exact Nat.lt_of_le_of_lt (Nat.div_mul_le_self off BSIZE) inside

end

theorem length_entries : (entries files).length = files.length + 2 := by
  simp [entries]

theorem inum_lt {entry : Inum × List UInt8} (member : entry ∈ entries files) :
    0 < entry.1 ∧ entry.1 < files.length + 2 := by
  simp only [entries, mem_cons, mem_mapIdx] at member
  rcases member with rfl | rfl | ⟨i, inside, rfl⟩
  · exact ⟨by decide, Nat.lt_of_lt_of_le (by decide) (Nat.le_add_left 2 _)⟩
  · exact ⟨by decide, Nat.lt_of_lt_of_le (by decide) (Nat.le_add_left 2 _)⟩
  · exact ⟨Nat.succ_pos _, Nat.add_lt_add_right inside 2⟩

variable (built : Built state files) {i : Nat}
include built

/-- The entries of the root directory. -/
theorem rootEntry_eq (inside : i < (entries files).length) : state.rootEntry i =
      ⟨(entries files)[i].1 % 65536, strncpy (entries files)[i].2 DIRSIZ⟩ := by
  have stores := built.stores rootArea
  rw [contents, if_pos rfl] at stores
  have within : DIRENT * i + DIRENT ≤ (Stores.direntsBytes (entries files)).length := by
    rw [Stores.length_direntsBytes, ← Nat.mul_succ]
    exact Nat.mul_le_mul_left _ inside
  have read := stores.read_eq within (by simp only [DIRENT, BSIZE]; omega)
  unfold rootEntry
  dsimp only
  rw [read, Stores.direntsBytes_slice inside, Stores.decode_encode]

theorem rootEntry_beyond (beyond : files.length + 2 ≤ i)
    (allocated : blockOf state.sector (state.dinode ROOTINO) (DIRENT * i / BSIZE) ≠ 0) :
    (state.rootEntry i).inum = 0 := by
  have zero : ∀ k < 2, state.sector (blockOf state.sector (state.dinode ROOTINO)
      (DIRENT * i / BSIZE)) (DIRENT * i % BSIZE + k) = 0 := by
    intro k small
    have sameBlock : DIRENT * i / BSIZE = (DIRENT * i + k) / BSIZE := by
      simp only [DIRENT, BSIZE]
      omega
    have next : DIRENT * i % BSIZE + k = (DIRENT * i + k) % BSIZE := by
      simp only [DIRENT, BSIZE]
      omega
    rw [sameBlock] at allocated ⊢
    rw [next, built.byte rootArea allocated, getD_eq_default]
    rw [length_root]
    simp only [DIRENT]
    omega
  have first := zero 0 (by omega)
  have second := zero 1 (by omega)
  rw [Nat.add_zero] at first
  unfold rootEntry Dirent.decode Block.read
  simp [range_succ, first, second]

theorem hasEntry_iff (few : files.length + 2 ≤ NINODES) :
    state.HasEntry i ↔ i < files.length + 2 := by
  constructor
  · intro has
    by_contra beyond
    exact has.used (built.rootEntry_beyond (Nat.le_of_not_lt beyond) has.allocated)
  · intro inside
    have isEntry : i < (entries files).length := length_entries ▸ inside
    have bounds := inum_lt (getElem_mem isEntry)
    refine ⟨?_, (built.blockOf_ne_zero rootArea).mpr ?_, ?_⟩
    · rw [built.root_size, rootSize, length_root]
      simp only [DIRENT, BSIZE] at *
      omega
    · rw [length_root]
      simp only [DIRENT, BSIZE] at *
      omega
    · rw [built.rootEntry_eq isEntry]
      have small : (entries files)[i].1 % 65536 = (entries files)[i].1 :=
        Nat.mod_eq_of_lt (Nat.lt_of_lt_of_le bounds.2 (Nat.le_trans few (by decide)))
      change (entries files)[i].1 % 65536 ≠ 0
      rw [small]
      exact Nat.ne_of_gt bounds.1

/-- The names are distinct if the stored names of the files are. -/
theorem names_iff (few : files.length + 2 ≤ NINODES) : (∀ i j, state.HasEntry i → state.HasEntry j →
      namecmp (state.rootEntry i).name (state.rootEntry j).name = 0 → i = j) ↔
    (storedNames files).Nodup := by
  have length : (storedNames files).length = files.length + 2 := by
    rw [storedNames, length_map, length_entries]
  have stored : ∀ i (inside : i < files.length + 2), (state.rootEntry i).name =
      (storedNames files)[i] := by
    intro i inside
    rw [built.rootEntry_eq (length_entries ▸ inside)]
    simp [storedNames]
  have same : ∀ i j (inside : i < files.length + 2) (inside' : j < files.length + 2),
      namecmp (state.rootEntry i).name (state.rootEntry j).name = 0 ↔
        (storedNames files)[i] = (storedNames files)[j] := by
    intro i j inside inside'
    rw [stored i inside, stored j inside']
    simp only [storedNames, getElem_map]
    rw [namecmp, Stores.strncmp_strncpy_eq_zero, Stores.strncpy_strncpy]
  rw [nodup_iff_injective_getElem]
  simp only [built.hasEntry_iff few]
  constructor
  · rintro distinct ⟨i, inside⟩ ⟨j, inside'⟩ equal
    rw [length] at inside inside'
    exact Fin.ext (distinct i j inside inside' ((same i j inside inside').mpr equal))
  · intro injective i j inside inside' equal
    have indices := @injective ⟨i, length ▸ inside⟩ ⟨j, length ▸ inside'⟩
      ((same i j inside inside').mp equal)
    exact Fin.mk.inj indices

/-- An image of few files is valid unless two names are stored alike or the entries of the root
directory fill its blocks. -/
theorem valid_iff (few : files.length + 2 ≤ NINODES) : state.Valid ↔
      (files.length + 2) % (BSIZE / DIRENT) ≠ 0 ∧ (storedNames files).Nodup := by
  have area : ∀ inum, inum < state.freeinode → InArea inum := by
    intro inum handedOut
    rw [built.freeinode] at handedOut
    exact Nat.lt_of_lt_of_le handedOut (Nat.le_trans few (by decide))
  constructor
  · intro valid
    refine ⟨built.root_allocated.mp ?_, (built.names_iff few).mp valid.names⟩
    refine valid.allocated ROOTINO (Nat.le_refl _) ?_
    rw [built.freeinode]
    exact Nat.lt_of_lt_of_le (by decide) (Nat.le_add_left 2 _)
  · rintro ⟨gap, distinct⟩
    refine ⟨?_, fun inum inArea r small => built.blocks inArea small,
      fun inum other inArea otherArea r small r' small' => built.once inArea otherArea small small',
      fun b _ => built.marks b, (built.names_iff few).mpr distinct, ?_⟩
    · intro inum _ handedOut
      refine ⟨?_, (iblock_bounds (area inum handedOut)).2⟩
      rw [built.freeinode] at handedOut
      exact Nat.lt_of_lt_of_le handedOut few
    · intro inum _ handedOut fbn inside
      obtain rfl | isRoot := eq_or_ne inum ROOTINO
      · exact built.root_allocated.mpr gap fbn inside
      · rw [built.size inum (area inum handedOut) isRoot] at inside
        exact (built.blockOf_ne_zero (area inum handedOut)).mpr inside

end Built

/-! ## The inodes handed out -/

section Freeinode

variable {state : State} {inum : Inum}

theorem winode_freeinode (ip : Dinode) :
    Ends (fun after => after.freeinode = state.freeinode) True (state.winode inum ip) := by
  unfold winode rsect
  split_ifs
  · rfl
  · trivial

theorem addrBlock_freeinode (din : Dinode) (i : Nat) :
    (state.addrBlock din i).2.freeinode = state.freeinode := by
  unfold addrBlock
  split_ifs <;> rfl

theorem entryBlock_freeinode (addr j : Nat) :
    Ends (fun result => result.2.freeinode = state.freeinode) True (state.entryBlock addr j) := by
  unfold entryBlock rsect
  split_ifs with inside
  · dsimp only [bind, Except.bind]
    split_ifs <;> rfl
  · trivial

theorem blockFor_freeinode (din : Dinode) (fbn : Nat) :
    Ends (fun result => result.2.2.freeinode = state.freeinode) True (state.blockFor din fbn) := by
  unfold blockFor
  split_ifs
  · exact addrBlock_freeinode din fbn
  · have taken : (state.addrBlock din NDIRECT).2.freeinode = _ := addrBlock_freeinode din NDIRECT
    refine (entryBlock_freeinode _ _).bind id fun result same => ?_
    exact same.trans taken

theorem iappendLoop_freeinode (turns : Nat) (p : List UInt8) (off : Nat) (din : Dinode) :
    Ends (fun result => result.2.2.freeinode = state.freeinode) True
      (iappendLoop turns p off din state) := by
  induction turns generalizing p off din state with
  | zero => rfl
  | succ turns ih =>
    rw [iappendLoop]
    dsimp only
    split_ifs
    · rfl
    · refine (blockFor_freeinode din _).bind id ?_
      rintro ⟨x, din, middle⟩ same
      dsimp only [rsect]
      split_ifs
      · exact (ih _ _ _).mono (fun _ sameToo => sameToo.trans same) id
      · trivial
    · trivial

theorem iappend_freeinode (p : List UInt8) :
    Ends (fun after => after.freeinode = state.freeinode) True (state.iappend inum p) := by
  unfold iappend rinode rsect
  split_ifs
  · refine (iappendLoop_freeinode _ _ _ _).bind id fun ⟨off, din, middle⟩ same => ?_
    exact (winode_freeinode _).mono (fun _ sameToo => sameToo.trans same) id
  · trivial

theorem ialloc_freeinode (type : FileType) :
    Ends (fun result => result.2.freeinode = state.freeinode + 1) True (state.ialloc type) :=
  (winode_freeinode _).bind id fun _ same => same

theorem addFile_freeinode (file : InputFile) :
    Ends (fun after => after.freeinode = state.freeinode + 1) True
      (state.addFile ROOTINO file) := by
  have appended : ∀ (chunks : List Chunk) (inum : Inum) (state : State),
      Ends (fun after => after.freeinode = state.freeinode) True
        (chunks.foldlM (fun state chunk => state.iappend inum chunk.bytes) state) := by
    intro chunks inum
    induction chunks with
    | nil => exact fun _ => rfl
    | cons chunk chunks ih =>
      intro state
      rw [foldlM_cons]
      refine (iappend_freeinode chunk.bytes).bind id fun middle same => ?_
      exact (ih middle).mono (fun _ sameToo => sameToo.trans same) id
  unfold addFile
  split_ifs
  · trivial
  · split
    · trivial
    · refine (ialloc_freeinode .file).bind id fun ⟨inum, first⟩ next => ?_
      refine (iappend_freeinode _).bind id fun second same => ?_
      exact (appended _ _ _).mono (fun _ sameToo => (sameToo.trans same).trans next) id

theorem foldlM_addFile_freeinode (files : List InputFile) :
    Ends (fun after => after.freeinode = state.freeinode + files.length) True
      (files.foldlM (addFile ROOTINO) state) := by
  induction files generalizing state with
  | nil => rfl
  | cons file files ih =>
    rw [foldlM_cons]
    refine (addFile_freeinode file).bind id fun middle next => ih.mono (fun _ count => ?_) id
    rw [count, next, length_cons]
    omega

theorem finish_freeinode :
    Ends (fun after => after.freeinode = state.freeinode) True (state.finish inum) := by
  unfold finish rinode rsect
  split_ifs
  · refine (winode_freeinode _).bind id fun middle same => ?_
    unfold balloc
    split_ifs
    · exact same
    · trivial
  · trivial

theorem populate_freeinode (files : List InputFile) (one : state.freeinode = ROOTINO) :
    Ends (fun after => after.freeinode = files.length + 2) True (state.populate files) := by
  refine (ialloc_freeinode .dir).bind id fun ⟨rootino, first⟩ next => ?_
  rw [one] at next
  dsimp only
  split_ifs with isRoot
  · refine (iappend_freeinode _).bind id fun second same => ?_
    refine (iappend_freeinode _).bind id fun third same' => ?_
    subst isRoot
    refine (foldlM_addFile_freeinode files).bind id fun last count => ?_
    refine finish_freeinode.mono (fun after same'' => ?_) id
    have two : first.freeinode = 2 := next
    omega
  · trivial

theorem freeinode_of_populate {files : List InputFile} {blank : State}
    (one : blank.freeinode = ROOTINO) (accepted : blank.populate files = .ok state) :
    state.freeinode = files.length + 2 :=
  (populate_freeinode files one).of_ok accepted

end Freeinode

/-- An image that `mkfs` accepts is a valid file system if and only if there are inodes for all
files, the entries of the root directory do not fill its blocks, and no two names are stored
alike. -/
theorem image_valid_iff {files : List InputFile} {state : State}
    (accepted : main files = .ok state) :
    state.Valid ↔ files.length + 2 ≤ NINODES ∧ (files.length + 2) % (BSIZE / DIRENT) ≠ 0 ∧
      (storedNames files).Nodup := by
  have handedOut := freeinode_of_populate blank_freeinode accepted
  have built : files.length + 2 ≤ NINODES → Built state files := fun few =>
    built_of_populate rests_blank blank_freeinode (Nat.le_trans few (by decide)) accepted
  constructor
  · intro valid
    have last := (valid.inodes (files.length + 1) (Nat.le_add_left 1 _) (by omega)).1
    have few : files.length + 2 ≤ NINODES := last
    exact ⟨few, ((built few).valid_iff few).mp valid⟩
  · rintro ⟨few, conditions⟩
    exact ((built few).valid_iff few).mpr conditions

/-- A file of one byte. -/
def oneByte (arg : List UInt8) (arg_ne_zero : 0 ∉ arg) : InputFile where
  arg := arg
  reads := some [⟨[0x61], by decide, by decide⟩]
  arg_ne_zero := arg_ne_zero

/-- A read of equal bytes. -/
def Chunk.fill (byte : UInt8) (count : Nat) (pos : count ≠ 0) (le : count ≤ BSIZE) : Chunk :=
  ⟨List.replicate count byte, by simpa using pos, by simpa using le⟩

/-- `mkfs fs.img README user/_cat`, with a file of a block and a half. -/
def twoFiles : List InputFile :=
  [{ arg := [0x52, 0x45, 0x41, 0x44, 0x4d, 0x45]
     reads := some [.fill 0x61 1024 (by decide) (by decide), .fill 0x62 512 (by decide) (by decide)]
     arg_ne_zero := by decide },
   oneByte [0x75, 0x73, 0x65, 0x72, 0x2f, 0x5f, 0x63, 0x61, 0x74] (by decide)]

theorem image_valid_iff_twoFiles : ∃ state, main twoFiles = .ok state ∧ state.Valid := by
  obtain ⟨state, accepted, built⟩ : Returns (Built · twoFiles) (main twoFiles) :=
    main_returns (by decide) (by simp [twoFiles, InputFile.Readable]; decide)
      (not_overrun (by decide) (by decide +kernel) (by decide +kernel))
  exact ⟨state, accepted, (image_valid_iff accepted).mpr ⟨by decide, by decide, by decide⟩⟩

/-- `mkfs fs.img cat _cat`. -/
def twoCats : List InputFile :=
  [oneByte [0x63, 0x61, 0x74] (by decide), oneByte [0x5f, 0x63, 0x61, 0x74] (by decide)]

/-- `mkfs` accepts two files of the same name, and the root directory then has two entries of that
name. -/
theorem image_with_two_cats : ∃ state, main twoCats = .ok state ∧ ¬ state.Valid := by
  obtain ⟨state, accepted, built⟩ : Returns (Built · twoCats) (main twoCats) :=
    main_returns (by decide) (by simp [twoCats, InputFile.Readable]; decide)
      (not_overrun (by decide) (by decide) (by decide))
  refine ⟨state, accepted, fun valid => ?_⟩
  have distinct := ((built.valid_iff (by decide)).mp valid).2
  exact absurd distinct (by decide)

end Xv6.Mkfs
