import Xv6.Mkfs.Append

/-!
# The image that `mkfs` builds

The contents of every inode after each step of `main`: the root directory has an entry for each
file so far, in their order, and the file has the bytes that were read.  The program fails only if
a file cannot be read, its name has a slash, or there is not room.
-/

namespace Xv6.Mkfs

open Function Fs State List

/-! ## Images between two calls -/

/-- The image between two calls: inode `inum` is of type `kind inum` and has the contents
`data inum`. -/
structure Rests (state : State) (kind : Inum → FileType) (data : Inum → List UInt8) : Prop where
  length : state.length = FSSIZE
  free_le : state.freeblock ≤ FSSIZE
  laid : Laid state.dinode state.sector state.freeblock (counts data) data
  size : ∀ inum, InArea inum → (state.dinode inum).size = (data inum).length
  type : ∀ inum, InArea inum → (state.dinode inum).type = kind inum ∧
    (kind inum ≠ .free → (state.dinode inum).nlink = 1)
  rest : ∀ inum, InArea inum → ∀ i, NDIRECT < i → (state.dinode inum).addrs i = 0
  super : state.sector 1 = sb.encode
  log : state.sector sb.logstart = zeroes

namespace Rests

variable {state : State} {kind : Inum → FileType} {data : Inum → List UInt8} {inum : Inum}

theorem length_lt {dinode : Inum → Dinode} {block : Nat → Block} {freeblock : Nat}
    (laid : Laid dinode block freeblock (counts data) data) (inArea : InArea inum) :
    (data inum).length < 2 ^ 32 := by
  have le := blocksFor_le.mp (laid.count_le inum inArea)
  simp only [MAXFILE, NDIRECT, NINDIRECT, BSIZE] at le
  omega

variable (rests : Rests state kind data)
include rests

/-- Inode `inum` is stored after its blocks have been written. -/
theorem store {after : State} {data' : Inum → List UInt8} {ip : Dinode} (inArea : InArea inum)
    (same : Same state after)
    (laid : Laid (update state.dinode inum ip) after.sector after.freeblock (counts data') data')
    (free_le : after.freeblock ≤ FSSIZE) (others : ∀ other, other ≠ inum → data' other = data other)
    (rest : ∀ i, NDIRECT < i → ip.addrs i = 0) (size : ip.size = (data' inum).length)
    (linked : ip.type ≠ .free → ip.nlink = 1) :
    Rests (after.setInode inum ip) (update kind inum ip.type) data' := by
  have fits : ip.Fits := by
    have := laid.fits free_le inArea (by rwa [update_self]) (length_lt laid inArea)
    rwa [update_self, ← size] at this
  have dinode : ∀ other, InArea other → after.dinode other = state.dinode other := by
    intro other otherArea
    unfold dinode
    rw [same.sector _ (Nat.lt_trans (iblock_bounds otherArea).2 (by decide))]
  have isDinode : (after.setInode inum ip).dinode = _ := setInode_dinode inArea fits
  have length := same.length.trans rests.length
  refine ⟨wsect_length length (iblock_lt inArea), free_le, ?_, ?_, ?_, ?_, ?_, ?_⟩
  · refine laid.of_eq (fun other otherArea => ?_) fun b data => ?_
    · rw [isDinode]
      by_cases isInum : other = inum
      · rw [isInum, update_self, update_self]
      · rw [update_of_ne isInum, update_of_ne isInum, dinode other otherArea]
    · exact setInode_sector inArea (Or.inr (Nat.le_trans (by decide) data))
  · intro other otherArea
    rw [isDinode]
    by_cases isInum : other = inum
    · rw [isInum, update_self, size]
    · rw [update_of_ne isInum, dinode other otherArea, others other isInum]
      exact rests.size other otherArea
  · intro other otherArea
    rw [isDinode]
    by_cases isInum : other = inum
    · rw [isInum, update_self, update_self]
      exact ⟨rfl, linked⟩
    · rw [update_of_ne isInum, update_of_ne isInum, dinode other otherArea]
      exact rests.type other otherArea
  · intro other otherArea
    rw [isDinode]
    by_cases isInum : other = inum
    · rwa [isInum, update_self]
    · rw [update_of_ne isInum, dinode other otherArea]
      exact rests.rest other otherArea
  · rw [setInode_sector inArea (Or.inl (by decide)), same.sector _ (by decide)]
    exact rests.super
  · rw [setInode_sector inArea (Or.inl (by decide)), same.sector _ (by decide)]
    exact rests.log

theorem iappend_ends (inArea : InArea inum) (p : List UInt8) :
    Ends (fun after => Rests after kind (extend data inum p) ∧ after.freeinode = state.freeinode)
      (Overrun (extend data inum p)) (state.iappend inum p) := by
  have start : Looping state.dinode inum (state.dinode inum) state data
      ((state.dinode inum).size, state.dinode inum, state) := by
    refine ⟨rests.size inum inArea, ?_, .refl _, rfl, rests.rest inum inArea, rests.free_le⟩
    rw [update_eq_self]
    exact rests.laid
  have loop := iappendLoop_ends inArea rests.length start (Nat.le_refl p.length)
  rw [iappend, rinode_eq rests.length inArea]
  refine loop.bind id fun ⟨off, din, after⟩ looping => ?_
  have isOff : off = (extend data inum p inum).length := looping.off
  have isDin : din = { state.dinode inum with addrs := din.addrs } := looping.kind
  have isKind : din.type = kind inum ∧ (kind inum ≠ .free → din.nlink = 1) := by
    rw [isDin]
    exact rests.type inum inArea
  have length : after.length = FSSIZE := looping.same.length.trans rests.length
  have laid : Laid (update state.dinode inum { din with size := off }) after.sector
      after.freeblock (counts (extend data inum p)) (extend data inum p) := by
    refine looping.laid.of_eq (fun other otherArea => ?_) fun _ _ => rfl
    by_cases isInum : other = inum
    · rw [isInum, update_self, update_self]
    · rw [update_of_ne isInum, update_of_ne isInum]
  have stored := rests.store inArea looping.same laid looping.free_le
    (fun other ne => extend_of_ne _ _ _ ne) looping.rest isOff (isKind.1 ▸ isKind.2)
  have sameKinds : update kind inum din.type = kind := by
    rw [isKind.1, update_eq_self]
  dsimp only
  rw [winode_eq length inArea]
  exact ⟨sameKinds ▸ stored, looping.same.freeinode⟩

theorem ialloc_returns (inArea : InArea state.freeinode) (new : data state.freeinode = [])
    (type : FileType) :
    Returns (fun result => result.1 = state.freeinode ∧
        Rests result.2 (update kind state.freeinode type) data ∧
        result.2.freeinode = state.freeinode + 1)
      (state.ialloc type) := by
  have taken : Rests state.takeInode kind data := { rests with }
  have noBlocks : (state.dinode state.freeinode).addrs = fun _ => 0 := by
    funext i
    rcases Nat.lt_or_ge NDIRECT i with beyond | isAddr
    · exact rests.rest _ inArea i beyond
    · refine rests.laid.addrs_eq_zero inArea isAddr ?_
      rw [counts, new]
      exact Nat.zero_le i
  have laid : Laid (update state.takeInode.dinode state.freeinode { type, nlink := 1 })
      state.takeInode.sector state.takeInode.freeblock (counts data) data := by
    refine rests.laid.of_eq (fun other otherArea => ?_) fun _ _ => rfl
    by_cases isNew : other = state.freeinode
    · rw [isNew, update_self, noBlocks]
    · rw [update_of_ne isNew]
      rfl
  have stored := taken.store inArea (.refl _) laid rests.free_le (fun _ _ => rfl) (fun _ _ => rfl)
    (by rw [new]; rfl) (fun _ => rfl)
  refine ⟨(state.freeinode, state.takeInode.setInode state.freeinode { type, nlink := 1 }), ?_, rfl,
    stored, rfl⟩
  simp only [ialloc, winode_eq taken.length inArea, bind, Except.bind]

end Rests

/-! ## The files -/

namespace InputFile

/-- The contents of the file. -/
def bytes (file : InputFile) : List UInt8 := (file.reads.getD []).flatMap Chunk.bytes

/-- The program accepts the name and can open the file. -/
def Readable (file : InputFile) : Prop := slash ∉ file.shortname ∧ file.reads.isSome

end InputFile

/-- The entries of the root directory. -/
def entries (files : List InputFile) : List (Inum × List UInt8) :=
  (ROOTINO, dot) :: (ROOTINO, dotdot) :: files.mapIdx fun k file => (k + 2, file.name)

/-- What the inodes contain. -/
def contents (files : List InputFile) (inum : Inum) : List UInt8 :=
  if inum = ROOTINO then Stores.direntsBytes (entries files)
  else if 2 ≤ inum then (files[inum - 2]?).elim [] InputFile.bytes
  else []

/-- The types of the inodes. -/
def kinds (files : List InputFile) (inum : Inum) : FileType :=
  if inum = ROOTINO then .dir
  else if 2 ≤ inum ∧ inum < files.length + 2 then .file
  else .free

theorem rootino_ne (n : Nat) : ROOTINO ≠ n + 2 := by
  simp only [ROOTINO]
  omega

theorem getElem?_concat_of_ne {α : Type} (list : List α) (last : α) {i : Nat}
    (ne : i ≠ list.length) : (list ++ [last])[i]? = list[i]? := by
  rcases Nat.lt_or_gt_of_ne ne with inside | beyond
  · exact getElem?_append_left inside
  · rw [getElem?_eq_none (Nat.le_of_lt beyond), getElem?_eq_none]
    rw [length_append]
    exact beyond

theorem contents_concat (files : List InputFile) (file : InputFile) : contents (files ++ [file]) =
      extend (extend (contents files) ROOTINO (Dirent.encode (files.length + 2) file.name))
        (files.length + 2) file.bytes := by
  funext inum
  obtain rfl | isRoot := eq_or_ne inum ROOTINO
  · rw [extend_of_ne _ _ _ (rootino_ne _), extend_self, contents, if_pos rfl, contents, if_pos rfl]
    simp [entries, Stores.direntsBytes]
  · obtain rfl | isNew := eq_or_ne inum (files.length + 2)
    · have beyond : contents files (files.length + 2) = [] := by
        simp [contents, ROOTINO]
      rw [extend_self, extend_of_ne _ _ _ isRoot, beyond]
      simp [contents, ROOTINO]
    · rw [extend_of_ne _ _ _ isNew, extend_of_ne _ _ _ isRoot, contents, contents, if_neg isRoot,
        if_neg isRoot]
      split_ifs with isFile
      · rw [getElem?_concat_of_ne]
        exact fun equal => isNew (by rw [← equal, Nat.sub_add_cancel isFile])
      · rfl

theorem kinds_concat (files : List InputFile) (file : InputFile) :
    kinds (files ++ [file]) = update (kinds files) (files.length + 2) .file := by
  funext inum
  rw [update_apply, kinds, kinds, length_append]
  by_cases isRoot : inum = ROOTINO
  · rw [if_pos isRoot, if_pos isRoot, if_neg]
    exact fun isNew => rootino_ne _ (isRoot.symm.trans isNew)
  · rw [if_neg isRoot, if_neg isRoot]
    by_cases isNew : inum = files.length + 2
    · rw [if_pos isNew, if_pos]
      subst isNew
      exact ⟨Nat.le_add_left .., by simp⟩
    · rw [if_neg isNew]
      refine if_congr (and_congr_right fun _ => ?_) rfl rfl
      exact ⟨fun less => Nat.lt_of_le_of_ne (Nat.lt_succ_iff.mp less) isNew,
        fun less => Nat.lt_succ_of_lt less⟩

theorem contents_nil : contents [] =
    extend (extend (fun _ => []) ROOTINO (Dirent.encode ROOTINO dot)) ROOTINO
      (Dirent.encode ROOTINO dotdot) := by
  funext inum
  obtain rfl | isRoot := eq_or_ne inum ROOTINO
  · rw [extend_self, extend_self, contents, if_pos rfl]
    rfl
  · rw [extend_of_ne _ _ _ isRoot, extend_of_ne _ _ _ isRoot, contents, if_neg isRoot]
    split_ifs <;> rfl

theorem kinds_nil : kinds [] = update (fun _ => .free) ROOTINO .dir := by
  funext inum
  by_cases isRoot : inum = ROOTINO
  · rw [isRoot, update_self, kinds, if_pos rfl]
  · rw [update_of_ne isRoot, kinds, if_neg isRoot, if_neg]
    rintro ⟨large, small⟩
    exact absurd small (Nat.not_lt.mpr large)

theorem length_contents_le (files more : List InputFile) (inum : Inum) :
    (contents files inum).length ≤ (contents (files ++ more) inum).length := by
  induction more using reverseRecOn with
  | nil => rw [append_nil]
  | append_singleton more file ih =>
    rw [← append_assoc, contents_concat]
    exact Nat.le_trans ih (Nat.le_trans (length_le_extend _ _ _ _) (length_le_extend _ _ _ _))

theorem rootArea : InArea ROOTINO := (by decide : ROOTINO < ninodeblocks * IPB)

/-! ## The loop over the files -/

section Files

variable {state : State} {files : List InputFile}

/-- The image when the files `files` have been added. -/
structure Holds (state : State) (files : List InputFile) : Prop where
  rests : Rests state (kinds files) (contents files)
  freeinode : state.freeinode = files.length + 2

theorem foldlM_iappend_ends {kind : Inum → FileType} {data : Inum → List UInt8} {inum : Inum}
    (inArea : InArea inum) (rests : Rests state kind data) (chunks : List Chunk) :
    Ends (fun after => Rests after kind (extend data inum (chunks.flatMap Chunk.bytes)) ∧
        after.freeinode = state.freeinode)
      (Overrun (extend data inum (chunks.flatMap Chunk.bytes)))
      (chunks.foldlM (fun state chunk => state.iappend inum chunk.bytes) state) := by
  induction chunks generalizing state data with
  | nil => exact ⟨by simpa using rests, rfl⟩
  | cons chunk chunks ih =>
    rw [foldlM_cons, flatMap_cons, ← extend_extend]
    refine (rests.iappend_ends inArea chunk.bytes).bind
      (fun overrun => overrun.mono (length_le_extend _ _ _)) fun after ⟨rests, freeinode⟩ => ?_
    rw [← freeinode]
    exact ih rests

theorem addFile_ends {file : InputFile} (holds : Holds state files)
    (room : files.length + 2 < ninodeblocks * IPB) :
    Ends (Holds · (files ++ [file])) (Overrun (contents (files ++ [file])) ∨ ¬ file.Readable)
      (state.addFile ROOTINO file) := by
  unfold addFile
  by_cases hasSlash : slash ∈ file.shortname
  · rw [if_pos hasSlash]
    exact .inr fun readable => readable.1 hasSlash
  · rw [if_neg hasSlash]
    split
    next closed =>
      refine .inr fun readable => ?_
      have := readable.2
      rw [closed] at this
      cases this
    next chunks opened =>
      have isBytes : chunks.flatMap Chunk.bytes = file.bytes := by
        rw [InputFile.bytes, opened]
        rfl
      have inArea : InArea state.freeinode := holds.freeinode ▸ room
      have new : contents files state.freeinode = [] := by
        rw [holds.freeinode]
        simp [contents, ROOTINO]
      obtain ⟨⟨inum, first⟩, done, rfl, rests, freeinode⟩ :=
        holds.rests.ialloc_returns inArea new .file
      rw [holds.freeinode] at *
      have isKinds := kinds_concat files file
      have isContents := contents_concat files file
      have rests : Rests first (kinds (files ++ [file])) (contents files) := isKinds ▸ rests
      rw [done]
      refine (rests.iappend_ends rootArea (Dirent.encode (files.length + 2) file.name)).bind ?_ ?_
      · rw [isContents]
        exact fun overrun => Or.inl (overrun.mono (length_le_extend _ _ _))
      · rintro second ⟨rests, sameFree⟩
        refine (foldlM_iappend_ends inArea rests chunks).mono ?_ ?_
        · rintro last ⟨rests, sameFree'⟩
          rw [isBytes, ← isContents] at rests
          refine ⟨rests, ?_⟩
          rw [sameFree', sameFree, length_append]
          exact freeinode
        · rw [isBytes, ← isContents]
          exact .inl

theorem foldlM_addFile_ends {more : List InputFile} (holds : Holds state files)
    (room : (files ++ more).length + 2 ≤ ninodeblocks * IPB) :
    Ends (Holds · (files ++ more))
      (Overrun (contents (files ++ more)) ∨ ∃ file ∈ more, ¬ file.Readable)
      (more.foldlM (addFile ROOTINO) state) := by
  induction more generalizing state files with
  | nil =>
    rw [append_nil]
    exact holds
  | cons file more ih =>
    have split : files ++ file :: more = (files ++ [file]) ++ more := by simp
    rw [split] at room ⊢
    have roomForFile : files.length + 2 < ninodeblocks * IPB := by
      simp only [length_append, length_cons, length_nil] at room
      omega
    rw [foldlM_cons]
    refine (addFile_ends holds roomForFile).bind ?_ fun after holds => ?_
    · rintro (overrun | unreadable)
      · exact .inl (overrun.mono (length_contents_le _ _))
      · exact .inr ⟨file, mem_cons_self, unreadable⟩
    · refine (ih holds room).mono (fun _ holds => holds) ?_
      rintro (overrun | ⟨other, member, unreadable⟩)
      · exact .inl overrun
      · exact .inr ⟨other, mem_cons_of_mem _ member, unreadable⟩

end Files

/-! ## The whole program -/

theorem foldl_wsect_zeroes {n : Nat} (le : n ≤ FSSIZE) (freeinode freeblock : Nat) :
    (range n).foldl (fun state i => wsect state i zeroes)
      ⟨0, fun _ => zeroes, freeinode, freeblock⟩ = ⟨n, fun _ => zeroes, freeinode, freeblock⟩ := by
  induction n with
  | zero => rfl
  | succ n ih =>
    rw [range_succ, foldl_append, ih (Nat.le_of_succ_le le), foldl_cons,
      foldl_nil, wsect, position_eq (Nat.le_of_succ_le le)]
    simp

theorem blank_eq : blank =
    wsect ⟨FSSIZE, fun _ => zeroes, 1, nmeta⟩ 1 sb.encode := by
  rw [blank, foldl_wsect_zeroes (Nat.le_refl _)]

theorem blank_sector {b : Nat} (ne : b ≠ 1) : blank.sector b = zeroes := by
  rw [blank_eq, wsect_sector (by decide)]
  exact update_of_ne ne ..

theorem load_zeroes (slot : Nat) : Dinode.load zeroes slot = {} := by
  have addrs : (fun i => if i ≤ NDIRECT then zeroes.word (16 * slot + 3 + i) else 0) =
      fun _ => 0 := by
    funext i
    split_ifs <;> rfl
  rw [Dinode.load, addrs]
  rfl

theorem blank_dinode {inum : Nat} (inArea : InArea inum) : blank.dinode inum = {} := by
  have bounds := (iblock_bounds inArea).1
  have ne : sb.iblock inum ≠ 1 := by
    have start : sb.inodestart = 32 := rfl
    omega
  rw [dinode, blank_sector ne, load_zeroes]

theorem rests_blank : Rests blank (fun _ => .free) (fun _ => []) where
  length := by
    rw [blank_eq]
    exact wsect_length rfl (by decide)
  free_le := by
    rw [blank_eq]
    decide
  laid := by
    have free : blank.freeblock = nmeta := by
      rw [blank_eq]
      rfl
    have none : counts (fun _ => []) = fun _ => 0 :=
      funext fun _ => (by decide : blocksFor 0 = 0)
    have refs : ∀ inum, InArea inum → ∀ r, ref blank.sector (blank.dinode inum) r = 0 := by
      intro inum inArea r
      rw [blank_dinode inArea]
      rcases Nat.lt_or_ge NDIRECT r with isEntry | isAddr
      · exact ref_absent isEntry rfl
      · rw [ref_addr isAddr]
    rw [none, free]
    refine ⟨Nat.le_refl _, ?_, fun _ _ => Nat.zero_le _, ?_,
      fun inum inArea r _ _ => refs inum inArea r,
      fun b large => ?_, fun _ _ _ filled => (Nat.not_lt_zero _ filled).elim⟩
    · simp [blocksUsed]
    · have noPlaces : filled (fun _ => 0) = ∅ := by
        ext ⟨inum, r⟩
        simp [mem_filled]
      rw [noPlaces, Set.Ico_self]
      exact Set.bijOn_empty _
    · refine blank_sector fun isSuper => ?_
      have : 1 < nmeta := by decide
      omega
  size := fun inum inArea => by rw [blank_dinode inArea]; rfl
  type := fun inum inArea => by simp [blank_dinode inArea]
  rest := fun inum inArea i _ => by rw [blank_dinode inArea]
  super := by
    rw [blank_eq, wsect_sector (by decide), update_self]
  log := blank_sector (by decide)

/-- The size of the root directory at the end. -/
def rootSize (files : List InputFile) : Nat := ((contents files ROOTINO).length / BSIZE + 1) * BSIZE

/-- The image when the program exits. -/
structure Built (state : State) (files : List InputFile) : Prop where
  freeinode : state.freeinode = files.length + 2
  free_le : state.freeblock ≤ FSSIZE
  laid : Laid state.dinode state.sector state.freeblock (counts (contents files)) (contents files)
  root_size : (state.dinode ROOTINO).size = rootSize files
  size : ∀ inum, InArea inum → inum ≠ ROOTINO →
    (state.dinode inum).size = (contents files inum).length
  type : ∀ inum, InArea inum → (state.dinode inum).type = kinds files inum
  root_linked : (state.dinode ROOTINO).nlink = 1
  super : state.sector 1 = sb.encode
  log : state.sector sb.logstart = zeroes
  bitmap : state.sector sb.bmapstart = State.bitmap state.freeblock

variable {files : List InputFile} {state : State}

theorem Holds.finish_returns (holds : Holds state files) :
    Returns (Built · files) (state.finish ROOTINO) := by
  have rests := holds.rests
  have length_le := blocksFor_le.mp (rests.laid.count_le ROOTINO rootArea)
  have small : rootSize files < 2 ^ 32 := by
    simp only [rootSize, MAXFILE, NDIRECT, NINDIRECT, BSIZE] at *
    omega
  have fits := rests.laid.fits rests.free_le rootArea (rests.rest ROOTINO rootArea) small
  have mapInside : sb.bmapstart < FSSIZE := by decide
  generalize isRoot : { state.dinode ROOTINO with size := rootSize files } = root at fits
  have isAddrs : root.addrs = (state.dinode ROOTINO).addrs := by rw [← isRoot]
  have isSize : root.size = rootSize files := by rw [← isRoot]
  have isType : root.type = (state.dinode ROOTINO).type := by rw [← isRoot]
  have isLinked : root.nlink = (state.dinode ROOTINO).nlink := by rw [← isRoot]
  have sector : ∀ b, b ≠ sb.bmapstart → ((state.setInode ROOTINO root).wsect sb.bmapstart
      (bitmap state.freeblock)).sector b = (state.setInode ROOTINO root).sector b := by
    intro b ne
    rw [wsect_sector mapInside]
    exact update_of_ne ne ..
  have dinode : ∀ inum, InArea inum → ((state.setInode ROOTINO root).wsect sb.bmapstart
      (bitmap state.freeblock)).dinode inum =
      update state.dinode ROOTINO root inum := by
    intro inum inArea
    rw [← setInode_dinode rootArea fits, dinode,
      sector _ (Nat.ne_of_lt (iblock_bounds inArea).2)]
    rfl
  refine ⟨(state.setInode ROOTINO root).wsect sb.bmapstart (bitmap state.freeblock), ?_,
    ⟨holds.freeinode, rests.free_le, ?_, ?_, ?_, ?_, ?_, ?_, ?_, ?_⟩⟩
  · have used : state.freeblock < BSIZE * 8 := by
      have := rests.free_le
      simp only [FSSIZE, BSIZE] at *
      omega
    have isSize : ((state.dinode ROOTINO).size / BSIZE + 1) * BSIZE = rootSize files := by
      rw [rests.size ROOTINO rootArea, rootSize]
    simp only [finish, rinode_eq rests.length rootArea, bind, Except.bind, isSize,
      isRoot, winode_eq rests.length rootArea]
    exact if_pos used
  · refine rests.laid.of_eq (fun inum inArea => ?_) fun b large => ?_
    · rw [dinode inum inArea]
      by_cases same : inum = ROOTINO
      · rw [same, update_self, isAddrs]
      · rw [update_of_ne same]
    · have beyond : sb.bmapstart < b := Nat.lt_of_lt_of_le (by decide) large
      rw [sector b (Nat.ne_of_gt beyond)]
      exact setInode_sector rootArea (Or.inr (Nat.le_of_lt beyond))
  · rw [dinode ROOTINO rootArea, update_self, isSize]
  · intro inum inArea ne
    rw [dinode inum inArea, update_of_ne ne]
    exact rests.size inum inArea
  · intro inum inArea
    rw [dinode inum inArea]
    by_cases same : inum = ROOTINO
    · rw [same, update_self, isType]
      exact (rests.type ROOTINO rootArea).1
    · rw [update_of_ne same]
      exact (rests.type inum inArea).1
  · rw [dinode ROOTINO rootArea, update_self, isLinked]
    exact (rests.type ROOTINO rootArea).2 (by simp [kinds])
  · rw [sector 1 (by decide), setInode_sector rootArea (Or.inl (by decide))]
    exact rests.super
  · rw [sector _ (by decide), setInode_sector rootArea (Or.inl (by decide))]
    exact rests.log
  · rw [wsect_sector mapInside, update_self]
    rfl

theorem blank_freeinode : blank.freeinode = ROOTINO := by
  rw [blank_eq]
  rfl

/-- The program builds the image, unless a file is not readable or there is not room. -/
theorem populate_ends (blank : Rests state (fun _ => .free) (fun _ => []))
    (one : state.freeinode = ROOTINO) (room : files.length + 2 ≤ ninodeblocks * IPB) :
    Ends (Built · files) (Overrun (contents files) ∨ ∃ file ∈ files, ¬ file.Readable)
      (state.populate files) := by
  obtain ⟨⟨inum, first⟩, done, isRoot, rests, next⟩ :=
    blank.ialloc_returns (one ▸ rootArea) rfl .dir
  have isRoot : inum = ROOTINO := isRoot.trans one
  subst isRoot
  have rests : Rests first (kinds []) (fun _ => []) := by
    rw [kinds_nil, ← one]
    exact rests
  rw [populate, done]
  refine (rests.iappend_ends rootArea (Dirent.encode ROOTINO dot)).bind ?_
    fun second ⟨rests, sameFree⟩ => ?_
  · intro overrun
    have early : Overrun (contents []) := by
      rw [contents_nil]
      exact overrun.mono (length_le_extend _ _ _)
    exact .inl (early.mono (length_contents_le [] files))
  refine (rests.iappend_ends rootArea (Dirent.encode ROOTINO dotdot)).bind ?_
    fun third ⟨rests, sameFree'⟩ => ?_
  · rw [← contents_nil]
    exact fun overrun => Or.inl (overrun.mono (length_contents_le [] files))
  rw [← contents_nil] at rests
  have holds : Holds third [] := by
    refine ⟨rests, ?_⟩
    rw [sameFree', sameFree]
    exact next.trans (by rw [one]; rfl)
  refine (foldlM_addFile_ends holds room).bind id fun last holds => ?_
  exact .of_returns holds.finish_returns

theorem built_of_populate {blank state : State} (rests : Rests blank (fun _ => .free) (fun _ => []))
    (one : blank.freeinode = ROOTINO) (room : files.length + 2 ≤ ninodeblocks * IPB)
    (accepted : blank.populate files = .ok state) : Built state files :=
  (populate_ends rests one room).of_ok accepted

theorem populate_returns {blank : State} (rests : Rests blank (fun _ => .free) (fun _ => []))
    (one : blank.freeinode = ROOTINO) (room : files.length + 2 ≤ ninodeblocks * IPB)
    (readable : ∀ file ∈ files, file.Readable) (fits : ¬ Overrun (contents files)) :
    Returns (Built · files) (blank.populate files) := by
  refine (populate_ends rests one room).returns ?_
  rintro (overrun | ⟨file, member, unreadable⟩)
  · exact fits overrun
  · exact unreadable (readable file member)

/-- The program accepts every list of readable files that has room. -/
theorem main_returns (room : files.length + 2 ≤ ninodeblocks * IPB)
    (readable : ∀ file ∈ files, file.Readable) (fits : ¬ Overrun (contents files)) :
    Returns (Built · files) (main files) :=
  populate_returns rests_blank blank_freeinode room readable fits

/-! ## The blocks that the files need -/

/-- The number of blocks of the image: the metadata, the root directory and the files. -/
def imageBlocks (files : List InputFile) : Nat :=
  nmeta + blocksFor (DIRENT * (files.length + 2)) +
    (files.map fun file => blocksFor file.bytes.length).sum

theorem length_root (files : List InputFile) :
    (contents files ROOTINO).length = DIRENT * (files.length + 2) := by
  rw [contents, if_pos rfl, Stores.length_direntsBytes]
  simp [entries]

theorem contents_file {k : Nat} (inside : k < files.length) :
    contents files (k + 2) = files[k].bytes := by
  rw [contents, if_neg (rootino_ne k).symm, if_pos (Nat.le_add_left 2 k), Nat.add_sub_cancel,
    getElem?_eq_getElem inside]
  rfl

theorem contents_beyond (files : List InputFile) : contents files (files.length + 2) = [] := by
  rw [contents, if_neg (rootino_ne _).symm, if_pos (Nat.le_add_left 2 _), Nat.add_sub_cancel,
    getElem?_eq_none (Nat.le_refl _)]
  rfl

theorem blocksUsed_contents (room : files.length + 2 ≤ ninodeblocks * IPB) :
    blocksUsed (counts (contents files)) = imageBlocks files := by
  induction files using reverseRecOn with
  | nil => decide +kernel
  | append_singleton files file ih =>
    rw [length_append, length_singleton] at room
    have before := ih (by omega)
    have inArea : InArea (files.length + 2) := by
      change files.length + 2 < ninodeblocks * IPB
      omega
    have absent : extend (contents files) ROOTINO (Dirent.encode (files.length + 2) file.name)
        (files.length + 2) = [] := by
      rw [extend_of_ne _ _ _ (rootino_ne _).symm, contents_beyond]
    have root := blocksUsed_update rootArea (counts (contents files))
      (blocksFor (DIRENT * (files.length + 3)))
    have new := blocksUsed_update inArea
      (counts (extend (contents files) ROOTINO (Dirent.encode (files.length + 2) file.name)))
      (blocksFor file.bytes.length)
    rw [contents_concat, counts_extend, absent, length_nil, Nat.zero_add]
    have grows : DIRENT * (files.length + 2) + DIRENT = DIRENT * (files.length + 3) := by
      simp only [DIRENT]
      omega
    rw [counts_extend, length_root, Stores.length_encode, grows] at new ⊢
    have noBlocks : update (counts (contents files)) ROOTINO
        (blocksFor (DIRENT * (files.length + 3))) (files.length + 2) = 0 := by
      rw [update_of_ne (rootino_ne _).symm, counts, contents_beyond]
      rfl
    have rootBlocks : counts (contents files) ROOTINO =
        blocksFor (DIRENT * (files.length + 2)) := by
      rw [counts, length_root]
    have isImage : imageBlocks (files ++ [file]) = nmeta + blocksFor (DIRENT * (files.length + 3)) +
        ((files.map fun file => blocksFor file.bytes.length).sum +
          blocksFor file.bytes.length) := by
      simp [imageBlocks]
    rw [imageBlocks] at before
    omega

/-- Files that fit do not overrun the image. -/
theorem not_overrun (room : files.length + 2 ≤ ninodeblocks * IPB)
    (blocks : imageBlocks files ≤ FSSIZE)
    (sizes : ∀ file ∈ files, file.bytes.length ≤ MAXFILE * BSIZE) : ¬ Overrun (contents files) := by
  rintro (full | ⟨inum, inArea, large⟩)
  · rw [blocksUsed_contents room] at full
    omega
  · unfold contents at large
    split_ifs at large with isRoot isFile
    · rw [Stores.length_direntsBytes] at large
      have small : files.length + 2 ≤ 208 := room
      simp only [entries, length_cons, length_mapIdx, DIRENT, MAXFILE, NDIRECT, NINDIRECT,
        BSIZE] at large
      omega
    · cases found : files[inum - 2]? with
      | none =>
        rw [found] at large
        simp at large
      | some file =>
        rw [found] at large
        have := sizes file (mem_of_getElem? found)
        simp only [Option.elim_some] at large
        omega
    · simp at large

end Xv6.Mkfs
