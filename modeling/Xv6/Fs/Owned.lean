import Xv6.Fs.Stored

/-!
# Who owns a block

Every block that an inode refers to is marked in the free map and belongs to that one place of
that one inode.  `bmap` of `kernel/fs.c` keeps this: it fills an empty place with a block that was
free.  Writing to a data block then changes the bytes of one file and no other, and no list of
block addresses.

While an inode is locked, its copy in memory is ahead of the one on disk.  The lemmas speak of the
disk as it is once `iupdate` has written the copy back.
-/

namespace Xv6.Fs

open Function List

/-- A place in an inode that can refer to a block: a block of the file, or the list of block
addresses. -/
inductive Place where
  | data (fbn : Nat)
  | indirect
  deriving DecidableEq

theorem Block.write_eq (block : Block) (offset : Nat) (bytes : List UInt8) (j : Nat) :
    block.write offset bytes j =
      if inside : offset ≤ j ∧ j < offset + bytes.length then bytes[j - offset] else block j := by
  unfold Block.write
  split_ifs with above inside
  · rw [getElem?_eq_getElem (by omega), Option.getD_some]
  · rw [getElem?_eq_none (by omega), Option.getD_none]
  · omega
  · rfl

namespace Disk

/-- The block at a place of an inode, or 0. -/
def ref (disk : Disk) (inum : Inum) : Place → Nat
  | .data fbn => blockOf disk.block (disk.dinode inum) fbn
  | .indirect => (disk.dinode inum).addrs NDIRECT

/-- A byte of the blocks of a file, also past its size. -/
def byteAt (disk : Disk) (inum : Inum) (pos : Nat) : Option UInt8 :=
  if disk.ref inum (.data (pos / BSIZE)) = 0 then none
  else some (disk.block (disk.ref inum (.data (pos / BSIZE))) (pos % BSIZE))

/-- No block is free and in use, or in use twice. -/
structure Owned (sb : Superblock) (disk : Disk) : Prop where
  reserved : disk.used 0 = true
  marked : ∀ inum place, disk.ref inum place ≠ 0 →
    disk.used (disk.ref inum place) = true ∧ disk.ref inum place < sb.size
  unique : ∀ inum place inum' place', disk.ref inum place ≠ 0 →
    disk.ref inum place = disk.ref inum' place' → inum = inum' ∧ place = place'

variable {sb : Superblock} {disk disk' : Disk} {inum : Inum} {ip : Dinode} {place : Place} {b : Nat}
  {fbn : Nat} {i : Nat} {bn : Nat}

/-! ## Filling a place -/

/-- A block that `balloc` hands out: marked and zeroed. -/
def claim (disk : Disk) (b : Nat) : Disk :=
  { disk with
    used := Function.update disk.used b true
    block := Function.update disk.block b fun _ => 0 }

/-- A place that was empty refers to a block that was free. -/
structure Assigned (sb : Superblock) (inum : Inum) (place : Place) (b : Nat) (disk disk' : Disk) :
    Prop where
  free : disk.used b = false
  inside : b < sb.size
  empty : disk.ref inum place = 0
  used : disk'.used = Function.update disk.used b true
  ref : ∀ other here, disk'.ref other here =
    if other = inum ∧ here = place then b else disk.ref other here
  zeroed : disk'.block b = fun _ => 0
  block : ∀ c, c ≠ b → c ≠ disk.ref inum .indirect → disk'.block c = disk.block c
  dinode : ∀ other, other ≠ inum → disk'.dinode other = disk.dinode other
  fields : disk'.dinode inum = { disk.dinode inum with addrs := (disk'.dinode inum).addrs }

/-- A free block is in no place. -/
theorem Owned.ref_ne (owned : disk.Owned sb) (free : disk.used b = false) (other : Inum)
    (here : Place) : disk.ref other here ≠ b := by
  intro same
  by_cases zero : b = 0
  · rw [zero, owned.reserved] at free
    cases free
  · have marked := (owned.marked other here (same ▸ zero)).1
    rw [same, free] at marked
    cases marked

theorem Assigned.owned (owned : disk.Owned sb) (assigned : Assigned sb inum place b disk disk') :
    disk'.Owned sb where
  reserved := by
    rw [assigned.used]
    by_cases zero : b = 0
    · rw [zero, update_self]
    · rw [update_of_ne (Ne.symm zero), owned.reserved]
  marked := by
    intro other here
    rw [assigned.ref, assigned.used]
    split_ifs with same
    · intro _
      exact ⟨update_self .., assigned.inside⟩
    · intro assignedBefore
      have marked := owned.marked other here assignedBefore
      rwa [update_of_ne (owned.ref_ne assigned.free other here)]
  unique := by
    intro first here second there
    rw [assigned.ref, assigned.ref]
    split_ifs with same same'
    · intro _ _
      exact ⟨same.1.trans same'.1.symm, same.2.trans same'.2.symm⟩
    · intro _ equal
      exact (owned.ref_ne assigned.free second there equal.symm).elim
    · intro _ equal
      exact (owned.ref_ne assigned.free first here equal).elim
    · exact owned.unique first here second there

theorem Owned.ne_zero_of_free (owned : disk.Owned sb) (free : disk.used b = false) : b ≠ 0 := by
  rintro rfl
  rw [owned.reserved] at free
  cases free

/-- A data block is not a list of block addresses. -/
theorem Owned.data_ne_indirect (owned : disk.Owned sb) {other : Inum}
    (assigned : disk.ref other (.data fbn) ≠ 0) :
    disk.ref other (.data fbn) ≠ disk.ref inum .indirect := by
  intro same
  cases (owned.unique _ _ _ _ assigned same).2

/-- The new block reads as zeroes, and all others as before. -/
theorem Assigned.byteAt (owned : disk.Owned sb) (assigned : Assigned sb inum place b disk disk')
    (other : Inum) (pos : Nat) : disk'.byteAt other pos =
      if other = inum ∧ .data (pos / BSIZE) = place then some 0 else disk.byteAt other pos := by
  unfold Disk.byteAt
  rw [assigned.ref]
  split_ifs with same zero zero
  · exact (owned.ne_zero_of_free assigned.free zero).elim
  · rw [assigned.zeroed]
  · rfl
  · rw [assigned.block _ (owned.ref_ne assigned.free other _) (owned.data_ne_indirect zero)]

/-! ## Changing the bytes of one file -/

/-- Bytes of one file have been written, and all others are as before; of the inode only the block
addresses have changed. -/
structure Rewrites (inum : Inum) (off : Nat) (bytes : List UInt8) (disk disk' : Disk) : Prop where
  dinode : ∀ other, other ≠ inum → disk'.dinode other = disk.dinode other
  fields : disk'.dinode inum = { disk.dinode inum with addrs := (disk'.dinode inum).addrs }
  others : ∀ other, other ≠ inum → ∀ pos, disk'.byteAt other pos = disk.byteAt other pos
  inside : ∀ i (before : i < bytes.length), disk'.byteAt inum (off + i) = some bytes[i]
  outside : ∀ pos byte, ¬ (off ≤ pos ∧ pos < off + bytes.length) →
    disk.byteAt inum pos = some byte → disk'.byteAt inum pos = some byte

theorem Rewrites.refl (inum : Inum) (off : Nat) (disk : Disk) : Rewrites inum off [] disk disk :=
  ⟨fun _ _ => rfl, rfl, fun _ _ _ => rfl, fun _ before => absurd before (by simp), fun _ _ _ => id⟩

theorem Rewrites.trans {off : Nat} {bytes more : List UInt8} {last : Disk}
    (first : Rewrites inum off bytes disk disk')
    (second : Rewrites inum (off + bytes.length) more disk' last) :
    Rewrites inum off (bytes ++ more) disk last where
  dinode := fun other ne =>
    (second.dinode other ne).trans (first.dinode other ne)
  fields := by rw [second.fields, first.fields]
  others := fun other ne pos =>
    (second.others other ne pos).trans (first.others other ne pos)
  inside := by
    intro i before
    rw [length_append] at before
    by_cases early : i < bytes.length
    · rw [getElem_append_left early]
      exact second.outside _ _ (by omega) (first.inside i early)
    · have late := second.inside (i - bytes.length) (by omega)
      rw [getElem_append_right (by omega), ← late]
      congr 1
      omega
  outside := by
    intro pos byte away held
    rw [length_append] at away
    exact second.outside pos byte (by omega) (first.outside pos byte (by omega) held)

section

variable (owned : disk.Owned sb)
include owned

theorem Assigned.rewrites (assigned : Assigned sb inum place b disk disk') (off : Nat) :
    Rewrites inum off [] disk disk' where
  dinode := assigned.dinode
  fields := assigned.fields
  others := by
    intro other ne pos
    rw [assigned.byteAt owned, if_neg fun both => ne both.1]
  inside := fun _ before => absurd before (by simp)
  outside := by
    intro pos byte _ held
    have taken : disk.ref inum (.data (pos / BSIZE)) ≠ 0 := by
      intro zero
      rw [Disk.byteAt, if_pos zero] at held
      cases held
    rw [assigned.byteAt owned, if_neg, held]
    rintro ⟨-, rfl⟩
    exact taken assigned.empty

/-- The places do not depend on the bytes of a data block. -/
theorem Owned.ref_setBlock (assigned : disk.ref inum (.data fbn) ≠ 0) (contents : Block)
    (other : Inum) (here : Place) :
    (disk.setBlock (disk.ref inum (.data fbn)) contents).ref other here = disk.ref other here := by
  cases here with
  | indirect => rfl
  | data n =>
    have ne : (disk.dinode other).addrs NDIRECT ≠ disk.ref inum (.data fbn) :=
      (owned.data_ne_indirect assigned).symm
    change blockOf (update disk.block _ contents) (disk.dinode other) n =
      blockOf disk.block (disk.dinode other) n
    unfold blockOf
    rw [update_of_ne ne]

/-- Ownership is about the free map and the places only. -/
theorem Owned.congr (used : disk'.used = disk.used)
    (same : ∀ other here, disk'.ref other here = disk.ref other here) : disk'.Owned sb where
  reserved := by rw [used, owned.reserved]
  marked := by
    simp only [used, same]
    exact owned.marked
  unique := by
    simp only [same]
    exact owned.unique

theorem Owned.setBlock (assigned : disk.ref inum (.data fbn) ≠ 0) (contents : Block) :
    (disk.setBlock (disk.ref inum (.data fbn)) contents).Owned sb :=
  owned.congr rfl (owned.ref_setBlock assigned contents)

/-- Writing to one block of a file. -/
theorem Owned.write {off : Nat} {bytes : List UInt8}
    (assigned : disk.ref inum (.data (off / BSIZE)) ≠ 0)
    (fits : off % BSIZE + bytes.length ≤ BSIZE) :
    Rewrites inum off bytes disk (disk.setBlock (disk.ref inum (.data (off / BSIZE)))
      ((disk.block (disk.ref inum (.data (off / BSIZE)))).write (off % BSIZE) bytes)) where
  dinode := fun _ _ => rfl
  fields := rfl
  others := by
    intro other ne pos
    unfold Disk.byteAt
    rw [owned.ref_setBlock assigned]
    split_ifs with zero
    · rfl
    · have away : disk.ref other (.data (pos / BSIZE)) ≠ disk.ref inum (.data (off / BSIZE)) :=
        fun same => ne (owned.unique _ _ _ _ zero same).1
      simp only [Disk.setBlock, update_of_ne away]
  inside := by
    intro i before
    have page : (off + i) / BSIZE = off / BSIZE := by
      simp only [BSIZE] at *
      omega
    have offset : (off + i) % BSIZE = off % BSIZE + i := by
      simp only [BSIZE] at *
      omega
    unfold Disk.byteAt
    rw [owned.ref_setBlock assigned, page, offset, if_neg assigned]
    simp only [Disk.setBlock, update_self]
    rw [Block.write_eq, dif_pos ⟨by omega, by omega⟩]
    simp
  outside := by
    intro pos byte away held
    unfold Disk.byteAt at held ⊢
    rw [owned.ref_setBlock assigned]
    split_ifs at held ⊢ with zero
    rw [← held]
    by_cases same : pos / BSIZE = off / BSIZE
    · rw [same]
      simp only [Disk.setBlock, update_self]
      rw [Block.write_eq, dif_neg]
      simp only [BSIZE] at *
      omega
    · have apart : disk.ref inum (.data (pos / BSIZE)) ≠ disk.ref inum (.data (off / BSIZE)) := by
        intro equal
        have place := (owned.unique _ _ _ _ zero equal).2
        exact same (Place.data.inj place)
      simp only [Disk.setBlock, update_of_ne apart]

/-! ## `bmap` -/

end

theorem ref_iupdate_data (fbn : Nat) :
    (disk.iupdate inum ip).ref inum (.data fbn) = blockOf disk.block ip fbn := by
  simp [ref, iupdate]

theorem ref_iupdate_indirect : (disk.iupdate inum ip).ref inum .indirect = ip.addrs NDIRECT := by
  simp [ref, iupdate]

theorem ref_iupdate_of_ne {other : Inum} (ne : other ≠ inum) (here : Place) :
    (disk.iupdate inum ip).ref other here = disk.ref other here := by
  cases here <;> simp [ref, iupdate, ne]

theorem balloc_cases (sb : Superblock) (disk : Disk) :
    (disk.balloc sb = (0, disk) ∧ ∀ b < sb.size, disk.used b = true) ∨
      ∃ b, b < sb.size ∧ disk.used b = false ∧ disk.balloc sb = (b, disk.claim b) := by
  unfold balloc
  cases found : (range sb.size).find? fun b => !disk.used b with
  | none =>
    refine .inl ⟨rfl, fun b inside => ?_⟩
    simpa using find?_eq_none.mp found b (mem_range.mpr inside)
  | some b =>
    have free := find?_some found
    have member := mem_of_find?_eq_some found
    exact .inr ⟨b, mem_range.mp member, by simpa using free, rfl⟩

/-- How a place is filled: it already was, there is no free block, or it gets one. -/
inductive Filled (sb : Superblock) (inum : Inum) (place : Place) (disk : Disk) : Nat → Disk → Prop
  | there (assigned : disk.ref inum place ≠ 0) :
      Filled sb inum place disk (disk.ref inum place) disk
  | full (empty : disk.ref inum place = 0) (none : ∀ b < sb.size, disk.used b = true) :
      Filled sb inum place disk 0 disk
  | fresh {b : Nat} {disk' : Disk} (assigned : Assigned sb inum place b disk disk') :
      Filled sb inum place disk b disk'

/-- The place that `addrs[i]` stands for. -/
def addrPlace (i : Nat) : Place := if i = NDIRECT then .indirect else .data i

theorem ref_addrPlace (range : i ≤ NDIRECT) :
    (disk.iupdate inum ip).ref inum (addrPlace i) = ip.addrs i := by
  unfold addrPlace
  split_ifs with last
  · rw [ref_iupdate_indirect, last]
  · rw [ref_iupdate_data, blockOf, if_pos (by omega)]

/-- The blocks of a file after `addrs[i]` has been filled with a zeroed block. -/
theorem blockOf_setAddr (range : i ≤ NDIRECT) (empty : ip.addrs i = 0)
    (apart : ip.addrs NDIRECT ≠ b) (n : Nat) :
    blockOf (disk.claim b).block (ip.setAddr i b) n =
      if .data n = addrPlace i then b else blockOf disk.block ip n := by
  obtain rfl | last := eq_or_ne i NDIRECT
  · have place : (.data n : Place) ≠ addrPlace NDIRECT := by simp [addrPlace]
    rw [if_neg place]
    unfold blockOf
    simp only [Dinode.setAddr_addrs, update_self, claim, empty, if_true, Block.word_zero,
      ite_self]
    split_ifs with direct
    · rw [update_of_ne (by omega)]
    all_goals rfl
  · have other : NDIRECT ≠ i := Ne.symm last
    have place : (.data n = addrPlace i) ↔ n = i := by simp [addrPlace, last]
    rw [if_congr place rfl rfl]
    unfold blockOf
    simp only [Dinode.setAddr_addrs, update_of_ne other, claim,
      update_of_ne apart]
    obtain rfl | here := eq_or_ne n i
    · rw [if_pos (by omega), update_self, if_pos rfl]
    · rw [update_of_ne here, if_neg here]

/-- A free block is put into `addrs[i]`. -/
theorem Owned.setAddr (owned : (disk.iupdate inum ip).Owned sb) (range : i ≤ NDIRECT)
    (empty : ip.addrs i = 0) (free : disk.used b = false) (inside : b < sb.size) :
    Assigned sb inum (addrPlace i) b (disk.iupdate inum ip)
      ((disk.claim b).iupdate inum (ip.setAddr i b)) where
  free := free
  inside := inside
  empty := (ref_addrPlace range).trans empty
  used := rfl
  ref := by
    intro other here
    have apart := owned.ref_ne free other .indirect
    obtain rfl | self := eq_or_ne other inum
    · rw [ref_iupdate_indirect] at apart
      cases here with
      | indirect =>
        rw [ref_iupdate_indirect, ref_iupdate_indirect, Dinode.setAddr_addrs]
        unfold addrPlace
        by_cases last : i = NDIRECT
        · simp [last]
        · simp [last, Ne.symm last]
      | data n =>
        rw [ref_iupdate_data, ref_iupdate_data, blockOf_setAddr range empty apart]
        simp only [true_and]
    · rw [if_neg fun both => self both.1, ref_iupdate_of_ne self, ref_iupdate_of_ne self]
      rw [ref_iupdate_of_ne self] at apart
      cases here with
      | indirect => rfl
      | data n =>
        rw [ref] at apart
        simp only [ref, blockOf, claim, update_of_ne apart]
  zeroed := update_self ..
  block := fun c ne _ => update_of_ne ne ..
  dinode := by
    intro other ne
    simp [iupdate, claim, ne]
  fields := by simp [iupdate, Dinode.setAddr]

theorem Owned.addrBlock {i addr : Nat} {ip' : Dinode} (owned : (disk.iupdate inum ip).Owned sb)
    (range : i ≤ NDIRECT) (done : addrBlock sb ip i disk = (addr, ip', disk')) :
    Filled sb inum (addrPlace i) (disk.iupdate inum ip) addr (disk'.iupdate inum ip') := by
  have place : (disk.iupdate inum ip).ref inum (addrPlace i) = ip.addrs i := ref_addrPlace range
  unfold Disk.addrBlock at done
  split_ifs at done with empty
  · obtain ⟨refused, none⟩ | ⟨b, inside, free, taken⟩ := balloc_cases sb disk
    · rw [refused] at done
      cases done
      exact .full (place.trans empty) none
    · rw [taken] at done
      dsimp only at done
      rw [if_neg (owned.ne_zero_of_free free)] at done
      cases done
      exact .fresh (owned.setAddr range empty free inside)
  · cases done
    rw [← place] at empty ⊢
    exact .there empty

/-- The blocks of a file after an entry of its list of block addresses has been filled. -/
theorem blockOf_setWord (range : i < NINDIRECT) (listed : ip.addrs NDIRECT ≠ 0) (small : b < 2 ^ 32)
    {block block' : Nat → Block}
    (list : block' (ip.addrs NDIRECT) = (block (ip.addrs NDIRECT)).setWord i b) (n : Nat) :
    blockOf block' ip n = if n = NDIRECT + i then b else blockOf block ip n := by
  unfold blockOf
  rw [list, if_neg listed]
  obtain rfl | here := eq_or_ne n (NDIRECT + i)
  · rw [if_neg (by omega), if_pos (by omega), Nat.add_sub_cancel_left, Block.word_setWord _ _ small,
      if_pos rfl]
  · rw [if_neg here]
    split_ifs with direct inside
    · rfl
    · rw [Block.word_setWord_ne _ _ (by omega)]
    · rfl

/-- A free block is put into an entry of the list of block addresses. -/
theorem Owned.setEntry (owned : (disk.iupdate inum ip).Owned sb) (range : i < NINDIRECT)
    (listed : ip.addrs NDIRECT ≠ 0) (empty : (disk.block (ip.addrs NDIRECT)).word i = 0)
    (free : disk.used b = false) (inside : b < sb.size) :
    Assigned sb inum (.data (NDIRECT + i)) b (disk.iupdate inum ip)
      (((disk.claim b).setBlock (ip.addrs NDIRECT)
        ((disk.block (ip.addrs NDIRECT)).setWord i b)).iupdate inum ip) where
  free := free
  inside := inside
  empty := by
    rw [ref_iupdate_data, blockOf, if_neg (by omega), if_pos (by omega), if_neg listed,
      Nat.add_sub_cancel_left, empty]
  used := rfl
  ref := by
    intro other here
    obtain rfl | self := eq_or_ne other inum
    · cases here with
      | indirect => rw [if_neg (by simp), ref_iupdate_indirect, ref_iupdate_indirect]
      | data n =>
        have small : b < 2 ^ 32 := by
          have := sb.size_le
          omega
        have list : ((disk.claim b).setBlock (ip.addrs NDIRECT)
            ((disk.block (ip.addrs NDIRECT)).setWord i b)).block (ip.addrs NDIRECT) =
              (disk.block (ip.addrs NDIRECT)).setWord i b := update_self ..
        rw [ref_iupdate_data, ref_iupdate_data, blockOf_setWord range listed small list]
        simp only [true_and, Place.data.injEq]
    · rw [if_neg fun both => self both.1, ref_iupdate_of_ne self, ref_iupdate_of_ne self]
      cases here with
      | indirect => rfl
      | data n =>
        have apart := owned.ref_ne free other .indirect
        rw [ref_iupdate_of_ne self] at apart
        by_cases absent : (disk.dinode other).addrs NDIRECT = 0
        · simp [ref, blockOf, Disk.setBlock, claim, absent]
        · have ne : (disk.dinode other).addrs NDIRECT ≠ ip.addrs NDIRECT := by
            intro same
            apply self
            refine (owned.unique other .indirect inum .indirect ?_ ?_).1
            · rwa [ref_iupdate_of_ne self]
            · rw [ref_iupdate_of_ne self, ref_iupdate_indirect]
              exact same
          simp only [ref, blockOf, Disk.setBlock, claim, update_of_ne ne,
            update_of_ne (show (disk.dinode other).addrs NDIRECT ≠ b from apart)]
  zeroed := by
    have apart := owned.ref_ne free inum .indirect
    rw [ref_iupdate_indirect] at apart
    simp only [iupdate, Disk.setBlock, claim, update_of_ne (Ne.symm apart),
      update_self]
  block := by
    intro c ne list
    rw [ref_iupdate_indirect] at list
    simp only [iupdate, Disk.setBlock, claim, update_of_ne list,
      update_of_ne ne]
  dinode := by
    intro other ne
    simp [iupdate, Disk.setBlock, claim, ne]
  fields := by simp [iupdate]

theorem Owned.entryBlock {i addr : Nat} (owned : (disk.iupdate inum ip).Owned sb)
    (range : i < NINDIRECT) (listed : ip.addrs NDIRECT ≠ 0)
    (done : entryBlock sb (ip.addrs NDIRECT) i disk = (addr, disk')) :
    Filled sb inum (.data (NDIRECT + i)) (disk.iupdate inum ip) addr (disk'.iupdate inum ip) := by
  have place : (disk.iupdate inum ip).ref inum (.data (NDIRECT + i)) =
      (disk.block (ip.addrs NDIRECT)).word i := by
    rw [ref_iupdate_data, blockOf, if_neg (by omega), if_pos (by omega), if_neg listed,
      Nat.add_sub_cancel_left]
  unfold Disk.entryBlock at done
  split_ifs at done with empty
  · obtain ⟨refused, none⟩ | ⟨b, inside, free, taken⟩ := balloc_cases sb disk
    · rw [refused] at done
      cases done
      exact .full (place.trans empty) none
    · rw [taken] at done
      dsimp only at done
      rw [if_neg (owned.ne_zero_of_free free)] at done
      cases done
      exact .fresh (owned.setEntry range listed empty free inside)
  · cases done
    rw [← place] at empty ⊢
    exact .there empty

/-! ## Free blocks -/

/-- The number of free blocks. -/
def free (sb : Superblock) (disk : Disk) : Nat :=
  ((Finset.range sb.size).filter fun b => disk.used b = false).card

/-- The number of blocks that a place needs: one if it is empty. -/
def lacking (disk : Disk) (inum : Inum) (place : Place) : Nat :=
  if disk.ref inum place = 0 then 1 else 0

theorem Assigned.free_succ (assigned : Assigned sb inum place b disk disk') :
    disk'.free sb + 1 = disk.free sb := by
  have member : b ∈ (Finset.range sb.size).filter fun c => disk.used c = false := by
    simp [assigned.inside, assigned.free]
  have rest : ((Finset.range sb.size).filter fun c => disk'.used c = false) =
      ((Finset.range sb.size).filter fun c => disk.used c = false).erase b := by
    ext c
    by_cases same : c = b
    · simp [same, assigned.used]
    · simp [same, assigned.used]
  rw [Disk.free, rest, Finset.card_erase_add_one member, Disk.free]

/-- What filling a place does. -/
structure FillSpec (sb : Superblock) (inum : Inum) (place : Place) (disk : Disk) (addr : Nat)
    (disk' : Disk) : Prop where
  owned : disk'.Owned sb
  rewrites : ∀ off, Rewrites inum off [] disk disk'
  others : ∀ here, here ≠ place → disk'.ref inum here = disk.ref inum here
  found : disk'.ref inum place = addr
  supply : addr ≠ 0 → disk'.free sb + disk.lacking inum place = disk.free sb
  enough : disk.lacking inum place ≤ disk.free sb → addr ≠ 0

theorem Filled.spec {addr : Nat} (owned : disk.Owned sb)
    (filled : Filled sb inum place disk addr disk') : FillSpec sb inum place disk addr disk' := by
  cases filled with
  | there assigned =>
    refine ⟨owned, fun off => .refl inum off disk, fun _ _ => rfl, rfl, ?_, fun _ => assigned⟩
    simp [lacking, assigned]
  | full empty none =>
    refine ⟨owned, fun off => .refl inum off disk, fun _ _ => rfl, empty, by simp, ?_⟩
    have nothing : disk.free sb = 0 := by
      rw [Disk.free, Finset.card_eq_zero, Finset.filter_eq_empty_iff]
      intro b inside
      simp [none b (Finset.mem_range.mp inside)]
    simp [lacking, empty, nothing]
  | fresh assigned =>
    refine ⟨assigned.owned owned, assigned.rewrites owned, fun here ne => ?_, ?_,
      fun _ => ?_, fun _ => owned.ne_zero_of_free assigned.free⟩
    · rw [assigned.ref, if_neg fun both => ne both.2]
    · rw [assigned.ref, if_pos ⟨rfl, rfl⟩]
    · rw [lacking, if_pos assigned.empty, assigned.free_succ]

/-- The number of blocks that `bmap` takes. -/
def bmapCost (disk : Disk) (inum : Inum) (bn : Nat) : Nat :=
  disk.lacking inum (.data bn) + if bn < NDIRECT then 0 else disk.lacking inum .indirect

/-- What `bmap` does. -/
structure Mapped (sb : Superblock) (inum : Inum) (bn : Nat) (disk : Disk) (addr : Nat)
    (disk' : Disk) : Prop where
  owned : disk'.Owned sb
  rewrites : ∀ off, Rewrites inum off [] disk disk'
  others : ∀ fbn, fbn ≠ bn → disk'.ref inum (.data fbn) = disk.ref inum (.data fbn)
  direct : bn < NDIRECT → disk'.ref inum .indirect = disk.ref inum .indirect
  found : disk'.ref inum (.data bn) = addr
  listed : addr ≠ 0 → NDIRECT ≤ bn → disk'.ref inum .indirect ≠ 0
  supply : addr ≠ 0 → disk'.free sb + disk.bmapCost inum bn = disk.free sb
  enough : disk.bmapCost inum bn ≤ disk.free sb → addr ≠ 0

/-- A block past the direct ones needs the list. -/
theorem ref_data_of_unlisted (past : NDIRECT ≤ bn) (absent : disk.ref inum .indirect = 0) :
    disk.ref inum (.data bn) = 0 := by
  change blockOf disk.block (disk.dinode inum) bn = 0
  unfold blockOf
  rw [if_neg (by omega)]
  split_ifs with _ listed
  · rfl
  · exact (listed absent).elim
  · rfl

/-- Filling a direct place. -/
theorem FillSpec.mapped_direct {bn addr : Nat} (direct : bn < NDIRECT)
    (spec : FillSpec sb inum (.data bn) disk addr disk') : Mapped sb inum bn disk addr disk' where
  owned := spec.owned
  rewrites := spec.rewrites
  others := fun fbn ne => spec.others _ (by simpa using ne)
  direct := fun _ => spec.others _ (by simp)
  found := spec.found
  listed := fun _ past => by omega
  supply := by
    rw [bmapCost, if_pos direct]
    exact spec.supply
  enough := by
    rw [bmapCost, if_pos direct]
    exact spec.enough

/-- The list cannot be made. -/
theorem FillSpec.mapped_unlisted (past : ¬ bn < NDIRECT)
    (spec : FillSpec sb inum .indirect disk 0 disk') : Mapped sb inum bn disk 0 disk' where
  owned := spec.owned
  rewrites := spec.rewrites
  others := fun fbn _ => spec.others _ (by simp)
  direct := fun below => (past below).elim
  found := ref_data_of_unlisted (by omega) spec.found
  listed := fun ne => (ne rfl).elim
  supply := fun ne => (ne rfl).elim
  enough := by
    intro enough
    rw [bmapCost, if_neg past] at enough
    exact (spec.enough (by omega) rfl).elim

/-- The list, and then an entry of it. -/
theorem FillSpec.mapped_listed {bn list addr : Nat} {middle : Disk} (past : ¬ bn < NDIRECT)
    (made : list ≠ 0) (first : FillSpec sb inum .indirect disk list middle)
    (second : FillSpec sb inum (.data bn) middle addr disk') :
    Mapped sb inum bn disk addr disk' where
  owned := second.owned
  rewrites := fun off => (first.rewrites off).trans (second.rewrites _)
  others := fun fbn different =>
    (second.others _ (by simpa using different)).trans (first.others _ (by simp))
  direct := fun below => (past below).elim
  found := second.found
  listed := by
    intro _ _
    rw [second.others _ (by simp), first.found]
    exact made
  supply := by
    intro ne
    have one := first.supply made
    have two := second.supply ne
    rw [lacking, first.others _ (by simp), ← lacking] at two
    rw [bmapCost, if_neg past]
    omega
  enough := by
    intro enough
    rw [bmapCost, if_neg past] at enough
    have one := first.supply made
    apply second.enough
    rw [lacking, first.others _ (by simp), ← lacking]
    omega

theorem Owned.bmap (owned : (disk.iupdate inum ip).Owned sb) (range : bn < MAXFILE) :
    ∃ addr ip' disk', bmap sb ip bn disk = .ok (addr, ip', disk') ∧
      Mapped sb inum bn (disk.iupdate inum ip) addr (disk'.iupdate inum ip') := by
  unfold Disk.bmap
  by_cases direct : bn < NDIRECT
  · rw [if_pos direct]
    cases done : Disk.addrBlock sb ip bn disk with
    | mk addr rest =>
      have spec := (owned.addrBlock direct.le done).spec owned
      rw [show addrPlace bn = .data bn by simp [addrPlace, direct.ne]] at spec
      exact ⟨addr, rest.1, rest.2, rfl, spec.mapped_direct direct⟩
  · have inside : bn - NDIRECT < NINDIRECT := by
      simp only [MAXFILE] at range
      omega
    rw [if_neg direct, if_pos inside]
    cases done : Disk.addrBlock sb ip NDIRECT disk with
    | mk list rest =>
      obtain ⟨ip1, disk1⟩ := rest
      have first := (owned.addrBlock le_rfl done).spec owned
      rw [show addrPlace NDIRECT = .indirect by simp [addrPlace]] at first
      obtain rfl | made := eq_or_ne list 0
      · exact ⟨0, ip1, disk1, if_pos rfl, first.mapped_unlisted direct⟩
      · have addr_eq := first.found
        rw [ref_iupdate_indirect] at addr_eq
        subst addr_eq
        cases entry : Disk.entryBlock sb (ip1.addrs NDIRECT) (bn - NDIRECT) disk1 with
        | mk addr disk2 =>
          have second := (first.owned.entryBlock inside made entry).spec first.owned
          rw [show NDIRECT + (bn - NDIRECT) = bn by omega] at second
          refine ⟨addr, ip1, disk2, ?_, first.mapped_listed direct made second⟩
          simp only [if_neg made, entry]

end Disk

end Xv6.Fs
