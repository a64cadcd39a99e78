import Xv6.Fs.Stored
import Xv6.Mkfs.Image

/-!
# The layout of an image

Which block belongs to which place of which inode while `mkfs` hands the blocks out in order, and
what the blocks contain.  The places of an inode are numbered in the order in which they are
filled: the direct blocks, the indirect block, its entries.
-/

namespace Xv6.Mkfs

open Function Fs List Finset

/-! ## Places -/

/-- Number of places for a block number. -/
abbrev NPLACE : Nat := NDIRECT + 1 + NINDIRECT

/-- The block number at place `r` of an inode. -/
def ref (block : Nat → Block) (ip : Dinode) (r : Nat) : Nat :=
  if r ≤ NDIRECT then ip.addrs r
  else if ip.addrs NDIRECT = 0 then 0
  else (block (ip.addrs NDIRECT)).word (r - (NDIRECT + 1))

/-- The place of the block number of block `fbn` of a file. -/
def place (fbn : Nat) : Nat := if fbn < NDIRECT then fbn else fbn + 1

/-- Number of places that a file of this size fills. -/
def blocksFor (size : Nat) : Nat :=
  if size ≤ NDIRECT * BSIZE then (size + (BSIZE - 1)) / BSIZE
  else (size + (BSIZE - 1)) / BSIZE + 1

variable {fbn : Nat} {first second : Nat}

theorem place_direct (direct : fbn < NDIRECT) : place fbn = fbn := if_pos direct

theorem place_entry (indirect : NDIRECT ≤ fbn) : place fbn = fbn + 1 :=
  if_neg (Nat.not_lt.mpr indirect)

theorem place_ne (fbn : Nat) : place fbn ≠ NDIRECT := by
  unfold place
  split_ifs <;> simp only [NDIRECT] at * <;> omega

theorem place_inj (same : place first = place second) : first = second := by
  unfold place at same
  split_ifs at same <;> omega

theorem place_lt (small : fbn < MAXFILE) : place fbn < NPLACE := by
  unfold place
  split_ifs <;> simp only [MAXFILE, NPLACE] at * <;> omega

theorem blockOf_eq_ref (block : Nat → Block) (ip : Dinode) (small : fbn < MAXFILE) :
    blockOf block ip fbn = ref block ip (place fbn) := by
  unfold blockOf ref place
  split_ifs <;> simp only [MAXFILE, NDIRECT, NINDIRECT, BSIZE] at * <;> first
    | rfl
    | omega

theorem place_lt_blocksFor {fbn size : Nat} : place fbn < blocksFor size ↔ fbn * BSIZE < size := by
  unfold place blocksFor
  split_ifs <;> simp only [NDIRECT, BSIZE] at * <;> omega

theorem blocksFor_mono (le : first ≤ second) : blocksFor first ≤ blocksFor second := by
  unfold blocksFor
  split_ifs <;> simp only [NDIRECT, BSIZE] at * <;> omega

theorem blocksFor_le {size : Nat} : blocksFor size ≤ NPLACE ↔ size ≤ MAXFILE * BSIZE := by
  unfold blocksFor
  split_ifs <;> simp only [NPLACE, MAXFILE, NDIRECT, NINDIRECT, BSIZE] at * <;> omega

/-- Bytes of one block fill the same places. -/
theorem blocksFor_add {size n : Nat} (positive : 0 < n) (oneBlock : size % BSIZE + n ≤ BSIZE) :
    blocksFor (size + n) = blocksFor (size + 1) := by
  unfold blocksFor
  split_ifs <;> simp only [NDIRECT, BSIZE] at * <;> omega

theorem blocksFor_succ {size : Nat} : blocksFor (size + 1) = place (size / BSIZE) + 1 := by
  unfold place blocksFor
  split_ifs <;> simp only [NDIRECT, BSIZE] at * <;> omega

theorem blocksFor_mul : blocksFor (fbn * BSIZE) = if fbn ≤ NDIRECT then fbn else fbn + 1 := by
  unfold blocksFor
  split_ifs <;> simp only [NDIRECT, BSIZE] at * <;> omega

variable {block : Nat → Block} {ip : Dinode} {r : Nat} {inum : Inum} {count : Inum → Nat}

theorem ref_of_addrs_eq {ip other : Dinode} (same : ip.addrs = other.addrs) (r : Nat) :
    ref block ip r = ref block other r := by
  unfold ref
  rw [same]

theorem ref_addr (isAddr : r ≤ NDIRECT) : ref block ip r = ip.addrs r := if_pos isAddr

theorem ref_entry (isEntry : NDIRECT < r) (present : ip.addrs NDIRECT ≠ 0) :
    ref block ip r = (block (ip.addrs NDIRECT)).word (r - (NDIRECT + 1)) := by
  rw [ref, if_neg (Nat.not_le.mpr isEntry), if_neg present]

theorem ref_absent (isEntry : NDIRECT < r) (absent : ip.addrs NDIRECT = 0) :
    ref block ip r = 0 := by
  rw [ref, if_neg (Nat.not_le.mpr isEntry), if_pos absent]

/-- Only the indirect block matters for the places of an inode. -/
theorem ref_congr {block block' : Nat → Block} (r : Nat)
    (same : ip.addrs NDIRECT ≠ 0 → block' (ip.addrs NDIRECT) = block (ip.addrs NDIRECT)) :
    ref block' ip r = ref block ip r := by
  by_cases isAddr : r ≤ NDIRECT
  · rw [ref_addr isAddr, ref_addr isAddr]
  · have isEntry := Nat.lt_of_not_le isAddr
    by_cases absent : ip.addrs NDIRECT = 0
    · rw [ref_absent isEntry absent, ref_absent isEntry absent]
    · rw [ref_entry isEntry absent, ref_entry isEntry absent, same absent]

/-! ## Blocks handed out in order -/

/-- The inode area has a place for this inode. -/
def InArea (inum : Inum) : Prop := inum < ninodeblocks * IPB

/-- The number of blocks of an image with this many filled places. -/
def blocksUsed (count : Inum → Nat) : Nat :=
  nmeta + ∑ inum ∈ Finset.range (ninodeblocks * IPB), count inum

theorem blocksUsed_update (inArea : InArea inum) (count : Inum → Nat) (n : Nat) :
    blocksUsed (update count inum n) + count inum = blocksUsed count + n := by
  have member : inum ∈ Finset.range (ninodeblocks * IPB) := Finset.mem_range.mpr inArea
  unfold blocksUsed
  rw [sum_update_of_mem member, sdiff_singleton_eq_erase,
    ← add_sum_erase _ count member]
  omega

theorem blocksUsed_mono {count other : Inum → Nat} (le : ∀ inum, count inum ≤ other inum) :
    blocksUsed count ≤ blocksUsed other :=
  Nat.add_le_add_left (Finset.sum_le_sum fun inum _ => le inum) _

/-- Numbers that are handed out in order go to one place each. -/
theorem bijOn_Ico_succ {ι : Type} [DecidableEq ι] {numbers : ι → Nat} {places : Set ι}
    {first next : Nat} {place : ι} (handed : Set.BijOn numbers places (Set.Ico first next))
    (start : first ≤ next) (new : place ∉ places) :
    Set.BijOn (update numbers place next) (insert place places)
      (Set.Ico first (next + 1)) := by
  have same : Set.EqOn numbers (update numbers place next) places := by
    intro other member
    have ne : other ≠ place := by
      rintro rfl
      exact new member
    exact (update_of_ne ne ..).symm
  have outside : update numbers place next place ∉ Set.Ico first next := by simp
  have extended := (handed.congr same).insert outside
  have range : Set.Ico first (next + 1) = insert next (Set.Ico first next) := by
    ext number
    simp only [Set.mem_Ico, Set.mem_insert_iff]
    omega
  rw [update_self] at extended
  rw [range]
  exact extended

/-- The places that are filled when `count inum` of each inode are. -/
def filled (count : Inum → Nat) : Set (Inum × Nat) :=
  { spot | InArea spot.1 ∧ spot.2 < count spot.1 }

theorem mem_filled : (inum, r) ∈ filled count ↔ InArea inum ∧ r < count inum := Iff.rfl

theorem filled_update (inArea : InArea inum) : filled (update count inum (count inum + 1)) =
      insert (inum, count inum) (filled count) := by
  ext ⟨other, r⟩
  rw [Set.mem_insert_iff, mem_filled, mem_filled, Prod.mk.injEq]
  obtain rfl | same := eq_or_ne other inum
  · rw [update_self]
    constructor
    · rintro ⟨area, less⟩
      by_cases last : r = count other
      · exact .inl ⟨rfl, last⟩
      · exact .inr ⟨area, by omega⟩
    · rintro (⟨-, last⟩ | ⟨area, less⟩)
      · exact ⟨inArea, by omega⟩
      · exact ⟨area, by omega⟩
  · simp [same]

/-- Each of the blocks from `nmeta` to `freeblock` is at one place of one inode: the first
`count inum` places of each inode are filled.  The data blocks contain `data`. -/
structure Laid (dinode : Inum → Dinode) (block : Nat → Block) (freeblock : Nat)
    (count : Inum → Nat) (data : Inum → List UInt8) : Prop where
  nmeta_le : nmeta ≤ freeblock
  total : freeblock = blocksUsed count
  count_le : ∀ inum, InArea inum → count inum ≤ NPLACE
  handed : Set.BijOn (fun spot : Inum × Nat => ref block (dinode spot.1) spot.2) (filled count)
    (Set.Ico nmeta freeblock)
  empty : ∀ inum, InArea inum → ∀ r, count inum ≤ r → r < NPLACE → ref block (dinode inum) r = 0
  fresh : ∀ b, freeblock ≤ b → block b = zeroes
  byte : ∀ inum, InArea inum → ∀ off, place (off / BSIZE) < count inum →
    block (ref block (dinode inum) (place (off / BSIZE))) (off % BSIZE) = (data inum).getD off 0

namespace Laid

variable {dinode dinode' : Inum → Dinode} {block block' : Nat → Block} {freeblock : Nat}
  {count : Inum → Nat} {data : Inum → List UInt8} {inum : Inum}

section

variable (laid : Laid dinode block freeblock count data)
include laid

section

variable (inArea : InArea inum)
include inArea

theorem mem_Ico {r : Nat} (filled : r < count inum) :
    nmeta ≤ ref block (dinode inum) r ∧ ref block (dinode inum) r < freeblock :=
  laid.handed.mapsTo (mem_filled.mpr ⟨inArea, filled⟩)

theorem ref_ne_zero {r : Nat} (filled : r < count inum) : ref block (dinode inum) r ≠ 0 := by
  have bounds := laid.mem_Ico inArea filled
  have positive : 0 < nmeta := by decide
  omega

theorem inj {other : Inum} (otherArea : InArea other) {r r' : Nat} (filled : r < count inum)
    (filled' : r' < count other) (same : ref block (dinode inum) r = ref block (dinode other) r') :
    inum = other ∧ r = r' := by
  have equal := laid.handed.injOn (mem_filled.mpr ⟨inArea, filled⟩)
    (mem_filled.mpr ⟨otherArea, filled'⟩) same
  exact Prod.mk.inj equal

/-- The next block goes to the next place of an inode. -/
theorem grow (room : count inum < NPLACE)
    (refs : ∀ other, InArea other → ∀ r < NPLACE, ref block' (dinode' other) r =
      if other = inum ∧ r = count inum then freeblock else ref block (dinode other) r)
    (fresh : ∀ b, freeblock ≤ b → block' b = zeroes)
    (same : ∀ other, InArea other → ∀ r < count other, r ≠ NDIRECT →
      block' (ref block (dinode other) r) = block (ref block (dinode other) r))
    (padding : ∀ off, place (off / BSIZE) = count inum → (data inum).getD off 0 = 0) :
    Laid dinode' block' (freeblock + 1) (update count inum (count inum + 1)) data where
  nmeta_le := Nat.le_succ_of_le laid.nmeta_le
  total := by
    have updated := blocksUsed_update inArea count (count inum + 1)
    have := laid.total
    omega
  count_le := fun other otherArea => by
    obtain rfl | same := eq_or_ne other inum
    · rw [update_self]
      exact room
    · rw [update_of_ne same]
      exact laid.count_le other otherArea
  handed := by
    have new : (inum, count inum) ∉ filled count :=
      fun member => Nat.lt_irrefl _ (mem_filled.mp member).2
    have extended := bijOn_Ico_succ laid.handed laid.nmeta_le new
    rw [filled_update inArea]
    refine extended.congr ?_
    rintro ⟨other, r⟩ member
    change _ = ref block' (dinode' other) r
    rcases Set.mem_insert_iff.mp member with last | old
    · obtain ⟨rfl, rfl⟩ := Prod.mk.inj last
      rw [update_self, refs _ inArea _ room, if_pos ⟨rfl, rfl⟩]
    · obtain ⟨area, less⟩ := mem_filled.mp old
      have ne : (other, r) ≠ (inum, count inum) := by
        rintro equal
        exact new (equal ▸ old)
      have small : r < NPLACE := Nat.lt_of_lt_of_le less (laid.count_le other area)
      rw [update_of_ne ne, refs other area r small,
        if_neg (fun both => ne (Prod.ext both.1 both.2))]
  empty := fun other otherArea r filled small => by
    rw [refs other otherArea r small]
    obtain rfl | same := eq_or_ne other inum
    · rw [update_self] at filled
      rw [if_neg (by omega)]
      exact laid.empty other otherArea r (by omega) small
    · rw [update_of_ne same] at filled
      rw [if_neg (fun both => same both.1)]
      exact laid.empty other otherArea r filled small
  fresh := fun b free => fresh b (by omega)
  byte := fun other otherArea off filled => by
    by_cases last : other = inum ∧ place (off / BSIZE) = count inum
    · obtain ⟨rfl, isLast⟩ := last
      rw [refs other otherArea _ (isLast ▸ room), if_pos ⟨rfl, isLast⟩, fresh _ (Nat.le_refl _),
        padding off isLast]
      rfl
    · have old : place (off / BSIZE) < count other := by
        obtain rfl | same := eq_or_ne other inum
        · rw [update_self] at filled
          have ne : place (off / BSIZE) ≠ count other := fun isLast => last ⟨rfl, isLast⟩
          omega
        · rwa [update_of_ne same] at filled
      have small : place (off / BSIZE) < NPLACE :=
        Nat.lt_of_lt_of_le old (laid.count_le other otherArea)
      rw [refs other otherArea _ small, if_neg last, same other otherArea _ old (place_ne _)]
      exact laid.byte other otherArea off old

theorem addrs_eq_zero {i : Nat} (isAddr : i ≤ NDIRECT) (free : count inum ≤ i) :
    (dinode inum).addrs i = 0 := by
  have absent := laid.empty inum inArea i free (by simp only [NPLACE, NDIRECT] at *; omega)
  rwa [ref_addr isAddr] at absent

theorem lt_count_of_addrs_ne_zero {i : Nat} (isAddr : i ≤ NDIRECT)
    (present : (dinode inum).addrs i ≠ 0) : i < count inum := by
  by_contra free
  exact present (laid.addrs_eq_zero inArea isAddr (Nat.le_of_not_lt free))

end

/-- The indirect block of an inode is at no other place. -/
theorem indirect_ne {other : Inum} (otherArea : InArea other)
    (present : (dinode other).addrs NDIRECT ≠ 0) (inArea : InArea inum) {r : Nat}
    (has : r < count inum) (distinct : other = inum → r ≠ NDIRECT) :
    (dinode other).addrs NDIRECT ≠ ref block (dinode inum) r := by
  have holds := laid.lt_count_of_addrs_ne_zero otherArea (Nat.le_refl NDIRECT) present
  have isRef : ref block (dinode other) NDIRECT = (dinode other).addrs NDIRECT :=
    ref_addr (Nat.le_refl _)
  intro same
  obtain ⟨sameInode, samePlace⟩ := laid.inj otherArea inArea holds has (isRef.trans same)
  exact distinct sameInode samePlace.symm

/-- The next place is an entry of `addrs`. -/
theorem growAddr (inArea : InArea inum) (direct : count inum ≤ NDIRECT)
    (padding : ∀ off, place (off / BSIZE) = count inum → (data inum).getD off 0 = 0) :
    Laid (update dinode inum ((dinode inum).setAddr (count inum) freeblock)) block
      (freeblock + 1) (update count inum (count inum + 1)) data := by
  refine laid.grow inArea (by simp only [NPLACE, NDIRECT] at *; omega) ?_ laid.fresh
    (fun _ _ _ _ _ => rfl) padding
  intro other otherArea r small
  obtain rfl | same := eq_or_ne other inum
  · rw [update_self]
    by_cases last : r = count other
    · rw [if_pos ⟨rfl, last⟩, last, ref_addr direct]
      exact update_self ..
    · rw [if_neg fun both => last both.2]
      by_cases isAddr : r ≤ NDIRECT
      · rw [ref_addr isAddr, ref_addr isAddr]
        exact update_of_ne last ..
      · have isEntry := Nat.lt_of_not_le isAddr
        have absent := laid.addrs_eq_zero otherArea (Nat.le_refl NDIRECT) direct
        rw [ref_absent isEntry absent]
        by_cases isIndirect : NDIRECT = count other
        · -- the new indirect block has no entries yet
          have addr : ((dinode other).setAddr (count other) freeblock).addrs NDIRECT =
              freeblock := by
            rw [isIndirect]
            exact update_self ..
          have present : freeblock ≠ 0 := by
            have := laid.nmeta_le
            have positive : 0 < nmeta := by decide
            omega
          rw [ref_entry isEntry (by rwa [addr]), addr, laid.fresh _ (Nat.le_refl _)]
          rfl
        · exact ref_absent isEntry ((update_of_ne isIndirect ..).trans absent)
  · rw [update_of_ne same, if_neg fun both => same both.1]

/-- The next place is an entry of the indirect block. -/
theorem growEntry (inArea : InArea inum) (indirect : NDIRECT < count inum)
    (room : count inum < NPLACE) (small : freeblock < 2 ^ 32)
    (padding : ∀ off, place (off / BSIZE) = count inum → (data inum).getD off 0 = 0) :
    Laid dinode (update block ((dinode inum).addrs NDIRECT)
        ((block ((dinode inum).addrs NDIRECT)).setWord (count inum - (NDIRECT + 1)) freeblock))
      (freeblock + 1) (update count inum (count inum + 1)) data := by
  have isRef : ref block (dinode inum) NDIRECT = (dinode inum).addrs NDIRECT :=
    ref_addr (Nat.le_refl _)
  have bounds := laid.mem_Ico inArea indirect
  have present := laid.ref_ne_zero inArea indirect
  rw [isRef] at bounds present
  refine laid.grow inArea room ?_ ?_ ?_ padding
  · intro other otherArea r inside
    obtain rfl | same := eq_or_ne other inum
    · by_cases isAddr : r ≤ NDIRECT
      · rw [ref_addr isAddr, ref_addr isAddr, if_neg (by omega)]
      · have isEntry := Nat.lt_of_not_le isAddr
        rw [ref_entry isEntry present, ref_entry isEntry present, update_self]
        by_cases last : r = count other
        · rw [if_pos ⟨rfl, last⟩, last, Block.word_setWord _ _ small]
        · rw [if_neg fun both => last both.2, Block.word_setWord_ne _ _ (by omega)]
    · rw [if_neg fun both => same both.1]
      refine ref_congr r fun otherPresent => update_of_ne ?_ ..
      rw [← isRef]
      exact laid.indirect_ne otherArea otherPresent inArea indirect fun equal => (same equal).elim
  · intro b free
    rw [update_of_ne (by omega)]
    exact laid.fresh b free
  · intro other otherArea r filled notIndirect
    refine update_of_ne (Ne.symm ?_) ..
    exact laid.indirect_ne inArea present otherArea filled fun _ => notIndirect

end

/-- A block after data have been added to the end of the file in it. -/
theorem write_getD {contents : Block} {bytes p : List UInt8} {off : Nat}
    (old : contents (off % BSIZE) = bytes.getD off 0)
    (sameBlock : off / BSIZE = bytes.length / BSIZE) :
    contents.write (bytes.length % BSIZE) p (off % BSIZE) = (bytes ++ p).getD off 0 := by
  unfold Block.write
  by_cases inside : off < bytes.length
  · have earlier : ¬ bytes.length % BSIZE ≤ off % BSIZE := by simp only [BSIZE] at *; omega
    rw [if_neg earlier, old, getD_append _ _ _ _ inside]
  · have later : bytes.length % BSIZE ≤ off % BSIZE := by simp only [BSIZE] at *; omega
    have distance : off % BSIZE - bytes.length % BSIZE = off - bytes.length := by
      simp only [BSIZE] at *
      omega
    rw [if_pos later, distance, getD_append_right _ _ _ _ (Nat.le_of_not_lt inside), old,
      getD_eq_default _ _ (Nat.le_of_not_lt inside), getD_eq_getElem?_getD]

variable (laid : Laid dinode block freeblock count data)
include laid

/-- Other contents of the blocks, at the same places. -/
theorem rewritten {data' : Inum → List UInt8}
    (refs : ∀ other, InArea other → ∀ r, ref block' (dinode' other) r = ref block (dinode other) r)
    (fresh : ∀ b, freeblock ≤ b → block' b = zeroes)
    (byte : ∀ inum, InArea inum → ∀ off, place (off / BSIZE) < count inum →
      block' (ref block (dinode inum) (place (off / BSIZE))) (off % BSIZE) =
        (data' inum).getD off 0) :
    Laid dinode' block' freeblock count data' := by
  refine ⟨laid.nmeta_le, laid.total, laid.count_le, laid.handed.congr ?_, ?_, fresh, ?_⟩
  · rintro ⟨other, r⟩ member
    exact (refs other (mem_filled.mp member).1 r).symm
  · intro other otherArea r free small
    rw [refs other otherArea r]
    exact laid.empty other otherArea r free small
  · intro other otherArea off filled
    rw [refs other otherArea]
    exact byte other otherArea off filled

/-- Data are added to the end of a file, in a block that it has. -/
theorem write (inArea : InArea inum) {fbn : Nat} {p : List UInt8}
    (last : (data inum).length / BSIZE = fbn) (has : place fbn < count inum)
    (oneBlock : (data inum).length % BSIZE + p.length ≤ BSIZE) :
    Laid dinode (update block (ref block (dinode inum) (place fbn))
        ((block (ref block (dinode inum) (place fbn))).write ((data inum).length % BSIZE) p))
      freeblock count (update data inum (data inum ++ p)) := by
  generalize contents : (block (ref block (dinode inum) (place fbn))).write _ p = written
  have refs : ∀ other, InArea other → ∀ r,
      ref (update block (ref block (dinode inum) (place fbn)) written) (dinode other) r =
        ref block (dinode other) r := by
    intro other otherArea r
    refine ref_congr r fun present => update_of_ne ?_ ..
    exact laid.indirect_ne otherArea present inArea has fun _ => place_ne fbn
  have bounds := laid.mem_Ico inArea has
  refine laid.rewritten refs (fun b free => ?_) fun other otherArea off filled => ?_
  · rw [update_of_ne (by omega)]
    exact laid.fresh b free
  · have old := laid.byte other otherArea off filled
    by_cases here : other = inum ∧ off / BSIZE = fbn
    · obtain ⟨rfl, rfl⟩ := here
      rw [update_self, update_self, ← contents]
      exact write_getD old last.symm
    · have ne : ref block (dinode other) (place (off / BSIZE)) ≠
          ref block (dinode inum) (place fbn) := by
        intro same
        obtain ⟨sameInode, samePlace⟩ := laid.inj otherArea inArea filled has same
        exact here ⟨sameInode, place_inj samePlace⟩
      rw [update_of_ne ne, old]
      obtain rfl | same := eq_or_ne other inum
      · rw [update_self]
        have elsewhere : off / BSIZE ≠ fbn := fun equal => here ⟨rfl, equal⟩
        by_cases inside : off < (data other).length
        · rw [getD_append _ _ _ _ inside]
        · have beyond : (data other ++ p).length ≤ off := by
            rw [length_append]
            simp only [BSIZE] at *
            omega
          rw [getD_eq_default _ _ (Nat.le_of_not_lt inside), getD_eq_default _ _ beyond]
      · rw [update_of_ne same]

/-- The layout depends on the data blocks and the places alone. -/
theorem of_eq (addrs : ∀ inum, InArea inum → (dinode' inum).addrs = (dinode inum).addrs)
    (blocks : ∀ b, nmeta ≤ b → block' b = block b) : Laid dinode' block' freeblock count data := by
  have refs : ∀ other, InArea other → ∀ r,
      ref block' (dinode' other) r = ref block (dinode other) r := by
    intro other otherArea r
    rw [ref_of_addrs_eq (addrs other otherArea)]
    refine ref_congr r fun present => blocks _ ?_
    have filled := laid.lt_count_of_addrs_ne_zero otherArea (Nat.le_refl NDIRECT) present
    have bounds := laid.mem_Ico otherArea filled
    rw [ref_addr (Nat.le_refl _)] at bounds
    exact bounds.1
  refine laid.rewritten refs (fun b free => ?_) fun other otherArea off filled => ?_
  · rw [blocks b (Nat.le_trans laid.nmeta_le free)]
    exact laid.fresh b free
  · rw [blocks _ (laid.mem_Ico otherArea filled).1]
    exact laid.byte other otherArea off filled

/-- The numbers of an inode of the layout fit their places. -/
theorem fits (free_le : freeblock ≤ FSSIZE) (inArea : InArea inum)
    (rest : ∀ i, NDIRECT < i → (dinode inum).addrs i = 0) {size : Nat} (small : size < 2 ^ 32) :
    { dinode inum with size }.Fits := by
  refine ⟨small, fun i isAddr => ?_, rest⟩
  change (dinode inum).addrs i < 2 ^ 32
  by_cases filled : i < count inum
  · have bounds := laid.mem_Ico inArea filled
    rw [ref_addr isAddr] at bounds
    simp only [FSSIZE] at free_le
    omega
  · rw [laid.addrs_eq_zero inArea isAddr (Nat.le_of_not_lt filled)]
    decide

end Laid

end Xv6.Mkfs
