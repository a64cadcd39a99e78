import Xv6.Fs.Contents

/-!
# Files as lists of bytes

Any sequence of calls of `writei`, `readi` and `itrunc` of `kernel/fs.c` acts on the files as the
same sequence acts on lists of bytes, one list for each inode.
-/

namespace Xv6.Fs

open Function List

/-! ## Lists of bytes -/

/-- Bytes written over a list, and possibly past its end. -/
def overwrite (bytes : List UInt8) (off : Nat) (src : List UInt8) : List UInt8 :=
  bytes.take off ++ src ++ bytes.drop (off + src.length)

theorem getElem?_overwrite {bytes src : List UInt8} {off : Nat} (start : off ≤ bytes.length)
    (pos : Nat) : (overwrite bytes off src)[pos]? =
      if off ≤ pos ∧ pos < off + src.length then src[pos - off]? else bytes[pos]? := by
  have first : (bytes.take off).length = off := by
    rw [length_take]
    omega
  unfold overwrite
  by_cases before : pos < off
  · rw [if_neg (by omega), append_assoc, getElem?_append_left (by omega),
      getElem?_take_of_lt before]
  · by_cases inside : pos < off + src.length
    · rw [if_pos ⟨by omega, inside⟩,
        getElem?_append_left (by rw [length_append]; omega),
        getElem?_append_right (by omega), first]
    · rw [if_neg (by omega), getElem?_append_right (by rw [length_append]; omega),
        length_append, first, getElem?_drop]
      congr 1
      omega

/-- The files, by inode. -/
abbrev Files := Inum → List UInt8

/-- A call with a kernel buffer. -/
inductive Access where
  | writei (inum : Inum) (src : List UInt8) (off : Nat)
  | readi (inum : Inum) (off n : Nat)
  | itrunc (inum : Inum)

/-- What a call returns: a number of bytes (`none` for -1), bytes, or nothing. -/
inductive Reply where
  | count (written : Option Nat)
  | bytes (read : List UInt8)
  | done
  deriving DecidableEq

/-- A call on the lists of bytes. -/
def Files.access (files : Files) : Access → Reply × Files
  | .writei inum src off =>
    if off ≤ (files inum).length ∧ off + src.length ≤ MAXFILE * BSIZE then
      (.count (some src.length),
        Function.update files inum (overwrite (files inum) off src))
    else (.count none, files)
  | .readi inum off n =>
    (.bytes (if off ≤ (files inum).length ∧ off + n < 2 ^ 32 then
      ((files inum).drop off).take n else []), files)
  | .itrunc inum => (.done, Function.update files inum [])

/-- Calls on the lists of bytes, one after another. -/
def Files.run : Files → List Access → List Reply × Files
  | files, [] => ([], files)
  | files, call :: calls =>
    let (reply, files) := files.access call
    let (replies, files) := Files.run files calls
    (reply :: replies, files)

/-- An inode without the addresses in a range. -/
def Dinode.clear (ip : Dinode) (first count : Nat) : Dinode :=
  { ip with addrs := fun k => if first ≤ k ∧ k < first + count then 0 else ip.addrs k }

theorem Dinode.clear_addrs (ip : Dinode) (first count k : Nat) :
    (ip.clear first count).addrs k = if first ≤ k ∧ k < first + count then 0 else ip.addrs k := rfl

theorem Dinode.clear_zero (ip : Dinode) (first : Nat) : ip.clear first 0 = ip := by
  have none : ∀ k, ¬ (first ≤ k ∧ k < first + 0) := fun k => by omega
  simp only [clear, if_neg (none _)]

theorem Dinode.clear_setAddr (ip : Dinode) (first count : Nat) :
    (ip.setAddr first 0).clear (first + 1) count = ip.clear first (count + 1) := by
  simp only [clear, setAddr]
  congr 1
  funext k
  by_cases same : k = first
  · rw [same, if_neg (by omega), if_pos ⟨Nat.le_refl first, by omega⟩, update_self]
  · rw [update_of_ne same]
    exact if_congr (by omega) rfl rfl

theorem Dinode.clear_succ_of_zero {ip : Dinode} {first : Nat} (absent : ip.addrs first = 0)
    (count : Nat) : ip.clear (first + 1) count = ip.clear first (count + 1) := by
  rw [← clear_setAddr, setAddr, ← absent, update_eq_self]

namespace Disk

variable {sb : Superblock} {disk disk' : Disk} {inum : Inum} {ip : Dinode} {src : List UInt8}
  {gone : Nat → Prop}

/-! ## Writing -/

/-- A complete write replaces or extends the bytes of its file, and no other file. -/
theorem Written.contents {limit off tot : Nat} (sound : disk.Sound sb)
    (start : off ≤ (disk.dinode inum).size)
    (written : Written sb inum src limit off disk tot 0 disk') :
    disk'.contents =
      update disk.contents inum (overwrite (disk.contents inum) off (src.take tot)) := by
  have count : (src.take tot).length = tot := by
    rw [length_take]
    exact Nat.min_eq_left written.le_length
  funext other
  obtain rfl | same := eq_or_ne other inum
  · rw [update_self]
    refine ext_getElem? fun pos => ?_
    have begins : off ≤ (disk.contents other).length := by rwa [contents_length]
    rw [getElem?_overwrite begins, count]
    by_cases inside : pos < (disk'.dinode other).size
    · rw [written.sound.contents_getElem? inside, written.bytes pos inside, Nat.add_zero]
      split_ifs with range
      · rw [getElem?_take_of_lt (by omega)]
      · rw [sound.contents_getElem?]
        rw [written.size] at inside
        omega
    · have size := written.size
      rw [getElem?_eq_none (by rw [contents_length]; omega), if_neg (by omega),
        getElem?_eq_none (by rw [contents_length]; omega)]
  · rw [update_of_ne same]
    exact contents_congr (by rw [written.dinode other same])
      fun pos _ => written.others other same pos

/-- With enough free blocks and a readable source, `writei` writes everything. -/
theorem Sound.writei_all {off : Nat} (sound : disk.Sound sb)
    (writable : disk.Writable inum off src.length)
    (enough : disk.needs inum (off / BSIZE) (span off src.length) ≤ disk.free sb) :
    ∃ disk', disk.writei sb inum (disk.dinode inum) src src.length off =
        .ok (some src.length, disk'.dinode inum, disk') ∧ disk'.Sound sb ∧
      disk'.contents =
        update disk.contents inum (overwrite (disk.contents inum) off src) := by
  have returns : Returns (fun r => r.2.2.dinode inum = r.2.1 ∧
      ∃ tot extra, r.1 = some tot ∧ Written sb inum src src.length off disk tot extra r.2.2)
      (disk.writei sb inum (disk.dinode inum) src src.length off) := sound.writei writable
  obtain ⟨⟨ret, ip', disk'⟩, done, same, tot, extra, total, written⟩ := returns
  obtain rfl : disk'.dinode inum = ip' := same
  obtain rfl : ret = some tot := total
  obtain rfl : extra = 0 := by
    cases written.stop with
    | done | full => rfl
    | fault short => omega
  obtain rfl := written.enough enough (Nat.le_refl _)
  refine ⟨disk', done, written.sound, ?_⟩
  rw [written.contents sound writable.1, take_length]

/-! ## Reading -/

theorem Sound.stores (sound : disk.Sound sb) (inum : Inum) :
    Stores disk.block (disk.dinode inum) (disk.contents inum) where
  length_le := by rw [contents_length]
  size_lt := by
    have bound := sound.size_le inum
    simp only [MAXFILE, NDIRECT, NINDIRECT, BSIZE] at bound
    omega
  block_ne_zero fbn inside := sound.dense inum fbn (by rwa [contents_length] at inside)
  byte off inside := by
    rw [contents_length] at inside
    have assigned := sound.byteAt_isSome inside
    rw [isSome_byteAt] at assigned
    rw [getD_eq_getElem?_getD, sound.contents_getElem? inside, byteAt, if_neg assigned]
    rfl

theorem Sound.readi (sound : disk.Sound sb) (inum : Inum) (off n : Nat) :
    readi sb (disk.dinode inum) off n disk =
      .ok (if off ≤ (disk.dinode inum).size ∧ off + n < 2 ^ 32 then
        ((disk.contents inum).drop off).take n else [], disk.dinode inum, disk) := by
  unfold Disk.readi Overflows
  split_ifs with refused allowed allowed
  · omega
  · rfl
  · have length := contents_length disk inum
    have loop : readiLoop sb (min n ((disk.dinode inum).size - off)) off
        (min n ((disk.dinode inum).size - off)) (disk.dinode inum) disk =
          .ok (((disk.contents inum).drop off).take (min n ((disk.dinode inum).size - off)),
            disk.dinode inum, disk) :=
      (sound.stores inum).readiLoop_eq (Nat.le_refl _) (by omega)
    rw [loop, ← length, ← length_drop, ← take_eq_take_min]
  · omega

/-! ## Truncation -/

/-- Blocks have been freed. -/
structure Freed (gone : Nat → Prop) (disk disk' : Disk) : Prop where
  dinode : disk'.dinode = disk.dinode
  block : disk'.block = disk.block
  used : ∀ c, disk'.used c = true ↔ disk.used c = true ∧ ¬ gone c

theorem Freed.none (never : ∀ c, ¬ gone c) : Freed gone disk disk :=
  ⟨rfl, rfl, fun c => by simp [never c]⟩

theorem Freed.congr {gone all : Nat → Prop} (freed : Freed gone disk disk')
    (same : ∀ c, all c ↔ gone c) : Freed all disk disk' :=
  ⟨freed.dinode, freed.block, fun c => by rw [freed.used, same]⟩

theorem Freed.trans {gone more all : Nat → Prop} {last : Disk} (first : Freed gone disk disk')
    (second : Freed more disk' last) (both : ∀ c, all c ↔ gone c ∨ more c) :
    Freed all disk last where
  dinode := second.dinode.trans first.dinode
  block := second.block.trans first.block
  used c := by
    rw [second.used, first.used, both]
    tauto

theorem bfree_freed {b : Nat} (marked : disk.used b = true) :
    ∃ disk', disk.bfree b = .ok disk' ∧ Freed (· = b) disk disk' := by
  refine ⟨_, if_pos marked, rfl, rfl, fun c => ?_⟩
  by_cases same : c = b
  · simp [same]
  · simp [same]

/-- The blocks among `count` addresses from `first` on. -/
def Among (addr : Nat → Nat) (first count c : Nat) : Prop :=
  ∃ k, first ≤ k ∧ k < first + count ∧ addr k = c ∧ c ≠ 0

theorem among_succ (addr : Nat → Nat) (first count c : Nat) :
    Among addr first (count + 1) c ↔ (c = addr first ∧ c ≠ 0) ∨ Among addr (first + 1) count c := by
  constructor
  · rintro ⟨k, lower, upper, rfl, assigned⟩
    by_cases same : k = first
    · exact .inl ⟨by rw [same], assigned⟩
    · exact .inr ⟨k, by omega, by omega, rfl, assigned⟩
  · rintro (⟨rfl, assigned⟩ | ⟨k, lower, upper, rfl, assigned⟩)
    · exact ⟨first, by omega, by omega, rfl, assigned⟩
    · exact ⟨k, by omega, by omega, rfl, assigned⟩

/-- The blocks among some addresses are in use and all different. -/
structure Apart (addr : Nat → Nat) (first count : Nat) (disk : Disk) : Prop where
  marked : ∀ c, Among addr first count c → disk.used c = true
  unique : ∀ k k', first ≤ k → k < k' → k' < first + count → addr k ≠ 0 → addr k ≠ addr k'

variable {addr : Nat → Nat} {first count : Nat} {addr addr' : Nat → Nat}

/-- The first address is no block. -/
theorem Apart.skip (apart : Apart addr first (count + 1) disk) :
    Apart addr (first + 1) count disk where
  marked c among := apart.marked c ((among_succ addr first count c).mpr (.inr among))
  unique k k' lower less upper := apart.unique k k' (by omega) less (by omega)

/-- Other blocks have been freed. -/
theorem Apart.freed (apart : Apart addr first count disk) (freed : Freed gone disk disk')
    (kept : ∀ c, Among addr first count c → ¬ gone c) :
    Apart addr first count disk' where
  marked c among := (freed.used c).mpr ⟨apart.marked c among, kept c among⟩
  unique := apart.unique

/-- The first block is not among the others. -/
theorem Apart.first_ne {first count c : Nat} (apart : Apart addr first (count + 1) disk)
    (assigned : addr first ≠ 0) (among : Among addr (first + 1) count c) : c ≠ addr first := by
  obtain ⟨k, lower, upper, rfl, -⟩ := among
  exact (apart.unique first k (Nat.le_refl first) (by omega) (by omega) assigned).symm

theorem among_of_zero {first : Nat} (absent : addr first = 0) (count c : Nat) :
    Among addr first (count + 1) c ↔ Among addr (first + 1) count c := by
  rw [among_succ, absent]
  tauto

theorem among_of_ne_zero {first : Nat} (assigned : addr first ≠ 0) (count c : Nat) :
    Among addr first (count + 1) c ↔ c = addr first ∨ Among addr (first + 1) count c := by
  rw [among_succ]
  constructor
  · exact fun either => either.imp And.left id
  · exact fun either => either.imp (fun same => ⟨same, same ▸ assigned⟩) id

theorem not_among_zero (addr : Nat → Nat) (first c : Nat) : ¬ Among addr first 0 c := by
  rintro ⟨k, lower, upper, -⟩
  omega

theorem Apart.truncEntries {a : Block} {turns j : Nat} (apart : Apart a.word j turns disk) :
    ∃ disk', truncEntries a turns j disk = .ok disk' ∧ Freed (Among a.word j turns) disk disk' := by
  induction turns generalizing j disk with
  | zero => exact ⟨disk, rfl, Freed.none (not_among_zero _ _)⟩
  | succ turns ih =>
    unfold Disk.truncEntries
    split_ifs with absent
    · obtain ⟨disk', done, freed⟩ := ih apart.skip
      exact ⟨disk', done, freed.congr (among_of_zero absent turns)⟩
    · have marked := apart.marked (a.word j) ((among_of_ne_zero absent _ _).mpr (.inl rfl))
      obtain ⟨middle, first, gone⟩ := bfree_freed marked
      obtain ⟨disk', done, freed⟩ := ih (apart.skip.freed gone fun c => apart.first_ne absent)
      exact ⟨disk', by rw [first]; exact done, gone.trans freed (among_of_ne_zero absent turns)⟩

theorem among_congr (same : ∀ k, first ≤ k → addr' k = addr k) (c : Nat) :
    Among addr' first count c ↔ Among addr first count c :=
  exists_congr fun k => and_congr_right fun lower => by rw [same k lower]

theorem Apart.congr (apart : Apart addr first count disk) (same : ∀ k, first ≤ k → addr' k = addr k)
    :
    Apart addr' first count disk where
  marked c among := apart.marked c ((among_congr same c).mp among)
  unique k k' lower less upper := by
    rw [same k lower, same k' (by omega)]
    exact apart.unique k k' lower less upper

theorem Apart.truncDirect {turns i : Nat} (apart : Apart ip.addrs i turns disk) :
    ∃ disk', truncDirect turns i ip disk = .ok (ip.clear i turns, disk') ∧
      Freed (Among ip.addrs i turns) disk disk' := by
  induction turns generalizing i ip disk with
  | zero =>
    refine ⟨disk, ?_, Freed.none (not_among_zero _ _)⟩
    rw [Dinode.clear_zero]
    rfl
  | succ turns ih =>
    unfold Disk.truncDirect
    split_ifs with absent
    · obtain ⟨disk', done, freed⟩ := ih apart.skip
      refine ⟨disk', ?_, freed.congr (among_of_zero absent turns)⟩
      rw [done, Dinode.clear_succ_of_zero absent]
    · have marked := apart.marked (ip.addrs i) ((among_of_ne_zero absent _ _).mpr (.inl rfl))
      obtain ⟨middle, first, gone⟩ := bfree_freed marked
      have same : ∀ k, i + 1 ≤ k → (ip.setAddr i 0).addrs k = ip.addrs k := fun k past =>
        update_of_ne (by omega) _ _
      obtain ⟨disk', done, freed⟩ := ih
        ((apart.skip.freed gone fun c => apart.first_ne absent).congr same)
      refine ⟨disk', ?_, gone.trans (freed.congr fun c => (among_congr same c).symm)
        (among_of_ne_zero absent turns)⟩
      simp only [first, bind, Except.bind, done, Dinode.clear_setAddr]

/-- The list of block addresses and the blocks in it. -/
def Listed (block : Nat → Block) (ip : Dinode) (c : Nat) : Prop :=
  ip.addrs NDIRECT ≠ 0 ∧
    (Among (block (ip.addrs NDIRECT)).word 0 NINDIRECT c ∨ c = ip.addrs NDIRECT)

theorem truncIndirect_freed
    (apart : ip.addrs NDIRECT ≠ 0 → Apart (disk.block (ip.addrs NDIRECT)).word 0 NINDIRECT disk)
    (marked : ip.addrs NDIRECT ≠ 0 → disk.used (ip.addrs NDIRECT) = true)
    (ne : ip.addrs NDIRECT ≠ 0 →
      ¬ Among (disk.block (ip.addrs NDIRECT)).word 0 NINDIRECT (ip.addrs NDIRECT)) :
    ∃ disk', truncIndirect ip disk = .ok (ip.setAddr NDIRECT 0, disk') ∧
      Freed (Listed disk.block ip) disk disk' := by
  unfold truncIndirect
  split_ifs with absent
  · refine ⟨disk, ?_, Freed.none fun c listed => listed.1 absent⟩
    rw [Dinode.setAddr, ← absent, update_eq_self]
  · obtain ⟨middle, entries, first⟩ := (apart absent).truncEntries
    have still : middle.used (ip.addrs NDIRECT) = true :=
      (first.used _).mpr ⟨marked absent, ne absent⟩
    obtain ⟨disk', list, second⟩ := bfree_freed still
    refine ⟨disk', ?_, first.trans second fun c => and_iff_right absent⟩
    simp only [entries, bind, Except.bind, list]

/-- The blocks of an inode. -/
def Holds (disk : Disk) (inum : Inum) (c : Nat) : Prop := ∃ place, disk.ref inum place = c ∧ c ≠ 0

/-- What `itrunc` does. -/
structure Truncated (inum : Inum) (disk : Disk) (ip' : Dinode) (disk' : Disk) : Prop where
  dinode : disk'.dinode = Function.update disk.dinode inum ip'
  fields : ip' = { disk.dinode inum with size := 0, addrs := ip'.addrs }
  empty : ∀ place, disk'.ref inum place = 0
  block : disk'.block = disk.block
  used : ∀ c, disk'.used c = true ↔ disk.used c = true ∧ ¬ disk.Holds inum c

theorem ref_direct {fbn : Nat} (direct : fbn < NDIRECT) :
    disk.ref inum (.data fbn) = (disk.dinode inum).addrs fbn := by
  simp only [ref, blockOf, if_pos direct]

theorem ref_entry {k : Nat} (range : k < NINDIRECT)
    (listed : (disk.dinode inum).addrs NDIRECT ≠ 0) :
    disk.ref inum (.data (NDIRECT + k)) =
      (disk.block ((disk.dinode inum).addrs NDIRECT)).word k := by
  simp only [ref, blockOf, if_neg (show ¬ NDIRECT + k < NDIRECT by omega),
    Nat.add_sub_cancel_left, if_pos range, if_neg listed]

/-- The blocks of an inode are those that the three parts of `itrunc` free. -/
theorem holds_iff (disk : Disk) (inum : Inum) (c : Nat) :
    disk.Holds inum c ↔ Among (disk.dinode inum).addrs 0 NDIRECT c ∨
      Listed disk.block (disk.dinode inum) c := by
  constructor
  · rintro ⟨place, rfl, assigned⟩
    cases place with
    | indirect => exact .inr ⟨assigned, .inr rfl⟩
    | data fbn =>
      by_cases direct : fbn < NDIRECT
      · rw [ref_direct direct] at assigned ⊢
        exact .inl ⟨fbn, by omega, by omega, rfl, assigned⟩
      · have listed : (disk.dinode inum).addrs NDIRECT ≠ 0 := fun absent =>
          assigned (ref_data_of_unlisted (by omega) absent)
        have range : fbn - NDIRECT < NINDIRECT := by
          by_contra out
          exact assigned (by simp only [ref, blockOf, if_neg direct, if_neg out])
        obtain ⟨k, rfl⟩ := Nat.exists_eq_add_of_le (Nat.le_of_not_lt direct)
        rw [Nat.add_sub_cancel_left] at range
        rw [ref_entry range listed] at assigned ⊢
        exact .inr ⟨listed, .inl ⟨k, by omega, by omega, rfl, assigned⟩⟩
  · rintro (⟨k, -, upper, rfl, assigned⟩ | ⟨listed, ⟨k, -, upper, rfl, assigned⟩ | rfl⟩)
    · exact ⟨.data k, ref_direct (by omega), assigned⟩
    · exact ⟨.data (NDIRECT + k), ref_entry (by omega) listed, assigned⟩
    · exact ⟨.indirect, rfl, listed⟩

section

variable (owned : disk.Owned sb)
include owned

theorem Owned.apart_direct (inum : Inum) : Apart (disk.dinode inum).addrs 0 NDIRECT disk where
  marked c among := by
    obtain ⟨k, -, upper, rfl, assigned⟩ := among
    rw [← ref_direct (by omega)] at assigned ⊢
    exact (owned.marked inum _ assigned).1
  unique k k' _ less upper assigned same := by
    rw [← ref_direct (by omega)] at assigned same
    rw [← ref_direct (by omega)] at same
    have := (owned.unique _ _ _ _ assigned same).2
    simp only [Place.data.injEq] at this
    omega

theorem Owned.apart_entries {inum : Inum} (listed : (disk.dinode inum).addrs NDIRECT ≠ 0) :
    Apart (disk.block ((disk.dinode inum).addrs NDIRECT)).word 0 NINDIRECT disk where
  marked c among := by
    obtain ⟨k, -, upper, rfl, assigned⟩ := among
    rw [← ref_entry (by omega) listed] at assigned ⊢
    exact (owned.marked inum _ assigned).1
  unique k k' _ less upper assigned same := by
    rw [← ref_entry (by omega) listed] at assigned same
    rw [← ref_entry (by omega) listed] at same
    have := (owned.unique _ _ _ _ assigned same).2
    simp only [Place.data.injEq] at this
    omega

/-- The list of block addresses is neither a direct block nor in itself, and the blocks in it are
not direct. -/
theorem Owned.listed_apart {inum : Inum} {c : Nat}
    (listed : Listed disk.block (disk.dinode inum) c) :
    ¬ Among (disk.dinode inum).addrs 0 NDIRECT c := by
  rintro ⟨k, -, upper, rfl, assigned⟩
  have direct : disk.ref inum (.data k) = (disk.dinode inum).addrs k := ref_direct (by omega)
  rw [← direct] at assigned listed
  obtain ⟨made, ⟨k', -, range, same, -⟩ | same⟩ := listed
  · rw [← ref_entry (by omega) made] at same
    have := (owned.unique _ _ _ _ assigned same.symm).2
    simp only [Place.data.injEq] at this
    omega
  · have places : Place.data k = .indirect := (owned.unique _ _ inum .indirect assigned same).2
    cases places

theorem Owned.itrunc (inum : Inum) :
    ∃ ip' disk', itrunc inum (disk.dinode inum) disk = .ok (ip', disk') ∧
      Truncated inum disk ip' disk' := by
  obtain ⟨first, direct, freed⟩ := (owned.apart_direct inum).truncDirect
  generalize cleared : (disk.dinode inum).clear 0 NDIRECT = ip at direct
  have list : ip.addrs NDIRECT = (disk.dinode inum).addrs NDIRECT := by
    rw [← cleared, Dinode.clear_addrs, if_neg (by omega)]
  have listed : Listed first.block ip = Listed disk.block (disk.dinode inum) := by
    unfold Listed
    rw [list, freed.block]
  have indirect : ∃ disk', truncIndirect ip first = .ok (ip.setAddr NDIRECT 0, disk') ∧
      Freed (Listed first.block ip) first disk' := by
    apply truncIndirect_freed
    · rw [list, freed.block]
      intro made
      exact (owned.apart_entries made).freed freed fun c among =>
        owned.listed_apart ⟨made, .inl among⟩
    · rw [list]
      intro made
      exact (freed.used _).mpr ⟨(owned.marked inum .indirect made).1,
        owned.listed_apart ⟨made, .inr rfl⟩⟩
    · rw [list, freed.block]
      rintro made ⟨k, -, range, same, -⟩
      rw [← ref_entry (by omega) made] at same
      cases (owned.unique _ _ inum .indirect (by rwa [same]) same).2
  obtain ⟨last, entries, more⟩ := indirect
  rw [listed] at more
  have total := freed.trans more (holds_iff disk inum)
  refine ⟨{ ip.setAddr NDIRECT 0 with size := 0 },
    last.iupdate inum { ip.setAddr NDIRECT 0 with size := 0 }, ?_, ?_, ?_, ?_,
    total.block, total.used⟩
  · simp only [Disk.itrunc, direct, bind, Except.bind, entries]
  · simp only [iupdate, total.dinode]
  · rw [← cleared]
    rfl
  · have zero : ∀ k, k ≤ NDIRECT → (ip.setAddr NDIRECT 0).addrs k = 0 := by
      intro k range
      rw [Dinode.setAddr_addrs, ← cleared]
      by_cases same : k = NDIRECT
      · rw [same, update_self]
      · rw [update_of_ne same, Dinode.clear_addrs, if_pos ⟨by omega, by omega⟩]
    intro place
    cases place with
    | indirect => exact ref_iupdate_indirect.trans (zero NDIRECT (Nat.le_refl _))
    | data fbn =>
      rw [ref_iupdate_data]
      unfold blockOf
      split_ifs with below inside absent
      · exact zero fbn (by omega)
      · rfl
      · exact (absent (zero NDIRECT (Nat.le_refl _))).elim
      · rfl

end

section Truncated

variable {ip' : Dinode} (truncated : Truncated inum disk ip' disk')

include truncated

theorem Truncated.ref_of_ne {other : Inum} (ne : other ≠ inum) (here : Place) :
    disk'.ref other here = disk.ref other here := by
  have dinode : disk'.dinode other = disk.dinode other := by
    rw [truncated.dinode, update_of_ne ne]
  cases here with
  | indirect => simp only [ref, dinode]
  | data fbn => simp only [ref, dinode, truncated.block]

theorem Truncated.size : (disk'.dinode inum).size = 0 := by
  rw [truncated.dinode, update_self, truncated.fields]

theorem Truncated.sound (sound : disk.Sound sb) : disk'.Sound sb where
  reserved := (truncated.used 0).mpr ⟨sound.reserved, fun ⟨_, _, assigned⟩ => assigned rfl⟩
  marked other here assigned := by
    have ne : other ≠ inum := by
      rintro rfl
      exact assigned (truncated.empty here)
    rw [truncated.ref_of_ne ne] at assigned ⊢
    obtain ⟨used, inside⟩ := sound.marked other here assigned
    refine ⟨(truncated.used _).mpr ⟨used, ?_⟩, inside⟩
    rintro ⟨place, same, -⟩
    exact ne (sound.unique _ _ _ _ assigned same.symm).1
  unique other here other' here' assigned same := by
    have ne : other ≠ inum := by
      rintro rfl
      exact assigned (truncated.empty here)
    have different' : other' ≠ inum := by
      rintro rfl
      exact assigned (same.trans (truncated.empty here'))
    rw [truncated.ref_of_ne ne] at assigned same
    rw [truncated.ref_of_ne different'] at same
    exact sound.unique _ _ _ _ assigned same
  dense other fbn inside := by
    have ne : other ≠ inum := by
      rintro rfl
      rw [truncated.size] at inside
      omega
    rw [truncated.dinode, update_of_ne ne] at inside
    rw [truncated.ref_of_ne ne]
    exact sound.dense other fbn inside
  size_le other := by
    by_cases same : other = inum
    · rw [same, truncated.size]
      exact Nat.zero_le _
    · rw [truncated.dinode, update_of_ne same]
      exact sound.size_le other

theorem Truncated.contents : disk'.contents = update disk.contents inum [] := by
  funext other
  by_cases same : other = inum
  · rw [same, update_self, ← length_eq_zero_iff, contents_length, truncated.size]
  · rw [update_of_ne same]
    refine contents_congr ?_ fun pos _ => ?_
    · rw [truncated.dinode, update_of_ne same]
    · simp only [byteAt, truncated.ref_of_ne same, truncated.block]

end Truncated

/-! ## Sequences of calls -/

/-- A call on the disk.  Between calls the copy of an inode in memory and the one on disk agree. -/
def access (sb : Superblock) (disk : Disk) : Access → Except Panic (Reply × Disk)
  | .writei inum src off => do
    let (count, ip, disk) ← disk.writei sb inum (disk.dinode inum) src src.length off
    .ok (.count count, disk.iupdate inum ip)
  | .readi inum off n => do
    let (bytes, ip, disk) ← disk.readi sb (disk.dinode inum) off n
    .ok (.bytes bytes, disk.iupdate inum ip)
  | .itrunc inum => do
    let (ip, disk) ← disk.itrunc inum (disk.dinode inum)
    .ok (.done, disk.iupdate inum ip)

/-- Calls on the disk, one after another. -/
def run (sb : Superblock) : Disk → List Access → Except Panic (List Reply × Disk)
  | disk, [] => .ok ([], disk)
  | disk, call :: calls => do
    let (reply, disk) ← disk.access sb call
    let (replies, disk) ← run sb disk calls
    .ok (reply :: replies, disk)

/-- There are enough free blocks for a call. -/
def Affords (sb : Superblock) (disk : Disk) : Access → Prop
  | .writei inum src off => disk.Writable inum off src.length →
      disk.needs inum (off / BSIZE) (span off src.length) ≤ disk.free sb
  | .readi _ _ _ => True
  | .itrunc _ => True

/-- There are enough free blocks for each of the calls when its turn comes. -/
def Affordable (sb : Superblock) : Disk → List Access → Prop
  | _, [] => True
  | disk, call :: calls => disk.Affords sb call ∧
      ∀ reply disk', disk.access sb call = .ok (reply, disk') → Affordable sb disk' calls

/-- One call acts on the files as it acts on the lists of bytes. -/
theorem Sound.access (sound : disk.Sound sb) {call : Access} (affords : disk.Affords sb call) :
    ∃ disk', disk.access sb call = .ok ((Files.access disk.contents call).1, disk') ∧
      disk'.Sound sb ∧ disk'.contents = (Files.access disk.contents call).2 := by
  cases call with
  | writei inum src off =>
    simp only [Files.access, contents_length]
    split_ifs with writable
    · obtain ⟨disk', done, sound', written⟩ := sound.writei_all writable (affords writable)
      refine ⟨disk', ?_, sound', written⟩
      simp only [Disk.access, done, bind, Except.bind, iupdate_self]
    · refine ⟨disk, ?_, sound, rfl⟩
      simp only [Disk.access, writei_rejected writable, bind, Except.bind, iupdate_self]
  | readi inum off n =>
    refine ⟨disk, ?_, sound, rfl⟩
    simp only [Disk.access, sound.readi, bind, Except.bind, iupdate_self, Files.access,
      contents_length]
  | itrunc inum =>
    obtain ⟨ip', disk', done, truncated⟩ := sound.toOwned.itrunc inum
    have stored : disk'.dinode inum = ip' := by rw [truncated.dinode, update_self]
    refine ⟨disk', ?_, truncated.sound sound, truncated.contents⟩
    simp only [Disk.access, done, bind, Except.bind, ← stored, iupdate_self, Files.access]

/-- For every sequence of calls on every disk, with enough free blocks, each file is a list of
bytes: the calls succeed, and reply and change the lists as `Files.run` says. -/
theorem Sound.run_files (sound : disk.Sound sb) (calls : List Access)
    (affordable : disk.Affordable sb calls) :
    ∃ disk', disk.run sb calls = .ok ((Files.run disk.contents calls).1, disk') ∧
      disk'.Sound sb ∧ disk'.contents = (Files.run disk.contents calls).2 := by
  induction calls generalizing disk with
  | nil => exact ⟨disk, rfl, sound, rfl⟩
  | cons call calls ih =>
    obtain ⟨affords, rest⟩ := affordable
    obtain ⟨middle, first, sound', files⟩ := sound.access affords
    obtain ⟨last, others, sound'', files'⟩ := ih sound' (rest _ _ first)
    refine ⟨last, ?_, sound'', ?_⟩
    · simp only [Disk.run, first, bind, Except.bind, others, files, Files.run]
    · rw [files', files]
      rfl

/-- A disk of ten blocks without files, of which six are not data blocks. -/
def blank : Disk where
  dinode := fun _ => {}
  used := fun b => decide (b < 6)
  block := fun _ _ => 0

/-- Its super block. -/
def blankSuper : Superblock := ⟨10, 4, 8, by decide, by decide⟩

theorem ref_blank (inum : Inum) (place : Place) : blank.ref inum place = 0 := by
  cases place with
  | indirect => rfl
  | data fbn =>
    simp only [ref, blockOf, blank]
    split_ifs <;> rfl

theorem sound_blank : blank.Sound blankSuper where
  reserved := rfl
  marked inum place assigned := (assigned (ref_blank inum place)).elim
  unique inum place _ _ assigned := (assigned (ref_blank inum place)).elim
  dense _ _ inside := (Nat.not_lt_zero _ inside).elim
  size_le _ := Nat.zero_le _

/-- Two bytes are written to a file and read back from another offset. -/
theorem Sound.run_files_two : ∃ disk',
    blank.run blankSuper [.writei 2 [7, 8] 0, .readi 2 1 5, .readi 3 0 5] =
      .ok ([.count (some 2), .bytes [8], .bytes []], disk') ∧ disk'.contents 2 = [7, 8] := by
  have affordable : blank.Affordable blankSuper
      [.writei 2 [7, 8] 0, .readi 2 1 5, .readi 3 0 5] :=
    ⟨fun _ => by decide, fun _ _ _ => ⟨trivial, fun _ _ _ => ⟨trivial, fun _ _ _ => trivial⟩⟩⟩
  obtain ⟨disk', outcome, -, files⟩ := sound_blank.run_files _ affordable
  exact ⟨disk', outcome, by rw [files]; rfl⟩

end Disk

end Xv6.Fs
