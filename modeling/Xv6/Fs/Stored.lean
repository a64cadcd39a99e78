import Xv6.Fs.Dir

/-!
# Reading what is stored

A file of which the first bytes are known, all in allocated blocks: `readi` returns them, and
`dirlookup` finds the first entry of a name among them, without a change to the inode or the disk.
-/

namespace Xv6.Fs

open Disk Dirent List

/-- The block of a file at `fbn`, or 0. -/
def blockOf (block : Nat → Block) (ip : Dinode) (fbn : Nat) : Nat :=
  if fbn < NDIRECT then ip.addrs fbn
  else if fbn - NDIRECT < NINDIRECT then
    if ip.addrs NDIRECT = 0 then 0 else (block (ip.addrs NDIRECT)).word (fbn - NDIRECT)
  else 0

/-- The file starts with `bytes`. -/
structure Stores (block : Nat → Block) (ip : Dinode) (bytes : List UInt8) : Prop where
  length_le : bytes.length ≤ ip.size
  size_lt : ip.size < 2 ^ 32
  block_ne_zero : ∀ fbn, fbn * BSIZE < bytes.length → blockOf block ip fbn ≠ 0
  byte : ∀ off < bytes.length,
    block (blockOf block ip (off / BSIZE)) (off % BSIZE) = bytes.getD off 0

namespace Stores

variable {sb : Superblock} {disk : Disk} {ip : Dinode} {bytes : List UInt8}

theorem bmap_eq {fbn : Nat} (allocated : blockOf disk.block ip fbn ≠ 0) :
    bmap sb ip fbn disk = .ok (blockOf disk.block ip fbn, ip, disk) := by
  unfold blockOf at allocated ⊢
  unfold bmap
  split_ifs at allocated ⊢ with direct inside absent
  · simp only [addrBlock, if_neg allocated]
  · exact (allocated rfl).elim
  · simp only [addrBlock, if_neg absent, entryBlock, if_neg allocated]
  · exact (allocated rfl).elim

theorem read_eq {block : Nat → Block} (stores : Stores block ip bytes) {off m : Nat}
    (inside : off + m ≤ bytes.length) (oneBlock : off % BSIZE + m ≤ BSIZE) :
    (block (blockOf block ip (off / BSIZE))).read (off % BSIZE) m = (bytes.drop off).take m := by
  refine ext_getElem (by simp [Block.read]; omega) fun j before after => ?_
  have small : j < m := by simpa [Block.read] using before
  have byte := stores.byte (off + j) (by omega)
  rw [show (off + j) / BSIZE = off / BSIZE by simp only [BSIZE] at *; omega,
    show (off + j) % BSIZE = off % BSIZE + j by simp only [BSIZE] at *; omega,
    getD_eq_getElem _ _ (by omega)] at byte
  simpa [Block.read] using byte

theorem readiLoop_eq (stores : Stores disk.block ip bytes) {turns off n : Nat}
    (enough : n ≤ turns) (inside : off + n ≤ bytes.length) :
    readiLoop sb turns off n ip disk = .ok ((bytes.drop off).take n, ip, disk) := by
  induction turns generalizing off n with
  | zero =>
    obtain rfl : n = 0 := by omega
    simp [readiLoop]
  | succ turns ih =>
    by_cases done : n = 0
    · simp [readiLoop, done]
    · have start : off / BSIZE * BSIZE < bytes.length := by
        have := Nat.div_mul_le_self off BSIZE
        omega
      have allocated := stores.block_ne_zero _ start
      have below : off % BSIZE < BSIZE := Nat.mod_lt _ (by decide)
      generalize size : min n (BSIZE - off % BSIZE) = m
      have positive : 0 < m := by omega
      have rest : readiLoop sb turns (off + m) (n - m) ip disk =
          .ok ((bytes.drop (off + m)).take (n - m), ip, disk) := ih (by omega) (by omega)
      have first : (disk.block (blockOf disk.block ip (off / BSIZE))).read (off % BSIZE) m =
          (bytes.drop off).take m := stores.read_eq (by omega) (by omega)
      simp only [readiLoop, if_neg done, bmap_eq allocated, bind, Except.bind,
        if_neg allocated, size, rest, first]
      have split : (bytes.drop off).take n =
          (bytes.drop off).take m ++ (bytes.drop (off + m)).take (n - m) := by
        rw [← drop_drop, ← take_add, Nat.add_sub_cancel' (by omega)]
      rw [split]

theorem readi_eq (stores : Stores disk.block ip bytes) {off n : Nat}
    (inside : off + n ≤ bytes.length) :
    readi sb ip off n disk = .ok ((bytes.drop off).take n, ip, disk) := by
  have length_le := stores.length_le
  have size_lt := stores.size_lt
  have allowed : ¬ (ip.size < off ∨ Overflows off n) := by
    unfold Overflows
    omega
  have whole : min n (ip.size - off) = n := by omega
  simp only [readi, if_neg allowed, whole]
  exact stores.readiLoop_eq (Nat.le_refl n) inside

/-! ## Directories -/

theorem length_strncpy (t : List UInt8) (n : Nat) : (strncpy t n).length = n := by
  induction n generalizing t with
  | zero => rfl
  | succ n ih =>
    unfold strncpy
    split_ifs
    · simp
    · simp [ih]

theorem length_encode (inum : Inum) (name : List UInt8) :
    (encode inum name).length = DIRENT := by
  simp [encode, length_strncpy]

theorem decode_encode (inum : Inum) (name : List UInt8) :
    decode (encode inum name) = ⟨inum % 65536, strncpy name DIRSIZ⟩ := by
  simp only [decode, encode, getD_cons_zero, getD_cons_succ,
    UInt8.toNat_ofNat', drop_succ_cons, drop_zero, Dirent.mk.injEq, and_true]
  omega

theorem strncpy_succ (t : List UInt8) (n : Nat) : strncpy t (n + 1) =
    t.headD 0 :: if t.headD 0 = 0 then replicate n 0 else strncpy t.tail n := by
  rw [strncpy]
  split_ifs with ended
  · rw [ended, replicate_succ]
  · rfl

/-- `strncmp` tells apart what `strncpy` stores differently. -/
theorem strncmp_strncpy_eq_zero (s t : List UInt8) (n : Nat) :
    strncmp s (strncpy t n) n = 0 ↔ strncpy s n = strncpy t n := by
  induction n generalizing s t with
  | zero => simp [strncmp, strncpy]
  | succ n ih =>
    rw [strncpy_succ s, strncpy_succ t, strncmp, headD_cons, tail_cons, cons.injEq]
    by_cases same : s.headD 0 = t.headD 0
    · by_cases ended : t.headD 0 = 0
      · rw [if_neg (fun more => more.1 (same.trans ended))]
        simp only [same, ended, if_true, Int.sub_self, and_self]
      · rw [if_pos ⟨fun zero => ended (same ▸ zero), same⟩, if_neg ended, ih, same,
          if_neg ended, eq_self_iff_true, true_and]
    · have differ : ((s.headD 0).toNat : Int) - (t.headD 0).toNat ≠ 0 := by
        intro equal
        apply same
        apply UInt8.toNat_inj.mp
        omega
      rw [if_neg (fun more => same more.2)]
      exact ⟨fun equal => (differ equal).elim, fun equal => (same equal.1).elim⟩

theorem strncpy_strncpy (t : List UInt8) (n : Nat) : strncpy (strncpy t n) n = strncpy t n := by
  induction n generalizing t with
  | zero => rfl
  | succ n ih =>
    rw [strncpy_succ t, strncpy_succ, headD_cons, tail_cons]
    split_ifs with ended
    · rfl
    · rw [ih]

/-- The bytes of a directory with these entries. -/
def direntsBytes (entries : List (Inum × List UInt8)) : List UInt8 :=
  entries.flatMap fun entry => Dirent.encode entry.1 entry.2

theorem length_direntsBytes (entries : List (Inum × List UInt8)) :
    (direntsBytes entries).length = DIRENT * entries.length := by
  induction entries with
  | nil => rfl
  | cons entry entries ih =>
    rw [direntsBytes, flatMap_cons, length_append, length_encode, length_cons]
    rw [direntsBytes] at ih
    rw [ih, Nat.mul_succ, Nat.add_comm]

theorem direntsBytes_slice {entries : List (Inum × List UInt8)} {i : Nat}
    (inside : i < entries.length) :
    ((direntsBytes entries).drop (DIRENT * i)).take DIRENT =
      encode entries[i].1 entries[i].2 := by
  induction entries generalizing i with
  | nil => simp at inside
  | cons entry entries ih =>
    have length := length_encode entry.1 entry.2
    rw [direntsBytes, flatMap_cons]
    cases i with
    | zero =>
      rw [Nat.mul_zero, drop_zero, take_append_of_le_length (by omega), ← length,
        take_length]
      rfl
    | succ i =>
      have rest := ih (Nat.lt_of_succ_lt_succ inside)
      rw [Nat.mul_succ, Nat.add_comm, ← drop_drop, ← length, drop_left, length]
      exact rest

/-- The entry is the one that `dirlookup` looks for. -/
def Matches (name : List UInt8) (entry : Inum × List UInt8) : Prop :=
  entry.1 % 65536 ≠ 0 ∧ strncpy name DIRSIZ = strncpy entry.2 DIRSIZ

variable {entries : List (Inum × List UInt8)} {name : List UInt8} {i k : Nat}

variable (stores : Stores disk.block ip (direntsBytes entries))
include stores

theorem readDirent_eq (inside : i < entries.length) :
    readDirent sb ip (DIRENT * i) disk =
      .ok (⟨entries[i].1 % 65536, strncpy entries[i].2 DIRSIZ⟩, ip, disk) := by
  have within : DIRENT * i + DIRENT ≤ (direntsBytes entries).length := by
    rw [length_direntsBytes, ← Nat.mul_succ]
    exact Nat.mul_le_mul_left _ inside
  simp only [readDirent, stores.readi_eq within, direntsBytes_slice inside, bind,
    Except.bind, length_encode, decode_encode, if_true]

theorem dirlookupLoop_eq {turns : Nat} (inside : k < entries.length)
    (found : Matches name entries[k]) (others : ∀ j (earlier : j < k), ¬ Matches name entries[j])
    (start : i ≤ k) (enough : k < i + turns) :
    dirlookupLoop sb name turns (DIRENT * i) ip disk =
      .ok (some (entries[k].1 % 65536, DIRENT * k), ip, disk) := by
  induction turns generalizing i with
  | zero => omega
  | succ turns ih =>
    have length_le := stores.length_le
    rw [length_direntsBytes] at length_le
    have isEntry : i < entries.length := by omega
    have more : ¬ ip.size ≤ DIRENT * i := by
      have : DIRENT * i < DIRENT * entries.length := Nat.mul_lt_mul_of_pos_left isEntry (by decide)
      omega
    have read : readDirent sb ip (DIRENT * i) disk = _ :=
      stores.readDirent_eq isEntry
    simp only [dirlookupLoop, if_neg more, read, bind, Except.bind, namecmp,
      strncmp_strncpy_eq_zero]
    obtain rfl | here := eq_or_ne i k
    · exact if_pos found
    · have earlier : i < k := by omega
      have next : dirlookupLoop sb name turns (DIRENT * (i + 1)) ip disk = _ :=
        ih (by omega) (by omega)
      exact (if_neg (others i earlier)).trans next

/-- `dirlookup` finds the first entry of a name. -/
theorem dirlookup_eq (isDir : ip.type = .dir) (inside : k < entries.length)
    (found : Matches name entries[k]) (others : ∀ j (earlier : j < k), ¬ Matches name entries[j]) :
    dirlookup sb ip name disk =
      .ok (some (entries[k].1 % 65536, DIRENT * k), ip, disk) := by
  have length_le := stores.length_le
  rw [length_direntsBytes] at length_le
  have enough : k < ip.size / DIRENT + 1 := by
    have := Nat.le_div_iff_mul_le (by decide : 0 < DIRENT) |>.mpr
      (Nat.mul_comm DIRENT _ ▸ length_le)
    omega
  simp only [dirlookup, if_pos isDir]
  exact stores.dirlookupLoop_eq inside found others (Nat.zero_le k) (by omega)

end Stores

end Xv6.Fs
