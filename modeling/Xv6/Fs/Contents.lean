import Xv6.Fs.Owned
import Xv6.Lib.Interval
import Xv6.Lib.Result

/-!
# What `writei` does to a file

The loop of `writei` in `kernel/fs.c` writes block by block until all bytes are written, no block
can be allocated, or the source cannot be read.  In the last case the readable bytes of the block
at hand have reached the buffer although they are not counted.
-/

namespace Xv6.Fs.Disk

open List

variable {sb : Superblock} {disk disk' : Disk} {inum : Inum} {ip : Dinode}
variable {src : List UInt8} {limit off tot : Nat} {bytes : List UInt8}

/-! ## How many blocks a write needs -/

/-- The number of blocks that a range of bytes overlaps. -/
def span (off n : Nat) : Nat := if n = 0 then 0 else (off + n - 1) / BSIZE + 1 - off / BSIZE

/-- The number of blocks that have to be allocated for `count` blocks of a file from `fbn` on. -/
def needs (disk : Disk) (inum : Inum) (fbn count : Nat) : Nat :=
  ((Finset.Ico fbn (fbn + count)).filter fun n => disk.ref inum (.data n) = 0).card +
    if 0 < count ∧ NDIRECT < fbn + count then disk.lacking inum .indirect else 0

/-- The first block of a range and then the others. -/
theorem Mapped.needs_succ {fbn count addr : Nat} (mapped : Mapped sb inum fbn disk addr disk')
    (found : addr ≠ 0) : disk.needs inum fbn (count + 1) =
      disk.bmapCost inum fbn + disk'.needs inum (fbn + 1) count := by
  have blocks : ((Finset.Ico fbn (fbn + (count + 1))).filter
      fun n => disk.ref inum (.data n) = 0).card = disk.lacking inum (.data fbn) +
        ((Finset.Ico (fbn + 1) (fbn + 1 + count)).filter
          fun n => disk'.ref inum (.data n) = 0).card := by
    exact Interval.card_filter_succ fun n after => by rw [mapped.others n (by omega)]
  unfold needs bmapCost
  rw [blocks]
  by_cases direct : fbn < NDIRECT
  · rw [lacking, lacking, lacking, mapped.direct direct]
    split_ifs <;> omega
  · have listed := mapped.listed found (by omega)
    rw [if_pos (by omega), if_neg direct, lacking, lacking, lacking, if_neg listed, ite_self]
    omega

theorem card_missing_succ (disk : Disk) (inum : Inum) (fbn count : Nat) :
    ((Finset.Ico fbn (fbn + (count + 1))).filter fun n => disk.ref inum (.data n) = 0).card =
      disk.lacking inum (.data fbn) + ((Finset.Ico (fbn + 1) (fbn + 1 + count)).filter
        fun n => disk.ref inum (.data n) = 0).card :=
  Interval.card_filter_succ fun _ _ => Iff.rfl

/-- The first block of a range alone. -/
theorem bmapCost_le_needs (disk : Disk) (inum : Inum) (fbn count : Nat) :
    disk.bmapCost inum fbn ≤ disk.needs inum fbn (count + 1) := by
  unfold needs bmapCost
  rw [card_missing_succ]
  split_ifs <;> omega

theorem needs_tail_le (disk : Disk) (inum : Inum) (fbn count : Nat) :
    disk.needs inum (fbn + 1) count ≤ disk.needs inum fbn (count + 1) := by
  unfold needs
  rw [card_missing_succ]
  split_ifs <;> omega

theorem needs_zero (disk : Disk) (inum : Inum) (fbn : Nat) : disk.needs inum fbn 0 = 0 := by
  simp [needs]

theorem span_succ {n : Nat} (some : n ≠ 0) :
    span off n = span (off + min n (BSIZE - off % BSIZE))
      (n - min n (BSIZE - off % BSIZE)) + 1 := by
  unfold span
  simp only [BSIZE]
  split_ifs <;> omega

/-! ## The loop -/

/-- A write that ends before the end of its block. -/
theorem span_within {m : Nat} (within : 0 < m ∧ off % BSIZE + m < BSIZE) : span off m = 1 := by
  unfold span
  simp only [BSIZE] at *
  split_ifs <;> omega

theorem add_div_within {m : Nat} (within : off % BSIZE + m < BSIZE) :
    (off + m) / BSIZE = off / BSIZE := by
  simp only [BSIZE] at *
  omega

/-- A write that goes on in the same block. -/
theorem span_add_within {m n : Nat} (within : off % BSIZE + m < BSIZE) (some : n ≠ 0) :
    span (off + m) n = span off (m + n) := by
  unfold span
  rw [add_div_within within, if_neg some, if_neg (by omega), Nat.add_assoc]

/-- Why the loop ends, with the number of bytes that were copied but not counted. -/
inductive Stop (inum : Inum) (src : List UInt8) (limit : Nat) (disk : Disk) (tot off : Nat) :
    (extra : Nat) → Prop
  | done (all : tot = src.length) : Stop inum src limit disk tot off 0
  | full (missing : disk.ref inum (.data (off / BSIZE)) = 0) : Stop inum src limit disk tot off 0
  | fault {extra : Nat} (short : limit < src.length) (upTo : tot + extra = limit)
      (block : off % BSIZE + extra < BSIZE) : Stop inum src limit disk tot off extra

/-- The loop of `writei` from `tot` on. -/
structure Wrote (sb : Superblock) (inum : Inum) (src : List UInt8) (limit off tot : Nat)
    (disk : Disk) (tot' off' : Nat) (disk' : Disk) : Prop where
  owned : disk'.Owned sb
  le : tot ≤ tot'
  le_length : tot' ≤ src.length
  le_limit : tot' ≤ limit
  off_eq : off' = off + (tot' - tot)
  stop : ∃ extra, Stop inum src limit disk' tot' off' extra ∧
    Rewrites inum off ((src.drop tot).take (tot' - tot + extra)) disk disk'
  aligned : tot' = tot ∨ off' % BSIZE = 0 ∨ tot' = src.length
  enough : disk.needs inum (off / BSIZE) (span off (src.length - tot)) ≤ disk.free sb →
    src.length ≤ limit → tot' = src.length
  grown : tot' = src.length → ∀ n, disk'.needs inum (off' / BSIZE) (span off' n) ≤ disk'.free sb →
    disk.needs inum (off / BSIZE) (span off (src.length - tot + n)) ≤ disk.free sb

/-- Nothing is left to write. -/
theorem Wrote.done (owned : disk.Owned sb) (all : tot = src.length) (readable : tot ≤ limit) :
    Wrote sb inum src limit off tot disk tot off disk where
  owned := owned
  le := le_rfl
  le_length := all.le
  le_limit := readable
  off_eq := by omega
  stop := by
    refine ⟨0, .done all, ?_⟩
    rw [Nat.sub_self, Nat.add_zero, take_zero]
    exact .refl inum off disk
  aligned := .inl rfl
  enough := fun _ _ => all
  grown _ n free := by rwa [all, Nat.sub_self, Nat.zero_add]

/-- No block can be allocated. -/
theorem Wrote.full {addr : Nat} (mapped : Mapped sb inum (off / BSIZE) disk addr disk')
    (start : tot < src.length) (readable : tot ≤ limit) (missing : addr = 0) :
    Wrote sb inum src limit off tot disk tot off disk' where
  owned := mapped.owned
  le := le_rfl
  le_length := start.le
  le_limit := readable
  off_eq := by omega
  stop := by
    refine ⟨0, .full (mapped.found.trans missing), ?_⟩
    rw [Nat.sub_self, Nat.add_zero, take_zero]
    exact mapped.rewrites off
  aligned := .inl rfl
  enough := by
    intro enough _
    rw [span_succ (by omega)] at enough
    exact (mapped.enough ((bmapCost_le_needs ..).trans enough) missing).elim
  grown all := by omega

section Chunk

variable {addr m : Nat} (mapped : Mapped sb inum (off / BSIZE) disk addr disk') (found : addr ≠ 0)

/-- The disk after some bytes of a chunk have been copied to its block. -/
def copyTo (disk : Disk) (addr off : Nat) (bytes : List UInt8) : Disk :=
  disk.setBlock addr ((disk.block addr).write (off % BSIZE) bytes)

include mapped found

theorem Mapped.copyTo {bytes : List UInt8} (fits : off % BSIZE + bytes.length ≤ BSIZE) :
    (copyTo disk' addr off bytes).Owned sb ∧
      Rewrites inum off bytes disk (copyTo disk' addr off bytes) := by
  have owned := mapped.owned
  have ref := mapped.found
  subst ref
  have written := (mapped.rewrites off).trans (owned.write found fits)
  exact ⟨owned.setBlock found _, written⟩

variable (size : m = min (src.length - tot) (BSIZE - off % BSIZE))
include size

/-- The source ends in this chunk. -/
theorem Mapped.fault (start : tot < src.length) (readable : tot ≤ limit) (short : limit < tot + m) :
    Wrote sb inum src limit off tot disk tot off
      (Disk.copyTo disk' addr off ((src.drop tot).take (limit - tot))) := by
  have length : ((src.drop tot).take (limit - tot)).length = limit - tot := by
    rw [length_take, length_drop]
    omega
  obtain ⟨owned, rewrites⟩ := mapped.copyTo found
    (show off % BSIZE + ((src.drop tot).take (limit - tot)).length ≤ BSIZE by omega)
  refine ⟨owned, le_rfl, start.le, readable, by omega, ?_, .inl rfl, fun _ _ => by omega,
    fun all => by omega⟩
  refine ⟨limit - tot, .fault (by omega) (by omega) (by omega), ?_⟩
  rwa [Nat.sub_self, Nat.zero_add]

/-- A chunk is written, and then the rest. -/
theorem Mapped.chunk {last : Disk} {tot' off' : Nat} (start : tot < src.length)
    (rest : Wrote sb inum src limit (off + m) (tot + m)
      (Disk.copyTo disk' addr off ((src.drop tot).take m)) tot' off' last) :
    Wrote sb inum src limit off tot disk tot' off' last := by
  have length : ((src.drop tot).take m).length = m := by
    rw [length_take, length_drop]
    omega
  have lower : off % BSIZE < BSIZE := Nat.mod_lt _ (by decide)
  obtain ⟨-, rewrites⟩ := mapped.copyTo found
    (show off % BSIZE + ((src.drop tot).take m).length ≤ BSIZE by omega)
  have le := rest.le
  have off_eq := rest.off_eq
  have supply := mapped.supply found
  have same : (Disk.copyTo disk' addr off ((src.drop tot).take m)).free sb = disk'.free sb := rfl
  have needs : ∀ fbn count, (Disk.copyTo disk' addr off ((src.drop tot).take m)).needs inum fbn
      count = disk'.needs inum fbn count := by
    have ref := mapped.found
    subst ref
    simp [Disk.copyTo, needs, lacking, mapped.owned.ref_setBlock found]
  refine ⟨rest.owned, by omega, rest.le_length, rest.le_limit, by omega, ?_, ?_, ?_, ?_⟩
  · obtain ⟨extra, stop, more⟩ := rest.stop
    refine ⟨extra, stop, ?_⟩
    rw [show tot' - tot + extra = m + (tot' - (tot + m) + extra) by omega, take_add,
      drop_drop]
    apply rewrites.trans
    rwa [length]
  · obtain first | others := rest.aligned
    · by_cases whole : m = src.length - tot
      · exact .inr (.inr (by omega))
      · refine .inr (.inl ?_)
        simp only [BSIZE] at *
        omega
    · exact .inr others
  · intro enough all
    apply rest.enough _ all
    rw [span_succ (by omega), ← size, mapped.needs_succ found] at enough
    by_cases finished : src.length - (tot + m) = 0
    · rw [finished, span, if_pos rfl, needs_zero]
      exact Nat.zero_le _
    · have next : (off + m) / BSIZE = off / BSIZE + 1 := by
        simp only [BSIZE] at *
        omega
      rw [needs, next, same, show src.length - (tot + m) = src.length - tot - m by omega]
      omega
  · intro all n free
    have more := rest.grown all n free
    rw [needs, same] at more
    by_cases whole : m = BSIZE - off % BSIZE
    · have next : (off + m) / BSIZE = off / BSIZE + 1 := by
        simp only [BSIZE] at *
        omega
      rw [span_succ (by omega), show min (src.length - tot + n) (BSIZE - off % BSIZE) = m by omega,
        mapped.needs_succ found, ← supply]
      rw [next, show src.length - (tot + m) + n = src.length - tot + n - m by omega] at more
      omega
    · obtain ⟨count, blocks⟩ : ∃ count, span off (m + n) = count + 1 := ⟨_, span_succ (by omega)⟩
      rw [show src.length - tot + n = m + n by omega, blocks, mapped.needs_succ found, ← supply]
      rw [show src.length - (tot + m) + n = n by omega] at more
      have tail : disk'.needs inum (off / BSIZE + 1) count ≤ disk'.free sb := by
        by_cases none : n = 0
        · rw [none, Nat.add_zero, span_within (by omega)] at blocks
          rw [show count = 0 by omega, needs_zero]
          exact Nat.zero_le _
        · rw [span_add_within (by omega) none, blocks, add_div_within (by omega)] at more
          exact (needs_tail_le ..).trans more
      omega

end Chunk

theorem Owned.writeiLoop {turns : Nat} (owned : (disk.iupdate inum ip).Owned sb)
    (start : tot ≤ src.length) (readable : tot ≤ limit) (enough : src.length - tot ≤ turns)
    (fits : off + (src.length - tot) ≤ MAXFILE * BSIZE) :
    Returns (fun (tot', off', ip', disk') =>
        Wrote sb inum src limit off tot (disk.iupdate inum ip) tot' off' (disk'.iupdate inum ip'))
      (writeiLoop sb src limit turns off tot ip disk) := by
  induction turns generalizing off tot ip disk with
  | zero => exact .pure (.done owned (by omega) readable)
  | succ turns ih =>
    rw [writeiLoop]
    by_cases finished : src.length ≤ tot
    · rw [if_pos finished]
      exact .pure (.done owned (by omega) readable)
    · rw [if_neg finished]
      have below : off / BSIZE < MAXFILE := by
        simp only [MAXFILE, NDIRECT, NINDIRECT, BSIZE] at *
        omega
      obtain ⟨addr, ip1, disk1, map, mapped⟩ := owned.bmap below
      rw [map]
      change Returns _ (if addr = 0 then _ else _)
      by_cases missing : addr = 0
      · rw [if_pos missing]
        exact .pure (.full mapped (by omega) readable missing)
      · rw [if_neg missing]
        generalize size : min (src.length - tot) (BSIZE - off % BSIZE) = m
        have lower : off % BSIZE < BSIZE := Nat.mod_lt _ (by decide)
        by_cases copied : tot + m ≤ limit
        · rw [if_pos copied, if_pos copied]
          have start' : tot + m ≤ src.length := by omega
          have next : ((disk1.setBlock addr ((disk1.block addr).write (off % BSIZE)
              ((src.drop tot).take m))).iupdate inum ip1).Owned sb :=
            (mapped.copyTo missing (show off % BSIZE + ((src.drop tot).take m).length ≤ BSIZE by
              rw [length_take]
              omega)).1
          refine (ih next start' copied (by omega) (by omega)).mono fun result rest => ?_
          exact mapped.chunk missing size.symm (by omega) rest
        · rw [if_neg copied, if_neg copied]
          exact .pure (mapped.fault missing size.symm (by omega) readable (by omega))

/-! ## Files as lists of bytes -/

/-- No block below the size of a file is missing. -/
structure Sound (sb : Superblock) (disk : Disk) : Prop extends Owned sb disk where
  dense : ∀ inum fbn, fbn * BSIZE < (disk.dinode inum).size → disk.ref inum (.data fbn) ≠ 0
  size_le : ∀ inum, (disk.dinode inum).size ≤ MAXFILE * BSIZE

/-- The contents of a file. -/
def contents (disk : Disk) (inum : Inum) : List UInt8 :=
  (List.range (disk.dinode inum).size).map fun pos => (disk.byteAt inum pos).getD 0

@[simp] theorem contents_length (disk : Disk) (inum : Inum) :
    (disk.contents inum).length = (disk.dinode inum).size := by
  simp [contents]

theorem isSome_byteAt (disk : Disk) (inum : Inum) (pos : Nat) :
    (disk.byteAt inum pos).isSome ↔ disk.ref inum (.data (pos / BSIZE)) ≠ 0 := by
  unfold byteAt
  split_ifs with empty <;> simp [empty]

theorem Sound.byteAt_isSome (sound : disk.Sound sb) {pos : Nat}
    (inside : pos < (disk.dinode inum).size) : (disk.byteAt inum pos).isSome := by
  rw [isSome_byteAt]
  exact sound.dense inum _ ((Nat.div_mul_le_self pos BSIZE).trans_lt inside)

theorem Sound.contents_getElem? (sound : disk.Sound sb) {pos : Nat}
    (inside : pos < (disk.dinode inum).size) :
    (disk.contents inum)[pos]? = disk.byteAt inum pos := by
  obtain ⟨byte, held⟩ := Option.isSome_iff_exists.mp (sound.byteAt_isSome inside)
  simp [contents, inside, held]

/-- Files with the same size and the same bytes have the same contents. -/
theorem contents_congr
    (size : (disk'.dinode inum).size = (disk.dinode inum).size)
    (same : ∀ pos < (disk.dinode inum).size, disk'.byteAt inum pos = disk.byteAt inum pos) :
    disk'.contents inum = disk.contents inum := by
  simp only [contents, size]
  refine map_congr_left fun pos member => ?_
  rw [same pos (mem_range.mp member)]

/-! ## `writei` -/

/-- The calls of `writei` that do not return -1. -/
def Writable (disk : Disk) (inum : Inum) (off n : Nat) : Prop :=
  off ≤ (disk.dinode inum).size ∧ off + n ≤ MAXFILE * BSIZE

instance (disk : Disk) (inum : Inum) (off n : Nat) : Decidable (disk.Writable inum off n) :=
  inferInstanceAs (Decidable (_ ∧ _))

/-- A call of `writei` that returned `tot` and copied `extra` bytes more to the last block. -/
structure Written (sb : Superblock) (inum : Inum) (src : List UInt8) (limit off : Nat)
    (disk : Disk) (tot extra : Nat) (disk' : Disk) : Prop where
  sound : disk'.Sound sb
  dinode : ∀ other, other ≠ inum → disk'.dinode other = disk.dinode other
  others : ∀ other, other ≠ inum → ∀ pos, disk'.byteAt other pos = disk.byteAt other pos
  size : (disk'.dinode inum).size = max (disk.dinode inum).size (off + tot)
  bytes : ∀ pos < (disk'.dinode inum).size, disk'.byteAt inum pos =
    if off ≤ pos ∧ pos < off + (tot + extra) then src[pos - off]? else disk.byteAt inum pos
  le_length : tot ≤ src.length
  le_limit : tot ≤ limit
  stop : Stop inum src limit disk' tot (off + tot) extra
  aligned : tot = 0 ∨ (off + tot) % BSIZE = 0 ∨ tot = src.length
  enough : disk.needs inum (off / BSIZE) (span off src.length) ≤ disk.free sb →
    src.length ≤ limit → tot = src.length
  grown : tot = src.length → ∀ n, disk'.needs inum ((off + tot) / BSIZE) (span (off + tot) n) ≤
    disk'.free sb → disk.needs inum (off / BSIZE) (span off (src.length + n)) ≤ disk.free sb

@[simp] theorem iupdate_self (disk : Disk) (inum : Inum) :
    disk.iupdate inum (disk.dinode inum) = disk := by
  simp [iupdate]

/-- The size of the file does not matter for its blocks. -/
theorem ref_iupdate_size (size : Nat) (other : Inum) (here : Place) :
    (disk.iupdate inum { ip with size }).ref other here =
      (disk.iupdate inum ip).ref other here := by
  obtain rfl | self := eq_or_ne other inum
  · cases here with
    | data fbn => rw [ref_iupdate_data, ref_iupdate_data]; rfl
    | indirect => rw [ref_iupdate_indirect, ref_iupdate_indirect]
  · rw [ref_iupdate_of_ne self, ref_iupdate_of_ne self]

theorem byteAt_iupdate_size (size : Nat) (other : Inum) (pos : Nat) :
    (disk.iupdate inum { ip with size }).byteAt other pos =
      (disk.iupdate inum ip).byteAt other pos := by
  unfold byteAt
  rw [ref_iupdate_size]
  rfl

/-- There are as many bytes to copy as the source has. -/
theorem Stop.le_length {extra : Nat} (stop : Stop inum src limit disk tot off extra)
    (le : tot ≤ src.length) : tot + extra ≤ src.length := by
  cases stop <;> omega

section

variable (sound : disk.Sound sb)
include sound

/-- A file whose bytes below its size have been written over, and possibly past its end. -/
theorem Rewrites.byteAt_below {pos finish : Nat} (rewrites : Rewrites inum off bytes disk disk')
    (start : off ≤ (disk.dinode inum).size) (within : finish ≤ off + bytes.length)
    (below : pos < max (disk.dinode inum).size finish) :
    disk'.byteAt inum pos =
      if off ≤ pos ∧ pos < off + bytes.length then bytes[pos - off]? else disk.byteAt inum pos := by
  split_ifs with inside
  · have here := rewrites.inside (pos - off) (by omega)
    rw [Nat.add_sub_cancel' inside.1] at here
    rw [here, getElem?_eq_getElem]
  · obtain ⟨byte, held⟩ := Option.isSome_iff_exists.mp
      (sound.byteAt_isSome (show pos < (disk.dinode inum).size by omega))
    rw [held]
    exact rewrites.outside pos byte inside held

/-- The size of a file grows over bytes that have been written. -/
theorem Sound.resize {finish : Nat} (owned : (disk'.iupdate inum ip).Owned sb)
    (rewrites : Rewrites inum off bytes disk (disk'.iupdate inum ip))
    (start : off ≤ (disk.dinode inum).size) (within : finish ≤ off + bytes.length)
    (fits : finish ≤ MAXFILE * BSIZE) (size : ip.size = (disk.dinode inum).size) :
    (disk'.iupdate inum { ip with size := max ip.size finish }).Sound sb where
  toOwned := owned.congr rfl fun other here => ref_iupdate_size ..
  dense := by
    intro other fbn below
    have pos : fbn * BSIZE / BSIZE = fbn := Nat.mul_div_cancel _ (by decide)
    obtain rfl | self := eq_or_ne other inum
    · simp only [iupdate, Function.update_self, size] at below
      rw [ref_iupdate_size, ← pos, ← isSome_byteAt,
        rewrites.byteAt_below sound start within below]
      split_ifs with inside
      · rw [getElem?_eq_getElem (by omega)]
        rfl
      · exact sound.byteAt_isSome (by omega)
    · rw [ref_iupdate_size, ← pos, ← isSome_byteAt, rewrites.others other self]
      apply sound.byteAt_isSome
      rw [← rewrites.dinode other self]
      simpa [iupdate, self] using below
  size_le := by
    intro other
    obtain rfl | self := eq_or_ne other inum
    · have old := sound.size_le other
      simp only [iupdate, Function.update_self, size]
      omega
    · have old := sound.size_le other
      rw [← rewrites.dinode other self] at old
      simpa [iupdate, self] using old

/-- The end of `writei`: the size follows the bytes that were written. -/
theorem Sound.written {off' : Nat} (writable : disk.Writable inum off src.length)
    (wrote : Wrote sb inum src limit off 0 disk tot off' (disk'.iupdate inum ip)) :
    ∃ extra, Written sb inum src limit off disk tot extra
      (disk'.iupdate inum { ip with size := max ip.size off' }) := by
  obtain ⟨extra, stop, rewrites⟩ := wrote.stop
  have copied := stop.le_length wrote.le_length
  have off_eq : off' = off + tot := wrote.off_eq
  rw [drop_zero, Nat.sub_zero] at rewrites
  have length : (src.take (tot + extra)).length = tot + extra := by
    rw [length_take]
    omega
  have oldSize : ip.size = (disk.dinode inum).size := by
    have fields := rewrites.fields
    simp only [iupdate, Function.update_self] at fields
    rw [fields]
  have newSize : ((disk'.iupdate inum { ip with size := max ip.size off' }).dinode inum).size =
      max (disk.dinode inum).size (off + tot) := by
    simp [iupdate, oldSize, off_eq]
  have inside : off' ≤ MAXFILE * BSIZE := by
    have fits := writable.2
    have le := wrote.le_length
    omega
  have sound' := sound.resize wrote.owned rewrites writable.1 (by omega) inside oldSize
  refine ⟨extra, sound', ?_, ?_, newSize, ?_, wrote.le_length, wrote.le_limit, ?_, ?_,
    wrote.enough, ?_⟩
  · intro other ne
    rw [← rewrites.dinode other ne]
    simp [iupdate, ne]
  · intro other ne pos
    rw [byteAt_iupdate_size, rewrites.others other ne]
  · intro pos below
    rw [newSize] at below
    rw [byteAt_iupdate_size, rewrites.byteAt_below sound writable.1 (by omega) below, length]
    split_ifs with inside
    · rw [getElem?_take_of_lt (by omega)]
    · rfl
  · rw [← off_eq]
    cases stop with
    | done all => exact .done all
    | full missing => exact .full ((ref_iupdate_size ..).trans missing)
    | fault short upTo block => exact .fault short upTo block
  · rw [← off_eq]
    exact wrote.aligned
  · rw [← off_eq]
    intro all n free
    simp only [needs, lacking, ref_iupdate_size] at free
    exact wrote.grown all n free

theorem Sound.writei (writable : disk.Writable inum off src.length) :
    Returns (fun (ret, ip', disk') => disk'.dinode inum = ip' ∧ ∃ tot extra, ret = some tot ∧
        Written sb inum src limit off disk tot extra disk')
      (writei sb inum (disk.dinode inum) src limit off disk) := by
  have accepted : ¬ ((disk.dinode inum).size < off ∨ Overflows off src.length ∨
      MAXFILE * BSIZE < off + src.length) := by
    have start := writable.1
    have fits := writable.2
    simp only [Overflows, MAXFILE, NDIRECT, NINDIRECT, BSIZE] at *
    omega
  unfold Disk.writei
  rw [if_neg accepted]
  have owned : (disk.iupdate inum (disk.dinode inum)).Owned sb := by
    rw [iupdate_self]
    exact sound.toOwned
  have loop : Returns _ (writeiLoop sb src limit src.length off 0 (disk.dinode inum) disk) :=
    owned.writeiLoop (Nat.zero_le _) (Nat.zero_le _) le_rfl writable.2
  refine loop.bind fun (tot, off', ip', disk') _ wrote => .pure ?_
  rw [iupdate_self] at wrote
  obtain ⟨extra, written⟩ := sound.written writable wrote
  exact ⟨by simp [iupdate], tot, extra, rfl, written⟩

end

theorem writei_rejected (refused : ¬ disk.Writable inum off src.length) :
    writei sb inum (disk.dinode inum) src limit off disk = .ok (none, disk.dinode inum, disk) := by
  unfold Disk.writei
  rw [if_pos]
  simp only [Writable] at refused
  omega

end Xv6.Fs.Disk
