import Xv6.Fs.Files

/-!
# Short writes

What `writei` leaves in a file when it returns less than it was asked to write.  A copy from user
memory that fails in the middle of a block has by then changed the buffer of that block.
-/

namespace Xv6.Fs.Disk

variable {sb : Superblock} {disk disk' : Disk} {inum : Inum}
variable {src : List UInt8} {limit off tot extra : Nat}

/-- A call that returns less than `n`, or -1, has changed no more than it says. -/
def Exact (disk : Disk) (inum : Inum) (off n : Nat) (disk' : Disk) : Option Nat → Prop
  | none => disk'.contents inum = disk.contents inum
  | some tot => tot < n →
      (disk'.contents inum).length = max (disk.contents inum).length (off + tot) ∧
      ∀ pos, ¬ (off ≤ pos ∧ pos < off + tot) →
        (disk'.contents inum)[pos]? = (disk.contents inum)[pos]?

/-- Where the block starts in which the readable part of the source ends, or the write itself. -/
def lastStart (off limit : Nat) : Nat := max off ((off + limit) / BSIZE * BSIZE)

/-- The last readable bytes of the source, which go to a block that is not written in full, are
those that the file has there already or lie past its end. -/
def Unseen (disk : Disk) (inum : Inum) (src : List UInt8) (limit off : Nat) : Prop :=
  ∀ pos, lastStart off limit ≤ pos → pos < off + limit → pos < (disk.contents inum).length →
    src[pos - off]? = (disk.contents inum)[pos]?

/-- The copy that failed was to the block in which the readable part ends. -/
theorem Written.lastStart_eq (written : Written sb inum src limit off disk tot extra disk')
    (short : limit < src.length) (upTo : tot + extra = limit)
    (block : (off + tot) % BSIZE + extra < BSIZE) : lastStart off limit = off + tot := by
  have same : (off + limit) / BSIZE = (off + tot) / BSIZE := by
    simp only [BSIZE] at *
    omega
  unfold lastStart
  rw [same]
  rcases written.aligned with none | whole | all
  · simp only [none, BSIZE]
    omega
  · simp only [BSIZE] at *
    omega
  · have := written.le_limit
    omega

/-- A byte of the file after the call. -/
theorem Written.getElem? (sound : disk.Sound sb)
    (start : off ≤ (disk.dinode inum).size)
    (written : Written sb inum src limit off disk tot extra disk') {pos : Nat}
    (reported : ¬ (off ≤ pos ∧ pos < off + tot)) :
    (disk'.contents inum)[pos]? =
      if off + tot ≤ pos ∧ pos < off + (tot + extra) ∧ pos < (disk.contents inum).length then
        src[pos - off]? else (disk.contents inum)[pos]? := by
  have size := written.size
  rw [contents_length]
  by_cases inside : pos < (disk'.dinode inum).size
  · have before : pos < (disk.dinode inum).size := by omega
    rw [written.sound.contents_getElem? inside, written.bytes pos inside,
      sound.contents_getElem? before]
    exact if_congr (by omega) rfl rfl
  · rw [List.getElem?_eq_none (by rw [contents_length]; omega), if_neg (by omega),
      List.getElem?_eq_none (by rw [contents_length]; omega)]

/-- The bytes that a failed copy leaves behind are those of the file. -/
theorem Written.exact_iff_same (sound : disk.Sound sb) (start : off ≤ (disk.dinode inum).size)
    (written : Written sb inum src limit off disk tot extra disk') (short : tot < src.length) :
    Exact disk inum off src.length disk' (some tot) ↔
      ∀ pos, off + tot ≤ pos → pos < off + (tot + extra) → pos < (disk.contents inum).length →
        src[pos - off]? = (disk.contents inum)[pos]? := by
  constructor
  · intro exact pos lower upper inside
    have same := (exact short).2 pos (by omega)
    rwa [written.getElem? sound start (by omega), if_pos ⟨lower, upper, inside⟩] at same
  · intro same _
    refine ⟨by simp only [contents_length, written.size], fun pos outside => ?_⟩
    rw [written.getElem? sound start outside]
    split_ifs with left
    · exact same pos left.1 left.2.1 left.2.2
    · rfl

/-- A block that is missing lies past the end of the file. -/
theorem Written.size_le_of_missing (written : Written sb inum src limit off disk tot extra disk')
    (missing : disk'.ref inum (.data ((off + tot) / BSIZE)) = 0) :
    (disk.dinode inum).size ≤ (off + tot) / BSIZE * BSIZE := by
  by_contra below
  have size := written.size
  exact written.sound.dense inum ((off + tot) / BSIZE) (by omega) missing

theorem Written.exact_iff (sound : disk.Sound sb) (start : off ≤ (disk.dinode inum).size)
    (written : Written sb inum src limit off disk tot extra disk') :
    Exact disk inum off src.length disk' (some tot) ↔
      (src.length ≤ limit ∨ disk.Unseen inum src limit off) := by
  by_cases short : tot < src.length
  · rw [written.exact_iff_same sound start short]
    cases written.stop with
    | done all => omega
    | full missing =>
      refine iff_of_true (fun pos lower upper _ => by omega) (.inr fun pos lower _ inside => ?_)
      have past := written.size_le_of_missing missing
      have le := written.le_limit
      have order : (off + tot) / BSIZE * BSIZE ≤ (off + limit) / BSIZE * BSIZE :=
        Nat.mul_le_mul_right _ (Nat.div_le_div_right (by omega))
      rw [contents_length] at inside
      unfold lastStart at lower
      omega
    | fault readable upTo block =>
      rw [or_iff_right (by omega)]
      unfold Unseen
      rw [written.lastStart_eq readable upTo block, upTo]
  · refine iff_of_true (fun less => (short less).elim) (.inl ?_)
    have := written.le_limit
    omega

/-- For every call, `writei` changes no more than it says exactly when it returns -1 by its checks,
the whole source can be read, or what a failed copy leaves in the last block cannot be seen. -/
theorem Sound.writei_exact_iff (sound : disk.Sound sb) (inum : Inum) (src : List UInt8)
    (limit off : Nat) :
    Returns (fun (ret, _, disk') => Exact disk inum off src.length disk' ret)
        (disk.writei sb inum (disk.dinode inum) src limit off) ↔
      (¬ disk.Writable inum off src.length ∨ src.length ≤ limit ∨
        disk.Unseen inum src limit off) := by
  by_cases writable : disk.Writable inum off src.length
  · rw [or_iff_right (not_not_intro writable)]
    have returns : Returns (fun (ret, ip', disk') => disk'.dinode inum = ip' ∧
        ∃ tot extra, ret = some tot ∧ Written sb inum src limit off disk tot extra disk')
        (disk.writei sb inum (disk.dinode inum) src limit off) := sound.writei writable
    obtain ⟨⟨ret, ip', disk'⟩, outcome, -, tot, extra, rfl, written⟩ := returns
    rw [← written.exact_iff sound writable.1, outcome]
    exact ⟨fun exact => exact.of_ok rfl, fun exact => .pure exact⟩
  · refine iff_of_true ?_ (.inl writable)
    rw [writei_rejected writable]
    exact .pure rfl

/-- A disk with one file of four bytes in block 6. -/
def fourBytes : Disk where
  dinode := Function.update (fun _ => {}) 2
    { type := .file, nlink := 1, size := 4, addrs := Function.update (fun _ => 0) 0 6 }
  used := fun b => decide (b < 7)
  block := Function.update (fun _ _ => 0) 6 (Block.write (fun _ => 0) 0 [1, 2, 3, 4])

theorem ref_fourBytes (inum : Inum) (place : Place) :
    fourBytes.ref inum place = if inum = 2 ∧ place = .data 0 then 6 else 0 := by
  obtain rfl | file := eq_or_ne inum 2
  · cases place with
    | indirect => rfl
    | data fbn =>
      cases fbn with
      | zero => rfl
      | succ fbn =>
        simp only [ref, blockOf, fourBytes, Function.update_self]
        simp
  · simp only [file, false_and, if_false]
    cases place with
    | indirect => simp [ref, fourBytes, file]
    | data fbn => simp [ref, blockOf, fourBytes, file]

theorem sound_fourBytes : fourBytes.Sound blankSuper where
  reserved := rfl
  marked inum place assigned := by
    rw [ref_fourBytes] at assigned ⊢
    split_ifs at assigned ⊢
    · decide
    · exact (assigned rfl).elim
  unique inum place inum' place' assigned same := by
    rw [ref_fourBytes] at assigned same
    rw [ref_fourBytes] at same
    split_ifs at assigned same with one two
    · exact ⟨one.1.trans two.1.symm, one.2.trans two.2.symm⟩
    · exact (assigned rfl).elim
  dense inum fbn inside := by
    obtain rfl | file := eq_or_ne inum 2
    · have size : (fourBytes.dinode 2).size = 4 := rfl
      obtain rfl : fbn = 0 := by
        rw [size] at inside
        simp only [BSIZE] at inside
        omega
      decide
    · simp [fourBytes, file] at inside
  size_le inum := by
    obtain rfl | file := eq_or_ne inum 2
    · decide
    · simp [fourBytes, file]

/-- Four bytes are written of which only two can be read: the call returns 0, and the two bytes can
be read from the file. -/
theorem writei_short_seen : fourBytes.Sound blankSuper ∧
    ∃ disk', fourBytes.writei blankSuper 2 (fourBytes.dinode 2) [8, 9, 8, 9] 2 0 =
        .ok (some 0, disk'.dinode 2, disk') ∧
      ((fourBytes.readi blankSuper (fourBytes.dinode 2) 0 4).map Prod.fst).toOption =
        some [1, 2, 3, 4] ∧
      ((disk'.readi blankSuper (disk'.dinode 2) 0 4).map Prod.fst).toOption =
        some [8, 9, 3, 4] ∧
      ¬ Exact fourBytes 2 0 4 disk' (some 0) := by
  have seen : ((fourBytes.writei blankSuper 2 (fourBytes.dinode 2) [8, 9, 8, 9] 2 0).map
      fun (ret, _, disk') => (ret, disk'.contents 2,
        ((disk'.readi blankSuper (disk'.dinode 2) 0 4).map Prod.fst).toOption)).toOption =
      some (some 0, [8, 9, 3, 4], some [8, 9, 3, 4]) := by decide +kernel
  have returns : Returns (fun (ret, ip', disk') => disk'.dinode 2 = ip' ∧ ∃ tot extra,
      ret = some tot ∧ Written blankSuper 2 [8, 9, 8, 9] 2 0 fourBytes tot extra disk')
      (fourBytes.writei blankSuper 2 (fourBytes.dinode 2) [8, 9, 8, 9] 2 0) :=
    sound_fourBytes.writei (by decide)
  obtain ⟨⟨ret, ip', disk'⟩, outcome, rfl, -⟩ := returns
  simp only [outcome, Except.map, Except.toOption, Option.some.injEq, Prod.mk.injEq] at seen
  obtain ⟨rfl, bytes, read⟩ := seen
  refine ⟨sound_fourBytes, disk', outcome, by decide +kernel, read, fun exact => ?_⟩
  have first := (exact (by decide)).2 0 (by decide)
  rw [bytes] at first
  revert first
  decide

/-- Bytes of the file itself are written, again with only two that can be read. -/
theorem Sound.writei_exact_same : Returns
    (fun (ret, _, disk') => Exact fourBytes 2 0 4 disk' ret)
    (fourBytes.writei blankSuper 2 (fourBytes.dinode 2) [1, 2, 8, 9] 2 0) := by
  refine (sound_fourBytes.writei_exact_iff 2 [1, 2, 8, 9] 2 0).mpr (.inr (.inr ?_))
  have bytes : fourBytes.contents 2 = [1, 2, 3, 4] := by decide
  intro pos _ upper _
  obtain rfl | rfl : pos = 0 ∨ pos = 1 := by omega
  all_goals rw [bytes]; rfl

end Xv6.Fs.Disk
