import Xv6.Console.LineDiscipline
import Xv6.Fs.ShortWrite
import Xv6.Pipe.Calls

/-!
# Reading from an open file

`fileread` with the readers of the three types of files.  All of them copy to consecutive addresses
from the caller's buffer on.  Of the addresses there, the first `limit` can be written: the copy of
the byte after those fails.
-/

namespace Xv6.Read

open Console (Cons ctrlD newline)
open Fs (Disk Inum Superblock)
open Pipes (Pipe PIPESIZE)

/-- How a copy loop ends. -/
inductive Stop where
  | returns
  /-- It waits for input. -/
  | sleeps
  /-- A copy to user memory has failed. -/
  | fails
  deriving DecidableEq, Repr

/-- The copy loop of `piperead`, with `i` bytes copied. -/
def pipereadLoop (limit : Nat) : (turns i : Nat) → Pipe → Stop × Nat × Pipe
  | 0, i, pipe => (.returns, i, pipe)
  | turns + 1, i, pipe =>
    if pipe.nread = pipe.nwrite then (.returns, i, pipe)
    else if i < limit then pipereadLoop limit turns (i + 1) pipe.take
    else (.fails, i, pipe.take)

/-- The loop of `consoleread`, with `n` of `target` bytes still to copy. -/
def consolereadLoop (limit target : Nat) : (n : Nat) → Cons → Stop × Nat × Cons
  | 0, cons => (.returns, 0, cons)
  | n + 1, cons =>
    if cons.r = cons.w then (.sleeps, n + 1, cons)
    else
      let rest := { cons with r := cons.r + 1 }
      if cons.next = ctrlD then (.returns, n + 1, if n + 1 < target then cons else rest)
      else if target - (n + 1) < limit then
        if cons.next = newline then (.returns, n, rest) else consolereadLoop limit target n rest
      else (.fails, n + 1, rest)

/-! ## Input that is lost -/

/-- The bytes in a pipe. -/
def unread (pipe : Pipe) : List UInt8 :=
  Cyclic.contents PIPESIZE pipe.data pipe.nread pipe.nwrite

/-- The number of bytes that `consoleread` copies of those in the buffer, if all copies succeed. -/
def line : (n : Nat) → List UInt8 → Nat
  | 0, _ => 0
  | _, [] => 0
  | n + 1, c :: rest => if c = ctrlD then 0 else if c = newline then 1 else line n rest + 1

theorem line_le (n : Nat) (found : List UInt8) :
    line n found ≤ n ∧ line n found ≤ found.length := by
  induction n generalizing found with
  | zero => simp [line]
  | succ n ih =>
    cases found with
    | nil => simp [line]
    | cons c rest =>
      have shorter := ih rest
      simp only [line, List.length_cons]
      split_ifs <;> omega

/-- Either every byte can be copied, or the one behind the last that can be is lost. -/
theorem pipereadLoop_spec {limit i : Nat} (below : i ≤ limit) (turns : Nat) (pipe : Pipe) :
    i + min turns (unread pipe).length ≤ limit ∧ (pipereadLoop limit turns i pipe).1 ≠ .fails ∨
    limit < i + min turns (unread pipe).length ∧ ∃ after,
      pipereadLoop limit turns i pipe = (.fails, limit, after) ∧
        unread after = (unread pipe).drop (limit - i + 1) := by
  induction turns generalizing i pipe with
  | zero => simp [pipereadLoop, below]
  | succ turns ih =>
    unfold pipereadLoop
    by_cases empty : pipe.nread = pipe.nwrite
    · simp [empty, unread, below]
    · have first : unread pipe = pipe.next :: unread pipe.take := Cyclic.contents_pop empty
      rw [if_neg empty, first, List.length_cons]
      by_cases copied : i < limit
      · have left : limit - i + 1 = limit - (i + 1) + 1 + 1 := by omega
        have total : i + min (turns + 1) ((unread pipe.take).length + 1) =
            i + 1 + min turns (unread pipe.take).length := by omega
        rw [if_pos copied, left, total, List.drop_succ_cons]
        exact ih copied pipe.take
      · obtain rfl : limit = i := by omega
        rw [if_neg copied]
        exact .inr ⟨by omega, pipe.take, rfl, by simp⟩

/-- The same for the console, with `done` bytes copied and room for `room` more. -/
theorem consolereadLoop_spec (room done n : Nat) (cons : Cons) :
    line n cons.unread ≤ room ∧ (consolereadLoop (done + room) (done + n) n cons).1 ≠ .fails ∨
    room < line n cons.unread ∧ ∃ after,
      consolereadLoop (done + room) (done + n) n cons = (.fails, n - room, after) ∧
        after.unread = cons.unread.drop (room + 1) := by
  induction n generalizing room done cons with
  | zero => simp [consolereadLoop, line]
  | succ n ih =>
    unfold consolereadLoop
    by_cases empty : cons.r = cons.w
    · simp [empty, Cons.unread, line]
    · have first : cons.unread = cons.next :: Cons.unread { cons with r := cons.r + 1 } :=
        Cyclic.contents_pop empty
      rw [if_neg empty, first]
      by_cases mark : cons.next = ctrlD
      · simp [mark, line]
      · simp only [line, if_neg mark]
        cases room with
        | zero =>
          have refused : ¬ done + (n + 1) - (n + 1) < done + 0 := by omega
          rw [if_neg refused]
          exact .inr ⟨by split <;> omega, _, rfl, rfl⟩
        | succ room =>
          have copied : done + (n + 1) - (n + 1) < done + (room + 1) := by omega
          rw [if_pos copied]
          by_cases last : cons.next = newline
          · simp [last]
          · have shifted : done + (room + 1) = done + 1 + room ∧
                done + (n + 1) = done + 1 + n := by omega
            simp only [if_neg last, List.drop_succ_cons, Nat.add_sub_add_right, shifted,
              Nat.add_le_add_iff_right, Nat.add_lt_add_iff_right]
            exact ih room (done + 1) { cons with r := cons.r + 1 }

/-- A copy that fails loses no input exactly if none can fail: the readers have taken the byte that
they cannot deliver.  A read from the console has copied `done` bytes and can copy `room` more. -/
theorem failing_read_iff (limit turns : Nat) (pipe : Pipe) (room done n : Nat) (cons : Cons) :
    (((pipereadLoop limit turns 0 pipe).1 = .fails →
        unread (pipereadLoop limit turns 0 pipe).2.2 =
          (unread pipe).drop (pipereadLoop limit turns 0 pipe).2.1) ↔
      min turns (unread pipe).length ≤ limit) ∧
    (((consolereadLoop (done + room) (done + n) n cons).1 = .fails →
        (consolereadLoop (done + room) (done + n) n cons).2.2.unread =
          cons.unread.drop (n - (consolereadLoop (done + room) (done + n) n cons).2.1)) ↔
      line n cons.unread ≤ room) := by
  have loses : ∀ {left found : List UInt8} {k : Nat}, k < found.length →
      left = found.drop (k + 1) → left ≠ found.drop k := by
    rintro left found k inside rfl same
    have lengths := congrArg List.length same
    simp only [List.length_drop] at lengths
    omega
  constructor
  · rcases pipereadLoop_spec (Nat.zero_le limit) turns pipe with
      ⟨fits, copied⟩ | ⟨short, after, fails, left⟩
    · exact iff_of_true (fun fails => (copied fails).elim) (by omega)
    · rw [fails]
      exact iff_of_false (fun kept => loses (by omega) left (kept rfl)) (by omega)
  · rcases consolereadLoop_spec room done n cons with
      ⟨fits, copied⟩ | ⟨short, after, fails, left⟩
    · exact iff_of_true (fun fails => (copied fails).elim) fits
    · have bound := line_le n cons.unread
      have copied : n - (n - room) = room := by omega
      rw [fails]
      refine iff_of_false (fun kept => loses (by omega) left ?_) (by omega)
      simpa only [copied] using kept rfl

/-- One byte waits in a pipe and in the console, and the buffer of the reader cannot be written. -/
theorem failing_read_loses_byte : let pipe := (Pipe.pipealloc fun _ => 0).store 97
    let cons : Cons := ⟨fun _ => 97, 0, 1, 1⟩
    unread pipe = [97] ∧ cons.unread = [97] ∧
    (pipereadLoop 0 1 0 pipe).2.1 = 0 ∧ unread (pipereadLoop 0 1 0 pipe).2.2 = [] ∧
    (consolereadLoop 0 1 1 cons).2.1 = 1 ∧ (consolereadLoop 0 1 1 cons).2.2.unread = [] := by
  decide

/-! ## Bytes that are copied -/

/-- `consoleread` with the console as it finds it at first and after each sleep; it is killed in the
last one.  The value that it returns and the number of bytes that it copies. -/
def consoleread (limit target : Nat) : (n : Nat) → List Cons → Int × Nat
  | 0, _ => (target, target)
  | n, [] => (-1, target - n)
  | n, cons :: later =>
    match consolereadLoop limit target n cons with
    | (.sleeps, n, _) => consoleread limit target n later
    | (_, n, _) => ((target - n : Nat), target - n)

/-- What a reader finds behind a file. -/
inductive Source where
  /-- The pipe when the reader stops waiting, unless it is killed first. -/
  | pipe (found : Option Pipe)
  | console (found : List Cons)
  /-- A device that cannot be read. -/
  | device
  | inode (inum : Inum)

/-- `struct file`. -/
structure File where
  readable : Bool
  source : Source
  off : Nat

/-- `readi` to a user address, which copies the bytes block by block until a copy fails. -/
def readi (sb : Superblock) (limit : Nat) (inum : Inum) (off n : Nat) (disk : Disk) :
    Except Fs.Panic (Int × Nat) :=
  (disk.readi sb (disk.dinode inum) off n).map fun (bytes, _) =>
    if bytes.length ≤ limit then (bytes.length, bytes.length) else (-1, limit)

/-- `fileread`: the value that it returns, the number of bytes that it copies, and the file.  The
argument of `readi` is a `uint`. -/
def fileread (sb : Superblock) (disk : Disk) (limit : Nat) (n : Int) (file : File) :
    Except Fs.Panic (Int × Nat × File) :=
  if file.readable then
    match file.source with
    | .pipe none | .device => .ok (-1, 0, file)
    | .pipe (some pipe) =>
      let i := (pipereadLoop limit n.toNat 0 pipe).2.1
      .ok (i, i, file)
    | .console found =>
      let (value, copied) := consoleread limit n.toNat n.toNat found
      .ok (value, copied, file)
    | .inode inum => do
      let _ ← disk.ilock inum
      let (r, copied) ← readi sb limit inum file.off (n % 2 ^ 32).toNat disk
      .ok (r, copied, if 0 < r then { file with off := file.off + r.toNat } else file)
  else .ok (-1, 0, file)

/-- No more is copied and returned than was asked for, and the offset of an inode is advanced by
what is returned. -/
structure Within (n : Int) (file : File) (result : Int × Nat × File) : Prop where
  value : result.1 ≤ max n 0
  copied : (result.2.1 : Int) ≤ max n 0
  off : ∀ inum, file.source = .inode inum → result.2.2.off = file.off + result.1.toNat

/-- The inode of an open file is in use. -/
def File.Open (disk : Disk) (file : File) : Prop :=
  ∀ inum, file.source = .inode inum → (disk.dinode inum).type ≠ .free

/-- A negative count is not taken for a large one, or it does not matter. -/
def Harmless (disk : Disk) (limit : Nat) (n : Int) (file : File) : Prop :=
  ∀ inum, file.readable = true → file.source = .inode inum →
    0 ≤ n ∨ -n ≤ file.off ∨ (disk.dinode inum).size ≤ file.off ∨ limit = 0

theorem pipereadLoop_le (limit turns i : Nat) (pipe : Pipe) :
    (pipereadLoop limit turns i pipe).2.1 ≤ i + turns := by
  induction turns generalizing i pipe with
  | zero => simp [pipereadLoop]
  | succ turns ih =>
    unfold pipereadLoop
    have rest := ih (i + 1) pipe.take
    split_ifs
    · exact Nat.le_add_right ..
    · omega
    · exact Nat.le_add_right ..

theorem consoleread_le (limit target n : Nat) (found : List Cons) :
    (consoleread limit target n found).1 ≤ target ∧
      (consoleread limit target n found).2 ≤ target := by
  induction found generalizing n with
  | nil =>
    cases n <;> simp only [consoleread] <;> omega
  | cons cons later ih =>
    cases n with
    | zero => simp [consoleread]
    | succ n =>
      simp only [consoleread]
      split
      · exact ih _
      · simp only
        omega

/-- The bytes that `readi` finds, and those that it copies. -/
theorem readi_eq {sb : Superblock} {disk : Disk} (sound : disk.Sound sb) (limit : Nat)
    (inum : Inum) (off : Nat) {n : Int} (low : -2 ^ 31 ≤ n) (high : n < 2 ^ 31) :
    ∃ len : Nat, readi sb limit inum off (n % 2 ^ 32).toNat disk =
        .ok (if len ≤ limit then ((len : Int), len) else (-1, limit)) ∧
      (0 ≤ n → (len : Int) ≤ n) ∧
      (n < 0 → (len = 0 ↔ -n ≤ off ∨ (disk.dinode inum).size ≤ off)) := by
  refine ⟨_, by rw [readi, sound.readi]; rfl, ?_⟩
  have size := Disk.contents_length disk inum
  split_ifs with inside
  · simp only [List.length_take, List.length_drop, size]
    omega
  · refine ⟨fun natural => natural, fun negative => iff_of_true rfl ?_⟩
    omega

theorem within_inode {n r : Int} {copied : Nat} {file : File} :
    Within n file (r, copied, if 0 < r then { file with off := file.off + r.toNat } else file) ↔
      r ≤ max n 0 ∧ (copied : Int) ≤ max n 0 := by
  refine ⟨fun within => ⟨within.value, within.copied⟩, fun ⟨value, copied⟩ => ⟨value, copied, ?_⟩⟩
  intro _ _
  split_ifs
  · rfl
  · simp only
    omega

/-- `fileread` copies and returns no more than it is asked for, and advances the offset of an inode
by what it returns, exactly if the count is not negative or is harmless. -/
theorem fileread_within_iff {sb : Superblock} {disk : Disk} (sound : disk.Sound sb) (limit : Nat)
    (n : Int) (low : -2 ^ 31 ≤ n) (high : n < 2 ^ 31) (file : File) (isOpen : file.Open disk) :
    ∃ result, fileread sb disk limit n file = .ok result ∧
      (Within n file result ↔ Harmless disk limit n file) := by
  unfold fileread
  split_ifs with readable
  · split
    next source =>
      exact ⟨_, rfl, iff_of_true ⟨by simp, by simp, by simp [source]⟩ (by simp [Harmless, source])⟩
    next source =>
      exact ⟨_, rfl, iff_of_true ⟨by simp, by simp, by simp [source]⟩ (by simp [Harmless, source])⟩
    next pipe source =>
      have bound := pipereadLoop_le limit n.toNat 0 pipe
      refine ⟨_, rfl, iff_of_true ⟨?_, ?_, by simp [source]⟩ (by simp [Harmless, source])⟩ <;>
        simp only <;> omega
    next found source =>
      have bound := consoleread_le limit n.toNat n.toNat found
      refine ⟨_, rfl, iff_of_true ⟨?_, ?_, by simp [source]⟩ (by simp [Harmless, source])⟩ <;>
        simp only <;> omega
    next inum source =>
      obtain ⟨len, copies, asked, negative⟩ := readi_eq sound limit inum file.off low high
      have harmless : Harmless disk limit n file ↔ 0 ≤ n ∨ len = 0 ∨ limit = 0 := by
        simp only [Harmless, readable, source, Source.inode.injEq, true_imp_iff, forall_eq']
        omega
      have locked : disk.ilock inum = .ok (disk.dinode inum) := if_neg (isOpen inum source)
      rw [locked, copies, harmless]
      by_cases room : len ≤ limit
      · rw [if_pos room]
        exact ⟨_, rfl, within_inode.trans (by omega)⟩
      · rw [if_neg room]
        exact ⟨_, rfl, within_inode.trans (by omega)⟩
  · exact ⟨_, rfl, iff_of_true ⟨by simp, by simp, by simp⟩ (by simp [Harmless, readable])⟩

/-- Two bytes of a file of four are asked for, and -1 bytes behind the first of them. -/
theorem fileread_within_iff_fourBytes :
    (∃ result, fileread Disk.blankSuper Disk.fourBytes 8 2 ⟨true, .inode 2, 0⟩ = .ok result ∧
      result.1 = 2 ∧ Within 2 ⟨true, .inode 2, 0⟩ result) ∧
    ∃ result, fileread Disk.blankSuper Disk.fourBytes 8 (-1) ⟨true, .inode 2, 1⟩ = .ok result ∧
      result.1 = 0 ∧ Within (-1) ⟨true, .inode 2, 1⟩ result := by
  have inUse : ∀ off, File.Open Disk.fourBytes ⟨true, .inode 2, off⟩ := by
    rintro off inum ⟨⟩
    decide
  have values : (fileread Disk.blankSuper Disk.fourBytes 8 2 ⟨true, .inode 2, 0⟩).toOption.map
        Prod.fst = some 2 ∧
      (fileread Disk.blankSuper Disk.fourBytes 8 (-1) ⟨true, .inode 2, 1⟩).toOption.map
        Prod.fst = some 0 := by
    decide +kernel
  obtain ⟨first, ran, within⟩ :=
    fileread_within_iff Disk.sound_fourBytes 8 2 (by decide) (by decide) _ (inUse 0)
  obtain ⟨second, ran', within'⟩ :=
    fileread_within_iff Disk.sound_fourBytes 8 (-1) (by decide) (by decide) _ (inUse 1)
  rw [ran, ran'] at values
  refine ⟨⟨first, ran, Option.some.inj values.1, within.mpr ?_⟩, second, ran',
    Option.some.inj values.2, within'.mpr ?_⟩
  · exact fun _ _ _ => .inl (by decide)
  · exact fun _ _ _ => .inr (.inl (by decide))

/-- A count of -1 at the start of a file of four bytes copies all of them. -/
theorem fileread_copies_all : ∃ result,
    fileread Disk.blankSuper Disk.fourBytes 8 (-1) ⟨true, .inode 2, 0⟩ = .ok result ∧
      result.1 = 4 ∧ result.2.1 = 4 ∧ ¬ Within (-1) ⟨true, .inode 2, 0⟩ result := by
  have outcome : ∃ result ∈ (fileread Disk.blankSuper Disk.fourBytes 8 (-1)
      ⟨true, .inode 2, 0⟩).toOption, result.1 = 4 ∧ result.2.1 = 4 := by
    decide +kernel
  obtain ⟨result, ran, value, copied⟩ := outcome
  exact ⟨result, ok_of_mem_toOption ran, value, copied,
    fun within => absurd within.value (by rw [value]; decide)⟩

end Xv6.Read
