import Xv6.Fs.Boot

/-!
# Path names

`namex` of `kernel/fs.c`, while no other process runs.  Its loop moves a pointer through the path;
what a path means is said without it.
-/

namespace Xv6.Fs

open List

/-- The elements of a path, cut as directories store them. -/
def elements (path : List UInt8) : List (List UInt8) :=
  ((path.splitOn slash).filter (· ≠ [])).map (List.take DIRSIZ)

theorem elements_append (first second : List UInt8) :
    elements (first ++ slash :: second) = elements first ++ elements second := by
  simp [elements, splitOn_append_cons_self]

theorem elements_dropWhile (path : List UInt8) :
    elements (path.dropWhile (· == slash)) = elements path := by
  induction path with
  | nil => rfl
  | cons byte path ih =>
    obtain rfl | isSlash := eq_or_ne byte slash
    · simpa using ih.trans (elements_append [] path).symm
    · simp [isSlash]

theorem elements_cons {byte : UInt8} (isName : byte ≠ slash) (tail : List UInt8) :
    elements (byte :: tail) = ((byte :: tail).takeWhile (· != slash)).take DIRSIZ ::
      elements ((byte :: tail).dropWhile (· != slash)) := by
  have split := takeWhile_append_dropWhile (p := (· != slash)) (l := byte :: tail)
  have single : elements ((byte :: tail).takeWhile (· != slash)) =
      [((byte :: tail).takeWhile (· != slash)).take DIRSIZ] := by
    rw [elements, splitOn_eq_singleton fun member => by
      simpa using mem_takeWhile_imp member]
    simp [isName]
  cases rest : (byte :: tail).dropWhile (· != slash) with
  | nil =>
    rw [rest, append_nil] at split
    rw [split] at single ⊢
    exact single
  | cons sep more =>
    have isSlash : sep = slash := by
      have head := head_dropWhile_not (· != slash) (l := byte :: tail) (by simp [rest])
      simpa [rest] using head
    rw [rest, isSlash] at split
    have behind : elements (slash :: more) = elements more := elements_append [] more
    rw [← split, elements_append, split, single, isSlash, behind]
    rfl

/-- `skipelem` takes the first element off. -/
theorem skipelem_elements (path : List UInt8) :
    skipelem path = none ∧ elements path = [] ∨ ∃ name rest, skipelem path = some (name, rest) ∧
      elements path = name :: elements rest ∧ rest.length < path.length := by
  unfold skipelem
  have shorter := (dropWhile_sublist (· == slash) (l := path)).length_le
  rw [← elements_dropWhile path]
  cases start : path.dropWhile (· == slash) with
  | nil => exact .inl ⟨rfl, rfl⟩
  | cons byte tail =>
    have isName : byte ≠ slash := by
      have head := head_dropWhile_not (· == slash) (l := path) (by simp [start])
      simpa [start] using head
    have split := takeWhile_append_dropWhile (p := (· != slash)) (l := byte :: tail)
    have behind : (byte :: tail).drop ((byte :: tail).takeWhile (· != slash)).length =
        (byte :: tail).dropWhile (· != slash) :=
      (congrArg (drop _) split).symm.trans drop_left
    refine .inr ⟨_, _, rfl, ?_, ?_⟩
    · rw [behind, elements_dropWhile, elements_cons isName]
    · rw [behind, dropWhile_cons_of_pos (by simpa using isName)]
      have rest := ((dropWhile_sublist (· == slash)).trans
        (dropWhile_sublist (· != slash) (l := tail))).length_le
      rw [start, length_cons] at shorter
      exact rest.trans_lt shorter

namespace Disk

variable (sb : Superblock)

/-- What a list of names means: each is looked up in what the one before it has led to. -/
def resolve (cwd : Inum) : List (List UInt8) → Inum → Disk → Except Panic (Option Inum × Disk)
  | [], inum, disk => .ok (some inum, disk)
  | name :: names, inum, disk => do
    let (next, disk) ← enter sb cwd name inum disk
    match next with
    | none => .ok (none, disk)
    | some next => resolve cwd names next disk

theorem nameiLoop_eq (cwd : Inum) {turns : Nat} {path : List UInt8} (enough : path.length < turns)
    (inum : Inum) (disk : Disk) :
    nameiLoop sb cwd turns path inum disk = resolve sb cwd (elements path) inum disk := by
  induction turns generalizing path inum disk with
  | zero => omega
  | succ turns ih =>
    rw [nameiLoop]
    obtain ⟨taken, none⟩ | ⟨name, rest, taken, first, shorter⟩ := skipelem_elements path
    · rw [taken, none]
      rfl
    · have same : nameiLoop sb cwd turns rest = resolve sb cwd (elements rest) := by
        funext inum disk
        exact ih (by omega) inum disk
      simp only [taken, first, resolve]
      exact same ▸ rfl

/-- `namei` looks up what stands between the slashes of a path one after another, from the root if
the path starts with a slash; how many slashes stand between, before or behind makes no
difference. -/
theorem namei_resolves (cwd : Inum) (path : List UInt8) (disk : Disk) :
    namei sb cwd path disk =
      resolve sb cwd (elements path) (if path.headD 0 = slash then ROOTINO else cwd) disk :=
  nameiLoop_eq sb cwd (Nat.lt_succ_self _) _ disk

end Disk

end Xv6.Fs
