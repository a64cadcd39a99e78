import Xv6.User.Grep

/-!
# The lines that grep prints

`grep` of user/grep.c reads its file in pieces into a buffer of 1024 characters and searches the
complete lines there.  A line that the buffer cannot hold ends the search, and a last line without a
newline is never searched.  There is no NUL in the file.
-/

namespace Xv6.Grep

open List

/-- `sizeof(buf)`. -/
abbrev BUFSIZE : Nat := 1024

/-- The loop over the lines in the buffer, with `line` between `p` and where `strchr` looks: what is
written, and what lies behind the last newline. -/
def scan (pattern : List Char) : (line buf : List Char) → List (List Char) × List Char
  | line, [] => ([], line)
  | line, c :: buf =>
    if c = '\n' then
      let (written, left) := scan pattern [] buf
      (if match_ pattern line then (line ++ ['\n']) :: written else written, left)
    else scan pattern (line ++ [c]) buf

/-- The loop of `grep` from read number `i` on, with `held` in the buffer and `rest` unread.  `read`
returns `chunk i + 1` characters, or fewer if there are fewer or there is no room for them. -/
def grepLoop (pattern : List Char) (chunk : Nat → Nat) (i : Nat) (held rest : List Char) :
    List (List Char) :=
  let n := min (min (chunk i + 1) (BUFSIZE - held.length - 1)) rest.length
  if n = 0 then []
  else
    let (written, left) := scan pattern [] (held ++ rest.take n)
    written ++ grepLoop pattern chunk (i + 1) left (rest.drop n)
termination_by rest.length
decreasing_by
  rw [List.length_drop]
  omega

/-- `grep`: the texts that it writes. -/
def grep (pattern : List Char) (chunk : Nat → Nat) (file : List Char) : List (List Char) :=
  grepLoop pattern chunk 0 [] file

/-! ## Lines -/

structure Line where
  text : List Char
  ended : Bool

namespace Line

def chars (line : Line) : List Char := line.text ++ if line.ended then ['\n'] else []

/-- The line has a newline, and the buffer has room for both. -/
def fits (line : Line) : Bool := line.ended && line.text.length + 1 < BUFSIZE

end Line

/-- The lines of a file, the first of which starts with `line`. -/
def linesFrom : (line file : List Char) → List Line
  | line, [] => if line = [] then [] else [⟨line, false⟩]
  | line, c :: file =>
    if c = '\n' then ⟨line, true⟩ :: linesFrom [] file else linesFrom (line ++ [c]) file

def lines (file : List Char) : List Line := linesFrom [] file

/-- The lines that match a pattern, as they are in the file. -/
def matching (pattern : List Char) (lines : List Line) : List (List Char) :=
  (lines.filter fun line => match_ pattern line.text).map Line.chars

/-- What is printed: the matching ones of the lines before the first that does not fit. -/
def printed (pattern : List Char) (lines : List Line) : List (List Char) :=
  matching pattern (lines.takeWhile Line.fits)

variable {pattern : List Char}

theorem linesFrom_append {line text : List Char} (file : List Char) (inside : '\n' ∉ text) :
    linesFrom line (text ++ file) = linesFrom (line ++ text) file := by
  induction text generalizing line with
  | nil => simp
  | cons c text ih =>
    rw [mem_cons, not_or] at inside
    rw [cons_append, linesFrom, if_neg (Ne.symm inside.1), ih inside.2, append_assoc]
    rfl

/-- Nothing is printed of a line that does not fit, and nothing behind it. -/
theorem printed_stuck {line file : List Char} (stuck : BUFSIZE ≤ line.length + 1 ∨ file = []) :
    printed pattern (linesFrom line file) = [] := by
  induction file generalizing line with
  | nil =>
    rw [linesFrom]
    split_ifs <;> rfl
  | cons c file ih =>
    have long := stuck.resolve_right (cons_ne_nil c file)
    rw [linesFrom]
    split_ifs
    · have wide : Line.fits ⟨line, true⟩ = false := by simpa [Line.fits] using long
      rw [printed, takeWhile_cons, wide]
      rfl
    · exact ih (.inl (by rw [length_append]; omega))

theorem scan_printed {line buf : List Char} (file : List Char)
    (room : line.length + buf.length < BUFSIZE) (inside : '\n' ∉ line) :
    printed pattern (linesFrom line (buf ++ file)) = (scan pattern line buf).1 ++
        printed pattern (linesFrom (scan pattern line buf).2 file) ∧
      '\n' ∉ (scan pattern line buf).2 ∧ (scan pattern line buf).2.length < BUFSIZE := by
  induction buf generalizing line with
  | nil => exact ⟨rfl, inside, room⟩
  | cons c buf ih =>
    rw [length_cons] at room
    rw [cons_append, linesFrom, scan]
    by_cases newline : c = '\n'
    · obtain ⟨rest, clean, short⟩ := @ih [] (by simp; omega) nofun
      have fits : Line.fits ⟨line, true⟩ = true := by simp [Line.fits]; omega
      rw [if_pos newline, if_pos newline]
      refine ⟨?_, clean, short⟩
      unfold printed matching at rest ⊢
      rw [takeWhile_cons, fits, if_pos rfl, filter_cons]
      dsimp only
      split_ifs
      · rw [map_cons, rest]
        rfl
      · exact rest
    · rw [if_neg newline, if_neg newline]
      refine ih ?_ (by simp [inside, Ne.symm newline])
      rw [length_append, length_singleton]
      omega

/-- What `grep` prints does not depend on how the file is read. -/
theorem grepLoop_eq (chunk : Nat → Nat) (i : Nat) {held rest : List Char}
    (room : held.length < BUFSIZE) (inside : '\n' ∉ held) :
    grepLoop pattern chunk i held rest = printed pattern (linesFrom held rest) := by
  induction h : rest.length using Nat.strong_induction_on generalizing i held rest with
  | _ length ih =>
    subst h
    rw [grepLoop]
    dsimp only
    split_ifs with none
    · refine (printed_stuck ?_).symm
      rw [← length_eq_zero_iff]
      omega
    · generalize size : min (min (chunk i + 1) (BUFSIZE - held.length - 1)) rest.length = n at *
      have scanned := @scan_printed pattern [] (held ++ rest.take n) (rest.drop n)
        (by simp; omega) nofun
      rw [append_assoc, take_append_drop, linesFrom_append _ inside] at scanned
      obtain ⟨same, clean, short⟩ := scanned
      rw [nil_append] at same
      rw [same, ih _ (by rw [length_drop]; omega) _ short clean rfl]

/-- `grep` prints exactly the matching lines, however the file is read, if and only if no line
matches from the first one on that has no newline or more characters than the buffer has room
for. -/
theorem grep_prints_matching_iff (pattern file : List Char) :
    (∀ chunk, grep pattern chunk file = matching pattern (lines file)) ↔
      ∀ line ∈ (lines file).dropWhile Line.fits, match_ pattern line.text = false := by
  have output : ∀ chunk, grep pattern chunk file = printed pattern (lines file) := fun chunk =>
    grepLoop_eq chunk 0 (by decide) nofun
  have split : matching pattern (lines file) =
      printed pattern (lines file) ++ matching pattern ((lines file).dropWhile Line.fits) := by
    rw [printed, matching, matching, matching, ← List.map_append, ← List.filter_append,
      List.takeWhile_append_dropWhile]
  have lost : matching pattern ((lines file).dropWhile Line.fits) = [] ↔
      ∀ line ∈ (lines file).dropWhile Line.fits, match_ pattern line.text = false := by
    simp [matching, List.filter_eq_nil_iff]
  rw [← lost, split]
  simp only [output, List.self_eq_append_right, forall_const]

/-- A file of one line that has no newline: the line matches, and nothing is printed. -/
theorem last_line_not_printed : matching ['a'] (lines ['a']) = [['a']] ∧
    grep ['a'] (fun _ => 0) ['a'] = [] := by
  have output := @grepLoop_eq ['a'] (fun _ => 0) 0 [] ['a'] (by decide) nofun
  exact ⟨by decide, output.trans (by decide)⟩

end Xv6.Grep
