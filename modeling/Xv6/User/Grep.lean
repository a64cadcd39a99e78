import Mathlib

/-!
# The matcher of grep

`match`, `matchhere` and `matchstar` of user/grep.c.  A string is the list of its characters
before the NUL.  The language of a pattern is that of its items, read left to right; the two
anchors restrict where in the text a word of it may lie.
-/

namespace Xv6.Grep

open List

/-- `matchstar`, with the call of `matchhere` on the rest of the pattern as `here`. -/
def matchstar (c : Char) (here : List Char → Bool) : List Char → Bool
  | [] => here []
  | x :: text => here (x :: text) || ((x == c || c == '.') && matchstar c here text)

def matchhere : List Char → List Char → Bool
  | [], _ => true
  | c :: '*' :: re, text => matchstar c (matchhere re) text
  | ['$'], text => text.isEmpty
  | _ :: _, [] => false
  | c :: re, x :: text => (c == '.' || c == x) && matchhere re text

/-- The loop of `match` over the suffixes of the text. -/
def matchfrom (re : List Char) : List Char → Bool
  | [] => matchhere re []
  | x :: text => matchhere re (x :: text) || matchfrom re text

/-- `match`. -/
def match_ (re text : List Char) : Bool :=
  match re with
  | '^' :: re => matchhere re text
  | re => matchfrom re text

/-- What one position of a pattern stands for. -/
inductive Item where
  | one (c : Char)
  | many (c : Char)
  deriving DecidableEq, Repr

/-- The items of a pattern, left to right; a `*` that follows no unstarred item is literal. -/
def items : List Char → List Item
  | [] => []
  | c :: '*' :: re => .many c :: items re
  | c :: re => .one c :: items re

/-- The words of one character that `c` stands for. -/
def letters (c : Char) : Language Char := {word | ∃ x, (c = '.' ∨ c = x) ∧ word = [x]}

open scoped Computability in
def Item.language : Item → Language Char
  | .one c => letters c
  | .many c => (letters c)∗

/-- The items end with an unstarred `$`. -/
def AtEnd (items : List Item) : Prop := items.getLast? = some (.one '$')

instance (items : List Item) : Decidable (AtEnd items) :=
  inferInstanceAs (Decidable (_ = _))

/-- The language of a pattern, without its anchors. -/
def language (items : List Item) : Language Char :=
  ((if AtEnd items then items.dropLast else items).map Item.language).prod

/-- Some substring of the text is in the language and lies where the anchors allow. -/
def Occurs (re text : List Char) : Prop :=
  ∃ before word after, text = before ++ word ++ after ∧
    if re.head? = some '^' then
      before = [] ∧ (AtEnd (items re.tail) → after = []) ∧ word ∈ language (items re.tail)
    else
      (AtEnd (items re) → after = []) ∧ word ∈ language (items re)

/-- `Occurs` for a word at the front of the text. -/
def Starts (items : List Item) (text : List Char) : Prop :=
  ∃ word after, text = word ++ after ∧ (AtEnd items → after = []) ∧ word ∈ language items

theorem starts_nil (text : List Char) : Starts [] text :=
  ⟨[], text, rfl, nofun, rfl⟩

theorem starts_dollar {text : List Char} : Starts [.one '$'] text ↔ text = [] := by
  constructor
  · rintro ⟨word, after, rfl, atEnd, member⟩
    rw [atEnd rfl, append_nil]
    exact member
  · rintro rfl
    exact ⟨[], [], rfl, fun _ => rfl, rfl⟩

theorem starts_cons {item : Item} {rest : List Item} (inner : rest ≠ [] ∨ item ≠ .one '$')
    {text : List Char} :
    Starts (item :: rest) text ↔
      ∃ first text', text = first ++ text' ∧ first ∈ item.language ∧ Starts rest text' := by
  have atEnd : AtEnd (item :: rest) ↔ AtEnd rest := by
    cases rest <;> simp_all [AtEnd]
  have words : language (item :: rest) = item.language * language rest := by
    by_cases last : AtEnd rest
    · have more : rest ≠ [] := by rintro rfl; cases last
      simp [language, atEnd, last, dropLast_cons_of_ne_nil more]
    · simp [language, atEnd, last]
  simp only [Starts, words, atEnd, Language.mem_mul]
  constructor
  · rintro ⟨_, after, rfl, ends, first, mem, word, member, rfl⟩
    exact ⟨first, word ++ after, by simp, mem, word, after, rfl, ends, member⟩
  · rintro ⟨first, _, rfl, mem, word, after, rfl, ends, member⟩
    exact ⟨first ++ word, after, by simp, ends, first, mem, word, member, rfl⟩

theorem mem_one {c : Char} {word : List Char} :
    word ∈ (Item.one c).language ↔ ∃ x, (c = '.' ∨ c = x) ∧ word = [x] :=
  .rfl

theorem mem_many {c : Char} {word : List Char} :
    word ∈ (Item.many c).language ↔ ∀ x ∈ word, c = '.' ∨ c = x := by
  rw [Item.language, Language.mem_kstar]
  constructor
  · rintro ⟨parts, rfl, each⟩ x mem
    obtain ⟨part, inside, mem⟩ := mem_flatten.mp mem
    obtain ⟨y, fits, rfl⟩ := each part inside
    rwa [mem_singleton.mp mem]
  · intro each
    refine ⟨word.map ([·]), by simp [flatten_eq_flatMap, flatMap_map], ?_⟩
    rw [forall_mem_map]
    exact fun x mem => ⟨x, each x mem, rfl⟩

theorem matchstar_iff (c : Char) (here : List Char → Bool) (text : List Char) :
    matchstar c here text = true ↔
      ∃ first rest, text = first ++ rest ∧ first ∈ (Item.many c).language ∧
        here rest = true := by
  simp only [mem_many]
  induction text with
  | nil => simp [matchstar]
  | cons x text ih =>
    have fits : (x == c || c == '.') = true ↔ c = '.' ∨ c = x := by
      simp [or_comm, eq_comm (a := x)]
    rw [matchstar, Bool.or_eq_true, Bool.and_eq_true, ih, fits]
    constructor
    · rintro (now | ⟨fit, first, rest, rfl, each, later⟩)
      · exact ⟨[], x :: text, rfl, nofun, now⟩
      · exact ⟨x :: first, rest, rfl, forall_mem_cons.mpr ⟨fit, each⟩, later⟩
    · rintro ⟨_ | ⟨y, first⟩, rest, split, each, later⟩
      · exact .inl (split ▸ later)
      · obtain ⟨rfl, rfl⟩ := cons_eq_cons.mp split
        obtain ⟨fit, each⟩ := forall_mem_cons.mp each
        exact .inr ⟨fit, first, rest, rfl, each, later⟩

theorem items_ne_nil {re : List Char} (more : re ≠ []) : items re ≠ [] := by
  fun_cases items re <;> simp_all

theorem matchhere_iff (re text : List Char) :
    matchhere re text = true ↔ Starts (items re) text := by
  fun_induction items re generalizing text with
  | case1 => simpa [matchhere] using starts_nil text
  | case2 c re ih =>
    rw [@starts_cons (.many c) _ (.inr nofun), matchhere, matchstar_iff]
    simp only [ih]
  | case3 c re unstarred ih =>
    by_cases last : re = [] ∧ c = '$'
    · obtain ⟨rfl, rfl⟩ := last
      exact List.isEmpty_iff.trans starts_dollar.symm
    · have bare (dollar : c = '$') (nil : re = []) : False := last ⟨nil, dollar⟩
      rw [starts_cons (by grind [items_ne_nil])]
      simp only [mem_one]
      cases text with
      | nil => rw [matchhere] <;> [simp; exact unstarred; exact bare]
      | cons x text =>
        rw [matchhere] <;> [skip; exact unstarred; exact bare]
        rw [Bool.and_eq_true, ih]
        constructor
        · rintro ⟨fit, later⟩
          exact ⟨[x], text, rfl, ⟨x, by simpa using fit, rfl⟩, later⟩
        · rintro ⟨_, rest, split, ⟨y, fit, rfl⟩, later⟩
          obtain ⟨rfl, rfl⟩ := cons_eq_cons.mp split
          exact ⟨by simpa using fit, later⟩

theorem matchfrom_iff (re text : List Char) :
    matchfrom re text = true ↔ ∃ before rest, text = before ++ rest ∧ Starts (items re) rest := by
  induction text with
  | nil => simp [matchfrom, matchhere_iff]
  | cons x text ih =>
    rw [matchfrom, Bool.or_eq_true, matchhere_iff, ih]
    constructor
    · rintro (now | ⟨before, rest, rfl, later⟩)
      · exact ⟨[], x :: text, rfl, now⟩
      · exact ⟨x :: before, rest, rfl, later⟩
    · rintro ⟨_ | ⟨y, before⟩, rest, split, later⟩
      · exact .inl (split ▸ later)
      · exact .inr ⟨before, rest, (cons_eq_cons.mp split).2, later⟩

/-- The matcher finds exactly the words of the pattern's language. -/
theorem match_iff_occurs (re text : List Char) : match_ re text = true ↔ Occurs re text := by
  unfold match_
  split
  · simp [matchhere_iff, Occurs, Starts]
  · rename_i free
    have head : re.head? ≠ some '^' := by
      rw [Ne, List.head?_eq_some_iff]
      exact fun ⟨rest, eq⟩ => free rest eq
    simp [matchfrom_iff, Occurs, Starts, head]

end Xv6.Grep
