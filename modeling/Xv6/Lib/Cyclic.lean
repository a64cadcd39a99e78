import Mathlib

/-!
# Arrays used in a circle

Two counters of a fixed width run through an array and are never reduced to its length: the place
of a counter is its remainder.  As the length of the array divides the range of the counters, the
places go on in order when a counter wraps.
-/

namespace Cyclic

open Function

universe u

variable {width : Nat} {Item : Type u}

/-- Where a counter points to in an array of the given length. -/
def place (length : Nat) (counter : BitVec width) : Nat := counter.toNat % length

/-- The number of entries between two counters. -/
def span (first last : BitVec width) : Nat := (last - first).toNat

/-- The entries from a counter on. -/
def entries (length : Nat) (array : Nat → Item) (first : BitVec width) : (count : Nat) → List Item
  | 0 => []
  | count + 1 => array (place length first) :: entries length array (first + 1) count

/-- The entries between two counters. -/
def contents (length : Nat) (array : Nat → Item) (first last : BitVec width) : List Item :=
  entries length array first (span first last)

variable {length : Nat} {array : Nat → Item} {first middle last : BitVec width}

/-! ## Counters -/

theorem add_succ (first : BitVec width) (count : Nat) :
    first + BitVec.ofNat width (count + 1) = first + 1 + BitVec.ofNat width count := by
  rw [BitVec.ofNat_add, BitVec.add_comm (BitVec.ofNat width count), BitVec.add_assoc]
  rfl

theorem span_add (first last : BitVec width) :
    first + BitVec.ofNat width (span first last) = last := by
  rw [span, BitVec.ofNat_toNat, BitVec.setWidth_eq, BitVec.add_comm, BitVec.sub_add_cancel]

@[simp] theorem span_self (first : BitVec width) : span first first = 0 := by
  simp [span]

theorem span_eq_zero : span first last = 0 ↔ first = last := by
  constructor
  · intro zero
    have moved := span_add first last
    rw [zero] at moved
    simpa using moved
  · rintro rfl
    exact span_self first

/-- The place of a counter that has moved on, also past the end of its range. -/
theorem place_add (divides : length ∣ 2 ^ width) (count : Nat) :
    place length (first + BitVec.ofNat width count) = (first.toNat + count) % length := by
  rw [place, BitVec.toNat_add, BitVec.toNat_ofNat, Nat.add_mod_mod, Nat.mod_mod_of_dvd _ divides]

theorem one_toNat (wide : 1 < 2 ^ width) : (1 : BitVec width).toNat = 1 := by
  change (BitVec.ofNat width 1).toNat = 1
  rw [BitVec.toNat_ofNat, Nat.mod_eq_of_lt wide]

theorem span_succ (room : span first last + 1 < 2 ^ width) :
    span first (last + 1) = span first last + 1 := by
  have one : 1 < 2 ^ width := by omega
  rw [span, add_sub_right_comm, BitVec.toNat_add, ← span]
  rw [one_toNat one, Nat.mod_eq_of_lt room]

theorem span_pred (some : first ≠ last) : span first (last - 1) + 1 = span first last := by
  have positive : span first last ≠ 0 := fun zero => some (span_eq_zero.mp zero)
  have wide : 1 < 2 ^ width := by
    have bound : span first last < 2 ^ width := (last - first).isLt
    omega
  have below : (1 : BitVec width) ≤ last - first := by
    rw [BitVec.le_def, one_toNat wide]
    exact Nat.one_le_iff_ne_zero.mpr positive
  rw [span, sub_right_comm, BitVec.toNat_sub_of_le below, one_toNat wide]
  exact Nat.succ_pred_eq_of_ne_zero positive

/-- Counters in order. -/
theorem span_split (order : span first middle ≤ span first last) :
    span first middle + span middle last = span first last := by
  have value : span middle last = span first last - span first middle := by
    unfold span at *
    rw [← sub_sub_sub_cancel_right last middle first,
      BitVec.toNat_sub_of_le (BitVec.le_def.mpr order)]
  omega

/-! ## Entries -/

theorem entries_length (first : BitVec width) (count : Nat) :
    (entries length array first count).length = count := by
  induction count generalizing first with
  | zero => rfl
  | succ count ih => rw [entries, List.length_cons, ih]

theorem entries_append (first : BitVec width) (count more : Nat) :
    entries length array first (count + more) =
      entries length array first count ++
        entries length array (first + BitVec.ofNat width count) more := by
  induction count generalizing first with
  | zero => simp [entries]
  | succ count ih =>
    rw [Nat.succ_add, entries, entries, ih, List.cons_append, add_succ]

/-- A change of the array elsewhere. -/
theorem entries_congr {array' : Nat → Item} (first : BitVec width) (count : Nat)
    (same : ∀ k < count, array' (place length (first + BitVec.ofNat width k)) =
      array (place length (first + BitVec.ofNat width k))) :
    entries length array' first count = entries length array first count := by
  induction count generalizing first with
  | zero => rfl
  | succ count ih =>
    have here := same 0 (Nat.succ_pos count)
    rw [BitVec.add_zero] at here
    rw [entries, entries, here, ih (first + 1)]
    intro k below
    have later := same (k + 1) (Nat.succ_lt_succ below)
    rwa [add_succ] at later

@[simp] theorem contents_self (first : BitVec width) : contents length array first first = [] := by
  rw [contents, span_self]
  rfl

theorem contents_length (first last : BitVec width) :
    (contents length array first last).length = span first last :=
  entries_length first _

/-- The entry behind the last one. -/
theorem contents_succ (room : span first last + 1 < 2 ^ width) :
    contents length array first (last + 1) =
      contents length array first last ++ [array (place length last)] := by
  rw [contents, span_succ room, entries_append, span_add, contents]
  simp [entries]

/-- The place behind the last entry is free. -/
theorem contents_update (divides : length ∣ 2 ^ width) (room : span first last < length)
    (item : Item) : contents length (update array (place length last) item) first last =
      contents length array first last := by
  refine entries_congr first _ fun k below => update_of_ne ?_ _ _
  intro same
  rw [← congrArg (place length) (span_add first last), place_add divides, place_add divides] at same
  have offsets := Nat.ModEq.add_left_cancel' first.toNat same
  unfold Nat.ModEq at offsets
  rw [Nat.mod_eq_of_lt (below.trans room), Nat.mod_eq_of_lt room] at offsets
  omega

/-- Dropping the last entry. -/
theorem contents_pred (some : first ≠ last) : contents length array first last =
      contents length array first (last - 1) ++ [array (place length (last - 1))] := by
  have room : span first (last - 1) + 1 < 2 ^ width := by
    rw [span_pred some]
    exact (last - first).isLt
  have whole : contents length array first (last - 1 + 1) = _ := contents_succ room
  rwa [sub_add_cancel] at whole

/-- Storing an entry behind the last one. -/
theorem contents_push (divides : length ∣ 2 ^ width) (room : span first last < length)
    (wide : length < 2 ^ width) (item : Item) :
    contents length (update array (place length last) item) first (last + 1) =
      contents length array first last ++ [item] := by
  rw [contents_succ (by omega), contents_update divides room, update_self]

/-- Taking the first entry. -/
theorem contents_pop (some : first ≠ last) : contents length array first last =
      array (place length first) :: contents length array (first + 1) last := by
  have positive : span first last ≠ 0 := fun zero => some (span_eq_zero.mp zero)
  have rest : span (first + 1) last = span first last - 1 := by
    have one : span first (first + 1) = 1 := by
      have wide : 1 < 2 ^ width := by
        have bound : span first last < 2 ^ width := (last - first).isLt
        omega
      rw [span_succ (by rw [span_self]; omega), span_self]
    have split : span first (first + 1) + span (first + 1) last = span first last :=
      span_split (by omega)
    omega
  rw [contents, contents, rest]
  obtain ⟨count, counted⟩ := Nat.exists_eq_succ_of_ne_zero positive
  rw [counted]
  rfl

/-- The entries up to a counter in between, and those behind it. -/
theorem contents_split (order : span first middle ≤ span first last) :
    contents length array first last =
      contents length array first middle ++ contents length array middle last := by
  rw [contents, ← span_split order, entries_append, span_add]
  rfl

/-- A change of the place behind the last entry leaves the entries up to a counter in between. -/
theorem contents_update_split (divides : length ∣ 2 ^ width)
    (order : span first middle ≤ span first last)
    (room : span first last < length) (item : Item) :
    contents length (update array (place length last) item) first middle =
      contents length array first middle := by
  have whole : contents length (update array (place length last) item) first last =
      contents length array first last := contents_update divides room item
  rw [contents_split order, contents_split order] at whole
  exact List.append_inj_left whole (by rw [contents_length, contents_length])

end Cyclic
