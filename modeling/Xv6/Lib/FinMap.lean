import Mathlib

/-!
# Finite maps that can be counted

A partial function together with the list of its keys.  The entries that meet a
test can be counted, and each update of the map says how it changes the count.
-/

universe u v

/-- A partial function with finitely many keys, each listed once. -/
structure FinMap (Key : Type u) (Value : Type v) where
  find : Key → Option Value
  keys : List Key
  nodup : keys.Nodup
  mem_keys : ∀ key, key ∈ keys ↔ (find key).isSome

namespace FinMap

open Function List

variable {Key : Type u} {Value : Type v}

/-- The map without entries. -/
def empty : FinMap Key Value where
  find := fun _ => none
  keys := []
  nodup := List.nodup_nil
  mem_keys := by simp

@[simp] theorem find_empty (key : Key) : (empty : FinMap Key Value).find key = none := rfl

@[simp] theorem keys_empty : (empty : FinMap Key Value).keys = [] := rfl

/-- The values, in the order of the keys. -/
def values (map : FinMap Key Value) : List Value :=
  map.keys.filterMap map.find

/-- The number of entries that pass a test. -/
def count (test : Key → Value → Bool) (map : FinMap Key Value) : Nat :=
  map.keys.countP fun key => (map.find key).any (test key)

@[simp] theorem count_empty (test : Key → Value → Bool) :
    (empty : FinMap Key Value).count test = 0 := rfl

variable {map : FinMap Key Value}

/-- A map all of whose keys are gone has nothing to count. -/
theorem count_of_keys_nil (noKeys : map.keys = []) (test : Key → Value → Bool) :
    map.count test = 0 := by
  simp [count, noKeys]

/-- Counting values is counting in the list of values. -/
theorem count_eq_countP_values (map : FinMap Key Value) (test : Value → Bool) :
    map.count (fun _ => test) = map.values.countP test := by
  have each : ∀ keys : List Key, keys.countP (fun key => (map.find key).any test) =
      (keys.filterMap map.find).countP test := by
    intro keys
    induction keys with
    | nil => rfl
    | cons key keys ih =>
      cases found : map.find key with
      | none => simp [found, ih]
      | some value => simp [found, ih, countP_cons]
  exact each map.keys

variable {key : Key}

theorem not_mem_keys (missing : map.find key = none) : key ∉ map.keys := by
  rw [map.mem_keys, missing]
  simp

variable {value : Value}

theorem mem_keys_of_find (found : map.find key = some value) : key ∈ map.keys := by
  rw [map.mem_keys, found]
  rfl

/-- An entry that passes the test is counted. -/
theorem one_le_count (test : Key → Value → Bool) (found : map.find key = some value)
    (passes : test key value = true) : 1 ≤ map.count test := by
  apply countP_pos_iff.mpr
  exact ⟨key, mem_keys_of_find found, by simp [found, passes]⟩

/-- Two different entries that pass the test are counted separately. -/
theorem two_le_count {key other : Key} {value value' : Value} (test : Key → Value → Bool)
    (ne : key ≠ other) (found : map.find key = some value) (passes : test key value = true)
    (found' : map.find other = some value') (passes' : test other value' = true) :
    2 ≤ map.count test := by
  have sublist : List.Subperm [key, other]
      (map.keys.filter fun key => (map.find key).any (test key)) := by
    apply subperm_of_subset
    · simpa using ne
    · intro entry member
      rw [mem_filter]
      rcases mem_pair.mp member with rfl | rfl
      · exact ⟨mem_keys_of_find found, by simp [found, passes]⟩
      · exact ⟨mem_keys_of_find found', by simp [found', passes']⟩
  rw [count, countP_eq_length_filter]
  exact sublist.length_le

variable [DecidableEq Key]

/-- Add an entry, or replace the one the key has. -/
def insert (key : Key) (value : Value) (map : FinMap Key Value) : FinMap Key Value where
  find := Function.update map.find key (some value)
  keys := if key ∈ map.keys then map.keys else key :: map.keys
  nodup := by
    split_ifs with member
    · exact map.nodup
    · exact List.nodup_cons.mpr ⟨member, map.nodup⟩
  mem_keys := by
    intro other
    obtain rfl | same := eq_or_ne other key
    · split_ifs with member <;> simp [member]
    · split_ifs <;> simp [same, map.mem_keys]

/-- Remove the entry of a key. -/
def erase (key : Key) (map : FinMap Key Value) : FinMap Key Value where
  find := Function.update map.find key none
  keys := map.keys.erase key
  nodup := map.nodup.erase key
  mem_keys := by
    intro other
    rw [map.nodup.mem_erase_iff, map.mem_keys]
    by_cases same : other = key
    · simp [same]
    · simp [same]

@[simp] theorem find_insert (map : FinMap Key Value) (key : Key) (value : Value) :
    (map.insert key value).find = update map.find key (some value) := rfl

@[simp] theorem find_erase (map : FinMap Key Value) (key : Key) :
    (map.erase key).find = update map.find key none := rfl

omit [DecidableEq Key] in
private theorem countP_congr_of_not_mem {map : FinMap Key Value} {find : Key → Option Value}
    {key : Key} {keys : List Key} (missing : key ∉ keys)
    (same : ∀ other, other ≠ key → find other = map.find other)
    (test : Key → Value → Bool) :
    (keys.countP fun other => (find other).any (test other)) =
      keys.countP fun other => (map.find other).any (test other) := by
  apply countP_congr
  intro other member
  rw [same other (fun equal => missing (equal ▸ member))]

/-- A new entry is counted when it passes the test. -/
theorem count_insert_new (missing : map.find key = none) (value : Value)
    (test : Key → Value → Bool) :
    (map.insert key value).count test = map.count test + (test key value).toNat := by
  have absent := not_mem_keys missing
  simp only [count, insert, if_neg absent, countP_cons, update_self,
    Option.any_some]
  rw [countP_congr_of_not_mem absent (fun other ne =>
    update_of_ne ne _ _) test]
  cases test key value <;> rfl

/-- Removing an entry removes what it contributed. -/
theorem count_erase (found : map.find key = some value) (test : Key → Value → Bool) :
    (map.erase key).count test + (test key value).toNat = map.count test := by
  have present := mem_keys_of_find found
  have absent : key ∉ map.keys.erase key := map.nodup.not_mem_erase
  simp only [count, erase]
  rw [countP_congr_of_not_mem absent (fun other ne =>
    update_of_ne ne _ _) test]
  rw [(perm_cons_erase present).countP_eq, countP_cons, found, Option.any_some]
  cases test key value <;> rfl

/-- Replacing an entry exchanges what it contributes. -/
theorem count_insert_old (found : map.find key = some value) (replacement : Value)
    (test : Key → Value → Bool) :
    (map.insert key replacement).count test + (test key value).toNat =
      map.count test + (test key replacement).toNat := by
  have present := mem_keys_of_find found
  have absent : key ∉ map.keys.erase key := map.nodup.not_mem_erase
  simp only [count, insert, if_pos present]
  rw [(perm_cons_erase present).countP_eq, (perm_cons_erase present).countP_eq]
  simp only [countP_cons, update_self, found, Option.any_some]
  rw [countP_congr_of_not_mem absent (fun other ne =>
    update_of_ne ne _ _) test]
  cases test key value <;> cases test key replacement <;> simp

end FinMap
