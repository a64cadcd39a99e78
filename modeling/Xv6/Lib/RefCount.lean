import Mathlib

/-!
# Reference-counted pools

A pool hands out items from a free list and keeps one counter per item.  The
references that exist are a function of the state around the pool; the pool
covers them when no item has more references than its counter says.  A change of
the pool is accounted for when it moves counters and references together.
-/

namespace RefCount

open Function

universe u

/-- A free list and the reference counters. -/
structure Pool (Item : Type u) where
  free : List Item
  count : Item → ℤ

namespace Pool

variable {Item : Type u} {managed : Item → Prop} {pool after last : Pool Item}
variable {refs refs' refs'' : Item → ℤ} {item : Item}

/-- The free list holds managed items without references, each once, and only managed items
are counted. -/
structure Sound (managed : Item → Prop) (pool : Pool Item) : Prop where
  nodup : pool.free.Nodup
  idle : ∀ item ∈ pool.free, pool.count item = 0 ∧ managed item
  used : ∀ item, 1 ≤ pool.count item → managed item

/-- Every managed item without references can be handed out again. -/
def Complete (managed : Item → Prop) (pool : Pool Item) : Prop :=
  ∀ item, managed item → pool.count item = 0 → item ∈ pool.free

/-- No item has more references than its counter says. -/
structure Covers (managed : Item → Prop) (pool : Pool Item) (refs : Item → ℤ) : Prop where
  sound : pool.Sound managed
  counted : ∀ item, refs item ≤ pool.count item

/-- Counters and references change by the same amount. -/
structure Moves (managed : Item → Prop) (pool : Pool Item) (refs : Item → ℤ)
    (after : Pool Item) (refs' : Item → ℤ) : Prop where
  sound : after.Sound managed
  slack : ∀ item, after.count item - refs' item = pool.count item - refs item

/-- A move that loses no item: what it leaves without references is free. -/
structure Settles (managed : Item → Prop) (pool : Pool Item) (refs : Item → ℤ)
    (after : Pool Item) (refs' : Item → ℤ) : Prop
    extends Moves managed pool refs after refs' where
  complete : pool.Complete managed → after.Complete managed

/-! ## Composition -/

theorem Covers.moves (covers : pool.Covers managed refs)
    (moves : Moves managed pool refs after refs') : after.Covers managed refs' where
  sound := moves.sound
  counted := by
    intro item
    have slack := moves.slack item
    have counted := covers.counted item
    omega

theorem Moves.trans (first : Moves managed pool refs after refs')
    (second : Moves managed after refs' last refs'') : Moves managed pool refs last refs'' where
  sound := second.sound
  slack := fun item => (second.slack item).trans (first.slack item)

theorem Settles.refl (sound : pool.Sound managed) : Settles managed pool refs pool refs where
  sound := sound
  slack := fun _ => rfl
  complete := id

/-! ## The operations -/

/-- A free item has no references. -/
theorem Covers.idle (covers : pool.Covers managed refs) (free : item ∈ pool.free) : refs item ≤ 0 :=
  (covers.counted item).trans (covers.sound.idle item free).1.le

/-- A counted item is not on the free list. -/
theorem Sound.not_free (sound : pool.Sound managed) (counted : 1 ≤ pool.count item) :
    item ∉ pool.free := by
  intro free
  have idle := (sound.idle item free).1
  omega

/-- A referenced item is managed. -/
theorem Covers.isManaged (covers : pool.Covers managed refs) (held : 1 ≤ refs item) :
    managed item :=
  covers.sound.used item (held.trans (covers.counted item))

variable [DecidableEq Item]

section

variable (sound : pool.Sound managed)
include sound

/-- Counting a counted item differently counts no other item. -/
theorem Sound.used_update (counted : 1 ≤ pool.count item) (value : ℤ) (other : Item)
    (still : 1 ≤ update pool.count item value other) : managed other := by
  by_cases same : other = item
  · exact same ▸ sound.used item counted
  · exact sound.used other (by simpa [same] using still)

/-- Hand out the first free item with one reference. -/
theorem Sound.take (refs : Item → ℤ) {rest : List Item} (head : pool.free = item :: rest) :
    Settles managed pool refs ⟨rest, update pool.count item 1⟩
      (refs + Pi.single item 1) := by
  have distinct : item ∉ rest ∧ rest.Nodup := by
    have nodup := sound.nodup
    rw [head] at nodup
    exact List.nodup_cons.mp nodup
  obtain ⟨idle, isManaged⟩ := sound.idle item (by simp [head])
  refine ⟨⟨⟨distinct.2, ?_, ?_⟩, ?_⟩, ?_⟩
  · intro other member
    have ne : other ≠ item := fun same => distinct.1 (same ▸ member)
    simpa [ne] using sound.idle other (by simp [head, member])
  · intro other counted
    by_cases same : other = item
    · exact same ▸ isManaged
    · exact sound.used other (by simpa [same] using counted)
  · intro other
    obtain rfl | same := eq_or_ne other item
    · simp [idle]
    · simp [same]
  · intro complete other isManaged zero
    obtain rfl | same := eq_or_ne other item
    · simp at zero
    · have free := complete other isManaged (by simpa [same] using zero)
      simpa [head, same] using free

/-- Change the counter of an item that has a reference. -/
theorem Sound.recount (refs : Item → ℤ) (item : Item) (counted : 1 ≤ pool.count item)
    (change : ℤ) :
    Moves managed pool refs ⟨pool.free, update pool.count item (pool.count item + change)⟩
      (refs + Pi.single item change) := by
  refine ⟨⟨sound.nodup, ?_, sound.used_update counted _⟩, ?_⟩
  · intro other member
    have ne : other ≠ item := fun same => sound.not_free counted (same ▸ member)
    simpa [ne] using sound.idle other member
  · intro other
    obtain rfl | ne := eq_or_ne other item
    · simp
    · simp [ne]

/-- Take one more reference to an item that already has one. -/
theorem Sound.share (refs : Item → ℤ) (item : Item) (counted : 1 ≤ pool.count item) :
    Settles managed pool refs ⟨pool.free, update pool.count item (pool.count item + 1)⟩
      (refs + Pi.single item 1) where
  toMoves := sound.recount refs item counted 1
  complete := by
    intro complete other isManaged zero
    obtain rfl | ne := eq_or_ne other item
    · simp at zero
      omega
    · exact complete other isManaged (by simpa [ne] using zero)

/-- Give up a reference without looking at the counter. -/
theorem Sound.drop (refs : Item → ℤ) (item : Item) (counted : 1 ≤ pool.count item) :
    Moves managed pool refs ⟨pool.free, update pool.count item (pool.count item - 1)⟩
      (refs - Pi.single item 1) := by
  simpa only [Pi.single_neg, ← sub_eq_add_neg] using sound.recount refs item counted (-1)

/-- Giving up a reference that is not the last one loses no item. -/
theorem Sound.drop_shared (refs : Item → ℤ) (item : Item) (shared : 1 < pool.count item) :
    Settles managed pool refs ⟨pool.free, update pool.count item (pool.count item - 1)⟩
      (refs - Pi.single item 1) where
  toMoves := sound.drop refs item shared.le
  complete := by
    intro complete other isManaged zero
    obtain rfl | same := eq_or_ne other item
    · simp at zero
      omega
    · exact complete other isManaged (by simpa [same] using zero)

/-- Giving up the last reference and putting the item on the free list. -/
theorem Sound.release (refs : Item → ℤ) (isManaged : managed item) (last : pool.count item = 1) :
    Settles managed pool refs ⟨item :: pool.free, update pool.count item 0⟩
      (refs - Pi.single item 1) := by
  have absent := sound.not_free last.ge
  refine ⟨⟨⟨List.nodup_cons.mpr ⟨absent, sound.nodup⟩, ?_, sound.used_update last.ge 0⟩, ?_⟩, ?_⟩
  · intro other member
    obtain rfl | same := eq_or_ne other item
    · simp [isManaged]
    · have free : other ∈ pool.free := by simpa [same] using member
      simpa [same] using sound.idle other free
  · intro other
    obtain rfl | same := eq_or_ne other item
    · simp [last]
    · simp [same]
  · intro complete other isManaged' zero
    by_cases same : other = item
    · simp [same]
    · have free := complete other isManaged' (by simpa [same] using zero)
      simp [free]

/-! ## Items that are not lost -/

end

/-- The item can be handed out or is counted. -/
def Tracked (pool : Pool Item) (item : Item) : Prop := item ∈ pool.free ∨ 1 ≤ pool.count item

omit [DecidableEq Item] in
/-- An item without references can be handed out if it is not lost. -/
theorem Tracked.free (tracked : pool.Tracked item) (idle : pool.count item = 0) :
    item ∈ pool.free := by
  rcases tracked with free | counted
  · exact free
  · omega

/-- Handing out the first free item loses none. -/
theorem tracked_take {rest : List Item} (head : pool.free = item :: rest) (other : Item) :
    Tracked ⟨rest, update pool.count item 1⟩ other ↔ pool.Tracked other := by
  unfold Tracked
  by_cases same : other = item
  · simp [same, head]
  · simp [same, head]

/-- Counting an item that stays counted loses none. -/
theorem tracked_update {value : ℤ} (counted : 1 ≤ pool.count item) (still : 1 ≤ value)
    (other : Item) :
    Tracked ⟨pool.free, update pool.count item value⟩ other ↔ pool.Tracked other := by
  unfold Tracked
  by_cases same : other = item
  · simp [same, counted, still]
  · simp [same]

/-- An item that is put on the free list with its last reference is not lost. -/
theorem tracked_release {value : ℤ} (counted : 1 ≤ pool.count item) (other : Item) :
    Tracked ⟨item :: pool.free, update pool.count item value⟩ other ↔
      pool.Tracked other := by
  unfold Tracked
  by_cases same : other = item
  · simp [same, counted]
  · simp [same]

omit [DecidableEq Item] in
/-- Put an item without references on the free list. -/
theorem Sound.push (sound : pool.Sound managed) (isManaged : managed item)
    (idle : pool.count item = 0) (absent : item ∉ pool.free) :
    Sound managed ⟨item :: pool.free, pool.count⟩ where
  nodup := List.nodup_cons.mpr ⟨absent, sound.nodup⟩
  idle := by
    intro other member
    rcases List.mem_cons.mp member with rfl | free
    · exact ⟨idle, isManaged⟩
    · exact sound.idle other free
  used := sound.used

end Pool

end RefCount
