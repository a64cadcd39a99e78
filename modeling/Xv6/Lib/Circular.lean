import Mathlib

/-!
# Circular doubly linked lists

The items of a list are linked through a sentinel, `none`.  The links are two functions; what an
item is taken out or put in front of the others by are the assignments to them.
-/

universe u

/-- The links of the items and of the sentinel. -/
@[ext]
structure Links (Item : Type u) where
  next : Option Item → Option Item
  prev : Option Item → Option Item

namespace Links

variable {Item : Type u}

/-- Follow the links in one direction from a node to the first item that passes a test, or to
the sentinel. -/
def search (step : Option Item → Option Item) (test : Item → Bool) :
    (fuel : Nat) → Option Item → Option Item
  | 0, _ => none
  | _ + 1, none => none
  | fuel + 1, some item => if test item then some item else search step test fuel (step (some item))

/-- The same list read backwards. -/
def flip (links : Links Item) : Links Item := ⟨links.prev, links.next⟩

variable [DecidableEq Item]

/-- `b->next->prev = b->prev; b->prev->next = b->next`. -/
def unlink (item : Item) (links : Links Item) : Links Item :=
  let prev := Function.update links.prev (links.next (some item)) (links.prev (some item))
  { next := Function.update links.next (prev (some item)) (links.next (some item)), prev }

/-- `b->next = head.next; b->prev = &head; head.next->prev = b; head.next = b`. -/
def pushFront (item : Item) (links : Links Item) : Links Item :=
  let next := Function.update links.next (some item) (links.next none)
  let prev := Function.update links.prev (some item) none
  { next := Function.update next none (some item)
    prev := Function.update prev (next none) (some item) }

end Links

/-- The nodes on the way round, from the sentinel back to it. -/
def lap {Item : Type u} (order : List Item) : List (Option Item) := none :: order.map some ++ [none]

/-- The links lead round through the items in the given order, and back. -/
structure Circular {Item : Type u} (links : Links Item) (order : List Item) : Prop where
  nodup : order.Nodup
  chain : (lap order).IsChain fun node other => links.next node = other ∧ links.prev other = node

namespace Circular

open Function

variable {Item : Type u} {links : Links Item} {order before after : List Item} {item : Item}

/-! ## Walking round -/

theorem flip (circular : Circular links order) : Circular links.flip order.reverse where
  nodup := List.nodup_reverse.mpr circular.nodup
  chain := by
    have reversed : lap order.reverse = (lap order).reverse := by
      simp [lap]
    rw [reversed, List.isChain_reverse]
    exact circular.chain.imp fun node other linked => ⟨linked.2, linked.1⟩

/-- Enough fuel to come round finds the first item that passes the test. -/
theorem search_next (circular : Circular links order) (test : Item → Bool) {fuel : Nat}
    (enough : order.length < fuel) :
    Links.search links.next test fuel (links.next none) = order.find? test := by
  have walk : ∀ (rest : List Item) (node : Option Item) (fuel : Nat), rest.length < fuel →
      (node :: rest.map some ++ [none]).IsChain
        (fun node other => links.next node = other ∧ links.prev other = node) →
      Links.search links.next test fuel (links.next node) = rest.find? test := by
    intro rest
    induction rest with
    | nil =>
      intro node fuel enough chain
      have last : links.next node = none := (List.isChain_pair.mp chain).1
      obtain ⟨fuel, rfl⟩ : ∃ k, fuel = k + 1 := ⟨fuel - 1, by simp at enough; omega⟩
      rw [last]
      rfl
    | cons item rest ih =>
      intro node fuel enough chain
      obtain ⟨⟨next, -⟩, tail⟩ := List.isChain_cons_cons.mp chain
      obtain ⟨fuel, rfl⟩ : ∃ k, fuel = k + 1 := ⟨fuel - 1, by simp at enough; omega⟩
      rw [next, Links.search, List.find?_cons]
      cases test item with
      | true => rfl
      | false => exact ih (some item) fuel (by simpa using enough) tail
  exact walk order none fuel enough circular.chain

/-! ## Moving items -/

/-- A chain under links that agree where the nodes are. -/
theorem chain_congr {linked linked' : Option Item → Option Item → Prop} {nodes : List (Option Item)}
    (chain : nodes.IsChain linked)
    (same : ∀ node ∈ nodes.dropLast, ∀ other ∈ nodes.tail, linked node other → linked' node other) :
    nodes.IsChain linked' := by
  induction nodes with
  | nil => exact .nil
  | cons first nodes ih =>
    cases nodes with
    | nil => exact .singleton _
    | cons second nodes =>
      obtain ⟨link, tail⟩ := List.isChain_cons_cons.mp chain
      refine List.isChain_cons_cons.mpr ⟨same first (by simp) second (by simp) link, ?_⟩
      refine ih tail fun node inside other later => same node ?_ other ?_
      · simpa using Or.inr inside
      · exact List.mem_of_mem_tail later

/-- The list without items. -/
theorem empty : Circular (⟨fun _ => none, fun _ => none⟩ : Links Item) [] :=
  ⟨List.nodup_nil, List.isChain_pair.mpr ⟨rfl, rfl⟩⟩

/-- The neighbours of an item. -/
theorem neighbours (circular : Circular links (before ++ item :: after)) :
    ∃ front pred succ back, none :: before.map some = front ++ [pred] ∧
      after.map some ++ [none] = succ :: back ∧
      links.prev (some item) = pred ∧ links.next (some item) = succ ∧
      (front ++ [pred]).IsChain
        (fun node other => links.next node = other ∧ links.prev other = node) ∧
      (succ :: back).IsChain
        (fun node other => links.next node = other ∧ links.prev other = node) := by
  obtain ⟨front, pred, left⟩ : ∃ front pred, none :: before.map some = front ++ [pred] :=
    ⟨_, _, (List.dropLast_append_getLast (List.cons_ne_nil _ _)).symm⟩
  obtain ⟨succ, back, right⟩ : ∃ succ back, after.map some ++ [none] = succ :: back :=
    List.exists_cons_of_ne_nil (by simp)
  have whole : lap (before ++ item :: after) = front ++ pred :: some item :: succ :: back := by
    rw [← right, lap]
    have split : none :: List.map some (before ++ item :: after) =
        (none :: before.map some) ++ some item :: after.map some := by simp
    rw [split, left]
    simp
  have chain := circular.chain
  rw [whole, List.isChain_append_cons_cons] at chain
  obtain ⟨first, ⟨-, toPred⟩, rest⟩ := chain
  obtain ⟨⟨toSucc, -⟩, last⟩ := List.isChain_cons_cons.mp rest
  exact ⟨front, pred, succ, back, left, right, toPred, toSucc, first, last⟩

variable [DecidableEq Item]

theorem unlink (circular : Circular links (before ++ item :: after)) :
    Circular (links.unlink item) (before ++ after) := by
  obtain ⟨front, pred, succ, back, left, right, toPred, toSucc, first, last⟩ := circular.neighbours
  have nodup := circular.nodup
  obtain ⟨nodupBefore, nodupRest, apart⟩ := List.nodup_append.mp nodup
  obtain ⟨notAfter, nodupAfter⟩ := List.nodup_cons.mp nodupRest
  have predCases : pred = none ∨ ∃ x ∈ before, pred = some x := by
    have member : pred ∈ none :: before.map some := by simp [left]
    simpa [eq_comm] using member
  have succCases : succ = none ∨ ∃ x ∈ after, succ = some x := by
    have member : succ ∈ after.map some ++ [none] := by simp [right]
    simpa [eq_comm, or_comm] using member
  have ne : some item ≠ succ := by
    rcases succCases with rfl | ⟨x, inside, rfl⟩
    · simp
    · rintro ⟨⟩
      exact notAfter inside
  have prev : (links.unlink item).prev = update links.prev succ pred := by
    simp only [Links.unlink, toPred, toSucc]
  have next : (links.unlink item).next = update links.next pred succ := by
    simp only [Links.unlink, toPred, toSucc, update_of_ne ne]
  have nodupLeft : (front ++ [pred]).Nodup := by
    rw [← left]
    simpa using nodupBefore.map (Option.some_injective _)
  have nodupRight : (succ :: back).Nodup := by
    rw [← right]
    simpa [List.nodup_append] using nodupAfter.map (Option.some_injective _)
  refine ⟨(List.nodup_append.mpr ⟨nodupBefore, nodupAfter, fun x inBefore y inAfter =>
    apart x inBefore y (List.mem_cons_of_mem _ inAfter)⟩), ?_⟩
  have whole : lap (before ++ after) = front ++ pred :: succ :: back := by
    rw [← right, lap]
    have split : none :: List.map some (before ++ after) =
        (none :: before.map some) ++ after.map some := by simp
    rw [split, left]
    simp
  rw [whole, List.isChain_append_cons_cons, prev, next]
  refine ⟨?_, by simp, ?_⟩
  · refine chain_congr first fun node inside other later linked => ?_
    have inFront : node ∈ front := by simpa using inside
    have notPred : node ≠ pred := by
      rintro rfl
      exact (List.nodup_append.mp nodupLeft).2.2 node inFront node (by simp) rfl
    obtain ⟨x, inBefore, rfl⟩ : ∃ x ∈ before, some x = other := by
      rw [← left] at later
      simpa using later
    have notSucc : some x ≠ succ := by
      rcases succCases with rfl | ⟨y, inAfter, rfl⟩
      · simp
      · rintro ⟨⟩
        exact apart x inBefore x (List.mem_cons_of_mem _ inAfter) rfl
    rw [update_of_ne notPred, update_of_ne notSucc]
    exact linked
  · refine chain_congr last fun node inside other later linked => ?_
    have notSucc : other ≠ succ := by
      rintro rfl
      exact (List.nodup_cons.mp nodupRight).1 later
    obtain ⟨x, inAfter, rfl⟩ : ∃ x ∈ after, some x = node := by
      rw [← right, List.dropLast_concat] at inside
      simpa using inside
    have notPred : some x ≠ pred := by
      rcases predCases with rfl | ⟨y, inBefore, rfl⟩
      · simp
      · rintro ⟨⟩
        exact apart x inBefore x (List.mem_cons_of_mem _ inAfter) rfl
    rw [update_of_ne notPred, update_of_ne notSucc]
    exact linked

theorem pushFront (circular : Circular links order) (new : item ∉ order) :
    Circular (links.pushFront item) (item :: order) := by
  obtain ⟨succ, back, right⟩ : ∃ succ back, order.map some ++ [none] = succ :: back :=
    List.exists_cons_of_ne_nil (by simp)
  have chain := circular.chain
  have whole : lap order = none :: succ :: back := by
    rw [← right]
    rfl
  rw [whole] at chain
  obtain ⟨⟨toSucc, -⟩, rest⟩ := List.isChain_cons_cons.mp chain
  have nodupRight : (succ :: back).Nodup := by
    rw [← right]
    simpa [List.nodup_append] using circular.nodup.map (Option.some_injective _)
  have notItem : ∀ node ∈ succ :: back, node ≠ some item := by
    rintro node inside rfl
    rw [← right] at inside
    exact new (by simpa using inside)
  have next : (links.pushFront item).next =
      update (update links.next (some item) succ) none (some item) := by
    simp only [Links.pushFront, toSucc]
  have prev : (links.pushFront item).prev =
      update (update links.prev (some item) none) succ (some item) := by
    simp [Links.pushFront, toSucc]
  refine ⟨List.nodup_cons.mpr ⟨new, circular.nodup⟩, ?_⟩
  have around : lap (item :: order) = none :: some item :: succ :: back := by
    rw [← right]
    rfl
  rw [around, next, prev]
  refine List.isChain_cons_cons.mpr
    ⟨⟨by simp, ?_⟩, List.isChain_cons_cons.mpr ⟨⟨by simp, by simp⟩, ?_⟩⟩
  · rw [update_of_ne (notItem succ (by simp)).symm]
    simp
  · refine chain_congr rest fun node inside other later linked => ?_
    obtain ⟨x, inOrder, rfl⟩ : ∃ x ∈ order, some x = node := by
      rw [← right, List.dropLast_concat] at inside
      simpa using inside
    have notSucc : other ≠ succ := by
      rintro rfl
      exact (List.nodup_cons.mp nodupRight).1 later
    have isOther : some x ≠ some item := by
      rintro ⟨⟩
      exact new inOrder
    rw [update_of_ne (Option.some_ne_none x), update_of_ne isOther,
      update_of_ne notSucc, update_of_ne (notItem other (List.mem_of_mem_tail later))]
    exact linked

/-- An item that is moved to the front. -/
theorem moveFront (circular : Circular links order) (member : item ∈ order) :
    Circular ((links.unlink item).pushFront item) (item :: order.erase item) := by
  obtain ⟨before, after, rfl, notBefore⟩ := List.eq_append_cons_of_mem member
  rw [List.erase_append_right _ notBefore, List.erase_cons_head]
  refine circular.unlink.pushFront ?_
  have nodup := circular.nodup
  rw [List.nodup_middle] at nodup
  exact (List.nodup_cons.mp nodup).1

end Circular
