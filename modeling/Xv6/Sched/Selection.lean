import Xv6.Sched.Discipline

/-!
# Selection by one scan

The candidate a scan ends with, for a build that replaces the candidate by the
visited slot when it prefers it.  The preference only has to be a strict weak
order; the result is then the first slot that no other slot is preferred to.
-/

namespace Xv6

open Machine

section Selection

variable (prefer : Table → Slot → Slot → Prop) [∀ table, DecidableRel (prefer table)]

/-- The candidate after a visit. -/
def bestOf (table : Table) (check : Option Slot) (slot : Slot) : Option Slot :=
  if table.Runnable slot then
    match check with
    | none => some slot
    | some candidate => if prefer table slot candidate then some slot else check
  else
    check

/-- What a preference must satisfy for one scan to find its first best slot. -/
structure StrictWeak (relation : Slot → Slot → Prop) : Prop where
  irrefl : ∀ slot, ¬ relation slot slot
  asymm : ∀ left right, relation left right → ¬ relation right left
  cotrans : ∀ left right other,
    relation left right → ¬ relation other right → relation left other

/-- The candidate among the slots visited so far: the first that none of the
others is preferred to. -/
def Chosen (table : Table) (visited : Slot → Prop) : Option Slot → Prop
  | none => ∀ slot, visited slot → ¬ table.Runnable slot
  | some chosen => table.Runnable chosen ∧ visited chosen ∧
      ∀ slot, visited slot → table.Runnable slot →
        ¬ prefer table slot chosen ∧ (slot < chosen → prefer table chosen slot)

variable {prefer} {table : Table} {check : Option Slot} {visited : Slot → Prop}

theorem mem_bestOf {slot candidate : Slot} (chosen : candidate ∈ bestOf prefer table check slot) :
    candidate ∈ check ∨ candidate = slot ∧ table.Runnable slot := by
  by_cases runnable : table.Runnable slot
  · cases check with
    | none =>
      simp only [bestOf, runnable, ↓reduceIte] at chosen
      cases chosen
      exact .inr ⟨rfl, runnable⟩
    | some old =>
      simp only [bestOf, runnable, ↓reduceIte] at chosen
      split at chosen
      · cases chosen
        exact .inr ⟨rfl, runnable⟩
      · exact .inl chosen
  · simp only [bestOf, runnable, ↓reduceIte] at chosen
    exact .inl chosen

variable (weak : StrictWeak (prefer table))
include weak

theorem Chosen.visit (chosen : Chosen prefer table visited check) {slot : Slot}
    (later : ∀ query, visited query → query < slot) :
    Chosen prefer table (fun query => visited query ∨ query = slot)
      (bestOf prefer table check slot) := by
  by_cases runnable : table.Runnable slot
  · cases check with
    | none =>
      simp only [bestOf, runnable, ↓reduceIte, Chosen, or_true, true_and]
      intro query seen queryRunnable
      rcases seen with old | new
      · exact (chosen query old queryRunnable).elim
      · subst new
        exact ⟨weak.irrefl query, fun less => (lt_irrefl query less).elim⟩
    | some candidate =>
      obtain ⟨candidateRunnable, candidateSeen, least⟩ := chosen
      by_cases prefers : prefer table slot candidate
      · simp only [bestOf, runnable, prefers, ↓reduceIte, Chosen, or_true, true_and]
        intro query seen queryRunnable
        rcases seen with old | new
        · have beaten : prefer table slot query :=
            weak.cotrans slot candidate query prefers (least query old queryRunnable).1
          exact ⟨weak.asymm slot query beaten, fun _ => beaten⟩
        · subst new
          exact ⟨weak.irrefl query, fun less => (lt_irrefl query less).elim⟩
      · simp only [bestOf, runnable, prefers, ↓reduceIte, Chosen]
        refine ⟨candidateRunnable, Or.inl candidateSeen, ?_⟩
        intro query seen queryRunnable
        rcases seen with old | new
        · exact least query old queryRunnable
        · subst new
          refine ⟨prefers, fun less => ?_⟩
          exact (lt_asymm less (later candidate candidateSeen)).elim
  · simp only [bestOf, runnable, ↓reduceIte]
    cases check with
    | none =>
      intro query seen
      rcases seen with old | new
      · exact chosen query old
      · subst new
        exact runnable
    | some candidate =>
      obtain ⟨candidateRunnable, candidateSeen, least⟩ := chosen
      refine ⟨candidateRunnable, Or.inl candidateSeen, ?_⟩
      intro query seen queryRunnable
      rcases seen with old | new
      · exact least query old queryRunnable
      · subst new
        exact (runnable queryRunnable).elim

theorem Chosen.scan (todo : List Slot) (sorted : todo.Pairwise (· < ·))
    (chosen : Chosen prefer table visited check)
    (later : ∀ slot ∈ todo, ∀ query, visited query → query < slot) :
    Chosen prefer table (fun query => visited query ∨ query ∈ todo)
      (todo.foldl (bestOf prefer table) check) := by
  induction todo generalizing visited check with
  | nil => simpa using chosen
  | cons slot todo ih =>
    obtain ⟨first, rest⟩ := List.pairwise_cons.mp sorted
    have next := chosen.visit weak (later slot (by simp))
    have scanned := ih rest next (by
      intro other member query seen
      rcases seen with old | new
      · exact later other (by simp [member]) query old
      · subst new
        exact first other member)
    simpa [or_assoc] using scanned

/-- A whole scan chooses among all slots. -/
theorem chosen_allSlots :
    Chosen prefer table (fun _ => True) (allSlots.foldl (bestOf prefer table) none) := by
  have start : Chosen prefer table (fun _ => False) none := fun _ seen => seen.elim
  have scanned := start.scan weak allSlots (List.pairwise_lt_finRange NPROC)
    (fun _ _ _ seen => seen.elim)
  simpa [allSlots] using scanned

end Selection

end Xv6
