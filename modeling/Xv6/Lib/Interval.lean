import Mathlib

/-!
# Counting over a range of numbers

A loop over consecutive numbers, seen as its first turn and the rest.
-/

namespace Interval

variable {P Q : Nat → Prop} [DecidablePred P] [DecidablePred Q]

theorem Ico_succ (first count : Nat) : Finset.Ico first (first + (count + 1)) =
    insert first (Finset.Ico (first + 1) (first + 1 + count)) := by
  ext n
  simp only [Finset.mem_Ico, Finset.mem_insert]
  omega

/-- The numbers of a range with a property: the first one and the others, which may be counted with
a property that differs at the first number. -/
theorem card_filter_succ {first count : Nat} (same : ∀ n, first < n → (Q n ↔ P n)) :
    ((Finset.Ico first (first + (count + 1))).filter P).card = (if P first then 1 else 0) +
      ((Finset.Ico (first + 1) (first + 1 + count)).filter Q).card := by
  have rest : (Finset.Ico (first + 1) (first + 1 + count)).filter Q =
      (Finset.Ico (first + 1) (first + 1 + count)).filter P :=
    Finset.filter_congr fun n member => same n (Finset.mem_Ico.mp member).1
  rw [Ico_succ, Finset.filter_insert, rest]
  split_ifs
  · rw [Finset.card_insert_of_notMem (by simp), Nat.add_comm]
  · rw [Nat.zero_add]

end Interval
