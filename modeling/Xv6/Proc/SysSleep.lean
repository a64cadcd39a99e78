import Mathlib

/-!
# Sleeping for a number of ticks

`sys_sleep`.  The caller looks at the clock at the call and each time it runs again after a
wakeup.  While it sleeps any number of ticks may pass, none if the wakeup was spurious.
-/

namespace Xv6.SysSleep

/-- What the caller finds when it holds `tickslock`. -/
structure Look where
  ticks : UInt32
  killed : Bool
  deriving DecidableEq, Repr

/-- The loop of `sys_sleep`: the value it returns and how often it has slept, or `none` if it
still sleeps after the last look.  The comparison converts `n` to an unsigned number. -/
def loop (n : Int32) (ticks0 : UInt32) : List Look → Option (Int × Nat)
  | [] => none
  | look :: looks =>
    if look.ticks - ticks0 < n.toUInt32 then
      if look.killed then some (-1, 0)
      else (loop n ticks0 looks).map fun (value, slept) => (value, slept + 1)
    else
      some (0, 0)

/-- `sys_sleep`, called at `ticks0`. -/
def sysSleep (n : Int32) (ticks0 : UInt32) (killed : Bool) (later : List Look) :
    Option (Int × Nat) :=
  loop n ticks0 (⟨ticks0, killed⟩ :: later)

/-- The ticks elapsed since the call at each look, if `passed` lists those in between. -/
def elapsed (passed : List Nat) : List Nat := passed.scanl (· + ·) 0

/-- What a caller that is not killed finds after the call. -/
def looks (ticks0 : UInt32) (passed : List Nat) : List Look :=
  (elapsed passed).tail.map fun count => ⟨ticks0 + UInt32.ofNat count, false⟩

/-- The call returns 0 at the first look at which `n` ticks have elapsed. -/
def SleepsFor (n : Int32) (ticks0 : UInt32) (passed : List Nat) : Prop :=
  sysSleep n ticks0 false (looks ticks0 passed) =
    ((elapsed passed).findIdx? fun count : Nat => max n.toInt 0 ≤ count).map (0, ·)

instance (n : Int32) (ticks0 : UInt32) (passed : List Nat) :
    Decidable (SleepsFor n ticks0 passed) :=
  inferInstanceAs (Decidable (_ = _))

theorem loop_eq_findIdx? (n : Int32) (ticks0 : UInt32) (counts : List Nat) :
    loop n ticks0 (counts.map fun count => ⟨ticks0 + UInt32.ofNat count, false⟩) =
      (counts.findIdx? fun count => n.toUInt32 ≤ UInt32.ofNat count).map (0, ·) := by
  induction counts with
  | nil => rfl
  | cons count counts ih =>
    rw [List.map_cons, loop, List.findIdx?_cons, ih]
    by_cases due : n.toUInt32 ≤ UInt32.ofNat count
    · simp [due, UInt32.not_lt.mpr due]
    · simp [due, UInt32.not_le.mp due, Function.comp_def]

/-- A stronger test finds the same element first if that element passes it. -/
theorem findIdx?_eq_iff {α : Type} {weak strong : α → Bool} (items : List α)
    (stronger : ∀ item, strong item = true → weak item = true) :
    items.findIdx? strong = items.findIdx? weak ↔
      ∀ item ∈ items.find? weak, strong item = true := by
  induction items with
  | nil => simp
  | cons item items ih =>
    rw [List.findIdx?_cons, List.findIdx?_cons, List.find?_cons]
    cases found : weak item with
    | false =>
      have missed : strong item = false := by
        cases passes : strong item with
        | false => rfl
        | true => exact (stronger item passes).symm.trans found
      simpa [missed, (Option.map_injective (add_left_injective 1)).eq_iff] using ih
    | true => cases passes : strong item <;> simp [passes]

/-- The call waits as long as it is asked to exactly if the number is not negative and the
caller runs again before the clock has wrapped. -/
theorem sleepsFor_iff (n : Int32) (ticks0 : UInt32) (passed : List Nat) :
    SleepsFor n ticks0 passed ↔
      0 ≤ n.toInt ∧ ∀ count ∈ (elapsed passed).find? fun count : Nat => n.toInt ≤ count,
        n.toInt ≤ (count % 2 ^ 32 : Nat) := by
  have whole : sysSleep n ticks0 false (looks ticks0 passed) =
      ((elapsed passed).findIdx? fun count => n.toUInt32 ≤ UInt32.ofNat count).map (0, ·) := by
    rw [← loop_eq_findIdx? n ticks0]
    cases passed <;> simp [sysSleep, looks, elapsed]
  have unsigned : n.toInt = if 2 * n.toUInt32.toNat < 2 ^ 32 then (n.toUInt32.toNat : Int)
      else n.toUInt32.toNat - (2 ^ 32 : Nat) := BitVec.toInt_eq_toNat_cond n.toBitVec
  have small := n.toUInt32.toNat_lt
  rw [SleepsFor, whole, (Option.map_injective (Prod.mk_right_injective 0)).eq_iff]
  by_cases sign : 0 ≤ n.toInt
  · have same : n.toInt = n.toUInt32.toNat := by
      split_ifs at unsigned <;> omega
    simp only [UInt32.le_iff_toNat_le, UInt32.toNat_ofNat']
    rw [findIdx?_eq_iff _ fun count due => ?_]
    · simp only [same, sup_of_le_left, Int.natCast_nonneg, Int.ofNat_le, true_and,
        decide_eq_true_eq]
    · simp only [same, decide_eq_true_eq] at due ⊢
      have := Nat.mod_le count (2 ^ 32)
      omega
  · refine ⟨fun equal => ?_, fun fine => (sign fine.1).elim⟩
    -- the call should return at the first look, at which no tick has elapsed
    have positive : 0 < n.toUInt32.toNat := by
      split_ifs at unsigned <;> omega
    have begins : elapsed passed = 0 :: (elapsed passed).tail := by
      cases passed <;> simp [elapsed]
    have nonpos : n.toInt ≤ 0 := by omega
    rw [begins, List.findIdx?_cons, List.findIdx?_cons] at equal
    simp [nonpos, UInt32.le_iff_toNat_le, positive.ne'] at equal

/-- `sleep(-1)` still sleeps after a tick. -/
theorem sleeps_on_negative : ¬ SleepsFor (-1) 0 [1] := by
  decide

end Xv6.SysSleep
