import Mathlib

/-!
# Computations that may fail

How a computation in `Except` that is made of two parts can end.
-/

namespace Xv6

universe u v

variable {ε : Type u} {α β : Type v} {first : Except ε α} {next : α → Except ε β}

/-- A sequence of two computations that succeeds. -/
theorem ok_of_bind {result : β} (outcome : (first >>= next) = .ok result) :
    ∃ value, first = .ok value ∧ next value = .ok result := by
  cases first with
  | error cause => cases outcome
  | ok value => exact ⟨value, rfl, outcome⟩

/-- A sequence of two computations that fails. -/
theorem error_of_bind {cause : ε} (outcome : (first >>= next) = .error cause) :
    first = .error cause ∨ ∃ value, first = .ok value ∧ next value = .error cause := by
  cases first with
  | error other =>
    cases outcome
    exact .inl rfl
  | ok value => exact .inr ⟨value, rfl, outcome⟩

/-- Mapping the result of a sequence of two computations. -/
theorem map_bind {γ : Type v} (first : Except ε α) (next : α → Except ε β) (f : β → γ) :
    (first >>= next).map f = first >>= fun value => (next value).map f := by
  cases first <;> rfl

theorem bind_map {γ : Type v} (first : Except ε α) (f : α → β) (next : β → Except ε γ) :
    (first.map f >>= next) = first >>= fun value => next (f value) := by
  cases first <;> rfl

theorem ok_of_mem_toOption {outcome : Except ε α} {value : α}
    (returned : value ∈ outcome.toOption) : outcome = .ok value := by
  cases outcome <;> cases returned
  rfl

theorem ok_of_map {f : α → β} {result : β} (mapped : first.map f = .ok result) :
    ∃ value, first = .ok value ∧ f value = result := by
  cases first with
  | error cause => cases mapped
  | ok value => exact ⟨value, rfl, Except.ok.inj mapped⟩

theorem ok_of_toOption_map {f : α → β} {result : β} (mapped : first.toOption.map f = some result) :
    ∃ value, first = .ok value ∧ f value = result := by
  obtain ⟨value, returned, same⟩ := Option.map_eq_some_iff.mp mapped
  exact ⟨value, ok_of_mem_toOption returned, same⟩

/-- The computation succeeds, and its result meets a condition. -/
def Returns (post : α → Prop) (outcome : Except ε α) : Prop :=
  ∃ value, outcome = .ok value ∧ post value

namespace Returns

variable {outcome : Except ε α} {post post' : α → Prop}

theorem pure {value : α} (holds : post value) : Returns post (.ok value : Except ε α) :=
  ⟨value, rfl, holds⟩

theorem mono (returns : Returns post outcome) (weaker : ∀ value, post value → post' value) :
    Returns post' outcome := by
  obtain ⟨value, done, holds⟩ := returns
  exact ⟨value, done, weaker value holds⟩

/-- What is known of every result is known of the one returned. -/
theorem strengthen (returns : Returns post outcome)
    (always : ∀ value, outcome = .ok value → post value → post' value) : Returns post' outcome := by
  obtain ⟨value, done, holds⟩ := returns
  exact ⟨value, done, always value done holds⟩

theorem of_ok {value : α} (returns : Returns post outcome) (done : outcome = .ok value) :
    post value := by
  obtain ⟨other, same, holds⟩ := returns
  rw [done] at same
  cases same
  exact holds

theorem bind {next : α → Except ε β} {final : β → Prop} (first : Returns post outcome)
    (rest : ∀ value, outcome = .ok value → post value → Returns final (next value)) :
    Returns final (outcome >>= next) := by
  obtain ⟨value, rfl, holds⟩ := first
  exact rest value rfl holds

end Returns

/-- The computation succeeds with a result that meets a condition, or it fails and there is an
excuse for that. -/
def Ends (post : α → Prop) (excuse : Prop) : Except ε α → Prop
  | .ok value => post value
  | .error _ => excuse

namespace Ends

variable {outcome : Except ε α} {post post' : α → Prop} {excuse excuse' : Prop}

theorem mono (ends : Ends post excuse outcome) (weaker : ∀ value, post value → post' value)
    (excused : excuse → excuse') : Ends post' excuse' outcome := by
  cases outcome with
  | error cause => exact excused ends
  | ok value => exact weaker value ends

theorem bind {next : α → Except ε β} {final : β → Prop} (first : Ends post excuse outcome)
    (excused : excuse → excuse') (rest : ∀ value, post value → Ends final excuse' (next value)) :
    Ends final excuse' (outcome >>= next) := by
  cases outcome with
  | error cause => exact excused first
  | ok value => exact rest value first

theorem of_returns (returns : Returns post outcome) : Ends post excuse outcome := by
  obtain ⟨value, rfl, holds⟩ := returns
  exact holds

theorem of_ok {value : α} (ends : Ends post excuse outcome) (done : outcome = .ok value) :
    post value := by
  rw [done] at ends
  exact ends

/-- Without an excuse the computation succeeds. -/
theorem returns (ends : Ends post excuse outcome) (noExcuse : ¬ excuse) : Returns post outcome := by
  cases outcome with
  | error cause => exact (noExcuse ends).elim
  | ok value => exact ⟨value, rfl, ends⟩

end Ends

end Xv6
