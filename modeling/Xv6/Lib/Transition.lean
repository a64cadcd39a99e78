import Mathlib

/-!
# Runs of labelled transition systems

A system is given by its step relation alone.  Runs carry the list of labels
they perform, so that a property of a run can be stated about the calls made in
it.  A guard selects the runs all of whose steps meet a condition on the state
before the step.
-/

namespace Transition

open List

universe u v w

variable {State : Type u} {Label : Type v}

/-- Finite runs, extended at their end. -/
inductive Run (step : State → Label → State → Prop) :
    State → List Label → State → Prop where
  | nil (start : State) : Run step start [] start
  | snoc {start middle finish : State} {labels : List Label} {label : Label} :
      Run step start labels middle → step middle label finish →
      Run step start (labels ++ [label]) finish

/-- Restrict a step relation to the steps whose source state and label meet a
condition. -/
def Guarded (guard : State → Label → Prop) (step : State → Label → State → Prop) :
    State → Label → State → Prop :=
  fun before label after => guard before label ∧ step before label after

/-- Perform a list of labels with a step function. -/
def runAll (exec : State → Label → Option State) : State → List Label → Option State
  | state, [] => some state
  | state, label :: labels => (exec state label).bind fun next => runAll exec next labels

theorem runAll_append (exec : State → Label → Option State) (state : State)
    (first second : List Label) :
    runAll exec state (first ++ second) =
      (runAll exec state first).bind fun next => runAll exec next second := by
  induction first generalizing state with
  | nil => rfl
  | cons label first ih => simp [runAll, ih, Option.bind_assoc]

/-- A step function that refuses the steps that do not meet a condition. -/
def guardedExec (guard : State → Label → Prop) [∀ state label, Decidable (guard state label)]
    (exec : State → Label → Option State) : State → Label → Option State :=
  fun state label => if guard state label then exec state label else none

namespace Run

variable {step : State → Label → State → Prop}

variable {labels : List Label} {start finish : State} {exec : State → Label → Option State}

/-- An invariant that one step preserves holds after every run. -/
theorem invariant {Inv : State → Prop}
    (preserved : ∀ before label after, Inv before → step before label after → Inv after)
    {start finish : State} (run : Run step start labels finish) (initial : Inv start) :
    Inv finish := by
  induction run with
  | nil => exact initial
  | snoc _ taken ih => exact preserved _ _ _ ih taken

/-- An invariant relating the labels performed so far to the state reached. -/
theorem historyInvariant {Inv : List Label → State → Prop} (preserved : ∀ labels before label after,
      Inv labels before → step before label after → Inv (labels ++ [label]) after)
    {start finish : State} (run : Run step start labels finish) (initial : Inv [] start) :
    Inv labels finish := by
  induction run with
  | nil => exact initial
  | snoc _ taken ih => exact preserved _ _ _ _ ih taken

/-- An invariant that the steps with admitted labels preserve holds after every
run of such steps. -/
theorem invariantOn {Inv : State → Prop} {admitted : Label → Prop}
    (preserved : ∀ before label after,
      admitted label → Inv before → step before label after → Inv after) {start finish : State}
    (run : Run step start labels finish) (all : ∀ label ∈ labels, admitted label)
    (initial : Inv start) : Inv finish := by
  induction run with
  | nil => exact initial
  | snoc _ taken ih =>
    have before := ih fun label member => all label (mem_append_left _ member)
    have last := all _ (mem_append_right _ (mem_singleton_self _))
    exact preserved _ _ _ last before taken

/-- Two runs compose end to end. -/
theorem append {start middle finish : State} {first second : List Label}
    (left : Run step start first middle) (right : Run step middle second finish) :
    Run step start (first ++ second) finish := by
  induction right with
  | nil => simpa using left
  | snoc _ taken ih =>
    rw [← append_assoc]
    exact .snoc ih taken

/-- A run of one step. -/
theorem single {before after : State} {label : Label}
    (taken : step before label after) : Run step before [label] after :=
  .snoc (.nil before) taken

variable (sound : ∀ before label after, exec before label = some after → step before label after)
include sound

/-- A computed run. -/
theorem of_runAll (done : runAll exec start labels = some finish) :
    Run step start labels finish := by
  induction labels generalizing start with
  | nil =>
    cases done
    exact .nil _
  | cons label labels ih =>
    obtain ⟨next, taken, rest⟩ := Option.bind_eq_some_iff.mp done
    exact (single (sound _ _ _ taken)).append (ih rest)

theorem exists_of_runAll {start : State} {P : State → Prop}
    (done : ∃ finish ∈ runAll exec start labels, P finish) :
    ∃ finish, Run step start labels finish ∧ P finish := by
  obtain ⟨finish, computed, holds⟩ := done
  exact ⟨finish, of_runAll sound computed, holds⟩

/-- A computed run, with what is computed of its end and what follows from it. -/
theorem exists_and_of_runAll {start : State} {P Q : State → Prop}
    (done : ∃ finish ∈ runAll exec start labels, P finish)
    (holds : ∀ finish, Run step start labels finish → P finish → Q finish) :
    ∃ finish, Run step start labels finish ∧ P finish ∧ Q finish := by
  obtain ⟨finish, computed, meets⟩ := done
  have run := of_runAll sound computed
  exact ⟨finish, run, meets, holds finish run meets⟩

variable {guard : State → Label → Prop} [∀ state label, Decidable (guard state label)]

theorem guarded_of_exec (before : State) (label : Label) (after : State)
    (taken : guardedExec guard exec before label = some after) :
    Guarded guard step before label after := by
  unfold guardedExec at taken
  split at taken
  case isTrue met => exact ⟨met, sound _ _ _ taken⟩
  case isFalse => cases taken

/-- A computed run whose steps all meet a condition. -/
theorem of_guardedExec (done : runAll (guardedExec guard exec) start labels = some finish) :
    Run (Guarded guard step) start labels finish :=
  of_runAll (guarded_of_exec sound) done

theorem exists_and_of_guardedExec {start : State} {P Q : State → Prop}
    (done : ∃ finish ∈ runAll (guardedExec guard exec) start labels, P finish)
    (holds : ∀ finish, Run (Guarded guard step) start labels finish → P finish → Q finish) :
    ∃ finish, Run (Guarded guard step) start labels finish ∧ P finish ∧ Q finish :=
  exists_and_of_runAll (guarded_of_exec sound) done holds

end Run

end Transition
