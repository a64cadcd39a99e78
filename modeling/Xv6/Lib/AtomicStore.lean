import Mathlib

/-!
# Atomic stores

What a transactional store promises: writes become durable together at a commit,
and a crash drops the writes since the last commit.  The store is described by
the events that happened to it; its contents follow from an initial map.
-/

namespace AtomicStore

universe u v

variable {Key : Type u} {Value : Type v}

inductive Event (Key : Type u) (Value : Type v) where
  | write (key : Key) (value : Value)
  | commit
  | crash

/-- The committed transactions in order, and the writes since the last commit. -/
structure State (Key : Type u) (Value : Type v) where
  committed : List (List (Key × Value)) := []
  pending : List (Key × Value) := []

def State.step (state : State Key Value) : Event Key Value → State Key Value
  | .write key value => { state with pending := state.pending ++ [(key, value)] }
  | .commit => ⟨state.committed ++ [state.pending], []⟩
  | .crash => { state with pending := [] }

/-- The store after a sequence of events. -/
def replay (events : List (Event Key Value)) : State Key Value :=
  events.foldl State.step {}

variable [DecidableEq Key]

/-- The contents after a list of writes. -/
def write (contents : Key → Value) (writes : List (Key × Value)) : Key → Value :=
  writes.foldl (fun contents entry => Function.update contents entry.1 entry.2) contents

/-- The contents after a list of transactions. -/
def contentsAfter (base : Key → Value) (transactions : List (List (Key × Value))) :
    Key → Value :=
  transactions.foldl write base

/-- What a crash leaves. -/
def State.durable (base : Key → Value) (state : State Key Value) : Key → Value :=
  contentsAfter base state.committed

/-- What a reader sees. -/
def State.current (base : Key → Value) (state : State Key Value) : Key → Value :=
  write (state.durable base) state.pending

section Steps

variable (base : Key → Value) (state : State Key Value) (key : Key) (value : Value)

@[simp] theorem durable_write :
    (state.step (.write key value)).durable base = state.durable base := rfl

@[simp] theorem current_write : (state.step (.write key value)).current base =
    Function.update (state.current base) key value := by
  simp [State.current, State.durable, State.step, write]

@[simp] theorem durable_commit : (state.step .commit).durable base = state.current base := by
  simp [State.current, State.durable, State.step, contentsAfter]

@[simp] theorem current_commit : (state.step .commit).current base = state.current base := by
  simp [State.current, State.durable, State.step, contentsAfter, write]

@[simp] theorem durable_crash : (state.step .crash).durable base = state.durable base := rfl

@[simp] theorem current_crash : (state.step .crash).current base = state.durable base := rfl

end Steps

end AtomicStore
