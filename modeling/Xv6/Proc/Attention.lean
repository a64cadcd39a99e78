import Xv6.Proc.Wakeups

/-!
# Sleepers that are attended to

A lock protects a condition that processes wait for in `sleep`.  Whoever makes the condition true
has the lock and must call `wakeup` before it gives the lock up: until then each sleeper has an
owner of the lock that is going to wake it.  Here the rule is stated for any lock, channel and
condition; that the owners do their duty is left to the code that uses the lock.
-/

namespace Xv6.Sleep.Machine

variable {build : Scheduler} {machine after : Machine} {self slot : Slot} {action : Action}
  {chan : Chan} {lk : Lock}

/-- The process is `SLEEPING` on a channel or going to be. -/
structure Bound (machine : Machine) (slot : Slot) (chan : Chan) : Prop where
  due : machine.Due slot chan
  notPast : ¬ machine.Past slot

/-- The channel of a call of `sleep` that has released its lock and is not back. -/
def pending : Pc → Option Chan
  | .sleep .released chan _ | .sleep .marked chan _ | .sleep .out chan _ => some chan
  | _ => none

theorem due_iff : machine.Due slot chan ↔ pending (machine.pc slot) = some chan := by
  constructor
  · rintro ⟨lk, here | here | here⟩ <;> rw [here] <;> rfl
  · intro waiting
    generalize here : machine.pc slot = pc at waiting
    cases pc with
    | sleep stage chan' lk =>
      cases stage with
      | released
      | marked
      | out =>
        cases waiting
        exact ⟨lk, by simp [here]⟩
      | _ => cases waiting
    | _ => cases waiting

theorem bound_iff : machine.Bound slot chan ↔ pending (machine.pc slot) = some chan ∧
    ((machine.pc slot).falling = true ∨ (machine.table slot).state = .sleeping) := by
  constructor
  · rintro ⟨due, notPast⟩
    refine ⟨due_iff.mp due, ?_⟩
    by_contra awake
    simp only [not_or, Bool.not_eq_true] at awake
    exact notPast ⟨awake.2, awake.1⟩
  · rintro ⟨waiting, asleep⟩
    refine ⟨due_iff.mpr waiting, fun past => ?_⟩
    rcases asleep with falling | asleep
    · rw [past.position] at falling
      cases falling
    · exact past.awake asleep

instance (machine : Machine) (slot : Slot) (chan : Chan) : Decidable (machine.Bound slot chan) :=
  decidable_of_iff' _ bound_iff

/-- A process that is `SLEEPING` on a channel. -/
theorem Bound.of_sleeping (fits : machine.Fits slot)
    (asleep : (machine.table slot).state = .sleeping) (on : (machine.table slot).chan = some chan) :
    machine.Bound slot chan := by
  refine ⟨?_, fun past => past.awake asleep⟩
  have may := fits.state asleep
  rw [fits.chan] at on
  generalize here : machine.pc slot = pc at may on
  cases pc with
  | sleep stage chan' lk =>
    cases stage with
    | marked =>
      cases on
      exact ⟨lk, Or.inr (Or.inl here)⟩
    | out =>
      cases on
      exact ⟨lk, Or.inr (Or.inr here)⟩
    | _ => cases may
  | _ => cases may

/-- A process comes to sleep by releasing the lock. -/
theorem Bound.before (bound : after.Bound slot chan) (fits : machine.Fits self)
    (change : Change build machine self action after) :
    machine.Bound slot chan ∨ slot = self ∧ ∃ lk, machine.pc slot = .sleep .locked chan lk := by
  obtain ⟨⟨lk, due⟩, notPast⟩ := bound
  obtain rfl | acts := eq_or_ne slot self
  · cases change with
    | unlock chan' lk' here =>
      simp only [goto_pc, if_true, Pc.sleep.injEq, reduceCtorEq, false_and, or_false,
        true_and] at due
      exact .inr ⟨rfl, lk', by rw [here, due.1]⟩
    | mark chan' lk' here =>
      simp only [goto_pc, if_true, Pc.sleep.injEq, reduceCtorEq, false_and, or_false, false_or,
        true_and] at due
      rw [due.1] at here
      exact .inl ⟨⟨lk', Or.inl here⟩, fun past => by simpa [here, Pc.falling] using past.position⟩
    | switch chan' lk' here =>
      simp only [goto_pc, if_true, Pc.sleep.injEq, reduceCtorEq, false_and, false_or,
        true_and] at due
      rw [due.1] at here
      refine .inl ⟨⟨lk', Or.inr (Or.inl here)⟩, fun past => notPast ?_⟩
      exact ⟨past.awake, by simp [Pc.falling]⟩
    | tick => exact .inl ⟨⟨lk, due⟩, fun past => notPast ⟨past.awake, past.position⟩⟩
    | dispatch pc free runnable paused =>
      rcases paused with ⟨chan', lk', -, rfl⟩ | ⟨-, rfl⟩ <;> simp at due
    | _ => simp_all
  · have kept := change.other fits acts
    rw [kept.pc] at due
    exact .inl ⟨⟨lk, due⟩, fun past => notPast (past.kept kept)⟩

/-- A call does not put anybody to sleep. -/
theorem Bound.of_call (bound : after.Bound slot chan) (fits : machine.Fits self)
    (running : machine.pc self = .run) (change : Change build machine self action after) :
    machine.Bound slot chan ∧ slot ≠ self := by
  rcases bound.before fits change with before | ⟨same, lk, here⟩
  · refine ⟨before, ?_⟩
    rintro rfl
    obtain ⟨lk, due⟩ := before.due
    simp [running] at due
  · rw [same, running] at here
    cases here

/-- Each process that sleeps on the channel has reason to wait, or the owner of the lock is on its
way to wake it: it is in `wakeup` or has the duty to call it. -/
def Attended (machine : Machine) (lk : Lock) (chan : Chan) (waits : Prop) (duty : Slot → Prop) :
    Prop :=
  ∀ slot, machine.Bound slot chan → waits ∨
    ∃ owner, machine.holder lk = some owner ∧
      (machine.Serves owner slot chan ∨ machine.pc owner = .run ∧ duty owner)

namespace Attended

variable {waits : Prop} {duty duty' : Slot → Prop}

section

variable (attended : machine.Attended lk chan waits duty)
include attended

/-- While nobody has the lock, the sleepers have reason to sleep. -/
theorem free (free : machine.holder lk = none) (bound : machine.Bound slot chan) : waits := by
  refine (attended slot bound).resolve_right fun ⟨owner, owns, _⟩ => ?_
  rw [free] at owns
  cases owns

/-- The owner is not in `wakeup`. -/
theorem owned (owns : machine.holder lk = some self) (running : machine.pc self = .run)
    (bound : machine.Bound slot chan) : waits ∨ duty self := by
  refine (attended slot bound).imp id fun ⟨owner, owns', attends⟩ => ?_
  obtain rfl : self = owner := Option.some.inj (owns.symm.trans owns')
  rcases attends with serves | ⟨-, duty⟩
  · obtain ⟨todo, here, -⟩ := serves.coming
    rw [running] at here
    cases here
  · exact duty

theorem mono (weaker : ∀ owner, duty owner → duty' owner) :
    machine.Attended lk chan waits duty' := by
  intro slot bound
  refine (attended slot bound).imp id fun ⟨owner, owns, attends⟩ => ?_
  exact ⟨owner, owns, attends.imp id fun ⟨running, duty⟩ => ⟨running, weaker owner duty⟩⟩

end

/-- All sleepers have reason to wait. -/
theorem of_waits (reason : ∀ slot, machine.Bound slot chan → waits) :
    machine.Attended lk chan waits duty :=
  fun slot bound => Or.inl (reason slot bound)

/-- The owner takes care of all sleepers. -/
theorem of_owner (owns : machine.holder lk = some self) (running : machine.pc self = .run)
    (cares : ∀ slot, machine.Bound slot chan → waits ∨ duty self) :
    machine.Attended lk chan waits duty :=
  fun slot bound => (cares slot bound).imp id fun duty => ⟨self, owns, Or.inr ⟨running, duty⟩⟩

/-- A call of `wakeup` by the owner. -/
theorem of_wakeup (owns : machine.holder lk = some self) (fits : machine.Fits self)
    (change : Change build machine self (.wakeup chan) after) :
    after.Attended lk chan waits duty := by
  intro slot bound
  have called := change
  cases change with
  | wakeup _ running =>
    have other : slot ≠ self := (bound.of_call fits running called).2
    exact .inr ⟨self, owns, Or.inl ⟨other, ⟨allSlots, by simp, mem_allSlots slot⟩, bound.due⟩⟩

/-- A step of the machine during which the owners keep to their duty. -/
theorem change (attended : machine.Attended lk chan waits duty) (fits : ∀ slot, machine.Fits slot)
    (change : Change build machine self action after)
    (enters : ∀ lk, machine.pc self = .sleep .locked chan lk → waits)
    (keeps : ∀ slot owner, machine.Bound slot chan → machine.holder lk = some owner →
      machine.pc owner = .run → duty owner →
      waits ∨ after.holder lk = some owner ∧ after.pc owner = .run ∧ duty' owner) :
    after.Attended lk chan waits duty' := by
  intro slot bound
  rcases bound.before (fits self) change with before | ⟨same, lk', here⟩
  · rcases attended slot before with waits | ⟨owner, owns, serves | ⟨running, duty⟩⟩
    · exact .inl waits
    · refine .inr ⟨owner, ?_, Or.inl ((serves.change fits change).resolve_right bound.notPast)⟩
      obtain rfl | acts := eq_or_ne owner self
      · obtain ⟨todo, here, -⟩ := serves.coming
        have kept : after.holder = machine.holder := by cases change <;> simp_all
        rwa [kept]
      · exact (change.other (fits self) acts).holder lk owns
    · refine (keeps slot owner before owns running duty).imp id fun ⟨owns, running, duty⟩ => ?_
      exact ⟨owner, owns, Or.inr ⟨running, duty⟩⟩
  · exact .inl (enters lk' (same ▸ here))

end Attended

end Xv6.Sleep.Machine
