import Xv6.Pipe.Calls

/-!
# Who has the lock of the pipe

Which function a process can be in at each place of its call, and that a process inside a call holds
`pi->lock` unless it sleeps.
-/

namespace Xv6.Pipes

open Sleep Transition

/-- The lock that `sleep` was given is released, and not acquired again. -/
def dropped : Pc → Bool
  | .sleep .entered _ _ | .sleep .locked _ _ => false
  | .sleep _ _ _ => true
  | _ => false

/-- The functions that a process can be in at a place of its call. -/
def Call.At (pi : Nat) : Call → Pc → Prop
  | .idle _, .sleep _ chan lk => lk ≠ lock pi ∧ chan ≠ nread pi ∧ chan ≠ nwrite pi
  | .idle _, _ => True
  | .writeLoop _ _, .sleep _ chan lk => chan = nwrite pi ∧ lk = lock pi
  | .readWait _, .sleep _ chan lk => chan = nread pi ∧ lk = lock pi
  | .writeFull _ _, .wakeup chan _ => chan = nread pi
  | .releasing _, .wakeup _ _ => True
  | _, .run => True
  | call, .yielding | call, .yielded | call, .resumed => call.outside = true
  | _, _ => False

namespace Call.At

variable {pi : Nat} {call : Call} {chan : Chan}

@[simp] theorem run : call.At pi .run := by
  cases call <;> trivial

theorem stage {stage : Stage} {lk : Lock} (place : call.At pi (.sleep stage chan lk))
    (stage' : Stage) : call.At pi (.sleep stage' chan lk) := by
  cases call <;> exact place

theorem todo {todo : List Slot} (place : call.At pi (.wakeup chan todo)) (todo' : List Slot) :
    call.At pi (.wakeup chan todo') := by
  cases call <;> exact place

theorem search {pid : Int} {todo : List Slot} (place : call.At pi (.kill pid todo))
    (todo' : List Slot) : call.At pi (.kill pid todo') := by
  cases call <;> exact place

theorem paused (outside : call.outside = true) :
    call.At pi .yielding ∧ call.At pi .yielded ∧ call.At pi .resumed := by
  cases call <;> trivial

theorem outside_of_yielding (place : call.At pi .yielding) : call.outside = true := by
  cases call <;> first | rfl | exact place

theorem outside_of_yielded (place : call.At pi .yielded) : call.outside = true := by
  cases call <;> first | rfl | exact place

/-- A call that sleeps with another lock is none of these. -/
theorem lock_of_inside {stage : Stage} {lk : Lock} (place : call.At pi (.sleep stage chan lk))
    (inside : call.outside = false) : lk = lock pi := by
  cases call with
  | idle => cases inside
  | writeLoop
  | readWait => exact place.2
  | _ => cases place

end Call.At

namespace System

variable {build : Scheduler} {pi : Nat} {system after : System} {self slot : Slot} {act : Act}
  {call : Call} {action : Action}

structure Placed (pi : Nat) (system : System) (slot : Slot) : Prop where
  place : (system.call slot).At pi (system.machine.pc slot)
  locked : (system.call slot).outside = false → dropped (system.machine.pc slot) = false →
    system.machine.holder (lock pi) = some slot

theorem permits_inside (inside : call.outside = false) (permitted : call.permits pi action = true) :
    action = .proceed ∨ action = .dispatch ∨ action = .tick := by
  cases call <;> cases action <;> simp_all [Call.permits, Call.outside]

/-- What a process does in the machine beside its call fits to the call. -/
theorem place_change {machine after : Sleep.Machine} (place : call.At pi (machine.pc self))
    (permitted : call.permits pi action = true)
    (change : Sleep.Machine.Change build machine self action after) :
    call.At pi (after.pc self) := by
  cases change with
  | acquire
  | release
  | tick => exact place
  | enter chan lk outside
  | wakeup chan outside
  | kill pid outside => cases call <;> simp_all [Call.permits, Call.At]
  | yield => simpa using (Call.At.paused (by cases call <;> exact permitted)).1
  | lock chan lk here
  | unlock chan lk here
  | mark chan lk here
  | switch chan lk here
  | tidy chan lk here
  | finish chan lk here =>
    rw [here] at place
    simpa using place.stage _
  | pass chan todo here
  | rouse chan target todo here =>
    rw [here] at place
    simpa using place.todo todo
  | search pid target todo here =>
    rw [here] at place
    simpa using place.search todo
  | relock
  | wakeupDone
  | killDone
  | hit
  | resumed => simp
  | yielded here =>
    rw [here] at place
    simpa using (Call.At.paused place.outside_of_yielding).2.1
  | dispatch pc free runnable paused =>
    rcases paused with ⟨chan, lk, here, rfl⟩ | ⟨here, rfl⟩
    · rw [here] at place
      simpa using place.stage .back
    · rw [here] at place
      simpa using (Call.At.paused place.outside_of_yielded).2.2

/-- Inside a call, `pi->lock` goes and comes back with `sleep`. -/
theorem locked_change {machine after : Sleep.Machine} (place : call.At pi (machine.pc self))
    (inside : call.outside = false) (permitted : call.permits pi action = true)
    (locked : dropped (machine.pc self) = false → machine.holder (lock pi) = some self)
    (change : Sleep.Machine.Change build machine self action after)
    (kept : dropped (after.pc self) = false) : after.holder (lock pi) = some self := by
  have limited := permits_inside inside permitted
  cases change with
  | acquire
  | release
  | enter
  | wakeup
  | kill
  | yield => simp at limited
  | lock chan lk here
  | pass chan todo here
  | rouse chan target todo here
  | wakeupDone chan here
  | search pid target todo here
  | killDone pid here
  | hit pid target todo here
  | yielded here
  | resumed here => exact locked (by rw [here]; rfl)
  | unlock
  | mark
  | switch
  | tidy
  | finish => simp [dropped] at kept
  | relock chan lk here =>
    rw [here] at place
    simp [place.lock_of_inside inside]
  | dispatch pc free runnable paused =>
    rcases paused with ⟨chan, lk, here, rfl⟩ | ⟨here, rfl⟩
    · simp [dropped] at kept
    · exact locked (by rw [here]; rfl)
  | tick => exact locked kept

theorem Placed.other (placed : system.Placed pi slot) (fits : system.machine.Fits self)
    (change : Change build pi system self act after) (other : slot ≠ self) :
    after.Placed pi slot := by
  have moved : ∀ (machine : Sleep.Machine) (pipe : Pipe) (call : Slot → Call),
      Sleep.Machine.Kept system.machine machine slot → call slot = system.call slot →
      Placed pi ⟨machine, pipe, call⟩ slot := by
    intro machine pipe call kept same
    refine ⟨?_, fun inside held => ?_⟩
    · simpa [same, kept.pc] using placed.place
    · simp only [same, kept.pc] at inside held
      exact kept.holder _ (placed.locked inside held)
  have still : Sleep.Machine.Kept system.machine system.machine slot :=
    ⟨rfl, rfl, .refl _, fun _ => rfl, fun _ => id⟩
  cases change with
  | start entry
  | silent user pipe call call' => exact moved _ _ _ still (Function.update_of_ne other _ _)
  | calls user action machine pipe call call' running here moves change =>
    exact moved _ _ _ (change.other fits other) (Function.update_of_ne other _ _)
  | kernel action machine permitted change => exact moved _ _ _ (change.other fits other) rfl

theorem Placed.acts (placed : system.Placed pi self)
    (change : Change build pi system self act after) : after.Placed pi self := by
  cases change with
  | start entry value running idle =>
    refine ⟨by simp [running], fun inside => ?_⟩
    cases entry <;> simp [Entry.call, Call.outside] at inside
  | silent user pipe call call' running here moves =>
    refine ⟨by simp [running], fun _ kept => placed.locked ?_ kept⟩
    rw [here]
    cases moves <;> simp_all [Call.outside]
  | calls user action machine pipe call call' running here moves change =>
    have locked := placed.locked
    rw [here, running] at locked
    cases moves with
    | writeAcquire
    | readAcquire
    | closeAcquire =>
      cases change
      exact ⟨by simp [running], fun _ _ => by simp⟩
    | release =>
      cases change
      exact ⟨by simp [running], fun inside => by simp [Call.outside] at inside⟩
    | _ =>
      cases change
      exact ⟨by simp [Call.At], fun _ _ => locked rfl rfl⟩
  | kernel action machine permitted change =>
    exact ⟨place_change placed.place permitted change, fun inside kept =>
      locked_change placed.place inside permitted (placed.locked inside) change kept⟩

theorem fits_change (fits : ∀ slot, system.machine.Fits slot)
    (change : Change build pi system self act after) (slot : Slot) : after.machine.Fits slot := by
  cases change with
  | start
  | silent => exact fits slot
  | calls user action machine pipe call call' running here moves change =>
    exact Sleep.Machine.Fits.change fits change slot
  | kernel action machine permitted change => exact Sleep.Machine.Fits.change fits change slot

/-- The processes are where they can be. -/
structure Ordered (pi : Nat) (system : System) : Prop where
  fits : ∀ slot, system.machine.Fits slot
  placed : ∀ slot, system.Placed pi slot

theorem Ordered.change (ordered : system.Ordered pi)
    (change : Change build pi system self act after) : after.Ordered pi where
  fits := fits_change ordered.fits change
  placed := by
    intro slot
    obtain rfl | same := eq_or_ne slot self
    · exact (ordered.placed slot).acts change
    · exact (ordered.placed slot).other (ordered.fits self) change same

theorem boot_ordered (pi : Nat) (used : Slot → Bool) (pid : Slot → Int) (ticks : UInt32)
    (data : Nat → UInt8) : (boot used pid ticks data).Ordered pi where
  fits := Sleep.Machine.boot_fits used pid ticks
  placed := fun _ => ⟨trivial, nofun⟩

/-- Two processes are not inside calls at the same time, unless one of them sleeps. -/
theorem Ordered.alone (ordered : system.Ordered pi)
    (inside : (system.call self).outside = false) (held : dropped (system.machine.pc self) = false)
    (inside' : (system.call slot).outside = false)
    (held' : dropped (system.machine.pc slot) = false) : slot = self := by
  have first := (ordered.placed self).locked inside held
  rw [(ordered.placed slot).locked inside' held', Option.some.injEq] at first
  exact first

end System

end Xv6.Pipes
