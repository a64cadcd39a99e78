import Xv6.Pipe.Positions

/-!
# Pipes are lossless

The bytes that `pipewrite` has stored and those that `piperead` has copied out are written down; the
difference is what is in the buffer, also after the counters have wrapped.
-/

namespace Xv6.Pipes

open Sleep Transition

/-- The bytes between the two counters. -/
def Pipe.contents (pipe : Pipe) : List UInt8 :=
  Cyclic.contents PIPESIZE pipe.data pipe.nread pipe.nwrite

namespace Pipe

variable {pipe : Pipe}

theorem store_contents (room : pipe.contents.length < PIPESIZE) (ch : UInt8) :
    (pipe.store ch).contents = pipe.contents ++ [ch] := by
  rw [contents, Cyclic.contents_length] at room
  exact Cyclic.contents_push (by decide) room (by decide) ch

theorem take_contents (filled : pipe.nread ≠ pipe.nwrite) :
    pipe.contents = pipe.next :: pipe.take.contents :=
  Cyclic.contents_pop filled

theorem contents_length (pipe : Pipe) : pipe.contents.length = (pipe.nwrite - pipe.nread).toNat :=
  Cyclic.contents_length _ _

/-- The test of `pipewrite`. -/
theorem room_of_ne (bounded : pipe.contents.length ≤ PIPESIZE)
    (room : pipe.nwrite ≠ pipe.nread + BitVec.ofNat 32 PIPESIZE) :
    pipe.contents.length < PIPESIZE := by
  refine lt_of_le_of_ne bounded fun full => room ?_
  rw [← full, contents_length]
  exact (Cyclic.span_add _ _).symm

end Pipe

namespace System

variable {build : Scheduler} {pi : Nat} {system after : System} {self slot : Slot} {act : Act}

/-- Only a process inside a call changes the pipe. -/
theorem Change.pipe (change : Change build pi system self act after) : after.pipe = system.pipe ∨
    (system.call self).outside = false ∧ system.machine.pc self = .run := by
  cases change with
  | start
  | kernel => exact .inl rfl
  | silent user pipe call call' running here moves
  | calls user action machine pipe call call' running here moves =>
    rw [here]
    cases moves <;> first | exact .inl rfl | exact .inr ⟨rfl, running⟩

/-- What the tests of the two loops have found. -/
structure Tested (system : System) : Prop where
  room : ∀ slot n i, system.call slot = .writeStore n i →
    system.pipe.nwrite ≠ system.pipe.nread + BitVec.ofNat 32 PIPESIZE
  filled : ∀ slot n i, system.call slot = .readTake n i → system.pipe.nread ≠ system.pipe.nwrite

theorem Change.call_other (change : Change build pi system self act after) (other : slot ≠ self) :
    after.call slot = system.call slot := by
  cases change with
  | kernel => rfl
  | start
  | silent
  | calls => exact Function.update_of_ne other _ _

/-- A process that is about to store or to take a byte has the pipe for itself. -/
theorem Change.pipe_other (change : Change build pi system self act after)
    (ordered : system.Ordered pi) (other : slot ≠ self)
    (inside : (system.call slot).outside = false) (running : system.machine.pc slot = .run) :
    after.pipe = system.pipe := by
  refine change.pipe.resolve_right fun acts => other ?_
  exact ordered.alone acts.1 (by rw [acts.2]; rfl) inside (by rw [running]; rfl)

theorem Ordered.run_of_writeStore (ordered : system.Ordered pi) {n : Int} {i : Nat}
    (stores : system.call slot = .writeStore n i) : system.machine.pc slot = .run := by
  have place := (ordered.placed slot).place
  rw [stores] at place
  generalize system.machine.pc slot = pc at place
  cases pc <;> first | rfl | cases place

theorem Ordered.run_of_readTake (ordered : system.Ordered pi) {n : Int} {i : Nat}
    (takes : system.call slot = .readTake n i) : system.machine.pc slot = .run := by
  have place := (ordered.placed slot).place
  rw [takes] at place
  generalize system.machine.pc slot = pc at place
  cases pc <;> first | rfl | cases place

theorem Tested.acts (tested : system.Tested) (change : Change build pi system self act after) :
    (∀ n i, after.call self = .writeStore n i →
      after.pipe.nwrite ≠ after.pipe.nread + BitVec.ofNat 32 PIPESIZE) ∧
    ∀ n i, after.call self = .readTake n i → after.pipe.nread ≠ after.pipe.nwrite := by
  cases change with
  | kernel => exact ⟨tested.room self, tested.filled self⟩
  | start entry => cases entry <;> simp [Entry.call]
  | silent user pipe call call' running here moves => cases moves <;> simp_all
  | calls user action machine pipe call call' running here moves => cases moves <;> simp

theorem Tested.change (tested : system.Tested) (ordered : system.Ordered pi)
    (change : Change build pi system self act after) : after.Tested where
  room := by
    intro slot n i stores
    by_cases same : slot = self
    · exact (tested.acts change).1 n i (same ▸ stores)
    · rw [change.call_other same] at stores
      rw [change.pipe_other ordered same (by rw [stores]; rfl) (ordered.run_of_writeStore stores)]
      exact tested.room slot n i stores
  filled := by
    intro slot n i takes
    by_cases same : slot = self
    · exact (tested.acts change).2 n i (same ▸ takes)
    · rw [change.call_other same] at takes
      rw [change.pipe_other ordered same (by rw [takes]; rfl) (ordered.run_of_readTake takes)]
      exact tested.filled slot n i takes

end System

/-- The system with the bytes that have been accepted from writers and delivered to readers. -/
structure Flow where
  system : System
  accepted : List UInt8
  delivered : List UInt8

namespace Flow

variable (build : Scheduler) (pi : Nat)

/-- Write down the byte that a step moves. -/
def record (flow : Flow) (call : Call) (act : Act) (after : System) : Flow :=
  match call, act with
  | .writeStore _ _, .step (some ch) =>
    { flow with system := after, accepted := flow.accepted ++ [ch] }
  | .readTake _ _, .step (some _) =>
    { flow with system := after, delivered := flow.delivered ++ [flow.system.pipe.next] }
  | _, _ => { flow with system := after }

def exec (flow : Flow) (label : Slot × Act) : Option Flow :=
  (flow.system.exec build pi label).map (flow.record (flow.system.call label.1) label.2)

def Step (before : Flow) (label : Slot × Act) (after : Flow) : Prop :=
  before.exec build pi label = some after

def boot (used : Slot → Bool) (pid : Slot → Int) (ticks : UInt32) (data : Nat → UInt8) : Flow where
  system := System.boot used pid ticks data
  accepted := []
  delivered := []

variable {build pi} {flow after : Flow} {self : Slot} {act : Act} {labels : List (Slot × Act)}

/-- What has been accepted is what has been delivered and what is in the pipe. -/
structure Balanced (flow : Flow) : Prop where
  bounded : flow.system.pipe.contents.length ≤ PIPESIZE
  balance : flow.accepted = flow.delivered ++ flow.system.pipe.contents

structure Lossless (pi : Nat) (flow : Flow) : Prop where
  ordered : flow.system.Ordered pi
  tested : flow.system.Tested
  balanced : flow.Balanced

/-- How a step without a failed copy moves the bytes. -/
inductive Moved (flow after : Flow) : Prop where
  | stored (ch : UInt8) : (∃ slot n i, flow.system.call slot = .writeStore n i) →
      after.system.pipe = flow.system.pipe.store ch → after.accepted = flow.accepted ++ [ch] →
      after.delivered = flow.delivered → Moved flow after
  | taken : (∃ slot n i, flow.system.call slot = .readTake n i) →
      after.system.pipe = flow.system.pipe.take → after.accepted = flow.accepted →
      after.delivered = flow.delivered ++ [flow.system.pipe.next] → Moved flow after
  | kept : after.system.pipe.contents = flow.system.pipe.contents →
      after.accepted = flow.accepted → after.delivered = flow.delivered → Moved flow after

theorem record_system (flow : Flow) (call : Call) (act : Act) (after : System) :
    (flow.record call act after).system = after := by
  unfold record
  split <;> rfl

theorem record_kernel (flow : Flow) (call : Call) (action : Action) (after : System) :
    flow.record call (.kernel action) after = { flow with system := after } := by
  cases call <;> rfl

theorem record_moved {after : System} (change : System.Change build pi flow.system self act after)
    (copied : act ≠ .step none) : flow.Moved (flow.record (flow.system.call self) act after) := by
  cases change with
  | start entry value running idle =>
    rw [idle]
    exact .kept rfl rfl rfl
  | kernel =>
    rw [record_kernel]
    exact .kept rfl rfl rfl
  | silent user pipe call call' running here moves =>
    rw [here]
    cases moves with
    | store n i ch given =>
      subst given
      exact .stored ch ⟨self, n, i, here⟩ rfl rfl rfl
    | take n i given =>
      obtain ⟨byte, rfl⟩ := Option.isSome_iff_exists.mp given
      exact .taken ⟨self, n, i, here⟩ rfl rfl rfl
    | _ => exact .kept rfl rfl rfl
  | calls user action machine pipe call call' running here moves =>
    rw [here]
    cases moves with
    | copyinFails n i failed
    | copyoutFails n i failed => exact absurd (congrArg Act.step failed) copied
    | close writable => cases writable <;> exact .kept rfl rfl rfl
    | _ => exact .kept rfl rfl rfl

theorem Balanced.moved (balanced : flow.Balanced) (tested : flow.system.Tested)
    (moved : flow.Moved after) : after.Balanced := by
  obtain ⟨bounded, balance⟩ := balanced
  cases moved with
  | stored ch stores pipe accepted delivered =>
    obtain ⟨slot, n, i, stores⟩ := stores
    have room := Pipe.room_of_ne bounded (tested.room slot n i stores)
    have contents := Pipe.store_contents room ch
    refine ⟨?_, ?_⟩
    · rw [pipe, contents, List.length_append]
      exact room
    · rw [pipe, contents, accepted, delivered, balance, List.append_assoc]
  | taken takes pipe accepted delivered =>
    obtain ⟨slot, n, i, takes⟩ := takes
    have first := Pipe.take_contents (tested.filled slot n i takes)
    refine ⟨?_, ?_⟩
    · rw [first, List.length_cons] at bounded
      rw [pipe]
      omega
    · rw [pipe, accepted, delivered, balance, first, List.append_assoc, List.singleton_append]
  | kept contents accepted delivered =>
    refine ⟨?_, ?_⟩
    · rwa [contents]
    · rw [contents, accepted, delivered, balance]

theorem Lossless.step (lossless : flow.Lossless pi) (copied : act ≠ .step none)
    (taken : flow.exec build pi (self, act) = some after) : after.Lossless pi := by
  obtain ⟨system, done, rfl⟩ := Option.map_eq_some_iff.mp taken
  have change := System.exec_change done
  have ordered := lossless.ordered.change change
  have tested := lossless.tested.change lossless.ordered change
  rw [← record_system flow (flow.system.call self) act system] at ordered tested
  exact ⟨ordered, tested, lossless.balanced.moved lossless.tested (record_moved change copied)⟩

theorem boot_lossless (used : Slot → Bool) (pid : Slot → Int) (ticks : UInt32)
    (data : Nat → UInt8) :
    (boot used pid ticks data).Lossless pi where
  ordered := System.boot_ordered pi used pid ticks data
  tested := ⟨nofun, nofun⟩
  balanced := by
    have empty : (boot used pid ticks data).system.pipe.contents = [] := Cyclic.contents_self _
    refine ⟨?_, ?_⟩
    · rw [empty]
      exact Nat.zero_le _
    · rw [empty]
      rfl

/-- Pipes are lossless first-in first-out buffers: if all copies succeed, the counters are at most
`PIPESIZE` apart, what has been delivered to readers is a prefix of what has been accepted from
writers, and the rest is in the buffer. -/
theorem pipes_lossless (used : Slot → Bool) (pid : Slot → Int) (ticks : UInt32) (data : Nat → UInt8)
    (run : Run (Step build pi) (boot used pid ticks data) labels flow)
    (copied : ∀ self, (self, .step none) ∉ labels) :
    (flow.system.pipe.nwrite - flow.system.pipe.nread).toNat ≤ PIPESIZE ∧
      flow.delivered <+: flow.accepted ∧
      flow.accepted = flow.delivered ++
        Cyclic.contents PIPESIZE flow.system.pipe.data flow.system.pipe.nread
          flow.system.pipe.nwrite := by
  have preserved : ∀ before label after, label.2 ≠ .step none → Lossless pi before →
      Step build pi before label after → Lossless pi after :=
    fun before label after copied lossless taken => lossless.step copied taken
  have lossless := run.invariantOn preserved (fun label member failed => copied label.1
    (failed ▸ member)) (boot_lossless used pid ticks data)
  obtain ⟨bounded, balance⟩ := lossless.balanced
  rw [Pipe.contents_length] at bounded
  exact ⟨bounded, ⟨_, balance.symm⟩, balance⟩

/-- A process writes three bytes; another one reads two of them. -/
def threeBytes : List (Slot × Act) :=
  ([(0, .kernel .dispatch), (0, .kernel .proceed), (0, .start (.pipewrite 3)), (0, .step (some 0)),
    (0, .step (some 0)), (0, .step (some 5)), (0, .step (some 0)), (0, .step (some 6)),
    (0, .step (some 0)), (0, .step (some 7)), (0, .step (some 0))] : List (Slot × Act)) ++
  (List.replicate 65 (0, .kernel .proceed) : List (Slot × Act)) ++
  ([(0, .step (some 0)), (1, .kernel .dispatch), (1, .kernel .proceed),
    (1, .start (.piperead 2))] : List (Slot × Act)) ++
  (List.replicate 6 (1, .step (some 0)) : List (Slot × Act))

theorem pipes_lossless_threeBytes : ∃ flow,
    Run (Step .default 0) (boot (fun _ => true) (fun _ => 1) 0 fun _ => 0) threeBytes flow ∧
    flow.delivered = [5, 6] ∧ flow.accepted = [5, 6, 7] ∧ flow.accepted = flow.delivered ++
      Cyclic.contents PIPESIZE flow.system.pipe.data flow.system.pipe.nread
        flow.system.pipe.nwrite := by
  have performed : ∃ flow, Run (Step .default 0) (boot (fun _ => true) (fun _ => 1) 0 fun _ => 0)
      threeBytes flow ∧ flow.delivered = [5, 6] ∧ flow.accepted = [5, 6, 7] :=
    Run.exists_of_runAll (fun _ _ _ taken => taken) (by decide +kernel)
  obtain ⟨flow, run, delivered, accepted⟩ := performed
  exact ⟨flow, run, delivered, accepted,
    (pipes_lossless _ _ _ _ run (by simp [threeBytes])).2.2⟩

end Flow

end Xv6.Pipes
