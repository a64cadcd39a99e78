import Xv6.Lib.Transition
import Xv6.Vm.Space

/-!
# The processes and the memory they share

All address spaces over one physical memory.  An action is one kernel operation on
behalf of one process, or one store instruction with its page fault; `copyout` is
cut into the turns of its loop.  Every action says which of its calls of `kalloc`
fail.
-/

namespace Xv6.Vm

/-- The address spaces of `proc[NPROC]`, and the pages the kernel holds as stacks,
pipes and buffers. -/
structure System where
  mem : Mem
  space : Slot → Option Space
  held : List Frame

/-- Kernel operations and user stores. -/
inductive Op where
  /-- The kernel takes a page for itself. -/
  | kalloc
  | kfree (frame : Frame)
  | userinit (slot : Slot) (initcode : List UInt8)
  | fork (parent child : Slot)
  | exec (slot : Slot) (program : Program) (argv : List (List UInt8))
  | growproc (slot : Slot) (n : ℤ)
  | store (slot : Slot) (va : Nat) (byte : UInt8) (sp : Nat)
  /-- One turn of the loop of `copyout`. -/
  | copyout (slot : Slot) (dstva : Nat) (src : List UInt8)
  /-- `wait` frees a process that has exited. -/
  | freeproc (slot : Slot)

/-- An operation, and which of its calls of `kalloc` fail. -/
structure Action where
  op : Op
  fails : List Bool := []

/-- The space of a process that runs user code. -/
def System.running (system : System) (slot : Slot) : Option Space :=
  (system.space slot).filter fun space => !space.killed

/-- Put a space into the table. -/
def System.put (system : System) (slot : Slot) (space : Option Space) (mem : Mem) : System :=
  { system with space := Function.update system.space slot space, mem }

variable (layout : Layout)

/-- One operation, `none` when it is not possible or panics. -/
def System.perform (system : System) : Op → Option System
  | .kalloc =>
    match system.mem.kalloc with
    | (none, mem) => some { system with mem }
    | (some frame, mem) => some { system with mem, held := frame :: system.held }
  | .kfree frame =>
    if frame ∈ system.held then
      (system.mem.kfree layout frame).toOption.map fun mem =>
        { system with mem, held := system.held.erase frame }
    else none
  | .userinit slot initcode =>
    match system.space slot with
    | some _ => none
    | none =>
      (Space.userinit layout initcode system.mem).toOption.map fun (space, mem) =>
        system.put slot (some space) mem
  | .fork parent child =>
    match system.running parent, system.space child with
    | some space, none =>
      (space.fork layout system.mem).toOption.map fun (space, mem) =>
        system.put child space mem
    | _, _ => none
  | .exec slot program argv =>
    (system.running slot).bind fun space =>
      (space.exec layout program argv system.mem).toOption.map fun (image, mem) =>
        system.put slot (some (image.getD space)) mem
  | .growproc slot n =>
    (system.running slot).bind fun space =>
      (space.growproc layout n system.mem).toOption.map fun (_, space, mem) =>
        system.put slot (some space) mem
  | .store slot va byte sp =>
    (system.running slot).bind fun space =>
      (space.store layout va byte sp system.mem).toOption.map fun (space, mem) =>
        system.put slot (some space) mem
  | .copyout slot dstva src =>
    (system.space slot).bind fun space =>
      if src.length ≤ PGSIZE - dstva % PGSIZE then
        (space.table.copyoutPage layout dstva src system.mem).toOption.map
          fun (_, table, mem) => system.put slot (some { space with table }) mem
      else none
  | .freeproc slot =>
    (system.space slot).bind fun space =>
      (space.freeproc layout system.mem).toOption.map fun mem => system.put slot none mem

/-- Set which of the next calls of `kalloc` fail. -/
def System.withFails (system : System) (fails : List Bool) : System :=
  { system with mem := { system.mem with fails } }

/-- One action. -/
def System.step (system : System) (action : Action) : Option System :=
  (system.withFails action.fails).perform layout action.op

/-- The steps as a relation. -/
def Step (system : System) (action : Action) (after : System) : Prop :=
  system.step layout action = some after

/-- The machine after `kinit`. -/
def System.boot : System where
  mem := Mem.kinit layout
  space := fun _ => none
  held := []

end Xv6.Vm
