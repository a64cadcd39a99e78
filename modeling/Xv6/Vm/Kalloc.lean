import Xv6.Lib.Transition
import Xv6.Vm.Mem

/-!
# The page allocator between its locked sections

`kernel/kalloc.c` with any number of processes that call it.  Each section under `kmem.lock` is a
step, and so is filling a page with junk, which the code does without the lock.  The free list is
the chain of pointers that the code keeps in the first word of each free page; the other words of
a page are never read by the allocator.

A page may be freed, counted up or counted down by whoever has a reference to it: one that a call
of `kalloc` or `krefincr` returned with and that no call has given back.  A counter is an `int`, in
which `++` wraps around.
-/

namespace Xv6.Kalloc

open Xv6.Vm (PGSIZE Frame)
open RefCount (Pool)

/-- A physical address; 0 is the null pointer. -/
abbrev Addr := Nat

/-- The memory that the allocator is given. -/
structure Ram where
  /-- `end`, the first address after the kernel. -/
  kernelEnd : Addr
  /-- `PHYSTOP`. -/
  phystop : Addr
  /-- The kernel is not empty. -/
  kernelEnd_pos : 0 < kernelEnd

/-- `kmem`, `refcnt`, and the first word of each page. -/
structure Kmem where
  freelist : Addr
  next : Addr → Addr
  count : Frame → Int32

/-- Where a process is. -/
inductive Pc where
  | idle
  /-- In `kalloc`, about to fill the page it returns. -/
  | clear (pa : Addr)
  /-- In `kfree`, about to fill the page. -/
  | fill (pa : Addr)
  /-- In `kfree`, about to link the page. -/
  | push (pa : Addr)
  deriving DecidableEq, Repr

/-- What a process does next. -/
inductive Action where
  | kalloc
  | kfree (pa : Addr)
  | krefincr (pa : Addr)
  | krefdecr (pa : Addr)
  /-- A store to the first word of a page. -/
  | write (pa : Addr) (word : Addr)
  /-- It goes on in the call it is in. -/
  | proceed
  deriving DecidableEq, Repr

/-- The page that the action is applied to. -/
def Action.page : Action → Option Addr
  | .kfree pa | .krefincr pa | .krefdecr pa | .write pa _ => some pa
  | .kalloc | .proceed => none

/-- The page that the action counts up. -/
def Action.shared : Action → Option Addr
  | .krefincr pa => some pa
  | _ => none

namespace Kmem

def setCount (kmem : Kmem) (pn : Frame) (value : Int32) : Kmem :=
  { kmem with count := Function.update kmem.count pn value }

def setNext (kmem : Kmem) (pa word : Addr) : Kmem :=
  { kmem with next := Function.update kmem.next pa word }

/-- `memset` of a page. -/
def memset (kmem : Kmem) (pa : Addr) (byte : Nat) : Kmem :=
  kmem.setNext pa (byte * 0x0101010101010101)

/-- The section of `kalloc`. -/
def kalloc (kmem : Kmem) : Addr × Kmem :=
  let r := kmem.freelist
  if r ≠ 0 then
    if 0 < kmem.count (r / PGSIZE) then (0, kmem)
    else (r, { kmem.setCount (r / PGSIZE) 1 with freelist := kmem.next r })
  else (r, kmem)

variable (ram : Ram)

/-- `kfree` up to the end of its first section, and whether it goes on. -/
def kfreeDecr (kmem : Kmem) (pa : Addr) : Except Vm.Panic (Bool × Kmem) :=
  if pa % PGSIZE ≠ 0 ∨ pa < ram.kernelEnd ∨ ram.phystop ≤ pa then .error .kfree
  else if kmem.count (pa / PGSIZE) < 1 then .error .kfreeDecr
  else
    let kmem := kmem.setCount (pa / PGSIZE) (kmem.count (pa / PGSIZE) - 1)
    .ok (decide (¬ 0 < kmem.count (pa / PGSIZE)), kmem)

/-- The second section of `kfree`. -/
def kfreePush (kmem : Kmem) (pa : Addr) : Kmem :=
  { kmem.setNext pa kmem.freelist with freelist := pa }

/-- `krefincr`. -/
def krefincr (kmem : Kmem) (pa : Addr) : Except Vm.Panic Kmem :=
  if ram.phystop < pa then .error .limitExceeded
  else .ok (kmem.setCount (pa / PGSIZE) (kmem.count (pa / PGSIZE) + 1))

/-- `krefdecr`. -/
def krefdecr (kmem : Kmem) (pa : Addr) : Except Vm.Panic Kmem :=
  if ram.phystop < pa then .error .limitExceeded
  else .ok (kmem.setCount (pa / PGSIZE) (kmem.count (pa / PGSIZE) - 1))

/-- `kfree` without a gap, as `freerange` runs it. -/
def kfree (kmem : Kmem) (pa : Addr) : Except Vm.Panic Kmem :=
  (kmem.kfreeDecr ram pa).map fun (last, kmem) =>
    if last then (kmem.memset pa 1).kfreePush pa else kmem

/-- The loop of `freerange`. -/
def freerange : (turns : Nat) → (p : Addr) → Kmem → Except Vm.Panic Kmem
  | 0, _, kmem => .ok kmem
  | turns + 1, p, kmem =>
    if p + PGSIZE ≤ ram.phystop then
      ((kmem.setCount (p / PGSIZE) 1).kfree ram p).bind (freerange turns (p + PGSIZE))
    else .ok kmem

/-- `PGROUNDUP`. -/
def pgRoundUp (pa : Addr) : Addr := (pa + (PGSIZE - 1)) / PGSIZE * PGSIZE

/-- `kinit`, in memory with any contents. -/
def kinit (words : Addr → Addr) : Except Vm.Panic Kmem :=
  freerange ram (ram.phystop / PGSIZE + 1) (pgRoundUp ram.kernelEnd)
    { freelist := 0, next := words, count := fun _ => 0 }

end Kmem

/-- The allocator and the processes that use it. -/
structure Machine (Slot : Type) where
  kmem : Kmem
  pc : Slot → Pc
  /-- The outstanding references to each page. -/
  held : Addr → Nat

namespace Machine

variable {Slot : Type} [DecidableEq Slot] (ram : Ram)

def goto (machine : Machine Slot) (self : Slot) (pc : Pc) : Machine Slot :=
  { machine with pc := Function.update machine.pc self pc }

def setHeld (machine : Machine Slot) (pa : Addr) (held : Nat) : Machine Slot :=
  { machine with held := Function.update machine.held pa held }

/-- A step of the call that a process is in. -/
def proceed (machine : Machine Slot) (self : Slot) : Option (Machine Slot) :=
  match machine.pc self with
  | .idle => none
  | .clear pa =>
    some (({ machine with kmem := machine.kmem.memset pa 5 }.setHeld pa
      (machine.held pa + 1)).goto self .idle)
  | .fill pa => some ({ machine with kmem := machine.kmem.memset pa 1 }.goto self (.push pa))
  | .push pa => some ({ machine with kmem := machine.kmem.kfreePush pa }.goto self .idle)

/-- The first step of a call by a process that is in none. -/
def call (machine : Machine Slot) (self : Slot) : Action → Except Vm.Panic (Machine Slot)
  | .kalloc =>
    let (r, kmem) := machine.kmem.kalloc
    .ok ({ machine with kmem }.goto self (if r = 0 then .idle else .clear r))
  | .kfree pa =>
    (machine.kmem.kfreeDecr ram pa).map fun (last, kmem) =>
      ({ machine with kmem }.setHeld pa (machine.held pa - 1)).goto self
        (if last then .fill pa else .idle)
  | .krefincr pa =>
    (machine.kmem.krefincr ram pa).map fun kmem =>
      { machine with kmem }.setHeld pa (machine.held pa + 1)
  | .krefdecr pa =>
    (machine.kmem.krefdecr ram pa).map fun kmem =>
      { machine with kmem }.setHeld pa (machine.held pa - 1)
  | .write pa word => .ok { machine with kmem := machine.kmem.setNext pa word }
  | .proceed => .ok machine

/-- A process may call what it has a reference for. -/
def Allowed (machine : Machine Slot) (self : Slot) (action : Action) : Prop :=
  machine.pc self = .idle ∧ ∀ pa ∈ action.page, 1 ≤ machine.held pa

instance (machine : Machine Slot) (self : Slot) (action : Action) :
    Decidable (machine.Allowed self action) :=
  inferInstanceAs (Decidable (_ ∧ ∀ pa ∈ _, _))

/-- One step of one process, `none` if it cannot be taken. -/
def exec (machine : Machine Slot) (label : Slot × Action) :
    Option (Except Vm.Panic (Machine Slot)) :=
  match label with
  | (self, .proceed) => (machine.proceed self).map .ok
  | (self, action) =>
    if machine.Allowed self action then some (machine.call ram self action) else none

/-- A step without a panic. -/
def Step (before : Machine Slot) (label : Slot × Action) (after : Machine Slot) : Prop :=
  before.exec ram label = some (.ok after)

/-- `krefincr` is not called for a page with as many references as an `int` can count. -/
def Countable (machine : Machine Slot) (label : Slot × Action) : Prop :=
  ∀ pa ∈ label.2.shared, machine.held pa < 2 ^ 31 - 1

instance (machine : Machine Slot) (label : Slot × Action) : Decidable (machine.Countable label) :=
  inferInstanceAs (Decidable (∀ pa ∈ _, _))

/-- The machine after `kinit`. -/
def boot (kmem : Kmem) : Machine Slot where
  kmem := kmem
  pc := fun _ => .idle
  held := fun _ => 0

end Machine

end Xv6.Kalloc
