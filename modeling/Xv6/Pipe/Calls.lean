import Xv6.Lib.Cyclic
import Xv6.Proc.Wakeups

/-!
# Pipes

The processes that share a pipe, in `pipewrite`, `piperead` and `pipeclose` and in what else they do
in the kernel.  A step of a call goes from one access of the shared state to the next, so that a
`kill` can come between two bytes; `sleep` and `wakeup` are taken step by step as in the machine
they are calls of.

The page of the pipe is given back when both ends are closed; no file leads to it any more then,
and the steps after that are not modelled differently.
-/

namespace Xv6.Pipes

open Function (update)

open Sleep

def PIPESIZE : Nat := 512

/-- `struct pipe` without its lock. -/
structure Pipe where
  data : Nat → UInt8
  nread : BitVec 32
  nwrite : BitVec 32
  readopen : Bool
  writeopen : Bool

section Addresses

variable (pi : Nat)

/-- `&pi->lock`. -/
def lock : Lock := pi

/-- `&pi->nread`. -/
def nread : Chan := .object (pi + 536)

/-- `&pi->nwrite`. -/
def nwrite : Chan := .object (pi + 540)

end Addresses

namespace Pipe

/-- What `pipealloc` makes of a page. -/
def pipealloc (data : Nat → UInt8) : Pipe where
  data := data
  nread := 0
  nwrite := 0
  readopen := true
  writeopen := true

/-- `pi->data[pi->nwrite++ % PIPESIZE] = ch`. -/
def store (pipe : Pipe) (ch : UInt8) : Pipe :=
  { pipe with
    data := update pipe.data (Cyclic.place PIPESIZE pipe.nwrite) ch
    nwrite := pipe.nwrite + 1 }

/-- The byte that is read next. -/
def next (pipe : Pipe) : UInt8 := pipe.data (Cyclic.place PIPESIZE pipe.nread)

/-- `pi->nread++`. -/
def take (pipe : Pipe) : Pipe := { pipe with nread := pipe.nread + 1 }

def close (pipe : Pipe) (writable : Bool) : Pipe :=
  if writable then { pipe with writeopen := false } else { pipe with readopen := false }

end Pipe

/-- Where a process is in its call. -/
inductive Call where
  /-- In none; the last one returned a value. -/
  | idle (value : Int)
  /-- About to acquire `pi->lock`. -/
  | writeEnter (n : Int)
  /-- At the test of the loop, with `i` bytes written. -/
  | writeLoop (n : Int) (i : Nat)
  /-- About to copy a byte in and to store it. -/
  | writeStore (n : Int) (i : Nat)
  /-- The pipe is full; in `wakeup(&pi->nread)` or about to sleep. -/
  | writeFull (n : Int) (i : Nat)
  | readEnter (n : Int)
  /-- At the test of the loop that waits for bytes. -/
  | readWait (n : Int)
  /-- At the test of the loop that copies, with `i` bytes read. -/
  | readCopy (n : Int) (i : Nat)
  /-- About to take a byte and to copy it out. -/
  | readTake (n : Int) (i : Nat)
  | closeEnter (writable : Bool)
  /-- About to clear the flag of the end. -/
  | closing (writable : Bool)
  /-- In the last `wakeup` or about to release `pi->lock` and return. -/
  | releasing (value : Int)
  deriving DecidableEq, Repr

/-- The functions of `pipe.c` that a process can call. -/
inductive Entry where
  | pipewrite (n : Int)
  | piperead (n : Int)
  | pipeclose (writable : Bool)
  deriving DecidableEq, Repr

def Entry.call : Entry → Call
  | .pipewrite n => .writeEnter n
  | .piperead n => .readEnter n
  | .pipeclose writable => .closeEnter writable

namespace Call

variable (pi : Nat)

/-- One step of a call: the function that it calls, the pipe and the place behind it.  A byte that
is copied in comes from `user`, which is `none` where a copy fails. -/
def next (pipe : Pipe) (killed : Bool) (user : Option UInt8) :
    Call → Option (Option Action × Pipe × Call)
  | .idle _ => none
  | .writeEnter n => some (some (.acquire (lock pi)), pipe, .writeLoop n 0)
  | .writeLoop n i =>
    if (i : Int) < n then
      if pipe.readopen = false ∨ killed = true then some (none, pipe, .releasing (-1))
      else if pipe.nwrite = pipe.nread + BitVec.ofNat 32 PIPESIZE then
        some (some (.wakeup (nread pi)), pipe, .writeFull n i)
      else some (none, pipe, .writeStore n i)
    else some (some (.wakeup (nread pi)), pipe, .releasing i)
  | .writeStore n i =>
    match user with
    | none => some (some (.wakeup (nread pi)), pipe, .releasing i)
    | some ch => some (none, pipe.store ch, .writeLoop n (i + 1))
  | .writeFull n i => some (some (.sleep (nwrite pi) (lock pi)), pipe, .writeLoop n i)
  | .readEnter n => some (some (.acquire (lock pi)), pipe, .readWait n)
  | .readWait n =>
    if pipe.nread = pipe.nwrite ∧ pipe.writeopen = true then
      if killed = true then some (none, pipe, .releasing (-1))
      else some (some (.sleep (nread pi) (lock pi)), pipe, .readWait n)
    else some (none, pipe, .readCopy n 0)
  | .readCopy n i =>
    if (i : Int) < n ∧ pipe.nread ≠ pipe.nwrite then some (none, pipe, .readTake n i)
    else some (some (.wakeup (nwrite pi)), pipe, .releasing i)
  | .readTake n i =>
    if user.isSome then some (none, pipe.take, .readCopy n (i + 1))
    else some (some (.wakeup (nwrite pi)), pipe.take, .releasing i)
  | .closeEnter writable => some (some (.acquire (lock pi)), pipe, .closing writable)
  | .closing writable =>
    some (some (.wakeup (if writable then nread pi else nwrite pi)), pipe.close writable,
      .releasing 0)
  | .releasing value => some (some (.release (lock pi)), pipe, .idle value)

/-- Before `pi->lock` is acquired: interrupts are on. -/
def outside : Call → Bool
  | .idle _ | .writeEnter _ | .readEnter _ | .closeEnter _ => true
  | _ => false

/-- What a process can do beside the steps of its call: go on in a function that it has called, be
switched, and outside of these calls all that does not concern the pipe. -/
def permits : Call → Action → Bool
  | _, .proceed | _, .dispatch | _, .tick => true
  | call, .yield => call.outside
  | .idle _, .acquire lk | .idle _, .release lk => lk ≠ lock pi
  | .idle _, .sleep chan lk => lk ≠ lock pi ∧ chan ≠ nread pi ∧ chan ≠ nwrite pi
  | .idle _, .wakeup _ | .idle _, .kill _ => true
  | _, _ => false

end Call

structure System where
  machine : Sleep.Machine
  pipe : Pipe
  call : Slot → Call

inductive Act where
  | start (entry : Entry)
  /-- The next step of the call. -/
  | step (user : Option UInt8)
  /-- A step of the machine. -/
  | kernel (action : Action)
  deriving DecidableEq, Repr

namespace System

variable (build : Scheduler) (pi : Nat)

/-- The next step of a call, with the function that it calls. -/
def step (system : System) (self : Slot) (user : Option UInt8) : Option System :=
  if system.machine.pc self = .run then
    match (system.call self).next pi system.pipe (system.machine.table self).killed user with
    | none => none
    | some (none, pipe, call) =>
      some { system with pipe := pipe, call := update system.call self call }
    | some (some action, pipe, call) =>
      (system.machine.exec build (self, action)).map fun machine =>
        { machine := machine, pipe := pipe, call := update system.call self call }
  else none

def exec (system : System) : Slot × Act → Option System
  | (self, .start entry) =>
    match system.machine.pc self, system.call self with
    | .run, .idle _ => some { system with call := update system.call self entry.call }
    | _, _ => none
  | (self, .step user) => system.step build pi self user
  | (self, .kernel action) =>
    if (system.call self).permits pi action then
      (system.machine.exec build (self, action)).map fun machine => { system with machine }
    else none

def Step (before : System) (label : Slot × Act) (after : System) : Prop :=
  before.exec build pi label = some after

def boot (used : Slot → Bool) (pid : Slot → Int) (ticks : UInt32) (data : Nat → UInt8) :
    System where
  machine := Sleep.Machine.boot used pid ticks
  pipe := .pipealloc data
  call := fun _ => .idle 0

end System

/-! ## What a step does -/

/-- The steps of a call. -/
inductive Moves (pi : Nat) (pipe : Pipe) (killed : Bool) (user : Option UInt8) :
    Call → Option Action → Pipe → Call → Prop where
  | writeAcquire (n : Int) :
      Moves pi pipe killed user (.writeEnter n) (some (.acquire (lock pi))) pipe (.writeLoop n 0)
  | writeRefuse (n : Int) (i : Nat) : (i : Int) < n → pipe.readopen = false ∨ killed = true →
      Moves pi pipe killed user (.writeLoop n i) none pipe (.releasing (-1))
  | writeFull (n : Int) (i : Nat) : pipe.nwrite = pipe.nread + BitVec.ofNat 32 PIPESIZE →
      pipe.readopen = true →
      Moves pi pipe killed user (.writeLoop n i) (some (.wakeup (nread pi))) pipe (.writeFull n i)
  | writeRoom (n : Int) (i : Nat) : pipe.nwrite ≠ pipe.nread + BitVec.ofNat 32 PIPESIZE →
      pipe.readopen = true → killed = false →
      Moves pi pipe killed user (.writeLoop n i) none pipe (.writeStore n i)
  | writeDone (n : Int) (i : Nat) :
      Moves pi pipe killed user (.writeLoop n i) (some (.wakeup (nread pi))) pipe (.releasing i)
  | copyinFails (n : Int) (i : Nat) : user = none →
      Moves pi pipe killed user (.writeStore n i) (some (.wakeup (nread pi))) pipe (.releasing i)
  | store (n : Int) (i : Nat) (ch : UInt8) : user = some ch →
      Moves pi pipe killed user (.writeStore n i) none (pipe.store ch) (.writeLoop n (i + 1))
  | writeSleep (n : Int) (i : Nat) :
      Moves pi pipe killed user (.writeFull n i) (some (.sleep (nwrite pi) (lock pi))) pipe
        (.writeLoop n i)
  | readAcquire (n : Int) :
      Moves pi pipe killed user (.readEnter n) (some (.acquire (lock pi))) pipe (.readWait n)
  | readRefuse (n : Int) : killed = true →
      Moves pi pipe killed user (.readWait n) none pipe (.releasing (-1))
  | readSleep (n : Int) : pipe.nread = pipe.nwrite → pipe.writeopen = true →
      Moves pi pipe killed user (.readWait n) (some (.sleep (nread pi) (lock pi))) pipe
        (.readWait n)
  | readStart (n : Int) : Moves pi pipe killed user (.readWait n) none pipe (.readCopy n 0)
  | readMore (n : Int) (i : Nat) : pipe.nread ≠ pipe.nwrite →
      Moves pi pipe killed user (.readCopy n i) none pipe (.readTake n i)
  | readDone (n : Int) (i : Nat) :
      Moves pi pipe killed user (.readCopy n i) (some (.wakeup (nwrite pi))) pipe (.releasing i)
  | take (n : Int) (i : Nat) : user.isSome = true →
      Moves pi pipe killed user (.readTake n i) none pipe.take (.readCopy n (i + 1))
  | copyoutFails (n : Int) (i : Nat) : user = none →
      Moves pi pipe killed user (.readTake n i) (some (.wakeup (nwrite pi))) pipe.take
        (.releasing i)
  | closeAcquire (writable : Bool) :
      Moves pi pipe killed user (.closeEnter writable) (some (.acquire (lock pi))) pipe
        (.closing writable)
  | close (writable : Bool) :
      Moves pi pipe killed user (.closing writable)
        (some (.wakeup (if writable then nread pi else nwrite pi))) (pipe.close writable)
        (.releasing 0)
  | release (value : Int) :
      Moves pi pipe killed user (.releasing value) (some (.release (lock pi))) pipe (.idle value)

theorem next_moves {pi : Nat} {pipe pipe' : Pipe} {killed : Bool} {user : Option UInt8}
    {call call' : Call} {action : Option Action}
    (next : call.next pi pipe killed user = some (action, pipe', call')) :
    Moves pi pipe killed user call action pipe' call' := by
  cases call with
  | idle => cases next
  | writeEnter n =>
    cases next
    exact .writeAcquire n
  | writeLoop n i =>
    simp only [Call.next] at next
    split_ifs at next with more refused full
    · cases next
      exact .writeRefuse n i more refused
    · cases next
      exact .writeFull n i full (by simpa using fun closed => refused (Or.inl closed))
    · cases next
      simp only [not_or, Bool.not_eq_false, Bool.not_eq_true] at refused
      exact .writeRoom n i full refused.1 refused.2
    · cases next
      exact .writeDone n i
  | writeStore n i =>
    cases user with
    | none =>
      cases next
      exact .copyinFails n i rfl
    | some ch =>
      cases next
      exact .store n i ch rfl
  | writeFull n i =>
    cases next
    exact .writeSleep n i
  | readEnter n =>
    cases next
    exact .readAcquire n
  | readWait n =>
    simp only [Call.next] at next
    split_ifs at next with waits dead
    · cases next
      exact .readRefuse n dead
    · cases next
      exact .readSleep n waits.1 waits.2
    · cases next
      exact .readStart n
  | readCopy n i =>
    simp only [Call.next] at next
    split_ifs at next with more
    · cases next
      exact .readMore n i more.2
    · cases next
      exact .readDone n i
  | readTake n i =>
    simp only [Call.next] at next
    split_ifs at next with copied
    · cases next
      exact .take n i copied
    · cases next
      exact .copyoutFails n i (by simpa using copied)
  | closeEnter writable =>
    cases next
    exact .closeAcquire writable
  | closing writable =>
    cases next
    exact .close writable
  | releasing value =>
    cases next
    exact .release value

namespace System

variable {build : Scheduler} {pi : Nat} {system after : System} {self slot : Slot}

/-- The steps of the system: a call starts, a call makes a step of its own or calls a function, or
the machine makes a step. -/
inductive Change (build : Scheduler) (pi : Nat) (system : System) (self : Slot) :
    Act → System → Prop where
  | start (entry : Entry) (value : Int) : system.machine.pc self = .run →
      system.call self = .idle value →
      Change build pi system self (.start entry)
        { system with call := update system.call self entry.call }
  | silent (user : Option UInt8) (pipe : Pipe) (call call' : Call) : system.machine.pc self = .run →
      system.call self = call →
      Moves pi system.pipe (system.machine.table self).killed user call none pipe call' →
      Change build pi system self (.step user)
        { system with pipe := pipe, call := update system.call self call' }
  | calls (user : Option UInt8) (action : Action) (machine : Sleep.Machine) (pipe : Pipe)
      (call call' : Call) : system.machine.pc self = .run → system.call self = call →
      Moves pi system.pipe (system.machine.table self).killed user call (some action) pipe call' →
      Sleep.Machine.Change build system.machine self action machine →
      Change build pi system self (.step user)
        { machine := machine, pipe := pipe, call := update system.call self call' }
  | kernel (action : Action) (machine : Sleep.Machine) :
      (system.call self).permits pi action = true →
      Sleep.Machine.Change build system.machine self action machine →
      Change build pi system self (.kernel action) { system with machine := machine }

theorem exec_change {act : Act} (done : system.exec build pi (self, act) = some after) :
    Change build pi system self act after := by
  cases act with
  | start entry =>
    simp only [exec] at done
    split at done
    case h_1 value running idle =>
      cases done
      exact .start entry value running idle
    case h_2 => cases done
  | step user =>
    simp only [exec, step] at done
    split_ifs at done with running
    split at done
    case h_1 => cases done
    case h_2 pipe call next =>
      cases done
      exact .silent user pipe _ call running rfl (next_moves next)
    case h_3 action pipe call next =>
      obtain ⟨machine, taken, rfl⟩ := Option.map_eq_some_iff.mp done
      exact .calls user action machine pipe _ call running rfl (next_moves next)
        (Sleep.Machine.exec_change build taken)
  | kernel action =>
    simp only [exec] at done
    split_ifs at done with permitted
    obtain ⟨machine, taken, rfl⟩ := Option.map_eq_some_iff.mp done
    exact .kernel action machine permitted (Sleep.Machine.exec_change build taken)

end System

end Xv6.Pipes
