import Xv6.Lib.Transition
import Xv6.Proc.Lifecycle

/-!
# `fork`, `exit` and `wait`

The processes as they go through `fork`, `exit`, `wait` and `waitx`.  A section of code under one
`p->lock` is a step, and so is one that takes and releases `wait_lock`; where `wait_lock` is held
over several sections, these are steps of their own, between which the other processes go on.
Which processes the CPUs run at any moment is left open.
-/

namespace Xv6.Family

/-- The two versions of the system call. -/
inductive WaitKind where
  | wait
  | waitx
  deriving DecidableEq, Repr

/-- Where a process is. -/
inductive Pc where
  /-- In user mode or in another system call. -/
  | user
  /-- In `fork`, before it sets the parent of the child. -/
  | forked (child : Slot)
  /-- In `fork`, before it makes the child `RUNNABLE`. -/
  | adopted (child : Slot)
  /-- In `wait`, about to acquire `wait_lock`: at its start, or at the end of `sleep`. -/
  | acquire (kind : WaitKind)
  /-- In the loop of `wait`, with `wait_lock`. -/
  | scan (kind : WaitKind) (todo : List Slot) (havekids : Bool)
  /-- In `wait`, after it has freed a child and released the locks. -/
  | stamp (slot : Slot) (pid : Int)
  /-- On the way out of a system call. -/
  | ret (value : Int)
  /-- In `exit`, about to acquire `wait_lock`. -/
  | exiting
  /-- In `reparent`; `waking` is the rest of the call of `wakeup(initproc)` under way. -/
  | reparent (todo waking : List Slot)
  /-- In the call of `wakeup(p->parent)` in `exit`. -/
  | wakeParent (parent : Option Slot) (todo : List Slot)
  /-- In `sched()` at the end of `exit`. -/
  | gone
  deriving DecidableEq, Repr

/-- The process holds `wait_lock`. -/
def Pc.Holds : Pc → Prop
  | .scan .. | .reparent .. | .wakeParent .. => True
  | _ => False

instance (pc : Pc) : Decidable pc.Holds := by
  unfold Pc.Holds
  split <;> infer_instance

/-- The child that `fork` is making. -/
def Pc.child : Pc → Option Slot
  | .forked child | .adopted child => some child
  | _ => none

/-- What happens next to a process. -/
inductive Action where
  /-- A scheduler switches to it. -/
  | dispatch
  /-- It gives the CPU up. -/
  | yield
  /-- It goes on in the system call it is in; `copied` says whether `wait` can copy the exit
  status out. -/
  | proceed (copied : Bool)
  /-- It calls `fork`; `fits` says whether the memory allocations succeed. -/
  | fork (child : Slot) (fits : Bool)
  | wait (kind : WaitKind)
  | exit
  /-- It comes to a slot in the loop of `kill`. -/
  | kill (slot : Slot) (pid : Int)
  | setKilled
  /-- It sleeps for another reason than a child. -/
  | sleep (address : Nat)
  /-- It is visited by a `wakeup` for another reason than a child. -/
  | wakeup (address : Nat)
  /-- The clock advances. -/
  | tick
  deriving DecidableEq, Repr

structure Kernel where
  table : Table
  pc : Slot → Pc
  /-- The process that holds `wait_lock`. -/
  waitLock : Option Slot
  ticks : UInt32
  nextpid : Int
  initproc : Slot

namespace Kernel

@[simps -fullyApplied pc waitLock initproc nextpid]
def set (kernel : Kernel) (slot : Slot) (proc : Proc) : Kernel :=
  { kernel with table := Function.update kernel.table slot proc }

@[simps -fullyApplied table waitLock initproc nextpid]
def goto (kernel : Kernel) (slot : Slot) (pc : Pc) : Kernel :=
  { kernel with pc := Function.update kernel.pc slot pc }

@[simps -fullyApplied]
def setLock (kernel : Kernel) (holder : Option Slot) : Kernel :=
  { kernel with waitLock := holder }

variable (build : Scheduler)

/-- `allocproc` and the rest of the section under `np->lock` in `fork`.  The new process will
start in `forkret`. -/
def allocproc (kernel : Kernel) (child : Slot) (tickets : Int) (fits : Bool) : Kernel :=
  let proc := (kernel.table child).forked build kernel.ticks kernel.nextpid tickets fits
  { (kernel.set child proc).goto child .user with nextpid := kernel.nextpid + 1 }

/-- One iteration of `wakeup(chan)`, called by `self`. -/
def wakeOne (kernel : Kernel) (self : Slot) (chan : Chan) (slot : Slot) : Kernel :=
  if slot = self then kernel
  else kernel.set slot ((kernel.table slot).wakeup build kernel.ticks chan)

/-- One iteration of the loop of `wait` and `waitx`. -/
def scanOne (kernel : Kernel) (self : Slot) (copied : Bool) (kind : WaitKind) (slot : Slot)
    (todo : List Slot) (havekids : Bool) : Kernel :=
  if (kernel.table slot).parent = some self then
    if (kernel.table slot).state = .zombie then
      if copied then
        let pid := (kernel.table slot).pid
        let next := match kind with
          | .wait => .stamp slot pid
          | .waitx => .ret pid
        ((kernel.set slot (kernel.table slot).free).setLock none).goto self next
      else
        (kernel.setLock none).goto self (.ret (-1))
    else
      kernel.goto self (.scan kind todo true)
  else
    kernel.goto self (.scan kind todo havekids)

/-- The end of the loop of `wait`: give up, or sleep until a child exits. -/
def scanned (kernel : Kernel) (self : Slot) (kind : WaitKind) (havekids : Bool) : Kernel :=
  if havekids = false ∨ (kernel.table self).killed = true then
    (kernel.setLock none).goto self (.ret (-1))
  else
    ((kernel.set self ((kernel.table self).sleep (.proc self))).setLock none).goto self
      (.acquire kind)

/-- A step of the system call that the process is in. -/
def proceed (kernel : Kernel) (self : Slot) (copied : Bool) : Option Kernel :=
  match kernel.pc self with
  | .user | .gone => none
  | .forked child =>
    if kernel.waitLock = none then
      some ((kernel.set child { kernel.table child with parent := some self }).goto self
        (.adopted child))
    else
      none
  | .adopted child =>
    some ((kernel.set child (kernel.table child).start).goto self
      (.ret (kernel.table child).pid))
  | .acquire kind =>
    if kernel.waitLock = none then
      some ((kernel.setLock (some self)).goto self (.scan kind allSlots false))
    else
      none
  | .scan kind (slot :: todo) havekids => some (kernel.scanOne self copied kind slot todo havekids)
  | .scan kind [] havekids => some (kernel.scanned self kind havekids)
  | .stamp slot pid =>
    some ((kernel.set slot { kernel.table slot with endTime := kernel.ticks }).goto self (.ret pid))
  | .ret _ => some (kernel.goto self .user)
  | .exiting =>
    if kernel.waitLock = none then
      some ((kernel.setLock (some self)).goto self (.reparent allSlots []))
    else
      none
  | .reparent todo (slot :: waking) =>
    some ((kernel.wakeOne build self (.proc kernel.initproc) slot).goto self
      (.reparent todo waking))
  | .reparent (slot :: todo) [] =>
    if (kernel.table slot).parent = some self then
      some ((kernel.set slot { kernel.table slot with parent := some kernel.initproc }).goto self
        (.reparent todo allSlots))
    else
      some (kernel.goto self (.reparent todo []))
  | .reparent [] [] => some (kernel.goto self (.wakeParent (kernel.table self).parent allSlots))
  | .wakeParent (some parent) (slot :: todo) =>
    some ((kernel.wakeOne build self (.proc parent) slot).goto self
      (.wakeParent (some parent) todo))
  | .wakeParent none (_ :: todo) => some (kernel.goto self (.wakeParent none todo))
  | .wakeParent _ [] =>
    some (((kernel.set self ((kernel.table self).exit kernel.ticks)).setLock none).goto self .gone)

/-- A step of a process that is `RUNNING`. -/
def running (kernel : Kernel) (self : Slot) : Action → Option Kernel
  | .yield =>
    if kernel.waitLock = some self then none
    else some (kernel.set self (kernel.table self).yield)
  | .proceed copied => kernel.proceed build self copied
  | .fork child fits =>
    if kernel.pc self = .user ∧ (kernel.table child).state = .unused then
      let kernel := kernel.allocproc build child (kernel.table self).tickets fits
      some (kernel.goto self (if fits then .forked child else .ret (-1)))
    else
      none
  | .wait kind => if kernel.pc self = .user then some (kernel.goto self (.acquire kind)) else none
  | .exit =>
    -- `exit` panics in the first process
    if kernel.pc self = .user ∧ self ≠ kernel.initproc then some (kernel.goto self .exiting)
    else none
  | .kill slot pid =>
    if kernel.pc self = .user then
      let proc := kernel.table slot
      some (kernel.set slot (if proc.pid = pid then proc.kill build kernel.ticks else proc))
    else
      none
  | .setKilled =>
    if kernel.pc self = .user then
      some (kernel.set self { kernel.table self with killed := true })
    else
      none
  | .sleep address =>
    if kernel.pc self = .user then
      some (kernel.set self ((kernel.table self).sleep (.object address)))
    else
      none
  | _ => none

/-- One step of one process, `none` if it cannot be taken. -/
def exec (kernel : Kernel) (self : Slot) : Action → Option Kernel
  | .dispatch =>
    -- a process that resumes inside `sleep` clears its channel before it releases its lock
    if (kernel.table self).state = .runnable then
      some (kernel.set self { kernel.table self with state := .running, chan := none })
    else
      none
  | .wakeup address =>
    some (kernel.set self ((kernel.table self).wakeup build kernel.ticks (.object address)))
  | .tick => some { kernel with ticks := kernel.ticks + 1 }
  | action =>
    if (kernel.table self).state = .running then kernel.running build self action else none

def Step (before : Kernel) (label : Slot × Action) (after : Kernel) : Prop :=
  before.exec build label.1 label.2 = some after

/-- `userinit` has made the first process. -/
def boot : Kernel where
  table := fun slot => if slot = 0 then (({} : Proc).alloc build 0 1).start else {}
  pc := fun _ => .user
  waitLock := none
  ticks := 0
  nextpid := 2
  initproc := 0

end Kernel

end Xv6.Family
