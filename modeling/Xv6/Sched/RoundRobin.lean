import Xv6.Proc.Lifecycle
import Xv6.Sched.Loop

/-!
# The round-robin schedulers on any number of CPUs

The DEFAULT and LBS builds of `scheduler()` go round the table and switch to each
`RUNNABLE` process they meet.  The scheduler takes `p->lock`; the process it switches to
releases it, takes it again to give the CPU up, and the scheduler releases it.

Each CPU is in its scheduler or in the process it dispatched, which may be in any section
of any system call.  A section under one `p->lock` is one step, except where the lock is
handed over by `swtch`: there the two sides of the switch are steps of their own.
-/

namespace Xv6.RoundRobin

/-- Where a CPU is.  The list is the rest of its loop over the table. -/
inductive Pc where
  /-- In `scheduler()`, between two iterations. -/
  | scan (todo : List Slot)
  /-- `swtch` has entered the process, which has yet to release its lock. -/
  | resume (slot : Slot) (todo : List Slot)
  /-- In the process. -/
  | run (slot : Slot) (todo : List Slot)
  /-- In the timer branch of a trap handler, about to call `yield`. -/
  | yielding (slot : Slot) (todo : List Slot)
  /-- `swtch` has come back to the scheduler with the lock the process took. -/
  | back (slot : Slot) (todo : List Slot)
  deriving DecidableEq, Repr

/-- What a CPU does next. -/
inductive Action where
  /-- The scheduler goes on, or the process completes a switch.  The number is what
  `random_lbs` returns if it is called. -/
  | proceed (draw : Nat)
  /-- The process turns interrupts on or off, or enters or leaves a trap. -/
  | intr (on : Bool)
  /-- The timer interrupts the process. -/
  | timer (fromUser : Bool)
  /-- `clockintr` advances the clock. -/
  | tick
  /-- One iteration of `upd_time`. -/
  | updTime (slot : Slot)
  /-- One iteration of `wakeup`. -/
  | wakeup (slot : Slot) (chan : Chan)
  /-- One iteration of `kill`. -/
  | kill (slot : Slot) (pid : Int)
  /-- `allocproc` and the rest of the section under `np->lock` in `fork`; `fits` says
  whether its memory allocations succeed. -/
  | alloc (child : Slot) (fits : Bool)
  /-- The end of `fork`. -/
  | start (child : Slot)
  /-- `wait` frees a child. -/
  | reap (slot : Slot)
  | setTickets (n : Int)
  | sleep (chan : Chan)
  | exit
  deriving DecidableEq, Repr

/-- The process table with its locks, and the CPUs. -/
structure Kernel (Core : Type) where
  table : Table
  /-- The CPU that holds `p->lock`. -/
  owner : Slot → Option Core
  cpu : Core → Cpu
  pc : Core → Pc
  /-- `intena` as `sched()` keeps it on the kernel stack of a process.  A process that
  has not run yet returns to `forkret`, which does not restore it. -/
  saved : Slot → Option Bool
  ticks : UInt32
  nextpid : Int
  initproc : Slot

/-- What the timer branch of `usertrap` and `kerneltrap` does to the entry of the process,
and whether it yields. -/
def timerBranch (build : Scheduler) (proc : Proc) : Proc × Bool :=
  if build = .lbs then proc.lotterySlice else (proc, true)

/-- The entry of a process at `swtch`.  The product is a C `int`. -/
def dispatched (build : Scheduler) (draw : Nat) (proc : Proc) : Proc :=
  let proc :=
    if build = .lbs then
      { proc with timeAvail := ((draw % 7 : Nat) * proc.tickets).bmod (2 ^ 32) }
    else
      proc
  { proc with state := .running }

namespace Kernel

variable {Core : Type} [DecidableEq Core]

/-- Write one entry of the table. -/
def edit (kernel : Kernel Core) (slot : Slot) (update : Proc → Proc) : Kernel Core :=
  { kernel with table := Function.update kernel.table slot (update (kernel.table slot)) }

def setCpu (kernel : Kernel Core) (core : Core) (cpu : Cpu) : Kernel Core :=
  { kernel with cpu := Function.update kernel.cpu core cpu }

def setOwner (kernel : Kernel Core) (slot : Slot) (owner : Option Core) : Kernel Core :=
  { kernel with owner := Function.update kernel.owner slot owner }

def goto (kernel : Kernel Core) (core : Core) (pc : Pc) : Kernel Core :=
  { kernel with pc := Function.update kernel.pc core pc }

/-- Acquire `p->lock`. -/
def acquire (kernel : Kernel Core) (core : Core) (slot : Slot) : Except Stop (Kernel Core) :=
  let kernel := kernel.setCpu core (pushOff (kernel.cpu core))
  match kernel.owner slot with
  | some holder => .error (if holder = core then .panic .acquire else .blocked)
  | none => .ok (kernel.setOwner slot (some core))

/-- Release `p->lock`. -/
def release (kernel : Kernel Core) (core : Core) (slot : Slot) : Except Stop (Kernel Core) :=
  if kernel.owner slot = some core then
    (popOff (kernel.cpu core)).map ((kernel.setOwner slot none).setCpu core)
  else
    .error (.panic .release)

/-- `intr_on()` and `intr_off()`. -/
def setIntr (kernel : Kernel Core) (core : Core) (on : Bool) : Kernel Core :=
  kernel.setCpu core { kernel.cpu core with sie := on }

/-- A section that takes one `p->lock` and writes the entry. -/
def withLock (kernel : Kernel Core) (core : Core) (slot : Slot) (update : Proc → Proc) :
    Except Stop (Kernel Core) := do
  let kernel ← kernel.acquire core slot
  (kernel.edit slot update).release core slot

/-- `sched()` up to its `swtch`; the process is `myproc()`. -/
def sched (kernel : Kernel Core) (core : Core) (slot : Slot) : Except Stop (Kernel Core) :=
  if kernel.owner slot ≠ some core then
    .error (.panic .schedLock)
  else if (kernel.cpu core).noff ≠ 1 then
    .error (.panic .schedLocks)
  else if (kernel.table slot).state = .running then
    .error (.panic .schedRunning)
  else if (kernel.cpu core).sie then
    .error (.panic .schedInterruptible)
  else
    .ok { kernel with
      saved := Function.update kernel.saved slot (some (kernel.cpu core).intena) }

/-- `yield` up to `swtch`. -/
def yield (kernel : Kernel Core) (core : Core) (slot : Slot) : Except Stop (Kernel Core) := do
  let kernel ← kernel.acquire core slot
  (kernel.edit slot Proc.yield).sched core slot

/-- `sleep` and `exit` up to `swtch`.  They take `p->lock` while they hold one other lock,
the condition lock or `wait_lock`, which they release before `sched()`. -/
def leave (kernel : Kernel Core) (core : Core) (slot : Slot) (update : Proc → Proc) :
    Except Stop (Kernel Core) := do
  let kernel := kernel.setCpu core (pushOff (kernel.cpu core))
  let kernel ← kernel.acquire core slot
  let cpu ← popOff (kernel.cpu core)
  ((kernel.setCpu core cpu).edit slot update).sched core slot

/-- One iteration of the scheduler's loop up to `swtch`. -/
def visit (build : Scheduler) (draw : Nat) (kernel : Kernel Core) (core : Core) (slot : Slot)
    (todo : List Slot) : Except Stop (Kernel Core) := do
  let kernel ← kernel.acquire core slot
  if (kernel.table slot).state = .runnable then
    let kernel := kernel.edit slot (dispatched build draw)
    let kernel := kernel.setCpu core { kernel.cpu core with proc := some slot }
    return kernel.goto core (.resume slot todo)
  else
    let kernel ← kernel.release core slot
    return kernel.goto core (.scan todo)

/-- The process after `swtch`: in `forkret`, or at the end of `sched()`.  `sleep` clears
the channel, which is clear already in the other cases. -/
def resume (kernel : Kernel Core) (core : Core) (slot : Slot) : Except Stop (Kernel Core) :=
  let intena := (kernel.saved slot).getD (kernel.cpu core).intena
  let kernel := kernel.setCpu core { kernel.cpu core with intena }
  (kernel.edit slot fun proc => { proc with chan := none }).release core slot

/-- The scheduler after `swtch` has returned to it. -/
def afterSwitch (kernel : Kernel Core) (core : Core) (slot : Slot) :
    Except Stop (Kernel Core) :=
  (kernel.setCpu core { kernel.cpu core with proc := none }).release core slot

/-- The CPU can run code that takes a `p->lock`: it is in a process, or its scheduler can be
interrupted. -/
def Serves (kernel : Kernel Core) (core : Core) : Prop :=
  match kernel.pc core with
  | .run _ _ => True
  | .scan _ => (kernel.cpu core).sie = true
  | _ => False

instance (kernel : Kernel Core) (core : Core) : Decidable (kernel.Serves core) := by
  unfold Serves
  split <;> infer_instance

/-- The scheduler or the switch under way goes on. -/
def proceed (build : Scheduler) (draw : Nat) (kernel : Kernel Core) (core : Core) :
    Except Stop (Kernel Core) :=
  match kernel.pc core with
  | .scan [] => .ok ((kernel.setIntr core true).goto core (.scan allSlots))
  | .scan (slot :: todo) => kernel.visit build draw core slot todo
  | .resume slot todo => (kernel.resume core slot).map fun kernel =>
      kernel.goto core (.run slot todo)
  | .run _ _ => .error .blocked
  | .yielding slot todo =>
    (kernel.yield core slot).map fun kernel => kernel.goto core (.back slot todo)
  | .back slot todo => (kernel.afterSwitch core slot).map fun kernel =>
      kernel.goto core (.scan todo)

/-- `usertrap` and `kerneltrap` after `devintr` has returned 2. -/
def timer (build : Scheduler) (fromUser : Bool) (kernel : Kernel Core) (core : Core)
    (slot : Slot) (todo : List Slot) : Kernel Core :=
  if fromUser = true ∧ (kernel.table slot).killed = true then
    kernel
  else if fromUser = false ∧ (kernel.table slot).state ≠ .running then
    kernel
  else
    let (proc, yields) := timerBranch build (kernel.table slot)
    let kernel := kernel.edit slot fun _ => proc
    if yields then (kernel.setIntr core false).goto core (.yielding slot todo) else kernel

/-- A section of a system call of the running process. -/
def syscall (build : Scheduler) (kernel : Kernel Core) (core : Core) (slot : Slot)
    (todo : List Slot) : Action → Except Stop (Kernel Core)
  | .kill other pid =>
    kernel.withLock core other fun proc =>
      if proc.pid = pid then proc.kill build kernel.ticks else proc
  | .alloc child fits =>
    if (kernel.table child).state = .unused then
      let tickets := (kernel.table slot).tickets
      let update := Proc.forked build kernel.ticks kernel.nextpid tickets fits
      (kernel.withLock core child update).map fun kernel =>
        { kernel with
          nextpid := kernel.nextpid + 1
          saved := Function.update kernel.saved child none }
    else
      .error .blocked
  | .start child =>
    if (kernel.table child).state = .used then kernel.withLock core child Proc.start
    else .error .blocked
  | .reap other =>
    if (kernel.table other).state = .zombie then
      kernel.withLock core other (Proc.reap kernel.ticks)
    else
      .error .blocked
  | .setTickets n => .ok (kernel.edit slot fun proc => { proc with tickets := n })
  | .sleep chan =>
    (kernel.leave core slot (Proc.sleep chan)).map fun kernel =>
      kernel.goto core (.back slot todo)
  | .exit =>
    if slot = kernel.initproc then .error .blocked
    else
      (kernel.leave core slot (Proc.exit kernel.ticks)).map fun kernel =>
        kernel.goto core (.back slot todo)
  | _ => .error .blocked

/-- One step of one CPU.  An action that the CPU cannot take at this point is `blocked`, as
is an `acquire` of a busy lock. -/
def exec (build : Scheduler) (kernel : Kernel Core) (core : Core) :
    Action → Except Stop (Kernel Core)
  | .proceed draw => kernel.proceed build draw core
  | .tick =>
    if kernel.Serves core then .ok { kernel with ticks := kernel.ticks + 1 }
    else .error .blocked
  | .updTime slot =>
    if kernel.Serves core then kernel.withLock core slot (Proc.updTime build)
    else .error .blocked
  | .wakeup slot chan =>
    if kernel.Serves core ∧ (kernel.cpu core).proc ≠ some slot then
      kernel.withLock core slot (Proc.wakeup build kernel.ticks chan)
    else
      .error .blocked
  | .intr on =>
    match kernel.pc core with
    | .run _ _ => .ok (kernel.setIntr core on)
    | _ => .error .blocked
  | .timer fromUser =>
    match kernel.pc core with
    | .run slot todo =>
      if (kernel.cpu core).sie then .ok (kernel.timer build fromUser core slot todo)
      else .error .blocked
    | _ => .error .blocked
  | action =>
    match kernel.pc core with
    | .run slot todo => kernel.syscall build core slot todo action
    | _ => .error .blocked

/-- The interleaved step relation. -/
def Step (build : Scheduler) (before : Kernel Core) (label : Core × Action)
    (after : Kernel Core) : Prop :=
  before.exec build label.1 label.2 = .ok after

/-- Every CPU has just entered `scheduler()`, and `userinit` has made one process. -/
def boot (Core : Type) (build : Scheduler) : Kernel Core where
  table := fun slot => if slot = 0 then (({} : Proc).alloc build 0 1).start else {}
  owner := fun _ => none
  cpu := fun _ => {}
  pc := fun _ => .scan []
  saved := fun _ => none
  ticks := 0
  nextpid := 2
  initproc := 0

end Kernel

end Xv6.RoundRobin
