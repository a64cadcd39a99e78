import Xv6.Proc.Lifecycle
import Xv6.Sched.Loop

/-!
# The multi-level feedback queue scheduler

The MLFQ build of `scheduler()` together with the code that runs between its dispatches.  A pass
ages the waiting processes, scans the levels 0 to 3 in turn for a candidate and, when they have
none, goes round the processes of level 4.

Each CPU is in its scheduler or in the process it dispatched, which may be in any section of any
system call.  A section that holds a `p->lock` is a single step, and the steps of the CPUs
interleave freely.  A scheduler keeps the lock of its candidate while it goes on with a level.
`aging_check` and the trap handlers write entries without any lock; what they do to one entry is
a single step too.  For `aging_check` this is exact on one CPU only: on several, another CPU may
write the entry between its test and its writes.

The clock interrupt is not a step of its own: `upd_time` and `wakeup` take one lock at a
time, so their iterations come in any order between the steps of the other CPUs.
-/

namespace Xv6.Mlfq

/-- Where the scheduler continues when the process it runs gives the CPU up. -/
inductive Pass where
  | levels
  | roundRobin (todo : List Slot)
  deriving DecidableEq, Repr

/-- Where the CPU is. -/
inductive Pc where
  | top
  /-- In `aging_check`. -/
  | aging (todo : List Slot)
  /-- In the scan of one of the levels 0 to 3. -/
  | level (i : Nat) (todo : List Slot) (minTime : Int) (check : Option Slot)
  /-- In the loop over the processes of level 4. -/
  | roundRobin (todo : List Slot)
  /-- In a process. -/
  | run (slot : Slot) (pass : Pass)
  deriving DecidableEq, Repr

/-- One visit of the scan of a level: the new `min_time` and `check`. -/
def visit (table : Table) (i : Nat) (slot : Slot) (minTime : Int) (check : Option Slot) :
    Int × Option Slot :=
  if table.Runnable slot ∧ (table slot).priorityLevel = i then
    if minTime = -1 then
      ((table slot).ctime.toBitVec.toInt, some slot)
    else
      match check with
      | none => (minTime, check)
      | some candidate =>
        if (table slot).ctime < (table candidate).ctime then
          ((table slot).ctime.toBitVec.toInt, some slot)
        else
          (minTime, check)
  else
    (minTime, check)

/-- The candidate whose lock the scheduler holds. -/
def Pc.candidate : Pc → Option Slot
  | .level _ _ _ check => check
  | _ => none

/-- `c->proc`. -/
def Pc.myproc : Pc → Option Slot
  | .run slot _ => some slot
  | _ => none

/-- Where the scheduler goes on. -/
def Pass.resume : Pass → Pc
  | .levels => .top
  | .roundRobin todo => .roundRobin todo

namespace Smp

/-- What a CPU does next. -/
inductive Action where
  /-- The scheduler's own next step. -/
  | schedule
  /-- `clockintr` advances the clock. -/
  | tick
  /-- One iteration of `upd_time`. -/
  | updTime (slot : Slot)
  /-- One iteration of `wakeup`. -/
  | wakeup (slot : Slot) (chan : Chan)
  /-- The timer interrupts the process.  A process that finds itself killed on the way out
  of user mode exits instead. -/
  | timer (fromUser : Bool)
  /-- `allocproc` and the rest of the section under `np->lock`; `fits` says whether its
  memory allocations succeed. -/
  | alloc (child : Slot) (fits : Bool)
  | adopt (child : Slot)
  | start (child : Slot)
  /-- The end of `fork`: the parent starts a new quantum and is about to call `yield`. -/
  | reset
  /-- The call of `yield` at the end of `fork`. -/
  | yield
  /-- One iteration of `kill`. -/
  | kill (slot : Slot) (pid : Int)
  | reparent (slot : Slot)
  | sleep (chan : Chan)
  | exit
  | reap (slot : Slot)
  deriving DecidableEq, Repr

/-- The process table with its locks, and the CPUs. -/
@[ext]
structure Kernel (Core : Type) where
  table : Table
  /-- The CPU whose scheduler holds `p->lock`. -/
  owner : Slot → Option Core
  pc : Core → Pc
  /-- The process has done `reset` and not yet `yield`. -/
  leaving : Slot → Bool
  ticks : UInt32
  nextpid : Int
  initproc : Slot

namespace Kernel

variable {Core : Type} [DecidableEq Core]

def set (kernel : Kernel Core) (slot : Slot) (proc : Proc) : Kernel Core :=
  { kernel with table := Function.update kernel.table slot proc }

def setLeaving (kernel : Kernel Core) (slot : Slot) (leaving : Bool) : Kernel Core :=
  { kernel with leaving := Function.update kernel.leaving slot leaving }

def goto (kernel : Kernel Core) (core : Core) (pc : Pc) : Kernel Core :=
  { kernel with pc := Function.update kernel.pc core pc }

/-- A section on one entry, from `acquire` to `release`.  It waits while a scheduler holds the
lock. -/
def withLock (kernel : Kernel Core) (slot : Slot) (update : Proc → Proc) :
    Option (Kernel Core) :=
  if kernel.owner slot = none then some (kernel.set slot (update (kernel.table slot))) else none

/-- Hand the lock of a level's candidate over: the scheduler keeps that of its new candidate
only. -/
def keep (kernel : Kernel Core) (core : Core) (old new : Option Slot) : Kernel Core :=
  { kernel with
    owner := fun slot =>
      if new = some slot then some core
      else if old = some slot then none
      else kernel.owner slot }

/-- `swtch` to a process, which releases its lock.  A process that resumes inside `sleep`
clears its channel first. -/
def dispatch (kernel : Kernel Core) (core : Core) (slot : Slot) (proc : Proc) (pass : Pass) :
    Kernel Core :=
  (kernel.set slot { proc with state := .running, chan := none }).goto core (.run slot pass)

/-- The scheduler's next step. -/
def schedule (kernel : Kernel Core) (core : Core) : Option (Kernel Core) :=
  match kernel.pc core with
  | .top => some (kernel.goto core (.aging allSlots))
  | .aging [] => some (kernel.goto core (.level 0 allSlots (-1) none))
  | .aging (slot :: todo) =>
    some ((kernel.set slot (kernel.table slot).agingCheck).goto core (.aging todo))
  | .level i (slot :: todo) minTime check =>
    if kernel.owner slot = none then
      -- the first candidate of a pass replaces no other, whose lock would be released
      let old := if minTime = -1 then none else check
      let (minTime, next) := visit kernel.table i slot minTime check
      some ((kernel.keep core old next).goto core (.level i todo minTime next))
    else
      none
  | .level i [] minTime check =>
    if minTime = -1 then
      if i + 1 < 4 then
        some (kernel.goto core (.level (i + 1) allSlots minTime check))
      else
        some (kernel.goto core (.roundRobin allSlots))
    else
      check.map fun slot =>
        (kernel.keep core check none).dispatch core slot
          { kernel.table slot with waitTime := 0 } .levels
  | .roundRobin [] => some (kernel.goto core .top)
  | .roundRobin (slot :: todo) =>
    if kernel.owner slot = none then
      if kernel.table.Runnable slot ∧ (kernel.table slot).priorityLevel = 4 then
        some (kernel.dispatch core slot (kernel.table slot) (.roundRobin todo))
      else
        some (kernel.goto core (.roundRobin todo))
    else
      none
  | .run _ _ => none

/-- The process takes its lock, leaves its entry as `proc` and calls `sched()`; the scheduler
releases the lock and goes on. -/
def giveUp (kernel : Kernel Core) (core : Core) (slot : Slot) (pass : Pass) (proc : Proc) :
    Option (Kernel Core) :=
  if kernel.owner slot = none then some ((kernel.set slot proc).goto core pass.resume) else none

/-- `usertrap` and `kerneltrap` after `devintr` has returned 2. -/
def timeSlice (kernel : Kernel Core) (core : Core) (slot : Slot) (pass : Pass) :
    Option (Kernel Core) :=
  let (proc, yields) := (kernel.table slot).timeSlice
  if yields then kernel.giveUp core slot pass proc.yield else some (kernel.set slot proc)

/-- A section of a system call of the running process. -/
def syscall (kernel : Kernel Core) (core : Core) (slot : Slot) (pass : Pass) :
    Action → Option (Kernel Core)
  | .alloc child fits =>
    if (kernel.table child).state = .unused then
      let tickets := (kernel.table slot).tickets
      let update := Proc.forked .mlfq kernel.ticks kernel.nextpid tickets fits
      (kernel.withLock child update).map fun kernel =>
        { kernel with nextpid := kernel.nextpid + 1 }
    else
      none
  | .adopt child =>
    if (kernel.table child).state = .used then
      some (kernel.set child { kernel.table child with parent := some slot })
    else
      none
  | .start child =>
    if (kernel.table child).state = .used then kernel.withLock child Proc.start else none
  | .reset =>
    if 0 < (kernel.table slot).priorityLevel then
      some ((kernel.set slot { kernel.table slot with ticksElapsed := 0 }).setLeaving slot true)
    else
      none
  | .kill other pid =>
    kernel.withLock other fun proc =>
      if proc.pid = pid then proc.kill .mlfq kernel.ticks else proc
  | .reparent other =>
    if (kernel.table other).parent = some slot then
      some (kernel.set other { kernel.table other with parent := some kernel.initproc })
    else
      none
  | .sleep chan => kernel.giveUp core slot pass ((kernel.table slot).sleep chan)
  | .exit =>
    if slot = kernel.initproc then none
    else kernel.giveUp core slot pass ((kernel.table slot).exit kernel.ticks)
  | .reap other =>
    if (kernel.table other).parent = some slot ∧ (kernel.table other).state = .zombie then
      kernel.withLock other (Proc.reap kernel.ticks)
    else
      none
  | _ => none

/-- A step of the process on a CPU. -/
def running (kernel : Kernel Core) (core : Core) (slot : Slot) (pass : Pass) :
    Action → Option (Kernel Core)
  | .timer fromUser =>
    if fromUser = true ∧ ((kernel.table slot).killed = true ∨ kernel.leaving slot = true) then
      none
    else
      kernel.timeSlice core slot pass
  | .yield =>
    if kernel.leaving slot = true then
      (kernel.giveUp core slot pass (kernel.table slot).yield).map fun kernel =>
        kernel.setLeaving slot false
    else
      none
  | action =>
    if kernel.leaving slot = true then none else kernel.syscall core slot pass action

/-- One step of one CPU, `none` if it cannot be taken or has to wait for a lock. -/
def exec (kernel : Kernel Core) (core : Core) : Action → Option (Kernel Core)
  | .schedule => kernel.schedule core
  | .tick =>
    if (kernel.pc core).candidate = none then some { kernel with ticks := kernel.ticks + 1 }
    else none
  | .updTime slot =>
    if (kernel.pc core).candidate = none then kernel.withLock slot (Proc.updTime .mlfq) else none
  | .wakeup slot chan =>
    if (kernel.pc core).candidate = none ∧ (kernel.pc core).myproc ≠ some slot then
      kernel.withLock slot (Proc.wakeup .mlfq kernel.ticks chan)
    else
      none
  | action =>
    match kernel.pc core with
    | .run slot pass => kernel.running core slot pass action
    | _ => none

/-- The process that the scheduler's next step dispatches. -/
def dispatched (kernel : Kernel Core) (core : Core) : Option Slot :=
  match kernel.pc core with
  | .level _ [] minTime check => if minTime = -1 then none else check
  | .roundRobin (slot :: _) =>
    if kernel.table.Runnable slot ∧ (kernel.table slot).priorityLevel = 4 then some slot
    else none
  | _ => none

/-- The process that `aging_check` comes to in the scheduler's next step. -/
def aged (kernel : Kernel Core) (core : Core) : Option Slot :=
  match kernel.pc core with
  | .aging (slot :: _) => some slot
  | _ => none

/-- The process that a step makes `RUNNABLE`, or that is `RUNNABLE` and may be moved to another
level, with its level after the step. -/
def joins (kernel : Kernel Core) (core : Core) : Action → Option (Slot × Int)
  | .schedule => (kernel.aged core).bind fun slot =>
    if kernel.table.Runnable slot then some (slot, (kernel.table slot).agingCheck.priorityLevel)
    else none
  | .timer _ => (kernel.pc core).myproc.bind fun slot =>
    let (proc, yields) := (kernel.table slot).timeSlice
    if yields then some (slot, proc.priorityLevel) else none
  | .yield => (kernel.pc core).myproc.map fun slot => (slot, (kernel.table slot).priorityLevel)
  | .start child => some (child, (kernel.table child).priorityLevel)
  | .wakeup slot chan =>
    if (kernel.table slot).state = .sleeping ∧ (kernel.table slot).chan = some chan then
      some (slot, (kernel.table slot).priorityLevel)
    else
      none
  | .kill slot pid =>
    if (kernel.table slot).state = .sleeping ∧ (kernel.table slot).pid = pid then
      some (slot, (kernel.table slot).priorityLevel)
    else
      none
  | _ => none

/-- A process that a scan of a level may choose. -/
def Waits (table : Table) (level : Int) (slot : Slot) : Prop :=
  table.Runnable slot ∧ (table slot).priorityLevel = level

instance (table : Table) (level : Int) (slot : Slot) : Decidable (Waits table level slot) :=
  inferInstanceAs (Decidable (_ ∧ _))

/-- The interleaved step relation. -/
def Step (before : Kernel Core) (label : Core × Action) (after : Kernel Core) : Prop :=
  before.exec label.1 label.2 = some after

/-- Every CPU has just entered `scheduler()`, and `userinit` has made one process. -/
def boot (Core : Type) : Kernel Core where
  table := fun slot => if slot = 0 then (({} : Proc).alloc .mlfq 0 1).start else {}
  owner := fun _ => none
  pc := fun _ => .top
  leaving := fun _ => false
  ticks := 0
  nextpid := 2
  initproc := 0

end Kernel

/-- The steps of an only CPU from the start of a pass to a dispatch at `level`, one of 0 to 3. -/
def passTo (level : Nat) : List (Unit × Action) :=
  List.replicate (66 + 65 * (level + 1)) ((), .schedule)

/-- A clock interrupt of the only CPU while a process runs.  What `upd_time` does on the entries
not in `slots` and `wakeup` does on any changes nothing in the runs below and is left out. -/
def clockTick (slots : List Slot) : List (Unit × Action) :=
  ((), .tick) :: slots.map (fun slot => ((), .updTime slot)) ++ [((), .timer true)]

/-- The clock interrupts that use up a time slice of `level`. -/
def useSlice (slots : List Slot) (level : Nat) : List (Unit × Action) :=
  (List.replicate (2 ^ level) (clockTick slots)).flatten

/-- The sections of a `fork` that succeeds. -/
def fork (child : Slot) : List (Unit × Action) :=
  [((), .alloc child true), ((), .adopt child), ((), .start child)]

end Smp

end Xv6.Mlfq
