import Xv6.Sched.Fcfs
import Xv6.Sched.Mlfq
import Xv6.Sched.Pbs
import Xv6.Sched.RoundRobin

/-!
# The process table under any of the schedulers

One machine for the five builds, with every section of kernel code that reads or writes an
entry of the process table, the alarm fields included.  The sections interleave freely.  The
locks are not part of it: a scheduler that holds the lock of its candidate goes on with it only
while the candidate is `RUNNABLE`.  The FCFS scheduler releases the lock of a candidate that
replaces another, and neither its scan nor its dispatch looks at the candidate's state again.
-/

namespace Xv6.Builds

open Mlfq (Pass)

/-- The fields of `struct proc` for `sigalarm` and `sigreturn`. -/
structure Alarm where
  alarmHandler : UInt64 := 0
  handler : UInt64 := 0
  checkifAlarmOn : Int := 0
  sigticks : Int := 0
  maxticks : Int := 0
  deriving DecidableEq, Repr

/-- `struct proc`. -/
structure Entry where
  proc : Proc := {}
  alarm : Alarm := {}
  deriving DecidableEq, Repr

/-- Where a CPU is. -/
inductive Pos where
  /-- In the loop over the table of the DEFAULT, LBS, FCFS and PBS builds. -/
  | scan (todo : List Slot) (check : Option Slot)
  /-- In the loop of the MLFQ build. -/
  | queues (pc : Mlfq.Pc)
  /-- In a process; the scheduler goes on at `next`. -/
  | run (slot : Slot) (next : Pos)
  deriving DecidableEq, Repr

/-- `c->proc`. -/
def Pos.myproc : Pos → Option Slot
  | .run slot _ => some slot
  | _ => none

/-- `check` in the loop over the table. -/
def Pos.check : Pos → Option Slot
  | .scan _ check => check
  | _ => none

/-- What a CPU does next. -/
inductive Action where
  /-- The scheduler's own next step; the number is what `random_lbs` returns if it is called. -/
  | schedule (draw : Nat)
  | tick
  | updTime (slot : Slot)
  | wakeup (slot : Slot) (chan : Chan)
  | timer (fromUser : Bool)
  /-- `allocproc` and the rest of the section under `np->lock` in `fork`. -/
  | alloc (child : Slot) (fits : Bool)
  | adopt (child : Slot)
  | start (child : Slot)
  /-- The last two statements of `fork` in the MLFQ build. -/
  | reset
  | yield
  | kill (slot : Slot) (pid : Int)
  | setKilled
  /-- The second half of `set_priority`, which does not look at the pid again. -/
  | setPriority (slot : Slot) (prior : Fin 101)
  | setTickets (n : Int)
  | sigalarm (ticks : Int) (handler : UInt64)
  | sigreturn
  | reparent (slot : Slot)
  | reap (slot : Slot)
  /-- The write of `endTime` in `wait` after it has released the locks. -/
  | stamp (slot : Slot)
  | sleep (chan : Chan)
  | exit
  deriving DecidableEq, Repr

def Action.isSchedule : Action → Bool
  | .schedule _ => true
  | _ => false

/-- The process table and the CPUs. -/
@[ext]
structure Kernel (Core : Type) where
  table : Slot → Entry
  pos : Core → Pos
  ticks : UInt32
  nextpid : Int
  initproc : Slot

/-- What the timer branch of `usertrap` and `kerneltrap` does, and whether it yields. -/
def timerBranch (build : Scheduler) (proc : Proc) : Proc × Bool :=
  match build with
  | .default => (proc, true)
  | .lbs => proc.lotterySlice
  | .mlfq => proc.timeSlice
  | .fcfs | .pbs => (proc, false)

/-- `i->sprior = static_prior` and what follows it in `set_priority`. -/
def setPriority (prior : Fin 101) (proc : Proc) : Proc :=
  refreshPriority { proc with sprior := UInt32.ofNat prior, niceness := 5 }

namespace Kernel

variable {Core : Type} [DecidableEq Core]

/-- The entries without their alarm fields. -/
def procs (kernel : Kernel Core) : Table := fun slot => (kernel.table slot).proc

def set (kernel : Kernel Core) (slot : Slot) (entry : Entry) : Kernel Core :=
  { kernel with table := Function.update kernel.table slot entry }

/-- Write one entry, except for its alarm fields. -/
def edit (kernel : Kernel Core) (slot : Slot) (update : Proc → Proc) : Kernel Core :=
  kernel.set slot { kernel.table slot with proc := update (kernel.procs slot) }

def goto (kernel : Kernel Core) (core : Core) (pos : Pos) : Kernel Core :=
  { kernel with pos := Function.update kernel.pos core pos }

/-- Switch to a process, which runs until the scheduler goes on at `next`. -/
def dispatch (kernel : Kernel Core) (core : Core) (slot : Slot) (select : Proc → Proc)
    (next : Pos) : Kernel Core :=
  (kernel.edit slot fun proc => { select proc with chan := none }).goto core (.run slot next)

/-- The candidate of a scheduler is still `RUNNABLE`. -/
def Keeps (kernel : Kernel Core) (check : Option Slot) : Prop :=
  ∀ slot ∈ check, kernel.procs.Runnable slot

instance (kernel : Kernel Core) (check : Option Slot) : Decidable (kernel.Keeps check) :=
  inferInstanceAs (Decidable (∀ slot ∈ check, _))

/-- One iteration of the loop over the table. -/
def visit (build : Scheduler) (draw : Nat) (kernel : Kernel Core) (core : Core) (slot : Slot)
    (todo : List Slot) (check : Option Slot) : Option (Kernel Core) :=
  match build with
  | .default | .lbs =>
    if kernel.procs.Runnable slot then
      some (kernel.dispatch core slot (RoundRobin.dispatched build draw) (.scan todo none))
    else
      some (kernel.goto core (.scan todo none))
  | .fcfs => some (kernel.goto core (.scan todo (bestOf older kernel.procs check slot)))
  | .pbs =>
    some ((kernel.edit slot refreshPriority).goto core
      (.scan todo (pbsNext kernel.procs check slot)))
  | .mlfq => none

/-- The writes to the candidate before `swtch`. -/
def select (build : Scheduler) (proc : Proc) : Proc :=
  match build with
  | .pbs => pbs.select proc
  | _ => fcfs.select proc

/-- The next step of the MLFQ scheduler. -/
def queues (kernel : Kernel Core) (core : Core) : Mlfq.Pc → Option (Kernel Core)
  | .top => some (kernel.goto core (.queues (.aging allSlots)))
  | .aging [] => some (kernel.goto core (.queues (.level 0 allSlots (-1) none)))
  | .aging (slot :: todo) =>
    some ((kernel.edit slot Proc.agingCheck).goto core (.queues (.aging todo)))
  | .level i (slot :: todo) minTime check =>
    if kernel.Keeps check then
      let (minTime, next) := Mlfq.visit kernel.procs i slot minTime check
      some (kernel.goto core (.queues (.level i todo minTime next)))
    else
      none
  | .level i [] minTime check =>
    if minTime = -1 then
      if i + 1 < 4 then
        some (kernel.goto core (.queues (.level (i + 1) allSlots minTime check)))
      else
        some (kernel.goto core (.queues (.roundRobin allSlots)))
    else if kernel.Keeps check then
      check.map fun slot =>
        kernel.dispatch core slot (fun proc => { proc with state := .running, waitTime := 0 })
          (.queues .top)
    else
      none
  | .roundRobin [] => some (kernel.goto core (.queues .top))
  | .roundRobin (slot :: todo) =>
    if kernel.procs.Runnable slot ∧ (kernel.procs slot).priorityLevel = 4 then
      some (kernel.dispatch core slot (fun proc => { proc with state := .running })
        (.queues (.roundRobin todo)))
    else
      some (kernel.goto core (.queues (.roundRobin todo)))
  | .run _ _ => none

/-- The scheduler's next step. -/
def schedule (build : Scheduler) (draw : Nat) (kernel : Kernel Core) (core : Core) :
    Option (Kernel Core) :=
  match kernel.pos core with
  | .scan [] none => some (kernel.goto core (.scan allSlots none))
  | .scan [] (some slot) =>
    if build = .fcfs ∨ kernel.Keeps (some slot) then
      some (kernel.dispatch core slot (select build) (.scan allSlots none))
    else
      none
  | .scan (slot :: todo) check =>
    if build = .fcfs ∨ kernel.Keeps check then kernel.visit build draw core slot todo check
    else none
  | .queues pc => kernel.queues core pc
  | .run _ _ => none

/-- The running process leaves its entry as `update` says and the scheduler goes on. -/
def giveUp (kernel : Kernel Core) (core : Core) (slot : Slot) (next : Pos)
    (update : Proc → Proc) : Kernel Core :=
  (kernel.edit slot update).goto core next

/-- A step of the process on a CPU. -/
def running (build : Scheduler) (kernel : Kernel Core) (core : Core) (slot : Slot) (next : Pos) :
    Action → Option (Kernel Core)
  | .timer fromUser =>
    if fromUser = true ∧ (kernel.procs slot).killed = true then none
    else
      let (proc, yields) := timerBranch build (kernel.procs slot)
      some (if yields then kernel.giveUp core slot next fun _ => proc.yield
        else kernel.edit slot fun _ => proc)
  | .alloc child fits =>
    if (kernel.procs child).state = .unused then
      let tickets := (kernel.procs slot).tickets
      let update := Proc.forked build kernel.ticks kernel.nextpid tickets fits
      some { kernel.edit child update with nextpid := kernel.nextpid + 1 }
    else
      none
  | .adopt child =>
    if (kernel.procs child).state = .used then
      some (kernel.edit child fun proc => { proc with parent := some slot })
    else
      none
  | .start child =>
    if (kernel.procs child).state = .used then some (kernel.edit child Proc.start) else none
  | .reset =>
    if build = .mlfq ∧ 0 < (kernel.procs slot).priorityLevel then
      some (kernel.edit slot fun proc => { proc with ticksElapsed := 0 })
    else
      none
  | .yield => if build = .mlfq then some (kernel.giveUp core slot next Proc.yield) else none
  | .kill other pid =>
    some (kernel.edit other fun proc =>
      if proc.pid = pid then proc.kill build kernel.ticks else proc)
  | .setKilled => some (kernel.edit slot fun proc => { proc with killed := true })
  | .setPriority other prior => some (kernel.edit other (setPriority prior))
  | .setTickets n => some (kernel.edit slot fun proc => { proc with tickets := n })
  | .sigalarm ticks handler =>
    let entry := kernel.table slot
    some (kernel.set slot { entry with alarm := { entry.alarm with maxticks := ticks, handler } })
  | .sigreturn =>
    let entry := kernel.table slot
    -- it copies the trap frame from `alarm_handler`: the kernel faults on a null pointer
    if entry.alarm.alarmHandler = 0 then none
    else
      some (kernel.set slot { entry with
        alarm := { entry.alarm with alarmHandler := 0, checkifAlarmOn := 0, sigticks := 0 } })
  | .reparent other =>
    if (kernel.procs other).parent = some slot then
      some (kernel.edit other fun proc => { proc with parent := some kernel.initproc })
    else
      none
  | .reap other =>
    if (kernel.procs other).parent = some slot ∧ (kernel.procs other).state = .zombie then
      some (kernel.edit other Proc.free)
    else
      none
  | .stamp other => some (kernel.edit other fun proc => { proc with endTime := kernel.ticks })
  | .sleep chan => some (kernel.giveUp core slot next (Proc.sleep chan))
  | .exit =>
    if slot = kernel.initproc then none
    else some (kernel.giveUp core slot next (Proc.exit kernel.ticks))
  | _ => none

/-- One step of one CPU, `none` if it cannot be taken. -/
def exec (build : Scheduler) (kernel : Kernel Core) (core : Core) :
    Action → Option (Kernel Core)
  | .schedule draw => kernel.schedule build draw core
  | .tick => some { kernel with ticks := kernel.ticks + 1 }
  | .updTime slot => some (kernel.edit slot (Proc.updTime build))
  | .wakeup slot chan =>
    if (kernel.pos core).myproc = some slot then none
    else some (kernel.edit slot (Proc.wakeup build kernel.ticks chan))
  | action =>
    match kernel.pos core with
    | .run slot next => kernel.running build core slot next action
    | _ => none

/-- The interleaved step relation. -/
def Step (build : Scheduler) (before : Kernel Core) (label : Core × Action)
    (after : Kernel Core) : Prop :=
  before.exec build label.1 label.2 = some after

/-- The FCFS scheduler goes on with a candidate only while it is `RUNNABLE`. -/
def Fresh (build : Scheduler) (kernel : Kernel Core) (label : Core × Action) : Prop :=
  build = .fcfs → label.2.isSchedule = true → kernel.Keeps (kernel.pos label.1).check

instance (build : Scheduler) (kernel : Kernel Core) (label : Core × Action) :
    Decidable (kernel.Fresh build label) :=
  inferInstanceAs (Decidable (_ → _ → _))

/-- A step with no stale candidate. -/
def FreshStep (build : Scheduler) : Kernel Core → Core × Action → Kernel Core → Prop :=
  Transition.Guarded (Fresh build) (Step build)

/-- Every CPU has just entered `scheduler()`, and `userinit` has made one process. -/
def boot (Core : Type) (build : Scheduler) : Kernel Core where
  table := fun slot =>
    if slot = 0 then { proc := (({} : Proc).alloc build 0 1).start } else {}
  pos := fun _ => if build = .mlfq then .queues .top else .scan allSlots none
  ticks := 0
  nextpid := 2
  initproc := 0

end Kernel

end Xv6.Builds
