import Xv6.Proc.Table

/-!
# What the kernel writes into a process entry

The sections of `kernel/proc.c` and `kernel/trap.c` that run under one `p->lock`,
as functions of the entry they change.  The `#ifdef` blocks of the source are
branches on the scheduler the kernel was built with.
-/

namespace Xv6

/-- The `SCHEDULER` macro of the Makefile. -/
inductive Scheduler where
  | default
  | lbs
  | fcfs
  | pbs
  | mlfq
  deriving DecidableEq, Repr

/-- Ticks a process may wait before it is moved up one queue. -/
def AGE : Int := 36

namespace Proc

/-- `allocproc` once it has found an `UNUSED` entry. -/
def alloc (build : Scheduler) (ticks : UInt32) (pid : Int) (proc : Proc) : Proc :=
  let proc := { proc with
    pid := pid
    state := .used
    tickets := 1
    timeSpent := 0
    timeAvail := 1
    creationTime := ticks
    sprior := 60
    niceness := 5
    runTime := 0
    endTime := 0
    runTimePrev := 0
    sleepTimePrev := 0
    sleepStartTime := 0 }
  if build = .mlfq then
    { proc with
      priorityLevel := 0
      assTicks := 1
      ticksElapsed := 0
      queueTicks := [0, 0, 0, 0, 0] }
  else
    proc

/-- `freeproc`. -/
def free (proc : Proc) : Proc :=
  { proc with pid := 0, parent := none, chan := none, killed := false, state := .unused }

/-- The entry when `fork` releases `np->lock`: made by `allocproc`, with the tickets of the
parent, or freed again because an allocation failed. -/
def forked (build : Scheduler) (ticks : UInt32) (pid tickets : Int) (fits : Bool) (proc : Proc) :
    Proc :=
  let proc := proc.alloc build ticks pid
  if fits then
    if build = .lbs then { proc with tickets } else proc
  else
    proc.free

/-- The end of `fork` and of `userinit`: the new process may run. -/
def start (proc : Proc) : Proc := { proc with state := .runnable }

/-- The body of `wakeup`'s loop. -/
def wakeup (build : Scheduler) (ticks : UInt32) (chan : Chan) (proc : Proc) : Proc :=
  if proc.state = .sleeping ∧ proc.chan = some chan then
    let proc := { proc with state := .runnable }
    let proc := if build = .lbs then { proc with timeSpent := 0 } else proc
    let proc :=
      if proc.sleepStartTime ≠ 0 then
        { proc with
          sleepTimePrev := ticks - proc.sleepStartTime
          totalSleep := proc.totalSleep + (ticks - proc.sleepStartTime) }
      else
        proc
    if build = .mlfq then { proc with ticksElapsed := 0 } else proc
  else
    proc

/-- What `kill` does to the process it finds. -/
def kill (build : Scheduler) (ticks : UInt32) (proc : Proc) : Proc :=
  let proc := { proc with killed := true }
  if proc.state = .sleeping then
    let proc := if build = .lbs then { proc with timeSpent := 0 } else proc
    let proc := { proc with
      sleepTimePrev := ticks - proc.sleepStartTime
      state := .runnable }
    if build = .mlfq then { proc with ticksElapsed := 0 } else proc
  else
    proc

/-- The body of `upd_time`'s loop. -/
def updTime (build : Scheduler) (proc : Proc) : Proc :=
  if proc.state = .running then
    let proc := { proc with
      runTime := proc.runTime + 1
      runTimePrev := proc.runTimePrev + 1 }
    let proc := if build = .lbs then { proc with timeSpent := proc.timeSpent + 1 } else proc
    if build = .mlfq then
      { proc with
        queueTicks := proc.queueTicks.modify proc.priorityLevel.toNat (· + 1)
        waitTime := proc.waitTime + 1 }
    else
      proc
  else
    proc

/-- The body of `aging_check`'s loop. -/
def agingCheck (proc : Proc) : Proc :=
  if (proc.state = .sleeping ∨ proc.state = .runnable) ∧ AGE < proc.waitTime ∧
      proc.priorityLevel ≠ 0 then
    { proc with
      waitTime := 0
      priorityLevel := proc.priorityLevel - 1
      assTicks := proc.assTicks.tdiv 2 }
  else
    proc

/-- The MLFQ branch of `usertrap` and `kerneltrap` on a timer interrupt: the
updated entry, and whether the process yields. -/
def timeSlice (proc : Proc) : Proc × Bool :=
  let proc := { proc with ticksElapsed := proc.ticksElapsed + 1 }
  if proc.assTicks ≤ proc.ticksElapsed then
    let proc := { proc with ticksElapsed := 0 }
    if proc.priorityLevel < 4 then
      ({ proc with
        priorityLevel := proc.priorityLevel + 1
        assTicks := proc.assTicks * 2 }, true)
    else
      (proc, true)
  else
    (proc, false)

/-- The LBS branch of `usertrap` and `kerneltrap` on a timer interrupt. -/
def lotterySlice (proc : Proc) : Proc × Bool :=
  let proc := { proc with timeSpent := proc.timeSpent + 1 }
  if proc.timeAvail ≤ proc.timeSpent then
    ({ proc with timeSpent := 0 }, true)
  else
    (proc, false)

/-- `yield` up to `sched()`. -/
def yield (proc : Proc) : Proc := { proc with state := .runnable }

/-- `sleep` up to `sched()`. -/
def sleep (chan : Chan) (proc : Proc) : Proc :=
  { proc with chan := some chan, state := .sleeping }

/-- `exit` up to `sched()`. -/
def exit (ticks : UInt32) (proc : Proc) : Proc :=
  { proc with state := .zombie, endTime := ticks }

/-- `wait` on the `ZOMBIE` child it found. -/
def reap (ticks : UInt32) (proc : Proc) : Proc :=
  { proc.free with endTime := ticks }

/-! ## The scheduling state after a section -/

section Scheduling

variable (build : Scheduler) (ticks : UInt32) (chan : Chan) (proc : Proc)

@[simp] theorem wakeup_priorityLevel :
    (proc.wakeup build ticks chan).priorityLevel = proc.priorityLevel := by
  simp only [wakeup]
  split_ifs <;> rfl

@[simp] theorem wakeup_ctime : (proc.wakeup build ticks chan).ctime = proc.ctime := by
  simp only [wakeup]
  split_ifs <;> rfl

@[simp] theorem wakeup_parent : (proc.wakeup build ticks chan).parent = proc.parent := by
  simp only [wakeup]
  split_ifs <;> rfl

@[simp] theorem wakeup_pid : (proc.wakeup build ticks chan).pid = proc.pid := by
  simp only [wakeup]
  split_ifs <;> rfl

@[simp] theorem wakeup_chan : (proc.wakeup build ticks chan).chan = proc.chan := by
  simp only [wakeup]
  split_ifs <;> rfl

@[simp] theorem wakeup_killed : (proc.wakeup build ticks chan).killed = proc.killed := by
  simp only [wakeup]
  split_ifs <;> rfl

theorem wakeup_state : (proc.wakeup build ticks chan).state =
    if proc.state = .sleeping ∧ proc.chan = some chan then .runnable else proc.state := by
  simp only [wakeup]
  split_ifs <;> rfl

@[simp] theorem kill_priorityLevel :
    (proc.kill build ticks).priorityLevel = proc.priorityLevel := by
  simp only [kill]
  split_ifs <;> rfl

@[simp] theorem kill_ctime : (proc.kill build ticks).ctime = proc.ctime := by
  simp only [kill]
  split_ifs <;> rfl

@[simp] theorem kill_parent : (proc.kill build ticks).parent = proc.parent := by
  simp only [kill]
  split_ifs <;> rfl

@[simp] theorem kill_pid : (proc.kill build ticks).pid = proc.pid := by
  simp only [kill]
  split_ifs <;> rfl

@[simp] theorem kill_chan : (proc.kill build ticks).chan = proc.chan := by
  simp only [kill]
  split_ifs <;> rfl

theorem kill_state : (proc.kill build ticks).state =
    if proc.state = .sleeping then .runnable else proc.state := by
  simp only [kill]
  split_ifs <;> rfl

@[simp] theorem updTime_priorityLevel :
    (proc.updTime build).priorityLevel = proc.priorityLevel := by
  simp only [updTime]
  split_ifs <;> rfl

@[simp] theorem updTime_ctime : (proc.updTime build).ctime = proc.ctime := by
  simp only [updTime]
  split_ifs <;> rfl

@[simp] theorem updTime_state : (proc.updTime build).state = proc.state := by
  simp only [updTime]
  split_ifs <;> simp_all

theorem forked_state (pid tickets : Int) (fits : Bool) :
    (proc.forked build ticks pid tickets fits).state = if fits then .used else .unused := by
  cases fits <;> simp only [forked, alloc, free] <;> split_ifs <;> simp_all

theorem forked_parent (pid tickets : Int) (fits : Bool) :
    (proc.forked build ticks pid tickets fits).parent = if fits then proc.parent else none := by
  cases fits <;> simp only [forked, alloc, free] <;> split_ifs <;> simp_all

@[simp] theorem forked_ctime (pid tickets : Int) (fits : Bool) :
    (proc.forked build ticks pid tickets fits).ctime = proc.ctime := by
  cases fits <;> simp only [forked, alloc, free] <;> split_ifs <;> rfl

end Scheduling

end Proc

/-! ## Sections under one lock -/

/-- A section of kernel code, outside the schedulers, that takes one `p->lock` and writes the
entry. -/
inductive Section where
  | updTime (slot : Slot)
  | wakeup (slot : Slot) (chan : Chan)
  | kill (slot : Slot) (pid : Int)
  | alloc (child : Slot) (fits : Bool)
  | start (child : Slot)
  | reap (slot : Slot)

namespace Section

def slot : Section → Slot
  | .updTime slot | .wakeup slot _ | .kill slot _ | .alloc slot _ | .start slot | .reap slot => slot

/-- The section finds an entry in this state. -/
def Finds (state : ProcState) : Section → Prop
  | .alloc _ _ => state = .unused
  | .start _ => state = .used
  | .reap _ => state = .zombie
  | _ => True

/-- What the section makes of the entry; a new process gets `pid`, and its parent's `tickets`. -/
def write (build : Scheduler) (ticks : UInt32) (pid tickets : Int) : Section → Proc → Proc
  | .updTime _ => Proc.updTime build
  | .wakeup _ chan => Proc.wakeup build ticks chan
  | .kill _ target => fun proc => if proc.pid = target then proc.kill build ticks else proc
  | .alloc _ fits => Proc.forked build ticks pid tickets fits
  | .start _ => Proc.start
  | .reap _ => Proc.reap ticks

variable (build : Scheduler) (ticks : UInt32) (pid tickets : Int) (sect : Section) {proc : Proc}

theorem write_ctime :
    (sect.write build ticks pid tickets proc).ctime = proc.ctime := by
  cases sect with
  | kill =>
    simp only [write]
    split_ifs <;> simp
  | start | reap => rfl
  | updTime | wakeup | alloc => simp [write]

/-- The sections neither start nor stop a process. -/
theorem write_running (finds : sect.Finds proc.state) :
    (sect.write build ticks pid tickets proc).state = .running ↔ proc.state = .running := by
  cases sect with
  | updTime => simp [write]
  | wakeup =>
    simp only [write, Proc.wakeup_state]
    split_ifs with asleep <;> simp_all
  | kill =>
    simp only [write]
    split_ifs
    · rw [Proc.kill_state]
      split_ifs with asleep <;> simp_all
    · rfl
  | alloc =>
    simp only [write, Proc.forked_state, show proc.state = .unused from finds]
    split_ifs <;> simp
  | start => simp [write, Proc.start, show proc.state = .used from finds]
  | reap => simp [write, Proc.reap, Proc.free, show proc.state = .zombie from finds]

end Section

end Xv6
