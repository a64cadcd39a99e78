import Xv6.Lib.Result
import Xv6.Lib.Transition
import Xv6.Proc.Spinlock

/-!
# The scheduler loop on several CPUs

The FCFS and PBS builds of `scheduler()` share one shape: scan the table once,
keeping a candidate `check`, then switch to the candidate and release its lock
when it comes back.  A build supplies what it does at one slot of the scan and
what it writes into the candidate before `swtch`.

Each CPU is either scanning, or in the process it dispatched.  Every section
under one `p->lock` is a step of its own, and the steps of different CPUs
interleave freely.
-/

namespace Xv6

open Machine

/-- The part of `scheduler()` in which the builds differ. -/
structure ScanBuild where
  /-- One iteration of the scan: the slot, the candidate so far. -/
  visit : CpuId → Slot → Option Slot → Machine → Except Stop (Option Slot × Machine)
  /-- The writes to the candidate before `swtch`. -/
  select : Proc → Proc

/-- The scan loop over the remaining slots. -/
def ScanBuild.scan (build : ScanBuild) (id : CpuId) :
    List Slot → Option Slot → Machine → Except Stop (Option Slot × Machine)
  | [], check, machine => .ok (check, machine)
  | slot :: todo, check, machine =>
    match build.visit id slot check machine with
    | .error stop => .error stop
    | .ok (check, machine) => build.scan id todo check machine

/-- The candidate becomes the CPU's process; the machine is as `swtch` finds it. -/
def ScanBuild.switchTo (build : ScanBuild) (id : CpuId) (slot : Slot) (machine : Machine) :
    Machine :=
  let machine := machine.setProc slot (build.select (machine.table slot))
  machine.setCpu id { machine.cpu id with proc := some slot }

/-- `sched()` up to its `swtch` back to the scheduler. -/
def sched (id : CpuId) (slot : Slot) (machine : Machine) : Except Stop Machine :=
  if ¬ holding (machine.lock slot) id then
    .error (.panic .schedLock)
  else if (machine.cpu id).noff ≠ 1 then
    .error (.panic .schedLocks)
  else if (machine.table slot).state = .running then
    .error (.panic .schedRunning)
  else if (machine.cpu id).sie then
    .error (.panic .schedInterruptible)
  else
    .ok machine

/-- The running process takes its own lock, writes its entry and calls
`sched()`, as `yield`, `sleep` and `exit` do. -/
def giveUp (id : CpuId) (slot : Slot) (proc : Proc) (machine : Machine) :
    Except Stop Machine :=
  match machine.acquire id slot with
  | .error stop => .error stop
  | .ok machine => sched id slot (machine.setProc slot proc)

/-- The scheduler after `swtch` returns to it. -/
def afterSwitch (id : CpuId) (slot : Slot) (machine : Machine) : Except Stop Machine :=
  (machine.setCpu id { machine.cpu id with proc := none }).release id slot

/-- The machine as `swtch` finds it after a scan, unless there was no candidate. -/
def ScanBuild.atSwitch (build : ScanBuild) (id : CpuId) (machine : Machine) :
    Option Slot → Machine
  | none => machine
  | some slot => build.switchTo id slot machine

/-- From `swtch` to the start of the next scan: the process releases its lock in
`forkret` or on its return from `sched()`, gives the CPU up again with the entry
`proc`, and the scheduler releases the lock. -/
def roundTrip (id : CpuId) (slot : Slot) (proc : Proc) (machine : Machine) :
    Except Stop Machine := do
  let machine ← machine.release id slot
  let machine ← giveUp id slot proc machine
  let machine ← afterSwitch id slot machine
  return machine.intrOn id

/-- One scan followed by the dispatch of its candidate is right: the candidate
is the one asked for, at `swtch` the CPU holds the candidate's lock and no other,
and neither the way back nor the locks of the next scan make the CPU panic. -/
def ScanBuild.ScanCorrect (build : ScanBuild) (Wanted : Table → Option Slot → Prop)
    (id : CpuId) (machine : Machine) : Prop :=
  ∃ check after, build.scan id allSlots none machine = .ok (check, after) ∧
    Wanted machine.table check ∧
    (∀ slot, holding ((build.atSwitch id after check).lock slot) id ↔ check = some slot) ∧
    (check = none → ∃ result, build.scan id allSlots none (after.intrOn id) = .ok result) ∧
    ∀ slot ∈ check, ∀ proc : Proc, proc.state ≠ .running →
      ∃ next, roundTrip id slot proc (build.atSwitch id after check) = .ok next ∧
        ∃ result, build.scan id allSlots none next = .ok result

/-- Where a CPU is. -/
inductive Pc where
  /-- Scanning: the slots still to visit, the candidate so far. -/
  | scan (todo : List Slot) (check : Option Slot)
  /-- Just switched to the process, which has yet to release its lock. -/
  | resume (slot : Slot)
  /-- In the process, at user level or in a system call. -/
  | run (slot : Slot)
  /-- Back in the scheduler, with the lock the process acquired. -/
  | back (slot : Slot)
  deriving DecidableEq, Repr

/-- One step of one CPU. -/
inductive Action where
  | visit
  | dispatch
  | resume
  /-- Kernel code that changes one entry under its lock: `wakeup`, `kill`,
  `allocproc`, `freeproc`, `upd_time`. -/
  | update (slot : Slot) (proc : Proc)
  | giveUp (proc : Proc)
  | finish
  deriving DecidableEq, Repr

/-- The machine and the position of every CPU in it. -/
structure System where
  machine : Machine
  pc : CpuId → Pc

def System.goto (system : System) (id : CpuId) (machine : Machine) (pc : Pc) : System :=
  ⟨machine, Function.update system.pc id pc⟩

/-- An entry that a CPU other than the one running it may leave behind: such
code neither starts nor stops a process. -/
def UpdateAllowed (before after : Proc) : Prop :=
  before.state = .running ↔ after.state = .running

instance (before after : Proc) : Decidable (UpdateAllowed before after) :=
  inferInstanceAs (Decidable (_ ↔ _))

/-- `acquire`, one write to the entry, `release`. -/
def lockedUpdate (id : CpuId) (slot : Slot) (proc : Proc) (machine : Machine) :
    Except Stop Machine :=
  match machine.acquire id slot with
  | .error stop => .error stop
  | .ok machine =>
    if UpdateAllowed (machine.table slot) proc then
      (machine.setProc slot proc).release id slot
    else
      .error .blocked

/-- One step of one CPU.  An action that is not the CPU's next one is
`blocked`, as is an `acquire` of a busy lock. -/
def System.exec (build : ScanBuild) (system : System) (id : CpuId) :
    Action → Except Stop System
  | .visit =>
    match system.pc id with
    | .scan (slot :: todo) check =>
      (build.visit id slot check system.machine).map fun (check, machine) =>
        system.goto id machine (.scan todo check)
    | _ => .error .blocked
  | .dispatch =>
    match system.pc id with
    | .scan [] none =>
      .ok (system.goto id (system.machine.intrOn id) (.scan allSlots none))
    | .scan [] (some slot) =>
      .ok (system.goto id (build.switchTo id slot system.machine) (.resume slot))
    | _ => .error .blocked
  | .resume =>
    match system.pc id with
    | .resume slot =>
      (system.machine.release id slot).map fun machine =>
        system.goto id machine (.run slot)
    | _ => .error .blocked
  | .update slot proc =>
    match system.pc id with
    | .run _ | .scan _ none =>
      (lockedUpdate id slot proc system.machine).map fun machine =>
        { system with machine }
    | _ => .error .blocked
  | .giveUp proc =>
    match system.pc id with
    | .run slot =>
      if proc.state = .runnable ∨ proc.state = .sleeping ∨ proc.state = .zombie then
        (Xv6.giveUp id slot proc system.machine).map fun machine =>
          system.goto id machine (.back slot)
      else
        .error .blocked
    | _ => .error .blocked
  | .finish =>
    match system.pc id with
    | .back slot =>
      (afterSwitch id slot system.machine).map fun machine =>
        system.goto id (machine.intrOn id) (.scan allSlots none)
    | _ => .error .blocked

/-- The interleaved step relation. -/
def System.Step (build : ScanBuild) (before : System) (label : CpuId × Action)
    (after : System) : Prop :=
  before.exec build label.1 label.2 = .ok after

/-- Every CPU has just entered `scheduler()`: no lock is held and no process
runs yet. -/
structure System.Initial (system : System) : Prop where
  free : ∀ slot, system.machine.lock slot = ⟨false, none⟩
  scanning : ∀ id, system.pc id = .scan allSlots none
  idle : ∀ id, (system.machine.cpu id).noff = 0 ∧ (system.machine.cpu id).proc = none
  stopped : ∀ slot, (system.machine.table slot).state ≠ .running

/-- A machine with every lock free and every CPU entering the scheduler. -/
def Machine.atBoot (table : Table) : Machine where
  table := table
  lock := fun _ => {}
  cpu := fun _ => {}

def System.atBoot (table : Table) : System where
  machine := Machine.atBoot table
  pc := fun _ => .scan allSlots none

theorem System.atBoot_initial {table : Table}
    (stopped : ∀ slot, (table slot).state ≠ .running) : (System.atBoot table).Initial where
  free := fun _ => rfl
  scanning := fun _ => rfl
  idle := fun _ => ⟨rfl, rfl⟩
  stopped := stopped

/-- What a scan by the first CPU ends with: the candidate, and whether the CPU
holds the locks of the first two slots. -/
def scanOutcome (build : ScanBuild) (machine : Machine) :
    Option (Option Slot × Bool × Bool) :=
  (build.scan 0 allSlots none machine).toOption.map fun (check, after) =>
    (check, decide (holding (after.lock 0) 0), decide (holding (after.lock 1) 0))

end Xv6
