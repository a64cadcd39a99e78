import Xv6.Param

/-!
# The process table

The fields of `struct proc` that the scheduler, the clock handler and the
process system calls read or write.  Fields declared `uint` are `UInt32`; fields
declared `int` are `Int`.
-/

namespace Xv6

/-- The slots in the order of `for(p = proc; p < &proc[NPROC]; p++)`. -/
def allSlots : List Slot := List.finRange NPROC

theorem mem_allSlots (slot : Slot) : slot ∈ allSlots := List.mem_finRange slot

/-- `enum procstate`. -/
inductive ProcState where
  | unused
  | used
  | sleeping
  | runnable
  | running
  | zombie
  deriving DecidableEq, Repr

/-- What `p->chan` can point at: the tick counter, a process waiting for its
children, or another kernel object named by its address. -/
inductive Chan where
  | ticks
  | proc (slot : Slot)
  | object (address : Nat)
  deriving DecidableEq, Repr

/-- `struct proc`, restricted to its scheduling, accounting and signalling
fields. -/
structure Proc where
  state : ProcState := .unused
  chan : Option Chan := none
  killed : Bool := false
  pid : Int := 0
  parent : Option Slot := none
  -- lottery scheduler
  tickets : Int := 0
  timeSpent : Int := 0
  timeAvail : Int := 0
  ctime : UInt32 := 0
  -- priority scheduler and accounting
  creationTime : UInt32 := 0
  runTime : UInt32 := 0
  endTime : UInt32 := 0
  totalSleep : UInt32 := 0
  sleepTimePrev : UInt32 := 0
  sleepStartTime : UInt32 := 0
  runTimePrev : UInt32 := 0
  countTimeCalled : UInt32 := 0
  sprior : UInt32 := 0
  dprior : UInt32 := 0
  niceness : UInt32 := 0
  -- multi-level feedback queue
  priorityLevel : Int := 0
  assTicks : Int := 0
  waitTime : Int := 0
  ticksElapsed : Int := 0
  queueTicks : List Int := [0, 0, 0, 0, 0]
  deriving DecidableEq, Repr

/-- The array `proc[NPROC]`. -/
abbrev Table := Slot → Proc

/-- A slot the scheduler may pick. -/
def Table.Runnable (table : Table) (slot : Slot) : Prop :=
  (table slot).state = .runnable

instance (table : Table) (slot : Slot) : Decidable (table.Runnable slot) :=
  inferInstanceAs (Decidable ((table slot).state = .runnable))

end Xv6
