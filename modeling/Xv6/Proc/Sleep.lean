import Xv6.Lib.Transition
import Xv6.Proc.Lifecycle

/-!
# `sleep` and `wakeup`

The processes as they go through `sleep`, `wakeup`, `kill` and `yield` and through the scheduler.
Taking a lock, releasing one and what is done in between are steps of their own, so that others go
on between any two of them; only a section under one `p->lock` that neither waits nor switches is
one step.  When a process has called `sched()`, its `p->lock` stays held until the scheduler, on
the other side of the switch, has released it; when a process comes back it has its `p->lock`.

The spin locks that `sleep` is given are named by their addresses.
-/

namespace Xv6.Sleep

/-- The address of a `struct spinlock`. -/
abbrev Lock := Nat

/-- How far a call of `sleep` is. -/
inductive Stage where
  /-- About to acquire `p->lock`. -/
  | entered
  /-- About to release `lk`. -/
  | locked
  /-- About to set `p->chan` and `p->state`. -/
  | released
  /-- In `sched()`, before the scheduler has released `p->lock`. -/
  | marked
  /-- Switched out. -/
  | out
  /-- Back from `sched()`, about to clear `p->chan`. -/
  | back
  /-- About to release `p->lock`. -/
  | tidied
  /-- About to acquire `lk`. -/
  | unlocked
  deriving DecidableEq, Repr

/-- Where a process is. -/
inductive Pc where
  /-- In code that calls these functions. -/
  | run
  | sleep (stage : Stage) (chan : Chan) (lk : Lock)
  /-- In the loop of `wakeup`. -/
  | wakeup (chan : Chan) (todo : List Slot)
  /-- In the loop of `kill`. -/
  | kill (pid : Int) (todo : List Slot)
  /-- In `yield`: before the scheduler has released `p->lock`, switched out, and back. -/
  | yielding
  | yielded
  | resumed
  deriving DecidableEq, Repr

/-- What happens next to a process. -/
inductive Action where
  | acquire (lk : Lock)
  | release (lk : Lock)
  | sleep (chan : Chan) (lk : Lock)
  | wakeup (chan : Chan)
  | kill (pid : Int)
  | yield
  /-- It goes on in the function it is in. -/
  | proceed
  /-- A scheduler switches to it. -/
  | dispatch
  /-- The clock advances. -/
  | tick
  deriving DecidableEq, Repr

structure Machine where
  table : Table
  ticks : UInt32
  /-- The `p->lock`s that are held between steps. -/
  plock : Slot → Bool
  /-- The processes that hold the other locks. -/
  holder : Lock → Option Slot
  pc : Slot → Pc

namespace Machine

variable (build : Scheduler)

@[simps -fullyApplied plock holder pc ticks]
def set (machine : Machine) (slot : Slot) (proc : Proc) : Machine :=
  { machine with table := Function.update machine.table slot proc }

@[simps -fullyApplied table holder pc ticks]
def setPlock (machine : Machine) (slot : Slot) (held : Bool) : Machine :=
  { machine with plock := Function.update machine.plock slot held }

@[simps -fullyApplied table plock pc ticks]
def setHolder (machine : Machine) (lk : Lock) (holder : Option Slot) : Machine :=
  { machine with holder := Function.update machine.holder lk holder }

@[simps -fullyApplied table plock holder ticks]
def goto (machine : Machine) (slot : Slot) (pc : Pc) : Machine :=
  { machine with pc := Function.update machine.pc slot pc }

/-- A step of a call of `sleep`. -/
def proceedSleep (machine : Machine) (self : Slot) (chan : Chan) (lk : Lock) :
    Stage → Option Machine
  | .entered =>
    if machine.plock self then none
    else some ((machine.setPlock self true).goto self (.sleep .locked chan lk))
  | .locked => some ((machine.setHolder lk none).goto self (.sleep .released chan lk))
  | .released =>
    some ((machine.set self ((machine.table self).sleep chan)).goto self (.sleep .marked chan lk))
  | .marked => some ((machine.setPlock self false).goto self (.sleep .out chan lk))
  | .out => none
  | .back =>
    some ((machine.set self { machine.table self with chan := none }).goto self
      (.sleep .tidied chan lk))
  | .tidied => some ((machine.setPlock self false).goto self (.sleep .unlocked chan lk))
  | .unlocked =>
    if machine.holder lk = none then some ((machine.setHolder lk (some self)).goto self .run)
    else none

/-- An iteration of the loop of `wakeup`. -/
def proceedWakeup (machine : Machine) (self : Slot) (chan : Chan) : List Slot → Option Machine
  | [] => some (machine.goto self .run)
  | slot :: todo =>
    if slot = self then some (machine.goto self (.wakeup chan todo))
    else if machine.plock slot then none
    else some ((machine.set slot ((machine.table slot).wakeup build machine.ticks chan)).goto self
      (.wakeup chan todo))

/-- An iteration of the loop of `kill`. -/
def proceedKill (machine : Machine) (self : Slot) (pid : Int) : List Slot → Option Machine
  | [] => some (machine.goto self .run)
  | slot :: todo =>
    if machine.plock slot then none
    else if (machine.table slot).pid = pid then
      some ((machine.set slot ((machine.table slot).kill build machine.ticks)).goto self .run)
    else some (machine.goto self (.kill pid todo))

/-- A step of the function that a process is in. -/
def proceed (machine : Machine) (self : Slot) : Option Machine :=
  match machine.pc self with
  | .run => none
  | .sleep stage chan lk => machine.proceedSleep self chan lk stage
  | .wakeup chan todo => machine.proceedWakeup build self chan todo
  | .kill pid todo => machine.proceedKill build self pid todo
  | .yielding => some ((machine.setPlock self false).goto self .yielded)
  | .yielded => none
  | .resumed => some ((machine.setPlock self false).goto self .run)

/-- A scheduler makes the process `RUNNING` and switches to it. -/
def resume (machine : Machine) (self : Slot) (pc : Pc) : Option Machine :=
  if machine.plock self = false ∧ (machine.table self).state = .runnable then
    some (((machine.set self { machine.table self with state := .running }).setPlock self true).goto
      self pc)
  else none

def dispatch (machine : Machine) (self : Slot) : Option Machine :=
  match machine.pc self with
  | .sleep .out chan lk => machine.resume self (.sleep .back chan lk)
  | .yielded => machine.resume self .resumed
  | _ => none

/-- A call by a process that is in none of these functions. -/
def call (machine : Machine) (self : Slot) : Action → Option Machine
  | .acquire lk =>
    if machine.holder lk = none then some (machine.setHolder lk (some self)) else none
  | .release lk =>
    if machine.holder lk = some self then some (machine.setHolder lk none) else none
  | .sleep chan lk =>
    if machine.holder lk = some self then
      some (machine.goto self (.sleep .entered chan lk))
    else none
  | .wakeup chan => some (machine.goto self (.wakeup chan allSlots))
  | .kill pid => some (machine.goto self (.kill pid allSlots))
  | .yield =>
    if machine.plock self then none
    else some (((machine.set self (machine.table self).yield).setPlock self true).goto self
      .yielding)
  | _ => none

/-- One step of one process, `none` if it cannot be taken. -/
def exec (machine : Machine) (label : Slot × Action) : Option Machine :=
  match label with
  | (self, .proceed) => machine.proceed build self
  | (self, .dispatch) => machine.dispatch self
  | (_, .tick) => some { machine with ticks := machine.ticks + 1 }
  | (self, action) => if machine.pc self = .run then machine.call self action else none

/-- Some slots have processes that are ready to run; nobody is in the kernel. -/
def boot (used : Slot → Bool) (pid : Slot → Int) (ticks : UInt32) : Machine where
  table := fun slot =>
    { state := if used slot then .runnable else .unused
      pid := pid slot }
  ticks := ticks
  plock := fun _ => false
  holder := fun _ => none
  pc := fun _ => .yielded

/-! ## What a step does -/

variable {machine after : Machine} {self : Slot} {action : Action}

/-- The steps of a process. -/
inductive Change (machine : Machine) (self : Slot) : Action → Machine → Prop where
  | acquire (lk : Lock) : machine.pc self = .run → machine.holder lk = none →
      Change machine self (.acquire lk) (machine.setHolder lk (some self))
  | release (lk : Lock) : machine.pc self = .run → machine.holder lk = some self →
      Change machine self (.release lk) (machine.setHolder lk none)
  | enter (chan : Chan) (lk : Lock) : machine.pc self = .run → machine.holder lk = some self →
      Change machine self (.sleep chan lk) (machine.goto self (.sleep .entered chan lk))
  | wakeup (chan : Chan) : machine.pc self = .run →
      Change machine self (.wakeup chan) (machine.goto self (.wakeup chan allSlots))
  | kill (pid : Int) : machine.pc self = .run →
      Change machine self (.kill pid) (machine.goto self (.kill pid allSlots))
  | yield : machine.pc self = .run → machine.plock self = false →
      Change machine self .yield
        (((machine.set self (machine.table self).yield).setPlock self true).goto self .yielding)
  | lock (chan : Chan) (lk : Lock) : machine.pc self = .sleep .entered chan lk →
      machine.plock self = false →
      Change machine self .proceed ((machine.setPlock self true).goto self (.sleep .locked chan lk))
  | unlock (chan : Chan) (lk : Lock) : machine.pc self = .sleep .locked chan lk →
      Change machine self .proceed ((machine.setHolder lk none).goto self
        (.sleep .released chan lk))
  | mark (chan : Chan) (lk : Lock) : machine.pc self = .sleep .released chan lk →
      Change machine self .proceed
        ((machine.set self ((machine.table self).sleep chan)).goto self (.sleep .marked chan lk))
  | switch (chan : Chan) (lk : Lock) : machine.pc self = .sleep .marked chan lk →
      Change machine self .proceed ((machine.setPlock self false).goto self (.sleep .out chan lk))
  | tidy (chan : Chan) (lk : Lock) : machine.pc self = .sleep .back chan lk →
      Change machine self .proceed
        ((machine.set self { machine.table self with chan := none }).goto self
        (.sleep .tidied chan lk))
  | finish (chan : Chan) (lk : Lock) : machine.pc self = .sleep .tidied chan lk →
      Change machine self .proceed ((machine.setPlock self false).goto self
        (.sleep .unlocked chan lk))
  | relock (chan : Chan) (lk : Lock) : machine.pc self = .sleep .unlocked chan lk →
      machine.holder lk = none →
      Change machine self .proceed ((machine.setHolder lk (some self)).goto self .run)
  | pass (chan : Chan) (todo : List Slot) : machine.pc self = .wakeup chan (self :: todo) →
      Change machine self .proceed (machine.goto self (.wakeup chan todo))
  | rouse (chan : Chan) (slot : Slot) (todo : List Slot) :
      machine.pc self = .wakeup chan (slot :: todo) → slot ≠ self → machine.plock slot = false →
      Change machine self .proceed
        ((machine.set slot ((machine.table slot).wakeup build machine.ticks chan)).goto self
          (.wakeup chan todo))
  | wakeupDone (chan : Chan) : machine.pc self = .wakeup chan [] →
      Change machine self .proceed (machine.goto self .run)
  | search (pid : Int) (slot : Slot) (todo : List Slot) :
      machine.pc self = .kill pid (slot :: todo) →
      Change machine self .proceed (machine.goto self (.kill pid todo))
  | hit (pid : Int) (slot : Slot) (todo : List Slot) : machine.pc self = .kill pid (slot :: todo) →
      machine.plock slot = false → (machine.table slot).pid = pid →
      Change machine self .proceed
        ((machine.set slot ((machine.table slot).kill build machine.ticks)).goto self .run)
  | killDone (pid : Int) : machine.pc self = .kill pid [] →
      Change machine self .proceed (machine.goto self .run)
  | yielded : machine.pc self = .yielding →
      Change machine self .proceed ((machine.setPlock self false).goto self .yielded)
  | resumed : machine.pc self = .resumed →
      Change machine self .proceed ((machine.setPlock self false).goto self .run)
  | dispatch (pc : Pc) : machine.plock self = false → (machine.table self).state = .runnable →
      (∃ chan lk, machine.pc self = .sleep .out chan lk ∧ pc = .sleep .back chan lk) ∨
        machine.pc self = .yielded ∧ pc = .resumed →
      Change machine self .dispatch
        (((machine.set self { machine.table self with state := .running }).setPlock self true).goto
          self pc)
  | tick : Change machine self .tick { machine with ticks := machine.ticks + 1 }

theorem proceed_change (done : machine.proceed build self = some after) :
    Change build machine self .proceed after := by
  unfold proceed at done
  split at done
  case h_1 => cases done
  case h_2 stage chan lk here =>
    cases stage with
    | entered =>
      simp only [proceedSleep] at done
      split_ifs at done with free
      cases done
      exact .lock chan lk here (by simpa using free)
    | locked =>
      cases done
      exact .unlock chan lk here
    | released =>
      cases done
      exact .mark chan lk here
    | marked =>
      cases done
      exact .switch chan lk here
    | out => cases done
    | back =>
      cases done
      exact .tidy chan lk here
    | tidied =>
      cases done
      exact .finish chan lk here
    | unlocked =>
      simp only [proceedSleep] at done
      split_ifs at done with free
      cases done
      exact .relock chan lk here free
  case h_3 chan todo here =>
    cases todo with
    | nil =>
      cases done
      exact .wakeupDone chan here
    | cons slot todo =>
      simp only [proceedWakeup] at done
      split_ifs at done with same free
      · cases done
        rw [same] at here
        exact .pass chan todo here
      · cases done
        exact .rouse chan slot todo here same (by simpa using free)
  case h_4 pid todo here =>
    cases todo with
    | nil =>
      cases done
      exact .killDone pid here
    | cons slot todo =>
      simp only [proceedKill] at done
      split_ifs at done with free found
      · cases done
        exact .hit pid slot todo here (by simpa using free) found
      · cases done
        exact .search pid slot todo here
  case h_5 here =>
    cases done
    exact .yielded here
  case h_6 => cases done
  case h_7 here =>
    cases done
    exact .resumed here

theorem call_change (outside : machine.pc self = .run)
    (done : machine.call self action = some after) : Change build machine self action after := by
  cases action with
  | acquire lk =>
    simp only [call] at done
    split_ifs at done with free
    cases done
    exact .acquire lk outside free
  | release lk =>
    simp only [call] at done
    split_ifs at done with held
    cases done
    exact .release lk outside held
  | sleep chan lk =>
    simp only [call] at done
    split_ifs at done with held
    cases done
    exact .enter chan lk outside held
  | wakeup chan =>
    cases done
    exact .wakeup chan outside
  | kill pid =>
    cases done
    exact .kill pid outside
  | yield =>
    simp only [call] at done
    split_ifs at done with free
    cases done
    exact .yield outside (by simpa using free)
  | proceed
  | dispatch
  | tick => cases done

theorem resume_change {pc : Pc} (done : machine.resume self pc = some after)
    (paused : (∃ chan lk, machine.pc self = .sleep .out chan lk ∧ pc = .sleep .back chan lk) ∨
      machine.pc self = .yielded ∧ pc = .resumed) : Change build machine self .dispatch after := by
  unfold resume at done
  split_ifs at done with ready
  cases done
  exact .dispatch pc ready.1 ready.2 paused

theorem dispatch_change (done : machine.dispatch self = some after) :
    Change build machine self .dispatch after := by
  unfold dispatch at done
  split at done
  case h_1 chan lk here => exact resume_change build done (Or.inl ⟨chan, lk, here, rfl⟩)
  case h_2 here => exact resume_change build done (Or.inr ⟨here, rfl⟩)
  case h_3 => cases done

theorem exec_change (done : machine.exec build (self, action) = some after) :
    Change build machine self action after := by
  cases action with
  | proceed => exact proceed_change build done
  | dispatch => exact dispatch_change build done
  | tick =>
    cases done
    exact .tick
  | acquire
  | release
  | sleep
  | wakeup
  | kill
  | yield =>
    simp only [exec] at done
    split_ifs at done with outside
    exact call_change build outside done

end Machine

end Xv6.Sleep
