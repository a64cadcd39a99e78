import Xv6.Proc.Family

/-!
# `exit` and `wait` lose no child

Whenever `wait_lock` is free, every parent pointer points to a process that can still wait, and no
process sleeps in `wait` while one of its children is a `ZOMBIE`.  A `ZOMBIE` is freed once, by
its parent, which returns its pid.
-/

namespace Xv6.Family

open Function Transition Proc Pc List Option

/-- The process has been started and has not exited. -/
def Live (state : ProcState) : Prop :=
  state = .sleeping ∨ state = .runnable ∨ state = .running

/-- The positions outside the sections that the invariant is about. -/
def Pc.Plain : Pc → Prop
  | .user | .acquire _ | .stamp .. | .ret _ | .exiting => True
  | _ => False

/-- In `exit`. -/
def Pc.Exits : Pc → Prop
  | .exiting | .reparent .. | .wakeParent .. | .gone => True
  | _ => False

namespace Kernel

variable {kernel after : Kernel} {self : Slot} {build : Scheduler} {slot : Slot} {pc : Pc}

/-- The process sleeps in `wait` or `waitx`. -/
def Waits (kernel : Kernel) (slot : Slot) : Prop :=
  (kernel.table slot).state = .sleeping ∧ (kernel.table slot).chan = some (.proc slot)

section Fields

variable (kernel : Kernel) (slot query : Slot) (proc : Proc) (pc : Pc) (holder : Option Slot)

theorem set_table :
    (kernel.set slot proc).table query = if query = slot then proc else kernel.table query :=
  update_apply ..

theorem goto_pc : (kernel.goto slot pc).pc query = if query = slot then pc else kernel.pc query :=
  update_apply ..

theorem goto_pc_of_ne {other : Slot} (ne : other ≠ slot) :
    (kernel.goto slot pc).pc other = kernel.pc other :=
  update_of_ne ne ..

theorem allocproc_table (tickets : Int) (fits : Bool) :
    (kernel.allocproc build slot tickets fits).table query = if query = slot then
      (kernel.table slot).forked build kernel.ticks kernel.nextpid tickets fits
    else kernel.table query :=
  update_apply ..

@[simp] theorem allocproc_waitLock (tickets : Int) (fits : Bool) :
    (kernel.allocproc build slot tickets fits).waitLock = kernel.waitLock := rfl

theorem allocproc_pc (tickets : Int) (fits : Bool) :
    (kernel.allocproc build slot tickets fits).pc query =
      if query = slot then .user else kernel.pc query :=
  update_apply ..

end Fields

@[simp] theorem wakeOne_self (chan : Chan) (slot : Slot) :
    (kernel.wakeOne build self chan slot).table self = kernel.table self := by
  unfold wakeOne
  split_ifs with same
  · rfl
  · rw [set_table, if_neg (Ne.symm same)]

@[simp] theorem wakeOne_pc (chan : Chan) (slot : Slot) :
    (kernel.wakeOne build self chan slot).pc = kernel.pc := by
  unfold wakeOne
  split_ifs <;> rfl

section SetParent

variable (kernel : Kernel) (child query : Slot) (parent : Option Slot)

@[simp] theorem setParent_state :
    ((kernel.set child { kernel.table child with parent }).table query).state =
      (kernel.table query).state := by
  rw [set_table]
  split_ifs with same
  · rw [same]
  · rfl

theorem setParent_parent :
    ((kernel.set child { kernel.table child with parent }).table query).parent =
      if query = child then parent else (kernel.table query).parent := by
  rw [set_table]
  split_ifs <;> rfl

@[simp] theorem setParent_waits :
    (kernel.set child { kernel.table child with parent }).Waits query ↔ kernel.Waits query := by
  unfold Waits
  rw [setParent_state, set_table]
  split_ifs with same
  · rw [same]
  · rfl

end SetParent

/-! ## What a step does -/

/-- A section on one entry that may only make a sleeping process `RUNNABLE`. -/
structure Wakes (before after : Proc) : Prop where
  parent : after.parent = before.parent
  pid : after.pid = before.pid
  chan : after.chan = before.chan
  state : after.state = before.state ∨ before.state = .sleeping ∧ after.state = .runnable

theorem Wakes.refl (proc : Proc) : Wakes proc proc := ⟨rfl, rfl, rfl, Or.inl rfl⟩

theorem wakes_wakeup (proc : Proc) (ticks : UInt32) (chan : Chan) :
    Wakes proc (proc.wakeup build ticks chan) := by
  refine ⟨by simp, by simp, by simp, ?_⟩
  rw [wakeup_state]
  split_ifs with asleep
  · exact .inr ⟨asleep.1, rfl⟩
  · exact .inl rfl

theorem wakes_kill (proc : Proc) (ticks : UInt32) : Wakes proc (proc.kill build ticks) := by
  refine ⟨by simp, by simp, by simp, ?_⟩
  rw [kill_state]
  split_ifs with asleep
  · exact .inr ⟨asleep, rfl⟩
  · exact .inl rfl

/-- Everything a step can do. -/
inductive Change (build : Scheduler) (kernel : Kernel) (self : Slot) : Kernel → Prop where
  | tick : Change build kernel self { kernel with ticks := kernel.ticks + 1 }
  | touch (slot : Slot) (proc : Proc) : Wakes (kernel.table slot) proc →
      Change build kernel self (kernel.set slot proc)
  | dispatch : (kernel.table self).state = .runnable →
      Change build kernel self
        (kernel.set self { kernel.table self with state := .running, chan := none })
  | pause (proc : Proc) : (kernel.table self).state = .running → kernel.waitLock ≠ some self →
      proc.parent = (kernel.table self).parent → proc.pid = (kernel.table self).pid →
      proc.state = .runnable ∨ proc.state = .sleeping ∧ proc.chan ≠ some (.proc self) →
      Change build kernel self (kernel.set self proc)
  /-- Between two plain positions; from the end of a system call to user mode. -/
  | plain (next : Pc) : (kernel.table self).state = .running →
      kernel.pc self = .user ∨ (∃ value, kernel.pc self = .ret value) ∧ next = .user →
      next.Plain → (next = .exiting → self ≠ kernel.initproc) →
      Change build kernel self (kernel.goto self next)
  | stamp (slot : Slot) (pid : Int) : (kernel.table self).state = .running →
      kernel.pc self = .stamp slot pid →
      Change build kernel self
        ((kernel.set slot { kernel.table slot with endTime := kernel.ticks }).goto self (.ret pid))
  | fork (child : Slot) (fits : Bool) (tickets : Int) : (kernel.table self).state = .running →
      kernel.pc self = .user → (kernel.table child).state = .unused →
      Change build kernel self
        ((kernel.allocproc build child tickets fits).goto self
          (if fits then .forked child else .ret (-1)))
  | adopt (child : Slot) : (kernel.table self).state = .running →
      kernel.pc self = .forked child → kernel.waitLock = none →
      Change build kernel self
        ((kernel.set child { kernel.table child with parent := some self }).goto self
          (.adopted child))
  | start (child : Slot) : (kernel.table self).state = .running →
      kernel.pc self = .adopted child →
      Change build kernel self
        ((kernel.set child (kernel.table child).start).goto self (.ret (kernel.table child).pid))
  | acquire (kind : WaitKind) : (kernel.table self).state = .running →
      kernel.pc self = .acquire kind → kernel.waitLock = none →
      Change build kernel self
        ((kernel.setLock (some self)).goto self (.scan kind allSlots false))
  | pass (kind : WaitKind) (slot : Slot) (todo : List Slot) (havekids result : Bool) :
      (kernel.table self).state = .running → kernel.pc self = .scan kind (slot :: todo) havekids →
      ¬ ((kernel.table slot).parent = some self ∧ (kernel.table slot).state = .zombie) →
      Change build kernel self (kernel.goto self (.scan kind todo result))
  | free (kind : WaitKind) (slot : Slot) (todo : List Slot) (havekids : Bool) (next : Pc) :
      (kernel.table self).state = .running → kernel.pc self = .scan kind (slot :: todo) havekids →
      (kernel.table slot).parent = some self → (kernel.table slot).state = .zombie →
      next = .stamp slot (kernel.table slot).pid ∨ next = .ret (kernel.table slot).pid →
      Change build kernel self
        (((kernel.set slot (kernel.table slot).free).setLock none).goto self next)
  | fail (kind : WaitKind) (todo : List Slot) (havekids : Bool) :
      (kernel.table self).state = .running → kernel.pc self = .scan kind todo havekids →
      Change build kernel self ((kernel.setLock none).goto self (.ret (-1)))
  | doze (kind : WaitKind) (havekids : Bool) :
      (kernel.table self).state = .running → kernel.pc self = .scan kind [] havekids →
      Change build kernel self
        (((kernel.set self ((kernel.table self).sleep (.proc self))).setLock none).goto self
          (.acquire kind))
  | leave : (kernel.table self).state = .running → kernel.pc self = .exiting →
      kernel.waitLock = none →
      Change build kernel self ((kernel.setLock (some self)).goto self (.reparent allSlots []))
  | give (slot : Slot) (todo : List Slot) : (kernel.table self).state = .running →
      kernel.pc self = .reparent (slot :: todo) [] → (kernel.table slot).parent = some self →
      Change build kernel self
        ((kernel.set slot { kernel.table slot with parent := some kernel.initproc }).goto self
          (.reparent todo allSlots))
  | keep (slot : Slot) (todo : List Slot) : (kernel.table self).state = .running →
      kernel.pc self = .reparent (slot :: todo) [] → (kernel.table slot).parent ≠ some self →
      Change build kernel self (kernel.goto self (.reparent todo []))
  | wakeInit (slot : Slot) (todo waking : List Slot) : (kernel.table self).state = .running →
      kernel.pc self = .reparent todo (slot :: waking) →
      Change build kernel self
        ((kernel.wakeOne build self (.proc kernel.initproc) slot).goto self (.reparent todo waking))
  | turn : (kernel.table self).state = .running → kernel.pc self = .reparent [] [] →
      Change build kernel self
        (kernel.goto self (.wakeParent (kernel.table self).parent allSlots))
  | wakeParent (parent slot : Slot) (todo : List Slot) : (kernel.table self).state = .running →
      kernel.pc self = .wakeParent (some parent) (slot :: todo) →
      Change build kernel self
        ((kernel.wakeOne build self (.proc parent) slot).goto self (.wakeParent (some parent) todo))
  | noParent (slot : Slot) (todo : List Slot) : (kernel.table self).state = .running →
      kernel.pc self = .wakeParent none (slot :: todo) →
      Change build kernel self (kernel.goto self (.wakeParent none todo))
  | die (parent : Option Slot) : (kernel.table self).state = .running →
      kernel.pc self = .wakeParent parent [] →
      Change build kernel self
        (((kernel.set self ((kernel.table self).exit kernel.ticks)).setLock none).goto self .gone)

theorem proceed_change {copied : Bool} (running : (kernel.table self).state = .running)
    (done : kernel.proceed build self copied = some after) : Change build kernel self after := by
  unfold proceed at done
  split at done
  next => cases done
  next => cases done
  next child here =>
    split_ifs at done with free
    cases done
    exact .adopt child running here free
  next child here =>
    cases done
    exact .start child running here
  next kind here =>
    split_ifs at done with free
    cases done
    exact .acquire kind running here free
  next kind slot todo havekids here =>
    simp only [scanOne, some.injEq] at done
    split_ifs at done with child zombie
    · cases done
      refine .free kind slot todo havekids _ running here child zombie ?_
      cases kind <;> simp
    · cases done
      exact .fail kind _ havekids running here
    · cases done
      exact .pass kind slot todo havekids true running here (fun both => zombie both.2)
    · cases done
      exact .pass kind slot todo havekids havekids running here (fun both => child both.1)
  next kind havekids here =>
    simp only [scanned, some.injEq] at done
    split_ifs at done
    · cases done
      exact .fail kind _ havekids running here
    · cases done
      exact .doze kind havekids running here
  next slot pid here =>
    cases done
    exact .stamp slot pid running here
  next value here =>
    cases done
    exact .plain .user running (Or.inr ⟨⟨value, here⟩, rfl⟩) (by simp [Pc.Plain]) (by simp)
  next here =>
    split_ifs at done with free
    cases done
    exact .leave running here free
  next todo slot waking here =>
    cases done
    exact .wakeInit slot todo waking running here
  next slot todo here =>
    split_ifs at done with child
    · cases done
      exact .give slot todo running here child
    · cases done
      exact .keep slot todo running here child
  next here =>
    cases done
    exact .turn running here
  next parent slot todo here =>
    cases done
    exact .wakeParent parent slot todo running here
  next slot todo here =>
    cases done
    exact .noParent slot todo running here
  next parent here =>
    cases done
    exact .die parent running here

theorem step_change {label : Slot × Action} (stepped : kernel.Step build label after)
    (unlocked : kernel.pc label.1 = .user → kernel.waitLock ≠ some label.1) :
    Change build kernel label.1 after := by
  obtain ⟨self, action⟩ := label
  unfold Step at stepped
  cases action with
  | dispatch =>
    simp only [exec] at stepped
    split_ifs at stepped with runnable
    cases stepped
    exact .dispatch runnable
  | wakeup address =>
    cases stepped
    exact .touch self _ (wakes_wakeup _ _ _)
  | tick =>
    cases stepped
    exact .tick
  | yield =>
    simp only [exec, running] at stepped
    split_ifs at stepped with isRunning free
    cases stepped
    exact .pause _ isRunning free rfl rfl (Or.inl rfl)
  | proceed copied =>
    simp only [exec, running] at stepped
    split_ifs at stepped with isRunning
    exact proceed_change isRunning stepped
  | fork child fits =>
    simp only [exec, running] at stepped
    by_cases isRunning : (kernel.table self).state = .running
    · by_cases allowed : kernel.pc self = .user ∧ (kernel.table child).state = .unused
      · rw [if_pos isRunning, if_pos allowed] at stepped
        cases stepped
        exact .fork child fits _ isRunning allowed.1 allowed.2
      · rw [if_pos isRunning, if_neg allowed] at stepped
        cases stepped
    · rw [if_neg isRunning] at stepped
      cases stepped
  | wait kind =>
    simp only [exec, running] at stepped
    split_ifs at stepped with isRunning user
    cases stepped
    exact .plain _ isRunning (Or.inl user) (by simp [Pc.Plain]) (by simp)
  | exit =>
    simp only [exec, running] at stepped
    split_ifs at stepped with isRunning allowed
    cases stepped
    exact .plain _ isRunning (Or.inl allowed.1) (by simp [Pc.Plain]) (fun _ => allowed.2)
  | kill slot pid =>
    simp only [exec, running] at stepped
    split_ifs at stepped with isRunning user found
    · cases stepped
      exact .touch slot _ (wakes_kill _ _)
    · cases stepped
      exact .touch slot _ (.refl _)
  | setKilled =>
    simp only [exec, running] at stepped
    split_ifs at stepped with isRunning user
    cases stepped
    exact .touch self _ ⟨rfl, rfl, rfl, Or.inl rfl⟩
  | sleep address =>
    simp only [exec, running] at stepped
    split_ifs at stepped with isRunning user
    cases stepped
    exact .pause _ isRunning (unlocked user) rfl rfl (Or.inr ⟨rfl, by simp [sleep]⟩)

/-! ## Positions and `wait_lock` -/

/-- What holds of one process, its position and its state. -/
structure At (lock : Option Slot) (initproc slot : Slot) (pc : Pc) (state : ProcState) : Prop where
  holds_iff : pc.Holds ↔ lock = some slot
  running : pc.Holds → state = .running
  live : pc ≠ .user → pc ≠ .gone → Live state
  zombie : state = .zombie → pc = .gone
  init : slot = initproc → Live state ∧ ¬ pc.Exits

/-- Every process is where its state allows, and `wait_lock` is held by the process that is in
a section under it. -/
structure Placed (kernel : Kernel) : Prop where
  at_slot : ∀ slot, At kernel.waitLock kernel.initproc slot (kernel.pc slot)
    (kernel.table slot).state
  newborn : ∀ slot child, (kernel.pc slot).child = some child → (kernel.table child).state = .used
  siblings : ∀ slot other child, (kernel.pc slot).child = some child →
    (kernel.pc other).child = some child → slot = other

namespace At

variable {lock : Option Slot} {initproc slot : Slot} {pc next : Pc} {state : ProcState}

/-- The lock changes hands between `self` and nobody. -/
theorem relock {other : Option Slot} (placed : At lock initproc slot pc state)
    (ne : slot ≠ self) (before : lock = none ∨ lock = some self)
    (after : other = none ∨ other = some self) : At other initproc slot pc state := by
  refine ⟨?_, placed.running, placed.live, placed.zombie, placed.init⟩
  have free : lock ≠ some slot := by
    rcases before with rfl | rfl <;> simp [Ne.symm ne]
  have free' : other ≠ some slot := by
    rcases after with rfl | rfl <;> simp [Ne.symm ne]
  rw [placed.holds_iff]
  simp [free, free']

/-- The state changes between states of a started process. -/
theorem restate {result : ProcState} (placed : At lock initproc slot pc state)
    (running : pc.Holds → result = .running) (live : Live result) :
    At lock initproc slot pc result := by
  refine ⟨placed.holds_iff, running, fun _ _ => live, fun zombie => ?_, fun isInit => ?_⟩
  · rcases live with state | state | state <;> rw [state] at zombie <;> cases zombie
  · exact ⟨live, (placed.init isInit).2⟩

/-- A `RUNNING` process outside `exit` that does not hold `wait_lock`. -/
theorem of_running (holds : ¬ pc.Holds) (exits : ¬ pc.Exits) (free : lock ≠ some slot) :
    At lock initproc slot pc .running := by
  have live : Live .running := Or.inr (Or.inr rfl)
  exact ⟨by simp [holds, free], fun _ => rfl, fun _ _ => live, nofun, fun _ => ⟨live, exits⟩⟩

/-- The process moves on while it is `RUNNING`. -/
theorem advance (placed : At lock initproc slot pc .running)
    (holds_iff : next.Holds ↔ lock = some slot)
    (exits : next.Exits → pc.Exits ∨ slot ≠ initproc) : At lock initproc slot next .running := by
  have live : Live .running := Or.inr (Or.inr rfl)
  refine ⟨holds_iff, fun _ => rfl, fun _ _ => live, nofun, fun isInit => ⟨live, fun leaves => ?_⟩⟩
  rcases exits leaves with leaving | ne
  · exact (placed.init isInit).2 leaving
  · exact ne isInit

end At

namespace Placed

variable {slot : Slot} {proc : Proc}

variable (placed : kernel.Placed)
include placed

theorem not_held (free : ¬ (kernel.pc slot).Holds) : kernel.waitLock ≠ some slot :=
  mt (placed.at_slot slot).holds_iff.mpr free

theorem held (holds : (kernel.pc slot).Holds) : kernel.waitLock = some slot :=
  (placed.at_slot slot).holds_iff.mp holds

theorem alone (holds : (kernel.pc self).Holds) (ne : slot ≠ self) : ¬ (kernel.pc slot).Holds := by
  intro holds'
  have held := placed.held holds
  rw [placed.held holds'] at held
  exact ne (some.inj held)

/-- A step that writes one entry and moves one process on. -/
theorem move (table_eq : after.table = update kernel.table slot proc)
    (pc_eq : ∀ other, other ≠ self → after.pc other = kernel.pc other)
    (init_eq : after.initproc = kernel.initproc) (lock : after.waitLock = kernel.waitLock ∨
      (kernel.waitLock = none ∨ kernel.waitLock = some self) ∧
        (after.waitLock = none ∨ after.waitLock = some self))
    (here : At after.waitLock kernel.initproc self (after.pc self) (after.table self).state)
    (there : slot ≠ self → At kernel.waitLock kernel.initproc slot (kernel.pc slot) proc.state)
    (child : ∀ made, (after.pc self).child = some made → (kernel.pc self).child = some made)
    (used : ∀ other, (kernel.pc other).child = some slot → (after.pc other).child = some slot →
      proc.state = .used) : after.Placed := by
  have child_eq : ∀ other child, (after.pc other).child = some child →
      (kernel.pc other).child = some child := by
    intro other made isChild
    obtain rfl | same := eq_or_ne other self
    · exact child made isChild
    · rw [← pc_eq other same]
      exact isChild
  refine ⟨fun other => ?_, fun other made isChild => ?_, fun one two made left right => ?_⟩
  · rw [init_eq]
    obtain rfl | same := eq_or_ne other self
    · exact here
    · have old : At kernel.waitLock kernel.initproc other (kernel.pc other)
          (after.table other).state := by
        rw [table_eq]
        obtain rfl | written := eq_or_ne other slot
        · simpa using there same
        · simpa [written] using placed.at_slot other
      rw [pc_eq other same]
      rcases lock with equal | ⟨before, after⟩
      · rw [equal]
        exact old
      · exact old.relock same before after
  · rw [table_eq]
    obtain rfl | written := eq_or_ne made slot
    · simpa using used other (child_eq other made isChild) isChild
    · simpa [written] using placed.newborn other made (child_eq other made isChild)
  · exact placed.siblings one two made (child_eq one made left) (child_eq two made right)

/-- A write to one entry that leaves the process where it is. -/
theorem write (there : At kernel.waitLock kernel.initproc slot (kernel.pc slot) proc.state)
    (used : (kernel.table slot).state = .used → proc.state = .used) :
    (kernel.set slot proc).Placed := by
  have pc_eq : ∀ other, other ≠ slot → (kernel.set slot proc).pc other = kernel.pc other :=
    fun _ _ => rfl
  refine placed.move rfl pc_eq rfl (Or.inl rfl) ?_ (fun _ => there) (fun _ => id)
    (fun other isChild _ => used (placed.newborn other slot isChild))
  rw [set_table, if_pos rfl]
  exact there

theorem restate (state : proc.state = (kernel.table slot).state) :
    (kernel.set slot proc).Placed := by
  refine placed.write ?_ (fun used => ?_)
  · rw [state]
    exact placed.at_slot slot
  · rw [state, used]

theorem wakes (woken : Wakes (kernel.table slot) proc) : (kernel.set slot proc).Placed := by
  rcases woken.state with state | ⟨asleep, runnable⟩
  · exact placed.restate state
  · refine placed.write ?_ (by simp [asleep])
    rw [runnable]
    refine (placed.at_slot slot).restate (fun holds => ?_) (Or.inr (Or.inl rfl))
    have running := (placed.at_slot slot).running holds
    rw [asleep] at running
    cases running

theorem wakeOne (chan : Chan) : (kernel.wakeOne build self chan slot).Placed := by
  unfold Kernel.wakeOne
  split_ifs
  · exact placed
  · exact placed.wakes (wakes_wakeup _ _ _)

section

variable (running : (kernel.table self).state = .running) {next : Pc}
include running

theorem goto (holds_iff : next.Holds ↔ kernel.waitLock = some self)
    (exits : next.Exits → (kernel.pc self).Exits ∨ self ≠ kernel.initproc)
    (child : ∀ made, next.child = some made → (kernel.pc self).child = some made) :
    (kernel.goto self next).Placed := by
  have old := placed.at_slot self
  rw [running] at old
  have table_eq : (kernel.goto self next).table =
      update kernel.table self (kernel.table self) := by simp
  refine placed.move table_eq (fun other ne => goto_pc_of_ne _ _ _ ne) rfl
    (Or.inl rfl) ?_ (fun ne => (ne rfl).elim) ?_ (fun other isChild _ => ?_)
  · simpa [goto_pc, running] using old.advance holds_iff exits
  · simpa [goto_pc] using child
  · exact placed.newborn other self isChild

/-- A process that goes on in a section under `wait_lock`. -/
theorem carryOn (before : (kernel.pc self).Holds) (after : next.Holds)
    (exits : next.Exits → (kernel.pc self).Exits) (child : next.child = none) :
    (kernel.goto self next).Placed :=
  placed.goto running ⟨fun _ => placed.held before, fun _ => after⟩
    (fun leaves => Or.inl (exits leaves)) (by simp [child])

/-- A process takes `wait_lock`. -/
theorem take (free : kernel.waitLock = none) (holds : next.Holds)
    (exits : next.Exits → (kernel.pc self).Exits) (child : next.child = none) :
    ((kernel.setLock (some self)).goto self next).Placed := by
  have table_eq : ((kernel.setLock (some self)).goto self next).table =
      update kernel.table self (kernel.table self) := by simp
  have live : Live .running := Or.inr (Or.inr rfl)
  refine placed.move table_eq (fun other ne => goto_pc_of_ne _ _ _ ne) rfl
    (Or.inr ⟨Or.inl free, Or.inr rfl⟩) ?_ (fun ne => (ne rfl).elim)
    (by simp [goto_pc, child]) (fun other isChild _ => placed.newborn other self isChild)
  simp only [goto_pc, if_true, goto_table, setLock_table, running, goto_waitLock, setLock_waitLock]
  exact ⟨by simp [holds], fun _ => rfl, fun _ _ => live, nofun,
    fun isInit => ⟨live, fun leaves => ((placed.at_slot self).init isInit).2 (exits leaves)⟩⟩

end

/-- A process writes an entry, releases `wait_lock` and goes on to `next`. -/
theorem drop {next : Pc} (holds : (kernel.pc self).Holds) (here : At none kernel.initproc self next
      (if self = slot then proc else kernel.table self).state)
    (there : slot ≠ self → At kernel.waitLock kernel.initproc slot (kernel.pc slot) proc.state)
    (child : next.child = none) (used : (kernel.table slot).state ≠ .used) :
    (((kernel.set slot proc).setLock none).goto self next).Placed := by
  refine placed.move rfl (fun other ne => goto_pc_of_ne _ _ _ ne) rfl
    (Or.inr ⟨Or.inr (placed.held holds), Or.inl rfl⟩) ?_ there
    (by simp [goto_pc, child])
    (fun other isChild _ => (used (placed.newborn other slot isChild)).elim)
  simpa [goto_pc, set_table] using here

theorem not_child (unused : (kernel.table slot).state = .unused) (other : Slot) :
    (kernel.pc other).child ≠ some slot := by
  intro isChild
  have used := placed.newborn other slot isChild
  rw [unused] at used
  cases used

theorem allocproc {fits : Bool} {tickets : Int} (unused : (kernel.table slot).state = .unused) :
    (kernel.allocproc build slot tickets fits).Placed := by
  refine placed.move rfl (fun other ne => by simp [allocproc_pc, ne]) rfl (Or.inl rfl)
    ?_ (fun ne => (ne rfl).elim) (by simp [allocproc_pc, child])
    (fun other isChild => (placed.not_child unused other isChild).elim)
  have idle : kernel.waitLock ≠ some slot := by
    intro held
    have runs := (placed.at_slot slot).running ((placed.at_slot slot).holds_iff.mpr held)
    rw [unused] at runs
    cases runs
  have notInit : slot ≠ kernel.initproc := by
    intro isInit
    have live := ((placed.at_slot slot).init isInit).1
    simp [unused, Live] at live
  simp only [allocproc_pc, if_true, allocproc_table, forked_state]
  refine ⟨by simpa [Pc.Holds] using idle, by simp [Pc.Holds], by simp, ?_, fun isInit =>
    (notInit isInit).elim⟩
  split_ifs <;> simp

/-- `fork` goes on to the child it has made. -/
theorem forked {child : Slot} (running : (kernel.table self).state = .running)
    (user : kernel.pc self = .user) (used : (kernel.table child).state = .used)
    (unborn : ∀ other, (kernel.pc other).child ≠ some child) :
    (kernel.goto self (.forked child)).Placed := by
  refine ⟨fun other => ?_, fun other made isChild => ?_, fun one two made left right => ?_⟩
  · obtain rfl | same := eq_or_ne other self
    · have old := placed.at_slot other
      rw [running, user] at old
      simpa [goto_pc, running] using
        old.advance (by simpa [Pc.Holds] using old.holds_iff : (Pc.forked child).Holds ↔ _)
          (by simp [Pc.Exits])
    · simpa [goto_pc, same] using placed.at_slot other
  · obtain rfl | same := eq_or_ne other self
    · simp only [goto_pc, if_true, Pc.child, some.injEq] at isChild
      rw [← isChild]
      exact used
    · exact placed.newborn other made (by simpa [goto_pc, same] using isChild)
  · simp only [goto_pc] at left right
    split_ifs at left right with isOne isTwo isTwo
    · exact isOne.trans isTwo.symm
    · cases left
      exact (unborn two right).elim
    · cases right
      exact (unborn one left).elim
    · exact placed.siblings one two made left right

end Placed

theorem plain_not_holds (plain : pc.Plain) : ¬ pc.Holds := by
  cases pc <;> simp_all [Pc.Plain, Pc.Holds]

theorem outside_not_holds {pc next : Pc}
    (outside : pc = .user ∨ (∃ value, pc = .ret value) ∧ next = .user) : ¬ pc.Holds := by
  rcases outside with rfl | ⟨⟨value, rfl⟩, -⟩ <;> simp [Pc.Holds]

theorem self_not_holds (here : kernel.pc slot = pc) (free : ¬ pc.Holds) :
    ¬ (kernel.pc slot).Holds := by
  rw [here]
  exact free

theorem Placed.change (placed : kernel.Placed) (change : Change build kernel self after) :
    after.Placed := by
  cases change with
  | tick => exact { placed with }
  | touch slot proc woken => exact placed.wakes woken
  | dispatch runnable =>
    refine placed.write ?_ (by simp [runnable])
    exact (placed.at_slot self).restate (fun _ => rfl) (Or.inr (Or.inr rfl))
  | pause proc running free _ _ paused =>
    have live : Live proc.state := by
      rcases paused with state | ⟨state, -⟩ <;> simp [Live, state]
    refine placed.write ?_ (by simp [running])
    exact (placed.at_slot self).restate (fun holds => (free (placed.held holds)).elim) live
  | plain next running before after notInit =>
    refine placed.goto running ?_ ?_ ?_
    · have free := placed.not_held (outside_not_holds before)
      simp [plain_not_holds after, free]
    · intro leaves
      cases next <;> simp_all [Pc.Plain, Pc.Exits]
    · intro made isChild
      cases next <;> simp_all [Pc.Plain, child]
  | stamp slot pid running here =>
    have written : (kernel.set slot { kernel.table slot with endTime := kernel.ticks }).Placed :=
      placed.restate rfl
    have free := placed.not_held (self_not_holds here id)
    refine written.goto ?_ (by simpa [Pc.Holds] using free) (by simp [Pc.Exits]) (by simp [child])
    rw [set_table]
    split_ifs with same
    · rw [← same]
      exact running
    · exact running
  | fork child fits tickets running user unused =>
    have made : (kernel.allocproc build child tickets fits).Placed := placed.allocproc unused
    have ne : self ≠ child := by
      rintro rfl
      rw [running] at unused
      cases unused
    have running' : ((kernel.allocproc build child tickets fits).table self).state = .running := by
      simpa [allocproc_table, ne] using running
    have user' : (kernel.allocproc build child tickets fits).pc self = .user := by
      simpa [allocproc_pc, ne] using user
    cases fits with
    | false =>
      have free := made.not_held (self_not_holds user' id)
      exact made.goto running' (by simpa [Pc.Holds] using free) (by simp [Pc.Exits])
        (by simp [Pc.child])
    | true =>
      refine made.forked running' user' ?_ (fun other => ?_)
      · simp [allocproc_table, forked_state]
      · rw [allocproc_pc]
        split_ifs
        · simp [Pc.child]
        · exact placed.not_child unused other
  | adopt child running here free =>
    have written : (kernel.set child { kernel.table child with parent := some self }).Placed :=
      placed.restate rfl
    have used := placed.newborn self child (by simp [here, Pc.child])
    have ne : self ≠ child := by
      rintro rfl
      rw [running] at used
      cases used
    exact written.goto (by simpa [set_table, ne] using running)
      (by simp [Pc.Holds, free]) (by simp [Pc.Exits]) (by simp [here, Pc.child])
  | start child running here =>
    have isChild : (kernel.pc self).child = some child := by simp [here, Pc.child]
    have used := placed.newborn self child isChild
    have ne : child ≠ self := by
      rintro rfl
      rw [running] at used
      cases used
    have old := placed.at_slot self
    rw [running, here] at old
    refine placed.move rfl (fun other ne => goto_pc_of_ne _ _ _ ne) rfl (Or.inl rfl)
      ?_ (fun _ => ?_) (by simp [goto_pc, Pc.child]) (fun other before after => ?_)
    · have now := old.advance (by simpa [Pc.Holds] using old.holds_iff :
        (ret (kernel.table child).pid).Holds ↔ _) (by simp [Pc.Exits])
      simpa [goto_pc, set_table, Ne.symm ne, running] using now
    · have young := placed.at_slot child
      refine young.restate (fun holds => ?_) (Or.inr (Or.inl rfl))
      have runs := young.running holds
      rw [used] at runs
      cases runs
    · have same := placed.siblings other self child before isChild
      subst same
      simp [goto_pc, Pc.child] at after
  | acquire kind running here free =>
    exact placed.take running free trivial (by rintro ⟨⟩) rfl
  | pass kind slot todo havekids result running here =>
    exact placed.carryOn running (here ▸ trivial) trivial (by rintro ⟨⟩) rfl
  | free kind slot todo havekids next running here child zombie returns =>
    have ne : slot ≠ self := by
      rintro rfl
      rw [running] at zombie
      cases zombie
    refine placed.drop (here ▸ trivial) ?_ (fun _ => ?_) ?_ (by simp [zombie])
    · rw [if_neg (Ne.symm ne), running]
      rcases returns with rfl | rfl
      · exact .of_running id id (by rintro ⟨⟩)
      · exact .of_running id id (by rintro ⟨⟩)
    · have gone := (placed.at_slot slot).zombie zombie
      have dead := placed.at_slot slot
      rw [gone, zombie] at dead
      rw [gone]
      refine ⟨dead.holds_iff, by simp [Pc.Holds], by simp, fun _ => rfl, fun isInit => ?_⟩
      have live := (dead.init isInit).1
      simp [Live] at live
    · rcases returns with rfl | rfl <;> rfl
  | fail kind todo havekids running here =>
    have same : kernel.set self (kernel.table self) = kernel := by simp [Kernel.set]
    rw [← same]
    refine placed.drop (here ▸ trivial) ?_ (fun ne => (ne rfl).elim) rfl
      (by simp [running])
    rw [if_pos rfl, running]
    exact .of_running id id (by rintro ⟨⟩)
  | doze kind havekids running here =>
    refine placed.drop (here ▸ trivial) ?_ (fun ne => (ne rfl).elim) rfl
      (by simp [running])
    have live : Live .sleeping := Or.inl rfl
    rw [if_pos rfl]
    exact ⟨by simp [Pc.Holds], by simp [Pc.Holds], fun _ _ => live, by rintro ⟨⟩,
      fun _ => ⟨live, by simp [Pc.Exits]⟩⟩
  | leave running here free =>
    exact placed.take running free trivial (fun _ => here ▸ trivial) rfl
  | give slot todo running here =>
    have written : (kernel.set slot
        { kernel.table slot with parent := some kernel.initproc }).Placed := placed.restate rfl
    refine written.carryOn ?_ (here ▸ trivial) trivial
      (fun _ => here ▸ trivial) rfl
    rw [set_table]
    split_ifs with same
    · rw [← same]
      exact running
    · exact running
  | keep slot todo running here | turn running here | noParent slot todo running here =>
    exact placed.carryOn running (here ▸ trivial) trivial
      (fun _ => here ▸ trivial) rfl
  | wakeInit slot todo waking running here | wakeParent parent slot todo running here =>
    exact (placed.wakeOne _).carryOn (by simpa using running) (by simp [here, Pc.Holds]) trivial
      (by simp [here, Pc.Exits]) rfl
  | die parent running here =>
    refine placed.drop (here ▸ trivial) ?_ (fun ne => (ne rfl).elim) rfl
      (by simp [running])
    rw [if_pos rfl]
    refine ⟨by simp [Pc.Holds], by simp [Pc.Holds], by simp, fun _ => rfl, fun isInit => ?_⟩
    exact (((placed.at_slot self).init isInit).2 (by simp [here, Pc.Exits])).elim

theorem boot_state (slot : Slot) :
    ((boot build).table slot).state = if slot = 0 then .runnable else .unused := by
  simp only [boot]
  split_ifs <;> rfl

theorem Placed.boot : (boot build).Placed := by
  refine ⟨fun slot => ⟨?_, nofun, fun notUser => (notUser rfl).elim, fun zombie => ?_,
    fun isInit => ?_⟩, nofun, nofun⟩
  · exact ⟨False.elim, nofun⟩
  · rw [boot_state] at zombie
    split_ifs at zombie
  · have isFirst : slot = 0 := isInit
    rw [boot_state, if_pos isFirst]
    exact ⟨Or.inr (Or.inl rfl), False.elim⟩

/-! ## Parents and children -/

/-- What the process in a section under `wait_lock` has still to do: find its `ZOMBIE` children,
give its children away, or wake its parent. -/
def Owes (kernel : Kernel) (slot : Slot) : Pc → Prop
  | .scan _ todo _ => ∀ child, (kernel.table child).parent = some slot →
      (kernel.table child).state = .zombie → child ∈ todo
  | .reparent todo _ => ∀ child, (kernel.table child).parent = some slot → child ∈ todo
  | .wakeParent parent todo => parent = (kernel.table slot).parent ∧
      (∀ child, (kernel.table child).parent ≠ some slot) ∧
      ∀ other, parent = some other → kernel.Waits other → other ∈ todo
  | _ => True

/-- Parents are alive, and a process that waits for a `ZOMBIE` child is about to be woken. -/
structure Kin (kernel : Kernel) : Prop where
  blank : ∀ slot, (kernel.table slot).state = .unused → (kernel.table slot).parent = none
  parent : ∀ child slot, (kernel.table child).parent = some slot → Live (kernel.table slot).state
  owes : ∀ slot, kernel.Owes slot (kernel.pc slot)
  woken : ∀ slot child, kernel.Waits slot → (kernel.table child).parent = some slot →
    (kernel.table child).state = .zombie →
    slot = kernel.initproc ∧ ∃ other todo waking, kernel.pc other = .reparent todo waking ∧
      slot ∈ waking

/-- Nothing happens to the family: no process gets another parent, exits, or goes to sleep in
`wait`. -/
structure Steady (before after : Kernel) : Prop where
  parent_eq : ∀ slot, (after.table slot).parent = (before.table slot).parent
  unused : ∀ slot, (after.table slot).state = .unused → (before.table slot).state = .unused
  zombie : ∀ slot, (after.table slot).state = .zombie → (before.table slot).state = .zombie
  live : ∀ slot, Live (before.table slot).state → Live (after.table slot).state
  waits : ∀ slot, after.Waits slot → before.Waits slot
  initproc_eq : after.initproc = before.initproc

theorem owes_of_not_holds (free : ¬ pc.Holds) : kernel.Owes slot pc := by
  cases pc <;> simp_all [Pc.Holds, Owes]

namespace Steady

theorem of_table_eq (table_eq : after.table = kernel.table)
    (initproc_eq : after.initproc = kernel.initproc) : Steady kernel after := by
  constructor
  case waits =>
    intro slot
    simp [Waits, table_eq]
  case initproc_eq => exact initproc_eq
  all_goals simp [table_eq]

variable {slot : Slot}

/-- One entry is written. -/
theorem of_entry {entry : Proc} (table_eq : after.table = update kernel.table slot entry)
    (initproc_eq : after.initproc = kernel.initproc)
    (parent : entry.parent = (kernel.table slot).parent)
    (unused : entry.state = .unused → (kernel.table slot).state = .unused)
    (zombie : entry.state = .zombie → (kernel.table slot).state = .zombie)
    (live : Live (kernel.table slot).state → Live entry.state)
    (waits : entry.state = .sleeping ∧ entry.chan = some (.proc slot) → kernel.Waits slot) :
    Steady kernel after := by
  refine ⟨fun query => ?_, fun query => ?_, fun query => ?_, fun query => ?_, fun query => ?_,
    initproc_eq⟩
  all_goals
    simp only [Waits, table_eq, update_apply]
    split_ifs with same
    · subst same
      assumption
    · first | rfl | exact id

theorem of_wakes {proc : Proc} (wakes : Wakes (kernel.table slot) proc) :
    Steady kernel (kernel.set slot proc) := by
  rcases wakes.state with equal | ⟨-, runnable⟩
  · refine .of_entry rfl rfl wakes.parent (equal ▸ id) (equal ▸ id) (equal ▸ id) ?_
    exact fun asleep => ⟨equal ▸ asleep.1, wakes.chan ▸ asleep.2⟩
  · exact .of_entry rfl rfl wakes.parent (by simp [runnable]) (by simp [runnable])
      (by simp [runnable, Live]) (by simp [runnable])

theorem of_wakeOne {chan : Chan} : Steady kernel (kernel.wakeOne build self chan slot) := by
  unfold wakeOne
  split_ifs
  · exact .of_table_eq rfl rfl
  · exact .of_wakes (wakes_wakeup _ _ _)

/-- The process changes its state among those of a started process, and does not go to sleep in
`wait`. -/
theorem of_live {proc : Proc} (parent : proc.parent = (kernel.table slot).parent)
    (live : Live proc.state) (awake : proc.state = .sleeping → proc.chan ≠ some (.proc slot)) :
    Steady kernel (kernel.set slot proc) := by
  refine .of_entry rfl rfl parent ?_ ?_ (fun _ => live) fun asleep => (awake asleep.1 asleep.2).elim
  all_goals rcases live with state | state | state <;> simp [state]

theorem goto {pc : Pc} (steady : Steady kernel after) : Steady kernel (after.goto slot pc) :=
  { steady with }

theorem owes {pc : Pc} (steady : Steady kernel after) (owes : kernel.Owes slot pc) :
    after.Owes slot pc := by
  cases pc with
  | scan kind todo havekids =>
    intro child isChild zombie
    rw [steady.parent_eq] at isChild
    exact owes child isChild (steady.zombie child zombie)
  | reparent todo waking =>
    intro child isChild
    rw [steady.parent_eq] at isChild
    exact owes child isChild
  | wakeParent parent todo =>
    obtain ⟨same, childless, waits⟩ := owes
    refine ⟨?_, fun child => ?_, fun other isParent asleep => ?_⟩
    · rw [steady.parent_eq]
      exact same
    · rw [steady.parent_eq]
      exact childless child
    · exact waits other isParent (steady.waits other asleep)
  | user | forked | adopted | acquire | stamp | ret | exiting | gone => trivial

end Steady

namespace Kin

variable (kin : kernel.Kin)
include kin

/-- A step of `self` in which nothing happens to the family. -/
theorem steady (steady : Steady kernel after)
    (others : ∀ slot, slot ≠ self → after.pc slot = kernel.pc slot ∨
      ¬ (kernel.pc slot).Holds ∧ ¬ (after.pc slot).Holds) (owes : after.Owes self (after.pc self))
    (waking : ∀ todo waking, kernel.pc self = .reparent todo waking → kernel.initproc ∈ waking →
      after.Waits kernel.initproc →
      ∃ todo waking, after.pc self = .reparent todo waking ∧ kernel.initproc ∈ waking) :
    after.Kin := by
  refine ⟨fun slot unused => ?_, fun child slot isChild => ?_, fun slot => ?_,
    fun slot child asleep isChild zombie => ?_⟩
  · rw [steady.parent_eq]
    exact kin.blank slot (steady.unused slot unused)
  · rw [steady.parent_eq] at isChild
    exact steady.live slot (kin.parent child slot isChild)
  · obtain rfl | same := eq_or_ne slot self
    · exact owes
    · rcases others slot same with equal | ⟨-, free⟩
      · rw [equal]
        exact steady.owes (kin.owes slot)
      · exact owes_of_not_holds free
  · rw [steady.parent_eq] at isChild
    obtain ⟨rfl, other, todo, rest, here, member⟩ :=
      kin.woken slot child (steady.waits slot asleep) isChild (steady.zombie child zombie)
    rw [steady.initproc_eq]
    refine ⟨rfl, ?_⟩
    obtain rfl | same := eq_or_ne other self
    · obtain ⟨todo', rest', position', member'⟩ := waking todo rest here member asleep
      exact ⟨other, todo', rest', position', member'⟩
    · refine ⟨other, todo, rest, ?_, member⟩
      rcases others other same with equal | ⟨free, -⟩
      · rw [equal]
        exact here
      · exact (free (here ▸ trivial)).elim

/-- A step of a process that does not hold `wait_lock`. -/
theorem outside (steady : Steady kernel after) (others : ∀ slot, after.pc slot = kernel.pc slot ∨
      ¬ (kernel.pc slot).Holds ∧ ¬ (after.pc slot).Holds) : after.Kin := by
  have free : ∀ slot, after.Owes slot (after.pc slot) := by
    intro slot
    rcases others slot with equal | ⟨-, free⟩
    · rw [equal]
      exact steady.owes (kin.owes slot)
    · exact owes_of_not_holds free
  refine kin.steady steady (fun slot _ => others slot) (free kernel.initproc) ?_
  intro todo waking here member _
  rcases others kernel.initproc with equal | ⟨free, -⟩
  · exact ⟨todo, waking, equal.trans here, member⟩
  · exact (free (here ▸ trivial)).elim

theorem owed {pc : Pc} (here : kernel.pc self = pc) : kernel.Owes self pc :=
  here ▸ kin.owes self

/-- A process goes on, other than from a call of `wakeup(initproc)`. -/
theorem advance {middle : Kernel} {next : Pc} (steady : Steady kernel middle)
    (pc_eq : middle.pc = kernel.pc)
    (quiet : ∀ todo waking, kernel.pc self = .reparent todo waking → kernel.initproc ∉ waking)
    (owes : middle.Owes self next) : (middle.goto self next).Kin := by
  refine kin.steady steady.goto (fun slot (ne : slot ≠ self) => .inl ?_) ?_ ?_
  · rw [goto_pc_of_ne _ _ _ ne, pc_eq]
  · rw [goto_pc, if_pos rfl]
    exact Steady.owes (.of_table_eq rfl rfl) owes
  · exact fun todo waking here member => (quiet todo waking here member).elim

theorem steady_allocproc {slot : Slot} {tickets : Int} {fits : Bool}
    (unused : (kernel.table slot).state = .unused) :
    Steady kernel (kernel.allocproc build slot tickets fits) := by
  have parent : ((kernel.table slot).forked build kernel.ticks kernel.nextpid tickets fits).parent =
      (kernel.table slot).parent := by
    rw [forked_parent, kin.blank slot unused]
    simp
  refine .of_entry rfl rfl parent (fun _ => unused) ?_ ?_ ?_
  all_goals
    rw [forked_state]
    cases fits <;> simp [unused, Live]

/-- While `wait_lock` is free or a process scans for its children, nobody waits in vain. -/
theorem awake {slot child : Slot} (placed : kernel.Placed)
    (idle : ∀ other todo waking, kernel.waitLock = some other →
      kernel.pc other ≠ .reparent todo waking) (asleep : kernel.Waits slot)
    (isChild : (kernel.table child).parent = some slot) :
    (kernel.table child).state ≠ .zombie := by
  intro zombie
  obtain ⟨-, other, todo, waking, here, -⟩ := kin.woken slot child asleep isChild zombie
  exact idle other todo waking (placed.held (here ▸ trivial)) here

end Kin

/-- A process that waits is woken by `wakeup` on its channel. -/
theorem not_waits_wakeOne (ne : slot ≠ self) :
    ¬ (kernel.wakeOne build self (.proc slot) slot).Waits slot := by
  rintro ⟨asleep, chan⟩
  rw [wakeOne, if_neg ne, set_table, if_pos rfl] at asleep chan
  rw [wakeup_chan] at chan
  rw [wakeup_state] at asleep
  split_ifs at asleep with woken
  exact woken ⟨asleep, chan⟩

/-- The process that holds `wait_lock` writes an entry and releases the lock. -/
theorem Kin.release {entry : Proc} {next : Pc} (kin : kernel.Kin) (placed : kernel.Placed)
    (holds : (kernel.pc self).Holds)
    (elsewhere : ∀ todo waking, kernel.pc self ≠ .reparent todo waking) (outside : ¬ next.Holds)
    (blank : entry.state = .unused → entry.parent = none)
    (parent : entry.parent = (kernel.table slot).parent ∨ entry.parent = none)
    (live : ∀ child, (kernel.table child).parent = some slot → Live entry.state)
    (dies : entry.state = .zombie → ∀ query, entry.parent = some query → ¬ kernel.Waits query)
    (sleeps : entry.state = .sleeping → ∀ child, (kernel.table child).parent = some slot →
      (kernel.table child).state ≠ .zombie) :
    (((kernel.set slot entry).setLock none).goto self next).Kin := by
  have idle : ∀ other todo waking, kernel.waitLock = some other →
      kernel.pc other ≠ .reparent todo waking := by
    intro other todo waking held
    rw [placed.held holds] at held
    cases held
    exact elsewhere todo waking
  have old : ∀ child query, (if child = slot then entry else kernel.table child).parent =
      some query → (kernel.table child).parent = some query := by
    intro child query isParent
    split_ifs at isParent with same
    · rw [same]
      rcases parent with equal | none
      · exact equal ▸ isParent
      · rw [none] at isParent
        cases isParent
    · exact isParent
  refine ⟨fun query => ?_, fun child query isParent => ?_, fun query => ?_,
    fun query child asleep isParent zombie => ?_⟩
  · simp only [goto_table, setLock_table, set_table]
    split_ifs
    · exact blank
    · exact kin.blank query
  · simp only [goto_table, setLock_table, set_table] at isParent ⊢
    split_ifs with same
    · exact live child (same ▸ old child query isParent)
    · exact kin.parent child query (old child query isParent)
  · apply owes_of_not_holds
    rw [goto_pc]
    split_ifs with here
    · exact outside
    · exact placed.alone holds here
  · simp only [Waits, goto_table, setLock_table, set_table] at asleep isParent zombie
    have isParent' := old child query isParent
    split_ifs at asleep isParent zombie with sleeper victim victim
    · rw [zombie] at asleep
      cases asleep.1
    · exact (sleeps asleep.1 child (sleeper ▸ isParent') zombie).elim
    · exact (dies zombie query isParent asleep).elim
    · exact (kin.awake placed idle asleep isParent' zombie).elim

theorem Kin.change (kin : kernel.Kin) (placed : kernel.Placed)
    (change : Change build kernel self after) : after.Kin := by
  have moves : ∀ {middle : Kernel} {next : Pc}, ¬ (kernel.pc self).Holds → ¬ next.Holds →
      middle.pc = kernel.pc → ∀ slot, (middle.goto self next).pc slot = kernel.pc slot ∨
        ¬ (kernel.pc slot).Holds ∧ ¬ ((middle.goto self next).pc slot).Holds := by
    intro middle next before after same slot
    rw [goto_pc, same]
    split_ifs with here
    · subst here
      exact .inr ⟨before, after⟩
    · exact .inl rfl
  cases change with
  | tick => exact kin.outside (.of_table_eq rfl rfl) (fun _ => Or.inl rfl)
  | touch slot proc wakes => exact kin.outside (.of_wakes wakes) (fun _ => Or.inl rfl)
  | dispatch runnable =>
    refine kin.outside (.of_live rfl (Or.inr (Or.inr rfl)) ?_) (fun _ => Or.inl rfl)
    simp
  | pause proc running free parent _ paused =>
    refine kin.outside (.of_live parent ?_ ?_) (fun _ => Or.inl rfl)
    · rcases paused with state | ⟨state, -⟩ <;> simp [Live, state]
    · rcases paused with state | ⟨-, chan⟩
      · simp [state]
      · exact fun _ => chan
  | plain next running before after notInit =>
    refine kin.outside (.of_table_eq rfl rfl) (fun slot => ?_)
    rw [goto_pc]
    split_ifs with same
    · subst same
      exact .inr ⟨outside_not_holds before, plain_not_holds after⟩
    · exact .inl rfl
  | stamp slot pid running position =>
    have stamped : Wakes (kernel.table slot) { kernel.table slot with endTime := kernel.ticks } :=
      ⟨rfl, rfl, rfl, Or.inl rfl⟩
    exact kin.outside (Steady.of_wakes stamped).goto
      (moves (self_not_holds position id) id rfl)
  | fork child fits tickets running user unused =>
    have steady : Steady kernel (kernel.allocproc build child tickets fits) :=
      kin.steady_allocproc unused
    refine kin.outside steady.goto (fun slot => ?_)
    obtain rfl | same := eq_or_ne slot self
    · rw [goto_pc, if_pos rfl]
      exact .inr ⟨self_not_holds user id, by cases fits <;> simp [Pc.Holds]⟩
    · rw [goto_pc_of_ne _ _ _ same, allocproc_pc]
      split_ifs with isChild
      · subst isChild
        refine .inr ⟨fun holds => ?_, by simp [Pc.Holds]⟩
        have runs := (placed.at_slot slot).running holds
        rw [unused] at runs
        cases runs
      · exact .inl rfl
  | adopt child running position free =>
    have used := placed.newborn self child (by simp [position, Pc.child])
    have idle : ∀ slot, ¬ (kernel.pc slot).Holds := by
      intro slot holds
      have held := placed.held holds
      rw [free] at held
      cases held
    refine ⟨fun slot unused => ?_, fun query slot isParent => ?_, fun slot => ?_,
      fun slot query asleep isParent zombie => ?_⟩
    · rw [goto_table, setParent_state] at unused
      have ne : slot ≠ child := by
        rintro rfl
        rw [used] at unused
        cases unused
      rw [goto_table, setParent_parent, if_neg ne]
      exact kin.blank slot unused
    · rw [goto_table, setParent_parent] at isParent
      rw [goto_table, setParent_state]
      split_ifs at isParent
      · cases isParent
        exact .inr (Or.inr running)
      · exact kin.parent query slot isParent
    · apply owes_of_not_holds
      rw [goto_pc]
      split_ifs
      · simp [Pc.Holds]
      · exact idle slot
    · rw [goto_table, setParent_state] at zombie
      rw [goto_table, setParent_parent] at isParent
      split_ifs at isParent with isChild
      · rw [isChild, used] at zombie
        cases zombie
      · have asleep' : kernel.Waits slot := (setParent_waits ..).mp asleep
        exact (kin.awake placed (by simp [free]) asleep' isParent zombie).elim
  | start child running position =>
    have steady : Steady kernel (kernel.set child (kernel.table child).start) :=
      .of_live rfl (Or.inr (Or.inl rfl)) (by simp [start])
    exact kin.outside steady.goto
      (moves (self_not_holds position id) id rfl)
  | acquire kind running position free =>
    exact kin.advance (.of_table_eq rfl rfl) rfl (by simp [position]) fun child _ _ =>
      mem_allSlots child
  | pass kind slot todo havekids result running position other =>
    refine kin.advance (.of_table_eq rfl rfl) rfl (by simp [position])
      fun child isChild zombie => ?_
    rcases mem_cons.mp (kin.owed position child isChild zombie) with rfl | member
    · exact (other ⟨isChild, zombie⟩).elim
    · exact member
  | free kind slot todo havekids next running position child zombie returns =>
    have dead : ¬ Live (kernel.table slot).state := by simp [zombie, Live]
    refine kin.release placed (position ▸ trivial) (by simp [position]) ?_ (fun _ => rfl) (.inr rfl)
      (fun query isParent => (dead (kin.parent query slot isParent)).elim) (by rintro ⟨⟩)
      (by rintro ⟨⟩)
    rcases returns with rfl | rfl <;> exact id
  | fail kind todo havekids running position =>
    exact kin.advance (.of_table_eq rfl rfl) rfl (by simp [position]) trivial
  | doze kind havekids running position =>
    refine kin.release placed (position ▸ trivial) (by simp [position]) id (by rintro ⟨⟩) (.inl rfl)
      (fun _ _ => .inl rfl) (by rintro ⟨⟩) fun _ other isParent dies => ?_
    cases kin.owed position other isParent dies
  | leave running position free =>
    exact kin.advance (.of_table_eq rfl rfl) rfl (by simp [position]) fun child _ =>
      mem_allSlots child
  | give slot todo running position child =>
    refine ⟨fun query unused => ?_, fun query parent isParent => ?_, fun query => ?_,
      fun query other asleep isParent zombie => ?_⟩
    · rw [goto_table, setParent_state] at unused
      have blank := kin.blank query unused
      have ne : query ≠ slot := by
        rintro rfl
        rw [blank] at child
        cases child
      rw [goto_table, setParent_parent, if_neg ne]
      exact blank
    · rw [goto_table, setParent_parent] at isParent
      rw [goto_table, setParent_state]
      split_ifs at isParent
      · cases isParent
        exact ((placed.at_slot kernel.initproc).init rfl).1
      · exact kin.parent query parent isParent
    · obtain rfl | same := eq_or_ne query self
      · rw [goto_pc, if_pos rfl]
        intro other isParent
        rw [goto_table, setParent_parent] at isParent
        split_ifs at isParent with isSlot
        · have notInit := mt (placed.at_slot query).init (by simp [position, Pc.Exits])
          cases isParent
          exact (notInit rfl).elim
        · exact (mem_cons.mp (kin.owed position other isParent)).resolve_left isSlot
      · rw [goto_pc_of_ne _ _ _ same]
        exact owes_of_not_holds (placed.alone (position ▸ trivial) same)
    · rw [goto_table, setParent_state] at zombie
      rw [goto_table, setParent_parent] at isParent
      have asleep' : kernel.Waits query := (setParent_waits ..).mp asleep
      have isInit : query = kernel.initproc := by
        split_ifs at isParent
        · exact (some.inj isParent).symm
        · exact (kin.woken query other asleep' isParent zombie).1
      exact ⟨isInit, self, todo, allSlots, by rw [goto_pc, if_pos rfl], mem_allSlots query⟩
  | keep slot todo running position other =>
    refine kin.advance (.of_table_eq rfl rfl) rfl (by simp [position]) fun child isChild => ?_
    rcases mem_cons.mp (kin.owed position child isChild) with rfl | member
    · exact (other isChild).elim
    · exact member
  | wakeInit slot todo waking running position =>
    have steady : Steady kernel (kernel.wakeOne build self (.proc kernel.initproc) slot) :=
      .of_wakeOne
    have frame : ∀ other, other ≠ self →
        ((kernel.wakeOne build self (.proc kernel.initproc) slot).goto self
          (.reparent todo waking)).pc other = kernel.pc other := by
      intro other ne
      rw [goto_pc_of_ne _ _ _ ne, wakeOne_pc]
    refine kin.steady steady.goto (fun other ne => Or.inl (frame other ne)) ?_
      (fun todo' waking' position' member asleep => ?_)
    · have owes := steady.owes (kin.owed position)
      rw [goto_pc, if_pos rfl]
      exact owes
    · rw [position] at position'
      cases position'
      refine ⟨todo, waking, by rw [goto_pc, if_pos rfl], ?_⟩
      rcases mem_cons.mp member with rfl | later
      · have ne : kernel.initproc ≠ self := by
          intro isInit
          exact ((placed.at_slot self).init isInit.symm).2 (by simp [position, Pc.Exits])
        exact (not_waits_wakeOne ne asleep).elim
      · exact later
  | turn running position =>
    refine kin.advance (.of_table_eq rfl rfl) rfl (by simp [position]) ?_
    refine ⟨rfl, fun child isChild => ?_, fun other _ _ => mem_allSlots other⟩
    cases kin.owed position child isChild
  | wakeParent parent slot todo running position =>
    have steady : Steady kernel (kernel.wakeOne build self (.proc parent) slot) := .of_wakeOne
    obtain ⟨same, childless, waits⟩ := steady.owes (kin.owed position)
    refine kin.advance steady (wakeOne_pc ..) (by simp [position])
      ⟨same, childless, fun other isParent asleep => ?_⟩
    rcases mem_cons.mp (waits other isParent asleep) with rfl | later
    · cases isParent
      have ne : parent ≠ self := by
        rintro rfl
        have state := asleep.1
        rw [wakeOne_self, running] at state
        cases state
      exact (not_waits_wakeOne ne asleep).elim
    · exact later
  | noParent slot todo running position =>
    have owes := kin.owed position
    exact kin.advance (.of_table_eq rfl rfl) rfl (by simp [position])
      ⟨owes.1, owes.2.1, by rintro _ ⟨⟩⟩
  | die parent running position =>
    obtain ⟨same, childless, waits⟩ := kin.owed position
    refine kin.release placed (position ▸ trivial) (by simp [position]) id (by rintro ⟨⟩) (.inl rfl)
      (fun query isParent => (childless query isParent).elim) (fun _ query isParent asleep => ?_)
      (by rintro ⟨⟩)
    cases waits query (same.trans isParent) asleep

end Kernel

end Xv6.Family
