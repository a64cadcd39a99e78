import Xv6.Sched.Builds

/-!
# What a step does to the process table

A step of any build runs one section of kernel code.  The section writes one entry of the table, and
the CPU goes on outside a process, switches to one, leaves one or stays where it is.  This is said
once here; what holds in every run follows from it.
-/

namespace Xv6

open Proc Option

/-- What `kill` and `set_priority` are about, and the sleep of a process in the long run. -/
structure Signals where
  pid : Int
  killed : Bool
  sprior : UInt32
  sleepStartTime : UInt32
  totalSleep : UInt32

def Proc.signals (proc : Proc) : Signals :=
  ⟨proc.pid, proc.killed, proc.sprior, proc.sleepStartTime, proc.totalSleep⟩

namespace Builds

open Function

/-- A slot as `freeproc` leaves it. -/
structure Blank (proc : Proc) : Prop where
  state : proc.state = .unused
  pid : proc.pid = 0
  parent : proc.parent = none
  chan : proc.chan = none

/-! ## Sections keep a blank slot blank -/

namespace Blank

variable {proc : Proc} (build : Scheduler) (ticks : UInt32)

variable (blank : Blank proc)
include blank

theorem updTime : Blank (proc.updTime build) := by
  rw [Proc.updTime, if_neg (by simp [blank.state])]
  exact blank

theorem wakeup (chan : Chan) : Blank (proc.wakeup build ticks chan) := by
  rw [Proc.wakeup, if_neg (by simp [blank.state])]
  exact blank

theorem kill : Blank (proc.kill build ticks) := by
  have awake : ¬ proc.state = .sleeping := by simp [blank.state]
  simp only [Proc.kill, awake, if_false]
  exact { blank with }

theorem agingCheck : Blank proc.agingCheck := by
  rw [Proc.agingCheck, if_neg (by simp [blank.state])]
  exact blank

theorem refreshPriority : Blank (refreshPriority proc) := by
  rw [refreshPriority_eq]
  exact { blank with }

theorem setPriority (prior : Fin 101) : Blank (setPriority prior proc) :=
  refreshPriority { blank with }

end Blank

namespace Kernel

variable {Core : Type} {kernel after : Kernel Core} {core : Core} {slot : Slot}
  {build : Scheduler} {action : Action} {entry : Entry}

/-- `UNUSED` slots are as `freeproc` leaves them, and the processes on the CPUs are `RUNNING`. -/
structure Sound (kernel : Kernel Core) : Prop where
  blank : ∀ slot, (kernel.procs slot).state = .unused → Blank (kernel.procs slot)
  running : ∀ core slot, (kernel.pos core).myproc = some slot →
    (kernel.procs slot).state = .running
  unique : ∀ slot core other, (kernel.pos core).myproc = some slot →
    (kernel.pos other).myproc = some slot → core = other
  returns : ∀ core slot next, kernel.pos core = .run slot next → next.myproc = none

/-! ## Sections -/

/-- What a section may write to the entry of a slot. -/
inductive Wrote (build : Scheduler) (kernel : Kernel Core) (slot : Slot) (before : Proc) :
    Action → Proc → Prop
  | other {action : Action} {proc : Proc} (keeps : proc.signals = before.signals)
      (state : proc.state = before.state ∧ (Blank before → Blank proc) ∨
        before.state ≠ .unused ∧ proc.state ≠ .unused ∧ proc.state ≠ .running) :
      Wrote build kernel slot before action proc
  | dispatch {draw : Nat} {proc : Proc} (keeps : proc.signals = before.signals)
      (runnable : before.state = .runnable) (running : proc.state = .running) :
      Wrote build kernel slot before (.schedule draw) proc
  | updTime : Wrote build kernel slot before (.updTime slot) (before.updTime build)
  | wakeup {chan : Chan} :
      Wrote build kernel slot before (.wakeup slot chan) (before.wakeup build kernel.ticks chan)
  | alloc {tickets : Int} {fits : Bool} (unused : before.state = .unused) :
      Wrote build kernel slot before (.alloc slot fits)
        (before.forked build kernel.ticks kernel.nextpid tickets fits)
  | kill {pid : Int} (named : before.pid = pid) :
      Wrote build kernel slot before (.kill slot pid) (before.kill build kernel.ticks)
  | setKilled (running : before.state = .running) :
      Wrote build kernel slot before .setKilled { before with killed := true }
  | setPriority {prior : Fin 101} :
      Wrote build kernel slot before (.setPriority slot prior) (Builds.setPriority prior before)
  | reap (zombie : before.state = .zombie) : Wrote build kernel slot before (.reap slot) before.free

namespace Wrote

theorem same (proc : Proc) : Wrote build kernel slot proc action proc :=
  .other rfl (.inl ⟨rfl, id⟩)

theorem refreshPriority (proc : Proc) :
    Wrote build kernel slot proc action (refreshPriority proc) := by
  have blank : Blank proc → Blank (Xv6.refreshPriority proc) := Blank.refreshPriority
  rw [refreshPriority_eq] at blank ⊢
  exact .other rfl (.inl ⟨rfl, blank⟩)

theorem agingCheck (proc : Proc) : Wrote build kernel slot proc action proc.agingCheck := by
  have blank : Blank proc → Blank proc.agingCheck := Blank.agingCheck
  unfold Proc.agingCheck at blank ⊢
  split_ifs at blank ⊢
  · exact .other rfl (.inl ⟨rfl, blank⟩)
  · exact same proc

/-- A slot that a section leaves `UNUSED` is blank. -/
theorem blank {before proc : Proc} (wrote : Wrote build kernel slot before action proc)
    (blank : before.state = .unused → Blank before) (unused : proc.state = .unused) :
    Blank proc := by
  cases wrote with
  | other _ state =>
    obtain ⟨same, keeps⟩ | ⟨-, inUse, -⟩ := state
    · exact keeps (blank (same ▸ unused))
    · exact (inUse unused).elim
  | dispatch _ _ running => simp [running] at unused
  | updTime => exact (blank (by simpa using unused)).updTime build
  | wakeup =>
    rw [wakeup_state] at unused
    split_ifs at unused
    exact (blank unused).wakeup ..
  | alloc =>
    rw [forked_state] at unused
    split_ifs at unused with fits
    simp only [forked, fits]
    exact ⟨rfl, rfl, rfl, rfl⟩
  | kill =>
    rw [kill_state] at unused
    split_ifs at unused
    exact (blank unused).kill ..
  | setKilled running => simp [running] at unused
  | setPriority => exact (blank (by simpa [Builds.setPriority] using unused)).setPriority _
  | reap => exact ⟨rfl, rfl, rfl, rfl⟩

end Wrote

theorem procs_of_table (table : after.table = update kernel.table slot entry) :
    after.procs = update kernel.procs slot entry.proc := by
  funext query
  obtain rfl | here := eq_or_ne query slot
  · simp [procs, table]
  · simp [procs, table, here]

variable [DecidableEq Core]

/-- Where a section that leaves `proc` in a slot takes its CPU; `pos` says where the CPUs are
then. -/
inductive Moved (kernel : Kernel Core) (core : Core) (slot : Slot) (proc : Proc)
    (pos : Core → Pos) : Prop
  | stay (same : pos = kernel.pos)
      (running : (kernel.procs slot).state = .running → proc.state = .running)
  | goto {next : Pos} (outside : next.myproc = none) (pos_eq : pos = update kernel.pos core next)
      (running : (kernel.procs slot).state = .running → proc.state = .running)
  | enter {next : Pos} (outside : next.myproc = none)
      (pos_eq : pos = update kernel.pos core (.run slot next))
      (runnable : (kernel.procs slot).state = .runnable) (running : proc.state = .running)
  | leave {next : Pos} (here : kernel.pos core = .run slot next)
      (pos_eq : pos = update kernel.pos core next)

/-- What a step does. -/
inductive Event (build : Scheduler) (kernel : Kernel Core) (core : Core) (action : Action)
    (after : Kernel Core) : Prop
  | mk {slot : Slot} {entry : Entry} (table : after.table = update kernel.table slot entry)
      (wrote : Wrote build kernel slot (kernel.procs slot) action entry.proc)
      (moved : Moved kernel core slot entry.proc after.pos)

namespace Event

section

variable {select : Proc → Proc} {next : Pos} {draw : Nat}

theorem goto {pos : Pos} (outside : pos.myproc = none) :
    Event build kernel core action (kernel.goto core pos) :=
  ⟨(update_eq_self 0 _).symm, .same _, .goto outside rfl id⟩

theorem dispatch (runnable : kernel.procs.Runnable slot) (outside : next.myproc = none)
    (keeps : ∀ proc, (select proc).signals = proc.signals)
    (running : ∀ proc, (select proc).state = .running) :
    Event build kernel core (.schedule draw) (kernel.dispatch core slot select next) :=
  ⟨rfl, .dispatch (keeps _) runnable (running _), .enter outside rfl runnable (running _)⟩

theorem visit {todo : List Slot} {check : Option Slot}
    (done : kernel.visit build draw core slot todo check = some after) :
    Event build kernel core (.schedule draw) after := by
  cases build with
  | default | lbs =>
    simp only [Kernel.visit] at done
    split_ifs at done with runnable
    · cases done
      exact dispatch runnable rfl (fun _ => rfl) fun _ => rfl
    · cases done
      exact goto rfl
  | fcfs =>
    cases done
    exact goto rfl
  | pbs =>
    cases done
    exact ⟨rfl, .refreshPriority _, .goto rfl rfl (by simp)⟩
  | mlfq => cases done

theorem queues {pc : Mlfq.Pc} (build : Scheduler) (done : kernel.queues core pc = some after) :
    Event build kernel core (.schedule draw) after := by
  cases pc with
  | top =>
    cases done
    exact goto rfl
  | aging todo =>
    cases todo with
    | nil =>
      cases done
      exact goto rfl
    | cons slot todo =>
      cases done
      refine ⟨rfl, .agingCheck _, .goto rfl rfl fun running => ?_⟩
      simp [Proc.agingCheck, running]
  | level i todo minTime check =>
    cases todo with
    | cons slot todo =>
      simp only [Kernel.queues] at done
      split_ifs at done
      cases done
      exact goto rfl
    | nil =>
      simp only [Kernel.queues] at done
      split_ifs at done with first low keeps
      · cases done
        exact goto rfl
      · cases done
        exact goto rfl
      · obtain ⟨slot, chosen, rfl⟩ := map_eq_some_iff.mp done
        exact dispatch (keeps slot chosen) rfl (fun _ => rfl) fun _ => rfl
  | roundRobin todo =>
    cases todo with
    | nil =>
      cases done
      exact goto rfl
    | cons slot todo =>
      simp only [Kernel.queues] at done
      split_ifs at done with chosen
      · cases done
        exact dispatch chosen.1 rfl (fun _ => rfl) fun _ => rfl
      · cases done
        exact goto rfl
  | run slot pass => cases done

theorem schedule (fresh : kernel.Fresh build (core, .schedule draw))
    (done : kernel.schedule build draw core = some after) :
    Event build kernel core (.schedule draw) after := by
  unfold Kernel.schedule at done
  split at done
  next =>
    cases done
    exact goto rfl
  next slot here =>
    obtain ⟨kept, ⟨⟩⟩ := ite_none_right_eq_some.mp done
    have keeps : kernel.Keeps (some slot) :=
      kept.elim (fun isFcfs => by simpa [here, Pos.check] using fresh isFcfs rfl) id
    exact dispatch (keeps slot rfl) rfl (fun _ => by cases build <;> rfl)
      fun _ => by cases build <;> rfl
  next =>
    split_ifs at done
    exact visit done
  next => exact queues build done
  next => cases done

end

end Event

theorem Event.wrote_all (event : Event build kernel core action after) (query : Slot) :
    Wrote build kernel query (kernel.procs query) action (after.procs query) := by
  obtain @⟨slot, entry, table, wrote, -⟩ := event
  rw [procs_of_table table]
  obtain rfl | here := eq_or_ne query slot
  · simpa using wrote
  · simpa [here] using .same (kernel.procs query)

theorem timerBranch_spec (build : Scheduler) (proc : Proc) :
    (timerBranch build proc).1.signals = proc.signals ∧
      (timerBranch build proc).1.state = proc.state := by
  cases build with
  | default | fcfs | pbs => exact ⟨rfl, rfl⟩
  | lbs =>
    simp only [timerBranch, lotterySlice]
    split_ifs <;> exact ⟨rfl, rfl⟩
  | mlfq =>
    simp only [timerBranch, timeSlice]
    split_ifs <;> exact ⟨rfl, rfl⟩

namespace Sound

section

variable (sound : kernel.Sound)
include sound

/-- A section of the process on a CPU. -/
theorem process {next : Pos} (here : kernel.pos core = .run slot next)
    (done : kernel.running build core slot next action = some after) :
    Event build kernel core action after := by
  have running : (kernel.procs slot).state = .running :=
    sound.running core slot (by simp [here, Pos.myproc])
  have inUse : (kernel.procs slot).state ≠ .unused := by simp [running]
  have vacuous : ∀ {proc : Proc}, Blank (kernel.procs slot) → Blank proc :=
    fun blank => (inUse blank.state).elim
  cases action with
  | schedule | tick | updTime | wakeup => cases done
  | timer fromUser =>
    obtain ⟨kept, state⟩ := timerBranch_spec build (kernel.procs slot)
    unfold Kernel.running at done
    simp only at done
    split_ifs at done
    · cases done
      exact ⟨rfl, .other kept (.inr ⟨inUse, nofun, nofun⟩), .leave here rfl⟩
    · cases done
      exact ⟨rfl, .other kept (.inl ⟨state, vacuous⟩), .stay rfl state.trans⟩
  | alloc child fits =>
    obtain ⟨unused, ⟨⟩⟩ := ite_none_right_eq_some.mp done
    exact ⟨rfl, .alloc unused, .stay rfl (by simp [unused])⟩
  | adopt child =>
    obtain ⟨used, ⟨⟩⟩ := ite_none_right_eq_some.mp done
    refine ⟨rfl, .other rfl (.inl ⟨rfl, ?_⟩), .stay rfl id⟩
    intro blank
    simp [blank.state] at used
  | start child =>
    obtain ⟨used, ⟨⟩⟩ := ite_none_right_eq_some.mp done
    exact ⟨rfl, .other rfl (.inr ⟨by simp [used], nofun, nofun⟩), .stay rfl (by simp [used])⟩
  | reset =>
    obtain ⟨-, ⟨⟩⟩ := ite_none_right_eq_some.mp done
    exact ⟨rfl, .other rfl (.inl ⟨rfl, vacuous⟩), .stay rfl id⟩
  | yield =>
    obtain ⟨-, ⟨⟩⟩ := ite_none_right_eq_some.mp done
    exact ⟨rfl, .other rfl (.inr ⟨inUse, nofun, nofun⟩), .leave here rfl⟩
  | exit =>
    obtain ⟨-, ⟨⟩⟩ := ite_none_left_eq_some.mp done
    exact ⟨rfl, .other rfl (.inr ⟨inUse, nofun, nofun⟩), .leave here rfl⟩
  | sleep chan =>
    cases done
    exact ⟨rfl, .other rfl (.inr ⟨inUse, nofun, nofun⟩), .leave here rfl⟩
  | kill target pid =>
    cases done
    refine ⟨rfl, ?_, .stay rfl fun running => ?_⟩ <;> simp only <;> split_ifs with named
    · exact .kill named
    · exact .same _
    · rw [kill_state, if_neg (by simp [running]), running]
    · exact running
  | setKilled =>
    cases done
    exact ⟨rfl, .setKilled running, .stay rfl id⟩
  | setPriority target prior =>
    cases done
    exact ⟨rfl, .setPriority, .stay rfl (by simp [Builds.setPriority])⟩
  | setTickets n =>
    cases done
    exact ⟨rfl, .other rfl (.inl ⟨rfl, vacuous⟩), .stay rfl id⟩
  | sigalarm ticks handler =>
    cases done
    exact ⟨rfl, .same _, .stay rfl id⟩
  | sigreturn =>
    obtain ⟨-, ⟨⟩⟩ := ite_none_left_eq_some.mp done
    exact ⟨rfl, .same _, .stay rfl id⟩
  | reparent target =>
    obtain ⟨child, ⟨⟩⟩ := ite_none_right_eq_some.mp done
    refine ⟨rfl, .other rfl (.inl ⟨rfl, ?_⟩), .stay rfl id⟩
    intro blank
    simp [blank.parent] at child
  | reap target =>
    obtain ⟨child, ⟨⟩⟩ := ite_none_right_eq_some.mp done
    exact ⟨rfl, .reap child.2, .stay rfl (by simp [child.2])⟩
  | stamp target =>
    cases done
    refine ⟨rfl, .other rfl (.inl ⟨rfl, fun blank => ?_⟩), .stay rfl id⟩
    exact { blank with }

theorem event (taken : kernel.FreshStep build (core, action) after) :
    Event build kernel core action after := by
  obtain ⟨fresh, stepped⟩ := taken
  unfold Step at stepped
  cases action with
  | schedule draw => exact .schedule fresh stepped
  | tick =>
    cases stepped
    exact ⟨(update_eq_self 0 _).symm, .same _, .stay rfl id⟩
  | updTime slot =>
    cases stepped
    exact ⟨rfl, .updTime, .stay rfl (by simp)⟩
  | wakeup slot chan =>
    obtain ⟨-, ⟨⟩⟩ := ite_none_left_eq_some.mp stepped
    exact ⟨rfl, .wakeup, .stay rfl fun running => by simp [wakeup_state, running]⟩
  | timer | alloc | adopt | start | reset | yield | kill | setKilled | setPriority | setTickets
  | sigalarm | sigreturn | reparent | reap | stamp | sleep | exit =>
    simp only [Kernel.exec] at stepped
    split at stepped
    next slot next here => exact sound.process here stepped
    next => cases stepped

/-- A CPU moves to a position at which its process, if it has one, is `RUNNING` and on no other
CPU. -/
theorem move {pos : Pos} (pos_eq : after.pos = update kernel.pos core pos)
    (blank : ∀ slot, (after.procs slot).state = .unused → Blank (after.procs slot))
    (here : ∀ slot, pos.myproc = some slot → (after.procs slot).state = .running ∧
      ∀ other, (kernel.pos other).myproc ≠ some slot)
    (others : ∀ other slot, other ≠ core → (kernel.pos other).myproc = some slot →
      (after.procs slot).state = .running)
    (returns : ∀ slot next, pos = .run slot next → next.myproc = none) : after.Sound := by
  have cases_of : ∀ other slot, (after.pos other).myproc = some slot →
      other = core ∧ pos.myproc = some slot ∨
        other ≠ core ∧ (kernel.pos other).myproc = some slot := by
    intro other slot runs
    rw [pos_eq] at runs
    obtain rfl | same := eq_or_ne other core
    · exact .inl ⟨rfl, by simpa using runs⟩
    · exact .inr ⟨same, by simpa [same] using runs⟩
  constructor
  case blank => exact blank
  case running =>
    intro other slot runs
    rcases cases_of other slot runs with ⟨-, mine⟩ | ⟨ne, old⟩
    · exact (here slot mine).1
    · exact others other slot ne old
  case unique =>
    intro slot one two left right
    rcases cases_of one slot left with ⟨isOne, mine⟩ | ⟨-, old⟩
    · rcases cases_of two slot right with ⟨isTwo, -⟩ | ⟨-, old⟩
      · exact isOne.trans isTwo.symm
      · exact ((here slot mine).2 two old).elim
    · rcases cases_of two slot right with ⟨-, mine⟩ | ⟨-, old'⟩
      · exact ((here slot mine).2 one old).elim
      · exact sound.unique slot one two old old'
  case returns =>
    intro other slot next position
    rw [pos_eq] at position
    obtain rfl | same := eq_or_ne other core
    · exact returns slot next (by simpa using position)
    · exact sound.returns other slot next (by simpa [same] using position)

theorem step {label : Core × Action} (stepped : kernel.FreshStep build label after) :
    after.Sound := by
  have event := sound.event stepped
  have blank : ∀ query, (after.procs query).state = .unused → Blank (after.procs query) :=
    fun query => (event.wrote_all query).blank (sound.blank query)
  obtain @⟨slot, entry, table, -, moved⟩ := event
  have kept : ∀ query, (kernel.procs query).state = .running →
      (query = slot → entry.proc.state = .running) → (after.procs query).state = .running := by
    intro query was mine
    rw [procs_of_table table]
    obtain rfl | same := eq_or_ne query slot
    · simpa using mine rfl
    · simpa [same] using was
  cases moved with
  | stay same running =>
    refine ⟨blank, fun other query here => ?_, same ▸ sound.unique, same ▸ sound.returns⟩
    have was := sound.running other query (same ▸ here)
    exact kept query was fun isSlot => running (isSlot ▸ was)
  | goto outside pos_eq running =>
    refine sound.move pos_eq blank (by simp [outside]) (fun other query _ here => ?_) ?_
    · have was := sound.running other query here
      exact kept query was fun isSlot => running (isSlot ▸ was)
    · rintro query next rfl
      cases outside
  | enter outside pos_eq runnable running =>
    refine sound.move pos_eq blank ?_ (fun other query _ here => ?_) ?_
    · rintro query ⟨⟩
      refine ⟨by simp [procs_of_table table, running], fun other here => ?_⟩
      cases runnable.symm.trans (sound.running other slot here)
    · exact kept query (sound.running other query here) fun _ => running
    · rintro query rest ⟨⟩
      exact outside
  | leave here pos_eq =>
    have outside := sound.returns _ _ _ here
    refine sound.move pos_eq blank (by simp [outside]) (fun other query ne runs => ?_) ?_
    · refine kept query (sound.running other query runs) fun isSlot => (ne ?_).elim
      exact sound.unique slot other _ (isSlot ▸ runs) (by simp [here, Pos.myproc])
    · rintro query rest rfl
      cases outside

end

omit [DecidableEq Core] in
theorem boot (build : Scheduler) : (Kernel.boot Core build).Sound where
  blank := by
    intro slot unused
    obtain rfl | first := eq_or_ne slot 0
    · simp [procs, Kernel.boot, start] at unused
    · simp only [procs, Kernel.boot, first, if_false]
      exact ⟨rfl, rfl, rfl, rfl⟩
  running := by
    intro core slot here
    simp only [Kernel.boot] at here
    split_ifs at here <;> cases here
  unique := by
    intro slot core other here
    simp only [Kernel.boot] at here
    split_ifs at here <;> cases here
  returns := by
    intro core slot next here
    simp only [Kernel.boot] at here
    split_ifs at here

end Sound

end Kernel

end Builds

end Xv6
