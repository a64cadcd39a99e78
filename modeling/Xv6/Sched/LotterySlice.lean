import Xv6.Sched.HandOver

/-!
# Time slices of the lottery scheduler

A process is to keep the CPU for `time_avail` of its own timer interrupts.  The counter
`time_spent` that the trap handlers compare with it is also advanced by `upd_time`, for each
`RUNNING` process and each tick of the clock.
-/

namespace Xv6.RoundRobin

open Function Transition Kernel Proc

/-- The step that runs a section. -/
def Action.ofSection : Section → Action
  | .updTime slot => .updTime slot
  | .wakeup slot chan => .wakeup slot chan
  | .kill slot pid => .kill slot pid
  | .alloc child fits => .alloc child fits
  | .start child => .start child
  | .reap slot => .reap slot

namespace Kernel

variable {Core : Type} [DecidableEq Core] {kernel after : Kernel Core} {core : Core}
  {slot : Slot} {build : Scheduler}

/-! ## What a step does to the table -/

/-- The table and the positions of the CPUs after a step. -/
inductive Effect (build : Scheduler) (kernel : Kernel Core) (core : Core) :
    Action → Table → (Core → Pc) → Prop where
  | none (action : Action) :
      (∀ draw, action ≠ .proceed draw) → Effect build kernel core action kernel.table kernel.pc
  | skip (draw : Nat) (todo : List Slot) :
      (kernel.pc core).runs = Option.none →
      (∀ slot rest, kernel.pc core = .scan (slot :: rest) →
        (kernel.table slot).state ≠ .runnable) →
      Effect build kernel core (.proceed draw) kernel.table
        (update kernel.pc core (.scan todo))
  | dispatch (draw : Nat) (slot : Slot) (todo : List Slot) :
      kernel.pc core = .scan (slot :: todo) → (kernel.table slot).state = .runnable →
      Effect build kernel core (.proceed draw) (kernel.edit slot (dispatched build draw)).table
        (update kernel.pc core (.resume slot todo))
  | resume (draw : Nat) (slot : Slot) (todo : List Slot) :
      kernel.pc core = .resume slot todo →
      Effect build kernel core (.proceed draw)
        (kernel.edit slot fun proc => { proc with chan := Option.none }).table
        (update kernel.pc core (.run slot todo))
  | trap (fromUser : Bool) (slot : Slot) (todo : List Slot) :
      kernel.pc core = .run slot todo →
      Effect build kernel core (.timer fromUser)
        (kernel.edit slot fun _ => (timerBranch build (kernel.table slot)).1).table
        (if (timerBranch build (kernel.table slot)).2 then
          update kernel.pc core (.yielding slot todo) else kernel.pc)
  | yield (draw : Nat) (slot : Slot) (todo : List Slot) :
      kernel.pc core = .yielding slot todo →
      Effect build kernel core (.proceed draw) (kernel.edit slot Proc.yield).table
        (update kernel.pc core (.back slot todo))
  | leave (action : Action) (slot : Slot) (todo : List Slot) (write : Proc → Proc) :
      kernel.pc core = .run slot todo →
      action = .exit ∨ (∃ chan, action = .sleep chan) →
      (∀ proc, (write proc).state = .sleeping ∨ (write proc).state = .zombie) →
      Effect build kernel core action (kernel.edit slot write).table
        (update kernel.pc core (.back slot todo))
  | sect (sect : Section) (tickets : Int) :
      sect.Finds (kernel.table sect.slot).state →
      Effect build kernel core (.ofSection sect)
        (kernel.edit sect.slot (sect.write build kernel.ticks kernel.nextpid tickets)).table
        kernel.pc
  | setTickets (slot : Slot) (n : Int) :
      Effect build kernel core (.setTickets n)
        (kernel.edit slot fun proc => { proc with tickets := n }).table kernel.pc

theorem acquire_frame (acquired : kernel.acquire core slot = .ok after) :
    after.table = kernel.table ∧ after.pc = kernel.pc := by
  unfold acquire at acquired
  dsimp only at acquired
  split at acquired
  · cases acquired
  · cases acquired
    exact ⟨rfl, rfl⟩

theorem release_frame (released : kernel.release core slot = .ok after) :
    after.table = kernel.table ∧ after.pc = kernel.pc := by
  unfold release at released
  split_ifs at released
  cases popped : popOff (kernel.cpu core) with
  | error stop =>
    rw [popped] at released
    cases released
  | ok cpu =>
    rw [popped] at released
    cases released
    exact ⟨rfl, rfl⟩

theorem sched_frame (switched : kernel.sched core slot = .ok after) :
    after.table = kernel.table ∧ after.pc = kernel.pc := by
  unfold sched at switched
  split_ifs at switched
  cases switched
  exact ⟨rfl, rfl⟩

variable {write : Proc → Proc}

theorem withLock_frame (done : kernel.withLock core slot write = .ok after) :
    after.table = (kernel.edit slot write).table ∧ after.pc = kernel.pc := by
  obtain ⟨taken, acquired, released⟩ := ok_of_bind done
  obtain ⟨table_eq, pc_eq⟩ := acquire_frame acquired
  obtain ⟨table_eq', pc_eq'⟩ := release_frame released
  rw [table_eq', pc_eq']
  simp [edit, table_eq, pc_eq]

variable {action : Action} {proc : Proc} {todo : List Slot}

theorem Effect.of_eq {table : Table} {pc : Core → Pc}
    (effect : kernel.Effect build core action table pc) (table_eq : after.table = table)
    (pc_eq : after.pc = pc) : kernel.Effect build core action after.table after.pc := by
  rw [table_eq, pc_eq]
  exact effect

theorem proceed_effect {draw : Nat} (stepped : kernel.proceed build draw core = .ok after) :
    kernel.Effect build core (.proceed draw) after.table after.pc := by
  unfold proceed at stepped
  cases here : kernel.pc core with
  | scan todo =>
    rw [here] at stepped
    cases todo with
    | nil =>
      cases stepped
      exact .skip draw _ (by simp [here]) (by simp [here])
    | cons slot todo =>
      obtain ⟨taken, acquired, rest⟩ := ok_of_bind stepped
      obtain ⟨table_eq, pc_eq⟩ := acquire_frame acquired
      rw [table_eq] at rest
      split_ifs at rest with runnable
      · cases rest
        refine .of_eq (.dispatch draw slot todo here runnable) ?_ ?_
        · simp [goto, setCpu, edit, table_eq]
        · simp [goto, setCpu, edit, pc_eq]
      · obtain ⟨freed, released, finished⟩ := ok_of_bind rest
        cases finished
        obtain ⟨table_eq', pc_eq'⟩ := release_frame released
        refine .of_eq (.skip draw todo ?_ ?_) (table_eq'.trans table_eq) ?_
        · simp [here]
        · simpa [here] using runnable
        · simp [goto, pc_eq', pc_eq]
  | resume slot todo =>
    rw [here] at stepped
    obtain ⟨inner, resumed, rfl⟩ := ok_of_map stepped
    obtain ⟨table_eq, pc_eq⟩ := release_frame resumed
    exact .of_eq (.resume draw slot todo here) table_eq (congrArg (update · core _) pc_eq)
  | run slot todo =>
    rw [here] at stepped
    cases stepped
  | yielding slot todo =>
    rw [here] at stepped
    obtain ⟨inner, yielded, rfl⟩ := ok_of_map stepped
    obtain ⟨taken, acquired, switched⟩ := ok_of_bind yielded
    obtain ⟨table_eq, pc_eq⟩ := acquire_frame acquired
    obtain ⟨table_eq', pc_eq'⟩ := sched_frame switched
    refine .of_eq (.yield draw slot todo here) ?_ ?_
    · simp [goto, edit, table_eq', table_eq]
    · simp [goto, edit, pc_eq', pc_eq]
  | back slot todo =>
    rw [here] at stepped
    obtain ⟨inner, released, rfl⟩ := ok_of_map stepped
    obtain ⟨table_eq, pc_eq⟩ := release_frame released
    refine .of_eq (.skip draw todo ?_ ?_) table_eq (congrArg (update · core _) pc_eq)
    · simp [here]
    · simp [here]

theorem leave_frame (left_ : kernel.leave core slot write = .ok after) :
    after.table = (kernel.edit slot write).table ∧ after.pc = kernel.pc := by
  obtain ⟨taken, acquired, rest⟩ := ok_of_bind left_
  obtain ⟨cpu, popped, switched⟩ := ok_of_bind rest
  obtain ⟨table_eq, pc_eq⟩ := acquire_frame acquired
  obtain ⟨table_eq', pc_eq'⟩ := sched_frame switched
  rw [table_eq', pc_eq']
  simp [edit, setCpu, table_eq, pc_eq]

theorem timer_effect (fromUser : Bool) (here : kernel.pc core = .run slot todo) :
    kernel.Effect build core (.timer fromUser) (kernel.timer build fromUser core slot todo).table
      (kernel.timer build fromUser core slot todo).pc := by
  unfold timer
  split_ifs
  · exact .none _ (by simp)
  · exact .none _ (by simp)
  · refine .of_eq (.trap fromUser slot todo here) ?_ ?_
    · dsimp only
      split_ifs <;> rfl
    · dsimp only
      split_ifs <;> rfl

theorem syscall_effect (here : kernel.pc core = .run slot todo)
    (stepped : kernel.syscall build core slot todo action = .ok after) :
    kernel.Effect build core action after.table after.pc := by
  cases action with
  | proceed | intr | timer | tick | updTime | wakeup => cases stepped
  | kill other pid =>
    obtain ⟨table_eq, pc_eq⟩ := withLock_frame stepped
    exact .of_eq (.sect (.kill other pid) 0 trivial) table_eq pc_eq
  | alloc child fits =>
    simp only [syscall] at stepped
    split_ifs at stepped with unused
    obtain ⟨inner, done, rfl⟩ := ok_of_map stepped
    obtain ⟨table_eq, pc_eq⟩ := withLock_frame done
    exact .of_eq (.sect (.alloc child fits) _ unused) table_eq pc_eq
  | start child =>
    simp only [syscall] at stepped
    split_ifs at stepped with used
    obtain ⟨table_eq, pc_eq⟩ := withLock_frame stepped
    exact .of_eq (.sect (.start child) 0 used) table_eq pc_eq
  | reap other =>
    simp only [syscall] at stepped
    split_ifs at stepped with zombie
    obtain ⟨table_eq, pc_eq⟩ := withLock_frame stepped
    exact .of_eq (.sect (.reap other) 0 zombie) table_eq pc_eq
  | setTickets n =>
    cases stepped
    exact .setTickets slot n
  | sleep chan =>
    obtain ⟨inner, done, rfl⟩ := ok_of_map stepped
    obtain ⟨table_eq, pc_eq⟩ := leave_frame done
    refine .of_eq (.leave _ slot todo (sleep chan) here (Or.inr ⟨chan, rfl⟩) ?_) table_eq
      (congrArg (update · core _) pc_eq)
    exact fun _ => Or.inl rfl
  | exit =>
    simp only [syscall] at stepped
    split_ifs at stepped
    obtain ⟨inner, done, rfl⟩ := ok_of_map stepped
    obtain ⟨table_eq, pc_eq⟩ := leave_frame done
    refine .of_eq (.leave _ slot todo (exit kernel.ticks) here (Or.inl rfl) ?_) table_eq
      (congrArg (update · core _) pc_eq)
    exact fun _ => Or.inr rfl

/-- Everything a step can do to the table and to the positions of the CPUs. -/
theorem exec_effect (stepped : kernel.exec build core action = .ok after) :
    kernel.Effect build core action after.table after.pc := by
  cases action with
  | proceed draw => exact proceed_effect stepped
  | tick =>
    simp only [Kernel.exec] at stepped
    split_ifs at stepped
    cases stepped
    exact .none _ (by simp)
  | updTime slot =>
    simp only [Kernel.exec] at stepped
    split_ifs at stepped
    obtain ⟨table_eq, pc_eq⟩ := withLock_frame stepped
    exact .of_eq (.sect (.updTime slot) 0 trivial) table_eq pc_eq
  | wakeup slot chan =>
    simp only [Kernel.exec] at stepped
    split_ifs at stepped
    obtain ⟨table_eq, pc_eq⟩ := withLock_frame stepped
    exact .of_eq (.sect (.wakeup slot chan) 0 trivial) table_eq pc_eq
  | intr =>
    simp only [Kernel.exec] at stepped
    split at stepped
    next =>
      cases stepped
      exact .none _ (by simp)
    next => cases stepped
  | timer fromUser =>
    simp only [Kernel.exec] at stepped
    split at stepped
    next slot todo here =>
      split_ifs at stepped
      cases stepped
      exact timer_effect fromUser here
    next => cases stepped
  | kill | alloc | start | reap | setTickets | sleep | exit =>
    simp only [Kernel.exec] at stepped
    split at stepped
    next slot todo here => exact syscall_effect here stepped
    next => cases stepped

/-- A process that can be dispatched, or is on its way to be, starts a new slice. -/
def Fresh (proc : Proc) : Prop :=
  proc.state = .used ∨ proc.state = .runnable → proc.timeSpent = 0

theorem wakeup_timeSpent (proc : Proc) (ticks : UInt32) (chan : Chan) :
    (proc.wakeup .lbs ticks chan).timeSpent =
      if proc.state = .sleeping ∧ proc.chan = some chan then 0 else proc.timeSpent := by
  simp only [wakeup, reduceCtorEq, if_true, if_false]
  split_ifs <;> rfl

theorem kill_timeSpent (proc : Proc) (ticks : UInt32) : (proc.kill .lbs ticks).timeSpent =
      if proc.state = .sleeping then 0 else proc.timeSpent := by
  simp only [kill, reduceCtorEq, if_true, if_false]
  split_ifs <;> rfl

theorem fresh_wakeup (fresh : Fresh proc) (ticks : UInt32) (chan : Chan) :
    Fresh (proc.wakeup .lbs ticks chan) := by
  unfold Fresh
  rw [wakeup_state, wakeup_timeSpent]
  split_ifs with sleeping
  · exact fun _ => rfl
  · exact fresh

theorem fresh_kill (fresh : Fresh proc) (ticks : UInt32) : Fresh (proc.kill .lbs ticks) := by
  unfold Fresh
  rw [kill_state, kill_timeSpent]
  split_ifs with sleeping
  · exact fun _ => rfl
  · exact fresh

theorem fresh_updTime (fresh : Fresh proc) : Fresh (proc.updTime .lbs) := by
  intro waiting
  rw [updTime_state] at waiting
  have stopped : proc.state ≠ .running := by
    rcases waiting with state | state <;> simp [state]
  simpa [updTime, stopped] using fresh waiting

section

variable {ticks : UInt32} {pid tickets : Int} {sect : Section} (finds : sect.Finds proc.state)
include finds

/-- The sections keep what a process that can be dispatched has. -/
theorem fresh_write (fresh : Fresh proc) : Fresh (sect.write .lbs ticks pid tickets proc) := by
  cases sect with
  | updTime => exact fresh_updTime fresh
  | wakeup _ chan => exact fresh_wakeup fresh _ chan
  | kill =>
    simp only [Section.write]
    split_ifs
    · exact fresh_kill fresh _
    · exact fresh
  | alloc _ fits =>
    intro
    simp only [Section.write, Proc.forked, Proc.alloc]
    cases fits <;> simp [Proc.free]
  | start => exact fun _ => fresh (Or.inl finds)
  | reap => simp [Fresh, Section.write, Proc.reap, Proc.free]

/-- What the sections do to a `RUNNING` process: only `upd_time` advances its counter. -/
theorem running_write (running : (sect.write .lbs ticks pid tickets proc).state = .running) :
    proc.state = .running ∧
      (sect.write .lbs ticks pid tickets proc).timeAvail = proc.timeAvail ∧
      (Action.ofSection sect ≠ .updTime sect.slot →
        (sect.write .lbs ticks pid tickets proc).timeSpent = proc.timeSpent) := by
  have was := (sect.write_running .lbs ticks pid tickets finds).mp running
  cases sect with
  | updTime => simp [Section.write, Proc.updTime, was, Action.ofSection, Section.slot]
  | wakeup => simp [Section.write, Proc.wakeup, was]
  | kill =>
    simp only [Section.write]
    split_ifs
    · simp [Proc.kill, was]
    · exact ⟨was, rfl, fun _ => rfl⟩
  | alloc | start | reap => simp [Section.Finds, was] at finds

end

end Kernel

/-! ## Counting the timer interrupts of a process -/

/-- The process that is about to yield. -/
def Pc.yielding? : Pc → Option Slot
  | .yielding slot _ => some slot
  | _ => none

theorem Pc.yielding?_eq_some {pc : Pc} {slot : Slot} :
    pc.yielding? = some slot ↔ ∃ todo, pc = .yielding slot todo := by
  cases pc <;> simp [Pc.yielding?]

/-- The kernel with a record, for each process, of its present time slice. -/
structure Metered (Core : Type) where
  kernel : Kernel Core
  /-- The timer interrupts the process has taken since it was last dispatched. -/
  taken : Slot → Nat
  /-- `time_avail` as that dispatch set it. -/
  slice : Slot → Int

namespace Metered

variable {Core : Type} [DecidableEq Core] {before after : Metered Core}

/-- The record after a step. -/
def observe (before : Metered Core) (core : Core) (action : Action) (after : Kernel Core) :
    Metered Core :=
  match before.kernel.pc core, action with
  | .scan (slot :: _), .proceed _ =>
    if (before.kernel.table slot).state = .runnable then
      { kernel := after
        taken := update before.taken slot 0
        slice := update before.slice slot (after.table slot).timeAvail }
    else
      { before with kernel := after }
  | .run slot _, .timer _ =>
    { before with
      kernel := after
      taken := update before.taken slot (before.taken slot + 1) }
  | _, _ => { before with kernel := after }

/-- One step of one CPU of the LBS build. -/
def exec (before : Metered Core) (core : Core) (action : Action) : Except Stop (Metered Core) :=
  (before.kernel.exec .lbs core action).map (before.observe core action)

def Step (before : Metered Core) (label : Core × Action) (after : Metered Core) : Prop :=
  before.exec label.1 label.2 = .ok after

def boot (Core : Type) : Metered Core := ⟨.boot Core .lbs, fun _ => 0, fun _ => 0⟩

/-- Every process that the timer branch preempts has taken as many timer interrupts as its
slice has, and at least one. -/
def Honoured (metered : Metered Core) : Prop :=
  ∀ core slot todo, metered.kernel.pc core = .yielding slot todo →
    max 1 (metered.slice slot) ≤ metered.taken slot

/-- `upd_time` does not come to a `RUNNING` process whose slice is longer than one timer
interrupt, nor to one that the timer branch has preempted. -/
def Unbilled (metered : Metered Core) (label : Core × Action) : Prop :=
  ∀ slot, label.2 = .updTime slot → (metered.kernel.table slot).state = .running →
    (metered.kernel.table slot).timeAvail ≤ 1 ∧
      ∀ core todo, metered.kernel.pc core ≠ .yielding slot todo

instance [Fintype Core] (metered : Metered Core) (label : Core × Action) :
    Decidable (metered.Unbilled label) :=
  decidable_of_iff (∀ slot, label.2 = .updTime slot →
    (metered.kernel.table slot).state = .running →
    (metered.kernel.table slot).timeAvail ≤ 1 ∧
      ∀ core, (metered.kernel.pc core).yielding? ≠ some slot) <| by
    simp only [Unbilled, ne_eq, Pc.yielding?_eq_some, not_exists]

/-- The counters of the processes agree with the record. -/
structure Inv (metered : Metered Core) : Prop where
  base : metered.kernel.Inv
  fresh : ∀ slot, Kernel.Fresh (metered.kernel.table slot)
  spent : ∀ slot, (metered.kernel.table slot).state = .running →
    1 < (metered.kernel.table slot).timeAvail →
    (metered.kernel.table slot).timeSpent ≤ metered.taken slot
  slice_eq : ∀ slot, (metered.kernel.table slot).state = .running →
    metered.slice slot = (metered.kernel.table slot).timeAvail
  yielding : ∀ core slot todo, metered.kernel.pc core = .yielding slot todo →
    (metered.kernel.table slot).timeSpent = 0 ∧ max 1 (metered.slice slot) ≤ metered.taken slot

theorem boot_inv (Core : Type) : (boot Core).Inv where
  base := (boot_initial Core .lbs).inv
  fresh := by
    intro slot _
    simp only [boot, Kernel.boot]
    split_ifs <;> rfl
  spent := fun slot running => ((boot_initial Core .lbs).stopped slot running).elim
  slice_eq := fun slot running => ((boot_initial Core .lbs).stopped slot running).elim
  yielding := nofun

/-- What the invariant says of one process. -/
structure EntryInv (proc : Proc) (taken : Nat) (slice : Int) : Prop where
  fresh : Kernel.Fresh proc
  spent : proc.state = .running → 1 < proc.timeAvail → proc.timeSpent ≤ taken
  slice_eq : proc.state = .running → slice = proc.timeAvail

omit [DecidableEq Core] in
theorem Inv.entry (inv : before.Inv) (slot : Slot) :
    EntryInv (before.kernel.table slot) (before.taken slot) (before.slice slot) :=
  ⟨inv.fresh slot, inv.spent slot, inv.slice_eq slot⟩

variable {slot : Slot}

omit [DecidableEq Core] in
/-- A step that changes one entry, and the record of that process only. -/
theorem Inv.change {proc : Proc} (inv : before.Inv) (base : after.kernel.Inv)
    (table_eq : after.kernel.table = update before.kernel.table slot proc)
    (taken_eq : ∀ other, other ≠ slot → after.taken other = before.taken other)
    (slice_eq : ∀ other, other ≠ slot → after.slice other = before.slice other)
    (entry : EntryInv proc (after.taken slot) (after.slice slot))
    (others : ∀ core other todo, other ≠ slot → after.kernel.pc core = .yielding other todo →
      before.kernel.pc core = .yielding other todo)
    (here : ∀ core todo, after.kernel.pc core = .yielding slot todo →
      proc.timeSpent = 0 ∧ max 1 (after.slice slot) ≤ after.taken slot) : after.Inv := by
  have entries : ∀ other,
      EntryInv (after.kernel.table other) (after.taken other) (after.slice other) := by
    intro other
    obtain rfl | same := eq_or_ne other slot
    · simpa [table_eq] using entry
    · simpa [table_eq, same, taken_eq other same, slice_eq other same] using inv.entry other
  refine ⟨base, fun other => (entries other).fresh, fun other => (entries other).spent,
    fun other => (entries other).slice_eq, fun core other todo position => ?_⟩
  obtain rfl | same := eq_or_ne other slot
  · simpa [table_eq] using here core todo position
  · have old := inv.yielding core other todo (others core other todo same position)
    simpa [table_eq, same, taken_eq other same, slice_eq other same] using old

variable {core : Core} {action : Action}

omit [DecidableEq Core] in
/-- The record changes at a dispatch and at a timer interrupt of the process only. -/
theorem observe_eq (kernel : Kernel Core)
    (noDispatch : ∀ slot todo draw, before.kernel.pc core = .scan (slot :: todo) →
      action = .proceed draw → (before.kernel.table slot).state ≠ .runnable)
    (noTimer : ∀ fromUser, action ≠ .timer fromUser) :
    before.observe core action kernel = { before with kernel } := by
  unfold observe
  split
  next slot todo draw here =>
    rw [if_neg (noDispatch slot todo draw here rfl)]
  next => exact (noTimer _ rfl).elim
  next => rfl

variable {kernel : Kernel Core} {todo : List Slot} {core other : Core} {write : Proc → Proc}

theorem Inv.dispatch {draw : Nat} (inv : before.Inv) (base : kernel.Inv)
    (here : before.kernel.pc core = .scan (slot :: todo))
    (runnable : (before.kernel.table slot).state = .runnable)
    (table_eq : kernel.table = (before.kernel.edit slot (dispatched .lbs draw)).table)
    (pc_eq : kernel.pc = update before.kernel.pc core (.resume slot todo)) :
    (before.observe core (.proceed draw) kernel).Inv := by
  have observed : before.observe core (.proceed draw) kernel =
      { kernel
        taken := update before.taken slot 0
        slice := update before.slice slot (kernel.table slot).timeAvail } := by
    simp [observe, here, runnable]
  have spent : (before.kernel.table slot).timeSpent = 0 := inv.fresh slot (Or.inr runnable)
  rw [observed]
  refine inv.change base table_eq ?_ ?_ ?_ ?_ ?_
  · intro other ne
    simp [ne]
  · intro other ne
    simp [ne]
  · refine ⟨by simp [Kernel.Fresh, dispatched], ?_, ?_⟩
    · simp [dispatched, spent]
    · simp [table_eq, edit]
  · intro other query rest _ yielding
    obtain rfl | same := eq_or_ne other core
    · simp [pc_eq] at yielding
    · simpa [pc_eq, same] using yielding
  · intro other rest yielding
    obtain rfl | same := eq_or_ne other core
    · simp [pc_eq] at yielding
    · have old : before.kernel.pc other = .yielding slot rest := by
        simpa [pc_eq, same] using yielding
      have running := (inv.base.running_iff slot).mpr ⟨other, by simp [old]⟩
      rw [runnable] at running
      cases running

omit [DecidableEq Core] in
/-- A process that a CPU is switched to is not in the timer branch on another one. -/
theorem Inv.not_yielding (inv : before.Inv) (proc : (before.kernel.pc core).proc = some slot)
    (ne : other ≠ core) :
    before.kernel.pc other ≠ .yielding slot todo := by
  intro yielding
  exact ne (inv.base.unique slot other core (by simp [yielding]) proc)

theorem timerBranch_cases (proc : Proc) : (proc.timeAvail ≤ proc.timeSpent + 1 ∧
      timerBranch .lbs proc = ({ proc with timeSpent := 0 }, true)) ∨
    (proc.timeSpent + 1 < proc.timeAvail ∧
      timerBranch .lbs proc = ({ proc with timeSpent := proc.timeSpent + 1 }, false)) := by
  simp only [timerBranch, if_true, lotterySlice]
  split_ifs with spent
  · exact .inl ⟨spent, rfl⟩
  · exact .inr ⟨Int.not_le.mp spent, rfl⟩

theorem Inv.trap {fromUser : Bool} (inv : before.Inv) (base : kernel.Inv)
    (here : before.kernel.pc core = .run slot todo)
    (table_eq : kernel.table = (before.kernel.edit slot
      fun _ => (timerBranch .lbs (before.kernel.table slot)).1).table)
    (pc_eq : kernel.pc = if (timerBranch .lbs (before.kernel.table slot)).2 then
      update before.kernel.pc core (.yielding slot todo) else before.kernel.pc) :
    (before.observe core (.timer fromUser) kernel).Inv := by
  have observed : before.observe core (.timer fromUser) kernel =
      { before with
        kernel
        taken := update before.taken slot (before.taken slot + 1) } := by
    simp [observe, here]
  have running := (inv.base.running_iff slot).mpr ⟨core, by simp [here]⟩
  have slice_eq := inv.slice_eq slot running
  have spent := inv.spent slot running
  have alone : ∀ other rest, other ≠ core → before.kernel.pc other ≠ .yielding slot rest :=
    fun other rest => inv.not_yielding (by simp [here])
  rw [observed]
  rcases timerBranch_cases (before.kernel.table slot) with ⟨preempted, branch⟩ | ⟨-, branch⟩
  all_goals simp only [branch, if_true, Bool.false_eq_true, if_false] at table_eq pc_eq
  · refine inv.change base table_eq ?_ ?_ ⟨?_, ?_, ?_⟩ ?_ ?_
    · intro other ne
      simp [ne]
    · exact fun _ _ => rfl
    · simp [Kernel.Fresh, running]
    · exact fun _ _ => Int.natCast_nonneg _
    · exact fun _ => slice_eq
    · intro other query rest ne yielding
      obtain rfl | same := eq_or_ne other core
      · simp [pc_eq, Ne.symm ne] at yielding
      · simpa [pc_eq, same] using yielding
    · intro other rest yielding
      refine ⟨rfl, ?_⟩
      simp only [update_self, slice_eq]
      omega
  · refine inv.change base table_eq ?_ ?_ ⟨?_, ?_, ?_⟩ ?_ ?_
    · intro other ne
      simp [ne]
    · exact fun _ _ => rfl
    · simp [Kernel.Fresh, running]
    · intro _ long
      simp only [update_self]
      have := spent long
      push_cast
      omega
    · exact fun _ => slice_eq
    · intro other query rest _ yielding
      rwa [pc_eq] at yielding
    · intro other rest yielding
      rw [pc_eq] at yielding
      obtain rfl | same := eq_or_ne other core
      · rw [here] at yielding
        cases yielding
      · exact (alone other rest same yielding).elim

omit [DecidableEq Core] in
/-- A section on one entry that is not billed to a process with a longer slice. -/
theorem Inv.touch (inv : before.Inv) (base : kernel.Inv)
    (other : (∀ draw, action ≠ .proceed draw) ∧ ∀ fromUser, action ≠ .timer fromUser)
    (fresh : Kernel.Fresh (write (before.kernel.table slot)))
    (kept : (write (before.kernel.table slot)).state = .running →
      (before.kernel.table slot).state = .running ∧
        (write (before.kernel.table slot)).timeAvail = (before.kernel.table slot).timeAvail ∧
        (action ≠ .updTime slot → (write (before.kernel.table slot)).timeSpent =
          (before.kernel.table slot).timeSpent))
    (unbilled : before.Unbilled (core, action))
    (table_eq : kernel.table = (before.kernel.edit slot write).table)
    (pc_eq : kernel.pc = before.kernel.pc) : (before.observe core action kernel).Inv := by
  rw [observe_eq kernel (fun _ _ draw _ proceeds => (other.1 draw proceeds).elim) other.2]
  refine inv.change base table_eq (fun _ _ => rfl) (fun _ _ => rfl) ⟨?_, ?_, ?_⟩ ?_ ?_
  · exact fresh
  · intro running long
    obtain ⟨was, avail_eq, spent_eq⟩ := kept running
    rw [avail_eq] at long
    have notBilled : action ≠ .updTime slot := by
      intro billed
      have := (unbilled slot billed was).1
      omega
    rw [spent_eq notBilled]
    exact inv.spent slot was long
  · intro running
    obtain ⟨was, avail_eq, -⟩ := kept running
    rw [avail_eq]
    exact inv.slice_eq slot was
  · intro other query todo _ yielding
    rwa [pc_eq] at yielding
  · intro other todo yielding
    rw [pc_eq] at yielding
    obtain ⟨spent, honoured⟩ := inv.yielding other slot todo yielding
    refine ⟨?_, honoured⟩
    have was := (inv.base.running_iff slot).mpr ⟨other, by simp [yielding]⟩
    have now : (write (before.kernel.table slot)).state = .running := by
      have := (base.running_iff slot).mpr ⟨other, by simp [pc_eq, yielding]⟩
      simpa [table_eq, edit] using this
    rw [(kept now).2.2 fun billed => (unbilled slot billed was).2 other todo yielding]
    exact spent

/-- A CPU that goes on to a position outside the timer branch leaves the others where they
are. -/
theorem yielding_of_update {pc : Core → Pc} {next : Pc}
    (elsewhere : ∀ slot todo, next ≠ .yielding slot todo)
    (yielding : update pc core next other = .yielding slot todo) :
    pc other = .yielding slot todo ∧ other ≠ core := by
  obtain rfl | same := eq_or_ne other core
  · rw [update_self] at yielding
    exact (elsewhere slot todo yielding).elim
  · rw [update_of_ne same] at yielding
    exact ⟨yielding, same⟩

/-- The process on a CPU changes its entry and leaves the timer branch, or was not in it. -/
theorem Inv.continue {next : Pc} (inv : before.Inv) (base : kernel.Inv)
    (proc : (before.kernel.pc core).proc = some slot)
    (elsewhere : ∀ slot todo, next ≠ .yielding slot todo)
    (table_eq : kernel.table = (before.kernel.edit slot write).table)
    (pc_eq : kernel.pc = update before.kernel.pc core next)
    (entry : EntryInv (write (before.kernel.table slot)) (before.taken slot) (before.slice slot)) :
    Inv { before with kernel } := by
  refine inv.change base table_eq (fun _ _ => rfl) (fun _ _ => rfl) entry ?_ ?_
  · intro other query todo _ yielding
    rw [pc_eq] at yielding
    exact (yielding_of_update elsewhere yielding).1
  · intro other todo yielding
    rw [pc_eq] at yielding
    obtain ⟨old, ne⟩ := yielding_of_update elsewhere yielding
    exact (inv.not_yielding proc ne old).elim

omit [DecidableEq Core] in
/-- A step that leaves the table and the positions alone.  The record may gain a timer interrupt
that the handlers ignore. -/
theorem Inv.unchanged (inv : before.Inv) (base : kernel.Inv)
    (noProceed : ∀ draw, action ≠ .proceed draw) (table_eq : kernel.table = before.kernel.table)
    (pc_eq : kernel.pc = before.kernel.pc) : (before.observe core action kernel).Inv := by
  have keeps : ∀ taken : Slot → Nat, (∀ slot, before.taken slot ≤ taken slot) →
      Inv { before with kernel, taken } := by
    intro taken grown
    refine ⟨base, ?_, fun slot running long => ?_, ?_, fun other slot todo yielding => ?_⟩
    · rw [table_eq]
      exact inv.fresh
    · rw [table_eq] at running long ⊢
      exact (inv.spent slot running long).trans (Int.ofNat_le.mpr (grown slot))
    · rw [table_eq]
      exact inv.slice_eq
    · rw [pc_eq] at yielding
      rw [table_eq]
      obtain ⟨spent, honoured⟩ := inv.yielding other slot todo yielding
      exact ⟨spent, honoured.trans (Int.ofNat_le.mpr (grown slot))⟩
  unfold observe
  split
  next => exact (noProceed _ rfl).elim
  next slot todo fromUser here =>
    apply keeps
    intro other
    obtain rfl | same := eq_or_ne other slot
    · simp
    · simp [same]
  next => exact keeps before.taken fun _ => le_rfl

/-- Every step that is not billed to a process with a longer slice keeps the invariant. -/
theorem Inv.exec (inv : before.Inv) (unbilled : before.Unbilled (core, action))
    (executed : before.kernel.exec .lbs core action = .ok kernel) :
    (before.observe core action kernel).Inv := by
  have stepped : before.kernel.Step .lbs (core, action) kernel := executed
  have base := inv.base.step stepped
  have effect := exec_effect executed
  generalize table_eq : kernel.table = table, pc_eq : kernel.pc = pc at effect
  cases effect with
  | none _ noProceed => exact inv.unchanged base noProceed table_eq pc_eq
  | skip draw todo idle noDispatch =>
    rw [observe_eq kernel (fun slot rest _ here _ => noDispatch slot rest here) (by simp)]
    refine ⟨base, ?_, ?_, ?_, ?_⟩
    · rw [table_eq]
      exact inv.fresh
    · rw [table_eq]
      exact inv.spent
    · rw [table_eq]
      exact inv.slice_eq
    · intro other slot rest yielding
      rw [pc_eq] at yielding
      rw [table_eq]
      exact inv.yielding other slot rest (yielding_of_update (by simp) yielding).1
  | dispatch draw slot todo here runnable =>
    exact inv.dispatch base here runnable table_eq pc_eq
  | resume draw slot todo here =>
    rw [observe_eq kernel (by simp [here]) (by simp)]
    exact inv.continue base (by simp [here]) (by simp) table_eq pc_eq
      ⟨inv.fresh slot, inv.spent slot, inv.slice_eq slot⟩
  | trap fromUser slot todo here => exact inv.trap base here table_eq pc_eq
  | yield draw slot todo here =>
    rw [observe_eq kernel (by simp [here]) (by simp)]
    have spent := (inv.yielding core slot todo here).1
    refine inv.continue base (by simp [here]) (by simp) table_eq pc_eq ⟨fun _ => spent, ?_, ?_⟩
    · simp [Proc.yield]
    · simp [Proc.yield]
  | leave _ slot todo write here leaving stopped =>
    have calm : ∀ fromUser, action ≠ .timer fromUser := by
      rintro fromUser rfl
      simp at leaving
    rw [observe_eq kernel (by simp [here]) calm]
    have state := stopped (before.kernel.table slot)
    refine inv.continue base (by simp [here]) (by simp) table_eq pc_eq ⟨?_, ?_, ?_⟩
    · intro waiting
      rcases state with state | state <;> simp [state] at waiting
    · intro running
      rcases state with state | state <;> simp [state] at running
    · intro running
      rcases state with state | state <;> simp [state] at running
  | sect sect tickets finds =>
    exact inv.touch base (by cases sect <;> simp [Action.ofSection])
      (fresh_write finds (inv.fresh sect.slot)) (running_write finds) unbilled table_eq pc_eq
  | setTickets slot n =>
    exact inv.touch base (by simp) (inv.fresh slot) (fun running => ⟨running, rfl, fun _ => rfl⟩)
      unbilled table_eq pc_eq

/-! ## Main results -/

/-- In every run of the LBS build in which `upd_time` advances the counter of no `RUNNING`
process whose slice is longer than one timer interrupt, nor of one that is about to yield,
every process that the timer branch preempts has had its slice. -/
theorem slices_honoured {labels : List (Core × Action)} {finish : Metered Core}
    (run : Run (Guarded Unbilled Step) (boot Core) labels finish) : finish.Honoured := by
  have inv : finish.Inv := by
    refine run.invariant (fun before label after inv taken => ?_) (boot_inv Core)
    obtain ⟨kernel, executed, rfl⟩ := ok_of_map taken.2
    exact inv.exec taken.1 executed
  intro core slot todo yielding
  exact (inv.yielding core slot todo yielding).2

/-- The scheduler's steps up to the moment when the first process, dispatched with a slice of two,
is in user mode. -/
def intoUser (core : Core) : List (Core × Action) :=
  [(core, .proceed 0), (core, .proceed 2), (core, .proceed 0), (core, .intr true)]

/-- The scheduler of the first CPU serves a tick of the clock.  On the second the first process
then takes two timer interrupts. -/
def twoCpus : List (Bool × Action) :=
  (false, .proceed 0) :: (false, .tick) :: allSlots.map (fun slot => (false, .updTime slot)) ++
    intoUser true ++ [(true, .timer true), (true, .timer true)]

theorem slices_honoured_twoCpus : ∃ finish,
    Run (Guarded Unbilled Step) (boot Bool) twoCpus finish ∧
    (finish.kernel.ticks = 1 ∧ finish.slice 0 = 2 ∧
      finish.kernel.pc true = .yielding 0 (allSlots.drop 1)) ∧
    max 1 (finish.slice 0) ≤ finish.taken 0 :=
  Run.exists_and_of_guardedExec (fun _ _ _ => ok_of_mem_toOption) (by decide +kernel)
    fun _ run here => slices_honoured run true 0 _ here.2.2

/-- A timer interrupt of the only CPU: a tick of the clock, and then the timer branch. -/
def clockTick : List (Unit × Action) :=
  (((), .tick) :: allSlots.map (fun slot => ((), .updTime slot)) : List (Unit × Action)) ++
    ((allSlots.drop 1).map (fun slot => ((), .wakeup slot .ticks)) : List (Unit × Action)) ++
    ([((), .timer true)] : List (Unit × Action))

/-- On one CPU each timer interrupt counts twice against a slice: a process with a slice of two
is preempted by its first one. -/
theorem slice_halved : ∃ labels finish, Run Step (boot Unit) labels finish ∧
    finish.kernel.pc () = .yielding 0 (allSlots.drop 1) ∧ finish.slice 0 = 2 ∧
    finish.taken 0 = 1 ∧ ¬ finish.Honoured := by
  have outcome : ∃ finish ∈ runAll (fun metered label => (metered.exec label.1 label.2).toOption)
      (boot Unit) (intoUser () ++ clockTick),
      finish.kernel.pc () = .yielding 0 (allSlots.drop 1) ∧ finish.slice 0 = 2 ∧
        finish.taken 0 = 1 := by
    decide +kernel
  obtain ⟨finish, executed, position, slice_eq, taken_eq⟩ := outcome
  refine ⟨_, finish, .of_runAll (fun _ _ _ => ok_of_mem_toOption) executed, position, slice_eq,
    taken_eq, fun honoured => ?_⟩
  have enough := honoured () 0 _ position
  rw [slice_eq, taken_eq] at enough
  exact absurd enough (by decide)

end Metered

end Xv6.RoundRobin
