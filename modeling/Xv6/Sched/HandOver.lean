import Xv6.Sched.RoundRobin

/-!
# A process runs on at most one CPU

The lock of a process and the right to run it move together: from the scheduler that picks
the process to the process, and back.  Whoever is in between holds `p->lock`.  So while the
lock is free, `RUNNING` says that exactly one CPU has the process as its `c->proc`.
-/

namespace Xv6.RoundRobin

open Function Transition

namespace Pc

/-- The process whose lock the CPU holds between two steps. -/
def held : Pc → Option Slot
  | .resume slot _ | .back slot _ => some slot
  | .scan _ | .run _ _ | .yielding _ _ => none

/-- The process the CPU is switched to. -/
def proc : Pc → Option Slot
  | .resume slot _ | .run slot _ | .yielding slot _ | .back slot _ => some slot
  | .scan _ => none

/-- The process that has not given the CPU up. -/
def runs : Pc → Option Slot
  | .resume slot _ | .run slot _ | .yielding slot _ => some slot
  | .scan _ | .back _ _ => none

section Fields

variable (slot : Slot) (todo : List Slot)

@[simp] theorem held_scan : (scan todo).held = none := rfl
@[simp] theorem held_resume : (resume slot todo).held = some slot := rfl
@[simp] theorem held_run : (run slot todo).held = none := rfl
@[simp] theorem held_yielding : (yielding slot todo).held = none := rfl
@[simp] theorem held_back : (back slot todo).held = some slot := rfl
@[simp] theorem proc_scan : (scan todo).proc = none := rfl
@[simp] theorem proc_resume : (resume slot todo).proc = some slot := rfl
@[simp] theorem proc_run : (run slot todo).proc = some slot := rfl
@[simp] theorem proc_yielding : (yielding slot todo).proc = some slot := rfl
@[simp] theorem proc_back : (back slot todo).proc = some slot := rfl
@[simp] theorem runs_scan : (scan todo).runs = none := rfl
@[simp] theorem runs_resume : (resume slot todo).runs = some slot := rfl
@[simp] theorem runs_run : (run slot todo).runs = some slot := rfl
@[simp] theorem runs_yielding : (yielding slot todo).runs = some slot := rfl
@[simp] theorem runs_back : (back slot todo).runs = none := rfl

end Fields

/-- What `struct cpu` and the interrupt-enable bit are at this point. -/
structure Fits (pc : Pc) (cpu : Cpu) : Prop where
  noff_eq : cpu.noff = if pc.held.isSome then 1 else 0
  sie_off : pc.held.isSome → cpu.sie = false
  proc_eq : cpu.proc = pc.proc

theorem proc_of_runs {pc : Pc} {slot : Slot} (runs : pc.runs = some slot) :
    pc.proc = some slot := by
  cases pc <;> simp_all

/-- A CPU that is switched to a process runs it or holds its lock. -/
theorem runs_or_held {pc : Pc} {slot : Slot} (proc : pc.proc = some slot) :
    pc.runs = some slot ∨ pc.held = some slot := by
  cases pc <;> simp_all

end Pc

namespace Kernel

variable {Core : Type} {kernel after : Kernel Core} {core : Core} {slot : Slot}

/-- The locks, the CPUs and the states of the processes agree with where the CPUs are. -/
structure Inv (kernel : Kernel Core) : Prop where
  owner_iff : ∀ slot core, kernel.owner slot = some core ↔ (kernel.pc core).held = some slot
  fits : ∀ core, (kernel.pc core).Fits (kernel.cpu core)
  running_iff : ∀ slot, (kernel.table slot).state = .running ↔
    ∃ core, (kernel.pc core).runs = some slot
  unique : ∀ slot core other, (kernel.pc core).proc = some slot →
    (kernel.pc other).proc = some slot → core = other

/-- No CPU is switched to a process that is neither `RUNNING` nor locked. -/
theorem Inv.not_proc (inv : kernel.Inv) (free : kernel.owner slot = none)
    (stopped : (kernel.table slot).state ≠ .running) : (kernel.pc core).proc ≠ some slot := by
  intro proc
  cases Pc.runs_or_held proc with
  | inl runs => exact stopped ((inv.running_iff slot).mpr ⟨core, runs⟩)
  | inr held =>
    rw [← inv.owner_iff, free] at held
    cases held

theorem Inv.not_owner (inv : kernel.Inv) (none_held : (kernel.pc core).held = none)
    (slot : Slot) : kernel.owner slot ≠ some core := by
  rw [ne_eq, inv.owner_iff, none_held]
  exact nofun

theorem Inv.noff_eq_zero (inv : kernel.Inv) (none_held : (kernel.pc core).held = none) :
    (kernel.cpu core).noff = 0 := by
  simpa [none_held] using (inv.fits core).noff_eq

/-- No lock is held, no CPU is in a process and no process runs, as when the CPUs enter
`scheduler()`. -/
structure Initial (kernel : Kernel Core) : Prop where
  free : ∀ slot, kernel.owner slot = none
  scanning : ∀ core, ∃ todo, kernel.pc core = .scan todo
  idle : ∀ core, (kernel.cpu core).noff = 0 ∧ (kernel.cpu core).proc = none
  stopped : ∀ slot, (kernel.table slot).state ≠ .running

theorem Initial.inv (initial : kernel.Initial) : kernel.Inv where
  owner_iff := by
    intro slot core
    obtain ⟨todo, here⟩ := initial.scanning core
    simp [initial.free, here]
  fits := by
    intro core
    obtain ⟨todo, here⟩ := initial.scanning core
    rw [here]
    exact ⟨(initial.idle core).1, by simp, (initial.idle core).2⟩
  running_iff := by
    intro slot
    refine iff_of_false (initial.stopped slot) ?_
    rintro ⟨core, runs⟩
    obtain ⟨todo, here⟩ := initial.scanning core
    simp [here] at runs
  unique := by
    intro slot core other proc
    obtain ⟨todo, here⟩ := initial.scanning core
    simp [here] at proc

theorem Serves.none_held (serves : kernel.Serves core) : (kernel.pc core).held = none := by
  unfold Serves at serves
  split at serves
  case h_1 here => simp [here]
  case h_2 here => simp [here]
  case h_3 => exact serves.elim

variable {write : Proc → Proc}

theorem Inv.edit_state (inv : kernel.Inv) (slot : Slot)
    (state_eq : (write (kernel.table slot)).state = (kernel.table slot).state) :
    (kernel.edit slot write).Inv where
  __ := inv
  running_iff := by
    intro query
    rw [show (kernel.edit slot write).pc = kernel.pc from rfl, ← inv.running_iff]
    obtain rfl | same := eq_or_ne query slot
    · simp [Kernel.edit, state_eq]
    · simp [Kernel.edit, same]
  unique := inv.unique

variable [DecidableEq Core]

variable {cpu : Cpu} {pc : Pc} {inside : Kernel Core}

/-- A step that stays where it is and neither starts nor stops a process. -/
theorem Inv.stay (inv : kernel.Inv) (owner_eq : after.owner = kernel.owner)
    (pc_eq : after.pc = kernel.pc) (cpu_eq : after.cpu = update kernel.cpu core cpu)
    (fits : (kernel.pc core).Fits cpu)
    (running : ∀ slot, (after.table slot).state = .running ↔ (kernel.table slot).state = .running) :
    after.Inv where
  owner_iff := by
    rw [owner_eq, pc_eq]
    exact inv.owner_iff
  fits := by
    intro other
    rw [cpu_eq, pc_eq]
    obtain rfl | same := eq_or_ne other core
    · simpa using fits
    · simpa [same] using inv.fits other
  running_iff := by
    intro query
    rw [running query, pc_eq]
    exact inv.running_iff query
  unique := by
    rw [pc_eq]
    exact inv.unique

/-- What a CPU may change its position to. -/
structure Moves (kernel : Kernel Core) (core : Core) (pc : Pc) (after : Kernel Core) : Prop where
  pc_eq : after.pc = update kernel.pc core pc
  cpu_eq : ∃ cpu, after.cpu = update kernel.cpu core cpu ∧ pc.Fits cpu
  owner_eq : ∀ slot, after.owner slot =
    if pc.held = some slot then some core
    else if (kernel.pc core).held = some slot then none
    else kernel.owner slot
  free : ∀ slot, pc.held = some slot →
    kernel.owner slot = none ∨ (kernel.pc core).held = some slot
  running : ∀ slot, (after.table slot).state = .running ↔ pc.runs = some slot ∨
    ((kernel.table slot).state = .running ∧ (kernel.pc core).runs ≠ some slot)
  proc : ∀ slot, pc.proc = some slot → (kernel.pc core).proc = some slot ∨
    ∀ other, (kernel.pc other).proc ≠ some slot

theorem Inv.move (inv : kernel.Inv) (moves : kernel.Moves core pc after) : after.Inv where
  owner_iff := by
    intro query other
    rw [moves.owner_eq, moves.pc_eq]
    obtain rfl | same := eq_or_ne other core
    · rw [update_self]
      split_ifs with held wasHeld
      · simp [held]
      · simp [held]
      · simp [held, inv.owner_iff, wasHeld]
    · rw [update_of_ne same, ← inv.owner_iff query other]
      split_ifs with held wasHeld
      · simp only [Option.some.injEq, Ne.symm same, false_iff]
        intro owned
        cases moves.free query held with
        | inl free =>
          rw [free] at owned
          cases owned
        | inr wasHeld =>
          rw [← inv.owner_iff, owned] at wasHeld
          exact same (Option.some.inj wasHeld)
      · simp only [false_iff]
        intro owned
        rw [← inv.owner_iff, owned] at wasHeld
        exact same (Option.some.inj wasHeld)
      · rfl
  fits := by
    intro other
    obtain ⟨cpu, cpu_eq, fits⟩ := moves.cpu_eq
    rw [cpu_eq, moves.pc_eq]
    obtain rfl | same := eq_or_ne other core
    · simpa using fits
    · simpa [same] using inv.fits other
  running_iff := by
    intro query
    rw [moves.running, inv.running_iff, moves.pc_eq]
    constructor
    · rintro (runs | ⟨⟨other, runs⟩, notCore⟩)
      · exact ⟨core, by simpa using runs⟩
      · have ne : other ≠ core := by
          rintro rfl
          exact notCore runs
        exact ⟨other, by simpa [ne] using runs⟩
    · rintro ⟨other, runs⟩
      obtain rfl | same := eq_or_ne other core
      · exact .inl (by simpa using runs)
      · rw [update_of_ne same] at runs
        refine .inr ⟨⟨other, runs⟩, fun alsoCore => same ?_⟩
        exact inv.unique query _ _ (Pc.proc_of_runs runs) (Pc.proc_of_runs alsoCore)
  unique := by
    have old : ∀ query other, (update kernel.pc core pc other).proc = some query →
        (kernel.pc other).proc = some query ∨
          (other = core ∧ ∀ third, (kernel.pc third).proc ≠ some query) := by
      intro query other proc
      obtain rfl | same := eq_or_ne other core
      · rw [update_self] at proc
        exact (moves.proc query proc).imp id fun none => ⟨rfl, none⟩
      · rw [update_of_ne same] at proc
        exact .inl proc
    intro query first second procFirst procSecond
    rw [moves.pc_eq] at procFirst procSecond
    rcases old query first procFirst with left | ⟨left, none⟩
    · rcases old query second procSecond with right | ⟨-, none⟩
      · exact inv.unique query first second left right
      · exact (none first left).elim
    · rcases old query second procSecond with right | ⟨right, -⟩
      · exact (none second right).elim
      · exact left.trans right.symm

/-! ## Locking -/

/-- `acquire` of a lock that another CPU holds spins; it does not panic. -/
theorem acquire_spec (fresh : kernel.owner slot ≠ some core) :
    kernel.acquire core slot = .error .blocked ∨
      (kernel.owner slot = none ∧ kernel.acquire core slot =
        .ok ((kernel.setCpu core (pushOff (kernel.cpu core))).setOwner slot (some core))) := by
  cases owned : kernel.owner slot with
  | none =>
    right
    simp [acquire, setCpu, owned]
  | some holder =>
    left
    have ne : holder ≠ core := by
      rintro rfl
      exact fresh owned
    simp [acquire, setCpu, owned, ne]

theorem popOff_spec (off : cpu.sie = false) (deep : 0 < cpu.noff) :
    ∃ after, popOff cpu = .ok after ∧ after.noff = cpu.noff - 1 ∧ after.proc = cpu.proc ∧
      (1 < cpu.noff → after.sie = false) := by
  refine ⟨{ cpu with noff := cpu.noff - 1, sie := decide (cpu.noff - 1 = 0) && cpu.intena },
    by simp [popOff, off, Nat.not_lt.mpr deep], rfl, rfl, ?_⟩
  intro nested
  simp [Nat.sub_ne_zero_of_lt nested]

/-- `release` of a held lock succeeds. -/
theorem release_spec (owned : kernel.owner slot = some core)
    (off : (kernel.cpu core).sie = false) (deep : 0 < (kernel.cpu core).noff) :
    ∃ cpu, kernel.release core slot = .ok ((kernel.setOwner slot none).setCpu core cpu) ∧
      cpu.noff = (kernel.cpu core).noff - 1 ∧ cpu.proc = (kernel.cpu core).proc := by
  obtain ⟨cpu, popped, noff_eq, proc_eq, -⟩ := popOff_spec off deep
  exact ⟨cpu, by simp [release, owned, popped, Except.map], noff_eq, proc_eq⟩

/-- A section on one entry spins or takes effect. -/
theorem Inv.withLock (inv : kernel.Inv) (none_held : (kernel.pc core).held = none)
    (slot : Slot) (write : Proc → Proc) :
    kernel.withLock core slot write = .error .blocked ∨
      ∃ cpu, (kernel.pc core).Fits cpu ∧
        kernel.withLock core slot write = .ok ((kernel.edit slot write).setCpu core cpu) := by
  have noff_eq := inv.noff_eq_zero none_held
  rcases acquire_spec (inv.not_owner none_held slot) with blocked | ⟨free, acquired⟩
  · left
    simp [Kernel.withLock, blocked, bind, Except.bind]
  · right
    let taken := (kernel.setCpu core (pushOff (kernel.cpu core))).setOwner slot (some core)
    have owned : (taken.edit slot write).owner slot = some core := by
      simp [taken, edit, setOwner]
    have off : ((taken.edit slot write).cpu core).sie = false := by
      simp [taken, edit, setOwner, setCpu, pushOff]
    have depth_eq : ((taken.edit slot write).cpu core).noff = 1 := by
      simp [taken, edit, setOwner, setCpu, pushOff, noff_eq]
    obtain ⟨cpu, released, depth, proc⟩ := release_spec owned off (by simp [depth_eq])
    refine ⟨cpu, ⟨?_, ?_, ?_⟩, ?_⟩
    · simpa [none_held, depth_eq] using depth
    · simp [none_held]
    · simpa [taken, edit, setOwner, setCpu, pushOff, (inv.fits core).proc_eq] using proc
    · simp only [Kernel.withLock, acquired, bind, Except.bind]
      rw [released]
      simp [taken, edit, setOwner, setCpu, ← free]

theorem sched_spec (owned : kernel.owner slot = some core) (depth : (kernel.cpu core).noff = 1)
    (stopped : (kernel.table slot).state ≠ .running) (off : (kernel.cpu core).sie = false) :
    ∃ saved, kernel.sched core slot = .ok { kernel with saved } := by
  simp [sched, owned, depth, stopped, off]

/-- The kernel once a process has given the CPU up and `swtch` is back in the scheduler. -/
structure GaveUp (kernel : Kernel Core) (core : Core) (slot : Slot) (write : Proc → Proc)
    (after : Kernel Core) : Prop where
  table_eq : after.table = (kernel.edit slot write).table
  owner_eq : after.owner = update kernel.owner slot (some core)
  cpu_eq : ∃ cpu, after.cpu = update kernel.cpu core cpu ∧ cpu.noff = 1 ∧
    cpu.sie = false ∧ cpu.proc = (kernel.cpu core).proc
  pc_eq : after.pc = kernel.pc
  free : kernel.owner slot = none

/-- `sched()` from a process that holds its own lock and no other. -/
theorem sched_gaveUp (free : kernel.owner slot = none) (table_eq : inside.table = kernel.table)
    (pc_eq : inside.pc = kernel.pc)
    (owner_eq : inside.owner = update kernel.owner slot (some core))
    (cpu_eq : inside.cpu = update kernel.cpu core cpu) (depth : cpu.noff = 1)
    (off : cpu.sie = false) (proc : cpu.proc = (kernel.cpu core).proc)
    (stopped : ∀ proc, (write proc).state ≠ .running) :
    ∃ after, (inside.edit slot write).sched core slot = .ok after ∧
      kernel.GaveUp core slot write after := by
  have owned : (inside.edit slot write).owner slot = some core := by simp [edit, owner_eq]
  have cpuHere : (inside.edit slot write).cpu core = cpu := by simp [edit, cpu_eq]
  have state : ((inside.edit slot write).table slot).state ≠ .running := by
    simpa [edit] using stopped _
  obtain ⟨saved, switched⟩ := sched_spec owned (by rw [cpuHere, depth]) state (by rw [cpuHere, off])
  exact ⟨_, switched, by simp [edit, table_eq], owner_eq, ⟨cpu, cpu_eq, depth, off, proc⟩, pc_eq,
    free⟩

/-- `yield` spins or comes back to the scheduler. -/
theorem Inv.yield (inv : kernel.Inv) (none_held : (kernel.pc core).held = none) :
    kernel.yield core slot = .error .blocked ∨
      ∃ after, kernel.yield core slot = .ok after ∧ kernel.GaveUp core slot Proc.yield after := by
  have noff_eq := inv.noff_eq_zero none_held
  rcases acquire_spec (inv.not_owner none_held slot) with blocked | ⟨free, acquired⟩
  · left
    simp [Kernel.yield, blocked, bind, Except.bind]
  · right
    simp only [Kernel.yield, acquired, bind, Except.bind]
    refine sched_gaveUp free ?_ ?_ ?_ rfl ?_ rfl rfl ?_
    · rfl
    · rfl
    · rfl
    · simp [pushOff, noff_eq]
    · simp [Proc.yield]

/-- `sleep` and `exit` spin or come back to the scheduler. -/
theorem Inv.leave (inv : kernel.Inv) (none_held : (kernel.pc core).held = none)
    (stopped : ∀ proc, (write proc).state ≠ .running) :
    kernel.leave core slot write = .error .blocked ∨
      ∃ after, kernel.leave core slot write = .ok after ∧
        kernel.GaveUp core slot write after := by
  have noff_eq := inv.noff_eq_zero none_held
  let inside := kernel.setCpu core (pushOff (kernel.cpu core))
  have fresh : inside.owner slot ≠ some core := inv.not_owner none_held slot
  rcases acquire_spec fresh with blocked | ⟨free, acquired⟩
  · left
    simp only [Kernel.leave, bind, Except.bind]
    rw [blocked]
  · right
    have cpu_eq : inside.cpu core = pushOff (kernel.cpu core) := by simp [inside, setCpu]
    obtain ⟨cpu, popped, depth, proc, off⟩ :=
      popOff_spec (rfl : (pushOff (inside.cpu core)).sie = false) (by simp [pushOff])
    have twice : (pushOff (inside.cpu core)).noff = 2 := by simp [cpu_eq, pushOff, noff_eq]
    simp only [Kernel.leave, bind, Except.bind]
    rw [acquired]
    simp only [setOwner, setCpu, update_self] at popped ⊢
    rw [popped]
    refine sched_gaveUp free rfl rfl rfl ?_ (by rw [depth, twice]) (off (by rw [twice]; decide))
      ?_ stopped
    · simp [inside, setCpu]
    · rw [proc, pushOff, cpu_eq, pushOff]

/-! ## The steps -/

/-- A step spins, cannot be taken, or keeps the invariant; it does not panic. -/
def Sound (result : Except Stop (Kernel Core)) : Prop :=
  result = .error .blocked ∨ ∃ after, result = .ok after ∧ after.Inv

theorem Inv.sound_withLock (inv : kernel.Inv) (none_held : (kernel.pc core).held = none)
    (running : (write (kernel.table slot)).state = .running ↔
      (kernel.table slot).state = .running) :
    Sound (kernel.withLock core slot write) := by
  rcases inv.withLock none_held slot write with blocked | ⟨cpu, fits, done⟩
  · exact .inl blocked
  · refine .inr ⟨_, done, inv.stay rfl rfl rfl fits fun query => ?_⟩
    obtain rfl | same := eq_or_ne query slot
    · simpa [edit, setCpu] using running
    · simp [edit, setCpu, same]

variable {todo : List Slot} {build : Scheduler}

/-- The process on a CPU gives it up. -/
theorem Inv.gaveUp (inv : kernel.Inv) (runs : (kernel.pc core).runs = some slot)
    (none_held : (kernel.pc core).held = none) (stopped : ∀ proc, (write proc).state ≠ .running)
    (gaveUp : kernel.GaveUp core slot write after) : (after.goto core (.back slot todo)).Inv := by
  have moves : kernel.Moves core (.back slot todo) (after.goto core (.back slot todo)) := by
    constructor
    case pc_eq => simp [goto, gaveUp.pc_eq]
    case cpu_eq =>
      obtain ⟨cpu, cpu_eq, depth, off, proc⟩ := gaveUp.cpu_eq
      refine ⟨cpu, cpu_eq, by simpa using depth, fun _ => off, ?_⟩
      rw [proc, (inv.fits core).proc_eq, Pc.proc_of_runs runs]
      rfl
    case owner_eq =>
      intro query
      simp [goto, gaveUp.owner_eq, none_held, update_apply, eq_comm]
    case free =>
      intro query held
      cases held
      exact .inl gaveUp.free
    case running =>
      intro query
      obtain rfl | same := eq_or_ne query slot
      · simp [goto, gaveUp.table_eq, edit, stopped, runs]
      · simp [goto, gaveUp.table_eq, edit, same, runs, Ne.symm same]
    case proc =>
      intro query proc
      cases proc
      exact .inl (Pc.proc_of_runs runs)
  exact inv.move moves

/-- The switch to a process, and the switch back, end with the release of its lock. -/
theorem Inv.released (inv : kernel.Inv) (held : (kernel.pc core).held = some slot)
    (none_held : pc.held = none) (depth : cpu.noff = 0) (proc : cpu.proc = pc.proc)
    (runs : pc.runs = (kernel.pc core).runs)
    (procs : pc.proc = (kernel.pc core).proc ∨ pc.proc = none)
    (pc_eq : after.pc = update kernel.pc core pc)
    (cpu_eq : after.cpu = update kernel.cpu core cpu)
    (owner_eq : after.owner = update kernel.owner slot none)
    (running : ∀ query, (after.table query).state = (kernel.table query).state) : after.Inv := by
  have moves : kernel.Moves core pc after := by
    constructor
    case pc_eq => exact pc_eq
    case cpu_eq => exact ⟨cpu, cpu_eq, by simpa [none_held] using depth, by simp [none_held], proc⟩
    case owner_eq =>
      intro query
      simp [owner_eq, none_held, held, update_apply, eq_comm]
    case free => simp [none_held]
    case running =>
      intro query
      rw [running, runs]
      constructor
      · intro state
        exact or_iff_not_imp_left.mpr fun other => ⟨state, other⟩
      · rintro (here | ⟨state, -⟩)
        · exact (inv.running_iff query).mpr ⟨core, here⟩
        · exact state
    case proc =>
      intro query
      rcases procs with same | idle
      · rw [same]
        exact .inl
      · simp [idle]
  exact inv.move moves

/-- The CPU goes on without a change to its lock and its process. -/
theorem Inv.goto (inv : kernel.Inv) (held : pc.held = (kernel.pc core).held)
    (proc : pc.proc = (kernel.pc core).proc) (runs : pc.runs = (kernel.pc core).runs) :
    (kernel.goto core pc).Inv := by
  have moves : kernel.Moves core pc (kernel.goto core pc) := by
    constructor
    case pc_eq => rfl
    case cpu_eq =>
      have fits := inv.fits core
      exact ⟨kernel.cpu core, (update_eq_self _ _).symm, by rw [held, fits.noff_eq],
        by rw [held]; exact fits.sie_off, by rw [proc, fits.proc_eq]⟩
    case owner_eq =>
      intro query
      rw [held]
      split_ifs with here
      · exact (inv.owner_iff query core).mpr here
      · rfl
    case free =>
      intro query here
      exact .inr (held ▸ here)
    case running =>
      intro query
      rw [runs]
      constructor
      · intro state
        exact or_iff_not_imp_left.mpr fun other => ⟨state, other⟩
      · rintro (here | ⟨state, -⟩)
        · exact (inv.running_iff query).mpr ⟨core, here⟩
        · exact state
    case proc =>
      intro query here
      exact .inl (proc ▸ here)
  exact inv.move moves

/-- Writes to the CPU's own record that leave the lock depth and the process alone. -/
theorem Inv.setCpu (inv : kernel.Inv) (fits : (kernel.pc core).Fits cpu) :
    (kernel.setCpu core cpu).Inv :=
  inv.stay rfl rfl rfl fits fun _ => Iff.rfl

/-- The scheduler switches to a process whose lock it has taken. -/
theorem Inv.switchedTo {todo rest : List Slot} (write : Proc → Proc) (inv : kernel.Inv)
    (position : kernel.pc core = .scan rest) (free : kernel.owner slot = none)
    (stopped : (kernel.table slot).state ≠ .running)
    (running : ∀ proc, (write proc).state = .running) (depth : cpu.noff = 1)
    (off : cpu.sie = false) (proc : cpu.proc = some slot)
    (pc_eq : after.pc = update kernel.pc core (.resume slot todo))
    (cpu_eq : after.cpu = update kernel.cpu core cpu)
    (owner_eq : after.owner = update kernel.owner slot (some core))
    (table_eq : after.table = (kernel.edit slot write).table) : after.Inv := by
  have moves : kernel.Moves core (.resume slot todo) after := by
    constructor
    case pc_eq => exact pc_eq
    case cpu_eq => exact ⟨cpu, cpu_eq, by simpa using depth, fun _ => off, proc⟩
    case owner_eq =>
      intro query
      simp [owner_eq, position, update_apply, eq_comm]
    case free =>
      intro query held
      cases held
      exact .inl free
    case running =>
      intro query
      obtain rfl | same := eq_or_ne query slot
      · simp [table_eq, edit, running]
      · simp [table_eq, edit, position, same, Ne.symm same]
    case proc =>
      intro query here
      cases here
      exact .inr fun _ => inv.not_proc free stopped
  exact inv.move moves

theorem Inv.visit (build : Scheduler) (draw : Nat) (inv : kernel.Inv)
    (here : kernel.pc core = .scan (slot :: todo)) :
    Sound (kernel.visit build draw core slot todo) := by
  have none_held : (kernel.pc core).held = none := by simp [here]
  have noff_eq := inv.noff_eq_zero none_held
  rcases acquire_spec (inv.not_owner none_held slot) with blocked | ⟨free, acquired⟩
  · left
    simp [Kernel.visit, blocked, bind, Except.bind]
  · right
    let taken := (kernel.setCpu core (pushOff (kernel.cpu core))).setOwner slot (some core)
    have cpu_eq : taken.cpu core = pushOff (kernel.cpu core) := by
      simp [taken, setOwner, Kernel.setCpu]
    simp only [Kernel.visit, acquired, bind, Except.bind]
    split_ifs with runnable
    · have stopped : (kernel.table slot).state ≠ .running := by
        have state : (kernel.table slot).state = .runnable := runnable
        simp [state]
      refine ⟨_, rfl, inv.switchedTo (dispatched build draw) here free stopped ?_ ?_ ?_ ?_ rfl
        (update_idem _ _ _) rfl rfl⟩
      · simp [dispatched]
      · change (taken.cpu core).noff = 1
        simp [cpu_eq, pushOff, noff_eq]
      · change (taken.cpu core).sie = false
        simp [cpu_eq, pushOff]
      · rfl
    · have owned : taken.owner slot = some core := by simp [taken, setOwner]
      obtain ⟨cpu, released, depth, proc⟩ :=
        release_spec owned (by rw [cpu_eq]; rfl) (by rw [cpu_eq]; simp [pushOff])
      rw [released]
      have fits : (kernel.pc core).Fits cpu := by
        refine ⟨?_, by simp [none_held], ?_⟩
        · simp [none_held, depth, cpu_eq, pushOff, noff_eq]
        · rw [proc, cpu_eq, pushOff, (inv.fits core).proc_eq]
      have kept : ((taken.setOwner slot none).setCpu core cpu) = kernel.setCpu core cpu := by
        simp [taken, setOwner, Kernel.setCpu, ← free]
      rw [kept]
      exact ⟨_, rfl, (inv.setCpu fits).goto (by simp [Kernel.setCpu, here])
        (by simp [Kernel.setCpu, here]) (by simp [Kernel.setCpu, here])⟩

/-- The lock that a switch has handed over is released. -/
theorem Inv.sound_release (inv : kernel.Inv) (held : (kernel.pc core).held = some slot)
    (none_held : pc.held = none) (runs : pc.runs = (kernel.pc core).runs)
    (procs : pc.proc = (kernel.pc core).proc ∨ pc.proc = none)
    (owner_eq : inside.owner = kernel.owner) (pc_eq : inside.pc = kernel.pc)
    (cpu_eq : inside.cpu = update kernel.cpu core cpu)
    (depth : cpu.noff = (kernel.cpu core).noff) (off : cpu.sie = (kernel.cpu core).sie)
    (proc : cpu.proc = pc.proc)
    (running : ∀ query, (inside.table query).state = (kernel.table query).state) :
    Sound ((inside.release core slot).map fun kernel => kernel.goto core pc) := by
  have fits := inv.fits core
  have depth_eq : cpu.noff = 1 := by simpa [held] using depth.trans fits.noff_eq
  have owned : inside.owner slot = some core := by
    rw [owner_eq]
    exact (inv.owner_iff slot core).mpr held
  have cpuHere : inside.cpu core = cpu := by simp [cpu_eq]
  obtain ⟨after, released, noff_eq, proc_eq⟩ := release_spec owned
    (by rw [cpuHere, off]; exact fits.sie_off (by simp [held])) (by rw [cpuHere, depth_eq]; decide)
  rw [cpuHere] at noff_eq proc_eq
  right
  rw [released]
  refine ⟨_, rfl, inv.released held none_held (noff_eq.trans (by rw [depth_eq]))
    (proc_eq.trans proc) runs
    procs ?_ ?_ ?_ running⟩
  · simp [Kernel.goto, Kernel.setCpu, setOwner, pc_eq]
  · simp [Kernel.goto, Kernel.setCpu, setOwner, cpu_eq]
  · simp [Kernel.goto, Kernel.setCpu, setOwner, owner_eq]

theorem Inv.proceed (build : Scheduler) (draw : Nat) (inv : kernel.Inv) (core : Core) :
    Sound (kernel.proceed build draw core) := by
  have fits := inv.fits core
  unfold Kernel.proceed
  cases here : kernel.pc core with
  | scan todo =>
    cases todo with
    | nil =>
      right
      rw [here] at fits
      refine ⟨_, rfl, Inv.goto (inv.setCpu ?_) ?_ ?_ ?_⟩
      · rw [here]
        exact ⟨fits.noff_eq, by simp, fits.proc_eq⟩
      all_goals simp [setIntr, Kernel.setCpu, here]
    | cons slot todo => exact inv.visit build draw here
  | run => exact .inl rfl
  | resume slot todo =>
    have proc : (kernel.cpu core).proc = some slot := by simpa [here] using fits.proc_eq
    refine inv.sound_release (by simp [here]) rfl (by simp [here])
      (Or.inl (by simp [here])) rfl rfl rfl rfl rfl proc ?_
    intro query
    obtain rfl | same := eq_or_ne query slot
    · simp [edit, Kernel.setCpu]
    · simp [edit, Kernel.setCpu, same]
  | yielding slot todo =>
    have none_held : (kernel.pc core).held = none := by simp [here]
    rcases inv.yield none_held with blocked | ⟨after, yielded, gaveUp⟩
    · left
      simp only
      rw [blocked]
      rfl
    · right
      simp only
      rw [yielded]
      exact ⟨_, rfl, inv.gaveUp (by simp [here]) none_held (by simp [Proc.yield]) gaveUp⟩
  | back slot todo =>
    exact inv.sound_release (by simp [here]) rfl (by simp [here]) (Or.inr rfl) rfl rfl rfl
      rfl rfl rfl fun _ => rfl

theorem timerBranch_state (build : Scheduler) (proc : Proc) :
    (timerBranch build proc).1.state = proc.state := by
  unfold timerBranch Proc.lotterySlice
  split_ifs
  · dsimp only
    split_ifs <;> rfl
  · rfl

theorem Inv.timer (build : Scheduler) (fromUser : Bool) (inv : kernel.Inv)
    (here : kernel.pc core = .run slot todo) :
    (kernel.timer build fromUser core slot todo).Inv := by
  unfold Kernel.timer
  have edited : (kernel.edit slot fun _ => (timerBranch build (kernel.table slot)).1).Inv :=
    inv.edit_state slot (timerBranch_state build _)
  have fits := edited.fits core
  split_ifs
  · exact inv
  · exact inv
  · dsimp only
    split_ifs
    · refine Inv.goto (edited.setCpu ⟨fits.noff_eq, fun _ => rfl, fits.proc_eq⟩) ?_ ?_ ?_
      all_goals simp [setIntr, Kernel.setCpu, Kernel.edit, here]
    · exact edited

theorem Inv.sound_leave (inv : kernel.Inv) (here : kernel.pc core = .run slot todo)
    (stopped : ∀ proc, (write proc).state ≠ .running) :
    Sound ((kernel.leave core slot write).map fun kernel =>
      kernel.goto core (.back slot todo)) := by
  have none_held : (kernel.pc core).held = none := by simp [here]
  rcases inv.leave none_held stopped with blocked | ⟨after, left_, gaveUp⟩
  · left
    rw [blocked]
    rfl
  · right
    rw [left_]
    exact ⟨_, rfl, inv.gaveUp (by simp [here]) none_held stopped gaveUp⟩

theorem Inv.syscall (build : Scheduler) (inv : kernel.Inv)
    (here : kernel.pc core = .run slot todo) (action : Action) :
    Sound (kernel.syscall build core slot todo action) := by
  have none_held : (kernel.pc core).held = none := by simp [here]
  cases action with
  | proceed | intr | timer | tick | updTime | wakeup => exact .inl rfl
  | kill other pid =>
    exact inv.sound_withLock none_held
      ((Section.kill other pid).write_running build kernel.ticks 0 0 trivial)
  | alloc child fits =>
    simp only [Kernel.syscall]
    split_ifs with unused
    · have running := (Section.alloc child fits).write_running build kernel.ticks kernel.nextpid
        (kernel.table slot).tickets unused
      rw [Section.write] at running
      rcases inv.sound_withLock none_held running with blocked | ⟨after, done, kept⟩
      · left
        rw [blocked]
        rfl
      · right
        rw [done]
        exact ⟨_, rfl, { kept with }⟩
    · exact .inl rfl
  | start child =>
    simp only [Kernel.syscall]
    split_ifs with used
    · exact inv.sound_withLock none_held (by simp [used, Proc.start])
    · exact .inl rfl
  | reap other =>
    simp only [Kernel.syscall]
    split_ifs with zombie
    · exact inv.sound_withLock none_held (by simp [zombie, Proc.reap, Proc.free])
    · exact .inl rfl
  | setTickets n => exact .inr ⟨_, rfl, inv.edit_state slot rfl⟩
  | sleep chan => exact inv.sound_leave here (by simp [Proc.sleep])
  | exit =>
    simp only [Kernel.syscall]
    split_ifs
    · exact .inl rfl
    · exact inv.sound_leave here (by simp [Proc.exit])

/-- No step of any CPU panics, and every step keeps the invariant. -/
theorem Inv.exec (build : Scheduler) (inv : kernel.Inv) (core : Core) (action : Action) :
    Sound (kernel.exec build core action) := by
  cases action with
  | proceed draw => exact inv.proceed build draw core
  | tick =>
    simp only [Kernel.exec]
    split_ifs
    · exact .inr ⟨_, rfl, { inv with }⟩
    · exact .inl rfl
  | updTime slot =>
    simp only [Kernel.exec]
    split_ifs with serves
    · exact inv.sound_withLock serves.none_held (by simp)
    · exact .inl rfl
  | wakeup slot chan =>
    simp only [Kernel.exec]
    split_ifs with serves
    · exact inv.sound_withLock serves.1.none_held
        ((Section.wakeup slot chan).write_running build kernel.ticks 0 0 trivial)
    · exact .inl rfl
  | intr =>
    simp only [Kernel.exec]
    split
    next here =>
      have fits := inv.fits core
      refine .inr ⟨_, rfl, inv.setCpu ?_⟩
      rw [here] at fits ⊢
      exact ⟨fits.noff_eq, by simp, fits.proc_eq⟩
    next => exact .inl rfl
  | timer fromUser =>
    simp only [Kernel.exec]
    split
    next here =>
      split_ifs
      · exact .inr ⟨_, rfl, inv.timer build fromUser here⟩
      · exact .inl rfl
    next => exact .inl rfl
  | kill | alloc | start | reap | setTickets | sleep | exit =>
    simp only [Kernel.exec]
    split
    next here => exact inv.syscall build here _
    next => exact .inl rfl

/-! ## Main result -/

theorem Inv.step {label : Core × Action} (inv : kernel.Inv)
    (stepped : kernel.Step build label after) : after.Inv := by
  rcases inv.exec build label.1 label.2 with blocked | ⟨next, done, kept⟩
  · rw [Step, blocked] at stepped
    cases stepped
  · rw [Step, done] at stepped
    cases stepped
    exact kept

/-- In every interleaving, while the lock of a process is free the process is `RUNNING` exactly if
one CPU has it as its `c->proc`, no CPU's `c->proc` is a process in another state, and no
further step of any CPU panics, in `sched()` or in the lock functions. -/
theorem runs_on_one_cpu {start finish : Kernel Core} {labels : List (Core × Action)}
    (initial : start.Initial) (run : Run (Step .default) start labels finish) :
    (∀ slot, finish.owner slot = none →
      ((finish.table slot).state = .running ↔ ∃! core, (finish.cpu core).proc = some slot) ∧
      ∀ core, (finish.cpu core).proc = some slot → (finish.table slot).state = .running) ∧
    ∀ core action cause, finish.exec .default core action ≠ .error (.panic cause) := by
  have inv : finish.Inv := run.invariant (fun _ _ _ inv stepped => inv.step stepped) initial.inv
  constructor
  · intro slot free
    have runs : ∀ core, (finish.cpu core).proc = some slot → (finish.pc core).runs = some slot := by
      intro core proc
      rw [(inv.fits core).proc_eq] at proc
      refine (Pc.runs_or_held proc).resolve_right fun held => ?_
      rw [← inv.owner_iff, free] at held
      cases held
    have running : ∀ core, (finish.cpu core).proc = some slot →
        (finish.table slot).state = .running := fun core proc =>
      (inv.running_iff slot).mpr ⟨core, runs core proc⟩
    refine ⟨⟨fun state => ?_, fun ⟨core, proc, _⟩ => running core proc⟩, running⟩
    obtain ⟨core, here⟩ := (inv.running_iff slot).mp state
    have proc := Pc.proc_of_runs here
    refine ⟨core, (inv.fits core).proc_eq.trans proc, fun other there => ?_⟩
    exact inv.unique slot other core (Pc.proc_of_runs (runs other there)) proc
  · intro core action cause panics
    rcases inv.exec .default core action with blocked | ⟨after, done, -⟩
    · rw [blocked] at panics
      cases panics
    · rw [done] at panics
      cases panics

theorem boot_initial (Core : Type) (build : Scheduler) : (boot Core build).Initial where
  free := fun _ => rfl
  scanning := fun _ => ⟨[], rfl⟩
  idle := fun _ => ⟨rfl, rfl⟩
  stopped := by
    intro slot
    simp only [boot]
    split_ifs <;> simp [Proc.start]

/-- One of two CPUs picks the first process while the other goes round the table. -/
def picking : List (Fin 2 × Action) :=
  [(0, .proceed 0), (1, .proceed 0), (0, .proceed 0), (0, .proceed 0), (1, .proceed 0)]

theorem runs_on_one_cpu_picking : ∃ finish,
    Run (Step .default) (boot (Fin 2) .default) picking finish ∧
    (finish.owner 0 = none ∧ (finish.table 0).state = .running) ∧
    ∃! core, (finish.cpu core).proc = some 0 :=
  Run.exists_and_of_runAll (fun _ _ _ => ok_of_mem_toOption) (by decide +kernel)
    fun _ run here => ((runs_on_one_cpu (boot_initial _ _) run).1 0 here.1).1.mp here.2

end Kernel

end Xv6.RoundRobin
