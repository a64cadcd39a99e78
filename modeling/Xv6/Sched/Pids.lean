import Xv6.Sched.Sections

/-!
# Process identifiers

`allocpid` hands out the values of one `int` that is never reset.  As long as it has not wrapped,
the processes in use have different positive pids.
-/

namespace Xv6.Builds.Kernel

open Function Transition

variable {Core : Type} [DecidableEq Core] {kernel after : Kernel Core} {core : Core}
  {build : Scheduler} {action : Action} {slot : Slot}

/-- `nextpid`, an `int`, after a step: only `allocpid` changes it. -/
def nextpidAfter (kernel : Kernel Core) : Action → Int
  | .alloc _ _ => (kernel.nextpid + 1).bmod (2 ^ 32)
  | _ => kernel.nextpid

/-- One step of one CPU in which `nextpid + 1` wraps. -/
def wrapExec (build : Scheduler) (kernel : Kernel Core) (label : Core × Action) :
    Option (Kernel Core) :=
  (kernel.exec build label.1 label.2).map fun next =>
    { next with nextpid := kernel.nextpidAfter label.2 }

def WrapStep (build : Scheduler) (before : Kernel Core) (label : Core × Action)
    (after : Kernel Core) : Prop :=
  before.wrapExec build label = some after

/-- The process is in use. -/
def Used (kernel : Kernel Core) (slot : Slot) : Prop := (kernel.procs slot).state ≠ .unused

/-- Every process in use has a positive pid of its own. -/
structure Identified (kernel : Kernel Core) : Prop where
  positive : ∀ slot, kernel.Used slot → 0 < (kernel.procs slot).pid
  distinct : ∀ one two, kernel.Used one → kernel.Used two →
    (kernel.procs one).pid = (kernel.procs two).pid → one = two

/-- No process is made once the counter has wrapped. -/
def Unwrapped (kernel : Kernel Core) (label : Core × Action) : Prop :=
  ∀ child fits, label.2 = .alloc child fits → 0 < kernel.nextpid

instance (kernel : Kernel Core) (label : Core × Action) : Decidable (kernel.Unwrapped label) :=
  inferInstanceAs (Decidable (∀ _ _, _ → _))

omit [DecidableEq Core] in
/-- A process in use keeps its pid, or has just been made. -/
theorem Wrote.pid {before proc : Proc} (wrote : Wrote build kernel slot before action proc)
    (used : proc.state ≠ .unused) : before.state ≠ .unused ∧ proc.pid = before.pid ∨
      (∃ fits, action = .alloc slot fits) ∧ proc.pid = kernel.nextpid := by
  cases wrote with
  | other keeps state =>
    refine .inl ⟨?_, congrArg Signals.pid keeps⟩
    obtain ⟨same, -⟩ | ⟨was, -⟩ := state
    · exact same ▸ used
    · exact was
  | dispatch keeps runnable => exact .inl ⟨by simp [runnable], congrArg Signals.pid keeps⟩
  | updTime =>
    refine .inl ⟨by simpa using used, ?_⟩
    unfold Proc.updTime
    split_ifs <;> rfl
  | wakeup =>
    refine .inl ⟨fun unused => used ?_, by simp⟩
    simp [Proc.wakeup_state, unused]
  | @alloc tickets fits =>
    rw [Proc.forked_state] at used
    refine .inr ⟨⟨fits, rfl⟩, ?_⟩
    cases fits with
    | false => simp at used
    | true =>
      simp only [Proc.forked, Proc.alloc, if_true]
      split_ifs <;> rfl
  | kill =>
    refine .inl ⟨fun unused => used ?_, by simp⟩
    simp [Proc.kill_state, unused]
  | setKilled running => exact .inl ⟨by simp [running], rfl⟩
  | setPriority =>
    rw [Builds.setPriority, refreshPriority_eq] at used ⊢
    exact .inl ⟨used, rfl⟩
  | reap => exact (used rfl).elim

/-- The pids in use are below the counter until it wraps. -/
structure Numbered (kernel : Kernel Core) : Prop where
  sound : kernel.Sound
  identified : kernel.Identified
  below : 0 < kernel.nextpid → ∀ slot, kernel.Used slot → (kernel.procs slot).pid < kernel.nextpid
  small : kernel.nextpid < 2 ^ 31

omit [DecidableEq Core] in
theorem nextpidAfter_cases (kernel : Kernel Core) (action : Action) :
    kernel.nextpidAfter action = kernel.nextpid ∧ (∀ child fits, action ≠ .alloc child fits) ∨
      (∃ child fits, action = .alloc child fits) ∧
        kernel.nextpidAfter action = (kernel.nextpid + 1).bmod (2 ^ 32) := by
  cases action <;> simp [nextpidAfter]

theorem Numbered.step {label : Core × Action} (numbered : kernel.Numbered)
    (unwrapped : kernel.Unwrapped label) (fresh : kernel.Fresh build label)
    (wrapped : kernel.WrapStep build label after) : after.Numbered := by
  obtain ⟨core, action⟩ := label
  obtain ⟨next, stepped, rfl⟩ := Option.map_eq_some_iff.mp wrapped
  have pids : ∀ slot, next.Used slot →
      kernel.Used slot ∧ (next.procs slot).pid = (kernel.procs slot).pid ∨
        (∃ fits, action = .alloc slot fits) ∧ (next.procs slot).pid = kernel.nextpid :=
    fun slot => ((numbered.sound.event ⟨fresh, stepped⟩).wrote_all slot).pid
  have identified := numbered.identified
  refine ⟨{ numbered.sound.step ⟨fresh, stepped⟩ with },
    ⟨fun slot used => ?_, fun one two used used' same => ?_⟩, fun positive slot used => ?_, ?_⟩
  · obtain ⟨was, pid⟩ | ⟨⟨fits, made⟩, pid⟩ := pids slot used
    · exact pid ▸ identified.positive slot was
    · exact pid ▸ unwrapped slot fits made
  · have apart : ∀ old new fits, kernel.Used old → action = .alloc new fits →
        (kernel.procs old).pid ≠ kernel.nextpid :=
      fun old new fits was made => (numbered.below (unwrapped new fits made) old was).ne
    obtain ⟨was, pid⟩ | ⟨⟨fits, made⟩, pid⟩ := pids one used <;>
      obtain ⟨was', pid'⟩ | ⟨⟨fits', made'⟩, pid'⟩ := pids two used'
    · exact identified.distinct one two was was' (pid.symm.trans (same.trans pid'))
    · exact (apart one two fits' was made' (pid.symm.trans (same.trans pid'))).elim
    · exact (apart two one fits was' made (pid'.symm.trans (same.symm.trans pid))).elim
    · cases made.symm.trans made'
      rfl
  · change 0 < kernel.nextpidAfter action at positive
    change (next.procs slot).pid < kernel.nextpidAfter action
    rcases nextpidAfter_cases kernel action with ⟨counter, other⟩ | ⟨⟨child, fits, made⟩, counter⟩
    · rw [counter] at positive ⊢
      obtain ⟨was, pid⟩ | ⟨⟨fits, made⟩, -⟩ := pids slot used
      · exact pid ▸ numbered.below positive slot was
      · exact (other slot fits made).elim
    · have counting := unwrapped child fits made
      have small := numbered.small
      have bound : (next.procs slot).pid ≤ kernel.nextpid := by
        obtain ⟨was, pid⟩ | ⟨-, pid⟩ := pids slot used
        · exact pid ▸ (numbered.below counting slot was).le
        · exact pid.le
      rw [counter, Int.bmod_def] at positive ⊢
      split_ifs at positive ⊢ <;> omega
  · rcases nextpidAfter_cases kernel action with ⟨counter, -⟩ | ⟨-, counter⟩
    · exact counter ▸ numbered.small
    · exact counter ▸ Int.bmod_lt (by decide)

omit [DecidableEq Core] in
theorem Numbered.boot (build : Scheduler) : (boot Core build).Numbered := by
  have first : ∀ slot, (Kernel.boot Core build).Used slot → slot = 0 := by
    intro slot used
    by_contra other
    simp [Used, procs, Kernel.boot, other] at used
  have pid : ((Kernel.boot Core build).procs 0).pid = 1 := by
    cases build <;> rfl
  refine ⟨.boot build, ⟨fun slot used => ?_, fun one two used used' _ => ?_⟩,
    fun _ slot used => ?_, show (2 : Int) < 2 ^ 31 by decide⟩
  · rw [first slot used, pid]
    decide
  · rw [first one used, first two used']
  · rw [first slot used, pid]
    exact show (1 : Int) < 2 by decide

/-- Until the counter wraps, and while the FCFS scheduler has no stale candidate, every process in
use has a positive pid of its own. -/
theorem live_pids_distinct (build : Scheduler) {labels : List (Core × Action)}
    {finish : Kernel Core} (run : Run (Guarded Unwrapped (Guarded (Fresh build) (WrapStep build)))
      (boot Core build) labels finish) : finish.Identified := by
  have numbered : finish.Numbered :=
    run.invariant (fun _ _ _ numbered taken => numbered.step taken.1 taken.2.1 taken.2.2)
      (.boot build)
  exact numbered.identified

/-- On the first of two CPUs the first process forks twice.  The scheduler of the second CPU finds
the first child, which forks too. -/
def forking : List (Bool × Action) :=
  List.replicate 65 (false, .schedule 0) ++
    [(false, .alloc 1 true), (false, .adopt 1), (false, .start 1)] ++
    List.replicate 65 (true, .schedule 0) ++ [(true, .alloc 2 true), (false, .alloc 3 true)]

theorem live_pids_distinct_forking : ∃ finish,
    Run (Guarded Unwrapped (Guarded (Fresh .fcfs) (WrapStep .fcfs))) (boot Bool .fcfs) forking
      finish ∧
    ((finish.procs 0).pid = 1 ∧ (finish.procs 1).pid = 2 ∧ (finish.procs 2).pid = 3 ∧
      (finish.procs 3).pid = 4 ∧ (finish.procs 3).state = .used) ∧ finish.Identified :=
  Run.exists_and_of_guardedExec (Run.guarded_of_exec fun _ _ _ => id) (by decide +kernel)
    fun _ run _ => live_pids_distinct .fcfs run

/-- The first process runs, and `fork` has failed in slot 1 when `nextpid` was one less. -/
def counting (nextpid : Int) : Kernel Unit where
  table := fun slot =>
    if slot = 0 then { proc := { (({} : Proc).alloc .default 0 1) with state := .running } }
    else if slot = 1 then { proc := ({} : Proc).forked .default 0 0 0 false } else {}
  pos := fun _ => .run 0 (.scan allSlots.tail none)
  ticks := 0
  nextpid := nextpid
  initproc := 0

theorem counting_step (nextpid : Int) : (counting nextpid).WrapStep .default ((), .alloc 1 false)
      (counting ((nextpid + 1).bmod (2 ^ 32))) := by
  refine congrArg some (Kernel.ext ?_ rfl rfl rfl rfl)
  funext slot
  obtain rfl | other := eq_or_ne slot 1
  · rfl
  · exact update_of_ne other _ _

theorem counting_run (count : Nat) : ∃ labels, Run (WrapStep .default) (boot Unit .default) labels
    (counting ((3 + count : Int).bmod (2 ^ 32))) := by
  induction count with
  | zero =>
    have forks : runAll (wrapExec .default) (boot Unit .default)
        [((), .schedule 0), ((), .alloc 1 false)] = some (counting 3) := by
      refine congrArg some (Kernel.ext (funext ?_) (funext ?_) rfl rfl rfl) <;> decide +kernel
    exact ⟨_, .of_runAll (fun _ _ _ => id) forks⟩
  | succ count ih =>
    obtain ⟨labels, run⟩ := ih
    have next := counting_step ((3 + count : Int).bmod (2 ^ 32))
    rw [Int.bmod_add_bmod, add_assoc] at next
    exact ⟨_, run.snoc next⟩

/-- After 2 ^ 32 failed calls of `fork` a child gets the pid of the first process. -/
theorem pid_reused : ∃ labels, ∃ finish : Kernel Unit,
    Run (WrapStep .default) (boot Unit .default) labels finish ∧ finish.Used 0 ∧ finish.Used 1 ∧
    (finish.procs 0).pid = (finish.procs 1).pid ∧ ¬ finish.Identified := by
  obtain ⟨labels, run⟩ := counting_run (2 ^ 32 - 2)
  have first : ((3 + (2 ^ 32 - 2 : Nat) : Int)).bmod (2 ^ 32) = 1 := by decide
  rw [first] at run
  have forked : ∃ finish ∈ (counting 1).wrapExec .default ((), .alloc 1 true),
      (finish.procs 0).state = .running ∧ (finish.procs 1).state = .used ∧
        (finish.procs 0).pid = (finish.procs 1).pid := by
    decide +kernel
  obtain ⟨finish, forked, running, used, same⟩ := forked
  have isUsed : finish.Used 0 ∧ finish.Used 1 := by simp [Used, running, used]
  refine ⟨_, finish, run.snoc forked, isUsed.1, isUsed.2, same, fun identified => ?_⟩
  exact absurd (identified.distinct 0 1 isUsed.1 isUsed.2 same) (by decide)

end Xv6.Builds.Kernel
