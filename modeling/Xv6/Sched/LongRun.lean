import Xv6.Sched.Sections

/-!
# The process table in the long run

What holds of the entries after every run of every build.  `set_priority` checks the range of a
static priority once; here it is followed to what `calculateDynamicPriority` makes of it.  Nothing
writes the start of a sleep, so `wakeup` never counts one.
-/

namespace Xv6

/-- The counters of the time since the last dispatch that `calculateDynamicPriority` looks at.  The
PBS scheduler clears them; `kill` stores a sleep in the first, and `wakeup` never does, since
`sleepStartTime` stays 0. -/
def Proc.times (proc : Proc) : UInt32 × UInt32 := (proc.sleepTimePrev, proc.runTimePrev)

namespace Builds.Kernel

open Transition

variable {Core : Type} {kernel finish : Kernel Core} {slot : Slot} {build : Scheduler}
  {action : Action} {labels : List (Core × Action)}

/-- The static priority is one that `set_priority` would store, and no sleep was ever counted. -/
structure Regular (proc : Proc) : Prop where
  sprior_le : proc.sprior ≤ 100
  unstarted : proc.sleepStartTime = 0
  uncounted : proc.totalSleep = 0

theorem Regular.of_signals {before proc : Proc} (was : Regular before)
    (keeps : proc.signals = before.signals) : Regular proc := by
  simp only [Proc.signals, Signals.mk.injEq] at keeps
  obtain ⟨-, -, sprior, start, total⟩ := keeps
  exact ⟨sprior ▸ was.sprior_le, start ▸ was.unstarted, total ▸ was.uncounted⟩

/-- A wakeup leaves the times of a process with no start of its sleep alone. -/
theorem Regular.wakeup {proc : Proc} (was : Regular proc) (build : Scheduler) (ticks : UInt32)
    (chan : Chan) : (proc.wakeup build ticks chan).signals = proc.signals ∧
      (proc.wakeup build ticks chan).times = proc.times := by
  by_cases asleep : proc.state = .sleeping ∧ proc.chan = some chan
  · cases build <;> simp [Proc.wakeup, Proc.signals, Proc.times, asleep, was.unstarted]
  · simp [Proc.wakeup, asleep]

theorem Wrote.regular {before proc : Proc} (wrote : Wrote build kernel slot before action proc)
    (was : Regular before) : Regular proc := by
  cases wrote with
  | other keeps | dispatch keeps => exact was.of_signals keeps
  | updTime | kill =>
    simp only [Proc.updTime, Proc.kill]
    split_ifs <;> exact { was with }
  | wakeup => exact was.of_signals (was.wakeup ..).1
  | alloc =>
    have sixty : (60 : UInt32) ≤ 100 := by decide
    simp only [Proc.forked, Proc.alloc, Proc.free]
    split_ifs <;> exact ⟨sixty, rfl, was.uncounted⟩
  | setKilled | reap => exact { was with }
  | @setPriority prior =>
    have range : ∀ prior : Fin 101, UInt32.ofNat prior ≤ 100 := by decide
    rw [Builds.setPriority, refreshPriority_eq]
    exact { was with sprior_le := range prior }

/-- The entries after a run. -/
structure Settled (kernel : Kernel Core) : Prop extends kernel.Sound where
  regular : ∀ slot, Regular (kernel.procs slot)

variable [DecidableEq Core]

theorem Settled.run (run : Run (FreshStep build) (boot Core build) labels finish) :
    finish.Settled := by
  refine run.invariant (fun before label after settled stepped => ?_) ⟨.boot build, fun slot => ?_⟩
  · refine ⟨settled.toSound.step stepped, fun slot => ?_⟩
    exact ((settled.toSound.event stepped).wrote_all slot).regular (settled.regular slot)
  · have low : (0 : UInt32) ≤ 100 ∧ (60 : UInt32) ≤ 100 := by decide
    simp only [procs, boot, Proc.start, Proc.alloc]
    split_ifs
    exacts [⟨low.2, rfl, rfl⟩, ⟨low.2, rfl, rfl⟩, ⟨low.1, rfl, rfl⟩]

/-- In every build the process on a CPU is `RUNNING` and on no other CPU, and an `UNUSED` entry is
as `freeproc` leaves it, as long as the FCFS scheduler has no stale candidate. -/
theorem table_sound (run : Run (FreshStep build) (boot Core build) labels finish) (slot : Slot) :
    (∀ core, (finish.pos core).myproc = some slot → (finish.procs slot).state = .running ∧
      ∀ other, (finish.pos other).myproc = some slot → other = core) ∧
    ((finish.procs slot).state = .unused → Blank (finish.procs slot)) := by
  have sound := (Settled.run run).toSound
  refine ⟨fun core here => ⟨sound.running core slot here, fun other there => ?_⟩, sound.blank slot⟩
  exact sound.unique slot other core there here

/-- The first process forks on one CPU, and the scheduler of the other dispatches the child while
the first goes on. -/
def twoCpus : List (Bool × Action) :=
  List.replicate 65 (false, .schedule 0) ++
    [(false, .alloc 1 true), (false, .adopt 1), (false, .start 1)] ++
    List.replicate 65 (true, .schedule 0) ++ [(false, .updTime 0), (false, .updTime 1)]

theorem table_sound_twoCpus : ∃ finish,
    Run (FreshStep .fcfs) (boot Bool .fcfs) twoCpus finish ∧
    ((finish.pos false).myproc = some 0 ∧ (finish.pos true).myproc = some 1) ∧
    (finish.procs 0).state = .running ∧ (finish.procs 1).state = .running ∧
    (finish.pos true).myproc ≠ some 0 :=
  Run.exists_and_of_guardedExec (fun _ _ _ => id) (by decide +kernel) fun finish run here =>
    have first := (table_sound run 0).1 false here.1
    ⟨first.1, ((table_sound run 1).1 true here.2).1, fun both => nomatch first.2 true both⟩

/-- In every run every static priority is at most 100, `wakeup` counts no sleep, and the dynamic
priority of a process whose counters of the time since its dispatch are not both 0 is its static
one. -/
theorem dprior_static (run : Run (FreshStep build) (boot Core build) labels finish) (slot : Slot) :
    (finish.procs slot).sprior ≤ 100 ∧ (finish.procs slot).totalSleep = 0 ∧
    (∀ chan, ((finish.procs slot).wakeup build finish.ticks chan).times =
      (finish.procs slot).times) ∧
    ((finish.procs slot).times ≠ (0, 0) →
      (refreshPriority (finish.procs slot)).dprior = (finish.procs slot).sprior) := by
  have regular := (Settled.run run).regular slot
  refine ⟨regular.sprior_le, regular.uncounted, fun chan => (regular.wakeup ..).2,
    fun some_time => ?_⟩
  rw [refreshPriority, calculateDynamicPriority_eq regular.sprior_le fun none => some_time ?_]
  · have small := (finish.procs slot).sprior.toNat_lt
    simp only [UInt32.ofInt]
    rw [Int.emod_eq_of_lt (by omega) (by omega), Int.toNat_natCast, UInt32.ofNat_toNat]
  · simp [Proc.times, none]

/-- The first process runs for a tick, takes another static priority and sleeps for a tick. -/
def sleeping : List (Unit × Action) :=
  List.replicate 65 ((), .schedule 0) ++
    [((), .tick), ((), .updTime 0), ((), .setPriority 0 30), ((), .sleep .ticks), ((), .tick),
      ((), .updTime 0), ((), .wakeup 0 .ticks)]

theorem dprior_static_sleeping : ∃ finish,
    Run (FreshStep .pbs) (boot Unit .pbs) sleeping finish ∧ (finish.procs 0).times = (0, 1) ∧
    (finish.procs 0).totalSleep = 0 ∧ (refreshPriority (finish.procs 0)).dprior = 30 := by
  have done : ∃ finish ∈ runAll (guardedExec (Fresh .pbs) fun kernel label =>
      kernel.exec .pbs label.1 label.2) (boot Unit .pbs) sleeping,
      (finish.procs 0).times = (0, 1) ∧ (finish.procs 0).sprior = 30 := by
    decide +kernel
  obtain ⟨finish, executed, ran, sprior⟩ := done
  have run : Run (FreshStep .pbs) (boot Unit .pbs) sleeping finish :=
    .of_guardedExec (fun _ _ _ => id) executed
  obtain ⟨-, uncounted, -, static⟩ := dprior_static run 0
  exact ⟨finish, run, ran, uncounted, (static (by simp [ran])).trans sprior⟩

end Builds.Kernel

end Xv6
