import Xv6.Log.Commit

/-!
# Crash atomicity

After recovery the blocks outside the log hold exactly the committed
transactions.  The statement speaks about the steps of a run only: the writes of
the file system code between two commit points form a transaction, and the first
`write_head` of a commit is its commit point.
-/

namespace Xv6.Log

open Transition State AtomicStore List

/-- The machine as it is switched on. -/
def State.powerOn (disk : BlockNo → Block) : State := { disk }

/-- A disk with nothing in its log, such as `mkfs` writes. -/
def LogEmpty (geometry : Geometry) (disk : BlockNo → Block) : Prop :=
  headerBlocks (disk geometry.header) = []

variable {geometry : Geometry} {base : BlockNo → Block} {actions : List Action} {action : Action}
  {state after : State}

theorem powerOn_inv (empty : LogEmpty geometry base) :
    StoreInv geometry base [] (powerOn base) where
  admission := ⟨rfl, fun _ _ => rfl, fun _ => rfl, rfl, nodup_nil,
    by simp [powerOn], by simp [powerOn], geometry.size_pos⟩
  phase := by
    refine ⟨fun _ _ => rfl, by simp [CacheClean, powerOn], ?_⟩
    rw [diskHeader, powerOn, empty]
    exact recoverable_nil fun _ _ => rfl

/-! ## Counting commits -/

/-- The step is the commit point of a transaction. -/
def Action.isCommitPoint : Action → Bool
  | .writeHead => true
  | _ => false

/-- The step ends the `commit` of a transaction. -/
def Action.isCommitEnd : Action → Bool
  | .clearHead => true
  | _ => false

theorem committed_length (actions : List Action) :
    (store actions).committed.length = actions.countP Action.isCommitPoint := by
  induction actions using reverseRecOn with
  | nil => rfl
  | append_singleton actions action ih =>
    rw [store_append, countP_append, ← ih]
    cases action <;>
      simp [Action.event, Action.isCommitPoint, AtomicStore.State.step]

/-- A commit that is past its commit point has not been counted as ended. -/
def installing : Phase → Nat
  | .up (.install _) => 1
  | _ => 0

/-- Only `writeHead` starts installing a transaction, and `clearHead` ends it. -/
theorem installing_step {before after : State} (stepped : before.Step geometry action after) :
    (action.isCommitEnd = true → installing before.phase = 1 ∧ installing after.phase = 0) ∧
      (action.isCommitPoint = false → installing after.phase ≤ installing before.phase) := by
  have effect := stepped.effect
  cases action with
  | crash => simp [Action.isCommitEnd, effect.2.2, installing]
  | readHead => simp [Action.isCommitEnd, effect.2.2.2, installing]
  | recoverInstall =>
    obtain ⟨-, -, tail, -, phase_eq⟩ := effect
    simp [Action.isCommitEnd, phase_eq, installing]
  | recoverClear | writeLog =>
    obtain ⟨-, -, -, tail, -, phase_eq⟩ := effect
    simp [Action.isCommitEnd, phase_eq, installing]
  | beginOp pid => simp [Action.isCommitEnd, effect.2.1]
  | endOp pid =>
    rcases effect.2.2.2.2 with same | started | finished
    · simp [Action.isCommitEnd, same]
    · simp [Action.isCommitEnd, started, installing]
    · simp [Action.isCommitEnd, finished, installing]
  | logWrite pid block => simp [Action.isCommitEnd, effect.1]
  | bread | modify | brelse | evict => simp [Action.isCommitEnd, effect.2.2.2]
  | writeHead => simp [Action.isCommitEnd, Action.isCommitPoint]
  | install | clearHead =>
    obtain ⟨-, -, -, tail, before_eq, phase_eq⟩ := effect
    simp [Action.isCommitEnd, before_eq, phase_eq, installing]
  | finishCommit => simp [Action.isCommitEnd, effect.2.2.2.2, installing]

/-- No more commits have ended than have reached their commit point. -/
theorem run_commitEnd_le {start state : State} (run : Run (Step geometry) start actions state) :
    actions.countP Action.isCommitEnd + installing state.phase ≤
      actions.countP Action.isCommitPoint + installing start.phase := by
  induction run with
  | nil => simp
  | @snoc middle finish actions action _ stepped ih =>
    obtain ⟨ends, keeps⟩ := installing_step stepped
    simp only [countP_append, countP_singleton]
    cases point : action.isCommitPoint with
    | true =>
      have notEnd : action.isCommitEnd = false := by
        cases action <;> first | rfl | cases point
      have small : installing finish.phase ≤ 1 := by
        unfold installing
        split <;> simp
      simp only [notEnd, Bool.false_eq_true, ↓reduceIte]
      omega
    | false =>
      have later := keeps point
      cases ending : action.isCommitEnd with
      | true =>
        have stopped := ends ending
        simp only [Bool.false_eq_true, ↓reduceIte]
        omega
      | false =>
        simp only [Bool.false_eq_true, ↓reduceIte]
        omega

/-! ## Running recovery again -/

/-- A crash or a step of recovery. -/
def Action.isRecovery : Action → Bool
  | .crash | .readHead | .recoverInstall | .recoverClear => true
  | _ => false

/-- Recovery has nothing to do on this disk. -/
structure Recovered (geometry : Geometry) (disk : BlockNo → Block) (state : State) : Prop where
  disk_eq : state.disk = disk
  clean : CacheClean state
  lh_eq : ∀ tail, state.phase = .recover (.install tail) → state.lh = []

theorem setHeader_nil_idem (block : Block) :
    setHeader (setHeader block []) [] = setHeader block [] := by
  funext index
  simp only [setHeader, getD_nil]
  split <;> rfl

theorem Recovered.step {disk : BlockNo → Block} {block : Block}
    (cleared : disk geometry.header = setHeader block [])
    (recovered : Recovered geometry disk state) (recovery : action.isRecovery = true)
    (stepped : state.Step geometry action after) :
    Recovered geometry disk after := by
  unfold State.Step exec at stepped
  cases action with
  | crash =>
    cases stepped
    exact ⟨recovered.disk_eq, by simp [CacheClean, crash], fun _ _ => rfl⟩
  | readHead =>
    simp only [readHead] at stepped
    split at stepped
    next =>
      cases stepped
      refine ⟨recovered.disk_eq, ?_, ?_⟩
      · exact recovered.clean.setBuf (recovered.clean.buf _)
      · intro tail _
        simp [recovered.clean.buf, recovered.disk_eq, cleared, headerBlocks_setHeader_nil]
    next => cases stepped
  | recoverInstall =>
    simp only [recoverInstall] at stepped
    split at stepped
    next tail here =>
      simp [recovered.lh_eq tail here] at stepped
    next => cases stepped
  | recoverClear =>
    simp only [recoverClear] at stepped
    split at stepped <;> [rename_i tail here; cases stepped]
    split at stepped <;> [skip; cases stepped]
    obtain ⟨middle, written, rfl⟩ := ok_of_map stepped
    obtain ⟨buf, data_eq, rfl⟩ := writeHeader_ok written
    have same : buf.data = disk geometry.header := by
      rw [data_eq, (recovered.clean.setLh []).buf, setLh_disk, recovered.disk_eq,
        cleared, setLh_lh, setHeader_nil_idem]
    refine ⟨?_, ?_, ?_⟩
    · simp [same, recovered.disk_eq]
    · exact (recovered.clean.setLh []).bwrite _ buf
    · intro later recovering
      cases recovering
  | beginOp | endOp | bread | modify | logWrite | brelse | evict | writeLog | writeHead |
    install | clearHead | finishCommit => cases recovery

/-- The end of recovery, as it leaves the disk. -/
theorem recoverClear_recovered {durable current : BlockNo → Block}
    (inv : Inv geometry durable current state) (stepped : state.Step geometry .recoverClear after) :
    Recovered geometry after.disk after ∧
      ∃ block, after.disk geometry.header = setHeader block [] := by
  simp only [State.Step, exec, recoverClear] at stepped
  split at stepped <;> [rename_i tail here; cases stepped]
  split at stepped <;> [skip; cases stepped]
  obtain ⟨middle, written, rfl⟩ := ok_of_map stepped
  obtain ⟨buf, data_eq, rfl⟩ := writeHeader_ok written
  have phase := inv.phase
  rw [here] at phase
  refine ⟨⟨rfl, ?_, ?_⟩, ((state.setLh []).buf geometry.header).data, ?_⟩
  · exact (CacheClean.setLh phase.2.1 []).bwrite _ buf
  · intro later recovering
    cases recovering
  · simpa using data_eq

/-! ## Main result -/

/-- Whenever recovery completes, each block outside the log holds its contents
after the committed transactions, which are as many as there were commit points
and include every commit that ended; and any further crashes and recoveries
leave the disk as it is. -/
theorem recovery_atomic (geometry : Geometry) (base : BlockNo → Block)
    (empty : LogEmpty geometry base) (actions : List Action) (finish : State)
    (run : Run (Step geometry) (powerOn base) (actions ++ [.recoverClear]) finish) :
    (∀ block, geometry.Home block →
      finish.disk block = contentsAfter base (store actions).committed block) ∧
    (store actions).committed.length = actions.countP Action.isCommitPoint ∧
    actions.countP Action.isCommitEnd ≤ actions.countP Action.isCommitPoint ∧
    ∀ again later, (∀ action ∈ again, action.isRecovery = true) →
      Run (Step geometry) finish again later → later.disk = finish.disk := by
  generalize performed : actions ++ [Action.recoverClear] = all at run
  cases run with
  | nil => simp at performed
  | @snoc before _ earlier action run stepped =>
    obtain ⟨rfl, same⟩ := List.append_inj' performed rfl
    cases same
    have inv := run.historyInvariant (fun _ _ _ _ inv stepped => StoreInv.step inv stepped)
      (powerOn_inv empty)
    have invAfter : Inv geometry _ _ finish := inv.step stepped
    rw [store_append] at invAfter
    obtain ⟨recovered, block, cleared⟩ := recoverClear_recovered inv stepped
    refine ⟨?_, committed_length actions, ?_, ?_⟩
    · obtain ⟨-, -, -, tail, -, idle⟩ := stepped.effect
      have phase := invAfter.phase
      rw [idle] at phase
      exact phase.2.2
    · have bound := run_commitEnd_le run
      simp only [powerOn, installing] at bound
      omega
    · intro again later allRecovery runAgain
      have kept : Recovered geometry finish.disk later :=
        runAgain.invariantOn (fun _ _ _ recovery before taken =>
          before.step cleared recovery taken) allRecovery recovered
      exact kept.disk_eq

/-! ## A commit that a crash interrupts -/

/-- A disk of zeroes. -/
def blank : BlockNo → Block := fun _ _ => 0

theorem blank_empty : LogEmpty .mkfs blank := rfl

/-- An operation writes block 100; the crash comes right after the commit point. -/
def interrupted : List Action :=
  [.readHead, .recoverClear, .beginOp 0, .bread 0 100, .modify 0 100 fun _ => 1,
    .logWrite 0 100, .brelse 0 100, .endOp 0, .writeLog, .writeHead, .crash, .readHead,
    .recoverInstall]

theorem recovery_atomic_interrupted : ∃ finish : State,
    Run (Step .mkfs) (powerOn blank) (interrupted ++ [.recoverClear]) finish ∧
    finish.disk 100 = fun _ => 1 := by
  have outcome : (runAll (State.tryExec .mkfs) (powerOn blank)
      (interrupted ++ [.recoverClear])).isSome = true := by
    decide +kernel
  obtain ⟨finish, performed⟩ := Option.isSome_iff_exists.mp outcome
  have run := Run.of_runAll (fun _ _ _ => step_of_tryExec) performed
  have atomic := recovery_atomic .mkfs blank blank_empty interrupted finish run
  exact ⟨finish, run, (atomic.1 100 (by decide)).trans rfl⟩

end Xv6.Log
