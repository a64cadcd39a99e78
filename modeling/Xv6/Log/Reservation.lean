import Xv6.Log.Crash

/-!
# Log space

`begin_op` admits an operation only when the log has room for `MAXOPBLOCKS` more
blocks per operation in progress, counted against `LOGSIZE`.  `log_write` counts
against the size of the log on the disk, one block of which is the header; with
the log that `mkfs` lays out its bound is smaller by one.
-/

namespace Xv6.Log

open Function Transition State Phase Finset List

/-- An operation logs at most `MAXOPBLOCKS` distinct blocks. -/
def State.WithinReservation (state : State) : Action → Prop
  | .logWrite pid block => (insert block (state.logged pid)).card ≤ MAXOPBLOCKS
  | _ => True

instance (state : State) : (action : Action) → Decidable (state.WithinReservation action)
  | .logWrite pid block =>
    inferInstanceAs (Decidable ((insert block (state.logged pid)).card ≤ MAXOPBLOCKS))
  | .crash | .readHead | .recoverInstall | .recoverClear | .beginOp _ | .endOp _ |
    .bread _ _ | .modify _ _ _ | .brelse _ _ | .evict _ | .writeLog | .writeHead | .install |
    .clearHead | .finishCommit => isTrue trivial

/-- The blocks logged since the last commit, after one more step. -/
def logStep (blocks : Finset BlockNo) : Action → Finset BlockNo
  | .logWrite _ block => insert block blocks
  | .clearHead | .crash => ∅
  | _ => blocks

/-- The distinct blocks that the operations have logged since the last commit. -/
def loggedSince (actions : List Action) : Finset BlockNo := actions.foldl logStep ∅

/-- The space that the operations in progress may still use. -/
def State.reserved (state : State) : Nat :=
  ∑ pid ∈ state.active, (MAXOPBLOCKS - (state.logged pid).card)

/-- The operations in progress fit into the log. -/
structure Reserved (state : State) : Prop where
  logged_subset : ∀ pid ∈ state.active, ∀ block ∈ state.logged pid, block ∈ state.lh
  room : state.phase.isUp = true → state.lh.length + state.reserved ≤ LOGSIZE

/-- The in-memory header lists the blocks logged since the last commit. -/
def Tracks (actions : List Action) (state : State) : Prop :=
  if state.phase.isUp then state.lh.toFinset = loggedSince actions else loggedSince actions = ∅

variable {before after : State} {state : State} {pid : Pid}

/-- Steps that keep the header and the operations keep what is reserved. -/
theorem Reserved.congr (reserved : Reserved before) (lh_eq : after.lh = before.lh)
    (active_eq : after.active = before.active) (logged_eq : after.logged = before.logged)
    (up : after.phase.isUp = true → before.phase.isUp = true) : Reserved after where
  logged_subset := by
    rw [active_eq, logged_eq, lh_eq]
    exact reserved.logged_subset
  room := by
    intro isUp
    rw [State.reserved, active_eq, logged_eq, lh_eq]
    exact reserved.room (up isUp)

/-- With no operation in progress nothing is reserved. -/
theorem reserved_of_quiet (quiet : state.active = ∅) (length_le : state.lh.length ≤ LOGSIZE) :
    Reserved state where
  logged_subset := by simp [quiet]
  room := fun _ => by simpa [reserved, quiet] using length_le

theorem Reserved.beginOp (reserved : Reserved before)
    (outstanding_eq : before.outstanding = before.active.card)
    (effect : before.Effect after (.beginOp pid)) : Reserved after := by
  obtain ⟨lh_eq, -, -, fresh, active_eq, logged_eq, room⟩ := effect
  have unchanged : ∀ other ∈ before.active,
      update before.logged pid ∅ other = before.logged other := by
    intro other member
    have ne : other ≠ pid := fun same => fresh (same ▸ member)
    exact update_of_ne ne ..
  constructor
  · intro other member block logged
    rw [active_eq, mem_insert] at member
    rw [lh_eq]
    rw [logged_eq] at logged
    rcases member with same | old
    · subst same
      simp at logged
    · rw [unchanged other old] at logged
      exact reserved.logged_subset other old block logged
  · intro _
    have rest : (∑ other ∈ before.active,
        (MAXOPBLOCKS - (update before.logged pid ∅ other).card)) ≤
          before.active.card * MAXOPBLOCKS := by
      simpa using sum_le_card_nsmul before.active
        (fun other => MAXOPBLOCKS - (update before.logged pid ∅ other).card)
        MAXOPBLOCKS (fun _ _ => Nat.sub_le _ _)
    rw [State.reserved, active_eq, logged_eq, lh_eq, sum_insert fresh,
      update_self, card_empty]
    rw [outstanding_eq, Nat.add_mul] at room
    omega

theorem Reserved.endOp (reserved : Reserved before) (up : before.phase.isUp = true)
    (effect : before.Effect after (.endOp pid)) :
    Reserved after := by
  obtain ⟨lh_eq, logged_eq, -, active_eq, -⟩ := effect
  constructor
  · intro other member
    rw [active_eq] at member
    rw [logged_eq, lh_eq]
    exact reserved.logged_subset other (mem_of_mem_erase member)
  · intro _
    have fewer : (∑ other ∈ before.active.erase pid,
        (MAXOPBLOCKS - (before.logged other).card)) ≤ before.reserved :=
      sum_le_sum_of_subset (erase_subset _ _)
    rw [State.reserved, active_eq, logged_eq, lh_eq]
    have := reserved.room up
    omega

/-- A new block is paid for by the reservation of the operation that logs it. -/
theorem Reserved.logWrite (reserved : Reserved before) (up : before.phase.isUp = true)
    {block : BlockNo} (within : before.WithinReservation (.logWrite pid block))
    (effect : before.Effect after (.logWrite pid block)) : Reserved after := by
  obtain ⟨-, active, active_eq, logged_eq, lh_eq⟩ := effect
  have member : block ∈ after.lh := by
    rw [lh_eq]
    split
    next absorbed => exact absorbed
    next => simp
  have kept : ∀ query ∈ before.lh, query ∈ after.lh := by
    intro query old
    rw [lh_eq]
    split
    next => exact old
    next => exact mem_append_left _ old
  constructor
  · intro other isActive query logged
    rw [active_eq] at isActive
    rw [logged_eq] at logged
    obtain rfl | own := eq_or_ne other pid
    · rw [update_self, mem_insert] at logged
      rcases logged with same | old
      · exact same ▸ member
      · exact kept query (reserved.logged_subset other isActive query old)
    · rw [update_of_ne own] at logged
      exact kept query (reserved.logged_subset other isActive query logged)
  · intro _
    have others : ∀ other ∈ before.active.erase pid,
        MAXOPBLOCKS - (update before.logged pid
          (insert block (before.logged pid)) other).card =
        MAXOPBLOCKS - (before.logged other).card := by
      intro other isOther
      rw [update_of_ne (ne_of_mem_erase isOther)]
    have sumBefore := add_sum_erase before.active
      (fun other => MAXOPBLOCKS - (before.logged other).card) active
    have room := reserved.room up
    rw [State.reserved, ← sumBefore] at room
    rw [State.reserved, active_eq, logged_eq, ← add_sum_erase _ _ active,
      sum_congr rfl others, update_self, lh_eq]
    simp only [State.WithinReservation] at within
    split
    next =>
      have grows := card_le_card (subset_insert block (before.logged pid))
      omega
    next fresh =>
      have notLogged : block ∉ before.logged pid := fun logged =>
        fresh (reserved.logged_subset pid active block logged)
      rw [card_insert_of_notMem notLogged] at within ⊢
      simp only [length_append, length_singleton]
      omega

variable {geometry : Geometry} {durable current : BlockNo → Block} {action : Action}

theorem Reserved.step (inv : Inv geometry durable current before)
    (invAfter : Admission geometry after) (reserved : Reserved before)
    (within : before.WithinReservation action) (stepped : before.Step geometry action after) :
    Reserved after := by
  have effect := stepped.effect
  have quietStep : after.active = before.active → before.phase ≠ .up .idle →
      Reserved after := fun active_eq busy =>
    reserved_of_quiet (active_eq.trans (inv.admission.quiet busy)) invAfter.length_le
  cases action with
  | crash => exact reserved_of_quiet effect.2.1 invAfter.length_le
  | readHead => exact quietStep effect.1 (by simp [effect.2.2.1])
  | recoverInstall =>
    obtain ⟨active_eq, -, tail, before_eq, -⟩ := effect
    exact quietStep active_eq (by simp [before_eq])
  | recoverClear | writeLog | writeHead | install | clearHead =>
    obtain ⟨-, active_eq, -, tail, before_eq, -⟩ := effect
    exact quietStep active_eq (by simp [before_eq])
  | finishCommit => exact quietStep effect.2.1 (by simp [effect.2.2.2.1])
  | beginOp pid => exact reserved.beginOp inv.admission.outstanding_eq effect
  | endOp pid =>
    have idle := inv.idle_of_active effect.2.2.1
    exact reserved.endOp (by rw [idle]; rfl) effect
  | logWrite pid block =>
    have idle := inv.idle_of_active effect.2.1
    exact reserved.logWrite (by rw [idle]; rfl) within effect
  | bread | modify | brelse | evict =>
    obtain ⟨lh_eq, active_eq, logged_eq, phase_eq⟩ := effect
    exact reserved.congr lh_eq active_eq logged_eq (by rw [phase_eq]; exact id)

variable {actions : List Action}

theorem Tracks.step (inv : Inv geometry durable current before) (tracks : Tracks actions before)
    (stepped : before.Step geometry action after) : Tracks (actions ++ [action]) after := by
  have effect := stepped.effect
  unfold Tracks at tracks ⊢
  rw [loggedSince, foldl_append, ← loggedSince, foldl_cons, foldl_nil]
  cases action with
  | crash => simp [effect.2.2, isUp, logStep]
  | readHead => simpa [effect.2.2.1, effect.2.2.2, isUp, logStep] using tracks
  | recoverInstall =>
    obtain ⟨-, -, tail, before_eq, after_eq⟩ := effect
    simpa [before_eq, after_eq, isUp, logStep] using tracks
  | recoverClear =>
    obtain ⟨lh_eq, -, -, tail, before_eq, after_eq⟩ := effect
    simp only [before_eq, isUp, Bool.false_eq_true, ↓reduceIte] at tracks
    simp [after_eq, lh_eq, isUp, logStep, tracks]
  | beginOp pid =>
    obtain ⟨lh_eq, phase_eq, -⟩ := effect
    simpa [lh_eq, phase_eq, logStep] using tracks
  | endOp pid =>
    obtain ⟨lh_eq, -, active, -, phases⟩ := effect
    have idle := inv.idle_of_active active
    have up : after.phase.isUp = true := by
      rcases phases with same | started | finished
      · rw [same, idle]
        rfl
      · rw [started]
        rfl
      · rw [finished]
        rfl
    simp only [idle, isUp, ↓reduceIte] at tracks
    simpa only [up, lh_eq, ↓reduceIte, logStep] using tracks
  | logWrite pid block =>
    obtain ⟨phase_eq, active, -, -, lh_eq⟩ := effect
    have idle := inv.idle_of_active active
    simp only [idle, isUp, ↓reduceIte] at tracks
    simp only [phase_eq, idle, isUp, ↓reduceIte, logStep, ← tracks, lh_eq]
    split
    next absorbed => simp [absorbed]
    next =>
      ext query
      simp
  | bread | modify | brelse | evict =>
    obtain ⟨lh_eq, -, -, phase_eq⟩ := effect
    simpa [lh_eq, phase_eq, logStep] using tracks
  | writeLog | writeHead | install =>
    obtain ⟨lh_eq, -, -, tail, before_eq, after_eq⟩ := effect
    simpa [lh_eq, before_eq, after_eq, isUp, logStep] using tracks
  | clearHead =>
    obtain ⟨lh_eq, -, -, tail, before_eq, after_eq⟩ := effect
    simp [lh_eq, after_eq, isUp, logStep]
  | finishCommit =>
    obtain ⟨lh_eq, -, -, before_eq, after_eq⟩ := effect
    simpa [lh_eq, before_eq, after_eq, isUp, logStep] using tracks

/-! ## Main results -/

/-- All invariants of the log along a run that keeps to the reservations. -/
structure RunInv (geometry : Geometry) (base : BlockNo → Block) (actions : List Action)
    (state : State) : Prop where
  inv : StoreInv geometry base actions state
  reserved : Reserved state
  tracks : Tracks actions state

theorem run_reserved {base : BlockNo → Block} (empty : LogEmpty geometry base)
    (run : Run (Guarded WithinReservation (Step geometry)) (powerOn base) actions state) :
    RunInv geometry base actions state := by
  apply run.historyInvariant
  · intro done before action after inv taken
    have next := inv.inv.step taken.2
    exact ⟨next, inv.reserved.step inv.inv next.admission taken.1 taken.2,
      inv.tracks.step inv.inv taken.2⟩
  · exact ⟨powerOn_inv empty, reserved_of_quiet rfl (by simp [powerOn]),
      by simp [Tracks, powerOn, isUp, loggedSince]⟩

/-- With the log that `mkfs` lays out, and operations that log at most
`MAXOPBLOCKS` distinct blocks each: the operations in progress fit into `LOGSIZE`
blocks, `log_write` panics exactly when `LOGSIZE - 1` distinct blocks have been
logged since the last commit, `end_op` does not panic, no operation is outstanding
during a commit, and the header lists no block twice. -/
theorem log_admission (base : BlockNo → Block) (empty : LogEmpty .mkfs base)
    (actions : List Action) (finish : State)
    (run : Run (Guarded WithinReservation (Step .mkfs)) (powerOn base) actions finish) :
    (finish.phase = .up .idle → finish.lh.length + finish.reserved ≤ LOGSIZE) ∧
    (∀ pid block, pid ∈ finish.active → Geometry.mkfs.Home block →
      (finish.buf block).holder = some pid →
      (finish.exec .mkfs (.logWrite pid block) = .error (.panic .tooBigTransaction) ↔
        LOGSIZE - 1 ≤ (loggedSince actions).card)) ∧
    (∀ pid, finish.exec .mkfs (.endOp pid) ≠ .error (.panic .committing)) ∧
    (finish.phase.committing = true → finish.outstanding = 0 ∧ finish.active = ∅) ∧
    finish.lh.Nodup := by
  obtain ⟨inv, reserved, tracks⟩ := run_reserved empty run
  have admission := inv.admission
  refine ⟨?_, ?_, ?_, ?_, admission.nodup⟩
  · intro idle
    exact reserved.room (by simp [idle, Phase.isUp])
  · intro pid block active home held
    have idle := inv.idle_of_active active
    simp only [Tracks, idle, Phase.isUp, ↓reduceIte] at tracks
    rw [← tracks, List.toFinset_card_of_nodup admission.nodup]
    have outstanding : ¬ finish.outstanding < 1 := by
      rw [admission.outstanding_eq, Nat.not_lt]
      exact Finset.card_pos.mpr ⟨pid, active⟩
    have bound : (LOGSIZE ≤ finish.lh.length ∨
        (Geometry.mkfs.size : Int) - 1 ≤ finish.lh.length) ↔
          LOGSIZE - 1 ≤ finish.lh.length := by
      simp only [Geometry.mkfs, LOGSIZE, MAXOPBLOCKS]
      omega
    simp only [State.exec, State.logWrite, active, home, held, and_self, ↓reduceIte, bound,
      outstanding]
    split
    next full => simp [full]
    next notFull =>
      simp only [notFull, iff_false]
      split <;> simp
  · intro pid panics
    simp only [State.exec, State.endOp] at panics
    split at panics
    next allowed =>
      have idle := inv.idle_of_active allowed.1
      have notCommitting : finish.committing = false := by
        rw [admission.committing_eq, idle]
        rfl
      simp only [notCommitting, Bool.false_eq_true, ↓reduceIte] at panics
      split at panics <;> cases panics
    next => cases panics
  · intro committing
    have busy : finish.phase ≠ .up .idle := by
      intro idle
      simp [idle, Phase.committing] at committing
    have nobody := admission.quiet busy
    exact ⟨by rw [admission.outstanding_eq, nobody, Finset.card_empty], nobody⟩

/-- One operation that logs `count` blocks from `first` on. -/
def logBlocks (pid : Pid) (first count : Nat) : List Action :=
  (List.range count).flatMap fun i =>
    [.bread pid (UInt32.ofNat (first + i)), .logWrite pid (UInt32.ofNat (first + i)),
      .brelse pid (UInt32.ofNat (first + i))]

/-- Two operations at a time, of two blocks each, one of which they share. -/
def twoOps : List Action :=
  [.readHead, .recoverClear, .beginOp 0, .beginOp 1] ++ logBlocks 0 100 2 ++ logBlocks 1 101 2

theorem log_admission_twoOps : ∃ finish,
    Run (Guarded WithinReservation (Step .mkfs)) (powerOn blank) twoOps finish ∧
    finish.lh.length = 3 ∧ finish.lh.Nodup :=
  Run.exists_and_of_guardedExec (fun _ _ _ => step_of_tryExec) (by decide +kernel)
    fun finish run _ => (log_admission blank blank_empty twoOps finish run).2.2.2.2

/-- Three operations of ten blocks each are admitted together, and the last of
the thirty blocks makes `log_write` panic. -/
theorem log_write_panics : ∃ actions finish,
    Run (Guarded WithinReservation (Step .mkfs)) (powerOn blank) actions finish ∧
    finish.WithinReservation (.logWrite 2 129) ∧
    finish.exec .mkfs (.logWrite 2 129) = .error (.panic .tooBigTransaction) := by
  have outcome : ∃ finish ∈ runAll (guardedExec WithinReservation (tryExec .mkfs)) (powerOn blank)
      ([.readHead, .recoverClear, .beginOp 0, .beginOp 1, .beginOp 2] ++ logBlocks 0 100 10 ++
        logBlocks 1 110 10 ++ logBlocks 2 120 9 ++ [.bread 2 129]),
      finish.WithinReservation (.logWrite 2 129) ∧
        finish.stopOf .mkfs (.logWrite 2 129) = some (.panic .tooBigTransaction) := by
    decide +kernel
  obtain ⟨finish, performed, within, stops⟩ := outcome
  exact ⟨_, finish, .of_guardedExec (fun _ _ _ => step_of_tryExec) performed, within,
    exec_of_stopOf stops⟩

end Xv6.Log
