import Xv6.Log.Invariant

/-!
# Operations and commit

Every step of the file system code, of `commit` and of recovery keeps the log's
invariant.  The durable contents change at one step only, the first `write_head`
of a commit.
-/

namespace Xv6.Log

open Function State AtomicStore List

section Operations

variable {geometry : Geometry} {durable current : BlockNo → Block}
variable {state after : State}

/-- The phases differ only in the blocks that must stay cached. -/
theorem PhaseInv.mapMemory {phase : Phase}
    (inv : PhaseInv geometry durable current state phase)
    (disk_eq : after.disk = state.disk) (lh_eq : after.lh = state.lh)
    (memory : ∀ dirty, Memory geometry current dirty state →
      Memory geometry current dirty after)
    (clean : CacheClean state → CacheClean after) :
    PhaseInv geometry durable current after phase := by
  have header_eq : after.diskHeader geometry = state.diskHeader geometry := by
    rw [diskHeader, disk_eq, diskHeader]
  cases phase with
  | recover recovery =>
    cases recovery with
    | start =>
      obtain ⟨same, cleanBefore, recoverable⟩ := inv
      exact ⟨same, clean cleanBefore, by rw [disk_eq, header_eq]; exact recoverable⟩
    | install tail =>
      obtain ⟨same, cleanBefore, header, recoverable, installed⟩ := inv
      refine ⟨same, clean cleanBefore, ?_⟩
      rw [disk_eq, header_eq, lh_eq]
      exact ⟨header, recoverable, installed⟩
  | up commit =>
    cases commit with
    | idle =>
      obtain ⟨memoryBefore, header, home⟩ := inv
      refine ⟨?_, ?_⟩
      · rw [lh_eq]
        exact memory _ memoryBefore
      · rw [disk_eq, header_eq]
        exact ⟨header, home⟩
    | writeLog tail =>
      obtain ⟨memoryBefore, header, home, logged⟩ := inv
      refine ⟨?_, ?_, ?_, ?_⟩
      · rw [lh_eq]
        exact memory _ memoryBefore
      · rw [header_eq]
        exact header
      · rw [disk_eq]
        exact home
      · intro i inside
        simp only [lh_eq, disk_eq] at inside ⊢
        exact logged i inside
    | install tail =>
      obtain ⟨memoryBefore, same, header, recoverable, installed⟩ := inv
      refine ⟨?_, same, ?_⟩
      · rw [lh_eq]
        exact memory _ memoryBefore
      · rw [disk_eq, header_eq, lh_eq]
        exact ⟨header, recoverable, installed⟩
    | finish =>
      obtain ⟨memoryBefore, empty, same, header, home⟩ := inv
      refine ⟨memory _ memoryBefore, by rw [lh_eq]; exact empty, same, ?_⟩
      rw [disk_eq, header_eq]
      exact ⟨header, home⟩

variable {block : BlockNo}

/-- A process takes or returns a buffer. -/
theorem Inv.setHolder (inv : Inv geometry durable current state) {buf : Buf}
    (data_eq : buf.data = (state.buf block).data)
    (pinned_eq : buf.pinned = (state.buf block).pinned)
    (holder : ∀ pid, block ∈ state.unlogged pid → buf.holder = some pid) :
    Inv geometry durable current (state.setBuf block buf) where
  admission := { inv.admission with }
  phase := by
    apply inv.phase.mapMemory
    · rfl
    · rfl
    · intro dirty memory
      apply memory.setBuf data_eq _ holder
      intro member
      obtain ⟨found, stored, pinned⟩ := memory.pinned block member
      rw [pinned_eq]
      simpa [State.buf, stored] using pinned
    · intro clean
      exact clean.setBuf (data_eq.trans (clean.buf block))

variable {pid : Pid}

section

variable (inv : Inv geometry durable current state)
include inv

/-- Only the holder of a buffer can have left a change of it unlogged. -/
theorem Inv.holder_of_unlogged (member : block ∈ state.unlogged pid) :
    state.phase = .up .idle ∧ (state.buf block).holder = some pid := by
  have idle : state.phase = .up .idle := by
    by_contra busy
    rw [inv.admission.nothing_unlogged busy] at member
    simp at member
  have phase := inv.phase
  rw [idle] at phase
  obtain ⟨-, buf, stored, held⟩ := phase.1.unlogged pid block member
  exact ⟨idle, by simpa [State.buf, stored] using held⟩

theorem Inv.bread (stepped : state.bread pid block = .ok after) :
    Inv geometry durable current after := by
  unfold State.bread at stepped
  split at stepped
  next free =>
    cases stepped
    apply inv.setHolder
    · rfl
    · rfl
    intro other member
    have held := (inv.holder_of_unlogged member).2
    rw [free.2] at held
    cases held
  next => cases stepped

theorem Inv.brelse (stepped : state.brelse pid block = .ok after) :
    Inv geometry durable current after := by
  unfold State.brelse at stepped
  split at stepped <;> [rename_i held; cases stepped]
  cases stepped
  apply inv.setHolder
  · rfl
  · rfl
  intro other member
  have otherHolds := (inv.holder_of_unlogged member).2
  rw [held.1, Option.some.injEq] at otherHolds
  subst otherHolds
  exact (held.2 member).elim

theorem Inv.evict (stepped : state.evict block = .ok after) :
    Inv geometry durable current after := by
  unfold State.evict at stepped
  split at stepped <;> [rename_i unused; cases stepped]
  cases stepped
  constructor
  · exact { inv.admission with }
  · apply inv.phase.mapMemory
    · rfl
    · rfl
    · intro dirty memory
      have notStored : ∀ query found,
          update state.cache block none query = some found →
          state.cache query = some found := by
        intro query found stored
        obtain rfl | same := eq_or_ne query block
        · simp at stored
        · simpa [same] using stored
      constructor
      · intro query found stored
        exact memory.cached query found (notStored query found stored)
      · intro query member
        obtain ⟨found, stored, pinned⟩ := memory.pinned query member
        refine ⟨found, ?_, pinned⟩
        have ne : query ≠ block := by
          intro same
          subst same
          have unpinned := unused.2
          simp [buf, stored, pinned] at unpinned
        simpa [ne] using stored
      · intro pid query member
        obtain ⟨home, found, stored, held⟩ := memory.unlogged pid query member
        refine ⟨home, found, ?_, held⟩
        have ne : query ≠ block := by
          intro same
          subst same
          have free := unused.1
          simp [State.Free, buf, stored, held] at free
        simpa [ne] using stored
      · exact memory.clean
    · intro clean query found stored
      obtain rfl | same := eq_or_ne query block
      · simp at stored
      · exact clean query found (by simpa [same] using stored)

theorem Inv.idle_of_active (active : pid ∈ state.active) : state.phase = .up .idle := by
  by_contra busy
  simp [inv.admission.quiet busy] at active

theorem Inv.modify {data : Block} (stepped : state.modify geometry pid block data = .ok after) :
    Inv geometry durable (update current block data) after := by
  unfold State.modify at stepped
  split at stepped <;> [rename_i allowed; cases stepped]
  cases stepped
  obtain ⟨active, isHome, held⟩ := allowed
  have idle := inv.idle_of_active active
  obtain ⟨memory, header, home⟩ := inv.phase_of idle
  constructor
  · refine { inv.admission with unlogged_eq := ?_ }
    intro other inactive
    have ne : other ≠ pid := fun same => inactive (same ▸ active)
    simpa [ne] using inv.admission.unlogged_eq other inactive
  · simp only [setBuf_phase, idle]
    refine ⟨⟨?_, ?_, ?_, ?_⟩, header, home⟩
    · intro query found stored
      obtain ⟨rfl, rfl⟩ | ⟨ne, stored⟩ := stored_cases stored
      · simp [isHome]
      · simpa [ne] using memory.cached query found stored
    · intro query member
      obtain ⟨found, stored, pinned⟩ := memory.pinned query member
      obtain rfl | same := eq_or_ne query block
      · exact ⟨_, update_self .., by simpa [buf, stored] using pinned⟩
      · exact ⟨found, by simpa [same] using stored, pinned⟩
    · intro other query member
      obtain rfl | same := eq_or_ne query block
      · refine ⟨isHome, _, update_self .., ?_⟩
        by_cases own : other = pid
        · rw [own]
          exact held
        · simp only [ne_eq, own, not_false_eq_true, update_of_ne] at member
          exact (inv.holder_of_unlogged member).2
      · have before : query ∈ state.unlogged other := by
          obtain rfl | own := eq_or_ne other pid
          · simpa [same] using member
          · simpa [own] using member
        obtain ⟨queryHome, found, stored, holds⟩ := memory.unlogged other query before
        exact ⟨queryHome, found, by simpa [same] using stored, holds⟩
    · intro query queryHome notDirty notUnlogged
      have ne : query ≠ block := by
        intro same
        subst same
        exact notUnlogged pid (by simp)
      rw [update_of_ne ne]
      apply memory.clean query queryHome notDirty
      intro other member
      apply notUnlogged other
      obtain rfl | own := eq_or_ne other pid
      · simp [member]
      · simpa [own] using member

theorem Inv.beginOp (stepped : state.beginOp pid = .ok after) :
    Inv geometry durable current after := by
  unfold State.beginOp at stepped
  split at stepped <;> [rename_i allowed; cases stepped]
  split at stepped <;> [cases stepped; rename_i notCommitting]
  split at stepped <;> [cases stepped; skip]
  cases stepped
  obtain ⟨up, inactive⟩ := allowed
  have idle : state.phase = .up .idle := by
    have committing := inv.admission.committing_eq
    cases here : state.phase with
    | recover recovery => simp [here, Phase.isUp] at up
    | up commit =>
      cases commit with
      | idle => rfl
      | writeLog | install | finish =>
        simp [here, Phase.committing, notCommitting] at committing
  constructor
  · refine { inv.admission with outstanding_eq := ?_, unlogged_eq := ?_, quiet := ?_ }
    · simp [inactive, inv.admission.outstanding_eq]
    · intro other notActive
      exact inv.admission.unlogged_eq other
        (fun member => notActive (Finset.mem_insert_of_mem member))
    · intro busy
      exact (busy idle).elim
  · apply inv.phase.mapMemory
    · rfl
    · rfl
    · exact fun _ memory => memory.congr rfl rfl rfl
    · exact id

end

/-- A pinned block enters the header, and its change counts as logged. -/
theorem Memory.markLogged {dirty rest : List BlockNo} (memory : Memory geometry current dirty state)
    (covers : ∀ query, query ∈ rest ↔ query ∈ dirty ∨ query = block)
    (pinned : ∃ buf, state.cache block = some buf ∧ buf.pinned = true)
    (cache_eq : after.cache = state.cache) (disk_eq : after.disk = state.disk)
    (unlogged_eq : after.unlogged =
      update state.unlogged pid ((state.unlogged pid).erase block)) :
    Memory geometry current rest after where
  cached := by
    rw [cache_eq, disk_eq]
    exact memory.cached
  pinned := by
    intro query member
    rw [cache_eq]
    rcases (covers query).mp member with old | new
    · exact memory.pinned query old
    · subst new
      exact pinned
  unlogged := by
    intro other query member
    rw [cache_eq]
    apply memory.unlogged other query
    rw [unlogged_eq] at member
    obtain rfl | own := eq_or_ne other pid
    · rw [update_self] at member
      exact Finset.mem_of_mem_erase member
    · rwa [update_of_ne own] at member
  clean := by
    intro query home notRest notUnlogged
    rw [disk_eq]
    have apart : query ∉ dirty ∧ query ≠ block := by
      rw [covers, not_or] at notRest
      exact notRest
    apply memory.clean query home apart.1
    intro other member
    apply notUnlogged other
    rw [unlogged_eq]
    obtain rfl | own := eq_or_ne other pid
    · rw [update_self]
      exact Finset.mem_erase.mpr ⟨apart.2, member⟩
    · rwa [update_of_ne own]

variable (inv : Inv geometry durable current state)
include inv

theorem Inv.logWrite (stepped : state.logWrite geometry pid block = .ok after) :
    Inv geometry durable current after := by
  unfold State.logWrite at stepped
  split at stepped <;> [rename_i allowed; cases stepped]
  split at stepped <;> [cases stepped; rename_i room]
  split at stepped <;> [cases stepped; skip]
  obtain ⟨active, isHome, held⟩ := allowed
  have idle := inv.idle_of_active active
  obtain ⟨memory, header, home⟩ := inv.phase_of idle
  have unlogged_eq : ∀ other, other ∉ state.active →
      update state.unlogged pid
        ((state.unlogged pid).erase block) other = ∅ := by
    intro other inactive
    have ne : other ≠ pid := fun same => inactive (same ▸ active)
    simpa [ne] using inv.admission.unlogged_eq other inactive
  dsimp only at stepped
  split at stepped
  next absorbed =>
    cases stepped
    constructor
    · exact { inv.admission with unlogged_eq }
    · simp only [idle]
      refine ⟨?_, header, home⟩
      apply memory.markLogged
      · intro query
        constructor
        · exact .inl
        · intro either
          rcases either with old | new
          · exact old
          · exact new ▸ absorbed
      · exact memory.pinned block absorbed
      · rfl
      · rfl
      · rfl
  next fresh =>
    cases stepped
    constructor
    · refine { inv.admission with
        unlogged_eq, nodup := ?_, home := ?_, length_le := ?_, length_lt := ?_ }
      · exact List.Nodup.append inv.admission.nodup (nodup_singleton block)
          (disjoint_singleton.mpr fresh)
      · intro query member
        rcases mem_append.mp member with old | new
        · exact inv.admission.home query old
        · rw [mem_singleton.mp new]
          exact isHome
      · simp only [length_append, length_singleton]
        omega
      · simp only [length_append, length_singleton]
        omega
    · simp only [setBuf_phase, idle]
      refine ⟨?_, header, home⟩
      have pinnedBuf : Memory geometry current state.lh
          (state.setBuf block { state.buf block with pinned := true }) := by
        apply memory.setBuf
        · rfl
        · exact fun _ => rfl
        · intro other member
          exact (inv.holder_of_unlogged member).2
      apply pinnedBuf.markLogged
      · intro query
        rw [mem_append, mem_singleton]
      · exact ⟨_, update_self .., rfl⟩
      · rfl
      · rfl
      · rfl

theorem Inv.endOp (stepped : state.endOp pid = .ok after) : Inv geometry durable current after := by
  unfold State.endOp at stepped
  split at stepped <;> [rename_i allowed; cases stepped]
  obtain ⟨active, logged⟩ := allowed
  have idle := inv.idle_of_active active
  obtain ⟨memory, header, home⟩ := inv.phase_of idle
  have notCommitting : state.committing = false := by
    rw [inv.admission.committing_eq, idle]
    rfl
  have outstanding_eq : state.outstanding - 1 = (state.active.erase pid).card := by
    rw [inv.admission.outstanding_eq, Finset.card_erase_of_mem active]
  have unlogged_eq : ∀ other, other ∉ state.active.erase pid →
      state.unlogged other = ∅ := by
    intro other inactive
    by_cases own : other = pid
    · rw [own]
      exact logged
    · exact inv.admission.unlogged_eq other
        (fun member => inactive (Finset.mem_erase.mpr ⟨own, member⟩))
  simp only [notCommitting, Bool.false_eq_true, ↓reduceIte] at stepped
  split at stepped
  next last =>
    have nobody : state.active.erase pid = ∅ := by
      rw [← Finset.card_eq_zero, ← outstanding_eq]
      exact last
    have nothingUnlogged : ∀ other, state.unlogged other = ∅ := by
      intro other
      apply unlogged_eq
      simp [nobody]
    cases stepped
    constructor
    · refine { inv.admission with
        outstanding_eq, unlogged_eq, quiet := fun _ => nobody, committing_eq := ?_ }
      dsimp only
      split <;> rfl
    · dsimp only
      split
      next => exact ⟨memory.congr rfl rfl rfl, header, home, by simp⟩
      next empty =>
        have lh_eq : state.lh = [] := by
          apply eq_nil_of_length_eq_zero
          omega
        refine ⟨?_, lh_eq, ?_, header, home⟩
        · rw [lh_eq] at memory
          exact memory.congr rfl rfl rfl
        · intro block isHome
          rw [memory.clean block isHome (by simp [lh_eq]) (by simp [nothingUnlogged]),
            home block isHome]
  next =>
    cases stepped
    constructor
    · exact { inv.admission with
        outstanding_eq, unlogged_eq, quiet := fun busy => (busy idle).elim
        committing_eq := by simp [idle, Phase.committing] }
    · apply inv.phase.mapMemory
      · rfl
      · rfl
      · exact fun _ memoryBefore => memoryBefore.congr rfl rfl rfl
      · exact id

/-! ## Commit -/

theorem Inv.writeLog (stepped : state.writeLog geometry = .ok after) :
    Inv geometry durable current after := by
  unfold State.writeLog at stepped
  split at stepped <;> [rename_i tail here; cases stepped]
  split at stepped <;> [rename_i block found; cases stepped]
  obtain ⟨middle, copied, rfl⟩ := ok_of_map stepped
  obtain ⟨buf, data_eq, rfl⟩ := copyBlock_ok copied
  obtain ⟨member, inside, -, -⟩ := getElem?_split found
  obtain ⟨memory, header, home, logged⟩ := inv.phase_of here
  have lengthLt := inv.admission.length_lt
  have isLog : ¬ geometry.Home (geometry.logBlock tail) :=
    geometry.logBlock_not_home (by omega)
  have readEq : buf.data = current block :=
    data_eq.trans (memory.buf_home (inv.admission.home block member))
  constructor
  · exact inv.admission.move (.refl _) rfl rfl rfl rfl (by simp [here])
      (by simp [here, Phase.committing])
  · refine ⟨?_, ?_, ?_, ?_⟩
    · exact ((memory.load block).bwrite_log inv.admission.home isLog buf).congr rfl rfl rfl
    · have ne := geometry.logBlock_ne_header (by omega : tail + 1 < geometry.size)
      simpa [diskHeader, Ne.symm ne] using header
    · intro query queryHome
      have ne : query ≠ geometry.logBlock tail := fun same =>
        isLog (same ▸ queryHome)
      simpa [ne] using home query queryHome
    · intro i bound earlier
      simp only [goto_lh, bwrite_lh, setBuf_lh] at bound ⊢
      obtain rfl | same := eq_or_ne i tail
      · have block_eq := (List.getElem?_eq_some_iff.mp found).2
        simpa [block_eq] using readEq
      · have ne : geometry.logBlock i ≠ geometry.logBlock tail := fun equal =>
          same (geometry.logBlock_inj (by omega) (by omega) equal)
        simpa [ne] using logged i bound (by omega)

/-- The commit point: what was current is durable from now on. -/
theorem Inv.writeHead (stepped : state.writeHead geometry = .ok after) :
    Inv geometry current current after := by
  unfold State.writeHead at stepped
  split at stepped <;> [rename_i tail here; cases stepped]
  split at stepped <;> [rename_i all; cases stepped]
  obtain ⟨middle, written, rfl⟩ := ok_of_map stepped
  obtain ⟨buf, data_eq, rfl⟩ := writeHeader_ok written
  obtain ⟨memory, -, home, logged⟩ := inv.phase_of here
  have headerNotHome := geometry.header_not_home
  constructor
  · exact inv.admission.move (.refl _) rfl rfl rfl rfl (by simp [here])
      (by simp [here, Phase.committing])
  · refine ⟨?_, fun _ _ => rfl, ?_, ?_, by simp⟩
    · exact (memory.bwrite_log inv.admission.home headerNotHome buf).congr rfl rfl rfl
    · simpa [diskHeader, data_eq] using
        headerBlocks_setHeader _ inv.admission.length_le
    · refine ⟨inv.admission.nodup, inv.admission.home, inv.admission.length_le,
        inv.admission.length_lt, ?_, ?_⟩
      · intro i inside
        simp only [goto_lh, bwrite_lh] at inside ⊢
        have lengthLt := inv.admission.length_lt
        have ne := geometry.logBlock_ne_header (by omega : i + 1 < geometry.size)
        simpa [ne] using logged i inside (by omega)
      · intro block isHome notMember
        have ne : block ≠ geometry.header := fun equal =>
          headerNotHome (equal ▸ isHome)
        have unlogged := inv.admission.nothing_unlogged (by simp [here])
        simpa [ne] using
          (memory.clean block isHome notMember (by simp [unlogged])).symm

theorem Inv.install (stepped : state.install geometry = .ok after) :
    Inv geometry durable current after := by
  unfold State.install at stepped
  split at stepped <;> [rename_i tail here; cases stepped]
  split at stepped <;> [rename_i block found; cases stepped]
  obtain ⟨middle, copied, rfl⟩ := ok_of_map stepped
  obtain ⟨buf, data_eq, rfl⟩ := copyBlock_ok copied
  obtain ⟨member, inside, takeSucc, dropTail⟩ := getElem?_split found
  obtain ⟨memory, settled, headerEq, recoverable, installed⟩ := inv.phase_of here
  have lengthLt := inv.admission.length_lt
  have isHome := inv.admission.home block member
  have isLog : ¬ geometry.Home (geometry.logBlock tail) :=
    geometry.logBlock_not_home (by omega)
  have readEq : buf.data = durable block := by
    obtain ⟨-, rfl⟩ := List.getElem?_eq_some_iff.mp found
    rw [data_eq, memory.buf_log isLog, recoverable.logged tail inside]
  have headerNe : geometry.header ≠ block := fun equal =>
    geometry.header_not_home (equal ▸ isHome)
  have nodupDrop : (block :: state.lh.drop (tail + 1)).Nodup := by
    rw [← dropTail]
    exact inv.admission.nodup.sublist (drop_sublist _ _)
  constructor
  · exact inv.admission.move (.refl _) rfl rfl rfl rfl (by simp [here])
      (by simp [here, Phase.committing])
  · refine ⟨?_, settled, ?_, ?_, ?_⟩
    · have written : Memory geometry current (state.lh.drop (tail + 1))
          ((state.setBuf (geometry.logBlock tail)
            (state.buf (geometry.logBlock tail))).bwrite block buf) := by
        apply (memory.load (geometry.logBlock tail)).bwrite_home _ isHome
          (readEq.trans (settled block isHome).symm) _ (nodup_cons.mp nodupDrop).1
        · intro query dirty
          rw [dropTail] at dirty
          exact mem_cons.mp dirty
        · exact inv.admission.nothing_unlogged (by simp [here])
        · intro query later
          rw [dropTail]
          exact mem_cons_of_mem _ later
      exact written.congr rfl rfl rfl
    · simpa [diskHeader, headerNe] using headerEq
    · simpa [readEq] using recoverable.install member
    · simpa [readEq] using installed_succ takeSucc installed

theorem Inv.clearHead (stepped : state.clearHead geometry = .ok after) :
    Inv geometry durable current after := by
  unfold State.clearHead at stepped
  split at stepped <;> [rename_i tail here; cases stepped]
  split at stepped <;> [rename_i all; cases stepped]
  obtain ⟨middle, written, rfl⟩ := ok_of_map stepped
  obtain ⟨buf, data_eq, rfl⟩ := writeHeader_ok written
  obtain ⟨memory, settled, -, recoverable, installed⟩ := inv.phase_of here
  rw [take_all all] at installed
  have homeEq := update_header_home buf.data (recoverable.disk_eq installed)
  have dropAll : state.lh.drop tail = [] := by
    rw [all, drop_length]
  rw [dropAll] at memory
  have memoryBefore : Memory geometry current [] (state.setLh []) :=
    memory.congr rfl rfl rfl
  constructor
  · exact inv.admission.move (nil_sublist _) rfl rfl rfl rfl (by simp [here])
      (by simp [here, Phase.committing])
  · refine ⟨?_, rfl, settled, ?_, homeEq⟩
    · exact (memoryBefore.bwrite_log (by simp) geometry.header_not_home buf).congr
        rfl rfl rfl
    · simp [diskHeader, data_eq, headerBlocks_setHeader_nil]

theorem Inv.finishCommit (stepped : state.finishCommit = .ok after) :
    Inv geometry durable current after := by
  unfold State.finishCommit at stepped
  split at stepped <;> [rename_i here; cases stepped]
  cases stepped
  obtain ⟨memory, empty, -, header, home⟩ := inv.phase_of here
  constructor
  · exact { inv.admission with
      quiet := fun _ => inv.admission.quiet (by simp [here]), committing_eq := rfl }
  · refine ⟨?_, header, home⟩
    rw [← empty] at memory
    exact memory.congr rfl rfl rfl

end Operations

/-! ## Runs -/

/-- What a step means for the store that the log implements. -/
def Action.event : Action → Option (Event BlockNo Block)
  | .crash => some .crash
  | .modify _ block data => some (.write block data)
  | .writeHead => some .commit
  | _ => none

/-- The store after a sequence of steps. -/
def store (actions : List Action) : AtomicStore.State BlockNo Block :=
  replay (actions.filterMap Action.event)

theorem store_append (actions : List Action) (action : Action) : store (actions ++ [action]) =
      match action.event with
      | none => store actions
      | some event => (store actions).step event := by
  cases happened : action.event <;> simp [store, replay, filterMap_append, happened]

/-- The invariant for the store that the steps so far describe. -/
def StoreInv (geometry : Geometry) (base : BlockNo → Block) (actions : List Action)
    (state : State) : Prop :=
  Inv geometry ((store actions).durable base) ((store actions).current base) state

theorem StoreInv.step {geometry : Geometry} {base : BlockNo → Block} {actions : List Action}
    {state after : State} {action : Action} (inv : StoreInv geometry base actions state)
    (stepped : state.Step geometry action after) :
    StoreInv geometry base (actions ++ [action]) after := by
  unfold StoreInv at inv ⊢
  rw [store_append]
  unfold State.Step exec at stepped
  cases action with
  | crash =>
    cases stepped
    simpa [Action.event] using inv.crash
  | readHead => exact inv.readHead stepped
  | recoverInstall => exact inv.recoverInstall stepped
  | recoverClear => exact inv.recoverClear stepped
  | beginOp pid => exact inv.beginOp stepped
  | endOp pid => exact inv.endOp stepped
  | bread pid block => exact inv.bread stepped
  | modify pid block data => simpa [Action.event] using inv.modify stepped
  | logWrite pid block => exact inv.logWrite stepped
  | brelse pid block => exact inv.brelse stepped
  | evict block => exact inv.evict stepped
  | writeLog => exact inv.writeLog stepped
  | writeHead => simpa [Action.event] using inv.writeHead stepped
  | install => exact inv.install stepped
  | clearHead => exact inv.clearHead stepped
  | finishCommit => exact inv.finishCommit stepped

end Xv6.Log
