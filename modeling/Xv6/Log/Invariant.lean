import Xv6.Lib.AtomicStore
import Xv6.Lib.Transition
import Xv6.Log.Machine

/-!
# The invariant of the log

It relates the disk, the cache and the in-memory header to two maps: the contents
that a crash must leave, and the contents that the file system code sees.  Both
are read off the steps taken so far: a change of a buffer is a write, the first
`write_head` of a commit makes the writes durable.
-/

namespace Xv6.Log

open Function Transition State List

theorem toNat_ofNat_of_lt {n : Nat} (bound : n < 2 ^ 32) : (UInt32.ofNat n).toNat = n := by
  rw [UInt32.toNat_ofNat', Nat.mod_eq_of_lt bound]

namespace Geometry

variable (geometry : Geometry) {tail : Nat}

theorem header_toNat : geometry.header.toNat = geometry.start := by
  have := geometry.fits
  have := geometry.size_pos
  exact toNat_ofNat_of_lt (by omega)

theorem logBlock_toNat (bound : tail + 1 < geometry.size) :
    (geometry.logBlock tail).toNat = geometry.start + tail + 1 := by
  have := geometry.fits
  exact toNat_ofNat_of_lt (by omega)

theorem header_not_home : ¬ geometry.Home geometry.header := by
  have := geometry.size_pos
  simp only [Home, header_toNat]
  omega

theorem logBlock_not_home (bound : tail + 1 < geometry.size) :
    ¬ geometry.Home (geometry.logBlock tail) := by
  simp only [Home, geometry.logBlock_toNat bound]
  omega

theorem logBlock_ne_header (bound : tail + 1 < geometry.size) :
    geometry.logBlock tail ≠ geometry.header := by
  intro same
  have := congrArg UInt32.toNat same
  rw [geometry.logBlock_toNat bound, header_toNat] at this
  omega

theorem logBlock_inj {left right : Nat} (leftBound : left + 1 < geometry.size)
    (rightBound : right + 1 < geometry.size)
    (same : geometry.logBlock left = geometry.logBlock right) : left = right := by
  have := congrArg UInt32.toNat same
  rw [geometry.logBlock_toNat leftBound, geometry.logBlock_toNat rightBound] at this
  omega

end Geometry

/-- `read_head` reads what `write_head` wrote. -/
theorem headerBlocks_setHeader (block : Block) {lh : List BlockNo}
    (bound : lh.length ≤ LOGSIZE) : headerBlocks (setHeader block lh) = lh := by
  have small : lh.length < BlockWords - 1 := by
    simp only [BlockWords, LOGSIZE, MAXOPBLOCKS] at bound ⊢
    omega
  have count : headerCount (setHeader block lh) = lh.length := by
    simp only [headerCount, word, setHeader, BlockWords, Nat.zero_lt_succ, ↓reduceDIte,
      ↓reduceIte]
    have range : lh.length < 2 ^ 31 := by
      simp only [BlockWords] at small
      omega
    rw [BitVec.toInt_eq_toNat_of_lt]
    · simp only [UInt32.toNat_toBitVec, Int.toNat_natCast]
      exact toNat_ofNat_of_lt (by omega)
    · simp only [UInt32.toNat_toBitVec]
      rw [toNat_ofNat_of_lt (by omega)]
      omega
  apply ext_getElem
  · simp [headerBlocks, count]
  · intro i _ inside
    have inBlock : i + 1 < BlockWords := by omega
    simp [headerBlocks, word, setHeader, inBlock, inside]

theorem headerBlocks_setHeader_nil (block : Block) : headerBlocks (setHeader block []) = [] :=
  headerBlocks_setHeader block (by decide)

/-- What recovery needs of the disk: the logged blocks hold the durable contents
of their homes, and every other block is up to date. -/
structure Recoverable (geometry : Geometry) (disk durable : BlockNo → Block)
    (blocks : List BlockNo) : Prop where
  nodup : blocks.Nodup
  home : ∀ block ∈ blocks, geometry.Home block
  length_le : blocks.length ≤ LOGSIZE
  length_lt : blocks.length < geometry.size
  logged : ∀ i (inside : i < blocks.length), disk (geometry.logBlock i) = durable blocks[i]
  other : ∀ block, geometry.Home block → block ∉ blocks → disk block = durable block

variable {geometry : Geometry}

/-- Every block outside the log is up to date. -/
theorem recoverable_nil {disk durable : BlockNo → Block}
    (home : ∀ block, geometry.Home block → disk block = durable block) :
    Recoverable geometry disk durable [] where
  nodup := nodup_nil
  home := by simp
  length_le := by simp
  length_lt := geometry.size_pos
  logged := by simp
  other := fun block isHome _ => home block isHome

/-- The cache agrees with the disk. -/
def CacheClean (state : State) : Prop :=
  ∀ block buf, state.cache block = some buf → buf.data = state.disk block

/-- The cache while the file system is in use: it holds the current contents of
the blocks outside the log, and the blocks in `dirty` cannot leave it. -/
structure Memory (geometry : Geometry) (current : BlockNo → Block) (dirty : List BlockNo)
    (state : State) : Prop where
  cached : ∀ block buf, state.cache block = some buf →
    buf.data = if geometry.Home block then current block else state.disk block
  pinned : ∀ block ∈ dirty, ∃ buf, state.cache block = some buf ∧ buf.pinned = true
  unlogged : ∀ pid, ∀ block ∈ state.unlogged pid, geometry.Home block ∧
    ∃ buf, state.cache block = some buf ∧ buf.holder = some pid
  clean : ∀ block, geometry.Home block → block ∉ dirty →
    (∀ pid, block ∉ state.unlogged pid) → current block = state.disk block

/-- The header on the disk. -/
def State.diskHeader (geometry : Geometry) (state : State) : List BlockNo :=
  headerBlocks (state.disk geometry.header)

/-- No change is waiting to become durable. -/
def Settled (geometry : Geometry) (durable current : BlockNo → Block) : Prop :=
  ∀ block, geometry.Home block → current block = durable block

/-- What holds of the disk and the cache at each point of commit and recovery. -/
def PhaseInv (geometry : Geometry) (durable current : BlockNo → Block) (state : State) :
    Phase → Prop
  | .recover .start =>
    Settled geometry durable current ∧ CacheClean state ∧
      Recoverable geometry state.disk durable (state.diskHeader geometry)
  | .recover (.install tail) =>
    Settled geometry durable current ∧ CacheClean state ∧
      state.diskHeader geometry = state.lh ∧
      Recoverable geometry state.disk durable state.lh ∧
      ∀ block ∈ state.lh.take tail, state.disk block = durable block
  | .up .idle =>
    Memory geometry current state.lh state ∧ state.diskHeader geometry = [] ∧
      ∀ block, geometry.Home block → state.disk block = durable block
  | .up (.writeLog tail) =>
    Memory geometry current state.lh state ∧ state.diskHeader geometry = [] ∧
      (∀ block, geometry.Home block → state.disk block = durable block) ∧
      ∀ i (inside : i < state.lh.length), i < tail →
        state.disk (geometry.logBlock i) = current state.lh[i]
  | .up (.install tail) =>
    Memory geometry current (state.lh.drop tail) state ∧ Settled geometry durable current ∧
      state.diskHeader geometry = state.lh ∧
      Recoverable geometry state.disk durable state.lh ∧
      ∀ block ∈ state.lh.take tail, state.disk block = durable block
  | .up .finish =>
    Memory geometry current [] state ∧ state.lh = [] ∧ Settled geometry durable current ∧
      state.diskHeader geometry = [] ∧
      ∀ block, geometry.Home block → state.disk block = durable block

/-- `commit` is running. -/
def Phase.committing : Phase → Bool
  | .recover _ => false
  | .up .idle => false
  | .up _ => true

/-- What `begin_op`, `end_op` and `log_write` maintain. -/
structure Admission (geometry : Geometry) (state : State) : Prop where
  outstanding_eq : state.outstanding = state.active.card
  unlogged_eq : ∀ pid, pid ∉ state.active → state.unlogged pid = ∅
  quiet : state.phase ≠ .up .idle → state.active = ∅
  committing_eq : state.committing = state.phase.committing
  nodup : state.lh.Nodup
  home : ∀ block ∈ state.lh, geometry.Home block
  length_le : state.lh.length ≤ LOGSIZE
  length_lt : state.lh.length < geometry.size

structure Inv (geometry : Geometry) (durable current : BlockNo → Block) (state : State) :
    Prop where
  admission : Admission geometry state
  phase : PhaseInv geometry durable current state state.phase

theorem Inv.phase_of {durable current : BlockNo → Block} {state : State} {phase : Phase}
    (inv : Inv geometry durable current state) (here : state.phase = phase) :
    PhaseInv geometry durable current state phase :=
  here ▸ inv.phase

/-- A step of `commit` or of recovery that keeps the in-memory header or empties it. -/
theorem Admission.move {state after : State} (admission : Admission geometry state)
    (lh : after.lh.Sublist state.lh) (outstanding_eq : after.outstanding = state.outstanding)
    (active_eq : after.active = state.active) (unlogged_eq : after.unlogged = state.unlogged)
    (committing_eq : after.committing = state.committing) (busy : state.phase ≠ .up .idle)
    (phase_eq : after.phase.committing = state.phase.committing) : Admission geometry after where
  outstanding_eq := by rw [outstanding_eq, active_eq, admission.outstanding_eq]
  unlogged_eq := by rw [active_eq, unlogged_eq]; exact admission.unlogged_eq
  quiet := fun _ => active_eq.trans (admission.quiet busy)
  committing_eq := by rw [committing_eq, phase_eq, admission.committing_eq]
  nodup := admission.nodup.sublist lh
  home := fun block member => admission.home block (lh.subset member)
  length_le := lh.length_le.trans admission.length_le
  length_lt := lh.length_le.trans_lt admission.length_lt

theorem Admission.nothing_unlogged {state : State} (admission : Admission geometry state)
    (busy : state.phase ≠ .up .idle) (pid : Pid) : state.unlogged pid = ∅ := by
  apply admission.unlogged_eq
  simp [admission.quiet busy]

section Memory

theorem stored_cases {cache : BlockNo → Option Buf} {block query : BlockNo} {buf found : Buf}
    (stored : update cache block (some buf) query = some found) :
    query = block ∧ found = buf ∨ query ≠ block ∧ cache query = some found := by
  obtain rfl | same := eq_or_ne query block
  · rw [update_self, Option.some.injEq] at stored
    exact .inl ⟨rfl, stored.symm⟩
  · rw [update_of_ne same] at stored
    exact .inr ⟨same, stored⟩

variable {geometry : Geometry} {durable current : BlockNo → Block} {dirty : List BlockNo}
variable {state : State}

variable {block : BlockNo}

/-- `bread` returns the current contents of a block outside the log. -/
theorem Memory.buf_home (memory : Memory geometry current dirty state)
    (home : geometry.Home block) : (state.buf block).data = current block := by
  unfold State.buf
  cases found : state.cache block with
  | some buf => simpa [home] using memory.cached block buf found
  | none =>
    symm
    apply memory.clean block home
    · intro member
      obtain ⟨buf, held, -⟩ := memory.pinned block member
      rw [found] at held
      cases held
    · intro pid member
      obtain ⟨-, buf, held, -⟩ := memory.unlogged pid block member
      rw [found] at held
      cases held

/-- `bread` returns the contents on disk of a block of the log. -/
theorem Memory.buf_log (memory : Memory geometry current dirty state)
    (log : ¬ geometry.Home block) : (state.buf block).data = state.disk block := by
  unfold State.buf
  cases found : state.cache block with
  | some buf => simpa [log] using memory.cached block buf found
  | none => rfl

theorem CacheClean.buf (clean : CacheClean state) (block : BlockNo) :
    (state.buf block).data = state.disk block := by
  unfold State.buf
  cases found : state.cache block with
  | some buf => exact clean block buf found
  | none => rfl

section

variable (memory : Memory geometry current dirty state)
include memory

/-- A buffer that `bread` returned is put back with the same data. -/
theorem Memory.setBuf {buf : Buf} (data_eq : buf.data = (state.buf block).data)
    (pinned : block ∈ dirty → buf.pinned = true)
    (holder : ∀ pid, block ∈ state.unlogged pid → buf.holder = some pid) :
    Memory geometry current dirty (state.setBuf block buf) where
  cached := by
    intro query found stored
    obtain ⟨rfl, rfl⟩ | ⟨-, stored⟩ := stored_cases stored
    · rw [data_eq]
      split
      next home => exact memory.buf_home home
      next log => exact memory.buf_log log
    · exact memory.cached query found stored
  pinned := by
    intro query member
    obtain rfl | same := eq_or_ne query block
    · exact ⟨buf, by simp [State.setBuf], pinned member⟩
    · simpa [State.setBuf, same] using memory.pinned query member
  unlogged := by
    intro pid query member
    obtain ⟨home, found, stored, held⟩ := memory.unlogged pid query member
    refine ⟨home, ?_⟩
    obtain rfl | same := eq_or_ne query block
    · exact ⟨buf, by simp [State.setBuf], holder pid member⟩
    · exact ⟨found, by simpa [State.setBuf, same] using stored, held⟩
  clean := memory.clean

theorem Memory.load (block : BlockNo) :
    Memory geometry current dirty (state.setBuf block (state.buf block)) := by
  apply memory.setBuf rfl
  · intro member
    obtain ⟨buf, stored, pinned⟩ := memory.pinned block member
    simpa [State.buf, stored] using pinned
  · intro pid member
    obtain ⟨-, buf, stored, held⟩ := memory.unlogged pid block member
    simpa [State.buf, stored] using held

/-- A block of the log is written. -/
theorem Memory.bwrite_log (dirtyHome : ∀ query ∈ dirty, geometry.Home query)
    (log : ¬ geometry.Home block) (buf : Buf) :
    Memory geometry current dirty (state.bwrite block buf) where
  cached := by
    intro query found stored
    obtain ⟨rfl, rfl⟩ | ⟨ne, stored⟩ := stored_cases stored
    · simp [State.bwrite, log]
    · simpa [State.bwrite, ne] using memory.cached query found stored
  pinned := by
    intro query member
    have ne : query ≠ block := fun same => log (same ▸ dirtyHome query member)
    simpa [State.bwrite, ne] using memory.pinned query member
  unlogged := by
    intro pid query member
    obtain ⟨home, found, stored, held⟩ := memory.unlogged pid query member
    have ne : query ≠ block := fun same => log (same ▸ home)
    exact ⟨home, found, by simpa [State.bwrite, ne] using stored,
      held⟩
  clean := by
    intro query home notDirty notUnlogged
    have ne : query ≠ block := fun same => log (same ▸ home)
    simpa [State.bwrite, ne] using memory.clean query home notDirty notUnlogged

/-- A block outside the log is written with its current contents, while no
operation is in progress; it need not stay in the cache any longer. -/
theorem Memory.bwrite_home {rest : List BlockNo} (quiet : ∀ pid, state.unlogged pid = ∅)
    (home : geometry.Home block) {buf : Buf} (data_eq : buf.data = current block)
    (restSubset : ∀ query ∈ rest, query ∈ dirty) (apart : block ∉ rest)
    (covers : ∀ query ∈ dirty, query = block ∨ query ∈ rest) :
    Memory geometry current rest (state.bwrite block buf) where
  cached := by
    intro query found stored
    obtain ⟨rfl, rfl⟩ | ⟨ne, stored⟩ := stored_cases stored
    · simpa [home] using data_eq
    · simpa [State.bwrite, ne] using memory.cached query found stored
  pinned := by
    intro query member
    have ne : query ≠ block := fun same => apart (same ▸ member)
    simpa [State.bwrite, ne] using
      memory.pinned query (restSubset query member)
  unlogged := by
    intro pid query member
    simp [quiet] at member
  clean := by
    intro query queryHome notRest notUnlogged
    obtain rfl | same := eq_or_ne query block
    · simp [State.bwrite, data_eq]
    · have notDirty : query ∉ dirty := by
        intro member
        rcases covers query member with equal | later
        · exact same equal
        · exact notRest later
      simpa [State.bwrite, same] using memory.clean query queryHome notDirty notUnlogged

end

theorem CacheClean.setBuf (clean : CacheClean state) {buf : Buf}
    (data_eq : buf.data = state.disk block) : CacheClean (state.setBuf block buf) := by
  intro query found stored
  obtain ⟨rfl, rfl⟩ | ⟨-, stored⟩ := stored_cases stored
  · exact data_eq
  · exact clean query found stored

theorem CacheClean.bwrite (clean : CacheClean state) (block : BlockNo) (buf : Buf) :
    CacheClean (state.bwrite block buf) := by
  intro query found stored
  obtain ⟨rfl, rfl⟩ | ⟨ne, stored⟩ := stored_cases stored
  · simp [State.bwrite]
  · simpa [State.bwrite, ne] using clean query found stored

/-- The invariant of the cache does not look at the other fields. -/
theorem Memory.congr {after : State} (memory : Memory geometry current dirty state)
    (cache_eq : after.cache = state.cache) (disk_eq : after.disk = state.disk)
    (unlogged_eq : after.unlogged = state.unlogged) : Memory geometry current dirty after where
  cached := by
    rw [cache_eq, disk_eq]
    exact memory.cached
  pinned := by
    rw [cache_eq]
    exact memory.pinned
  unlogged := by
    rw [cache_eq, unlogged_eq]
    exact memory.unlogged
  clean := by
    rw [disk_eq, unlogged_eq]
    exact memory.clean

theorem CacheClean.setLh (clean : CacheClean state) (lh : List BlockNo) :
    CacheClean (state.setLh lh) := clean

/-- A clean cache over an up-to-date disk. -/
theorem CacheClean.memory (clean : CacheClean state)
    (quiet : ∀ pid, state.unlogged pid = ∅)
    (disk_eq : ∀ block, geometry.Home block → state.disk block = current block) :
    Memory geometry current [] state where
  cached := by
    intro block buf stored
    rw [clean block buf stored]
    split
    next home => exact disk_eq block home
    next => rfl
  pinned := by simp
  unlogged := by simp [quiet]
  clean := fun block home _ _ => (disk_eq block home).symm

end Memory

section Steps

variable {geometry : Geometry} {durable current : BlockNo → Block}
variable {state after : State}

variable {disk : BlockNo → Block} {blocks : List BlockNo} {block : BlockNo} {tail : Nat}

/-- Installing one logged block keeps the disk recoverable. -/
theorem Recoverable.install (recoverable : Recoverable geometry disk durable blocks)
    (member : block ∈ blocks) :
    Recoverable geometry (update disk block (durable block)) durable blocks where
  __ := recoverable
  logged := by
    intro i inside
    have bound : i + 1 < geometry.size := by
      have := recoverable.length_lt
      omega
    have ne : geometry.logBlock i ≠ block := fun same =>
      geometry.logBlock_not_home bound (same ▸ recoverable.home block member)
    rw [update_of_ne ne]
    exact recoverable.logged i inside
  other := by
    intro query home notMember
    have ne : query ≠ block := fun same => notMember (same ▸ member)
    rw [update_of_ne ne]
    exact recoverable.other query home notMember

/-- Whatever a crash interrupts, the disk it leaves is recoverable. -/
theorem PhaseInv.recoverable {phase : Phase}
    (inv : PhaseInv geometry durable current state phase) :
    Recoverable geometry state.disk durable (state.diskHeader geometry) := by
  cases phase with
  | recover recovery =>
    cases recovery with
    | start => exact inv.2.2
    | install tail =>
      rw [inv.2.2.1]
      exact inv.2.2.2.1
  | up commit =>
    cases commit with
    | idle =>
      rw [inv.2.1]
      exact recoverable_nil inv.2.2
    | writeLog tail =>
      rw [inv.2.1]
      exact recoverable_nil inv.2.2.1
    | install tail =>
      rw [inv.2.2.1]
      exact inv.2.2.2.1
    | finish =>
      rw [inv.2.2.2.1]
      exact recoverable_nil inv.2.2.2.2

theorem Inv.crash (inv : Inv geometry durable current state) :
    Inv geometry durable durable state.crash where
  admission := ⟨rfl, fun _ _ => rfl, fun _ => rfl, rfl, nodup_nil, by simp [State.crash],
    by simp [State.crash], geometry.size_pos⟩
  phase := ⟨fun _ _ => rfl, by simp [CacheClean, State.crash], inv.phase.recoverable⟩

/-! ## Recovery -/

theorem Inv.readHead (inv : Inv geometry durable current state)
    (stepped : state.readHead geometry = .ok after) : Inv geometry durable current after := by
  unfold State.readHead at stepped
  split at stepped <;> [rename_i starting; cases stepped]
  cases stepped
  obtain ⟨same, clean, recoverable⟩ := inv.phase_of starting.1
  have read : headerBlocks (state.buf geometry.header).data = state.diskHeader geometry := by
    rw [clean.buf]
    rfl
  rw [read]
  constructor
  · constructor
    · exact inv.admission.outstanding_eq
    · exact inv.admission.unlogged_eq
    · exact fun _ => inv.admission.quiet (by simp [starting.1])
    · simpa [starting.1, Phase.committing] using inv.admission.committing_eq
    · exact recoverable.nodup
    · exact recoverable.home
    · exact recoverable.length_le
    · exact recoverable.length_lt
  · exact ⟨same, clean.setBuf (clean.buf _), rfl, recoverable, by simp⟩

theorem getElem?_split (found : blocks[tail]? = some block) :
    block ∈ blocks ∧ tail < blocks.length ∧
      blocks.take (tail + 1) = blocks.take tail ++ [block] ∧
      blocks.drop tail = block :: blocks.drop (tail + 1) := by
  obtain ⟨inside, rfl⟩ := List.getElem?_eq_some_iff.mp found
  exact ⟨getElem_mem inside, inside, by simp, drop_eq_getElem_cons inside⟩

/-- One more block is installed. -/
theorem installed_succ (takeSucc : blocks.take (tail + 1) = blocks.take tail ++ [block])
    (installed : ∀ query ∈ blocks.take tail, disk query = durable query) :
    ∀ query ∈ blocks.take (tail + 1),
      update disk block (durable block) query = durable query := by
  intro query member
  obtain rfl | same := eq_or_ne query block
  · simp
  · rw [update_of_ne same]
    rw [takeSucc, mem_append, mem_singleton] at member
    exact installed query (member.resolve_right same)

theorem Inv.recoverInstall (inv : Inv geometry durable current state)
    (stepped : state.recoverInstall geometry = .ok after) : Inv geometry durable current after := by
  unfold State.recoverInstall at stepped
  split at stepped <;> [rename_i tail here; cases stepped]
  split at stepped <;> [rename_i block found; cases stepped]
  obtain ⟨middle, copied, rfl⟩ := ok_of_map stepped
  obtain ⟨buf, data_eq, rfl⟩ := copyBlock_ok copied
  obtain ⟨member, inside, takeSucc, -⟩ := getElem?_split found
  obtain ⟨same, clean, headerEq, recoverable, installed⟩ := inv.phase_of here
  have read : buf.data = durable block := by
    obtain ⟨-, rfl⟩ := List.getElem?_eq_some_iff.mp found
    rw [data_eq, clean.buf, recoverable.logged tail inside]
  have headerNe : geometry.header ≠ block := fun equal =>
    geometry.header_not_home (equal ▸ inv.admission.home block member)
  constructor
  · exact inv.admission.move (.refl _) rfl rfl rfl rfl (by simp [here])
      (by simp [here, Phase.committing])
  · refine ⟨same, ?_, ?_, ?_, ?_⟩
    · exact (clean.setBuf (clean.buf _)).bwrite _ _
    · simpa [State.diskHeader, headerNe] using headerEq
    · simpa [read] using recoverable.install member
    · simpa [read] using installed_succ takeSucc installed

theorem take_all (all : tail = blocks.length) : blocks.take tail = blocks := by
  rw [all, take_length]

/-- Once every logged block is installed the whole disk is up to date. -/
theorem Recoverable.disk_eq (recoverable : Recoverable geometry disk durable blocks)
    (installed : ∀ block ∈ blocks, disk block = durable block) (block : BlockNo)
    (home : geometry.Home block) : disk block = durable block := by
  by_cases member : block ∈ blocks
  · exact installed block member
  · exact recoverable.other block home member

/-- Writing the header leaves the blocks outside the log alone. -/
theorem update_header_home (data : Block)
    (home : ∀ block, geometry.Home block → disk block = durable block) (block : BlockNo)
    (isHome : geometry.Home block) :
    update disk geometry.header data block = durable block := by
  have ne : block ≠ geometry.header := fun equal =>
    geometry.header_not_home (equal ▸ isHome)
  rw [update_of_ne ne]
  exact home block isHome

theorem Inv.recoverClear (inv : Inv geometry durable current state)
    (stepped : state.recoverClear geometry = .ok after) : Inv geometry durable current after := by
  unfold State.recoverClear at stepped
  split at stepped <;> [rename_i tail here; cases stepped]
  split at stepped <;> [rename_i all; cases stepped]
  obtain ⟨middle, written, rfl⟩ := ok_of_map stepped
  obtain ⟨buf, data_eq, rfl⟩ := writeHeader_ok written
  obtain ⟨same, clean, -, recoverable, installed⟩ := inv.phase_of here
  rw [take_all all] at installed
  have homeEq := update_header_home buf.data (recoverable.disk_eq installed)
  have cleanAfter : CacheClean ((state.setLh []).bwrite geometry.header buf) :=
    (clean.setLh []).bwrite geometry.header buf
  constructor
  · exact inv.admission.move (nil_sublist _) rfl rfl rfl rfl (by simp [here])
      (by simp [here, Phase.committing])
  · refine ⟨(cleanAfter.memory ?_ ?_).congr rfl rfl rfl, ?_, homeEq⟩
    · exact inv.admission.nothing_unlogged (by simp [here])
    · intro block home
      exact (homeEq block home).trans (same block home).symm
    · simp [State.diskHeader, data_eq, headerBlocks_setHeader_nil]

end Steps

end Xv6.Log
