import Xv6.Lib.Result
import Xv6.Param

/-!
# The redo log and the buffer cache under it

The functions of `kernel/log.c` with the disk, the buffer cache and the file
system code that calls them.  A step contains at most one disk write, and a crash
may come between any two steps.

The cache keeps any number of blocks; a block is dropped only while no process
holds its buffer and the log has not pinned it.  The file system code is any
number of processes that read blocks, change the blocks they hold between
`begin_op` and `end_op`, and call `log_write` for every change before they
release the buffer.
-/

namespace Xv6.Log

open Function (update)

/-- `uint blockno`. -/
abbrev BlockNo := UInt32

/-- The number of 32-bit words in a disk block. -/
abbrev BlockWords : Nat := 256

abbrev Block := Fin BlockWords → UInt32

/-- A process in the file system code. -/
abbrev Pid := Nat

/-- The place of the log on the disk. -/
structure Geometry where
  start : Nat
  size : Nat
  size_pos : 0 < size
  fits : start + size ≤ 2 ^ 31

/-- The log that `mkfs` lays out: after the boot block and the super block,
`nlog = LOGSIZE` blocks. -/
def Geometry.mkfs : Geometry := ⟨2, LOGSIZE, by decide, by decide⟩

namespace Geometry

variable (geometry : Geometry)

def header : BlockNo := UInt32.ofNat geometry.start

/-- `log.start+tail+1`. -/
def logBlock (tail : Nat) : BlockNo := UInt32.ofNat (geometry.start + tail + 1)

/-- The blocks outside the log. -/
def Home (block : BlockNo) : Prop :=
  block.toNat < geometry.start ∨ geometry.start + geometry.size ≤ block.toNat

instance (block : BlockNo) : Decidable (geometry.Home block) :=
  inferInstanceAs (Decidable (_ ∨ _))

end Geometry

/-- Word `index` of a block; a header that names too many blocks would be read
beyond its end. -/
def word (block : Block) (index : Nat) : UInt32 :=
  if bound : index < BlockWords then block ⟨index, bound⟩ else 0

/-- `lh->n` as an `int` loop bound. -/
def headerCount (block : Block) : Nat := (word block 0).toBitVec.toInt.toNat

/-- The block numbers of an on-disk header. -/
def headerBlocks (block : Block) : List BlockNo :=
  (List.range (headerCount block)).map fun i => word block (i + 1)

/-- The header block that `write_head` writes over an old one. -/
def setHeader (block : Block) (lh : List BlockNo) : Block := fun index =>
  if index.val = 0 then UInt32.ofNat lh.length
  else lh.getD (index.val - 1) (block index)

/-- `struct buf`, without the fields that only the cache's own search uses. -/
structure Buf where
  data : Block
  pinned : Bool := false
  holder : Option Pid := none

/-- Where `recover_from_log` is. -/
inductive Recovery where
  | start
  | install (tail : Nat)
  deriving DecidableEq, Repr

/-- Where `commit` is. -/
inductive Commit where
  | idle
  | writeLog (tail : Nat)
  | install (tail : Nat)
  | finish
  deriving DecidableEq, Repr

inductive Phase where
  | recover (at_ : Recovery)
  | up (commit : Commit)
  deriving DecidableEq, Repr

def Phase.isUp : Phase → Bool
  | .recover _ => false
  | .up _ => true

/-- The disk, the cache and `struct log`.  The last three fields record what the
processes between `begin_op` and `end_op` have done: which processes these are,
which blocks each has logged, and which it has changed but not yet logged. -/
structure State where
  disk : BlockNo → Block
  cache : BlockNo → Option Buf := fun _ => none
  lh : List BlockNo := []
  outstanding : Nat := 0
  committing : Bool := false
  phase : Phase := .recover .start
  active : Finset Pid := ∅
  logged : Pid → Finset BlockNo := fun _ => ∅
  unlogged : Pid → Finset BlockNo := fun _ => ∅

inductive Action where
  | crash
  | readHead
  | recoverInstall
  | recoverClear
  | beginOp (pid : Pid)
  | endOp (pid : Pid)
  | bread (pid : Pid) (block : BlockNo)
  | modify (pid : Pid) (block : BlockNo) (data : Block)
  | logWrite (pid : Pid) (block : BlockNo)
  | brelse (pid : Pid) (block : BlockNo)
  | evict (block : BlockNo)
  | writeLog
  | writeHead
  | install
  | clearHead
  | finishCommit

inductive Panic where
  | tooBigTransaction
  | outsideOfTrans
  | committing
  deriving DecidableEq, Repr

inductive Stop where
  | panic (cause : Panic)
  | blocked
  deriving DecidableEq, Repr

namespace State

/-- What `bread` returns. -/
def buf (state : State) (block : BlockNo) : Buf :=
  (state.cache block).getD { data := state.disk block }

/-- Nobody holds the buffer, so that `bread` returns at once. -/
def Free (state : State) (block : BlockNo) : Prop := (state.buf block).holder = none

instance (state : State) (block : BlockNo) : Decidable (state.Free block) :=
  inferInstanceAs (Decidable (_ = _))

@[simps -fullyApplied]
def setBuf (state : State) (block : BlockNo) (buf : Buf) : State :=
  { state with cache := update state.cache block (some buf) }

@[simps -fullyApplied]
def setLh (state : State) (lh : List BlockNo) : State := { state with lh }

@[simps -fullyApplied]
def goto (state : State) (phase : Phase) : State := { state with phase }

/-- `bwrite` of a buffer. -/
@[simps -fullyApplied]
def bwrite (state : State) (block : BlockNo) (buf : Buf) : State :=
  { state with
    cache := update state.cache block (some buf)
    disk := update state.disk block buf.data }

/-- `bread` of two blocks, `memmove` from the one to the other, `bwrite`,
`brelse` of both; `unpin` says whether the target is unpinned. -/
def copyBlock (state : State) (target source : BlockNo) (unpin : Bool) : Except Stop State :=
  if state.Free target ∧ state.Free source then
    let pinned := if unpin then false else (state.buf target).pinned
    .ok ((state.setBuf source (state.buf source)).bwrite target
      { data := (state.buf source).data, pinned := pinned })
  else
    .error .blocked

/-- `write_head`. -/
def writeHeader (geometry : Geometry) (state : State) : Except Stop State :=
  if state.Free geometry.header then
    let buf := state.buf geometry.header
    .ok (state.bwrite geometry.header { buf with data := setHeader buf.data state.lh })
  else
    .error .blocked

/-- A crash loses the memory. -/
def crash (state : State) : State := { disk := state.disk }

/-- One step of `recover_from_log`: `read_head`. -/
def readHead (geometry : Geometry) (state : State) : Except Stop State :=
  if state.phase = .recover .start ∧ state.Free geometry.header then
    let buf := state.buf geometry.header
    .ok (((state.setBuf geometry.header buf).setLh (headerBlocks buf.data)).goto
      (.recover (.install 0)))
  else
    .error .blocked

/-- One iteration of `install_trans(1)`. -/
def recoverInstall (geometry : Geometry) (state : State) : Except Stop State :=
  match state.phase with
  | .recover (.install tail) =>
    match state.lh[tail]? with
    | some block =>
      (state.copyBlock block (geometry.logBlock tail) false).map fun state =>
        state.goto (.recover (.install (tail + 1)))
    | none => .error .blocked
  | _ => .error .blocked

/-- The end of `recover_from_log`. -/
def recoverClear (geometry : Geometry) (state : State) : Except Stop State :=
  match state.phase with
  | .recover (.install tail) =>
    if tail = state.lh.length then
      ((state.setLh []).writeHeader geometry).map fun state => state.goto (.up .idle)
    else
      .error .blocked
  | _ => .error .blocked

def beginOp (state : State) (pid : Pid) : Except Stop State :=
  if state.phase.isUp ∧ pid ∉ state.active then
    if state.committing then
      .error .blocked
    else if LOGSIZE < state.lh.length + (state.outstanding + 1) * MAXOPBLOCKS then
      .error .blocked
    else
      .ok { state with
        outstanding := state.outstanding + 1
        active := insert pid state.active
        logged := update state.logged pid ∅ }
  else
    .error .blocked

def endOp (state : State) (pid : Pid) : Except Stop State :=
  if pid ∈ state.active ∧ state.unlogged pid = ∅ then
    let state := { state with
      outstanding := state.outstanding - 1
      active := state.active.erase pid }
    if state.committing then
      .error (.panic .committing)
    else if state.outstanding = 0 then
      -- `commit` looks at `log.lh.n` only now; no operation is left to change it
      .ok { state with
        committing := true
        phase := if 0 < state.lh.length then .up (.writeLog 0) else .up .finish }
    else
      .ok state
  else
    .error .blocked

def bread (state : State) (pid : Pid) (block : BlockNo) : Except Stop State :=
  if state.phase.isUp ∧ state.Free block then
    .ok (state.setBuf block { state.buf block with holder := some pid })
  else
    .error .blocked

/-- The file system code writes to the data of a buffer it holds. -/
def modify (geometry : Geometry) (state : State) (pid : Pid) (block : BlockNo)
    (data : Block) : Except Stop State :=
  if pid ∈ state.active ∧ geometry.Home block ∧ (state.buf block).holder = some pid then
    .ok { state.setBuf block { state.buf block with data } with
      unlogged := update state.unlogged pid (insert block (state.unlogged pid)) }
  else
    .error .blocked

def logWrite (geometry : Geometry) (state : State) (pid : Pid) (block : BlockNo) :
    Except Stop State :=
  if pid ∈ state.active ∧ geometry.Home block ∧ (state.buf block).holder = some pid then
    if LOGSIZE ≤ state.lh.length ∨ (geometry.size : Int) - 1 ≤ state.lh.length then
      .error (.panic .tooBigTransaction)
    else if state.outstanding < 1 then
      .error (.panic .outsideOfTrans)
    else
      let state := { state with
        logged := update state.logged pid (insert block (state.logged pid))
        unlogged := update state.unlogged pid ((state.unlogged pid).erase block) }
      if block ∈ state.lh then
        .ok state
      else
        .ok { state.setBuf block { state.buf block with pinned := true } with
          lh := state.lh ++ [block] }
  else
    .error .blocked

def brelse (state : State) (pid : Pid) (block : BlockNo) : Except Stop State :=
  if (state.buf block).holder = some pid ∧ block ∉ state.unlogged pid then
    .ok (state.setBuf block { state.buf block with holder := none })
  else
    .error .blocked

/-- `bget` recycles an unused buffer. -/
def evict (state : State) (block : BlockNo) : Except Stop State :=
  if state.Free block ∧ (state.buf block).pinned = false then
    .ok { state with cache := update state.cache block none }
  else
    .error .blocked

/-- One iteration of `write_log`. -/
def writeLog (geometry : Geometry) (state : State) : Except Stop State :=
  match state.phase with
  | .up (.writeLog tail) =>
    match state.lh[tail]? with
    | some block =>
      (state.copyBlock (geometry.logBlock tail) block false).map fun state =>
        state.goto (.up (.writeLog (tail + 1)))
    | none => .error .blocked
  | _ => .error .blocked

/-- The first `write_head` of `commit`. -/
def writeHead (geometry : Geometry) (state : State) : Except Stop State :=
  match state.phase with
  | .up (.writeLog tail) =>
    if tail = state.lh.length then
      (state.writeHeader geometry).map fun state => state.goto (.up (.install 0))
    else
      .error .blocked
  | _ => .error .blocked

/-- One iteration of `install_trans(0)`. -/
def install (geometry : Geometry) (state : State) : Except Stop State :=
  match state.phase with
  | .up (.install tail) =>
    match state.lh[tail]? with
    | some block =>
      (state.copyBlock block (geometry.logBlock tail) true).map fun state =>
        state.goto (.up (.install (tail + 1)))
    | none => .error .blocked
  | _ => .error .blocked

/-- The end of `commit`: `log.lh.n = 0` and the second `write_head`. -/
def clearHead (geometry : Geometry) (state : State) : Except Stop State :=
  match state.phase with
  | .up (.install tail) =>
    if tail = state.lh.length then
      ((state.setLh []).writeHeader geometry).map fun state => state.goto (.up .finish)
    else
      .error .blocked
  | _ => .error .blocked

/-- The end of `end_op` after `commit`. -/
def finishCommit (state : State) : Except Stop State :=
  if state.phase = .up .finish then
    .ok { state with committing := false, phase := .up .idle }
  else
    .error .blocked

/-- One step. -/
def exec (geometry : Geometry) (state : State) : Action → Except Stop State
  | .crash => .ok state.crash
  | .readHead => state.readHead geometry
  | .recoverInstall => state.recoverInstall geometry
  | .recoverClear => state.recoverClear geometry
  | .beginOp pid => state.beginOp pid
  | .endOp pid => state.endOp pid
  | .bread pid block => state.bread pid block
  | .modify pid block data => state.modify geometry pid block data
  | .logWrite pid block => state.logWrite geometry pid block
  | .brelse pid block => state.brelse pid block
  | .evict block => state.evict block
  | .writeLog => state.writeLog geometry
  | .writeHead => state.writeHead geometry
  | .install => state.install geometry
  | .clearHead => state.clearHead geometry
  | .finishCommit => state.finishCommit

def Step (geometry : Geometry) (before : State) (action : Action) (after : State) : Prop :=
  before.exec geometry action = .ok after

/-- A step as a partial function. -/
def tryExec (geometry : Geometry) (state : State) (action : Action) : Option State :=
  (state.exec geometry action).toOption

variable {geometry : Geometry} {action : Action} {before state after : State}

theorem step_of_tryExec (taken : before.tryExec geometry action = some after) :
    before.Step geometry action after :=
  ok_of_mem_toOption taken

/-- Why a step does not complete, if it does not. -/
def stopOf (geometry : Geometry) (state : State) (action : Action) : Option Stop :=
  match state.exec geometry action with
  | .ok _ => none
  | .error stop => some stop

theorem exec_of_stopOf {state : State} {stop : Stop}
    (stops : state.stopOf geometry action = some stop) :
    state.exec geometry action = .error stop := by
  unfold stopOf at stops
  split at stops
  next => cases stops
  next result =>
    cases stops
    exact result

/-- Everything a step does outside the disk and the cache: to the in-memory
header, the operations in progress and the phase. -/
def Effect (before after : State) : Action → Prop
  | .crash => after.lh = [] ∧ after.active = ∅ ∧ after.phase = .recover .start
  | .readHead => after.active = before.active ∧ after.logged = before.logged ∧
      before.phase = .recover .start ∧ after.phase = .recover (.install 0)
  | .recoverInstall => after.active = before.active ∧ after.logged = before.logged ∧
      ∃ tail, before.phase = .recover (.install tail) ∧
        after.phase = .recover (.install (tail + 1))
  | .recoverClear => after.lh = [] ∧ after.active = before.active ∧
      after.logged = before.logged ∧
      ∃ tail, before.phase = .recover (.install tail) ∧ after.phase = .up .idle
  | .beginOp pid => after.lh = before.lh ∧ after.phase = before.phase ∧
      before.phase.isUp = true ∧ pid ∉ before.active ∧
      after.active = insert pid before.active ∧
      after.logged = update before.logged pid ∅ ∧
      before.lh.length + (before.outstanding + 1) * MAXOPBLOCKS ≤ LOGSIZE
  | .endOp pid => after.lh = before.lh ∧ after.logged = before.logged ∧
      pid ∈ before.active ∧ after.active = before.active.erase pid ∧
      (after.phase = before.phase ∨ after.phase = .up (.writeLog 0) ∨ after.phase = .up .finish)
  | .logWrite pid block => after.phase = before.phase ∧ pid ∈ before.active ∧
      after.active = before.active ∧
      after.logged = update before.logged pid (insert block (before.logged pid)) ∧
      after.lh = if block ∈ before.lh then before.lh else before.lh ++ [block]
  | .writeLog => after.lh = before.lh ∧ after.active = before.active ∧
      after.logged = before.logged ∧
      ∃ tail, before.phase = .up (.writeLog tail) ∧ after.phase = .up (.writeLog (tail + 1))
  | .writeHead => after.lh = before.lh ∧ after.active = before.active ∧
      after.logged = before.logged ∧
      ∃ tail, before.phase = .up (.writeLog tail) ∧ after.phase = .up (.install 0)
  | .install => after.lh = before.lh ∧ after.active = before.active ∧
      after.logged = before.logged ∧
      ∃ tail, before.phase = .up (.install tail) ∧ after.phase = .up (.install (tail + 1))
  | .clearHead => after.lh = [] ∧ after.active = before.active ∧
      after.logged = before.logged ∧
      ∃ tail, before.phase = .up (.install tail) ∧ after.phase = .up .finish
  | .finishCommit => after.lh = before.lh ∧ after.active = before.active ∧
      after.logged = before.logged ∧ before.phase = .up .finish ∧ after.phase = .up .idle
  | .bread _ _ | .modify _ _ _ | .brelse _ _ | .evict _ => after.lh = before.lh ∧
      after.active = before.active ∧ after.logged = before.logged ∧ after.phase = before.phase

theorem copyBlock_ok {target source : BlockNo} {unpin : Bool}
    (copied : state.copyBlock target source unpin = .ok after) :
    ∃ buf, buf.data = (state.buf source).data ∧
      after = (state.setBuf source (state.buf source)).bwrite target buf := by
  unfold State.copyBlock at copied
  split at copied
  · cases copied
    refine ⟨_, ?_, rfl⟩
    rfl
  · cases copied

theorem writeHeader_ok (written : state.writeHeader geometry = .ok after) :
    ∃ buf, buf.data = setHeader (state.buf geometry.header).data state.lh ∧
      after = state.bwrite geometry.header buf := by
  unfold State.writeHeader at written
  split at written
  · cases written
    refine ⟨_, ?_, rfl⟩
    rfl
  · cases written

theorem Step.effect (stepped : before.Step geometry action after) : before.Effect after action := by
  unfold Step exec at stepped
  cases action with
  | crash =>
    cases stepped
    exact ⟨rfl, rfl, rfl⟩
  | readHead =>
    simp only [readHead] at stepped
    split at stepped
    next starting =>
      cases stepped
      exact ⟨rfl, rfl, starting.1, rfl⟩
    next => cases stepped
  | recoverInstall =>
    simp only [recoverInstall] at stepped
    split at stepped <;> [rename_i tail here; cases stepped]
    split at stepped <;> [skip; cases stepped]
    obtain ⟨middle, copied, rfl⟩ := ok_of_map stepped
    obtain ⟨buf, -, rfl⟩ := copyBlock_ok copied
    exact ⟨rfl, rfl, tail, here, rfl⟩
  | beginOp pid =>
    simp only [beginOp] at stepped
    split_ifs at stepped with allowed committing full
    cases stepped
    exact ⟨rfl, rfl, allowed.1, allowed.2, rfl, rfl, Nat.le_of_not_lt full⟩
  | endOp pid =>
    simp only [endOp] at stepped
    split_ifs at stepped with allowed committing last some_
    · cases stepped
      exact ⟨rfl, rfl, allowed.1, rfl, Or.inr (Or.inl rfl)⟩
    · cases stepped
      exact ⟨rfl, rfl, allowed.1, rfl, Or.inr (Or.inr rfl)⟩
    · cases stepped
      exact ⟨rfl, rfl, allowed.1, rfl, Or.inl rfl⟩
  | bread | modify | brelse | evict =>
    simp only [bread, modify, brelse, evict] at stepped
    split_ifs at stepped
    cases stepped
    exact ⟨rfl, rfl, rfl, rfl⟩
  | logWrite pid block =>
    simp only [logWrite] at stepped
    split_ifs at stepped with allowed full outside absorbed
    · cases stepped
      exact ⟨rfl, allowed.1, rfl, rfl, by simp [absorbed]⟩
    · cases stepped
      exact ⟨rfl, allowed.1, rfl, rfl, by simp [absorbed]⟩
  | writeLog | install =>
    simp only [writeLog, install] at stepped
    split at stepped <;> [rename_i tail here; cases stepped]
    split at stepped <;> [skip; cases stepped]
    obtain ⟨middle, copied, rfl⟩ := ok_of_map stepped
    obtain ⟨buf, -, rfl⟩ := copyBlock_ok copied
    exact ⟨rfl, rfl, rfl, tail, here, rfl⟩
  | recoverClear | writeHead | clearHead =>
    simp only [recoverClear, writeHead, clearHead] at stepped
    split at stepped <;> [rename_i tail here; cases stepped]
    split at stepped <;> [skip; cases stepped]
    obtain ⟨middle, written, rfl⟩ := ok_of_map stepped
    obtain ⟨buf, -, rfl⟩ := writeHeader_ok written
    exact ⟨rfl, rfl, rfl, tail, here, rfl⟩
  | finishCommit =>
    simp only [finishCommit] at stepped
    split_ifs at stepped with here
    cases stepped
    exact ⟨rfl, rfl, rfl, here, rfl⟩

end State

end Xv6.Log
