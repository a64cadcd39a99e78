import Xv6.Lib.Circular
import Xv6.Lib.Transition
import Xv6.Param

/-!
# The buffer cache

`kernel/bio.c` with the processes that call it.  A section under `bcache.lock` is a step, and so
are acquiring a buffer's sleep lock and a transfer from or to the disk.  A process may hold
several buffers; those it is about to lock or has just unlocked are in `pc`.

The log pins a buffer for each entry of `log.lh.block`.  That there are at most `LOGSIZE` of them
is seen to by `log_write`, not here.
-/

namespace Xv6.Bio

/-- Size of the disk block cache. -/
abbrev NBUF : Nat := MAXOPBLOCKS * 3

/-- A position in `bcache.buf`; it stands for a `struct buf *`. -/
abbrev Index := Fin NBUF

/-- `struct buf`, but for the links. -/
structure Buf (Data : Type) where
  valid : Bool
  dev : UInt32
  blockno : UInt32
  refcnt : UInt32
  /-- The process that holds the sleep lock. -/
  holder : Option Slot
  data : Data

/-- The block that a buffer holds. -/
def Buf.key {Data : Type} (buf : Buf Data) : UInt32 × UInt32 := (buf.dev, buf.blockno)

/-- A call of `bpin` that `bunpin` has not undone. -/
structure Pin (Data : Type) where
  index : Index
  /-- The block that the buffer held. -/
  key : UInt32 × UInt32
  /-- For a pin by a process that holds the buffer, as `log_write` makes it: what was last stored
  in the buffer. -/
  logged : Option Data

/-- Where a process is. -/
inductive Pc where
  | idle
  /-- In `bget`, about to acquire the sleep lock. -/
  | lock (index : Index)
  /-- In `bread`, with the buffer locked. -/
  | fill (index : Index)
  /-- In `brelse`, after it has released the sleep lock. -/
  | unref (index : Index)
  deriving DecidableEq, Repr

/-- What a process does next. -/
inductive Action (Data : Type) where
  | bread (dev blockno : UInt32)
  /-- It goes on in the call it is in. -/
  | proceed
  /-- It changes the data of a buffer it holds. -/
  | store (index : Index) (data : Data)
  | bwrite (index : Index)
  | brelse (index : Index)
  | bpin (index : Index)
  /-- It undoes a pin, given by its place among them. -/
  | bunpin (place : Nat)
  deriving DecidableEq

structure Cache (Data : Type) where
  buf : Index → Buf Data
  links : Links Index
  disk : UInt32 × UInt32 → Data
  pc : Slot → Pc
  pins : List (Pin Data)

/-- The reference that a process has to a buffer without holding its lock. -/
def Pc.uses (index : Index) : Pc → Nat
  | .lock other | .unref other => if other = index then 1 else 0
  | _ => 0

namespace Cache

variable {Data : Type}

/-- The references that calls of `bread` have made and `brelse` has not given up. -/
def refs (cache : Cache Data) (index : Index) : Nat :=
  (∑ slot, (cache.pc slot).uses index) + (cache.buf index).holder.toList.length

/-- The pins on a buffer. -/
def pinned (cache : Cache Data) (index : Index) : Nat :=
  cache.pins.countP fun pin => pin.index = index

@[simps -fullyApplied links pins pc disk]
def set (cache : Cache Data) (index : Index) (buf : Buf Data) : Cache Data :=
  { cache with buf := Function.update cache.buf index buf }

def setRefcnt (cache : Cache Data) (index : Index) (refcnt : UInt32) : Cache Data :=
  cache.set index { cache.buf index with refcnt }

@[simps -fullyApplied buf links pins]
def goto (cache : Cache Data) (slot : Slot) (pc : Pc) : Cache Data :=
  { cache with pc := Function.update cache.pc slot pc }

/-- `binit`; the buffers are zero. -/
def binit (zero : Data) (disk : UInt32 × UInt32 → Data) : Cache Data where
  buf := fun _ => ⟨false, 0, 0, 0, none, zero⟩
  links := (List.finRange NBUF).foldl (fun links index => links.pushFront index)
    ⟨fun _ => none, fun _ => none⟩
  disk := disk
  pc := fun _ => .idle
  pins := []

/-- The first loop of `bget`. -/
def cached (cache : Cache Data) (dev blockno : UInt32) : Option Index :=
  Links.search cache.links.next
    (fun index => (cache.buf index).dev = dev ∧ (cache.buf index).blockno = blockno)
    (NBUF + 1) (cache.links.next none)

/-- The second loop of `bget`. -/
def leastUsed (cache : Cache Data) : Option Index :=
  Links.search cache.links.prev (fun index => (cache.buf index).refcnt = 0) (NBUF + 1)
    (cache.links.prev none)

/-- `bget` up to the sleep lock, `none` if it panics. -/
def bget (cache : Cache Data) (self : Slot) (dev blockno : UInt32) : Option (Cache Data) :=
  match cache.cached dev blockno with
  | some index =>
    some ((cache.setRefcnt index ((cache.buf index).refcnt + 1)).goto self (.lock index))
  | none =>
    match cache.leastUsed with
    | some index =>
      let buf := cache.buf index
      some ((cache.set index { buf with dev, blockno, valid := false, refcnt := 1 }).goto self
        (.lock index))
    | none => none

/-- The section of `brelse` under `bcache.lock`. -/
def unref (cache : Cache Data) (index : Index) : Cache Data :=
  let refcnt := (cache.buf index).refcnt - 1
  let cache := cache.setRefcnt index refcnt
  if refcnt = 0 then
    { cache with links := (cache.links.unlink index).pushFront index }
  else
    cache

/-- A step of the call that the process is in. -/
def proceed (cache : Cache Data) (self : Slot) : Option (Cache Data) :=
  match cache.pc self with
  | .idle => none
  | .lock index =>
    let buf := cache.buf index
    if buf.holder = none then
      some ((cache.set index { buf with holder := some self }).goto self (.fill index))
    else
      none
  | .fill index =>
    let buf := cache.buf index
    if buf.valid then
      some (cache.goto self .idle)
    else
      some ((cache.set index { buf with data := cache.disk buf.key, valid := true }).goto self
        .idle)
  | .unref index => some ((cache.unref index).goto self .idle)

/-- What is stored in a buffer is what its pins ask for. -/
def restore (index : Index) (data : Data) (pin : Pin Data) : Pin Data :=
  if pin.index = index then { pin with logged := pin.logged.map fun _ => data } else pin

/-- One step of one process, `none` if it cannot be taken or panics. -/
def exec (cache : Cache Data) (self : Slot) : Action Data → Option (Cache Data)
  | .proceed => cache.proceed self
  | .bread dev blockno =>
    if cache.pc self = .idle ∧ dev ≠ 0 then cache.bget self dev blockno else none
  | .store index data =>
    let buf := cache.buf index
    if cache.pc self = .idle ∧ buf.holder = some self then
      some { cache.set index { buf with data } with pins := cache.pins.map (restore index data) }
    else
      none
  | .bwrite index =>
    let buf := cache.buf index
    if cache.pc self = .idle ∧ buf.holder = some self then
      some { cache with disk := Function.update cache.disk buf.key buf.data }
    else
      none
  | .brelse index =>
    let buf := cache.buf index
    if cache.pc self = .idle ∧ buf.holder = some self then
      some ((cache.set index { buf with holder := none }).goto self (.unref index))
    else
      none
  | .bpin index =>
    let buf := cache.buf index
    if cache.pc self = .idle then
      let logged := if buf.holder = some self then some buf.data else none
      some { cache.setRefcnt index (buf.refcnt + 1) with
        pins := ⟨index, buf.key, logged⟩ :: cache.pins }
    else
      none
  | .bunpin place =>
    match cache.pins[place]? with
    | none => none
    | some pin =>
      -- the caller, `install_trans`, has a reference to the buffer
      if cache.pc self = .idle ∧ 0 < cache.refs pin.index then
        some { cache.setRefcnt pin.index ((cache.buf pin.index).refcnt - 1) with
          pins := cache.pins.eraseIdx place }
      else
        none

end Cache

/-- The cache, and when the reference count of each buffer last fell to zero. -/
structure Watched (Data : Type) where
  cache : Cache Data
  clock : Nat
  dropped : Index → Nat

namespace Watched

variable {Data : Type}

/-- The record after a step. -/
def record (watched : Watched Data) (after : Cache Data) : Watched Data where
  cache := after
  clock := watched.clock + 1
  dropped := fun index =>
    if (watched.cache.buf index).refcnt ≠ 0 ∧ (after.buf index).refcnt = 0 then watched.clock
    else watched.dropped index

def exec (watched : Watched Data) (label : Slot × Action Data) : Option (Watched Data) :=
  (watched.cache.exec label.1 label.2).map watched.record

def Step (before : Watched Data) (label : Slot × Action Data) (after : Watched Data) : Prop :=
  before.exec label = some after

/-- A buffer is pinned only while the log has room for another block. -/
def PinsFit (watched : Watched Data) (label : Slot × Action Data) : Prop :=
  ∀ index, label.2 = .bpin index → watched.cache.pins.length < LOGSIZE

instance [DecidableEq Data] (watched : Watched Data) (label : Slot × Action Data) :
    Decidable (watched.PinsFit label) :=
  inferInstanceAs (Decidable (∀ _, _ → _))

/-- Buffers that were never used count as dropped before the start. -/
def boot (zero : Data) (disk : UInt32 × UInt32 → Data) : Watched Data where
  cache := .binit zero disk
  clock := 1
  dropped := fun _ => 0

end Watched

end Xv6.Bio
