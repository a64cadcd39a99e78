import Xv6.Lib.Cyclic
import Xv6.Lib.Transition

/-!
# The virtio disk

`virtio_disk_rw` and `virtio_disk_intr` on one side and the device on the other share three
structures: the descriptors, the ring of submitted chains and the ring of completed ones.  The
device takes submitted chains in order and completes them in any order.  The threads that use the
driver are numbered; each of them makes steps of its own, and what `vdisk_lock` protects is
protected by nothing else here.

A thread that sleeps gives the lock up and may come back at any time, as if it were woken often.
Whoever calls `virtio_disk_rw` has the sleep lock of its buffer, which keeps others from calling it
with the same one.
-/

namespace Xv6.Virtio

open Function (update)

/-- The number of descriptors. -/
def NUM : Nat := 8

/-- What a descriptor points at: a command header, the data of a buffer or a status byte. -/
inductive Addr where
  | null
  | op (index : Nat)
  | data (buf : Nat)
  | status (index : Nat)
  deriving DecidableEq, Repr

/-- `struct virtq_desc`. -/
structure Desc where
  addr : Addr := .null
  len : Nat := 0
  flags : UInt16 := 0
  next : Nat := 0
  deriving DecidableEq, Repr

/-- `VRING_DESC_F_NEXT`. -/
def fNext : UInt16 := 1

/-- `VRING_DESC_F_WRITE`. -/
def fWrite : UInt16 := 2

inductive Panic where
  | freeDesc1
  | freeDesc2
  /-- `free_chain` goes round. -/
  | endless
  | intrStatus
  /-- A fault on a null `struct buf`. -/
  | nullBuf
  deriving DecidableEq, Repr

/-- The three descriptors of a request. -/
structure Chain where
  head : Nat
  second : Nat
  third : Nat
  deriving DecidableEq, Repr

def Chain.indices (chain : Chain) : List Nat := [chain.head, chain.second, chain.third]

/-! ## Descriptors -/

/-- `disk.desc` and `disk.free`. -/
structure Descs where
  desc : Nat → Desc
  free : Nat → Bool

namespace Descs

def allocDesc (descs : Descs) : Option (Nat × Descs) :=
  ((List.range NUM).find? descs.free).map fun i =>
    (i, { descs with free := update descs.free i false })

def freeDesc (descs : Descs) (i : Nat) : Except Panic Descs :=
  if NUM ≤ i then .error .freeDesc1
  else if descs.free i then .error .freeDesc2
  else .ok { desc := update descs.desc i {}, free := update descs.free i true }

/-- The loop of `free_chain`.  Each turn frees another descriptor or panics, so there are at most
`NUM + 1` of them. -/
def freeChain : Nat → Descs → Nat → Except Panic Descs
  | 0, _, _ => .error .endless
  | fuel + 1, descs, i =>
    match descs.freeDesc i with
    | .error panic => .error panic
    | .ok after =>
      if (descs.desc i).flags &&& fNext ≠ 0 then freeChain fuel after (descs.desc i).next
      else .ok after

/-- `alloc3_desc`, with its loop written out. -/
def alloc3Desc (descs : Descs) : Except Panic (Option Chain × Descs) :=
  match descs.allocDesc with
  | none => .ok (none, descs)
  | some (head, one) =>
    match one.allocDesc with
    | none => (one.freeDesc head).map (none, ·)
    | some (second, two) =>
      match two.allocDesc with
      | none => ((two.freeDesc head).bind fun one => one.freeDesc second).map (none, ·)
      | some (third, three) => .ok (some ⟨head, second, third⟩, three)

/-- The three descriptors as `virtio_disk_rw` fills them in. -/
def format (descs : Descs) (chain : Chain) (buf : Nat) (write : Bool) : Descs :=
  let desc := update descs.desc chain.head
    { addr := .op chain.head, len := 16, flags := fNext, next := chain.second }
  let desc := update desc chain.second
    { addr := .data buf, len := 1024, flags := (if write then 0 else fWrite) ||| fNext,
      next := chain.third }
  let desc := update desc chain.third
    { addr := .status chain.head, len := 1, flags := fWrite, next := 0 }
  { descs with desc }

end Descs

/-! ## The system -/

/-- A call of `virtio_disk_rw`; calls are numbered. -/
structure Request where
  serial : Nat
  buf : Nat
  write : Bool
  blockno : UInt32
  deriving DecidableEq, Repr

/-- `struct virtio_blk_req`. -/
structure Op where
  write : Bool
  sector : UInt32
  deriving DecidableEq, Repr

/-- Where a thread is. -/
inductive Pc where
  | idle
  /-- In `virtio_disk_rw`, about to acquire the lock. -/
  | enter (req : Request)
  /-- About to call `alloc3_desc`. -/
  | alloc (req : Request)
  /-- In `sleep(&disk.free[0], &disk.vdisk_lock)`. -/
  | waitFree (req : Request)
  | format (req : Request) (chain : Chain)
  /-- About to write the entry of the ring. -/
  | store (req : Request) (chain : Chain)
  /-- About to advance `disk.avail->idx`. -/
  | submit (req : Request) (chain : Chain)
  /-- At the test of `b->disk`. -/
  | wait (req : Request) (chain : Chain)
  /-- In `sleep(b, &disk.vdisk_lock)`. -/
  | asleep (req : Request) (chain : Chain)
  /-- About to free the chain. -/
  | finish (req : Request) (chain : Chain)
  /-- About to release the lock and return. -/
  | leave (req : Request)
  /-- In `virtio_disk_intr`, about to acquire the lock. -/
  | intrEnter
  /-- At the test of the loop of `virtio_disk_intr`. -/
  | intr
  deriving DecidableEq, Repr

structure System where
  descs : Descs
  ops : Nat → Op
  /-- `disk.info[i].b`. -/
  info : Nat → Option Nat
  /-- `disk.info[i].status`. -/
  status : Nat → UInt8
  availIdx : BitVec 16
  availRing : Nat → Nat
  usedIdx : BitVec 16
  usedRing : Nat → Nat
  /-- `disk.used_idx`. -/
  seen : BitVec 16
  /-- `b->disk` of each buffer. -/
  flag : Nat → Bool
  /-- How far the device has looked in the ring of submitted chains. -/
  fetched : BitVec 16
  /-- The chains that the device works at. -/
  running : List Nat
  /-- The device has written an entry of the ring of completed chains, but not advanced its
  index. -/
  posting : Bool
  /-- `disk.vdisk_lock`. -/
  holder : Option Nat
  pc : Nat → Pc
  /-- The buffers whose sleep lock a caller of `virtio_disk_rw` has. -/
  reserved : Nat → Bool
  /-- The number of calls of `virtio_disk_rw`. -/
  serial : Nat
  /-- The call that has filled in a chain, by its head. -/
  tag : Nat → Nat
  /-- How often the device has completed the chain of a call. -/
  completions : Nat → Nat
  /-- How often `virtio_disk_intr` has cleared the flag for a call. -/
  clears : Nat → Nat
  panic : Option Panic

inductive Action where
  /-- A thread calls `virtio_disk_rw`. -/
  | rw (self buf : Nat) (write : Bool) (blockno : UInt32)
  /-- A thread gets into `virtio_disk_intr`. -/
  | intr (self : Nat)
  /-- A thread makes its next step. -/
  | run (self : Nat)
  /-- The device looks at a submitted chain. -/
  | fetch
  /-- The device has done a request. -/
  | complete (head : Nat)
  | publish
  deriving DecidableEq, Repr

namespace System

def goto (system : System) (self : Nat) (pc : Pc) : System :=
  { system with pc := update system.pc self pc }

def acquire (system : System) (self : Nat) (pc : Pc) : Option System :=
  if system.holder = none then some { system.goto self pc with holder := some self } else none

def release (system : System) (self : Nat) (pc : Pc) : System :=
  { system.goto self pc with holder := none }

def fail (system : System) (panic : Panic) : System := { system with panic := some panic }

def rw (system : System) (self buf : Nat) (write : Bool) (blockno : UInt32) : System :=
  { system.goto self (.enter ⟨system.serial, buf, write, blockno⟩) with
    reserved := update system.reserved buf true
    serial := system.serial + 1 }

def setDescs (system : System) (descs : Descs) : System := { system with descs }

/-- Between `alloc3_desc` and the entry of the ring. -/
def format (system : System) (self : Nat) (req : Request) (chain : Chain) : System :=
  { system.goto self (.store req chain) with
    descs := system.descs.format chain req.buf req.write
    ops := update system.ops chain.head ⟨req.write, req.blockno * 2⟩
    status := update system.status chain.head 0xff
    flag := update system.flag req.buf true
    info := update system.info chain.head (some req.buf)
    tag := update system.tag chain.head req.serial }

def store (system : System) (self : Nat) (req : Request) (chain : Chain) : System :=
  { system.goto self (.submit req chain) with
    availRing :=
      update system.availRing (Cyclic.place NUM system.availIdx) chain.head }

def submit (system : System) (self : Nat) (req : Request) (chain : Chain) : System :=
  { system.goto self (.wait req chain) with availIdx := system.availIdx + 1 }

/-- `disk.info[idx[0]].b = 0` and the end of `free_chain`. -/
def finish (system : System) (self : Nat) (req : Request) (chain : Chain) (descs : Descs) :
    System :=
  { system.goto self (.leave req) with
    descs := descs
    info := update system.info chain.head none }

/-- The return of `virtio_disk_rw`; the caller gives the buffer up. -/
def leave (system : System) (self : Nat) (req : Request) : System :=
  { system.release self .idle with reserved := update system.reserved req.buf false }

/-- The end of an iteration of the loop of `virtio_disk_intr`. -/
def clear (system : System) (id buf : Nat) : System :=
  { system with
    flag := update system.flag buf false
    clears := update system.clears (system.tag id) (system.clears (system.tag id) + 1)
    seen := system.seen + 1 }

/-- An iteration of the loop of `virtio_disk_intr`. -/
def intrStep (system : System) : System :=
  let id := system.usedRing (Cyclic.place NUM system.seen)
  if system.status id ≠ 0 then system.fail .intrStatus
  else
    match system.info id with
    | none => system.fail .nullBuf
    | some buf => system.clear id buf

/-- The next step of a thread. -/
def run (system : System) (self : Nat) : Option System :=
  match system.pc self with
  | .idle => none
  | .enter req | .waitFree req => system.acquire self (.alloc req)
  | .alloc req =>
    match system.descs.alloc3Desc with
    | .error panic => some (system.fail panic)
    | .ok (none, descs) => some ((system.setDescs descs).release self (.waitFree req))
    | .ok (some chain, descs) => some ((system.setDescs descs).goto self (.format req chain))
  | .format req chain => some (system.format self req chain)
  | .store req chain => some (system.store self req chain)
  | .submit req chain => some (system.submit self req chain)
  | .wait req chain =>
    if system.flag req.buf then some (system.release self (.asleep req chain))
    else some (system.goto self (.finish req chain))
  | .asleep req chain => system.acquire self (.wait req chain)
  | .finish req chain =>
    match Descs.freeChain (NUM + 1) system.descs chain.head with
    | .error panic => some (system.fail panic)
    | .ok descs => some (system.finish self req chain descs)
  | .leave req => some (system.leave self req)
  | .intrEnter => system.acquire self .intr
  | .intr =>
    if system.seen = system.usedIdx then some (system.release self .idle) else some system.intrStep

/-- The device takes a submitted chain. -/
def fetch (system : System) : System :=
  { system with
    running := system.running ++ [system.availRing (Cyclic.place NUM system.fetched)]
    fetched := system.fetched + 1 }

/-- The device follows the chain to its last descriptor, writes the status there and enters the head
in the ring of completed chains. -/
def complete (system : System) (head : Nat) : System :=
  let third := system.descs.desc (system.descs.desc (system.descs.desc head).next).next
  { system with
    status :=
      match third.addr with
      | .status i => update system.status i 0
      | _ => system.status
    running := system.running.erase head
    usedRing := update system.usedRing (Cyclic.place NUM system.usedIdx) head
    posting := true
    completions :=
      update system.completions (system.tag head)
        (system.completions (system.tag head) + 1) }

def publish (system : System) : System :=
  { system with posting := false, usedIdx := system.usedIdx + 1 }

def exec (system : System) (action : Action) : Option System :=
  if system.panic ≠ none then none
  else
    match action with
    | .rw self buf write blockno =>
      if system.pc self = .idle ∧ system.reserved buf = false then
        some (system.rw self buf write blockno)
      else none
    | .intr self => if system.pc self = .idle then some (system.goto self .intrEnter) else none
    | .run self => system.run self
    | .fetch => if system.fetched ≠ system.availIdx then some system.fetch else none
    | .complete head =>
      if head ∈ system.running ∧ system.posting = false then some (system.complete head) else none
    | .publish => if system.posting = true then some system.publish else none

def Step (before : System) (action : Action) (after : System) : Prop :=
  before.exec action = some after

/-- After `virtio_disk_init`. -/
def boot : System where
  descs := { desc := fun _ => {}, free := fun i => i < NUM }
  ops := fun _ => ⟨false, 0⟩
  info := fun _ => none
  status := fun _ => 0
  availIdx := 0
  availRing := fun _ => 0
  usedIdx := 0
  usedRing := fun _ => 0
  seen := 0
  flag := fun _ => false
  fetched := 0
  running := []
  posting := false
  holder := none
  pc := fun _ => .idle
  reserved := fun _ => false
  serial := 0
  tag := fun _ => 0
  completions := fun _ => 0
  clears := fun _ => 0
  panic := none

end System

end Xv6.Virtio
