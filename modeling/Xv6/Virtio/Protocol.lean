import Xv6.Virtio.Descriptors

/-!
# The protocol of the driver and the device

A chain that has been submitted is in flight until `virtio_disk_intr` has cleared the flag of its
buffer: first in the queue of the device, then posted.  The thread that has submitted it waits, and
while it waits the chain stays as it is.
-/

namespace Xv6.Virtio

open Function Cyclic Virtio.Pc List

/-! ## Positions -/

namespace Pc

/-- The call that a thread is in. -/
def request : Pc → Option Request
  | .enter req | .alloc req | .waitFree req | .leave req => some req
  | .format req _ | .store req _ | .submit req _ | .wait req _ | .asleep req _ | .finish req _ =>
      some req
  | _ => none

/-- The descriptors that a thread has. -/
def chain : Pc → Option Chain
  | .format _ chain | .store _ chain | .submit _ chain => some chain
  | .wait _ chain | .asleep _ chain | .finish _ chain => some chain
  | _ => none

/-- The descriptors are filled in. -/
def formatted : Pc → Option (Request × Chain)
  | .store req chain | .submit req chain => some (req, chain)
  | .wait req chain | .asleep req chain | .finish req chain => some (req, chain)
  | _ => none

/-- The chain is submitted and `b->disk` not seen cleared. -/
def waits : Pc → Option (Request × Chain)
  | .wait req chain | .asleep req chain => some (req, chain)
  | _ => none

/-- `b->disk` is set and the chain not submitted. -/
def raised : Pc → Option Request
  | .store req _ | .submit req _ => some req
  | _ => none

/-- The entry of the ring is written and its index not advanced. -/
def submits : Pc → Option Chain
  | .submit _ chain => some chain
  | _ => none

/-- The chain is not submitted yet. -/
def fresh : Pc → Option Request
  | .enter req | .alloc req | .waitFree req => some req
  | .format req _ | .store req _ | .submit req _ => some req
  | _ => none

/-- `b->disk` has been seen cleared. -/
def ended : Pc → Option Request
  | .finish req _ | .leave req => some req
  | _ => none

/-- The thread has `vdisk_lock`. -/
def locks : Pc → Bool
  | .alloc _ | .format _ _ | .store _ _ | .submit _ _ | .wait _ _ | .finish _ _ | .leave _ => true
  | .intr => true
  | _ => false

/-- All that the invariant looks at, except the lock. -/
def view (pc : Pc) :=
  (pc.request, pc.chain, pc.formatted, pc.waits, pc.raised, pc.submits, pc.fresh, pc.ended)

variable {pc : Pc} {req : Request} {chain : Chain}

theorem chain_of_formatted (formatted : pc.formatted = some (req, chain)) :
    pc.chain = some chain ∧ pc.request = some req := by
  cases pc <;> cases formatted <;> exact ⟨rfl, rfl⟩

theorem formatted_of_waits (waits : pc.waits = some (req, chain)) :
    pc.formatted = some (req, chain) := by
  cases pc <;> cases waits <;> rfl

theorem request_of_raised (raised : pc.raised = some req) : pc.request = some req := by
  cases pc <;> cases raised <;> rfl

theorem request_of_fresh (fresh : pc.fresh = some req) : pc.request = some req := by
  cases pc <;> cases fresh <;> rfl

theorem request_of_ended (ended : pc.ended = some req) : pc.request = some req := by
  cases pc <;> cases ended <;> rfl

theorem phase (request : pc.request = some req) :
    pc.fresh = some req ∨ (∃ chain, pc.waits = some (req, chain)) ∨ pc.ended = some req := by
  cases pc <;> cases request <;> simp [fresh, waits, ended]

theorem locks_of_submits (submits : pc.submits = some chain) : pc.locks = true := by
  cases pc <;> cases submits
  rfl

end Pc

namespace System

variable {system after : System} {self : Nat}

/-! ## The invariant -/

/-- The chains that the device is to do or does. -/
def queue (system : System) : List Nat :=
  system.running ++ Cyclic.contents NUM system.availRing system.fetched system.availIdx

/-- The chains that the device has completed and `virtio_disk_intr` has not looked at. -/
def posted (system : System) : List Nat :=
  Cyclic.contents NUM system.usedRing system.seen system.usedIdx ++
    if system.posting then [system.usedRing (Cyclic.place NUM system.usedIdx)] else []

def flight (system : System) : List Nat := system.queue ++ system.posted

/-- The chains of the threads. -/
structure Chains (system : System) : Prop where
  distinct : ∀ t chain, (system.pc t).chain = some chain → chain.indices.Nodup
  bound : ∀ t chain, (system.pc t).chain = some chain → ∀ i ∈ chain.indices, i < NUM
  disjoint : ∀ t t' chain chain', (system.pc t).chain = some chain →
    (system.pc t').chain = some chain' → ∀ i ∈ chain.indices, i ∈ chain'.indices → t = t'
  free : ∀ i < NUM, system.descs.free i = false ↔
    ∃ t chain, (system.pc t).chain = some chain ∧ i ∈ chain.indices

/-- The calls that the threads are in. -/
structure Requests (system : System) : Prop where
  reserved : ∀ t req, (system.pc t).request = some req → system.reserved req.buf = true
  serial : ∀ t req, (system.pc t).request = some req → req.serial < system.serial
  buf : ∀ t t' req req', (system.pc t).request = some req → (system.pc t').request = some req' →
    req.buf = req'.buf → t = t'
  number : ∀ t t' req req', (system.pc t).request = some req → (system.pc t').request = some req' →
    req.serial = req'.serial → t = t'

/-- What is written down about a chain. -/
structure Formats (system : System) : Prop where
  linked : ∀ t req chain, (system.pc t).formatted = some (req, chain) → system.descs.Linked chain
  info : ∀ t req chain, (system.pc t).formatted = some (req, chain) →
    system.info chain.head = some req.buf
  tag : ∀ t req chain, (system.pc t).formatted = some (req, chain) →
    system.tag chain.head = req.serial

/-- The chains in flight are those of the threads that wait. -/
structure Flight (system : System) : Prop where
  nodup : system.flight.Nodup
  owner : ∀ head ∈ system.flight, ∃ t req chain,
    (system.pc t).waits = some (req, chain) ∧ chain.head = head
  flag : ∀ t req chain, (system.pc t).waits = some (req, chain) →
    (system.flag req.buf = true ↔ chain.head ∈ system.flight)
  raised : ∀ t req, (system.pc t).raised = some req → system.flag req.buf = true
  stored : ∀ t chain, (system.pc t).submits = some chain →
    system.availRing (Cyclic.place NUM system.availIdx) = chain.head
  done : ∀ head ∈ system.posted, system.status head = 0

/-- How often the chain of a call has been completed and its flag cleared. -/
def Counted (system : System) (serial completed cleared : Nat) : Prop :=
  system.completions serial = completed ∧ system.clears serial = cleared

structure Counts (system : System) : Prop where
  fresh : ∀ t req, (system.pc t).fresh = some req → system.Counted req.serial 0 0
  waits : ∀ t req chain, (system.pc t).waits = some (req, chain) →
    system.Counted req.serial (if chain.head ∈ system.queue then 0 else 1)
      (if chain.head ∈ system.flight then 0 else 1)
  ended : ∀ t req, (system.pc t).ended = some req → system.Counted req.serial 1 1
  later : ∀ serial, system.serial ≤ serial → system.Counted serial 0 0
  past : ∀ serial < system.serial,
    (∃ t req, (system.pc t).request = some req ∧ req.serial = serial) ∨ system.Counted serial 1 1

structure Inv (system : System) : Prop where
  locked : ∀ t, (system.pc t).locks = true → system.holder = some t
  chains : system.Chains
  requests : system.Requests
  formats : system.Formats
  flight : system.Flight
  counts : system.Counts
  panic : system.panic = none

/-! ## Steps that change less -/

variable {next : Pc}

/-- A property of the positions that a move of one thread keeps. -/
theorem proj_update {Value : Type} (project : Pc → Value) {pc : Nat → Pc}
    (same : project next = project (pc self)) (t : Nat) :
    project (update pc self next t) = project (pc t) := by
  obtain rfl | acts := eq_or_ne t self
  · rw [update_self, same]
  · rw [update_of_ne acts]

theorem proj_from {Value : Type} (project : Pc → Value) {pc : Nat → Pc} {current next : Pc}
    (here : pc self = current) (same : project next = project current) (t : Nat) :
    project (update pc self next t) = project (pc t) :=
  proj_update project (same.trans (congrArg project here.symm)) t

theorem Chains.frame (chains : system.Chains)
    (same : ∀ t, (after.pc t).chain = (system.pc t).chain)
    (free : after.descs.free = system.descs.free) : after.Chains where
  distinct := by simpa only [same] using chains.distinct
  bound := by simpa only [same] using chains.bound
  disjoint := by simpa only [same] using chains.disjoint
  free := by simpa only [same, free] using chains.free

theorem Requests.frame (requests : system.Requests)
    (same : ∀ t, (after.pc t).request = (system.pc t).request)
    (reserved : after.reserved = system.reserved) (serial : after.serial = system.serial) :
    after.Requests where
  reserved := by simpa only [same, reserved] using requests.reserved
  serial := by simpa only [same, serial] using requests.serial
  buf := by simpa only [same] using requests.buf
  number := by simpa only [same] using requests.number

theorem Formats.frame (formats : system.Formats)
    (same : ∀ t, (after.pc t).formatted = (system.pc t).formatted)
    (linked : ∀ t req chain, (system.pc t).formatted = some (req, chain) →
      after.descs.Linked chain)
    (info : after.info = system.info) (tag : after.tag = system.tag) : after.Formats where
  linked := by simpa only [same] using linked
  info := by simpa only [same, info] using formats.info
  tag := by simpa only [same, tag] using formats.tag

theorem Flight.stored_frame (flight : system.Flight)
    (submits : ∀ t, (after.pc t).submits = (system.pc t).submits)
    (ring : after.availRing = system.availRing) (idx : after.availIdx = system.availIdx) (t : Nat)
    (chain : Chain) (here : (after.pc t).submits = some chain) :
    after.availRing (place NUM after.availIdx) = chain.head := by
  rw [ring, idx]
  exact flight.stored t chain (submits t ▸ here)

theorem Flight.frame (flight : system.Flight)
    (waits : ∀ t, (after.pc t).waits = (system.pc t).waits)
    (raised : ∀ t, (after.pc t).raised = (system.pc t).raised)
    (stored : ∀ t chain, (after.pc t).submits = some chain →
      after.availRing (place NUM after.availIdx) = chain.head)
    (queue : after.queue = system.queue) (posted : after.posted = system.posted)
    (flag : after.flag = system.flag) (status : after.status = system.status) : after.Flight := by
  have all : after.flight = system.flight := by rw [System.flight, queue, posted]; rfl
  constructor
  · simpa only [all] using flight.nodup
  · simpa only [all, waits] using flight.owner
  · simpa only [all, waits, flag] using flight.flag
  · simpa only [raised, flag] using flight.raised
  · exact stored
  · simpa only [posted, status] using flight.done

theorem Counts.frame (counts : system.Counts)
    (fresh : ∀ t, (after.pc t).fresh = (system.pc t).fresh)
    (waits : ∀ t, (after.pc t).waits = (system.pc t).waits)
    (ended : ∀ t, (after.pc t).ended = (system.pc t).ended)
    (request : ∀ t, (after.pc t).request = (system.pc t).request)
    (queue : after.queue = system.queue) (flight : after.flight = system.flight)
    (serial : after.serial = system.serial) (completions : after.completions = system.completions)
    (clears : after.clears = system.clears) : after.Counts := by
  have counted : ∀ s m n, system.Counted s m n → after.Counted s m n := by
    intro s m n counted
    rwa [Counted, completions, clears]
  constructor
  · exact fun t req here => counted _ _ _ (counts.fresh t req (fresh t ▸ here))
  · intro t req chain here
    rw [queue, flight]
    exact counted _ _ _ (counts.waits t req chain (waits t ▸ here))
  · exact fun t req here => counted _ _ _ (counts.ended t req (ended t ▸ here))
  · exact fun s late => counted _ _ _ (counts.later s (serial ▸ late))
  · intro s early
    rcases counts.past s (serial ▸ early) with ⟨t, req, here, number⟩ | both
    · exact .inl ⟨t, req, (request t).trans here, number⟩
    · exact .inr (counted _ _ _ both)

section

variable (inv : system.Inv)
include inv

/-- A thread moves on without touching more than the lock. -/
theorem Inv.move {holder : Option Nat} (same : next.view = (system.pc self).view)
    (locked : ∀ t, (update system.pc self next t).locks = true → holder = some t) :
    Inv { system.goto self next with holder := holder } := by
  simp only [view, Prod.mk.injEq] at same
  obtain ⟨request, chain, formatted, waits, raised, submits, fresh, ended⟩ := same
  exact
    { locked := locked
      chains := inv.chains.frame (proj_update Pc.chain chain) rfl
      requests := inv.requests.frame (proj_update Pc.request request) rfl rfl
      formats := inv.formats.frame (proj_update Pc.formatted formatted) inv.formats.linked rfl rfl
      flight := inv.flight.frame (proj_update Pc.waits waits) (proj_update Pc.raised raised)
        (inv.flight.stored_frame (proj_update Pc.submits submits) rfl rfl) rfl rfl rfl rfl
      counts := inv.counts.frame (proj_update Pc.fresh fresh) (proj_update Pc.waits waits)
        (proj_update Pc.ended ended) (proj_update Pc.request request) rfl rfl rfl rfl rfl
      panic := inv.panic }

/-- Who has the lock after a thread has moved on with it. -/
theorem Inv.locked_goto (keeps : next.locks = true → (system.pc self).locks = true) (t : Nat)
    (locks : (update system.pc self next t).locks = true) : system.holder = some t := by
  obtain rfl | acts := eq_or_ne t self
  · rw [update_self] at locks
    exact inv.locked t (keeps locks)
  · rw [update_of_ne acts] at locks
    exact inv.locked t locks

theorem Inv.locked_acquire (free : system.holder = none) (t : Nat)
    (locks : (update system.pc self next t).locks = true) : some self = some t := by
  by_cases acts : t = self
  · rw [acts]
  · rw [update_of_ne acts] at locks
    rw [inv.locked t locks] at free
    cases free

theorem Inv.locked_release (had : (system.pc self).locks = true) (gives : next.locks = false)
    (t : Nat) (locks : (update system.pc self next t).locks = true) : none = some t := by
  obtain rfl | acts := eq_or_ne t self
  · rw [update_self, gives] at locks
    cases locks
  · rw [update_of_ne acts] at locks
    have owner := inv.locked self had
    rw [inv.locked t locks, Option.some.injEq] at owner
    exact absurd owner acts

theorem Inv.acquire (same : next.view = (system.pc self).view)
    (taken : system.acquire self next = some after) : after.Inv := by
  unfold System.acquire at taken
  split_ifs at taken with free
  cases taken
  exact inv.move same (inv.locked_acquire free)

theorem Inv.release (same : next.view = (system.pc self).view) (had : (system.pc self).locks = true)
    (gives : next.locks = false) : (system.release self next).Inv :=
  inv.move same (inv.locked_release had gives)

theorem Inv.intr (idle : system.pc self = .idle) : (system.goto self .intrEnter).Inv :=
  inv.move (by rw [idle]; rfl) (inv.locked_goto nofun)

/-! ## A call starts and ends -/

end

theorem of_update {Value : Type} (project : Pc → Option Value) {pc : Nat → Pc} {t : Nat}
    {value : Value} (found : project (update pc self next t) = some value) :
    t = self ∧ project next = some value ∨ t ≠ self ∧ project (pc t) = some value := by
  obtain rfl | acts := eq_or_ne t self
  · rw [update_self] at found
    exact .inl ⟨rfl, found⟩
  · rw [update_of_ne acts] at found
    exact .inr ⟨acts, found⟩

/-- The process that acts has nothing afterwards. -/
theorem of_update_none {Value : Type} (project : Pc → Option Value) (gone : project next = none)
    {pc : Nat → Pc} {t : Nat} {value : Value}
    (found : project (update pc self next t) = some value) :
    t ≠ self ∧ project (pc t) = some value := by
  rcases of_update project found with ⟨-, same⟩ | other
  · rw [gone] at same
    cases same
  · exact other

/-- It had nothing before. -/
theorem to_update {Value : Type} (project : Pc → Option Value) {pc : Nat → Pc} {now : Pc}
    (here : pc self = now) (without : project now = none) {t : Nat} {value : Value}
    (found : project (pc t) = some value) :
    t ≠ self ∧ project (update pc self next t) = some value := by
  have other : t ≠ self := by
    rintro rfl
    rw [here, without] at found
    cases found
  rw [update_of_ne other]
  exact ⟨other, found⟩

theorem Requests.rw (requests : system.Requests) {buf : Nat}
    (available : system.reserved buf = false)
    (write : Bool) (blockno : UInt32) : (system.rw self buf write blockno).Requests := by
  have kept : ∀ t req, (system.pc t).request = some req → req.buf ≠ buf := by
    rintro t req here rfl
    rw [requests.reserved t req here] at available
    cases available
  constructor
  · intro t req here
    rcases of_update request here with ⟨-, same⟩ | ⟨-, here⟩
    · cases same
      exact update_self ..
    · exact (update_of_ne (kept t req here) _ _).trans (requests.reserved t req here)
  · intro t req here
    rcases of_update request here with ⟨-, same⟩ | ⟨-, here⟩
    · cases same
      exact Nat.lt_succ_self _
    · exact Nat.lt_succ_of_lt (requests.serial t req here)
  · intro t t' req req' here here' same
    rcases of_update request here with ⟨rfl, new⟩ | ⟨-, old⟩ <;>
      rcases of_update request here' with ⟨rfl, new'⟩ | ⟨-, old'⟩
    · rfl
    · cases new
      exact absurd same.symm (kept t' req' old')
    · cases new'
      exact absurd same (kept t req old)
    · exact requests.buf t t' req req' old old' same
  · intro t t' req req' here here' same
    rcases of_update request here with ⟨rfl, new⟩ | ⟨-, old⟩ <;>
      rcases of_update request here' with ⟨rfl, new'⟩ | ⟨-, old'⟩
    · rfl
    · cases new
      exact absurd same.symm (requests.serial t' req' old').ne
    · cases new'
      exact absurd same (requests.serial t req old).ne
    · exact requests.number t t' req req' old old' same

theorem Counts.rw (counts : system.Counts) (idle : system.pc self = .idle) (buf : Nat)
    (write : Bool)
    (blockno : UInt32) : (system.rw self buf write blockno).Counts := by
  constructor
  · intro t req here
    rcases of_update Pc.fresh here with ⟨-, same⟩ | ⟨-, here⟩
    · cases same
      exact counts.later system.serial le_rfl
    · exact counts.fresh t req here
  · exact fun t req chain here => counts.waits t req chain (of_update_none Pc.waits rfl here).2
  · exact fun t req here => counts.ended t req (of_update_none Pc.ended rfl here).2
  · exact fun serial late => counts.later serial (Nat.le_of_succ_le late)
  · intro serial early
    rcases Nat.lt_succ_iff_lt_or_eq.mp early with early | rfl
    · refine (counts.past serial early).imp (fun ⟨t, req, here, number⟩ => ⟨t, req, ?_, number⟩) id
      exact (to_update request idle rfl here).2
    · refine .inl ⟨self, ⟨_, buf, write, blockno⟩, ?_, rfl⟩
      exact congrArg request (update_self self (.enter ⟨_, buf, write, blockno⟩) system.pc)

theorem Inv.rw (inv : system.Inv) (idle : system.pc self = .idle) {buf : Nat}
    (available : system.reserved buf = false) (write : Bool) (blockno : UInt32) :
    (system.rw self buf write blockno).Inv where
  locked := inv.locked_goto nofun
  chains := inv.chains.frame (proj_from chain idle rfl) rfl
  requests := inv.requests.rw available write blockno
  formats := inv.formats.frame (proj_from formatted idle rfl) inv.formats.linked rfl rfl
  flight := inv.flight.frame (proj_from waits idle rfl)
    (proj_from raised idle rfl)
    (inv.flight.stored_frame (proj_from submits idle rfl) rfl rfl) rfl rfl rfl rfl
  counts := inv.counts.rw idle buf write blockno
  panic := inv.panic

variable {req : Request} {descs : Descs}

theorem Inv.leave (inv : system.Inv) (here : system.pc self = .leave req) :
    (system.leave self req).Inv := by
  unfold System.leave System.release System.goto
  exact {
    locked := inv.locked_release (by rw [here]; rfl) rfl
    chains := inv.chains.frame (proj_from chain here rfl) rfl
    requests := by
      have kept : ∀ t req', (update system.pc self .idle t).request = some req' →
          t ≠ self ∧ (system.pc t).request = some req' :=
        fun _ _ => of_update_none request rfl
      constructor
      · intro t req' found
        obtain ⟨other, found⟩ := kept t req' found
        refine (update_of_ne (fun same => other ?_) _ _).trans
          (inv.requests.reserved t req' found)
        exact inv.requests.buf t self req' req found (by rw [here]; rfl) same
      · exact fun t req' found => inv.requests.serial t req' (kept t req' found).2
      · exact fun t t' req' req'' found found' =>
          inv.requests.buf t t' req' req'' (kept t req' found).2 (kept t' req'' found').2
      · exact fun t t' req' req'' found found' =>
          inv.requests.number t t' req' req'' (kept t req' found).2 (kept t' req'' found').2
    formats := inv.formats.frame (proj_from formatted here rfl) inv.formats.linked rfl rfl
    flight := inv.flight.frame (proj_from waits here rfl)
      (proj_from raised here rfl)
      (inv.flight.stored_frame (proj_from submits here rfl) rfl rfl) rfl rfl rfl rfl
    counts := by
      have counts := inv.counts
      constructor
      · exact fun t req' found => counts.fresh t req' (of_update_none fresh rfl found).2
      · exact fun t req' chain found =>
          counts.waits t req' chain (of_update_none waits rfl found).2
      · exact fun t req' found => counts.ended t req' (of_update_none ended rfl found).2
      · exact counts.later
      · intro serial early
        rcases counts.past serial early with ⟨t, req', found, rfl⟩ | both
        · obtain rfl | acts := eq_or_ne t self
          · rw [here] at found
            cases found
            exact .inr (counts.ended t req (by rw [here]; rfl))
          · exact .inl ⟨t, req', (congrArg request (update_of_ne acts _ _)).trans found,
              rfl⟩
        · exact .inr both
    panic := inv.panic }

/-! ## Descriptors are taken and given back -/

/-- The descriptors that are in use stay as they are. -/
theorem Inv.setDescs (inv : system.Inv) (free : descs.free = system.descs.free)
    (same : ∀ i, system.descs.free i = false → descs.desc i = system.descs.desc i) :
    (system.setDescs descs).Inv where
  locked := inv.locked
  chains := inv.chains.frame (fun _ => rfl) free
  requests := inv.requests.frame (fun _ => rfl) rfl rfl
  formats := by
    refine inv.formats.frame (fun _ => rfl) (fun t req chain found => ?_) rfl rfl
    have owned := (chain_of_formatted found).1
    refine (inv.formats.linked t req chain found).congr fun i member => same i ?_
    exact (inv.chains.free i (inv.chains.bound t chain owned i member)).mpr
      ⟨t, chain, owned, member⟩
  flight := inv.flight.frame (fun _ => rfl) (fun _ => rfl)
    (inv.flight.stored_frame (fun _ => rfl) rfl rfl) rfl rfl rfl rfl
  counts := inv.counts.frame (fun _ => rfl) (fun _ => rfl) (fun _ => rfl) (fun _ => rfl) rfl rfl rfl
    rfl rfl
  panic := inv.panic

variable {chain : Chain}

theorem Inv.allocated (inv : system.Inv) (here : system.pc self = .alloc req)
    (distinct : chain.indices.Nodup)
    (were : ∀ i ∈ chain.indices, i < NUM ∧ system.descs.free i = true)
    (desc : descs.desc = system.descs.desc)
    (free : ∀ i, descs.free i = if i ∈ chain.indices then false else system.descs.free i) :
    ((system.setDescs descs).goto self (.format req chain)).Inv where
  locked := inv.locked_goto fun _ => by rw [here]; rfl
  chains := by
    have apart : ∀ t chain', (system.pc t).chain = some chain' →
        ∀ i ∈ chain.indices, i ∉ chain'.indices := by
      intro t chain' owned i member member'
      have used := (inv.chains.free i (were i member).1).mpr ⟨t, chain', owned, member'⟩
      rw [(were i member).2] at used
      cases used
    constructor
    · intro t chain' owned
      rcases of_update Pc.chain owned with ⟨-, same⟩ | ⟨-, owned⟩
      · cases same
        exact distinct
      · exact inv.chains.distinct t chain' owned
    · intro t chain' owned
      rcases of_update Pc.chain owned with ⟨-, same⟩ | ⟨-, owned⟩
      · cases same
        exact fun i member => (were i member).1
      · exact inv.chains.bound t chain' owned
    · intro t t' one two owned owned' i member member'
      rcases of_update Pc.chain owned with ⟨rfl, same⟩ | ⟨-, old⟩ <;>
        rcases of_update Pc.chain owned' with ⟨rfl, same'⟩ | ⟨-, old'⟩
      · rfl
      · cases same
        exact absurd member' (apart t' two old' i member)
      · cases same'
        exact absurd member (apart t one old i member')
      · exact inv.chains.disjoint t t' one two old old' i member member'
    · intro i bound
      change descs.free i = false ↔ _
      rw [free]
      split_ifs with member
      · refine ⟨fun _ => ⟨self, chain, ?_, member⟩, fun _ => rfl⟩
        exact congrArg Pc.chain (update_self self (.format req chain) system.pc)
      · rw [inv.chains.free i bound]
        constructor
        · rintro ⟨t, chain', owned, member'⟩
          exact ⟨t, chain', (to_update Pc.chain here rfl owned).2, member'⟩
        · rintro ⟨t, chain', owned, member'⟩
          rcases of_update Pc.chain owned with ⟨-, same⟩ | ⟨-, owned⟩
          · cases same
            exact absurd member' member
          · exact ⟨t, chain', owned, member'⟩
  requests := inv.requests.frame (proj_from request here rfl) rfl rfl
  formats := by
    refine inv.formats.frame (proj_from formatted here rfl)
      (fun t req' chain' found => ?_) rfl rfl
    exact (inv.formats.linked t req' chain' found).congr fun i _ => congrFun desc i
  flight := inv.flight.frame (proj_from waits here rfl)
    (proj_from raised here rfl)
    (inv.flight.stored_frame (proj_from submits here rfl) rfl rfl) rfl rfl rfl rfl
  counts := inv.counts.frame (proj_from fresh here rfl)
    (proj_from waits here rfl) (proj_from ended here rfl)
    (proj_from request here rfl) rfl rfl rfl rfl rfl
  panic := inv.panic

theorem Inv.finish (inv : system.Inv) (here : system.pc self = .finish req chain)
    (free : ∀ i, descs.free i = if i ∈ chain.indices then true else system.descs.free i)
    (desc : ∀ i, i ∉ chain.indices → descs.desc i = system.descs.desc i) :
    (system.finish self req chain descs).Inv where
  locked := inv.locked_goto fun _ => by rw [here]; rfl
  chains := by
    have kept : ∀ t chain', (update system.pc self (.leave req) t).chain = some chain' →
        t ≠ self ∧ (system.pc t).chain = some chain' :=
      fun _ _ => of_update_none Pc.chain rfl
    constructor
    · exact fun t chain' owned => inv.chains.distinct t chain' (kept t chain' owned).2
    · exact fun t chain' owned => inv.chains.bound t chain' (kept t chain' owned).2
    · exact fun t t' one two owned owned' =>
        inv.chains.disjoint t t' one two (kept t one owned).2 (kept t' two owned').2
    · intro i bound
      change descs.free i = false ↔ _
      rw [free]
      split_ifs with member
      · simp only [false_iff, not_exists, not_and]
        intro t chain' owned member'
        obtain ⟨other, owned⟩ := kept t chain' owned
        exact other (inv.chains.disjoint t self chain' chain owned (by rw [here]; rfl)
          i member' member)
      · rw [inv.chains.free i bound]
        constructor
        · rintro ⟨t, chain', owned, member'⟩
          refine ⟨t, chain', ?_, member'⟩
          have other : t ≠ self := by
            rintro rfl
            rw [here] at owned
            cases owned
            exact member member'
          exact (congrArg Pc.chain (update_of_ne other _ _)).trans owned
        · rintro ⟨t, chain', owned, member'⟩
          exact ⟨t, chain', (kept t chain' owned).2, member'⟩
  requests := inv.requests.frame (proj_from request here rfl) rfl rfl
  formats := by
    have kept : ∀ t req' chain', (update system.pc self (.leave req) t).formatted =
        some (req', chain') → (system.pc t).formatted = some (req', chain') ∧
          ∀ i ∈ chain'.indices, i ∉ chain.indices := by
      intro t req' chain' found
      obtain ⟨other, found⟩ := of_update_none formatted rfl found
      refine ⟨found, fun i member member' => other ?_⟩
      exact inv.chains.disjoint t self chain' chain (chain_of_formatted found).1
        (by rw [here]; rfl) i member member'
    constructor
    · intro t req' chain' found
      obtain ⟨found, apart⟩ := kept t req' chain' found
      exact (inv.formats.linked t req' chain' found).congr fun i member => desc i (apart i member)
    · intro t req' chain' found
      obtain ⟨found, apart⟩ := kept t req' chain' found
      refine (update_of_ne (fun same => ?_) _ _).trans (inv.formats.info t req' chain' found)
      exact apart chain'.head (by simp [Chain.indices]) (by simp [Chain.indices, same])
    · exact fun t req' chain' found => inv.formats.tag t req' chain' (kept t req' chain' found).1
  flight := inv.flight.frame (proj_from waits here rfl)
    (proj_from raised here rfl)
    (inv.flight.stored_frame (proj_from submits here rfl) rfl rfl) rfl rfl rfl rfl
  counts := inv.counts.frame (proj_from fresh here rfl)
    (proj_from waits here rfl) (proj_from ended here rfl)
    (proj_from request here rfl) rfl rfl rfl rfl rfl
  panic := inv.panic

/-! ## A chain is submitted -/

theorem head_mem (chain : Chain) : chain.head ∈ chain.indices := by
  simp [Chain.indices]

/-- A thread that does not wait has no chain in flight. -/
theorem Inv.grounded (inv : system.Inv) (owned : (system.pc self).chain = some chain)
    (still : (system.pc self).waits = none) : chain.head ∉ system.flight := by
  intro member
  obtain ⟨t, req, chain', waits, same⟩ := inv.flight.owner _ member
  have owned' := (chain_of_formatted (formatted_of_waits waits)).1
  have one : t = self :=
    inv.chains.disjoint t self chain' chain owned' owned chain'.head (head_mem chain')
      (same ▸ head_mem chain)
  rw [one, still] at waits
  cases waits

/-- Two threads that wait have different chains. -/
theorem Inv.waits_ne (inv : system.Inv) {t t' : Nat} {req req' : Request} {chain chain' : Chain}
    (waits : (system.pc t).waits = some (req, chain))
    (waits' : (system.pc t').waits = some (req', chain')) (other : t' ≠ t) :
    chain'.head ≠ chain.head := by
  intro same
  refine other (inv.chains.disjoint t' t chain' chain
    (chain_of_formatted (formatted_of_waits waits')).1
    (chain_of_formatted (formatted_of_waits waits)).1 chain'.head (head_mem chain') ?_)
  rw [same]
  exact head_mem chain

theorem Inv.flight_lt (inv : system.Inv) {head : Nat} (member : head ∈ system.flight) :
    head < NUM := by
  obtain ⟨t, req, chain, waits, rfl⟩ := inv.flight.owner head member
  exact inv.chains.bound t chain (chain_of_formatted (formatted_of_waits waits)).1 _
    (head_mem chain)

theorem length_le_of_nodup {list : List Nat} (nodup : list.Nodup) (bound : ∀ i ∈ list, i < NUM) :
    list.length ≤ NUM := by
  have within : list ⊆ range NUM := fun i member => mem_range.mpr (bound i member)
  simpa using (subperm_of_subset nodup within).length_le

variable (inv : system.Inv)
include inv

theorem Inv.flight_length : system.flight.length ≤ NUM :=
  length_le_of_nodup inv.flight.nodup fun _ member => inv.flight_lt member

/-- There is room in the ring for a chain that is not in flight. -/
theorem Inv.avail_room (owned : (system.pc self).chain = some chain)
    (still : (system.pc self).waits = none) : span system.fetched system.availIdx < NUM := by
  have nodup : (chain.head :: system.flight).Nodup :=
    nodup_cons.mpr ⟨inv.grounded owned still, inv.flight.nodup⟩
  have bound : (chain.head :: system.flight).length ≤ NUM := by
    refine length_le_of_nodup nodup fun i member => ?_
    rcases mem_cons.mp member with rfl | member
    · exact inv.chains.bound self chain owned _ (head_mem chain)
    · exact inv.flight_lt member
  have waiting : (contents NUM system.availRing system.fetched system.availIdx).length =
      span system.fetched system.availIdx := contents_length _ _
  simp only [System.flight, System.queue, length_cons, length_append] at bound
  omega

theorem Inv.format (here : system.pc self = .format req chain) :
    (system.format self req chain).Inv where
  locked := inv.locked_goto fun _ => by rw [here]; rfl
  chains := inv.chains.frame (proj_from Pc.chain here rfl) rfl
  requests := inv.requests.frame (proj_from request here rfl) rfl rfl
  formats := by
    have owned : (system.pc self).chain = some chain := by rw [here]; rfl
    have kept : ∀ t req' chain', t ≠ self → (system.pc t).formatted = some (req', chain') →
        ∀ i ∈ chain'.indices, i ∉ chain.indices := by
      intro t req' chain' other found i member member'
      exact other (inv.chains.disjoint t self chain' chain (chain_of_formatted found).1 owned i
        member member')
    have head_ne : ∀ t req' chain', t ≠ self → (system.pc t).formatted = some (req', chain') →
        chain'.head ≠ chain.head := by
      intro t req' chain' other found same
      exact kept t req' chain' other found chain'.head (head_mem chain') (same ▸ head_mem chain)
    constructor
    · intro t req' chain' found
      rcases of_update formatted found with ⟨-, same⟩ | ⟨other, found⟩
      · cases same
        exact Descs.format_linked (inv.chains.distinct self chain owned) req.buf req.write
      · refine (inv.formats.linked t req' chain' found).congr fun i member => ?_
        exact Descs.format_other (kept t req' chain' other found i member) req.buf req.write
    · intro t req' chain' found
      rcases of_update formatted found with ⟨-, same⟩ | ⟨other, found⟩
      · cases same
        exact update_self ..
      · exact (update_of_ne (head_ne t req' chain' other found) _ _).trans
          (inv.formats.info t req' chain' found)
    · intro t req' chain' found
      rcases of_update formatted found with ⟨-, same⟩ | ⟨other, found⟩
      · cases same
        exact update_self ..
      · exact (update_of_ne (head_ne t req' chain' other found) _ _).trans
          (inv.formats.tag t req' chain' found)
  flight := by
    have mine : (system.pc self).request = some req := by rw [here]; rfl
    have waits := proj_from waits here (show (Pc.store req chain).waits = _ from rfl)
    have flight := inv.flight
    constructor
    · exact flight.nodup
    · intro head member
      obtain ⟨t, req', chain', found, same⟩ := flight.owner head member
      exact ⟨t, req', chain', (waits t).trans found, same⟩
    · intro t req' chain' found
      have old := (waits t).symm.trans found
      have other := (@to_update _ (.store req chain) _ Pc.waits _ _ here rfl _ _ old).1
      have request := (chain_of_formatted (formatted_of_waits old)).2
      have ne : req'.buf ≠ req.buf :=
        fun same => other (inv.requests.buf t self req' req request mine same)
      exact (iff_of_eq (congrArg (· = true) (update_of_ne ne _ _))).trans
        (flight.flag t req' chain' old)
    · intro t req' found
      rcases of_update raised found with ⟨-, same⟩ | ⟨other, found⟩
      · cases same
        exact update_self ..
      · have ne : req'.buf ≠ req.buf := fun same =>
          other (inv.requests.buf t self req' req (request_of_raised found) mine same)
        exact (update_of_ne ne _ _).trans (flight.raised t req' found)
    · exact flight.stored_frame (proj_from submits here rfl) rfl rfl
    · intro head member
      have ne : head ≠ chain.head := by
        rintro rfl
        exact inv.grounded (by rw [here]; rfl) (by rw [here]; rfl) (mem_append_right _ member)
      exact (update_of_ne ne _ _).trans (flight.done head member)
  counts := inv.counts.frame (proj_from fresh here rfl) (proj_from waits here rfl)
    (proj_from ended here rfl) (proj_from request here rfl) rfl rfl rfl rfl rfl
  panic := inv.panic

/-- The thread that writes the entry of the ring is the only one that does. -/
theorem Inv.submits_eq (locks : (system.pc self).locks = true) {t : Nat}
    (submits : (system.pc t).submits = some chain) : t = self := by
  have owner := inv.locked t (locks_of_submits submits)
  rw [inv.locked self locks, Option.some.injEq] at owner
  exact owner.symm

theorem store_queue (here : system.pc self = .store req chain) :
    (system.store self req chain).queue = system.queue := by
  have room := inv.avail_room (show (system.pc self).chain = some chain by rw [here]; rfl)
    (by rw [here]; rfl)
  exact congrArg (system.running ++ ·) (contents_update (by decide) room _)

theorem Inv.store (here : system.pc self = .store req chain) :
    (system.store self req chain).Inv where
  locked := inv.locked_goto fun _ => by rw [here]; rfl
  chains := inv.chains.frame (proj_from Pc.chain here rfl) rfl
  requests := inv.requests.frame (proj_from request here rfl) rfl rfl
  formats := inv.formats.frame (proj_from formatted here rfl) inv.formats.linked rfl rfl
  flight := by
    refine inv.flight.frame (proj_from waits here rfl) (proj_from raised here rfl)
      (fun t chain' found => ?_) (store_queue inv here) rfl rfl rfl
    rcases of_update submits found with ⟨-, same⟩ | ⟨other, found⟩
    · cases same
      exact update_self ..
    · exact absurd (inv.submits_eq (by rw [here]; rfl) found) other
  counts := by
    have queue := store_queue inv here
    refine inv.counts.frame (proj_from fresh here rfl) (proj_from waits here rfl)
      (proj_from ended here rfl) (proj_from request here rfl) queue ?_ rfl rfl rfl
    rw [System.flight, queue]
    rfl
  panic := inv.panic

section

variable (here : system.pc self = .submit req chain)
include here

theorem submit_queue : (system.submit self req chain).queue = system.queue ++ [chain.head] := by
  have room := inv.avail_room (show (system.pc self).chain = some chain by rw [here]; rfl)
    (by rw [here]; rfl)
  have small : span system.fetched system.availIdx + 1 < 2 ^ 16 := by
    have eight : NUM = 8 := rfl
    omega
  have stored := inv.flight.stored self chain (by rw [here]; rfl)
  have pushed : contents NUM system.availRing system.fetched (system.availIdx + 1) =
      contents NUM system.availRing system.fetched system.availIdx ++ [_] :=
    contents_succ small
  rw [stored] at pushed
  rw [queue, queue, append_assoc, ← pushed]
  rfl

theorem submit_flight :
    (system.submit self req chain).flight.Perm (chain.head :: system.flight) := by
  rw [flight, submit_queue inv here, flight, append_assoc]
  exact perm_middle

theorem Inv.submit : (system.submit self req chain).Inv := by
  have owned : (system.pc self).chain = some chain := by rw [here]; rfl
  have grounded := inv.grounded owned (by rw [here]; rfl)
  have perm := submit_flight inv here
  have inQueue := submit_queue inv here
  have request : ∀ t, ((system.submit self req chain).pc t).request = (system.pc t).request :=
    proj_from request here rfl
  have waits : ((system.submit self req chain).pc self).waits = some (req, chain) := by
    simp [System.submit, goto, waits]
  -- the threads that have waited before
  have others : ∀ t req' chain', t ≠ self → (system.pc t).waits = some (req', chain') →
      (chain'.head ∈ (system.submit self req chain).flight ↔ chain'.head ∈ system.flight) ∧
        (chain'.head ∈ (system.submit self req chain).queue ↔ chain'.head ∈ system.queue) := by
    intro t req' chain' other found
    have ne : chain'.head ≠ chain.head := fun same =>
      other (inv.chains.disjoint t self chain' chain
        (chain_of_formatted (formatted_of_waits found)).1 owned chain'.head (head_mem chain')
        (same ▸ head_mem chain))
    rw [perm.mem_iff, inQueue]
    simp [ne]
  exact
    { locked := inv.locked_goto fun _ => by rw [here]; rfl
      chains := inv.chains.frame (proj_from Pc.chain here rfl) rfl
      requests := inv.requests.frame (proj_from Pc.request here rfl) rfl rfl
      formats := inv.formats.frame (proj_from formatted here rfl) inv.formats.linked rfl rfl
      flight := by
        have flight := inv.flight
        constructor
        · rw [perm.nodup_iff]
          exact nodup_cons.mpr ⟨grounded, flight.nodup⟩
        · intro head member
          rcases mem_cons.mp (perm.mem_iff.mp member) with rfl | member
          · exact ⟨self, req, chain, waits, rfl⟩
          · obtain ⟨t, req', chain', found, same⟩ := flight.owner head member
            exact ⟨t, req', chain', (to_update Pc.waits here rfl found).2, same⟩
        · intro t req' chain' found
          rcases of_update Pc.waits found with ⟨-, same⟩ | ⟨other, found⟩
          · cases same
            have raised := flight.raised self req (by rw [here]; rfl)
            exact iff_of_true raised (perm.mem_iff.mpr mem_cons_self)
          · exact (flight.flag t req' chain' found).trans (others t req' chain' other found).1.symm
        · exact fun t req' found => flight.raised t req' (of_update_none raised rfl found).2
        · intro t chain' found
          obtain ⟨other, found⟩ := of_update_none submits rfl found
          exact absurd (inv.submits_eq (by rw [here]; rfl) found) other
        · exact flight.done
      counts := by
        have counts := inv.counts
        constructor
        · exact fun t req' found => counts.fresh t req' (of_update_none fresh rfl found).2
        · intro t req' chain' found
          rcases of_update Pc.waits found with ⟨-, same⟩ | ⟨other, found⟩
          · cases same
            rw [if_pos (by rw [inQueue]; simp), if_pos (perm.mem_iff.mpr mem_cons_self)]
            exact counts.fresh self req (by rw [here]; rfl)
          · have kept := others t req' chain' other found
            simp only [kept.1, kept.2]
            exact counts.waits t req' chain' found
        · exact fun t req' found => counts.ended t req' (of_update_none ended rfl found).2
        · exact counts.later
        · intro serial early
          refine (counts.past serial early).imp (fun ⟨t, req', found, number⟩ => ?_) id
          exact ⟨t, req', (request t).trans found, number⟩
      panic := inv.panic }

end

/-- A thread sees `b->disk` cleared. -/
theorem Inv.seen (here : system.pc self = .wait req chain) (cleared : system.flag req.buf = false) :
    (system.goto self (.finish req chain)).Inv := by
  have waiting : (system.pc self).waits = some (req, chain) := by rw [here]; rfl
  have grounded : chain.head ∉ system.flight := by
    rw [← inv.flight.flag self req chain waiting, cleared]
    nofun
  have raised : ∀ t, ((system.goto self (.finish req chain)).pc t).raised = (system.pc t).raised :=
    proj_from raised here rfl
  have fresh : ∀ t, ((system.goto self (.finish req chain)).pc t).fresh = (system.pc t).fresh :=
    proj_from fresh here rfl
  have request : ∀ t, ((system.goto self (.finish req chain)).pc t).request =
    (system.pc t).request :=
    proj_from request here rfl
  have kept : ∀ t req' chain',
      (update system.pc self (.finish req chain) t).waits = some (req', chain') →
      (system.pc t).waits = some (req', chain') :=
    fun _ _ _ found => (of_update_none waits rfl found).2
  exact
    { locked := inv.locked_goto fun _ => by rw [here]; rfl
      chains := inv.chains.frame (proj_from Pc.chain here rfl) rfl
      requests := inv.requests.frame (proj_from Pc.request here rfl) rfl rfl
      formats := inv.formats.frame (proj_from formatted here rfl) inv.formats.linked rfl rfl
      flight := by
        have flight := inv.flight
        constructor
        · exact flight.nodup
        · intro head member
          obtain ⟨t, req', chain', found, same⟩ := flight.owner head member
          have other : t ≠ self := by
            rintro rfl
            rw [here] at found
            cases found
            exact grounded (same ▸ member)
          exact ⟨t, req', chain', (congrArg waits (update_of_ne other _ _)).trans found,
            same⟩
        · exact fun t req' chain' found => flight.flag t req' chain' (kept t req' chain' found)
        · exact fun t req' found =>
            flight.raised t req' ((raised t).symm.trans found)
        · exact flight.stored_frame (proj_from submits here rfl) rfl rfl
        · exact flight.done
      counts := by
        have counts := inv.counts
        constructor
        · exact fun t req' found =>
            counts.fresh t req' ((fresh t).symm.trans found)
        · exact fun t req' chain' found => counts.waits t req' chain' (kept t req' chain' found)
        · intro t req' found
          rcases of_update ended found with ⟨-, same⟩ | ⟨-, found⟩
          · cases same
            have counted := counts.waits self req chain waiting
            rwa [if_neg grounded, if_neg fun queued => grounded (mem_append_left _ queued)]
              at counted
          · exact counts.ended t req' found
        · exact counts.later
        · intro serial early
          refine (counts.past serial early).imp (fun ⟨t, req', found, number⟩ => ?_) id
          exact ⟨t, req', (request t).trans found, number⟩
      panic := inv.panic }

end System

end Xv6.Virtio
