import Xv6.Virtio.Protocol

/-!
# Completion of requests

The steps of the device and of `virtio_disk_intr`, and what holds in every run of the driver and the
device: chains do not overlap, no entry of a ring is overwritten before it is looked at, and the
flag of a buffer is cleared once for each request, after its chain has been completed.
-/

namespace Xv6.Virtio.System

open Function Transition Cyclic Virtio.Pc List

variable {system after : System} {self : Nat}

/-! ## The device -/

theorem fetch_queue (more : system.fetched ≠ system.availIdx) :
    system.fetch.queue = system.queue := by
  have popped : contents NUM system.availRing system.fetched system.availIdx = _ :=
    contents_pop more
  calc system.fetch.queue
    _ = system.running ++ (system.availRing (place NUM system.fetched) ::
          contents NUM system.availRing (system.fetched + 1) system.availIdx) :=
        append_assoc ..
    _ = system.queue := by rw [queue, popped]

theorem Inv.fetch (inv : system.Inv) (more : system.fetched ≠ system.availIdx) :
    system.fetch.Inv := by
  have queue := fetch_queue more
  have flight : system.fetch.flight = system.flight := by rw [System.flight, queue]; rfl
  exact
    { locked := inv.locked
      chains := inv.chains.frame (fun _ => rfl) rfl
      requests := inv.requests.frame (fun _ => rfl) rfl rfl
      formats := inv.formats.frame (fun _ => rfl) inv.formats.linked rfl rfl
      flight := inv.flight.frame (fun _ => rfl) (fun _ => rfl) inv.flight.stored queue rfl rfl rfl
      counts := inv.counts.frame (fun _ => rfl) (fun _ => rfl) (fun _ => rfl) (fun _ => rfl)
        queue flight rfl rfl rfl
      panic := inv.panic }

theorem posted_length (system : System) (posting : system.posting = true) :
    span system.seen system.usedIdx + 1 ≤ system.flight.length := by
  have waiting : (contents NUM system.usedRing system.seen system.usedIdx).length =
      span system.seen system.usedIdx := contents_length _ _
  simp only [flight, posted, posting, if_true, length_append, length_singleton]
  omega

theorem publish_posted (inv : system.Inv) (posting : system.posting = true) :
    system.publish.posted = system.posted := by
  have small : span system.seen system.usedIdx + 1 < 2 ^ 16 := by
    have bound := (posted_length system posting).trans inv.flight_length
    have eight : NUM = 8 := rfl
    omega
  have pushed : contents NUM system.usedRing system.seen (system.usedIdx + 1) =
      contents NUM system.usedRing system.seen system.usedIdx ++ [_] :=
    contents_succ small
  calc system.publish.posted
    _ = contents NUM system.usedRing system.seen (system.usedIdx + 1) := append_nil _
    _ = system.posted := by simp only [pushed, posted, posting, if_true]

theorem Inv.publish (inv : system.Inv) (posting : system.posting = true) : system.publish.Inv := by
  have posted := publish_posted inv posting
  have flight : system.publish.flight = system.flight := by rw [System.flight, posted]; rfl
  exact
    { locked := inv.locked
      chains := inv.chains.frame (fun _ => rfl) rfl
      requests := inv.requests.frame (fun _ => rfl) rfl rfl
      formats := inv.formats.frame (fun _ => rfl) inv.formats.linked rfl rfl
      flight := inv.flight.frame (fun _ => rfl) (fun _ => rfl) inv.flight.stored rfl posted rfl rfl
      counts := inv.counts.frame (fun _ => rfl) (fun _ => rfl) (fun _ => rfl) (fun _ => rfl)
        rfl flight rfl rfl rfl
      panic := inv.panic }

/-- The chain that the device completes: its thread waits, and the status is written for it. -/
structure Completes (system : System) (head t : Nat) (req : Request) (chain : Chain) : Prop where
  waits : (system.pc t).waits = some (req, chain)
  head_eq : chain.head = head
  tag : system.tag head = req.serial
  status : (system.complete head).status = Function.update system.status head 0

variable {head : Nat}

theorem Inv.completes (inv : system.Inv) (member : head ∈ system.flight) :
    ∃ t req chain, system.Completes head t req chain := by
  obtain ⟨t, req, chain, waits, rfl⟩ := inv.flight.owner head member
  have formatted := formatted_of_waits waits
  have linked := inv.formats.linked t req chain formatted
  refine ⟨t, req, chain, waits, rfl, inv.formats.tag t req chain formatted, ?_⟩
  simp only [complete, linked.headNext, linked.secondNext, linked.thirdAddr]

theorem Inv.used_room (inv : system.Inv) (runs : head ∈ system.running) :
    span system.seen system.usedIdx < NUM := by
  have bound := inv.flight_length
  have waiting : (contents NUM system.usedRing system.seen system.usedIdx).length =
      span system.seen system.usedIdx := contents_length _ _
  have positive := length_pos_of_mem runs
  simp only [System.flight, System.queue, System.posted, length_append] at bound
  omega

theorem complete_posted (inv : system.Inv) (runs : head ∈ system.running)
    (idle : system.posting = false) : (system.complete head).posted = system.posted ++ [head] := by
  have kept : contents NUM
      (update system.usedRing (place NUM system.usedIdx) head) system.seen
        system.usedIdx = _ := contents_update (by decide) (inv.used_room runs) head
  rw [posted, posted, idle, complete]
  simp only [kept, if_true, update_self, Bool.false_eq_true, if_false, append_nil]

theorem complete_queue (runs : head ∈ system.running) :
    (system.complete head).queue = system.queue.erase head :=
  (erase_append_left _ runs).symm

theorem complete_flight (inv : system.Inv) (runs : head ∈ system.running)
    (idle : system.posting = false) : (system.complete head).flight.Perm system.flight := by
  have queued : head ∈ system.queue := mem_append_left _ runs
  have whole : (system.complete head).flight =
      system.queue.erase head ++ (system.posted ++ [head]) := by
    rw [flight, complete_queue runs, complete_posted inv runs idle]
  rw [whole, flight, ← append_assoc]
  refine (perm_append_singleton head _).trans ?_
  exact (perm_cons_erase queued).symm.append_right system.posted

variable {req : Request} {chain : Chain}

/-- A step that changes the counts of one call, whose thread waits. -/
theorem Counts.one (inv : system.Inv) {t : Nat} (waits : (system.pc t).waits = some (req, chain))
    (pcs : after.pc = system.pc) (serial : after.serial = system.serial)
    (same : ∀ s m n, s ≠ req.serial → system.Counted s m n → after.Counted s m n)
    (queued : ∀ head, head ≠ chain.head → (head ∈ after.queue ↔ head ∈ system.queue))
    (flying : ∀ head, head ≠ chain.head → (head ∈ after.flight ↔ head ∈ system.flight))
    (counted : after.Counted req.serial (if chain.head ∈ after.queue then 0 else 1)
      (if chain.head ∈ after.flight then 0 else 1)) : after.Counts := by
  have request := (chain_of_formatted (formatted_of_waits waits)).2
  have counts := inv.counts
  have other : ∀ t' req', (system.pc t').request = some req' → t' ≠ t → req'.serial ≠ req.serial :=
    fun t' req' found ne same =>
      ne (inv.requests.number t' t req' req found request same)
  constructor
  · intro t' req' found
    rw [pcs] at found
    have ne : t' ≠ t := by
      rintro rfl
      generalize system.pc t' = pc at waits found
      cases pc <;> cases waits <;> cases found
    exact same _ _ _ (other t' req' (request_of_fresh found) ne) (counts.fresh t' req' found)
  · intro t' req' chain' found
    rw [pcs] at found
    obtain rfl | ne := eq_or_ne t' t
    · rw [waits] at found
      cases found
      exact counted
    · have request' := (chain_of_formatted (formatted_of_waits found)).2
      have head_ne := inv.waits_ne waits found ne
      simp only [queued _ head_ne, flying _ head_ne]
      exact same _ _ _ (other t' req' request' ne) (counts.waits t' req' chain' found)
  · intro t' req' found
    rw [pcs] at found
    have ne : t' ≠ t := by
      rintro rfl
      generalize system.pc t' = pc at waits found
      cases pc <;> cases waits <;> cases found
    exact same _ _ _ (other t' req' (request_of_ended found) ne) (counts.ended t' req' found)
  · intro s late
    rw [serial] at late
    exact same _ _ _ (lt_of_lt_of_le (inv.requests.serial t req request) late).ne'
      (counts.later s late)
  · intro s early
    rw [serial] at early
    rw [pcs]
    by_cases mine : s = req.serial
    · exact .inl ⟨t, req, request, mine.symm⟩
    · exact (counts.past s early).imp id (same _ _ _ mine)

theorem Inv.complete (inv : system.Inv) (runs : head ∈ system.running)
    (idle : system.posting = false) : (system.complete head).Inv := by
  have queued : head ∈ system.queue := mem_append_left _ runs
  have flying : head ∈ system.flight := mem_append_left _ queued
  obtain ⟨t, req, chain, completes⟩ := inv.completes flying
  have perm := complete_flight inv runs idle
  have queue := complete_queue runs
  exact
    { locked := inv.locked
      chains := inv.chains.frame (fun _ => rfl) rfl
      requests := inv.requests.frame (fun _ => rfl) rfl rfl
      formats := inv.formats.frame (fun _ => rfl) inv.formats.linked rfl rfl
      flight := by
        have flight := inv.flight
        constructor
        · exact perm.nodup_iff.mpr flight.nodup
        · exact fun head' member => flight.owner head' (perm.mem_iff.mp member)
        · exact fun t req chain found => (flight.flag t req chain found).trans perm.mem_iff.symm
        · exact flight.raised
        · exact flight.stored
        · intro head' member
          rw [complete_posted inv runs idle, mem_append, mem_singleton] at member
          rw [completes.status, update_apply]
          split_ifs with same
          · rfl
          · exact flight.done head' (member.resolve_right same)
      counts := by
        have nodup := (nodup_append.mp inv.flight.nodup).1
        refine Counts.one inv completes.waits rfl rfl ?_ ?_ (fun head' _ => perm.mem_iff) ?_
        · intro s m n ne counted
          refine ⟨?_, counted.2⟩
          rw [← completes.tag] at ne
          exact (update_of_ne ne _ _).trans counted.1
        · intro head' ne
          rw [completes.head_eq] at ne
          rw [queue]
          exact mem_erase_of_ne ne
        · rw [completes.head_eq, if_neg (queue ▸ nodup.not_mem_erase),
            if_pos (perm.mem_iff.mpr flying)]
          have counted := inv.counts.waits t req chain completes.waits
          rw [completes.head_eq, if_pos queued, if_pos flying] at counted
          refine ⟨?_, counted.2⟩
          have raised : (system.complete head).completions (system.tag head) =
              system.completions (system.tag head) + 1 := update_self ..
          rw [← completes.tag, raised, completes.tag, counted.1]
      panic := inv.panic }

/-! ## The interrupt -/

/-- The entry that `virtio_disk_intr` looks at. -/
def entry (system : System) : Nat := system.usedRing (Cyclic.place NUM system.seen)

theorem clear_posted (more : system.seen ≠ system.usedIdx) (buf : Nat) :
    system.posted = system.entry :: (system.clear system.entry buf).posted := by
  have popped : contents NUM system.usedRing system.seen system.usedIdx = _ :=
    contents_pop more
  rw [posted, popped]
  rfl

/-- Neither panic of `virtio_disk_intr` happens. -/
theorem Inv.intrStep_eq (inv : system.Inv) (more : system.seen ≠ system.usedIdx) :
    ∃ t req chain, (system.pc t).waits = some (req, chain) ∧ chain.head = system.entry ∧
      system.tag system.entry = req.serial ∧
      system.intrStep = system.clear system.entry req.buf := by
  have posted := clear_posted more 0
  have member : system.entry ∈ system.posted := posted ▸ mem_cons_self
  obtain ⟨t, req, chain, waits, same⟩ := inv.flight.owner _ (mem_append_right _ member)
  have formatted := formatted_of_waits waits
  have info := inv.formats.info t req chain formatted
  have tag := inv.formats.tag t req chain formatted
  have status := inv.flight.done _ member
  rw [same] at info tag
  refine ⟨t, req, chain, waits, same, tag, ?_⟩
  rw [entry] at info status
  simp only [intrStep, status, info, ne_eq, not_true_eq_false, if_false]
  rfl

theorem Inv.clear (inv : system.Inv) (more : system.seen ≠ system.usedIdx) {t : Nat}
    (waits : (system.pc t).waits = some (req, chain)) (head : chain.head = system.entry)
    (tag : system.tag system.entry = req.serial) : (system.clear system.entry req.buf).Inv := by
  have posted := clear_posted more req.buf
  have request := (chain_of_formatted (formatted_of_waits waits)).2
  have whole : system.flight.Perm (system.entry :: (system.clear system.entry req.buf).flight) := by
    rw [System.flight, posted]
    exact perm_middle
  have nodup := nodup_cons.mp (whole.nodup_iff.mp inv.flight.nodup)
  have members : ∀ head', head' ≠ system.entry →
      (head' ∈ (system.clear system.entry req.buf).flight ↔ head' ∈ system.flight) := by
    intro head' ne
    rw [whole.mem_iff, mem_cons]
    exact (or_iff_right ne).symm
  exact
    { locked := inv.locked
      chains := inv.chains.frame (fun _ => rfl) rfl
      requests := inv.requests.frame (fun _ => rfl) rfl rfl
      formats := inv.formats.frame (fun _ => rfl) inv.formats.linked rfl rfl
      flight := by
        have flight := inv.flight
        have flags : ∀ t' req', (system.pc t').request = some req' → t' ≠ t →
            (system.clear system.entry req.buf).flag req'.buf = system.flag req'.buf := by
          intro t' req' found ne
          refine update_of_ne (fun same => ne ?_) _ _
          exact inv.requests.buf t' t req' req found request same
        constructor
        · exact nodup.2
        · intro head' member
          exact flight.owner head' (whole.mem_iff.mpr (mem_cons_of_mem _ member))
        · intro t' req' chain' found
          obtain rfl | ne := eq_or_ne t' t
          · cases waits.symm.trans found
            rw [head]
            refine iff_of_false ?_ nodup.1
            simp [System.clear]
          · rw [flags t' req' (chain_of_formatted (formatted_of_waits found)).2 ne,
              members _ (head ▸ inv.waits_ne waits found ne)]
            exact flight.flag t' req' chain' found
        · intro t' req' found
          have ne : t' ≠ t := by
            rintro rfl
            change (system.pc t').raised = _ at found
            generalize system.pc t' = pc at waits found
            cases pc <;> cases waits <;> cases found
          rw [flags t' req' (request_of_raised found) ne]
          exact flight.raised t' req' found
        · exact flight.stored
        · intro head' member
          exact flight.done head' (posted ▸ mem_cons_of_mem _ member)
      counts := by
        have away : system.entry ∉ system.queue := by
          have split := (nodup_append.mp inv.flight.nodup).2.2
          intro queued
          exact split _ queued _ (posted ▸ mem_cons_self) rfl
        refine Counts.one inv waits rfl rfl ?_ (fun head' _ => Iff.rfl) (head ▸ members) ?_
        · intro s m n ne counted
          refine ⟨counted.1, ?_⟩
          rw [← tag] at ne
          exact (update_of_ne ne _ _).trans counted.2
        · rw [head, if_neg nodup.1,
            if_neg (show system.entry ∉ (system.clear system.entry req.buf).queue from away)]
          have counted := inv.counts.waits t req chain waits
          rw [head, if_neg away, if_pos (whole.mem_iff.mpr mem_cons_self)] at counted
          refine ⟨counted.1, ?_⟩
          have raised : (system.clear system.entry req.buf).clears (system.tag system.entry) =
              system.clears (system.tag system.entry) + 1 := update_self ..
          rw [← tag, raised, tag, counted.2]
      panic := inv.panic }

/-! ## All steps -/

/-- What a step must not do: change an entry of a ring that has not been looked at, or clear the
flag of a buffer whose request is not completed, or clear it again. -/
structure Orderly (system after : System) : Prop where
  avail : Cyclic.contents NUM after.availRing system.fetched system.availIdx =
    Cyclic.contents NUM system.availRing system.fetched system.availIdx
  used : Cyclic.contents NUM after.usedRing system.seen system.usedIdx =
    Cyclic.contents NUM system.usedRing system.seen system.usedIdx
  cleared : ∀ buf, system.flag buf = true → after.flag buf = false →
    ∃ t req, (system.pc t).request = some req ∧ req.buf = buf ∧
      system.completions req.serial = 1 ∧ system.clears req.serial = 0 ∧ after.clears req.serial = 1

theorem Orderly.of_same (avail : after.availRing = system.availRing)
    (used : after.usedRing = system.usedRing)
    (flag : ∀ buf, system.flag buf = true → after.flag buf = true) : system.Orderly after where
  avail := by rw [avail]
  used := by rw [used]
  cleared := by
    intro buf up down
    rw [flag buf up] at down
    cases down

section

variable (inv : system.Inv)
include inv

theorem Inv.acquired {next : Pc} (same : next.view = (system.pc self).view)
    (taken : system.acquire self next = some after) : after.Inv ∧ system.Orderly after := by
  refine ⟨inv.acquire same taken, ?_⟩
  unfold System.acquire at taken
  split_ifs at taken
  cases taken
  exact .of_same rfl rfl fun _ => id

theorem Inv.alloc (here : system.pc self = .alloc req) (taken : system.run self = some after) :
    after.Inv ∧ system.Orderly after := by
  simp only [run, here] at taken
  have allocated := Descs.alloc3Desc_allocated system.descs
  generalize system.descs.alloc3Desc = result at taken allocated
  cases allocated with
  | failed descs free desc =>
    cases taken
    refine ⟨(inv.setDescs free desc).release ?_ ?_ rfl, .of_same rfl rfl fun _ => id⟩
    · change _ = (system.pc self).view
      rw [here]
      rfl
    · exact congrArg locks here
  | done chain descs distinct were desc free =>
    cases taken
    exact ⟨inv.allocated here distinct were desc free, .of_same rfl rfl fun _ => id⟩

theorem Inv.freed {chain : Chain} (here : system.pc self = .finish req chain)
    (taken : system.run self = some after) : after.Inv ∧ system.Orderly after := by
  simp only [run, here] at taken
  have owned : (system.pc self).chain = some chain := by rw [here]; rfl
  have used : ∀ i ∈ chain.indices, i < NUM ∧ system.descs.free i = false := by
    intro i member
    have bound := inv.chains.bound self chain owned i member
    exact ⟨bound, (inv.chains.free i bound).mpr ⟨self, chain, owned, member⟩⟩
  obtain ⟨descs, done, free, desc⟩ := Descs.freeChain_linked 6
    (inv.formats.linked self req chain (by rw [here]; rfl))
    (inv.chains.distinct self chain owned) used
  rw [show NUM + 1 = 6 + 3 from rfl, done] at taken
  cases taken
  exact ⟨inv.finish here free desc, .of_same rfl rfl fun _ => id⟩

theorem Inv.intrRun (here : system.pc self = .intr) (taken : system.run self = some after) :
    after.Inv ∧ system.Orderly after := by
  simp only [run, here] at taken
  split_ifs at taken with all
  · cases taken
    exact ⟨inv.release (by rw [here]; rfl) (by rw [here]; rfl) rfl,
      .of_same rfl rfl fun _ => id⟩
  · cases taken
    obtain ⟨t, req, chain, waits, head, tag, step⟩ := inv.intrStep_eq all
    rw [step]
    have request := (chain_of_formatted (formatted_of_waits waits)).2
    have inv' := inv.clear all waits head tag
    refine ⟨inv', rfl, rfl, fun buf up down => ?_⟩
    have mine : req.buf = buf := by
      by_contra ne
      have same : (system.clear system.entry req.buf).flag buf = system.flag buf :=
        update_of_ne (Ne.symm ne) _ _
      rw [same, up] at down
      cases down
    have posted := clear_posted all req.buf
    have flying : system.entry ∈ system.flight :=
      mem_append_right _ (posted ▸ mem_cons_self)
    have away : system.entry ∉ system.queue := fun queued =>
      (nodup_append.mp inv.flight.nodup).2.2 _ queued _ (posted ▸ mem_cons_self) rfl
    have counted := inv.counts.waits t req chain waits
    rw [head, if_neg away, if_pos flying] at counted
    refine ⟨t, req, request, mine, counted.1, counted.2, ?_⟩
    have raised : (system.clear system.entry req.buf).clears (system.tag system.entry) =
        system.clears (system.tag system.entry) + 1 := update_self ..
    rw [← tag, raised, tag, counted.2]

theorem Inv.run (taken : system.run self = some after) : after.Inv ∧ system.Orderly after := by
  cases here : system.pc self with
  | alloc req => exact inv.alloc here taken
  | finish req chain => exact inv.freed here taken
  | intr => exact inv.intrRun here taken
  | idle => simp [System.run, here] at taken
  | enter req
  | waitFree req
  | asleep req chain
  | intrEnter =>
    simp only [System.run, here] at taken
    exact inv.acquired (by rw [here]; rfl) taken
  | format req chain =>
    simp only [System.run, here] at taken
    cases taken
    refine ⟨inv.format here, .of_same rfl rfl fun buf up => ?_⟩
    simp only [System.format, update_apply]
    split_ifs
    · rfl
    · exact up
  | store req chain =>
    simp only [System.run, here] at taken
    cases taken
    have room := inv.avail_room (show (system.pc self).chain = some chain by rw [here]; rfl)
      (by rw [here]; rfl)
    refine ⟨inv.store here, contents_update (by decide) room _, rfl, fun buf up down => ?_⟩
    cases up.symm.trans down
  | submit req chain =>
    simp only [System.run, here] at taken
    cases taken
    exact ⟨inv.submit here, .of_same rfl rfl fun _ => id⟩
  | wait req chain =>
    simp only [System.run, here] at taken
    split_ifs at taken with up
    · cases taken
      exact ⟨inv.release (by rw [here]; rfl) (by rw [here]; rfl) rfl,
        .of_same rfl rfl fun _ => id⟩
    · cases taken
      exact ⟨inv.seen here (by simpa using up), .of_same rfl rfl fun _ => id⟩
  | leave req =>
    simp only [System.run, here] at taken
    cases taken
    exact ⟨inv.leave here, .of_same rfl rfl fun _ => id⟩

theorem Inv.step {action : Action} (taken : Step system action after) :
    after.Inv ∧ system.Orderly after := by
  simp only [Step, exec, inv.panic, ne_eq, not_true_eq_false, if_false] at taken
  cases action with
  | rw self buf write blockno =>
    simp only at taken
    split_ifs at taken with ready
    cases taken
    exact ⟨inv.rw ready.1 ready.2 write blockno, .of_same rfl rfl fun _ => id⟩
  | intr self =>
    simp only at taken
    split_ifs at taken with idle
    cases taken
    exact ⟨inv.intr idle, .of_same rfl rfl fun _ => id⟩
  | run self => exact inv.run taken
  | fetch =>
    simp only at taken
    split_ifs at taken with more
    cases taken
    exact ⟨inv.fetch (by simpa using more), .of_same rfl rfl fun _ => id⟩
  | complete head =>
    simp only at taken
    split_ifs at taken with ready
    cases taken
    refine ⟨inv.complete ready.1 ready.2, rfl,
      contents_update (by decide) (inv.used_room ready.1) head, fun buf up down => ?_⟩
    cases up.symm.trans down
  | publish =>
    simp only at taken
    split_ifs at taken with posting
    cases taken
    exact ⟨inv.publish posting, .of_same rfl rfl fun _ => id⟩

end

theorem boot_inv : boot.Inv where
  locked := nofun
  chains := by
    refine ⟨nofun, nofun, nofun, fun i bound => ?_⟩
    simp [boot, bound, chain]
  requests := ⟨nofun, nofun, nofun, nofun⟩
  formats := ⟨nofun, nofun, nofun⟩
  flight := ⟨.nil, nofun, nofun, nofun, nofun, nofun⟩
  counts := ⟨nofun, nofun, nofun, fun _ _ => ⟨rfl, rfl⟩, nofun⟩
  panic := rfl

/-- Each call has its chain completed and its flag cleared at most once and in this order, and once
if it has returned. -/
theorem Inv.counted (inv : system.Inv) {serial : Nat} (early : serial < system.serial) :
    system.clears serial ≤ system.completions serial ∧ system.completions serial ≤ 1 ∧
      ((∀ t req, (system.pc t).request = some req → req.serial ≠ serial) →
        system.clears serial = 1) := by
  rcases inv.counts.past serial early with ⟨t, req, found, rfl⟩ | both
  · refine and_assoc.mp ⟨?_, fun gone => absurd rfl (gone t req found)⟩
    rcases phase found with fresh | ⟨chain, waits⟩ | ended
    · obtain ⟨completed, cleared⟩ := inv.counts.fresh t req fresh
      simp [completed, cleared]
    · obtain ⟨completed, cleared⟩ := inv.counts.waits t req chain waits
      rw [completed, cleared]
      by_cases queued : chain.head ∈ system.queue
      · have flying : chain.head ∈ system.flight := mem_append_left _ queued
        simp [queued, flying]
      · split_ifs <;> simp
    · obtain ⟨completed, cleared⟩ := inv.counts.ended t req ended
      simp [completed, cleared]
  · exact ⟨by rw [both.1, both.2], both.1.le, fun _ => both.2⟩

variable {labels : List Action}

/-- The protocol of the driver and the device, in every state that is reached: the chains of
different requests do not overlap, the descriptors in use are those of the requests that have not
been released, each step is orderly, each request has its chain completed and its flag cleared once,
and nothing panics. -/
theorem virtio_protocol (run : Run Step boot labels system) :
    (∀ t t' chain chain', (system.pc t).chain = some chain → (system.pc t').chain = some chain' →
      chain.indices.Nodup ∧ (t ≠ t' → ∀ i ∈ chain.indices, i ∉ chain'.indices)) ∧
    (∀ i < NUM, system.descs.free i = false ↔
      ∃ t chain, (system.pc t).chain = some chain ∧ i ∈ chain.indices) ∧
    (∀ action after, Step system action after → system.Orderly after) ∧
    (∀ serial < system.serial, system.clears serial ≤ system.completions serial ∧
      system.completions serial ≤ 1 ∧
      ((∀ t req, (system.pc t).request = some req → req.serial ≠ serial) →
        system.clears serial = 1)) ∧
    system.panic = none := by
  have inv : system.Inv := run.invariant (fun _ _ _ inv taken => (inv.step taken).1) boot_inv
  refine ⟨fun t t' chain chain' owned owned' => ⟨inv.chains.distinct t chain owned, ?_⟩,
    inv.chains.free, fun action after taken => (inv.step taken).2,
    fun serial early => inv.counted early, inv.panic⟩
  exact fun different i member member' =>
    different (inv.chains.disjoint t t' chain chain' owned owned' i member member')

/-- The next `count` steps of a thread. -/
def steps (self count : Nat) : List Action := List.replicate count (.run self)

/-- One thread reads a block while another writes one.  The device completes the write first, and a
third thread is interrupted when both are there. -/
def twoRequests : List Action :=
  .rw 0 5 false 7 :: steps 0 6 ++ .rw 1 6 true 9 :: steps 1 6 ++
    [.fetch, .fetch, .complete 3, .publish, .complete 0, .publish, .intr 2] ++
    steps 2 4 ++ steps 1 4 ++ steps 0 4

theorem virtio_protocol_twoRequests : ∃ system, Run Step boot twoRequests system ∧
    (system.pc 0 = .idle ∧ system.pc 1 = .idle ∧ system.serial = 2 ∧ system.clears 0 = 1 ∧
      system.clears 1 = 1) ∧
    (∀ serial < system.serial, system.completions serial ≤ 1) ∧ system.panic = none :=
  Run.exists_and_of_runAll (fun _ _ _ => id) (by decide +kernel) fun _ run _ =>
    have protocol := (virtio_protocol run).2.2.2
    ⟨fun serial early => (protocol.1 serial early).2.1, protocol.2⟩

end Xv6.Virtio.System
