import Xv6.Vm.Kalloc

/-!
# Safety of the page allocator

What holds in every state that is reached from `kinit`: the free list, the counters, and the pages
that processes have in the gaps between the locked sections.
-/

namespace Xv6.Kalloc

open Function List

open Xv6.Vm (PGSIZE Frame)
open RefCount (Pool)
open Transition

/-- The address of a page. -/
def addr (frame : Frame) : Addr := frame * PGSIZE

@[simp] theorem addr_div (frame : Frame) : addr frame / PGSIZE = frame :=
  Nat.mul_div_cancel _ (by decide)

@[simp] theorem addr_mod (frame : Frame) : addr frame % PGSIZE = 0 :=
  Nat.mul_mod_left _ _

@[simp] theorem addr_inj {frame other : Frame} : addr frame = addr other ↔ frame = other := by
  refine ⟨fun same => ?_, congrArg addr⟩
  rw [← addr_div frame, same, addr_div]

/-- The pages in `[end, PHYSTOP)`. -/
def Ram.Managed (ram : Ram) (frame : Frame) : Prop :=
  ram.kernelEnd ≤ addr frame ∧ addr frame < ram.phystop

variable {frame : Frame}

theorem Ram.Managed.ne_null {ram : Ram} (managed : ram.Managed frame) : addr frame ≠ 0 :=
  Nat.pos_iff_ne_zero.mp (ram.kernelEnd_pos.trans_le managed.1)

/-- The page passes the test of `kfree`. -/
theorem Ram.Managed.checks {ram : Ram} (managed : ram.Managed frame) :
    ¬ (addr frame % PGSIZE ≠ 0 ∨ addr frame < ram.kernelEnd ∨ ram.phystop ≤ addr frame) := by
  rintro (unaligned | below | above)
  · exact unaligned (addr_mod frame)
  · exact absurd managed.1 (not_le.mpr below)
  · exact absurd managed.2 (not_lt.mpr above)

/-- The pages that the pointers lead to, from the given one on. -/
inductive Chain (next : Addr → Addr) : Addr → List Frame → Prop where
  | null : Chain next 0 []
  | page {frame : Frame} {rest : List Frame} : Chain next (next (addr frame)) rest →
      Chain next (addr frame) (frame :: rest)

namespace Chain

variable {next next' : Addr → Addr} {head : Addr} {frames : List Frame}

variable (chain : Chain next head frames)
include chain

/-- Words outside the pages of the chain do not matter. -/
theorem congr (same : ∀ frame ∈ frames, next' (addr frame) = next (addr frame)) :
    Chain next' head frames := by
  induction chain with
  | null => exact .null
  | page _ ih =>
    refine .page ?_
    rw [same _ mem_cons_self]
    exact ih fun frame member => same frame (mem_cons_of_mem _ member)

theorem update {frame : Frame} (absent : frame ∉ frames) (word : Addr) :
    Chain (Function.update next (addr frame) word) head frames := by
  refine chain.congr fun other member => update_of_ne ?_ _ _
  intro same
  exact absent (addr_inj.mp same ▸ member)

/-- A chain that does not start with the null pointer has a first page. -/
theorem cases_head (used : head ≠ 0) :
    ∃ frame rest, frames = frame :: rest ∧ head = addr frame ∧ Chain next (next head) rest := by
  cases chain with
  | null => exact (used rfl).elim
  | page rest => exact ⟨_, _, rfl, rfl, rest⟩

end Chain

/-- The numbers in the counters. -/
def Kmem.counts (kmem : Kmem) (frame : Frame) : ℤ := (kmem.count frame).toInt

namespace Kmem

variable {kmem : Kmem} {frame : Frame}

theorem counts_setCount (kmem : Kmem) (frame : Frame) (value : Int32) :
    (kmem.setCount frame value).counts = update kmem.counts frame value.toInt :=
  comp_update Int32.toInt kmem.count frame value

theorem counts_incr (below : kmem.counts frame < 2 ^ 31 - 1) :
    (kmem.count frame + 1).toInt = kmem.counts frame + 1 := by
  have low := (kmem.count frame).le_toInt
  have one : (1 : Int32).toInt = 1 := rfl
  unfold counts at below ⊢
  rw [Int32.toInt_add, one]
  exact Int.bmod_eq_of_le (by omega) (by omega)

theorem counts_decr (counted : 1 ≤ kmem.counts frame) :
    (kmem.count frame - 1).toInt = kmem.counts frame - 1 := by
  have high := (kmem.count frame).toInt_lt
  have one : (1 : Int32).toInt = 1 := rfl
  unfold counts at counted ⊢
  rw [Int32.toInt_sub, one]
  exact Int.bmod_eq_of_le (by omega) (by omega)

theorem pos_iff : 0 < kmem.count frame ↔ 0 < kmem.counts frame := Int32.lt_iff_toInt_lt

theorem lt_one_iff : kmem.count frame < 1 ↔ kmem.counts frame < 1 := Int32.lt_iff_toInt_lt

end Kmem

/-- The pool that the free list and the counters form. -/
structure Kmem.Good (ram : Ram) (kmem : Kmem) (frames : List Frame) : Prop where
  chain : Chain kmem.next kmem.freelist frames
  sound : Pool.Sound ram.Managed ⟨frames, kmem.counts⟩

namespace Kmem.Good

variable {ram : Ram} {kmem : Kmem} {frames : List Frame} {frame : Frame}
  {value : Int32}

variable (good : kmem.Good ram frames)
include good

/-- A counted page is not on the free list. -/
theorem absent (counted : 1 ≤ kmem.counts frame) : frame ∉ frames :=
  good.sound.not_free counted

theorem setNext (notFree : frame ∉ frames) (word : Addr) :
    (kmem.setNext (addr frame) word).Good ram frames :=
  ⟨good.chain.update notFree word, good.sound⟩

theorem setCount (sound : Pool.Sound ram.Managed ⟨frames, update kmem.counts frame value.toInt⟩) :
    (kmem.setCount frame value).Good ram frames :=
  ⟨good.chain, kmem.counts_setCount frame value ▸ sound⟩

theorem share (counted : 1 ≤ kmem.counts frame) (below : kmem.counts frame < 2 ^ 31 - 1) :
    (kmem.setCount frame (kmem.count frame + 1)).Good ram frames := by
  refine good.setCount ?_
  rw [Kmem.counts_incr below]
  exact (good.sound.share 0 frame counted).sound

theorem drop (counted : 1 ≤ kmem.counts frame) :
    (kmem.setCount frame (kmem.count frame - 1)).Good ram frames := by
  refine good.setCount ?_
  rw [Kmem.counts_decr counted]
  exact (good.sound.drop 0 frame counted).sound

theorem push (managed : ram.Managed frame) (idle : kmem.counts frame = 0)
    (notFree : frame ∉ frames) :
    (kmem.kfreePush (addr frame)).Good ram (frame :: frames) where
  chain := by
    refine .page ?_
    have link : (kmem.kfreePush (addr frame)).next (addr frame) = kmem.freelist :=
      update_self ..
    rw [link]
    exact good.chain.update notFree _
  sound := good.sound.push managed idle notFree

/-- The page that `kalloc` hands out is the first one of the free list. -/
theorem kalloc (used : kmem.freelist ≠ 0) :
    ∃ frame rest, frames = frame :: rest ∧ kmem.kalloc.1 = addr frame ∧
      kmem.kalloc.2.counts = update kmem.counts frame 1 ∧ kmem.kalloc.2.Good ram rest := by
  obtain ⟨frame, rest, rfl, head, chain⟩ := good.chain.cases_head used
  obtain ⟨idle, managed⟩ := good.sound.idle frame mem_cons_self
  have unused : ¬ 0 < kmem.count frame := Kmem.pos_iff.not.mpr idle.not_gt
  have result : kmem.kalloc =
      (addr frame, { kmem.setCount frame 1 with freelist := kmem.next (addr frame) }) := by
    simp [Kmem.kalloc, head, unused, managed.ne_null]
  rw [result]
  rw [head] at chain
  have counts := kmem.counts_setCount frame 1
  exact ⟨frame, rest, rfl, rfl, counts, chain, counts ▸ (good.sound.take 0 rfl).sound⟩

end Kmem.Good

/-! ## The processes -/

/-- The page that no other process has. -/
def Pc.page : Pc → Option Addr
  | .idle => none
  | .clear pa | .fill pa | .push pa => some pa

/-- The counter of that page. -/
def Pc.counted : Pc → ℤ
  | .clear _ => 1
  | _ => 0

namespace Machine

variable {Slot : Type} {ram : Ram} {machine after : Machine Slot}
variable {frames : List Frame} {self : Slot} {pa : Addr}

/-- Counters, references and the pages between sections agree. -/
structure Safe (ram : Ram) (machine : Machine Slot) (frames : List Frame) : Prop where
  good : machine.kmem.Good ram frames
  alone : ∀ slot other pa, pa ∈ (machine.pc slot).page → pa ∈ (machine.pc other).page →
    slot = other
  apart : ∀ slot, ∀ pa ∈ (machine.pc slot).page, machine.held pa = 0 ∧
    ∃ frame, pa = addr frame ∧ ram.Managed frame ∧ frame ∉ frames ∧
      machine.kmem.counts frame = (machine.pc slot).counted
  counted : ∀ frame, (∀ slot, machine.pc slot ≠ .clear (addr frame)) →
    machine.kmem.counts frame = machine.held (addr frame)
  aligned : ∀ pa, 1 ≤ machine.held pa → ∃ frame, pa = addr frame

/-- A page with an outstanding reference. -/
structure Referenced (ram : Ram) (machine : Machine Slot) (frames : List Frame)
    (frame : Frame) : Prop where
  count : machine.kmem.counts frame = machine.held (addr frame)
  counted : 1 ≤ machine.kmem.counts frame
  managed : ram.Managed frame
  notFree : frame ∉ frames
  apart : ∀ slot, addr frame ∉ (machine.pc slot).page

theorem Safe.referenced (safe : machine.Safe ram frames) (held : 1 ≤ machine.held pa) :
    ∃ frame, pa = addr frame ∧ Referenced ram machine frames frame := by
  obtain ⟨frame, rfl⟩ := safe.aligned pa held
  have apart : ∀ slot, addr frame ∉ (machine.pc slot).page := by
    intro slot own
    have none := (safe.apart slot _ own).1
    omega
  have count := safe.counted frame fun slot clears => apart slot (by rw [clears]; rfl)
  have counted : 1 ≤ machine.kmem.counts frame := by omega
  exact ⟨frame, rfl, count, counted, safe.good.sound.used frame counted, safe.good.absent counted,
    apart⟩

variable {frame : Frame}

section

variable (referenced : Referenced ram machine frames frame)
include referenced

/-- What `kfree` does to a page with an outstanding reference. -/
theorem Referenced.kfreeDecr : machine.kmem.kfreeDecr ram (addr frame) = .ok
      (decide (¬ 0 < machine.kmem.counts frame - 1),
        machine.kmem.setCount frame (machine.kmem.count frame - 1)) := by
  have counted : ¬ machine.kmem.count frame < 1 :=
    Kmem.lt_one_iff.not.mpr (not_lt.mpr referenced.counted)
  unfold Kmem.kfreeDecr
  rw [if_neg referenced.managed.checks, addr_div, if_neg counted]
  simp only [Kmem.pos_iff, Kmem.counts_setCount, update_self, Kmem.counts_decr referenced.counted]

theorem Referenced.below : ¬ ram.phystop < addr frame :=
  not_lt.mpr referenced.managed.2.le

theorem Referenced.pred : (machine.kmem.count frame - 1).toInt =
    (machine.held (addr frame) - 1 : Nat) := by
  have count := referenced.count
  have counted := referenced.counted
  rw [Kmem.counts_decr counted]
  omega

theorem Referenced.krefincr : machine.kmem.krefincr ram (addr frame) =
      .ok (machine.kmem.setCount frame (machine.kmem.count frame + 1)) := by
  unfold Kmem.krefincr
  rw [if_neg referenced.below, addr_div]

theorem Referenced.krefdecr : machine.kmem.krefdecr ram (addr frame) =
      .ok (machine.kmem.setCount frame (machine.kmem.count frame - 1)) := by
  unfold Kmem.krefdecr
  rw [if_neg referenced.below, addr_div]

end

@[simp] theorem setHeld_kmem (pa : Addr) (held : Nat) :
    (machine.setHeld pa held).kmem = machine.kmem :=
  rfl

@[simp] theorem setHeld_pc (pa : Addr) (held : Nat) : (machine.setHeld pa held).pc = machine.pc :=
  rfl

variable [DecidableEq Slot] {pc : Pc}

/-- A step of one process that leaves the pages of the others alone. -/
theorem Safe.move {kmem : Kmem} {held : Addr → Nat} {frames' : List Frame}
    (safe : machine.Safe ram frames) (good : kmem.Good ram frames')
    (others : ∀ slot, slot ≠ self → ∀ frame, addr frame ∈ (machine.pc slot).page →
      (frame ∈ frames' → frame ∈ frames) ∧ kmem.counts frame = machine.kmem.counts frame ∧
        held (addr frame) = machine.held (addr frame))
    (own : ∀ pa ∈ pc.page, held pa = 0 ∧ (∃ frame, pa = addr frame ∧ ram.Managed frame ∧
      frame ∉ frames' ∧ kmem.counts frame = pc.counted) ∧
        ∀ slot, slot ≠ self → pa ∉ (machine.pc slot).page)
    (counted : ∀ frame, pc ≠ .clear (addr frame) →
      (∀ slot, slot ≠ self → machine.pc slot ≠ .clear (addr frame)) →
        kmem.counts frame = held (addr frame))
    (aligned : ∀ pa, 1 ≤ held pa → ∃ frame, pa = addr frame) :
    Safe ram (⟨kmem, update machine.pc self pc, held⟩ : Machine Slot) frames' where
  good := good
  alone := by
    intro slot other pa
    simp only [update_apply]
    split_ifs with isSelf alsoSelf alsoSelf
    · exact fun _ _ => isSelf.trans alsoSelf.symm
    · exact fun mine theirs => ((own pa mine).2.2 other alsoSelf theirs).elim
    · exact fun theirs mine => ((own pa mine).2.2 slot isSelf theirs).elim
    · exact safe.alone slot other pa
  apart := by
    intro slot pa
    simp only [update_apply]
    split_ifs with isSelf
    · exact fun mine => ⟨(own pa mine).1, (own pa mine).2.1⟩
    · intro theirs
      obtain ⟨none, frame, rfl, managed, notFree, count⟩ := safe.apart slot pa theirs
      obtain ⟨listed, sameCount, sameHeld⟩ := others slot isSelf frame theirs
      exact ⟨sameHeld.trans none, frame, rfl, managed, fun free => notFree (listed free),
        sameCount.trans count⟩
  counted := by
    intro frame noClear
    refine counted frame ?_ fun slot isOther => ?_
    · simpa using noClear self
    · simpa [isOther] using noClear slot
  aligned := aligned

theorem goto_self (same : machine.pc self = pc) : machine.goto self pc = machine := by
  unfold goto
  rw [← same, update_eq_self]

variable (safe : machine.Safe ram frames)
include safe

/-- The references to a page change with its counter. -/
theorem Safe.recount {value : Int32} {held : Nat} (idle : machine.pc self = .idle)
    (referenced : Referenced ram machine frames frame) (count : value.toInt = held)
    (good : (machine.kmem.setCount frame value).Good ram frames)
    (next : pc = .idle ∨ pc = .fill (addr frame) ∧ held = 0) :
    Safe ram (({ machine with kmem := machine.kmem.setCount frame value }.setHeld
      (addr frame) held).goto self pc) frames := by
  have counts := machine.kmem.counts_setCount frame value
  refine safe.move good ?_ ?_ ?_ ?_
  · intro slot _ other theirs
    have ne : other ≠ frame := by
      rintro rfl
      exact referenced.apart slot theirs
    have elsewhere : addr other ≠ addr frame := fun same => ne (addr_inj.mp same)
    have sameHeld : update machine.held (addr frame) held (addr other) =
        machine.held (addr other) := update_of_ne elsewhere _ _
    exact ⟨id, counts ▸ update_of_ne ne _ _, sameHeld⟩
  · intro pa own
    rcases next with rfl | ⟨rfl, none⟩
    · cases own
    · cases own
      refine ⟨(update_self ..).trans none, ⟨frame, rfl, referenced.managed,
        referenced.notFree, ?_⟩, fun slot _ => referenced.apart slot⟩
      simp only [setHeld_kmem, counts, update_self, count, none]
      rfl
  · intro other _ noClear
    by_cases same : other = frame
    · simp [counts, setHeld, same, count]
    · have noClear' : ∀ slot, machine.pc slot ≠ .clear (addr other) := by
        intro slot
        by_cases isSelf : slot = self
        · rw [isSelf, idle]
          simp
        · exact noClear slot isSelf
      simpa [counts, setHeld, same] using safe.counted other noClear'
  · intro pa held'
    by_cases same : pa = addr frame
    · exact ⟨frame, same⟩
    · exact safe.aligned pa (by simpa [setHeld, same] using held')

theorem Safe.recount_idle {value : Int32} {held : Nat} (idle : machine.pc self = .idle)
    (referenced : Referenced ram machine frames frame) (count : value.toInt = held)
    (good : (machine.kmem.setCount frame value).Good ram frames) :
    Safe ram ({ machine with kmem := machine.kmem.setCount frame value }.setHeld
      (addr frame) held) frames := by
  have result := safe.recount idle referenced count good (Or.inl rfl)
  rwa [goto_self (by simpa using idle)] at result

theorem Safe.kalloc (idle : machine.pc self = .idle) :
    ∃ frames', Safe ram ({ machine with kmem := machine.kmem.kalloc.2 }.goto self
      (if machine.kmem.kalloc.1 = 0 then .idle else .clear machine.kmem.kalloc.1)) frames' := by
  by_cases empty : machine.kmem.freelist = 0
  · have nothing : machine.kmem.kalloc = (0, machine.kmem) := by simp [Kmem.kalloc, empty]
    rw [nothing, if_pos rfl, goto_self idle]
    exact ⟨frames, safe⟩
  · obtain ⟨frame, rest, rfl, result, counts, good⟩ := safe.good.kalloc empty
    obtain ⟨count, managed⟩ := safe.good.sound.idle frame mem_cons_self
    have apart : ∀ slot, addr frame ∉ (machine.pc slot).page := by
      intro slot theirs
      obtain ⟨-, other, same, -, notFree, -⟩ := safe.apart slot _ theirs
      exact notFree (addr_inj.mp same ▸ mem_cons_self)
    have none : machine.held (addr frame) = 0 := by
      have counted := safe.counted frame fun slot clears => apart slot (by rw [clears]; rfl)
      simp only at count
      omega
    rw [result, if_neg managed.ne_null]
    refine ⟨rest, safe.move good ?_ ?_ ?_ safe.aligned⟩
    · intro slot _ other theirs
      have ne : other ≠ frame := by
        rintro rfl
        exact apart slot theirs
      exact ⟨mem_cons_of_mem _, counts ▸ update_of_ne ne _ _, rfl⟩
    · rintro _ ⟨⟩
      exact ⟨none, ⟨frame, rfl, managed, (nodup_cons.mp safe.good.sound.nodup).1,
        counts ▸ update_self ..⟩, fun slot _ => apart slot⟩
    · intro other notClear noClear
      have ne : other ≠ frame := by
        rintro rfl
        exact notClear rfl
      rw [counts]
      refine (update_of_ne ne _ _).trans (safe.counted other fun slot => ?_)
      by_cases isSelf : slot = self
      · rw [isSelf, idle]
        simp
      · exact noClear slot isSelf

/-- An allowed call does not panic, and keeps the invariant if the counters suffice. -/
theorem Safe.call {action : Action} (allowed : machine.Allowed self action) :
    ∃ after, machine.call ram self action = .ok after ∧
      (machine.Countable (self, action) → ∃ frames', after.Safe ram frames') := by
  obtain ⟨idle, holds⟩ := allowed
  cases action with
  | kalloc => exact ⟨_, rfl, fun _ => safe.kalloc idle⟩
  | kfree pa =>
    obtain ⟨frame, rfl, referenced⟩ := safe.referenced (holds pa rfl)
    refine ⟨_, by rw [Machine.call, referenced.kfreeDecr]; rfl, fun _ => ⟨frames, ?_⟩⟩
    refine safe.recount idle referenced referenced.pred (safe.good.drop referenced.counted) ?_
    split_ifs with last
    · refine .inr ⟨rfl, ?_⟩
      have count := referenced.count
      simp only [decide_eq_true_eq] at last
      omega
    · exact .inl rfl
  | krefincr pa =>
    obtain ⟨frame, rfl, referenced⟩ := safe.referenced (holds pa rfl)
    refine ⟨_, by rw [Machine.call, referenced.krefincr]; rfl, fun countable => ⟨frames, ?_⟩⟩
    have below : machine.kmem.counts frame < 2 ^ 31 - 1 := by
      have bound : machine.held (addr frame) < 2 ^ 31 - 1 := countable _ rfl
      have count := referenced.count
      omega
    refine safe.recount_idle idle referenced ?_ (safe.good.share referenced.counted below)
    rw [Kmem.counts_incr below, referenced.count]
    rfl
  | krefdecr pa =>
    obtain ⟨frame, rfl, referenced⟩ := safe.referenced (holds pa rfl)
    refine ⟨_, by rw [Machine.call, referenced.krefdecr]; rfl, fun _ => ⟨frames, ?_⟩⟩
    exact safe.recount_idle idle referenced referenced.pred (safe.good.drop referenced.counted)
  | write pa word =>
    obtain ⟨frame, rfl, referenced⟩ := safe.referenced (holds pa rfl)
    exact ⟨_, rfl, fun _ => ⟨frames, safe.good.setNext referenced.notFree word, safe.alone,
      safe.apart, safe.counted, safe.aligned⟩⟩
  | proceed => exact ⟨machine, rfl, fun _ => ⟨frames, safe⟩⟩

theorem Safe.proceed (stepped : machine.proceed self = some after) :
    ∃ frames', after.Safe ram frames' := by
  unfold Machine.proceed at stepped
  split at stepped
  case h_1 => cases stepped
  case h_2 pa here =>
    cases stepped
    obtain ⟨none, frame, rfl, managed, notFree, count⟩ :=
      safe.apart self pa (by rw [here]; rfl)
    rw [here] at count
    refine ⟨frames, safe.move (safe.good.setNext notFree _) ?_ (by simp [Pc.page]) ?_ ?_⟩
    · intro slot isOther other theirs
      have elsewhere : addr other ≠ addr frame := by
        intro same
        rw [same] at theirs
        exact isOther (safe.alone slot self _ theirs (by rw [here]; rfl))
      have sameHeld : update machine.held (addr frame) (machine.held (addr frame) + 1)
          (addr other) = machine.held (addr other) := update_of_ne elsewhere _ _
      exact ⟨id, rfl, sameHeld⟩
    · intro other _ noClear
      change machine.kmem.counts other = (update machine.held (addr frame)
        (machine.held (addr frame) + 1) (addr other) : Nat)
      by_cases same : other = frame
      · rw [same, update_self, none, count]
        rfl
      · have elsewhere : addr other ≠ addr frame := fun equal => same (addr_inj.mp equal)
        rw [update_of_ne elsewhere]
        refine safe.counted other fun slot => ?_
        by_cases isSelf : slot = self
        · rw [isSelf, here]
          exact fun equal => elsewhere (Pc.clear.inj equal).symm
        · exact noClear slot isSelf
    · intro pa' held
      by_cases same : pa' = addr frame
      · exact ⟨frame, same⟩
      · exact safe.aligned pa' (by simpa [setHeld, same] using held)
  case h_3 pa here =>
    cases stepped
    obtain ⟨none, frame, rfl, managed, notFree, count⟩ :=
      safe.apart self pa (by rw [here]; rfl)
    rw [here] at count
    refine ⟨frames, safe.move (safe.good.setNext notFree _) (fun _ _ _ _ => ⟨id, rfl, rfl⟩) ?_ ?_
      safe.aligned⟩
    · rintro _ ⟨⟩
      refine ⟨none, ⟨frame, rfl, managed, notFree, count⟩, fun slot isOther theirs => ?_⟩
      exact isOther (safe.alone slot self _ theirs (by rw [here]; rfl))
    · intro other _ noClear
      refine safe.counted other fun slot => ?_
      by_cases isSelf : slot = self
      · rw [isSelf, here]
        simp
      · exact noClear slot isSelf
  case h_4 pa here =>
    cases stepped
    obtain ⟨none, frame, rfl, managed, notFree, count⟩ :=
      safe.apart self pa (by rw [here]; rfl)
    rw [here] at count
    refine ⟨frame :: frames, safe.move (safe.good.push managed count notFree) ?_ (by simp [Pc.page])
      ?_ safe.aligned⟩
    · intro slot isOther other theirs
      refine ⟨fun free => ?_, rfl, rfl⟩
      rcases mem_cons.mp free with rfl | free
      · exact (isOther (safe.alone slot self _ theirs (by rw [here]; rfl))).elim
      · exact free
    · intro other _ noClear
      refine safe.counted other fun slot => ?_
      by_cases isSelf : slot = self
      · rw [isSelf, here]
        simp
      · exact noClear slot isSelf

/-- No step panics. -/
theorem Safe.exec {label : Slot × Action} {done : Except Vm.Panic (Machine Slot)}
    (stepped : machine.exec ram label = some done) :
    ∃ after, done = .ok after ∧
      (machine.Countable label → ∃ frames', after.Safe ram frames') := by
  unfold Machine.exec at stepped
  split at stepped
  · obtain ⟨after, proceeded, rfl⟩ := Option.map_eq_some_iff.mp stepped
    exact ⟨after, rfl, fun _ => safe.proceed proceeded⟩
  · split_ifs at stepped with allowed
    cases stepped
    exact safe.call allowed

end Machine

/-! ## From `kinit` -/

namespace Kmem

variable {ram : Ram} {kmem : Kmem} {frames : List Frame} {frame : Frame}

theorem setCount_setCount (first second : Int32) :
    (kmem.setCount frame first).setCount frame second = kmem.setCount frame second := by
  simp [setCount]

theorem setCount_self {value : Int32} (same : kmem.count frame = value) :
    kmem.setCount frame value = kmem := by
  simp [setCount, ← same]

/-- A turn of `freerange`. -/
theorem kfree_first (managed : ram.Managed frame) (idle : kmem.count frame = 0) :
    (kmem.setCount frame 1).kfree ram (addr frame) =
      .ok ((kmem.memset (addr frame) 1).kfreePush (addr frame)) := by
  have one : (kmem.setCount frame 1).count frame = 1 := update_self ..
  have decremented : (kmem.setCount frame 1).kfreeDecr ram (addr frame) = .ok (true, kmem) := by
    unfold kfreeDecr
    have last : (1 : Int32) - 1 = 0 := rfl
    rw [if_neg managed.checks, addr_div, one, if_neg (by decide), setCount_setCount, last,
      setCount_self idle]
    simp only [idle]
    rfl
  unfold kfree
  rw [decremented]
  rfl

theorem freerange_ok (turns : Nat) (good : kmem.Good ram frames) (idle : ∀ pn, kmem.count pn = 0)
    (below : ∀ other ∈ frames, other < frame) (start : ram.kernelEnd ≤ addr frame) :
    ∃ after frames', freerange ram turns (addr frame) kmem = .ok after ∧ after.Good ram frames' ∧
      ∀ pn, after.count pn = 0 := by
  induction turns generalizing kmem frames frame with
  | zero => exact ⟨kmem, frames, rfl, good, idle⟩
  | succ turns ih =>
    unfold freerange
    split_ifs with fits
    · have managed : ram.Managed frame :=
        ⟨start, Nat.lt_of_lt_of_le (Nat.lt_add_of_pos_right (by decide)) fits⟩
      have absent : frame ∉ frames := fun free => lt_irrefl _ (below frame free)
      have later : addr frame + PGSIZE = addr (frame + 1) := (Nat.succ_mul frame PGSIZE).symm
      have pushed := (good.setNext absent (1 * 0x0101010101010101)).push managed
        (congrArg Int32.toInt (idle frame)) absent
      rw [addr_div, kfree_first managed (idle frame), later]
      refine ih pushed idle (fun other member => ?_) (later ▸ start.trans (Nat.le_add_right _ _))
      rcases mem_cons.mp member with rfl | free
      · exact Nat.lt_succ_self _
      · exact (below other free).trans (Nat.lt_succ_self _)
    · exact ⟨kmem, frames, rfl, good, idle⟩

/-- `kinit` does not panic. -/
theorem kinit_ok (ram : Ram) (words : Addr → Addr) :
    ∃ kmem frames, kinit ram words = .ok kmem ∧ kmem.Good ram frames ∧ ∀ pn, kmem.count pn = 0 := by
  have start : ram.kernelEnd ≤ pgRoundUp ram.kernelEnd := by
    have above : ∀ pa : Nat, pa ≤ (pa + 4095) / 4096 * 4096 := fun pa => by omega
    exact above ram.kernelEnd
  refine freerange_ok _ ⟨.null, nodup_nil, ?_, ?_⟩ (fun _ => rfl) ?_ start
  · simp
  · intro pn counted
    exact absurd counted (show ¬ (1 : ℤ) ≤ 0 by decide)
  · simp

end Kmem

namespace Machine

variable {Slot : Type}

theorem Safe.boot {ram : Ram} {kmem : Kmem} {frames : List Frame} (good : kmem.Good ram frames)
    (idle : ∀ pn, kmem.count pn = 0) : Safe ram (boot kmem : Machine Slot) frames where
  good := good
  alone := by simp [Machine.boot, Pc.page]
  apart := by simp [Machine.boot, Pc.page]
  counted := fun frame _ => congrArg Int32.toInt (idle frame)
  aligned := by simp [Machine.boot]

/-- What the users of the allocator rely on: the free list is a list of distinct pages of the
managed memory, the counters are the outstanding references, `kalloc` returns no page that has one
and returns 0 only if the free list is empty, and no step panics. -/
structure Orderly [DecidableEq Slot] (ram : Ram) (machine : Machine Slot) : Prop where
  free : ∃ frames, Chain machine.kmem.next machine.kmem.freelist frames ∧ frames.Nodup ∧
    ∀ frame ∈ frames, ram.kernelEnd ≤ addr frame ∧ addr frame < ram.phystop ∧
      machine.kmem.count frame = 0
  counted : ∀ frame, (∀ slot, machine.pc slot ≠ .clear (addr frame)) →
    (machine.kmem.count frame).toInt = machine.held (addr frame)
  fresh : machine.kmem.kalloc.1 ≠ 0 → machine.held machine.kmem.kalloc.1 = 0 ∧
    ∀ slot, machine.pc slot ≠ .clear machine.kmem.kalloc.1
  exhausted : machine.kmem.kalloc.1 = 0 → machine.kmem.freelist = 0
  noPanic : ∀ label panic, machine.exec ram label ≠ some (.error panic)

variable [DecidableEq Slot] {ram : Ram} {words : Addr → Addr} {kmem : Kmem}
  {machine : Machine Slot} {labels : List (Slot × Action)}

theorem Safe.orderly {frames : List Frame} (safe : machine.Safe ram frames) :
    machine.Orderly ram := by
  have taken : machine.kmem.freelist ≠ 0 → ∃ frame ∈ frames, ram.Managed frame ∧
      machine.kmem.kalloc.1 = addr frame := by
    intro used
    obtain ⟨frame, rest, rfl, result, -, -⟩ := safe.good.kalloc used
    exact ⟨frame, mem_cons_self, (safe.good.sound.idle frame mem_cons_self).2, result⟩
  refine ⟨⟨frames, safe.good.chain, safe.good.sound.nodup, fun frame free => ?_⟩, safe.counted,
    fun some => ?_, fun none => ?_, fun label panic failed => ?_⟩
  · obtain ⟨zero, managed⟩ := safe.good.sound.idle frame free
    exact ⟨managed.1, managed.2, Int32.toInt_inj.mp zero⟩
  · have used : machine.kmem.freelist ≠ 0 := by
      intro empty
      exact some (by simp [Kmem.kalloc, empty])
    obtain ⟨frame, free, -, result⟩ := taken used
    rw [result]
    have noClear : ∀ slot, machine.pc slot ≠ .clear (addr frame) := by
      intro slot clears
      obtain ⟨-, other, same, -, notFree, -⟩ := safe.apart slot (addr frame) (by rw [clears]; rfl)
      exact notFree (addr_inj.mp same ▸ free)
    refine ⟨?_, noClear⟩
    have zero := (safe.good.sound.idle frame free).1
    have count := safe.counted frame noClear
    simp only at zero
    omega
  · by_contra used
    obtain ⟨frame, -, managed, result⟩ := taken used
    exact managed.ne_null (result.symm.trans none)
  · obtain ⟨_, same, -⟩ := safe.exec failed
    cases same

/-- `kinit` does not panic, and the allocator is in order in every state that is reached after it
while no page has more references than an `int` can count. -/
theorem page_allocator_safe (started : Kmem.kinit ram words = .ok kmem)
    (run : Run (Guarded Countable (Step ram)) (boot kmem) labels machine) :
    (∀ words, ∃ kmem, Kmem.kinit ram words = .ok kmem) ∧ machine.Orderly ram := by
  obtain ⟨_, frames, sameStart, good, idle⟩ := Kmem.kinit_ok ram words
  cases started.symm.trans sameStart
  obtain ⟨frames, safe⟩ : ∃ frames, machine.Safe ram frames := by
    have preserved : ∀ before label after, (∃ frames, Safe ram (before : Machine Slot) frames) →
        Guarded Countable (Step ram) before label after → ∃ frames, after.Safe ram frames := by
      rintro before label after ⟨frames, safe⟩ ⟨countable, stepped⟩
      obtain ⟨_, same, result⟩ := safe.exec stepped
      cases same
      exact result countable
    exact run.invariant preserved ⟨frames, .boot good idle⟩
  refine ⟨fun words => ?_, safe.orderly⟩
  obtain ⟨kmem, -, started, -⟩ := Kmem.kinit_ok ram words
  exact ⟨kmem, started⟩

/-! ## A counter that wraps -/

/-- Memory with the two pages at 4096 and 8192. -/
def twoPages : Ram := ⟨1, 12288, by decide⟩

/-- A step function. -/
def next? (ram : Ram) (machine : Machine Slot) (label : Slot × Action) : Option (Machine Slot) :=
  match machine.exec ram label with
  | some (.ok after) => some after
  | _ => none

theorem step_of_next? (before : Machine Slot) (label : Slot × Action) (after : Machine Slot)
    (done : before.next? ram label = some after) : Step ram before label after := by
  unfold next? at done
  split at done
  next _ stepped =>
    cases done
    exact stepped
  next => cases done

omit [DecidableEq Slot] in
/-- A computed run from `kinit`. -/
theorem run_of_kinit {step : Machine Slot → Slot × Action → Machine Slot → Prop}
    {exec : Machine Slot → Slot × Action → Option (Machine Slot)} {P : Machine Slot → Prop}
    (sound : ∀ before label after, exec before label = some after → step before label after)
    (started : Kmem.kinit ram words = .ok kmem)
    (done : ∃ machine ∈ (Kmem.kinit ram words).toOption.bind fun kmem =>
      runAll exec (boot kmem) labels, P machine) :
    ∃ machine, Run step (boot kmem) labels machine ∧ P machine := by
  rw [started] at done
  exact Run.exists_of_runAll sound done

/-- Two processes share a page and give it up; while the second is between the sections of `kfree`
the first takes the other page. -/
def sharing : List (Bool × Action) :=
  [(false, .kalloc), (false, .proceed), (false, .krefincr 8192), (false, .kfree 8192),
    (true, .kfree 8192), (false, .kalloc), (true, .proceed), (true, .proceed)]

theorem page_allocator_safe_shared : ∃ kmem, ∃ machine : Machine Bool,
    Kmem.kinit twoPages (fun _ => 0) = .ok kmem ∧
    Run (Guarded Countable (Step twoPages)) (boot kmem) sharing machine ∧
    machine.kmem.freelist = 8192 ∧ machine.pc false = .clear 4096 ∧ machine.Orderly twoPages := by
  obtain ⟨kmem, -, started, -⟩ := Kmem.kinit_ok twoPages fun _ => 0
  have done : ∃ machine, Run (Guarded Countable (Step twoPages)) (boot kmem) sharing machine ∧
      machine.kmem.freelist = 8192 ∧ machine.pc false = .clear 4096 :=
    run_of_kinit (Run.guarded_of_exec step_of_next?) started (by decide +kernel)
  obtain ⟨machine, run, freelist, clears⟩ := done
  exact ⟨kmem, machine, started, run, freelist, clears, (page_allocator_safe started run).2⟩

/-- One process counts its page up. -/
theorem counting_run (started : Kmem.kinit twoPages (fun _ => 0) = .ok kmem) (count : Nat) :
    ∃ labels, ∃ machine : Machine Unit, Run (Step twoPages) (boot kmem) labels machine ∧
      machine.pc () = .idle ∧ machine.held 8192 = count + 1 ∧
      machine.kmem.count 2 = Int32.ofNat (count + 1) := by
  induction count with
  | zero =>
    refine ⟨[((), .kalloc), ((), .proceed)], run_of_kinit step_of_next? started ?_⟩
    decide +kernel
  | succ count ih =>
    obtain ⟨labels, machine, run, idle, held, counted⟩ := ih
    have allowed : machine.Allowed () (.krefincr 8192) := by
      refine ⟨idle, fun pa same => ?_⟩
      cases same
      omega
    have stepped : Step twoPages machine ((), .krefincr 8192)
        ({ machine with kmem := machine.kmem.setCount 2 (machine.kmem.count 2 + 1) }.setHeld 8192
          (machine.held 8192 + 1)) := if_pos allowed
    refine ⟨_, _, run.snoc stepped, idle, ?_, ?_⟩
    · simp [setHeld, held]
    · simp [Kmem.setCount, counted, Int32.ofNat_add (count + 1)]

/-- After 2 ^ 31 - 1 calls of `krefincr` the holder of a page cannot give it back. -/
theorem kfree_panics : ∃ kmem, Kmem.kinit twoPages (fun _ => 0) = .ok kmem ∧
    ∃ labels, ∃ machine : Machine Unit, Run (Step twoPages) (boot kmem) labels machine ∧
      machine.Allowed () (.kfree 8192) ∧
      machine.exec twoPages ((), .kfree 8192) = some (.error .kfreeDecr) := by
  obtain ⟨kmem, -, started, -⟩ := Kmem.kinit_ok twoPages fun _ => 0
  obtain ⟨labels, machine, run, idle, held, counted⟩ := counting_run started (2 ^ 31 - 1)
  have allowed : machine.Allowed () (.kfree 8192) := by
    refine ⟨idle, fun pa same => ?_⟩
    cases same
    omega
  have negative : machine.kmem.count 2 < 1 := by
    rw [counted]
    decide
  have fails : machine.kmem.kfreeDecr twoPages 8192 = .error .kfreeDecr := by
    unfold Kmem.kfreeDecr
    rw [if_neg (by decide)]
    exact if_pos negative
  refine ⟨kmem, started, labels, machine, run, allowed, (if_pos allowed).trans ?_⟩
  rw [Machine.call, fails]
  rfl

end Machine

end Xv6.Kalloc
