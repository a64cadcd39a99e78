import Xv6.Bio.Cache

/-!
# Coherence of the buffer cache

What holds of the cache in every state that is reached from `binit`: the list of buffers, the
reference counts, the blocks that the buffers hold, and which buffer is recycled.
-/

namespace Xv6.Bio

open List Finset

namespace Cache

variable {Data : Type} {cache after : Cache Data} {self : Slot} {index other : Index}

/-! ## The list of buffers -/

/-- The links lead through all buffers. -/
structure Listed (cache : Cache Data) (order : List Index) : Prop where
  circular : Circular cache.links order
  all : ∀ index, index ∈ order

variable {order : List Index} {query : Index}

theorem Listed.length_lt (listed : cache.Listed order) : order.length < NBUF + 1 := by
  have bound := listed.circular.nodup.length_le_card
  rw [Fintype.card_fin] at bound
  omega

theorem Listed.cached_eq (listed : cache.Listed order) (dev blockno : UInt32) :
    cache.cached dev blockno = order.find? fun index =>
      (cache.buf index).dev = dev ∧ (cache.buf index).blockno = blockno :=
  listed.circular.search_next _ listed.length_lt

theorem Listed.leastUsed_eq (listed : cache.Listed order) :
    cache.leastUsed = order.reverse.find? fun index => (cache.buf index).refcnt = 0 :=
  listed.circular.flip.search_next _ (by simpa using listed.length_lt)

theorem binit_listed (zero : Data) (disk : UInt32 × UInt32 → Data) :
    (binit zero disk).Listed (finRange NBUF).reverse := by
  have insert : ∀ (todo order : List Index) (links : Links Index), Circular links order →
      (todo.reverse ++ order).Nodup →
      Circular (todo.foldl (fun links index => links.pushFront index) links)
        (todo.reverse ++ order) := by
    intro todo
    induction todo with
    | nil => exact fun order links circular _ => circular
    | cons index todo ih =>
      intro order links circular nodup
      rw [reverse_cons, append_assoc] at nodup ⊢
      have tail := (nodup_append.mp nodup).2.1
      exact ih (index :: order) _ (circular.pushFront (nodup_cons.mp tail).1) nodup
  refine ⟨?_, fun index => by simp⟩
  have circular := insert (finRange NBUF) [] _ .empty
    (by simpa using nodup_reverse.mpr (nodup_finRange NBUF))
  rw [append_nil] at circular
  exact circular

/-! ## References -/

section Fields

variable (cache) (index) (buf : Buf Data) (slot : Slot) (pc : Pc)

theorem set_buf :
    (cache.set index buf).buf other = if other = index then buf else cache.buf other :=
  Function.update_apply ..

theorem setRefcnt_refcnt (value : UInt32) : ((cache.setRefcnt index value).buf other).refcnt =
    if other = index then value else (cache.buf other).refcnt := by
  rw [setRefcnt, set_buf]
  split_ifs <;> rfl

/-- A field that a change of one buffer leaves as it is. -/
theorem set_field {Value : Type} (field : Buf Data → Value)
    (same : field buf = field (cache.buf index)) (query : Index) :
    field ((cache.set index buf).buf query) = field (cache.buf query) := by
  rw [set_buf]
  split_ifs with here
  · rw [here, same]
  · rfl

section SetRefcnt

variable (value : UInt32)

@[simp] theorem setRefcnt_key :
    ((cache.setRefcnt index value).buf other).key = (cache.buf other).key :=
  set_field cache index { cache.buf index with refcnt := value } Buf.key rfl other

@[simp] theorem setRefcnt_valid :
    ((cache.setRefcnt index value).buf other).valid = (cache.buf other).valid :=
  set_field cache index { cache.buf index with refcnt := value } Buf.valid rfl other

@[simp] theorem setRefcnt_holder :
    ((cache.setRefcnt index value).buf other).holder = (cache.buf other).holder :=
  set_field cache index { cache.buf index with refcnt := value } Buf.holder rfl other

@[simp] theorem setRefcnt_data :
    ((cache.setRefcnt index value).buf other).data = (cache.buf other).data :=
  set_field cache index { cache.buf index with refcnt := value } Buf.data rfl other

@[simp] theorem setRefcnt_links : (cache.setRefcnt index value).links = cache.links := rfl
@[simp] theorem setRefcnt_pins : (cache.setRefcnt index value).pins = cache.pins := rfl
@[simp] theorem setRefcnt_pc : (cache.setRefcnt index value).pc = cache.pc := rfl

end SetRefcnt

theorem goto_pc (query : Slot) :
    (cache.goto slot pc).pc query = if query = slot then pc else cache.pc query :=
  Function.update_apply ..

end Fields

theorem uses_le (pc : Pc) (index : Index) : pc.uses index ≤ 1 := by
  cases pc <;> simp only [Pc.uses] <;> (try split_ifs) <;> omega

theorem refs_le (cache : Cache Data) (index : Index) : cache.refs index ≤ NPROC + 1 := by
  have sum : ∑ slot, (cache.pc slot).uses index ≤ NPROC := by
    have bound := sum_le_card_nsmul (univ : Finset Slot)
      (fun slot => (cache.pc slot).uses index) 1 (fun slot _ => uses_le _ _)
    simpa using bound
  have holder : (cache.buf index).holder.toList.length ≤ 1 := by
    cases (cache.buf index).holder <;> simp
  unfold refs
  omega

/-- A process moves on. -/
theorem refs_goto (cache : Cache Data) (slot : Slot) (pc : Pc) (index : Index) :
    (cache.goto slot pc).refs index + (cache.pc slot).uses index =
      cache.refs index + pc.uses index := by
  have old := add_sum_erase univ (fun query => (cache.pc query).uses index)
    (mem_univ slot)
  have new := add_sum_erase univ
    (fun query => ((cache.goto slot pc).pc query).uses index) (mem_univ slot)
  have rest : ∑ query ∈ univ.erase slot, ((cache.goto slot pc).pc query).uses index =
      ∑ query ∈ univ.erase slot, (cache.pc query).uses index := by
    refine sum_congr rfl fun query member => ?_
    rw [goto_pc, if_neg (ne_of_mem_erase member)]
  simp only [goto_pc, if_true] at new rest
  unfold refs
  simp only [goto_pc, goto_buf]
  omega

/-- Caches with the same locks and positions have the same references. -/
theorem refs_congr (pc : after.pc = cache.pc)
    (holder : (after.buf index).holder = (cache.buf index).holder) :
    after.refs index = cache.refs index := by
  unfold refs
  rw [pc, holder]

@[simp] theorem setRefcnt_refs (cache : Cache Data) (index : Index) (value : UInt32)
    (query : Index) :
    (cache.setRefcnt index value).refs query = cache.refs query :=
  refs_congr rfl (setRefcnt_holder ..)

/-! ## What a step does -/

/-- The kinds of steps. -/
inductive Change (cache : Cache Data) (self : Slot) : Cache Data → Prop where
  | hit (index : Index) : cache.pc self = .idle →
      Change cache self
        ((cache.setRefcnt index ((cache.buf index).refcnt + 1)).goto self (.lock index))
  | recycle (index : Index) (dev blockno : UInt32) : cache.pc self = .idle → dev ≠ 0 →
      cache.cached dev blockno = none → cache.leastUsed = some index →
      Change cache self ((cache.set index { cache.buf index with
        dev, blockno, valid := false, refcnt := 1 }).goto self (.lock index))
  | lock (index : Index) : cache.pc self = .lock index → (cache.buf index).holder = none →
      Change cache self ((cache.set index { cache.buf index with holder := some self }).goto self
        (.fill index))
  | filled (index : Index) : cache.pc self = .fill index → (cache.buf index).valid = true →
      Change cache self (cache.goto self .idle)
  | fill (index : Index) : cache.pc self = .fill index → (cache.buf index).valid = false →
      Change cache self ((cache.set index { cache.buf index with
        data := cache.disk (cache.buf index).key, valid := true }).goto self .idle)
  | unref (index : Index) : cache.pc self = .unref index →
      Change cache self ((cache.unref index).goto self .idle)
  | store (index : Index) (data : Data) : cache.pc self = .idle →
      (cache.buf index).holder = some self →
      Change cache self { cache.set index { cache.buf index with data } with
        pins := cache.pins.map (restore index data) }
  | write (disk : UInt32 × UInt32 → Data) : Change cache self { cache with disk }
  | release (index : Index) : cache.pc self = .idle → (cache.buf index).holder = some self →
      Change cache self ((cache.set index { cache.buf index with holder := none }).goto self
        (.unref index))
  | pin (index : Index) (logged : Option Data) : cache.pc self = .idle →
      cache.pins.length < LOGSIZE →
      (∀ data, logged = some data →
        (cache.buf index).holder = some self ∧ data = (cache.buf index).data) →
      Change cache self { cache.setRefcnt index ((cache.buf index).refcnt + 1) with
        pins := ⟨index, (cache.buf index).key, logged⟩ :: cache.pins }
  | unpin (place : Nat) (pin : Pin Data) : cache.pins[place]? = some pin →
      0 < cache.refs pin.index →
      Change cache self { cache.setRefcnt pin.index ((cache.buf pin.index).refcnt - 1) with
        pins := cache.pins.eraseIdx place }

theorem exec_change {action : Action Data} (done : cache.exec self action = some after)
    (room : ∀ index, action = .bpin index → cache.pins.length < LOGSIZE) :
    Change cache self after := by
  cases action with
  | bread dev blockno =>
    simp only [exec] at done
    split_ifs at done with allowed
    unfold bget at done
    split at done
    case h_1 index found =>
      cases done
      exact .hit index allowed.1
    case h_2 missing =>
      split at done
      case h_1 index unused =>
        cases done
        exact .recycle index dev blockno allowed.1 allowed.2 missing unused
      case h_2 => cases done
  | proceed =>
    simp only [exec, proceed] at done
    split at done
    next => cases done
    next index here =>
      split_ifs at done with free
      cases done
      exact .lock index here free
    next index here =>
      split_ifs at done with valid
      · cases done
        exact .filled index here valid
      · cases done
        exact .fill index here (by simpa using valid)
    next index here =>
      cases done
      exact .unref index here
  | store index data =>
    simp only [exec] at done
    split_ifs at done with allowed
    cases done
    exact .store index data allowed.1 allowed.2
  | bwrite index =>
    simp only [exec] at done
    split_ifs at done
    cases done
    exact .write _
  | brelse index =>
    simp only [exec] at done
    split_ifs at done with allowed
    cases done
    exact .release index allowed.1 allowed.2
  | bpin index =>
    obtain ⟨idle, ⟨⟩⟩ := Option.ite_none_right_eq_some.mp done
    refine .pin index _ idle (room index rfl) fun data logged => ?_
    split_ifs at logged with held
    cases logged
    exact ⟨held, rfl⟩
  | bunpin place =>
    simp only [exec] at done
    split at done
    next => cases done
    next pin found =>
      split_ifs at done with allowed
      cases done
      exact .unpin place pin found allowed.2

/-! ## The invariant -/

/-- The counts are right, no block is in two buffers, and pinned buffers keep their blocks. -/
structure Sound (cache : Cache Data) : Prop where
  refcnt : ∀ index, (cache.buf index).refcnt.toNat = cache.refs index + cache.pinned index
  pins_le : cache.pins.length ≤ LOGSIZE
  key : ∀ index other, (cache.buf index).dev ≠ 0 → (cache.buf index).key = (cache.buf other).key →
    index = other
  filling : ∀ slot index, cache.pc slot = .fill index → (cache.buf index).holder = some slot
  filled : ∀ slot index, (cache.buf index).holder = some slot → cache.pc slot ≠ .fill index →
    (cache.buf index).valid = true
  pins : ∀ pin ∈ cache.pins, (cache.buf pin.index).key = pin.key ∧
    ∀ data, pin.logged = some data →
      (cache.buf pin.index).valid = true ∧ (cache.buf pin.index).data = data

namespace Sound

variable (sound : cache.Sound)
include sound

theorem refcnt_lt (index : Index) : (cache.buf index).refcnt.toNat + 1 < 2 ^ 32 := by
  have counted := sound.refcnt index
  have refs := cache.refs_le index
  have pins : cache.pinned index ≤ cache.pins.length := countP_le_length
  have length := sound.pins_le
  simp only [LOGSIZE, MAXOPBLOCKS, NPROC] at *
  omega

theorem refcnt_succ (index : Index) :
    ((cache.buf index).refcnt + 1).toNat = cache.refs index + cache.pinned index + 1 := by
  have bound := sound.refcnt_lt index
  rw [UInt32.toNat_add, ← sound.refcnt index]
  exact Nat.mod_eq_of_lt bound

theorem refcnt_pred (used : 0 < cache.refs index + cache.pinned index) :
    ((cache.buf index).refcnt - 1).toNat = cache.refs index + cache.pinned index - 1 := by
  have counted := sound.refcnt index
  have le : (1 : UInt32) ≤ (cache.buf index).refcnt := by
    rw [UInt32.le_iff_toNat_le, counted]
    exact used
  rw [UInt32.toNat_sub_of_le _ _ le, counted]
  rfl

section

variable (zero : (cache.buf index).refcnt = 0)
include zero

/-- A buffer without references is neither pinned nor locked. -/
theorem unused : cache.refs index = 0 ∧ cache.pinned index = 0 := by
  have counted := sound.refcnt index
  rw [zero] at counted
  have none : (0 : UInt32).toNat = 0 := rfl
  omega

theorem not_held : (cache.buf index).holder = none := by
  have none := (sound.unused zero).1
  cases held : (cache.buf index).holder with
  | none => rfl
  | some slot =>
    unfold refs at none
    rw [held] at none
    simp at none

theorem not_pinned {pin : Pin Data} (member : pin ∈ cache.pins) : pin.index ≠ index := by
  have none := (sound.unused zero).2
  intro same
  exact (countP_eq_zero.mp none) pin member (by simpa using same)

end

/-- A step that changes no block, no lock and no contents, and in which no process begins or
ends to read a block. -/
theorem of_same (key : ∀ index, (after.buf index).key = (cache.buf index).key)
    (valid : ∀ index, (after.buf index).valid = (cache.buf index).valid)
    (holder : ∀ index, (after.buf index).holder = (cache.buf index).holder)
    (pcs : ∀ slot, after.pc slot = cache.pc slot ∨
      (∀ index, cache.pc slot ≠ .fill index) ∧ ∀ index, after.pc slot ≠ .fill index)
    (refcnt : ∀ index, (after.buf index).refcnt.toNat = after.refs index + after.pinned index)
    (pins_le : after.pins.length ≤ LOGSIZE)
    (pins : ∀ pin ∈ after.pins, (cache.buf pin.index).key = pin.key ∧
      ∀ data, pin.logged = some data →
        (cache.buf pin.index).valid = true ∧ (after.buf pin.index).data = data) : after.Sound where
  refcnt := refcnt
  pins_le := pins_le
  key := by
    intro index other used same
    rw [key, key] at same
    have dev : (after.buf index).dev = (cache.buf index).dev := congrArg Prod.fst (key index)
    exact sound.key index other (dev ▸ used) same
  filling := by
    intro slot index filling
    rw [holder]
    rcases pcs slot with same | ⟨-, no⟩
    · exact sound.filling slot index (same ▸ filling)
    · exact (no index filling).elim
  filled := by
    intro slot index held past
    rw [holder] at held
    rw [valid]
    rcases pcs slot with same | ⟨no, -⟩
    · exact sound.filled slot index held (same ▸ past)
    · exact sound.filled slot index held (no index)
  pins := by
    intro pin member
    obtain ⟨same, logged⟩ := pins pin member
    rw [key, valid]
    exact ⟨same, logged⟩

end Sound

@[simp] theorem unref_buf (cache : Cache Data) (index : Index) :
    (cache.unref index).buf = (cache.setRefcnt index ((cache.buf index).refcnt - 1)).buf := by
  simp only [unref]
  split_ifs <;> rfl

@[simp] theorem unref_pc (cache : Cache Data) (index : Index) :
    (cache.unref index).pc = cache.pc := by
  simp only [unref]
  split_ifs <;> rfl

@[simp] theorem unref_pins (cache : Cache Data) (index : Index) :
    (cache.unref index).pins = cache.pins := by
  simp only [unref]
  split_ifs <;> rfl

/-- The counts after a step that changes one of them with the references. -/
theorem Sound.recount (sound : cache.Sound) {value : UInt32}
    (buf : after.buf = (cache.setRefcnt index value).buf)
    (here : value.toNat = after.refs index + after.pinned index)
    (elsewhere : ∀ query, query ≠ index →
      after.refs query + after.pinned query = cache.refs query + cache.pinned query)
    (query : Index) : (after.buf query).refcnt.toNat = after.refs query + after.pinned query := by
  rw [buf, setRefcnt_refcnt]
  split_ifs with same
  · rw [same]
    exact here
  · rw [elsewhere query same]
    exact sound.refcnt query

theorem uses_of_ne {pc : Pc} (used : pc = .lock index ∨ pc = .unref index) (ne : query ≠ index) :
    pc.uses query = 0 := by
  rcases used with rfl | rfl <;> exact if_neg ne.symm

@[simp] theorem Pc.uses_idle : Pc.idle.uses index = 0 := rfl

theorem uses_self : (Pc.lock index).uses index = 1 ∧ (Pc.unref index).uses index = 1 :=
  ⟨if_pos rfl, if_pos rfl⟩

@[simp] theorem restore_index (data : Data) (pin : Pin Data) :
    (restore index data pin).index = pin.index := by
  unfold restore
  split_ifs <;> rfl

@[simp] theorem restore_key (data : Data) (pin : Pin Data) :
    (restore index data pin).key = pin.key := by
  unfold restore
  split_ifs <;> rfl

theorem set_refs (cache : Cache Data) (index : Index) (buf : Buf Data) (query : Index) :
    (cache.set index buf).refs query + (if query = index then
      (cache.buf index).holder.toList.length else 0) =
    cache.refs query + if query = index then buf.holder.toList.length else 0 := by
  unfold refs
  rw [set_buf, set_pc]
  split_ifs with same
  · rw [same]
    omega
  · rfl

/-- The references are as they were after a process takes a lock or gives one up. -/
theorem refs_of_exchange {buf : Buf Data} {pc : Pc}
    (here : buf.holder.toList.length + pc.uses index =
      (cache.buf index).holder.toList.length + (cache.pc self).uses index)
    (elsewhere : query ≠ index → pc.uses query = (cache.pc self).uses query) :
    ((cache.set index buf).goto self pc).refs query = cache.refs query := by
  have moved := refs_goto (cache.set index buf) self pc query
  have changed := set_refs cache index buf query
  rw [set_pc] at moved
  by_cases same : query = index
  · rw [if_pos same, if_pos same] at changed
    rw [same] at moved changed ⊢
    omega
  · rw [if_neg same, if_neg same] at changed
    have equal := elsewhere same
    omega

/-- A process neither begins nor ends to read a block. -/
theorem goto_fill (cache : Cache Data) (self : Slot) (pc : Pc)
    (before : ∀ index, cache.pc self ≠ .fill index)
    (now : ∀ index, pc ≠ .fill index) (slot : Slot) :
    (cache.goto self pc).pc slot = cache.pc slot ∨
      (∀ index, cache.pc slot ≠ .fill index) ∧
        ∀ index, (cache.goto self pc).pc slot ≠ .fill index := by
  rw [goto_pc]
  split_ifs with same
  · rw [same]
    exact .inr ⟨before, now⟩
  · exact .inl rfl

namespace Sound

variable {dev blockno : UInt32}

/-- The block that is read into a recycled buffer is in no other. -/
theorem recycled_key (listed : cache.Listed order) (missing : cache.cached dev blockno = none)
    (query : Index) :
    (cache.buf query).key ≠ (dev, blockno) := by
  intro same
  rw [listed.cached_eq, find?_eq_none] at missing
  have ne := missing query (listed.all query)
  rw [Buf.key, Prod.mk.injEq] at same
  exact ne (by simpa using same)

theorem recycled_unused (listed : cache.Listed order) (found : cache.leastUsed = some index) :
    (cache.buf index).refcnt = 0 := by
  rw [listed.leastUsed_eq] at found
  simpa using find?_some found

variable (sound : cache.Sound) {buf : Buf Data}
include sound

theorem recycle (listed : cache.Listed order) (idle : cache.pc self = .idle)
    (missing : cache.cached dev blockno = none) (found : cache.leastUsed = some index)
    (key : buf.key = (dev, blockno)) (one : buf.refcnt = 1)
    (holder : buf.holder = (cache.buf index).holder) :
    ((cache.set index buf).goto self (.lock index)).Sound := by
  have zero := recycled_unused listed found
  have noRefs := sound.unused zero
  have free := sound.not_held zero
  have fresh := recycled_key listed missing
  have here : (cache.set index buf).buf index = buf := by rw [set_buf, if_pos rfl]
  have elsewhere : ∀ query, query ≠ index → (cache.set index buf).buf query = cache.buf query :=
    fun query ne => by rw [set_buf, if_neg ne]
  refine ⟨fun query => ?_, sound.pins_le, fun query other used same => ?_,
    fun slot query filling => ?_,
    fun slot query held past => ?_, fun pin member => ?_⟩
  · have moved := refs_goto (cache.set index buf) self (.lock index) query
    have same : (cache.set index buf).refs query = cache.refs query :=
      refs_congr rfl (set_field cache index buf Buf.holder holder query)
    have before : (cache.pc self).uses query = 0 := by rw [idle]; rfl
    rw [set_pc, before, same] at moved
    change _ = _ + cache.pinned query
    rw [goto_buf]
    by_cases recycled : query = index
    · rw [recycled] at moved ⊢
      rw [uses_self.1] at moved
      rw [here, one]
      change 1 = _
      omega
    · rw [elsewhere query recycled, sound.refcnt query]
      rw [uses_of_ne (Or.inl rfl) recycled] at moved
      omega
  · rw [goto_buf] at same used
    by_cases first : query = index
    · by_cases second : other = index
      · rw [first, second]
      · rw [elsewhere other second, first, here, key] at same
        exact (fresh other same.symm).elim
    · rw [elsewhere query first] at same used
      by_cases second : other = index
      · rw [second, here, key] at same
        exact (fresh query same).elim
      · rw [elsewhere other second] at same
        exact sound.key query other used same
  · rw [goto_pc] at filling
    split_ifs at filling
    have held := sound.filling slot query filling
    exact (set_field cache index buf Buf.holder holder query).trans held
  · rw [goto_buf] at held ⊢
    have ne : query ≠ index := by
      rintro rfl
      rw [here, holder, free] at held
      cases held
    rw [elsewhere query ne] at held ⊢
    refine sound.filled slot query held fun filling => past ?_
    rw [goto_pc, if_neg]
    · exact filling
    · rintro rfl
      rw [idle] at filling
      cases filling
  · rw [goto_buf, elsewhere pin.index (sound.not_pinned zero member)]
    exact sound.pins pin member

/-- A step after which the references, the pins and the blocks are as they were. -/
theorem of_refs (key : ∀ index, (after.buf index).key = (cache.buf index).key)
    (refcnt : ∀ index, (after.buf index).refcnt = (cache.buf index).refcnt)
    (refs : ∀ index, after.refs index = cache.refs index) (pins : after.pins = cache.pins)
    (filling : ∀ slot index, after.pc slot = .fill index → (after.buf index).holder = some slot)
    (filled : ∀ slot index, (after.buf index).holder = some slot → after.pc slot ≠ .fill index →
      (after.buf index).valid = true)
    (logged : ∀ index, (cache.buf index).valid = true → (after.buf index).valid = true ∧
      (after.buf index).data = (cache.buf index).data) : after.Sound where
  refcnt := by
    intro index
    rw [refcnt, refs, pinned, pins]
    exact sound.refcnt index
  pins_le := by
    rw [pins]
    exact sound.pins_le
  key := by
    intro index other used same
    rw [key, key] at same
    have dev : (after.buf index).dev = (cache.buf index).dev := congrArg Prod.fst (key index)
    exact sound.key index other (dev ▸ used) same
  filling := filling
  filled := filled
  pins := by
    intro pin member
    rw [pins] at member
    obtain ⟨same, contents⟩ := sound.pins pin member
    refine ⟨(key pin.index).trans same, fun data found => ?_⟩
    obtain ⟨valid, stored⟩ := contents data found
    obtain ⟨valid', data'⟩ := logged pin.index valid
    exact ⟨valid', data'.trans stored⟩

/-- A process takes the lock of a buffer or gives it up. -/
theorem exchange {pc : Pc} (key : buf.key = (cache.buf index).key)
    (refcnt : buf.refcnt = (cache.buf index).refcnt) (valid : buf.valid = (cache.buf index).valid)
    (data : buf.data = (cache.buf index).data) (count : buf.holder.toList.length + pc.uses index =
      (cache.buf index).holder.toList.length + (cache.pc self).uses index)
    (elsewhere : ∀ query, query ≠ index → pc.uses query = (cache.pc self).uses query)
    (before : ∀ query, cache.pc self ≠ .fill query)
    (others : ∀ slot, slot ≠ self → (cache.buf index).holder ≠ some slot)
    (holder : ∀ slot, buf.holder = some slot → slot = self ∧ pc = .fill index)
    (filling : ∀ query, pc = .fill query → query = index ∧ buf.holder = some self) :
    ((cache.set index buf).goto self pc).Sound := by
  have sameValid := set_field cache index buf Buf.valid valid
  refine sound.of_refs (set_field cache index buf Buf.key key)
    (set_field cache index buf Buf.refcnt refcnt)
    (fun query => refs_of_exchange count (elsewhere query))
    rfl (fun slot query fills => ?_) (fun slot query held past => ?_) (fun query isValid => ?_)
  · rw [goto_pc] at fills
    rw [goto_buf, set_buf]
    by_cases here : slot = self
    · rw [if_pos here] at fills
      obtain ⟨same, held⟩ := filling query fills
      rw [if_pos same, here, held]
    · rw [if_neg here] at fills
      have held := sound.filling slot query fills
      rw [if_neg]
      · exact held
      · rintro rfl
        exact others slot here held
  · rw [goto_buf, set_buf] at held
    rw [goto_pc] at past
    rw [goto_buf, sameValid]
    by_cases same : query = index
    · rw [if_pos same] at held
      obtain ⟨here, fills⟩ := holder slot held
      exact (past (by rw [if_pos here, fills, same])).elim
    · rw [if_neg same] at held
      refine sound.filled slot query held fun fills => ?_
      by_cases here : slot = self
      · exact before query (here ▸ fills)
      · rw [if_neg here] at past
        exact past fills
  · exact ⟨(sameValid query).trans isValid, set_field cache index buf Buf.data data query⟩

/-- The end of `bread`, with the buffer read in or not. -/
theorem fill (position : cache.pc self = .fill index) (key : buf.key = (cache.buf index).key)
    (refcnt : buf.refcnt = (cache.buf index).refcnt)
    (holder : buf.holder = (cache.buf index).holder) (valid : buf.valid = true)
    (data : (cache.buf index).valid = true → buf.data = (cache.buf index).data) :
    ((cache.set index buf).goto self .idle).Sound := by
  have sameHolder := set_field cache index buf Buf.holder holder
  refine sound.of_refs (set_field cache index _ Buf.key key)
    (set_field cache index _ Buf.refcnt refcnt)
    (fun query => refs_of_exchange ?_ fun _ => ?_)
    rfl (fun slot query filling => ?_) (fun slot query held past => ?_) (fun query before => ?_)
  · rw [position, holder]
    rfl
  · rw [position]
    rfl
  · rw [goto_pc] at filling
    split_ifs at filling with here
    exact (sameHolder query).trans (sound.filling slot query filling)
  · rw [goto_buf, set_buf]
    split_ifs with same
    · exact valid
    · rw [goto_buf, sameHolder] at held
      refine sound.filled slot query held fun filling => ?_
      rw [goto_pc] at past
      by_cases here : slot = self
      · rw [here, position] at filling
        cases filling
        exact same rfl
      · rw [if_neg here] at past
        exact past filling
  · rw [goto_buf, set_buf]
    split_ifs with same
    · rw [same] at before ⊢
      exact ⟨valid, data before⟩
    · exact ⟨before, rfl⟩

/-- The holder of a buffer changes its data. -/
theorem store (buf : Buf Data) (key : buf.key = (cache.buf index).key)
    (refcnt : buf.refcnt = (cache.buf index).refcnt) (valid : buf.valid = (cache.buf index).valid)
    (holder : buf.holder = (cache.buf index).holder) {data : Data} (stored : buf.data = data)
    (isValid : (cache.buf index).valid = true) :
    Sound { cache.set index buf with pins := cache.pins.map (restore index data) } := by
  have sameHolder := set_field cache index buf Buf.holder holder
  refine sound.of_same (set_field cache index buf Buf.key key)
    (set_field cache index buf Buf.valid valid) sameHolder (fun slot => Or.inl rfl)
    (fun query => ?_) (by simpa using sound.pins_le) fun pin member => ?_
  · have counted : (cache.pins.map (restore index data)).countP (fun pin => pin.index = query) =
        cache.pinned query := by
      rw [countP_map]
      exact countP_congr fun pin _ => by simp
    have refs : (cache.set index buf).refs query = cache.refs query :=
      refs_congr rfl (sameHolder query)
    calc ((cache.set index buf).buf query).refcnt.toNat
      _ = (cache.buf query).refcnt.toNat := by
          rw [set_field cache index buf Buf.refcnt refcnt query]
      _ = cache.refs query + cache.pinned query := sound.refcnt query
      _ = _ := by rw [← refs, ← counted]; rfl
  · obtain ⟨old, found, rfl⟩ := mem_map.mp member
    obtain ⟨sameKey, contents⟩ := sound.pins old found
    rw [restore_index, restore_key]
    refine ⟨sameKey, fun value logged => ?_⟩
    change _ ∧ ((cache.set index buf).buf old.index).data = value
    rw [set_buf]
    unfold restore at logged
    split_ifs at logged ⊢ with same
    · obtain ⟨_, _, same'⟩ := Option.map_eq_some_iff.mp logged
      rw [same, stored]
      exact ⟨isValid, same'⟩
    · exact contents value logged

end Sound

theorem countP_eraseIdx {Item : Type} {items : List Item} {place : Nat} {item : Item}
    (found : items[place]? = some item) (p : Item → Bool) :
    items.countP p = (items.eraseIdx place).countP p + if p item then 1 else 0 := by
  obtain ⟨bound, rfl⟩ := List.getElem?_eq_some_iff.mp found
  rw [← (getElem_cons_eraseIdx_perm bound).countP_eq, countP_cons]

namespace Sound

variable (sound : cache.Sound)
include sound

theorem hit (idle : cache.pc self = .idle) :
    ((cache.setRefcnt index ((cache.buf index).refcnt + 1)).goto self (.lock index)).Sound := by
  have moved := refs_goto (cache.setRefcnt index ((cache.buf index).refcnt + 1)) self (.lock index)
  simp only [setRefcnt_refs, setRefcnt_pc, idle, Pc.uses_idle, Nat.add_zero] at moved
  refine sound.of_same (by simp) (by simp) (by simp)
    (goto_fill (cache.setRefcnt index _) self _ (by simp [idle]) (by simp))
    (sound.recount rfl ?_ fun query ne => ?_) sound.pins_le (by simpa using sound.pins)
  · rw [sound.refcnt_succ, moved, uses_self.1]
    change _ = _ + cache.pinned index
    omega
  · rw [moved, uses_of_ne (Or.inl rfl) ne, Nat.add_zero]
    rfl

theorem unref (position : cache.pc self = .unref index) :
    ((cache.unref index).goto self .idle).Sound := by
  have moved := refs_goto (cache.unref index) self .idle
  have same : ∀ query, (cache.unref index).refs query = cache.refs query := fun query =>
    refs_congr (unref_pc ..) (by simp)
  have pins : ∀ query, ((cache.unref index).goto self .idle).pinned query =
      cache.pinned query := by
    intro query
    unfold pinned
    rw [goto_pins, unref_pins]
  simp only [same, unref_pc, position, Pc.uses_idle, Nat.add_zero] at moved
  have here := moved index
  rw [uses_self.2] at here
  have pcs := goto_fill (cache.unref index) self .idle (by simp [position]) (by simp)
  rw [unref_pc] at pcs
  refine sound.of_same (by simp) (by simp) (by simp) pcs
    (sound.recount (unref_buf ..) ?_ fun query ne => ?_)
    (by simpa using sound.pins_le) (by simpa using sound.pins)
  · rw [sound.refcnt_pred (by omega), pins]
    omega
  · have there := moved query
    rw [uses_of_ne (Or.inr rfl) ne] at there
    rw [pins]
    omega

theorem pin {logged : Option Data} (idle : cache.pc self = .idle)
    (room : cache.pins.length < LOGSIZE) (contents : ∀ data, logged = some data →
      (cache.buf index).holder = some self ∧ data = (cache.buf index).data) :
    Sound { cache.setRefcnt index ((cache.buf index).refcnt + 1) with
      pins := ⟨index, (cache.buf index).key, logged⟩ :: cache.pins } := by
  have refs := setRefcnt_refs cache index ((cache.buf index).refcnt + 1)
  refine sound.of_same (by simp) (by simp) (by simp) (fun slot => Or.inl rfl)
    (sound.recount rfl ?_ fun query ne => ?_) room fun pin member => ?_
  · rw [sound.refcnt_succ]
    change _ = (cache.setRefcnt _ _).refs index + countP _ (_ :: cache.pins)
    rw [countP_cons_of_pos (by simp), refs, Nat.add_assoc]
    rfl
  · change (cache.setRefcnt _ _).refs query + countP _ (_ :: cache.pins) = _
    rw [countP_cons_of_neg (by simpa using ne.symm), refs]
    rfl
  · rcases mem_cons.mp member with rfl | old
    · refine ⟨rfl, fun data logs => ?_⟩
      obtain ⟨held, rfl⟩ := contents data logs
      exact ⟨sound.filled self index held (by simp [idle]), setRefcnt_data ..⟩
    · simpa using sound.pins pin old

theorem unpin {place : Nat} {pin : Pin Data} (found : cache.pins[place]? = some pin) :
    Sound { cache.setRefcnt pin.index ((cache.buf pin.index).refcnt - 1) with
      pins := cache.pins.eraseIdx place } := by
  have refs := setRefcnt_refs cache pin.index ((cache.buf pin.index).refcnt - 1)
  have count : ∀ query, cache.pinned query = (cache.pins.eraseIdx place).countP
      (fun other => other.index = query) + if pin.index = query then 1 else 0 := by
    intro query
    rw [pinned, countP_eraseIdx found]
    simp
  refine sound.of_same (by simp) (by simp) (by simp) (fun slot => Or.inl rfl)
    (sound.recount rfl ?_ fun query ne => ?_) ?_ fun other member => ?_
  · have here := count pin.index
    rw [if_pos rfl] at here
    rw [sound.refcnt_pred (by omega)]
    change _ = (cache.setRefcnt _ _).refs pin.index + countP _ (cache.pins.eraseIdx place)
    rw [refs, here]
    rfl
  · change (cache.setRefcnt _ _).refs query + countP _ (cache.pins.eraseIdx place) = _
    rw [refs, count query, if_neg ne.symm]
    rfl
  · exact (length_eraseIdx_le _ _).trans sound.pins_le
  · simpa using sound.pins other (mem_of_mem_eraseIdx member)

theorem change (listed : cache.Listed order) (change : Change cache self after) : after.Sound := by
  cases change with
  | hit index idle => exact sound.hit idle
  | recycle index dev blockno idle _ missing found =>
    exact sound.recycle listed idle missing found rfl rfl rfl
  | lock index here free =>
    refine sound.exchange rfl rfl rfl rfl ?_ (fun query ne => ?_) (by simp [here])
      (by simp [free]) (by simp) (by simp)
    · rw [here, free, uses_self.1]
      rfl
    · rw [here, uses_of_ne (Or.inl rfl) ne]
      rfl
  | filled index here valid =>
    have same : cache.set index (cache.buf index) = cache := by
      unfold set
      rw [Function.update_eq_self]
    have result := sound.fill here rfl rfl rfl valid fun _ => rfl
    rwa [same] at result
  | fill index here invalid =>
    refine sound.fill here rfl rfl rfl rfl fun valid => ?_
    rw [invalid] at valid
    cases valid
  | unref index here => exact sound.unref here
  | store index data idle held =>
    exact sound.store { cache.buf index with data } rfl rfl rfl rfl rfl
      (sound.filled self index held (by simp [idle]))
  | write disk =>
    exact { sound with }
  | release index idle held =>
    refine sound.exchange rfl rfl rfl rfl ?_ (fun query ne => ?_) (by simp [idle])
      (fun slot other => ?_) (by simp) (by simp)
    · rw [idle, held, uses_self.2]
      rfl
    · rw [idle, uses_of_ne (Or.inr rfl) ne]
      rfl
    · rw [held]
      exact fun same => other (Option.some.inj same).symm
  | pin index logged idle room contents => exact sound.pin idle room contents
  | unpin place pin found used => exact sound.unpin found

end Sound

end Cache

end Xv6.Bio
