import Xv6.Bio.Coherence

/-!
# Which buffer is recycled

The list of buffers is in the order in which their reference counts last fell to zero, so the
first unused buffer from its end has been unused for the longest time.
-/

namespace Xv6.Bio

open Transition List

variable {Data : Type}

namespace Cache

variable {cache after : Cache Data} {self : Slot} {index : Index} {order : List Index}

/-! ## What a step does to the order -/

/-- A step that leaves the order and lets no reference count fall to zero, or the last step of
`brelse`. -/
inductive Reordered (cache after : Cache Data) : Prop where
  | same : after.links = cache.links →
      (∀ index, (after.buf index).refcnt = 0 → (cache.buf index).refcnt = 0) → Reordered cache after
  | dropped (index : Index) : after.links = (cache.links.unlink index).pushFront index →
      (cache.buf index).refcnt ≠ 0 → (after.buf index).refcnt = 0 →
      (∀ other, other ≠ index → (after.buf other).refcnt = (cache.buf other).refcnt) →
      Reordered cache after

theorem toNat_ne_zero {value : UInt32} (positive : 0 < value.toNat) : value ≠ 0 := by
  rintro rfl
  exact absurd positive (by decide)

/-- A reference count that is set to a value other than zero. -/
theorem Reordered.of_set {buf : Buf Data} (links : after.links = cache.links)
    (bufs : after.buf = (cache.set index buf).buf)
    (used : buf.refcnt = 0 → (cache.buf index).refcnt = 0) : Reordered cache after := by
  refine .same links fun query zero => ?_
  rw [bufs, set_buf] at zero
  split_ifs at zero with here
  · rw [here]
    exact used zero
  · exact zero

theorem Sound.reordered (sound : cache.Sound) (change : Change cache self after) :
    Reordered cache after := by
  cases change with
  | hit index idle =>
    refine .of_set rfl rfl fun zero => (toNat_ne_zero ?_ zero).elim
    rw [sound.refcnt_succ]
    exact Nat.succ_pos _
  | recycle => exact .of_set rfl rfl fun zero => absurd zero (by simp)
  | lock
  | fill
  | store
  | release => exact .of_set rfl rfl id
  | filled
  | write => exact .same rfl fun _ zero => zero
  | unref index here =>
    by_cases last : (cache.buf index).refcnt - 1 = 0
    · refine .dropped index ?_ (fun unused => ?_) ?_ fun other ne => ?_
      · simp only [goto_links, Cache.unref, last, if_true]
        rfl
      · rw [unused] at last
        exact absurd last (by decide)
      · rw [goto_buf, unref_buf, setRefcnt_refcnt, if_pos rfl, last]
      · rw [goto_buf, unref_buf, setRefcnt_refcnt, if_neg ne]
    · refine .of_set ?_ (unref_buf cache index) fun zero => (last zero).elim
      simp only [goto_links, Cache.unref, last, if_false]
      rfl
  | pin index logged idle room contents =>
    refine .of_set rfl rfl fun zero => (toNat_ne_zero ?_ zero).elim
    rw [sound.refcnt_succ]
    exact Nat.succ_pos _
  | unpin place pin found used =>
    -- the caller's own reference is left
    refine .of_set rfl rfl fun zero => (toNat_ne_zero ?_ zero).elim
    have pinned : 0 < cache.pinned pin.index :=
      countP_pos_iff.mpr ⟨pin, mem_of_getElem? found, by simp⟩
    rw [sound.refcnt_pred (by omega)]
    omega

/-- Only `bget` changes the block of a buffer, and only when it recycles the buffer. -/
theorem Change.recycled (change : Change cache self after)
    (changed : (after.buf index).key ≠ (cache.buf index).key) : cache.leastUsed = some index := by
  have unchanged : ∀ {place : Index} {buf : Buf Data}, after.buf = (cache.set place buf).buf →
      buf.key = (cache.buf place).key → False := by
    intro place buf bufs same
    rw [bufs] at changed
    exact changed (set_field cache place buf Buf.key same index)
  cases change with
  | recycle place dev blockno _ _ _ found =>
    by_cases same : index = place
    · rw [same]
      exact found
    · rw [goto_buf, set_buf, if_neg same] at changed
      exact (changed rfl).elim
  | unref place => exact (unchanged (unref_buf cache place) rfl).elim
  | filled
  | write => exact (changed rfl).elim
  | hit
  | lock
  | fill
  | store
  | release
  | pin
  | unpin => exact (unchanged rfl rfl).elim

theorem leastUsed_oldest {age : Index → Nat} (listed : cache.Listed order)
    (sorted : order.Pairwise fun newer older => age older ≤ age newer)
    (found : cache.leastUsed = some index) :
    (cache.buf index).refcnt = 0 ∧
      ∀ other, (cache.buf other).refcnt = 0 → age index ≤ age other := by
  refine ⟨Sound.recycled_unused listed found, fun other unused => ?_⟩
  rw [listed.leastUsed_eq] at found
  obtain ⟨-, newer, older, split, before⟩ := find?_eq_some_iff_append.mp found
  have member : other ∈ order.reverse := mem_reverse.mpr (listed.all other)
  rw [split, mem_append, mem_cons] at member
  rw [← pairwise_reverse, split] at sorted
  rcases member with earlier | rfl | later
  · exact absurd unused (by simpa using before other earlier)
  · exact le_rfl
  · exact (pairwise_cons.mp (pairwise_append.mp sorted).2.1).1 other later

end Cache

/-! ## Whole runs -/

namespace Watched

variable {watched after : Watched Data}

/-- The list is in the order in which the buffers were dropped. -/
structure Kept (watched : Watched Data) : Prop where
  sound : watched.cache.Sound
  past : ∀ index, watched.dropped index < watched.clock
  listed : ∃ order, watched.cache.Listed order ∧
    order.Pairwise fun newer older => watched.dropped older ≤ watched.dropped newer

theorem Kept.boot (zero : Data) (disk : UInt32 × UInt32 → Data) : (boot zero disk).Kept where
  sound := by
    refine ⟨fun index => ?_, Nat.zero_le _, ?_, ?_, ?_, ?_⟩
    · simp [Watched.boot, Cache.binit, Cache.refs, Cache.pinned, Pc.uses]
    all_goals simp [Watched.boot, Cache.binit]
  past := fun _ => Nat.one_pos
  listed := ⟨_, Cache.binit_listed zero disk, pairwise_of_forall fun _ _ => le_rfl⟩

theorem Kept.step {label : Slot × Action Data} (kept : watched.Kept)
    (stepped : Guarded PinsFit Step watched label after) : after.Kept := by
  obtain ⟨cache, done, rfl⟩ := Option.map_eq_some_iff.mp stepped.2
  have change := Cache.exec_change done stepped.1
  obtain ⟨order, listed, sorted⟩ := kept.listed
  refine ⟨kept.sound.change listed change, fun index => ?_, ?_⟩
  · change (if _ then _ else _) < watched.clock + 1
    have before := kept.past index
    split_ifs <;> omega
  cases kept.sound.reordered change with
  | same links zero =>
    have dropped : (watched.record cache).dropped = watched.dropped := by
      funext index
      exact if_neg fun fell => fell.1 (zero index fell.2)
    refine ⟨order, ⟨?_, listed.all⟩, ?_⟩
    · change Circular cache.links order
      rw [links]
      exact listed.circular
    · rw [dropped]
      exact sorted
  | dropped index links used unused others =>
    have first : (watched.record cache).dropped index = watched.clock := if_pos ⟨used, unused⟩
    have rest : ∀ other, other ≠ index →
        (watched.record cache).dropped other = watched.dropped other := by
      intro other ne
      refine if_neg fun fell => fell.1 ?_
      rw [← others other ne]
      exact fell.2
    have nodup := listed.circular.nodup
    refine ⟨index :: order.erase index, ⟨?_, fun other => ?_⟩, pairwise_cons.mpr ⟨?_, ?_⟩⟩
    · change Circular cache.links _
      rw [links]
      exact listed.circular.moveFront (listed.all index)
    · by_cases same : other = index
      · exact same ▸ mem_cons_self
      · exact mem_cons_of_mem _ ((mem_erase_of_ne same).mpr (listed.all other))
    · intro other member
      rw [first, rest other ((nodup.mem_erase_iff).mp member).1]
      exact (kept.past other).le
    · refine (sorted.sublist erase_sublist).imp_of_mem fun newer older relation => ?_
      rw [rest _ ((nodup.mem_erase_iff).mp newer).1, rest _ ((nodup.mem_erase_iff).mp older).1]
      exact relation

/-- In every state that is reached while the log has room for the blocks it pins, the links form one
list of all buffers, no block is in two buffers, the reference counts are the references and pins
there are, and a pinned buffer keeps its block and what was stored in it.  A step that gives a
buffer another block takes the unused buffer that was dropped first. -/
theorem buffer_cache_coherent {zero : Data} {disk : UInt32 × UInt32 → Data}
    {labels : List (Slot × Action Data)}
    (run : Run (Guarded PinsFit Step) (boot zero disk) labels watched) :
    (∃ order, Circular watched.cache.links order ∧ ∀ index, index ∈ order) ∧
    (∀ index other, (watched.cache.buf index).dev ≠ 0 →
      (watched.cache.buf index).key = (watched.cache.buf other).key → index = other) ∧
    (∀ index, (watched.cache.buf index).refcnt.toNat =
      watched.cache.refs index + watched.cache.pinned index) ∧
    (∀ pin ∈ watched.cache.pins, (watched.cache.buf pin.index).key = pin.key ∧
      ∀ data, pin.logged = some data → (watched.cache.buf pin.index).valid = true ∧
        (watched.cache.buf pin.index).data = data) ∧
    ∀ label after, Guarded PinsFit Step watched label after → ∀ index,
      (after.cache.buf index).key ≠ (watched.cache.buf index).key →
      (watched.cache.buf index).refcnt = 0 ∧
        ∀ other, (watched.cache.buf other).refcnt = 0 →
          watched.dropped index ≤ watched.dropped other := by
  have kept : watched.Kept :=
    run.invariant (fun _ _ _ kept stepped => kept.step stepped) (.boot zero disk)
  obtain ⟨order, listed, sorted⟩ := kept.listed
  refine ⟨⟨order, listed.circular, listed.all⟩, kept.sound.key, kept.sound.refcnt, kept.sound.pins,
    fun label after stepped index changed => ?_⟩
  obtain ⟨cache, done, rfl⟩ := Option.map_eq_some_iff.mp stepped.2
  exact Cache.leastUsed_oldest listed sorted ((Cache.exec_change done stepped.1).recycled changed)

/-- A process reads a block, changes and pins it and releases the buffer; another reads a second
block and releases it. -/
def logged : List (Slot × Action Nat) :=
  [(0, .bread 1 5), (0, .proceed), (0, .proceed), (0, .store 0 7), (0, .bpin 0), (0, .brelse 0),
    (1, .bread 1 6), (0, .proceed), (1, .proceed), (1, .proceed), (1, .brelse 1), (1, .proceed)]

theorem buffer_cache_coherent_logged : ∃ watched pin,
    Run (Guarded PinsFit Step) (boot 0 fun _ => 0) logged watched ∧ watched.cache.pins = [pin] ∧
    pin.logged = some 7 ∧ (watched.cache.buf pin.index).data = 7 ∧
    (watched.cache.buf pin.index).refcnt.toNat =
      watched.cache.refs pin.index + watched.cache.pinned pin.index := by
  have performed : ∃ watched, Run (Guarded PinsFit Step) (boot 0 fun _ => 0) logged watched ∧
      watched.cache.pins.map (fun pin => pin.logged) = [some 7] :=
    Run.exists_of_runAll (Run.guarded_of_exec fun _ _ _ => id) (by decide +kernel)
  obtain ⟨watched, run, record⟩ := performed
  obtain ⟨pin, pins, stored⟩ := List.map_eq_singleton_iff.mp record
  obtain ⟨-, -, counted, contents, -⟩ := buffer_cache_coherent run
  have member : pin ∈ watched.cache.pins := by
    rw [pins]
    exact List.mem_singleton_self pin
  exact ⟨watched, pin, run, pins, stored, ((contents pin member).2 7 stored).2, counted pin.index⟩

end Watched

end Xv6.Bio
