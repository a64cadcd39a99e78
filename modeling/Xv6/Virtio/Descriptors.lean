import Xv6.Virtio.Disk

/-!
# Allocating and freeing descriptors

What `alloc3_desc` and `free_chain` do as a whole: the panics of `free_desc` do not happen for
descriptors that are in use and, in a chain, different.
-/

namespace Xv6.Virtio

open Function List

namespace Descs

variable {descs after : Descs} {chain : Chain} {i : Nat}

theorem allocDesc_some (found : descs.allocDesc = some (i, after)) : i < NUM ∧ descs.free i = true ∧
      after = { descs with free := update descs.free i false } := by
  obtain ⟨j, search, same⟩ := Option.map_eq_some_iff.mp found
  cases same
  exact ⟨mem_range.mp (mem_of_find?_eq_some search), find?_some search, rfl⟩

theorem freeDesc_used (bound : i < NUM) (used : descs.free i = false) : descs.freeDesc i =
      .ok { desc := update descs.desc i {}, free := update descs.free i true } := by
  simp [freeDesc, not_le.mpr bound, used]

/-- The outcomes of `alloc3_desc`: it takes three free descriptors, or it gives back what it has
taken and leaves the ones in use alone. -/
inductive Allocated (descs : Descs) : Except Panic (Option Chain × Descs) → Prop where
  | failed (after : Descs) : after.free = descs.free →
      (∀ i, descs.free i = false → after.desc i = descs.desc i) →
      Allocated descs (.ok (none, after))
  | done (chain : Chain) (after : Descs) : chain.indices.Nodup →
      (∀ i ∈ chain.indices, i < NUM ∧ descs.free i = true) → after.desc = descs.desc →
      (∀ i, after.free i = if i ∈ chain.indices then false else descs.free i) →
      Allocated descs (.ok (some chain, after))

/-- Giving a descriptor back that was free before. -/
theorem freeDesc_back {desc : Nat → Desc} {free : Nat → Bool} (bound : i < NUM)
    (wasFree : free i = true) :
    freeDesc ⟨desc, update free i false⟩ i = .ok ⟨update desc i {}, free⟩ := by
  rw [freeDesc_used bound (update_self ..)]
  simp only [update_idem]
  rw [← wasFree, update_eq_self]

theorem alloc3Desc_allocated (descs : Descs) : Allocated descs descs.alloc3Desc := by
  have used_ne : ∀ i j, descs.free i = false → descs.free j = true → i ≠ j := by
    rintro i j used free rfl
    rw [free] at used
    cases used
  unfold alloc3Desc
  cases first : descs.allocDesc with
  | none => exact .failed descs rfl fun _ _ => rfl
  | some pair =>
    obtain ⟨head, one⟩ := pair
    obtain ⟨headBound, headFree, rfl⟩ := allocDesc_some first
    simp only
    cases next : allocDesc { descs with free := update descs.free head false } with
    | none =>
      rw [freeDesc_back headBound headFree]
      refine .failed _ rfl fun i used => ?_
      exact update_of_ne (used_ne i head used headFree) _ _
    | some pair =>
      obtain ⟨second, two⟩ := pair
      obtain ⟨secondBound, secondFree, rfl⟩ := allocDesc_some next
      have secondNe : second ≠ head := by
        rintro rfl
        simp at secondFree
      simp only [update_of_ne secondNe] at secondFree
      simp only
      cases last : allocDesc { descs with
        free := update (update descs.free head false) second false } with
      | none =>
        rw [update_comm secondNe.symm,
          freeDesc_back headBound (by rwa [update_of_ne secondNe.symm]),
          Except.bind, freeDesc_back secondBound secondFree]
        refine .failed _ rfl fun i used => ?_
        simp only [update_of_ne (used_ne i second used secondFree),
          update_of_ne (used_ne i head used headFree)]
      | some pair =>
        obtain ⟨third, three⟩ := pair
        obtain ⟨thirdBound, thirdFree, rfl⟩ := allocDesc_some last
        have thirdNe : third ≠ second ∧ third ≠ head := by
          constructor
          · rintro rfl
            simp at thirdFree
          · rintro rfl
            simp [update_of_ne secondNe.symm] at thirdFree
        simp only [update_of_ne thirdNe.1, update_of_ne thirdNe.2] at thirdFree
        refine .done ⟨head, second, third⟩ _ ?_ ?_ rfl fun i => ?_
        · simp [Chain.indices, secondNe.symm, thirdNe.1.symm, thirdNe.2.symm]
        · simp [Chain.indices, *]
        · simp only [update_apply, Chain.indices, mem_cons, not_mem_nil,
            or_false]
          split_ifs <;> simp_all

/-- The chain as the device finds it. -/
structure Linked (descs : Descs) (chain : Chain) : Prop where
  headFlags : (descs.desc chain.head).flags &&& fNext ≠ 0
  headNext : (descs.desc chain.head).next = chain.second
  secondFlags : (descs.desc chain.second).flags &&& fNext ≠ 0
  secondNext : (descs.desc chain.second).next = chain.third
  thirdFlags : (descs.desc chain.third).flags &&& fNext = 0
  thirdAddr : (descs.desc chain.third).addr = .status chain.head

theorem Linked.congr (linked : descs.Linked chain)
    (same : ∀ i ∈ chain.indices, after.desc i = descs.desc i) : after.Linked chain := by
  have head := same chain.head (by simp [Chain.indices])
  have second := same chain.second (by simp [Chain.indices])
  have third := same chain.third (by simp [Chain.indices])
  obtain ⟨headFlags, headNext, secondFlags, secondNext, thirdFlags, thirdAddr⟩ := linked
  rw [← head] at headFlags headNext
  rw [← second] at secondFlags secondNext
  rw [← third] at thirdFlags thirdAddr
  exact ⟨headFlags, headNext, secondFlags, secondNext, thirdFlags, thirdAddr⟩

theorem format_linked (distinct : chain.indices.Nodup) (buf : Nat) (write : Bool) :
    (descs.format chain buf write).Linked chain := by
  simp only [Chain.indices, nodup_cons, mem_cons, not_mem_nil, or_false, not_or] at distinct
  obtain ⟨⟨headSecond, headThird⟩, secondThird, -⟩ := distinct
  have head : (descs.format chain buf write).desc chain.head =
      { addr := .op chain.head, len := 16, flags := fNext, next := chain.second } := by
    simp [format, headSecond, headThird]
  have second : (descs.format chain buf write).desc chain.second =
      { addr := .data buf, len := 1024, flags := (if write then 0 else fWrite) ||| fNext,
        next := chain.third } := by
    simp [format, secondThird]
  have third : (descs.format chain buf write).desc chain.third =
      { addr := .status chain.head, len := 1, flags := fWrite, next := 0 } := by
    simp [format]
  have chained : ∀ write : Bool, ((if write then 0 else fWrite) ||| fNext) &&& fNext ≠ 0 := by
    decide
  have single : fNext &&& fNext ≠ 0 ∧ fWrite &&& fNext = 0 := by decide
  constructor
  · simpa only [head] using single.1
  · rw [head]
  · simpa only [second] using chained write
  · rw [second]
  · simpa only [third] using single.2
  · rw [third]

theorem format_other (other : i ∉ chain.indices) (buf : Nat) (write : Bool) :
    (descs.format chain buf write).desc i = descs.desc i := by
  simp only [Chain.indices, mem_cons, not_mem_nil, or_false, not_or] at other
  simp [format, other]

/-- `free_chain` frees the three descriptors of a chain. -/
theorem freeChain_linked (fuel : Nat) (linked : descs.Linked chain) (distinct : chain.indices.Nodup)
    (used : ∀ i ∈ chain.indices, i < NUM ∧ descs.free i = false) :
    ∃ after, freeChain (fuel + 3) descs chain.head = .ok after ∧
      (∀ i, after.free i = if i ∈ chain.indices then true else descs.free i) ∧
      ∀ i, i ∉ chain.indices → after.desc i = descs.desc i := by
  have head := used chain.head (by simp [Chain.indices])
  have second := used chain.second (by simp [Chain.indices])
  have third := used chain.third (by simp [Chain.indices])
  simp only [Chain.indices, nodup_cons, mem_cons, not_mem_nil, or_false, not_or] at distinct
  obtain ⟨⟨headSecond, headThird⟩, secondThird, -⟩ := distinct
  rw [freeChain, freeDesc_used head.1 head.2]
  simp only [linked.headFlags, linked.headNext, ne_eq, not_false_eq_true, if_true]
  rw [freeChain, freeDesc_used second.1 (by simpa [Ne.symm headSecond] using second.2)]
  simp only [update_of_ne (Ne.symm headSecond), linked.secondFlags, linked.secondNext, ne_eq,
    not_false_eq_true, if_true]
  rw [freeChain, freeDesc_used third.1
    (by simpa [Ne.symm headThird, Ne.symm secondThird] using third.2)]
  simp only [update_of_ne (Ne.symm headThird), update_of_ne (Ne.symm secondThird),
    linked.thirdFlags, ne_eq, not_true_eq_false, if_false]
  refine ⟨_, rfl, fun i => ?_, fun i other => ?_⟩
  · simp only [update_apply, Chain.indices, mem_cons, not_mem_nil, or_false]
    split_ifs <;> simp_all
  · simp only [Chain.indices, mem_cons, not_mem_nil, or_false, not_or] at other
    simp [other]

end Descs

end Xv6.Virtio
