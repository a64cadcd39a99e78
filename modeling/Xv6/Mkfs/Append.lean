import Xv6.Lib.Result
import Xv6.Mkfs.Layout

/-!
# `iappend`

What appending to an inode does to the layout: the data of the inode grow by the bytes, the places
grow as the new size needs, and nothing else changes.  It fails only if the image or the inode has
no room.
-/

namespace Xv6.Mkfs

open Function Fs State List

/-! ## Sectors -/

/-- Inode `inum` on the image. -/
def State.dinode (state : State) (inum : Inum) : Dinode :=
  .load (state.sector (sb.iblock inum)) (inum % IPB)

theorem position_eq {sec : Nat} (small : sec ≤ FSSIZE) : position sec = sec :=
  Nat.mod_eq_of_lt (by simp only [FSSIZE] at *; omega)

/-- What `iappend` leaves alone while it writes data. -/
structure Same (before after : State) : Prop where
  length : after.length = before.length
  freeinode : after.freeinode = before.freeinode
  sector : ∀ b < nmeta, after.sector b = before.sector b

namespace Same

variable {first second third state : State}

theorem refl (state : State) : Same state state := ⟨rfl, rfl, fun _ _ => rfl⟩

theorem trans (before : Same first second) (after : Same second third) : Same first third :=
  ⟨after.length.trans before.length, after.freeinode.trans before.freeinode,
    fun b inside => (after.sector b inside).trans (before.sector b inside)⟩

theorem takeBlock (state : State) : Same state state.takeBlock := ⟨rfl, rfl, fun _ _ => rfl⟩

end Same

namespace State

variable {state : State} {sec : Nat} {buf : Block}

theorem rsect_ok (length : state.length = FSSIZE) (inside : sec < FSSIZE) :
    state.rsect sec = .ok (state.sector sec) := by
  rw [rsect, position_eq (Nat.le_of_lt inside), length, if_pos inside]

theorem rsect_end (length : state.length = FSSIZE) : state.rsect FSSIZE = .error .read := by
  rw [rsect, position_eq (Nat.le_refl _), length, if_neg (Nat.lt_irrefl _)]

theorem wsect_sector (inside : sec < FSSIZE) :
    (state.wsect sec buf).sector = update state.sector sec buf := by
  rw [wsect, position_eq (Nat.le_of_lt inside)]

theorem wsect_length (length : state.length = FSSIZE) (inside : sec < FSSIZE) :
    (state.wsect sec buf).length = FSSIZE := by
  rw [wsect, position_eq (Nat.le_of_lt inside), length]
  exact Nat.max_eq_left inside

theorem same_wsect (length : state.length = FSSIZE) (data : nmeta ≤ sec) (inside : sec < FSSIZE) :
    Same state (state.wsect sec buf) where
  length := (wsect_length length inside).trans length.symm
  freeinode := rfl
  sector := fun b below => by
    rw [wsect_sector inside]
    exact update_of_ne (by omega) ..

end State

/-! ## The block for the next byte -/

/-- `blockFor` has returned the block `x` for `fbn`, after it has filled the missing places. -/
structure Got (dinode : Inum → Dinode) (inum : Inum) (din : Dinode) (state : State)
    (count : Inum → Nat) (data : Inum → List UInt8) (fbn : Nat) (result : Nat × Dinode × State) :
    Prop where
  laid : Laid (Function.update dinode inum result.2.1) result.2.2.sector result.2.2.freeblock count
    data
  isRef : result.1 = ref result.2.2.sector result.2.1 (place fbn)
  same : Same state result.2.2
  kind : result.2.1 = { din with addrs := result.2.1.addrs }
  rest : ∀ i, NDIRECT < i → result.2.1.addrs i = 0
  free_le : result.2.2.freeblock ≤ FSSIZE ∨ result.1 = FSSIZE

section BlockFor

variable {dinode : Inum → Dinode} {inum : Inum} {din : Dinode} {state : State}
  {count : Inum → Nat} {data : Inum → List UInt8} {fbn : Nat}

theorem setAddr_rest {i addr : Nat} (isAddr : i ≤ NDIRECT)
    (rest : ∀ j, NDIRECT < j → din.addrs j = 0) (j : Nat) (beyond : NDIRECT < j) :
    (din.setAddr i addr).addrs j = 0 :=
  (update_of_ne (by omega) ..).trans (rest j beyond)

theorem setAddr_self (din : Dinode) (i addr : Nat) : (din.setAddr i addr).addrs i = addr :=
  update_self ..

theorem padding_of_le (missing : (data inum).length ≤ fbn * BSIZE) {r : Nat}
    (isPlace : r = place fbn)
    (off : Nat) (here : place (off / BSIZE) = r) : (data inum).getD off 0 = 0 := by
  have sameBlock := place_inj (here.trans isPlace)
  refine getD_eq_default _ _ ?_
  have := Nat.div_mul_le_self off BSIZE
  rw [sameBlock] at this
  omega

theorem addrBlock_present {i : Nat} (present : din.addrs i ≠ 0) :
    state.addrBlock din i = (din, state) := if_neg present

theorem addrBlock_absent {i : Nat} (absent : din.addrs i = 0) :
    state.addrBlock din i = (din.setAddr i state.freeblock, state.takeBlock) := if_pos absent

theorem entryBlock_absent {addr j : Nat} (length : state.length = FSSIZE) (inside : addr < FSSIZE)
    (absent : (state.sector addr).word j = 0) (small : state.freeblock < 2 ^ 32) :
    state.entryBlock addr j = .ok (state.freeblock,
      state.takeBlock.wsect addr ((state.sector addr).setWord j state.freeblock)) := by
  simp only [entryBlock, rsect_ok length inside, bind, Except.bind, if_pos absent,
    Block.word_setWord _ _ small]

/-- The file has the block. -/
theorem blockFor_present
    (laid : Laid (update dinode inum din) state.sector state.freeblock count data)
    (inArea : InArea inum) (length : state.length = FSSIZE) (free_le : state.freeblock ≤ FSSIZE)
    (rest : ∀ i, NDIRECT < i → din.addrs i = 0) (has : place fbn < count inum) :
    Returns (Got dinode inum din state count data fbn) (state.blockFor din fbn) := by
  refine ⟨(ref state.sector din (place fbn), din, state), ?_,
    ⟨laid, rfl, .refl _, rfl, rest, Or.inl free_le⟩⟩
  have present := laid.ref_ne_zero inArea has
  rw [update_self] at present
  unfold blockFor
  by_cases direct : fbn < NDIRECT
  · rw [place_direct direct, ref_addr (Nat.le_of_lt direct)] at *
    rw [if_pos direct, addrBlock_present present]
  · have isIndirect : NDIRECT ≤ fbn := Nat.le_of_not_lt direct
    rw [place_entry isIndirect] at *
    have isEntry : NDIRECT < fbn + 1 := Nat.lt_succ_of_le isIndirect
    have indirect : din.addrs NDIRECT ≠ 0 := fun absent => present (ref_absent isEntry absent)
    have bounds := laid.mem_Ico inArea (Nat.lt_trans isEntry has)
    rw [update_self, ref_addr (Nat.le_refl _)] at bounds
    rw [ref_entry isEntry indirect, Nat.succ_sub_succ] at *
    rw [if_neg direct, addrBlock_present indirect]
    simp only [entryBlock, rsect_ok length (Nat.lt_of_lt_of_le bounds.2 free_le), bind,
      Except.bind, if_neg present]

theorem free_le_succ {freeblock : Nat} (free_le : freeblock ≤ FSSIZE) :
    freeblock + 1 ≤ FSSIZE ∨ freeblock = FSSIZE := by omega

variable (laid : Laid (Function.update dinode inum din) state.sector state.freeblock count data)
include laid

variable (inArea : InArea inum)
include inArea

/-- A direct block is the next place. -/
theorem blockFor_direct (free_le : state.freeblock ≤ FSSIZE)
    (rest : ∀ i, NDIRECT < i → din.addrs i = 0) (direct : fbn < NDIRECT) (next : count inum = fbn)
    (missing : (data inum).length ≤ fbn * BSIZE) :
    Returns (Got dinode inum din state (update count inum (fbn + 1)) data fbn)
      (state.blockFor din fbn) := by
  have isAddr := Nat.le_of_lt direct
  have absent := laid.addrs_eq_zero inArea isAddr (Nat.le_of_eq next)
  rw [update_self] at absent
  have grown := laid.growAddr inArea (next ▸ isAddr)
    (padding_of_le missing (next.trans (place_direct direct).symm))
  rw [next, update_self, update_idem] at grown
  have addr := setAddr_self din fbn state.freeblock
  refine ⟨(state.freeblock, din.setAddr fbn state.freeblock, state.takeBlock), ?_,
    ⟨grown, ?_, .takeBlock _, rfl, setAddr_rest isAddr rest, free_le_succ free_le⟩⟩
  · rw [blockFor, if_pos direct, addrBlock_absent absent]
    simp only [addr]
  · rw [place_direct direct, ref_addr isAddr, addr]

variable (length : state.length = FSSIZE)
include length

/-- An entry of the indirect block is the next place. -/
theorem entryBlock_next (free_le : state.freeblock ≤ FSSIZE)
    (rest : ∀ i, NDIRECT < i → din.addrs i = 0) (indirect : NDIRECT ≤ fbn) (small : fbn < MAXFILE)
    (next : count inum = fbn + 1) (missing : (data inum).length ≤ fbn * BSIZE) :
    Returns (fun result => Got dinode inum din state (update count inum (fbn + 2)) data fbn
        (result.1, din, result.2))
      (state.entryBlock (din.addrs NDIRECT) (fbn - NDIRECT)) := by
  have isEntry : NDIRECT < fbn + 1 := Nat.lt_succ_of_le indirect
  have bounds := laid.mem_Ico inArea (next ▸ isEntry)
  have present := laid.ref_ne_zero inArea (next ▸ isEntry)
  have absent := laid.empty inum inArea (fbn + 1) (Nat.le_of_eq next)
    (place_entry indirect ▸ place_lt small)
  rw [update_self, ref_addr (Nat.le_refl _)] at bounds present
  rw [update_self, ref_entry isEntry present, Nat.succ_sub_succ] at absent
  have fits : state.freeblock < 2 ^ 32 := by simp only [FSSIZE] at free_le; omega
  have inside : din.addrs NDIRECT < FSSIZE := Nat.lt_of_lt_of_le bounds.2 free_le
  have grown := laid.growEntry inArea (next ▸ isEntry)
    (next ▸ place_entry indirect ▸ place_lt small)
    fits (padding_of_le missing (next.trans (place_entry indirect).symm))
  rw [next, update_self, Nat.succ_sub_succ] at grown
  refine ⟨_, entryBlock_absent length inside absent fits,
    ⟨?_, ?_, ?_, rfl, rest, free_le_succ free_le⟩⟩
  · rw [wsect_sector inside]
    exact grown
  · rw [place_entry indirect, ref_entry isEntry present, wsect_sector inside,
      update_self, Nat.succ_sub_succ, Block.word_setWord _ _ fits]
  · exact (Same.takeBlock _).trans (same_wsect length bounds.1 inside)

/-- The indirect block exists and one of its entries is the next place. -/
theorem blockFor_entry (free_le : state.freeblock ≤ FSSIZE)
    (rest : ∀ i, NDIRECT < i → din.addrs i = 0) (indirect : NDIRECT ≤ fbn) (small : fbn < MAXFILE)
    (next : count inum = fbn + 1) (missing : (data inum).length ≤ fbn * BSIZE) :
    Returns (Got dinode inum din state (update count inum (fbn + 2)) data fbn)
      (state.blockFor din fbn) := by
  have isEntry : NDIRECT < fbn + 1 := Nat.lt_succ_of_le indirect
  have present := laid.ref_ne_zero inArea (next ▸ isEntry)
  rw [update_self, ref_addr (Nat.le_refl _)] at present
  rw [blockFor, if_neg (Nat.not_lt.mpr indirect), addrBlock_present present]
  obtain ⟨⟨x, after⟩, done, got⟩ :=
    entryBlock_next laid inArea length free_le rest indirect small next missing
  refine ⟨(x, din, after), ?_, got⟩
  simp only [done, bind, Except.bind]

/-- The indirect block is the next place, and its first entry the one after it. -/
theorem blockFor_indirect (free_le : state.freeblock ≤ FSSIZE)
    (rest : ∀ i, NDIRECT < i → din.addrs i = 0) (next : count inum = NDIRECT)
    (missing : (data inum).length ≤ NDIRECT * BSIZE) :
    Ends (Got dinode inum din state (update count inum (NDIRECT + 2)) data NDIRECT)
      (FSSIZE ≤ state.freeblock) (state.blockFor din NDIRECT) := by
  have absent := laid.addrs_eq_zero inArea (Nat.le_refl NDIRECT) (Nat.le_of_eq next)
  rw [update_self] at absent
  have addr := setAddr_self din NDIRECT state.freeblock
  rw [blockFor, if_neg (Nat.lt_irrefl _), addrBlock_absent absent]
  by_cases full : state.freeblock = FSSIZE
  · have dies : state.takeBlock.rsect state.freeblock = .error .read := by
      rw [full]
      exact rsect_end length
    simp only [entryBlock, addr, dies, bind, Except.bind]
    exact Nat.le_of_eq full.symm
  · have grown := laid.growAddr inArea (Nat.le_of_eq next)
      (fun off here => (place_ne _ (here.trans next)).elim)
    rw [next, update_self, update_idem] at grown
    have after : state.takeBlock.freeblock ≤ FSSIZE := by
      change state.freeblock + 1 ≤ FSSIZE
      omega
    have laid' : Laid (update dinode inum (din.setAddr NDIRECT state.freeblock))
        state.takeBlock.sector state.takeBlock.freeblock
        (update count inum (NDIRECT + 1)) data := grown
    obtain ⟨⟨x, final⟩, done, got⟩ := entryBlock_next laid' inArea length after
      (setAddr_rest (Nat.le_refl _) rest) (Nat.le_refl _) (by decide) (update_self ..)
      missing
    simp only [done, bind, Except.bind]
    rw [update_idem] at got
    exact ⟨got.laid, got.isRef, (Same.takeBlock _).trans got.same, got.kind, got.rest, got.free_le⟩

/-- The block for the next byte of a file. -/
theorem blockFor_ends (free_le : state.freeblock ≤ FSSIZE)
    (rest : ∀ i, NDIRECT < i → din.addrs i = 0)
    (isCount : count inum = blocksFor (data inum).length)
    (small : (data inum).length / BSIZE < MAXFILE) :
    Ends (Got dinode inum din state
        (update count inum (blocksFor ((data inum).length + 1))) data
        ((data inum).length / BSIZE))
      (FSSIZE < blocksUsed (update count inum (blocksFor ((data inum).length + 1))))
      (state.blockFor din ((data inum).length / BSIZE)) := by
  generalize isLength : (data inum).length = size at *
  by_cases aligned : size % BSIZE = 0
  · have whole : size = size / BSIZE * BSIZE := by simp only [BSIZE] at *; omega
    have missing : (data inum).length ≤ size / BSIZE * BSIZE := by omega
    rw [blocksFor_succ]
    rw [whole, blocksFor_mul] at isCount
    generalize size / BSIZE = fbn at *
    rcases Nat.lt_trichotomy fbn NDIRECT with direct | first | later
    · rw [if_pos (Nat.le_of_lt direct)] at isCount
      rw [place_direct direct]
      exact .of_returns (blockFor_direct laid inArea free_le rest direct isCount missing)
    · subst first
      rw [if_pos (Nat.le_refl _)] at isCount
      rw [place_entry (Nat.le_refl _)]
      refine (blockFor_indirect laid inArea length free_le rest isCount missing).mono
        (fun _ got => got) fun full => ?_
      have updated := blocksUsed_update inArea count (NDIRECT + 1 + 1)
      have := laid.total
      omega
    · rw [if_neg (Nat.not_le.mpr later)] at isCount
      rw [place_entry (Nat.le_of_lt later)]
      exact .of_returns (blockFor_entry laid inArea length free_le rest (Nat.le_of_lt later) small
        isCount missing)
  · have inside : size / BSIZE * BSIZE < size := by simp only [BSIZE] at *; omega
    have has : place (size / BSIZE) < count inum := isCount ▸ place_lt_blocksFor.mpr inside
    have full : blocksFor (size + 1) = count inum := by
      have le := blocksFor_mono (Nat.le_succ size)
      rw [Nat.succ_eq_add_one, blocksFor_succ] at le
      rw [blocksFor_succ]
      omega
    rw [full, update_eq_self]
    exact .of_returns (blockFor_present laid inArea length free_le rest has)

end BlockFor

/-! ## The loop -/

/-- Number of places that files with these contents fill. -/
def counts (data : Inum → List UInt8) (inum : Inum) : Nat := blocksFor (data inum).length

/-- There is not room for these contents. -/
def Overrun (data : Inum → List UInt8) : Prop :=
  FSSIZE < blocksUsed (counts data) ∨ ∃ inum, InArea inum ∧ MAXFILE * BSIZE < (data inum).length

theorem Overrun.mono {data other : Inum → List UInt8}
    (overrun : Overrun data) (le : ∀ inum, (data inum).length ≤ (other inum).length) :
    Overrun other := by
  rcases overrun with blocks | ⟨inum, inArea, large⟩
  · exact .inl (Nat.lt_of_lt_of_le blocks (blocksUsed_mono fun inum => blocksFor_mono (le inum)))
  · exact .inr ⟨inum, inArea, Nat.lt_of_lt_of_le large (le inum)⟩

/-- The contents after `p` is appended to a file. -/
def extend (data : Inum → List UInt8) (inum : Inum) (p : List UInt8) : Inum → List UInt8 :=
  Function.update data inum (data inum ++ p)

section Extend

variable (data : Inum → List UInt8) (inum : Inum) (p q : List UInt8)

@[simp] theorem extend_self : extend data inum p inum = data inum ++ p := update_self ..

theorem extend_of_ne {other : Inum} (ne : other ≠ inum) :
    extend data inum p other = data other := update_of_ne ne ..

@[simp] theorem extend_nil : extend data inum [] = data := by
  rw [extend, append_nil, update_eq_self]

theorem extend_extend : extend (extend data inum p) inum q = extend data inum (p ++ q) := by
  rw [extend, extend_self, extend, update_idem, append_assoc, extend]

theorem length_le_extend (other : Inum) :
    (data other).length ≤ (extend data inum p other).length := by
  obtain rfl | same := eq_or_ne other inum
  · simp
  · rw [extend_of_ne _ _ _ same]

theorem counts_extend : counts (extend data inum p) =
    update (counts data) inum (blocksFor ((data inum).length + p.length)) := by
  funext other
  obtain rfl | same := eq_or_ne other inum
  · simp [counts]
  · simp [counts, extend_of_ne _ _ _ same, same]

end Extend

/-- In the loop of `iappend` on `inum`, which found `din₀` and started in `state₀`: the files have
the contents `data` once `din` is stored. -/
structure Looping (dinode : Inum → Dinode) (inum : Inum) (din₀ : Dinode) (state₀ : State)
    (data : Inum → List UInt8) (result : Nat × Dinode × State) : Prop where
  off : result.1 = (data inum).length
  laid : Laid (Function.update dinode inum result.2.1) result.2.2.sector result.2.2.freeblock
    (counts data) data
  same : Same state₀ result.2.2
  kind : result.2.1 = { din₀ with addrs := result.2.1.addrs }
  rest : ∀ i, NDIRECT < i → result.2.1.addrs i = 0
  free_le : result.2.2.freeblock ≤ FSSIZE

section Loop

variable {dinode : Inum → Dinode} {inum : Inum} {din₀ din : Dinode} {state₀ state : State}
  {data : Inum → List UInt8} {off : Nat} {p : List UInt8} {result : Nat × Dinode × State}

/-- The bytes of one turn are written to the block that `blockFor` has returned. -/
theorem Looping.written {n1 : Nat}
    (looping : Looping dinode inum din₀ state₀ data (off, din, state)) (inArea : InArea inum)
    (length : state₀.length = FSSIZE) (got : Got dinode inum din state
      (update (counts data) inum (blocksFor ((data inum).length + 1))) data
      ((data inum).length / BSIZE) result) (positive : 0 < (p.take n1).length)
    (oneBlock : (data inum).length % BSIZE + (p.take n1).length ≤ BSIZE)
    (inside : result.1 < FSSIZE) :
    Looping dinode inum din₀ state₀ (extend data inum (p.take n1))
      (off + (p.take n1).length, result.2.1, result.2.2.wsect result.1
        ((result.2.2.sector result.1).write ((data inum).length % BSIZE) (p.take n1))) := by
  obtain ⟨x, din', state'⟩ := result
  have isRef : x = ref state'.sector din' (place ((data inum).length / BSIZE)) := got.isRef
  have isCounts := counts_extend data inum (p.take n1)
  rw [blocksFor_add positive oneBlock] at isCounts
  have has : place ((data inum).length / BSIZE) <
      update (counts data) inum (blocksFor ((data inum).length + 1)) inum := by
    rw [update_self, blocksFor_succ]
    exact Nat.lt_succ_self _
  have bounds := got.laid.mem_Ico inArea has
  have written := got.laid.write inArea rfl has oneBlock
  rw [← isCounts, update_self, ← isRef] at written
  rw [update_self, ← isRef] at bounds
  have same := looping.same.trans got.same
  refine ⟨?_, ?_, same.trans (same_wsect (same.length.trans length) bounds.1 inside), ?_,
    got.rest, ?_⟩
  · have := looping.off
    simp only [extend_self, length_append] at this ⊢
    omega
  · rw [wsect_sector inside]
    exact written
  · have before : din = { din₀ with addrs := din.addrs } := looping.kind
    have after : din' = { din with addrs := din'.addrs } := got.kind
    exact after.trans (by rw [before])
  · rcases got.free_le with free_le | full
    · exact free_le
    · exact (Nat.ne_of_lt inside full).elim

/-- The block that was found is past the end of the image. -/
theorem Got.full (inArea : InArea inum) (got : Got dinode inum din state
      (update (counts data) inum (blocksFor ((data inum).length + 1))) data
      ((data inum).length / BSIZE) result) (beyond : FSSIZE ≤ result.1) :
    result.1 = FSSIZE ∧ FSSIZE <
      blocksUsed (update (counts data) inum (blocksFor ((data inum).length + 1))) := by
  have bounds := got.laid.mem_Ico inArea (by
    rw [update_self, blocksFor_succ]
    exact Nat.lt_succ_self _)
  rw [update_self, ← got.isRef] at bounds
  have total := got.laid.total
  rcases got.free_le with free_le | isEnd
  · omega
  · exact ⟨isEnd, by omega⟩

theorem overrun_of_blocksUsed (nonempty : 0 < p.length) (full : FSSIZE <
      blocksUsed (update (counts data) inum (blocksFor ((data inum).length + 1)))) :
    Overrun (extend data inum p) := by
  refine .inl (Nat.lt_of_lt_of_le full (blocksUsed_mono fun other => ?_))
  rw [counts_extend]
  obtain rfl | same := eq_or_ne other inum
  · rw [update_self, update_self]
    exact blocksFor_mono (by omega)
  · rw [update_of_ne same, update_of_ne same]

theorem iappendLoop_ends {turns : Nat} (inArea : InArea inum) (length : state₀.length = FSSIZE)
    (looping : Looping dinode inum din₀ state₀ data (off, din, state)) (enough : p.length ≤ turns) :
    Ends (Looping dinode inum din₀ state₀ (extend data inum p)) (Overrun (extend data inum p))
      (iappendLoop turns p off din state) := by
  induction turns generalizing p off din state data with
  | zero =>
    obtain rfl : p = [] := eq_nil_of_length_eq_zero (Nat.le_zero.mp enough)
    rw [extend_nil]
    exact looping
  | succ turns ih =>
    rw [iappendLoop]
    by_cases done : p = []
    · rw [if_pos done, done, extend_nil]
      exact looping
    · have nonempty : 0 < p.length := length_pos_of_ne_nil done
      have isOff : off = (data inum).length := looping.off
      rw [if_neg done]
      dsimp only
      by_cases small : off / BSIZE < MAXFILE
      · rw [if_pos small]
        subst isOff
        have found := blockFor_ends looping.laid inArea (looping.same.length.trans length)
          looping.free_le looping.rest rfl small
        refine found.bind (overrun_of_blocksUsed nonempty) fun result got => ?_
        generalize size : min p.length (((data inum).length / BSIZE + 1) * BSIZE -
          (data inum).length) = n1
        have taken : (p.take n1).length = n1 := by
          rw [length_take]
          omega
        have positive : 0 < n1 := by simp only [BSIZE] at *; omega
        have oneBlock : (data inum).length % BSIZE + n1 ≤ BSIZE := by
          simp only [BSIZE] at *
          omega
        have offset : (data inum).length - (data inum).length / BSIZE * BSIZE =
            (data inum).length % BSIZE := by
          simp only [BSIZE] at *
          omega
        have isLength : result.2.2.length = FSSIZE :=
          (looping.same.trans got.same).length.trans length
        rcases Nat.lt_or_ge result.1 FSSIZE with inside | beyond
        · have next := looping.written inArea length got (taken.symm ▸ positive)
            (taken.symm ▸ oneBlock) inside
          have rest := ih (p := p.drop n1) next (by rw [length_drop]; omega)
          rw [extend_extend, take_append_drop, taken] at rest
          simp only [rsect_ok isLength inside, bind, Except.bind, offset]
          exact rest
        · obtain ⟨isEnd, full⟩ := got.full inArea beyond
          simp only [isEnd, rsect_end isLength, bind, Except.bind]
          exact overrun_of_blocksUsed nonempty full
      · rw [if_neg small]
        refine .inr ⟨inum, inArea, ?_⟩
        rw [extend_self, length_append]
        simp only [BSIZE] at *
        omega

end Loop

/-! ## Inodes on the image -/

namespace State

variable {state : State} {inum : Inum} {ip : Dinode}

/-- The image after `winode`. -/
def setInode (state : State) (inum : Inum) (ip : Dinode) : State :=
  state.wsect (sb.iblock inum) (ip.store (state.sector (sb.iblock inum)) (inum % IPB))

theorem iblock_bounds {inum : Nat} (inArea : InArea inum) :
    sb.inodestart ≤ sb.iblock inum ∧ sb.iblock inum < sb.bmapstart := by
  have small : inum < 208 := inArea
  have start : sb.inodestart = 32 := rfl
  have stop : sb.bmapstart = 45 := rfl
  simp only [RawSuperblock.iblock, start, stop, IPB, BSIZE]
  omega

theorem iblock_lt (inArea : InArea inum) : sb.iblock inum < FSSIZE :=
  Nat.lt_trans (iblock_bounds inArea).2 (by decide)

/-- Two inodes of one block are at different places in it. -/
theorem slot_ne {other inum : Nat} (sameBlock : sb.iblock other = sb.iblock inum)
    (ne : other ≠ inum) : other % IPB ≠ inum % IPB := by
  simp only [RawSuperblock.iblock, IPB, BSIZE] at *
  omega

theorem rinode_eq (length : state.length = FSSIZE) (inArea : InArea inum) :
    state.rinode inum = .ok (state.dinode inum) := by
  simp only [rinode, rsect_ok length (iblock_lt inArea), bind, Except.bind]
  rfl

theorem winode_eq (length : state.length = FSSIZE) (inArea : InArea inum) :
    state.winode inum ip = .ok (state.setInode inum ip) := by
  simp only [winode, rsect_ok length (iblock_lt inArea), bind, Except.bind]
  rfl

theorem setInode_dinode (inArea : InArea inum) (fits : ip.Fits) :
    (state.setInode inum ip).dinode = update state.dinode inum ip := by
  funext other
  unfold dinode setInode
  rw [wsect_sector (iblock_lt inArea)]
  by_cases sameBlock : sb.iblock other = sb.iblock inum
  · rw [sameBlock, update_self]
    by_cases same : other = inum
    · rw [same, update_self, Dinode.load_store _ _ fits]
    · rw [update_of_ne same, Dinode.load_store_ne _ _ _ (slot_ne sameBlock same),
        sameBlock]
  · have ne : other ≠ inum := by
      rintro rfl
      exact sameBlock rfl
    rw [update_of_ne sameBlock, update_of_ne ne]

theorem setInode_sector (inArea : InArea inum) {b : Nat}
    (outside : b < sb.inodestart ∨ sb.bmapstart ≤ b) :
    (state.setInode inum ip).sector b = state.sector b := by
  have bounds := iblock_bounds inArea
  rw [setInode, wsect_sector (iblock_lt inArea)]
  exact update_of_ne (by omega) ..

end State

end Xv6.Mkfs
