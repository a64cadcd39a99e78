import Xv6.Proc.WaitTimes

/-!
# `sys_waitx`

`waitx` frees the child before `sys_waitx` copies the two times out, and `sys_waitx` copies them
also after `waitx` has failed.  A call is looked at from its last scan of the table on; of the
memory of the process only the bytes that the call writes matter.
-/

namespace Xv6.Waitx

open Function (update update_apply update_of_ne)

/-- The bytes that have been written. -/
abbrev Written := Nat → Option UInt8

def bytes (value : UInt32) : List UInt8 :=
  (List.range 4).map fun i => UInt8.ofNat (value.toNat / 256 ^ i)

/-- `copyout`, which writes the bytes up to the first page that it cannot write to. -/
def copyout (writable : Nat → Bool) (addr : Nat) : List UInt8 → Written → Bool × Written
  | [], written => (true, written)
  | byte :: rest, written =>
    if writable addr then
      copyout writable (addr + 1) rest (update written addr (some byte))
    else
      (false, written)

/-- The caller, its arguments and what the three copies find of its memory. -/
structure Call where
  self : Slot
  addr : Nat
  addr1 : Nat
  addr2 : Nat
  writable : Nat → Bool
  writable1 : Nat → Bool
  writable2 : Nat → Bool
  /-- `p->xstate`. -/
  xstate : Slot → UInt32
  /-- The local variables of `sys_waitx`, which are not initialised. -/
  wtime : UInt32
  rtime : UInt32

/-- How `waitx` returns, with the status that it has written. -/
inductive Return where
  | reaps (child : Slot) (written : Written)
  | fails (written : Written) (wtime rtime : UInt32)

namespace Call

variable (call : Call) (table : Table)

/-- The child that the scan of the table finds. -/
def found : Option Slot :=
  allSlots.find? fun slot =>
    (table slot).parent = some call.self ∧ (table slot).state = .zombie

/-- The last scan of `waitx`; `none` if the process goes to sleep. -/
def waitx : Option Return :=
  match call.found table with
  | some child =>
    match if call.addr = 0 then (true, fun _ => none)
        else copyout call.writable call.addr (bytes (call.xstate child)) fun _ => none with
    | (true, written) => some (.reaps child written)
    | (false, written) => some (.fails written (table child).wtime (table child).rtime)
  | none =>
    if (∀ slot, (table slot).parent ≠ some call.self) ∨ (table call.self).killed = true then
      some (.fails (fun _ => none) call.wtime call.rtime)
    else
      none

/-- The rest of `sys_waitx`: the value returned, and the bytes written. -/
def copyTimes (ret : Int) (written : Written) (wtime rtime : UInt32) : Int × Written :=
  match copyout call.writable1 call.addr1 (bytes wtime) written with
  | (false, written) => (-1, written)
  | (true, written) =>
    match copyout call.writable2 call.addr2 (bytes rtime) written with
    | (false, written) => (-1, written)
    | (true, written) => (ret, written)

def finish : Return → (Int × Written) × Table
  | .reaps child written =>
    (call.copyTimes (table child).pid written (table child).wtime (table child).rtime,
      update table child (table child).free)
  | .fails written wtime rtime => (call.copyTimes (-1) written wtime rtime, table)

def sysWaitx : Option ((Int × Written) × Table) := (call.waitx table).map (call.finish table)

/-- A child to be collected. -/
def Zombie (child : Slot) : Prop :=
  (table child).parent = some call.self ∧ (table child).state = .zombie

/-- A call that returns -1 has done nothing, and one that returns a pid has freed this child and
stored its times. -/
structure Clean (result : (Int × Written) × Table) : Prop where
  failed : result.1.1 = -1 → result.2 = table ∧
    ∀ i < 4, result.1.2 (call.addr1 + i) = none ∧ result.1.2 (call.addr2 + i) = none
  reaped : result.1.1 ≠ -1 → ∃ child, call.Zombie table child ∧ (table child).pid = result.1.1 ∧
    result.2 = update table child (table child).free ∧
    ∀ i < 4, result.1.2 (call.addr1 + i) = (bytes (table child).wtime)[i]? ∧
      result.1.2 (call.addr2 + i) = (bytes (table child).rtime)[i]?

/-- The status of the child can be stored. -/
def StatusFits : Prop := call.addr = 0 ∨ ∀ j < 4, call.writable (call.addr + j) = true

/-- The two words can be written, and where they overlap the times agree. -/
def WordsFit (child : Slot) : Prop :=
  (table child).pid ≠ -1 ∧
    (∀ i < 4, call.writable1 (call.addr1 + i) = true) ∧
    (∀ i < 4, call.writable2 (call.addr2 + i) = true) ∧
    ∀ i < 4, ∀ j < 4, call.addr1 + i = call.addr2 + j →
      (bytes (table child).wtime)[i]? = (bytes (table child).rtime)[j]?

/-- If there is a child to be collected and its status can be stored, so can its times.  Otherwise
`wtime` cannot be written at all, and what can be written of the status lies elsewhere. -/
def Careful : Prop :=
  match call.found table with
  | none => call.writable1 call.addr1 = false
  | some child =>
    (call.StatusFits → call.WordsFit table child) ∧
    (¬ call.StatusFits → call.writable1 call.addr1 = false ∧ ∀ i < 4, ∀ j < 4,
      call.addr1 + i = call.addr + j ∨ call.addr2 + i = call.addr + j →
        ∃ k ≤ j, call.writable (call.addr + k) = false)

/-- `Careful`, once `waitx` has returned. -/
def Ready : Return → Prop
  | .reaps child _ => call.WordsFit table child
  | .fails written _ _ => call.writable1 call.addr1 = false ∧
      ∀ i < 4, written (call.addr1 + i) = none ∧ written (call.addr2 + i) = none

end Call

/-! ## `copyout` -/

variable {writable : Nat → Bool} {addr : Nat} {written : Written}

theorem copyout_of_writable (src : List UInt8)
    (all : ∀ i < src.length, writable (addr + i) = true) :
    copyout writable addr src written = (true, fun a =>
      if addr ≤ a then (src[a - addr]?).or (written a) else written a) := by
  induction src generalizing addr written with
  | nil => simp [copyout]
  | cons byte rest ih =>
    have first : writable addr = true := all 0 (by simp)
    have later : ∀ i < rest.length, writable (addr + 1 + i) = true := fun i inside => by
      simpa [Nat.add_assoc, Nat.add_comm 1] using all (i + 1) (by simpa using inside)
    rw [copyout, if_pos first, ih later]
    congr 1
    funext a
    grind [update_apply]

theorem copyout_stops (src : List UInt8)
    (copied : (copyout writable addr src written).1 = true) :
    ∀ i < src.length, writable (addr + i) = true := by
  induction src generalizing addr written with
  | nil => simp
  | cons byte rest ih =>
    rw [copyout] at copied
    split_ifs at copied with first
    intro i inside
    cases i with
    | zero => exact first
    | succ i => simpa [Nat.add_assoc, Nat.add_comm 1] using ih copied i (by simpa using inside)

/-- A byte is left alone if the copy does not come to it. -/
theorem copyout_eq_none_iff (src : List UInt8) {a : Nat} :
    (copyout writable addr src written).2 a = none ↔ written a = none ∧
      ∀ j < src.length, a = addr + j → ∃ k ≤ j, writable (addr + k) = false := by
  induction src generalizing addr written with
  | nil => simp [copyout]
  | cons byte rest ih =>
    rw [copyout]
    split_ifs with first
    · rw [ih, update_apply]
      constructor
      · rintro ⟨unwritten, stops⟩
        have other : a ≠ addr := fun same => by simp [same] at unwritten
        refine ⟨by simpa [other] using unwritten, fun j inside here => ?_⟩
        obtain ⟨j, rfl⟩ : ∃ i, j = i + 1 := ⟨j - 1, by omega⟩
        obtain ⟨k, le, stuck⟩ := stops j (by simpa using inside) (by omega)
        exact ⟨k + 1, by omega, by simpa [Nat.add_assoc, Nat.add_comm 1] using stuck⟩
      · rintro ⟨unwritten, stops⟩
        have other : a ≠ addr := by
          rintro rfl
          obtain ⟨k, le, stuck⟩ := stops 0 (by simp) rfl
          simp [Nat.le_zero.mp le, first] at stuck
        refine ⟨by simpa [other] using unwritten, fun j inside here => ?_⟩
        obtain ⟨k, le, stuck⟩ := stops (j + 1) (by simpa using inside) (by omega)
        obtain ⟨k, rfl⟩ : ∃ i, k = i + 1 :=
          ⟨k - 1, by rcases k with _ | k <;> simp_all⟩
        exact ⟨k, by omega, by simpa [Nat.add_assoc, Nat.add_comm 1] using stuck⟩
    · refine ⟨fun unwritten => ⟨unwritten, fun j _ _ => ⟨0, Nat.zero_le j, by simpa using first⟩⟩,
        And.left⟩

/-- What is written stays written. -/
theorem copyout_written (src : List UInt8) {a : Nat} (before : (written a).isSome) :
    ((copyout writable addr src written).2 a).isSome := by
  induction src generalizing addr written with
  | nil => exact before
  | cons byte rest ih =>
    rw [copyout]
    split_ifs
    · refine ih ?_
      rw [update_apply]
      split_ifs
      · rfl
      · exact before
    · exact before

theorem bytes_eq (value : UInt32) : ∃ byte rest, bytes value = byte :: rest ∧ rest.length = 3 :=
  ⟨_, _, rfl, rfl⟩

namespace Call

variable {call : Call} {table : Table} {ret : Int} {wtime rtime : UInt32}

/-- Without the first byte of `wtime` nothing is copied. -/
theorem copyTimes_stuck (stuck : call.writable1 call.addr1 = false) :
    call.copyTimes ret written wtime rtime = (-1, written) := by
  obtain ⟨byte, rest, isBytes, -⟩ := bytes_eq wtime
  simp [copyTimes, isBytes, copyout, stuck]

theorem copyTimes_writes (starts : call.writable1 call.addr1 = true) :
    ((call.copyTimes ret written wtime rtime).2 call.addr1).isSome := by
  obtain ⟨byte, rest, isBytes, -⟩ := bytes_eq wtime
  have first : ((copyout call.writable1 call.addr1 (bytes wtime) written).2 call.addr1).isSome := by
    rw [isBytes, copyout, if_pos starts]
    exact copyout_written rest (by simp)
  unfold copyTimes
  split
  next stopped => simpa [stopped] using first
  next copied =>
    rw [copied] at first
    have second : ((copyout call.writable2 call.addr2 (bytes rtime) _).2 call.addr1).isSome :=
      copyout_written _ first
    split
    next stopped => simpa [stopped] using second
    next done => simpa [done] using second

theorem copyTimes_failed : (call.copyTimes (-1) written wtime rtime).1 = -1 := by
  unfold copyTimes
  split
  · rfl
  · split <;> rfl

theorem copyTimes_returns (returns : (call.copyTimes ret written wtime rtime).1 ≠ -1) :
    ret ≠ -1 ∧ (∀ i < 4, call.writable1 (call.addr1 + i) = true) ∧
      ∀ i < 4, call.writable2 (call.addr2 + i) = true := by
  unfold copyTimes at returns
  split at returns
  next => exact (returns rfl).elim
  next copied =>
    split at returns
    next => exact (returns rfl).elim
    next done =>
      exact ⟨returns, copyout_stops (bytes wtime) (by rw [copied]),
        copyout_stops (bytes rtime) (by rw [done])⟩

/-- Both words are written, the second one last. -/
theorem copyTimes_done (first : ∀ i < 4, call.writable1 (call.addr1 + i) = true)
    (second : ∀ i < 4, call.writable2 (call.addr2 + i) = true) :
    ∃ after, call.copyTimes ret written wtime rtime = (ret, after) ∧
      (∀ i < 4, after (call.addr2 + i) = (bytes rtime)[i]?) ∧
      ∀ i < 4, after (call.addr1 + i) =
        if call.addr2 ≤ call.addr1 + i ∧ call.addr1 + i < call.addr2 + 4 then
          (bytes rtime)[call.addr1 + i - call.addr2]?
        else (bytes wtime)[i]? := by
  rw [copyTimes, copyout_of_writable (bytes wtime) first]
  simp only [copyout_of_writable (bytes rtime) second]
  have length1 : (bytes wtime).length = 4 := rfl
  have length2 : (bytes rtime).length = 4 := rfl
  refine ⟨_, rfl, ?_, ?_⟩ <;> grind

theorem waitx_reaps {child : Slot} (scanned : call.waitx table = some (.reaps child written)) :
    call.Zombie table child := by
  unfold waitx at scanned
  split at scanned
  next child isFound =>
    split at scanned
    next =>
      cases scanned
      simpa [Zombie] using List.find?_some isFound
    next => cases scanned
  next =>
    split_ifs at scanned
    cases scanned

/-- What the call finds of the table and the memory says how `waitx` returns. -/
theorem careful_iff {returned : Return} (scanned : call.waitx table = some returned) :
    call.Careful table ↔ call.Ready table returned := by
  unfold waitx at scanned
  unfold Careful
  split at scanned
  next child found =>
    simp only [found]
    have copies := @copyout_stops call.writable call.addr (fun _ => none)
      (bytes (call.xstate child))
    have stays := @copyout_eq_none_iff call.writable call.addr (fun _ => none)
      (bytes (call.xstate child))
    have length : (bytes (call.xstate child)).length = 4 := rfl
    split at scanned
    next written copied =>
      cases scanned
      have fits : call.StatusFits := by
        split_ifs at copied with absent
        · exact .inl absent
        · exact .inr (copies (by rw [copied]))
      simp [fits, Ready]
    next written stopped =>
      cases scanned
      split_ifs at stopped with absent
      · cases stopped
      have unfit : ¬ call.StatusFits := by
        rintro (zero | all)
        · exact absent zero
        · rw [copyout_of_writable (bytes _) all] at stopped
          cases stopped
      rw [stopped, length] at stays
      simp only [true_and] at stays
      simp only [unfit, not_false_eq_true, forall_true_left, false_implies, true_and, Ready, stays]
      grind
  next missing =>
    split_ifs at scanned
    cases scanned
    simp [missing, Ready]

/-- `sys_waitx` keeps its promise exactly if the two words can be written where `waitx` succeeds,
and not be written where it fails. -/
theorem sys_waitx_clean_iff {returned : Return} (scanned : call.waitx table = some returned) :
    call.sysWaitx table = some (call.finish table returned) ∧
      (call.Clean table (call.finish table returned) ↔ call.Careful table) := by
  refine ⟨by rw [sysWaitx, scanned]; rfl, ?_⟩
  rw [careful_iff scanned]
  cases returned with
  | fails written wtime rtime =>
    cases starts : call.writable1 call.addr1 with
    | true =>
      refine iff_of_false (fun clean => ?_) (by simp [Ready, starts])
      have unwritten : (call.copyTimes (-1) written wtime rtime).2 call.addr1 = none :=
        ((clean.failed copyTimes_failed).2 0 (by decide)).1
      simpa [unwritten] using @copyTimes_writes written call (-1) wtime rtime starts
    | false =>
      simp only [Ready, starts, true_and, finish, copyTimes_stuck starts]
      exact ⟨fun clean => (clean.failed rfl).2,
        fun clear => ⟨fun _ => ⟨rfl, clear⟩, fun other => (other rfl).elim⟩⟩
  | reaps child written =>
    have zombie := waitx_reaps scanned
    -- what the other entries are like, the child is not
    have only {after : Table} (same : update table child (table child).free = after)
        (kept : after child = table child) : False := by
      have state := congrArg Proc.state ((congrFun same child).trans kept)
      simp [Proc.free, zombie.2] at state
    constructor
    · intro clean
      have returns : (call.finish table (.reaps child written)).1.1 ≠ -1 := fun failed =>
        only (clean.failed failed).1 rfl
      obtain ⟨isPid, first, second⟩ := copyTimes_returns returns
      obtain ⟨other, -, -, table_eq, stored⟩ := clean.reaped returns
      obtain rfl : child = other := by
        by_contra ne
        exact only table_eq (update_of_ne ne ..)
      refine ⟨isPid, first, second, fun i small j below overlap => ?_⟩
      have word := (stored i small).1
      rw [overlap] at word
      exact word.symm.trans (stored j below).2
    · rintro ⟨isPid, first, second, agree⟩
      obtain ⟨after, done, word2, word1⟩ := copyTimes_done first second
      rw [finish, done]
      refine ⟨fun failed => (isPid failed).elim, fun _ => ⟨child, zombie, rfl, rfl, fun i small =>
        ⟨(word1 i small).trans ?_, word2 i small⟩⟩⟩
      split_ifs with inside
      · exact (agree i small _ (by omega) (by omega)).symm
      · rfl

/-- A child that has exited after two ticks, one of which it ran. -/
def exited : Table := fun slot =>
  if slot = 1 then
    { parent := some 0, state := .zombie, pid := 5, creationTime := 2, endTime := 4, runTime := 1 }
  else
    {}

/-- The first process waits, with the two words next to each other. -/
def caller (writable : Bool) : Call where
  self := 0
  addr := 0
  addr1 := 100
  addr2 := 104
  writable _ := true
  writable1 _ := writable
  writable2 _ := writable
  xstate _ := 0
  wtime := 7
  rtime := 7

theorem sys_waitx_clean_iff_exited :
    (caller true).Clean exited ((caller true).finish exited (.reaps 1 fun _ => none)) := by
  refine (sys_waitx_clean_iff rfl).2.mpr ⟨fun _ => ⟨by decide, fun _ _ => rfl, fun _ _ => rfl,
    fun i small j _ overlap => ?_⟩, fun unfit => (unfit (.inl rfl)).elim⟩
  change 100 + i = 104 + j at overlap
  omega

/-- The child is freed although the call fails, as the first of the words cannot be written. -/
theorem sys_waitx_loses_child : ∃ result, (caller false).sysWaitx exited = some result ∧
    result.1.1 = -1 ∧ (exited 1).state = .zombie ∧ (result.2 1).state = .unused ∧
    ¬ (caller false).Clean exited result := by
  refine ⟨_, rfl, rfl, rfl, rfl, fun clean => ?_⟩
  have same := congrArg Proc.state (congrFun (clean.failed rfl).1 1)
  cases same

end Call

end Xv6.Waitx
