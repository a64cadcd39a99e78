import Xv6.Proc.Table

/-!
# Spin locks and the per-CPU interrupt state

The functions of `kernel/spinlock.c` on the locks `p->lock` of the process
table.  A lock held by another CPU makes `acquire` spin; the model reports this
as `blocked`, and the step is simply not taken until the lock is free.
-/

namespace Xv6

open Function (update)

/-- The `panic` calls that the scheduler's lock handling can reach. -/
inductive Panic where
  | acquire
  | release
  | popOffInterruptible
  | popOff
  | schedLock
  | schedLocks
  | schedRunning
  | schedInterruptible
  deriving DecidableEq, Repr

/-- Why a piece of kernel code does not complete. -/
inductive Stop where
  | panic (cause : Panic)
  | blocked
  deriving DecidableEq, Repr

/-- `struct spinlock`. -/
structure Spinlock where
  locked : Bool := false
  cpu : Option CpuId := none
  deriving DecidableEq, Repr

/-- `struct cpu`, with the interrupt-enable bit of the hart's `sstatus`. -/
structure Cpu where
  proc : Option Slot := none
  noff : Nat := 0
  intena : Bool := false
  sie : Bool := false
  deriving DecidableEq, Repr

/-- Check whether this CPU is holding the lock. -/
def holding (lock : Spinlock) (cpu : CpuId) : Prop :=
  lock.locked = true ∧ lock.cpu = some cpu

instance (lock : Spinlock) (cpu : CpuId) : Decidable (holding lock cpu) :=
  inferInstanceAs (Decidable (_ ∧ _))

def pushOff (cpu : Cpu) : Cpu :=
  { cpu with
    sie := false
    intena := if cpu.noff = 0 then cpu.sie else cpu.intena
    noff := cpu.noff + 1 }

def popOff (cpu : Cpu) : Except Stop Cpu :=
  if cpu.sie then
    .error (.panic .popOffInterruptible)
  else if cpu.noff < 1 then
    .error (.panic .popOff)
  else
    .ok { cpu with
      noff := cpu.noff - 1
      sie := if cpu.noff - 1 = 0 ∧ cpu.intena then true else cpu.sie }

/-- The process table with its locks, and the CPUs. -/
structure Machine where
  table : Table
  lock : Slot → Spinlock
  cpu : CpuId → Cpu

namespace Machine

def setProc (machine : Machine) (slot : Slot) (proc : Proc) : Machine :=
  { machine with table := update machine.table slot proc }

def setLock (machine : Machine) (slot : Slot) (lock : Spinlock) : Machine :=
  { machine with lock := update machine.lock slot lock }

def setCpu (machine : Machine) (id : CpuId) (cpu : Cpu) : Machine :=
  { machine with cpu := update machine.cpu id cpu }

section Fields

variable (machine : Machine) (slot : Slot) (id : CpuId)
variable (proc : Proc) (lock : Spinlock) (cpu : Cpu)

attribute [simps -fullyApplied table lock cpu] setProc
attribute [simps -fullyApplied table lock cpu] setLock
attribute [simps -fullyApplied table lock cpu] setCpu

end Fields

/-- Acquire `p->lock` on behalf of a CPU. -/
def acquire (id : CpuId) (slot : Slot) (machine : Machine) : Except Stop Machine :=
  let machine := machine.setCpu id (pushOff (machine.cpu id))
  if holding (machine.lock slot) id then
    .error (.panic .acquire)
  else if (machine.lock slot).locked then
    .error .blocked
  else
    .ok (machine.setLock slot ⟨true, some id⟩)

/-- Release `p->lock` on behalf of a CPU. -/
def release (id : CpuId) (slot : Slot) (machine : Machine) : Except Stop Machine :=
  if ¬ holding (machine.lock slot) id then
    .error (.panic .release)
  else
    let machine := machine.setLock slot ⟨false, none⟩
    (popOff (machine.cpu id)).map fun cpu => machine.setCpu id cpu

/-- `intr_on()` on one CPU. -/
def intrOn (id : CpuId) (machine : Machine) : Machine :=
  machine.setCpu id { machine.cpu id with sie := true }

/-! ## Sets of held locks -/

/-- The locks a CPU holds are exactly `held`, its `push_off` depth counts them,
and its interrupts are off while it holds one. -/
structure Holds (machine : Machine) (id : CpuId) (held : Finset Slot) : Prop where
  holding_iff : ∀ slot, holding (machine.lock slot) id ↔ slot ∈ held
  noff_eq : (machine.cpu id).noff = held.card
  sie_off : held.Nonempty → (machine.cpu id).sie = false

/-- What a piece of code run by one CPU leaves alone: the other CPUs, the locks
they hold, the state of every process and the process this CPU runs. -/
structure Frame (id : CpuId) (before after : Machine) : Prop where
  cpu_eq : ∀ other, other ≠ id → after.cpu other = before.cpu other
  holding_iff : ∀ other slot, other ≠ id →
    (holding (after.lock slot) other ↔ holding (before.lock slot) other)
  state_eq : ∀ slot, (after.table slot).state = (before.table slot).state
  proc_eq : (after.cpu id).proc = (before.cpu id).proc

variable {id : CpuId}

theorem Frame.trans {first second third : Machine} (left : Frame id first second)
    (right : Frame id second third) : Frame id first third where
  cpu_eq := fun other ne =>
    (right.cpu_eq other ne).trans (left.cpu_eq other ne)
  holding_iff := fun other slot ne =>
    (right.holding_iff other slot ne).trans (left.holding_iff other slot ne)
  state_eq := fun slot => (right.state_eq slot).trans (left.state_eq slot)
  proc_eq := right.proc_eq.trans left.proc_eq

/-- A lock marked as taken has a CPU that took it. -/
def Owned (machine : Machine) : Prop :=
  ∀ slot, (machine.lock slot).locked = true → ∃ id, holding (machine.lock slot) id

variable {slot : Slot} {machine : Machine} {held : Finset Slot}

/-- `acquire` of a lock this CPU does not hold either spins or adds it to the
held locks; it does not panic. -/
theorem acquire_spec (holds : Holds machine id held) (fresh : slot ∉ held) :
    (machine.acquire id slot = .error .blocked ∧ (machine.lock slot).locked = true) ∨
      ∃ after, machine.acquire id slot = .ok after ∧
        (machine.lock slot).locked = false ∧
        Holds after id (insert slot held) ∧ Frame id machine after ∧
        after.table = machine.table ∧
        after.lock = update machine.lock slot ⟨true, some id⟩ := by
  have notHeld : ¬ holding (machine.lock slot) id := by
    rw [holds.holding_iff]
    exact fresh
  cases locked : (machine.lock slot).locked with
  | true =>
    left
    simp [acquire, notHeld, locked]
  | false =>
    right
    refine ⟨(machine.setCpu id (pushOff (machine.cpu id))).setLock slot ⟨true, some id⟩,
      by simp [acquire, notHeld, locked], rfl, ?_, ?_, rfl, rfl⟩
    · constructor
      · intro query
        obtain rfl | same := eq_or_ne query slot
        · simp [holding]
        · simp [same, holds.holding_iff]
      · simp [pushOff, holds.noff_eq, fresh]
      · simp [pushOff]
    · constructor
      · intro other ne
        simp [ne]
      · intro other query ne
        obtain rfl | same := eq_or_ne query slot
        · simp [holding, locked, Ne.symm ne]
        · simp [same]
      · intro query
        rfl
      · simp [pushOff]

/-- `release` of a held lock succeeds and removes it from the held locks. -/
theorem release_spec (holds : Holds machine id held) (member : slot ∈ held) :
    ∃ after, machine.release id slot = .ok after ∧
      Holds after id (held.erase slot) ∧ Frame id machine after ∧
      after.table = machine.table ∧
      after.lock = update machine.lock slot ⟨false, none⟩ := by
  have isHeld : holding (machine.lock slot) id := (holds.holding_iff slot).mpr member
  have interruptsOff := holds.sie_off ⟨slot, member⟩
  have depth : 1 ≤ (machine.cpu id).noff := by
    rw [holds.noff_eq]
    exact Finset.card_pos.mpr ⟨slot, member⟩
  refine ⟨(machine.setLock slot ⟨false, none⟩).setCpu id
      { machine.cpu id with
        noff := (machine.cpu id).noff - 1
        sie := if (machine.cpu id).noff - 1 = 0 ∧ (machine.cpu id).intena then true
          else (machine.cpu id).sie },
    by simp [release, isHeld, popOff, interruptsOff, Nat.not_lt.mpr depth, Except.map],
    ?_, ?_, rfl, rfl⟩
  · constructor
    · intro query
      obtain rfl | same := eq_or_ne query slot
      · simp [holding]
      · simp [same, holds.holding_iff]
    · simp [holds.noff_eq, Finset.card_erase_of_mem member]
    · intro nonempty
      have remaining : held.card - 1 ≠ 0 := by
        rw [← Finset.card_erase_of_mem member]
        exact Finset.card_ne_zero.mpr nonempty
      simp [interruptsOff, holds.noff_eq, remaining]
  · constructor
    · intro other ne
      simp [ne]
    · intro other query ne
      obtain rfl | same := eq_or_ne query slot
      · have wasOther : ¬ holding (machine.lock query) other := by
          intro otherHolds
          exact ne (Option.some.inj (otherHolds.2.symm.trans isHeld.2))
        simp [holding] at wasOther ⊢
        exact wasOther
      · simp [same]
    · intro query
      rfl
    · simp

theorem owned_of_lock_eq {before after : Machine} {lock : Spinlock} (owned : Owned before)
    (eq : after.lock = update before.lock slot lock)
    (ownedHere : lock.locked = true → ∃ id, holding lock id) : Owned after := by
  intro query
  rw [eq]
  obtain rfl | same := eq_or_ne query slot
  · simpa using ownedHere
  · simpa [same] using owned query

end Machine

end Xv6
