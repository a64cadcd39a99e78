import Xv6.Lib.Cyclic
import Xv6.Lib.Transition

/-!
# The transmit buffer of the serial line

The output half of `kernel/uart.c`.  A section under `uart_tx_lock` is one step.  The device is any
agent: how often `uartstart` finds its holding register empty is part of the step.
-/

namespace Xv6.Uart

open Cyclic Function List Transition

def UART_TX_BUF_SIZE : Nat := 32

/-- Where a process is in `uartputc`. -/
inductive Pc where
  | out
  | asleep (c : UInt8)
  /-- It has been woken and has not tested the buffer again. -/
  | woken (c : UInt8)
  deriving DecidableEq

/-- `wakeup(&uart_tx_r)`. -/
def Pc.wakeup : Pc → Pc
  | .asleep c => .woken c
  | pc => pc

theorem Pc.wakeup_ne (pc : Pc) (c : UInt8) : pc.wakeup ≠ .asleep c := by
  cases pc <;> simp [wakeup]

structure State (User : Type) where
  buf : Nat → UInt8 := fun _ => 0
  w : BitVec 64 := 0
  r : BitVec 64 := 0
  pc : User → Pc := fun _ => .out
  /-- What `uartputc` has stored so far, and what the device has been given. -/
  put : List UInt8 := []
  sent : List UInt8 := []

namespace State

variable {User : Type} {state after : State User}

/-- What waits in the buffer. -/
def waiting (state : State User) : List UInt8 :=
  contents UART_TX_BUF_SIZE state.buf state.r state.w

/-- One turn of the loop of `uartstart`. -/
def send (state : State User) : State User :=
  { state with
    r := state.r + 1
    pc := fun user => (state.pc user).wakeup
    sent := state.sent ++ [state.buf (place UART_TX_BUF_SIZE state.r)] }

/-- `uartstart`, if the device is idle so many times in a row. -/
def uartstart : (idle : Nat) → State User → State User
  | 0, state => state
  | idle + 1, state => if state.w = state.r then state else uartstart idle state.send

/-- Nothing is lost, and a process sleeps only while the buffer is full. -/
structure Sound (state : State User) : Prop where
  fifo : state.sent ++ state.waiting = state.put
  bounded : state.waiting.length ≤ UART_TX_BUF_SIZE
  full : ∀ user c, state.pc user = .asleep c →
    state.w = state.r + BitVec.ofNat 64 UART_TX_BUF_SIZE

theorem Sound.uartstart (sound : state.Sound) (idle : Nat) : (uartstart idle state).Sound ∧
    (State.uartstart idle state).put = state.put ∧
    (State.uartstart idle state).waiting.length = state.waiting.length - idle := by
  induction idle generalizing state with
  | zero => exact ⟨sound, rfl, rfl⟩
  | succ idle ih =>
    rw [State.uartstart]
    split_ifs with none
    · have empty : state.waiting = [] := by rw [waiting, none, contents_self]
      exact ⟨sound, rfl, by simp [empty]⟩
    · have pop : state.waiting = _ :: state.send.waiting := contents_pop (Ne.symm none)
      have fifo := sound.fifo
      have bounded := sound.bounded
      rw [pop, length_cons] at bounded
      rw [pop, append_cons] at fifo
      have next : state.send.Sound :=
        ⟨fifo, by omega, fun _ _ asleep => (Pc.wakeup_ne _ _ asleep).elim⟩
      obtain ⟨last, put, count⟩ := ih next
      exact ⟨last, put, by rw [count, pop, length_cons]; omega⟩

variable [DecidableEq User]

/-- The two lines of `uartputc` behind its loop. -/
def store (state : State User) (user : User) (c : UInt8) : State User :=
  { state with
    buf := update state.buf (place UART_TX_BUF_SIZE state.w) c
    w := state.w + 1
    pc := update state.pc user .out
    put := state.put ++ [c] }

/-- `uartputc` from the test of its loop on. -/
def uartputc (state : State User) (user : User) (c : UInt8) (idle : Nat) : State User :=
  if state.w = state.r + BitVec.ofNat 64 UART_TX_BUF_SIZE then
    { state with pc := update state.pc user (.asleep c) }
  else
    uartstart idle (state.store user c)

inductive Action (User : Type) where
  | putc (user : User) (c : UInt8) (idle : Nat)
  | resume (user : User) (idle : Nat)
  | kill (user : User)
  /-- The end of `uartintr`. -/
  | intr (idle : Nat)

def exec (state : State User) : Action User → Option (State User)
  | .putc user c idle =>
    if state.pc user = .out then some (state.uartputc user c idle) else none
  | .resume user idle =>
    match state.pc user with
    | .woken c => some (state.uartputc user c idle)
    | _ => none
  | .kill user => some { state with pc := update state.pc user (state.pc user).wakeup }
  | .intr idle => some (uartstart idle state)

def Step (before : State User) (action : Action User) (after : State User) : Prop :=
  before.exec action = some after

namespace Sound

theorem uartputc (sound : state.Sound) (user : User) (c : UInt8) (idle : Nat) :
    (state.uartputc user c idle).Sound := by
  unfold State.uartputc
  split_ifs with full
  · exact { sound with full := fun _ _ _ => full }
  · have room : span state.r state.w < UART_TX_BUF_SIZE := by
      refine lt_of_le_of_ne (contents_length _ _ ▸ sound.bounded) fun isFull => full ?_
      rw [← isFull, span_add]
    have push : (state.store user c).waiting = state.waiting ++ [c] :=
      contents_push (by decide) room (by decide) c
    refine (Sound.uartstart ⟨?_, ?_, fun other c' asleep => ?_⟩ idle).1
    · rw [push, ← append_assoc]
      exact congrArg (· ++ [c]) sound.fifo
    · rw [push, length_append, waiting, contents_length]
      exact room
    · -- while there is room nobody sleeps
      by_cases same : other = user
      · simp [store, same] at asleep
      · exact (full (sound.full other c' (by simpa [store, same] using asleep))).elim

theorem step {action : Action User} (sound : state.Sound) (stepped : state.Step action after) :
    after.Sound := by
  unfold Step at stepped
  cases action with
  | putc user c idle =>
    obtain ⟨-, ⟨⟩⟩ := Option.ite_none_right_eq_some.mp stepped
    exact sound.uartputc user c idle
  | resume user idle =>
    simp only [exec] at stepped
    split at stepped <;> cases stepped
    exact sound.uartputc user _ idle
  | kill user =>
    cases stepped
    refine { sound with full := fun other c asleep => ?_ }
    obtain rfl | same := eq_or_ne other user
    · exact (Pc.wakeup_ne _ _ (by simpa using asleep)).elim
    · exact sound.full other c (by simpa [same] using asleep)
  | intr idle =>
    cases stepped
    exact (sound.uartstart idle).1

end Sound

/-- In every interleaving the device is given what has been stored, in order: what it has not been
given yet is in the buffer.  A process sleeps only while the buffer is full, and once the device has
been idle as many times as the buffer has places, everything has been sent. -/
theorem uart_lossless {labels : List (Action User)} (run : Run Step {} labels state) :
    state.sent ++ state.waiting = state.put ∧ state.waiting.length ≤ UART_TX_BUF_SIZE ∧
      (∀ user c, state.pc user = .asleep c →
        state.w = state.r + BitVec.ofNat 64 UART_TX_BUF_SIZE) ∧
      (uartstart UART_TX_BUF_SIZE state).sent = state.put := by
  have boot : ({} : State User).Sound := ⟨by simp [waiting], by simp [waiting], by simp⟩
  have sound : state.Sound := run.invariant (fun _ _ _ sound => sound.step) boot
  obtain ⟨last, put, count⟩ := sound.uartstart UART_TX_BUF_SIZE
  rw [Nat.sub_eq_zero_of_le sound.bounded] at count
  have sent := last.fifo
  rw [eq_nil_of_length_eq_zero count, append_nil, put] at sent
  exact ⟨sound.fifo, sound.bounded, sound.full, sent⟩

/-- One process fills the buffer while the device is busy, and another has to sleep until the device
has taken two characters. -/
def overfull : List (Action Bool) :=
  (List.range UART_TX_BUF_SIZE).map (fun i => .putc false (UInt8.ofNat i) 0) ++
    [.putc true 32 0, .intr 2, .resume true 0]

theorem uart_lossless_overfull : ∃ state, Run Step {} overfull state ∧
    (state.sent = [0, 1] ∧ state.put = (List.range 33).map UInt8.ofNat) ∧
    (uartstart UART_TX_BUF_SIZE state).sent = state.put :=
  Run.exists_and_of_runAll (fun _ _ _ => id) (by decide +kernel) fun _ run _ =>
    (uart_lossless run).2.2.2

end State

end Xv6.Uart
