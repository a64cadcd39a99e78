import Xv6.Lib.Cyclic
import Xv6.Lib.Transition

/-!
# The console input

`consoleintr` edits a line in a circular buffer and commits it; `consoleread` takes committed bytes.
The three indices are never reduced to the size of the buffer.  The handler has `cons.lock` from its
beginning to its end and is one step; a reader gives the lock up when it sleeps, and may come back
at any time.  What is accepted from the keyboard and what is delivered to readers is written down.
-/

namespace Xv6.Console

abbrev INPUT_BUF_SIZE : Nat := 128

/-- `C('D')`, the end-of-file mark. -/
def ctrlD : UInt8 := 4

def newline : UInt8 := 10

/-- The buffer of `cons`. -/
structure Cons where
  buf : Nat → UInt8
  /-- Read, write and edit index. -/
  r : BitVec 32
  w : BitVec 32
  e : BitVec 32

/-- What the handler accepts: a character, which may fill the buffer, or an editing character. -/
inductive Key where
  | char (c : UInt8) (full : Bool)
  | erase
  | kill
  deriving DecidableEq, Repr

namespace Cons

variable (cons : Cons)

/-- The loop of kill-line, which stops at the write index if not before. -/
def killLine : Nat → BitVec 32 → BitVec 32
  | 0, e => e
  | fuel + 1, e =>
    if e ≠ cons.w ∧ cons.buf (Cyclic.place INPUT_BUF_SIZE (e - 1)) ≠ newline then
      killLine fuel (e - 1)
    else e

/-- The default case of `consoleintr` for a character that it accepts. -/
def put (c : UInt8) : Cons :=
  let cons := { cons with
    buf := Function.update cons.buf (Cyclic.place INPUT_BUF_SIZE cons.e) c
    e := cons.e + 1 }
  if c = newline ∨ c = ctrlD ∨ (cons.e - cons.r).toNat = INPUT_BUF_SIZE then
    { cons with w := cons.e }
  else cons

/-- What a character is for the handler. -/
def key (c : UInt8) : Option Key :=
  if c = 16 then none
  else if c = 21 then some .kill
  else if c = 8 ∨ c = 127 then some .erase
  else if c ≠ 0 ∧ (cons.e - cons.r).toNat < INPUT_BUF_SIZE then
    some (.char (if c = 13 then newline else c) ((cons.e + 1 - cons.r).toNat = INPUT_BUF_SIZE))
  else none

/-- The body of `consoleintr`. -/
def consoleintr (c : UInt8) : Cons :=
  match cons.key c with
  | none => cons
  | some .kill => { cons with e := cons.killLine (cons.e - cons.w).toNat cons.e }
  | some .erase => if cons.e ≠ cons.w then { cons with e := cons.e - 1 } else cons
  | some (.char c _) => cons.put c

/-- The byte that is read next. -/
def next : UInt8 := cons.buf (Cyclic.place INPUT_BUF_SIZE cons.r)

end Cons

/-- Where a reader is. -/
inductive Pc where
  /-- In no call; the last one returned a value. -/
  | idle (value : Int)
  | enter (n : Int)
  /-- At the test of the outer loop; `n` of `target` bytes are still wanted. -/
  | loop (target n : Int)
  | asleep (target n : Int)
  /-- About to release the lock and return. -/
  | leave (value : Int)
  deriving DecidableEq, Repr

/-- What readers get: a byte, or an end-of-file mark in a read that returns a value. -/
inductive Delivery where
  | byte (c : UInt8)
  | eof (value : Int)
  deriving DecidableEq, Repr

structure Terminal where
  cons : Cons
  holder : Option Nat
  pc : Nat → Pc
  keys : List Key
  delivered : List Delivery

inductive Action where
  /-- A character arrives. -/
  | key (c : UInt8)
  | read (self : Nat) (n : Int)
  /-- A reader makes a step; it finds itself killed or not, and a copy to its memory succeeds or
  not. -/
  | run (self : Nat) (killed copied : Bool)
  deriving DecidableEq, Repr

namespace Terminal

def goto (terminal : Terminal) (self : Nat) (pc : Pc) : Terminal :=
  { terminal with pc := Function.update terminal.pc self pc }

def acquire (terminal : Terminal) (self : Nat) (pc : Pc) : Option Terminal :=
  if terminal.holder = none then some { terminal.goto self pc with holder := some self } else none

def release (terminal : Terminal) (self : Nat) (pc : Pc) : Terminal :=
  { terminal.goto self pc with holder := none }

def take (terminal : Terminal) (delivered : List Delivery) : Terminal :=
  { terminal with
    cons := { terminal.cons with r := terminal.cons.r + 1 }
    delivered := terminal.delivered ++ delivered }

/-- A reader has taken a byte. -/
def consume (terminal : Terminal) (self : Nat) (target n : Int) (copied : Bool) : Terminal :=
  let c := terminal.cons.next
  if c = ctrlD then
    -- the mark stays for the next read unless this one is empty
    if n < target then terminal.goto self (.leave (target - n))
    else (terminal.take [.eof (target - n)]).goto self (.leave (target - n))
  else if copied = false then (terminal.take []).goto self (.leave (target - n))
  else
    (terminal.take [.byte c]).goto self
      (if c = newline then .leave (target - (n - 1)) else .loop target (n - 1))

def run (terminal : Terminal) (self : Nat) (killed copied : Bool) : Option Terminal :=
  match terminal.pc self with
  | .idle _ => none
  | .enter n => terminal.acquire self (.loop n n)
  | .loop target n =>
    if n ≤ 0 then some (terminal.goto self (.leave (target - n)))
    else if terminal.cons.r = terminal.cons.w then
      if killed then some (terminal.goto self (.leave (-1)))
      else some (terminal.release self (.asleep target n))
    else some (terminal.consume self target n copied)
  | .asleep target n => terminal.acquire self (.loop target n)
  | .leave value => some (terminal.release self (.idle value))

def exec (terminal : Terminal) : Action → Option Terminal
  | .key c =>
    if terminal.holder = none then
      some { terminal with
        cons := terminal.cons.consoleintr c
        keys := terminal.keys ++ (terminal.cons.key c).toList }
    else none
  | .read self n =>
    match terminal.pc self with
    | .idle _ => some (terminal.goto self (.enter n))
    | _ => none
  | .run self killed copied => terminal.run self killed copied

def Step (before : Terminal) (action : Action) (after : Terminal) : Prop :=
  before.exec action = some after

def boot : Terminal where
  cons := { buf := fun _ => 0, r := 0, w := 0, e := 0 }
  holder := none
  pc := fun _ => .idle 0
  keys := []
  delivered := []

end Terminal

end Xv6.Console
