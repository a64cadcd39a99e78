import Xv6.Console.Cons

/-!
# The line discipline

A line that is edited and the bytes that are committed, as lists: this is what the keys are for.
The buffer holds the committed bytes that have not been read and behind them the line, and what has
been read is what was committed first.
-/

namespace Xv6.Console

open Function Transition Cyclic List

/-- The bytes that have been committed, and the line that is being edited. -/
structure Line where
  committed : List UInt8
  edit : List UInt8

namespace Line

def key (line : Line) : Key → Line
  | .char c full =>
    if c = newline ∨ c = ctrlD ∨ full = true then ⟨line.committed ++ (line.edit ++ [c]), []⟩
    else ⟨line.committed, line.edit ++ [c]⟩
  | .erase => ⟨line.committed, line.edit.dropLast⟩
  | .kill => ⟨line.committed, []⟩

/-- What the accepted keys produce. -/
def produced (keys : List Key) : Line := keys.foldl key ⟨[], []⟩

theorem produced_append (keys more : List Key) :
    produced (keys ++ more) = more.foldl key (produced keys) :=
  foldl_append

end Line

/-- The committed byte that a delivery is made of. -/
def Delivery.source : Delivery → UInt8
  | .byte c => c
  | .eof _ => ctrlD

namespace Cons

variable {cons : Cons}

/-- The committed bytes that have not been read. -/
def unread (cons : Cons) : List UInt8 := Cyclic.contents INPUT_BUF_SIZE cons.buf cons.r cons.w

/-- The line that is being edited. -/
def edited (cons : Cons) : List UInt8 := Cyclic.contents INPUT_BUF_SIZE cons.buf cons.w cons.e

/-- The three indices are in order, and the line is one line. -/
structure Sound (cons : Cons) : Prop where
  order : Cyclic.span cons.r cons.w ≤ Cyclic.span cons.r cons.e
  bound : Cyclic.span cons.r cons.e ≤ INPUT_BUF_SIZE
  plain : newline ∉ cons.edited

theorem Sound.edit_le (sound : cons.Sound) :
    span cons.w cons.e ≤ span cons.r cons.e := by
  have split : span cons.r cons.w + span cons.w cons.e = span cons.r cons.e :=
    span_split sound.order
  omega

/-! ## The handler -/

/-- Kill-line finds no newline in the line. -/
theorem killLine_eq (fuel : Nat) (e : BitVec 32) (enough : span cons.w e = fuel)
    (plain : newline ∉ contents INPUT_BUF_SIZE cons.buf cons.w e) :
    cons.killLine fuel e = cons.w := by
  induction fuel generalizing e with
  | zero => exact (span_eq_zero.mp enough).symm
  | succ fuel ih =>
    have more : cons.w ≠ e := by
      intro same
      rw [← same, span_self] at enough
      cases enough
    rw [contents_pred more, mem_append, mem_singleton, not_or] at plain
    rw [killLine, if_pos ⟨more.symm, fun same => plain.2 same.symm⟩]
    have shorter := span_pred more
    exact ih (e - 1) (by omega) plain.1

/-- What the handler does to the bytes: the committed ones stay, and the line is edited as the key
says. -/
structure Handles (cons after : Cons) (key : Option Key) : Prop where
  sound : after.Sound
  kept : Cyclic.contents INPUT_BUF_SIZE after.buf cons.r cons.w = cons.unread
  r : after.r = cons.r
  forward : Cyclic.span cons.r cons.w ≤ Cyclic.span cons.r after.w
  line : ∀ before, (key.toList.foldl Line.key ⟨before ++ cons.unread, cons.edited⟩) =
    ⟨before ++ after.unread, after.edited⟩

variable (sound : cons.Sound)
include sound

theorem Sound.nothing : cons.Handles cons none :=
  ⟨sound, rfl, rfl, le_rfl, fun _ => rfl⟩

theorem Sound.kill :
    cons.Handles { cons with e := cons.killLine (cons.e - cons.w).toNat cons.e } (some .kill) := by
  have all : cons.killLine (cons.e - cons.w).toNat cons.e = cons.w :=
    killLine_eq _ cons.e rfl sound.plain
  rw [all]
  have empty : edited { cons with e := cons.w } = [] := contents_self cons.w
  refine ⟨⟨le_rfl, sound.order.trans sound.bound, ?_⟩, rfl, rfl, le_rfl, fun before => ?_⟩
  · rw [empty]
    exact not_mem_nil
  · rw [empty]
    rfl

theorem Sound.erase :
    cons.Handles (if cons.e ≠ cons.w then { cons with e := cons.e - 1 } else cons)
      (some .erase) := by
  by_cases more : cons.w = cons.e
  · rw [if_neg (not_not.mpr more.symm)]
    have empty : cons.edited = [] := by
      rw [edited, more]
      exact contents_self _
    refine ⟨sound, rfl, rfl, le_rfl, fun before => ?_⟩
    rw [empty]
    rfl
  · rw [if_pos (Ne.symm more)]
    have last : cons.edited = edited { cons with e := cons.e - 1 } ++ [_] :=
      contents_pred more
    have split : span cons.r cons.w + span cons.w cons.e = span cons.r cons.e :=
      span_split sound.order
    have shorter := span_pred more
    have some : cons.r ≠ cons.e := by
      intro same
      have zero := span_eq_zero.mpr same
      omega
    have shorter' := span_pred some
    have bound := sound.bound
    refine ⟨⟨?_, ?_, ?_⟩, rfl, rfl, le_rfl, fun before => ?_⟩
    · change span cons.r cons.w ≤ span cons.r (cons.e - 1)
      omega
    · change span cons.r (cons.e - 1) ≤ INPUT_BUF_SIZE
      omega
    · intro member
      exact sound.plain (last ▸ mem_append_left _ member)
    · rw [last]
      simp [Line.key]
      rfl

theorem Sound.put (c : UInt8) (room : (cons.e - cons.r).toNat < INPUT_BUF_SIZE) :
    cons.Handles (cons.put c) (some (.char c ((cons.e + 1 - cons.r).toNat = INPUT_BUF_SIZE))) := by
  have wide : INPUT_BUF_SIZE < 2 ^ 32 := by decide
  have divides : INPUT_BUF_SIZE ∣ 2 ^ 32 := by decide
  have room' : span cons.r cons.e < INPUT_BUF_SIZE := room
  have longer : span cons.r (cons.e + 1) = span cons.r cons.e + 1 :=
    span_succ (by omega)
  have kept : contents INPUT_BUF_SIZE
      (update cons.buf (place INPUT_BUF_SIZE cons.e) c) cons.r cons.w = cons.unread :=
    contents_update_split divides sound.order room' c
  have pushed : contents INPUT_BUF_SIZE
      (update cons.buf (place INPUT_BUF_SIZE cons.e) c) cons.w (cons.e + 1) =
        cons.edited ++ [c] :=
    contents_push divides (lt_of_le_of_lt sound.edit_le room') wide c
  have order : span cons.r cons.w ≤ span cons.r (cons.e + 1) := by
    have before := sound.order
    omega
  unfold Cons.put
  simp only
  split_ifs with commits
  · have whole : unread { buf := update cons.buf (place INPUT_BUF_SIZE cons.e) c
                          r := cons.r, w := cons.e + 1, e := cons.e + 1 } =
        cons.unread ++ (cons.edited ++ [c]) := by
      rw [← kept, ← pushed]
      exact contents_split order
    have empty : edited { buf := update cons.buf (place INPUT_BUF_SIZE cons.e) c
                          r := cons.r, w := cons.e + 1, e := cons.e + 1 } = [] :=
      contents_self _
    refine ⟨⟨le_rfl, by simp only; omega, ?_⟩, kept, rfl, order, fun before => ?_⟩
    · rw [empty]
      exact not_mem_nil
    · change Line.key _ (.char c _) = _
      rw [whole, empty, Line.key, if_pos (by simpa only [decide_eq_true_eq] using commits),
        append_assoc]
  · have line : edited { buf := update cons.buf (place INPUT_BUF_SIZE cons.e) c
                         r := cons.r, w := cons.w, e := cons.e + 1 } = cons.edited ++ [c] := pushed
    have same : unread { buf := update cons.buf (place INPUT_BUF_SIZE cons.e) c
                         r := cons.r, w := cons.w, e := cons.e + 1 } = cons.unread := kept
    refine ⟨⟨order, by simp only; omega, ?_⟩, kept, rfl, le_rfl, fun before => ?_⟩
    · rw [line, mem_append, mem_singleton, not_or]
      exact ⟨sound.plain, fun same => commits (Or.inl same.symm)⟩
    · change Line.key _ (.char c _) = _
      rw [line, same, Line.key, if_neg (by simpa only [decide_eq_true_eq] using commits)]

theorem Sound.consoleintr (c : UInt8) : cons.Handles (cons.consoleintr c) (cons.key c) := by
  unfold Cons.consoleintr
  generalize found : cons.key c = key
  unfold Cons.key at found
  split_ifs at found with print kills erases accepted enters <;> subst found
  · exact sound.nothing
  · exact sound.kill
  · exact sound.erase
  · exact sound.put newline accepted.2
  · exact sound.put c accepted.2
  · exact sound.nothing

/-! ## The readers -/

theorem Sound.take (more : cons.r ≠ cons.w) : Sound { cons with r := cons.r + 1 } ∧
      cons.unread = cons.next :: unread { cons with r := cons.r + 1 } := by
  have first : cons.unread = cons.next :: unread { cons with r := cons.r + 1 } :=
    contents_pop more
  refine ⟨?_, first⟩
  have one : span cons.r (cons.r + 1) = 1 := by
    rw [span_succ (by rw [span_self]; decide), span_self]
  have positive : span cons.r cons.w ≠ 0 := fun zero => more (span_eq_zero.mp zero)
  have order := sound.order
  have bound := sound.bound
  have splitW : span cons.r (cons.r + 1) + span (cons.r + 1) cons.w =
      span cons.r cons.w := span_split (by omega)
  have splitE : span cons.r (cons.r + 1) + span (cons.r + 1) cons.e =
      span cons.r cons.e := span_split (by omega)
  refine ⟨?_, ?_, sound.plain⟩
  · change span (cons.r + 1) cons.w ≤ span (cons.r + 1) cons.e
    omega
  · change span (cons.r + 1) cons.e ≤ INPUT_BUF_SIZE
    omega

end Cons

namespace Terminal

variable {terminal after : Terminal} {action : Action} {self : Nat}

/-- The bytes that a reader in a call still wants are not more than it asked for. -/
def wants : Pc → Prop
  | .loop target n | .asleep target n => n ≤ target
  | _ => True

structure Inv (terminal : Terminal) : Prop where
  sound : terminal.cons.Sound
  line : Line.produced terminal.keys =
    ⟨terminal.delivered.map Delivery.source ++ terminal.cons.unread, terminal.cons.edited⟩
  eof : ∀ value, .eof value ∈ terminal.delivered → value = 0
  byte : ∀ c, .byte c ∈ terminal.delivered → c ≠ ctrlD
  wants : ∀ self, wants (terminal.pc self)

section

variable (inv : terminal.Inv) {pc : Pc}
include inv

theorem Inv.goto (want : Terminal.wants pc) : (terminal.goto self pc).Inv where
  __ := inv
  wants := by
    intro other
    obtain rfl | same := eq_or_ne other self
    · simpa [Terminal.goto] using want
    · simpa [Terminal.goto, same] using inv.wants other

theorem Inv.setHolder (holder : Option Nat) : Inv { terminal with holder := holder } :=
  { inv with }

theorem Inv.release (want : Terminal.wants pc) : (terminal.release self pc).Inv :=
  (inv.goto want).setHolder none

theorem Inv.acquire (want : Terminal.wants pc) (taken : terminal.acquire self pc = some after) :
    after.Inv := by
  unfold Terminal.acquire at taken
  split_ifs at taken
  cases taken
  exact (inv.goto want).setHolder _

/-- A byte goes to a reader. -/
theorem Inv.take (more : terminal.cons.r ≠ terminal.cons.w) {delivery : Delivery}
    (source : delivery.source = terminal.cons.next)
    (eof : ∀ value, delivery = .eof value → value = 0)
    (byte : ∀ c, delivery = .byte c → c ≠ ctrlD) : (terminal.take [delivery]).Inv := by
  obtain ⟨sound, first⟩ := inv.sound.take more
  refine ⟨sound, ?_, ?_, ?_, inv.wants⟩
  · rw [show (terminal.take [delivery]).keys = terminal.keys from rfl, inv.line, first, ← source]
    simp [Terminal.take, Cons.edited]
  · intro value member
    rcases mem_append.mp member with old | new
    · exact inv.eof value old
    · exact eof value (mem_singleton.mp new).symm
  · intro c member
    rcases mem_append.mp member with old | new
    · exact inv.byte c old
    · exact byte c (mem_singleton.mp new).symm

theorem Inv.consume (more : terminal.cons.r ≠ terminal.cons.w) {target n : Int}
    (want : n ≤ target) : (terminal.consume self target n true).Inv := by
  unfold Terminal.consume
  simp only [Bool.true_eq_false, if_false]
  by_cases mark : terminal.cons.next = ctrlD
  · rw [if_pos mark]
    split_ifs with partly
    · exact inv.goto trivial
    · have empty : ∀ value, Delivery.eof (target - n) = .eof value → value = 0 := by
        rintro value same
        cases same
        omega
      exact (inv.take more (show (Delivery.eof (target - n)).source = _ from mark.symm) empty
        nofun).goto trivial
  · rw [if_neg mark]
    have byte : ∀ c, Delivery.byte terminal.cons.next = .byte c → c ≠ ctrlD := by
      rintro c same
      cases same
      exact mark
    have taken := inv.take more (show (Delivery.byte terminal.cons.next).source = _ from rfl)
      nofun byte
    refine taken.goto ?_
    split_ifs
    · trivial
    · change n - 1 ≤ target
      omega

theorem Inv.run {killed : Bool} (taken : terminal.run self killed true = some after) :
    after.Inv := by
  have want := inv.wants self
  cases here : terminal.pc self with
  | idle value => simp [Terminal.run, here] at taken
  | enter n =>
    simp only [Terminal.run, here] at taken
    exact inv.acquire (show Terminal.wants (.loop n n) from le_rfl) taken
  | loop target n =>
    rw [here] at want
    simp only [Terminal.run, here] at taken
    split_ifs at taken with done empty <;> cases taken
    · exact inv.goto trivial
    · exact inv.goto trivial
    · exact inv.release (show Terminal.wants (.asleep target n) from want)
    · exact inv.consume empty want
  | asleep target n =>
    rw [here] at want
    simp only [Terminal.run, here] at taken
    exact inv.acquire (show Terminal.wants (.loop target n) from want) taken
  | leave value =>
    simp only [Terminal.run, here] at taken
    cases taken
    exact inv.release trivial

theorem Inv.key (c : UInt8) : Inv { terminal with
      cons := terminal.cons.consoleintr c
      keys := terminal.keys ++ (terminal.cons.key c).toList } := by
  have handles := inv.sound.consoleintr c
  refine ⟨handles.sound, ?_, inv.eof, inv.byte, inv.wants⟩
  rw [Line.produced_append, inv.line]
  exact handles.line _

theorem Inv.step (copied : ∀ self killed, action ≠ .run self killed false)
    (taken : Step terminal action after) : after.Inv := by
  cases action with
  | key c =>
    simp only [Step, exec] at taken
    split_ifs at taken
    cases taken
    exact inv.key c
  | read self n =>
    simp only [Step, exec] at taken
    split at taken
    case h_1 =>
      cases taken
      exact inv.goto trivial
    case h_2 => cases taken
  | run self killed ok =>
    cases ok with
    | true => exact inv.run taken
    | false => exact absurd rfl (copied self killed)

end

theorem boot_inv : boot.Inv where
  sound := ⟨le_rfl, by decide, by decide⟩
  line := rfl
  eof := nofun
  byte := nofun
  wants := fun _ => trivial

variable {labels : List Action}

/-- The line discipline of the console, if all copies to readers succeed: the indices are in order
and at most `INPUT_BUF_SIZE` apart, the handler leaves the committed bytes alone and does not take
them back, and what readers have got (an end-of-file mark in a read of length zero) and what is left
for them are the committed bytes that the accepted keys produce. -/
theorem line_discipline (run : Run Step boot labels terminal)
    (copied : ∀ self killed, .run self killed false ∉ labels) :
    (terminal.cons.w - terminal.cons.r).toNat ≤ (terminal.cons.e - terminal.cons.r).toNat ∧
    (terminal.cons.e - terminal.cons.r).toNat ≤ INPUT_BUF_SIZE ∧
    (∀ c, Cyclic.contents INPUT_BUF_SIZE (terminal.cons.consoleintr c).buf terminal.cons.r
        terminal.cons.w = terminal.cons.unread ∧
      (terminal.cons.consoleintr c).r = terminal.cons.r ∧
      (terminal.cons.w - terminal.cons.r).toNat ≤
        ((terminal.cons.consoleintr c).w - terminal.cons.r).toNat) ∧
    terminal.delivered.map Delivery.source ++ terminal.cons.unread =
      (Line.produced terminal.keys).committed ∧
    (∀ value, .eof value ∈ terminal.delivered → value = 0) ∧
    ∀ c, .byte c ∈ terminal.delivered → c ≠ ctrlD := by
  have preserved : ∀ before action after, (∀ self killed, action ≠ .run self killed false) →
      Inv before → Step before action after → Inv after :=
    fun before action after copied inv taken => inv.step copied taken
  have inv : terminal.Inv := run.invariantOn preserved
    (fun label member self killed same => copied self killed (same ▸ member)) boot_inv
  refine ⟨inv.sound.order, inv.sound.bound, fun c => ?_, by rw [inv.line], inv.eof, inv.byte⟩
  have handles := inv.sound.consoleintr c
  exact ⟨handles.kept, handles.r, handles.forward⟩

/-- "ab", backspace, "c", newline and an end-of-file mark are typed; a reader takes the line and
then finds the mark. -/
def typed : List Action :=
  ([.key 97, .key 98, .key 8, .key 99, .key 13, .key 4, .read 0 9] : List Action) ++
    (List.replicate 5 (.run 0 false true) : List Action) ++ ([.read 0 9] : List Action) ++
    (List.replicate 2 (.run 0 false true) : List Action)

theorem line_discipline_typed : ∃ terminal, Run Step boot typed terminal ∧
    terminal.delivered = [.byte 97, .byte 99, .byte 10, .eof 0] ∧
    terminal.delivered.map Delivery.source ++ terminal.cons.unread =
      (Line.produced terminal.keys).committed := by
  have performed : ∃ terminal, Run Step boot typed terminal ∧
      terminal.delivered = [.byte 97, .byte 99, .byte 10, .eof 0] :=
    Run.exists_of_runAll (fun _ _ _ taken => taken) (by decide +kernel)
  obtain ⟨terminal, run, record⟩ := performed
  exact ⟨terminal, run, record, (line_discipline run (by simp [typed])).2.2.2.1⟩

end Terminal

end Xv6.Console
