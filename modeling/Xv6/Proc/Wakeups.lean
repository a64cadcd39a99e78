import Xv6.Proc.Sleep

/-!
# No wakeup is lost

A process that has called `sleep(chan, lk)` is not left `SLEEPING` by a `wakeup(chan)` that another
process makes with `lk`: either it has released `lk` with its own `p->lock` in hand, so that the
loop of `wakeup` waits until it is `SLEEPING`, or it has been woken before.
-/

namespace Xv6.Sleep

open Function Transition Proc Pc

/-! ## The positions -/

namespace Pc

/-- The process has its own `p->lock`, or the scheduler has it for the process. -/
def locksSelf : Pc → Bool
  | .sleep .locked _ _ | .sleep .released _ _ | .sleep .marked _ _ => true
  | .sleep .back _ _ | .sleep .tidied _ _ => true
  | .yielding | .resumed => true
  | _ => false

/-- `p->chan`. -/
def chan : Pc → Option Chan
  | .sleep .marked chan _ | .sleep .out chan _ | .sleep .back chan _ => some chan
  | _ => none

/-- The process may be `SLEEPING`. -/
def maySleep : Pc → Bool
  | .sleep .marked _ _ | .sleep .out _ _ => true
  | _ => false

/-- The lock that `sleep` has not released yet. -/
def keeps : Pc → Option Lock
  | .sleep .entered _ lk | .sleep .locked _ lk => some lk
  | _ => none

/-- `SLEEPING` is still to come in this call of `sleep`. -/
def falling : Pc → Bool
  | .sleep .entered _ _ | .sleep .locked _ _ | .sleep .released _ _ => true
  | _ => false

end Pc

namespace Machine

variable {build : Scheduler} {machine after : Machine} {self slot : Slot} {action : Action}

/-- What a process and its fields have to do with its position. -/
structure Fits (machine : Machine) (slot : Slot) : Prop where
  plock : machine.plock slot = (machine.pc slot).locksSelf
  chan : (machine.table slot).chan = (machine.pc slot).chan
  state : (machine.table slot).state = .sleeping → (machine.pc slot).maySleep = true
  holder : ∀ lk ∈ (machine.pc slot).keeps, machine.holder lk = some slot

section Fields

variable (machine) (proc : Proc) (held : Bool) (lk : Lock) (holder : Option Slot) (pc : Pc)

@[simp] theorem set_table (query : Slot) : (machine.set slot proc).table query =
    if query = slot then proc else machine.table query :=
  update_apply ..

@[simp] theorem setPlock_plock (query : Slot) : (machine.setPlock slot held).plock query =
    if query = slot then held else machine.plock query :=
  update_apply ..

@[simp] theorem setHolder_holder (query : Lock) : (machine.setHolder lk holder).holder query =
    if query = lk then holder else machine.holder query :=
  update_apply ..

@[simp] theorem goto_pc (query : Slot) : (machine.goto slot pc).pc query =
    if query = slot then pc else machine.pc query :=
  update_apply ..

end Fields

/-! ## The other processes -/

/-- What a visit of `wakeup` or `kill` does to a process. -/
structure Visited (proc proc' : Proc) : Prop where
  chan : proc'.chan = proc.chan
  state : proc'.state = proc.state ∨ proc.state = .sleeping ∧ proc'.state = .runnable

theorem Visited.refl (proc : Proc) : Visited proc proc := ⟨rfl, Or.inl rfl⟩

theorem visited_wakeup (build : Scheduler) (ticks : UInt32) (chan : Chan) (proc : Proc) :
    Visited proc (proc.wakeup build ticks chan) := by
  refine ⟨wakeup_chan .., ?_⟩
  rw [wakeup_state]
  split_ifs with asleep
  · exact .inr ⟨asleep.1, rfl⟩
  · exact .inl rfl

theorem visited_kill (build : Scheduler) (ticks : UInt32) (proc : Proc) :
    Visited proc (proc.kill build ticks) := by
  refine ⟨kill_chan .., ?_⟩
  rw [kill_state]
  split_ifs with asleep
  · exact .inr ⟨asleep, rfl⟩
  · exact .inl rfl

/-- A process that does not act keeps its position, its `p->lock` and the locks it holds; it may be
visited if its `p->lock` is free. -/
structure Kept (machine after : Machine) (slot : Slot) : Prop where
  pc : after.pc slot = machine.pc slot
  plock : after.plock slot = machine.plock slot
  visited : Visited (machine.table slot) (after.table slot)
  locked : machine.plock slot = true → after.table slot = machine.table slot
  holder : ∀ lk, machine.holder lk = some slot → after.holder lk = some slot

theorem Change.other (change : Change build machine self action after) (fits : machine.Fits self)
    (other : slot ≠ self) : Kept machine after slot := by
  have inactive : ∀ next : Machine, next.pc slot = machine.pc slot →
      next.plock slot = machine.plock slot → next.table slot = machine.table slot →
      (∀ lk, machine.holder lk = some slot → next.holder lk = some slot) → Kept machine next slot :=
    fun next pc plock table holder => ⟨pc, plock, table ▸ .refl _, fun _ => table, holder⟩
  cases change with
  | acquire lk _ free =>
    refine inactive _ rfl rfl rfl fun query held => ?_
    have ne : query ≠ lk := by
      rintro rfl
      rw [free] at held
      cases held
    simpa [ne] using held
  | release lk _ holds =>
    refine inactive _ rfl rfl rfl fun query held => ?_
    have ne : query ≠ lk := by
      rintro rfl
      rw [holds] at held
      exact other (Option.some.inj held).symm
    simpa [ne] using held
  | unlock chan lk position =>
    refine inactive _ (by simp [other]) rfl rfl fun query held => ?_
    have holds : machine.holder lk = some self := fits.holder lk (by rw [position]; rfl)
    have ne : query ≠ lk := by
      rintro rfl
      rw [holds] at held
      exact other (Option.some.inj held).symm
    simpa [ne] using held
  | relock chan lk position free =>
    refine inactive _ (by simp [other]) rfl rfl fun query held => ?_
    have ne : query ≠ lk := by
      rintro rfl
      rw [free] at held
      cases held
    simpa [ne] using held
  | rouse chan target todo _ _ free =>
    refine ⟨by simp [other], rfl, ?_, fun locked => ?_, fun _ held => held⟩
    · by_cases same : slot = target
      · simpa [same] using visited_wakeup build machine.ticks chan _
      · simpa [same] using Visited.refl _
    · have ne : slot ≠ target := by
        rintro rfl
        rw [free] at locked
        cases locked
      simp [ne]
  | hit pid target todo _ free =>
    refine ⟨by simp [other], rfl, ?_, fun locked => ?_, fun _ held => held⟩
    · by_cases same : slot = target
      · simpa [same] using visited_kill build machine.ticks _
      · simpa [same] using Visited.refl _
    · have ne : slot ≠ target := by
        rintro rfl
        rw [free] at locked
        cases locked
      simp [ne]
  | tick => exact inactive _ rfl rfl rfl fun _ held => held
  | enter
  | wakeup
  | kill
  | yield
  | lock
  | mark
  | switch
  | tidy
  | finish
  | pass
  | wakeupDone
  | search
  | killDone
  | yielded
  | resumed
  | dispatch =>
    exact inactive _ (by simp [other]) (by simp [other]) (by simp [other]) fun _ held => held

/-! ## The invariant of the positions -/

theorem Fits.kept (fits : machine.Fits slot) (kept : Kept machine after slot) :
    after.Fits slot where
  plock := by rw [kept.plock, kept.pc, fits.plock]
  chan := by rw [kept.visited.chan, kept.pc, fits.chan]
  state := by
    intro asleep
    rw [kept.pc]
    rcases kept.visited.state with same | ⟨-, woken⟩
    · exact fits.state (same ▸ asleep)
    · rw [woken] at asleep
      cases asleep
  holder := by
    intro lk keeps
    rw [kept.pc] at keeps
    exact kept.holder lk (fits.holder lk keeps)

/-- The position that a process has come to. -/
theorem Fits.at (pc : Pc) (position : after.pc slot = pc) (plock : after.plock slot = pc.locksSelf)
    (chan : (after.table slot).chan = pc.chan)
    (state : (after.table slot).state = .sleeping → pc.maySleep = true)
    (holder : ∀ lk ∈ pc.keeps, after.holder lk = some slot) : after.Fits slot := by
  subst position
  exact ⟨plock, chan, state, holder⟩

/-- A process that may not sleep is not `SLEEPING`. -/
theorem Fits.awake (fits : machine.Fits slot) (wide : (machine.pc slot).maySleep = false) :
    (machine.table slot).state ≠ .sleeping := by
  intro asleep
  have may := fits.state asleep
  rw [wide] at may
  cases may

theorem Fits.acts (fits : machine.Fits self) (change : Change build machine self action after) :
    after.Fits self := by
  have plock := fits.plock
  have chan := fits.chan
  have state := fits.state
  cases change with
  | tick => exact ⟨plock, chan, state, fits.holder⟩
  | acquire lk outside
  | release lk outside =>
    rw [outside] at plock chan state
    exact .at .run outside plock chan state (by simp [keeps])
  | enter chan' lk outside held =>
    rw [outside] at plock chan state
    exact .at (.sleep .entered chan' lk) (by simp) plock chan state (by simpa [keeps] using held)
  | wakeup chan' outside =>
    rw [outside] at plock chan state
    exact .at (.wakeup chan' allSlots) (by simp) plock chan state (by simp [keeps])
  | kill pid outside =>
    rw [outside] at plock chan state
    exact .at (.kill pid allSlots) (by simp) plock chan state (by simp [keeps])
  | yield outside free =>
    rw [outside] at chan
    exact .at .yielding (by simp) (by simp [locksSelf]) (by simpa [yield, Pc.chan] using chan)
      (by simp [yield]) (by simp [keeps])
  | lock chan' lk position free =>
    have holder := fits.holder
    rw [position] at chan state holder
    exact .at (.sleep .locked chan' lk) (by simp) (by simp [locksSelf]) chan state holder
  | unlock chan' lk position =>
    rw [position] at plock chan state
    exact .at (.sleep .released chan' lk) (by simp) plock chan state (by simp [keeps])
  | mark chan' lk position =>
    rw [position] at plock
    exact .at (.sleep .marked chan' lk) (by simp) plock (by simp [Proc.sleep, Pc.chan])
      (by simp [maySleep]) (by simp [keeps])
  | switch chan' lk position =>
    rw [position] at chan state
    exact .at (.sleep .out chan' lk) (by simp) (by simp [locksSelf]) chan state
      (by simp [keeps])
  | tidy chan' lk position =>
    rw [position] at plock state
    exact .at (.sleep .tidied chan' lk) (by simp) plock (by simp [Pc.chan])
      (by simpa [maySleep] using state) (by simp [keeps])
  | finish chan' lk position =>
    rw [position] at chan state
    exact .at (.sleep .unlocked chan' lk) (by simp) (by simp [locksSelf]) chan state
      (by simp [keeps])
  | relock chan' lk position free =>
    rw [position] at plock chan state
    exact .at .run (by simp) plock chan state (by simp [keeps])
  | pass chan' todo position =>
    rw [position] at plock chan state
    exact .at (.wakeup chan' todo) (by simp) plock chan state (by simp [keeps])
  | search pid slot todo position =>
    rw [position] at plock chan state
    exact .at (.kill pid todo) (by simp) plock chan state (by simp [keeps])
  | wakeupDone chan' position
  | killDone pid position =>
    rw [position] at plock chan state
    exact .at .run (by simp) plock chan state (by simp [keeps])
  | rouse chan' slot todo position ne free =>
    rw [position] at plock chan state
    exact .at (.wakeup chan' todo) (by simp) plock (by simpa [ne.symm, Pc.chan] using chan)
      (by simpa [ne.symm, maySleep] using state) (by simp [keeps])
  | hit pid slot todo position free =>
    have awake := fits.awake (by rw [position]; rfl)
    rw [position] at plock chan
    refine .at .run (by simp) plock ?_ ?_ (by simp [keeps])
    · by_cases same : self = slot
      · simpa [← same, Pc.chan] using chan
      · simpa [same, Pc.chan] using chan
    · intro asleep
      by_cases same : self = slot
      · rw [← same] at asleep
        simp [kill_state, awake] at asleep
      · simp [same, awake] at asleep
  | yielded position =>
    rw [position] at chan state
    exact .at .yielded (by simp) (by simp [locksSelf]) chan state (by simp [keeps])
  | resumed position =>
    rw [position] at chan state
    exact .at .run (by simp) (by simp [locksSelf]) chan state (by simp [keeps])
  | dispatch pc free runnable paused =>
    have dispatched : ∀ next : Pc, next.locksSelf = true → next.chan = (machine.pc self).chan →
        next.keeps = none → (((machine.set self { machine.table self with
          state := .running }).setPlock self true).goto self next).Fits self := by
      intro next locks sameChan keeps
      exact .at next (by simp) (by simp [locks]) (by simp [sameChan, chan]) (by simp)
        (by simp [keeps])
    rcases paused with ⟨chan', lk, position, rfl⟩ | ⟨position, rfl⟩
    · exact dispatched _ rfl (by rw [position]; rfl) rfl
    · exact dispatched _ rfl (by rw [position]; rfl) rfl

theorem Fits.change (fits : ∀ slot, machine.Fits slot)
    (change : Change build machine self action after)
    (slot : Slot) : after.Fits slot := by
  by_cases same : slot = self
  · rw [same]
    exact (fits self).acts change
  · exact (fits slot).kept (change.other (fits self) same)

theorem boot_fits (used : Slot → Bool) (pid : Slot → Int) (ticks : UInt32) (slot : Slot) :
    (boot used pid ticks).Fits slot := by
  refine .at .yielded rfl rfl rfl (fun asleep => ?_) (by simp [keeps])
  simp only [boot] at asleep
  split_ifs at asleep

def Step (build : Scheduler) (before : Machine) (label : Slot × Action) (after : Machine) : Prop :=
  before.exec build label = some after

theorem Fits.run {used : Slot → Bool} {pid : Slot → Int} {ticks : UInt32}
    {labels : List (Slot × Action)} (run : Run (Step build) (boot used pid ticks) labels machine) :
    ∀ slot, machine.Fits slot := by
  have preserved : ∀ before label after, (∀ slot, before.Fits slot) →
      Step build before label after → ∀ slot, after.Fits slot :=
    fun _ _ _ fits taken => Fits.change fits (exec_change build taken)
  exact run.invariant preserved (boot_fits used pid ticks)

/-! ## A call of `sleep` and a `wakeup` -/

variable {waker : Slot} {chan : Chan} {stage : Stage}

/-- The call of `sleep` cannot make the process `SLEEPING` any more. -/
structure Past (machine : Machine) (slot : Slot) : Prop where
  awake : (machine.table slot).state ≠ .sleeping
  position : (machine.pc slot).falling = false

/-- The process has released `lk` in a call of `sleep` on a channel. -/
def Due (machine : Machine) (slot : Slot) (chan : Chan) : Prop :=
  ∃ lk, machine.pc slot = .sleep .released chan lk ∨ machine.pc slot = .sleep .marked chan lk ∨
    machine.pc slot = .sleep .out chan lk

/-- A `wakeup` under way has still to come to a process. -/
structure Serves (machine : Machine) (waker slot : Slot) (chan : Chan) : Prop where
  other : slot ≠ waker
  coming : ∃ todo, machine.pc waker = .wakeup chan todo ∧ slot ∈ todo
  due : machine.Due slot chan

theorem Past.kept (past : machine.Past slot) (kept : Kept machine after slot) :
    after.Past slot where
  awake := by
    rcases kept.visited.state with same | ⟨asleep, -⟩
    · rw [same]
      exact past.awake
    · exact absurd asleep past.awake
  position := by
    rw [kept.pc]
    exact past.position

theorem Past.acts (past : machine.Past self) (change : Change build machine self action after)
    (same : ∀ chan lk, action ≠ .sleep chan lk) : after.Past self := by
  have awake := past.awake
  have early := past.position
  cases change with
  | enter chan lk => exact absurd rfl (same chan lk)
  | lock chan lk position
  | unlock chan lk position
  | mark chan lk position =>
    rw [position] at early
    cases early
  | acquire
  | release
  | tick => exact ⟨awake, early⟩
  | yield => exact ⟨by simp [yield], by simp [falling]⟩
  | dispatch pc free runnable paused =>
    refine ⟨by simp, ?_⟩
    rcases paused with ⟨chan, lk, -, rfl⟩ | ⟨-, rfl⟩ <;> simp [falling]
  | wakeup
  | kill
  | switch
  | tidy
  | finish
  | relock
  | pass
  | wakeupDone
  | search
  | killDone
  | yielded
  | resumed => exact ⟨by simpa using awake, by simp [falling]⟩
  | rouse chan slot todo position ne => exact ⟨by simpa [ne.symm] using awake, by simp [falling]⟩
  | hit pid slot todo =>
    refine ⟨?_, by simp [falling]⟩
    by_cases hits : self = slot
    · simp [← hits, kill_state, awake]
    · simpa [hits] using awake

theorem Past.change (past : machine.Past slot) (fits : machine.Fits self)
    (change : Change build machine self action after)
    (same : ∀ chan lk, (self, action) ≠ (slot, .sleep chan lk)) : after.Past slot := by
  obtain rfl | acts := eq_or_ne slot self
  · exact past.acts change fun chan lk enters => same chan lk (by rw [enters])
  · exact past.kept (change.other fits acts)

theorem Due.acts (due : machine.Due self chan) (change : Change build machine self action after) :
    after.Due self chan ∨ after.Past self := by
  obtain ⟨lk, position⟩ := due
  cases change with
  | tick => exact .inl ⟨lk, position⟩
  | mark chan' lk' here =>
    simp only [here, Pc.sleep.injEq, reduceCtorEq, true_and, false_and, or_false] at position
    exact .inl ⟨lk', Or.inr (Or.inl (by simp [position.1]))⟩
  | switch chan' lk' here =>
    simp only [here, Pc.sleep.injEq, reduceCtorEq, true_and, false_and, or_false,
      false_or] at position
    exact .inl ⟨lk', Or.inr (Or.inr (by simp [position.1]))⟩
  | dispatch pc free runnable paused =>
    refine .inr ⟨by simp, ?_⟩
    rcases paused with ⟨chan', lk', -, rfl⟩ | ⟨-, rfl⟩ <;> simp [falling]
  | _ => simp_all

/-- The call goes on to sleep, or is over. -/
theorem Due.change (due : machine.Due slot chan) (fits : machine.Fits self)
    (change : Change build machine self action after) : after.Due slot chan ∨ after.Past slot := by
  obtain rfl | acts := eq_or_ne slot self
  · exact due.acts change
  · obtain ⟨lk, position⟩ := due
    rw [← (change.other fits acts).pc] at position
    exact .inl ⟨lk, position⟩

/-- The visit of a `wakeup` ends the call: the `p->lock` is free, so the process is switched out and
its `p->chan` is set. -/
theorem Due.roused (build : Scheduler) (due : machine.Due slot chan) (fits : machine.Fits slot)
    (free : machine.plock slot = false) :
    ((machine.table slot).wakeup build machine.ticks chan).state ≠ .sleeping ∧
      (machine.pc slot).falling = false := by
  obtain ⟨lk, position⟩ := due
  have locks := fits.plock
  have channel := fits.chan
  rw [free] at locks
  rcases position with position | position | position
  · rw [position] at locks
    cases locks
  · rw [position] at locks
    cases locks
  · rw [position] at channel ⊢
    refine ⟨?_, rfl⟩
    rw [wakeup_state]
    split_ifs with asleep
    · simp
    · exact fun still => asleep ⟨still, channel⟩

/-- A step of the process that is in `wakeup`. -/
theorem Serves.acts (serves : machine.Serves self slot chan) (fits : machine.Fits slot)
    (change : Change build machine self action after) :
    after.Serves self slot chan ∨ after.Past slot := by
  obtain ⟨other, ⟨todo, position, member⟩, due⟩ := serves
  have stays : ∀ next : Machine, next.pc slot = machine.pc slot → (∃ todo,
      next.pc self = .wakeup chan todo ∧ slot ∈ todo) → next.Serves self slot chan := by
    intro next same coming
    obtain ⟨lk, due⟩ := due
    exact ⟨other, coming, lk, by rwa [same]⟩
  cases change with
  | tick => exact .inl (stays _ rfl ⟨todo, position, member⟩)
  | pass chan' rest here =>
    rw [here, Pc.wakeup.injEq] at position
    obtain ⟨rfl, rfl⟩ := position
    refine .inl (stays _ (by simp [other]) ⟨rest, by simp, ?_⟩)
    simpa [other] using member
  | rouse chan' target rest here ne free =>
    rw [here, Pc.wakeup.injEq] at position
    obtain ⟨rfl, rfl⟩ := position
    obtain rfl | hits := eq_or_ne slot target
    · obtain ⟨awake, past⟩ := due.roused build fits free
      exact .inr ⟨by simpa using awake, by simpa [other] using past⟩
    · exact .inl (stays _ (by simp [other]) ⟨rest, by simp, by simpa [hits] using member⟩)
  | wakeupDone chan' here =>
    rw [here, Pc.wakeup.injEq] at position
    rw [← position.2] at member
    cases member
  | dispatch pc free runnable paused =>
      rcases paused with ⟨chan', lk', here, -⟩ | ⟨here, -⟩ <;> rw [here] at position <;>
        cases position
  | _ => simp_all

theorem Serves.change (serves : machine.Serves waker slot chan) (fits : ∀ slot, machine.Fits slot)
    (change : Change build machine self action after) :
    after.Serves waker slot chan ∨ after.Past slot := by
  obtain rfl | acts := eq_or_ne waker self
  · exact serves.acts (fits slot) change
  · obtain ⟨other, ⟨todo, position, member⟩, due⟩ := serves
    rw [← (change.other (fits self) acts).pc] at position
    exact (due.change (fits self) change).imp (⟨other, ⟨todo, position, member⟩, ·⟩) id

/-- A `wakeup` made with the lock that a call of `sleep` was given. -/
theorem Serves.starts (fits : ∀ slot, machine.Fits slot) {lk : Lock}
    (inside : machine.pc slot = .sleep stage chan lk) (holds : machine.holder lk = some waker)
    (other : slot ≠ waker) (change : Change build machine waker (.wakeup chan) after) :
    after.Serves waker slot chan ∨ after.Past slot := by
  cases change
  have unowned : lk ∉ (machine.pc slot).keeps := by
    intro keeps
    rw [(fits slot).holder lk keeps, Option.some.injEq] at holds
    exact other holds
  have serves : machine.Due slot chan →
      (machine.goto waker (.wakeup chan allSlots)).Serves waker slot chan := by
    rintro ⟨lk', due⟩
    exact ⟨other, ⟨allSlots, by simp, mem_allSlots slot⟩, lk', by simpa [other] using due⟩
  have past : (machine.pc slot).maySleep = false → (machine.pc slot).falling = false →
      (machine.goto waker (.wakeup chan allSlots)).Past slot := by
    intro wide early
    exact ⟨(fits slot).awake wide, by simpa [other] using early⟩
  rw [inside] at unowned
  cases stage with
  | entered
  | locked => exact absurd rfl unowned
  | released => exact .inl (serves ⟨lk, Or.inl inside⟩)
  | marked => exact .inl (serves ⟨lk, Or.inr (Or.inl inside)⟩)
  | out => exact .inl (serves ⟨lk, Or.inr (Or.inr inside)⟩)
  | back
  | tidied
  | unlocked => exact .inr (past (by rw [inside]; rfl) (by rw [inside]; rfl))

/-- `sleep` returns with `lk` held and `p->chan` cleared. -/
theorem Change.returns {lk : Lock} (fits : machine.Fits self)
    (change : Change build machine self action after)
    (inside : machine.pc self = .sleep stage chan lk) (outside : after.pc self = .run) :
    after.holder lk = some self ∧ (after.table self).chan = none := by
  refine ⟨?_, by rw [(fits.acts change).chan, outside]; rfl⟩
  cases change with
  | relock chan' lk' here =>
    rw [here, Pc.sleep.injEq] at inside
    simp [inside.2.2]
  | dispatch pc free runnable paused =>
    rcases paused with ⟨chan', lk', -, rfl⟩ | ⟨here, -⟩
    · simp at outside
    · rw [here] at inside
      cases inside
  | _ => simp_all

/-! ## Runs -/

variable {labels : List (Slot × Action)}

theorem Past.run (run : Run (Step build) machine labels after) (fits : ∀ slot, machine.Fits slot)
    (past : machine.Past slot) (same : ∀ chan lk, (slot, .sleep chan lk) ∉ labels) :
    after.Past slot := by
  have preserved : ∀ before label after, (∀ chan lk, label ≠ (slot, .sleep chan lk)) →
      ((∀ slot, before.Fits slot) ∧ before.Past slot) → Step build before label after →
      (∀ slot, after.Fits slot) ∧ after.Past slot := by
    rintro before ⟨self, action⟩ after admitted ⟨fits, past⟩ taken
    have change := exec_change build taken
    exact ⟨Fits.change fits change, past.change (fits self) change admitted⟩
  refine (run.invariantOn preserved (fun label member chan lk enters => ?_) ⟨fits, past⟩).2
  exact same chan lk (enters ▸ member)

/-- Until the `wakeup` returns it has still to come to the process, or the call of `sleep` is
past. -/
theorem Serves.run (run : Run (Step build) machine labels after) (fits : ∀ slot, machine.Fits slot)
    (call : machine.Serves waker slot chan ∨ machine.Past slot)
    (same : ∀ chan lk, (slot, .sleep chan lk) ∉ labels) :
    (∀ slot, after.Fits slot) ∧ (after.Serves waker slot chan ∨ after.Past slot) := by
  have preserved : ∀ before label after, (∀ chan lk, label ≠ (slot, .sleep chan lk)) →
      ((∀ slot, before.Fits slot) ∧ (before.Serves waker slot chan ∨ before.Past slot)) →
      Step build before label after →
      (∀ slot, after.Fits slot) ∧ (after.Serves waker slot chan ∨ after.Past slot) := by
    rintro before ⟨self, action⟩ after admitted ⟨fits, call⟩ taken
    have change := exec_change build taken
    refine ⟨Fits.change fits change, ?_⟩
    rcases call with serves | past
    · exact serves.change fits change
    · exact .inr (past.change (fits self) change admitted)
  refine run.invariantOn preserved (fun label member chan' lk enters => ?_) ⟨fits, call⟩
  exact same chan' lk (enters ▸ member)

/-- Let a process be in `sleep(chan, lk)` while another one, which holds `lk`, calls `wakeup(chan)`:
once the `wakeup` has returned, the process is not `SLEEPING` until it calls `sleep` again.  And
`sleep` returns with `lk` held and `p->chan` cleared. -/
theorem no_wakeup_lost (build : Scheduler) (used : Slot → Bool) (pid : Slot → Int) (ticks : UInt32)
    (labels : List (Slot × Action)) (machine : Machine)
    (run : Run (Step build) (boot used pid ticks) labels machine) :
    (∀ (slot waker : Slot) (stage : Stage) (chan : Chan) (lk : Lock)
        (started returned later : Machine)
      (first second : List (Slot × Action)), slot ≠ waker →
      machine.pc slot = .sleep stage chan lk → machine.holder lk = some waker →
      Step build machine (waker, .wakeup chan) started →
      Run (Step build) started first returned → returned.pc waker = .run →
      Run (Step build) returned second later →
      (∀ chan lk, (slot, .sleep chan lk) ∉ first ++ second) →
      (later.table slot).state ≠ .sleeping) ∧
    ∀ (self : Slot) (action : Action) (stage : Stage) (chan : Chan) (lk : Lock) (after : Machine),
      machine.pc self = .sleep stage chan lk → Step build machine (self, action) after →
      after.pc self = .run → after.holder lk = some self ∧ (after.table self).chan = none := by
  have fits := Fits.run run
  constructor
  · intro slot waker stage chan lk started returned later first second other inside holds called
      loop outside more same
    have change := exec_change build called
    obtain ⟨fitsReturned, call⟩ := Serves.run loop (Fits.change fits change)
      (Serves.starts fits inside holds other change)
      fun chan' lk' member => same chan' lk' (List.mem_append_left _ member)
    have past : returned.Past slot := by
      refine call.resolve_left fun serves => ?_
      obtain ⟨todo, position, -⟩ := serves.coming
      rw [outside] at position
      cases position
    exact (past.run more fitsReturned
      fun chan' lk' member => same chan' lk' (List.mem_append_right _ member)).awake
  · intro self action stage chan lk after inside taken outside
    exact (exec_change build taken).returns (fits self) inside outside

/-- One process is in `sleep` and has released the lock, which another one acquires. -/
def handOver : List (Slot × Action) :=
  [(0, .dispatch), (0, .proceed), (0, .acquire 7), (0, .sleep (.object 5) 7), (0, .proceed),
    (0, .proceed),
    (1, .dispatch), (1, .proceed), (1, .acquire 7)]

/-- The loop of `wakeup` cannot pass the process before it has switched out. -/
def wakeupLoop : List (Slot × Action) :=
  [(0, .proceed), (0, .proceed)] ++ List.replicate 65 (1, .proceed)

theorem no_wakeup_lost_handOver : ∃ machine started returned,
    Run (Step .default) (boot (fun slot => slot.val < 2) (fun _ => 1) 0) handOver machine ∧
    machine.pc 0 = .sleep .released (.object 5) 7 ∧
      Step .default machine (1, .wakeup (.object 5)) started ∧
    Run (Step .default) started wakeupLoop returned ∧ (returned.table 0).state ≠ .sleeping := by
  have performed : ∃ machine ∈ runAll (exec .default)
      (boot (fun slot => slot.val < 2) (fun _ => 1) 0) handOver,
      ∃ started ∈ machine.exec .default (1, .wakeup (.object 5)),
      ∃ returned ∈ runAll (exec .default) started wakeupLoop,
      machine.pc 0 = .sleep .released (.object 5) 7 ∧ machine.holder 7 = some 1 ∧
        returned.pc 1 = .run := by
    decide +kernel
  obtain ⟨machine, done, started, called, returned, loop, asleep, held, runs⟩ := performed
  have run : Run (Step .default) (boot (fun slot => slot.val < 2) (fun _ => 1) 0) handOver
    machine :=
    Run.of_runAll (fun _ _ _ taken => taken) done
  have looped : Run (Step .default) started wakeupLoop returned :=
    Run.of_runAll (fun _ _ _ taken => taken) loop
  exact ⟨machine, started, returned, run, asleep, called, looped,
    (no_wakeup_lost _ _ _ _ _ machine run).1 0 1 _ _ 7 started returned returned wakeupLoop []
      (by decide)
      asleep held called looped runs (.nil _) (by simp [wakeupLoop])⟩

end Machine

end Xv6.Sleep
