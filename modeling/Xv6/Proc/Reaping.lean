import Xv6.Proc.LostChild

/-!
# Every child is waited for once

A record kept beside the kernel: when each process was made, and for each one that ceased to be
a `ZOMBIE`, which call did it, who was its parent then, and what the call returned.
-/

namespace Xv6.Family

open Transition Kernel List

/-- The value that a system call is about to return. -/
def Pc.value : Pc → Option Int
  | .stamp _ value | .ret value => some value
  | _ => none

/-- The version of `wait` whose loop the process is in. -/
def Pc.call : Pc → Option WaitKind
  | .scan kind _ _ => some kind
  | _ => none

/-- A process that ceased to be a `ZOMBIE`. -/
structure Reap where
  slot : Slot
  birth : Nat
  pid : Int
  /-- Its parent at that moment. -/
  parent : Option Slot
  /-- The process that made the step, and the call it was in. -/
  caller : Slot
  call : Option WaitKind
  /-- What the call returned, once it has. -/
  returned : Option Int
  deriving DecidableEq, Repr

namespace Reap

/-- A slot holds one process after the other; the time at which it was made tells them apart. -/
def process (reap : Reap) : Slot × Nat := (reap.slot, reap.birth)

/-- The caller returns to user mode. -/
def answer (self : Slot) (value : Option Int) (reap : Reap) : Reap :=
  if reap.caller = self ∧ reap.returned = none then { reap with returned := value } else reap

variable (self : Slot) (value : Option Int) (reap : Reap)

@[simp] theorem answer_process : (reap.answer self value).process = reap.process := by
  unfold answer
  split_ifs <;> rfl

@[simp] theorem answer_parent : (reap.answer self value).parent = reap.parent := by
  unfold answer
  split_ifs <;> rfl

@[simp] theorem answer_caller : (reap.answer self value).caller = reap.caller := by
  unfold answer
  split_ifs <;> rfl

@[simp] theorem answer_call : (reap.answer self value).call = reap.call := by
  unfold answer
  split_ifs <;> rfl

@[simp] theorem answer_pid : (reap.answer self value).pid = reap.pid := by
  unfold answer
  split_ifs <;> rfl

end Reap

/-- A kernel and the record. -/
structure Watched where
  kernel : Kernel
  clock : Nat
  birth : Slot → Nat
  reaps : List Reap

namespace Kernel

/-- The value with which a process returns to user mode in a step. -/
def returns (before after : Kernel) (self : Slot) : Option Int :=
  match before.pc self, after.pc self with
  | .ret value, .user => some value
  | _, _ => none

/-- The slots that cease to be `ZOMBIE` in a step. -/
def reaped (before after : Kernel) : List Slot :=
  allSlots.filter fun slot =>
    (before.table slot).state = .zombie ∧ (after.table slot).state ≠ .zombie

end Kernel

namespace Watched

/-- The record after a step of `self`. -/
def record (watched : Watched) (self : Slot) (after : Kernel) : Watched where
  kernel := after
  clock := watched.clock + 1
  birth := fun slot =>
    if (watched.kernel.table slot).state = .unused ∧ (after.table slot).state ≠ .unused then
      watched.clock
    else
      watched.birth slot
  reaps :=
    (watched.kernel.reaped after).map (fun slot =>
      { slot, birth := watched.birth slot, pid := (watched.kernel.table slot).pid,
        parent := (watched.kernel.table slot).parent, caller := self,
        call := (watched.kernel.pc self).call, returned := none }) ++
    watched.reaps.map (Reap.answer self (watched.kernel.returns after self))

variable (build : Scheduler)

def exec (watched : Watched) (label : Slot × Action) : Option Watched :=
  (watched.kernel.exec build label.1 label.2).map (watched.record label.1)

def Step (before : Watched) (label : Slot × Action) (after : Watched) : Prop :=
  before.exec build label = some after

def boot : Watched where
  kernel := .boot build
  clock := 1
  birth := fun _ => 0
  reaps := []

end Watched

namespace Kernel

variable {build : Scheduler} {kernel after : Kernel} {self slot : Slot}

/-! ## What a step does to a `ZOMBIE` -/

/-- A call of `wait` frees a child and will return its pid. -/
structure Frees (kernel : Kernel) (caller slot : Slot) (after : Kernel) : Prop where
  call : (kernel.pc caller).call.isSome
  parent : (kernel.table slot).parent = some caller
  unused : (after.table slot).state = .unused
  value : (after.pc caller).value = some (kernel.table slot).pid

theorem wakeOne_zombie {chan : Chan} {query : Slot} (zombie : (kernel.table slot).state = .zombie) :
    ((kernel.wakeOne build self chan query).table slot).state = .zombie := by
  unfold wakeOne
  split_ifs
  · exact zombie
  · rw [set_table]
    split_ifs with same
    · subst same
      simp [Proc.wakeup_state, zombie]
    · exact zombie

theorem Change.zombie (change : Change build kernel self after) (placed : kernel.Placed)
    (zombie : (kernel.table slot).state = .zombie) :
    (after.table slot).state = .zombie ∨ kernel.Frees self slot after := by
  have written : ∀ {query : Slot} {proc : Proc}, (kernel.table query).state ≠ .zombie →
      ((kernel.set query proc).table slot).state = .zombie := by
    intro query proc state
    have ne : slot ≠ query := by
      rintro rfl
      exact state zombie
    rw [set_table, if_neg ne]
    exact zombie
  cases change with
  | tick
  | plain next
  | acquire kind
  | pass kind
  | fail kind
  | leave
  | keep
  | turn
  | noParent => exact .inl zombie
  | touch query proc wakes =>
    left
    rw [set_table]
    split_ifs with same
    · subst same
      rcases wakes.state with state | ⟨asleep, -⟩
      · rw [state, zombie]
      · rw [zombie] at asleep
        cases asleep
    · exact zombie
  | dispatch runnable => exact .inl (written (by simp [runnable]))
  | pause proc running
  | doze kind havekids running
  | die parent running => exact .inl (written (by simp [running]))
  | stamp query pid =>
    left
    simp only [goto_table, set_table]
    split_ifs with same
    · rw [← same]
      exact zombie
    · exact zombie
  | fork child fits tickets running user unused =>
    left
    have ne : slot ≠ child := by
      rintro rfl
      rw [unused] at zombie
      cases zombie
    rw [goto_table, allocproc_table, if_neg ne]
    exact zombie
  | adopt child =>
    left
    rw [goto_table, setParent_state]
    exact zombie
  | start child running here =>
    have used := placed.newborn self child (by simp [here, Pc.child])
    exact .inl (written (by simp [used]))
  | free kind query todo havekids next running here child dead returns =>
    obtain rfl | same := eq_or_ne slot query
    · refine .inr ⟨by simp [here, Pc.call], child, ?_, ?_⟩
      · simp [set_table, Proc.free]
      · rw [goto_pc, if_pos rfl]
        rcases returns with rfl | rfl <;> rfl
    · left
      simp only [goto_table, setLock_table, set_table, if_neg same]
      exact zombie
  | give query =>
    left
    rw [goto_table, setParent_state]
    exact zombie
  | wakeInit query => exact .inl (wakeOne_zombie zombie)
  | wakeParent parent query => exact .inl (wakeOne_zombie zombie)

/-- The value that a call will return stays the same until it returns. -/
theorem Change.value (change : Change build kernel self after) (placed : kernel.Placed)
    {value : Int} (will : (kernel.pc slot).value = some value) :
    (after.pc slot).value = some value ∨ slot = self ∧ kernel.returns after self = some value := by
  have inside : Live (kernel.table slot).state := by
    apply (placed.at_slot slot).live
    · intro here
      rw [here] at will
      cases will
    · intro here
      rw [here] at will
      cases will
  have others : ∀ {middle : Kernel} {next : Pc}, middle.pc = kernel.pc →
      (slot = self → next.value = some value ∨
        kernel.returns (middle.goto self next) self = some value) →
      ((middle.goto self next).pc slot).value = some value ∨
        slot = self ∧ kernel.returns (middle.goto self next) self = some value := by
    intro middle next frame mine
    by_cases same : slot = self
    · rcases mine same with keeps | answers
      · subst same
        rw [goto_pc, if_pos rfl]
        exact .inl keeps
      · exact .inr ⟨same, answers⟩
    · rw [goto_pc_of_ne _ _ _ same, frame]
      exact .inl will
  have busy : ∀ {pc : Pc}, kernel.pc self = pc → pc.value = none → slot ≠ self := by
    rintro _ rfl nothing rfl
    rw [nothing] at will
    cases will
  cases change with
  | tick | touch | dispatch | pause => exact .inl will
  | plain next running before =>
    refine others rfl (fun same => Or.inr ?_)
    subst same
    rcases before with user | ⟨⟨value', here⟩, rfl⟩
    · rw [user] at will
      cases will
    · rw [here] at will
      cases will
      rw [returns, goto_pc, if_pos rfl, here]
  | stamp query pid running here =>
    refine others rfl (fun same => Or.inl ?_)
    rw [same, here] at will
    exact will
  | fork child fits tickets running user unused =>
    have ne : slot ≠ child := by
      rintro rfl
      rw [unused] at inside
      rcases inside with state | state | state <;> cases state
    rw [goto_pc_of_ne _ _ _ (busy user rfl), allocproc_pc, if_neg ne]
    exact .inl will
  | wakeInit query todo waking running here =>
    exact others (wakeOne_pc ..) (fun same => (busy here rfl same).elim)
  | wakeParent parent query todo running here =>
    exact others (wakeOne_pc ..) (fun same => (busy here rfl same).elim)
  | adopt child running here
  | start child running here
  | acquire kind running here
  | pass kind query todo havekids result running here
  | free kind query todo havekids next running here
  | fail kind todo havekids running here
  | doze kind havekids running here
  | leave running here
  | give query todo running here
  | keep query todo running here
  | turn running here
  | noParent query todo running here
  | die parent running here =>
    exact others rfl (fun same => (busy here rfl same).elim)

end Kernel

/-! ## The record -/

namespace Watched

variable {build : Scheduler} {watched after : Watched} {label : Slot × Action} {kernel : Kernel}

/-- The kernel is in order, no process that is in the table has been waited for, and each call
that freed a child was made by its parent and returns its pid. -/
structure Tallied (watched : Watched) : Prop where
  placed : watched.kernel.Placed
  kin : watched.kernel.Kin
  birth_lt : ∀ slot, watched.birth slot < watched.clock
  reap_lt : ∀ reap ∈ watched.reaps, reap.birth < watched.clock
  present : ∀ slot, (watched.kernel.table slot).state ≠ .unused →
    (slot, watched.birth slot) ∉ watched.reaps.map Reap.process
  nodup : (watched.reaps.map Reap.process).Nodup
  caller : ∀ reap ∈ watched.reaps, reap.parent = some reap.caller ∧ reap.call.isSome
  answer : ∀ reap ∈ watched.reaps, reap.returned = some reap.pid ∨
    reap.returned = none ∧ (watched.kernel.pc reap.caller).value = some reap.pid

theorem mem_reaped {before after : Kernel} {slot : Slot} : slot ∈ before.reaped after ↔
    (before.table slot).state = .zombie ∧ (after.table slot).state ≠ .zombie := by
  simp [reaped, mem_allSlots]

theorem record_processes (self : Slot) (kernel : Kernel) :
    (watched.record self kernel).reaps.map Reap.process =
      (watched.kernel.reaped kernel).map (fun slot => (slot, watched.birth slot)) ++
        watched.reaps.map Reap.process := by
  simp only [record, map_append, map_map]
  congr 1
  exact map_congr_left fun reap _ => Reap.answer_process ..

theorem mem_record {self : Slot} {reap : Reap} (member : reap ∈ (watched.record self kernel).reaps)
    :
    (reap.slot ∈ watched.kernel.reaped kernel ∧ reap.birth = watched.birth reap.slot ∧
      reap.pid = (watched.kernel.table reap.slot).pid ∧
      reap.parent = (watched.kernel.table reap.slot).parent ∧ reap.caller = self ∧
      reap.call = (watched.kernel.pc self).call ∧ reap.returned = none) ∨
    ∃ old ∈ watched.reaps, reap = old.answer self (watched.kernel.returns kernel self) := by
  rcases mem_append.mp member with new | old
  · obtain ⟨slot, reaped, rfl⟩ := mem_map.mp new
    exact .inl ⟨reaped, rfl, rfl, rfl, rfl, rfl, rfl⟩
  · obtain ⟨reap', kept, rfl⟩ := mem_map.mp old
    exact .inr ⟨reap', kept, rfl⟩

theorem Tallied.change {self : Slot} (tallied : watched.Tallied)
    (change : Kernel.Change build watched.kernel self kernel) :
    (watched.record self kernel).Tallied := by
  have frees : ∀ slot ∈ watched.kernel.reaped kernel, watched.kernel.Frees self slot kernel := by
    intro slot reaped
    obtain ⟨zombie, gone⟩ := mem_reaped.mp reaped
    exact (change.zombie tallied.placed zombie).resolve_left gone
  refine ⟨tallied.placed.change change, tallied.kin.change tallied.placed change, fun slot => ?_,
    fun reap member => ?_, fun slot used member => ?_, ?_, fun reap member => ?_,
    fun reap member => ?_⟩
  · have old := tallied.birth_lt slot
    simp only [record]
    split_ifs <;> omega
  · rcases mem_record member with ⟨-, birth, -⟩ | ⟨old, kept, rfl⟩
    · rw [birth]
      exact Nat.lt_succ_of_lt (tallied.birth_lt reap.slot)
    · have same : (old.answer self (watched.kernel.returns kernel self)).birth = old.birth :=
        congrArg Prod.snd (Reap.answer_process ..)
      rw [same]
      exact Nat.lt_succ_of_lt (tallied.reap_lt old kept)
  · rw [record_processes] at member
    rcases mem_append.mp member with new | old
    · obtain ⟨freed, reaped, same⟩ := mem_map.mp new
      have isFreed : freed = slot := congrArg Prod.fst same
      exact used (isFreed ▸ (frees freed reaped).unused)
    · simp only [record] at old used
      split_ifs at old with made
      · obtain ⟨reap, kept, same⟩ := mem_map.mp old
        have birth : reap.birth = watched.clock := congrArg Prod.snd same
        exact absurd (tallied.reap_lt reap kept) (by omega)
      · exact tallied.present slot (fun unused => made ⟨unused, used⟩) old
  · rw [record_processes, nodup_append]
    refine ⟨?_, tallied.nodup, ?_⟩
    · refine List.Nodup.map (fun first second same => congrArg Prod.fst same) ?_
      exact List.Nodup.filter _ (nodup_finRange NPROC)
    · rintro process new _ old rfl
      obtain ⟨slot, reaped, rfl⟩ := mem_map.mp new
      refine tallied.present slot (fun unused => ?_) old
      have zombie := (mem_reaped.mp reaped).1
      rw [unused] at zombie
      cases zombie
  · rcases mem_record member with ⟨reaped, -, -, parent, caller, call, -⟩ | ⟨old, kept, rfl⟩
    · have freed := frees reap.slot reaped
      rw [parent, caller, call]
      exact ⟨freed.parent, freed.call⟩
    · simpa using tallied.caller old kept
  · rcases mem_record member with ⟨reaped, -, pid, -, caller, -, returned⟩ | ⟨old, kept, rfl⟩
    · have freed := frees reap.slot reaped
      rw [pid, caller]
      exact .inr ⟨returned, freed.value⟩
    · rcases tallied.answer old kept with returned | ⟨pending, value⟩
      · left
        simp [Reap.answer, returned]
      · rw [Reap.answer_caller, Reap.answer_pid]
        rcases change.value tallied.placed value with keeps | ⟨mine, returns⟩
        · right
          refine ⟨?_, keeps⟩
          by_cases mine : old.caller = self
          · rw [mine] at keeps
            rw [Reap.answer, if_pos ⟨mine, pending⟩]
            unfold returns
            split
            next here => simp [here, Pc.value] at keeps
            next => rfl
          · rw [Reap.answer, if_neg fun both => mine both.1]
            exact pending
        · left
          rw [Reap.answer, if_pos ⟨mine, pending⟩]
          exact returns

theorem Tallied.step (tallied : watched.Tallied) (stepped : watched.Step build label after) :
    after.Tallied := by
  obtain ⟨kernel, taken, rfl⟩ := Option.map_eq_some_iff.mp stepped
  have change := step_change taken fun user =>
    tallied.placed.not_held (by simp [user, Pc.Holds])
  exact tallied.change change

theorem boot_parent (slot : Slot) : ((boot build).kernel.table slot).parent = none := by
  simp only [boot, Kernel.boot]
  split_ifs
  · cases build <;> rfl
  · rfl

theorem Tallied.boot : (boot build).Tallied where
  placed := .boot
  kin := by
    refine ⟨fun slot _ => boot_parent slot, fun child slot isParent => ?_, fun slot => trivial,
      fun slot child asleep isParent => ?_⟩
    · rw [boot_parent] at isParent
      cases isParent
    · rw [boot_parent] at isParent
      cases isParent
  birth_lt := fun _ => Nat.zero_lt_one
  reap_lt := nofun
  present := nofun
  nodup := .nil
  caller := nofun
  answer := nofun

/-- `exit` and `wait` lose no child: while `wait_lock` is free, every parent is a process that
has not exited, and no process sleeps in `wait` while it has a `ZOMBIE` child; and each process
that ceases to be a `ZOMBIE` does so once, by a call of `wait` or `waitx` that its parent of that
moment made and that returns its pid. -/
theorem loses_no_child {labels : List (Slot × Action)}
    (run : Run (Watched.Step build) (Watched.boot build) labels watched) :
    (watched.kernel.waitLock = none →
      (∀ child parent, (watched.kernel.table child).parent = some parent →
        (watched.kernel.table parent).state ≠ .unused ∧
          (watched.kernel.table parent).state ≠ .zombie) ∧
      ∀ slot child, watched.kernel.Waits slot →
        (watched.kernel.table child).parent = some slot →
        (watched.kernel.table child).state ≠ .zombie) ∧
    (watched.reaps.map Reap.process).Nodup ∧
    ∀ reap ∈ watched.reaps, reap.parent = some reap.caller ∧ reap.call.isSome ∧
      (reap.returned = some reap.pid ∨
        reap.returned = none ∧ (watched.kernel.pc reap.caller).value = some reap.pid) := by
  have tallied : watched.Tallied :=
    run.invariant (fun _ _ _ before stepped => before.step stepped) .boot
  refine ⟨fun free => ⟨fun child parent isParent => ?_,
    fun slot child asleep isParent zombie => ?_⟩,
    tallied.nodup, fun reap member => ?_⟩
  · rcases tallied.kin.parent child parent isParent with state | state | state <;> simp [state]
  · exact tallied.kin.awake tallied.placed (by simp [free]) asleep isParent zombie
  · obtain ⟨parent, call⟩ := tallied.caller reap member
    exact ⟨parent, call, tallied.answer reap member⟩

/-- The first process makes a child and sleeps in `wait`; the child exits. -/
def family : List (Slot × Action) :=
  ([(0, .dispatch), (0, .fork 1 true), (0, .proceed true), (0, .proceed true), (0, .proceed true),
    (0, .wait .wait)] : List (Slot × Action)) ++
  (List.replicate 66 (0, .proceed true) : List (Slot × Action)) ++
  ([(1, .dispatch), (1, .exit)] : List (Slot × Action)) ++
  (List.replicate 131 (1, .proceed true) : List (Slot × Action)) ++
  ([(0, .dispatch)] : List (Slot × Action)) ++
  (List.replicate 5 (0, .proceed true) : List (Slot × Action))

theorem loses_no_child_family : ∃ watched,
    Run (Watched.Step .default) (Watched.boot .default) family watched ∧
    watched.reaps = [⟨1, 2, 2, some 0, 0, some .wait, some 2⟩] ∧
    ∀ slot child, watched.kernel.Waits slot → (watched.kernel.table child).parent = some slot →
      (watched.kernel.table child).state ≠ .zombie := by
  have performed : ∃ watched, Run (Watched.Step .default) (Watched.boot .default) family watched ∧
      watched.reaps = [⟨1, 2, 2, some 0, 0, some .wait, some 2⟩] ∧
        watched.kernel.waitLock = none :=
    Run.exists_of_runAll (fun _ _ _ taken => taken) (by decide +kernel)
  obtain ⟨watched, run, reaps, free⟩ := performed
  exact ⟨watched, run, reaps, ((loses_no_child run).1 free).2⟩

end Watched

end Xv6.Family
