import Xv6.Pipe.Fifo
import Xv6.Proc.Attention

/-!
# Processes that sleep at a pipe

Readers sleep on `&pi->nread` while the pipe is empty and its write end open, writers on
`&pi->nwrite` while it is full and its read end open.  Every way out of the loops calls the `wakeup`
for what it has changed except one: `pipewrite` returns at once if its process is killed, also after
it has stored bytes.  If no `kill` hits a writer there while a reader sleeps, no sleeper is
forgotten.
-/

namespace Xv6.Pipes

open Function Sleep Transition

/-- Readers have reason to sleep. -/
def Pipe.Drained (pipe : Pipe) : Prop := pipe.nread = pipe.nwrite ∧ pipe.writeopen = true

/-- Writers have reason to sleep. -/
def Pipe.Filled (pipe : Pipe) : Prop :=
  pipe.nwrite = pipe.nread + BitVec.ofNat 32 PIPESIZE ∧ pipe.readopen = true

/-- The channel of a call of `sleep` that still has the lock. -/
def entering : Pc → Option Chan
  | .sleep .entered chan _ | .sleep .locked chan _ => some chan
  | _ => none

namespace System

/-! ## The condition -/

/-- The process that a step of the loop of `kill` hits. -/
def hits (machine : Sleep.Machine) (self victim : Slot) : Bool :=
  match machine.pc self with
  | .kill pid (slot :: _) => slot = victim ∧ (machine.table slot).pid = pid
  | _ => false

/-- The process is in the loop of `pipewrite` with more bytes to write, and it has stored bytes or
is going to before it looks at `p->killed` again. -/
def exposed (system : System) (slot : Slot) : Bool :=
  match system.machine.pc slot, system.call slot with
  | .run, .writeLoop n i => (i : Int) < n ∧ system.pipe.nread ≠ system.pipe.nwrite
  | .run, .writeStore n i => ((i + 1 : Nat) : Int) < n
  | _, _ => false

/-- `kill` does not hit an exposed writer while a reader sleeps. -/
def Spares (pi : Nat) (system : System) (label : Slot × Act) : Prop :=
  ¬ (label.2 = .kernel .proceed ∧ ∃ victim, hits system.machine label.1 victim = true ∧
    system.exposed victim = true ∧ ∃ slot, system.machine.Bound slot (nread pi))

instance (pi : Nat) (system : System) (label : Slot × Act) : Decidable (system.Spares pi label) :=
  inferInstanceAs (Decidable (¬ _))

variable {build : Scheduler} {pi : Nat} {system after : System} {self slot : Slot} {act : Act}

/-! ## The invariant -/

/-- `pipewrite` does not return from here before the next `wakeup(&pi->nread)`. -/
def Safe (system : System) (owner : Slot) (n : Int) (i : Nat) : Prop :=
  n ≤ i ∨ system.pipe.readopen = true ∧ (system.machine.table owner).killed = false

/-- The process is going to call `wakeup(&pi->nread)`. -/
def Writes (system : System) (owner : Slot) : Prop :=
  system.pipe.writeopen = true ∧
    ((∃ n i, system.call owner = .writeLoop n i ∧ system.Safe owner n i) ∨
      ∃ n i, system.call owner = .writeStore n i)

/-- The process is going to call `wakeup(&pi->nwrite)`. -/
def Reads (system : System) (owner : Slot) : Prop :=
  ∃ n i, system.call owner = .readCopy n i ∨ system.call owner = .readTake n i

structure Attentive (pi : Nat) (system : System) : Prop where
  readers : system.machine.Attended (lock pi) (nread pi) system.pipe.Drained system.Writes
  writers : system.machine.Attended (lock pi) (nwrite pi) system.pipe.Filled system.Reads
  store : ∀ slot owner n i, system.machine.Bound slot (nread pi) →
    system.call owner = .writeStore n i → system.Safe owner n (i + 1)
  full : ∀ slot n i, system.call slot = .writeFull n i → system.pipe.Filled
  drained : ∀ slot, entering (system.machine.pc slot) = some (nread pi) → system.pipe.Drained
  filled : ∀ slot, entering (system.machine.pc slot) = some (nwrite pi) → system.pipe.Filled

/-! ## Steps of the machine -/

variable {action : Action} {machine : Sleep.Machine}

theorem killed_change {machine after : Sleep.Machine}
    (change : Sleep.Machine.Change build machine self action after) (owner : Slot) :
    (after.table owner).killed = (machine.table owner).killed ∨
      action = .proceed ∧ hits machine self owner = true := by
  cases change with
  | hit pid target todo here free found =>
    obtain rfl | same := eq_or_ne owner target
    · exact .inr ⟨rfl, by simp [hits, here, found]⟩
    · exact .inl (by simp [same])
  | yield
  | mark
  | tidy
  | dispatch
  | rouse =>
    refine .inl ?_
    simp only [Sleep.Machine.goto_table, Sleep.Machine.setPlock_table, Sleep.Machine.set_table]
    split_ifs with same
    · simp [same, Proc.yield, Proc.sleep]
    · rfl
  | _ => exact .inl rfl

theorem entering_change {machine after : Sleep.Machine} {chan : Chan}
    (change : Sleep.Machine.Change build machine self action after)
    (enters : entering (after.pc self) = some chan) :
    entering (machine.pc self) = some chan ∨ ∃ lk, action = .sleep chan lk := by
  cases change with
  | enter chan' lk =>
    refine .inr ⟨lk, ?_⟩
    simp only [Sleep.Machine.goto_pc, if_true, entering, Option.some.injEq] at enters
    rw [enters]
  | lock chan' lk here =>
    rw [here]
    simpa [entering] using enters
  | acquire
  | release
  | tick => exact .inl enters
  | dispatch pc free runnable paused =>
    rcases paused with ⟨chan', lk', -, rfl⟩ | ⟨-, rfl⟩ <;> simp [entering] at enters
  | _ => simp [entering] at enters

/-- A process in the middle of a call makes no step of another kind. -/
theorem still {machine after : Sleep.Machine} {call : Call}
    (change : Sleep.Machine.Change build machine self action after) (inside : call.outside = false)
    (permitted : call.permits pi action = true) (running : machine.pc self = .run) :
    after.holder = machine.holder ∧ after.pc = machine.pc := by
  have limited := permits_inside inside permitted
  cases change with
  | tick => exact ⟨rfl, rfl⟩
  | dispatch pc free runnable paused =>
    rcases paused with ⟨chan, lk, here, -⟩ | ⟨here, -⟩ <;> simp [here] at running
  | _ => simp_all

/-- The owner of the lock stays where it is during a step of another kind. -/
theorem owner_kept {owner : Slot} (ordered : system.Ordered pi)
    (change : Sleep.Machine.Change build system.machine self action machine)
    (permitted : (system.call self).permits pi action = true)
    (inside : (system.call owner).outside = false)
    (owns : system.machine.holder (lock pi) = some owner) (running : system.machine.pc owner = .run)
    :
    machine.holder (lock pi) = some owner ∧ machine.pc owner = .run := by
  obtain rfl | acts := eq_or_ne owner self
  · obtain ⟨holder, pc⟩ := still change inside permitted running
    exact ⟨holder ▸ owns, pc ▸ running⟩
  · have kept := change.other (ordered.fits self) acts
    exact ⟨kept.holder _ owns, kept.pc.trans running⟩

theorem inside_of_entering (ordered : system.Ordered pi) {chan : Chan}
    (enters : entering (system.machine.pc slot) = some chan)
    (concerns : chan = nread pi ∨ chan = nwrite pi) :
    (system.call slot).outside = false ∧ dropped (system.machine.pc slot) = false := by
  have place := (ordered.placed slot).place
  generalize system.machine.pc slot = pc at enters place
  cases pc with
  | sleep stage chan' lk =>
    have same : chan' = chan := by cases stage <;> simp_all [entering]
    subst same
    refine ⟨?_, by cases stage <;> simp_all [entering, dropped]⟩
    generalize system.call slot = call at place
    cases call with
    | idle => exact absurd concerns (not_or.mpr place.2)
    | writeLoop
    | readWait => rfl
    | _ => cases place
  | _ => cases enters

theorem Attentive.kernel (attentive : system.Attentive pi) (ordered : system.Ordered pi)
    (spares : system.Spares pi (self, .kernel action))
    (permitted : (system.call self).permits pi action = true)
    (change : Sleep.Machine.Change build system.machine self action machine) :
    Attentive pi { system with machine := machine } := by
  -- the flag of a writer that matters is not set by a `kill`
  have killed : ∀ slot owner, system.machine.Bound slot (nread pi) → system.exposed owner = true →
      (machine.table owner).killed = (system.machine.table owner).killed := by
    intro slot owner bound exposed
    refine (killed_change change owner).resolve_right fun hit => spares ?_
    exact ⟨by rw [hit.1], owner, hit.2, exposed, slot, bound⟩
  have enters : ∀ chan slot, chan = nread pi ∨ chan = nwrite pi →
      entering (machine.pc slot) = some chan → entering (system.machine.pc slot) = some chan := by
    intro chan slot concerns enters
    obtain rfl | acts := eq_or_ne slot self
    · refine (entering_change change enters).resolve_right ?_
      rintro ⟨lk, rfl⟩
      generalize system.call slot = call at permitted
      cases call with
      | idle =>
        simp only [Call.permits, decide_eq_true_eq] at permitted
        exact not_or.mpr permitted.2 concerns
      | _ => cases permitted
    · rwa [(change.other (ordered.fits self) acts).pc] at enters
  refine ⟨?_, ?_, ?_, attentive.full, ?_, ?_⟩
  · refine attentive.readers.change ordered.fits change (fun lk here => ?_) ?_
    · exact attentive.drained self (by rw [here]; rfl)
    · rintro slot owner bound owns running ⟨writeopen, ⟨n, i, loops, safe⟩ | ⟨n, i, stores⟩⟩
      · obtain ⟨owns', running'⟩ :=
          owner_kept ordered change permitted (by rw [loops]; rfl) owns running
        have writes : Safe { system with machine := machine } owner n i →
            Writes { system with machine := machine } owner :=
          fun safe => ⟨writeopen, Or.inl ⟨n, i, loops, safe⟩⟩
        rcases safe with done | ⟨readopen, alive⟩
        · exact .inr ⟨owns', running', writes (Or.inl done)⟩
        · by_cases empty : system.pipe.nread = system.pipe.nwrite
          · exact .inl ⟨empty, writeopen⟩
          · refine .inr ⟨owns', running', writes ?_⟩
            by_cases more : (i : Int) < n
            · have exposed : system.exposed owner = true := by
                simp [exposed, running, loops, more, empty]
              exact .inr ⟨readopen, (killed slot owner bound exposed).trans alive⟩
            · exact .inl (not_lt.mp more)
      · obtain ⟨owns', running'⟩ :=
          owner_kept ordered change permitted (by rw [stores]; rfl) owns running
        exact .inr ⟨owns', running', writeopen, Or.inr ⟨n, i, stores⟩⟩
  · refine attentive.writers.change ordered.fits change (fun lk here => ?_) ?_
    · exact attentive.filled self (by rw [here]; rfl)
    · rintro slot owner bound owns running ⟨n, i, reads⟩
      have inside : (system.call owner).outside = false := by
        rcases reads with reads | reads <;> rw [reads] <;> rfl
      obtain ⟨owns, running⟩ := owner_kept ordered change permitted inside owns running
      exact .inr ⟨owns, running, n, i, reads⟩
  · intro slot owner n i bound (stores : system.call owner = .writeStore n i)
    have running := ordered.run_of_writeStore stores
    rcases bound.before (ordered.fits self) change with before | ⟨-, lk, here⟩
    · rcases attentive.store slot owner n i before stores with done | ⟨readopen, alive⟩
      · exact .inl done
      · by_cases more : ((i + 1 : Nat) : Int) < n
        · have exposed : system.exposed owner = true := by
            simpa [exposed, running, stores] using more
          exact .inr ⟨readopen, (killed slot owner before exposed).trans alive⟩
        · exact .inl (not_lt.mp more)
    · -- the sleeper and the owner would both have the lock
      obtain ⟨inside, held⟩ := inside_of_entering ordered
        (show entering (system.machine.pc slot) = some (nread pi) by rw [here]; rfl) (Or.inl rfl)
      have same := ordered.alone inside held (by rw [stores]; rfl) (by rw [running]; rfl)
      rw [same, here] at running
      cases running
  · exact fun slot entering => attentive.drained slot (enters _ slot (Or.inl rfl) entering)
  · exact fun slot entering => attentive.filled slot (enters _ slot (Or.inr rfl) entering)

/-! ## Steps of the calls -/

/-- No other process has the lock. -/
def Lone (system : System) (self : Slot) : Prop :=
  ∀ slot, slot ≠ self → (system.call slot).outside = false →
    dropped (system.machine.pc slot) = true

theorem Ordered.lone (ordered : system.Ordered pi)
    (free : system.machine.holder (lock pi) = none ∨ system.machine.holder (lock pi) = some self) :
    system.Lone self := by
  intro slot other inside
  by_contra held
  have owns := (ordered.placed slot).locked inside (Bool.eq_false_of_not_eq_true held)
  rcases free with free | free
  · rw [free] at owns
    cases owns
  · rw [free, Option.some.injEq] at owns
    exact other owns.symm

theorem held_of_writeFull (ordered : system.Ordered pi) {n : Int} {i : Nat}
    (full : system.call slot = .writeFull n i) : dropped (system.machine.pc slot) = false := by
  have place := (ordered.placed slot).place
  rw [full] at place
  generalize system.machine.pc slot = pc at place
  cases pc <;> first | rfl | cases place

section Steps

variable {call : Call} {machine : Sleep.Machine} {pipe : Pipe}

/-- It is enough to look at the process that makes a step of its call. -/
theorem Attentive.of_self (ordered : system.Ordered pi) (lone : system.Lone self)
    (others : ∀ slot, slot ≠ self → machine.pc slot = system.machine.pc slot)
    (readers : machine.Attended (lock pi) (nread pi) pipe.Drained
      (Writes ⟨machine, pipe, update system.call self call⟩))
    (writers : machine.Attended (lock pi) (nwrite pi) pipe.Filled
      (Reads ⟨machine, pipe, update system.call self call⟩))
    (store : ∀ n i, call = .writeStore n i →
      pipe.readopen = true ∧ (machine.table self).killed = false)
    (full : ∀ n i, call = .writeFull n i → pipe.Filled)
    (drained : entering (machine.pc self) = some (nread pi) → pipe.Drained)
    (filled : entering (machine.pc self) = some (nwrite pi) → pipe.Filled) :
    Attentive pi ⟨machine, pipe, update system.call self call⟩ := by
  have away : ∀ slot, slot ≠ self → (system.call slot).outside = false →
      dropped (system.machine.pc slot) = false → False := by
    intro slot other inside held
    rw [lone slot other inside] at held
    cases held
  have calls : ∀ slot, slot ≠ self →
      update system.call self call slot = system.call slot :=
    fun slot other => update_of_ne other _ _
  refine ⟨readers, writers, ?_, ?_, ?_, ?_⟩
  · intro slot owner n i bound stores
    obtain rfl | same := eq_or_ne owner self
    · exact .inr (store n i (by simpa using stores))
    · have stores' : system.call owner = .writeStore n i := (calls owner same).symm.trans stores
      have running := ordered.run_of_writeStore stores'
      exact (away owner same (by rw [stores']; rfl) (by rw [running]; rfl)).elim
  · intro slot n i fills
    obtain rfl | same := eq_or_ne slot self
    · exact full n i (by simpa using fills)
    · have fills' : system.call slot = .writeFull n i := (calls slot same).symm.trans fills
      exact (away slot same (by rw [fills']; rfl) (held_of_writeFull ordered fills')).elim
  · intro slot enters
    by_cases same : slot = self
    · exact drained (same ▸ enters)
    · have inside := inside_of_entering ordered ((others slot same) ▸ enters) (Or.inl rfl)
      exact (away slot same inside.1 inside.2).elim
  · intro slot enters
    by_cases same : slot = self
    · exact filled (same ▸ enters)
    · have inside := inside_of_entering ordered ((others slot same) ▸ enters) (Or.inr rfl)
      exact (away slot same inside.1 inside.2).elim

variable {user : Option UInt8} {call' : Call}

/-- A reader that sleeps while the owner of the lock is not in the loop of `pipewrite`. -/
theorem Attentive.drained_of (attentive : system.Attentive pi)
    (owns : system.machine.holder (lock pi) = some self) (running : system.machine.pc self = .run)
    (away : ∀ n i, system.call self ≠ .writeLoop n i ∧ system.call self ≠ .writeStore n i)
    (bound : system.machine.Bound slot (nread pi)) : system.pipe.Drained := by
  refine (attentive.readers.owned owns running bound).resolve_right ?_
  rintro ⟨-, ⟨n, i, loops, -⟩ | ⟨n, i, stores⟩⟩
  · exact (away n i).1 loops
  · exact (away n i).2 stores

/-- A writer that sleeps while the owner of the lock does not copy bytes out. -/
theorem Attentive.filled_of (attentive : system.Attentive pi)
    (owns : system.machine.holder (lock pi) = some self) (running : system.machine.pc self = .run)
    (away : ∀ n i, system.call self ≠ .readCopy n i ∧ system.call self ≠ .readTake n i)
    (bound : system.machine.Bound slot (nwrite pi)) : system.pipe.Filled := by
  refine (attentive.writers.owned owns running bound).resolve_right ?_
  rintro ⟨n, i, copies | takes⟩
  · exact (away n i).1 copies
  · exact (away n i).2 takes

/-- A step of a call that calls no function. -/
theorem Attentive.silent (attentive : system.Attentive pi) (ordered : system.Ordered pi)
    (tested : system.Tested) (running : system.machine.pc self = .run)
    (here : system.call self = call)
    (moves : Moves pi system.pipe (system.machine.table self).killed user call none pipe call') :
    Attentive pi ⟨system.machine, pipe, update system.call self call'⟩ := by
  have inside : (system.call self).outside = false := by
    rw [here]
    cases moves <;> rfl
  have owns := (ordered.placed self).locked inside (by rw [running]; rfl)
  suffices cares : (∀ slot, system.machine.Bound slot (nread pi) → pipe.Drained ∨
        Writes ⟨system.machine, pipe, update system.call self call'⟩ self) ∧
      (∀ slot, system.machine.Bound slot (nwrite pi) → pipe.Filled ∨
        Reads ⟨system.machine, pipe, update system.call self call'⟩ self) ∧
      (∀ n i, call' = .writeStore n i →
        pipe.readopen = true ∧ (system.machine.table self).killed = false) ∧
      ∀ n i, call' = .writeFull n i → pipe.Filled from
    .of_self ordered (ordered.lone (Or.inr owns)) (fun _ _ => rfl) (.of_owner owns running cares.1)
      (.of_owner owns running cares.2.1) cares.2.2.1 cares.2.2.2 (by rw [running]; nofun)
      (by rw [running]; nofun)
  cases moves with
  | writeRefuse n i more refused =>
    refine ⟨fun slot bound => ?_, fun slot bound => ?_, nofun, nofun⟩
    · refine (attentive.readers.owned owns running bound).imp id ?_
      rintro ⟨-, ⟨n', i', loops, safe⟩ | ⟨n', i', stores⟩⟩
      · rw [here] at loops
        cases loops
        rcases safe with done | ⟨readopen, alive⟩
        · omega
        · simp [readopen, alive] at refused
      · rw [here] at stores
        cases stores
    · exact .inl (attentive.filled_of owns running (by simp [here]) bound)
  | writeRoom n i room readopen alive =>
    refine ⟨fun slot bound => ?_, fun slot bound => ?_, fun _ _ _ => ⟨readopen, alive⟩, nofun⟩
    · refine (attentive.readers.owned owns running bound).imp id fun writes => ?_
      exact ⟨writes.1, Or.inr ⟨n, i, update_self ..⟩⟩
    · exact .inl (attentive.filled_of owns running (by simp [here]) bound)
  | store n i ch given =>
    refine ⟨fun slot bound => ?_, fun slot bound => ?_, nofun, nofun⟩
    · have writeopen : system.pipe.writeopen = true := by
        rcases attentive.readers.owned owns running bound with drained | writes
        · exact drained.2
        · exact writes.1
      have safe := attentive.store slot self n i bound here
      exact .inr ⟨writeopen, Or.inl ⟨n, i + 1, update_self .., safe⟩⟩
    · have filled := attentive.filled_of owns running (by simp [here]) bound
      exact absurd filled.1 (tested.room self n i here)
  | readRefuse n dead
  | readStart n =>
    refine ⟨fun slot bound => Or.inl ?_, fun slot bound => Or.inl ?_, nofun, nofun⟩
    · exact attentive.drained_of owns running (by simp [here]) bound
    · exact attentive.filled_of owns running (by simp [here]) bound
  | readMore n i filled =>
    refine ⟨fun slot bound => Or.inl ?_, fun slot bound => Or.inr ?_, nofun, nofun⟩
    · exact attentive.drained_of owns running (by simp [here]) bound
    · exact ⟨n, i, Or.inr (update_self ..)⟩
  | take n i given =>
    refine ⟨fun slot bound => ?_, fun slot bound => Or.inr ?_, nofun, nofun⟩
    · have drained := attentive.drained_of owns running (by simp [here]) bound
      exact absurd drained.1 (tested.filled self n i here)
    · exact ⟨n, i + 1, Or.inl (update_self ..)⟩

variable {action : Action}

/-- A step of a call that acquires the lock. -/
theorem Attentive.acquires (attentive : system.Attentive pi) (ordered : system.Ordered pi)
    (running : system.machine.pc self = .run)
    (change : Sleep.Machine.Change build system.machine self (.acquire (lock pi)) machine)
    (away : ∀ n i, call' ≠ .writeStore n i ∧ call' ≠ .writeFull n i) :
    Attentive pi ⟨machine, system.pipe, update system.call self call'⟩ := by
  have others : ∀ slot, slot ≠ self → machine.pc slot = system.machine.pc slot :=
    fun slot other => (change.other (ordered.fits self) other).pc
  have before := fun chan slot (bound : machine.Bound slot chan) =>
    (bound.of_call (ordered.fits self) running change).1
  cases change with
  | acquire _ _ free =>
    refine .of_self ordered (ordered.lone (Or.inl free)) others
      (.of_waits fun slot bound => attentive.readers.free free (before _ slot bound))
      (.of_waits fun slot bound => attentive.writers.free free (before _ slot bound))
      (fun n i same => absurd same (away n i).1) (fun n i same => absurd same (away n i).2) ?_ ?_
    · simp [running, entering]
    · simp [running, entering]

/-- A step of a call that calls `wakeup(&pi->nread)`. -/
theorem Attentive.wakesReaders (ordered : system.Ordered pi)
    (owns : system.machine.holder (lock pi) = some self) (running : system.machine.pc self = .run)
    (change : Sleep.Machine.Change build system.machine self (.wakeup (nread pi)) machine)
    (writers : ∀ slot, system.machine.Bound slot (nwrite pi) → pipe.Filled)
    (away : ∀ n i, call' ≠ .writeStore n i) (full : ∀ n i, call' = .writeFull n i → pipe.Filled) :
    Attentive pi ⟨machine, pipe, update system.call self call'⟩ := by
  refine .of_self ordered (ordered.lone (Or.inr owns))
    (fun slot other => (change.other (ordered.fits self) other).pc)
    (.of_wakeup owns (ordered.fits self) change)
    (.of_waits fun slot bound => writers slot (bound.of_call (ordered.fits self) running change).1)
    (fun n i same => absurd same (away n i)) full ?_ ?_
  all_goals
    cases change
    simp [entering]

/-- A step of a call that calls `wakeup(&pi->nwrite)`. -/
theorem Attentive.wakesWriters (ordered : system.Ordered pi)
    (owns : system.machine.holder (lock pi) = some self) (running : system.machine.pc self = .run)
    (change : Sleep.Machine.Change build system.machine self (.wakeup (nwrite pi)) machine)
    (readers : ∀ slot, system.machine.Bound slot (nread pi) → pipe.Drained)
    (away : ∀ n i, call' ≠ .writeStore n i ∧ call' ≠ .writeFull n i) :
    Attentive pi ⟨machine, pipe, update system.call self call'⟩ := by
  refine .of_self ordered (ordered.lone (Or.inr owns))
    (fun slot other => (change.other (ordered.fits self) other).pc)
    (.of_waits fun slot bound => readers slot (bound.of_call (ordered.fits self) running change).1)
    (.of_wakeup owns (ordered.fits self) change)
    (fun n i same => absurd same (away n i).1) (fun n i same => absurd same (away n i).2) ?_ ?_
  all_goals
    cases change
    simp [entering]

/-- A step of a call that gives the lock up. -/
theorem Attentive.leaves (attentive : system.Attentive pi) (ordered : system.Ordered pi)
    (owns : system.machine.holder (lock pi) = some self) (running : system.machine.pc self = .run)
    (here : system.call self = call)
    (change : Sleep.Machine.Change build system.machine self action machine)
    (idle : ∀ n i, call ≠ .writeLoop n i ∧ call ≠ .writeStore n i ∧ call ≠ .readCopy n i ∧
      call ≠ .readTake n i)
    (away : ∀ n i, call' ≠ .writeStore n i ∧ call' ≠ .writeFull n i)
    (drained : entering (machine.pc self) = some (nread pi) → system.pipe.Drained)
    (filled : entering (machine.pc self) = some (nwrite pi) → system.pipe.Filled) :
    Attentive pi ⟨machine, system.pipe, update system.call self call'⟩ := by
  refine .of_self ordered (ordered.lone (Or.inr owns))
    (fun slot other => (change.other (ordered.fits self) other).pc)
    (.of_waits fun slot bound => attentive.drained_of owns running ?_
      (bound.of_call (ordered.fits self) running change).1)
    (.of_waits fun slot bound => attentive.filled_of owns running ?_
      (bound.of_call (ordered.fits self) running change).1)
    (fun n i same => absurd same (away n i).1) (fun n i same => absurd same (away n i).2)
    drained filled
  · exact fun n i => ⟨here ▸ (idle n i).1, here ▸ (idle n i).2.1⟩
  · exact fun n i => ⟨here ▸ (idle n i).2.2.1, here ▸ (idle n i).2.2.2⟩

theorem nread_ne_nwrite (pi : Nat) : nread pi ≠ nwrite pi := by
  simp [nread, nwrite]

/-- A step of a call that calls a function. -/
theorem Attentive.calls (attentive : system.Attentive pi) (ordered : system.Ordered pi)
    (tested : system.Tested) (running : system.machine.pc self = .run)
    (here : system.call self = call)
    (moves : Moves pi system.pipe (system.machine.table self).killed user call (some action)
      pipe call')
    (change : Sleep.Machine.Change build system.machine self action machine) :
    Attentive pi ⟨machine, pipe, update system.call self call'⟩ := by
  have owns : call.outside = false → system.machine.holder (lock pi) = some self :=
    fun inside => (ordered.placed self).locked (here ▸ inside) (by rw [running]; rfl)
  cases moves with
  | writeAcquire
  | readAcquire
  | closeAcquire => exact attentive.acquires ordered running change (by simp)
  | writeFull n i full readopen =>
    refine .wakesReaders ordered (owns rfl) running change (fun slot bound => ?_) (by simp)
      fun _ _ _ => ⟨full, readopen⟩
    exact attentive.filled_of (owns rfl) running (by simp [here]) bound
  | writeDone
  | copyinFails =>
    refine .wakesReaders ordered (owns rfl) running change (fun slot bound => ?_) (by simp)
      (by simp)
    exact attentive.filled_of (owns rfl) running (by simp [here]) bound
  | writeSleep n i =>
    refine attentive.leaves ordered (owns rfl) running here change (by simp) (by simp) ?_ ?_
    · cases change
      simp [entering, (nread_ne_nwrite pi).symm]
    · exact fun _ => attentive.full self n i here
  | readSleep n empty writeopen =>
    refine attentive.leaves ordered (owns rfl) running here change (by simp) (by simp) ?_ ?_
    · exact fun _ => ⟨empty, writeopen⟩
    · cases change
      simp [entering, nread_ne_nwrite pi]
  | readDone n i =>
    refine .wakesWriters ordered (owns rfl) running change (fun slot bound => ?_) (by simp)
    exact attentive.drained_of (owns rfl) running (by simp [here]) bound
  | copyoutFails n i =>
    refine .wakesWriters ordered (owns rfl) running change (fun slot bound => ?_) (by simp)
    have drained := attentive.drained_of (owns rfl) running (by simp [here]) bound
    exact absurd drained.1 (tested.filled self n i here)
  | close writable =>
    cases writable with
    | true =>
      refine .wakesReaders ordered (owns rfl) running change (fun slot bound => ?_) (by simp)
        (by simp)
      exact attentive.filled_of (owns rfl) running (by simp [here]) bound
    | false =>
      refine .wakesWriters ordered (owns rfl) running change (fun slot bound => ?_) (by simp)
      exact attentive.drained_of (owns rfl) running (by simp [here]) bound
  | release value =>
    refine attentive.leaves ordered (owns rfl) running here change (by simp) (by simp) ?_ ?_
    all_goals
      cases change
      simp [running, entering]

/-- A call starts. -/
theorem Attentive.start (attentive : system.Attentive pi) (entry : Entry) {value : Int}
    (idle : system.call self = .idle value) :
    Attentive pi { system with call := update system.call self entry.call } := by
  have same : ∀ slot, system.call slot ≠ .idle value →
      update system.call self entry.call slot = system.call slot := by
    intro slot busy
    refine update_of_ne ?_ _ _
    rintro rfl
    exact busy idle
  have back : ∀ slot call, entry.call ≠ call →
      update system.call self entry.call slot = call → system.call slot = call := by
    intro slot call ne found
    obtain rfl | acts := eq_or_ne slot self
    · rw [update_self] at found
      exact absurd found ne
    · rwa [update_of_ne acts] at found
  refine ⟨attentive.readers.mono ?_, attentive.writers.mono ?_, ?_, ?_, attentive.drained,
    attentive.filled⟩
  · rintro owner ⟨writeopen, ⟨n, i, loops, safe⟩ | ⟨n, i, stores⟩⟩
    · refine ⟨writeopen, Or.inl ⟨n, i, ?_, safe⟩⟩
      exact (same owner (by simp [loops])).trans loops
    · exact ⟨writeopen, Or.inr ⟨n, i, (same owner (by simp [stores])).trans stores⟩⟩
  · rintro owner ⟨n, i, copies | takes⟩
    · exact ⟨n, i, Or.inl ((same owner (by simp [copies])).trans copies)⟩
    · exact ⟨n, i, Or.inr ((same owner (by simp [takes])).trans takes)⟩
  · intro slot owner n i bound stores
    exact attentive.store slot owner n i bound (back owner _ (by cases entry <;> nofun) stores)
  · intro slot n i full
    exact attentive.full slot n i (back slot _ (by cases entry <;> nofun) full)

end Steps

/-! ## Runs -/

structure Sound (pi : Nat) (system : System) : Prop where
  ordered : system.Ordered pi
  tested : system.Tested
  attentive : system.Attentive pi

theorem Sound.step (sound : system.Sound pi) (spares : system.Spares pi (self, act))
    (taken : Step build pi system (self, act) after) : after.Sound pi := by
  have change := exec_change taken
  refine ⟨sound.ordered.change change, sound.tested.change sound.ordered change, ?_⟩
  cases change with
  | start entry value running idle => exact sound.attentive.start entry idle
  | silent user pipe call call' running here moves =>
    exact sound.attentive.silent sound.ordered sound.tested running here moves
  | calls user action machine pipe call call' running here moves change =>
    exact sound.attentive.calls sound.ordered sound.tested running here moves change
  | kernel action machine permitted change =>
    exact sound.attentive.kernel sound.ordered spares permitted change

theorem boot_sound (pi : Nat) (used : Slot → Bool) (pid : Slot → Int) (ticks : UInt32)
    (data : Nat → UInt8) : (boot used pid ticks data).Sound pi where
  ordered := boot_ordered pi used pid ticks data
  tested := ⟨by rintro _ _ _ ⟨⟩, by rintro _ _ _ ⟨⟩⟩
  attentive := by
    have nobody : ∀ slot chan, ¬ (boot used pid ticks data).machine.Bound slot chan := by
      rintro slot chan ⟨⟨lk, due⟩, -⟩
      simp [boot, Sleep.Machine.boot] at due
    refine ⟨fun slot bound => (nobody slot _ bound).elim,
      fun slot bound => (nobody slot _ bound).elim,
      fun slot _ _ _ bound => (nobody slot _ bound).elim, ?_, ?_, ?_⟩
    · rintro _ _ _ ⟨⟩
    · rintro _ ⟨⟩
    · rintro _ ⟨⟩

variable {labels : List (Slot × Act)}

/-- While `pi->lock` is free, nobody is `SLEEPING` on `&pi->nread` unless the pipe is empty and its
write end open, nor on `&pi->nwrite` unless it is full and its read end open: if no `kill` hits an
exposed writer while a reader sleeps. -/
theorem no_sleeper_forgotten (used : Slot → Bool) (pid : Slot → Int) (ticks : UInt32)
    (data : Nat → UInt8)
    (run : Run (Guarded (Spares pi) (Step build pi)) (boot used pid ticks data) labels system)
    (free : system.machine.holder (lock pi) = none) (slot : Slot)
    (asleep : (system.machine.table slot).state = .sleeping) :
    ((system.machine.table slot).chan = some (nread pi) →
      (system.pipe.nwrite - system.pipe.nread).toNat = 0 ∧ system.pipe.writeopen = true) ∧
    ((system.machine.table slot).chan = some (nwrite pi) →
      (system.pipe.nwrite - system.pipe.nread).toNat = PIPESIZE ∧ system.pipe.readopen = true) := by
  have preserved : ∀ before label after, Sound pi before →
      Guarded (Spares pi) (Step build pi) before label after → Sound pi after :=
    fun before label after sound taken => sound.step taken.1 taken.2
  have sound := run.invariant preserved (boot_sound pi used pid ticks data)
  have fits := sound.ordered.fits slot
  refine ⟨fun reads => ?_, fun writes => ?_⟩
  · obtain ⟨empty, writeopen⟩ := sound.attentive.readers.free free (.of_sleeping fits asleep reads)
    exact ⟨by rw [empty, sub_self]; rfl, writeopen⟩
  · obtain ⟨full, readopen⟩ := sound.attentive.writers.free free (.of_sleeping fits asleep writes)
    exact ⟨by rw [full, add_sub_cancel_left]; rfl, readopen⟩

/-- A process sleeps in `piperead`. -/
def readerSleeps : List (Slot × Act) :=
  [(1, .kernel .dispatch), (1, .kernel .proceed), (1, .start (.piperead 4)), (1, .step none),
    (1, .step none)] ++ List.replicate 4 (1, .kernel .proceed)

/-- A process kills the one in the first slot. -/
def killFirst : List (Slot × Act) :=
  [(2, .kernel .dispatch), (2, .kernel .proceed), (2, .kernel (.kill 1)), (2, .kernel .proceed)]

/-- One process in each slot. -/
def everyone : System := boot (fun _ => true) (fun slot => slot.val + 1) 0 fun _ => 0

theorem no_sleeper_forgotten_killed : ∃ system,
    Run (Guarded (Spares 0) (Step .default 0)) everyone (readerSleeps ++ killFirst) system ∧
    (system.machine.table 0).killed = true ∧ (system.machine.table 1).state = .sleeping ∧
    (system.pipe.nwrite - system.pipe.nread).toNat = 0 ∧ system.pipe.writeopen = true := by
  have performed : ∃ system ∈ runAll (guardedExec (Spares 0) (exec .default 0)) everyone
      (readerSleeps ++ killFirst), system.machine.holder (lock 0) = none ∧
      (system.machine.table 0).killed = true ∧ (system.machine.table 1).state = .sleeping ∧
      (system.machine.table 1).chan = some (nread 0) := by
    decide +kernel
  obtain ⟨system, done, free, killed, asleep, chan⟩ := performed
  have run : Run (Guarded (Spares 0) (Step .default 0)) everyone (readerSleeps ++ killFirst)
    system :=
    Run.of_guardedExec (fun _ _ _ taken => taken) done
  exact ⟨system, run, killed, asleep,
    (no_sleeper_forgotten _ _ _ _ run free 1 asleep).1 chan⟩

/-- A writer is killed after the first of its two bytes: it returns without `wakeup(&pi->nread)`,
and the reader sleeps on although there is a byte in the pipe. -/
theorem reader_forgotten : ∃ system,
    Run (Step .default 0) everyone (readerSleeps ++
      [(0, .kernel .dispatch), (0, .kernel .proceed), (0, .start (.pipewrite 2)), (0, .step none),
        (0, .step none), (0, .step (some 5))] ++ killFirst ++ [(0, .step none), (0, .step none)])
      system ∧
    system.machine.holder (lock 0) = none ∧ (system.machine.table 1).state = .sleeping ∧
    (system.machine.table 1).chan = some (nread 0) ∧
    (system.pipe.nwrite - system.pipe.nread).toNat = 1 ∧ system.call 0 = .idle (-1) := by
  exact Run.exists_of_runAll (fun _ _ _ taken => taken) (by decide +kernel)

end System

end Xv6.Pipes
