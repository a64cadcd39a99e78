import Xv6.Vm.SpaceView

/-!
# Copy-on-write `fork` and eager copying

The machine with copy-on-write, seen through `System.view`, takes the steps of the
reference kernel as long as no allocation fails, no store and no `copyout` goes to a
shared page that is not copied first, and `usertrap` resolves exactly the faults on
pages that were made writable.
-/

namespace Xv6.Vm

open Function Transition

variable {layout : Layout} {mem : Mem} {space : Space}

/-- Reading is the same on both sides. -/
theorem Space.load_view (wf : space.table.WellFormed) (serves : space.table.Every Serves)
    (va : Nat) : (space.view mem).load va = space.load va mem := by
  unfold Eager.Space.load Space.load translate
  by_cases maxva : va < MAXVA
  · simp only [view, maxva, true_and, if_true, wf.lookup_eq]
    by_cases below : va / PGSIZE < TRAPFRAME
    · rw [PageTable.view_below below]
      cases found : space.table.leaves.find (va / PGSIZE) with
      | none => simp
      | some pte =>
        have here := serves _ _ below found
        simp [here.user, here.readable.1, here.readable.2, ite_and]
    · rw [PageTable.view_top (not_lt.mp below)]
      cases found : space.table.leaves.find (va / PGSIZE) with
      | none => simp
      | some pte => simp [wf.top _ pte (not_lt.mp below) found]
  · simp [maxva]

namespace System

variable {system after : System} {slot : Slot} {space : Option Space} {own own' : Frame → ℤ}

/-- The processes as the reference kernel sees them. -/
def view (system : System) : Eager.System :=
  fun slot => (system.space slot).map fun space => space.view system.mem

/-- The byte a process reads at an address. -/
def load (system : System) (slot : Slot) (va : Nat) : Option UInt8 :=
  (system.space slot).bind fun space => space.load va system.mem

theorem load_view (safe : system.Safe layout) (serves : system.Every Serves) (slot : Slot)
    (va : Nat) : system.view.load slot va = system.load slot va := by
  unfold Eager.System.load view load
  cases occupied : system.space slot with
  | none => rfl
  | some space =>
    exact Space.load_view (safe.wellFormed slot space occupied).table
      (serves slot space occupied) va

/-! ## One operation -/

/-- An operation on one address space leaves the others as they are. -/
theorem view_put (moves : Moves layout (system.others slot) system.mem own mem own') :
    (system.put slot space mem).view =
      update system.view slot (space.map fun space => space.view mem) := by
  funext other
  obtain rfl | same := eq_or_ne other slot
  · simp [view, put]
  · rw [update_of_ne same]
    simp only [view, put, update_of_ne same]
    cases occupied : system.space other with
    | none => rfl
    | some space => simp [Space.view_held (heldBy_others same occupied) moves.page]

/-- The kernel takes or gives back pages of its own. -/
theorem view_held {held : List Frame}
    (page : ∀ frame, 0 < (∑ slot, system.slotRefs slot) frame →
      mem.page frame = system.mem.page frame) :
    ({ system with mem, held } : System).view = system.view := by
  funext slot
  simp only [view]
  cases occupied : system.space slot with
  | none => rfl
  | some space => simp [Space.view_held (heldBy_sum (Finset.mem_univ slot) occupied) page]

theorem view_running (slot : Slot) : ((system.view slot).filter fun space => !space.killed) =
      (system.running slot).map fun space => space.view system.mem := by
  simp only [view, running]
  cases system.space slot with
  | none => rfl
  | some space =>
    simp only [Option.map_some, Option.filter_some, Space.view]
    split_ifs <;> rfl

/-- The references of the kernel itself. -/
theorem Safe.kernelPart (safe : system.Safe layout) :
    Good layout (∑ slot, system.slotRefs slot) system.mem (listRefs system.held) := by
  have split : system.refs = listRefs system.held + ∑ slot, system.slotRefs slot := add_comm _ _
  have part := (split ▸ safe.good).part (listRefs_nonneg _) system.sum_nonneg
  rwa [zero_add] at part

variable (system) in
/-- A store or `copyout` of the action does what the reference kernel does. -/
def Isolated (action : Action) : Prop :=
  match action.op with
  | .store slot va _ sp => ∀ space ∈ system.running slot, space.StoreIsolated va sp system.mem
  | .copyout slot dstva _ => ∀ space ∈ system.space slot, space.CopyoutIsolated dstva system.mem
  | _ => True

instance (action : Action) : Decidable (system.Isolated action) :=
  match action with
  | ⟨.store _ _ _ _, _⟩ | ⟨.copyout _ _ _, _⟩ => inferInstanceAs (Decidable (∀ space ∈ _, _))
  | ⟨.kalloc, _⟩ | ⟨.kfree _, _⟩ | ⟨.userinit _ _, _⟩ | ⟨.fork _ _, _⟩ | ⟨.exec _ _ _, _⟩
  | ⟨.growproc _ _, _⟩ | ⟨.freeproc _, _⟩ => inferInstanceAs (Decidable True)

/-- The reference kernel takes the same step. -/
structure Refines (system : System) (op : Op) (after : System) : Prop where
  succeeded : system.mem.failed = false
  perform : system.view.perform op = some after.view

theorem Refines.put {op : Op} (moves : Moves layout (system.others slot) system.mem own mem own')
    (succeeded : mem.failed = false) (perform : system.view.perform op =
      some (update system.view slot (space.map fun space => space.view mem))) :
    Refines system op (system.put slot space mem) :=
  ⟨moves.succeeded succeeded, by rw [view_put moves, perform]⟩

theorem view_of_space (found : system.space slot = space) :
    system.view slot = space.map fun space => space.view system.mem := by
  rw [view, found]

section

variable (safe : system.Safe layout)
include safe

/-- Every operation is a step of the reference kernel. -/
theorem Safe.refines {op : Op} {fails : List Bool} (serves : system.Every Serves)
    (isolated : system.Isolated ⟨op, fails⟩) (done : system.perform layout op = some after)
    (succeeded : after.mem.failed = false) : Refines system op after := by
  cases performed done with
  | refused refused =>
    rw [Mem.kalloc_none refused] at succeeded
    cases succeeded
  | kalloc allocated =>
    have keeps := safe.kernelPart.kalloc_some allocated
    refine ⟨keeps.succeeded succeeded, ?_⟩
    rw [view_held keeps.page]
    rfl
  | @kfree frame _ member freed =>
    have counted : 1 ≤ listRefs system.held frame := by
      unfold listRefs
      exact_mod_cast List.count_pos_iff.mpr member
    have keeps := safe.kernelPart.kfree counted freed
    refine ⟨keeps.succeeded succeeded, ?_⟩
    rw [view_held keeps.page]
    rfl
  | userinit empty made =>
    have part := (safe.part_empty empty).1
    refine .put (part.userinit made).1.toMoves succeeded ?_
    simp [Eager.System.perform, view_of_space empty, part.view_userinit made]
  | @fork _ _ _ made mem running occupied empty ne forked =>
    have part := (safe.part_empty empty).1
    have held := heldBy_others ne occupied
    have wf := safe.wellFormed _ _ occupied
    obtain ⟨success, failure⟩ := part.fork wf held forked
    cases made with
    | none =>
      have failed : mem.failed = true := (failure rfl).1
      simp [failed] at succeeded
    | some made =>
      refine .put (success made rfl).2.toMoves succeeded ?_
      simp [Eager.System.perform, view_running, running, view_of_space empty,
        part.view_fork wf held forked]
  | exec running occupied executed =>
    have part := safe.occupiedPart occupied
    refine .put (part.exec (safe.wellFormed _ _ occupied) executed).1.toMoves succeeded ?_
    simp [Eager.System.perform, view_running, running, part.view_exec executed succeeded]
  | growproc running occupied grew =>
    have part := safe.occupiedPart occupied
    have wf := safe.wellFormed _ _ occupied
    refine .put (part.growproc wf grew).1.toMoves succeeded ?_
    simp [Eager.System.perform, view_running, running,
      part.view_growproc wf grew succeeded]
  | store running occupied stored =>
    have follows := (safe.occupiedPart occupied).store_follows (safe.wellFormed _ _ occupied)
      (serves _ _ occupied) (isolated _ running) stored succeeded
    refine .put follows.moves succeeded ?_
    simp [Eager.System.perform, view_running, running, follows.view]
  | copyout occupied copy =>
    have follows := (safe.occupiedPart occupied).copyout_follows (safe.wellFormed _ _ occupied)
      (serves _ _ occupied) (isolated _ occupied) copy succeeded
    refine .put follows.moves succeeded ?_
    simp [Eager.System.perform, view_of_space occupied, follows.view]
  | freeproc occupied freed =>
    refine .put ((safe.occupiedPart occupied).freeproc freed).toMoves succeeded ?_
    simp [Eager.System.perform, view_of_space occupied]

/-! ## Whole runs -/

end

theorem Isolated.withFails {action : Action} (isolated : system.Isolated action)
    (fails : List Bool) : (system.withFails fails).Isolated action := by
  obtain ⟨op, others⟩ := action
  cases op <;> exact isolated

theorem Safe.refines_step {action : Action} (safe : system.Safe layout)
    (serves : system.Every Serves) (isolated : system.Isolated action)
    (stepped : Step layout system action after) (succeeded : after.mem.failed = false) :
    Refines system action.op after := by
  have refines := (safe.withFails action.fails).refines serves
    (isolated.withFails action.fails) stepped succeeded
  exact ⟨refines.succeeded, refines.perform⟩

end System

/-- What holds of the actions so far and the state they led to. -/
structure Simulated (layout : Layout) (actions : List Action) (system : System) : Prop where
  safe : system.Safe layout
  serves : system.Every Serves
  simulated : system.mem.failed = false →
    runAll Eager.System.perform Eager.System.boot (actions.map Action.op) =
      some system.view

theorem Simulated.boot : Simulated layout [] (System.boot layout) where
  safe := System.boot_safe
  serves := fun _ _ found => nomatch found
  simulated := fun _ => rfl

theorem Simulated.step {actions : List Action} {action : Action} {system after : System}
    (before : Simulated layout actions system) (isolated : system.Isolated action)
    (stepped : Step layout system action after) : Simulated layout (actions ++ [action]) after where
  safe := before.safe.step stepped
  serves := before.serves.step serves_rule before.safe (serves_permits _ _) stepped
  simulated := by
    intro succeeded
    have refines := before.safe.refines_step before.serves isolated stepped succeeded
    rw [List.map_append, runAll_append, before.simulated refines.succeeded]
    simp [runAll, refines.perform]

/-- The process that an operation writes to memory for. -/
def Op.writer : Op → Option Slot
  | .store slot _ _ _ | .copyout slot _ _ => some slot
  | _ => none

/-- The reference kernel changes only the memory of the writer. -/
theorem Eager.System.perform_writer {system after : Eager.System} {op : Op} {slot other : Slot}
    (writer : op.writer = some slot) (done : system.perform op = some after)
    (ne : other ≠ slot) : after other = system other := by
  cases op with
  | store | copyout =>
    cases writer
    obtain ⟨space, -, rfl⟩ := Option.map_eq_some_iff.mp done
    exact update_of_ne ne _ _
  | kalloc | kfree | userinit | fork | exec | growproc | freeproc => cases writer

/-- In a run in which no allocation fails and the writes are isolated, every process
reads what it would read in the reference kernel, and a store or `copyout` by one
process changes no byte that another one reads. -/
theorem fork_refines_eager_copy (layout : Layout) {actions : List Action} {system : System}
    (run : Run (Guarded System.Isolated (Step layout))
      (System.boot layout) actions system) (succeeded : system.mem.failed = false) :
    (∃ reference,
      runAll Eager.System.perform Eager.System.boot (actions.map Action.op) =
        some reference ∧
      ∀ slot va, system.load slot va = reference.load slot va) ∧
    ∀ action after, Guarded System.Isolated (Step layout) system action after →
      after.mem.failed = false → ∀ slot, action.op.writer = some slot →
        ∀ other, other ≠ slot → ∀ va, after.load other va = system.load other va := by
  obtain ⟨safe, serves, simulated⟩ : Simulated layout actions system :=
    run.historyInvariant (fun _ _ _ _ simulated stepped => simulated.step stepped.1 stepped.2) .boot
  refine ⟨⟨system.view, simulated succeeded,
    fun slot va => (System.load_view safe serves slot va).symm⟩, ?_⟩
  rintro action after ⟨isolated, stepped⟩ succeeded slot writer other different va
  have refines := safe.refines_step serves isolated stepped succeeded
  have serves' := serves.step serves_rule safe (serves_permits _ _) stepped
  rw [← System.load_view safe serves, ← System.load_view (safe.step stepped) serves',
    Eager.System.load, Eager.System.load,
    Eager.System.perform_writer writer refines.perform different]

/-- The child of a fork stores to the page it shares with its parent. -/
theorem fork_refines_eager_copy_child : ∃ system, Run (Guarded System.Isolated (Step smallMachine))
        (System.boot smallMachine)
        [{ op := .userinit 0 [0x17, 0x05] }, { op := .growproc 0 4096 }, { op := .fork 0 1 },
          { op := .store 1 4096 7 0 }, { op := .copyout 1 4100 [9] }] system ∧
      system.mem.failed = false ∧ system.load 0 4096 = some 0 ∧ system.load 1 4096 = some 7 ∧
      ∃ reference, runAll Eager.System.perform Eager.System.boot
          [.userinit 0 [0x17, 0x05], .growproc 0 4096, .fork 0 1, .store 1 4096 7 0,
            .copyout 1 4100 [9]] = some reference ∧
        ∀ slot va, system.load slot va = reference.load slot va := by
  have outcome : ∃ system ∈ runAll
      (guardedExec System.Isolated (System.step smallMachine)) (System.boot smallMachine)
      [{ op := .userinit 0 [0x17, 0x05] }, { op := .growproc 0 4096 }, { op := .fork 0 1 },
        { op := .store 1 4096 7 0 }, { op := .copyout 1 4100 [9] }],
      system.mem.failed = false ∧ system.load 0 4096 = some 0 ∧ system.load 1 4096 = some 7 := by
    decide +kernel
  obtain ⟨system, performed, served, parent, child⟩ := outcome
  have run := Run.of_guardedExec (fun _ _ _ => id) performed
  exact ⟨system, run, served, parent, child, (fork_refines_eager_copy smallMachine run served).1⟩

/-- After a fork a store by the parent changes what the child reads. -/
theorem fork_leaks_parent_store :
    ∃ system reference, Run (Step smallMachine) (System.boot smallMachine)
        [{ op := .userinit 0 [0x17, 0x05] }, { op := .growproc 0 4096 }, { op := .fork 0 1 },
          { op := .store 0 4096 7 0 }] system ∧
      system.mem.failed = false ∧
      runAll Eager.System.perform Eager.System.boot
        [.userinit 0 [0x17, 0x05], .growproc 0 4096, .fork 0 1, .store 0 4096 7 0] =
          some reference ∧
      system.load 1 4096 = some 7 ∧ reference.load 1 4096 = some 0 := by
  have outcome : ∃ system ∈ runAll (System.step smallMachine) (System.boot smallMachine)
      [{ op := .userinit 0 [0x17, 0x05] }, { op := .growproc 0 4096 }, { op := .fork 0 1 },
        { op := .store 0 4096 7 0 }],
      ∃ reference ∈ runAll Eager.System.perform Eager.System.boot
        [.userinit 0 [0x17, 0x05], .growproc 0 4096, .fork 0 1, .store 0 4096 7 0],
      system.mem.failed = false ∧ system.load 1 4096 = some 7 ∧
        reference.load 1 4096 = some 0 := by
    decide +kernel
  obtain ⟨system, performed, reference, expected, served, values⟩ := outcome
  exact ⟨system, reference, .of_runAll (fun _ _ _ => id) performed, served, expected, values⟩

end Xv6.Vm
