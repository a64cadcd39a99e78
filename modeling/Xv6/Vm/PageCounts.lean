import Xv6.Vm.Supply
import Xv6.Vm.System

/-!
# Reference counts over whole runs

Every operation leaves each page with at least as many counted references as it
has.  The counters are exact, and no page is lost, in the runs in which `uvmcopy`
never runs out of memory and `cowalloc` never gives up the last reference to a page.
-/

namespace Xv6.Vm

open Transition Finset Option

variable {layout : Layout} {system after : System}

namespace System

/-! ## All references -/

/-- The references of one process. -/
def slotRefs (system : System) (slot : Slot) : Frame → ℤ :=
  (system.space slot).elim 0 Space.refs

/-- The live references to each page: leaf entries for user memory, page-table pages
and trapframes of all processes, and the pages the kernel holds. -/
def refs (system : System) : Frame → ℤ :=
  ∑ slot, system.slotRefs slot + listRefs system.held

/-- The references that do not belong to one process. -/
def others (system : System) (slot : Slot) : Frame → ℤ :=
  ∑ other ∈ Finset.univ.erase slot, system.slotRefs other + listRefs system.held

theorem refs_eq (system : System) (slot : Slot) :
    system.refs = system.slotRefs slot + system.others slot := by
  rw [refs, others, ← add_sum_erase _ _ (mem_univ slot), add_assoc]

theorem slotRefs_nonneg (system : System) (slot : Slot) (frame : Frame) :
    0 ≤ system.slotRefs slot frame := by
  unfold slotRefs
  cases system.space slot with
  | none => exact le_rfl
  | some space => exact space.refs_nonneg frame

theorem others_nonneg (system : System) (slot : Slot) (frame : Frame) :
    0 ≤ system.others slot frame := by
  apply add_nonneg
  · rw [Finset.sum_apply]
    exact Finset.sum_nonneg fun other _ => system.slotRefs_nonneg other frame
  · exact listRefs_nonneg _ _

@[simp] theorem put_mem (slot : Slot) (space : Option Space) (mem : Mem) :
    (system.put slot space mem).mem = mem := rfl

theorem put_refs (slot : Slot) (space : Option Space) (mem : Mem) :
    (system.put slot space mem).refs = space.elim 0 Space.refs + system.others slot := by
  rw [refs_eq _ slot]
  congr 1
  · simp [slotRefs, put]
  · rw [others, others]
    congr 1
    apply sum_congr rfl
    intro other member
    have ne := ne_of_mem_erase member
    simp [slotRefs, put, ne]

/-! ## The invariant of every run -/

/-- No page has more references than are counted, and the address spaces are well
formed. -/
structure Safe (layout : Layout) (system : System) : Prop where
  good : Good layout 0 system.mem system.refs
  wellFormed : ∀ slot space, system.space slot = some space → space.WellFormed

/-- The counters are exact and the free list has every page without references. -/
structure Exact (layout : Layout) (system : System) : Prop where
  count : ∀ frame, system.mem.count frame = system.refs frame
  complete : system.mem.pool.Complete layout.Managed

theorem Exact.keeps (exact : system.Exact layout)
    (keeps : Keeps layout 0 system.mem system.refs after.mem after.refs) : after.Exact layout where
  count := by
    intro frame
    have before := exact.count frame
    have slack := keeps.pool.slack frame
    simp only [Mem.pool, Pi.add_apply, Pi.zero_apply] at slack
    omega
  complete := keeps.complete exact.complete

theorem Safe.part (safe : system.Safe layout) (slot : Slot) :
    Good layout (system.others slot) system.mem (system.slotRefs slot) := by
  have part := (system.refs_eq slot ▸ safe.good).part (system.slotRefs_nonneg slot)
    (system.others_nonneg slot)
  rwa [zero_add] at part

variable {slot : Slot} {space : Option Space}

/-- An operation on one address space. -/
theorem put_keeps {mem : Mem}
    (keeps : Keeps layout (system.others slot) system.mem (system.slotRefs slot) mem
      (space.elim 0 Space.refs)) :
    Keeps layout 0 system.mem system.refs (system.put slot space mem).mem
      (system.put slot space mem).refs := by
  rw [put_refs, system.refs_eq slot]
  have whole : Keeps layout (0 + system.others slot) system.mem (system.slotRefs slot) mem
      (space.elim 0 Space.refs) := by rwa [zero_add]
  exact whole.framed (system.others_nonneg slot)

theorem put_moves {mem : Mem}
    (moves : Moves layout (system.others slot) system.mem (system.slotRefs slot) mem
      (space.elim 0 Space.refs)) :
    Moves layout 0 system.mem system.refs (system.put slot space mem).mem
      (system.put slot space mem).refs := by
  rw [put_refs, system.refs_eq slot]
  have whole : Moves layout (0 + system.others slot) system.mem (system.slotRefs slot) mem
      (space.elim 0 Space.refs) := by rwa [zero_add]
  exact whole.framed (system.others_nonneg slot)

theorem forall_put {P : Space → Prop} {mem : Mem}
    (each : ∀ slot space, system.space slot = some space → P space)
    (new : ∀ made, space = some made → P made) :
    ∀ other made, (system.put slot space mem).space other = some made → P made := by
  intro other made found
  obtain rfl | same := eq_or_ne other slot
  · exact new made (by simpa [put] using found)
  · exact each other made (by simpa [put, same] using found)

/-! ## Stores and `copyout` -/

/-- At most one page was written to. -/
def Touched (mem after : Mem) : Prop :=
  after = mem ∨ ∃ frame contents, after = mem.fill frame contents

theorem Touched.keeps {mem after : Mem} {own : Frame → ℤ} (good : Good layout 0 mem own)
    (touched : Touched mem after) : Keeps layout 0 mem own after own := by
  obtain rfl | ⟨frame, contents, rfl⟩ := touched
  · exact good.refl
  · exact good.fill rfl contents

/-- A store either goes through or runs `cowalloc`. -/
theorem store_cases {space space' : Space} {va sp : Nat} {byte : UInt8} {mem after : Mem}
    (done : space.store layout va byte sp mem = .ok (space', after)) :
    (space' = space ∧ Touched mem after) ∨
      ∃ allowed table mem1,
        space.table.cowalloc layout (va / PGSIZE * PGSIZE) mem = .ok (allowed, table, mem1) ∧
        space'.refs = ({ space with table } : Space).refs ∧ space'.table = table ∧
        space'.sz = space.sz ∧ Touched mem1 after := by
  have written : ∀ (space : Space) (mem after : Mem), space.write va byte mem = some after →
      Touched mem after := by
    intro space mem after done
    unfold Space.write at done
    split at done
    · cases done
    · split_ifs at done
      cases done
      exact .inr ⟨_, _, rfl⟩
  unfold Space.store at done
  split at done
  case h_1 mem' write =>
    cases done
    exact .inl ⟨rfl, written _ _ _ write⟩
  case h_2 fault =>
    obtain ⟨⟨allowed, table, mem1⟩, cow, rest⟩ := ok_of_bind done
    refine .inr ⟨allowed, table, mem1, cow, ?_⟩
    simp only at rest
    split_ifs at rest
    · cases rest
      exact ⟨rfl, rfl, rfl, .inl rfl⟩
    · cases rest
      refine ⟨rfl, rfl, rfl, ?_⟩
      cases retry : ({ space with table } : Space).write va byte mem1 with
      | none => exact .inl rfl
      | some mem2 => exact written _ _ _ retry

/-- A turn of `copyout` runs `cowalloc` and may then write. -/
theorem copyoutPage_cases {table table' : PageTable} {dstva : Nat} {src : List UInt8}
    {copied : Bool} {mem after : Mem}
    (done : table.copyoutPage layout dstva src mem = .ok (copied, table', after)) :
    (table' = table ∧ after = mem) ∨
      ∃ allowed mem1, table.cowalloc layout (dstva / PGSIZE * PGSIZE) mem =
        .ok (allowed, table', mem1) ∧ Touched mem1 after := by
  unfold PageTable.copyoutPage at done
  split_ifs at done
  · cases done
    exact .inl ⟨rfl, rfl⟩
  · obtain ⟨⟨allowed, table1, mem1⟩, cow, rest⟩ := ok_of_bind done
    cases allowed with
    | false =>
      cases rest
      exact .inr ⟨_, _, cow, .inl rfl⟩
    | true =>
      simp only [if_true] at rest
      split at rest
      · cases rest
        exact .inr ⟨_, _, cow, .inl rfl⟩
      · cases rest
        exact .inr ⟨_, _, cow, .inr ⟨_, _, rfl⟩⟩

/-! ## One operation -/

variable (layout) in
/-- `uvmcopy` has the memory it needs, and `cowalloc` does not resolve a page to
which the process holds the last reference. -/
def Spares (system : System) : Op → Prop
  | .fork parent _ =>
    ∀ space ∈ system.running parent, space.CopyServed layout system.mem
  | .store slot va _ _ =>
    ∀ space ∈ system.space slot, ¬ LastReference space.table (va / PGSIZE * PGSIZE) system.mem
  | .copyout slot dstva _ =>
    ∀ space ∈ system.space slot, ¬ LastReference space.table (dstva / PGSIZE * PGSIZE) system.mem
  | _ => True

instance (op : Op) : Decidable (system.Spares layout op) :=
  match op with
  | .fork _ _ => inferInstanceAs (Decidable (∀ space ∈ _, _))
  | .store _ _ _ _ | .copyout _ _ _ => inferInstanceAs (Decidable (∀ space ∈ _, ¬ _))
  | .kalloc | .kfree _ | .userinit _ _ | .exec _ _ _ | .growproc _ _ | .freeproc _ =>
    inferInstanceAs (Decidable True)

/-- What an operation does to the accounts: always safe, and exact when it spares
memory. -/
structure Accounted (layout : Layout) (system : System) (op : Op) (after : System) : Prop where
  safe : after.Safe layout
  keeps : system.Spares layout op →
    Keeps layout 0 system.mem system.refs after.mem after.refs

theorem Safe.accounted (safe : system.Safe layout) {op : Op}
    (keeps : Keeps layout 0 system.mem system.refs after.mem after.refs)
    (wf : ∀ slot space, after.space slot = some space → space.WellFormed) :
    Accounted layout system op after :=
  ⟨⟨safe.good.keeps keeps, wf⟩, fun _ => keeps⟩

variable {space : Space}

theorem running_eq (running : system.running slot = some space) :
    system.space slot = some space := by
  rw [System.running, filter_eq_some_iff] at running
  exact running.1

theorem slotRefs_of_space (occupied : system.space slot = some space) :
    system.slotRefs slot = space.refs := by
  simp [slotRefs, occupied]

theorem Safe.occupiedPart (safe : system.Safe layout)
    (occupied : system.space slot = some space) :
    Good layout (system.others slot) system.mem space.refs :=
  slotRefs_of_space occupied ▸ safe.part slot

variable (layout system) in
/-- What an operation that goes through has found and done. -/
inductive Performed : Op → System → Prop
  | refused {mem} (refused : system.mem.kalloc = (none, mem)) :
    Performed .kalloc { system with mem }
  | kalloc {frame mem} (allocated : system.mem.kalloc = (some frame, mem)) :
    Performed .kalloc { system with mem, held := frame :: system.held }
  | kfree {frame mem} (member : frame ∈ system.held)
    (freed : system.mem.kfree layout frame = .ok mem) :
    Performed (.kfree frame) { system with mem, held := system.held.erase frame }
  | userinit {slot space initcode mem} (empty : system.space slot = none)
    (made : Space.userinit layout initcode system.mem = .ok (space, mem)) :
    Performed (.userinit slot initcode) (system.put slot (some space) mem)
  | fork {parent child space made mem} (running : system.running parent = some space)
    (occupied : system.space parent = some space) (empty : system.space child = none)
    (ne : parent ≠ child) (forked : space.fork layout system.mem = .ok (made, mem)) :
    Performed (.fork parent child) (system.put child made mem)
  | exec {slot space program argv image mem} (running : system.running slot = some space)
    (occupied : system.space slot = some space)
    (executed : space.exec layout program argv system.mem = .ok (image, mem)) :
    Performed (.exec slot program argv) (system.put slot (some (image.getD space)) mem)
  | growproc {slot space n result grown mem} (running : system.running slot = some space)
    (occupied : system.space slot = some space)
    (grew : space.growproc layout n system.mem = .ok (result, grown, mem)) :
    Performed (.growproc slot n) (system.put slot (some grown) mem)
  | store {slot space va byte sp rest mem} (running : system.running slot = some space)
    (occupied : system.space slot = some space)
    (stored : space.store layout va byte sp system.mem = .ok (rest, mem)) :
    Performed (.store slot va byte sp) (system.put slot (some rest) mem)
  | copyout {slot space dstva src copied table mem} (occupied : system.space slot = some space)
    (copy : space.table.copyoutPage layout dstva src system.mem = .ok (copied, table, mem)) :
    Performed (.copyout slot dstva src) (system.put slot (some { space with table }) mem)
  | freeproc {slot space mem} (occupied : system.space slot = some space)
    (freed : space.freeproc layout system.mem = .ok mem) :
    Performed (.freeproc slot) (system.put slot none mem)

theorem performed {op : Op} (done : system.perform layout op = some after) :
    Performed layout system op after := by
  cases op with
  | kalloc =>
    simp only [perform] at done
    split at done <;> cases done
    · exact .refused ‹_›
    · exact .kalloc ‹_›
  | kfree frame =>
    obtain ⟨member, done⟩ := ite_none_right_eq_some.mp done
    obtain ⟨mem, freed, rfl⟩ := ok_of_toOption_map done
    exact .kfree member freed
  | userinit slot initcode =>
    simp only [perform] at done
    split at done
    · cases done
    · obtain ⟨_, made, rfl⟩ := ok_of_toOption_map done
      exact .userinit ‹_› made
  | fork parent child =>
    simp only [perform] at done
    split at done
    case h_2 => cases done
    case h_1 _ _ space running empty =>
      obtain ⟨_, forked, rfl⟩ := ok_of_toOption_map done
      have occupied := running_eq running
      refine .fork running occupied empty ?_ forked
      rintro rfl
      simp [occupied] at empty
  | copyout slot dstva src =>
    obtain ⟨space, occupied, done⟩ := bind_eq_some_iff.mp done
    split_ifs at done
    obtain ⟨_, copy, rfl⟩ := ok_of_toOption_map done
    exact .copyout occupied copy
  | freeproc slot =>
    obtain ⟨space, occupied, done⟩ := bind_eq_some_iff.mp done
    obtain ⟨_, freed, rfl⟩ := ok_of_toOption_map done
    exact .freeproc occupied freed
  | exec | growproc | store =>
    obtain ⟨space, running, done⟩ := bind_eq_some_iff.mp done
    obtain ⟨_, result, rfl⟩ := ok_of_toOption_map done
    constructor
    · exact running
    · exact running_eq running
    · exact result

/-- `cowalloc` on the table of a process, followed by at most one write. -/
theorem Safe.cow {space space' : Space} {va : Nat} {allowed : Bool} {table : PageTable}
    {mem1 mem2 : Mem} (safe : system.Safe layout) (occupied : system.space slot = some space)
    (cow : space.table.cowalloc layout va system.mem = .ok (allowed, table, mem1))
    (refs : space'.refs = ({ space with table } : Space).refs) (table_eq : space'.table = table)
    (sz_eq : space'.sz = space.sz) (touched : Touched mem1 mem2) :
    (system.put slot (some space') mem2).Safe layout ∧
      (¬ LastReference space.table va system.mem →
        Keeps layout 0 system.mem system.refs (system.put slot (some space') mem2).mem
          (system.put slot (some space') mem2).refs) := by
  have wf := safe.wellFormed slot space occupied
  have part := safe.part slot
  have split : space.refs = space.table.refs + Pi.single space.trapframe 1 := add_comm _ _
  have split' : (some space').elim 0 Space.refs = table.refs + Pi.single space.trapframe 1 := by
    rw [Option.elim, refs, Space.refs, add_comm]
  rw [slotRefs_of_space occupied, split] at part
  have trapframeNonneg := single_nonneg space.trapframe
  obtain ⟨moves, keeps⟩ :=
    (part.part space.table.refs_nonneg trapframeNonneg).cowalloc wf.table cow
  have slot_eq := slotRefs_of_space occupied
  have moves1 : Moves layout (system.others slot) system.mem (system.slotRefs slot) mem1
      ((some space').elim 0 Space.refs) := by
    rw [slot_eq, split, split']
    exact moves.framed trapframeNonneg
  have whole1 := put_moves moves1
  have good1 := safe.good.moves whole1
  have write : Keeps layout 0 (system.put slot (some space') mem1).mem
      (system.put slot (some space') mem1).refs (system.put slot (some space') mem2).mem
      (system.put slot (some space') mem2).refs := by
    have keepsWrite := Touched.keeps good1 touched
    rw [put_refs] at keepsWrite
    rw [put_refs, put_refs]
    exact keepsWrite
  refine ⟨⟨good1.keeps write, forall_put safe.wellFormed ?_⟩, fun spared => ?_⟩
  · rintro _ ⟨⟩
    exact ⟨table_eq ▸ wf.table.cowalloc cow, sz_eq ▸ wf.fits⟩
  · have keeps1 : Keeps layout (system.others slot) system.mem (system.slotRefs slot) mem1
        ((some space').elim 0 Space.refs) := by
      rw [slot_eq, split, split']
      exact (keeps spared).framed trapframeNonneg
    exact (put_keeps keeps1).trans write

/-- The kernel takes or gives back pages of its own. -/
theorem held_refs (system : System) (mem : Mem) (held : List Frame) :
    ({ system with mem, held } : System).refs =
      listRefs held + ∑ slot, system.slotRefs slot :=
  add_comm _ _

theorem sum_nonneg (system : System) (frame : Frame) :
    0 ≤ (∑ slot, system.slotRefs slot) frame := by
  rw [Finset.sum_apply]
  exact Finset.sum_nonneg fun other _ => system.slotRefs_nonneg other frame

variable {frame : Frame} {action : Action}

theorem held_erase (member : frame ∈ system.held) :
    listRefs system.held = listRefs (system.held.erase frame) + Pi.single frame 1 := by
  rw [← listRefs_cons]
  funext other
  simp only [listRefs, (List.perm_cons_erase member).count_eq]

/-- A page that the kernel holds is referred to. -/
theorem one_le_refs_of_held (member : frame ∈ system.held) : 1 ≤ system.refs frame := by
  have rest := system.sum_nonneg frame
  have erasedNonneg := listRefs_nonneg (system.held.erase frame) frame
  simp only [System.refs, held_erase member, Pi.add_apply, Pi.single_eq_same]
  omega

/-- Building a space in an empty slot. -/
theorem Safe.part_empty (safe : system.Safe layout) (empty : system.space slot = none) :
    Good layout (system.others slot) system.mem 0 ∧ system.slotRefs slot = 0 := by
  have none : system.slotRefs slot = 0 := by simp [slotRefs, empty]
  exact ⟨none ▸ safe.part slot, none⟩

/-- The user pages of a process are counted among the references of its slot. -/
theorem heldBy_sum {slots : Finset Slot} (member : slot ∈ slots)
    (occupied : system.space slot = some space) :
    space.table.HeldBy (∑ other ∈ slots, system.slotRefs other) := by
  intro vpn pte below found
  have leaf := PageTable.one_le_refs found below
  have trapframe := single_nonneg space.trapframe pte.frame
  have single : system.slotRefs slot pte.frame ≤
      (∑ other ∈ slots, system.slotRefs other) pte.frame := by
    rw [Finset.sum_apply]
    exact single_le_sum (f := fun slot => system.slotRefs slot pte.frame)
      (fun other _ => system.slotRefs_nonneg other pte.frame) member
  rw [slotRefs_of_space occupied] at single
  simp only [Space.refs, Pi.add_apply] at single
  omega

theorem heldBy_others {parent child : Slot} (ne : parent ≠ child)
    (occupied : system.space parent = some space) : space.table.HeldBy (system.others child) := by
  intro vpn pte below found
  have member : parent ∈ univ.erase child :=
    mem_erase.mpr ⟨ne, mem_univ _⟩
  exact (heldBy_sum member occupied vpn pte below found).trans
    (le_add_of_nonneg_right (listRefs_nonneg _ _))

section

variable (safe : system.Safe layout)
include safe

/-- A write to a page of a process, which leaves the address space as it is. -/
theorem Safe.touch {mem : Mem} (occupied : system.space slot = some space)
    (touched : Touched system.mem mem) :
    Keeps layout 0 system.mem system.refs (system.put slot (some space) mem).mem
      (system.put slot (some space) mem).refs := by
  have refs : (system.put slot (some space) mem).refs = system.refs := by
    rw [put_refs, system.refs_eq slot, slotRefs_of_space occupied]
    rfl
  rw [refs]
  exact touched.keeps safe.good

theorem Safe.perform_fork {parent child : Slot} {made : Option Space} {mem : Mem}
    (running : system.running parent = some space) (occupied : system.space parent = some space)
    (empty : system.space child = none) (ne : parent ≠ child)
    (forked : space.fork layout system.mem = .ok (made, mem)) :
    Accounted layout system (.fork parent child) (system.put child made mem) := by
  obtain ⟨part, none⟩ := safe.part_empty empty
  obtain ⟨success, failure⟩ := part.fork (safe.wellFormed parent space occupied)
    (heldBy_others ne occupied) forked
  cases made with
  | some made =>
    obtain ⟨wf, keeps⟩ := success made rfl
    refine safe.accounted (put_keeps (none ▸ keeps)) (forall_put safe.wellFormed ?_)
    rintro _ ⟨⟩
    exact wf
  | none =>
    have wf : ∀ slot space, (system.put child .none mem).space slot = some space →
        space.WellFormed := forall_put safe.wellFormed (by simp)
    obtain ⟨-, keeps | ⟨failed, frame, keeps⟩⟩ := failure rfl
    · exact safe.accounted (put_keeps (none ▸ keeps)) wf
    · have leak : Good layout (system.others child) mem 0 := by
        have good := part.keeps keeps
        refine ⟨⟨good.covers.sound, fun other => ?_⟩, fun _ => le_rfl, part.ext_nonneg⟩
        have counted := good.covers.counted other
        have nonneg := single_nonneg frame other
        simp only [Pi.add_apply, Pi.zero_apply] at counted ⊢
        omega
      refine ⟨⟨?_, wf⟩, fun spared => ?_⟩
      · rw [put_refs, put_mem]
        exact leak.regroup (by simp) (fun frame => by simpa using system.others_nonneg child frame)
          (fun _ => le_rfl)
      · exact (failed (spared space running)).elim

/-- Every operation is accounted for. -/
theorem Safe.perform {op : Op} (done : system.perform layout op = some after) :
    Accounted layout system op after := by
  cases performed done with
  | refused refused => exact safe.accounted (safe.good.kalloc_none refused) safe.wellFormed
  | @kalloc frame mem allocated =>
    have refs : system.refs + Pi.single frame 1 =
        ({ system with mem, held := frame :: system.held } : System).refs := by
      rw [system.held_refs mem (frame :: system.held), listRefs_cons, System.refs]
      abel
    exact safe.accounted (refs ▸ safe.good.kalloc_some allocated) safe.wellFormed
  | @kfree frame mem member freed =>
    have keeps := safe.good.kfree (one_le_refs_of_held member) freed
    have refs : system.refs - Pi.single frame 1 =
        ({ system with mem, held := system.held.erase frame } : System).refs := by
      rw [system.held_refs mem (system.held.erase frame), System.refs, held_erase member]
      abel
    exact safe.accounted (refs ▸ keeps) safe.wellFormed
  | userinit empty made =>
    obtain ⟨part, none⟩ := safe.part_empty empty
    obtain ⟨keeps, wf⟩ := part.userinit made
    refine safe.accounted (put_keeps (none ▸ keeps)) (forall_put safe.wellFormed ?_)
    rintro _ ⟨⟩
    exact wf
  | fork running occupied empty ne forked =>
    exact safe.perform_fork running occupied empty ne forked
  | exec running occupied executed =>
    obtain ⟨keeps, wf⟩ :=
      (safe.occupiedPart occupied).exec (safe.wellFormed _ _ occupied) executed
    refine safe.accounted (put_keeps ?_) (forall_put safe.wellFormed ?_)
    · rw [slotRefs_of_space occupied]
      exact keeps
    · rintro _ ⟨⟩
      exact wf
  | growproc running occupied grew =>
    obtain ⟨keeps, wf⟩ :=
      (safe.occupiedPart occupied).growproc (safe.wellFormed _ _ occupied) grew
    refine safe.accounted (put_keeps ?_) (forall_put safe.wellFormed ?_)
    · rw [slotRefs_of_space occupied]
      exact keeps
    · rintro _ ⟨⟩
      exact wf
  | @store slot space _ _ _ _ _ running occupied stored =>
    obtain ⟨rfl, touched⟩ | ⟨allowed, table, mem1, cow, refs, table_eq, sz_eq, touched⟩ :=
      store_cases stored
    · refine safe.accounted (safe.touch occupied touched) (forall_put safe.wellFormed ?_)
      rintro _ ⟨⟩
      exact safe.wellFormed slot _ occupied
    · obtain ⟨safe', keeps⟩ := safe.cow occupied cow refs table_eq sz_eq touched
      exact ⟨safe', fun spared => keeps (spared space occupied)⟩
  | @copyout slot space _ _ _ _ _ occupied copy =>
    obtain ⟨rfl, rfl⟩ | ⟨allowed, mem1, cow, touched⟩ := copyoutPage_cases copy
    · refine safe.accounted (safe.touch occupied (.inl rfl)) (forall_put safe.wellFormed ?_)
      rintro _ ⟨⟩
      exact safe.wellFormed slot _ occupied
    · obtain ⟨safe', keeps⟩ := safe.cow occupied cow rfl rfl rfl touched
      exact ⟨safe', fun spared => keeps (spared space occupied)⟩
  | freeproc occupied freed =>
    refine safe.accounted (put_keeps ?_) (forall_put safe.wellFormed (by simp))
    rw [slotRefs_of_space occupied]
    exact (safe.occupiedPart occupied).freeproc freed

/-! ## Whole runs -/

theorem Safe.withFails (fails : List Bool) : (system.withFails fails).Safe layout :=
  ⟨⟨safe.good.covers, safe.good.own_nonneg, safe.good.ext_nonneg⟩, safe.wellFormed⟩

end

theorem Exact.withFails (exact : system.Exact layout) (fails : List Bool) :
    (system.withFails fails).Exact layout :=
  ⟨exact.count, exact.complete⟩

/-- No references exist when the kernel starts. -/
theorem boot_refs : (boot layout).refs = 0 := by
  rw [refs]
  have empty : listRefs (boot layout).held = 0 := rfl
  rw [empty, add_zero]
  exact sum_eq_zero fun slot _ => rfl

theorem mem_kinit_freelist : frame ∈ (Mem.kinit layout).freelist ↔ layout.Managed frame := by
  have range : ∀ first last frame : Nat,
      (first ≤ frame ∧ frame < first + (last - first)) ↔ (first ≤ frame ∧ frame < last) := by
    omega
  simp only [Mem.kinit, List.mem_reverse, List.mem_range'_1, Layout.Managed]
  exact range layout.first layout.last frame

theorem boot_safe : (boot layout).Safe layout := by
  refine ⟨⟨⟨⟨?_, ?_, ?_⟩, ?_⟩, fun frame => ?_, fun _ => le_rfl⟩, fun _ _ found => by cases found⟩
  · exact List.nodup_reverse.mpr List.nodup_range'
  · exact fun frame free => ⟨rfl, mem_kinit_freelist.mp free⟩
  · exact fun frame (counted : (1 : ℤ) ≤ 0) => absurd counted (by decide)
  · intro frame
    rw [boot_refs]
    exact le_rfl
  · rw [boot_refs]
    exact le_rfl

theorem boot_exact : (boot layout).Exact layout where
  count := by
    intro frame
    rw [boot_refs]
    rfl
  complete := fun _ managed _ => mem_kinit_freelist.mpr managed

theorem Safe.step (safe : system.Safe layout) (stepped : Step layout system action after) :
    after.Safe layout :=
  ((safe.withFails action.fails).perform stepped).safe

variable (layout) in
/-- The action spares memory: see `Spares`. -/
def Frugal (system : System) (action : Action) : Prop :=
  (system.withFails action.fails).Spares layout action.op

instance (action : Action) : Decidable (system.Frugal layout action) :=
  inferInstanceAs (Decidable (Spares layout _ _))

theorem Exact.step (safe : system.Safe layout) (exact : system.Exact layout)
    (frugal : system.Frugal layout action) (stepped : Step layout system action after) :
    after.Exact layout :=
  (exact.withFails action.fails).keeps
    (((safe.withFails action.fails).perform stepped).keeps frugal)

theorem exact_of_run {actions : List Action}
    (run : Run (Guarded (Frugal layout) (Step layout)) (boot layout)
      actions system) : system.Safe layout ∧ system.Exact layout := by
  apply run.invariant _ ⟨boot_safe, boot_exact⟩
  rintro before action after ⟨safe, exact⟩ ⟨frugal, stepped⟩
  exact ⟨safe.step stepped, exact.step safe frugal stepped⟩

end System

/-- In a run that spares memory, every page is counted exactly as often as it is
referred to, and a page without references is on the free list once. -/
theorem refcount_exact (layout : Layout) {actions : List Action} {system : System}
    (run : Run (Guarded (System.Frugal layout) (Step layout))
      (System.boot layout) actions system)
    {frame : Frame} (managed : layout.Managed frame) :
    system.mem.count frame = system.refs frame ∧
      (system.mem.count frame = 0 → system.mem.freelist.count frame = 1) := by
  obtain ⟨safe, exact⟩ := System.exact_of_run run
  refine ⟨exact.count frame, fun zero => ?_⟩
  exact List.count_eq_one_of_mem safe.good.covers.sound.nodup
    (exact.complete frame managed zero)

/-- A machine with 128 pages of free memory. -/
def smallMachine : Layout := ⟨0x87f80, 0x88000, 0x80007, by decide⟩

/-- A process grows by a page and forks, and the child stores to the shared page. -/
theorem refcount_exact_forked :
    ∃ system, Run (Guarded (System.Frugal smallMachine) (Step smallMachine))
        (System.boot smallMachine)
        [{ op := .userinit 0 [0x17, 0x05] }, { op := .growproc 0 4096 }, { op := .fork 0 1 },
          { op := .store 1 4096 7 0 }] system ∧
      system.mem.count 0x87ff8 = 1 ∧ system.refs 0x87ff8 = 1 := by
  have outcome : (runAll
      (guardedExec (System.Frugal smallMachine) (System.step smallMachine))
        (System.boot smallMachine)
      [{ op := .userinit 0 [0x17, 0x05] }, { op := .growproc 0 4096 }, { op := .fork 0 1 },
        { op := .store 1 4096 7 0 }]).map (fun system => system.mem.count 0x87ff8) = some 1 := by
    decide +kernel
  obtain ⟨system, performed, count⟩ := Option.map_eq_some_iff.mp outcome
  have run := Run.of_guardedExec (fun _ _ _ => id) performed
  have managed : smallMachine.Managed 0x87ff8 := by decide
  refine ⟨system, run, count, ?_⟩
  rw [← (refcount_exact smallMachine run managed).1, count]

/-- A process grows by a page, forks and shrinks again; then the child stores to the
page, which nobody else refers to any more, and the page is lost. -/
theorem refcount_page_lost : ∃ system, Run (Step smallMachine) (System.boot smallMachine)
        [{ op := .userinit 0 [0x17, 0x05] }, { op := .growproc 0 4096 }, { op := .fork 0 1 },
          { op := .growproc 0 (-4096) }, { op := .store 1 4096 7 0 }] system ∧
      smallMachine.Managed 0x87ff8 ∧ system.mem.count 0x87ff8 = 0 ∧
      system.mem.freelist.count 0x87ff8 = 0 := by
  exact Run.exists_of_runAll (fun _ _ _ => id) (by decide +kernel)

end Xv6.Vm
