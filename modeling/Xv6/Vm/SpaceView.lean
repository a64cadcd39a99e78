import Xv6.Vm.View

/-!
# Operations on one address space and the reference kernel

Each operation changes the memory of the process as the reference kernel does.  For
`store` and `copyout` this holds when the page written to is not shared, and when
`usertrap` lets exactly the stores through that the page was made for.
-/

namespace Xv6.Vm

open PageTable Eager.Space Option

variable {layout : Layout} {ext : Frame → ℤ} {mem after : Mem}
variable {space space' : Space} {va : Nat} {pte : Pte}

/-- A process as the reference kernel sees it. -/
def Space.view (space : Space) (mem : Mem) : Eager.Space :=
  ⟨space.table.view mem, space.sz, space.killed⟩

theorem Space.view_held (held : space.table.HeldBy ext)
    (page : ∀ frame, 0 < ext frame → after.page frame = mem.page frame) :
    space.view after = space.view mem := by
  rw [view, view, held.view page]

/-- The references of an address space protect its own pages. -/
theorem Space.heldBy_refs (space : Space) (nonneg : ∀ frame, 0 ≤ ext frame) :
    space.table.HeldBy (ext + space.refs) := by
  intro vpn pte below found
  have outside := nonneg pte.frame
  have trapframe := single_nonneg space.trapframe pte.frame
  have mapped := PageTable.one_le_refs found below
  simp only [Space.refs, Pi.add_apply]
  omega

/-! ## `userinit` and `fork` -/

theorem Space.allocproc_killed {made : Space}
    (done : Space.allocproc layout mem = .ok (some made, after)) : made.killed = false := by
  unfold allocproc at done
  split at done
  · cases done
  · obtain ⟨⟨table, mem1⟩, -, rest⟩ := ok_of_bind done
    cases table with
    | none =>
      obtain ⟨mem2, -, finished⟩ := ok_of_bind rest
      cases finished
    | some table =>
      cases rest
      rfl

variable {table : PageTable}

theorem PageTable.Vacant.view (vacant : table.Vacant) (mem : Mem) :
    table.view mem = fun _ => none := by
  funext vpn
  by_cases below : vpn < TRAPFRAME
  · rw [view_below below, vacant vpn below]
    rfl
  · exact view_top (not_lt.mp below) mem

theorem Good.view_userinit {initcode : List UInt8} (good : Good layout ext mem 0)
    (done : Space.userinit layout initcode mem = .ok (space, after)) :
    space.view after = .userinit initcode := by
  obtain ⟨⟨made, mem1⟩, created, rest⟩ := ok_of_bind done
  obtain ⟨-, shape, -⟩ := good.allocproc created
  cases made with
  | none => cases rest
  | some empty =>
    obtain ⟨⟨table, mem2⟩, first, finished⟩ := ok_of_bind rest
    cases finished
    have alive := Space.allocproc_killed created
    obtain ⟨frame, taken, mapMem, allocated, mapping, rfl⟩ := Space.uvmfirst_ok first
    have leaves := (mappages_shape mapping).leaves
    rw [if_pos rfl] at leaves
    have zero : mapMem.page frame = 0 := by
      have counted : 0 < (taken.fill frame 0).count frame := by
        obtain ⟨-, -, rfl⟩ := Mem.kalloc_some allocated
        simp
      rw [((Allocates.mappages mapping).used frame counted).2]
      simp
    unfold Space.view Eager.Space.userinit
    simp only [alive, Eager.Space.mk.injEq, and_true]
    funext vpn
    obtain rfl | isFirst := eq_or_ne vpn 0
    · rw [view_found (by decide) (by rw [leaves, FinMap.find_insert, Function.update_self])]
      simp [zero]
    · rw [Function.update_of_ne isFirst]
      by_cases below : vpn < TRAPFRAME
      · rw [view_below below, leaves, FinMap.find_insert, Function.update_of_ne isFirst,
          (shape empty rfl).2 vpn below]
        rfl
      · exact view_top (not_lt.mp below) _

/-- The child reads what the reference kernel would have copied for it. -/
theorem Good.view_fork {parent child : Space} (good : Good layout ext mem 0)
    (wf : parent.WellFormed) (held : parent.table.HeldBy ext)
    (done : parent.fork layout mem = .ok (some child, after)) :
    child.view after = (parent.view mem).fork := by
  have keeps := ((good.fork wf held done).1 child rfl).2
  obtain ⟨fresh, mem1, table, created, copy, rfl⟩ := Space.fork_some done
  obtain ⟨-, shape, -⟩ := good.allocproc created
  have size := pagesBelow_le wf.fits
  unfold Space.view Eager.Space.fork
  simp only [Space.allocproc_killed created, Eager.Space.mk.injEq, and_true]
  funext vpn
  by_cases below : vpn < TRAPFRAME
  · rw [view_below below, view_below below, uvmcopyLoop_find copy]
    simp only [Nat.zero_le, true_and, Nat.zero_add]
    split_ifs
    · cases found : parent.table.leaves.find vpn with
      | none => rfl
      | some pte => simp [Pte.shared, keeps.page _ (held vpn pte below found)]
    · rw [(shape fresh rfl).2 vpn below]
      rfl
  · rw [view_top (not_lt.mp below), if_neg (by omega)]

/-! ## `sbrk` and `exec` -/

theorem Good.view_growproc {n : ℤ} {grown : Bool} (good : Good layout ext mem space.refs)
    (wf : space.WellFormed)
    (done : space.growproc layout n mem = .ok (grown, space', after))
    (succeeded : after.failed = false) : (space.view mem).growproc n = space'.view after := by
  unfold Space.growproc at done
  unfold Eager.Space.growproc
  simp only at done
  split_ifs at done with grow shrink
  · rw [if_pos grow]
    obtain ⟨⟨sz, table, mem'⟩, alloc, finished⟩ := ok_of_bind done
    simp only [Except.ok.injEq] at finished
    split_ifs at finished with noMemory
    · cases finished
      have same := good.tablePart.view_uvmalloc wf.table wf.fits alloc succeeded
      simp only [Space.view, same, if_pos noMemory]
    · cases finished
      have same := good.tablePart.view_uvmalloc wf.table wf.fits alloc succeeded
      simp only [Space.view, same, if_neg noMemory]
  · rw [if_neg grow, if_pos shrink]
    obtain ⟨⟨sz, table, mem'⟩, dealloc, finished⟩ := ok_of_bind done
    cases finished
    have same := good.tablePart.view_uvmdealloc wf.fits dealloc
    simp only [Space.view, same]
  · rw [if_neg grow, if_neg shrink]
    cases done
    rfl

theorem Good.view_exec {program : Program} {argv : List (List UInt8)} {image : Option Space}
    (good : Good layout ext mem space.refs)
    (done : space.exec layout program argv mem = .ok (image, after))
    (succeeded : after.failed = false) :
    (space.view mem).exec program argv = (image.getD space).view after := by
  have beside := good.beside
  have held := space.heldBy_refs good.ext_nonneg
  unfold Eager.Space.exec
  cases good.exec_outcome done with
  | invalid no => rw [if_neg (by simp [no]), getD_none]
  | noTable _ failed => simp [failed] at succeeded
  | @built first last mem1 mem2 _ sz valid made wf1 vacant build freed =>
    have good1 := beside.keeps made
    obtain ⟨second, -⟩ := good1.buildImage wf1 (vacant.fresh _) build
    have newHeld := Space.heldBy_refs { space with table := last, sz } good.ext_nonneg
    have split : ext + ({ space with table := last, sz } : Space).refs + space.table.refs =
        ext + space.refs + last.refs := by
      simp only [Space.refs]
      abel
    have third := ((beside.keeps (made.trans second)).regroup split space.table.refs_nonneg
      fun frame => add_nonneg (good.ext_nonneg frame) (Space.refs_nonneg _ frame)).procFreepagetable
        freed
    have image := good1.view_buildImage wf1 vacant build (third.succeeded succeeded)
    rw [vacant.view] at image
    rw [if_pos valid, image]
    have same := Space.view_held newHeld third.page
    exact same.symm
  | @undone first last mem1 mem2 _ sz valid made wf1 vacant build freed =>
    have good1 := beside.keeps made
    obtain ⟨second, -⟩ := good1.buildImage wf1 (vacant.fresh _) build
    have sofar := made.trans second
    have third := (beside.keeps sofar).procFreepagetable freed
    have image := good1.view_buildImage wf1 vacant build (third.succeeded succeeded)
    rw [vacant.view] at image
    rw [if_pos valid, image]
    exact (Space.view_held held (sofar.trans third).page).symm

/-! ## Stores -/

variable {byte : UInt8} {sp : Nat}

theorem Space.write_some (done : space.write va byte mem = some after) :
    ∃ pte, space.translate va = some pte ∧ pte.perm.user = true ∧ pte.perm.writable = true ∧
      after = mem.fill pte.frame ((mem.page pte.frame).write (va % PGSIZE) [byte]) := by
  unfold write at done
  split at done
  · cases done
  case h_2 pte found =>
    split_ifs at done with permitted
    exact ⟨pte, found, permitted.1, permitted.2, (some.inj done).symm⟩

theorem Space.write_none (done : space.write va byte mem = none)
    (found : space.translate va = some pte) (user : pte.perm.user = true) :
    pte.perm.writable = false := by
  unfold write at done
  rw [found] at done
  simpa [user] using done

/-- A store to the address does what the reference kernel does: it does not go to a
shared page, and a fault is resolved exactly when the page was made writable. -/
def Space.StoreIsolated (space : Space) (va sp : Nat) (mem : Mem) : Prop :=
  ∀ pte ∈ space.translate va, pte.perm.user = true →
    (pte.perm.writable = true → pte.born.writable = true ∧ mem.count pte.frame = 1) ∧
    (pte.perm.writable = false → pte.cow = true →
      (pte.born.writable = true ↔ va / PGSIZE ≠ 0 ∧ ¬ Forbidden sp va))

instance (va sp : Nat) : Decidable (space.StoreIsolated va sp mem) :=
  inferInstanceAs (Decidable (∀ pte ∈ _, _ → _))

/-- The pages that the reference kernel lets a process store to. -/
theorem Space.view_writable (wf : space.table.WellFormed)
    (serves : space.table.Every Serves) :
    (space.view mem).Writable va ↔
      ∃ pte, space.translate va = some pte ∧ pte.perm.user = true ∧ pte.born.writable = true := by
  constructor
  · rintro ⟨maxva, page, shown, user, writable⟩
    have below : va / PGSIZE < TRAPFRAME := by
      by_contra top
      simp [view, view_top (not_lt.mp top)] at shown
    simp only [view, view_below below] at shown
    obtain ⟨pte, found, rfl⟩ := map_eq_some_iff.mp shown
    refine ⟨pte, ?_, (serves _ _ below found).user.trans user, writable⟩
    rw [translate, if_pos maxva]
    exact wf.lookup found
  · rintro ⟨pte, translated, user, writable⟩
    obtain ⟨maxva, looked⟩ := lookup_of_translate translated
    have found := find_of_lookup looked
    have below := wf.user_below found user
    exact ⟨maxva, _, view_found below found mem,
      (serves _ _ below found).user ▸ user, writable⟩

/-- A write to a page that is counted once. -/
theorem Good.write_single {vpn : Nat} (good : Good layout ext mem table.refs)
    (below : vpn < TRAPFRAME) (found : table.leaves.find vpn = some pte)
    (single : mem.count pte.frame = 1) (contents : Page) :
    Keeps layout ext mem table.refs (mem.fill pte.frame contents) table.refs :=
  good.fill (good.unshared below found single) contents

/-- An operation on the page table of an address space. -/
theorem Moves.ofTable
    (moves : Moves layout (ext + Pi.single space.trapframe 1) mem space.table.refs after table.refs)
    (table_eq : space'.table = table) (trapframe_eq : space'.trapframe = space.trapframe) :
    Moves layout ext mem space.refs after space'.refs := by
  have framed := moves.framed (single_nonneg space.trapframe)
  rw [Space.refs, Space.refs, table_eq, trapframe_eq, add_comm, add_comm (Pi.single _ _)]
  exact framed

/-- What a store has in common with the reference kernel, and that it leaves the rest
of memory alone. -/
structure Follows (layout : Layout) (ext : Frame → ℤ) (space : Space) (mem : Mem) (space' : Space)
    (after : Mem) (expected : Eager.Space) : Prop where
  view : expected = space'.view after
  moves : Moves layout ext mem space.refs after space'.refs

theorem Good.store_direct (good : Good layout ext mem space.refs) (wf : space.WellFormed)
    (serves : space.table.Every Serves) (isolated : space.StoreIsolated va sp mem)
    (written : space.write va byte mem = some after) :
    Follows layout ext space mem space after ((space.view mem).store va byte sp) := by
  obtain ⟨pte, translated, user, writable, rfl⟩ := Space.write_some written
  obtain ⟨born, single⟩ := (isolated pte translated user).1 writable
  have found := find_of_lookup (Space.lookup_of_translate translated).2
  have below := wf.table.user_below found user
  constructor
  · rw [store,
      if_pos ((Space.view_writable wf.table serves).mpr ⟨pte, translated, user, born⟩)]
    simp only [Space.view, good.tablePart.view_write below found single]
  · exact (good.tablePart.write_single below found single _).toMoves.ofTable rfl rfl

/-- A store after `cowalloc` has put a private copy in place. -/
theorem Good.store_resolved {mem1 : Mem} {entry : Pte} (good : Good layout ext mem space.refs)
    (wf : space.WellFormed)
    (cow : space.table.cowalloc layout (va / PGSIZE * PGSIZE) mem = .ok (true, table, mem1))
    (isWritable : (space.view mem).Writable va) (below : va / PGSIZE < TRAPFRAME)
    (found : table.leaves.find (va / PGSIZE) = some entry) (single : mem1.count entry.frame = 1) :
    Follows layout ext space mem { space with table }
      (mem1.fill entry.frame ((mem1.page entry.frame).write (va % PGSIZE) [byte]))
      ((space.view mem).store va byte sp) := by
  have moves := (good.tablePart.cowalloc wf.table cow).1
  have good1 := good.tablePart.moves moves
  constructor
  · rw [store, if_pos isWritable]
    simp only [Space.view, good1.view_write below found single,
      good.tablePart.view_cowalloc wf.table cow]
  · exact (moves.trans (good1.write_single below found single _).toMoves).ofTable rfl rfl

/-- A store that faults goes to a copy-on-write page if the reference kernel lets it
through. -/
theorem Space.writable_of_fault (wf : space.table.WellFormed)
    (serves : space.table.Every Serves) (isolated : space.StoreIsolated va sp mem)
    (fault : space.write va byte mem = none) (isWritable : (space.view mem).Writable va) :
    ∃ pte, space.translate va = some pte ∧ pte.cow = true ∧ va / PGSIZE ≠ 0 ∧
      ¬ Forbidden sp va := by
  obtain ⟨pte, translated, user, born⟩ := (view_writable wf serves).mp isWritable
  have readOnly := write_none fault translated user
  have found := find_of_lookup (lookup_of_translate translated).2
  have cow : pte.cow = true := by
    simpa [readOnly] using (serves _ _ (wf.user_below found user) found).writable born
  obtain ⟨nonzero, allowed⟩ := ((isolated pte translated user).2 readOnly cow).mp born
  exact ⟨pte, translated, cow, nonzero, allowed⟩

/-- A store that `usertrap` answers by killing the process. -/
theorem Good.store_killed {allowed : Bool} (good : Good layout ext mem space.refs)
    (wf : space.WellFormed) (serves : space.table.Every Serves)
    (isolated : space.StoreIsolated va sp mem) (fault : space.write va byte mem = none)
    (cow : space.table.cowalloc layout (va / PGSIZE * PGSIZE) mem = .ok (allowed, table, after))
    (fatal : Space.Forbidden sp va ∨ ¬ allowed = true) (succeeded : after.failed = false) :
    Follows layout ext space mem { space with table, killed := true } after
      ((space.view mem).store va byte sp) := by
  have accepted := space.table.accepted_iff serves wf.table va mem
  have refused : ¬ Space.Forbidden sp va →
      ¬ ∃ pte, Accepted space.table (va / PGSIZE * PGSIZE) pte := by
    intro notForbidden
    have stopped := fatal.resolve_left notForbidden
    cases cowalloc_outcome cow with
    | refused no => exact not_exists.mpr no
    | noMemory _ _ noPage =>
      rw [Mem.kalloc_none noPage] at succeeded
      cases succeeded
    | plain | resolved => exact absurd rfl stopped
  have readOnly : ¬ (space.view mem).Writable va := by
    intro isWritable
    obtain ⟨pte, -, -, nonzero, notForbidden⟩ :=
      Space.writable_of_fault wf.table serves isolated fault isWritable
    obtain ⟨maxva, page, shown, user, -⟩ := isWritable
    exact refused notForbidden (accepted.mpr ⟨nonzero, maxva, page, shown, user⟩)
  refine ⟨?_, (good.tablePart.cowalloc wf.table cow).1.ofTable rfl rfl⟩
  rw [store, if_neg readOnly, if_pos]
  · simp only [Space.view, good.tablePart.view_cowalloc wf.table cow]
  · by_cases forbidden : Space.Forbidden sp va
    · exact .inl forbidden
    · exact .inr fun user => refused forbidden (accepted.mpr user)

theorem Good.store_follows (good : Good layout ext mem space.refs) (wf : space.WellFormed)
    (serves : space.table.Every Serves) (isolated : space.StoreIsolated va sp mem)
    (done : space.store layout va byte sp mem = .ok (space', after))
    (succeeded : after.failed = false) :
    Follows layout ext space mem space' after ((space.view mem).store va byte sp) := by
  unfold Space.store at done
  split at done
  case h_1 written =>
    cases done
    exact good.store_direct wf serves isolated written
  case h_2 fault =>
    obtain ⟨⟨allowed, table, mem1⟩, cow, rest⟩ := ok_of_bind done
    simp only at rest
    split_ifs at rest with fatal
    · cases rest
      exact good.store_killed wf serves isolated fault cow fatal succeeded
    · obtain ⟨notForbidden, granted⟩ := not_or.mp fatal
      cases cowalloc_outcome cow with
      | refused | noMemory => exact absurd Bool.false_ne_true granted
      | @plain pte accept plain =>
        have readOnly : ¬ (space.view mem).Writable va := by
          intro isWritable
          obtain ⟨entry, translated, isCow, -⟩ :=
            Space.writable_of_fault wf.table serves isolated fault isWritable
          obtain rfl := some.inj
            ((Space.lookup_of_translate translated).2.symm.trans accept.page.2)
          simp [plain] at isCow
        have user := (space.table.accepted_iff serves wf.table va mem).mp ⟨pte, accept⟩
        rw [show ({ space with table := space.table } : Space) = space from rfl, fault] at rest
        cases rest
        refine ⟨?_, good.refl.toMoves⟩
        rw [store, if_neg readOnly, if_neg]
        · rfl
        · exact fun stopped => stopped.elim notForbidden fun refused => refused user
      | @resolved pte frame taken _ accept isCow allocated dropped =>
        obtain ⟨nonzero, looked⟩ := accept.page
        have found := find_of_lookup looked
        have below := wf.table.user_below found accept.user
        have maxva : va < MAXVA :=
          ((space.table.accepted_iff serves wf.table va mem).mp ⟨pte, accept⟩).2.1
        have translated : space.translate va = some pte := by
          rw [Space.translate, if_pos maxva, looked]
        have readOnly := Space.write_none fault translated accept.user
        have born := ((isolated pte translated accept.user).2 readOnly isCow).mpr
          ⟨nonzero, notForbidden⟩
        have isWritable : (space.view mem).Writable va :=
          (Space.view_writable wf.table serves).mpr ⟨pte, translated, accept.user, born⟩
        have single := (good.tablePart.resolved_page below found allocated dropped).1
        have wf' := wf.table.cowalloc cow
        rw [page_of_base] at cow rest wf'
        have entry : (space.table.leaves.insert (va / PGSIZE) (pte.resolved frame)).find
            (va / PGSIZE) = some (pte.resolved frame) := by simp
        have retranslated : Space.translate { space with table := { space.table with
            leaves := space.table.leaves.insert (va / PGSIZE) (pte.resolved frame) } } va =
            some (pte.resolved frame) := by
          rw [Space.translate, if_pos maxva]
          exact wf'.lookup entry
        simp only [Space.write, retranslated] at rest
        cases rest
        exact good.store_resolved wf cow isWritable below entry single

/-! ## `copyout` -/

/-- `copyout` does not write to a shared page without copying it. -/
def Space.CopyoutIsolated (space : Space) (dstva : Nat) (mem : Mem) : Prop :=
  ∀ pte ∈ space.table.lookup (dstva / PGSIZE), dstva / PGSIZE ≠ 0 → pte.perm.user = true →
    pte.cow = false → mem.count pte.frame = 1

instance (dstva : Nat) : Decidable (space.CopyoutIsolated dstva mem) :=
  inferInstanceAs (Decidable (∀ pte ∈ _, _ → _))

theorem Good.copyout_follows {dstva : Nat} {src : List UInt8} {copied : Bool}
    (good : Good layout ext mem space.refs) (wf : space.WellFormed)
    (serves : space.table.Every Serves) (isolated : space.CopyoutIsolated dstva mem)
    (done : space.table.copyoutPage layout dstva src mem = .ok (copied, table, after))
    (succeeded : after.failed = false) :
    Follows layout ext space mem { space with table } after
      ((space.view mem).copyout dstva src) := by
  have single : ∀ pte, Accepted space.table (dstva / PGSIZE * PGSIZE) pte → pte.cow = false →
      mem.count pte.frame = 1 := fun pte accept plain =>
    isolated pte accept.page.2 accept.page.1 accept.user plain
  have part := good.tablePart
  obtain ⟨page, unchanged⟩ :=
    part.view_copyoutPage wf.table serves single done succeeded
  constructor
  · unfold Eager.Space.copyout
    simp only [Space.view, page]
    cases copied with
    | true => rfl
    | false =>
      rw [← unchanged rfl]
      rfl
  · cases part.copyoutPage_outcome wf.table done with
    | refused => exact good.refl.toMoves
    | noMemory noPage => exact (good.kalloc_none noPage).toMoves
    | plain accept plain =>
      have found := find_of_lookup accept.page.2
      have below := wf.table.user_below found accept.user
      exact (part.write_single below found (single _ accept plain) _).toMoves.ofTable rfl rfl
    | resolved cow accept found alone =>
      have below := wf.table.user_below (find_of_lookup accept.page.2)
        accept.user
      have moves := (part.cowalloc wf.table cow).1
      exact (moves.trans
        ((part.moves moves).write_single below found alone _).toMoves).ofTable rfl rfl

end Xv6.Vm
