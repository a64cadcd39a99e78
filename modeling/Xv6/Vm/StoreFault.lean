import Xv6.Vm.PageInvariant

/-!
# Store page faults

What `usertrap` makes of a store page fault, `scause` 15.  A fault should end in one of two ways:
the process is killed, or the page can be written, with its old contents and with no other
reference to it; and a process should only be killed if the page was not one to be written, or
memory ran out.
-/

namespace Xv6.Vm

open Transition PageTable

variable {layout : Layout} {ext : Frame → ℤ} {mem after : Mem} {table : PageTable} {va : Nat}
  {space : Space}

/-- `usertrap` for `scause` 15; `sp` is the user's stack pointer. -/
def Space.storeFault (layout : Layout) (space : Space) (va sp : Nat) (mem : Mem) :
    Except Panic (Space × Mem) := do
  let (resolved, table, mem) ← space.table.cowalloc layout (va / PGSIZE * PGSIZE) mem
  let space := { space with table }
  if Forbidden sp va ∨ ¬ resolved then .ok ({ space with killed := true }, mem)
  else .ok (space, mem)

/-! ## The pages that `cowalloc` takes -/

theorem base_lt_iff : va / PGSIZE * PGSIZE < MAXVA ↔ va < MAXVA := by
  change va / 4096 * 4096 < 2 ^ 38 ↔ va < 2 ^ 38
  omega

theorem base_ne_zero_iff : va / PGSIZE * PGSIZE ≠ 0 ↔ va / PGSIZE ≠ 0 := by
  change va / 4096 * 4096 ≠ 0 ↔ va / 4096 ≠ 0
  omega

/-- A page that the hardware finds for user mode. -/
structure Space.UserPage (space : Space) (va : Nat) (pte : Pte) : Prop where
  found : space.translate va = some pte
  user : pte.perm.user = true

theorem Space.UserPage.unique {pte pte' : Pte} (page : space.UserPage va pte)
    (page' : space.UserPage va pte') : pte = pte' :=
  Option.some.inj (page.found.symm.trans page'.found)

theorem Accepted.userPage {pte : Pte} (accepted : Accepted space.table (va / PGSIZE * PGSIZE) pte) :
    va / PGSIZE ≠ 0 ∧ space.UserPage va pte := by
  obtain ⟨nonzero, found⟩ := accepted.page
  refine ⟨nonzero, ?_, accepted.user⟩
  unfold Space.translate
  rw [if_pos (base_lt_iff.mp accepted.below), found]

theorem Space.UserPage.accepted {pte : Pte} (page : space.UserPage va pte)
    (good : Good layout ext mem space.table.refs) (wf : space.table.WellFormed)
    (nonzero : va / PGSIZE ≠ 0) : Accepted space.table (va / PGSIZE * PGSIZE) pte := by
  obtain ⟨below, found⟩ := Space.lookup_of_translate page.found
  have leaf := find_of_lookup found
  have managed := good.leaf_managed (wf.user_below leaf page.user) leaf
  refine ⟨base_ne_zero_iff.mpr nonzero, base_lt_iff.mpr below, ?_, page.user, ?_⟩
  · rw [page_of_base]
    exact found
  · exact (layout.first_pos.trans_le managed.1).ne'

/-! ## How a fault ends -/

namespace System

variable {system : System} {slot : Slot} {space space' : Space} {sp : Nat}

/-- The page of the address can be written, has its old contents, and the mapping is the only
reference to it. -/
structure Resolved (system : System) (slot : Slot) (va : Nat) (space space' : Space)
    (after : Mem) (old new : Pte) : Prop where
  before : space.translate va = some old
  found : space'.translate va = some new
  user : new.perm.user = true
  writable : new.perm.writable = true
  contents : after.page new.frame = system.mem.page old.frame
  alone : (system.put slot (some space') after).refs new.frame = 1

/-- The process may be killed: the page is not one to be written, or memory has run out. -/
def MayKill (system : System) (space : Space) (va : Nat) : Prop :=
  (∀ pte, space.UserPage va pte → pte.perm.writable = false ∧ pte.cow = false) ∨
    system.mem.kalloc.1 = none

/-- The fault is resolved or fatal, and fatal only if it may be. -/
def Handles (layout : Layout) (system : System) (slot : Slot) (space : Space) (va sp : Nat) :
    Prop :=
  ∃ space' after, space.storeFault layout va sp system.mem = .ok (space', after) ∧
    (space'.killed = true ∨
      ∃ old new, Resolved system slot va space space' after old new) ∧
    (space'.killed = true → system.MayKill space va)

/-- The page that a fault copies. -/
theorem Safe.resolved {pte : Pte} {frame : Frame} {taken after : Mem} (safe : system.Safe layout)
    (occupied : system.space slot = some space)
    (accepted : Accepted space.table (va / PGSIZE * PGSIZE) pte)
    (allocated : system.mem.kalloc = (some frame, taken))
    (dropped : (taken.fill frame (taken.page pte.frame)).krefdecr layout pte.frame = .ok after)
    (killed : Bool) :
    Resolved system slot va space
      { space with
        table := { space.table with
          leaves := space.table.leaves.insert (va / PGSIZE) (pte.resolved frame) }
        killed }
      after pte (pte.resolved frame) := by
  have wf := (safe.wellFormed slot space occupied).table
  have part := safe.part slot
  rw [slotRefs_of_space occupied] at part
  obtain ⟨othersZero, ownZero⟩ := part.kalloc_unused allocated
  obtain ⟨nonzero, page⟩ := accepted.userPage
  have find : space.table.leaves.find (va / PGSIZE) = some pte := by
    have found := accepted.find
    rwa [page_of_base] at found
  have low := wf.user_below find accepted.user
  have tableNonneg := space.table.refs_nonneg frame
  have trapNonneg := single_nonneg space.trapframe frame
  have held := one_le_refs find low
  have ne : pte.frame ≠ frame := by
    intro same
    rw [same] at held
    simp only [Space.refs, Pi.add_apply] at ownZero
    omega
  obtain ⟨rest, -, taken_eq⟩ := Mem.kalloc_some allocated
  refine ⟨page.found, ?_, rfl, rfl, ?_, ?_⟩
  · obtain ⟨below, found⟩ := Space.lookup_of_translate page.found
    have reaches : space.table.reaches (va / PGSIZE) = true := by
      unfold lookup at found
      split_ifs at found with reaches
      exact reaches
    unfold Space.translate lookup
    rw [if_pos below]
    change (if space.table.reaches (va / PGSIZE) = true then _ else _) = _
    rw [if_pos reaches]
    simp
  · unfold Mem.krefdecr at dropped
    split_ifs at dropped
    cases dropped
    simp [Pte.resolved, taken_eq, ne]
  · rw [put_refs]
    simp only [Option.elim, Space.refs, refs_resolved find low, Pi.add_apply,
      Pi.sub_apply] at ownZero ⊢
    simp only [Pte.resolved, Pi.single_eq_same, Pi.single_eq_of_ne ne.symm]
    omega

end System

/-- The first process grows by a page and forks. -/
def forked : List Action :=
  [{ op := .userinit 0 [0x17, 0x05] }, { op := .growproc 0 4096 }, { op := .fork 0 1 }]

end Xv6.Vm
