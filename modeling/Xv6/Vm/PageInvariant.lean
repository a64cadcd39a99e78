import Xv6.Vm.Leaves
import Xv6.Vm.PageCounts

/-!
# Properties of all user pages over whole runs

A property of page number and leaf entry that new pages have, that `uvmcopy` and
`uvmclear` keep, and that the pages loaded by `exec` and resolved by `cowalloc` have,
holds of all user pages of all processes.
-/

namespace Xv6.Vm

open Space

variable {layout : Layout} {ext : Frame → ℤ} {mem after : Mem} {space : Space}

/-! ## One address space -/

/-- The image that `exec` makes, or the space it was called on. -/
theorem Good.exec_every {P : Nat → Pte → Prop} {program : Program} {argv : List (List UInt8)}
    {image : Option Space} (good : Good layout ext mem space.refs) (every : space.table.Every P)
    (made : PageTable.ImageProperty P program)
    (done : space.exec layout program argv mem = .ok (image, after)) :
    (image.getD space).table.Every P := by
  cases good.exec_outcome done with
  | invalid | noTable | undone => exact every
  | built _ keeps wf vacant build =>
    exact PageTable.Every.buildImage vacant (good.beside.keeps keeps) wf made build

theorem Space.fork_every {P : Nat → Pte → Prop} {child : Space} (good : Good layout ext mem 0)
    (shared : space.table.Every fun vpn pte => P vpn pte.shared)
    (done : space.fork layout mem = .ok (some child, after)) : child.table.Every P := by
  obtain ⟨fresh, mem1, table, created, copy, rfl⟩ := fork_some done
  obtain ⟨-, shape, -⟩ := good.allocproc created
  exact (shape fresh rfl).2.every.uvmcopy shared copy

theorem Space.growproc_every {P : Nat → Pte → Prop} {space' : Space} {n : ℤ} {grown : Bool}
    (wf : space.WellFormed) (every : space.table.Every P) (nonNull : 0 ∉ mem.freelist)
    (added : ∀ vpn frame, frame ≠ 0 → P vpn (.made (Perm.forUser { writable := true }) frame))
    (done : space.growproc layout n mem = .ok (grown, space', after)) :
    space'.table.Every P := by
  unfold growproc at done
  simp only at done
  split_ifs at done
  · obtain ⟨⟨sz, table, mem'⟩, alloc, finished⟩ := ok_of_bind done
    have every' := every.uvmalloc wf.table wf.fits nonNull
      (fun vpn frame used _ => added vpn frame used) alloc
    simp only [Except.ok.injEq] at finished
    split_ifs at finished
    · cases finished
      exact every'
    · cases finished
      exact every'
  · obtain ⟨⟨sz, table, mem'⟩, dealloc, finished⟩ := ok_of_bind done
    cases finished
    exact every.sub (PageTable.uvmdealloc_kept dealloc)
  · cases done
    exact every

theorem Space.userinit_every {P : Nat → Pte → Prop} {initcode : List UInt8}
    (good : Good layout ext mem 0)
    (added : ∀ frame, frame ≠ 0 → P 0 (.made ⟨true, true, true, true⟩ frame))
    (done : userinit layout initcode mem = .ok (space, after)) : space.table.Every P := by
  obtain ⟨⟨made, mem1⟩, created, rest⟩ := ok_of_bind done
  obtain ⟨keeps, shape, -⟩ := good.allocproc created
  cases made with
  | none => cases rest
  | some empty =>
    obtain ⟨⟨table, mem2⟩, first, finished⟩ := ok_of_bind rest
    cases finished
    obtain ⟨frame, taken, mapMem, allocated, mapping, -⟩ := uvmfirst_ok first
    have used : frame ≠ 0 := fun null =>
      (good.keeps keeps).null_not_free (null ▸ Mem.kalloc_mem allocated)
    have leaves := (PageTable.mappages_shape mapping).leaves
    have every : empty.table.Every P := (shape empty rfl).2.every
    intro vpn pte below found
    have here := every.replaced (fun (_ : 0 < TRAPFRAME) => added frame used) vpn pte below
    rw [if_pos rfl] at leaves
    rw [leaves] at found
    exact here found

theorem page_of_base (va : Nat) : va / PGSIZE * PGSIZE / PGSIZE = va / PGSIZE :=
  Nat.mul_div_cancel _ (by decide)

theorem Space.lookup_of_translate {va : Nat} {pte : Pte} (found : space.translate va = some pte) :
    va < MAXVA ∧ space.table.lookup (va / PGSIZE) = some pte := by
  unfold translate at found
  split_ifs at found with below
  exact ⟨below, found⟩

theorem Accepted.page {table : PageTable} {va : Nat} {pte : Pte}
    (accepted : Accepted table (va / PGSIZE * PGSIZE) pte) :
    va / PGSIZE ≠ 0 ∧ table.lookup (va / PGSIZE) = some pte := by
  have lookup := accepted.lookup
  have nonzero := accepted.ne_zero
  rw [page_of_base] at lookup
  refine ⟨fun zero => nonzero ?_, lookup⟩
  rw [zero, Nat.zero_mul]

/-! ## All address spaces -/

/-- A property that new pages have and that sharing and guarding keep. -/
structure PageRule (P : Nat → Pte → Prop) : Prop where
  init : ∀ frame, frame ≠ 0 → P 0 (.made ⟨true, true, true, true⟩ frame)
  heap : ∀ vpn frame, frame ≠ 0 → P vpn (.made (Perm.forUser { writable := true }) frame)
  shared : ∀ vpn pte, P vpn pte → P vpn pte.shared
  guarded : ∀ vpn pte, P vpn pte → P vpn pte.guarded

namespace System

variable {P : Nat → Pte → Prop} {system after : System}

/-- A property of every user page of every process. -/
def Every (P : Nat → Pte → Prop) (system : System) : Prop :=
  ∀ slot space, system.space slot = some space → space.table.Every P

/-- The page that `cowalloc` would resolve has the property afterwards. -/
def ResolvesTo (P : Nat → Pte → Prop) (space : Space) (vpn : Nat) : Prop :=
  vpn ≠ 0 → ∀ pte ∈ space.table.lookup vpn, pte.perm.user = true → pte.cow = true →
    P vpn pte → ∀ frame, frame ≠ 0 → P vpn (pte.resolved frame)

/-- The pages that an operation loads or resolves have the property. -/
def Permits (P : Nat → Pte → Prop) (system : System) : Op → Prop
  | .exec _ program _ => ∀ ph, some ph ∈ program.headers → ph.load = true →
      ∀ vpn frame, frame ≠ 0 → vpn < pagesBelow (add64 ph.vaddr ph.memsz) →
        P vpn (.made (flags2perm ph.flags).forUser frame)
  | .store slot va _ _ =>
    ∀ space, system.space slot = some space → ResolvesTo P space (va / PGSIZE)
  | .copyout slot dstva _ =>
    ∀ space, system.space slot = some space → ResolvesTo P space (dstva / PGSIZE)
  | _ => True

theorem cowalloc_every {space : Space} {va : Nat} {allowed : Bool} {table : PageTable} {mem1 : Mem}
    (every : space.table.Every P) (nonNull : 0 ∉ mem.freelist)
    (resolves : ResolvesTo P space (va / PGSIZE))
    (cow : space.table.cowalloc layout (va / PGSIZE * PGSIZE) mem = .ok (allowed, table, mem1)) :
    table.Every P := by
  refine every.cowalloc nonNull (fun pte frame used accepted isCow holds => ?_) cow
  obtain ⟨nonzero, page⟩ := accepted.page
  rw [page_of_base] at holds ⊢
  exact resolves nonzero pte page accepted.user isCow holds frame used

theorem Every.perform {op : Op} (rule : PageRule P) (safe : system.Safe layout)
    (every : system.Every P) (permits : system.Permits P op)
    (done : system.perform layout op = some after) : after.Every P := by
  cases performed done with
  | refused | kalloc | kfree => exact every
  | userinit empty made =>
    apply forall_put every
    rintro _ ⟨⟩
    exact userinit_every (safe.part_empty empty).1 rule.init made
  | fork _ occupied empty _ forked =>
    apply forall_put every
    rintro child' ⟨⟩
    refine fork_every (safe.part_empty empty).1 ?_ forked
    intro vpn pte below found
    exact rule.shared vpn pte (every _ _ occupied vpn pte below found)
  | exec _ occupied executed =>
    apply forall_put every
    rintro _ ⟨⟩
    exact (safe.occupiedPart occupied).exec_every (every _ _ occupied)
      ⟨permits, rule.heap, rule.guarded⟩ executed
  | growproc _ occupied grew =>
    apply forall_put every
    rintro _ ⟨⟩
    exact growproc_every (safe.wellFormed _ _ occupied) (every _ _ occupied)
      safe.good.null_not_free rule.heap grew
  | store _ occupied stored =>
    apply forall_put every
    rintro _ ⟨⟩
    obtain ⟨rfl, -⟩ | ⟨allowed, table, mem1, cow, -, rfl, -, -⟩ := store_cases stored
    · exact every _ _ occupied
    · exact cowalloc_every (every _ _ occupied) safe.good.null_not_free
        (permits _ occupied) cow
  | copyout occupied copy =>
    apply forall_put every
    rintro _ ⟨⟩
    obtain ⟨rfl, -⟩ | ⟨allowed, mem1, cow, -⟩ := copyoutPage_cases copy
    · exact every _ _ occupied
    · exact cowalloc_every (every _ _ occupied) safe.good.null_not_free
        (permits _ occupied) cow
  | freeproc => exact forall_put every (by simp)

theorem Every.step {action : Action} (rule : PageRule P) (safe : system.Safe layout)
    (every : system.Every P) (permits : system.Permits P action.op)
    (stepped : Step layout system action after) : after.Every P := by
  have permits' : (system.withFails action.fails).Permits P action.op := by
    obtain ⟨op, fails⟩ := action
    cases op <;> exact permits
  have every' : (system.withFails action.fails).Every P := every
  exact every'.perform rule (safe.withFails action.fails) permits' stepped

end System

end Xv6.Vm
