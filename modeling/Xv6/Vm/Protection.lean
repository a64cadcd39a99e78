import Xv6.Vm.PageInvariant

/-!
# Page protections across `fork` and copy-on-write

What a process may do to its pages, compared with the permissions the pages were
made with.  `cowalloc` gives every page it resolves all permissions, and `copyout`
does not look at `PTE_W`, so the protections hold only in the runs in which neither
meets a page that was made with fewer permissions.
-/

namespace Xv6.Vm

open Transition PageTable

variable {layout : Layout} {ext : Frame → ℤ} {mem after : Mem} {space : Space}

/-! ## The property -/

/-- After any page fault a store to the address goes through. -/
def Space.StoreReaches (layout : Layout) (space : Space) (va : Nat) (mem : Mem) : Prop :=
  ∃ byte sp space' after, space.store layout va byte sp mem = .ok (space', after) ∧
    space'.killed = false ∧
    ∃ pte, space'.translate va = some pte ∧ pte.perm.user = true ∧ pte.perm.writable = true

/-- The kernel writes to the address through `copyout`. -/
def Space.CopyoutReaches (layout : Layout) (space : Space) (va : Nat) (mem : Mem) : Prop :=
  ∃ src table after, space.table.copyoutPage layout va src mem = .ok (true, table, after)

/-- The user pages of a process are used only as they were made to be used. -/
structure Space.Protected (layout : Layout) (space : Space) (mem : Mem) : Prop where
  store : ∀ va pte, va / PGSIZE < TRAPFRAME → space.translate va = some pte →
    space.StoreReaches layout va mem → pte.born.writable = true
  copyout : ∀ va pte, va / PGSIZE < TRAPFRAME → space.translate va = some pte →
    space.CopyoutReaches layout va mem → pte.born.writable = true
  execute : ∀ va pte, va / PGSIZE < TRAPFRAME → space.translate va = some pte →
    pte.perm.user = true → pte.perm.executable = true → pte.born.executable = true
  /-- The stack guard page, which is made without `PTE_U`, is never accessible. -/
  guard : ∀ va pte, va / PGSIZE < TRAPFRAME → space.translate va = some pte →
    pte.born.user = false → pte.perm.user = false
  /-- Only `PTE_W` is ever taken away, and only while the page is copy-on-write. -/
  permissions : ∀ va pte, va / PGSIZE < TRAPFRAME → space.translate va = some pte →
    { pte.perm with writable := pte.born.writable } = pte.born ∧
      (pte.cow = false → pte.perm = pte.born)

/-- All processes use their pages only as they were made to be used. -/
def System.Protected (layout : Layout) (system : System) : Prop :=
  ∀ slot space, system.space slot = some space → space.Protected layout system.mem

/-! ## The invariant of one page -/

/-- A page above page 0 that user code can reach was made writable, and the
permissions are those the page was made with, except for `PTE_W` while it is
copy-on-write. -/
structure Tidy (vpn : Nat) (pte : Pte) : Prop where
  readable : pte.born.readable = true
  writable : vpn ≠ 0 → pte.born.user = true → pte.born.writable = true
  perm : pte.perm = if pte.cow then { pte.born with writable := false } else pte.born

namespace Tidy

variable {vpn : Nat} {pte : Pte}

theorem user (tidy : Tidy vpn pte) : pte.perm.user = pte.born.user := by
  rw [tidy.perm]
  split <;> rfl

theorem executable (tidy : Tidy vpn pte) : pte.perm.executable = pte.born.executable := by
  rw [tidy.perm]
  split <;> rfl

theorem writable_of_perm (tidy : Tidy vpn pte) (writable : pte.perm.writable = true) :
    pte.born.writable = true := by
  rw [tidy.perm] at writable
  split at writable
  · cases writable
  · exact writable

theorem made {perm : Perm} {frame : Frame} (readable : perm.readable = true)
    (writable : vpn ≠ 0 → perm.user = true → perm.writable = true) : Tidy vpn (.made perm frame) :=
  ⟨readable, writable, rfl⟩

theorem shared (tidy : Tidy vpn pte) : Tidy vpn pte.shared where
  readable := tidy.readable
  writable := tidy.writable
  perm := by
    simp only [Pte.shared, tidy.perm]
    split <;> rfl

theorem guarded (tidy : Tidy vpn pte) : Tidy vpn pte.guarded where
  readable := tidy.readable
  writable := by simp [Pte.guarded]
  perm := by
    simp only [Pte.guarded, tidy.perm]
    split <;> rfl

/-- A page that was made with all permissions gets them back. -/
theorem resolved (tidy : Tidy vpn pte) (nonzero : vpn ≠ 0) (user : pte.perm.user = true)
    (executable : pte.born.executable = true) (frame : Frame) : Tidy vpn (pte.resolved frame) where
  readable := tidy.readable
  writable := tidy.writable
  perm := by
    have bornUser := tidy.user ▸ user
    have all : pte.born = ⟨true, true, true, true⟩ := by
      cases born : pte.born
      have readable := tidy.readable
      have writable := tidy.writable nonzero bornUser
      simp_all
    simp [Pte.resolved, all]

end Tidy

/-! ## The invariant gives the property -/

/-- A store goes through only to a page that is writable, or that `cowalloc`
accepts. -/
theorem Space.StoreReaches.cases {va : Nat} {pte : Pte} (found : space.translate va = some pte)
    (reaches : space.StoreReaches layout va mem) :
    pte.perm.writable = true ∨ Accepted space.table (va / PGSIZE * PGSIZE) pte := by
  obtain ⟨byte, sp, space', after, stored, alive, entry, here, user, writable⟩ := reaches
  have lookup := (lookup_of_translate found).2
  unfold Space.store at stored
  split at stored
  · cases stored
    obtain rfl : pte = entry := by simpa [found] using here
    exact .inl writable
  · obtain ⟨⟨allowed, table, mem1⟩, cow, rest⟩ := ok_of_bind stored
    simp only at rest
    split_ifs at rest with fatal
    · cases rest
      cases alive
    · cases rest
      cases cowalloc_outcome cow with
      | refused | noMemory => simp at fatal
      | plain =>
        obtain rfl : pte = entry := by simpa [found] using here
        exact .inl writable
      | resolved accepted =>
        have page := accepted.page.2
        obtain rfl := Option.some.inj (lookup.symm.trans page)
        exact .inr accepted

/-- `copyout` writes only to a page that `cowalloc` accepts. -/
theorem Space.CopyoutReaches.accepted {va : Nat} {pte : Pte} (found : space.translate va = some pte)
    (reaches : space.CopyoutReaches layout va mem) :
    Accepted space.table (va / PGSIZE * PGSIZE) pte := by
  obtain ⟨src, table, after, copied⟩ := reaches
  have lookup := (lookup_of_translate found).2
  unfold copyoutPage at copied
  split_ifs at copied
  · cases copied
  · obtain ⟨⟨allowed, table1, mem1⟩, cow, rest⟩ := ok_of_bind copied
    cases cowalloc_outcome cow with
    | refused | noMemory => cases rest
    | plain accepted | resolved accepted =>
      have page := accepted.page.2
      obtain rfl := Option.some.inj (lookup.symm.trans page)
      exact accepted

theorem Space.protected_of_tidy (tidy : space.table.Every Tidy) (mem : Mem) :
    space.Protected layout mem := by
  have page : ∀ va pte, va / PGSIZE < TRAPFRAME → space.translate va = some pte →
      Tidy (va / PGSIZE) pte := fun va pte below found =>
    tidy _ _ below (find_of_lookup (lookup_of_translate found).2)
  have accepted : ∀ va pte, va / PGSIZE < TRAPFRAME → space.translate va = some pte →
      Accepted space.table (va / PGSIZE * PGSIZE) pte → pte.born.writable = true := by
    intro va pte below found accepted
    have here := page va pte below found
    exact here.writable accepted.page.1 (here.user ▸ accepted.user)
  constructor
  case store =>
    intro va pte below found reaches
    obtain writable | accept := reaches.cases found
    · exact (page va pte below found).writable_of_perm writable
    · exact accepted va pte below found accept
  case copyout =>
    intro va pte below found reaches
    exact accepted va pte below found (reaches.accepted found)
  case execute =>
    intro va pte below found _ executable
    exact (page va pte below found).executable ▸ executable
  case guard =>
    intro va pte below found guard
    exact (page va pte below found).user.trans guard
  case permissions =>
    intro va pte below found
    have here := (page va pte below found).perm
    constructor
    · rw [here]
      split <;> rfl
    · intro plain
      simpa [plain] using here

/-! ## Whole runs -/

namespace System

variable {system after : System}

/-- A page that `cowalloc` would resolve was made executable. -/
def ResolvesExecutable (space : Space) (vpn : Nat) : Prop :=
  vpn ≠ 0 → ∀ pte ∈ space.table.lookup vpn,
    pte.perm.user = true → pte.cow = true → pte.born.executable = true

instance (space : Space) (vpn : Nat) : Decidable (ResolvesExecutable space vpn) :=
  inferInstanceAs (Decidable (_ → ∀ pte ∈ _, _))

/-- Every program that is executed has only writable pages above page 0, and no page
that was not made executable is resolved by `cowalloc`. -/
def Discreet (system : System) (action : Action) : Prop :=
  match action.op with
  | .exec _ program _ =>
    ∀ header ∈ program.headers, ∀ ph ∈ header, ph.load = true →
      (flags2perm ph.flags).writable = true ∨ add64 ph.vaddr ph.memsz ≤ PGSIZE
  | .store slot va _ _ => ∀ space ∈ system.space slot, ResolvesExecutable space (va / PGSIZE)
  | .copyout slot dstva _ =>
    ∀ space ∈ system.space slot, ResolvesExecutable space (dstva / PGSIZE)
  | _ => True

instance (action : Action) : Decidable (system.Discreet action) :=
  match action with
  | ⟨.exec _ _ _, _⟩ => inferInstanceAs (Decidable (∀ header ∈ _, ∀ ph ∈ header, _))
  | ⟨.store _ _ _ _, _⟩ | ⟨.copyout _ _ _, _⟩ => inferInstanceAs (Decidable (∀ space ∈ _, _))
  | ⟨.kalloc, _⟩ | ⟨.kfree _, _⟩ | ⟨.userinit _ _, _⟩ | ⟨.fork _ _, _⟩ | ⟨.growproc _ _, _⟩
  | ⟨.freeproc _, _⟩ => inferInstanceAs (Decidable True)

theorem tidy_rule : PageRule Tidy where
  init := fun _ _ => .made rfl fun _ _ => rfl
  heap := fun _ _ _ => .made rfl fun _ _ => rfl
  shared := fun _ _ tidy => tidy.shared
  guarded := fun _ _ tidy => tidy.guarded

theorem ResolvesExecutable.tidy {space : Space} {vpn : Nat}
    (resolves : ResolvesExecutable space vpn) : ResolvesTo Tidy space vpn :=
  fun nonzero pte found user cow tidy frame _ =>
    tidy.resolved nonzero user (resolves nonzero pte found user cow) frame

theorem Discreet.permits {action : Action} (discreet : system.Discreet action) :
    system.Permits Tidy action.op := by
  obtain ⟨op, fails⟩ := action
  cases op with
  | exec slot program argv =>
    intro ph member load vpn frame _ below
    refine .made rfl fun nonzero _ => ?_
    obtain isWritable | small := discreet _ member ph rfl load
    · exact isWritable
    · have : pagesBelow (add64 ph.vaddr ph.memsz) ≤ 1 := pagesBelow_le (by simpa using small)
      omega
  | store | copyout => exact fun space occupied => (discreet space occupied).tidy
  | kalloc | kfree | userinit | fork | growproc | freeproc => trivial

end System

/-- In a run that executes only programs with writable pages above page 0, and in
which `cowalloc` resolves only pages made executable, every process uses its pages only
as they were made to be used. -/
theorem protections_survive (layout : Layout) {actions : List Action} {system : System}
    (run : Run (Guarded System.Discreet (Step layout))
      (System.boot layout) actions system) : system.Protected layout := by
  have inv : system.Safe layout ∧ system.Every Tidy := by
    apply run.invariant _ ⟨System.boot_safe, fun _ _ found => by cases found⟩
    rintro before action after ⟨safe, tidy⟩ ⟨discreet, stepped⟩
    exact ⟨safe.step stepped, tidy.step System.tidy_rule safe discreet.permits stepped⟩
  exact fun slot space occupied => Space.protected_of_tidy (inv.2 slot space occupied) system.mem

/-- The first process, whose only page has all permissions, forks, and the child
stores to the stack of a program it executes. -/
theorem protections_survive_exec : ∃ system, Run (Guarded System.Discreet (Step smallMachine))
        (System.boot smallMachine)
        [{ op := .userinit 0 [0x17, 0x05] }, { op := .fork 0 1 },
          { op := .exec 1 ⟨true, [some ⟨true, 7, 0, 0, 0, 8192, by decide⟩], []⟩ [[0x61]] },
          { op := .fork 1 2 }, { op := .store 2 4096 7 0 }] system ∧
      system.Protected smallMachine := by
  have outcome : (runAll
      (guardedExec System.Discreet (System.step smallMachine)) (System.boot smallMachine)
      [{ op := .userinit 0 [0x17, 0x05] }, { op := .fork 0 1 },
        { op := .exec 1 ⟨true, [some ⟨true, 7, 0, 0, 0, 8192, by decide⟩], []⟩ [[0x61]] },
        { op := .fork 1 2 }, { op := .store 2 4096 7 0 }]).isSome = true := by
    decide +kernel
  obtain ⟨system, performed⟩ := Option.isSome_iff_exists.mp outcome
  have run := Run.of_guardedExec (fun _ _ _ => id) performed
  exact ⟨system, run, protections_survive smallMachine run⟩

/-- A page that `sbrk` makes is not executable.  After a fork and a store by the child
the child can execute it. -/
theorem protections_lost_heap :
    ∃ system space pte, Run (Step smallMachine) (System.boot smallMachine)
        [{ op := .userinit 0 [0x17, 0x05] }, { op := .growproc 0 4096 }, { op := .fork 0 1 },
          { op := .store 1 4096 7 0 }] system ∧
      system.space 1 = some space ∧ space.translate 4096 = some pte ∧ pte.perm.user = true ∧
      pte.perm.executable = true ∧ pte.born.executable = false ∧
      ¬ system.Protected smallMachine := by
  have outcome : ∃ system ∈ runAll (System.step smallMachine) (System.boot smallMachine)
      [{ op := .userinit 0 [0x17, 0x05] }, { op := .growproc 0 4096 }, { op := .fork 0 1 },
        { op := .store 1 4096 7 0 }], ∃ space ∈ system.space 1, ∃ pte ∈ space.translate 4096,
      pte.perm.user = true ∧ pte.perm.executable = true ∧ pte.born.executable = false := by
    decide +kernel
  obtain ⟨system, performed, space, occupied, pte, found, user, now, born⟩ := outcome
  refine ⟨system, space, pte, .of_runAll (fun _ _ _ => id) performed, occupied, found, user, now,
    born, fun safe => ?_⟩
  have executable := (safe 1 space occupied).execute 4096 pte (by decide) found user now
  rw [born] at executable
  cases executable

end Xv6.Vm
