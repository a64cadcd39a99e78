import Xv6.Vm.System

/-!
# The reference kernel

The same system calls over private memory: `fork` gives the child its own copy of
every page below `p->sz`, no two processes share a page and allocation never fails.
An address space is a map from page numbers to pages with the permissions they were
made with.
-/

namespace Xv6.Vm.Eager

open Function (update)

/-- A private page. -/
structure PrivatePage where
  data : Page
  perm : Perm

/-- The user memory of a process. -/
abbrev Pages := Nat → Option PrivatePage

/-- An address space of the reference kernel. -/
structure Space where
  pages : Pages
  sz : Nat
  killed : Bool := false

namespace Pages

/-- Add zeroed pages. -/
def grow (perm : Perm) (vpn npages : Nat) (pages : Pages) : Pages :=
  fun other => if vpn ≤ other ∧ other < vpn + npages then some ⟨0, perm⟩ else pages other

/-- Remove pages. -/
def shrink (vpn npages : Nat) (pages : Pages) : Pages :=
  fun other => if vpn ≤ other ∧ other < vpn + npages then none else pages other

/-- Overwrite part of a page. -/
def write (vpn offset : Nat) (bytes : List UInt8) (pages : Pages) : Pages :=
  update pages vpn
    ((pages vpn).map fun page => { page with data := page.data.write offset bytes })

/-- `uvmclear`. -/
def uvmclear (vpn : Nat) (pages : Pages) : Pages :=
  update pages vpn
    ((pages vpn).map fun page => { page with perm := { page.perm with user := false } })

/-- `uvmalloc`. -/
def uvmalloc (oldsz newsz : Nat) (xperm : Perm) (pages : Pages) : Nat × Pages :=
  if newsz < oldsz then (oldsz, pages)
  else (newsz,
    pages.grow xperm.forUser (pgRoundUp oldsz) (pagesBelow newsz - pgRoundUp oldsz))

/-- `uvmdealloc`. -/
def uvmdealloc (oldsz newsz : Nat) (pages : Pages) : Nat × Pages :=
  if oldsz ≤ newsz then (oldsz, pages)
  else (newsz, pages.shrink (pgRoundUp newsz) (pgRoundUp oldsz - pgRoundUp newsz))

/-- The page is mapped for the user. -/
def IsUser (pages : Pages) (vpn : Nat) : Prop :=
  ∃ page ∈ pages vpn, page.perm.user = true

instance (pages : Pages) (vpn : Nat) : Decidable (pages.IsUser vpn) :=
  inferInstanceAs (Decidable (∃ page ∈ _, _))

/-- One turn of `copyout`, `none` for -1.  Page 0 is refused. -/
def copyoutPage (dstva : Nat) (src : List UInt8) (pages : Pages) : Option Pages :=
  if dstva / PGSIZE ≠ 0 ∧ dstva < MAXVA ∧ pages.IsUser (dstva / PGSIZE) then
    some (pages.write (dstva / PGSIZE) (dstva % PGSIZE) src)
  else none

/-- The loop of `copyout`. -/
def copyoutLoop : (turns dstva : Nat) → List UInt8 → Pages → Option Pages
  | 0, _, _, pages => some pages
  | turns + 1, dstva, src, pages =>
    if src = [] then some pages
    else
      let n := PGSIZE - dstva % PGSIZE
      (pages.copyoutPage dstva (src.take n)).bind fun pages =>
        copyoutLoop turns ((dstva / PGSIZE + 1) * PGSIZE) (src.drop n) pages

/-- `copyout`. -/
def copyout (dstva : Nat) (src : List UInt8) (pages : Pages) : Option Pages :=
  copyoutLoop src.length dstva src pages

variable (program : Program)

/-- The loop of `loadseg`. -/
def loadsegLoop (va off sz : Nat) : (turns i : Nat) → Pages → Option Pages
  | 0, _, pages => some pages
  | turns + 1, i, pages =>
    let n := min (sz - i) PGSIZE
    let bytes := program.readi ((off + i) % 2 ^ 32) n
    if bytes.length = n then
      loadsegLoop va off sz turns (i + PGSIZE) (pages.write (add64 va i / PGSIZE) 0 bytes)
    else none

/-- `loadseg`. -/
def loadseg (va off sz : Nat) (pages : Pages) : Option Pages :=
  loadsegLoop program va (off % 2 ^ 32) (sz % 2 ^ 32) (pagesBelow (sz % 2 ^ 32)) 0 pages

/-- The loop of `exec` over the program headers. -/
def loadSegments : List (Option ProgHdr) → Nat → Pages → Option (Nat × Pages)
  | [], sz, pages => some (sz, pages)
  | none :: _, _, _ => none
  | some ph :: headers, sz, pages =>
    if ph.load then
      if ph.WellFormed then
        let (sz1, pages) :=
          pages.uvmalloc sz (add64 ph.vaddr ph.memsz) (flags2perm ph.flags)
        if sz1 = 0 then none
        else (pages.loadseg program ph.vaddr ph.off ph.filesz).bind fun pages =>
          loadSegments headers sz1 pages
      else none
    else loadSegments headers sz pages

/-- The loop of `exec` over the arguments. -/
def pushArgs (stackbase : Nat) :
    List (List UInt8) → (ustack : List Nat) → (sp : Nat) → Pages → Option Pages
  | [], ustack, sp, pages =>
    let sp := Vm.Space.pushed sp ((ustack.length + 1) * 8)
    if sp < stackbase then none
    else pages.copyout sp ((ustack ++ [0]).flatMap littleEndian64)
  | arg :: argv, ustack, sp, pages =>
    let sp := Vm.Space.pushed sp (arg.length + 1)
    if MAXARG ≤ ustack.length ∨ sp < stackbase then none
    else (pages.copyout sp (arg ++ [0])).bind fun pages =>
      pushArgs stackbase argv (ustack ++ [sp]) sp pages

/-- The new image of `exec`. -/
def buildImage (argv : List (List UInt8)) (pages : Pages) : Option (Nat × Pages) :=
  (loadSegments program program.headers 0 pages).bind fun (sz, pages) =>
    let sz := pgRoundUp sz * PGSIZE
    let (sz1, pages) := pages.uvmalloc sz (add64 sz (2 * PGSIZE)) { writable := true }
    if sz1 = 0 then none
    else
      (pushArgs (sub64 sz1 PGSIZE) argv [] sz1
        (pages.uvmclear (sub64 sz1 (2 * PGSIZE) / PGSIZE))).map fun pages => (sz1, pages)

end Pages

namespace Space

/-- `userinit`. -/
def userinit (initcode : List UInt8) : Space where
  pages := update (fun _ => none) 0
    (some ⟨Page.write 0 0 initcode, ⟨true, true, true, true⟩⟩)
  sz := PGSIZE

/-- `fork` copies every page below `p->sz`. -/
def fork (parent : Space) : Space where
  pages := fun vpn => if vpn < pagesBelow parent.sz then parent.pages vpn else none
  sz := parent.sz

/-- `growproc`. -/
def growproc (space : Space) (n : ℤ) : Space :=
  let newsz := ((space.sz + n) % 2 ^ 64).toNat
  if 0 < n then
    let (sz, pages) := space.pages.uvmalloc space.sz newsz { writable := true }
    if sz = 0 then { space with pages } else { space with pages, sz }
  else if n < 0 then
    let (sz, pages) := space.pages.uvmdealloc space.sz newsz
    { space with pages, sz }
  else space

/-- `exec`; the space is unchanged when it fails. -/
def exec (space : Space) (program : Program) (argv : List (List UInt8)) : Space :=
  if program.valid then
    match Pages.buildImage program argv (fun _ => none) with
    | some (sz, pages) => { space with pages, sz }
    | none => space
  else space

/-- A load instruction in user mode. -/
def load (space : Space) (va : Nat) : Option UInt8 :=
  if va < MAXVA ∧ ¬ space.killed then
    (space.pages (va / PGSIZE)).bind fun page =>
      if page.perm.user ∧ page.perm.readable then some (page.data (Fin.ofNat PGSIZE va)) else none
  else none

/-- The page can be stored to. -/
def Writable (space : Space) (va : Nat) : Prop :=
  va < MAXVA ∧ ∃ page ∈ space.pages (va / PGSIZE), page.perm.user = true ∧ page.perm.writable = true

instance (space : Space) (va : Nat) : Decidable (space.Writable va) :=
  inferInstanceAs (Decidable (_ ∧ ∃ page ∈ _, _))

/-- A store instruction.  When it faults, `usertrap` kills the process unless the
address is on a user page other than page 0; in that case the store faults again. -/
def store (space : Space) (va : Nat) (byte : UInt8) (sp : Nat) : Space :=
  if space.Writable va then
    { space with pages := space.pages.write (va / PGSIZE) (va % PGSIZE) [byte] }
  else if Vm.Space.Forbidden sp va ∨
      ¬ (va / PGSIZE ≠ 0 ∧ va < MAXVA ∧ space.pages.IsUser (va / PGSIZE)) then
    { space with killed := true }
  else space

/-- One turn of `copyout`; the space is unchanged when it fails. -/
def copyout (space : Space) (dstva : Nat) (src : List UInt8) : Space :=
  { space with pages := (space.pages.copyoutPage dstva src).getD space.pages }

end Space

/-- The processes of the reference kernel. -/
abbrev System := Slot → Option Space

/-- The machine before the first process. -/
def System.boot : System := fun _ => none

/-- One operation, `none` when it is not possible. -/
def System.perform (system : System) : Op → Option System
  | .kalloc | .kfree _ => some system
  | .userinit slot initcode =>
    match system slot with
    | some _ => none
    | none => some (update system slot (some (.userinit initcode)))
  | .fork parent child =>
    match (system parent).filter fun space => !space.killed, system child with
    | some space, none => some (update system child (some space.fork))
    | _, _ => none
  | .exec slot program argv =>
    ((system slot).filter fun space => !space.killed).map fun space =>
      update system slot (some (space.exec program argv))
  | .growproc slot n =>
    ((system slot).filter fun space => !space.killed).map fun space =>
      update system slot (some (space.growproc n))
  | .store slot va byte sp =>
    ((system slot).filter fun space => !space.killed).map fun space =>
      update system slot (some (space.store va byte sp))
  | .copyout slot dstva src =>
    (system slot).map fun space =>
      update system slot (some (space.copyout dstva src))
  | .freeproc slot => (system slot).map fun _ => update system slot none

/-- The byte a process reads at an address. -/
def System.load (system : System) (slot : Slot) (va : Nat) : Option UInt8 :=
  (system slot).bind fun space => space.load va

end Xv6.Vm.Eager
