import Xv6.Vm.PageInvariant
import Xv6.Vm.UserPages

/-!
# The layout of user address spaces

In every state that the kernel reaches, the pages of a process are those below `p->sz` and the
two at the top, and no request of a process ends in a panic of `kernel/vm.c` or `kernel/exec.c`.
-/

namespace Xv6.Vm

open Transition PageTable Space Option

variable {layout : Layout} {ext : Frame → ℤ} {mem after : Mem}
variable {table table' : PageTable} {vpn pages : Nat} {space : Space}

/-- The pages of an address space are those below its size. -/
def Space.Laid (space : Space) : Prop := space.table.Laid (pagesBelow space.sz)

namespace Space

/-! ## Processes -/

theorem allocproc_returns (good : Good layout ext mem 0) :
    Returns (fun (made, _) => ∀ space, made = some space → space.table.Laid 0 ∧ space.sz = 0)
      (allocproc layout mem) := by
  unfold allocproc
  split
  case h_1 => exact .pure (by simp)
  case h_2 trapframe taken allocated =>
    have first := good.kalloc_some allocated
    have trapframeNonneg := single_nonneg trapframe
    have part := (good.keeps first).part (fun _ => le_rfl) trapframeNonneg
    refine (procPagetable_returns part).bind fun (made, mem1) created laid => ?_
    cases made with
    | some table =>
      refine .pure ?_
      rintro _ ⟨⟩
      exact ⟨laid table rfl, rfl⟩
    | none =>
      obtain ⟨second, -⟩ := part.procPagetable created
      have good' := good.keeps (first.trans (second.framed trapframeNonneg))
      exact (kfree_returns good' (by simp)).bind fun freed _ _ => .pure (by simp)

theorem freeproc_returns (good : Good layout ext mem space.refs) (wf : space.WellFormed)
    (solid : space.table.Solid) (spans : space.table.Spans (pagesBelow space.sz)) :
    Returns (fun _ => True) (space.freeproc layout mem) := by
  refine (kfree_returns good space.one_le_refs).bind fun freed done _ => ?_
  exact procFreepagetable_returns (good.keeps (good.kfree_trapframe done)) solid
    (pagesBelow_le wf.fits) spans (pgRoundUp_eq wf.fits)

theorem fork_returns {parent : Space} (good : Good layout ext mem 0) (wf : parent.WellFormed)
    (laid : parent.Laid) (held : parent.table.HeldBy ext) :
    Returns (fun (made, _) => ∀ child, made = some child → child.Laid)
      (parent.fork layout mem) := by
  refine (allocproc_returns good).bind fun (made, mem1) created shape => ?_
  obtain ⟨first, formed, -⟩ := good.allocproc created
  cases made with
  | none => exact .pure (by simp)
  | some child =>
    obtain ⟨childLaid, empty⟩ := shape child rfl
    obtain ⟨wf', vacant⟩ := formed child rfl
    have part := Good.tablePart (good.keeps first)
    have heldPart := held.add_single child.trapframe
    have top := pagesBelow_le wf.fits
    refine (uvmcopyLoop_returns laid.solid
      (fun vpn below => (laid.spans vpn).mpr (Or.inl below)) heldPart (Nat.zero_add _).le top part
      wf'.table childLaid.solid childLaid.spans).bind
        fun (copied, table, mem2) copy ⟨solid, spans⟩ => ?_
    obtain ⟨wf'', -, failure⟩ :=
      part.uvmcopyLoop wf'.table heldPart (by omega) copy
    cases copied with
    | true =>
      refine .pure ?_
      rintro _ ⟨⟩
      rw [if_pos rfl, Nat.zero_add] at spans
      exact ⟨spans, solid, uvmcopyLoop_distinct laid.distinct vacant copy⟩
    | false =>
      obtain ⟨-, frame, keeps⟩ := failure rfl
      have leaked := (part.keeps keeps).part table.refs_nonneg (single_nonneg frame)
      have good' : Good layout (ext + Pi.single frame 1) mem2
          ({ child with table } : Space).refs := by
        refine leaked.regroup ?_ (Space.refs_nonneg _) ?_
        · simp only [Space.refs]
          abel
        · exact fun other => add_nonneg (good.ext_nonneg other) (single_nonneg frame other)
      refine (freeproc_returns good' ⟨wf'', wf'.fits⟩ solid ?_).bind
        fun freed _ _ => .pure (by simp)
      have none : pagesBelow child.sz = 0 := by
        rw [empty]
        rfl
      rw [none]
      exact spans

theorem growproc_returns {n : ℤ} (memory : layout.last ≤ PHYSTOP)
    (good : Good layout ext mem space.refs) (wf : space.WellFormed) (laid : space.Laid) :
    Returns (fun (_, rest, _) => rest.Laid) (space.growproc layout n mem) := by
  have tidy := laid.tidy good.tablePart wf.table (pagesBelow_le wf.fits)
  unfold growproc
  simp only
  split_ifs with grow shrink
  · refine (uvmalloc_returns memory tidy wf.fits).bind
      fun (sz, rest, mem') _ laid' => ?_
    simp only at laid' ⊢
    split_ifs with refused
    · rw [if_pos refused] at laid'
      exact .pure laid'
    · rw [if_neg refused] at laid'
      exact .pure laid'
  · exact (uvmdealloc_returns tidy wf.fits).bind
      fun (sz, rest, mem') _ laid' => .pure laid'
  · exact .pure laid

theorem store_returns {va sp : Nat} {byte : UInt8} (good : Good layout ext mem space.refs)
    (wf : space.WellFormed) (laid : space.Laid) :
    Returns (fun (rest, _) => rest.Laid) (space.store layout va byte sp mem) := by
  unfold store
  split
  · exact .pure laid
  · refine (cowalloc_returns good.tablePart wf.table laid).bind
      fun (resolved, rest, mem') _ laid' => ?_
    simp only
    split_ifs
    · exact .pure laid'
    · exact .pure laid'

/-! ## `exec` -/

/-- A user page of a table that is in order has an address. -/
theorem walkaddr_isSome (tidy : table.Tidy layout ext mem pages)
    (user : table.Every fun _ pte => pte.perm.user = true) (below : vpn < pages) :
    ∃ frame, table.walkaddr vpn = some frame := by
  obtain ⟨pte, found⟩ := tidy.spans.present below
  have low : vpn < TRAPFRAME := below.trans_le tidy.low
  have inside : ¬ MAXVPN ≤ vpn := not_le.mpr (low.trans (by decide))
  have nonNull : pte.frame ≠ 0 :=
    (layout.first_pos.trans_le (tidy.managed low found).1).ne'
  refine ⟨pte.frame, ?_⟩
  rw [walkaddr, if_neg inside, tidy.solid.lookup_eq, found]
  simp [user vpn pte low found, nonNull]

variable {program : Program} {src : List UInt8}

theorem loadsegLoop_returns {va off sz turns i : Nat}
    (mapped : ∀ j, i ≤ j → j < sz → ∃ frame, table.walkaddr (add64 va j / PGSIZE) = some frame)
    (count : 0 < turns → i + (turns - 1) * PGSIZE < sz) :
    Returns (fun _ => True) (loadsegLoop program va off sz turns i table mem) := by
  induction turns generalizing i mem with
  | zero => exact .pure trivial
  | succ turns ih =>
    have first := count (Nat.succ_pos _)
    obtain ⟨frame, found⟩ := mapped i le_rfl (by omega)
    rw [loadsegLoop]
    simp only [found]
    split_ifs
    · refine ih (fun j above below => mapped j (by omega) below) (fun positive => ?_)
      obtain ⟨rest, rfl⟩ : ∃ rest, turns = rest + 1 := ⟨turns - 1, by omega⟩
      simp only [Nat.add_sub_cancel, Nat.add_mul, PGSIZE] at first ⊢
      omega
    · exact .pure trivial

/-- The pages of a loaded segment are mapped: they lie below the size that `uvmalloc` returned. -/
theorem loadseg_returns {ph : ProgHdr} {sz : Nat} (formed : ph.WellFormed)
    (tidy : table.Tidy layout ext mem (pagesBelow sz))
    (user : table.Every fun _ pte => pte.perm.user = true)
    (covered : add64 ph.vaddr ph.memsz ≤ sz) :
    Returns (fun _ => True) (loadseg program ph.vaddr ph.off ph.filesz table mem) := by
  obtain ⟨filesz, noWrap, aligned⟩ := formed
  have whole : add64 ph.vaddr ph.memsz = ph.vaddr + ph.memsz := by
    have small := ph.memsz_lt
    unfold add64 at noWrap ⊢
    omega
  have low := Nat.mod_le ph.filesz (2 ^ 32)
  refine loadsegLoop_returns (fun j _ below => walkaddr_isSome tidy user ?_) (fun positive => ?_)
  · have bound : ph.vaddr + j < sz := by omega
    have small : add64 ph.vaddr j ≤ ph.vaddr + j := Nat.mod_le _ _
    unfold pagesBelow
    simp only [PGSIZE]
    omega
  · unfold pagesBelow at positive ⊢
    simp only [PGSIZE] at positive ⊢
    omega

theorem loadSegments_returns {headers : List (Option ProgHdr)} {sz : Nat}
    (memory : layout.last ≤ PHYSTOP) (tidy : table.Tidy layout ext mem (pagesBelow sz))
    (user : table.Every fun _ pte => pte.perm.user = true) (fresh : table.Fresh mem)
    (fits : sz ≤ TRAPFRAME * PGSIZE) :
    Returns (fun (_, sz', rest, _) => rest.Laid (pagesBelow sz'))
      (loadSegments layout program headers sz table mem) := by
  induction headers generalizing sz table mem with
  | nil => exact .pure tidy.toLaid
  | cons header headers ih =>
    cases header with
    | none => exact .pure tidy.toLaid
    | some ph =>
      rw [loadSegments]
      split_ifs with load formed
      · refine (uvmalloc_returns memory tidy fits).bind ?_
        rintro ⟨sz1, table1, mem1⟩ alloc laid1
        obtain ⟨first, wf1, fits1⟩ := tidy.good.uvmalloc tidy.wellFormed fits alloc
        simp only at laid1 ⊢
        split_ifs with noMemory
        · rw [if_pos noMemory] at laid1
          exact .pure laid1
        · rw [if_neg noMemory] at laid1
          have tidy1 := laid1.tidy (tidy.good.keeps first) wf1 (pagesBelow_le fits1)
          have user1 := user.uvmalloc tidy.wellFormed fits tidy.good.null_not_free
            (fun _ _ _ _ => rfl) alloc
          have covered : add64 ph.vaddr ph.memsz ≤ sz1 := by
            obtain ⟨shrinks, rfl, -⟩ | ⟨-, rfl, -⟩ := uvmalloc_grown noMemory alloc
            · exact shrinks.le
            · exact le_rfl
          refine (loadseg_returns formed tidy1 user1 covered).bind ?_
          rintro ⟨loaded, mem2⟩ loading -
          have fresh1 := fresh.uvmalloc noMemory alloc
          have written := tidy1.good.loadsegLoop wf1 fresh1 loading
          simp only
          split_ifs
          · exact ih (laid1.tidy (tidy1.good.keeps written.keeps) wf1 tidy1.low) user1
              (fresh1.rewrites written) fits1
          · exact .pure laid1
      · exact .pure tidy.toLaid
      · exact ih tidy user fresh fits

theorem uvmclear_returns (laid : table.Laid pages) (below : vpn < pages) (low : pages ≤ TRAPFRAME) :
    Returns (fun rest => rest.Laid pages) (table.uvmclear vpn) := by
  obtain ⟨pte, found⟩ := laid.spans.present below
  obtain ⟨reached, readable⟩ := laid.solid vpn pte found
  have inside : vpn < TRAPFRAME := below.trans_le low
  unfold uvmclear
  rw [if_neg (not_le.mpr (inside.trans (by decide))), if_neg (not_not.mpr reached)]
  simp only [found]
  refine .pure (laid.replaced found readable fun _ other entry ne low' here same => ?_)
  exact ne (laid.distinct other vpn entry pte low' inside here found same)

theorem copyoutLoop_returns {turns dstva : Nat} (good : Good layout ext mem table.refs)
    (wf : table.WellFormed) (fresh : table.Fresh mem) (laid : table.Laid pages) :
    Returns (fun _ => True) (copyoutLoop layout turns dstva src table mem) := by
  induction turns generalizing dstva src mem with
  | zero => exact .pure trivial
  | succ turns ih =>
    rw [copyoutLoop]
    split_ifs
    · exact .pure trivial
    · refine (copyoutPage_returns good wf laid).bind ?_
      rintro ⟨copied, rest, mem'⟩ page -
      obtain ⟨rfl, ⟨rfl, rfl⟩ | ⟨frame, rfl, found, rfl⟩⟩ :=
        fresh.plain.copyoutPage wf page
      · exact .pure trivial
      · have first := good.fill_fresh wf fresh found
          ((mem.page frame).write (dstva % PGSIZE) (src.take (PGSIZE - dstva % PGSIZE)))
        exact ih (good.keeps first.keeps) (fresh.rewrites first)

variable {argv : List (List UInt8)} {initcode : List UInt8} {cause : Panic}

theorem pushArgs_returns {stackbase sp : Nat} {ustack : List Nat}
    (good : Good layout ext mem table.refs) (wf : table.WellFormed)
    (fresh : table.Fresh mem) (laid : table.Laid pages) :
    Returns (fun (_, rest, _) => rest = table)
      (pushArgs layout stackbase argv ustack sp table mem) := by
  have returns : Returns (fun _ => True) (pushArgs layout stackbase argv ustack sp table mem) := by
    induction argv generalizing ustack sp mem with
    | nil =>
      rw [pushArgs]
      split_ifs
      · exact .pure trivial
      · exact copyoutLoop_returns good wf fresh laid
    | cons arg argv ih =>
      rw [pushArgs]
      simp only
      split_ifs
      · exact .pure trivial
      · refine (copyoutLoop_returns good wf fresh laid).bind ?_
        rintro ⟨copied, rest, mem'⟩ copy -
        obtain ⟨rfl, first⟩ := good.copyoutLoop_fresh wf fresh copy
        simp only
        split_ifs
        · exact ih (good.keeps first.keeps) (fresh.rewrites first)
        · exact .pure trivial
  exact returns.strengthen fun _ pushed _ => (good.pushArgs wf fresh pushed).1

/-- The guard page of the stack is one of the pages that `exec` has just added. -/
theorem stack_guard_lt {sz sz1 : Nat} {xperm : Perm} (fits : sz ≤ TRAPFRAME * PGSIZE)
    (nonzero : sz1 ≠ 0)
    (alloc : uvmalloc layout sz (add64 sz (2 * PGSIZE)) xperm table mem =
      .ok (sz1, table', after)) : sub64 sz1 (2 * PGSIZE) / PGSIZE < pagesBelow sz1 := by
  have whole : add64 sz (2 * PGSIZE) = sz + 2 * PGSIZE := by
    unfold add64
    simp only [TRAPFRAME, MAXVPN, MAXVA, PGSIZE] at *
    omega
  obtain rfl : sz1 = sz + 2 * PGSIZE := by
    obtain ⟨shrinks, -⟩ | ⟨-, same, -⟩ := uvmalloc_grown nonzero alloc
    · omega
    · rw [same, whole]
  have back : sub64 (sz + 2 * PGSIZE) (2 * PGSIZE) = sz := by
    unfold sub64
    simp only [TRAPFRAME, MAXVPN, MAXVA, PGSIZE] at *
    omega
  rw [back]
  unfold pagesBelow
  simp only [PGSIZE]
  omega

/-- The new image has the pages below its size, also when `exec` gives it up. -/
theorem buildImage_returns (memory : layout.last ≤ PHYSTOP) (good : Good layout ext mem table.refs)
    (wf : table.WellFormed) (laid : table.Laid 0) :
    Returns (fun (_, sz, rest, _) => rest.Laid (pagesBelow sz))
      (buildImage layout program argv table mem) := by
  have vacant := laid.spans.vacant
  have fresh := vacant.fresh mem
  have tidy : table.Tidy layout ext mem (pagesBelow 0) :=
    laid.tidy good wf (Nat.zero_le _)
  have user : table.Every fun _ pte => pte.perm.user = true := vacant.every
  refine (loadSegments_returns memory tidy user fresh (Nat.zero_le _)).bind
    fun (loaded, sz, table1, mem1) load laid1 => ?_
  obtain ⟨first, wf1, fits1, fresh1⟩ :=
    good.loadSegments wf fresh (Nat.zero_le _) load
  cases loaded with
  | false => exact .pure laid1
  | true =>
    have rounded := pgRoundUp_mul_le fits1
    have size : pagesBelow (pgRoundUp sz * PGSIZE) = pagesBelow sz := by
      rw [pagesBelow_mul, pgRoundUp_eq fits1]
    have tidy1 : table1.Tidy layout ext mem1 (pagesBelow (pgRoundUp sz * PGSIZE)) := by
      rw [size]
      exact laid1.tidy (good.keeps first) wf1 (pagesBelow_le fits1)
    refine (uvmalloc_returns memory tidy1 rounded).bind
      fun (sz1, table2, mem2) alloc laid2 => ?_
    obtain ⟨second, wf2, fits2⟩ := tidy1.good.uvmalloc wf1 rounded alloc
    simp only at laid2 ⊢
    split_ifs with noMemory
    · rw [if_pos noMemory] at laid2
      exact .pure laid2
    · rw [if_neg noMemory] at laid2
      have guardPage := stack_guard_lt rounded noMemory alloc
      refine (uvmclear_returns laid2 guardPage (pagesBelow_le fits2)).bind
        fun table3 clear laid3 => ?_
      have sofar := first.trans second
      rw [← uvmclear_refs clear] at sofar
      have fresh3 := ((fresh1 rfl).uvmalloc noMemory alloc).uvmclear clear
      refine (pushArgs_returns (good.keeps sofar) (wf2.uvmclear clear) fresh3
        laid3).bind fun (done, table4, mem4) _ same => .pure ?_
      exact same ▸ laid3

theorem exec_returns (memory : layout.last ≤ PHYSTOP) (good : Good layout ext mem space.refs)
    (wf : space.WellFormed) (laid : space.Laid) :
    Returns (fun (image, _) => (image.getD space).Laid) (space.exec layout program argv mem) := by
  unfold exec
  split_ifs
  · refine (procPagetable_returns good.beside).bind fun (made, mem1) created shape => ?_
    obtain ⟨keeps, formed, -⟩ := good.beside.procPagetable created
    cases made with
    | none => exact .pure laid
    | some first =>
      obtain ⟨wf1, vacant⟩ := formed first rfl
      have good1 := good.beside.keeps keeps
      refine (buildImage_returns memory good1 wf1 (shape first rfl)).bind
        fun (built, sz, last, mem2) build laid2 => ?_
      obtain ⟨second, wf2, fits⟩ :=
        good1.buildImage wf1 (vacant.fresh _) build
      cases built with
      | true =>
        have sofar := (keeps.trans second).framed space.refs_nonneg
        have split : last.refs + space.refs =
            space.table.refs + ({ space with table := last, sz } : Space).refs := by
          simp only [Space.refs]
          abel
        rw [zero_add, split] at sofar
        have newNonneg := Space.refs_nonneg { space with table := last, sz }
        have part := (good.keeps sofar).part space.table.refs_nonneg newNonneg
        exact (procFreepagetable_returns part laid.solid
          (pagesBelow_le wf.fits) laid.spans
          (pgRoundUp_eq wf.fits)).bind fun freed _ _ => .pure laid2
      | false =>
        exact (procFreepagetable_returns (good1.keeps second) laid2.solid
          (pagesBelow_le fits) laid2.spans (pgRoundUp_eq fits)).bind
            fun freed _ _ => .pure laid
  · exact .pure laid

/-! ## The first process -/

theorem userinit_laid (good : Good layout ext mem 0)
    (done : userinit layout initcode mem = .ok (space, after)) : space.Laid := by
  obtain ⟨⟨made, mem1⟩, created, rest⟩ := ok_of_bind done
  cases made with
  | none => cases rest
  | some empty =>
    obtain ⟨⟨table, mem2⟩, first, finished⟩ := ok_of_bind rest
    cases finished
    obtain ⟨laid, -⟩ := (allocproc_returns good).of_ok created empty rfl
    obtain ⟨frame, taken, mapMem, -, mapping, -⟩ := uvmfirst_ok first
    have vacant := laid.spans.vacant
    have one : pagesBelow PGSIZE = 0 + 1 := rfl
    rw [Space.Laid, one]
    refine laid.mapped (by decide) rfl (fun other entry low found => ?_)
      (mappages_shape mapping)
    simp [vacant other low] at found

theorem uvmfirst_panic (missing : table.leaves.find 0 = none)
    (done : uvmfirst src table mem = .error cause) : cause = .nullStore ∨ cause = .uvmfirst := by
  unfold uvmfirst at done
  split_ifs at done
  · cases done
    exact .inr rfl
  · split at done
    · cases done
      exact .inl rfl
    case h_2 frame taken allocated =>
      have mapping : Returns (fun _ => True) (table.mappages 0
          (.made ⟨true, true, true, true⟩ frame) (taken.fill frame 0)) :=
        mappages_returns _ (by decide) missing
      obtain ⟨⟨mapped, table, mem2⟩, mapped_eq, -⟩ := mapping
      rw [mapped_eq] at done
      cases mapped with
      | true => cases done
      | false =>
        cases done
        exact .inl rfl

theorem userinit_panic (good : Good layout ext mem 0)
    (done : userinit layout initcode mem = .error cause) :
    cause = .nullStore ∨ cause = .uvmfirst := by
  obtain ⟨⟨made, mem1⟩, created, laid⟩ := allocproc_returns good
  rcases error_of_bind done with noProc | ⟨result, made_eq, rest⟩
  · rw [created] at noProc
    cases noProc
  · rw [created] at made_eq
    cases made_eq
    cases made with
    | none =>
      cases rest
      exact .inl rfl
    | some empty =>
      have missing := (laid empty rfl).1.spans.vacant 0 (by decide)
      rcases error_of_bind rest with first | ⟨result, -, finished⟩
      · exact uvmfirst_panic missing first
      · cases finished

end Space

/-! ## All address spaces -/

/-- The panic that a computation ends in. -/
def panicOf {α : Type} : Except Panic α → Option Panic
  | .ok _ => none
  | .error cause => some cause

theorem panicOf_of_returns {α : Type} {post : α → Prop} {done : Except Panic α}
    (returns : Returns post done) : panicOf done = none := by
  obtain ⟨value, rfl, -⟩ := returns
  rfl

namespace System

variable {system after : System}

/-- The panic that an operation ends in. -/
def panics (layout : Layout) (system : System) : Op → Option Panic
  | .kalloc => none
  | .kfree frame =>
    if frame ∈ system.held then panicOf (system.mem.kfree layout frame) else none
  | .userinit slot initcode =>
    match system.space slot with
    | some _ => none
    | none => panicOf (Space.userinit layout initcode system.mem)
  | .fork parent child =>
    match system.running parent, system.space child with
    | some space, none => panicOf (space.fork layout system.mem)
    | _, _ => none
  | .exec slot program argv =>
    (system.running slot).bind fun space => panicOf (space.exec layout program argv system.mem)
  | .growproc slot n =>
    (system.running slot).bind fun space => panicOf (space.growproc layout n system.mem)
  | .store slot va byte sp =>
    (system.running slot).bind fun space => panicOf (space.store layout va byte sp system.mem)
  | .copyout slot dstva src =>
    (system.space slot).bind fun space =>
      if src.length ≤ PGSIZE - dstva % PGSIZE then
        panicOf (space.table.copyoutPage layout dstva src system.mem)
      else none
  | .freeproc slot =>
    (system.space slot).bind fun space => panicOf (space.freeproc layout system.mem)

/-- The pages of every process are those below its size. -/
def Laid (system : System) : Prop := ∀ slot space, system.space slot = some space → space.Laid

/-- No operation panics, except that the first process may find no memory. -/
theorem Laid.panics {op : Op} {cause : Panic} (memory : layout.last ≤ PHYSTOP)
    (safe : system.Safe layout) (laid : system.Laid)
    (panicked : system.panics layout op = some cause) :
    (∃ slot initcode, op = .userinit slot initcode) ∧ (cause = .nullStore ∨ cause = .uvmfirst) := by
  cases op with
  | kalloc => cases panicked
  | kfree frame =>
    simp only [System.panics] at panicked
    split_ifs at panicked with held
    rw [panicOf_of_returns (kfree_returns safe.good (one_le_refs_of_held held))]
      at panicked
    cases panicked
  | userinit slot initcode =>
    simp only [System.panics] at panicked
    split at panicked
    · cases panicked
    case h_2 empty =>
      refine ⟨⟨slot, initcode, rfl⟩, ?_⟩
      cases done : userinit layout initcode system.mem with
      | ok value =>
        rw [done] at panicked
        cases panicked
      | error other =>
        rw [done] at panicked
        cases panicked
        exact userinit_panic (safe.part_empty empty).1 done
  | fork parent child =>
    simp only [System.panics] at panicked
    split at panicked
    case h_2 => cases panicked
    case h_1 _ _ space running empty =>
      have occupied := running_eq running
      have ne : parent ≠ child := by
        rintro rfl
        simp [occupied] at empty
      rw [panicOf_of_returns (fork_returns (safe.part_empty empty).1
        (safe.wellFormed parent space occupied) (laid parent space occupied)
        (heldBy_others ne occupied))] at panicked
      cases panicked
  | exec slot program argv =>
    obtain ⟨space, running, panicked⟩ := bind_eq_some_iff.mp panicked
    have occupied := running_eq running
    rw [panicOf_of_returns (exec_returns memory (safe.occupiedPart occupied)
      (safe.wellFormed _ _ occupied) (laid _ _ occupied))] at panicked
    cases panicked
  | growproc slot n =>
    obtain ⟨space, running, panicked⟩ := bind_eq_some_iff.mp panicked
    have occupied := running_eq running
    rw [panicOf_of_returns (growproc_returns memory (safe.occupiedPart occupied)
      (safe.wellFormed _ _ occupied) (laid _ _ occupied))] at panicked
    cases panicked
  | store slot va byte sp =>
    obtain ⟨space, running, panicked⟩ := bind_eq_some_iff.mp panicked
    have occupied := running_eq running
    rw [panicOf_of_returns (store_returns (safe.occupiedPart occupied)
      (safe.wellFormed _ _ occupied) (laid _ _ occupied))] at panicked
    cases panicked
  | copyout slot dstva src =>
    obtain ⟨space, occupied, panicked⟩ := bind_eq_some_iff.mp panicked
    split_ifs at panicked
    rw [panicOf_of_returns (copyoutPage_returns (safe.occupiedPart occupied).tablePart
      (safe.wellFormed _ _ occupied).table (laid _ _ occupied))] at panicked
    cases panicked
  | freeproc slot =>
    obtain ⟨space, occupied, panicked⟩ := bind_eq_some_iff.mp panicked
    rw [panicOf_of_returns (freeproc_returns (safe.occupiedPart occupied)
      (safe.wellFormed _ _ occupied) (laid _ _ occupied).solid
      (laid _ _ occupied).spans)] at panicked
    cases panicked

theorem Laid.perform {op : Op} (memory : layout.last ≤ PHYSTOP) (safe : system.Safe layout)
    (laid : system.Laid) (done : system.perform layout op = some after) : after.Laid := by
  cases performed done with
  | refused | kalloc | kfree => exact laid
  | userinit empty made =>
    apply forall_put laid
    rintro _ ⟨⟩
    exact userinit_laid (safe.part_empty empty).1 made
  | fork _ occupied empty ne forked =>
    exact forall_put laid ((fork_returns (safe.part_empty empty).1
      (safe.wellFormed _ _ occupied) (laid _ _ occupied) (heldBy_others ne occupied)).of_ok forked)
  | exec _ occupied executed =>
    apply forall_put laid
    rintro _ ⟨⟩
    exact (exec_returns memory (safe.occupiedPart occupied) (safe.wellFormed _ _ occupied)
      (laid _ _ occupied)).of_ok executed
  | growproc _ occupied grew =>
    apply forall_put laid
    rintro _ ⟨⟩
    exact (growproc_returns memory (safe.occupiedPart occupied) (safe.wellFormed _ _ occupied)
      (laid _ _ occupied)).of_ok grew
  | store _ occupied stored =>
    apply forall_put laid
    rintro _ ⟨⟩
    exact (store_returns (safe.occupiedPart occupied) (safe.wellFormed _ _ occupied)
      (laid _ _ occupied)).of_ok stored
  | copyout occupied copy =>
    apply forall_put laid
    rintro _ ⟨⟩
    exact (copyoutPage_returns (safe.occupiedPart occupied).tablePart
      (safe.wellFormed _ _ occupied).table (laid _ _ occupied)).of_ok copy
  | freeproc => exact forall_put laid (by simp)

end System

/-- What every run keeps. -/
theorem System.run_safe_laid (memory : layout.last ≤ PHYSTOP) {actions : List Action}
    {system : System} (run : Run (Step layout) (System.boot layout) actions system) :
    system.Safe layout ∧ system.Laid := by
  apply run.invariant _ ⟨System.boot_safe, fun slot space found => by cases found⟩
  rintro before action after ⟨safe, laid⟩ stepped
  have laid' : (before.withFails action.fails).Laid := laid
  exact ⟨safe.step stepped, laid'.perform memory (safe.withFails action.fails) stepped⟩

/-- The first process of a small machine, with what an evaluation shows of it. -/
theorem System.first_process {P : System → Space → Prop}
    (outcome : ∃ system ∈ runAll (System.step smallMachine) (System.boot smallMachine)
      [{ op := .userinit 0 [0x17, 0x05] }], ∃ space ∈ system.space 0, P system space) :
    ∃ system space, Run (Step smallMachine) (System.boot smallMachine)
        [{ op := .userinit 0 [0x17, 0x05] }] system ∧ system.space 0 = some space ∧
      system.Safe smallMachine ∧ space.WellFormed ∧ space.Laid ∧ P system space := by
  obtain ⟨system, performed, space, occupied, holds⟩ := outcome
  have run := Run.of_runAll (fun _ _ _ => id) performed
  obtain ⟨safe, laid⟩ := System.run_safe_laid (by decide) run
  exact ⟨system, space, run, occupied, safe, safe.wellFormed _ _ occupied, laid _ _ occupied, holds⟩

end Xv6.Vm
