import Xv6.Vm.Exec

/-!
# A failed `exec`

`exec` of `kernel/exec.c` builds the new image beside the old one and has one exit for all errors.
When it takes that exit, the pages it took are free again and everything else is as before, and
`sys_exec` frees the pages of the arguments whatever `exec` returns.
-/

namespace Xv6.Vm

open Transition PageTable Space

variable {layout : Layout} {ext own : Frame → ℤ} {mem after : Mem}
variable {frame : Frame} {table table' : PageTable} {space : Space} {program : Program}
variable {argv : List (List UInt8)} {frames : List Frame}

/-! ## No page is lost -/

namespace Retains

theorem fill (mem : Mem) (frame : Frame) (contents : Page) :
    Retains mem (mem.fill frame contents) :=
  of_pool rfl

theorem kfreeAll {frames : List Frame}
    (done : PageTable.kfreeAll layout frames mem = .ok after) : Retains mem after := by
  induction frames generalizing mem with
  | nil =>
    cases done
    exact refl _
  | cons frame frames ih =>
    obtain ⟨freed, free, rest⟩ := ok_of_bind done
    exact (kfree free).trans (ih rest)

theorem uvmfree {sz : Nat} (done : table.uvmfree layout sz mem = .ok after) :
    Retains mem after := by
  obtain ⟨⟨rest, mem1⟩, unmapped, walked⟩ := ok_of_bind done
  dsimp only [freewalk] at walked
  split_ifs at walked
  exact (uvmunmap unmapped).trans (kfreeAll walked)

theorem procFreepagetable {sz : Nat}
    (done : Space.procFreepagetable layout sz table mem = .ok after) : Retains mem after := by
  obtain ⟨⟨table1, mem1⟩, first, rest⟩ := ok_of_bind done
  obtain ⟨⟨table2, mem2⟩, second, freed⟩ := ok_of_bind rest
  exact ((uvmunmap first).trans (uvmunmap second)).trans (uvmfree freed)

theorem procPagetable {trapframe : Frame} {made : Option PageTable}
    (done : Space.procPagetable layout trapframe mem = .ok (made, after)) :
    Retains mem after := by
  unfold Space.procPagetable at done
  split at done
  case h_1 refused =>
    cases done
    exact kalloc_none refused
  case h_2 root taken allocated =>
    obtain ⟨⟨mapped, table1, mem1⟩, first, rest⟩ := ok_of_bind done
    have sofar := (kalloc_fill allocated 0).trans (mappages first)
    cases mapped with
    | false =>
      obtain ⟨mem2, freed, finished⟩ := ok_of_bind rest
      cases finished
      exact sofar.trans (uvmfree freed)
    | true =>
      obtain ⟨⟨mapped, table2, mem2⟩, second, rest⟩ := ok_of_bind rest
      have both := sofar.trans (mappages second)
      cases mapped with
      | true =>
        cases rest
        exact both
      | false =>
        obtain ⟨⟨table3, mem3⟩, unmapped, rest⟩ := ok_of_bind rest
        obtain ⟨mem4, freed, finished⟩ := ok_of_bind rest
        cases finished
        exact (both.trans (uvmunmap unmapped)).trans (uvmfree freed)

variable {loaded : Bool}

theorem loadsegLoop {va off sz turns i : Nat}
    (done : Space.loadsegLoop program va off sz turns i table mem = .ok (loaded, after)) :
    Retains mem after := by
  induction turns generalizing i mem with
  | zero =>
    cases done
    exact refl _
  | succ turns ih =>
    rw [Space.loadsegLoop] at done
    split at done
    case h_1 => cases done
    case h_2 frame found =>
      dsimp only at done
      split_ifs at done
      · exact (fill mem frame _).trans (ih done)
      · cases done
        exact fill mem frame _

theorem loadSegments {headers : List (Option ProgHdr)} {sz sz' : Nat}
    (outcome : Space.loadSegments layout program headers sz table mem =
      .ok (loaded, sz', table', after)) : Retains mem after := by
  induction headers generalizing sz table mem with
  | nil =>
    cases outcome
    exact refl _
  | cons header headers ih =>
    cases header with
    | none =>
      cases outcome
      exact refl _
    | some ph =>
      rw [Space.loadSegments] at outcome
      split_ifs at outcome
      · obtain ⟨⟨sz1, table1, mem1⟩, alloc, rest⟩ := ok_of_bind outcome
        dsimp only at rest
        split_ifs at rest
        · cases rest
          exact uvmalloc alloc
        · obtain ⟨⟨done, mem2⟩, load, rest⟩ := ok_of_bind rest
          have sofar := (uvmalloc alloc).trans (loadsegLoop load)
          cases done with
          | true => exact sofar.trans (ih rest)
          | false =>
            cases rest
            exact sofar
      · cases outcome
        exact refl _
      · exact ih outcome

end Retains

/-- `copyout` on a table without copy-on-write pages neither takes nor gives up a page. -/
theorem PageTable.Plain.copyoutLoop_pool {turns dstva : Nat} {src : List UInt8} {copied : Bool}
    (plain : table.Plain) (wf : table.WellFormed)
    (outcome : copyoutLoop layout turns dstva src table mem = .ok (copied, table', after)) :
    table' = table ∧ after.pool = mem.pool := by
  induction turns generalizing dstva src mem with
  | zero =>
    cases outcome
    exact ⟨rfl, rfl⟩
  | succ turns ih =>
    rw [copyoutLoop] at outcome
    split_ifs at outcome
    · cases outcome
      exact ⟨rfl, rfl⟩
    · obtain ⟨⟨done, table1, mem1⟩, page, rest⟩ := ok_of_bind outcome
      obtain ⟨rfl, ⟨rfl, rfl⟩ | ⟨frame, rfl, -, rfl⟩⟩ := plain.copyoutPage wf page
      · cases rest
        exact ⟨rfl, rfl⟩
      · have final := ih rest
        exact final

theorem PageTable.Plain.pushArgs_pool {stackbase sp : Nat} {ustack : List Nat} {done : Bool}
    (plain : table.Plain) (wf : table.WellFormed)
    (outcome : pushArgs layout stackbase argv ustack sp table mem =
      .ok (done, table', after)) : table' = table ∧ after.pool = mem.pool := by
  induction argv generalizing ustack sp mem with
  | nil =>
    rw [pushArgs] at outcome
    split_ifs at outcome
    · cases outcome
      exact ⟨rfl, rfl⟩
    · exact plain.copyoutLoop_pool wf outcome
  | cons arg argv ih =>
    rw [pushArgs] at outcome
    split_ifs at outcome
    · cases outcome
      exact ⟨rfl, rfl⟩
    · obtain ⟨⟨copied, table1, mem1⟩, copy, rest⟩ := ok_of_bind outcome
      obtain ⟨rfl, same⟩ := plain.copyoutLoop_pool wf copy
      cases copied with
      | false =>
        cases rest
        exact ⟨rfl, same⟩
      | true =>
        obtain ⟨rfl, same'⟩ := ih rest
        exact ⟨rfl, same'.trans same⟩

/-- How `buildImage` gets to its end. -/
theorem Space.buildImage_ok {built : Bool} {sz : Nat}
    (outcome : buildImage layout program argv table mem = .ok (built, sz, table', after)) :
    ∃ loaded size table1 mem1, loadSegments layout program program.headers 0 table mem =
        .ok (loaded, size, table1, mem1) ∧
      ((loaded = false ∧ built = false ∧ table' = table1 ∧ after = mem1) ∨
        (loaded = true ∧ ∃ sz1 table2 mem2,
          table1.uvmalloc layout (pgRoundUp size * PGSIZE)
            (add64 (pgRoundUp size * PGSIZE) (2 * PGSIZE)) { writable := true } mem1 =
              .ok (sz1, table2, mem2) ∧
          ((sz1 = 0 ∧ built = false ∧ table' = table2 ∧ after = mem2) ∨
            (sz1 ≠ 0 ∧ ∃ table3, table2.uvmclear (sub64 sz1 (2 * PGSIZE) / PGSIZE) = .ok table3 ∧
              pushArgs layout (sub64 sz1 PGSIZE) argv [] sz1 table3 mem2 =
                .ok (built, table', after))))) := by
  obtain ⟨⟨loaded, size, table1, mem1⟩, load, rest⟩ := ok_of_bind outcome
  refine ⟨loaded, size, table1, mem1, load, ?_⟩
  cases loaded with
  | false =>
    cases rest
    exact .inl ⟨rfl, rfl, rfl, rfl⟩
  | true =>
    obtain ⟨⟨sz1, table2, mem2⟩, alloc, rest⟩ := ok_of_bind rest
    refine .inr ⟨rfl, sz1, table2, mem2, alloc, ?_⟩
    dsimp only at rest
    split_ifs at rest with failed
    · cases rest
      exact .inl ⟨failed, rfl, rfl, rfl⟩
    · obtain ⟨table3, cleared, rest⟩ := ok_of_bind rest
      obtain ⟨⟨done, table4, mem3⟩, push, finished⟩ := ok_of_bind rest
      cases finished
      exact .inr ⟨failed, table3, cleared, push⟩

/-- The page table before the arguments are pushed. -/
theorem Good.stack_table {size sz : Nat} {loaded grown guarded : PageTable} {mem1 mem2 : Mem}
    (good : Good layout ext mem table.refs) (wf : table.WellFormed)
    (fresh : table.Fresh mem)
    (load : Space.loadSegments layout program program.headers 0 table mem =
      .ok (true, size, loaded, mem1))
    (alloc : loaded.uvmalloc layout (pgRoundUp size * PGSIZE)
      (add64 (pgRoundUp size * PGSIZE) (2 * PGSIZE)) { writable := true } mem1 =
        .ok (sz, grown, mem2))
    (nonzero : sz ≠ 0) (cleared : grown.uvmclear (sub64 sz (2 * PGSIZE) / PGSIZE) = .ok guarded) :
    Keeps layout ext mem table.refs mem2 guarded.refs ∧ guarded.WellFormed ∧
      guarded.Fresh mem2 := by
  obtain ⟨keeps1, wf1, fits, fresh1⟩ :=
    good.loadSegments wf fresh (Nat.zero_le _) load
  obtain ⟨keeps2, wf2, -⟩ :=
    (good.keeps keeps1).uvmalloc wf1 (pgRoundUp_mul_le fits) alloc
  rw [uvmclear_refs cleared]
  exact ⟨keeps1.trans keeps2, wf2.uvmclear cleared,
    ((fresh1 rfl).uvmalloc nonzero alloc).uvmclear cleared⟩

theorem Retains.buildImage {built : Bool} {sz : Nat} (good : Good layout ext mem table.refs)
    (wf : table.WellFormed) (fresh : table.Fresh mem)
    (done : Space.buildImage layout program argv table mem = .ok (built, sz, table', after)) :
    Retains mem after := by
  obtain ⟨loaded, size, table1, mem1, load,
    ⟨-, -, -, rfl⟩ | ⟨rfl, sz1, table2, mem2, alloc, rest⟩⟩ :=
    buildImage_ok done
  · exact loadSegments load
  have sofar := (loadSegments load).trans (uvmalloc alloc)
  obtain ⟨-, -, -, rfl⟩ | ⟨nonzero, table3, cleared, push⟩ := rest
  · exact sofar
  obtain ⟨-, wf3, fresh3⟩ := good.stack_table wf fresh load alloc nonzero cleared
  exact sofar.trans (.of_pool (fresh3.plain.pushArgs_pool wf3 push).2)

theorem Retains.exec {image : Option Space} (good : Good layout ext mem space.refs)
    (done : space.exec layout program argv mem = .ok (image, after)) : Retains mem after := by
  unfold Space.exec at done
  split_ifs at done
  · obtain ⟨⟨made, mem1⟩, created, rest⟩ := ok_of_bind done
    have sofar := procPagetable created
    obtain ⟨keeps, formed, -⟩ := good.beside.procPagetable created
    cases made with
    | none =>
      cases rest
      exact sofar
    | some first =>
      obtain ⟨⟨built, sz, last, mem2⟩, build, rest⟩ := ok_of_bind rest
      obtain ⟨wf, vacant⟩ := formed first rfl
      have both := sofar.trans
        (buildImage (good.beside.keeps keeps) wf (vacant.fresh _) build)
      cases built with
      | true =>
        obtain ⟨mem3, freed, finished⟩ := ok_of_bind rest
        cases finished
        exact both.trans (procFreepagetable freed)
      | false =>
        obtain ⟨mem3, freed, finished⟩ := ok_of_bind rest
        cases finished
        exact both.trans (procFreepagetable freed)
  · cases done
    exact refl _

/-! ## Memory after a failed `exec` -/

/-- A failed `exec` works on free pages only, and gives them back. -/
theorem Good.exec_failed (good : Good layout ext mem space.refs)
    (done : space.exec layout program argv mem = .ok (none, after)) :
    Keeps layout (ext + space.refs) mem 0 after 0 := by
  have beside := good.beside
  cases good.exec_outcome done with
  | invalid => exact beside.refl
  | noTable keeps => exact keeps
  | undone _ made wf vacant build freed =>
    obtain ⟨second, -⟩ := (beside.keeps made).buildImage wf (vacant.fresh _) build
    have sofar := made.trans second
    exact sofar.trans ((beside.keeps sofar).procFreepagetable freed)

/-- Code that ends with the references it started with and loses no page leaves the allocator as it
was, but for the order of the free list. -/
theorem Keeps.restores (good : Good layout ext mem own) (keeps : Keeps layout ext mem own after own)
    (retains : Retains mem after) : after.count = mem.count ∧ after.freelist.Perm mem.freelist := by
  have counts : ∀ frame, after.count frame = mem.count frame := by
    intro frame
    have slack := keeps.pool.slack frame
    simp only [Mem.pool] at slack
    omega
  have sound := good.covers.sound
  have sound' := keeps.pool.sound
  refine ⟨funext counts, (List.perm_ext_iff_of_nodup sound'.nodup sound.nodup).mpr fun frame => ?_⟩
  constructor
  · intro free
    have idle : after.count frame = 0 := (sound'.idle frame free).1
    exact ((retains frame).mp (.inl free)).free ((counts frame).symm.trans idle)
  · intro free
    have idle : mem.count frame = 0 := (sound.idle frame free).1
    exact ((retains frame).mpr (.inl free)).free ((counts frame).trans idle)

/-! ## Pages in use -/

/-- Pages that are in use keep their counters. -/
def KeepsCounts (mem after : Mem) : Prop :=
  ∀ frame, 0 < mem.count frame → after.count frame = mem.count frame

namespace KeepsCounts

variable {last : Mem}

theorem trans (first : KeepsCounts mem after) (second : KeepsCounts after last) :
    KeepsCounts mem last := by
  intro frame used
  have same := first frame used
  exact (second frame (same ▸ used)).trans same

theorem of_count (same : after.count = mem.count) : KeepsCounts mem after := by
  intro frame used
  rw [same]

theorem of_allocates (allocates : Allocates mem after) : KeepsCounts mem after :=
  fun frame used => (allocates.used frame used).1

theorem uvmalloc {oldsz newsz sz : Nat} {xperm : Perm} (nonzero : sz ≠ 0)
    (done : table.uvmalloc layout oldsz newsz xperm mem = .ok (sz, table', after)) :
    KeepsCounts mem after := by
  obtain ⟨-, -, -, rfl⟩ | ⟨-, -, grown⟩ := uvmalloc_grown nonzero done
  · exact of_count rfl
  · exact of_allocates grown.allocates

theorem loadsegLoop {va off sz turns i : Nat} {loaded : Bool}
    (done : Space.loadsegLoop program va off sz turns i table mem = .ok (loaded, after)) :
    KeepsCounts mem after := by
  induction turns generalizing i mem with
  | zero =>
    cases done
    exact of_count rfl
  | succ turns ih =>
    rw [Space.loadsegLoop] at done
    split at done
    case h_1 => cases done
    case h_2 frame found =>
      dsimp only at done
      split_ifs at done
      · have rest := ih done
        exact rest
      · cases done
        exact of_count rfl

theorem loadSegments {headers : List (Option ProgHdr)} {sz sz' : Nat}
    (outcome : Space.loadSegments layout program headers sz table mem =
      .ok (true, sz', table', after)) : KeepsCounts mem after := by
  induction headers generalizing sz table mem with
  | nil =>
    cases outcome
    exact of_count rfl
  | cons header headers ih =>
    cases header with
    | none => cases outcome
    | some ph =>
      rw [Space.loadSegments] at outcome
      split_ifs at outcome
      · obtain ⟨⟨sz1, table1, mem1⟩, alloc, rest⟩ := ok_of_bind outcome
        dsimp only at rest
        split_ifs at rest with failed
        · cases rest
        · obtain ⟨⟨done, mem2⟩, load, rest⟩ := ok_of_bind rest
          cases done with
          | true => exact ((uvmalloc failed alloc).trans (loadsegLoop load)).trans (ih rest)
          | false => cases rest
      · cases outcome
      · exact ih outcome

theorem buildImage {sz : Nat} (good : Good layout ext mem table.refs)
    (wf : table.WellFormed) (fresh : table.Fresh mem)
    (done : Space.buildImage layout program argv table mem = .ok (true, sz, table', after)) :
    KeepsCounts mem after := by
  obtain ⟨loaded, size, table1, mem1, load, ⟨-, no, -⟩ | ⟨rfl, sz1, table2, mem2, alloc, rest⟩⟩ :=
    buildImage_ok done
  · cases no
  obtain ⟨-, no, -⟩ | ⟨nonzero, table3, cleared, push⟩ := rest
  · cases no
  obtain ⟨-, wf3, fresh3⟩ := good.stack_table wf fresh load alloc nonzero cleared
  have pool := (fresh3.plain.pushArgs_pool wf3 push).2
  exact ((loadSegments load).trans (uvmalloc nonzero alloc)).trans
    (of_count (congrArg RefCount.Pool.count pool))

end KeepsCounts

/-- The page table of a new image refers to no page that was in use before. -/
theorem Good.exec_new {image : Space} (good : Good layout ext mem space.refs)
    (done : space.exec layout program argv mem = .ok (some image, after))
    (used : 0 < mem.count frame) (held : mem.count frame = ext frame + space.refs frame) :
    image.table.refs frame = 0 := by
  unfold Space.exec at done
  split_ifs at done
  · obtain ⟨⟨made, mem1⟩, created, rest⟩ := ok_of_bind done
    cases made with
    | none => cases rest
    | some first =>
      obtain ⟨⟨built, sz, last, mem2⟩, build, rest⟩ := ok_of_bind rest
      cases built with
      | false =>
        obtain ⟨mem3, -, finished⟩ := ok_of_bind rest
        cases finished
      | true =>
        obtain ⟨mem3, -, finished⟩ := ok_of_bind rest
        cases finished
        obtain ⟨keeps, formed, -, allocates⟩ := good.beside.procPagetable created
        obtain ⟨wf, vacant⟩ := formed first rfl
        have good1 := good.beside.keeps keeps
        have counts := (KeepsCounts.of_allocates (allocates (by simp))).trans
          (.buildImage good1 wf (vacant.fresh _) build)
        have covered :=
          (good1.keeps (good1.buildImage wf (vacant.fresh _) build).1).le_count frame
        have nonneg := last.refs_nonneg frame
        rw [counts frame used, held, Pi.add_apply] at covered
        change last.refs frame = 0
        omega
  · cases done

/-! ## The arguments -/

/-- Pages have been taken from the free list, and the caller holds them. -/
structure Fetched (layout : Layout) (ext own : Frame → ℤ) (mem : Mem) (frames : List Frame)
    (after : Mem) : Prop where
  keeps : Keeps layout ext mem own after (own + listRefs frames)
  retains : Retains mem after
  free : ∀ frame ∈ frames, frame ∈ mem.freelist

theorem Fetched.none (keeps : Keeps layout ext mem own after own) (retains : Retains mem after) :
    Fetched layout ext own mem [] after := by
  refine ⟨?_, retains, by simp⟩
  rwa [show listRefs [] = 0 from rfl, add_zero]

/-- A page for a string, and then more pages. -/
theorem Fetched.cons {taken : Mem} {contents : Page} (good : Good layout ext mem own)
    (allocated : mem.kalloc = (some frame, taken))
    (rest : Fetched layout ext (own + Pi.single frame 1) (taken.fill frame contents) frames after) :
    Fetched layout ext own mem (frame :: frames) after := by
  have first := good.kalloc_fill allocated contents
  refine ⟨?_, (Retains.kalloc_fill allocated contents).trans rest.retains, ?_⟩
  · have both := first.trans rest.keeps
    rwa [add_assoc, add_comm (Pi.single frame 1), ← listRefs_cons] at both
  · intro other member
    obtain rfl | member := List.mem_cons.mp member
    · exact Mem.kalloc_mem allocated
    · exact (Allocates.kalloc_fill allocated contents).free (rest.free other member)

/-- The pages that `sys_exec` takes for the arguments were free. -/
theorem Good.fetchArgs {uargv left i : Nat} {complete : Bool} (good : Good layout ext mem own)
    (done : fetchArgs space uargv left i mem = (complete, frames, argv, after)) :
    Fetched layout ext own mem frames after := by
  induction left generalizing i own mem complete frames argv with
  | zero =>
    cases done
    exact .none good.refl (.refl _)
  | succ left ih =>
    rw [fetchArgs] at done
    split at done
    case h_1 =>
      cases done
      exact .none good.refl (.refl _)
    case h_2 uarg fetched =>
      split_ifs at done
      · cases done
        exact .none good.refl (.refl _)
      · split at done
        case h_1 refused =>
          cases done
          exact .none (good.kalloc_none refused) (.kalloc_none refused)
        case h_2 frame taken allocated =>
          have filled := fun contents => good.keeps (good.kalloc_fill allocated contents)
          split at done
          case h_1 string _ =>
            cases done
            exact .cons good allocated (.none (filled _).refl (.refl _))
          case h_2 string _ =>
            cases done
            exact .cons good allocated (ih (filled _) rfl)

/-! ## The system call -/

/-- The process, its memory and the allocator are as before, and it holds the same inodes. -/
structure Untouched (env env' : Env) : Prop where
  /-- The page table, the size, the saved registers and the name. -/
  proc : env'.proc = env.proc
  bytes : ∀ va < env.proc.space.sz,
    env.proc.space.table.byteAt env'.mem va = env.proc.space.table.byteAt env.mem va
  trapframe : env'.mem.page env.proc.space.trapframe = env.mem.page env.proc.space.trapframe
  count : env'.mem.count = env.mem.count
  free : env'.mem.freelist.Perm env.mem.freelist
  refs : env'.refs = env.refs
  locks : env'.locks = env.locks

/-- `exec` has changed nothing, in one transaction. -/
structure NoTrace (env env' : Env) : Prop extends Untouched env env' where
  begun : env'.begun = env.begun + 1
  ended : env'.ended = env.ended + 1

section

variable {env env' : Env} {files : List UInt8 → Option (Inode × List UInt8)} {path : List UInt8}
  {ret : Option Nat} {frames : List Frame}

/-- Code that gives back all pages it took leaves the process alone. -/
theorem Keeps.untouched (good : Good layout ext env.mem env.proc.space.refs)
    (wf : env.proc.space.WellFormed)
    (keeps : Keeps layout (ext + env.proc.space.refs) env.mem 0 env'.mem 0)
    (retains : Retains env.mem env'.mem) (proc : env'.proc = env.proc)
    (refs : env'.refs = env.refs) (locks : env'.locks = env.locks) : Untouched env env' := by
  obtain ⟨count, free⟩ := keeps.restores good.beside retains
  have held : ∀ frame, 1 ≤ env.proc.space.refs frame →
      env'.mem.page frame = env.mem.page frame := by
    intro frame referenced
    have rest := good.ext_nonneg frame
    exact keeps.page frame (by simp only [Pi.add_apply]; omega)
  refine ⟨proc, ?_, held _ env.proc.space.one_le_refs, count, free, refs, locks⟩
  intro va inside
  have below : va / PGSIZE < TRAPFRAME := by
    have fits := wf.fits
    simp only [TRAPFRAME, MAXVPN, MAXVA, PGSIZE] at *
    omega
  unfold byteAt
  cases found : env.proc.space.table.lookup (va / PGSIZE) with
  | none => rfl
  | some pte =>
    have leaf := one_le_refs (find_of_lookup found) below
    have frame := single_nonneg env.proc.space.trapframe pte.frame
    rw [Option.map_some, Option.map_some, held pte.frame]
    simp only [Space.refs, Pi.add_apply]
    omega

/-- What a call of `exec` does to the process and to memory. -/
structure Executed (layout : Layout) (ext : Frame → ℤ) (env : Env) (ret : Option Nat) (env' : Env) :
    Prop where
  refs : env'.refs = env.refs
  locks : env'.locks = env.locks
  begun : env'.begun = env.begun + 1
  ended : env'.ended = env.ended + 1
  keeps : Keeps layout ext env.mem env.proc.space.refs env'.mem env'.proc.space.refs
  retains : Retains env.mem env'.mem
  failed : ret = none →
    env'.proc = env.proc ∧ Keeps layout (ext + env.proc.space.refs) env.mem 0 env'.mem 0
  /-- A page that others hold is not a page of the new image. -/
  apart : ∀ frame, 0 < env.mem.count frame → env.mem.count frame = ext frame →
    env'.proc.space.refs frame = 0

/-- A page that others hold is not a page of the process. -/
theorem Good.apart (good : Good layout ext mem space.refs) (held : mem.count frame = ext frame) :
    space.refs frame = 0 := by
  have covered := good.le_count frame
  have nonneg := space.refs_nonneg frame
  omega

/-- The address space after `exec` of a file that exists. -/
theorem Space.exec_of_execCall {ip : Inode} {file : List UInt8}
    (found : files path = some (ip, file))
    (done : execCall layout files path argv env = .ok (ret, env')) :
    env.proc.space.exec layout (Program.ofFile file) argv env.mem = .ok (imageOf (ret, env')) := by
  rw [← execCall_imageOf found, done]
  rfl

theorem Space.execCall_executed (good : Good layout ext env.mem env.proc.space.refs)
    (wf : env.proc.space.WellFormed)
    (done : execCall layout files path argv env = .ok (ret, env')) :
    Executed layout ext env ret env' := by
  cases execCall_outcome done with
  | notFound missing =>
    exact ⟨rfl, rfl, rfl, rfl, good.refl, .refl _, fun _ => ⟨rfl, good.beside.refl⟩,
      fun _ _ held => good.apart held⟩
  | failed found =>
    have executed := exec_of_execCall found done
    exact ⟨rfl, rfl, rfl, rfl, (good.exec wf executed).1, .exec good executed,
      fun _ => ⟨rfl, good.exec_failed executed⟩, fun _ _ held => good.apart held⟩
  | committed found made load stack freed =>
    have executed := exec_of_execCall found done
    refine ⟨rfl, rfl, rfl, rfl, (good.exec wf executed).1, .exec good executed,
      by simp, fun frame used held => ?_⟩
    have old := good.apart held
    have new := good.exec_new executed used (by rw [old, add_zero, held])
    have nonneg := env.proc.space.table.refs_nonneg frame
    have single := single_nonneg env.proc.space.trapframe frame
    simp only [refs, Pi.add_apply] at old new ⊢
    omega

theorem Space.execCall_returns (memory : layout.last ≤ PHYSTOP)
    (good : Good layout ext env.mem env.proc.space.refs) (wf : env.proc.space.WellFormed)
    (laid : env.proc.space.Laid) :
    Returns (fun _ => True) (execCall layout files path argv env) := by
  cases done : execCall layout files path argv env with
  | ok result => exact .pure trivial
  | error cause =>
    cases found : files path with
    | none => simp [execCall, found] at done
    | some entry =>
      have image : (execCall layout files path argv env).map imageOf = _ :=
        execCall_imageOf found
      obtain ⟨result, ended, -⟩ := exec_returns memory good wf laid
      rw [done, ended] at image
      cases image

/-- The pages of the arguments are freed when `exec` has returned. -/
theorem Fetched.freed {refs' : Frame → ℤ} {between last : Mem} (good : Good layout ext mem own)
    (fetched : Fetched layout (ext + own) 0 mem frames after)
    (used : Keeps layout (ext + listRefs frames) after own between refs')
    (retained : Retains after between)
    (apart : ∀ frame, 0 < after.count frame → after.count frame = (ext + listRefs frames) frame →
      refs' frame = 0) (freed : Keeps layout (ext + refs') between (listRefs frames) last 0)
    (retained' : Retains between last) : ∀ frame ∈ frames, frame ∈ last.freelist := by
  intro frame member
  have free := fetched.free frame member
  have tracked := (((fetched.retains.trans retained).trans retained') frame).mpr (.inl free)
  apply tracked.free
  have idle : mem.count frame = 0 := (good.covers.sound.idle frame free).1
  have covered := good.le_count frame
  have extNonneg := good.ext_nonneg frame
  have ownNonneg := good.own_nonneg frame
  have slack := fetched.keeps.pool.slack frame
  have slack' := used.pool.slack frame
  have slack'' := freed.pool.slack frame
  have taken : 1 ≤ listRefs frames frame := by
    have counted := List.one_le_count_iff.mpr member
    simp only [listRefs]
    omega
  have new := apart frame
  simp only [Mem.pool, Pi.add_apply, Pi.zero_apply] at slack slack' slack'' new ⊢
  rw [new (by omega) (by omega)] at slack' slack''
  omega

/-- The process while `sys_exec` holds the pages of the arguments. -/
theorem Fetched.good (good : Good layout ext mem own)
    (fetched : Fetched layout (ext + own) 0 mem frames after) :
    Good layout (ext + listRefs frames) after own := by
  have beside : Good layout (ext + own) mem 0 :=
    good.regroup (add_zero _) (fun _ => le_rfl)
      fun frame => add_nonneg (good.ext_nonneg frame) (good.own_nonneg frame)
  apply (beside.keeps fetched.keeps).regroup
  · abel
  · exact good.own_nonneg
  · exact fun frame => add_nonneg (good.ext_nonneg frame) (listRefs_nonneg frames frame)

/-- The pages of the arguments after `exec`. -/
theorem Executed.good (nonneg : ∀ frame, 0 ≤ ext frame)
    (part : Good layout (ext + listRefs frames) env.mem env.proc.space.refs)
    (executed : Executed layout (ext + listRefs frames) env ret env') :
    Good layout (ext + env'.proc.space.refs) env'.mem (listRefs frames) := by
  apply (part.keeps executed.keeps).regroup
  · abel
  · exact listRefs_nonneg frames
  · exact fun frame => add_nonneg (nonneg frame) (env'.proc.space.refs_nonneg frame)

/-- What is left of a call of `sys_exec`. -/
structure SysExecuted (env : Env) (frames : List Frame) (ret : Option Nat) (env' : Env) : Prop where
  freed : ∀ frame ∈ frames, frame ∈ env'.mem.freelist
  failed : ret = none → Untouched env env'

theorem Space.sysExec_returns {upath uargv : Nat} (memory : layout.last ≤ PHYSTOP)
    (good : Good layout ext env.mem env.proc.space.refs) (wf : env.proc.space.WellFormed)
    (laid : env.proc.space.Laid) :
    Returns (fun (ret, env') =>
        SysExecuted env (fetchArgs env.proc.space uargv MAXARG 0 env.mem).2.1 ret env')
      (sysExec layout files upath uargv env) := by
  cases fetch : fetchArgs env.proc.space uargv MAXARG 0 env.mem with
  | mk complete rest =>
    obtain ⟨frames, argv, mem1⟩ := rest
    have fetched := good.beside.fetchArgs fetch
    have fetchKeeps := fetched.keeps
    rw [zero_add] at fetchKeeps
    have good1 : Good layout (ext + env.proc.space.refs) mem1 (listRefs frames) :=
      good.beside.keeps fetchKeeps
    unfold sysExec
    split
    case h_1 =>
      exact .pure ⟨fetched.free, fun _ =>
        good.beside.refl.untouched good wf (.refl _) rfl rfl rfl⟩
    case h_2 path ended =>
      rw [fetch]
      cases complete with
      | false =>
        refine (kfreeAll_returns good1).bind fun mem2 freed _ => .pure ?_
        have untouched : Untouched env { env with mem := mem2 } :=
          (fetchKeeps.trans (good1.kfreeAll freed)).untouched good wf
            (fetched.retains.trans (.kfreeAll freed)) rfl rfl rfl
        exact ⟨fun frame member => untouched.free.mem_iff.mpr (fetched.free frame member),
          fun _ => untouched⟩
      | true =>
        have part := fetched.good good
        have returns : Returns _ (execCall layout files path argv { env with mem := mem1 }) :=
          execCall_returns memory part wf laid
        refine returns.bind fun (ret, env2) call _ => ?_
        have executed : Executed layout _ { env with mem := mem1 } ret env2 :=
          execCall_executed part wf call
        have good2 := executed.good good.ext_nonneg part
        refine (kfreeAll_returns good2).bind fun mem3 freed _ => .pure ⟨?_, ?_⟩
        · exact fetched.freed good executed.keeps executed.retains executed.apart
            (good2.kfreeAll freed) (.kfreeAll freed)
        · rintro rfl
          obtain ⟨proc, undone⟩ := executed.failed rfl
          have returned := good2.kfreeAll freed
          rw [add_right_comm] at undone
          have sofar := fetched.keeps.trans (undone.framed (listRefs_nonneg frames))
          rw [zero_add] at sofar
          rw [proc] at returned
          exact (sofar.trans returned).untouched good wf
            ((fetched.retains.trans executed.retains).trans (.kfreeAll freed)) proc
            executed.refs executed.locks

/-- When `exec` returns -1, nothing has changed: the pages for the new image are free again, the
inode is unlocked and released, and one transaction has been ended.  `sys_exec` has freed the pages
of the arguments whatever it returns. -/
theorem Space.exec_no_trace (memory : layout.last ≤ PHYSTOP)
    (good : Good layout ext env.mem env.proc.space.refs) (wellFormed : env.proc.space.WellFormed)
    (laid : env.proc.space.Laid) (files : List UInt8 → Option (Inode × List UInt8))
    (path : List UInt8) (argv : List (List UInt8)) (upath uargv : Nat) :
    Returns (fun (ret, env') => ret = none → NoTrace env env')
        (execCall layout files path argv env) ∧
      Returns (fun (ret, env') =>
          SysExecuted env (fetchArgs env.proc.space uargv MAXARG 0 env.mem).2.1 ret env')
        (sysExec layout files upath uargv env) := by
  refine ⟨?_, sysExec_returns memory good wellFormed laid⟩
  refine (execCall_returns memory good wellFormed laid).strengthen
    fun (ret, env') call _ failed => ?_
  have executed := execCall_executed good wellFormed call
  obtain ⟨proc, keeps⟩ := executed.failed failed
  exact ⟨keeps.untouched good wellFormed executed.retains proc executed.refs executed.locks,
    executed.begun, executed.ended⟩

end

/-- A program whose segment is loaded, and no memory for its stack. -/
theorem Space.exec_no_trace_stack :
    ∃ system space env env', Run (Step smallMachine) (System.boot smallMachine)
        [{ op := .userinit 0 [0x17, 0x05] }] system ∧ system.space 0 = some space ∧
      env = { mem := (system.withFails [false, false, false, false, false, false, true]).mem
              proc := { space, trapframe := ⟨0, 4096, 0⟩, name := [0x69] } } ∧
      execCall smallMachine (fun _ => some (2, smallProgram)) [0x61] [[0x61]] env =
        .ok (none, env') ∧ NoTrace env env' := by
  obtain ⟨system, space, run, occupied, safe, wellFormed, laid, ⟨_, env'⟩, call, rfl⟩ :=
    System.first_process (P := fun system space => ∃ result ∈
      (execCall smallMachine (fun _ => some (2, smallProgram)) [0x61] [[0x61]]
        { mem := (system.withFails [false, false, false, false, false, false, true]).mem
          proc := { space, trapframe := ⟨0, 4096, 0⟩, name := [0x69] } }).toOption,
      result.1 = none) (by decide +kernel)
  have call := ok_of_mem_toOption call
  refine ⟨system, space, _, env', run, occupied, rfl, call, ?_⟩
  have part := (safe.withFails [false, false, false, false, false, false, true]).occupiedPart
    occupied
  exact (exec_no_trace (by decide) part wellFormed laid _ _ _ 0 0).1.of_ok call rfl

end Xv6.Vm
