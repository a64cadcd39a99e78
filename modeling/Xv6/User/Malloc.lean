import Xv6.Vm.Growproc

/-!
# What `malloc` asks the kernel for

`malloc` and `morecore` of `user/umalloc.c`, to the point where a new block has its header, over
`growproc` of the kernel.  A header takes 16 bytes, and `sizeof(Header)` is a 64-bit number.
-/

namespace Xv6.Malloc

open Transition Vm

/-- What becomes of a request. -/
inductive Outcome where
  /-- A free block is large enough. -/
  | found
  /-- `malloc` returns 0. -/
  | refused
  /-- `sbrk(asked)` has returned `hp`, where a header now records `size` units. -/
  | grown (asked : Int32) (size : UInt32) (hp : Nat)
  deriving DecidableEq, Repr

variable {layout : Layout} {ext : Frame → ℤ} {space after : Space} {mem mem' : Mem}

variable (layout) in
/-- `sys_sbrk`: the old size, or `none` for -1. -/
def sysSbrk (n : Int32) (space : Space) (mem : Mem) :
    Except Vm.Panic (Option Nat × Space × Mem) := do
  let (grown, after, mem) ← space.growproc layout n.toInt mem
  .ok (if grown then some space.sz else none, after, mem)

/-- The argument of `sbrk`, an `int`, for a number of units. -/
def asked (nu : UInt32) : Int32 := (nu.toUInt64 * 16).toUInt32.toInt32

variable (layout) in
/-- `morecore`. -/
def morecore (nu : UInt32) (space : Space) (mem : Mem) :
    Except Vm.Panic (Outcome × Space × Mem) := do
  let nu := if nu < 4096 then 4096 else nu
  let (p, space, mem) ← sysSbrk layout (asked nu) space mem
  .ok (p.elim .refused (.grown (asked nu) nu), space, mem)

/-- The units of a request: its bytes and a header. -/
def nunits (nbytes : UInt32) : UInt32 := ((nbytes.toUInt64 + 16 - 1) / 16 + 1).toUInt32

variable (layout) in
/-- `malloc`, with the sizes of the blocks that it finds free. -/
def malloc (nbytes : UInt32) (free : List UInt32) (space : Space) (mem : Mem) :
    Except Vm.Panic (Outcome × Space × Mem) :=
  if ∃ size ∈ free, size ≥ nunits nbytes then .ok (.found, space, mem)
  else morecore layout (nunits nbytes) space mem

/-- The kernel has been asked for as much as the header of the new block records, and the process
owns all of it. -/
def Outcome.Backed (sz : Nat) : Outcome → Prop
  | .grown asked size hp => 0 < asked.toInt ∧ asked.toInt = size.toNat * 16 ∧
      hp + size.toNat * 16 ≤ sz
  | .found | .refused => True

theorem asked_toInt (nu : UInt32) : (asked nu).toInt = (nu.toNat * 16 : Int).bmod (2 ^ 32) := by
  have value : (nu.toUInt64 * 16).toUInt32.toNat = nu.toNat * 16 % 2 ^ 32 := by simp
  have signed : (asked nu).toInt = ((nu.toUInt64 * 16).toUInt32.toNat : Int).bmod (2 ^ 32) :=
    BitVec.toInt_eq_toNat_bmod _
  rw [signed, value]
  exact_mod_cast Int.emod_bmod (nu.toNat * 16) (2 ^ 32)

theorem nunits_toNat (nbytes : UInt32) : (nunits nbytes).toNat = (nbytes.toNat + 15) / 16 + 1 := by
  have bound := nbytes.toNat_lt
  simp [nunits, UInt64.toNat_sub]
  omega

/-- Nothing that a process gives back is refused. -/
theorem grown_of_nonpos {n : ℤ} (nonpos : n ≤ 0) {grown : Bool}
    (done : space.growproc layout n mem = .ok (grown, after, mem')) : grown = true := by
  rcases nonpos.lt_or_eq with negative | rfl
  · obtain ⟨_, _, -, grown, -⟩ := Space.growproc_down negative rfl done
    exact grown
  · cases done
    rfl

section

variable (memory : layout.last ≤ PHYSTOP) (good : Good layout ext mem space.refs)
  (wellFormed : space.WellFormed) (laid : space.Laid)
include memory good wellFormed laid

/-- A positive `int` is added to the size if the memory affords it. -/
theorem grows {n : ℤ} (positive : 0 < n) (int : n < 2 ^ 31) {grown : Bool}
    (done : space.growproc layout n mem = .ok (grown, after, mem')) :
    (grown = true ↔ space.Affords (space.sz + n).toNat mem) ∧
      (grown = true → (after.sz : ℤ) = space.sz + n) := by
  have sum : ((space.sz + n).toNat : ℤ) = space.sz + n := Int.toNat_of_nonneg (by omega)
  have tidy := Space.tidy good wellFormed laid
  obtain ⟨sz, table, alloc, ending⟩ :=
    Space.growproc_up positive (Space.target_of_nonneg wellFormed int sum) done
  have served := tidy.uvmalloc_served (by omega) (by omega) alloc
  have all := (PageTable.uvmalloc_all_or_nothing memory tidy _ _).of_ok alloc
  obtain ⟨none, rfl, rfl⟩ | ⟨some, rfl, rfl⟩ := ending
  · exact ⟨iff_of_false nofun fun affords => served.mpr affords none, nofun⟩
  · have size := (all.succeeded (.inl some)).1
    exact ⟨iff_of_true rfl (served.mp some), fun _ => by simp only; omega⟩

theorem morecore_backed_iff {nu : UInt32} (bound : nu.toNat ≤ 2 ^ 28 + 1) :
    (∃ outcome after mem', morecore layout nu space mem = .ok (outcome, after, mem') ∧
      outcome.Backed after.sz) ↔
    nu.toNat < 2 ^ 27 ∨ nu.toNat = 2 ^ 28 + 1 ∧ ¬ space.Affords (space.sz + 16) mem := by
  obtain ⟨units, raised⟩ : ∃ units, (if nu < 4096 then 4096 else nu) = units := ⟨_, rfl⟩
  have units_eq : units.toNat = max 4096 nu.toNat := by
    rw [← raised, max_def, apply_ite UInt32.toNat]
    simp only [UInt32.lt_iff_toNat_lt]
    split_ifs <;> simp_all
    omega
  have value := asked_toInt units
  rw [Int.bmod_def] at value
  obtain ⟨⟨grown, after, mem'⟩, done, -⟩ :=
    Space.growproc_returns memory good wellFormed laid (n := (asked units).toInt)
  simp only [morecore, sysSbrk, raised, done, bind, Except.bind, Except.ok.injEq, Prod.mk.injEq,
    exists_and_left, exists_eq_left', and_assoc]
  by_cases positive : 0 < (asked units).toInt
  · obtain ⟨affords, size⟩ := grows memory good wellFormed laid positive (by omega) done
    -- The largest request wraps around to 16 bytes.
    have least : ¬ nu.toNat < 2 ^ 27 → nu.toNat = 2 ^ 28 + 1 ∧ (asked units).toInt = 16 := by omega
    cases grown with
    | false =>
      refine iff_of_true trivial (or_iff_not_imp_left.mpr fun large => ⟨(least large).1, ?_⟩)
      rw [(least large).2] at affords
      exact fun room => nomatch affords.mpr room
    | true =>
      have owned := size rfl
      constructor
      · rintro ⟨-, same, -⟩
        exact .inl (by omega)
      · rintro (small | ⟨top, short⟩)
        · exact ⟨positive, by omega, by omega⟩
        · rw [(least (by omega)).2] at affords
          exact (short (affords.mp rfl)).elim
  · obtain rfl := grown_of_nonpos (not_lt.mp positive) done
    exact iff_of_false (fun backed => positive backed.1) (by omega)

/-- `malloc` asks for the memory that it records, unless the number of bytes does not fit in an
`int`; the largest requests ask for 16 bytes. -/
theorem malloc_backed_iff (nbytes : UInt32) (free : List UInt32) :
    (∃ outcome after mem', malloc layout nbytes free space mem = .ok (outcome, after, mem') ∧
      outcome.Backed after.sz) ↔
    (∃ size ∈ free, size ≥ nunits nbytes) ∨ nbytes.toNat ≤ 2 ^ 31 - 32 ∨
      2 ^ 32 - 16 < nbytes.toNat ∧ ¬ space.Affords (space.sz + 16) mem := by
  unfold malloc
  split_ifs with found
  · simp [found, Outcome.Backed]
  · have units := nunits_toNat nbytes
    have bound := nbytes.toNat_lt
    have small : (nunits nbytes).toNat < 2 ^ 27 ↔ nbytes.toNat ≤ 2 ^ 31 - 32 := by omega
    have top : (nunits nbytes).toNat = 2 ^ 28 + 1 ↔ 2 ^ 32 - 16 < nbytes.toNat := by omega
    rw [or_iff_right found, ← small, ← top]
    exact morecore_backed_iff memory good wellFormed laid (by omega)

end

/-- The first process asks for 100 bytes. -/
theorem malloc_backed_iff_init : ∃ system space, Run (Step smallMachine) (System.boot smallMachine)
      [{ op := .userinit 0 [0x17, 0x05] }] system ∧ system.space 0 = some space ∧
    ∃ outcome after mem', malloc smallMachine 100 [] space system.mem = .ok (outcome, after, mem') ∧
      outcome.Backed after.sz := by
  obtain ⟨system, space, run, occupied, safe, wellFormed, laid, -⟩ :=
    System.first_process (P := fun _ _ => True) (by decide +kernel)
  exact ⟨system, space, run, occupied, (malloc_backed_iff (by decide) (safe.occupiedPart occupied)
    wellFormed laid 100 []).mpr (.inr (.inl (by decide)))⟩

/-- It asks for 16 bytes less than 2 GiB.  `sbrk` gets a negative number, the kernel returns the end
of its one page, and the header there would record 2 GiB. -/
theorem malloc_unbacked : ∃ system space after mem', Run (Step smallMachine)
      (System.boot smallMachine) [{ op := .userinit 0 [0x17, 0x05] }] system ∧
    system.space 0 = some space ∧ malloc smallMachine (2 ^ 31 - 16) [] space system.mem =
      .ok (.grown (-2 ^ 31) (2 ^ 27) 4096, after, mem') ∧ after.sz = 4096 := by
  obtain ⟨system, space, run, occupied, -, -, -, ⟨_, after, mem'⟩, done, rfl, size⟩ :=
    System.first_process (P := fun system space =>
      ∃ result ∈ (malloc smallMachine (2 ^ 31 - 16) [] space system.mem).toOption,
        result.1 = .grown (-2 ^ 31) (2 ^ 27) 4096 ∧ result.2.1.sz = 4096) (by decide +kernel)
  exact ⟨system, space, after, mem', run, occupied, ok_of_mem_toOption done, size⟩

end Xv6.Malloc
