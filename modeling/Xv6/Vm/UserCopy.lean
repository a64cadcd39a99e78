import Xv6.Vm.Rollback
import Xv6.Vm.View

/-!
# Copying between kernel and user memory

`copyin` of `kernel/vm.c`, and what it reads after a `copyout` to the same addresses.  `copyout`
writes through `cowalloc`, which refuses page 0 and copies a page that is copy-on-write; neither
function looks at the write permission of a page.
-/

namespace Xv6.Vm

open Transition List Finset Option

variable {layout : Layout} {ext : Frame → ℤ} {mem after : Mem}
variable {table table' : PageTable} {vpn pages : Nat}

namespace PageTable

/-! ## `copyin` -/

/-- The bytes of one page from an offset on. -/
def pageBytes (mem : Mem) (frame : Frame) (offset n : Nat) : List UInt8 :=
  (List.range n).map fun i => mem.page frame (Fin.ofNat PGSIZE (offset + i))

/-- The loop of `copyin`; each turn copies at least one byte.  The bytes copied before a turn fails
have reached the destination.  The next address does not wrap around: no page that high is
mapped. -/
def copyinLoop (table : PageTable) (mem : Mem) : (turns srcva len : Nat) → Bool × List UInt8
  | 0, _, _ => (true, [])
  | turns + 1, srcva, len =>
    if len = 0 then (true, [])
    else
      match table.walkaddr (srcva / PGSIZE) with
      | none => (false, [])
      | some frame =>
        let n := min (PGSIZE - srcva % PGSIZE) len
        let (done, rest) := copyinLoop table mem turns ((srcva / PGSIZE + 1) * PGSIZE) (len - n)
        (done, pageBytes mem frame (srcva % PGSIZE) n ++ rest)

/-- `copyin`: whether it returned 0, and the bytes that it copied. -/
def copyin (table : PageTable) (mem : Mem) (srcva len : Nat) : Bool × List UInt8 :=
  table.copyinLoop mem len srcva len

/-! ## The pages of a range -/

/-- The page is mapped for the user. -/
def UserPage (table : PageTable) (vpn : Nat) : Prop :=
  ∃ pte ∈ table.lookup vpn, pte.perm.user = true

/-- The page is copy-on-write. -/
def CowPage (table : PageTable) (vpn : Nat) : Prop :=
  ∃ pte ∈ table.lookup vpn, pte.cow = true

instance (vpn : Nat) : Decidable (table.UserPage vpn) :=
  inferInstanceAs (Decidable (∃ pte ∈ _, _))

instance (vpn : Nat) : Decidable (table.CowPage vpn) :=
  inferInstanceAs (Decidable (∃ pte ∈ _, _))

/-- The number of copy-on-write pages in a range of pages. -/
def cowPages (table : PageTable) (vpn npages : Nat) : Nat :=
  ((Finset.Ico vpn (vpn + npages)).filter table.CowPage).card

theorem cowPages_succ (npages : Nat) : table.cowPages vpn (npages + 1) =
      (if table.CowPage vpn then 1 else 0) + table.cowPages (vpn + 1) npages :=
  Interval.card_filter_succ fun _ _ => Iff.rfl

variable {npages : Nat}

theorem cowPages_congr (same : ∀ other, vpn ≤ other → (table'.CowPage other ↔ table.CowPage other))
    :
    table'.cowPages vpn npages = table.cowPages vpn npages := by
  unfold cowPages
  congr 1
  refine filter_congr fun other member => same other ?_
  exact (mem_Ico.mp member).1

/-- The number of pages that a range of addresses overlaps. -/
def touched (va len : Nat) : Nat :=
  if len = 0 then 0 else (va + len - 1) / PGSIZE + 1 - va / PGSIZE

variable {va len : Nat}

theorem touched_succ (nonempty : len ≠ 0) : touched va len =
      touched ((va / PGSIZE + 1) * PGSIZE) (len - min (PGSIZE - va % PGSIZE) len) + 1 := by
  unfold touched
  simp only [PGSIZE]
  split_ifs <;> omega

theorem Tidy.lookup_eq (tidy : table.Tidy layout ext mem pages) (vpn : Nat) :
    table.lookup vpn = table.leaves.find vpn :=
  tidy.solid.lookup_eq vpn

theorem Tidy.user_below (tidy : table.Tidy layout ext mem pages) (user : table.UserPage vpn) :
    vpn < TRAPFRAME := by
  obtain ⟨pte, found, isUser⟩ := user
  rw [tidy.lookup_eq] at found
  exact tidy.wellFormed.user_below found isUser

variable {pte : Pte} {allowed : Bool}

/-- `walkaddr` finds the pages that are mapped for the user. -/
theorem Tidy.walkaddr (tidy : table.Tidy layout ext mem pages)
    (found : table.leaves.find vpn = some pte) (user : pte.perm.user = true) :
    table.walkaddr vpn = some pte.frame := by
  have below := tidy.wellFormed.user_below found user
  have managed := tidy.managed below found
  refine walkaddr_of_lookup (below.trans (by decide)) ?_ user fun null => ?_
  · rw [tidy.lookup_eq, found]
  · exact absurd null (Nat.ne_of_gt (Nat.lt_of_lt_of_le layout.first_pos managed.1))

/-! ## `copyin` reads the bytes that are mapped -/

theorem pageBytes_length (mem : Mem) (frame : Frame) (offset n : Nat) :
    (pageBytes mem frame offset n).length = n := by
  simp [pageBytes]

/-- What a turn of `copyout` and the call of `cowalloc` in it do to the page table: they go on if
the page is a user page other than page 0, and memory is found when it has to be copied. -/
structure Turn (table : PageTable) (mem : Mem) (vpn : Nat) (allowed : Bool) (table' : PageTable)
    (after : Mem) : Prop where
  allowed_iff : allowed = true ↔
    vpn ≠ 0 ∧ table.UserPage vpn ∧ (table.CowPage vpn → 0 < mem.supply)
  supply : allowed = true →
    after.supply + (if table.CowPage vpn then 1 else 0) = mem.supply
  user : ∀ other, table'.UserPage other ↔ table.UserPage other
  cow : ∀ other, other ≠ vpn → (table'.CowPage other ↔ table.CowPage other)

/-- Code that writes to pages keeps the table in order. -/
theorem Tidy.fill (tidy : table.Tidy layout ext mem pages) (frame : Frame) (contents : Page) :
    table.Tidy layout ext (mem.fill frame contents) pages :=
  tidy.toLaid.tidy ⟨tidy.good.covers, tidy.good.own_nonneg, tidy.good.ext_nonneg⟩ tidy.wellFormed
    tidy.low

theorem Tidy.not_accepted (refused : ∀ pte, ¬ Accepted table (vpn * PGSIZE) pte)
    (tidy : table.Tidy layout ext mem pages) : ¬ (vpn ≠ 0 ∧ table.UserPage vpn) := by
  rintro ⟨nonzero, pte, found, user⟩
  have below := tidy.wellFormed.user_below (find_of_lookup found) user
  have managed := tidy.managed below (find_of_lookup found)
  have page : vpn * PGSIZE / PGSIZE = vpn := Nat.mul_div_cancel _ (by decide)
  have low : vpn * PGSIZE < MAXVA := by
    simp only [TRAPFRAME, MAXVPN, MAXVA, PGSIZE] at below ⊢
    omega
  exact refused pte ⟨Nat.mul_ne_zero nonzero (by decide), low, page.symm ▸ found, user,
    fun null => absurd null (Nat.ne_of_gt (Nat.lt_of_lt_of_le layout.first_pos managed.1))⟩

/-- The entry that `cowalloc` accepts at the start of a page. -/
theorem accepted_page (accepted : Accepted table (vpn * PGSIZE) pte) :
    vpn ≠ 0 ∧ table.lookup vpn = some pte ∧ pte.perm.user = true := by
  have page : vpn * PGSIZE / PGSIZE = vpn := Nat.mul_div_cancel _ (by decide)
  refine ⟨fun zero => accepted.ne_zero (by rw [zero, Nat.zero_mul]), ?_, accepted.user⟩
  rw [← accepted.lookup, page]

theorem cowPage_of_lookup (found : table.lookup vpn = some pte) :
    table.CowPage vpn ↔ pte.cow = true := by
  simp [CowPage, found]

/-- Replacing a copy-on-write entry changes nothing else for the user. -/
theorem lookup_resolved (frame : Frame) (found : table.lookup vpn = some pte) (other : Nat) :
    ({ table with leaves := table.leaves.insert vpn (pte.resolved frame) } :
      PageTable).lookup other =
      if other = vpn then some (pte.resolved frame) else table.lookup other := by
  have reached : table.reaches vpn = true := by
    by_contra unreached
    rw [lookup, if_neg unreached] at found
    cases found
  obtain rfl | same := eq_or_ne other vpn
  · rw [if_pos rfl]
    exact (if_pos reached).trans (by simp)
  · rw [if_neg same]
    unfold lookup
    simp only [FinMap.find_insert, Function.update_of_ne same]
    rfl

theorem Tidy.cowalloc_turn (tidy : table.Tidy layout ext mem pages)
    (done : table.cowalloc layout (vpn * PGSIZE) mem = .ok (allowed, table', after)) :
    Turn table mem vpn allowed table' after := by
  have page : vpn * PGSIZE / PGSIZE = vpn := Nat.mul_div_cancel _ (by decide)
  cases cowalloc_outcome done with
  | refused no =>
    have denied := tidy.not_accepted no
    refine ⟨⟨by simp, fun grants => absurd ⟨grants.1, grants.2.1⟩ denied⟩, by simp,
      fun _ => .rfl, fun _ _ => .rfl⟩
  | noMemory accepted isCow noPage =>
    obtain ⟨nonzero, found, user⟩ := accepted_page accepted
    have none := tidy.good.supply_kalloc_none noPage
    have cow := (cowPage_of_lookup found).mpr isCow
    refine ⟨⟨by simp, fun grants => ?_⟩, by simp, fun _ => .rfl, fun _ _ => .rfl⟩
    have := grants.2.2 cow
    omega
  | plain accepted isPlain =>
    obtain ⟨nonzero, found, user⟩ := accepted_page accepted
    have plain : ¬ table.CowPage vpn := by simp [cowPage_of_lookup found, isPlain]
    refine ⟨⟨fun _ => ⟨nonzero, ⟨_, found, user⟩, fun cow => absurd cow plain⟩, fun _ => rfl⟩,
      fun _ => ?_, fun _ => .rfl, fun _ _ => .rfl⟩
    rw [if_neg plain, Nat.add_zero]
  | @resolved pte frame taken _ accepted isCow allocated dropped =>
    obtain ⟨nonzero, found, user⟩ := accepted_page accepted
    have cow := (cowPage_of_lookup found).mpr isCow
    have supply := Mem.supply_kalloc allocated
    have kept : after.supply = taken.supply := by
      rw [Mem.krefdecr_ok dropped]
      rfl
    rw [page]
    refine ⟨⟨fun _ => ⟨nonzero, ⟨_, found, user⟩, fun _ => by omega⟩, fun _ => rfl⟩,
      fun _ => by rw [if_pos cow]; omega, fun other => ?_, fun other ne => ?_⟩
    · unfold UserPage
      rw [lookup_resolved frame found]
      obtain rfl | same := eq_or_ne other vpn
      · simp [found, user, Pte.resolved]
      · rw [if_neg same]
    · unfold CowPage
      rw [lookup_resolved frame found, if_neg ne]

/-- The table after `cowalloc` is in order, and no byte has changed. -/
theorem Tidy.cowalloc {va : Nat} (tidy : table.Tidy layout ext mem pages)
    (done : table.cowalloc layout va mem = .ok (allowed, table', after)) :
    table'.Tidy layout ext after pages ∧
      ∀ other, other / PGSIZE < TRAPFRAME → table'.byteAt after other = table.byteAt mem other := by
  have laid := (cowalloc_returns tidy.good tidy.wellFormed tidy.toLaid).of_ok done
  have wf := tidy.wellFormed.cowalloc done
  have moves := (tidy.good.cowalloc tidy.wellFormed done).1
  refine ⟨laid.tidy (tidy.good.moves moves) wf tidy.low, fun other below => ?_⟩
  rw [wf.byteAt_eq_view below, tidy.wellFormed.byteAt_eq_view below,
    tidy.good.view_cowalloc tidy.wellFormed done]

variable {src : List UInt8} {dstva : Nat}

/-- Writing to a page changes the bytes that are written and no others. -/
theorem Tidy.byteAt_write {dstva va : Nat} (tidy : table.Tidy layout ext mem pages)
    (found : table.leaves.find (dstva / PGSIZE) = some pte) (below : dstva / PGSIZE < TRAPFRAME)
    (small : src.length ≤ PGSIZE - dstva % PGSIZE) (low : va / PGSIZE < TRAPFRAME) :
    table.byteAt (mem.fill pte.frame ((mem.page pte.frame).write (dstva % PGSIZE) src)) va =
      if dstva ≤ va ∧ va < dstva + src.length then src[va - dstva]? else table.byteAt mem va := by
  unfold byteAt
  rw [tidy.lookup_eq]
  by_cases samePage : va / PGSIZE = dstva / PGSIZE
  · rw [samePage, found, map_some, map_some]
    simp only [Mem.fill_page, Function.update_self, Page.write]
    have offset : (Fin.ofNat PGSIZE va).val = va % PGSIZE := rfl
    rw [offset]
    by_cases inside : dstva ≤ va ∧ va < dstva + src.length
    · have index : va % PGSIZE - dstva % PGSIZE = va - dstva := by
        simp only [PGSIZE] at *
        omega
      have above : dstva % PGSIZE ≤ va % PGSIZE := by
        simp only [PGSIZE] at *
        omega
      rw [if_pos inside, if_pos above, index, getElem?_eq_getElem (by omega), getD_some]
    · rw [if_neg inside]
      split_ifs with above
      · have outside : src.length ≤ va % PGSIZE - dstva % PGSIZE := by
          simp only [PGSIZE] at *
          omega
        rw [getElem?_eq_none outside, getD_none]
      · rfl
  · have outside : ¬ (dstva ≤ va ∧ va < dstva + src.length) := by
      simp only [PGSIZE] at *
      omega
    rw [if_neg outside]
    cases other : table.leaves.find (va / PGSIZE) with
    | none => rfl
    | some entry =>
      have ne : entry.frame ≠ pte.frame := fun same =>
        samePage (tidy.distinct _ _ _ _ low below other found same)
      simp [ne]

/-- Bytes have been written through a page table, and all others are as before. -/
structure Written (dstva : Nat) (src : List UInt8) (table : PageTable) (mem : Mem)
    (table' : PageTable) (after : Mem) : Prop where
  user : ∀ vpn, table'.UserPage vpn ↔ table.UserPage vpn
  bytes : ∀ va, va / PGSIZE < TRAPFRAME → table'.byteAt after va =
    if dstva ≤ va ∧ va < dstva + src.length then src[va - dstva]? else table.byteAt mem va

theorem Written.nil (dstva : Nat) (table : PageTable) (mem : Mem) :
    Written dstva [] table mem table mem where
  user := fun _ => .rfl
  bytes := by
    intro va _
    rw [if_neg (by rw [length_nil]; omega)]

/-- The first `n` bytes and then the others. -/
theorem Written.trans {dstva n : Nat} {middle : PageTable} {between : Mem}
    (first : Written dstva (src.take n) table mem middle between)
    (second : Written (dstva + n) (src.drop n) middle between table' after) :
    Written dstva src table mem table' after where
  user := fun vpn => (second.user vpn).trans (first.user vpn)
  bytes := by
    intro va low
    rw [second.bytes va low, first.bytes va low, length_drop, length_take,
      getElem?_drop]
    by_cases within : dstva ≤ va ∧ va < dstva + src.length
    · rw [if_pos within]
      by_cases early : va < dstva + n
      · rw [if_neg (by omega), if_pos (by omega), getElem?_take_of_lt (by omega)]
      · rw [if_pos (by omega)]
        congr 1
        omega
    · rw [if_neg within, if_neg (by omega), if_neg (by omega)]

/-- One turn of `copyout`. -/
theorem Tidy.copyoutPage_turn (tidy : table.Tidy layout ext mem pages)
    (small : src.length ≤ PGSIZE - dstva % PGSIZE) :
    Returns (fun (copied, table', after) =>
        Turn table mem (dstva / PGSIZE) copied table' after ∧
        (copied = true → table'.Tidy layout ext after pages ∧
          Written dstva src table mem table' after))
      (table.copyoutPage layout dstva src mem) := by
  unfold copyoutPage
  split_ifs with tooHigh
  · have denied : ¬ table.UserPage (dstva / PGSIZE) := by
      intro user
      have below := tidy.user_below user
      simp only [TRAPFRAME, MAXVPN, MAXVA, PGSIZE] at below tooHigh
      omega
    exact .pure ⟨⟨⟨by simp, fun grants => absurd grants.2.1 denied⟩, by simp, fun _ => .rfl,
      fun _ _ => .rfl⟩, by simp⟩
  · refine (cowalloc_returns tidy.good tidy.wellFormed tidy.toLaid).bind
      fun (allowed, table', mem') done _ => ?_
    have turn := tidy.cowalloc_turn done
    obtain ⟨tidy', same⟩ := tidy.cowalloc done
    cases allowed with
    | false => exact .pure ⟨turn, by simp⟩
    | true =>
      obtain ⟨pte, found, user⟩ := (turn.user _).mpr (turn.allowed_iff.mp rfl).2.1
      rw [tidy'.lookup_eq] at found
      simp only [if_true, tidy'.walkaddr found user]
      refine .pure ⟨⟨turn.allowed_iff, fun _ => turn.supply rfl, turn.user, turn.cow⟩,
        fun _ => ⟨tidy'.fill _ _, turn.user, fun va low => ?_⟩⟩
      rw [tidy'.byteAt_write found (tidy'.wellFormed.user_below found user) small low, same va low]

/-- Every page of a range is a user page other than page 0, and memory is found for each that has
to be copied. -/
def Grants (table : PageTable) (mem : Mem) (vpn npages : Nat) : Prop :=
  (∀ other, vpn ≤ other → other < vpn + npages → other ≠ 0 ∧ table.UserPage other) ∧
    table.cowPages vpn npages ≤ mem.supply

theorem grants_zero (table : PageTable) (mem : Mem) (vpn : Nat) : table.Grants mem vpn 0 :=
  ⟨fun other low high => by omega, by simp [cowPages]⟩

/-- The first page of a range and then the others. -/
theorem Turn.grants_iff (turn : Turn table mem vpn true table' after) :
    table.Grants mem vpn (npages + 1) ↔ table'.Grants after (vpn + 1) npages := by
  obtain ⟨nonzero, user, -⟩ := turn.allowed_iff.mp rfl
  have supply := turn.supply rfl
  have cow : table'.cowPages (vpn + 1) npages = table.cowPages (vpn + 1) npages :=
    cowPages_congr fun other above => turn.cow other (by omega)
  unfold Grants
  rw [cowPages_succ, cow]
  constructor
  · rintro ⟨all, enough⟩
    exact ⟨fun other low high => ⟨by omega,
      (turn.user other).mpr (all other (by omega) (by omega)).2⟩,
      by omega⟩
  · rintro ⟨all, enough⟩
    refine ⟨fun other low high => ?_, by omega⟩
    by_cases same : other = vpn
    · exact same ▸ ⟨nonzero, user⟩
    · exact ⟨by omega, (turn.user other).mp (all other (by omega) (by omega)).2⟩

theorem Turn.not_grants (turn : Turn table mem vpn false table' after) :
    ¬ table.Grants mem vpn (npages + 1) := by
  rintro ⟨all, enough⟩
  obtain ⟨nonzero, user⟩ := all vpn le_rfl (by omega)
  have allowed := turn.allowed_iff.mpr ⟨nonzero, user, fun cow => ?_⟩
  · cases allowed
  · rw [cowPages_succ, if_pos cow] at enough
    omega

/-- The loop of `copyout` returns 0 when every page of the range grants the write. -/
theorem Tidy.copyoutLoop_spec {turns dstva : Nat} (tidy : table.Tidy layout ext mem pages)
    (enough : src.length ≤ turns) :
    Returns (fun (copied, table', after) =>
        (copied = true ↔ table.Grants mem (dstva / PGSIZE) (touched dstva src.length)) ∧
        (copied = true → table'.Tidy layout ext after pages ∧
          Written dstva src table mem table' after))
      (copyoutLoop layout turns dstva src table mem) := by
  induction turns generalizing dstva src table mem with
  | zero =>
    obtain rfl : src = [] := eq_nil_of_length_eq_zero (by omega)
    exact .pure ⟨⟨fun _ => grants_zero _ _ _, fun _ => rfl⟩, fun _ => ⟨tidy, .nil dstva table mem⟩⟩
  | succ turns ih =>
    rw [copyoutLoop]
    split_ifs with empty
    · subst empty
      exact .pure ⟨⟨fun _ => grants_zero _ _ _, fun _ => rfl⟩,
        fun _ => ⟨tidy, .nil dstva table mem⟩⟩
    have nonempty : src.length ≠ 0 := fun zero => empty (eq_nil_of_length_eq_zero zero)
    have offset := Nat.mod_lt dstva (show 0 < PGSIZE by decide)
    have page : (dstva / PGSIZE + 1) * PGSIZE / PGSIZE = dstva / PGSIZE + 1 :=
      Nat.mul_div_cancel _ (by decide)
    have address : (dstva / PGSIZE + 1) * PGSIZE = dstva + (PGSIZE - dstva % PGSIZE) := by
      simp only [PGSIZE]
      omega
    have rest : (src.drop (PGSIZE - dstva % PGSIZE)).length =
        src.length - min (PGSIZE - dstva % PGSIZE) src.length := by
      rw [length_drop]
      omega
    rw [touched_succ nonempty, ← rest]
    refine (tidy.copyoutPage_turn (by rw [length_take]; omega)).bind ?_
    rintro ⟨copied, middle, between⟩ - ⟨turn, writes⟩
    cases copied with
    | false => exact .pure ⟨⟨by simp, fun grants => absurd grants turn.not_grants⟩, by simp⟩
    | true =>
      obtain ⟨tidy', written⟩ := writes rfl
      refine (ih tidy' (by omega)).mono ?_
      rintro ⟨copied, last, final⟩ ⟨granted, result⟩
      rw [page] at granted
      refine ⟨granted.trans turn.grants_iff.symm, fun finished => ?_⟩
      obtain ⟨tidy'', writtenRest⟩ := result finished
      rw [address] at writtenRest
      exact ⟨tidy'', written.trans writtenRest⟩

/-! ## The addresses of a system call -/

/-- The page overlaps the `len` addresses from `va` on, which wrap around at `2 ^ 64`. -/
def Overlaps (va len vpn : Nat) : Prop := ∃ i < len, add64 va i / PGSIZE = vpn

instance (va len vpn : Nat) : Decidable (Overlaps va len vpn) :=
  inferInstanceAs (Decidable (∃ i < len, _))

/-- The page is mapped for the user, and is writable or copy-on-write. -/
def WritePage (table : PageTable) (vpn : Nat) : Prop :=
  ∃ pte ∈ table.lookup vpn, pte.perm.user = true ∧ (pte.perm.writable = true ∨ pte.cow = true)

/-- There is memory for each copy-on-write page of the range. -/
def Suffices (table : PageTable) (mem : Mem) (va len : Nat) : Prop :=
  ((Finset.range TRAPFRAME).filter fun vpn => Overlaps va len vpn ∧ table.CowPage vpn).card ≤
    mem.supply

/-- `copyout` succeeds where the user could write, `copyin` then returns the bytes and all others
are as before; everywhere else `copyout` returns -1 without a panic. -/
structure Agrees (layout : Layout) (table : PageTable) (dstva : Nat) (src : List UInt8)
    (mem : Mem) : Prop where
  granted : (∀ vpn, Overlaps dstva src.length vpn → table.WritePage vpn) →
    table.Suffices mem dstva src.length →
    ∃ table' after, table.copyout layout dstva src mem = .ok (true, table', after) ∧
      table'.copyin after dstva src.length = (true, src) ∧
      ∀ va, va / PGSIZE < TRAPFRAME → (∀ i < src.length, add64 dstva i ≠ va) →
        table'.byteAt after va = table.byteAt mem va
  denied : ¬ ((∀ vpn, Overlaps dstva src.length vpn → table.WritePage vpn) ∧
      table.Suffices mem dstva src.length) →
    ∃ table' after, table.copyout layout dstva src mem = .ok (false, table', after)

theorem WritePage.user (writable : table.WritePage vpn) : table.UserPage vpn := by
  obtain ⟨pte, found, user, -⟩ := writable
  exact ⟨pte, found, user⟩

theorem overlaps_iff (noWrap : va + len ≤ 2 ^ 64) (vpn : Nat) :
    Overlaps va len vpn ↔ va / PGSIZE ≤ vpn ∧ vpn < va / PGSIZE + touched va len := by
  unfold Overlaps touched add64
  constructor
  · rintro ⟨i, inside, rfl⟩
    rw [Nat.mod_eq_of_lt (by omega), if_neg (by omega)]
    simp only [PGSIZE]
    omega
  · rintro ⟨low, high⟩
    split_ifs at high with empty
    · omega
    · refine ⟨vpn * PGSIZE - va, ?_, ?_⟩
      · simp only [PGSIZE] at *
        omega
      · rw [Nat.mod_eq_of_lt (by simp only [PGSIZE] at *; omega)]
        simp only [PGSIZE] at *
        omega

/-- A range that wraps around overlaps the highest page. -/
theorem overlaps_top (address : va < 2 ^ 64) (wraps : 2 ^ 64 < va + len) :
    Overlaps va len (2 ^ 52 - 1) := by
  refine ⟨2 ^ 64 - 1 - va, by omega, ?_⟩
  rw [add64, Nat.mod_eq_of_lt (by omega)]
  simp only [PGSIZE]
  omega

theorem Tidy.grants_iff {dstva len : Nat} (tidy : table.Tidy layout ext mem pages)
    (address : dstva < 2 ^ 64) :
    table.Grants mem (dstva / PGSIZE) (touched dstva len) ↔
      (∀ vpn, Overlaps dstva len vpn → vpn ≠ 0 ∧ table.UserPage vpn) ∧
        table.Suffices mem dstva len := by
  have top : ¬ 2 ^ 52 - 1 < TRAPFRAME := by decide
  by_cases wraps : 2 ^ 64 < dstva + len
  · -- The highest page is not mapped.
    refine ⟨fun grants => ?_, fun all => ?_⟩
    · have unmapped := (grants.1 (2 ^ 52 - 1) ?_ ?_).2
      · exact absurd (tidy.user_below unmapped) top
      · simp only [PGSIZE]
        omega
      · rw [touched, if_neg (by omega)]
        simp only [PGSIZE]
        omega
    · exact absurd (tidy.user_below (all.1 _ (overlaps_top address wraps)).2) top
  · have range := overlaps_iff (show dstva + len ≤ 2 ^ 64 by omega)
    have all : (∀ other, dstva / PGSIZE ≤ other → other < dstva / PGSIZE + touched dstva len →
        other ≠ 0 ∧ table.UserPage other) ↔
        ∀ vpn, Overlaps dstva len vpn → vpn ≠ 0 ∧ table.UserPage vpn :=
      ⟨fun each vpn inside => each vpn ((range vpn).mp inside).1 ((range vpn).mp inside).2,
        fun each vpn low high => each vpn ((range vpn).mpr ⟨low, high⟩)⟩
    unfold Grants
    rw [all]
    refine and_congr_right fun user => ?_
    unfold Suffices cowPages
    have same : (Finset.Ico (dstva / PGSIZE) (dstva / PGSIZE + touched dstva len)).filter
          table.CowPage =
        (Finset.range TRAPFRAME).filter fun vpn => Overlaps dstva len vpn ∧ table.CowPage vpn := by
      ext vpn
      simp only [Finset.mem_filter, Finset.mem_Ico, Finset.mem_range, ← range]
      exact ⟨fun ⟨inside, cow⟩ => ⟨tidy.user_below (user vpn inside).2, inside, cow⟩,
        fun ⟨_, inside, cow⟩ => ⟨inside, cow⟩⟩
    rw [same]

end PageTable

end Xv6.Vm
