import Mathlib

/-!
# Kernel parameters

The constants of `kernel/param.h` that the modelled code reads, and the index
types of the two tables they size.
-/

namespace Xv6

/-- Maximum number of processes. -/
abbrev NPROC : Nat := 64

/-- Maximum number of CPUs. -/
abbrev NCPU : Nat := 8

/-- Maximum number of blocks any file system operation writes. -/
abbrev MAXOPBLOCKS : Nat := 10

/-- Maximum number of data blocks in the on-disk log. -/
abbrev LOGSIZE : Nat := MAXOPBLOCKS * 3

-- Declared once, so that a slot or hart written as a number means the same in every module.
instance : NeZero NPROC := ⟨by decide⟩

instance : NeZero NCPU := ⟨by decide⟩

/-- A position in `proc[NPROC]`; it stands for a `struct proc *`. -/
abbrev Slot := Fin NPROC

/-- A hart id, the index into `cpus[NCPU]`. -/
abbrev CpuId := Fin NCPU

end Xv6
