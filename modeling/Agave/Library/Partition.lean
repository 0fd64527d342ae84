import Mathlib

/-! The numbers cut into consecutive blocks `[start b, start (b + 1))` by a strictly increasing
`start`, as slots are cut into epochs. An index function that finds the block of every number
below a bound is determined by that, and is monotone with steps of at most one. -/

namespace Partition

/-- `index` finds the block of every number below `bound`. -/
def Finds (start index : Nat → Nat) (bound : Nat) : Prop :=
  ∀ n < bound, start (index n) ≤ n ∧ n < start (index n + 1)

variable {start index : Nat → Nat} {bound : Nat}

theorem block_unique (increasing : StrictMono start) {n b b' : Nat} (lower : start b ≤ n) (upper : n < start (b + 1))
    (lower' : start b' ≤ n) (upper' : n < start (b' + 1)) : b = b' := by
  by_contra different
  rcases Nat.lt_or_gt_of_ne different with before | after
  · have := increasing.monotone (show b + 1 ≤ b' by omega)
    omega
  · have := increasing.monotone (show b' + 1 ≤ b by omega)
    omega

theorem Finds.eq_of_mem (increasing : StrictMono start) (finds : Finds start index bound) {n b : Nat} (below : n < bound)
    (lower : start b ≤ n) (upper : n < start (b + 1)) : index n = b :=
  block_unique increasing (finds n below).1 (finds n below).2 lower upper

theorem Finds.monotone (increasing : StrictMono start) (finds : Finds start index bound) {n n' : Nat} (le : n ≤ n')
    (below : n' < bound) : index n ≤ index n' := by
  by_contra later
  have := increasing.monotone (show index n' + 1 ≤ index n by omega)
  have := finds n (by omega)
  have := finds n' below
  omega

theorem Finds.succ_le (increasing : StrictMono start) (finds : Finds start index bound) {n : Nat} (below : n + 1 < bound) :
    index (n + 1) ≤ index n + 1 := by
  by_contra skipped
  have := increasing (show index n + 1 < index (n + 1) by omega)
  have := finds n (by omega)
  have := finds (n + 1) below
  omega

end Partition
