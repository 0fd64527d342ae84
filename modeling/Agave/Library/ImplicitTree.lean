import Mathlib
import Agave.Library.List

/-! A complete tree of fanout `F` laid out level by level in one array, as a heap is: the root at
index 0 and the children of node `i` at `F * i + c + 1` for `c < F`, so that the parent of `i > 0`
is `(i - 1) / F`. Level `d` holds the `F ^ d` nodes from `levelStart F d` on. In a tree of depth
`D` the leaves are the nodes of level `D`, and the subtree of the `o`-th node of level `d` has as
leaves the `F ^ (D - d)` consecutive ones from `o * F ^ (D - d)`: what a node stores about its
subtree is a sum over a run of leaves, `rangeSum`. -/

namespace ImplicitTree

variable {F : Nat}

/-- The index of the first node of level `d`: the number of nodes above it. -/
def levelStart (F : Nat) : Nat → Nat
  | 0 => 0
  | d + 1 => F * levelStart F d + 1

@[simp] theorem levelStart_zero : levelStart F 0 = 0 := rfl

theorem levelStart_succ (d : Nat) : levelStart F (d + 1) = F * levelStart F d + 1 := rfl

theorem levelStart_succ_eq_add_pow : ∀ d, levelStart F (d + 1) = levelStart F d + F ^ d
  | 0 => by simp [levelStart]
  | d + 1 =>
    calc levelStart F (d + 2) = F * levelStart F (d + 1) + 1 := rfl
      _ = F * (levelStart F d + F ^ d) + 1 := by rw [levelStart_succ_eq_add_pow d]
      _ = levelStart F (d + 1) + F ^ (d + 1) := by rw [levelStart_succ, pow_succ]; ring

theorem child_index (d o c : Nat) :
    F * (levelStart F d + o) + c + 1 = levelStart F (d + 1) + (F * o + c) := by
  rw [levelStart_succ]
  ring

theorem parent_index (positive : 0 < F) (d o : Nat) :
    (levelStart F (d + 1) + o - 1) / F = levelStart F d + o / F := by
  rw [levelStart_succ, show F * levelStart F d + 1 + o - 1 = o + F * levelStart F d by omega,
    Nat.add_mul_div_left _ _ positive, Nat.add_comm]

theorem index_mod (d o : Nat) : (levelStart F (d + 1) + o) % F = (o + 1) % F := by
  rw [levelStart_succ, show F * levelStart F d + 1 + o = o + 1 + F * levelStart F d by ring,
    Nat.add_mul_mod_self_left]

theorem node_lt_levelStart {e d p : Nat} (deeper : e < d) (inLevel : p < F ^ e) :
    levelStart F e + p < levelStart F d := by
  induction d, deeper using Nat.le_induction with
  | base => rw [levelStart_succ_eq_add_pow]; omega
  | succ d _ ih =>
    have grows : levelStart F d ≤ levelStart F (d + 1) := by
      rw [levelStart_succ_eq_add_pow]; exact Nat.le_add_right _ _
    omega

theorem node_index_inj {e e' p p' : Nat} (inLevel : p < F ^ e) (inLevel' : p' < F ^ e')
    (same : levelStart F e + p = levelStart F e' + p') : e = e' ∧ p = p' := by
  rcases lt_trichotomy e e' with before | rfl | after
  · have := node_lt_levelStart before inLevel
    omega
  · omega
  · have := node_lt_levelStart after inLevel'
    omega

section RangeSum

/-- The sum of `weight` over the `count` leaves from `start`. -/
def rangeSum (weight : Nat → Nat) (start count : Nat) : Nat :=
  ∑ k ∈ Finset.range count, weight (start + k)

variable {w : Nat → Nat}

@[simp] theorem rangeSum_zero (start : Nat) : rangeSum w start 0 = 0 := by
  simp [rangeSum]

theorem rangeSum_one (start : Nat) : rangeSum w start 1 = w start := by
  simp [rangeSum]

theorem rangeSum_add (start a b : Nat) :
    rangeSum w start (a + b) = rangeSum w start a + rangeSum w (start + a) b := by
  simp only [rangeSum, Finset.sum_range_add, Nat.add_assoc]

theorem rangeSum_succ (start count : Nat) :
    rangeSum w start (count + 1) = rangeSum w start count + w (start + count) := by
  rw [rangeSum_add, rangeSum_one]

theorem rangeSum_last (start : Nat) {count : Nat} (positive : 0 < count) :
    rangeSum w start count = rangeSum w start (count - 1) + w (start + (count - 1)) := by
  obtain ⟨count, rfl⟩ : ∃ c, count = c + 1 := ⟨count - 1, by omega⟩
  rw [Nat.add_sub_cancel, rangeSum_succ]

theorem rangeSum_blocks (start m : Nat) :
    ∀ n, rangeSum w start (n * m) = ∑ c ∈ Finset.range n, rangeSum w (start + c * m) m
  | 0 => by simp
  | n + 1 => by rw [Nat.succ_mul, rangeSum_add, rangeSum_blocks start m n, Finset.sum_range_succ]

theorem le_rangeSum {start count k : Nat} (inside : start ≤ k) (below : k < start + count) :
    w k ≤ rangeSum w start count := by
  obtain ⟨i, rfl⟩ : ∃ i, k = start + i := ⟨k - start, by omega⟩
  exact Finset.single_le_sum (f := fun i => w (start + i)) (fun _ _ => Nat.zero_le _)
    (Finset.mem_range.mpr (by omega))

theorem rangeSum_congr {other : Nat → Nat} {start count : Nat}
    (agree : ∀ k, start ≤ k → k < start + count → w k = other k) :
    rangeSum w start count = rangeSum other start count :=
  Finset.sum_congr rfl fun i mem => agree _ (Nat.le_add_right _ _) (by simpa using mem)

theorem rangeSum_update (k value start count : Nat) :
    rangeSum (Function.update w k value) start count +
        (if start ≤ k ∧ k < start + count then w k else 0) =
      rangeSum w start count + (if start ≤ k ∧ k < start + count then value else 0) := by
  induction count with
  | zero =>
    have outside : ¬(start ≤ k ∧ k < start + 0) := by omega
    rw [if_neg outside, if_neg outside, rangeSum_zero, rangeSum_zero]
  | succ count ih =>
    rw [rangeSum_succ, rangeSum_succ]
    by_cases last : start + count = k
    · have before : ¬(start ≤ k ∧ k < start + count) := by omega
      simp only [if_neg before, Nat.add_zero] at ih
      rw [ih, last, Function.update_self, if_pos (by omega), if_pos (by omega)]
      ring
    · have same : (start ≤ k ∧ k < start + (count + 1)) ↔ (start ≤ k ∧ k < start + count) := by omega
      rw [Function.update_of_ne last, if_congr same rfl rfl, if_congr same rfl rfl]
      omega

theorem rangeSum_getD {l : List Nat} {count : Nat} (covers : l.length ≤ count) :
    rangeSum (fun k => l.getD k 0) 0 count = l.sum := by
  obtain ⟨rest, rfl⟩ : ∃ rest, count = l.length + rest := ⟨count - l.length, by omega⟩
  have beyond : rangeSum (fun k => l.getD k 0) l.length rest = 0 :=
    Finset.sum_eq_zero fun i _ => by simp
  rw [rangeSum_add, Nat.zero_add, beyond, Nat.add_zero, List.sum_eq_sum_range_getD]
  simp [rangeSum]

theorem rangeSum_getD_cons (weight : Nat) (weights : List Nat) (count : Nat) :
    rangeSum (fun k => (weight :: weights).getD k 0) 0 (count + 1) =
      weight + rangeSum (fun k => weights.getD k 0) 0 count := by
  simp only [rangeSum, Finset.sum_range_succ', Nat.zero_add, List.getD_cons_succ, List.getD_cons_zero]
  rw [Nat.add_comm]

end RangeSum

end ImplicitTree
