import Mathlib

/-! Binary Merkle trees whose levels of odd size join their last node with itself. The tree over a
level of leaves is the concatenation of its levels, leaves first and root last. The proof of the
leaf at an index is the list of its siblings, one per level below the root, the sibling of index
`i` being `i ^^^ 1`, or the node itself at the end of an odd level. Verifying a proof folds the
siblings into the leaf, on the side the index gives, and halves the index at each level. -/

namespace MerkleTree

variable {α : Type*} (join : α → α → α)

/-- The level above `level`: adjacent nodes joined, the last node of an odd level with itself. -/
def parents : List α → List α
  | [] => []
  | [a] => [join a a]
  | a :: b :: rest => join a b :: parents rest

theorem length_parents : ∀ level : List α, (parents join level).length = (level.length + 1) / 2
  | [] => by simp [parents]
  | [_] => by simp [parents]
  | _ :: _ :: rest => by
    simp only [parents, List.length_cons, length_parents rest]
    omega

theorem getElem?_parents {a b : α} : ∀ {level : List α} {j : Nat}, level[2 * j]? = some a →
    level[min (2 * j + 1) (level.length - 1)]? = some b → (parents join level)[j]? = some (join a b)
  | [], _, left, _ => by simp at left
  | [x], j, left, right => by
    have zero : j = 0 := by
      by_contra nonzero
      simp [List.getElem?_eq_none (by simp; omega : [x].length ≤ 2 * j)] at left
    subst zero
    simp only [List.getElem?_singleton, List.length_singleton, Nat.mul_zero, Nat.zero_add, Nat.sub_self,
      Nat.min_zero, Option.some.injEq, if_pos] at left right
    simp [parents, ← left, ← right]
  | x :: y :: rest, 0, left, right => by
    simp only [Nat.mul_zero, Nat.zero_add, List.getElem?_cons_zero, Option.some.injEq,
      List.length_cons] at left right
    rw [show min 1 (rest.length + 1 + 1 - 1) = 1 by omega] at right
    simp only [List.getElem?_cons_succ, List.getElem?_cons_zero, Option.some.injEq] at right
    simp [parents, ← left, ← right]
  | x :: y :: rest, j + 1, left, right => by
    have inside : 2 * j < rest.length := by
      by_contra outside
      simp [List.getElem?_eq_none (by simp; omega : (x :: y :: rest).length ≤ 2 * (j + 1))] at left
    rw [show 2 * (j + 1) = 2 * j + 1 + 1 by omega] at left
    rw [show min (2 * (j + 1) + 1) ((x :: y :: rest).length - 1) =
      min (2 * j + 1) (rest.length - 1) + 1 + 1 by simp only [List.length_cons]; omega] at right
    simp only [List.getElem?_cons_succ] at left right
    simp only [parents, List.getElem?_cons_succ]
    exact getElem?_parents left right

/-- The tree over `level`: the level itself, then the tree over the level above, up to a level of
one node. -/
def tree (level : List α) : List α :=
  if level.length ≤ 1 then level else level ++ tree (parents join level)
termination_by level.length
decreasing_by
  rw [length_parents]
  omega

theorem tree_of_le {level : List α} (small : level.length ≤ 1) : tree join level = level := by
  rw [tree, if_pos small]

theorem tree_of_lt {level : List α} (large : 1 < level.length) :
    tree join level = level ++ tree join (parents join level) := by
  rw [tree, if_neg (Nat.not_le.2 large)]

/-- The root: the levels paired up until one node is left, `none` over no leaves. -/
def root (level : List α) : Option α :=
  if level.length ≤ 1 then level.head? else root (parents join level)
termination_by level.length
decreasing_by
  rw [length_parents]
  omega

theorem prefix_tree (level : List α) : level <+: tree join level := by
  by_cases small : level.length ≤ 1
  · rw [tree_of_le join small]
  · rw [tree_of_lt join (by omega)]
    exact List.prefix_append _ _

theorem getLast?_tree (level : List α) : (tree join level).getLast? = root join level := by
  induction level using tree.induct join with
  | case1 level small =>
    rw [tree_of_le join small, root, if_pos small]
    cases level with
    | nil => rfl
    | cons a rest =>
      obtain rfl : rest = [] := List.eq_nil_of_length_eq_zero (by simp only [List.length_cons] at small; omega)
      rfl
  | case2 level large ih =>
    have large : 1 < level.length := Nat.lt_of_not_le large
    have above : tree join (parents join level) ≠ [] := by
      apply List.ne_nil_of_length_pos
      have := (prefix_tree join (parents join level)).length_le
      rw [length_parents] at this
      omega
    rw [tree_of_lt join large, root, if_neg (by omega), List.getLast?_append_of_ne_nil _ above, ih]

/-- The proof of the leaf at `index`: its sibling on every level below the root. -/
def path (level : List α) (index : Nat) : List α :=
  if small : level.length ≤ 1 then []
  else level.get ⟨min (index ^^^ 1) (level.length - 1), by omega⟩ :: path (parents join level) (index / 2)
termination_by level.length
decreasing_by
  rw [length_parents]
  omega

theorem path_of_le {level : List α} (small : level.length ≤ 1) (index : Nat) : path join level index = [] := by
  rw [path, dif_pos small]

theorem path_of_lt {level : List α} (large : 1 < level.length) (index : Nat) :
    path join level index =
      level[min (index ^^^ 1) (level.length - 1)] :: path join (parents join level) (index / 2) := by
  rw [path, dif_neg (Nat.not_le.2 large)]
  rfl

theorem length_path (level : List α) (index : Nat) : (path join level index).length = Nat.clog 2 level.length := by
  induction level using tree.induct join generalizing index with
  | case1 level small => rw [path_of_le join small, Nat.clog_of_right_le_one small]; rfl
  | case2 level large ih =>
    have large : 1 < level.length := Nat.lt_of_not_le large
    rw [path_of_lt join large, List.length_cons, ih, length_parents,
      Nat.clog_of_one_lt (by decide) large, show level.length + 2 - 1 = level.length + 1 by omega]

theorem getElem_sibling_of_even {level : List α} {index : Nat} (even : index % 2 = 0)
    (inside : index < level.length) :
    (if next : index + 1 < level.length then level[index + 1] else level[index]) =
      level[min (index ^^^ 1) (level.length - 1)] := by
  have xor : index ^^^ 1 = index + 1 := Nat.xor_one_of_even (Nat.even_iff.2 even)
  split_ifs with next
  · simp only [xor, show min (index + 1) (level.length - 1) = index + 1 by omega]
  · simp only [xor, show min (index + 1) (level.length - 1) = index by omega]

theorem getElem_sibling_of_odd {level : List α} {index : Nat} (odd : index % 2 = 1)
    (inside : index < level.length) :
    level[index - 1] = level[min (index ^^^ 1) (level.length - 1)] := by
  have xor : index ^^^ 1 = index - 1 := Nat.xor_one_of_odd (Nat.odd_iff.2 odd)
  simp only [xor, show min (index - 1) (level.length - 1) = index - 1 by omega]

/-- One level up: the index halves and the node joins `other`, on its left when the index is even. -/
def climbStep (acc : Nat × α) (other : α) : Nat × α :=
  (acc.1 / 2, if acc.1 % 2 = 0 then join acc.2 other else join other acc.2)

/-- The fold that verifies a proof: the index and node it reaches from a leaf. -/
def climb (index : Nat) (node : α) (proof : List α) : Nat × α := proof.foldl (climbStep join) (index, node)

theorem getElem?_parents_half {level : List α} {index : Nat} (large : 1 < level.length)
    (inside : index < level.length) :
    (parents join level)[index / 2]? =
      some (climbStep join (index, level[index]) level[min (index ^^^ 1) (level.length - 1)]).2 := by
  rcases Nat.even_or_odd index with even | odd
  · have halves : 2 * (index / 2) = index := Nat.two_mul_div_two_of_even even
    have sibling : min (2 * (index / 2) + 1) (level.length - 1) = min (index ^^^ 1) (level.length - 1) := by
      rw [halves, Nat.xor_one_of_even even]
    have above := getElem?_parents join
      (show level[2 * (index / 2)]? = some level[index] by rw [halves]; exact List.getElem?_eq_getElem inside)
      (show level[min (2 * (index / 2) + 1) (level.length - 1)]? =
          some level[min (index ^^^ 1) (level.length - 1)] by
        rw [sibling]; exact List.getElem?_eq_getElem _)
    simp only [climbStep, Nat.even_iff.1 even, if_true]
    exact above
  · have halves : 2 * (index / 2) = min (index ^^^ 1) (level.length - 1) := by
      rw [Nat.xor_one_of_odd odd]
      have := Nat.odd_iff.1 odd
      omega
    have itself : min (2 * (index / 2) + 1) (level.length - 1) = index := by
      have := Nat.odd_iff.1 odd
      omega
    have above := getElem?_parents join
      (show level[2 * (index / 2)]? = some level[min (index ^^^ 1) (level.length - 1)] by
        rw [halves]; exact List.getElem?_eq_getElem _)
      (show level[min (2 * (index / 2) + 1) (level.length - 1)]? = some level[index] by
        rw [itself]; exact List.getElem?_eq_getElem inside)
    simp only [climbStep, Nat.odd_iff.1 odd, Nat.one_ne_zero, if_false]
    exact above

theorem climb_path (level : List α) :
    ∀ index (inside : index < level.length), ∃ root, (tree join level).getLast? = some root ∧
      climb join index level[index] (path join level index) = (0, root) := by
  induction level using tree.induct join with
  | case1 level small =>
    intro index inside
    obtain ⟨leaf, rfl⟩ : ∃ leaf, level = [leaf] := List.length_eq_one_iff.1 (by omega)
    have zero : index = 0 := by simp at inside; omega
    subst zero
    refine ⟨leaf, by rw [tree_of_le join small]; rfl, ?_⟩
    rw [path_of_le join small]
    rfl
  | case2 level large ih =>
    intro index inside
    have large : 1 < level.length := Nat.lt_of_not_le large
    obtain ⟨upper, upperEq⟩ := List.getElem?_eq_some_iff.1 (getElem?_parents_half join large inside)
    obtain ⟨root, last, climbed⟩ := ih (index / 2) upper
    refine ⟨root, ?_, ?_⟩
    · rw [tree_of_lt join large, List.getLast?_append_of_ne_nil _ (fun empty => by simp [empty] at last)]
      exact last
    · have pair : climbStep join (index, level[index]) level[min (index ^^^ 1) (level.length - 1)] =
          (index / 2, (parents join level)[index / 2]) := Prod.ext rfl upperEq.symm
      rw [path_of_lt join large, climb, List.foldl_cons, pair]
      exact climbed

theorem climb_map (trunc : α → α) (left : ∀ a b, join (trunc a) b = join a b)
    (right : ∀ a b, join a (trunc b) = join a b) (index : Nat) (node : α) (proof : List α) :
    climb join index node (proof.map trunc) = climb join index node proof := by
  have step : ∀ acc other, climbStep join acc (trunc other) = climbStep join acc other := by
    intro acc other
    simp only [climbStep, left, right]
  simp only [climb, List.foldl_map, step]

end MerkleTree
