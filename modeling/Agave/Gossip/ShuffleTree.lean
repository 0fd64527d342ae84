import Mathlib
import Agave.Gossip.WeightedShuffle

/-! What the tree of a `WeightedShuffle` holds, and what each operation on it does: the walk shared
by `new` and `remove` changes exactly the sums of the subtrees that hold its leaf, `search` finds the
leaf whose run of prefix sums holds the sample, and `remove_index` reads back the weight of a leaf.
Nodes are named by level and offset, `levelStart 16 d + o`. -/

namespace Gossip

namespace WeightedShuffle

open MachineInt ImplicitTree

/-! ### The index arithmetic of the code, by level and offset -/

theorem node_ne_zero (d o : Nat) : levelStart 16 (d + 1) + o ≠ 0 := by
  rw [levelStart_succ]
  omega

theorem offset_of_node (d o : Nat) : (levelStart 16 (d + 1) + o) &&& bitMask = (o % 16 + 1) % 16 := by
  rw [and_bitMask, index_mod]
  omega

theorem parent_of_node (d o : Nat) :
    (levelStart 16 (d + 1) + o - 1) >>> bitShift = levelStart 16 d + o / 16 := by
  rw [shiftRight_bitShift, parent_index (by norm_num)]

theorem child_of_node (d o j : Nat) :
    ((levelStart 16 d + o) <<< bitShift) + j + 1 = levelStart 16 (d + 1) + (16 * o + j) := by
  rw [shiftLeft_bitShift, child_index]

theorem div_pow_succ (o h : Nat) : o / 16 / 16 ^ h = o / 16 ^ (h + 1) := by
  rw [Nat.div_div_eq_div_mul, pow_succ']

/-! ### The walk up from a leaf -/

theorem updatePath_zero (f : Nat → Nat) (tree : Nat → Nat → Nat) : updatePath f tree 0 = tree := by
  rw [updatePath, if_pos rfl]

theorem updatePath_node (f : Nat → Nat) (tree : Nat → Nat → Nat) (d o : Nat) :
    updatePath f tree (levelStart 16 (d + 1) + o) =
      updatePath f (if o % 16 < 15 then modifyTree tree (levelStart 16 d + o / 16) (o % 16) f else tree)
        (levelStart 16 d + o / 16) := by
  rw [updatePath, if_neg (node_ne_zero d o)]
  simp only [offset_of_node, parent_of_node]
  by_cases last : o % 16 < 15
  · rw [if_pos (by omega), if_pos last, show (o % 16 + 1) % 16 - 1 = o % 16 by omega]
  · rw [if_neg (by omega), if_neg last]

theorem modifyTree_apply (tree : Nat → Nat → Nat) (index slot : Nat) (f : Nat → Nat) (index' slot' : Nat) :
    modifyTree tree index slot f index' slot' =
      if index' = index ∧ slot' = slot then f (tree index' slot') else tree index' slot' := rfl

theorem updatePath_spec (f : Nat → Nat) :
    ∀ (d : Nat) (tree : Nat → Nat → Nat) (o : Nat), o < 16 ^ d → ∀ e p c, p < 16 ^ e → c < 15 →
      updatePath f tree (levelStart 16 d + o) (levelStart 16 e + p) c =
        if e < d ∧ o / 16 ^ (d - e - 1) = 16 * p + c then f (tree (levelStart 16 e + p) c)
        else tree (levelStart 16 e + p) c
  | 0, tree, o, inLevel, e, p, c, _, _ => by
    rw [show o = 0 by simpa using inLevel, levelStart_zero, Nat.add_zero, updatePath_zero,
      if_neg (by omega)]
  | d + 1, tree, o, inLevel, e, p, c, inLevel', slot => by
    have parentInLevel : o / 16 < 16 ^ d := by
      rw [pow_succ] at inLevel
      omega
    rw [updatePath_node, updatePath_spec f d _ (o / 16) parentInLevel e p c inLevel' slot]
    have sameNode : levelStart 16 e + p = levelStart 16 d + o / 16 ↔ e = d ∧ p = o / 16 :=
      ⟨node_index_inj inLevel' parentInLevel, fun ⟨same, same'⟩ => by rw [same, same']⟩
    have firstStep :
        (if o % 16 < 15 then modifyTree tree (levelStart 16 d + o / 16) (o % 16) f else tree) (levelStart 16 e + p) c =
          if e = d ∧ p = o / 16 ∧ c = o % 16 then f (tree (levelStart 16 e + p) c)
          else tree (levelStart 16 e + p) c := by
      by_cases last : o % 16 < 15
      · rw [if_pos last, modifyTree_apply]
        simp only [sameNode, and_assoc]
      · rw [if_neg last, if_neg (by omega)]
    rw [firstStep]
    rcases lt_trichotomy e d with above | rfl | below
    · have quotient : o / 16 / 16 ^ (d - e - 1) = o / 16 ^ (d + 1 - e - 1) := by
        rw [div_pow_succ]
        congr 2
        omega
      have notParent : ¬(e = d ∧ p = o / 16 ∧ c = o % 16) := by omega
      simp only [notParent, if_false, quotient, above, Nat.lt_succ_of_lt above, true_and]
    · have quotient : o / 16 ^ (e + 1 - e - 1) = 16 * p + c ↔ p = o / 16 ∧ c = o % 16 := by
        rw [show e + 1 - e - 1 = 0 by omega, pow_zero, Nat.div_one]
        omega
      simp only [lt_irrefl, false_and, if_false, true_and, Nat.lt_succ_self, quotient]
    · have notParent : ¬(e = d ∧ p = o / 16 ∧ c = o % 16) := by omega
      rw [if_neg (by omega), if_neg notParent, if_neg (by omega)]

/-! ### The sums the tree keeps -/

/-- The tree of `shuffle` has depth `depth` and keeps the sums of `weights`, the weights of its leaves:
each internal node the sum of each of its first 15 subtrees, and `weight` the sum of them all. -/
structure Holds (shuffle : WeightedShuffle) (depth : Nat) (weights : Nat → Nat) : Prop where
  treeLen_eq : shuffle.treeLen = levelStart 16 depth
  sums : ∀ d < depth, ∀ o < 16 ^ d, ∀ c < 15, shuffle.tree (levelStart 16 d + o) c =
    rangeSum weights ((16 * o + c) * 16 ^ (depth - d - 1)) (16 ^ (depth - d - 1))
  weight_eq : shuffle.weight = rangeSum weights 0 (16 ^ depth)

theorem mem_run_iff {k q m : Nat} (positive : 0 < m) : (q * m ≤ k ∧ k < q * m + m) ↔ k / m = q := by
  rw [Nat.div_eq_iff positive]
  omega

theorem rangeSum_update_eq {w : Nat → Nat} {k value : Nat} {f : Nat → Nat}
    (shift : ∀ s, w k ≤ s → f s + w k = s + value) (start count : Nat) :
    rangeSum (Function.update w k value) start count =
      if start ≤ k ∧ k < start + count then f (rangeSum w start count) else rangeSum w start count := by
  have updated := rangeSum_update (w := w) k value start count
  split_ifs at updated ⊢ with inside
  · have moved := shift _ (le_rangeSum inside.1 inside.2)
    omega
  · omega

theorem Holds.update {self : WeightedShuffle} {depth : Nat} {w : Nat → Nat} (holds : Holds self depth w)
    {k : Nat} (leaf : k < 16 ^ depth) {f : Nat → Nat} {value : Nat} (shift : ∀ s, w k ≤ s → f s + w k = s + value) :
    Holds { self with tree := updatePath f self.tree (self.treeLen + k), weight := f self.weight } depth
      (Function.update w k value) := by
  have sums : ∀ d < depth, ∀ o < 16 ^ d, ∀ c < 15, updatePath f self.tree (self.treeLen + k) (levelStart 16 d + o) c =
      rangeSum (Function.update w k value) ((16 * o + c) * 16 ^ (depth - d - 1)) (16 ^ (depth - d - 1)) := by
    intro d above o inLevel c slot
    rw [holds.treeLen_eq, updatePath_spec f depth self.tree k leaf d o c inLevel slot,
      holds.sums d above o inLevel c slot, rangeSum_update_eq shift]
    simp only [mem_run_iff (pow_pos (by norm_num : 0 < 16) (depth - d - 1)), above, true_and]
  have weight : f self.weight = rangeSum (Function.update w k value) 0 (16 ^ depth) := by
    rw [holds.weight_eq, rangeSum_update_eq shift, if_pos ⟨Nat.zero_le _, by omega⟩]
  exact ⟨holds.treeLen_eq, sums, weight⟩

theorem Holds.remove {self : WeightedShuffle} {depth : Nat} {w : Nat → Nat} (holds : Holds self depth w)
    {k : Nat} (leaf : k < 16 ^ depth) : Holds (self.remove k (w k)) depth (Function.update w k 0) :=
  holds.update leaf fun s below => by omega

theorem Holds.congr {self : WeightedShuffle} {depth : Nat} {w w' : Nat → Nat} (holds : Holds self depth w)
    (same : ∀ k, w k = w' k) : Holds self depth w' := by
  rwa [show w = w' from funext same] at holds

/-! ### `new` -/

theorem getTreeSize_loop {count : Nat} : ∀ fuel d, count ≤ 16 ^ (d + fuel) →
    ∃ depth, getTreeSize.loop count fuel (levelStart 16 d) (16 ^ d) = levelStart 16 depth ∧ count ≤ 16 ^ depth
  | 0, d, covers => ⟨d, rfl, covers⟩
  | fuel + 1, d, covers => by
    rw [getTreeSize.loop]
    split_ifs with more
    · rw [← levelStart_succ_eq_add_pow, fanout_eq, ← pow_succ]
      exact getTreeSize_loop fuel (d + 1) (by rwa [Nat.add_right_comm, Nat.add_assoc])
    · exact ⟨d, rfl, Nat.le_of_not_lt more⟩

theorem getTreeSize_spec (count : Nat) : ∃ depth, getTreeSize count = levelStart 16 depth ∧ count ≤ 16 ^ depth := by
  by_cases one : count = 1
  · subst one
    exact ⟨1, rfl, by norm_num⟩
  · rw [getTreeSize, if_neg one]
    exact getTreeSize_loop count 0 (by simpa using (Nat.lt_pow_self (by norm_num : 1 < 16)).le)

theorem zeros_append (pre : List Nat) (weight : Nat) :
    ((pre ++ [weight]).zipIdx.filter fun entry => entry.1 = 0).map (·.2) =
      (pre.zipIdx.filter fun entry => entry.1 = 0).map (·.2) ++ if weight = 0 then [pre.length] else [] := by
  rw [List.zipIdx_append]
  split_ifs with zero <;> simp [zero]

theorem getD_append_singleton (pre : List Nat) (weight k : Nat) :
    (pre ++ [weight]).getD k 0 = Function.update (fun k => pre.getD k 0) pre.length weight k := by
  rcases lt_trichotomy k pre.length with before | rfl | after
  · rw [Function.update_of_ne (by omega)]
    simp [List.getD_eq_getElem?_getD, List.getElem?_append_left before]
  · simp
  · rw [Function.update_of_ne (by omega), List.getD_eq_getElem?_getD, List.getD_eq_getElem?_getD,
      List.getElem?_eq_none (by simp; omega), List.getElem?_eq_none (by omega)]

theorem newStep_eq (self : WeightedShuffle) (weight k : Nat) (fits : self.weight + weight ≤ maxValue 64) :
    newStep self (weight, k) =
      if weight = 0 then { self with zeros := self.zeros ++ [k] }
      else { self with tree := updatePath (· + weight) self.tree (self.treeLen + k), weight := self.weight + weight } := by
  dsimp only [newStep]
  split_ifs with zero
  · rfl
  · simp only [checkedAdd, if_pos fits]

theorem new_holds (weights : List Nat) (fits : weights.sum ≤ maxValue 64) :
    ∃ depth, Holds (new weights) depth (fun k => weights.getD k 0) ∧ weights.length ≤ 16 ^ depth ∧
      (new weights).zeros = zeroIndices weights := by
  obtain ⟨depth, size, covers⟩ := getTreeSize_spec weights.length
  have loop : ∀ pre rest, pre ++ rest = weights →
      Holds (pre.zipIdx.foldl newStep ⟨fun _ _ => 0, getTreeSize weights.length, 0, []⟩) depth
          (fun k => pre.getD k 0) ∧
        (pre.zipIdx.foldl newStep ⟨fun _ _ => 0, getTreeSize weights.length, 0, []⟩).zeros =
          (pre.zipIdx.filter fun entry => entry.1 = 0).map (·.2) := by
    intro pre
    induction pre using List.reverseRecOn with
    | nil =>
      intro rest _
      refine ⟨⟨size, fun d _ o _ c _ => ?_, ?_⟩, rfl⟩
      · exact (Finset.sum_eq_zero fun _ _ => rfl).symm
      · exact (Finset.sum_eq_zero fun _ _ => rfl).symm
    | append_singleton pre weight ih =>
      intro rest split
      obtain ⟨holds, zeros⟩ := ih ([weight] ++ rest) (by rw [← split, List.append_assoc])
      have lengths := congrArg List.length split
      have sums := congrArg List.sum split
      simp only [List.length_append, List.length_cons, List.length_nil, List.sum_append, List.sum_cons,
        List.sum_nil] at lengths sums
      rw [zeros_append, List.zipIdx_append, List.foldl_append, Nat.zero_add]
      generalize pre.zipIdx.foldl newStep ⟨fun _ _ => 0, getTreeSize weights.length, 0, []⟩ = self at holds zeros
      have sum : self.weight = pre.sum := by
        rw [holds.weight_eq, rangeSum_getD (by omega)]
      have weights_eq : (fun k => (pre ++ [weight]).getD k 0) =
          Function.update (fun k => pre.getD k 0) pre.length weight :=
        funext fun k => getD_append_singleton pre weight k
      simp only [List.zipIdx_cons, List.zipIdx_nil, List.foldl_cons, List.foldl_nil]
      rw [newStep_eq self weight pre.length (by omega)]
      by_cases zero : weight = 0
      · rw [if_pos zero, if_pos zero, zeros]
        have unchanged : Holds self depth fun k => (pre ++ [weight]).getD k 0 := holds.congr fun k => by
          rw [getD_append_singleton, zero, Function.update_eq_self_iff.mpr (by simp)]
        exact ⟨⟨unchanged.treeLen_eq, unchanged.sums, unchanged.weight_eq⟩, rfl⟩
      · rw [if_neg zero, if_neg zero, List.append_nil, weights_eq]
        refine ⟨holds.update (by omega) fun s _ => ?_, zeros⟩
        simp
  obtain ⟨holds, zeros⟩ := loop weights [] (List.append_nil weights)
  exact ⟨depth, holds, covers, zeros⟩

/-! ### `search` -/

/-- Where a scan sends the search: the subtree it descends into, numbered from zero, with what is
left of the sample and the subtree's weight. -/
def Scan.target : Scan → Nat × Nat × Nat
  | .descend j val weight => (j, val, weight)
  | .rightmost val weight => (15, val, weight)

/-- The scan of a node whose subtrees hold `size` leaves each from `start`, whose first 15 sums
`node` keeps, from slot `j` on with `n` slots left: it ends in a subtree `j + i` that holds what is
left of the sample once the sums of the subtrees passed are taken off. -/
theorem scanNode_spec {node w : Nat → Nat} {start size : Nat}
    (sums : ∀ c < 15, node c = rangeSum w (start + c * size) size) :
    ∀ n j val weight, j + n = 15 → val < weight → weight = rangeSum w (start + j * size) ((n + 1) * size) →
      ∃ i val', i ≤ n ∧ (scanNode node (List.range' j n) val weight).target =
          (j + i, val', rangeSum w (start + (j + i) * size) size) ∧
        val' < rangeSum w (start + (j + i) * size) size ∧ val' + rangeSum w (start + j * size) (i * size) = val
  | 0, j, val, weight, slots, below, whole => by
    obtain rfl : j = 15 := slots
    rw [Nat.zero_add, Nat.one_mul] at whole
    refine ⟨0, val, le_rfl, ?_, ?_, by simp⟩
    · rw [List.range'_zero, scanNode, Scan.target, Nat.add_zero, whole]
    · rwa [Nat.add_zero, ← whole]
  | n + 1, j, val, weight, slots, below, whole => by
    have split : weight = node j + rangeSum w (start + (j + 1) * size) ((n + 1) * size) := by
      rw [whole, sums j (by omega), show (n + 1 + 1) * size = size + (n + 1) * size by ring, rangeSum_add,
        show start + j * size + size = start + (j + 1) * size by ring]
    rw [List.range'_succ, scanNode]
    split_ifs with inside
    · exact ⟨0, val, Nat.zero_le _, by rw [Scan.target, Nat.add_zero, sums j (by omega)],
        by rwa [Nat.add_zero, ← sums j (by omega)], by simp⟩
    · obtain ⟨i, val', bound, target, fits, rest⟩ :=
        scanNode_spec sums n (j + 1) (val - node j) (weight - node j) (by omega) (by omega) (by omega)
      have passed : rangeSum w (start + j * size) ((i + 1) * size) =
          node j + rangeSum w (start + (j + 1) * size) (i * size) := by
        rw [sums j (by omega), show (i + 1) * size = size + i * size by ring, rangeSum_add,
          show start + j * size + size = start + (j + 1) * size by ring]
      refine ⟨i + 1, val', by omega, ?_, ?_, ?_⟩
      · rw [target, show j + 1 + i = j + (i + 1) by ring]
      · rwa [show j + (i + 1) = j + 1 + i by ring]
      · omega

theorem searchLoop_leaf (self : WeightedShuffle) {index : Nat} (val weight : Nat) (outside : self.treeLen ≤ index) :
    searchLoop self index val weight = (index - self.treeLen, weight) := by
  rw [searchLoop, if_neg (Nat.not_lt.mpr outside)]

theorem searchLoop_node (self : WeightedShuffle) {index : Nat} (val weight : Nat) (inside : index < self.treeLen) :
    searchLoop self index val weight =
      let target := (scanNode (self.tree index) (List.range' 0 15) val weight).target
      searchLoop self (16 * index + target.1 + 1) target.2.1 target.2.2 := by
  rw [searchLoop, if_pos inside, show List.range (fanout - 1) = List.range' 0 15 from List.range_eq_range']
  cases scanNode (self.tree index) (List.range' 0 15) val weight with
  | descend j val weight => rw [shiftLeft_bitShift]; rfl
  | rightmost val weight => rw [shiftLeft_bitShift]; rfl

/-- From the `o`-th node of level `d`, `h` levels above the leaves, with a sample below the weight of
its subtree, the search ends at the leaf of the subtree whose run of the subtree's prefix sums
holds the sample. -/
theorem searchLoop_spec {self : WeightedShuffle} {depth : Nat} {w : Nat → Nat} (holds : Holds self depth w) :
    ∀ h d o val weight, d + h = depth → o < 16 ^ d → val < weight → weight = rangeSum w (o * 16 ^ h) (16 ^ h) →
      ∃ i, i < 16 ^ h ∧ searchLoop self (levelStart 16 d + o) val weight = (o * 16 ^ h + i, w (o * 16 ^ h + i)) ∧
        rangeSum w (o * 16 ^ h) i ≤ val ∧ val < rangeSum w (o * 16 ^ h) i + w (o * 16 ^ h + i)
  | 0, d, o, val, weight, level, _, below, whole => by
    rw [pow_zero, Nat.mul_one, rangeSum_one] at whole
    obtain rfl : d = depth := level
    refine ⟨0, by norm_num, ?_, by simp, ?_⟩
    · rw [searchLoop_leaf self val weight (by rw [holds.treeLen_eq]; omega), holds.treeLen_eq,
        pow_zero, Nat.mul_one, Nat.add_sub_cancel_left, Nat.add_zero, whole]
    · rwa [pow_zero, Nat.mul_one, Nat.add_zero, rangeSum_zero, Nat.zero_add, ← whole]
  | h + 1, d, o, val, weight, level, inLevel, below, whole => by
    have inside : levelStart 16 d + o < self.treeLen := by
      rw [holds.treeLen_eq]
      exact node_lt_levelStart (by omega) inLevel
    have sums : ∀ c < 15, self.tree (levelStart 16 d + o) c = rangeSum w (o * 16 ^ (h + 1) + c * 16 ^ h) (16 ^ h) := by
      intro c slot
      rw [holds.sums d (by omega) o inLevel c slot, show depth - d - 1 = h by omega]
      congr 1
      ring
    obtain ⟨i, val', bound, target, fits, passed⟩ := scanNode_spec sums 15 0 val weight rfl below
      (by rw [whole, Nat.zero_mul, Nat.add_zero, pow_succ]; ring_nf)
    rw [searchLoop_node self val weight inside, target, Nat.zero_add]
    dsimp only
    rw [child_index]
    rw [Nat.zero_add] at fits
    rw [Nat.zero_mul, Nat.add_zero] at passed
    have childStart : o * 16 ^ (h + 1) + i * 16 ^ h = (16 * o + i) * 16 ^ h := by ring
    have childInLevel : 16 * o + i < 16 ^ (d + 1) := by rw [pow_succ]; omega
    obtain ⟨i', bound', found, low, high⟩ :=
      searchLoop_spec holds h (d + 1) (16 * o + i) val' _ (by omega) childInLevel fits (by rw [childStart])
    have offset : i * 16 ^ h + i' < 16 ^ (h + 1) := by
      have : i * 16 ^ h ≤ 15 * 16 ^ h := Nat.mul_le_mul_right _ bound
      rw [pow_succ]
      omega
    have leaf : o * 16 ^ (h + 1) + (i * 16 ^ h + i') = (16 * o + i) * 16 ^ h + i' := by rw [← childStart]; ring
    have before : rangeSum w (o * 16 ^ (h + 1)) (i * 16 ^ h + i') =
        rangeSum w (o * 16 ^ (h + 1)) (i * 16 ^ h) + rangeSum w ((16 * o + i) * 16 ^ h) i' := by
      rw [rangeSum_add, childStart]
    refine ⟨i * 16 ^ h + i', offset, ?_, ?_, ?_⟩
    · rw [found, leaf]
    · omega
    · rw [leaf]
      omega

theorem search_spec {self : WeightedShuffle} {depth : Nat} {w : Nat → Nat} (holds : Holds self depth w)
    {val : Nat} (below : val < self.weight) :
    ∃ k, k < 16 ^ depth ∧ self.search val = (k, w k) ∧ rangeSum w 0 k ≤ val ∧ val < rangeSum w 0 k + w k := by
  obtain ⟨k, leaf, found, low, high⟩ :=
    searchLoop_spec holds depth 0 0 val self.weight (Nat.zero_add _) (by norm_num) below
      (by rw [Nat.zero_mul, holds.weight_eq])
  simp only [Nat.zero_mul, Nat.zero_add] at found low high
  exact ⟨k, leaf, found, low, high⟩

/-! ### `remove_index` -/

theorem foldl_add_range (g : Nat → Nat) : ∀ (n acc : Nat),
    (List.range n).foldl (fun weight j => weight + g j) acc = acc + ∑ j ∈ Finset.range n, g j
  | 0, acc => rfl
  | n + 1, acc => by
    rw [List.range_succ, List.foldl_append, foldl_add_range g n, List.foldl_cons, List.foldl_nil,
      Finset.sum_range_succ, Nat.add_assoc]

theorem rangeSum_of_last {w : Nat → Nat} {k o h : Nat} (last : (o + 1) * 16 ^ h = k + 1) :
    rangeSum w (o * 16 ^ h) (16 ^ h) = rangeSum w (o * 16 ^ h) (16 ^ h - 1) + w k := by
  have positive : 0 < 16 ^ h := by positivity
  rw [rangeSum_last _ positive]
  congr 2
  rw [Nat.add_mul, Nat.one_mul] at last
  omega

theorem remove_branch (self : WeightedShuffle) {w : Nat → Nat} {k weight entry : Nat} (read : entry = weight + w k) :
    (if entry ≠ weight then self.remove k (entry - weight) else self.removeZero k) =
      if w k ≠ 0 then self.remove k (w k) else self.removeZero k := by
  by_cases zero : w k = 0
  · rw [if_neg (by omega), if_neg (by omega)]
  · rw [if_pos (by omega), if_pos zero, read, Nat.add_sub_cancel_left]

theorem removeIndexLoop_spec {self : WeightedShuffle} {depth : Nat} {w : Nat → Nat} (holds : Holds self depth w)
    {k : Nat} : ∀ d h o weight, d + h = depth → o < 16 ^ d → (o + 1) * 16 ^ h = k + 1 →
      weight = rangeSum w (o * 16 ^ h) (16 ^ h - 1) →
      removeIndexLoop self k (levelStart 16 d + o) weight =
        some (if w k ≠ 0 then self.remove k (w k) else self.removeZero k)
  | 0, h, o, weight, level, inLevel, last, others => by
    obtain rfl : o = 0 := by simpa using inLevel
    have whole : self.weight = weight + w k := by
      rw [holds.weight_eq, ← level, Nat.zero_add, ← Nat.zero_mul (16 ^ h), rangeSum_of_last last, others]
    rw [levelStart_zero, removeIndexLoop, if_pos rfl, remove_branch self whole]
  | d + 1, h, o, weight, level, inLevel, last, others => by
    have parentInLevel : o / 16 < 16 ^ d := by
      rw [pow_succ] at inLevel
      omega
    have parentInside : ¬self.treeLen ≤ levelStart 16 d + o / 16 := by
      rw [holds.treeLen_eq]
      exact Nat.not_le.mpr (node_lt_levelStart (by omega) parentInLevel)
    have parentSums : ∀ c < 15, self.tree (levelStart 16 d + o / 16) c =
        rangeSum w ((o / 16) * 16 ^ (h + 1) + c * 16 ^ h) (16 ^ h) := by
      intro c slot
      rw [holds.sums d (by omega) (o / 16) parentInLevel c slot, show depth - d - 1 = h by omega]
      congr 1
      ring
    rw [removeIndexLoop, if_neg (node_ne_zero d o)]
    simp only [offset_of_node, parent_of_node]
    rw [if_neg parentInside]
    by_cases kept : o % 16 < 15
    · have entry : self.tree (levelStart 16 d + o / 16) ((o % 16 + 1) % 16 - 1) = weight + w k := by
        rw [show (o % 16 + 1) % 16 - 1 = o % 16 by omega, parentSums _ kept,
          show o / 16 * 16 ^ (h + 1) + o % 16 * 16 ^ h = o * 16 ^ h by
            rw [show o / 16 * 16 ^ (h + 1) + o % 16 * 16 ^ h = (16 * (o / 16) + o % 16) * 16 ^ h by ring,
              Nat.div_add_mod],
          rangeSum_of_last last, others]
      rw [if_pos (by omega), remove_branch self entry]
    · have lastChild : o = 16 * (o / 16) + 15 := by omega
      have siblings : (List.range (fanout - 1)).foldl (fun weight j => weight + self.tree (levelStart 16 d + o / 16) j) weight =
          rangeSum w ((o / 16) * 16 ^ (h + 1)) (16 ^ (h + 1) - 1) := by
        have blocks := rangeSum_blocks (w := w) ((o / 16) * 16 ^ (h + 1)) (16 ^ h) 15
        have start : o / 16 * 16 ^ (h + 1) + 15 * 16 ^ h = o * 16 ^ h := by
          rw [show o / 16 * 16 ^ (h + 1) + 15 * 16 ^ h = (16 * (o / 16) + 15) * 16 ^ h by ring, ← lastChild]
        have count : 15 * 16 ^ h + (16 ^ h - 1) = 16 ^ (h + 1) - 1 := by
          have : 0 < 16 ^ h := by positivity
          rw [pow_succ]; omega
        rw [show fanout - 1 = 15 from rfl, foldl_add_range, Finset.sum_congr rfl fun c mem => parentSums c (Finset.mem_range.mp mem),
          ← blocks, others, Nat.add_comm, ← start, ← rangeSum_add, count]
      rw [if_neg (by omega), siblings]
      exact removeIndexLoop_spec holds d (h + 1) (o / 16) _ (by omega) parentInLevel
        (by rw [show (o / 16 + 1) * 16 ^ (h + 1) = (16 * (o / 16) + 15 + 1) * 16 ^ h by ring, ← lastChild, last])
        rfl

theorem removeIndex_spec {self : WeightedShuffle} {depth : Nat} {w : Nat → Nat} (holds : Holds self depth w)
    {k : Nat} (leaf : k < 16 ^ depth) :
    self.removeIndex k = some (if w k ≠ 0 then self.remove k (w k) else self.removeZero k) := by
  rw [removeIndex, holds.treeLen_eq]
  exact removeIndexLoop_spec holds depth 0 k 0 (Nat.add_zero _) leaf (by simp) (by simp)

theorem removeIndex_beyond {self : WeightedShuffle} {depth : Nat} {w : Nat → Nat} (holds : Holds self depth w)
    {k : Nat} (beyond : 16 ^ depth ≤ k) : self.removeIndex k = none := by
  have past : 16 * self.treeLen + 1 ≤ self.treeLen + k := by
    rw [holds.treeLen_eq, ← levelStart_succ, levelStart_succ_eq_add_pow]
    omega
  have positive : 0 < 16 ^ depth := Nat.pow_pos (by norm_num)
  rw [removeIndex, removeIndexLoop, if_neg (by omega)]
  dsimp only
  rw [shiftRight_bitShift, if_pos (by omega)]

theorem removeZero_eq (self : WeightedShuffle) (k : Nat) :
    self.removeZero k = { self with zeros := self.zeros.erase k } := by
  have same : self.zeros.findIdx? (· = k) = self.zeros.idxOf? k := by
    simp only [List.idxOf?, beq_eq_decide]
  rw [removeZero, List.erase_eq_eraseIdx, same]
  cases self.zeros.idxOf? k <;> rfl

end WeightedShuffle

end Gossip
