import Mathlib
import Agave.Gossip.ShuffleTree

/-! The tree-based shuffle against the reference `weighted_shuffle_slow`: while weight is left, each
index the iterator yields is the one the reference draws with the same answer of the source, and
both remove it the same way; then both shuffle the same zeros the same way. -/

namespace Gossip

open MachineInt ImplicitTree WeightedShuffle

/-! ### `swap_remove` -/

theorem getLast_set_getLast {items : List Nat} (nonempty : items ≠ []) (index : Nat) :
    (items.set index (items.getLast nonempty)).getLast (by simpa using nonempty) = items.getLast nonempty := by
  rw [List.getLast_eq_getElem, List.getElem_set, List.getLast_eq_getElem]
  split_ifs with same
  · rfl
  · simp

theorem swapRemove_perm {items : List Nat} {index : Nat} (inside : index < items.length) :
    ((swapRemove items index).1 :: (swapRemove items index).2).Perm items ∧
      (swapRemove items index).2.length = items.length - 1 := by
  have nonempty : items ≠ [] := List.ne_nil_of_length_pos (by omega)
  have lastD : items.getLastD 0 = items.getLast nonempty := by
    rw [List.getLastD_eq_getLast?, List.getLast?_eq_some_getLast nonempty]
    rfl
  have movedNonempty : items.set index (items.getLast nonempty) ≠ [] := by simpa using nonempty
  have split := List.dropLast_concat_getLast movedNonempty
  rw [getLast_set_getLast nonempty index] at split
  unfold swapRemove
  rw [lastD, List.getD_eq_getElem?_getD, List.getElem?_eq_getElem inside, Option.getD_some]
  constructor
  · rw [List.perm_iff_count]
    intro b
    have counted := congrArg (List.count b) split
    rw [List.count_append, List.count_set inside] at counted
    have present : (if (items[index] == b) = true then 1 else 0) ≤ List.count b items := by
      split_ifs with same
      · exact List.count_pos_iff.mpr (by rw [beq_iff_eq] at same; rw [← same]; exact List.getElem_mem inside)
      · exact Nat.zero_le _
    rw [List.count_cons]
    simp only [List.count_singleton] at counted
    split_ifs at counted present ⊢ <;> simp_all
  · rw [List.length_dropLast, List.length_set]

/-! ### The reference's search and sums -/

theorem findIdx_scanSums {sample : Nat} :
    ∀ (weights : List Nat) (acc k : Nat), k < weights.length →
      acc + rangeSum (fun i => weights.getD i 0) 0 k ≤ sample →
      sample < acc + rangeSum (fun i => weights.getD i 0) 0 k + weights.getD k 0 →
      (scanSums acc weights).findIdx? (sample < ·) = some k
  | [], _, _, inside, _, _ => absurd inside (Nat.not_lt_zero _)
  | weight :: weights, acc, 0, _, _, high => by
    rw [scanSums, List.findIdx?_cons, if_pos (by simpa using high)]
  | weight :: weights, acc, k + 1, inside, low, high => by
    rw [rangeSum_getD_cons] at low high
    rw [List.getD_cons_succ] at high
    rw [scanSums, List.findIdx?_cons, if_neg (by simp; omega),
      findIdx_scanSums weights (acc + weight) k (by simpa using inside) (by omega) (by omega)]
    rfl

theorem sum_set_zero (weights : List Nat) (k : Nat) :
    (weights.set k 0).sum + weights.getD k 0 = weights.sum := by
  have updated := rangeSum_update (w := fun i => weights.getD i 0) k 0 0 weights.length
  have zeroed : (fun i => (weights.set k 0).getD i 0) = Function.update (fun i => weights.getD i 0) k 0 := by
    funext i
    rw [Function.update_apply]
    split_ifs with same
    · subst same
      rw [List.getD_eq_getElem?_getD, List.getElem?_set, if_pos rfl]
      split <;> rfl
    · simp [List.getD_eq_getElem?_getD, Ne.symm same]
  rw [← zeroed, rangeSum_getD (by simp), rangeSum_getD le_rfl] at updated
  split_ifs at updated with leaf
  · omega
  · rw [List.getD_eq_getElem?_getD, List.getElem?_eq_none (by omega), Option.getD_none]
    omega

/-! ### The lists of indices both sides keep -/

theorem zipIdx_filter_map_snd (keep : Nat → Nat → Bool) : ∀ (weights : List Nat) (start : Nat),
    ((weights.zipIdx start).filter fun entry => keep entry.1 entry.2).map (·.2) =
      (List.range' start weights.length).filter fun i => keep (weights.getD (i - start) 0) i
  | [], _ => rfl
  | weight :: weights, start => by
    have tail : ((List.range' (start + 1) weights.length).filter fun i => keep (weights.getD (i - (start + 1)) 0) i) =
        (List.range' (start + 1) weights.length).filter fun i => keep ((weight :: weights).getD (i - start) 0) i := by
      refine List.filter_congr fun i mem => ?_
      rw [List.mem_range'_1] at mem
      rw [show i - start = i - (start + 1) + 1 by omega, List.getD_cons_succ]
    rw [List.zipIdx_cons, List.length_cons, List.range'_succ, List.filter_cons, List.filter_cons, Nat.sub_self,
      List.getD_cons_zero, ← tail]
    dsimp only
    by_cases kept : keep weight start
    · rw [if_pos kept, if_pos kept, List.map_cons, zipIdx_filter_map_snd keep weights (start + 1)]
    · rw [if_neg kept, if_neg kept, zipIdx_filter_map_snd keep weights (start + 1)]

theorem zeroIndices_eq (weights : List Nat) :
    zeroIndices weights = (List.range weights.length).filter fun i => weights.getD i 0 = 0 := by
  rw [zeroIndices, zipIdx_filter_map_snd (fun weight _ => decide (weight = 0)) weights 0, List.range_eq_range']
  simp only [Nat.sub_zero]

theorem keptZeros_eq (weights removed : List Nat) :
    keptZeros weights removed = (List.range weights.length).filter fun i => weights.getD i 0 = 0 ∧ i ∉ removed := by
  rw [keptZeros, zipIdx_filter_map_snd (fun weight i => decide (weight = 0 ∧ i ∉ removed)) weights 0,
    List.range_eq_range']
  simp only [Nat.sub_zero]

theorem getElem?_keptWeights (weights removed : List Nat) (i : Nat) :
    (keptWeights weights removed)[i]? = weights[i]?.map fun weight => if i ∈ removed then 0 else weight := by
  rw [keptWeights, List.getElem?_map, List.getElem?_zipIdx, Option.map_map]
  simp only [Nat.zero_add]
  rfl

theorem length_keptWeights (weights removed : List Nat) : (keptWeights weights removed).length = weights.length := by
  simp [keptWeights]

theorem keptWeights_nil (weights : List Nat) : keptWeights weights [] = weights :=
  List.ext_getElem? fun i => by rw [getElem?_keptWeights]; simp

theorem keptZeros_nil (weights : List Nat) : keptZeros weights [] = zeroIndices weights := by
  rw [keptZeros_eq, zeroIndices_eq]
  simp

theorem keptWeights_append (weights removed : List Nat) (k : Nat) :
    keptWeights weights (removed ++ [k]) = (keptWeights weights removed).set k 0 := by
  refine List.ext_getElem? fun i => ?_
  rw [List.getElem?_set, getElem?_keptWeights, getElem?_keptWeights, length_keptWeights]
  by_cases same : k = i
  · subst same
    rcases Nat.lt_or_ge k weights.length with inside | outside
    · simp [inside]
    · simp [Nat.not_lt.mpr outside]
  · simp [Ne.symm same, same]

theorem keptZeros_append (weights removed : List Nat) (k : Nat) :
    keptZeros weights (removed ++ [k]) = (keptZeros weights removed).erase k := by
  have nodup : (keptZeros weights removed).Nodup := by
    rw [keptZeros_eq]
    exact List.nodup_range.filter _
  rw [nodup.erase_eq_filter, keptZeros_eq, keptZeros_eq, List.filter_filter]
  refine List.filter_congr fun i _ => ?_
  by_cases same : i = k <;> simp [same]

/-! ### The simulation -/

/-- The indices of the weights that are not zero, in order. -/
def nonzeroIndices (weights : List Nat) : List Nat :=
  (List.range weights.length).filter fun i => weights.getD i 0 ≠ 0

/-- `shuffle` stands for the weights `weights`, by index, and for the zero indices `zeros`: distinct
indices of zero weight. -/
structure Represents (shuffle : WeightedShuffle) (weights zeros : List Nat) : Prop where
  holds : ∃ depth, Holds shuffle depth (fun k => weights.getD k 0) ∧ weights.length ≤ 16 ^ depth
  zeros_eq : shuffle.zeros = zeros
  nodup : zeros.Nodup
  zero : ∀ z ∈ zeros, z < weights.length ∧ weights.getD z 0 = 0

theorem Represents.weight_eq {self : WeightedShuffle} {weights zeros : List Nat} (rep : Represents self weights zeros) :
    self.weight = weights.sum := by
  obtain ⟨depth, holds, covers⟩ := rep.holds
  rw [holds.weight_eq, rangeSum_getD covers]

theorem mem_nonzeroIndices {weights : List Nat} {k : Nat} :
    k ∈ nonzeroIndices weights ↔ k < weights.length ∧ weights.getD k 0 ≠ 0 := by
  simp [nonzeroIndices]

theorem getD_set_zero (weights : List Nat) (k : Nat) :
    (fun i => (weights.set k 0).getD i 0) = Function.update (fun i => weights.getD i 0) k 0 := by
  funext i
  rw [Function.update_apply]
  split_ifs with same
  · subst same
    rw [List.getD_eq_getElem?_getD, List.getElem?_set, if_pos rfl]
    split <;> rfl
  · simp [List.getD_eq_getElem?_getD, Ne.symm same]

theorem lt_length_of_getD_ne_zero {weights : List Nat} {k : Nat} (nonzero : weights.getD k 0 ≠ 0) :
    k < weights.length := by
  by_contra outside
  rw [List.getD_eq_getElem?_getD, List.getElem?_eq_none (by omega)] at nonzero
  exact nonzero rfl

theorem set_zero_of_getD {weights : List Nat} {k : Nat} (zero : weights.getD k 0 = 0) : weights.set k 0 = weights := by
  rcases Nat.lt_or_ge k weights.length with inside | outside
  · calc weights.set k 0 = weights.set k weights[k] := by rw [← List.getD_eq_getElem _ 0 inside, zero]
      _ = weights := List.set_getElem_self inside
  · exact List.set_eq_of_length_le outside

theorem nonzeroIndices_set {weights : List Nat} {k : Nat} (nonzero : weights.getD k 0 ≠ 0) :
    nonzeroIndices (weights.set k 0) = (nonzeroIndices weights).erase k := by
  rw [nonzeroIndices, nonzeroIndices, List.length_set, (List.nodup_range.filter _).erase_eq_filter, List.filter_filter]
  refine List.filter_congr fun i _ => ?_
  rw [congrFun (getD_set_zero weights k) i, Function.update_apply]
  by_cases same : i = k
  · subst same
    simp
  · simp [same]

theorem nonzeroIndices_keptWeights (weights removed : List Nat) :
    nonzeroIndices (keptWeights weights removed) =
      (List.range weights.length).filter fun i => weights.getD i 0 ≠ 0 ∧ i ∉ removed := by
  rw [nonzeroIndices, length_keptWeights]
  refine List.filter_congr fun i mem => ?_
  rw [List.getD_eq_getElem?_getD, getElem?_keptWeights, List.getD_eq_getElem?_getD,
    List.getElem?_eq_getElem (List.mem_range.mp mem)]
  by_cases out : i ∈ removed <;> simp [out]

theorem nonzeroIndices_eq_nil {weights : List Nat} (zero : weights.sum = 0) : nonzeroIndices weights = [] := by
  refine List.filter_eq_nil_iff.mpr fun i mem => ?_
  have all := List.sum_eq_zero_iff.mp zero
  rw [List.mem_range] at mem
  simpa [List.getD_eq_getElem?_getD, List.getElem?_eq_getElem mem] using all _ (List.getElem_mem mem)

theorem Represents.length_le {self : WeightedShuffle} {weights zeros : List Nat} (rep : Represents self weights zeros) :
    (nonzeroIndices weights).length + zeros.length ≤ weights.length := by
  have nodup : (nonzeroIndices weights ++ zeros).Nodup := by
    refine (List.nodup_range.filter _).append rep.nodup (List.disjoint_left.mpr fun i nonzero zero => ?_)
    exact (mem_nonzeroIndices.mp nonzero).2 (rep.zero i zero).2
  have inside : nonzeroIndices weights ++ zeros ⊆ List.range weights.length := by
    intro i mem
    rcases List.mem_append.mp mem with nonzero | zero
    · exact List.mem_range.mpr (mem_nonzeroIndices.mp nonzero).1
    · exact List.mem_range.mpr (rep.zero i zero).1
  simpa using (List.subperm_of_subset nodup inside).length_le

theorem Represents.remove {self : WeightedShuffle} {weights zeros : List Nat} (rep : Represents self weights zeros)
    {k : Nat} (inside : k < weights.length) :
    Represents (self.remove k (weights.getD k 0)) (weights.set k 0) zeros := by
  obtain ⟨depth, holds, covers⟩ := rep.holds
  refine ⟨⟨depth, ?_, by rw [List.length_set]; exact covers⟩, rep.zeros_eq, rep.nodup, fun z mem => ?_⟩
  · rw [getD_set_zero]
    exact holds.remove (by omega)
  · rw [List.length_set, congrFun (getD_set_zero weights k) z, Function.update_apply]
    refine ⟨(rep.zero z mem).1, ?_⟩
    split_ifs
    · rfl
    · exact (rep.zero z mem).2

theorem Represents.removeIndex {self self' : WeightedShuffle} {weights zeros : List Nat}
    (rep : Represents self weights zeros) {k : Nat} (removed : self.removeIndex k = some self') :
    Represents self' (weights.set k 0) (zeros.erase k) := by
  obtain ⟨depth, holds, covers⟩ := rep.holds
  have leaf : k < 16 ^ depth := by
    by_contra beyond
    rw [removeIndex_beyond holds (Nat.le_of_not_lt beyond)] at removed
    cases removed
  rw [removeIndex_spec holds leaf, Option.some_inj] at removed
  subst removed
  by_cases nonzero : weights.getD k 0 ≠ 0
  · have absent : k ∉ zeros := fun mem => nonzero (rep.zero k mem).2
    rw [if_pos nonzero, List.erase_of_not_mem absent]
    exact rep.remove (lt_length_of_getD_ne_zero nonzero)
  · rw [if_neg nonzero, removeZero_eq, set_zero_of_getD (not_not.mp nonzero)]
    exact ⟨⟨depth, ⟨holds.treeLen_eq, holds.sums, holds.weight_eq⟩, covers⟩, by rw [← rep.zeros_eq],
      rep.nodup.erase k, fun z mem => rep.zero z (List.mem_of_mem_erase mem)⟩

theorem represents_new {weights : List Nat} (fits : weights.sum ≤ maxValue 64) :
    Represents (new weights) weights (zeroIndices weights) := by
  obtain ⟨depth, holds, covers, zeros⟩ := new_holds weights fits
  refine ⟨⟨depth, holds, covers⟩, zeros, ?_, fun z mem => ?_⟩
  · rw [zeroIndices_eq]
    exact List.nodup_range.filter _
  · rw [zeroIndices_eq, List.mem_filter, List.mem_range] at mem
    exact ⟨mem.1, of_decide_eq_true mem.2⟩

theorem Represents.foldlM_removeIndex {weights : List Nat} :
    ∀ {removed pre : List Nat} {self self' : WeightedShuffle},
      Represents self (keptWeights weights pre) (keptZeros weights pre) →
      removed.foldlM (fun self k => self.removeIndex k) self = some self' →
      Represents self' (keptWeights weights (pre ++ removed)) (keptZeros weights (pre ++ removed))
  | [], pre, self, self', rep, fold => by
    obtain rfl : self = self' := Option.some.inj fold
    rw [List.append_nil]
    exact rep
  | k :: removed, pre, self, self', rep, fold => by
    rw [List.foldlM_cons] at fold
    obtain ⟨next, step, rest⟩ := Option.bind_eq_some_iff.mp fold
    have rep' := rep.removeIndex step
    rw [← keptWeights_append, ← keptZeros_append] at rep'
    have done := Represents.foldlM_removeIndex rep' rest
    rwa [List.append_assoc, List.singleton_append] at done

theorem Represents.foldlM_removeIndex_isSome {weights : List Nat} :
    ∀ {removed pre : List Nat} {self : WeightedShuffle},
      Represents self (keptWeights weights pre) (keptZeros weights pre) → (∀ k ∈ removed, k < weights.length) →
      ∃ self', removed.foldlM (fun self k => self.removeIndex k) self = some self'
  | [], _, self, _, _ => ⟨self, rfl⟩
  | k :: removed, pre, self, rep, inRange => by
    obtain ⟨depth, holds, covers⟩ := rep.holds
    have inside : k < (keptWeights weights pre).length := by
      rw [length_keptWeights]
      exact inRange k List.mem_cons_self
    have step := removeIndex_spec holds (k := k) (by omega)
    have rep' := rep.removeIndex step
    rw [← keptWeights_append, ← keptZeros_append] at rep'
    obtain ⟨self', rest⟩ := Represents.foldlM_removeIndex_isSome rep'
      fun j mem => inRange j (List.mem_cons_of_mem _ mem)
    exact ⟨self', by rw [List.foldlM_cons, step]; exact rest⟩

/-! ### One pass of the iterator -/

section Pass

variable {σ : Type} (sampler : Sampler σ)

theorem shuffle_succ (self : WeightedShuffle) (rng : σ) (fuel : Nat) :
    self.shuffle sampler rng (fuel + 1) =
      match self.next sampler rng with
      | none => []
      | some (index, self, rng) => index :: self.shuffle sampler rng fuel := rfl

theorem next_of_weight (self : WeightedShuffle) (rng : σ) (positive : 0 < self.weight) :
    self.next sampler rng =
      let sample := sampler.sampleSingle rng 0 self.weight
      some ((self.search sample.1).1, self.remove (self.search sample.1).1 (self.search sample.1).2, sample.2) := by
  rw [next, if_pos positive]

theorem next_of_zero (self : WeightedShuffle) (rng : σ) (zero : self.weight = 0) :
    self.next sampler rng =
      if self.zeros = [] then none
      else
        let sample := sampler.sampleSingle rng 0 self.zeros.length
        some ((swapRemove self.zeros sample.1).1, { self with zeros := (swapRemove self.zeros sample.1).2 }, sample.2) := by
  rw [next, if_neg (by omega)]

theorem first_eq_head (self : WeightedShuffle) (rng : σ) (fuel : Nat) :
    (self.first sampler rng).1 = (self.shuffle sampler rng (fuel + 1)).head? := by
  rw [shuffle_succ]
  by_cases positive : 0 < self.weight
  · rw [next_of_weight sampler self rng positive, first, if_pos positive]
    rfl
  · rw [next_of_zero sampler self rng (by omega), first, if_neg positive]
    split_ifs with empty
    · rfl
    · have below := (sampler.sample_mem rng 0 self.zeros.length (List.length_pos_iff.mpr empty)).2
      simp only [swapRemove, List.head?_cons]
      rw [List.getD_eq_getElem?_getD, List.getElem?_eq_getElem below]
      rfl

theorem slowWeightedLoop_of_zero (fuel : Nat) (rng : σ) (weights : List Nat) :
    slowWeightedLoop sampler (fuel + 1) rng weights 0 = some ([], rng) := by
  rw [slowWeightedLoop, if_pos rfl]

theorem slowWeightedLoop_succ (fuel : Nat) (rng : σ) (weights : List Nat) {high sample index : Nat} {rng' : σ}
    (positive : high ≠ 0) (drawn : sampler.sampleSingle rng 0 high = (sample, rng'))
    (found : (scanSums 0 weights).findIdx? (sample < ·) = some index) :
    slowWeightedLoop sampler (fuel + 1) rng weights high =
      (slowWeightedLoop sampler fuel rng' (weights.set index 0) (high - weights.getD index 0)).map
        fun result => (index :: result.1, result.2) := by
  simp only [slowWeightedLoop, if_neg positive, drawn, found]

theorem slowZerosLoop_succ (fuel : Nat) (rng : σ) (zeros : List Nat) :
    slowZerosLoop sampler (fuel + 1) rng zeros =
      if zeros = [] then some ([], rng)
      else
        let sample := sampler.sampleSingle rng 0 zeros.length
        (slowZerosLoop sampler fuel sample.2 (swapRemove zeros sample.1).2).map
          fun (rest, rng) => ((swapRemove zeros sample.1).1 :: rest, rng) := by
  rw [slowZerosLoop]

end Pass

/-! ### Whole runs -/

section Runs

variable {σ : Type} (sampler : Sampler σ)

theorem shuffle_zeros : ∀ (fuel : Nat) (self : WeightedShuffle) (rng : σ) (iterFuel : Nat),
    self.weight = 0 → self.zeros.length < fuel → self.zeros.length < iterFuel →
    ∃ rng', slowZerosLoop sampler fuel rng self.zeros = some (self.shuffle sampler rng iterFuel, rng') ∧
      (self.shuffle sampler rng iterFuel).Perm self.zeros
  | 0, _, _, _, _, enough, _ => absurd enough (Nat.not_lt_zero _)
  | fuel + 1, self, rng, iterFuel, zero, enough, iterEnough => by
    obtain ⟨iterFuel, rfl⟩ : ∃ f, iterFuel = f + 1 := ⟨iterFuel - 1, by omega⟩
    rw [shuffle_succ, next_of_zero sampler self rng zero, slowZerosLoop_succ]
    by_cases empty : self.zeros = []
    · rw [if_pos empty, if_pos empty, empty]
      exact ⟨rng, rfl, List.Perm.refl _⟩
    · rw [if_neg empty, if_neg empty]
      dsimp only
      have below := (sampler.sample_mem rng 0 self.zeros.length (List.length_pos_iff.mpr empty)).2
      obtain ⟨taken, shorter⟩ := swapRemove_perm below
      obtain ⟨rng', loop, perm⟩ := shuffle_zeros fuel
        { self with zeros := (swapRemove self.zeros (sampler.sampleSingle rng 0 self.zeros.length).1).2 } _ iterFuel
        zero (by dsimp only; omega) (by dsimp only; omega)
      refine ⟨rng', ?_, (perm.cons _).trans taken⟩
      rw [loop, Option.map_some]

/-- While weight is left, each index the iterator yields is the one the first loop of the reference
draws with the same answer of the source: together they yield an order of the indices of weight,
and leave a shuffle with no weight and the same zeros. -/
theorem shuffle_weighted : ∀ (fuel : Nat) (self : WeightedShuffle) (weights zeros : List Nat) (rng : σ)
    (iterFuel : Nat), Represents self weights zeros → (nonzeroIndices weights).length < fuel →
    (nonzeroIndices weights).length ≤ iterFuel →
    ∃ (positive : List Nat) (rng' : σ) (rest : WeightedShuffle),
      slowWeightedLoop sampler fuel rng weights weights.sum = some (positive, rng') ∧
      positive.Perm (nonzeroIndices weights) ∧ rest.weight = 0 ∧ rest.zeros = zeros ∧
      self.shuffle sampler rng iterFuel = positive ++ rest.shuffle sampler rng' (iterFuel - positive.length)
  | 0, _, _, _, _, _, _, enough, _ => absurd enough (Nat.not_lt_zero _)
  | fuel + 1, self, weights, zeros, rng, iterFuel, rep, enough, iterEnough => by
    by_cases zero : weights.sum = 0
    · rw [zero, slowWeightedLoop_of_zero]
      exact ⟨[], rng, self, rfl, by rw [nonzeroIndices_eq_nil zero], by rw [rep.weight_eq, zero], rep.zeros_eq,
        by rw [List.nil_append, List.length_nil, Nat.sub_zero]⟩
    · rcases drawn : sampler.sampleSingle rng 0 weights.sum with ⟨sample, rng₁⟩
      obtain ⟨depth, holds, covers⟩ := rep.holds
      have positive : 0 < self.weight := by rw [rep.weight_eq]; omega
      have below : sample < self.weight := by
        have answer := (sampler.sample_mem rng 0 _ (Nat.pos_of_ne_zero zero)).2
        rwa [drawn, ← rep.weight_eq] at answer
      obtain ⟨k, leaf, found, low, high⟩ := search_spec holds below
      have nonzero : weights.getD k 0 ≠ 0 := by
        intro none
        simp only [none] at high
        omega
      have inside := lt_length_of_getD_ne_zero nonzero
      have listed : k ∈ nonzeroIndices weights := mem_nonzeroIndices.mpr ⟨inside, nonzero⟩
      rw [slowWeightedLoop_succ sampler fuel rng weights zero drawn
        (findIdx_scanSums weights 0 k inside (by rw [Nat.zero_add]; exact low) (by rw [Nat.zero_add]; exact high))]
      have fewer : (nonzeroIndices (weights.set k 0)).length + 1 = (nonzeroIndices weights).length := by
        rw [nonzeroIndices_set nonzero, List.length_erase_of_mem listed]
        have := List.length_pos_of_mem listed
        omega
      have highAfter : weights.sum - weights.getD k 0 = (weights.set k 0).sum := by
        have := sum_set_zero weights k
        omega
      obtain ⟨iterFuel, rfl⟩ : ∃ f, iterFuel = f + 1 := ⟨iterFuel - 1, by omega⟩
      obtain ⟨positive', rng', rest, loop, perm, restWeight, restZeros, shuffled⟩ :=
        shuffle_weighted fuel _ _ zeros _ iterFuel (rep.remove inside) (by omega) (by omega)
      refine ⟨k :: positive', rng', rest, ?_, ?_, restWeight, restZeros, ?_⟩
      · rw [highAfter, loop, Option.map_some]
      · rw [nonzeroIndices_set nonzero] at perm
        exact (perm.cons k).trans (List.perm_cons_erase listed).symm
      · rw [shuffle_succ, next_of_weight sampler self rng positive, rep.weight_eq, drawn]
        dsimp only
        rw [found]
        dsimp only
        rw [shuffled, List.length_cons, Nat.add_sub_add_right, List.cons_append]

theorem Represents.shuffle_eq {self : WeightedShuffle} {weights zeros : List Nat}
    (rep : Represents self weights zeros) (rng : σ) {fuel : Nat} (enough : weights.length < fuel) :
    slowLoops sampler rng weights zeros = some (self.shuffle sampler rng fuel) ∧
      (self.first sampler rng).1 = (self.shuffle sampler rng fuel).head? ∧
      ∃ positive zero, self.shuffle sampler rng fuel = positive ++ zero ∧
        positive.Perm (nonzeroIndices weights) ∧ zero.Perm zeros := by
  have counts := rep.length_le
  obtain ⟨positive, rng', rest, loop, perm, restWeight, restZeros, shuffled⟩ :=
    shuffle_weighted sampler (weights.length + 1) self weights zeros rng fuel rep (by omega) (by omega)
  have drawn := perm.length_eq
  obtain ⟨rng'', zerosLoop, zerosPerm⟩ :=
    shuffle_zeros sampler (zeros.length + 1) rest rng' (fuel - positive.length) restWeight
      (by rw [restZeros]; omega) (by rw [restZeros]; omega)
  rw [restZeros] at zerosLoop zerosPerm
  obtain ⟨fuel, rfl⟩ : ∃ f, fuel = f + 1 := ⟨fuel - 1, by omega⟩
  refine ⟨?_, first_eq_head sampler self rng fuel, positive, _, shuffled, perm, zerosPerm⟩
  rw [slowLoops, loop]
  dsimp only
  rw [zerosLoop, Option.map_some, shuffled]

theorem shuffle_eq_weightedShuffleSlow (rng : σ) (weights : List Nat) (fits : weights.sum ≤ maxValue 64) :
    (∀ fuel, weights.length < fuel →
      weightedShuffleSlow sampler rng weights = some ((new weights).shuffle sampler rng fuel) ∧
        ((new weights).first sampler rng).1 = ((new weights).shuffle sampler rng fuel).head?) ∧
    (∀ removed : List Nat, (∀ k ∈ removed, k < weights.length) →
      ∃ self, removed.foldlM (fun self k => self.removeIndex k) (new weights) = some self) ∧
    ∀ (removed : List Nat) (self : WeightedShuffle),
      removed.foldlM (fun self k => self.removeIndex k) (new weights) = some self →
      ∀ fuel, weights.length < fuel →
        weightedShuffleSlowExcluding sampler rng weights removed = some (self.shuffle sampler rng fuel) ∧
        (self.first sampler rng).1 = (self.shuffle sampler rng fuel).head? ∧
        ∃ positive zero, self.shuffle sampler rng fuel = positive ++ zero ∧
          positive.Perm ((List.range weights.length).filter fun i => weights.getD i 0 ≠ 0 ∧ i ∉ removed) ∧
          zero.Perm ((List.range weights.length).filter fun i => weights.getD i 0 = 0 ∧ i ∉ removed) := by
  have start : Represents (new weights) (keptWeights weights []) (keptZeros weights []) := by
    rw [keptWeights_nil, keptZeros_nil]
    exact represents_new fits
  refine ⟨fun fuel enough => ?_, fun removed inRange => start.foldlM_removeIndex_isSome inRange,
    fun removed self fold fuel enough => ?_⟩
  · obtain ⟨loops, first, -⟩ := (represents_new fits).shuffle_eq sampler rng enough
    exact ⟨loops, first⟩
  · have rep := start.foldlM_removeIndex fold
    rw [List.nil_append] at rep
    obtain ⟨loops, first, positive, zero, shuffled, perm, zerosPerm⟩ :=
      rep.shuffle_eq sampler rng (by rw [length_keptWeights]; exact enough)
    rw [nonzeroIndices_keptWeights] at perm
    rw [keptZeros_eq] at zerosPerm
    exact ⟨loops, first, positive, zero, shuffled, perm, zerosPerm⟩

/-- A source that answers its `s`-th request with `low + s % (high - low)`. -/
def countingSampler : Sampler Nat where
  sampleSingle s low high := (low + s % (high - low), s + 1)
  sample_mem s low high lt := ⟨Nat.le_add_right _ _, by
    have := Nat.mod_lt s (Nat.sub_pos_of_lt lt)
    omega⟩

theorem shuffle_eq_weightedShuffleSlow_counting :
    [3, 0, 5].sum ≤ maxValue 64 ∧
      weightedShuffleSlow countingSampler 0 [3, 0, 5] = some ((new [3, 0, 5]).shuffle countingSampler 0 4) ∧
      ∃ self, [0].foldlM (fun self k => self.removeIndex k) (new [3, 0, 5]) = some self ∧
        weightedShuffleSlowExcluding countingSampler 0 [3, 0, 5] [0] = some (self.shuffle countingSampler 0 4) := by
  have fits : [3, 0, 5].sum ≤ maxValue 64 := by decide
  have main := shuffle_eq_weightedShuffleSlow countingSampler 0 [3, 0, 5] fits
  obtain ⟨self, fold⟩ := main.2.1 [0] (by decide)
  exact ⟨fits, (main.1 4 (by decide)).1, self, fold, (main.2.2 [0] self fold 4 (by decide)).1⟩

end Runs

end Gossip
