import Mathlib
import Agave.Library.MachineInt
import Agave.Library.ImplicitTree

/-! `WeightedShuffle`: indices drawn one by one, each with probability proportional to its weight
among those not drawn yet, then the zero-weight indices in uniform order. The weights sit on the
leaves of a complete tree of fanout 16 stored as an array (`ImplicitTree`); each internal node keeps
the sums of its first 15 subtrees, the sum of the last one being what is left of its own. Weights
are `u64`, so none is negative. The random source is a `Sampler`, whose every answer lies in the
range asked for, as `sample_single` promises. -/

namespace Gossip

open MachineInt ImplicitTree

def bitShift : Nat := 4

def fanout : Nat := 1 <<< bitShift

def bitMask : Nat := fanout - 1

theorem fanout_eq : fanout = 16 := rfl

theorem shiftRight_bitShift (index : Nat) : index >>> bitShift = index / 16 :=
  Nat.shiftRight_eq_div_pow index 4

theorem shiftLeft_bitShift (index : Nat) : index <<< bitShift = 16 * index := by
  rw [bitShift, Nat.shiftLeft_eq, Nat.mul_comm]

theorem and_bitMask (index : Nat) : index &&& bitMask = index % 16 :=
  Nat.and_two_pow_sub_one_eq_mod index 4

/-- A random source as `sample_single` uses it: each request for a value in `[low, high)` is
answered by one, and the source moves on. -/
structure Sampler (σ : Type) where
  sampleSingle : σ → Nat → Nat → Nat × σ
  sample_mem : ∀ rng low high, low < high →
    low ≤ (sampleSingle rng low high).1 ∧ (sampleSingle rng low high).1 < high

/-- `get_tree_size`: the number of internal nodes of a tree whose leaves hold `count` items. -/
def getTreeSize (count : Nat) : Nat :=
  loop count (if count = 1 then 1 else 0) 1
where
  /-- `while nodes < count`; `nodes` is multiplied by the fanout on each pass, so that the loop
  stops well within `count` passes. -/
  loop : Nat → Nat → Nat → Nat
    | 0, size, _ => size
    | fuel + 1, size, nodes => if nodes < count then loop fuel (size + nodes) (nodes * fanout) else size

/-- `Vec::swap_remove`: the item at `index`, and the vector with its last item moved into that
place. Callers only pass an index below the length. -/
def swapRemove (items : List Nat) (index : Nat) : Nat × List Nat :=
  (items.getD index 0, (items.set index (items.getLastD 0)).dropLast)

structure WeightedShuffle where
  /-- `tree[i][j]`: the sum of the weights in the `j`-th subtree of node `i`. -/
  tree : Nat → Nat → Nat
  treeLen : Nat
  /-- The sum of the weights not yet drawn. -/
  weight : Nat
  /-- The indices of zero weight, in order. -/
  zeros : List Nat

namespace WeightedShuffle

/-- `tree[index][slot]` changed by `f`. -/
def modifyTree (tree : Nat → Nat → Nat) (index slot : Nat) (f : Nat → Nat) : Nat → Nat → Nat :=
  fun index' slot' => if index' = index ∧ slot' = slot then f (tree index' slot') else tree index' slot'

/-- The walk from a leaf to the root that `new` and `remove` share: at each step up, the sum the
parent keeps of the subtree just left is changed by `f`, unless that subtree is the right-most one,
whose sum the parent does not keep. -/
def updatePath (f : Nat → Nat) (tree : Nat → Nat → Nat) (index : Nat) : Nat → Nat → Nat :=
  if index = 0 then tree
  else
    let offset := index &&& bitMask
    let parent := (index - 1) >>> bitShift
    updatePath f (if offset > 0 then modifyTree tree parent (offset - 1) f else tree) parent
termination_by index
decreasing_by
  rw [shiftRight_bitShift]
  omega

/-- One pass of `new`'s loop over the enumerated weights. -/
def newStep (self : WeightedShuffle) (entry : Nat × Nat) : WeightedShuffle :=
  let (weight, k) := entry
  if weight = 0 then { self with zeros := self.zeros ++ [k] }
  else
    match checkedAdd 64 self.weight weight with
    -- a weight that would take the sum past `u64::MAX` counts as zero
    | none => { self with zeros := self.zeros ++ [k] }
    | some sum => { self with weight := sum, tree := updatePath (· + weight) self.tree (self.treeLen + k) }

/-- `WeightedShuffle::new`. -/
def new (weights : List Nat) : WeightedShuffle :=
  weights.zipIdx.foldl newStep ⟨fun _ _ => 0, getTreeSize weights.length, 0, []⟩

/-- `remove`: takes `weight` off the total and off the sums on the path of leaf `k`. -/
def remove (self : WeightedShuffle) (k weight : Nat) : WeightedShuffle :=
  { self with weight := self.weight - weight, tree := updatePath (· - weight) self.tree (self.treeLen + k) }

/-- How the scan of a node's sums ends: in the subtree `j` it names, with the sample and that
subtree's weight, or past them all, in the right-most subtree. -/
inductive Scan
  | descend (j val weight : Nat)
  | rightmost (val weight : Nat)

/-- The inner loop of `search` over the sums a node keeps: the first subtree whose sum exceeds
`val`, each sum passed being taken off `val` and off the node's weight. -/
def scanNode (node : Nat → Nat) : List Nat → Nat → Nat → Scan
  | [], val, weight => .rightmost val weight
  | j :: js, val, weight =>
    if val < node j then .descend j val (node j) else scanNode node js (val - node j) (weight - node j)

/-- The outer loop of `search`: down from `index` while it is an internal node. -/
def searchLoop (self : WeightedShuffle) (index val weight : Nat) : Nat × Nat :=
  if index < self.treeLen then
    match scanNode (self.tree index) (List.range (fanout - 1)) val weight with
    | .descend j val weight => searchLoop self ((index <<< bitShift) + j + 1) val weight
    | .rightmost val weight => searchLoop self ((index <<< bitShift) + fanout) val weight
  else (index - self.treeLen, weight)
termination_by self.treeLen - index
decreasing_by
  all_goals
    rw [shiftLeft_bitShift]
    try rw [fanout_eq]
    omega

/-- `search`: the smallest index whose prefix sum of weights exceeds `val`, with its weight. -/
def search (self : WeightedShuffle) (val : Nat) : Nat × Nat :=
  searchLoop self 0 val self.weight

/-- `remove_zero`: drops `k` from the zero-weight indices. -/
def removeZero (self : WeightedShuffle) (k : Nat) : WeightedShuffle :=
  match self.zeros.findIdx? (· = k) with
  | some index => { self with zeros := self.zeros.eraseIdx index }
  | none => self

/-- The walk of `remove_index` up from the leaf of `k`, with `weight` the sum of the subtrees passed
that do not hold the leaf; `none` where it reads a node past the end of the tree. -/
def removeIndexLoop (self : WeightedShuffle) (k index weight : Nat) : Option WeightedShuffle :=
  if index = 0 then
    -- the leaf is the right-most one of the whole tree
    some (if self.weight ≠ weight then self.remove k (self.weight - weight) else self.removeZero k)
  else
    let offset := index &&& bitMask
    let parent := (index - 1) >>> bitShift
    if self.treeLen ≤ parent then none
    else if offset > 0 then
      some (if self.tree parent (offset - 1) ≠ weight then self.remove k (self.tree parent (offset - 1) - weight)
        else self.removeZero k)
    else
      -- the leaf is in the right-most subtree of `parent`: its other subtrees do not hold it
      removeIndexLoop self k parent ((List.range (fanout - 1)).foldl (fun weight j => weight + self.tree parent j) weight)
termination_by index
decreasing_by
  rw [shiftRight_bitShift]
  omega

/-- `remove_index`: takes index `k` out of the shuffle, by its weight or from the zeros. -/
def removeIndex (self : WeightedShuffle) (k : Nat) : Option WeightedShuffle :=
  removeIndexLoop self k (self.treeLen + k) 0

variable {σ : Type} (sampler : Sampler σ)

/-- `first`: the index the shuffle would yield first, without drawing it. -/
def first (self : WeightedShuffle) (rng : σ) : Option Nat × σ :=
  if self.weight > 0 then
    let (sample, rng) := sampler.sampleSingle rng 0 self.weight
    (some (self.search sample).1, rng)
  else if self.zeros = [] then (none, rng)
  else
    let (index, rng) := sampler.sampleSingle rng 0 self.zeros.length
    (self.zeros[index]?, rng)

/-- The body of the iterator `shuffle` returns: the next index, drawn by weight while any weight is
left and then among the zeros, with the shuffle and the source after it. -/
def next (self : WeightedShuffle) (rng : σ) : Option (Nat × WeightedShuffle × σ) :=
  if self.weight > 0 then
    let (sample, rng) := sampler.sampleSingle rng 0 self.weight
    let (index, weight) := self.search sample
    some (index, self.remove index weight, rng)
  else if self.zeros = [] then none
  else
    let (index, rng) := sampler.sampleSingle rng 0 self.zeros.length
    let (item, zeros) := swapRemove self.zeros index
    some (item, { self with zeros := zeros }, rng)

/-- `shuffle(rng).take(fuel)`: the first `fuel` indices the iterator yields. -/
def shuffle (self : WeightedShuffle) (rng : σ) : Nat → List Nat
  | 0 => []
  | fuel + 1 =>
    match self.next sampler rng with
    | none => []
    | some (index, self, rng) => index :: self.shuffle rng fuel

end WeightedShuffle

/-! The reference of the tests, `weighted_shuffle_slow`. -/

section Slow

variable {σ : Type} (sampler : Sampler σ)

/-- The running sums of `weights.iter().scan(0, ..)`. -/
def scanSums : Nat → List Nat → List Nat
  | _, [] => []
  | acc, weight :: weights => (acc + weight) :: scanSums (acc + weight) weights

/-- The first loop of `weighted_shuffle_slow`, `while high != 0`: the indices it pushes and the
source after it; `none` where the `unwrap` of the search fails, or out of fuel. -/
def slowWeightedLoop : Nat → σ → List Nat → Nat → Option (List Nat × σ)
  | 0, _, _, _ => none
  | fuel + 1, rng, weights, high =>
    if high = 0 then some ([], rng)
    else
      let (sample, rng) := sampler.sampleSingle rng 0 high
      match (scanSums 0 weights).findIdx? (sample < ·) with
      | none => none
      | some index =>
        (slowWeightedLoop fuel rng (weights.set index 0) (high - weights.getD index 0)).map
          fun (rest, rng) => (index :: rest, rng)

/-- The second loop, `while !zeros.is_empty()`. -/
def slowZerosLoop : Nat → σ → List Nat → Option (List Nat × σ)
  | 0, _, _ => none
  | fuel + 1, rng, zeros =>
    if zeros = [] then some ([], rng)
    else
      let (index, rng) := sampler.sampleSingle rng 0 zeros.length
      let (item, zeros) := swapRemove zeros index
      (slowZerosLoop fuel rng zeros).map fun (rest, rng) => (item :: rest, rng)

/-- The two loops of `weighted_shuffle_slow`, on its weights and its zeros. Each pass of the first
loop zeroes a weight that was not zero, so `weights.len() + 1` passes are enough for it; the same
holds of the second loop and the zeros. -/
def slowLoops (rng : σ) (weights zeros : List Nat) : Option (List Nat) :=
  match slowWeightedLoop sampler (weights.length + 1) rng weights weights.sum with
  | none => none
  | some (shuffle, rng) => (slowZerosLoop sampler (zeros.length + 1) rng zeros).map fun (rest, _) => shuffle ++ rest

/-- `weights.iter().enumerate().filter(|(_, w)| **w == 0).map(|(i, _)| i)`. -/
def zeroIndices (weights : List Nat) : List Nat :=
  (weights.zipIdx.filter fun entry => entry.1 = 0).map (·.2)

/-- `weighted_shuffle_slow`. -/
def weightedShuffleSlow (rng : σ) (weights : List Nat) : Option (List Nat) :=
  slowLoops sampler rng weights (zeroIndices weights)

/-- The weights with those of `removed` zeroed. -/
def keptWeights (weights removed : List Nat) : List Nat :=
  weights.zipIdx.map fun entry => if entry.2 ∈ removed then 0 else entry.1

/-- The indices of zero weight that are not in `removed`. -/
def keptZeros (weights removed : List Nat) : List Nat :=
  (weights.zipIdx.filter fun entry => entry.1 = 0 ∧ entry.2 ∉ removed).map (·.2)

/-- The reference with the indices of `removed` left out, neither drawn by weight nor among the
zeros: what a shuffle is to yield after `remove_index` of each of them. -/
def weightedShuffleSlowExcluding (rng : σ) (weights removed : List Nat) : Option (List Nat) :=
  slowLoops sampler rng (keptWeights weights removed) (keptZeros weights removed)

end Slow

end Gossip
