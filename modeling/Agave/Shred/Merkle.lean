import Mathlib
import Agave.Library.List
import Agave.Library.MerkleTree

/-! The Merkle tree of an erasure batch of shreds (`ledger/src/shred/merkle.rs`). `make_merkle_tree`
keeps the tree as one vector of hashes, its levels pushed one after the other; `make_merkle_proof`
walks the levels by their offsets in that vector and keeps the first 20 bytes of each sibling, and
`get_merkle_root` folds such a proof back into a root. Over the library's tree these are its levels,
its proofs and its verifying fold, so every proof the builder cuts verifies against the last node.

Hashes are byte lists; the hash `hashv` of a list of byte slices is a parameter, since nothing here
depends on it. -/

namespace Shred

abbrev Hash := List UInt8

/-- `MerkleProofEntry`: `[u8; 20]`. -/
abbrev MerkleProofEntry := List UInt8

def sizeOfMerkleProofEntry : Nat := 20

def merkleHashPrefixNode : List UInt8 := 0x01 :: "SOLANA_MERKLE_SHREDS_NODE".toList.map (·.toNat.toUInt8)

/-- The one variant of the shred `Error` that these functions return. -/
inductive Error where
  | invalidMerkleProof
  deriving DecidableEq, Repr

/-- `make_merkle_proof`: `none` for an index outside the batch, or when `tree` does not hold the
levels of a batch of `size` leaves. -/
def makeMerkleProofFrom (tree : List Hash) (index size offset : Nat) (proof : List MerkleProofEntry) :
    Option (List MerkleProofEntry) :=
  if 1 < size then
    match tree[offset + min (index ^^^ 1) (size - 1)]? with
    | none => none
    | some node =>
      makeMerkleProofFrom tree (index >>> 1) ((size + 1) >>> 1) (offset + size)
        (proof ++ [node.take sizeOfMerkleProofEntry])
  else if offset + 1 = tree.length then some proof else none
termination_by size
decreasing_by
  simp only [Nat.shiftRight_eq_div_pow, pow_one]
  omega

def makeMerkleProof (index size : Nat) (tree : List Hash) : Option (List MerkleProofEntry) :=
  if size ≤ index then none else makeMerkleProofFrom tree index size 0 []

/-- `get_proof_size`: the bit length of the number of shreds, less one for a power of two. -/
def getProofSize (numShreds : Nat) : Nat :=
  let bits := numShreds.size
  if numShreds.isPowerOfTwo then bits - 1 else bits

theorem getProofSize_eq_clog {numShreds : Nat} (pos : 0 < numShreds) :
    getProofSize numShreds = Nat.clog 2 numShreds := by
  unfold getProofSize
  dsimp only
  split
  · next power =>
    obtain ⟨k, rfl⟩ := power
    rw [Nat.size_pow, Nat.clog_pow 2 k (by decide), Nat.add_sub_cancel]
  · next notPower =>
    have positive : 0 < numShreds.size := Nat.size_pos.2 pos
    have low : 2 ^ (numShreds.size - 1) ≤ numShreds := Nat.lt_size.1 (by omega)
    have strict : 2 ^ (numShreds.size - 1) < numShreds :=
      lt_of_le_of_ne low fun same => notPower ⟨_, same.symm⟩
    have above := (Nat.lt_clog_iff_pow_lt (by decide)).2 strict
    exact le_antisymm (by omega) (Nat.clog_le_of_le_pow (Nat.lt_size_self numShreds).le)

section Hasher

variable (hashv : List (List UInt8) → Hash)

/-- `join_nodes`: the parent hashes the first 20 bytes of each child. -/
def joinNodes (node other : List UInt8) : Hash :=
  hashv [merkleHashPrefixNode, node.take sizeOfMerkleProofEntry, other.take sizeOfMerkleProofEntry]

def getMerkleRoot (index : Nat) (node : Hash) (proof : List MerkleProofEntry) : Except Error Hash :=
  let (index, root) := proof.foldl (fun (index, node) other =>
    let parent := if index % 2 = 0 then joinNodes hashv node other else joinNodes hashv other node
    (index >>> 1, parent)) (index, node)
  if index = 0 then .ok root else .error .invalidMerkleProof

/-- One pass of the `for` loop of `make_merkle_tree`: the parents of `nodes[offset..offset + size]`,
pushed onto `nodes`. -/
def pushParents (nodes : List Hash) (offset size : Nat) : List Hash :=
  (List.range' offset ((size + 1) / 2) 2).foldl (fun nodes index =>
    nodes ++ [joinNodes hashv (nodes.getD index []) (nodes.getD (min (index + 1) (offset + size - 1)) [])])
    nodes

theorem length_pushParents (nodes : List Hash) (offset size : Nat) :
    (pushParents hashv nodes offset size).length = nodes.length + (size + 1) / 2 := by
  rw [pushParents, List.length_foldl_append_singleton, List.length_range']

/-- The `while` loop of `make_merkle_tree`: the last `size` nodes are the level to join next. -/
def makeMerkleTreeFrom (nodes : List Hash) (size : Nat) : List Hash :=
  if 1 < size then
    let offset := nodes.length - size
    let nodes' := pushParents hashv nodes offset size
    makeMerkleTreeFrom nodes' (nodes'.length - offset - size)
  else nodes
termination_by size
decreasing_by
  rw [length_pushParents]
  omega

def makeMerkleTree (nodes : List Hash) : List Hash := makeMerkleTreeFrom hashv nodes nodes.length

/-! ### The flat tree is the library's tree -/

theorem map_range'_eq_parents (pre level : List Hash) (nonempty : level ≠ []) :
    (List.range' pre.length ((level.length + 1) / 2) 2).map (fun index =>
      joinNodes hashv ((pre ++ level).getD index [])
        ((pre ++ level).getD (min (index + 1) (pre.length + level.length - 1)) [])) =
      MerkleTree.parents (joinNodes hashv) level := by
  have positive := List.length_pos_iff.2 nonempty
  apply List.ext_getElem?
  intro j
  by_cases inside : j < (level.length + 1) / 2
  · have left : level[2 * j]? = some (level.getD (2 * j) []) := by
      rw [List.getD_eq_getElem?_getD, List.getElem?_eq_getElem (by omega)]
      rfl
    have right : level[min (2 * j + 1) (level.length - 1)]? =
        some (level.getD (min (2 * j + 1) (level.length - 1)) []) := by
      rw [List.getD_eq_getElem?_getD, List.getElem?_eq_getElem (by omega)]
      rfl
    rw [MerkleTree.getElem?_parents (joinNodes hashv) left right, List.getElem?_map,
      List.getElem?_range' inside, Option.map_some, List.getD_append_right _ _ _ _ (by omega),
      List.getD_append_right _ _ _ _ (by omega),
      show pre.length + 2 * j - pre.length = 2 * j by omega,
      show min (pre.length + 2 * j + 1) (pre.length + level.length - 1) - pre.length =
        min (2 * j + 1) (level.length - 1) by omega]
  · rw [List.getElem?_eq_none (by simp; omega), List.getElem?_eq_none
      (by rw [MerkleTree.length_parents]; omega)]

theorem pushParents_eq (pre level : List Hash) (nonempty : level ≠ []) :
    pushParents hashv (pre ++ level) pre.length level.length =
      pre ++ level ++ MerkleTree.parents (joinNodes hashv) level := by
  have positive := List.length_pos_iff.2 nonempty
  unfold pushParents
  rw [List.foldl_append_of_stable (fun nodes index => joinNodes hashv (nodes.getD index [])
    (nodes.getD (min (index + 1) (pre.length + level.length - 1)) [])), map_range'_eq_parents hashv pre level nonempty]
  intro index mem extra
  have range := List.mem_range'.1 mem
  obtain ⟨k, below, rfl⟩ := range
  rw [List.getD_append (pre ++ level) extra [] _ (by simp; omega),
    List.getD_append (pre ++ level) extra [] _ (by simp; omega)]

theorem makeMerkleTreeFrom_eq (level : List Hash) :
    ∀ pre, makeMerkleTreeFrom hashv (pre ++ level) level.length = pre ++ MerkleTree.tree (joinNodes hashv) level := by
  induction level using MerkleTree.tree.induct (joinNodes hashv) with
  | case1 level small =>
    intro pre
    rw [makeMerkleTreeFrom, if_neg (by omega), MerkleTree.tree_of_le _ small]
  | case2 level large ih =>
    intro pre
    have large : 1 < level.length := Nat.lt_of_not_le large
    have nonempty : level ≠ [] := List.ne_nil_of_length_pos (by omega)
    have offset : (pre ++ level).length - level.length = pre.length := by simp
    have size : (pre ++ level ++ MerkleTree.parents (joinNodes hashv) level).length - pre.length - level.length =
        (MerkleTree.parents (joinNodes hashv) level).length := by
      simp only [List.length_append]
      omega
    rw [makeMerkleTreeFrom, if_pos large]
    dsimp only
    rw [offset, pushParents_eq hashv pre level nonempty, size, ih (pre ++ level),
      MerkleTree.tree_of_lt _ large, List.append_assoc]

theorem makeMerkleTree_eq (leaves : List Hash) :
    makeMerkleTree hashv leaves = MerkleTree.tree (joinNodes hashv) leaves := by
  rw [makeMerkleTree]
  simpa using makeMerkleTreeFrom_eq hashv leaves []

theorem makeMerkleProofFrom_eq (level : List Hash) :
    ∀ pre index proof, index < level.length →
      makeMerkleProofFrom (pre ++ MerkleTree.tree (joinNodes hashv) level) index level.length pre.length proof =
        some (proof ++ (MerkleTree.path (joinNodes hashv) level index).map (·.take sizeOfMerkleProofEntry)) := by
  induction level using MerkleTree.tree.induct (joinNodes hashv) with
  | case1 level small =>
    intro pre index proof inside
    rw [makeMerkleProofFrom, if_neg (by omega), MerkleTree.tree_of_le _ small,
      if_pos (by simp; omega), MerkleTree.path_of_le _ small]
    simp
  | case2 level large ih =>
    intro pre index proof inside
    have large : 1 < level.length := Nat.lt_of_not_le large
    have found : (pre ++ MerkleTree.tree (joinNodes hashv) level)[pre.length +
        min (index ^^^ 1) (level.length - 1)]? = some level[min (index ^^^ 1) (level.length - 1)] := by
      rw [MerkleTree.tree_of_lt _ large, List.getElem?_append_right (by omega), Nat.add_sub_cancel_left,
        List.getElem?_append_left (by omega)]
      exact List.getElem?_eq_getElem _
    have halved : index >>> 1 = index / 2 := by simp [Nat.shiftRight_eq_div_pow]
    have size : (level.length + 1) >>> 1 = (MerkleTree.parents (joinNodes hashv) level).length := by
      simp [Nat.shiftRight_eq_div_pow, MerkleTree.length_parents]
    have upper : index / 2 < (MerkleTree.parents (joinNodes hashv) level).length := by
      rw [MerkleTree.length_parents]
      omega
    rw [makeMerkleProofFrom, if_pos large, found]
    dsimp only
    have next := ih (pre ++ level) (index / 2) (proof ++ [level[min (index ^^^ 1) (level.length - 1)].take
      sizeOfMerkleProofEntry]) upper
    rw [List.append_assoc, ← MerkleTree.tree_of_lt _ large, List.length_append] at next
    rw [halved, size, next, MerkleTree.path_of_lt _ large, List.map_cons, List.append_assoc, List.singleton_append]

theorem getMerkleRoot_eq (index : Nat) (node : Hash) (proof : List MerkleProofEntry) :
    getMerkleRoot hashv index node proof =
      if (MerkleTree.climb (joinNodes hashv) index node proof).1 = 0 then
        .ok (MerkleTree.climb (joinNodes hashv) index node proof).2
      else .error .invalidMerkleProof := by
  have step : (fun (acc : Nat × Hash) (other : MerkleProofEntry) =>
      match acc with
      | (index, node) =>
        (index >>> 1, if index % 2 = 0 then joinNodes hashv node other else joinNodes hashv other node)) =
      MerkleTree.climbStep (joinNodes hashv) := by
    funext acc other
    simp [MerkleTree.climbStep, Nat.shiftRight_eq_div_pow]
  unfold getMerkleRoot MerkleTree.climb
  rw [step]

/-- Every proof `make_merkle_proof` cuts from `make_merkle_tree` has `get_proof_size` entries and
recovers the last node of the tree; past the last leaf there is no proof. -/
theorem makeMerkleProof_complete (leaves : List Hash) :
    (∀ index (inside : index < leaves.length), ∃ proof root,
      makeMerkleProof index leaves.length (makeMerkleTree hashv leaves) = some proof ∧
      proof.length = getProofSize leaves.length ∧
      (makeMerkleTree hashv leaves).getLast? = some root ∧
      getMerkleRoot hashv index leaves[index] proof = .ok root) ∧
    ∀ index, leaves.length ≤ index → makeMerkleProof index leaves.length (makeMerkleTree hashv leaves) = none := by
  refine ⟨fun index inside => ?_, fun index outside => if_pos outside⟩
  have cut := makeMerkleProofFrom_eq hashv leaves [] index [] inside
  simp only [List.nil_append, List.length_nil] at cut
  obtain ⟨root, last, climbed⟩ := MerkleTree.climb_path (joinNodes hashv) leaves index inside
  have truncated : ∀ a b : List UInt8, joinNodes hashv (a.take sizeOfMerkleProofEntry) b = joinNodes hashv a b ∧
      joinNodes hashv a (b.take sizeOfMerkleProofEntry) = joinNodes hashv a b := by
    intro a b
    simp [joinNodes, List.take_take]
  refine ⟨(MerkleTree.path (joinNodes hashv) leaves index).map (·.take sizeOfMerkleProofEntry), root, ?_, ?_, ?_, ?_⟩
  · rw [makeMerkleProof, if_neg (by omega), makeMerkleTree_eq]
    exact cut
  · rw [List.length_map, MerkleTree.length_path, getProofSize_eq_clog (by omega)]
  · rw [makeMerkleTree_eq]
    exact last
  · rw [getMerkleRoot_eq, MerkleTree.climb_map _ _ (fun a b => (truncated a b).1) (fun a b => (truncated a b).2),
      climbed]
    rfl

end Hasher

end Shred
