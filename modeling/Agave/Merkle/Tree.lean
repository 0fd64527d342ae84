import Mathlib
import Agave.Library.List
import Agave.Library.MerkleTree

/-! The `merkle-tree` crate. `MerkleTree::new` pushes the hashed leaves and then each level above
them onto one vector; `find_path` walks the levels by their offsets in that vector and pushes, for
each level above the leaves, the node it reaches there with the sibling from the level below;
`Proof::verify` folds a candidate leaf hash through the entries and checks each target. Over the
library's tree these are its levels, its proofs and its verifying fold.

Hashes are byte lists (what `Hash::as_ref` gives), and `hashv` is a parameter. A slice or an index
out of range, where the code panics, reads as `none` in `find_path`; `new` reads only inside the
vector, where `getD` never falls back to the empty hash. -/

namespace Merkle

abbrev Hash := List UInt8

def leafPrefix : List UInt8 := [0]

def intermediatePrefix : List UInt8 := [1]

/-- `ProofEntry(target, left_sibling, right_sibling)`. -/
structure ProofEntry where
  target : Hash
  leftSibling : Option Hash
  rightSibling : Option Hash
  deriving DecidableEq, Repr

/-- `ProofEntry::new`. Its assertion, that exactly one sibling is given, holds at each call of
`find_path` (`oneSibling_of_findPath`). -/
def ProofEntry.new (target : Hash) (leftSibling rightSibling : Option Hash) : ProofEntry :=
  ⟨target, leftSibling, rightSibling⟩

structure MerkleTree where
  leafCount : Nat
  nodes : List Hash

def nextLevelLen (levelLen : Nat) : Nat := if levelLen = 1 then 0 else (levelLen + 1) / 2

theorem nextLevelLen_lt {levelLen : Nat} (positive : levelLen > 0) : nextLevelLen levelLen < levelLen := by
  unfold nextLevelLen
  split <;> omega

section Hasher

variable (hashv : List (List UInt8) → Hash)

def hashLeaf (d : List UInt8) : Hash := hashv [leafPrefix, d]

def hashIntermediate (l r : Hash) : Hash := hashv [intermediatePrefix, l, r]

/-- One pass of the `while` loop of `MerkleTree::new`: the `level_len` nodes of the next level,
each joining two nodes of the previous level, or its last node with itself. -/
def pushLevel (nodes : List Hash) (levelLen prevLevelStart prevLevelLen : Nat) : List Hash :=
  (List.range levelLen).foldl (fun nodes i =>
    let prevLevelIdx := 2 * i
    let lsib := nodes.getD (prevLevelStart + prevLevelIdx) []
    let rsib :=
      if prevLevelIdx + 1 < prevLevelLen then nodes.getD (prevLevelStart + prevLevelIdx + 1) []
      else nodes.getD (prevLevelStart + prevLevelIdx) []
    nodes ++ [hashIntermediate hashv lsib rsib]) nodes

/-- The `while` loop of `MerkleTree::new`. -/
def newLoop (nodes : List Hash) (levelLen levelStart prevLevelLen prevLevelStart : Nat) : List Hash :=
  if levelLen > 0 then
    newLoop (pushLevel hashv nodes levelLen prevLevelStart prevLevelLen) (nextLevelLen levelLen)
      (levelStart + levelLen) levelLen levelStart
  else nodes
termination_by levelLen
decreasing_by exact nextLevelLen_lt (by assumption)

def new (items : List (List UInt8)) : MerkleTree :=
  { leafCount := items.length
    nodes := newLoop hashv (items.map (hashLeaf hashv)) (nextLevelLen items.length) items.length
      items.length 0 }

def getRoot (mt : MerkleTree) : Option Hash := mt.nodes.getLast?

/-- The `while` loop of `find_path`; `lsib` and `rsib` hold the sibling taken on the level below. -/
def findPathFrom (nodes : List Hash) (levelLen levelStart nodeIndex : Nat) (lsib rsib : Option Hash)
    (path : List ProofEntry) : Option (List ProofEntry) :=
  if positive : levelLen > 0 then
    if levelStart + levelLen ≤ nodes.length then
      let level := (nodes.drop levelStart).take levelLen
      if inside : nodeIndex < level.length then
        let target := level[nodeIndex]
        let path := if lsib.isSome || rsib.isSome then path ++ [ProofEntry.new target lsib rsib] else path
        if nodeIndex % 2 = 0 then
          let rsib := if next : nodeIndex + 1 < level.length then level[nodeIndex + 1] else level[nodeIndex]
          findPathFrom nodes (nextLevelLen levelLen) (levelStart + levelLen) (nodeIndex / 2) none
            (some rsib) path
        else
          findPathFrom nodes (nextLevelLen levelLen) (levelStart + levelLen) (nodeIndex / 2)
            (some level[nodeIndex - 1]) none path
      else none
    else none
  else some path
termination_by levelLen
decreasing_by all_goals exact nextLevelLen_lt positive

def findPath (mt : MerkleTree) (index : Nat) : Option (List ProofEntry) :=
  if index ≥ mt.leafCount then none
  else findPathFrom mt.nodes mt.leafCount 0 index none none []

/-- The closure of `try_fold` in `Proof::verify`: the candidate takes the place of the missing
sibling, and the hash must be the entry's target. -/
def verifyStep (candidate : Hash) (pe : ProofEntry) : Option Hash :=
  let lsib := pe.leftSibling.getD candidate
  let rsib := pe.rightSibling.getD candidate
  let hash := hashIntermediate hashv lsib rsib
  if hash = pe.target then some hash else none

def verify (proof : List ProofEntry) (candidate : Hash) : Bool :=
  (proof.foldlM (verifyStep hashv) candidate).isSome

/-! ### Proofs over the library's tree -/

/-- The entries of the proof of `node`, at `index` of its level, whose siblings up the tree are
`siblings`: for each level above, the node the climb reaches there, with the sibling on the side
the index gives. -/
def entries : Nat → Hash → List Hash → List ProofEntry
  | _, _, [] => []
  | index, node, sibling :: siblings =>
    let up := MerkleTree.climbStep (hashIntermediate hashv) (index, node) sibling
    let entry : ProofEntry :=
      if index % 2 = 0 then ⟨up.2, none, some sibling⟩ else ⟨up.2, some sibling, none⟩
    entry :: entries up.1 up.2 siblings

@[simp] theorem length_entries : ∀ (index : Nat) (node : Hash) (siblings : List Hash),
    (entries hashv index node siblings).length = siblings.length
  | _, _, [] => rfl
  | index, node, _ :: siblings => by
    rw [entries, List.length_cons, length_entries, List.length_cons]

theorem oneSibling_of_mem_entries : ∀ {index : Nat} {node : Hash} {siblings : List Hash},
    ∀ entry ∈ entries hashv index node siblings,
      (entry.leftSibling.isNone ^^ entry.rightSibling.isNone) = true
  | _, _, [] => by simp [entries]
  | index, node, sibling :: siblings => by
    intro entry mem
    rw [entries, List.mem_cons] at mem
    rcases mem with rfl | later
    · by_cases even : index % 2 = 0 <;> simp [even]
    · exact oneSibling_of_mem_entries entry later

theorem foldlM_entries : ∀ (index : Nat) (node : Hash) (siblings : List Hash),
    (entries hashv index node siblings).foldlM (verifyStep hashv) node =
      some (MerkleTree.climb (hashIntermediate hashv) index node siblings).2
  | _, _, [] => rfl
  | index, node, sibling :: siblings => by
    have step : verifyStep hashv node
        (if index % 2 = 0 then
          ⟨(MerkleTree.climbStep (hashIntermediate hashv) (index, node) sibling).2, none, some sibling⟩
        else ⟨(MerkleTree.climbStep (hashIntermediate hashv) (index, node) sibling).2, some sibling, none⟩) =
        some (MerkleTree.climbStep (hashIntermediate hashv) (index, node) sibling).2 := by
      by_cases even : index % 2 = 0 <;> simp [verifyStep, MerkleTree.climbStep, even]
    rw [entries, List.foldlM_cons, step, Option.bind_eq_bind, Option.bind_some, foldlM_entries]
    rfl

theorem verify_entries (index : Nat) (node : Hash) (siblings : List Hash) :
    verify hashv (entries hashv index node siblings) node = true := by
  rw [verify, foldlM_entries]
  rfl

theorem target_of_mem_getLast?_entries {index : Nat} {node : Hash} {siblings : List Hash} :
    ∀ entry ∈ (entries hashv index node siblings).getLast?,
      entry.target = (MerkleTree.climb (hashIntermediate hashv) index node siblings).2 := by
  induction siblings generalizing index node with
  | nil => simp [entries]
  | cons sibling siblings ih =>
    intro entry mem
    cases siblings with
    | nil =>
      by_cases even : index % 2 = 0 <;>
        simp [entries, even, MerkleTree.climb, MerkleTree.climbStep] at mem ⊢ <;> rw [← mem]
    | cons next rest =>
      have later : entries hashv (MerkleTree.climbStep (hashIntermediate hashv) (index, node) sibling).1
          (MerkleTree.climbStep (hashIntermediate hashv) (index, node) sibling).2 (next :: rest) ≠ [] := by
        simp [entries]
      rw [entries, List.getLast?_cons_of_ne_nil later] at mem
      exact ih entry mem

theorem target_of_verifyStep {candidate : Hash} {entry : ProofEntry}
    (checked : (verifyStep hashv candidate entry).isSome) :
    hashIntermediate hashv (entry.leftSibling.getD candidate) (entry.rightSibling.getD candidate) =
      entry.target := by
  unfold verifyStep at checked
  dsimp only at checked
  split at checked
  · assumption
  · simp at checked

theorem eq_of_verify_entries (injective : Function.Injective hashv) {index : Nat}
    {node sibling candidate : Hash} {siblings : List Hash}
    (verified : verify hashv (entries hashv index node (sibling :: siblings)) candidate = true) :
    candidate = node := by
  rw [verify, entries, List.foldlM_cons] at verified
  cases checked : verifyStep hashv candidate
      (if index % 2 = 0 then
        ⟨(MerkleTree.climbStep (hashIntermediate hashv) (index, node) sibling).2, none, some sibling⟩
      else ⟨(MerkleTree.climbStep (hashIntermediate hashv) (index, node) sibling).2, some sibling, none⟩) with
  | none => simp [checked] at verified
  | some _ =>
    have hashed := target_of_verifyStep hashv (show (verifyStep hashv _ _).isSome from by rw [checked]; rfl)
    by_cases even : index % 2 = 0
    · simp only [even, if_true, Option.getD_none, Option.getD_some, MerkleTree.climbStep,
        hashIntermediate] at hashed
      simpa using injective hashed
    · simp only [even, if_false, Option.getD_none, Option.getD_some, MerkleTree.climbStep,
        hashIntermediate] at hashed
      simpa using injective hashed

/-! ### `new` builds the library's tree -/

theorem map_range_eq_parents (pre level : List Hash) :
    (List.range ((level.length + 1) / 2)).map (fun i =>
      hashIntermediate hashv ((pre ++ level).getD (pre.length + 2 * i) [])
        (if 2 * i + 1 < level.length then (pre ++ level).getD (pre.length + 2 * i + 1) []
        else (pre ++ level).getD (pre.length + 2 * i) [])) =
      MerkleTree.parents (hashIntermediate hashv) level := by
  apply List.ext_getElem?
  intro j
  by_cases inside : j < (level.length + 1) / 2
  · have left : level[2 * j]? = some ((pre ++ level).getD (pre.length + 2 * j) []) := by
      rw [List.getD_append_right _ _ _ _ (by omega), Nat.add_sub_cancel_left,
        List.getD_eq_getElem _ _ (by omega), List.getElem?_eq_getElem (by omega)]
    have right : level[min (2 * j + 1) (level.length - 1)]? =
        some (if 2 * j + 1 < level.length then (pre ++ level).getD (pre.length + 2 * j + 1) []
          else (pre ++ level).getD (pre.length + 2 * j) []) := by
      split_ifs with next
      · rw [List.getD_append_right _ _ _ _ (by omega), show pre.length + 2 * j + 1 - pre.length =
          min (2 * j + 1) (level.length - 1) by omega, List.getD_eq_getElem _ _ (by omega),
          List.getElem?_eq_getElem (by omega)]
      · rw [List.getD_append_right _ _ _ _ (by omega), show pre.length + 2 * j - pre.length =
          min (2 * j + 1) (level.length - 1) by omega, List.getD_eq_getElem _ _ (by omega),
          List.getElem?_eq_getElem (by omega)]
    rw [MerkleTree.getElem?_parents (hashIntermediate hashv) left right, List.getElem?_map,
      List.getElem?_range inside, Option.map_some]
  · rw [List.getElem?_eq_none (by simp; omega),
      List.getElem?_eq_none (by rw [MerkleTree.length_parents]; omega)]

theorem pushLevel_eq (pre level : List Hash) :
    pushLevel hashv (pre ++ level) ((level.length + 1) / 2) pre.length level.length =
      pre ++ level ++ MerkleTree.parents (hashIntermediate hashv) level := by
  unfold pushLevel
  dsimp only
  rw [List.foldl_append_of_stable (fun nodes i => hashIntermediate hashv (nodes.getD (pre.length + 2 * i) [])
    (if 2 * i + 1 < level.length then nodes.getD (pre.length + 2 * i + 1) []
      else nodes.getD (pre.length + 2 * i) [])), map_range_eq_parents hashv pre level]
  intro i mem extra
  have below := List.mem_range.1 mem
  rw [List.getD_append (pre ++ level) extra [] _ (by simp; omega)]
  split_ifs with next
  · rw [List.getD_append (pre ++ level) extra [] _ (by simp; omega)]
  · rfl

theorem newLoop_eq (level : List Hash) :
    ∀ pre, newLoop hashv (pre ++ level) (nextLevelLen level.length) (pre.length + level.length)
      level.length pre.length = pre ++ MerkleTree.tree (hashIntermediate hashv) level := by
  induction level using MerkleTree.tree.induct (hashIntermediate hashv) with
  | case1 level small =>
    intro pre
    have stop : nextLevelLen level.length = 0 := by
      unfold nextLevelLen
      split <;> omega
    rw [newLoop, if_neg (by omega), MerkleTree.tree_of_le _ small]
  | case2 level large ih =>
    intro pre
    have large : 1 < level.length := Nat.lt_of_not_le large
    have next : nextLevelLen level.length = (level.length + 1) / 2 := by
      unfold nextLevelLen
      rw [if_neg (by omega)]
    have above := ih (pre ++ level)
    rw [List.length_append, MerkleTree.length_parents] at above
    rw [newLoop, if_pos (by omega), next, pushLevel_eq, above, MerkleTree.tree_of_lt _ large,
      List.append_assoc]

theorem nodes_new (items : List (List UInt8)) :
    (new hashv items).nodes = MerkleTree.tree (hashIntermediate hashv) (items.map (hashLeaf hashv)) := by
  have built := newLoop_eq hashv (items.map (hashLeaf hashv)) []
  simp only [List.nil_append, List.length_map, List.length_nil, Nat.zero_add] at built
  exact built

theorem getRoot_new (items : List (List UInt8)) :
    getRoot (new hashv items) = MerkleTree.root (hashIntermediate hashv) (items.map (hashLeaf hashv)) := by
  rw [getRoot, nodes_new, MerkleTree.getLast?_tree]

/-! ### `find_path` cuts the library's proof -/

theorem slice_tree (pre level : List Hash) :
    ((pre ++ MerkleTree.tree (hashIntermediate hashv) level).drop pre.length).take level.length = level := by
  obtain ⟨above, built⟩ := MerkleTree.prefix_tree (hashIntermediate hashv) level
  rw [← built, List.drop_left, List.take_left]

theorem fits_tree (pre level : List Hash) :
    pre.length + level.length ≤ (pre ++ MerkleTree.tree (hashIntermediate hashv) level).length := by
  have := (MerkleTree.prefix_tree (hashIntermediate hashv) level).length_le
  rw [List.length_append]
  omega

/-- One pass of the loop of `find_path` at a level it finds in the vector: the entry carried from the
level below is pushed with the node as its target, and the node's sibling is carried up, on its
side. -/
theorem findPathFrom_step {nodes level : List Hash} {levelLen levelStart nodeIndex : Nat}
    (slice : (nodes.drop levelStart).take levelLen = level) (fits : levelStart + levelLen ≤ nodes.length)
    (positive : 0 < levelLen) (inside : nodeIndex < level.length) (lsib rsib : Option Hash)
    (path : List ProofEntry) :
    findPathFrom nodes levelLen levelStart nodeIndex lsib rsib path =
      findPathFrom nodes (nextLevelLen levelLen) (levelStart + levelLen) (nodeIndex / 2)
        (if nodeIndex % 2 = 0 then none else some level[min (nodeIndex ^^^ 1) (level.length - 1)])
        (if nodeIndex % 2 = 0 then some level[min (nodeIndex ^^^ 1) (level.length - 1)] else none)
        (if lsib.isSome || rsib.isSome then path ++ [ProofEntry.new level[nodeIndex] lsib rsib]
          else path) := by
  subst slice
  rw [findPathFrom, dif_pos positive, if_pos fits, dif_pos inside]
  dsimp only
  by_cases even : nodeIndex % 2 = 0
  · rw [if_pos even, if_pos even, if_pos even, MerkleTree.getElem_sibling_of_even even inside]
  · rw [if_neg even, if_neg even, if_neg even,
      MerkleTree.getElem_sibling_of_odd (by omega) inside]

theorem findPathFrom_eq (level : List Hash) :
    ∀ pre nodeIndex (inside : nodeIndex < level.length) lsib rsib path,
      findPathFrom (pre ++ MerkleTree.tree (hashIntermediate hashv) level) level.length pre.length
          nodeIndex lsib rsib path =
        some ((if lsib.isSome || rsib.isSome then path ++ [ProofEntry.new level[nodeIndex] lsib rsib]
          else path) ++
          entries hashv nodeIndex level[nodeIndex] (MerkleTree.path (hashIntermediate hashv) level nodeIndex)) := by
  induction level using MerkleTree.tree.induct (hashIntermediate hashv) with
  | case1 level small =>
    intro pre nodeIndex inside lsib rsib path
    have stop : nextLevelLen level.length = 0 := by
      unfold nextLevelLen
      split <;> omega
    rw [findPathFrom_step (slice_tree hashv pre level) (fits_tree hashv pre level) (by omega) inside,
      stop, findPathFrom, dif_neg (by omega), MerkleTree.path_of_le _ small, entries, List.append_nil]
  | case2 level large ih =>
    intro pre nodeIndex inside lsib rsib path
    have large : 1 < level.length := Nat.lt_of_not_le large
    have next : nextLevelLen level.length = (MerkleTree.parents (hashIntermediate hashv) level).length := by
      rw [MerkleTree.length_parents]
      unfold nextLevelLen
      rw [if_neg (by omega)]
    have nodes : pre ++ MerkleTree.tree (hashIntermediate hashv) level =
        pre ++ level ++ MerkleTree.tree (hashIntermediate hashv) (MerkleTree.parents (hashIntermediate hashv) level) := by
      rw [MerkleTree.tree_of_lt _ large, List.append_assoc]
    obtain ⟨upper, climbed⟩ := List.getElem?_eq_some_iff.1
      (MerkleTree.getElem?_parents_half (hashIntermediate hashv) large inside)
    have above := ih (pre ++ level) (nodeIndex / 2) upper
      (if nodeIndex % 2 = 0 then none else some level[min (nodeIndex ^^^ 1) (level.length - 1)])
      (if nodeIndex % 2 = 0 then some level[min (nodeIndex ^^^ 1) (level.length - 1)] else none)
      (if lsib.isSome || rsib.isSome then path ++ [ProofEntry.new level[nodeIndex] lsib rsib] else path)
    rw [List.length_append] at above
    rw [findPathFrom_step (slice_tree hashv pre level) (fits_tree hashv pre level) (by omega) inside,
      next, nodes, above, MerkleTree.path_of_lt _ large, entries]
    by_cases even : nodeIndex % 2 = 0
    · simp [even, ProofEntry.new, climbed, MerkleTree.climbStep]
    · simp [even, ProofEntry.new, climbed, MerkleTree.climbStep]

theorem findPath_new (items : List (List UInt8)) (index : Nat) :
    findPath (new hashv items) index =
      if inside : index < items.length then
        some (entries hashv index (hashLeaf hashv items[index])
          (MerkleTree.path (hashIntermediate hashv) (items.map (hashLeaf hashv)) index))
      else none := by
  unfold findPath
  by_cases inside : index < items.length
  · have cut := findPathFrom_eq hashv (items.map (hashLeaf hashv)) [] index (by simpa using inside)
      none none []
    simp only [List.nil_append, List.length_map, List.length_nil, Option.isSome_none, Bool.or_false,
      Bool.false_eq_true, if_false, List.getElem_map] at cut
    rw [if_neg (by simp only [new]; omega), dif_pos inside, nodes_new]
    exact cut
  · rw [if_pos (by simp only [new]; omega), dif_neg inside]

theorem oneSibling_of_findPath {items : List (List UInt8)} {index : Nat} {proof : List ProofEntry}
    (found : findPath (new hashv items) index = some proof) :
    ∀ entry ∈ proof, (entry.leftSibling.isNone ^^ entry.rightSibling.isNone) = true := by
  rw [findPath_new] at found
  split at found
  · cases found
    exact oneSibling_of_mem_entries hashv
  · cases found

theorem single_leaf_accepts_any (item : List UInt8) :
    findPath (new hashv [item]) 0 = some [] ∧ hashLeaf hashv item ++ [0] ≠ hashLeaf hashv item ∧
      verify hashv [] (hashLeaf hashv item ++ [0]) = true := by
  refine ⟨?_, by simp, rfl⟩
  rw [findPath_new, dif_pos (by simp), MerkleTree.path_of_le _ (by simp), entries]

theorem merkleTree_proofs (items : List (List UInt8)) :
    (∀ i (inside : i < items.length), ∃ proof, findPath (new hashv items) i = some proof ∧
      proof.length = Nat.clog 2 items.length ∧
      (∀ entry ∈ proof.getLast?, some entry.target = getRoot (new hashv items)) ∧
      verify hashv proof (hashLeaf hashv items[i]) = true ∧
      (Function.Injective hashv → 2 ≤ items.length →
        ∀ candidate, verify hashv proof candidate = true → candidate = hashLeaf hashv items[i])) ∧
    (∀ i, items.length ≤ i → findPath (new hashv items) i = none) ∧
    getRoot (new hashv items) = MerkleTree.root (hashIntermediate hashv) (items.map (hashLeaf hashv)) := by
  refine ⟨fun i inside => ?_, fun i outside => ?_, getRoot_new hashv items⟩
  · have inLeaves : i < (items.map (hashLeaf hashv)).length := by simpa using inside
    obtain ⟨root, last, climbed⟩ :=
      MerkleTree.climb_path (hashIntermediate hashv) (items.map (hashLeaf hashv)) i inLeaves
    rw [List.getElem_map] at climbed
    refine ⟨entries hashv i (hashLeaf hashv items[i])
      (MerkleTree.path (hashIntermediate hashv) (items.map (hashLeaf hashv)) i), ?_, ?_, ?_, ?_, ?_⟩
    · rw [findPath_new, dif_pos inside]
    · rw [length_entries, MerkleTree.length_path, List.length_map]
    · intro entry mem
      rw [target_of_mem_getLast?_entries hashv entry mem, climbed, getRoot, nodes_new, last]
    · exact verify_entries hashv _ _ _
    · intro injective several candidate verified
      rw [MerkleTree.path_of_lt _ (by rw [List.length_map]; omega)] at verified
      exact eq_of_verify_entries hashv injective verified
  · rw [findPath_new, dif_neg (by omega)]

end Hasher

/-! An injective `hashv`: each part as a self-delimiting code, each byte behind a `1`, then a `0`. -/

def escape : List UInt8 → List UInt8
  | [] => [0]
  | b :: bs => 1 :: b :: escape bs

theorem escape_ne_nil (bytes : List UInt8) : escape bytes ≠ [] := by
  cases bytes <;> simp [escape]

theorem escape_append_inj : ∀ {a b r s : List UInt8}, escape a ++ r = escape b ++ s → a = b ∧ r = s
  | [], [], _, _, same => ⟨rfl, List.append_cancel_left same⟩
  | [], _ :: _, _, _, same => by simp [escape] at same
  | _ :: _, [], _, _, same => by simp [escape] at same
  | _ :: _, _ :: _, _, _, same => by
    simp only [escape, List.cons_append, List.cons.injEq, true_and] at same
    obtain ⟨rfl, rest⟩ := same
    obtain ⟨rfl, rfl⟩ := escape_append_inj rest
    exact ⟨rfl, rfl⟩

def escapeHashv (parts : List (List UInt8)) : Hash := parts.flatMap escape

theorem escapeHashv_injective : Function.Injective escapeHashv := by
  intro parts
  induction parts with
  | nil =>
    rintro (_ | ⟨part, parts'⟩) same
    · rfl
    · simp [escapeHashv, escape_ne_nil] at same
  | cons part parts ih =>
    rintro (_ | ⟨part', parts'⟩) same
    · simp [escapeHashv, escape_ne_nil] at same
    · simp only [escapeHashv, List.flatMap_cons] at same
      obtain ⟨rfl, rest⟩ := escape_append_inj same
      rw [ih rest]

theorem findPath_single_leaf_accepts_any :
    Function.Injective escapeHashv ∧ findPath (new escapeHashv [[]]) 0 = some [] ∧
      hashLeaf escapeHashv [] ++ [0] ≠ hashLeaf escapeHashv [] ∧
      verify escapeHashv [] (hashLeaf escapeHashv [] ++ [0]) = true :=
  ⟨escapeHashv_injective, single_leaf_accepts_any escapeHashv []⟩

end Merkle
