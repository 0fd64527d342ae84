import Mathlib
import Agave.Library.MachineInt
import Agave.Vote.Lockout

namespace ForkChoice

open VoteProgram MachineInt

abbrev SlotHashKey := Slot × Hash

/-- The order of `(Slot, Hash)` tuples: by slot, then by hash. -/
def keyLt (a b : SlotHashKey) : Bool := decide (a.1 < b.1 ∨ (a.1 = b.1 ∧ a.2 < b.2))

def keyLe (a b : SlotHashKey) : Prop := a.1 < b.1 ∨ (a.1 = b.1 ∧ a.2 ≤ b.2)

instance : DecidableRel keyLe := fun a b => by
  unfold keyLe
  infer_instance

/-- `BTreeSet::insert` on a set kept in ascending order. -/
def insertKey (key : SlotHashKey) (keys : List SlotHashKey) : List SlotHashKey :=
  if key ∈ keys then keys else keys.orderedInsert keyLe key

structure ForkInfo where
  stakeVotedAt : Nat
  stakeVotedSubtree : Nat
  height : Nat
  bestSlot : SlotHashKey
  deepestSlot : SlotHashKey
  parent : Option SlotHashKey
  children : List SlotHashKey
  latestInvalidAncestor : Option Slot
  isDuplicateConfirmed : Bool
  deriving DecidableEq, Repr

namespace ForkInfo

/-- The fork rooted at the node is a candidate when no ancestor is marked invalid. -/
def isCandidate (info : ForkInfo) : Bool := info.latestInvalidAncestor.isNone

def setDuplicateConfirmed (info : ForkInfo) : ForkInfo :=
  { info with isDuplicateConfirmed := true, latestInvalidAncestor := none }

def updateWithNewlyValidAncestor (info : ForkInfo) (newlyValidAncestor : Slot) : ForkInfo :=
  match info.latestInvalidAncestor with
  | some latestInvalidAncestor =>
    if latestInvalidAncestor ≤ newlyValidAncestor then { info with latestInvalidAncestor := none } else info
  | none => info

/-- `none` is the assertion that a duplicate confirmed node is never marked invalid. -/
def updateWithNewlyInvalidAncestor (info : ForkInfo) (newlyInvalidAncestor : Slot) : Option ForkInfo :=
  if info.isDuplicateConfirmed then none
  else if info.latestInvalidAncestor.all (· < newlyInvalidAncestor) then
    some { info with latestInvalidAncestor := some newlyInvalidAncestor }
  else some info

/-- A new node: its own best and deepest slot. The root, without a parent, is duplicate confirmed. -/
def leaf (key : SlotHashKey) (parent : Option SlotHashKey) (latestInvalidAncestor : Option Slot) : ForkInfo :=
  ⟨0, 0, 1, key, key, parent, [], latestInvalidAncestor, parent.isNone⟩

end ForkInfo

/-- `UpdateLabel`, whose derived order is by constructor, then by slot. -/
inductive UpdateLabel
  | aggregate
  | add
  | markValid (slot : Slot)
  | markInvalid (slot : Slot)
  | subtract
  deriving DecidableEq, Repr

def UpdateLabel.rank : UpdateLabel → Nat × Slot
  | .aggregate => (0, 0)
  | .add => (1, 0)
  | .markValid slot => (2, slot)
  | .markInvalid slot => (3, slot)
  | .subtract => (4, 0)

inductive UpdateOperation
  | add (stake : Nat)
  | markValid (slot : Slot)
  | markInvalid (slot : Slot)
  | subtract (stake : Nat)
  | aggregate
  deriving DecidableEq, Repr

abbrev UpdateKey := SlotHashKey × UpdateLabel

/-- The key order of the `BTreeMap` of update operations. -/
def UpdateKey.le (a b : UpdateKey) : Prop :=
  [a.1.1, a.1.2, a.2.rank.1, a.2.rank.2] ≤ [b.1.1, b.1.2, b.2.rank.1, b.2.rank.2]

instance : DecidableRel UpdateKey.le := fun a b => by
  unfold UpdateKey.le
  infer_instance

/-- `UpdateOperations`: a `BTreeMap` kept in ascending key order. -/
abbrev UpdateOperations := List (UpdateKey × UpdateOperation)

def UpdateOperations.contains (ops : UpdateOperations) (key : UpdateKey) : Bool := ops.any (·.1 = key)

def UpdateOperations.insert (ops : UpdateOperations) (key : UpdateKey) (op : UpdateOperation) :
    UpdateOperations :=
  if ops.contains key then ops.map fun entry => if entry.1 = key then (key, op) else entry
  else ops.orderedInsert (fun a b => UpdateKey.le a.1 b.1) (key, op)

/-- Returns whether the aggregate of the node was new, with the operations after the insertion. -/
def doInsertAggregateOperation (ops : UpdateOperations) (modifyForkValidity : Option UpdateOperation)
    (key : SlotHashKey) : Bool × UpdateOperations :=
  if ops.contains (key, .aggregate) then (false, ops)
  else
    let ops :=
      match modifyForkValidity with
      | some (.markValid slot) => ops.insert (key, .markValid slot) (.markValid slot)
      | some (.markInvalid slot) => ops.insert (key, .markInvalid slot) (.markInvalid slot)
      | _ => ops
    (true, ops.insert (key, .aggregate) .aggregate)

/-- The loop over the ancestors: stops at the first whose aggregate was already inserted. -/
def doInsertAggregateOperationsAcrossAncestors (modifyForkValidity : Option UpdateOperation) :
    UpdateOperations → List SlotHashKey → UpdateOperations
  | ops, [] => ops
  | ops, key :: ancestors =>
    match doInsertAggregateOperation ops modifyForkValidity key with
    | (true, ops) => doInsertAggregateOperationsAcrossAncestors modifyForkValidity ops ancestors
    | (false, ops) => ops

structure HeaviestSubtreeForkChoice where
  forkInfos : List (SlotHashKey × ForkInfo)
  treeRoot : SlotHashKey
  deriving Repr

namespace HeaviestSubtreeForkChoice

variable (s : HeaviestSubtreeForkChoice)

def getInfo (key : SlotHashKey) : Option ForkInfo := (s.forkInfos.find? (·.1 = key)).map (·.2)

/-- `HashMap::insert`: replaces the entry of the key, or adds one. -/
def setInfo (key : SlotHashKey) (info : ForkInfo) : HeaviestSubtreeForkChoice :=
  if s.forkInfos.any (·.1 = key) then
    { s with forkInfos := s.forkInfos.map fun entry => if entry.1 = key then (key, info) else entry }
  else { s with forkInfos := s.forkInfos ++ [(key, info)] }

def bestSlot (key : SlotHashKey) : Option SlotHashKey := (s.getInfo key).map (·.bestSlot)

def deepestSlot (key : SlotHashKey) : Option SlotHashKey := (s.getInfo key).map (·.deepestSlot)

def stakeVotedSubtree (key : SlotHashKey) : Option Nat := (s.getInfo key).map (·.stakeVotedSubtree)

def parent (key : SlotHashKey) : Option SlotHashKey := (s.getInfo key).bind (·.parent)

def latestInvalidAncestor (key : SlotHashKey) : Option Slot := (s.getInfo key).bind (·.latestInvalidAncestor)

def new (treeRoot : SlotHashKey) : HeaviestSubtreeForkChoice :=
  ⟨[(treeRoot, ForkInfo.leaf treeRoot none none)], treeRoot⟩

/-- The walks up the parent links take at most one step per node; `none` is a walk that runs out,
which only a cycle of parents makes, on which the source loops forever. -/
def ancestorsFrom : Nat → SlotHashKey → Option (List SlotHashKey)
  | 0, _ => none
  | fuel + 1, key =>
    match s.parent key with
    | none => some []
    | some parent => (ancestorsFrom fuel parent).map (parent :: ·)

def ancestors (key : SlotHashKey) : Option (List SlotHashKey) := s.ancestorsFrom (s.forkInfos.length + 1) key

/-- `subtree_diff(root1, root2)`: the nodes below `root1` outside the subtree at `root2`. -/
def subtreeFrom (root2 : SlotHashKey) : Nat → SlotHashKey → Option (List SlotHashKey)
  | 0, _ => none
  | fuel + 1, key =>
    if key = root2 then some []
    else do
      let info ← s.getInfo key
      let below ← info.children.mapM (subtreeFrom root2 fuel)
      pure (key :: below.flatten)

def subtreeDiff (root1 root2 : SlotHashKey) : Option (List SlotHashKey) :=
  if (s.getInfo root1).isSome then s.subtreeFrom root2 (s.forkInfos.length + 1) root1 else some []

/-- Whether some candidate child outweighs `maybeBestChild`, ties going to the smaller key. -/
def beatenBy (maybeBestChild : SlotHashKey) (weight : Nat) : List SlotHashKey → Option Bool
  | [] => some false
  | child :: children => do
    let info ← s.getInfo child
    if info.isCandidate && (weight < info.stakeVotedSubtree ||
        (weight = info.stakeVotedSubtree && keyLt child maybeBestChild)) then some true
    else beatenBy maybeBestChild weight children

/-- Whether some child is deeper than `maybeDeepestChild`, ties going to the heavier, then the smaller key. -/
def outgrownBy (maybeDeepestChild : SlotHashKey) (weight height : Nat) : List SlotHashKey → Option Bool
  | [] => some false
  | child :: children => do
    let info ← s.getInfo child
    if height < info.height || (info.height = height && weight < info.stakeVotedSubtree) ||
        (info.height = height && info.stakeVotedSubtree = weight && keyLt child maybeDeepestChild) then some true
    else outgrownBy maybeDeepestChild weight height children

/-- `is_best_child`: the candidacy of `maybeBestChild` itself is not consulted. -/
def isBestChild (maybeBestChild : SlotHashKey) : Option Bool := do
  let weight ← s.stakeVotedSubtree maybeBestChild
  match s.parent maybeBestChild with
  | none => some true
  | some parent => do
    let parentInfo ← s.getInfo parent
    let beaten ← s.beatenBy maybeBestChild weight parentInfo.children
    pure !beaten

def isDeepestChild (maybeDeepestChild : SlotHashKey) : Option Bool := do
  let info ← s.getInfo maybeDeepestChild
  match info.parent with
  | none => some true
  | some parent => do
    let parentInfo ← s.getInfo parent
    let outgrown ← s.outgrownBy maybeDeepestChild info.stakeVotedSubtree info.height parentInfo.children
    pure !outgrown

/-- The first loop of `propagate_new_leaf`: the new leaf replaces the parent's best slot in every
ancestor that shared it. -/
def propagateBest (leaf parentBest : SlotHashKey) : Nat → HeaviestSubtreeForkChoice → Option SlotHashKey →
    Option HeaviestSubtreeForkChoice
  | _, s, none => some s
  | 0, _, some _ => none
  | fuel + 1, s, some ancestor => do
    let info ← s.getInfo ancestor
    if info.bestSlot = parentBest then
      propagateBest leaf parentBest fuel (s.setInfo ancestor { info with bestSlot := leaf }) info.parent
    else some s

/-- The second loop of `propagate_new_leaf`: the new leaf becomes the deepest slot of every ancestor
through which it is the deepest child. -/
def propagateDeepest (leaf : SlotHashKey) : Nat → HeaviestSubtreeForkChoice → Option SlotHashKey → SlotHashKey →
    Nat → Option HeaviestSubtreeForkChoice
  | _, s, none, _, _ => some s
  | 0, _, some _, _, _ => none
  | fuel + 1, s, some ancestor, currentChild, currentHeight => do
    let deepest ← s.isDeepestChild currentChild
    if !deepest then some s
    else
      let info ← s.getInfo ancestor
      let info := { info with deepestSlot := leaf, height := currentHeight + 1 }
      propagateDeepest leaf fuel (s.setInfo ancestor info) info.parent ancestor info.height

def propagateNewLeaf (leaf parent : SlotHashKey) : Option HeaviestSubtreeForkChoice := do
  let parentBest ← s.bestSlot parent
  let best ← s.isBestChild leaf
  let fuel := s.forkInfos.length + 1
  let s ← if best then propagateBest leaf parentBest fuel s (some parent) else some s
  propagateDeepest leaf fuel s (some parent) leaf 1

/-- `add_new_leaf_slot`; `none` is a panic (the parent is not in the tree). -/
def addNewLeafSlot (key : SlotHashKey) (parent : Option SlotHashKey) : Option HeaviestSubtreeForkChoice :=
  if (s.getInfo key).isSome then some s
  else
    let s := s.setInfo key (ForkInfo.leaf key parent (parent.bind s.latestInvalidAncestor))
    match parent with
    | none => some s
    | some parent => do
      let parentInfo ← s.getInfo parent
      let s := s.setInfo parent { parentInfo with children := insertKey key parentInfo.children }
      s.propagateNewLeaf key parent

/-- What `aggregate_slot` carries across the children of a node. -/
structure AggregateAcc where
  stakeVotedSubtree : Nat
  deepestChildHeight : Nat
  bestSlot : SlotHashKey
  deepestSlot : SlotHashKey
  isDuplicateConfirmed : Bool
  bestChildStake : Nat
  bestChildKey : SlotHashKey
  deepestChildStake : Nat
  deepestChildKey : SlotHashKey

/-- One child in the loop of `aggregate_slot`: its weight always counts; it can become the best child only
when it is a candidate. -/
def aggregateChild (key : SlotHashKey) (acc : AggregateAcc) (childKey : SlotHashKey) (child : ForkInfo) :
    AggregateAcc :=
  let acc := { acc with
    isDuplicateConfirmed := acc.isDuplicateConfirmed || child.isDuplicateConfirmed
    stakeVotedSubtree := wrappingAdd 64 acc.stakeVotedSubtree child.stakeVotedSubtree }
  let acc :=
    if child.isCandidate && (acc.bestChildKey = key || acc.bestChildStake < child.stakeVotedSubtree ||
        (child.stakeVotedSubtree = acc.bestChildStake && keyLt childKey acc.bestChildKey)) then
      { acc with bestChildStake := child.stakeVotedSubtree, bestChildKey := childKey, bestSlot := child.bestSlot }
    else acc
  if acc.deepestChildKey = key || acc.deepestChildHeight < child.height ||
      (child.height = acc.deepestChildHeight && acc.deepestChildStake < child.stakeVotedSubtree) ||
      (child.height = acc.deepestChildHeight && child.stakeVotedSubtree = acc.deepestChildStake &&
        keyLt childKey acc.deepestChildKey) then
    { acc with
      deepestChildHeight := child.height, deepestChildStake := child.stakeVotedSubtree,
      deepestChildKey := childKey, deepestSlot := child.deepestSlot }
  else acc

/-- `aggregate_slot`: recomputes the aggregates of a node from its children. `none` is a child missing from
the map. -/
def aggregateSlot (key : SlotHashKey) : Option HeaviestSubtreeForkChoice :=
  match s.getInfo key with
  | none => some s
  | some info => do
    let acc ← info.children.foldlM (fun acc childKey => do
        let child ← s.getInfo childKey
        pure (aggregateChild key acc childKey child))
      ⟨info.stakeVotedAt, 0, key, key, false, 0, key, 0, key⟩
    let info := if acc.isDuplicateConfirmed then info.setDuplicateConfirmed else info
    pure (s.setInfo key { info with
      stakeVotedSubtree := acc.stakeVotedSubtree, height := acc.deepestChildHeight + 1,
      bestSlot := acc.bestSlot, deepestSlot := acc.deepestSlot })

def markForkValid (key : SlotHashKey) (validSlot : Slot) : HeaviestSubtreeForkChoice :=
  match s.getInfo key with
  | none => s
  | some info =>
    let info := info.updateWithNewlyValidAncestor validSlot
    s.setInfo key (if key.1 = validSlot then { info with isDuplicateConfirmed := true } else info)

def markForkInvalid (key : SlotHashKey) (invalidSlot : Slot) : Option HeaviestSubtreeForkChoice :=
  match s.getInfo key with
  | none => some s
  | some info => (info.updateWithNewlyInvalidAncestor invalidSlot).map (s.setInfo key)

def addSlotStake (key : SlotHashKey) (stake : Nat) : HeaviestSubtreeForkChoice :=
  match s.getInfo key with
  | none => s
  | some info => s.setInfo key { info with
      stakeVotedAt := wrappingAdd 64 info.stakeVotedAt stake,
      stakeVotedSubtree := wrappingAdd 64 info.stakeVotedSubtree stake }

def subtractSlotStake (key : SlotHashKey) (stake : Nat) : HeaviestSubtreeForkChoice :=
  match s.getInfo key with
  | none => s
  | some info => s.setInfo key { info with
      stakeVotedAt := wrappingSub 64 info.stakeVotedAt stake,
      stakeVotedSubtree := wrappingSub 64 info.stakeVotedSubtree stake }

def applyOperation (key : SlotHashKey) : UpdateOperation → Option HeaviestSubtreeForkChoice
  | .markValid validSlot => some (s.markForkValid key validSlot)
  | .markInvalid invalidSlot => s.markForkInvalid key invalidSlot
  | .aggregate => s.aggregateSlot key
  | .add stake => some (s.addSlotStake key stake)
  | .subtract stake => some (s.subtractSlotStake key stake)

/-- The operations run from the greatest key down, so children are aggregated before their parents. -/
def processUpdateOperations (ops : UpdateOperations) : Option HeaviestSubtreeForkChoice :=
  ops.reverse.foldlM (fun s entry => s.applyOperation entry.1.1 entry.2) s

def insertAggregateOperations (ops : UpdateOperations) (key : SlotHashKey) : Option UpdateOperations :=
  (s.ancestors key).map (doInsertAggregateOperationsAcrossAncestors none ops)

/-- `mark_fork_invalid_candidate`; `none` is a panic. -/
def markForkInvalidCandidate (invalidKey : SlotHashKey) : Option HeaviestSubtreeForkChoice :=
  match s.getInfo invalidKey with
  | none => some s
  | some info =>
    if info.isDuplicateConfirmed then none
    else do
      let subtree ← s.subtreeDiff invalidKey (0, 0)
      let ops := subtree.foldl (fun ops child =>
        (doInsertAggregateOperation ops (some (.markInvalid invalidKey.1)) child).2) []
      let ops ← s.insertAggregateOperations ops invalidKey
      s.processUpdateOperations ops

/-- `mark_fork_valid_candidate`: returns the newly duplicate confirmed ancestors and the new state. -/
def markForkValidCandidate (validKey : SlotHashKey) : Option (List SlotHashKey × HeaviestSubtreeForkChoice) := do
  let ancestors ← s.ancestors validKey
  let newlyDuplicateConfirmed ← (validKey :: ancestors).filterM fun key =>
    (s.getInfo key).map fun info => !info.isDuplicateConfirmed
  let subtree ← s.subtreeDiff validKey (0, 0)
  let ops := subtree.foldl (fun ops child =>
    (doInsertAggregateOperation ops (some (.markValid validKey.1)) child).2) []
  let ops ← s.insertAggregateOperations ops validKey
  let s ← s.processUpdateOperations ops
  pure (newlyDuplicateConfirmed, s)

@[simp] theorem keyLt_irrefl (key : SlotHashKey) : keyLt key key = false := by
  simp [keyLt]

theorem find?_replaced (key : SlotHashKey) (info : ForkInfo) :
    ∀ entries : List (SlotHashKey × ForkInfo), entries.any (·.1 = key) →
      (entries.map fun entry => if entry.1 = key then (key, info) else entry).find? (·.1 = key) = some (key, info)
  | [], present => by simp at present
  | entry :: rest, present => by
    by_cases same : entry.1 = key
    · simp [same]
    · have later : rest.any (·.1 = key) := by simpa [same] using present
      simpa [same] using find?_replaced key info rest later

theorem getInfo_setInfo_self (key : SlotHashKey) (info : ForkInfo) : (s.setInfo key info).getInfo key = some info := by
  unfold setInfo getInfo
  split
  · rename_i present
    simp [find?_replaced key info s.forkInfos present]
  · rename_i absent
    have missing : s.forkInfos.find? (fun entry => decide (entry.1 = key)) = none := by
      rw [List.find?_eq_none]
      intro entry mem found
      exact absent (List.any_eq_true.mpr ⟨entry, mem, found⟩)
    simp [List.find?_append, missing]

theorem aggregateChild_bestSlot_of_not_candidate (key : SlotHashKey) (acc : AggregateAcc) (childKey : SlotHashKey)
    {child : ForkInfo} (invalid : child.isCandidate = false) :
    (aggregateChild key acc childKey child).bestSlot = acc.bestSlot := by
  unfold aggregateChild
  simp only [invalid, Bool.false_and, Bool.false_eq_true, if_false]
  split <;> rfl

theorem foldlM_aggregateChild_bestSlot (key : SlotHashKey) :
    ∀ (children : List SlotHashKey) (acc acc' : AggregateAcc),
      (∀ childKey ∈ children, ∀ child, s.getInfo childKey = some child → child.isCandidate = false) →
      children.foldlM (fun acc childKey => do
          let child ← s.getInfo childKey
          pure (aggregateChild key acc childKey child)) acc = some acc' →
      acc'.bestSlot = acc.bestSlot
  | [], acc, acc', _, folded => by
    simp only [List.foldlM_nil] at folded
    cases folded
    rfl
  | childKey :: children, acc, acc', invalid, folded => by
    simp only [List.foldlM_cons] at folded
    cases found : s.getInfo childKey with
    | none => simp [found] at folded
    | some child =>
      simp only [found, Option.bind_eq_bind, Option.bind_some] at folded
      have rest := foldlM_aggregateChild_bestSlot key children _ acc'
        (fun other mem => invalid other (List.mem_cons_of_mem childKey mem)) folded
      rw [rest, aggregateChild_bestSlot_of_not_candidate key acc childKey (invalid childKey (by simp) child found)]

theorem aggregateSlot_bestSlot_of_no_candidate {s' : HeaviestSubtreeForkChoice} {key : SlotHashKey}
    {info : ForkInfo} (found : s.getInfo key = some info)
    (invalid : ∀ childKey ∈ info.children, ∀ child, s.getInfo childKey = some child → child.isCandidate = false)
    (aggregated : s.aggregateSlot key = some s') : s'.bestSlot key = some key := by
  unfold aggregateSlot at aggregated
  rw [found] at aggregated
  simp only [Option.bind_eq_bind, Option.bind_eq_some_iff] at aggregated
  obtain ⟨acc, folded, written⟩ := aggregated
  have best := s.foldlM_aggregateChild_bestSlot key info.children _ acc invalid folded
  cases written
  simp [bestSlot, getInfo_setInfo_self, best]

theorem isBestChild_of_only_child {leaf parent : SlotHashKey} {info parentInfo : ForkInfo}
    (found : s.getInfo leaf = some info) (isParent : info.parent = some parent)
    (parentFound : s.getInfo parent = some parentInfo) (only : parentInfo.children = [leaf]) :
    s.isBestChild leaf = some true := by
  simp [isBestChild, stakeVotedSubtree, HeaviestSubtreeForkChoice.parent, found, isParent, parentFound, only,
    beatenBy]

/-- A leaf added below a node of an invalid fork becomes that node's best slot through
`propagate_new_leaf`, while `aggregate_slot` keeps the node as its own best slot. -/
theorem bestSlot_of_invalid_leaf_diverges :
    (do
      let s ← (new (0, 0)).addNewLeafSlot (1, 0) (some (0, 0))
      let s ← s.markForkInvalidCandidate (1, 0)
      let s ← s.addNewLeafSlot (2, 0) (some (1, 0))
      let recomputed ← s.aggregateSlot (1, 0)
      pure (s.latestInvalidAncestor (2, 0), s.bestSlot (1, 0), recomputed.bestSlot (1, 0))) =
    some (some 1, some (2, 0), some (1, 0)) := by
  decide

end HeaviestSubtreeForkChoice

end ForkChoice
