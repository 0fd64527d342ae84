import Mathlib
import Agave.Library.List
import Agave.Library.MachineInt

/-! The turbine retransmit tree of `cluster_nodes.rs`. The nodes of the cluster, shuffled by stake
with a seed of the leader and the shred, are laid out as a tree of fanout `F`: the root at index `0`
and its `F` children at `1..F`; below it the nodes fall in neighborhoods of `F` consecutive indices
`F q + 1 .. F q + F`, and the member at offset `r` of neighborhood `q` retransmits to the members at
offset `r` of the `F` neighborhoods `F q + 1 + j` of the next layer. `get_retransmit_peers` reads the
children of a node off its index and `get_retransmit_parent` its parent. The two index maps are
inverse (`retransmitParentIndex_retransmitPeerIndex`, `eq_retransmitPeerIndex_of_parent`), so the
children lists split the nodes below the root and each of them has one parent. -/

namespace Turbine

open MachineInt

section Indices

/-- The `j`-th child of the node at `index` in the layout of the tree: position `j` of
`(anchor * fanout + offset + 1..).step_by(step)`, without the bound of a `usize`. -/
def retransmitPeerIndex (fanout index j : Nat) : Nat :=
  let offset := (index - 1) % fanout
  let anchor := index - offset
  let step := if index = 0 then 1 else fanout
  anchor * fanout + offset + 1 + step * j

/-- The indices `get_retransmit_peers` reads: the range taken to `fanout` items, in the `usize`
arithmetic of a release build, which wraps. -/
def retransmitPeerIndices (fanout index : Nat) : List Nat :=
  let offset := (index - 1) % fanout
  let anchor := index - offset
  let step := if index = 0 then 1 else fanout
  let start := wrappingAdd 64 (wrappingAdd 64 (wrappingMul 64 anchor fanout) offset) 1
  (List.range fanout).map fun j => wrappingAdd 64 start (step * j)

/-- The index of the parent, as `get_retransmit_parent` computes it before it reads the node. -/
def retransmitParentIndex (fanout index : Nat) : Option Nat := do
  let offset := (index - 1) % fanout
  let index ← checkedSub index 1
  let index := index / fanout
  let index := index - (index - 1) % fanout
  pure (if index = 0 then index else index + offset)

variable {F : Nat}

@[simp] theorem retransmitParentIndex_zero : retransmitParentIndex F 0 = none := rfl

theorem retransmitParentIndex_of_pos {c : Nat} (positive : 0 < c) :
    retransmitParentIndex F c =
      some (if (c - 1) / F - ((c - 1) / F - 1) % F = 0 then 0
        else (c - 1) / F - ((c - 1) / F - 1) % F + (c - 1) % F) := by
  simp only [retransmitParentIndex, checkedSub, if_pos (Nat.one_le_iff_ne_zero.2 (Nat.pos_iff_ne_zero.1 positive))]
  split <;> simp_all

theorem retransmitParentIndex_lt {c p : Nat} (parent : retransmitParentIndex F c = some p) : p < c := by
  rcases Nat.eq_zero_or_pos c with rfl | positive
  · simp at parent
  · have split := Nat.div_add_mod (c - 1) F
    have small : (c - 1) / F + (c - 1) % F ≤ c - 1 := by
      rcases Nat.eq_zero_or_pos F with rfl | positiveF
      · simp
      · have := Nat.le_mul_of_pos_left ((c - 1) / F) positiveF
        omega
    rw [retransmitParentIndex_of_pos positive, Option.some.injEq] at parent
    split at parent <;> omega

theorem retransmitParentIndex_isSome {c : Nat} (positive : 0 < c) : ∃ p, retransmitParentIndex F c = some p :=
  ⟨_, retransmitParentIndex_of_pos positive⟩

@[simp] theorem retransmitPeerIndex_zero (j : Nat) : retransmitPeerIndex F 0 j = j + 1 := by
  simp [retransmitPeerIndex]
  omega

theorem retransmitPeerIndex_of_pos {p : Nat} (positive : 0 < p) (j : Nat) :
    retransmitPeerIndex F p j = F * (F * ((p - 1) / F) + 1 + j) + (p - 1) % F + 1 := by
  have split := Nat.div_add_mod (p - 1) F
  have anchor : p - (p - 1) % F = F * ((p - 1) / F) + 1 := by omega
  simp only [retransmitPeerIndex, if_neg (Nat.pos_iff_ne_zero.1 positive), anchor]
  ring

theorem retransmitPeerIndex_pos (p j : Nat) : 0 < retransmitPeerIndex F p j := by
  simp only [retransmitPeerIndex]
  omega

theorem retransmitPeerIndex_lt_of_lt (positive : 0 < F) (p : Nat) {j j' : Nat} (lt : j < j') :
    retransmitPeerIndex F p j < retransmitPeerIndex F p j' := by
  have step : 0 < if p = 0 then 1 else F := by split <;> omega
  simp only [retransmitPeerIndex]
  have := Nat.mul_lt_mul_of_pos_left lt step
  omega

theorem lt_retransmitPeerIndex (positive : 0 < F) (p j : Nat) : p < retransmitPeerIndex F p j := by
  rcases Nat.eq_zero_or_pos p with rfl | pos
  · simp
  · have split := Nat.div_add_mod (p - 1) F
    have := Nat.le_mul_of_pos_left (F * ((p - 1) / F) + 1 + j) positive
    rw [retransmitPeerIndex_of_pos pos]
    omega

theorem retransmitParentIndex_retransmitPeerIndex (positive : 0 < F) (p : Nat) {j : Nat} (child : j < F) :
    retransmitParentIndex F (retransmitPeerIndex F p j) = some p := by
  rcases Nat.eq_zero_or_pos p with rfl | pos
  · rw [retransmitPeerIndex_zero, retransmitParentIndex_of_pos (Nat.succ_pos j)]
    simp [Nat.div_eq_of_lt child]
  · set q := (p - 1) / F
    set r := (p - 1) % F
    have split : F * q + r = p - 1 := Nat.div_add_mod (p - 1) F
    have neighborhood : (F * (F * q + 1 + j) + r) / F = F * q + 1 + j ∧
        (F * (F * q + 1 + j) + r) % F = r :=
      (Nat.div_mod_unique positive).2 ⟨by ring, Nat.mod_lt _ positive⟩
    have member : (F * q + 1 + j - 1) % F = j := by
      rw [show F * q + 1 + j - 1 = F * q + j by omega, Nat.mul_add_mod, Nat.mod_eq_of_lt child]
    rw [retransmitPeerIndex_of_pos pos, retransmitParentIndex_of_pos (by omega), Nat.add_sub_cancel,
      neighborhood.1, neighborhood.2, member, show F * q + 1 + j - j = F * q + 1 by omega,
      if_neg (by omega)]
    congr 1
    omega

theorem eq_retransmitPeerIndex_of_parent (positive : 0 < F) {c p : Nat}
    (parent : retransmitParentIndex F c = some p) : ∃ j < F, retransmitPeerIndex F p j = c := by
  rcases Nat.eq_zero_or_pos c with rfl | pos
  · simp at parent
  rw [retransmitParentIndex_of_pos pos, Option.some.injEq] at parent
  set m := (c - 1) / F
  set r := (c - 1) % F
  have split : F * m + r = c - 1 := Nat.div_add_mod (c - 1) F
  have offset : r < F := Nat.mod_lt _ positive
  rcases Nat.eq_zero_or_pos m with first | lower
  · rw [first, if_pos (by simp)] at parent
    subst parent
    refine ⟨r, offset, ?_⟩
    rw [retransmitPeerIndex_zero]
    rw [first] at split
    omega
  · set q := (m - 1) / F
    set j := (m - 1) % F
    have above : F * q + j = m - 1 := Nat.div_add_mod (m - 1) F
    rw [show m - j = F * q + 1 by omega, if_neg (by omega)] at parent
    have parentSplit : (p - 1) / F = q ∧ (p - 1) % F = r :=
      (Nat.div_mod_unique positive).2 ⟨by omega, offset⟩
    refine ⟨j, Nat.mod_lt _ positive, ?_⟩
    rw [retransmitPeerIndex_of_pos (by omega), parentSplit.1, parentSplit.2,
      show F * q + 1 + j = m by omega]
    omega

theorem retransmitPeerIndex_zero_le {j : Nat} (child : j < F) : retransmitPeerIndex F 0 j ≤ F := by
  rw [retransmitPeerIndex_zero]
  omega

theorem retransmitPeerIndex_mem_second {p j : Nat} (first : 0 < p) (near : p ≤ F)
    (child : j < F) : F < retransmitPeerIndex F p j ∧ retransmitPeerIndex F p j ≤ F * (F + 1) := by
  have neighborhood : (p - 1) / F = 0 := Nat.div_eq_of_lt (by omega)
  have offset : (p - 1) % F = p - 1 := Nat.mod_eq_of_lt (by omega)
  have lower : F ≤ F * (1 + j) := Nat.le_mul_of_pos_right F (by omega)
  have upper : F * (1 + j) ≤ F * F := Nat.mul_le_mul_left F (by omega)
  rw [retransmitPeerIndex_of_pos first, neighborhood, offset, Nat.mul_zero, Nat.zero_add, Nat.mul_add_one]
  omega

theorem retransmitPeerIndices_eq_mod (k : Nat) :
    retransmitPeerIndices F k = (List.range F).map fun j => retransmitPeerIndex F k j % 2 ^ 64 := by
  simp only [retransmitPeerIndices, wrappingAdd_wrappingMul, wrappingAdd_wrappingAdd]
  rfl

theorem retransmitPeerIndices_of_lt {k : Nat} (fits : ∀ j < F, retransmitPeerIndex F k j < 2 ^ 64) :
    retransmitPeerIndices F k = (List.range F).map (retransmitPeerIndex F k) := by
  rw [retransmitPeerIndices_eq_mod]
  exact List.map_congr_left fun j member => Nat.mod_eq_of_lt (fits j (List.mem_range.mp member))

theorem retransmitPeerIndex_lt_mul {n k j : Nat} (inside : k < n) (child : j < F) :
    retransmitPeerIndex F k j < (n + F) * F := by
  have square : 0 < F * F := Nat.mul_pos (by omega) (by omega)
  rw [Nat.add_mul]
  rcases Nat.eq_zero_or_pos k with rfl | positive
  · have := Nat.le_mul_of_pos_left F inside
    rw [retransmitPeerIndex_zero]
    omega
  · rw [retransmitPeerIndex_of_pos positive]
    set q := (k - 1) / F
    set r := (k - 1) % F
    have split : F * q + r = k - 1 := Nat.div_add_mod (k - 1) F
    have layer : F * (F * q + 1 + j) ≤ F * (F * q) + F * F := by
      rw [← Nat.mul_add]
      exact Nat.mul_le_mul_left F (by omega)
    have below : (F * q + r + 2) * F ≤ n * F := Nat.mul_le_mul_right F (by omega)
    have spread : r ≤ r * F := Nat.le_mul_of_pos_right r (by omega)
    have expand : (F * q + r + 2) * F = F * (F * q) + r * F + 2 * F := by ring
    omega

theorem lt_retransmitPeerIndex_of_lt (positive : 0 < F) {p : Nat} (far : F < p) (j : Nat) :
    F * (F + 1) < retransmitPeerIndex F p j := by
  have neighborhood : 1 ≤ (p - 1) / F := (Nat.le_div_iff_mul_le positive).2 (by omega)
  have lower : F * (F + 1) ≤ F * (F * ((p - 1) / F) + 1 + j) :=
    Nat.mul_le_mul_left F (by have := Nat.le_mul_of_pos_right F neighborhood; omega)
  rw [retransmitPeerIndex_of_pos (by omega)]
  omega

end Indices

section Depth

variable {F : Nat}

/-- The depth of a node in the tree: the number of parents up to the root. -/
def depth (fanout index : Nat) : Nat :=
  match parent : retransmitParentIndex fanout index with
  | none => 0
  | some p => depth fanout p + 1
termination_by index
decreasing_by exact retransmitParentIndex_lt parent

@[simp] theorem depth_zero : depth F 0 = 0 := by
  rw [depth]
  split <;> simp_all

theorem depth_of_parent {c p : Nat} (parent : retransmitParentIndex F c = some p) :
    depth F c = depth F p + 1 := by
  rw [depth]
  split <;> simp_all

theorem one_le_depth {c : Nat} (positive : 0 < c) : 1 ≤ depth F c := by
  obtain ⟨p, parent⟩ := retransmitParentIndex_isSome (F := F) positive
  rw [depth_of_parent parent]
  omega

theorem depth_of_le (positive : 0 < F) {c : Nat} (below : 0 < c) (near : c ≤ F) : depth F c = 1 := by
  obtain ⟨p, parent⟩ := retransmitParentIndex_isSome (F := F) below
  obtain ⟨j, child, rfl⟩ := eq_retransmitPeerIndex_of_parent positive parent
  have root : p = 0 := by
    by_contra lower
    by_cases first : p ≤ F
    · have := (retransmitPeerIndex_mem_second (Nat.pos_of_ne_zero lower) first child).1
      omega
    · have := lt_retransmitPeerIndex_of_lt positive (Nat.lt_of_not_le first) j
      have := Nat.le_mul_of_pos_right F (show 0 < F + 1 by omega)
      omega
  rw [depth_of_parent parent, root, depth_zero]

theorem two_le_depth (positive : 0 < F) {c : Nat} (far : F < c) : 2 ≤ depth F c := by
  obtain ⟨p, parent⟩ := retransmitParentIndex_isSome (F := F) (show 0 < c by omega)
  obtain ⟨j, child, rfl⟩ := eq_retransmitPeerIndex_of_parent positive parent
  have lower : 0 < p := by
    by_contra root
    rw [Nat.eq_zero_of_not_pos root] at far
    have := retransmitPeerIndex_zero_le (F := F) child
    omega
  rw [depth_of_parent parent]
  have := one_le_depth (F := F) lower
  omega

theorem depth_of_le_mul (positive : 0 < F) {c : Nat} (far : F < c) (near : c ≤ F * (F + 1)) :
    depth F c = 2 := by
  obtain ⟨p, parent⟩ := retransmitParentIndex_isSome (F := F) (show 0 < c by omega)
  obtain ⟨j, child, rfl⟩ := eq_retransmitPeerIndex_of_parent positive parent
  have lower : 0 < p := by
    by_contra root
    rw [Nat.eq_zero_of_not_pos root] at far
    have := retransmitPeerIndex_zero_le (F := F) child
    omega
  have first : p ≤ F := by
    by_contra deeper
    have := lt_retransmitPeerIndex_of_lt positive (Nat.lt_of_not_le deeper) j
    omega
  rw [depth_of_parent parent, depth_of_le positive lower first]

theorem three_le_depth (positive : 0 < F) {c : Nat} (far : F * (F + 1) < c) : 3 ≤ depth F c := by
  obtain ⟨p, parent⟩ := retransmitParentIndex_isSome (F := F) (show 0 < c by omega)
  obtain ⟨j, child, rfl⟩ := eq_retransmitPeerIndex_of_parent positive parent
  have deeper : F < p := by
    by_contra near
    rcases Nat.eq_zero_or_pos p with root | lower
    · rw [root] at far
      have := retransmitPeerIndex_zero_le (F := F) child
      have := Nat.le_mul_of_pos_right F (show 0 < F + 1 by omega)
      omega
    · have := (retransmitPeerIndex_mem_second lower (Nat.le_of_not_lt near) child).2
      omega
  rw [depth_of_parent parent]
  have := two_le_depth positive deeper
  omega

end Depth

section Nodes

variable {α : Type*}

/-- `get_retransmit_peers`: the nodes at the indices of the children, up to the first index past
the end of `nodes`. -/
def getRetransmitPeers (fanout index : Nat) (nodes : List α) : List α :=
  List.whileSome ((retransmitPeerIndices fanout index).map fun i => nodes[i]?)

/-- `get_retransmit_parent`: the node at the index of the parent. -/
def getRetransmitParent (fanout index : Nat) (nodes : List α) : Option α :=
  (retransmitParentIndex fanout index).bind fun index => nodes[index]?

variable {F : Nat} {nodes : List α}

theorem length_getRetransmitPeers_le (k : Nat) : (getRetransmitPeers F k nodes).length ≤ F := by
  have := List.length_whileSome_le ((retransmitPeerIndices F k).map fun i => nodes[i]?)
  simpa [getRetransmitPeers, retransmitPeerIndices_eq_mod] using this

/-- With fanout two the second node of the first layer sends to the second node of each
neighborhood of the second layer; over six nodes the last neighborhood is cut short. -/
example : getRetransmitPeers 2 2 [0, 1, 2, 3, 4, 5, 6] = [4, 6] ∧ getRetransmitPeers 2 2 [0, 1, 2, 3, 4, 5] = [4] := by
  decide

@[simp] theorem getRetransmitParent_zero : getRetransmitParent F 0 nodes = none := by
  simp [getRetransmitParent]

theorem getRetransmitParent_of_parent {i p : Nat} (parent : retransmitParentIndex F i = some p)
    (inside : p < nodes.length) : getRetransmitParent F i nodes = some nodes[p] := by
  simp [getRetransmitParent, parent, inside]

section Room

-- the bound under which no index that `get_retransmit_peers` computes for a node of the list wraps
variable (room : (nodes.length + F) * F < 2 ^ 64)
include room

theorem retransmitPeerIndices_of_room {k : Nat} (inside : k < nodes.length) :
    retransmitPeerIndices F k = (List.range F).map (retransmitPeerIndex F k) :=
  retransmitPeerIndices_of_lt fun _ child => lt_trans (retransmitPeerIndex_lt_mul inside child) room

theorem length_lt_of_room (positive : 0 < F) : nodes.length < 2 ^ 64 := by
  have := Nat.le_mul_of_pos_right nodes.length positive
  have := Nat.mul_le_mul_right F (Nat.le_add_right nodes.length F)
  omega

theorem retransmitPeerIndices_pairwise (positive : 0 < F) {k : Nat} (inside : k < nodes.length) :
    (retransmitPeerIndices F k).Pairwise (· < ·) := by
  rw [retransmitPeerIndices_of_room room inside, List.pairwise_map]
  exact List.pairwise_lt_range.imp fun lt => retransmitPeerIndex_lt_of_lt positive k lt

theorem mem_getRetransmitPeers (positive : 0 < F) {k : Nat} (inside : k < nodes.length) {x : α} :
    x ∈ getRetransmitPeers F k nodes ↔
      ∃ j < F, ∃ inside : retransmitPeerIndex F k j < nodes.length, nodes[retransmitPeerIndex F k j] = x := by
  rw [getRetransmitPeers, List.mem_whileSome_map_getElem? nodes x (retransmitPeerIndices_pairwise room positive inside),
    retransmitPeerIndices_of_room room inside]
  simp

theorem exists_parent_mem_peers (positive : 0 < F) {i : Nat} (inside : i < nodes.length) (below : 0 < i) :
    ∃ p, ∃ _ : p < i, getRetransmitParent F i nodes = some nodes[p] ∧
      nodes[i] ∈ getRetransmitPeers F p nodes := by
  obtain ⟨p, parent⟩ := retransmitParentIndex_isSome (F := F) below
  have before := retransmitParentIndex_lt parent
  obtain ⟨j, child, index⟩ := eq_retransmitPeerIndex_of_parent positive parent
  refine ⟨p, before, getRetransmitParent_of_parent parent (by omega), ?_⟩
  exact (mem_getRetransmitPeers room positive (by omega)).2 ⟨j, child, by rw [index]; exact inside, by simp only [index]⟩

theorem getElem_not_mem_getRetransmitPeers (positive : 0 < F) (distinct : nodes.Nodup) {k m : Nat}
    (inside : k < nodes.length) (atMost : m ≤ k) : nodes[m] ∉ getRetransmitPeers F k nodes := by
  intro mem
  obtain ⟨j, _, child, same⟩ := (mem_getRetransmitPeers room positive inside).1 mem
  have := lt_retransmitPeerIndex positive k j
  have := (distinct.getElem_inj_iff).1 same
  omega

theorem getRetransmitPeers_disjoint (positive : 0 < F) (distinct : nodes.Nodup) {k k' : Nat}
    (node : k < nodes.length) (node' : k' < nodes.length) (other : k ≠ k')
    {x : α} (mem : x ∈ getRetransmitPeers F k nodes) : x ∉ getRetransmitPeers F k' nodes := by
  intro mem'
  obtain ⟨j, child, inside, rfl⟩ := (mem_getRetransmitPeers room positive node).1 mem
  obtain ⟨j', child', inside', same⟩ := (mem_getRetransmitPeers room positive node').1 mem'
  have index := (distinct.getElem_inj_iff).1 same
  have parents := retransmitParentIndex_retransmitPeerIndex positive k' child'
  rw [index, retransmitParentIndex_retransmitPeerIndex positive k child, Option.some.injEq] at parents
  exact other parents

theorem exists_mem_getRetransmitPeers_iff (positive : 0 < F) {x : α} :
    (∃ k < nodes.length, x ∈ getRetransmitPeers F k nodes) ↔ x ∈ nodes.tail := by
  constructor
  · rintro ⟨k, node, mem⟩
    obtain ⟨j, _, inside, rfl⟩ := (mem_getRetransmitPeers room positive node).1 mem
    have below := retransmitPeerIndex_pos (F := F) k j
    have inTail : retransmitPeerIndex F k j - 1 < nodes.tail.length := by simp; omega
    have shifted : nodes.tail[retransmitPeerIndex F k j - 1] = nodes[retransmitPeerIndex F k j] := by
      simp only [List.getElem_tail]
      congr 1
      omega
    rw [← shifted]
    exact List.getElem_mem _
  · intro mem
    obtain ⟨t, inTail, rfl⟩ := List.getElem_of_mem mem
    have inside : t + 1 < nodes.length := by simp at inTail; omega
    obtain ⟨p, before, _, peer⟩ := exists_parent_mem_peers room positive inside (Nat.succ_pos t)
    exact ⟨p, by omega, by simpa only [List.getElem_tail] using peer⟩

end Room

end Nodes

section Cluster

variable {α : Type*}

/-- The error of the retransmit functions when the node itself leads the slot. -/
inductive Error (α : Type*) where
  | loopback (leader : α)
  deriving DecidableEq, Repr

/-- `RetransmitPeers`, without the map of socket addresses, which only filters the children's
addresses. -/
structure RetransmitPeers (α : Type*) where
  rootDistance : Nat
  children : List α
  deriving DecidableEq, Repr

/-- The `root_distance` of `ClusterNodes::get_retransmit_peers`: the layer of the node, counted up
to three. -/
def rootDistance (fanout selfIndex : Nat) : Nat :=
  if selfIndex = 0 then 0
  else if selfIndex ≤ fanout then 1
  else if selfIndex ≤ saturatingMul 64 (saturatingAdd 64 fanout 1) fanout then 2
  else 3

variable [DecidableEq α]

/-- `ClusterNodes::get_retransmit_peers` once the cluster is shuffled: `shuffled` lists the nodes
without the leader, in the order that the shuffle seeded by the leader and the shred gives. `none`
is the panic of `position(..).unwrap()` when the node itself is not among them. -/
def clusterRetransmitPeers (fanout : Nat) (self leader : α) (shuffled : List α) :
    Option (Except (Error α) (RetransmitPeers α)) :=
  if leader == self then some (.error (.loopback leader))
  else (shuffled.findIdx? (· == self)).map fun selfIndex =>
    .ok { rootDistance := rootDistance fanout selfIndex,
          children := getRetransmitPeers fanout selfIndex shuffled }

/-- `ClusterNodes::get_retransmit_parent` once the cluster is shuffled, with the same `shuffled` as
`clusterRetransmitPeers`: an unstaked node reports no parent, and only the nodes before the node
itself are read. -/
def clusterRetransmitParent (fanout : Nat) (self leader : α) (selfStake : Nat) (shuffled : List α) :
    Except (Error α) (Option α) :=
  if leader == self then .error (.loopback leader)
  else if selfStake = 0 then .ok none
  else
    let nodes := shuffled.takeWhile (· != self)
    .ok (getRetransmitParent fanout nodes.length nodes)

variable {F : Nat}

theorem rootDistance_eq_min_depth (positive : 0 < F) {i : Nat} (bound : i ≤ maxValue 64) :
    rootDistance F i = min 3 (depth F i) := by
  -- below the largest `usize` the saturated bound of the second layer is its exact bound
  have second : i ≤ saturatingMul 64 (saturatingAdd 64 F 1) F ↔ i ≤ F * (F + 1) := by
    rw [le_saturatingMul_iff bound, le_saturatingAdd_mul_iff bound positive, Nat.mul_comm]
  unfold rootDistance
  by_cases root : i = 0
  · simp [root]
  by_cases first : i ≤ F
  · rw [if_neg root, if_pos first, depth_of_le positive (Nat.pos_of_ne_zero root) first]
    rfl
  by_cases secondLayer : i ≤ F * (F + 1)
  · rw [if_neg root, if_neg first, if_pos (second.2 secondLayer),
      depth_of_le_mul positive (Nat.lt_of_not_le first) secondLayer]
    rfl
  · rw [if_neg root, if_neg first, if_neg (mt second.1 secondLayer)]
    have := three_le_depth positive (Nat.lt_of_not_le secondLayer)
    omega

variable {nodes : List α}

theorem clusterRetransmitParent_eq (distinct : nodes.Nodup) {i : Nat} (inside : i < nodes.length)
    {leader : α} (follower : leader ≠ nodes[i]) {stake : Nat} (staked : 0 < stake) :
    clusterRetransmitParent F nodes[i] leader stake nodes = .ok (getRetransmitParent F i nodes) := by
  have prefixLength : (nodes.take i).length = i := List.length_take_of_le (Nat.le_of_lt inside)
  have sameParent : getRetransmitParent F i (nodes.take i) = getRetransmitParent F i nodes := by
    simp only [getRetransmitParent]
    cases parent : retransmitParentIndex F i with
    | none => rfl
    | some p => exact List.getElem?_take_of_lt (retransmitParentIndex_lt parent)
  simp only [clusterRetransmitParent, beq_iff_eq, follower, if_false, Nat.pos_iff_ne_zero.1 staked,
    distinct.takeWhile_bne_getElem inside, prefixLength, sameParent]

theorem clusterRetransmitPeers_eq (positive : 0 < F) (distinct : nodes.Nodup) {i : Nat}
    (inside : i < nodes.length) (bound : i < 2 ^ 64) {leader : α} (follower : leader ≠ nodes[i]) :
    clusterRetransmitPeers F nodes[i] leader nodes =
      some (.ok ⟨min 3 (depth F i), getRetransmitPeers F i nodes⟩) := by
  have fits : i ≤ maxValue 64 := by unfold maxValue; omega
  simp only [clusterRetransmitPeers, beq_iff_eq, follower, if_false, distinct.findIdx?_beq_getElem inside,
    Option.map_some, rootDistance_eq_min_depth positive fits]

end Cluster

section Tree

variable {α : Type*} [DecidableEq α]

/-- The retransmit tree over the shuffled nodes: the root has no parent and every other node a
parent before it whose peers it is among; the peers of a node of the list are at most `fanout`,
never the root nor the node itself, and the peers of distinct nodes are disjoint and together the
nodes below the root; the cluster reports the depth of a node, counted up to three, as its root
distance, and finds its parent from the nodes before it alone. -/
structure RetransmitTree (fanout : Nat) (nodes : List α) : Prop where
  parent_root : getRetransmitParent fanout 0 nodes = none
  parent_mem_peers : ∀ i (inside : i < nodes.length), 0 < i → ∃ p, ∃ _ : p < i,
    getRetransmitParent fanout i nodes = some nodes[p] ∧ nodes[i] ∈ getRetransmitPeers fanout p nodes
  length_peers_le : ∀ k, (getRetransmitPeers fanout k nodes).length ≤ fanout
  root_not_mem_peers : ∀ k (inside : k < nodes.length), nodes[0] ∉ getRetransmitPeers fanout k nodes
  self_not_mem_peers : ∀ k (inside : k < nodes.length), nodes[k] ∉ getRetransmitPeers fanout k nodes
  peers_disjoint : ∀ k < nodes.length, ∀ k' < nodes.length, k ≠ k' → ∀ x ∈ getRetransmitPeers fanout k nodes,
    x ∉ getRetransmitPeers fanout k' nodes
  peers_cover : ∀ x, (∃ k < nodes.length, x ∈ getRetransmitPeers fanout k nodes) ↔ x ∈ nodes.tail
  root_distance : ∀ i (inside : i < nodes.length) leader, leader ≠ nodes[i] →
    clusterRetransmitPeers fanout nodes[i] leader nodes =
      some (.ok ⟨min 3 (depth fanout i), getRetransmitPeers fanout i nodes⟩)
  cluster_parent : ∀ i (inside : i < nodes.length) leader stake, leader ≠ nodes[i] → 0 < stake →
    clusterRetransmitParent fanout nodes[i] leader stake nodes = .ok (getRetransmitParent fanout i nodes)

theorem retransmit_tree {fanout : Nat} (positive : 0 < fanout) {nodes : List α} (distinct : nodes.Nodup)
    (room : (nodes.length + fanout) * fanout < 2 ^ 64) : RetransmitTree fanout nodes where
  parent_root := getRetransmitParent_zero
  parent_mem_peers _ inside below := exists_parent_mem_peers room positive inside below
  length_peers_le := length_getRetransmitPeers_le
  root_not_mem_peers _ inside := getElem_not_mem_getRetransmitPeers room positive distinct inside (Nat.zero_le _)
  self_not_mem_peers _ inside := getElem_not_mem_getRetransmitPeers room positive distinct inside (Nat.le_refl _)
  peers_disjoint _ node _ node' other _ mem := getRetransmitPeers_disjoint room positive distinct node node' other mem
  peers_cover _ := exists_mem_getRetransmitPeers_iff room positive
  root_distance _ inside _ follower :=
    clusterRetransmitPeers_eq positive distinct inside (lt_trans inside (length_lt_of_room room positive)) follower
  cluster_parent _ inside _ _ follower staked := clusterRetransmitParent_eq distinct inside follower staked

/-- A tree of fanout two over seven nodes, its three layers full. -/
theorem retransmit_tree_seven :
    0 < 2 ∧ [0, 1, 2, 3, 4, 5, 6].Nodup ∧ ([0, 1, 2, 3, 4, 5, 6].length + 2) * 2 < 2 ^ 64 ∧
      RetransmitTree 2 [0, 1, 2, 3, 4, 5, 6] :=
  ⟨by decide, by decide, by decide, retransmit_tree (by decide) (by decide) (by decide)⟩

/-- With a fanout of `usize::MAX` the first index read for node `1`, `1 * fanout + 0 + 1`, wraps to
zero: the root is among the peers of node `1`. -/
theorem getRetransmitPeers_max_fanout : getRetransmitPeers (2 ^ 64 - 1) 1 [0, 1, 2] = [0] := by
  have range : List.range (2 ^ 64 - 1) = 0 :: 1 :: ((List.range (2 ^ 64 - 3)).map Nat.succ).map Nat.succ := by
    rw [show 2 ^ 64 - 1 = 2 ^ 64 - 3 + 1 + 1 by norm_num, List.range_succ_eq_map, List.range_succ_eq_map,
      List.map_cons]
  have first : [0, 1, 2][retransmitPeerIndex (2 ^ 64 - 1) 1 0 % 2 ^ 64]? = some 0 := by decide
  have second : [0, 1, 2][retransmitPeerIndex (2 ^ 64 - 1) 1 1 % 2 ^ 64]? = none := by decide
  rw [getRetransmitPeers, retransmitPeerIndices_eq_mod, range, List.map_cons, List.map_cons, List.map_cons,
    List.map_cons, first, second, List.whileSome_some_cons, List.whileSome_none_cons]

end Tree

end Turbine
