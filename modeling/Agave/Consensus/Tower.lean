import Mathlib
import Agave.Vote.Program

namespace Consensus

open VoteProgram

/-- The vote a validator sends, in each of its instruction forms. -/
inductive VoteTransaction
  | vote (vote : Vote)
  | voteStateUpdate (voteStateUpdate : VoteStateUpdate)
  | compactVoteStateUpdate (voteStateUpdate : VoteStateUpdate)
  | towerSync (towerSync : TowerSync)
  deriving DecidableEq, Repr

namespace VoteTransaction

def slots : VoteTransaction → List Slot
  | .vote v => v.slots
  | .voteStateUpdate u | .compactVoteStateUpdate u => u.lockouts.map (·.slot)
  | .towerSync t => t.lockouts.map (·.slot)

def setTimestamp (timestamp : Option UnixTimestamp) : VoteTransaction → VoteTransaction
  | .vote v => .vote { v with timestamp }
  | .voteStateUpdate u => .voteStateUpdate { u with timestamp }
  | .compactVoteStateUpdate u => .compactVoteStateUpdate { u with timestamp }
  | .towerSync t => .towerSync { t with timestamp }

@[simp] theorem slots_setTimestamp (timestamp : Option UnixTimestamp) (vote : VoteTransaction) :
    (vote.setTimestamp timestamp).slots = vote.slots := by
  cases vote <;> rfl

end VoteTransaction

/-- The local tower of `consensus.rs`, with the fields its voting path reads and writes. -/
structure Tower where
  voteState : VoteState
  lastVote : VoteTransaction
  lastTimestamp : BlockTimestamp
  deriving Repr

namespace Tower

/-- `Tower::root`: the `unwrap` of the root slot, `none` being the panic. -/
def root (t : Tower) : Option Slot := t.voteState.rootSlot

/-- `Tower::last_voted_slot`: the last slot of the vote sent last. -/
def lastVotedSlot (t : Tower) : Option Slot := t.lastVote.slots.getLast?

/-- `Tower::maybe_timestamp`, with `now` the wall clock it reads. -/
def maybeTimestamp (t : Tower) (currentSlot : Slot) (now : UnixTimestamp) : Option UnixTimestamp × Tower :=
  if t.lastTimestamp.slot < currentSlot ∨ (t.lastTimestamp.slot = 0 ∧ currentSlot = t.lastTimestamp.slot) then
    if t.lastTimestamp.timestamp ≤ now then (some now, { t with lastTimestamp := ⟨currentSlot, now⟩ })
    else (none, t)
  else (none, t)

def updateLastVoteFromVoteState (t : Tower) (voteHash : Hash) (enableTowerSyncIx : Bool) (blockId : Hash)
    (now : UnixTimestamp) : Tower :=
  let lockouts := t.voteState.votes.map (·.lockout)
  let newVote : VoteTransaction :=
    if enableTowerSyncIx then .towerSync ⟨lockouts, t.voteState.rootSlot, voteHash, none, blockId⟩
    else .voteStateUpdate ⟨lockouts, t.voteState.rootSlot, voteHash, none⟩
  -- the timestamp is taken for the last slot of the vote sent before, read before it is replaced
  let stamped := t.maybeTimestamp (t.lastVotedSlot.getD 0) now
  { stamped.2 with lastVote := newVote.setTimestamp stamped.1 }

/-- Returns the new root, if the vote made one, and the tower after the vote. `none` is a panic: a
tower without a root, or a vote the vote program refuses. -/
def recordBankVoteAndUpdateLockouts (t : Tower) (voteSlot : Slot) (voteHash : Hash) (enableTowerSyncIx : Bool)
    (blockId : Hash) (now : UnixTimestamp) : Option (Option Slot × Tower) :=
  match t.root with
  | none => none
  | some oldRoot =>
    match processVoteUnchecked t.voteState ⟨[voteSlot], voteHash, none⟩ with
    | .error _ => none
    | .ok voteState =>
      let voted := ({ t with voteState } : Tower).updateLastVoteFromVoteState voteHash enableTowerSyncIx blockId now
      match voted.root with
      | none => none
      | some newRoot => some (if oldRoot ≠ newRoot then some newRoot else none, voted)

def recordVote (t : Tower) (slot : Slot) (hash : Hash) (now : UnixTimestamp) : Option (Option Slot × Tower) :=
  t.recordBankVoteAndUpdateLockouts slot hash true 0 now

/-- A slot is recent when it is newer than the last vote, or than the root when there is no vote. -/
def isRecent (t : Tower) (slot : Slot) : Bool :=
  match t.voteState.lastVotedSlot with
  | some lastVotedSlot => !(slot ≤ lastVotedSlot)
  | none =>
    match t.voteState.rootSlot with
    | some root => !(slot ≤ root)
    | none => true

/-- `Tower::is_locked_out`: simulates a vote on `slot` and looks for a surviving vote off its ancestors.
`none` is the failed assertion on the simulated root. -/
def isLockedOut (t : Tower) (slot : Slot) (ancestors : Finset Slot) : Option Bool :=
  if !t.isRecent slot then some true
  else
    let voteState := processSlotVoteUnchecked t.voteState slot
    if voteState.votes.any (fun vote => slot ≠ vote.slot && vote.slot ∉ ancestors) then some true
    else
      match voteState.rootSlot with
      | some rootSlot => if slot ≠ rootSlot ∧ rootSlot ∉ ancestors then none else some false
      | none => some false

@[simp] theorem maybeTimestamp_voteState (t : Tower) (currentSlot : Slot) (now : UnixTimestamp) :
    (t.maybeTimestamp currentSlot now).2.voteState = t.voteState := by
  unfold maybeTimestamp
  split_ifs <;> rfl

@[simp] theorem updateLastVoteFromVoteState_voteState (t : Tower) (voteHash : Hash) (enableTowerSyncIx : Bool)
    (blockId : Hash) (now : UnixTimestamp) :
    (t.updateLastVoteFromVoteState voteHash enableTowerSyncIx blockId now).voteState = t.voteState := by
  simp [updateLastVoteFromVoteState]

theorem updateLastVoteFromVoteState_slots (t : Tower) (voteHash : Hash) (enableTowerSyncIx : Bool)
    (blockId : Hash) (now : UnixTimestamp) :
    (t.updateLastVoteFromVoteState voteHash enableTowerSyncIx blockId now).lastVote.slots =
      t.voteState.votes.map LandedVote.slot := by
  simp only [updateLastVoteFromVoteState, VoteTransaction.slots_setTimestamp]
  cases enableTowerSyncIx <;> simp [VoteTransaction.slots]

end Tower

end Consensus
