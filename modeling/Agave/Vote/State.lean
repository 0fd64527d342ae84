import Mathlib
import Agave.Vote.Lockout

namespace VoteProgram

open MachineInt

/-- The fields of `VoteState` that the vote-processing functions read or write. -/
structure VoteState where
  votes : List LandedVote
  rootSlot : Option Slot
  epochCredits : List (Epoch × Nat × Nat)
  lastTimestamp : BlockTimestamp
  deriving DecidableEq, Repr

instance : Inhabited VoteState := ⟨⟨[], none, [], ⟨0, 0⟩⟩⟩

namespace VoteState

def lastLockout (vs : VoteState) : Option Lockout := vs.votes.getLast?.map (·.lockout)

def lastVotedSlot (vs : VoteState) : Option Slot := vs.lastLockout.map (·.slot)

/-- Whether `candidateSlot` is found by the binary search over the vote slots. -/
def binarySearchSlot (votes : List LandedVote) (candidateSlot : Slot) (left right : Nat) : Bool :=
  if left < right then
    let mid := left + (right - left) / 2
    match votes[mid]? with
    | none => false
    | some vote =>
      match compare vote.slot candidateSlot with
      | .lt => binarySearchSlot votes candidateSlot (mid + 1) right
      | .gt => binarySearchSlot votes candidateSlot left mid
      | .eq => true
  else false
termination_by right - left

def containsSlot (vs : VoteState) (candidateSlot : Slot) : Bool :=
  binarySearchSlot vs.votes candidateSlot 0 vs.votes.length

def computeVoteLatency (votedForSlot currentSlot : Slot) : Nat := min (currentSlot - votedForSlot) 255

/-- The credits to award for the vote at `index`, from its latency. -/
def creditsForVoteAtIndex (vs : VoteState) (index : Nat) : Nat :=
  let latency := (vs.votes[index]?.map (·.latency)).getD 0
  if latency = 0 then 1
  else if latency ≤ voteCreditsGraceSlots then voteCreditsMaximumPerSlot
  else
    let diff := latency - voteCreditsGraceSlots
    if voteCreditsMaximumPerSlot ≤ diff then 1 else voteCreditsMaximumPerSlot - diff

/-- Adds `credits` to the credits of the last entry of the history. -/
def addToLastCredits (history : List (Epoch × Nat × Nat)) (credits : Nat) : List (Epoch × Nat × Nat) :=
  history.modifyLast fun entry => (entry.1, saturatingAdd 64 entry.2.1 credits, entry.2.2)

def incrementCredits (vs : VoteState) (epoch : Epoch) (credits : Nat) : VoteState :=
  let history :=
    match vs.epochCredits.getLast? with
    | none => [(epoch, 0, 0)]
    | some (lastEpoch, lastCredits, prevCredits) =>
      if epoch ≠ lastEpoch then
        let moved :=
          if lastCredits ≠ prevCredits then vs.epochCredits ++ [(epoch, lastCredits, lastCredits)]
          else vs.epochCredits.dropLast ++ [(epoch, lastCredits, prevCredits)]
        if maxEpochCreditsHistory < moved.length then moved.tail else moved
      else vs.epochCredits
  { vs with epochCredits := addToLastCredits history credits }

/-- Pops the votes at the back that are no longer locked out at `nextVoteSlot`. -/
def popExpiredVotes (vs : VoteState) (nextVoteSlot : Slot) : VoteState :=
  { vs with votes := vs.votes.rdropWhile fun vote => !vote.lockout.isLockedOutAtSlot nextVoteSlot }

/-- The body of the loop of `double_lockouts` at index `i` of a tower of `stackDepth` votes. -/
def doubleLockout (stackDepth i : Nat) (vote : LandedVote) : LandedVote :=
  if i + vote.confirmationCount < stackDepth then
    { vote with lockout := vote.lockout.increaseConfirmationCount 1 }
  else vote

def doubleLockouts (vs : VoteState) : VoteState :=
  { vs with votes := vs.votes.mapIdx (doubleLockout vs.votes.length) }

/-- The oldest vote moves into the root once the tower is full. -/
def popFullTower (vs : VoteState) (epoch : Epoch) : VoteState :=
  if vs.votes.length = maxLockoutHistory then
    let credits := vs.creditsForVoteAtIndex 0
    match vs.votes with
    | oldest :: rest => ({ vs with votes := rest, rootSlot := some oldest.slot }).incrementCredits epoch credits
    | [] => vs
  else vs

def processNextVoteSlot (vs : VoteState) (nextVoteSlot : Slot) (epoch : Epoch) (currentSlot : Slot) :
    VoteState :=
  if vs.lastVotedSlot.any (nextVoteSlot ≤ ·) then vs
  else
    let landedVote : LandedVote := ⟨computeVoteLatency nextVoteSlot currentSlot, Lockout.new nextVoteSlot⟩
    let popped := (vs.popExpiredVotes nextVoteSlot).popFullTower epoch
    ({ popped with votes := popped.votes ++ [landedVote] }).doubleLockouts

def processTimestamp (vs : VoteState) (slot : Slot) (timestamp : UnixTimestamp) :
    Except VoteError VoteState :=
  if slot < vs.lastTimestamp.slot ∨ timestamp < vs.lastTimestamp.timestamp ∨
      (slot = vs.lastTimestamp.slot ∧ (⟨slot, timestamp⟩ : BlockTimestamp) ≠ vs.lastTimestamp ∧
        vs.lastTimestamp.slot ≠ 0) then
    .error .timestampTooOld
  else .ok { vs with lastTimestamp := ⟨slot, timestamp⟩ }

def currentEpoch (vs : VoteState) : Epoch := (vs.epochCredits.getLast?.map (·.1)).getD 0

end VoteState

end VoteProgram
