import Mathlib
import Agave.Vote.State

namespace VoteProgram

open MachineInt

structure Vote where
  slots : List Slot
  hash : Hash
  timestamp : Option UnixTimestamp
  deriving DecidableEq, Repr

structure VoteStateUpdate where
  lockouts : List Lockout
  root : Option Slot
  hash : Hash
  timestamp : Option UnixTimestamp
  deriving DecidableEq, Repr

structure TowerSync where
  lockouts : List Lockout
  root : Option Slot
  hash : Hash
  timestamp : Option UnixTimestamp
  blockId : Hash
  deriving DecidableEq, Repr

/-- The scan of `check_slots_are_valid`: `i` walks the vote slots from the oldest, `j` the slot
hashes from the oldest, which is the end of the list. -/
def checkSlotsScan (lastVotedSlot : Option Slot) (voteSlots : List Slot) (slotHashes : List (Slot × Hash))
    (i j : Nat) (bound : j ≤ slotHashes.length) : Nat × Nat :=
  if inside : i < voteSlots.length ∧ 0 < j then
    have older : j - 1 < slotHashes.length := by omega
    if lastVotedSlot.any (voteSlots[i] ≤ ·) then
      checkSlotsScan lastVotedSlot voteSlots slotHashes (i + 1) j bound
    else if voteSlots[i] ≠ slotHashes[j - 1].1 then
      checkSlotsScan lastVotedSlot voteSlots slotHashes i (j - 1) (by omega)
    else checkSlotsScan lastVotedSlot voteSlots slotHashes (i + 1) (j - 1) (by omega)
  else (i, j)
termination_by voteSlots.length - i + j

section CheckSlotsScan

variable {lastVotedSlot : Option Slot} {voteSlots : List Slot} {slotHashes : List (Slot × Hash)}

theorem checkSlotsScan_done {i j : Nat} {bound : j ≤ slotHashes.length} (done : ¬(i < voteSlots.length ∧ 0 < j)) :
    checkSlotsScan lastVotedSlot voteSlots slotHashes i j bound = (i, j) := by
  rw [checkSlotsScan, dif_neg done]

theorem checkSlotsScan_old {i j : Nat} {bound : j ≤ slotHashes.length} (inside : i < voteSlots.length ∧ 0 < j)
    (old : lastVotedSlot.any (voteSlots[i] ≤ ·) = true) :
    checkSlotsScan lastVotedSlot voteSlots slotHashes i j bound =
      checkSlotsScan lastVotedSlot voteSlots slotHashes (i + 1) j bound := by
  rw [checkSlotsScan, dif_pos inside, if_pos old]

theorem checkSlotsScan_skip {i j : Nat} {bound : j ≤ slotHashes.length} (inside : i < voteSlots.length ∧ 0 < j)
    (older : j - 1 < slotHashes.length) (new : ¬lastVotedSlot.any (voteSlots[i] ≤ ·) = true)
    (differs : voteSlots[i] ≠ slotHashes[j - 1].1) :
    checkSlotsScan lastVotedSlot voteSlots slotHashes i j bound =
      checkSlotsScan lastVotedSlot voteSlots slotHashes i (j - 1) (by omega) := by
  rw [checkSlotsScan, dif_pos inside, if_neg new, if_pos differs]

theorem checkSlotsScan_found {i j : Nat} {bound : j ≤ slotHashes.length} (inside : i < voteSlots.length ∧ 0 < j)
    (older : j - 1 < slotHashes.length) (new : ¬lastVotedSlot.any (voteSlots[i] ≤ ·) = true)
    (same : voteSlots[i] = slotHashes[j - 1].1) :
    checkSlotsScan lastVotedSlot voteSlots slotHashes i j bound =
      checkSlotsScan lastVotedSlot voteSlots slotHashes (i + 1) (j - 1) (by omega) := by
  rw [checkSlotsScan, dif_pos inside, if_neg new, if_neg (not_not.2 same)]

end CheckSlotsScan

def checkSlotsAreValid (vs : VoteState) (voteSlots : List Slot) (voteHash : Hash)
    (slotHashes : List (Slot × Hash)) : Except VoteError Unit :=
  let (i, j) := checkSlotsScan vs.lastVotedSlot voteSlots slotHashes 0 slotHashes.length le_rfl
  if j = slotHashes.length then .error .voteTooOld
  else if i ≠ voteSlots.length then .error .slotsMismatch
  else if slotHashes[j]?.map Prod.snd ≠ some voteHash then .error .slotHashMismatch
  else .ok ()

def processVoteUnfiltered (vs : VoteState) (voteSlots : List Slot) (vote : Vote)
    (slotHashes : List (Slot × Hash)) (epoch : Epoch) (currentSlot : Slot) : Except VoteError VoteState := do
  checkSlotsAreValid vs voteSlots vote.hash slotHashes
  pure (voteSlots.foldl (fun vs slot => vs.processNextVoteSlot slot epoch currentSlot) vs)

def processVote (vs : VoteState) (vote : Vote) (slotHashes : List (Slot × Hash)) (epoch : Epoch)
    (currentSlot : Slot) : Except VoteError VoteState :=
  if vote.slots.isEmpty then .error .emptySlots
  else
    let earliestSlotInHistory := (slotHashes.getLast?.map Prod.fst).getD 0
    let voteSlots := vote.slots.filter (earliestSlotInHistory ≤ ·)
    if voteSlots.isEmpty then .error .votesTooOldAllFiltered
    else processVoteUnfiltered vs voteSlots vote slotHashes epoch currentSlot

def processVoteUnchecked (vs : VoteState) (vote : Vote) : Except VoteError VoteState :=
  if vote.slots.isEmpty then .error .emptySlots
  else
    let slotHashes := vote.slots.reverse.map fun slot => (slot, vote.hash)
    processVoteUnfiltered vs vote.slots vote slotHashes vs.currentEpoch 0

/-- The result of `process_vote_unchecked` is dropped: on an error the state is the one before. -/
def processSlotVoteUnchecked (vs : VoteState) (slot : Slot) : VoteState :=
  match processVoteUnchecked vs ⟨[slot], 0, none⟩ with
  | .ok vs' => vs'
  | .error _ => vs

/-- The proposed root when it is older than the slot hashes: the newest vote at or below it, else
the current root. -/
def overwriteOldRoot (vs : VoteState) (proposedRoot : Option Slot) (earliestSlotHashInHistory : Slot) :
    Option Slot :=
  match proposedRoot with
  | some root =>
    if root < earliestSlotHashInHistory then
      match vs.votes.reverse.find? (·.slot ≤ root) with
      | some vote => some vote.slot
      | none => vs.rootSlot
    else proposedRoot
  | none => none

theorem current_lt_length {lockouts : List Lockout} {index slotHashesIndex : Nat}
    (inside : index < lockouts.length ∧ 0 < slotHashesIndex) : index < lockouts.length :=
  inside.1

theorem previous_lt_length {lockouts : List Lockout} {index slotHashesIndex : Nat}
    (inside : index < lockouts.length ∧ 0 < slotHashesIndex) : index - 1 < lockouts.length := by
  omega

theorem older_lt_length {lockouts : List Lockout} {slotHashes : List (Slot × Hash)} {index slotHashesIndex : Nat}
    (bound : slotHashesIndex ≤ slotHashes.length) (inside : index < lockouts.length ∧ 0 < slotHashesIndex) :
    slotHashesIndex - 1 < slotHashes.length := by
  omega

theorem older_le_length {slotHashes : List (Slot × Hash)} {slotHashesIndex : Nat}
    (older : slotHashesIndex - 1 < slotHashes.length) : slotHashesIndex - 1 ≤ slotHashes.length :=
  Nat.le_of_lt older

/-- The loop of `check_and_filter_proposed_vote_state`. It checks the proposed root and then each
proposed slot against the slot hashes, oldest first, and collects the indices of votes to filter.
`none` is a failed assertion. -/
def filterScan (vs : VoteState) (lockouts : List Lockout) (slotHashes : List (Slot × Hash))
    (earliestSlotHashInHistory : Slot) (rootToCheck : Option Slot) (index slotHashesIndex : Nat)
    (toFilter : List Nat) (bound : slotHashesIndex ≤ slotHashes.length) :
    Option (Except VoteError (Nat × Nat × List Nat)) :=
  if inside : index < lockouts.length ∧ 0 < slotHashesIndex then
    -- the bounds are lemmas applied to variables, so that the body and the equation lemmas
    -- generated from it hold the same terms for them
    have previous : index - 1 < lockouts.length := previous_lt_length inside
    have older : slotHashesIndex - 1 < slotHashes.length := older_lt_length bound inside
    let proposedVoteSlot := rootToCheck.getD (getElem lockouts index (current_lt_length inside)).slot
    if rootToCheck.isNone ∧ 0 < index ∧ proposedVoteSlot ≤ lockouts[index - 1].slot then
      some (.error .slotsNotOrdered)
    else
      let ancestorSlot := slotHashes[slotHashesIndex - 1].1
      match compare proposedVoteSlot ancestorSlot with
      | .lt =>
        if slotHashesIndex = slotHashes.length then
          if earliestSlotHashInHistory ≤ proposedVoteSlot then some (.error .assertionFailed)
          else
            let toFilter :=
              if !vs.containsSlot proposedVoteSlot && rootToCheck.isNone then toFilter ++ [index]
              else toFilter
            match rootToCheck with
            | some newProposedRoot =>
              if newProposedRoot ≠ proposedVoteSlot then none
              else if earliestSlotHashInHistory ≤ newProposedRoot then some (.error .assertionFailed)
              else filterScan vs lockouts slotHashes earliestSlotHashInHistory none index slotHashesIndex
                toFilter bound
            | none =>
              filterScan vs lockouts slotHashes earliestSlotHashInHistory none (index + 1) slotHashesIndex
                toFilter bound
        else if rootToCheck.isSome then some (.error .rootOnDifferentFork)
        else some (.error .slotsMismatch)
      | .gt =>
        filterScan vs lockouts slotHashes earliestSlotHashInHistory rootToCheck index (slotHashesIndex - 1)
          toFilter (older_le_length older)
      | .eq =>
        match rootToCheck with
        | some _ =>
          filterScan vs lockouts slotHashes earliestSlotHashInHistory none index slotHashesIndex toFilter bound
        | none =>
          filterScan vs lockouts slotHashes earliestSlotHashInHistory none (index + 1) (slotHashesIndex - 1)
            toFilter (older_le_length older)
  else some (.ok (index, slotHashesIndex, toFilter))
termination_by (lockouts.length - index + slotHashesIndex, if rootToCheck.isSome then 1 else 0)

theorem filterScan_of_done {vs : VoteState} {lockouts : List Lockout} {slotHashes : List (Slot × Hash)}
    {earliest : Slot} {rootToCheck : Option Slot} {index slotHashesIndex : Nat} {toFilter : List Nat}
    {bound : slotHashesIndex ≤ slotHashes.length} (done : ¬(index < lockouts.length ∧ 0 < slotHashesIndex)) :
    filterScan vs lockouts slotHashes earliest rootToCheck index slotHashesIndex toFilter bound =
      some (.ok (index, slotHashesIndex, toFilter)) := by
  rw [filterScan, dif_neg done]

/-- The `retain` pass: drops the lockouts at the collected indices, with `toFilter` consumed in
order as the cursor of the source does. -/
def retainUnfiltered : List Lockout → Nat → List Nat → List Lockout
  | [], _, _ => []
  | lockout :: rest, index, [] => lockout :: retainUnfiltered rest (index + 1) []
  | lockout :: rest, index, next :: toFilter =>
    if index = next then retainUnfiltered rest (index + 1) toFilter
    else lockout :: retainUnfiltered rest (index + 1) (next :: toFilter)

/-- Returns the filtered proposed lockouts and the proposed root, overwritten when too old.
`none` is a panic. -/
def checkAndFilterProposedVoteState (vs : VoteState) (proposedLockouts : List Lockout)
    (proposedRoot : Option Slot) (proposedHash : Hash) (slotHashes : List (Slot × Hash)) :
    Option (Except VoteError (List Lockout × Option Slot)) :=
  match proposedLockouts.getLast? with
  | none => some (.error .emptySlots)
  | some lastProposed =>
    if vs.votes.getLast?.any (lastProposed.slot ≤ ·.slot) then some (.error .voteTooOld)
    else
      match slotHashes.getLast? with
      | none => some (.error .slotsMismatch)
      | some (earliestSlotHashInHistory, _) =>
        if lastProposed.slot < earliestSlotHashInHistory then some (.error .voteTooOld)
        else
          let proposedRoot := overwriteOldRoot vs proposedRoot earliestSlotHashInHistory
          match filterScan vs proposedLockouts slotHashes earliestSlotHashInHistory proposedRoot 0
              slotHashes.length [] le_rfl with
          | none => none
          | some (.error e) => some (.error e)
          | some (.ok (index, slotHashesIndex, toFilter)) =>
            if index ≠ proposedLockouts.length then some (.error .slotsMismatch)
            else
              match slotHashes[slotHashesIndex]? with
              | none => none
              | some (slot, hash) =>
                if lastProposed.slot ≠ slot then none
                else if hash ≠ proposedHash then some (.error .slotHashMismatch)
                else some (.ok (retainUnfiltered proposedLockouts 0 toFilter, proposedRoot))

/-- The checks of `process_new_vote_state` on each proposed vote, given the one before it. -/
def checkProposedVote (newRoot : Option Slot) (previous : Option LandedVote) (vote : LandedVote) :
    Except VoteError Unit :=
  if vote.confirmationCount = 0 then .error .zeroConfirmations
  else if maxLockoutHistory < vote.confirmationCount then .error .confirmationTooLarge
  else if newRoot.any fun root => vote.slot ≤ root ∧ root ≠ 0 then .error .slotSmallerThanRoot
  else
    match previous with
    | none => .ok ()
    | some previous =>
      if vote.slot ≤ previous.slot then .error .slotsNotOrdered
      else if previous.confirmationCount ≤ vote.confirmationCount then .error .confirmationsNotOrdered
      else if previous.lockout.lastLockedOutSlot < vote.slot then .error .newVoteStateLockoutMismatch
      else .ok ()

def checkProposedVotes (newRoot : Option Slot) : Option LandedVote → List LandedVote → Except VoteError Unit
  | _, [] => .ok ()
  | previous, vote :: rest => do
    checkProposedVote newRoot previous vote
    checkProposedVotes newRoot (some vote) rest

namespace VoteState

/-- The number of current votes at or below the new root, which the root-finding loop skips. -/
def rootedCount (vs : VoteState) (newRoot : Option Slot) : Nat :=
  match newRoot with
  | some root => (vs.votes.takeWhile (·.slot ≤ root)).length
  | none => 0

/-- The credits earned by the votes that the new root finalizes. -/
def earnedCredits (vs : VoteState) (rooted : Nat) : Nat :=
  ((List.range rooted).map vs.creditsForVoteAtIndex).sum

end VoteState

/-- The loop of `process_new_vote_state` over the current votes above the new root and the proposed
votes: every current vote missing from the proposal must have expired before the next proposed
slot. Returns the proposal with the latencies of shared slots copied in. -/
def mergeVotes : List LandedVote → List LandedVote → Except VoteError (List LandedVote)
  | [], newVotes => .ok newVotes
  | _ :: _, [] => .ok []
  | current :: currents, new :: news =>
    match compare current.slot new.slot with
    | .lt =>
      if new.slot ≤ current.lockout.lastLockedOutSlot then .error .lockoutConflict
      else mergeVotes currents (new :: news)
    | .eq =>
      if new.confirmationCount < current.confirmationCount then .error .confirmationRollBack
      else (mergeVotes currents news).map ({ new with latency := current.latency } :: ·)
    | .gt => (mergeVotes (current :: currents) news).map (new :: ·)

/-- Everything `process_new_vote_state` checks before it writes: returns the merged proposal and the
credits earned. -/
def validateNewVoteState (vs : VoteState) (newState : List LandedVote) (newRoot : Option Slot) :
    Except VoteError (List LandedVote × Nat) := do
  if maxLockoutHistory < newState.length then throw .tooManyVotes
  match newRoot, vs.rootSlot with
  | some newRoot, some currentRoot => if newRoot < currentRoot then throw .rootRollBack
  | none, some _ => throw .rootRollBack
  | _, _ => pure ()
  checkProposedVotes newRoot none newState
  let rooted := vs.rootedCount newRoot
  let merged ← mergeVotes (vs.votes.drop rooted) newState
  pure (merged, vs.earnedCredits rooted)

def fillLatency (currentSlot : Slot) (vote : LandedVote) : LandedVote :=
  if vote.latency = 0 then { vote with latency := VoteState.computeVoteLatency vote.slot currentSlot } else vote

/-- `process_new_vote_state` on `&mut VoteState`: the outcome and the state after the call, which an
error from `process_timestamp` leaves with its credits already incremented. `none` is a panic. -/
def processNewVoteState (vs : VoteState) (newState : List LandedVote) (newRoot : Option Slot)
    (timestamp : Option UnixTimestamp) (epoch : Epoch) (currentSlot : Slot) :
    Option (Except VoteError Unit × VoteState) :=
  match newState.getLast? with
  | none => none
  | some last =>
    match validateNewVoteState vs newState newRoot with
    | .error e => some (.error e, vs)
    | .ok (merged, earned) =>
      let votes := merged.map (fillLatency currentSlot)
      let credited := if vs.rootSlot ≠ newRoot then vs.incrementCredits epoch earned else vs
      match timestamp with
      | none => some (.ok (), { credited with rootSlot := newRoot, votes := votes })
      | some timestamp =>
        match credited.processTimestamp last.slot timestamp with
        | .error e => some (.error e, credited)
        | .ok stamped => some (.ok (), { stamped with rootSlot := newRoot, votes := votes })

/-- `do_process_vote_state_update` and `do_process_tower_sync` differ only in the proposal type. -/
def doProcessProposal (vs : VoteState) (slotHashes : List (Slot × Hash)) (epoch : Epoch) (slot : Slot)
    (lockouts : List Lockout) (root : Option Slot) (hash : Hash) (timestamp : Option UnixTimestamp) :
    Option (Except VoteError Unit × VoteState) :=
  match checkAndFilterProposedVoteState vs lockouts root hash slotHashes with
  | none => none
  | some (.error e) => some (.error e, vs)
  | some (.ok (lockouts, root)) =>
    processNewVoteState vs (lockouts.map LandedVote.ofLockout) root timestamp epoch slot

def doProcessVoteStateUpdate (vs : VoteState) (slotHashes : List (Slot × Hash)) (epoch : Epoch) (slot : Slot)
    (voteStateUpdate : VoteStateUpdate) : Option (Except VoteError Unit × VoteState) :=
  doProcessProposal vs slotHashes epoch slot voteStateUpdate.lockouts voteStateUpdate.root voteStateUpdate.hash
    voteStateUpdate.timestamp

def doProcessTowerSync (vs : VoteState) (slotHashes : List (Slot × Hash)) (epoch : Epoch) (slot : Slot)
    (towerSync : TowerSync) : Option (Except VoteError Unit × VoteState) :=
  doProcessProposal vs slotHashes epoch slot towerSync.lockouts towerSync.root towerSync.hash towerSync.timestamp

end VoteProgram
