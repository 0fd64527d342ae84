import Mathlib
import Agave.Vote.Program
import Agave.Vote.WellFormed

namespace VoteProgram

open VoteState

theorem processVoteUnfiltered_ok {vs vs' : VoteState} {voteSlots : List Slot} {vote : Vote}
    {slotHashes : List (Slot × Hash)} {epoch : Epoch} {currentSlot : Slot}
    (ok : processVoteUnfiltered vs voteSlots vote slotHashes epoch currentSlot = .ok vs') :
    checkSlotsAreValid vs voteSlots vote.hash slotHashes = .ok () ∧
      vs' = voteSlots.foldl (fun vs slot => vs.processNextVoteSlot slot epoch currentSlot) vs := by
  unfold processVoteUnfiltered at ok
  cases check : checkSlotsAreValid vs voteSlots vote.hash slotHashes with
  | error e =>
    rw [check] at ok
    cases ok
  | ok u =>
    rw [check] at ok
    exact ⟨rfl, (Except.ok.inj ok).symm⟩

theorem processVote_ok {vs vs' : VoteState} {vote : Vote} {slotHashes : List (Slot × Hash)} {epoch : Epoch}
    {currentSlot : Slot} (ok : processVote vs vote slotHashes epoch currentSlot = .ok vs') :
    ∃ voteSlots, processVoteUnfiltered vs voteSlots vote slotHashes epoch currentSlot = .ok vs' := by
  unfold processVote at ok
  dsimp only at ok
  split_ifs at ok
  exact ⟨_, ok⟩

theorem checkProposedVote_ok {newRoot : Option Slot} {previous : Option LandedVote} {vote : LandedVote}
    (ok : checkProposedVote newRoot previous vote = .ok ()) :
    1 ≤ vote.confirmationCount ∧ vote.confirmationCount ≤ maxLockoutHistory ∧
      (∀ root, newRoot = some root → root ≠ 0 → root < vote.slot) ∧ (∀ p ∈ previous, Consecutive p vote) := by
  unfold checkProposedVote at ok
  split_ifs at ok with zero large small
  simp only [not_lt] at large
  have above : ∀ root, newRoot = some root → root ≠ 0 → root < vote.slot := by
    intro root isRoot nonzero
    subst isRoot
    simp only [Option.any_some, decide_eq_true_eq, not_and] at small
    exact Nat.lt_of_not_le fun low => small low nonzero
  refine ⟨Nat.one_le_iff_ne_zero.mpr zero, large, above, ?_⟩
  intro p isPrevious
  cases isPrevious
  simp only at ok
  split_ifs at ok with order counted expired
  exact ⟨Nat.lt_of_not_le order, Nat.lt_of_not_le counted, Nat.le_of_not_lt expired⟩

theorem checkProposedVotes_ok {newRoot : Option Slot} :
    ∀ {previous : Option LandedVote} {votes : List LandedVote},
      checkProposedVotes newRoot previous votes = .ok () →
      votes.IsChain Consecutive ∧
        (∀ v ∈ votes, 1 ≤ v.confirmationCount ∧ v.confirmationCount ≤ maxLockoutHistory) ∧
        (∀ root, newRoot = some root → root ≠ 0 → ∀ v ∈ votes, root < v.slot) ∧
        (∀ p ∈ previous, ∀ v ∈ votes.head?, Consecutive p v)
  | _, [], _ => by simp
  | previous, vote :: rest, ok => by
    simp only [checkProposedVotes] at ok
    cases first : checkProposedVote newRoot previous vote with
    | error e =>
      rw [first] at ok
      cases ok
    | ok u =>
      rw [first] at ok
      obtain ⟨chain, counts, above, link⟩ := checkProposedVotes_ok ok
      obtain ⟨lowest, largest, voteAbove, voteLink⟩ := checkProposedVote_ok first
      refine ⟨?_, ?_, ?_, ?_⟩
      · cases rest with
        | nil => exact List.isChain_singleton vote
        | cons next rest' => exact List.isChain_cons_cons.mpr ⟨link vote rfl next rfl, chain⟩
      · intro v mem
        rcases List.mem_cons.mp mem with rfl | later
        · exact ⟨lowest, largest⟩
        · exact counts v later
      · intro root isRoot nonzero v mem
        rcases List.mem_cons.mp mem with rfl | later
        · exact voteAbove root isRoot nonzero
        · exact above root isRoot nonzero v later
      · intro p isPrevious v isHead
        cases isHead
        exact voteLink p isPrevious

theorem mergeVotes_nil (newVotes : List LandedVote) : mergeVotes [] newVotes = .ok newVotes := by
  rw [mergeVotes]

theorem mergeVotes_lockouts :
    ∀ {currents news merged : List LandedVote}, mergeVotes currents news = .ok merged →
      merged.map LandedVote.lockout = news.map LandedVote.lockout
  | [], news, merged, ok => by
    simp only [mergeVotes] at ok
    cases ok
    rfl
  | _ :: _, [], merged, ok => by
    simp only [mergeVotes] at ok
    cases ok
    rfl
  | current :: currents, new :: news, merged, ok => by
    simp only [mergeVotes] at ok
    split at ok
    · split_ifs at ok
      exact mergeVotes_lockouts ok
    · split_ifs at ok
      cases rest : mergeVotes currents news with
      | error e =>
        rw [rest] at ok
        cases ok
      | ok tail =>
        rw [rest] at ok
        cases ok
        simp [mergeVotes_lockouts rest]
    · cases rest : mergeVotes (current :: currents) news with
      | error e =>
        rw [rest] at ok
        cases ok
      | ok tail =>
        rw [rest] at ok
        cases ok
        simp [mergeVotes_lockouts rest]

theorem validateNewVoteState_ok {vs : VoteState} {newState merged : List LandedVote} {newRoot : Option Slot}
    {earned : Nat} (ok : validateNewVoteState vs newState newRoot = .ok (merged, earned)) :
    newState.length ≤ maxLockoutHistory ∧
      (∀ current, vs.rootSlot = some current → ∃ root, newRoot = some root ∧ current ≤ root) ∧
      checkProposedVotes newRoot none newState = .ok () ∧
      mergeVotes (vs.votes.drop (vs.rootedCount newRoot)) newState = .ok merged ∧
      earned = vs.earnedCredits (vs.rootedCount newRoot) := by
  unfold validateNewVoteState at ok
  have fits : newState.length ≤ maxLockoutHistory := by
    by_contra tooMany
    simp [Nat.lt_of_not_le tooMany] at ok
    cases ok
  simp only [Nat.not_lt.mpr fits, if_false] at ok
  have roots : ∀ current, vs.rootSlot = some current → ∃ root, newRoot = some root ∧ current ≤ root := by
    intro current isCurrent
    rcases newRoot with _ | root
    · simp [isCurrent] at ok
      cases ok
    · refine ⟨root, rfl, ?_⟩
      by_contra rollBack
      simp [isCurrent, Nat.lt_of_not_le rollBack] at ok
      cases ok
  have rest : (do
      checkProposedVotes newRoot none newState
      let merged ← mergeVotes (vs.votes.drop (vs.rootedCount newRoot)) newState
      pure (merged, vs.earnedCredits (vs.rootedCount newRoot)) : Except VoteError (List LandedVote × Nat)) =
      .ok (merged, earned) := by
    rcases newRoot with _ | root <;> rcases current : vs.rootSlot with _ | currentRoot
    · simpa [current] using ok
    · obtain ⟨_, isSome, _⟩ := roots currentRoot current
      cases isSome
    · simpa [current] using ok
    · obtain ⟨_, same, below⟩ := roots currentRoot current
      cases same
      simpa [current, Nat.not_lt.mpr below] using ok
  cases checked : checkProposedVotes newRoot none newState with
  | error e =>
    rw [checked] at rest
    cases rest
  | ok u =>
    rw [checked] at rest
    cases mergeResult : mergeVotes (vs.votes.drop (vs.rootedCount newRoot)) newState with
    | error e =>
      simp [mergeResult] at rest
      cases rest
    | ok result =>
      simp only [mergeResult] at rest
      cases rest
      exact ⟨fits, roots, rfl, rfl, rfl⟩

theorem processNewVoteState_ok {vs vs' : VoteState} {newState : List LandedVote} {newRoot : Option Slot}
    {timestamp : Option UnixTimestamp} {epoch : Epoch} {currentSlot : Slot}
    (ok : processNewVoteState vs newState newRoot timestamp epoch currentSlot = some (.ok (), vs')) :
    newState ≠ [] ∧ ∃ merged earned, validateNewVoteState vs newState newRoot = .ok (merged, earned) ∧
      vs'.votes = merged.map (fillLatency currentSlot) ∧ vs'.rootSlot = newRoot := by
  unfold processNewVoteState at ok
  cases last : newState.getLast? with
  | none =>
    rw [last] at ok
    cases ok
  | some top =>
    rw [last] at ok
    refine ⟨fun empty => by simp [empty] at last, ?_⟩
    cases valid : validateNewVoteState vs newState newRoot with
    | error e =>
      rw [valid] at ok
      cases ok
    | ok result =>
      obtain ⟨merged, earned⟩ := result
      rw [valid] at ok
      refine ⟨merged, earned, rfl, ?_⟩
      rcases timestamp with _ | timestamp
      · cases ok
        exact ⟨rfl, rfl⟩
      · dsimp only at ok
        split at ok
        · cases ok
        · cases ok
          exact ⟨rfl, rfl⟩

theorem processNewVoteState_error_stale_timestamp :
    let vs : VoteState := ⟨[], none, [], ⟨5, 100⟩⟩
    processNewVoteState vs [⟨0, ⟨3, 1⟩⟩] (some 1) (some 50) 0 10 =
        some (.error .timestampTooOld, { vs with epochCredits := [(0, 0, 0)] }) ∧
      [(0, 0, 0)] ≠ vs.epochCredits := by
  refine ⟨?_, by decide⟩
  simp only [processNewVoteState, validateNewVoteState, List.drop_nil, mergeVotes_nil]
  rfl

theorem doProcessProposal_ok {vs vs' : VoteState} {slotHashes : List (Slot × Hash)} {epoch : Epoch}
    {slot : Slot} {lockouts : List Lockout} {root : Option Slot} {hash : Hash} {timestamp : Option UnixTimestamp}
    (ok : doProcessProposal vs slotHashes epoch slot lockouts root hash timestamp = some (.ok (), vs')) :
    ∃ filtered newRoot,
      checkAndFilterProposedVoteState vs lockouts root hash slotHashes = some (.ok (filtered, newRoot)) ∧
        processNewVoteState vs (filtered.map LandedVote.ofLockout) newRoot timestamp epoch slot =
          some (.ok (), vs') := by
  unfold doProcessProposal at ok
  split at ok
  · cases ok
  · cases ok
  · exact ⟨_, _, by assumption, ok⟩

theorem Consecutive.of_lockouts {older newer older' newer' : LandedVote} (pair : Consecutive older newer)
    (sameOlder : older'.lockout = older.lockout) (sameNewer : newer'.lockout = newer.lockout) :
    Consecutive older' newer' where
  slot_lt := by simpa [sameOlder, sameNewer] using pair.slot_lt
  count_lt := by simpa [sameOlder, sameNewer] using pair.count_lt
  locked := by simpa [sameOlder, sameNewer] using pair.locked

theorem isChain_of_lockouts {votes votes' : List LandedVote}
    (same : votes'.map LandedVote.lockout = votes.map LandedVote.lockout) (chain : votes.IsChain Consecutive) :
    votes'.IsChain Consecutive := by
  have length : votes'.length = votes.length := by simpa using congrArg List.length same
  rw [List.isChain_iff_getElem] at chain ⊢
  intro i bound
  have lockoutAt : ∀ k (inside : k < votes'.length) (inside₀ : k < votes.length),
      votes'[k].lockout = votes[k].lockout := by
    intro k inside _
    have atK := List.getElem_of_eq same (by simpa using inside)
    simpa using atK
  exact (chain i (by omega)).of_lockouts (lockoutAt i (by omega) (by omega)) (lockoutAt (i + 1) bound (by omega))

@[simp] theorem fillLatency_lockout (currentSlot : Slot) (vote : LandedVote) :
    (fillLatency currentSlot vote).lockout = vote.lockout := by
  unfold fillLatency
  split <;> rfl

theorem processNewVoteState_lockouts {vs vs' : VoteState} {newState : List LandedVote}
    {newRoot : Option Slot} {timestamp : Option UnixTimestamp} {epoch : Epoch} {currentSlot : Slot}
    (ok : processNewVoteState vs newState newRoot timestamp epoch currentSlot = some (.ok (), vs')) :
    vs'.votes.map LandedVote.lockout = newState.map LandedVote.lockout := by
  obtain ⟨-, merged, earned, valid, votes, -⟩ := processNewVoteState_ok ok
  obtain ⟨-, -, -, mergeOk, -⟩ := validateNewVoteState_ok valid
  rw [votes, List.map_map, ← mergeVotes_lockouts mergeOk]
  simp [Function.comp_def]

theorem processNewVoteState_wellFormed {vs vs' : VoteState} {newState : List LandedVote}
    {newRoot : Option Slot} {timestamp : Option UnixTimestamp} {epoch : Epoch} {currentSlot : Slot}
    (ok : processNewVoteState vs newState newRoot timestamp epoch currentSlot = some (.ok (), vs')) :
    vs'.WellFormed ∧ vs'.RootBacked := by
  obtain ⟨nonempty, merged, earned, valid, -, root⟩ := processNewVoteState_ok ok
  obtain ⟨fits, -, checked, -, -⟩ := validateNewVoteState_ok valid
  obtain ⟨chain, counts, above, -⟩ := checkProposedVotes_ok checked
  have same := processNewVoteState_lockouts ok
  have mem : ∀ v ∈ vs'.votes, ∃ u ∈ newState, u.lockout = v.lockout := by
    intro v inVotes
    have image : v.lockout ∈ newState.map LandedVote.lockout := same ▸ List.mem_map_of_mem inVotes
    simpa using image
  have length : vs'.votes.length = newState.length := by simpa using congrArg List.length same
  refine ⟨⟨length ▸ fits, isChain_of_lockouts same chain, ?_, ?_⟩, ?_⟩
  · intro v inVotes
    obtain ⟨u, inState, sameLockout⟩ := mem v inVotes
    simpa [sameLockout] using counts u inState
  · intro r isRoot nonzero v inVotes
    obtain ⟨u, inState, sameLockout⟩ := mem v inVotes
    simpa [sameLockout] using above r (root ▸ isRoot) nonzero u inState
  · intro r _ _ empty
    exact nonempty (List.eq_nil_of_length_eq_zero (length ▸ (congrArg List.length empty)))

end VoteProgram
