import Mathlib
import Agave.Consensus.Tower
import Agave.Vote.WellFormed

namespace Consensus

open VoteProgram VoteState

/-- The votes on ancestors of a slot come first: the tower lies on one chain of the fork tree. -/
def VotesOnChain (ancestors : Finset Slot) (votes : List LandedVote) : Prop :=
  ∃ pre post, votes = pre ++ post ∧ (∀ v ∈ pre, v.slot ∈ ancestors) ∧ ∀ v ∈ post, v.slot ∉ ancestors

theorem VotesOnChain.pairwise {ancestors : Finset Slot} {votes : List LandedVote}
    (chain : VotesOnChain ancestors votes) :
    votes.Pairwise fun older newer => newer.slot ∈ ancestors → older.slot ∈ ancestors := by
  obtain ⟨pre, post, split, onChain, offChain⟩ := chain
  rw [split, List.pairwise_append]
  refine ⟨?_, ?_, ?_⟩
  · exact List.pairwise_of_forall_mem_list fun older early _ _ _ => onChain older early
  · exact List.pairwise_of_forall_mem_list fun _ _ newer late onPath => absurd onPath (offChain newer late)
  · exact fun older early _ _ _ => onChain older early

section Simulation

variable {vs : VoteState} {ancestors : Finset Slot} {slot : Slot}

theorem fresh_of_below (below : ∀ v ∈ vs.votes, v.slot < slot) : ¬ vs.lastVotedSlot.any (slot ≤ ·) := by
  rw [lastVotedSlot_eq]
  cases isLast : vs.votes.getLast? with
  | none => simp
  | some last =>
    simpa using below last (List.mem_of_getLast? isLast)

theorem popFullTower_votes_subset (vs : VoteState) (epoch : Epoch) : (vs.popFullTower epoch).votes ⊆ vs.votes := by
  rcases popFullTower_cases vs epoch with ⟨same, -, -⟩ | ⟨oldest, rest, split, -, rested, -⟩
  · rw [same]
    exact List.Subset.refl _
  · rw [rested, split]
    exact List.subset_cons_self oldest rest

theorem survivor_of_vote (fresh : ¬ vs.lastVotedSlot.any (slot ≤ ·)) (epoch : Epoch) (currentSlot : Slot)
    {w : LandedVote} (mem : w ∈ (vs.processNextVoteSlot slot epoch currentSlot).votes) (other : w.slot ≠ slot) :
    ∃ u ∈ ((vs.popExpiredVotes slot).popFullTower epoch).votes, u.slot = w.slot := by
  have image : w.slot ∈ (vs.processNextVoteSlot slot epoch currentSlot).votes.map LandedVote.slot :=
    List.mem_map_of_mem mem
  rw [(processNextVoteSlot_of_fresh fresh epoch currentSlot).1] at image
  rcases List.mem_append.mp image with survivor | new
  · simpa using survivor
  · exact absurd (List.mem_singleton.mp new) other

theorem vote_of_survivor (fresh : ¬ vs.lastVotedSlot.any (slot ≤ ·)) (epoch : Epoch) (currentSlot : Slot)
    {u : LandedVote} (mem : u ∈ ((vs.popExpiredVotes slot).popFullTower epoch).votes) :
    ∃ w ∈ (vs.processNextVoteSlot slot epoch currentSlot).votes, w.slot = u.slot := by
  have image : u.slot ∈ (vs.processNextVoteSlot slot epoch currentSlot).votes.map LandedVote.slot := by
    rw [(processNextVoteSlot_of_fresh fresh epoch currentSlot).1]
    exact List.mem_append_left _ (List.mem_map_of_mem mem)
  simpa using image

theorem popExpiredVotes_onChain (chain : VotesOnChain ancestors vs.votes)
    (expired : ∀ v ∈ vs.votes, v.slot ∉ ancestors → v.lockout.lastLockedOutSlot < slot) :
    ∀ u ∈ (vs.popExpiredVotes slot).votes, u.slot ∈ ancestors := by
  intro u mem
  have prefixOf := popExpiredVotes_prefixOf vs slot
  rcases List.eq_nil_or_concat (vs.popExpiredVotes slot).votes with empty | ⟨init, top, split⟩
  · rw [empty] at mem
    cases mem
  rw [List.concat_eq_append] at split
  -- the top survivor is still locked out, so it is on the chain, and so is everything below it
  have topLocked := popExpiredVotes_locked vs slot top (by simp [split])
  have topOnChain : top.slot ∈ ancestors := by
    by_contra off
    have early := expired top (prefixOf.subset (by simp [split])) off
    exact absurd topLocked (Nat.not_le.mpr early)
  rw [split] at mem
  rcases List.mem_append.mp mem with below | isTop
  · have sorted := chain.pairwise.sublist prefixOf.sublist
    rw [split] at sorted
    exact (List.pairwise_append.mp sorted).2.2 u below top (by simp) topOnChain
  · rw [List.mem_singleton.mp isTop]
    exact topOnChain

variable (chain : VotesOnChain ancestors vs.votes) (below : ∀ v ∈ vs.votes, v.slot < slot)
include chain below

theorem stray_after_oldest (epoch : Epoch) (currentSlot : Slot) {oldest : LandedVote} {rest : List LandedVote}
    (split : (vs.popExpiredVotes slot).votes = oldest :: rest) (full : rest.length + 1 = maxLockoutHistory)
    (rested : ((vs.popExpiredVotes slot).popFullTower epoch).votes = rest) (off : oldest.slot ∉ ancestors) :
    ∃ w ∈ (vs.processNextVoteSlot slot epoch currentSlot).votes, w.slot ≠ slot ∧ w.slot ∉ ancestors := by
  obtain ⟨next, later, restSplit⟩ := List.exists_cons_of_ne_nil (fun empty : rest = [] => by
    simp [empty, maxLockoutHistory] at full)
  have prefixOf := popExpiredVotes_prefixOf vs slot
  have sorted := chain.pairwise.sublist prefixOf.sublist
  rw [split, restSplit] at sorted
  have nextOff : next.slot ∉ ancestors := fun onChain => off ((List.pairwise_cons.mp sorted).1 next (by simp) onChain)
  have nextMem : next ∈ vs.votes := prefixOf.subset (by simp [split, restSplit])
  obtain ⟨w, inSim, sameSlot⟩ := vote_of_survivor (fresh_of_below below) epoch currentSlot (u := next)
    (by simp [rested, restSplit])
  exact ⟨w, inSim, sameSlot ▸ (below next nextMem).ne, sameSlot ▸ nextOff⟩

theorem stray_of_locked (epoch : Epoch) (currentSlot : Slot) {v : LandedVote} (mem : v ∈ vs.votes)
    (off : v.slot ∉ ancestors) (locked : slot ≤ v.lockout.lastLockedOutSlot) :
    ∃ w ∈ (vs.processNextVoteSlot slot epoch currentSlot).votes, w.slot ≠ slot ∧ w.slot ∉ ancestors := by
  have fresh := fresh_of_below below
  have kept := popExpiredVotes_keeps_locked mem locked
  have other : v.slot ≠ slot := (below v mem).ne
  rcases popFullTower_cases (vs.popExpiredVotes slot) epoch with
    ⟨same, -, -⟩ | ⟨oldest, rest, split, full, rested, -⟩
  · obtain ⟨w, inSim, sameSlot⟩ := vote_of_survivor fresh epoch currentSlot (u := v) (by rw [same]; exact kept)
    exact ⟨w, inSim, sameSlot ▸ other, sameSlot ▸ off⟩
  · rw [split] at kept
    rcases List.mem_cons.mp kept with isOldest | later
    · subst isOldest
      exact stray_after_oldest chain below epoch currentSlot split full rested off
    · obtain ⟨w, inSim, sameSlot⟩ := vote_of_survivor fresh epoch currentSlot (u := v) (by rw [rested]; exact later)
      exact ⟨w, inSim, sameSlot ▸ other, sameSlot ▸ off⟩

theorem simulated_root (rootOnChain : ∀ r, vs.rootSlot = some r → r ∈ ancestors) (epoch : Epoch)
    (currentSlot : Slot) (r : Slot) (isRoot : (vs.processNextVoteSlot slot epoch currentSlot).rootSlot = some r) :
    r ∈ ancestors ∨ ∃ w ∈ (vs.processNextVoteSlot slot epoch currentSlot).votes, w.slot ≠ slot ∧ w.slot ∉ ancestors := by
  rw [(processNextVoteSlot_of_fresh (fresh_of_below below) epoch currentSlot).2] at isRoot
  rcases popFullTower_cases (vs.popExpiredVotes slot) epoch with
    ⟨-, sameRoot, -⟩ | ⟨oldest, rest, split, full, rested, root⟩
  · rw [sameRoot, popExpiredVotes_rootSlot] at isRoot
    exact .inl (rootOnChain r isRoot)
  · rw [root] at isRoot
    cases isRoot
    by_cases onChain : oldest.slot ∈ ancestors
    · exact .inl onChain
    · exact .inr (stray_after_oldest chain below epoch currentSlot split full rested onChain)

theorem simulated_onChain (rootOnChain : ∀ r, vs.rootSlot = some r → r ∈ ancestors)
    (expired : ∀ v ∈ vs.votes, v.slot ∉ ancestors → v.lockout.lastLockedOutSlot < slot) (epoch : Epoch)
    (currentSlot : Slot) :
    (∀ w ∈ (vs.processNextVoteSlot slot epoch currentSlot).votes, w.slot ≠ slot → w.slot ∈ ancestors) ∧
      ∀ r, (vs.processNextVoteSlot slot epoch currentSlot).rootSlot = some r → r ∈ ancestors := by
  have fresh := fresh_of_below below
  have keptOnChain := popExpiredVotes_onChain chain expired
  constructor
  · intro w mem other
    obtain ⟨u, survivor, sameSlot⟩ := survivor_of_vote fresh epoch currentSlot mem other
    exact sameSlot ▸ keptOnChain u (popFullTower_votes_subset _ epoch survivor)
  · intro r isRoot
    rw [(processNextVoteSlot_of_fresh fresh epoch currentSlot).2] at isRoot
    rcases popFullTower_cases (vs.popExpiredVotes slot) epoch with
      ⟨-, sameRoot, -⟩ | ⟨oldest, rest, split, -, -, root⟩
    · rw [sameRoot, popExpiredVotes_rootSlot] at isRoot
      exact rootOnChain r isRoot
    · rw [root] at isRoot
      cases isRoot
      exact keptOnChain oldest (by simp [split])

end Simulation

theorem processNextVoteSlot_rooted {vs : VoteState} {slot : Slot} (fresh : ¬ vs.lastVotedSlot.any (slot ≤ ·))
    {r : Slot} (rooted : vs.rootSlot = some r) (epoch : Epoch) (currentSlot : Slot) :
    ∃ root, (vs.processNextVoteSlot slot epoch currentSlot).rootSlot = some root := by
  rw [(processNextVoteSlot_of_fresh fresh epoch currentSlot).2]
  rcases popFullTower_cases (vs.popExpiredVotes slot) epoch with
    ⟨-, sameRoot, -⟩ | ⟨oldest, -, -, -, -, root⟩
  · exact ⟨r, by rw [sameRoot, popExpiredVotes_rootSlot, rooted]⟩
  · exact ⟨oldest.slot, root⟩

theorem processVoteUnchecked_of_fresh {vs : VoteState} {slot : Slot} (fresh : ¬ vs.lastVotedSlot.any (slot ≤ ·))
    (hash : Hash) (timestamp : Option UnixTimestamp) :
    processVoteUnchecked vs ⟨[slot], hash, timestamp⟩ = .ok (vs.processNextVoteSlot slot vs.currentEpoch 0) := by
  simp [processVoteUnchecked, processVoteUnfiltered, checkSlotsAreValid, checkSlotsScan, fresh]

theorem processSlotVoteUnchecked_of_fresh {vs : VoteState} {slot : Slot} (fresh : ¬ vs.lastVotedSlot.any (slot ≤ ·)) :
    processSlotVoteUnchecked vs slot = vs.processNextVoteSlot slot vs.currentEpoch 0 := by
  simp [processSlotVoteUnchecked, processVoteUnchecked_of_fresh fresh]

namespace Tower

theorem isRecent_iff {t : Tower} (wf : t.voteState.WellFormed) {slot : Slot} :
    t.isRecent slot = true ↔
      (∀ v ∈ t.voteState.votes, v.slot < slot) ∧ ∀ r, t.voteState.rootSlot = some r → r < slot := by
  unfold isRecent
  rw [lastVotedSlot_eq]
  cases isLast : t.voteState.votes.getLast? with
  | none =>
    have empty := List.getLast?_eq_none_iff.mp isLast
    cases root : t.voteState.rootSlot with
    | none => simp [empty]
    | some r => simp [empty]
  | some last =>
    have lastMem := List.mem_of_getLast? isLast
    simp only [Option.map_some, Bool.not_eq_true', decide_eq_false_iff_not, not_le]
    constructor
    · intro above
      have below : ∀ v ∈ t.voteState.votes, v.slot < slot :=
        fun v mem => lt_of_le_of_lt (slot_le_last wf.chain mem isLast) above
      refine ⟨below, fun r isRoot => ?_⟩
      by_cases zero : r = 0
      · subst zero
        exact Nat.lt_of_le_of_lt (Nat.zero_le _) above
      · exact lt_trans (wf.root_lt r isRoot zero last lastMem) above
    · exact fun recent => recent.1 last lastMem

section LockedOut

variable {t : Tower} {slot : Slot} {ancestors : Finset Slot}

theorem isLockedOut_of_not_recent (stale : t.isRecent slot = false) : t.isLockedOut slot ancestors = some true := by
  simp [isLockedOut, stale]

theorem isLockedOut_of_stray (recent : t.isRecent slot = true) (below : ∀ v ∈ t.voteState.votes, v.slot < slot)
    (stray : ∃ w ∈ (t.voteState.processNextVoteSlot slot t.voteState.currentEpoch 0).votes,
      w.slot ≠ slot ∧ w.slot ∉ ancestors) :
    t.isLockedOut slot ancestors = some true := by
  obtain ⟨w, mem, other, off⟩ := stray
  have found : (processSlotVoteUnchecked t.voteState slot).votes.any
      (fun vote => slot ≠ vote.slot && vote.slot ∉ ancestors) = true := by
    rw [processSlotVoteUnchecked_of_fresh (fresh_of_below below), List.any_eq_true]
    simp only [LandedVote.slot_eq] at other off
    exact ⟨w, mem, by simp [Ne.symm other, off]⟩
  simp only [isLockedOut, recent, Bool.not_true, Bool.false_eq_true, if_false, found, if_true]

theorem isLockedOut_of_onChain (recent : t.isRecent slot = true) (below : ∀ v ∈ t.voteState.votes, v.slot < slot)
    (clean : ∀ w ∈ (t.voteState.processNextVoteSlot slot t.voteState.currentEpoch 0).votes,
      w.slot ≠ slot → w.slot ∈ ancestors)
    (rootOnChain : ∀ r, (t.voteState.processNextVoteSlot slot t.voteState.currentEpoch 0).rootSlot = some r →
      r ∈ ancestors) :
    t.isLockedOut slot ancestors = some false := by
  have simulated := processSlotVoteUnchecked_of_fresh (fresh_of_below below)
  have noneFound : (t.voteState.processNextVoteSlot slot t.voteState.currentEpoch 0).votes.any
      (fun vote => slot ≠ vote.slot && vote.slot ∉ ancestors) = false := by
    rw [List.any_eq_false]
    intro w mem
    by_cases same : w.slot = slot
    · simp only [LandedVote.slot_eq] at same
      simp [same]
    · have onChain := clean w mem same
      simp only [LandedVote.slot_eq] at onChain
      simp [onChain]
  simp only [isLockedOut, recent, Bool.not_true, Bool.false_eq_true, if_false, simulated, noneFound]
  cases root : (t.voteState.processNextVoteSlot slot t.voteState.currentEpoch 0).rootSlot with
  | none => rfl
  | some r => simp [rootOnChain r root]

variable (wf : t.voteState.WellFormed) (rootOnChain : ∀ r, t.voteState.rootSlot = some r → r ∈ ancestors)
  (chain : VotesOnChain ancestors t.voteState.votes)
include wf rootOnChain chain

theorem isLockedOut_ne_none : t.isLockedOut slot ancestors ≠ none := by
  cases recent : t.isRecent slot
  · simp [isLockedOut_of_not_recent recent]
  · obtain ⟨below, -⟩ := (isRecent_iff wf).mp recent
    by_cases stray : ∃ w ∈ (t.voteState.processNextVoteSlot slot t.voteState.currentEpoch 0).votes,
        w.slot ≠ slot ∧ w.slot ∉ ancestors
    · simp [isLockedOut_of_stray recent below stray]
    · have clean : ∀ w ∈ (t.voteState.processNextVoteSlot slot t.voteState.currentEpoch 0).votes,
          w.slot ≠ slot → w.slot ∈ ancestors := by
        intro w mem other
        by_contra off
        exact stray ⟨w, mem, other, off⟩
      have rootOn : ∀ r, (t.voteState.processNextVoteSlot slot t.voteState.currentEpoch 0).rootSlot = some r →
          r ∈ ancestors :=
        fun r isRoot => (simulated_root chain below rootOnChain _ _ r isRoot).resolve_right stray
      simp [isLockedOut_of_onChain recent below clean rootOn]

theorem isLockedOut_eq_false_iff :
    t.isLockedOut slot ancestors = some false ↔
      t.isRecent slot = true ∧ ∀ v ∈ t.voteState.votes, v.slot ∉ ancestors → v.lockout.lastLockedOutSlot < slot := by
  constructor
  · intro unlocked
    cases recent : t.isRecent slot
    · rw [isLockedOut_of_not_recent recent] at unlocked
      cases unlocked
    · obtain ⟨below, -⟩ := (isRecent_iff wf).mp recent
      refine ⟨rfl, fun v mem off => Nat.lt_of_not_le fun locked => ?_⟩
      rw [isLockedOut_of_stray recent below (stray_of_locked chain below _ _ mem off locked)] at unlocked
      cases unlocked
  · rintro ⟨recent, expired⟩
    obtain ⟨below, -⟩ := (isRecent_iff wf).mp recent
    obtain ⟨clean, rootOn⟩ := simulated_onChain chain below rootOnChain expired _ _
    exact isLockedOut_of_onChain recent below clean rootOn

theorem recordBankVoteAndUpdateLockouts_of_free {r : Slot} (rooted : t.voteState.rootSlot = some r)
    (free : t.isLockedOut slot ancestors = some false) (voteHash : Hash) (enableTowerSyncIx : Bool)
    (blockId : Hash) (now : UnixTimestamp) :
    ∃ newRoot voted,
      t.recordBankVoteAndUpdateLockouts slot voteHash enableTowerSyncIx blockId now = some (newRoot, voted) ∧
        voted.voteState.WellFormed ∧ voted.lastVotedSlot = some slot ∧ voted.voteState.lastVotedSlot = some slot ∧
        (∀ v ∈ voted.voteState.votes, v.slot ≠ slot → v.slot ∈ ancestors) ∧
        ∃ root, voted.voteState.rootSlot = some root ∧ root ∈ ancestors := by
  obtain ⟨recent, expired⟩ := (isLockedOut_eq_false_iff wf rootOnChain chain).mp free
  obtain ⟨below, rootBelow⟩ := (isRecent_iff wf).mp recent
  have fresh := fresh_of_below below
  obtain ⟨clean, rootOn⟩ := simulated_onChain chain below rootOnChain expired t.voteState.currentEpoch 0
  obtain ⟨newRoot, isNewRoot⟩ := processNextVoteSlot_rooted fresh rooted t.voteState.currentEpoch 0
  have slots := (processNextVoteSlot_of_fresh fresh t.voteState.currentEpoch 0).1
  let voted := ({ t with voteState := t.voteState.processNextVoteSlot slot t.voteState.currentEpoch 0 } : Tower)
    |>.updateLastVoteFromVoteState voteHash enableTowerSyncIx blockId now
  refine ⟨if r ≠ newRoot then some newRoot else none, voted, ?_, ?_, ?_, ?_, ?_, ?_⟩
  · simp [recordBankVoteAndUpdateLockouts, root, rooted, processVoteUnchecked_of_fresh fresh, voted, isNewRoot]
  · simpa [voted] using
      processNextVoteSlot_wellFormed_of_root_lt wf (fun r isRoot _ => rootBelow r isRoot) t.voteState.currentEpoch 0
  · simp [voted, lastVotedSlot, updateLastVoteFromVoteState_slots, slots]
  · simp [voted, lastVotedSlot_eq, ← List.getLast?_map, slots]
  · simpa [voted] using clean
  · exact ⟨newRoot, by simpa [voted] using isNewRoot, rootOn newRoot isNewRoot⟩

end LockedOut

/-- On a tower that lies on one chain of the fork tree, `is_locked_out` never panics, is exact, and a
vote on a slot it frees succeeds and keeps the tower well-formed and on the slot's chain. -/
theorem isLockedOut_exact {t : Tower} (wf : t.voteState.WellFormed) {r : Slot}
    (rooted : t.voteState.rootSlot = some r) {slot : Slot} {ancestors : Finset Slot} (rootAncestor : r ∈ ancestors)
    (chain : VotesOnChain ancestors t.voteState.votes) :
    t.isLockedOut slot ancestors ≠ none ∧
      (t.isLockedOut slot ancestors = some false ↔
        t.isRecent slot = true ∧
          ∀ v ∈ t.voteState.votes, v.slot ∉ ancestors → v.lockout.lastLockedOutSlot < slot) ∧
      (t.isLockedOut slot ancestors = some false → ∀ voteHash enableTowerSyncIx blockId now,
        ∃ newRoot voted,
          t.recordBankVoteAndUpdateLockouts slot voteHash enableTowerSyncIx blockId now = some (newRoot, voted) ∧
            voted.voteState.WellFormed ∧ voted.lastVotedSlot = some slot ∧
            voted.voteState.lastVotedSlot = some slot ∧
            (∀ v ∈ voted.voteState.votes, v.slot ≠ slot → v.slot ∈ ancestors) ∧
            ∃ root, voted.voteState.rootSlot = some root ∧ root ∈ ancestors) := by
  have rootOnChain : ∀ r', t.voteState.rootSlot = some r' → r' ∈ ancestors := by
    intro r' isRoot
    rw [rooted] at isRoot
    cases isRoot
    exact rootAncestor
  exact ⟨isLockedOut_ne_none wf rootOnChain chain, isLockedOut_eq_false_iff wf rootOnChain chain,
    fun free => recordBankVoteAndUpdateLockouts_of_free wf rootOnChain chain rooted free⟩

theorem isLockedOut_exact_two_votes :
    let t : Tower := ⟨⟨[⟨0, ⟨2, 2⟩⟩, ⟨0, ⟨3, 1⟩⟩], some 1, [], ⟨0, 0⟩⟩, .voteStateUpdate ⟨[], none, 0, none⟩, ⟨0, 0⟩⟩
    t.voteState.WellFormed ∧ VotesOnChain {1, 2, 3} t.voteState.votes ∧ t.isLockedOut 4 {1, 2, 3} ≠ none ∧
      (t.isLockedOut 4 {1, 2, 3} = some false ↔
        t.isRecent 4 = true ∧ ∀ v ∈ t.voteState.votes, v.slot ∉ ({1, 2, 3} : Finset Slot) →
          v.lockout.lastLockedOutSlot < 4) := by
  intro t
  have wf : t.voteState.WellFormed :=
    ⟨by decide, List.isChain_cons_cons.mpr ⟨⟨by decide, by decide, by decide⟩, List.isChain_singleton _⟩,
      by decide, by simp [t]⟩
  have chain : VotesOnChain {1, 2, 3} t.voteState.votes := ⟨t.voteState.votes, [], by simp, by decide, by simp⟩
  have exact := @isLockedOut_exact t wf 1 rfl 4 {1, 2, 3} (by decide) chain
  exact ⟨wf, chain, exact.1, exact.2.1⟩

end Tower

end Consensus
