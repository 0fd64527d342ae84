import Mathlib
import Agave.Vote.State

namespace VoteProgram

open MachineInt

/-- Two neighbouring votes of a tower, the older first. -/
structure Consecutive (older newer : LandedVote) : Prop where
  slot_lt : older.slot < newer.slot
  count_lt : newer.confirmationCount < older.confirmationCount
  locked : newer.slot ≤ older.lockout.lastLockedOutSlot

namespace VoteState

/-- The tower invariant: a bounded stack of votes with increasing slots, decreasing confirmation
counts, no vote expired by its successor, and a root below every vote. -/
structure WellFormed (vs : VoteState) : Prop where
  length_le : vs.votes.length ≤ maxLockoutHistory
  chain : vs.votes.IsChain Consecutive
  counts : ∀ v ∈ vs.votes, 1 ≤ v.confirmationCount ∧ v.confirmationCount ≤ maxLockoutHistory
  root_lt : ∀ r, vs.rootSlot = some r → r ≠ 0 → ∀ v ∈ vs.votes, r < v.slot

/-- A nonzero root is only ever set together with votes above it. -/
def RootBacked (vs : VoteState) : Prop := ∀ r, vs.rootSlot = some r → r ≠ 0 → vs.votes ≠ []

theorem slots_pairwise {votes : List LandedVote} (chain : votes.IsChain Consecutive) :
    votes.Pairwise fun older newer => older.slot < newer.slot := by
  have slots : (votes.map LandedVote.slot).IsChain (· < ·) :=
    List.isChain_map_of_isChain _ (fun _ _ pair => pair.slot_lt) chain
  exact List.pairwise_map.mp slots.pairwise

theorem slot_le_last {votes : List LandedVote} (chain : votes.IsChain Consecutive) {v last : LandedVote}
    (mem : v ∈ votes) (isLast : votes.getLast? = some last) : v.slot ≤ last.slot := by
  obtain ⟨front, split⟩ := List.getLast?_eq_some_iff.mp isLast
  rw [split] at chain mem
  rcases List.mem_append.mp mem with early | final
  · have sorted := List.pairwise_append.mp (slots_pairwise chain)
    exact (sorted.2.2 v early last (by simp)).le
  · rw [List.mem_singleton.mp final]

theorem lastVotedSlot_eq {vs : VoteState} : vs.lastVotedSlot = vs.votes.getLast?.map LandedVote.slot := by
  simp only [lastVotedSlot, lastLockout, Option.map_map]
  rfl

theorem slot_lt_of_fresh {vs : VoteState} (wf : vs.WellFormed) {slot : Slot}
    (fresh : ¬ vs.lastVotedSlot.any (slot ≤ ·)) : ∀ v ∈ vs.votes, v.slot < slot := by
  intro v mem
  cases isLast : vs.votes.getLast? with
  | none => simp_all
  | some last =>
    have below := slot_le_last wf.chain mem isLast
    have last : vs.lastVotedSlot = some last.slot := by rw [lastVotedSlot_eq, isLast]; rfl
    simp only [last, Option.any_some, decide_eq_true_eq, not_le] at fresh
    exact lt_of_le_of_lt below fresh

theorem WellFormed.of_infix {vs vs' : VoteState} (wf : vs.WellFormed) (sub : vs'.votes <:+: vs.votes)
    (root : vs'.rootSlot = vs.rootSlot) : vs'.WellFormed where
  length_le := le_trans sub.length_le wf.length_le
  chain := wf.chain.infix sub
  counts := fun v mem => wf.counts v (sub.subset mem)
  root_lt := fun r isRoot nonzero v mem => wf.root_lt r (root ▸ isRoot) nonzero v (sub.subset mem)

@[simp] theorem incrementCredits_votes (vs : VoteState) (epoch : Epoch) (credits : Nat) :
    (vs.incrementCredits epoch credits).votes = vs.votes := rfl

@[simp] theorem incrementCredits_rootSlot (vs : VoteState) (epoch : Epoch) (credits : Nat) :
    (vs.incrementCredits epoch credits).rootSlot = vs.rootSlot := rfl

@[simp] theorem popExpiredVotes_rootSlot (vs : VoteState) (slot : Slot) :
    (vs.popExpiredVotes slot).rootSlot = vs.rootSlot := rfl

theorem popExpiredVotes_prefixOf (vs : VoteState) (slot : Slot) : (vs.popExpiredVotes slot).votes <+: vs.votes :=
  List.rdropWhile_prefix _ _

theorem popExpiredVotes_locked (vs : VoteState) (slot : Slot) :
    ∀ last ∈ (vs.popExpiredVotes slot).votes.getLast?, slot ≤ last.lockout.lastLockedOutSlot := by
  intro last isLast
  have nonempty : (vs.popExpiredVotes slot).votes ≠ [] := by
    intro empty
    rw [empty] at isLast
    cases isLast
  have kept := List.rdropWhile_last_not _ _ nonempty
  have same : (vs.popExpiredVotes slot).votes.getLast nonempty = last := by
    rw [List.getLast?_eq_some_getLast nonempty] at isLast
    exact Option.some.inj isLast
  simp only [popExpiredVotes] at same
  rw [same] at kept
  simpa [Lockout.isLockedOutAtSlot] using kept

theorem popFullTower_cases (vs : VoteState) (epoch : Epoch) :
    ((vs.popFullTower epoch).votes = vs.votes ∧ (vs.popFullTower epoch).rootSlot = vs.rootSlot ∧
      vs.votes.length ≠ maxLockoutHistory) ∨
    ∃ oldest rest, vs.votes = oldest :: rest ∧ rest.length + 1 = maxLockoutHistory ∧
      (vs.popFullTower epoch).votes = rest ∧ (vs.popFullTower epoch).rootSlot = some oldest.slot := by
  unfold popFullTower
  split_ifs with full
  · rcases votes : vs.votes with _ | ⟨oldest, rest⟩
    · simp [votes, maxLockoutHistory] at full
    · right
      refine ⟨oldest, rest, rfl, ?_, ?_, ?_⟩
      · simpa [votes] using full
      all_goals simp
  · exact Or.inl ⟨rfl, rfl, full⟩

@[simp] theorem doubleLockout_slot (stackDepth i : Nat) (vote : LandedVote) :
    (doubleLockout stackDepth i vote).lockout.slot = vote.lockout.slot := by
  unfold doubleLockout
  split <;> rfl

theorem doubleLockout_of_lt {stackDepth i : Nat} {vote : LandedVote}
    (doubled : i + vote.lockout.confirmationCount < stackDepth)
    (small : vote.lockout.confirmationCount ≤ maxLockoutHistory) :
    (doubleLockout stackDepth i vote).lockout.confirmationCount = vote.lockout.confirmationCount + 1 := by
  have bound : vote.lockout.confirmationCount < maxValue 32 := by
    unfold maxValue
    unfold maxLockoutHistory at small
    omega
  simp only [doubleLockout, LandedVote.confirmationCount_eq, doubled, ↓reduceIte]
  exact Lockout.increaseConfirmationCount_one bound

theorem doubleLockout_of_le {stackDepth i : Nat} {vote : LandedVote}
    (kept : stackDepth ≤ i + vote.lockout.confirmationCount) : doubleLockout stackDepth i vote = vote := by
  have notDoubled : ¬ i + vote.lockout.confirmationCount < stackDepth := by omega
  simp only [doubleLockout, LandedVote.confirmationCount_eq, notDoubled, ↓reduceIte]

theorem doubleLockout_count_cases (stackDepth i : Nat) {vote : LandedVote}
    (small : vote.lockout.confirmationCount ≤ maxLockoutHistory) :
    (doubleLockout stackDepth i vote).lockout.confirmationCount = vote.lockout.confirmationCount ∨
      ((doubleLockout stackDepth i vote).lockout.confirmationCount = vote.lockout.confirmationCount + 1 ∧
        i + vote.lockout.confirmationCount < stackDepth) := by
  by_cases doubled : i + vote.lockout.confirmationCount < stackDepth
  · exact Or.inr ⟨doubleLockout_of_lt doubled small, doubled⟩
  · rw [doubleLockout_of_le (by omega)]
    exact Or.inl rfl

theorem doubleLockout_lastLockedOutSlot {stackDepth i : Nat} {vote : LandedVote}
    (small : vote.lockout.confirmationCount ≤ maxLockoutHistory) :
    vote.lockout.lastLockedOutSlot ≤ (doubleLockout stackDepth i vote).lockout.lastLockedOutSlot := by
  have cases := doubleLockout_count_cases stackDepth i small
  unfold maxLockoutHistory at small
  apply Lockout.lastLockedOutSlot_mono
  · exact (doubleLockout_slot stackDepth i vote).symm
  · omega
  · omega

theorem doubleLockout_consecutive {stackDepth i : Nat} {older newer : LandedVote}
    (slotLt : older.slot < newer.slot) (locked : newer.slot ≤ older.lockout.lastLockedOutSlot)
    (olderSmall : older.lockout.confirmationCount ≤ maxLockoutHistory)
    (newerSmall : newer.lockout.confirmationCount ≤ maxLockoutHistory)
    (counts : newer.lockout.confirmationCount < older.lockout.confirmationCount ∨
      (i + 2 = stackDepth ∧ newer.lockout.confirmationCount = 1 ∧ 1 ≤ older.lockout.confirmationCount)) :
    Consecutive (doubleLockout stackDepth i older) (doubleLockout stackDepth (i + 1) newer) where
  slot_lt := by simpa using slotLt
  count_lt := by
    simp only [LandedVote.confirmationCount_eq]
    by_cases olderDoubled : i + older.lockout.confirmationCount < stackDepth <;>
      by_cases newerDoubled : i + 1 + newer.lockout.confirmationCount < stackDepth
    · rw [doubleLockout_of_lt olderDoubled olderSmall, doubleLockout_of_lt newerDoubled newerSmall]
      omega
    · rw [doubleLockout_of_lt olderDoubled olderSmall,
        @doubleLockout_of_le _ (i + 1) newer (by omega)]
      omega
    · rw [@doubleLockout_of_le _ i older (by omega),
        doubleLockout_of_lt newerDoubled newerSmall]
      omega
    · rw [@doubleLockout_of_le _ i older (by omega),
        @doubleLockout_of_le _ (i + 1) newer (by omega)]
      omega
  locked := by
    simp only [LandedVote.slot_eq, doubleLockout_slot] at locked ⊢
    exact le_trans locked (doubleLockout_lastLockedOutSlot olderSmall)

@[simp] theorem doubleLockouts_rootSlot (vs : VoteState) : vs.doubleLockouts.rootSlot = vs.rootSlot := rfl

@[simp] theorem doubleLockouts_length (vs : VoteState) : vs.doubleLockouts.votes.length = vs.votes.length :=
  List.length_mapIdx

theorem pushDouble_chain {votes : List LandedVote} {fresh : LandedVote}
    (chain : votes.IsChain Consecutive)
    (counts : ∀ v ∈ votes ++ [fresh], 1 ≤ v.lockout.confirmationCount ∧ v.lockout.confirmationCount ≤ maxLockoutHistory)
    (single : fresh.lockout.confirmationCount = 1)
    (link : ∀ top ∈ votes.getLast?, top.slot < fresh.slot ∧ fresh.slot ≤ top.lockout.lastLockedOutSlot) (i : Nat)
    (bound : i + 1 < (votes ++ [fresh]).length) :
    Consecutive (doubleLockout (votes ++ [fresh]).length i (votes ++ [fresh])[i])
      (doubleLockout (votes ++ [fresh]).length (i + 1) (votes ++ [fresh])[i + 1]) := by
  have olderSmall := (counts _ (List.getElem_mem (Nat.lt_of_succ_lt bound))).2
  have newerSmall := (counts _ (List.getElem_mem bound)).2
  have length : (votes ++ [fresh]).length = votes.length + 1 := by simp
  by_cases inside : i + 1 < votes.length
  · have pair := chain.getElem i inside
    have older : (votes ++ [fresh])[i] = votes[i] := List.getElem_append_left (by omega)
    have newer : (votes ++ [fresh])[i + 1] = votes[i + 1] := List.getElem_append_left inside
    rw [older] at olderSmall
    rw [newer] at newerSmall
    rw [older, newer]
    exact doubleLockout_consecutive pair.slot_lt pair.locked olderSmall newerSmall (Or.inl pair.count_lt)
  · have top : i + 1 = votes.length := by simp at bound; omega
    have older : (votes ++ [fresh])[i] = votes[i] := List.getElem_append_left (by omega)
    have newer : (votes ++ [fresh])[i + 1] = fresh := by simp [top]
    have isTop : votes.getLast? = some votes[i] := by
      rw [List.getLast?_eq_getElem?]
      simp [← top]
    obtain ⟨slotLt, locked⟩ := link _ isTop
    have lowest := (counts _ (List.getElem_mem (Nat.lt_of_succ_lt bound))).1
    rw [older] at olderSmall lowest
    rw [newer] at newerSmall
    rw [older, newer]
    apply doubleLockout_consecutive slotLt locked olderSmall newerSmall
    exact Or.inr ⟨by omega, single, lowest⟩

theorem pushDouble_wellFormed {vs : VoteState} {fresh : LandedVote}
    (chain : vs.votes.IsChain Consecutive)
    (counts : ∀ v ∈ vs.votes, 1 ≤ v.confirmationCount ∧ v.confirmationCount ≤ maxLockoutHistory)
    (short : vs.votes.length < maxLockoutHistory) (single : fresh.confirmationCount = 1)
    (link : ∀ top ∈ vs.votes.getLast?, top.slot < fresh.slot ∧ fresh.slot ≤ top.lockout.lastLockedOutSlot)
    (rootLt : ∀ r, vs.rootSlot = some r → r ≠ 0 → ∀ v ∈ vs.votes ++ [fresh], r < v.slot) :
    ({ vs with votes := vs.votes ++ [fresh] }).doubleLockouts.WellFormed := by
  have allCounts : ∀ v ∈ vs.votes ++ [fresh],
      1 ≤ v.lockout.confirmationCount ∧ v.lockout.confirmationCount ≤ maxLockoutHistory := by
    intro v mem
    rcases List.mem_append.mp mem with old | top
    · simpa using counts v old
    · rw [List.mem_singleton.mp top]
      simp only [LandedVote.confirmationCount_eq] at single
      simp [single, maxLockoutHistory]
  constructor
  · simp only [doubleLockouts_length, List.length_append, List.length_singleton]
    omega
  · rw [List.isChain_iff_getElem]
    intro i bound
    simp only [doubleLockouts_length] at bound
    simp only [doubleLockouts, List.getElem_mapIdx]
    exact pushDouble_chain chain allCounts (by simpa using single) link i bound
  · intro v mem
    simp only [doubleLockouts, List.mem_mapIdx] at mem
    obtain ⟨i, bound, rfl⟩ := mem
    have small := allCounts _ (List.getElem_mem bound)
    have cases := doubleLockout_count_cases (vs.votes ++ [fresh]).length i small.2
    simp only [List.length_append, List.length_singleton] at bound cases ⊢
    simp only [LandedVote.confirmationCount_eq, maxLockoutHistory] at small cases short ⊢
    omega
  · intro r isRoot nonzero v mem
    obtain ⟨i, bound, rfl⟩ := List.mem_mapIdx.mp mem
    simpa using rootLt r isRoot nonzero _ (List.getElem_mem bound)

theorem popExpiredVotes_keeps_locked {vs : VoteState} {slot : Slot} {v : LandedVote} (mem : v ∈ vs.votes)
    (locked : slot ≤ v.lockout.lastLockedOutSlot) : v ∈ (vs.popExpiredVotes slot).votes := by
  rw [← List.rdropWhile_append_rtakeWhile (l := vs.votes)
    (p := fun vote : LandedVote => !vote.lockout.isLockedOutAtSlot slot)] at mem
  rcases List.mem_append.mp mem with kept | popped
  · exact kept
  · have expired := List.mem_rtakeWhile_imp popped
    simp only [Lockout.isLockedOutAtSlot, Bool.not_eq_true', decide_eq_false_iff_not] at expired
    exact absurd locked expired

@[simp] theorem doubleLockouts_slots (vs : VoteState) :
    vs.doubleLockouts.votes.map LandedVote.slot = vs.votes.map LandedVote.slot := by
  apply List.ext_getElem (by simp)
  intro i inside _
  simp [doubleLockouts]

theorem processNextVoteSlot_of_fresh {vs : VoteState} {slot : Slot}
    (fresh : ¬ vs.lastVotedSlot.any (slot ≤ ·)) (epoch : Epoch) (currentSlot : Slot) :
    (vs.processNextVoteSlot slot epoch currentSlot).votes.map LandedVote.slot =
        ((vs.popExpiredVotes slot).popFullTower epoch).votes.map LandedVote.slot ++ [slot] ∧
      (vs.processNextVoteSlot slot epoch currentSlot).rootSlot =
        ((vs.popExpiredVotes slot).popFullTower epoch).rootSlot := by
  simp only [processNextVoteSlot, fresh, Bool.false_eq_true, if_false, doubleLockouts_slots,
    doubleLockouts_rootSlot, List.map_append]
  simp [Lockout.new]

theorem popped_ready {vs : VoteState} (wf : vs.WellFormed) {slot : Slot}
    (rootBelow : ∀ r, vs.rootSlot = some r → r ≠ 0 → r < slot) (below : ∀ v ∈ vs.votes, v.slot < slot)
    (epoch : Epoch) :
    let popped := (vs.popExpiredVotes slot).popFullTower epoch
    popped.votes.IsChain Consecutive ∧
      (∀ v ∈ popped.votes, 1 ≤ v.confirmationCount ∧ v.confirmationCount ≤ maxLockoutHistory) ∧
      popped.votes.length < maxLockoutHistory ∧
      (∀ top ∈ popped.votes.getLast?, top.slot < slot ∧ slot ≤ top.lockout.lastLockedOutSlot) ∧
      (∀ r, popped.rootSlot = some r → r ≠ 0 → ∀ v ∈ popped.votes, r < v.slot) ∧
      (∀ r, popped.rootSlot = some r → r ≠ 0 → r < slot) := by
  intro popped
  have expiredWf : (vs.popExpiredVotes slot).WellFormed :=
    wf.of_infix (popExpiredVotes_prefixOf vs slot).isInfix rfl
  have expiredSub : (vs.popExpiredVotes slot).votes ⊆ vs.votes := (popExpiredVotes_prefixOf vs slot).subset
  have topLocked := popExpiredVotes_locked vs slot
  rcases popFullTower_cases (vs.popExpiredVotes slot) epoch with ⟨same, root, notFull⟩ | ⟨oldest, rest, split, full, rested, root⟩
  · simp only [popped, same, root]
    refine ⟨expiredWf.chain, expiredWf.counts, lt_of_le_of_ne expiredWf.length_le notFull, ?_, expiredWf.root_lt, ?_⟩
    · intro top isTop
      exact ⟨below top (expiredSub (List.mem_of_getLast? isTop)), topLocked top isTop⟩
    · exact rootBelow
  · have restNonempty : rest ≠ [] := by
      intro empty
      simp [empty, maxLockoutHistory] at full
    have oldestLt : ∀ v ∈ rest, oldest.slot < v.slot := by
      have sorted := slots_pairwise expiredWf.chain
      rw [split] at sorted
      exact (List.pairwise_cons.mp sorted).1
    have oldestMem : oldest ∈ vs.votes := expiredSub (by simp [split])
    simp only [popped, rested, root]
    refine ⟨?_, ?_, by omega, ?_, ?_, ?_⟩
    · have chain := expiredWf.chain.tail
      rwa [split] at chain
    · intro v mem
      exact expiredWf.counts v (by simp [split, mem])
    · intro top isTop
      have sameTop : (vs.popExpiredVotes slot).votes.getLast? = some top := by
        rw [split, List.getLast?_cons, isTop]
        rfl
      exact ⟨below top (expiredSub (List.mem_of_getLast? sameTop)), topLocked top sameTop⟩
    · intro r isRoot _ v mem
      cases isRoot
      exact oldestLt v mem
    · intro r isRoot _
      cases isRoot
      exact below oldest oldestMem

theorem processNextVoteSlot_wellFormed_of_root_lt {vs : VoteState} (wf : vs.WellFormed) {slot : Slot}
    (rootBelow : ∀ r, vs.rootSlot = some r → r ≠ 0 → r < slot) (epoch : Epoch) (currentSlot : Slot) :
    (vs.processNextVoteSlot slot epoch currentSlot).WellFormed := by
  unfold processNextVoteSlot
  split_ifs with ignored
  · exact wf
  · have below := slot_lt_of_fresh wf ignored
    obtain ⟨chain, counts, short, link, rootLt, rootBelow'⟩ := popped_ready wf rootBelow below epoch
    refine @pushDouble_wellFormed _ ⟨computeVoteLatency slot currentSlot, Lockout.new slot⟩
      chain counts short rfl link ?_
    intro r isRoot nonzero v mem
    rcases List.mem_append.mp mem with old | top
    · exact rootLt r isRoot nonzero v old
    · rw [List.mem_singleton.mp top]
      exact rootBelow' r isRoot nonzero

theorem processNextVoteSlot_wellFormed {vs : VoteState} (wf : vs.WellFormed) (backed : vs.RootBacked)
    (slot : Slot) (epoch : Epoch) (currentSlot : Slot) :
    (vs.processNextVoteSlot slot epoch currentSlot).WellFormed ∧
      (vs.processNextVoteSlot slot epoch currentSlot).RootBacked := by
  by_cases ignored : vs.lastVotedSlot.any (slot ≤ ·)
  · have same : vs.processNextVoteSlot slot epoch currentSlot = vs := by
      simp [processNextVoteSlot, ignored]
    rw [same]
    exact ⟨wf, backed⟩
  · have below := slot_lt_of_fresh wf ignored
    have rootBelow : ∀ r, vs.rootSlot = some r → r ≠ 0 → r < slot := by
      intro r isRoot nonzero
      obtain ⟨u, mem⟩ := List.exists_mem_of_ne_nil _ (backed r isRoot nonzero)
      exact lt_trans (wf.root_lt r isRoot nonzero u mem) (below u mem)
    refine ⟨processNextVoteSlot_wellFormed_of_root_lt wf rootBelow epoch currentSlot, ?_⟩
    intro r _ _ empty
    simp [processNextVoteSlot, ignored, doubleLockouts] at empty

end VoteState

end VoteProgram
