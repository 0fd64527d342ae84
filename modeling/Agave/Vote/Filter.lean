import Mathlib
import Agave.Vote.Rollback

/-! `check_and_filter_proposed_vote_state` against what it accepts. Its loop walks the proposed
lockouts upward, the proposed root first, and the slot hashes from the oldest; every proposed slot
it passes is ordered after the one before, found among the slot hashes or older than all of them,
and only the older ones missing from the current votes are collected for the filter. Where the
loop stops says the newest proposed slot is the slot hash it stands at, so the closing assertion
and the index after it never fail. -/

namespace VoteProgram

open VoteState

section BinarySearch

variable {votes : List LandedVote} {candidateSlot : Slot}

theorem binarySearchSlot_of_getElem (sorted : votes.Pairwise fun older newer => older.slot < newer.slot)
    (left right : Nat) (bounded : right ≤ votes.length) (k : Nat) (inside : k < votes.length)
    (fromLeft : left ≤ k) (beforeRight : k < right) (same : votes[k].slot = candidateSlot) :
    binarySearchSlot votes candidateSlot left right = true := by
  have ordered : ∀ a b (ha : a < votes.length) (hb : b < votes.length), a ≤ b → votes[a].slot ≤ votes[b].slot := by
    intro a b ha hb le
    rcases Nat.eq_or_lt_of_le le with rfl | lt
    · exact le_rfl
    · exact le_of_lt (List.pairwise_iff_getElem.1 sorted a b ha hb lt)
  induction left, right using binarySearchSlot.induct votes candidateSlot with
  | case1 left right nonempty mid missing =>
    have midEq : mid = left + (right - left) / 2 := rfl
    rw [List.getElem?_eq_none_iff] at missing
    omega
  | case2 left right nonempty mid vote atMid below ih =>
    have midEq : mid = left + (right - left) / 2 := rfl
    obtain ⟨midInside, rfl⟩ := List.getElem?_eq_some_iff.1 atMid
    have older := Nat.compare_eq_lt.1 below
    have after : mid < k := by
      by_contra notAfter
      have atMost := ordered k mid inside midInside (by omega)
      rw [same] at atMost
      exact absurd atMost (not_le.2 older)
    rw [binarySearchSlot, if_pos nonempty]
    simp only [← midEq, atMid, below]
    exact ih bounded (by omega) beforeRight
  | case3 left right nonempty mid vote atMid above ih =>
    have midEq : mid = left + (right - left) / 2 := rfl
    obtain ⟨midInside, rfl⟩ := List.getElem?_eq_some_iff.1 atMid
    have newer := Nat.compare_eq_gt.1 above
    have before : k < mid := by
      by_contra notBefore
      have atLeast := ordered mid k midInside inside (by omega)
      rw [same] at atLeast
      exact absurd atLeast (not_le.2 newer)
    rw [binarySearchSlot, if_pos nonempty]
    simp only [← midEq, atMid, above]
    exact ih (by omega) fromLeft before
  | case4 left right nonempty mid vote atMid found =>
    have midEq : mid = left + (right - left) / 2 := rfl
    rw [binarySearchSlot, if_pos nonempty]
    simp only [← midEq, atMid, found]
  | case5 left right empty => omega

theorem slot_ne_of_containsSlot_eq_false {vs : VoteState}
    (sorted : vs.votes.Pairwise fun older newer => older.slot < newer.slot) {slot : Slot}
    (missing : vs.containsSlot slot = false) : ∀ v ∈ vs.votes, v.slot ≠ slot := by
  intro v mem same
  obtain ⟨k, inside, rfl⟩ := List.mem_iff_getElem.1 mem
  have found := binarySearchSlot_of_getElem sorted 0 vs.votes.length le_rfl k inside (Nat.zero_le k) inside same
  rw [containsSlot, found] at missing
  cases missing

end BinarySearch

section Scan

variable {vs : VoteState} {lockouts : List Lockout} {slotHashes : List (Slot × Hash)} {earliest : Slot}

theorem filterScan_ne_none (rootToCheck : Option Slot) (index slotHashesIndex : Nat) (toFilter : List Nat)
    (bound : slotHashesIndex ≤ slotHashes.length) :
    filterScan vs lockouts slotHashes earliest rootToCheck index slotHashesIndex toFilter bound ≠ none := by
  fun_induction filterScan vs lockouts slotHashes earliest rootToCheck index slotHashesIndex toFilter bound
  case case3 differs => exact absurd rfl differs
  all_goals first | exact Option.some_ne_none _ | assumption

variable {rootToCheck : Option Slot} {index slotHashesIndex : Nat} {toFilter : List Nat}
  {bound : slotHashesIndex ≤ slotHashes.length} {result : Nat × Nat × List Nat}

theorem filterScan_ordered
    (ok : filterScan vs lockouts slotHashes earliest rootToCheck index slotHashesIndex toFilter bound =
      some (.ok result)) :
    ∀ k (inside : k < lockouts.length), 0 < k → index ≤ k → k < result.1 →
      lockouts[k - 1].slot < lockouts[k].slot := by
  fun_induction filterScan vs lockouts slotHashes earliest rootToCheck index slotHashesIndex toFilter bound
  case case1 | case2 | case3 | case4 | case7 | case8 => cases ok
  case case5 ih | case9 ih | case10 ih => exact ih ok
  case case6 ordered _ _ _ ih | case11 ordered _ ih =>
    intro k below positive fromIndex beforeEnd
    rcases Nat.eq_or_lt_of_le fromIndex with rfl | later
    · simp +zetaDelta only [Option.isNone_none, Option.getD_none, true_and, not_and, not_le] at ordered
      exact ordered positive
    · exact ih ok k below positive later beforeEnd
  case case12 =>
    cases ok
    intro k _ _ fromIndex beforeEnd
    omega

theorem filterScan_found
    (ok : filterScan vs lockouts slotHashes earliest rootToCheck index slotHashesIndex toFilter bound =
      some (.ok result)) :
    ∀ k (inside : k < lockouts.length), index ≤ k → k < result.1 → earliest ≤ lockouts[k].slot →
      lockouts[k].slot ∈ slotHashes.map (·.1) := by
  fun_induction filterScan vs lockouts slotHashes earliest rootToCheck index slotHashesIndex toFilter bound
  case case1 | case2 | case3 | case4 | case7 | case8 => cases ok
  case case5 ih | case9 ih | case10 ih => exact ih ok
  case case6 tooOld _ ih =>
    intro k below fromIndex beforeEnd recent
    rcases Nat.eq_or_lt_of_le fromIndex with rfl | later
    · simp +zetaDelta only [Option.getD_none] at tooOld
      exact absurd recent tooOld
    · exact ih ok k below later beforeEnd recent
  case case11 older _ _ _ equal ih =>
    intro k below fromIndex beforeEnd recent
    rcases Nat.eq_or_lt_of_le fromIndex with rfl | later
    · simp +zetaDelta only [Option.getD_none] at equal
      rw [Nat.compare_eq_eq.1 equal]
      exact List.mem_map_of_mem (List.getElem_mem older)
    · exact ih ok k below later beforeEnd recent
  case case12 =>
    cases ok
    intro k _ fromIndex beforeEnd
    omega

theorem filterScan_filtered
    (ok : filterScan vs lockouts slotHashes earliest rootToCheck index slotHashesIndex toFilter bound =
      some (.ok result)) :
    ∀ k ∈ result.2.2, k ∈ toFilter ∨
      ∃ inside : k < lockouts.length, lockouts[k].slot < earliest ∧ vs.containsSlot lockouts[k].slot = false := by
  fun_induction filterScan vs lockouts slotHashes earliest rootToCheck index slotHashesIndex toFilter bound
  case case1 | case2 | case3 | case4 | case7 | case8 => cases ok
  case case12 =>
    cases ok
    exact fun k mem => .inl mem
  case case9 ih | case10 ih | case11 ih => exact ih ok
  case case5 ih =>
    intro k mem
    rcases ih ok k mem with old | collected
    · left
      simpa +zetaDelta using old
    · exact .inr collected
  case case6 inside _ _ _ _ _ _ tooOld _ ih =>
    intro k mem
    rcases ih ok k mem with old | collected
    · simp +zetaDelta only [Option.isNone_none, Bool.and_true, Option.getD_none] at old tooOld
      split_ifs at old with missing
      · rcases List.mem_append.mp old with old | pushed
        · exact .inl old
        · rw [List.mem_singleton.mp pushed]
          simp only [Bool.not_eq_true'] at missing
          exact .inr ⟨inside.1, Nat.lt_of_not_le tooOld, missing⟩
      · exact .inl old
    · exact .inr collected

theorem filterScan_root
    (ok : filterScan vs lockouts slotHashes earliest rootToCheck index slotHashesIndex toFilter bound =
      some (.ok result)) :
    ∀ root, rootToCheck = some root → index < result.1 → root ∈ slotHashes.map (·.1) ∨ root < earliest := by
  fun_induction filterScan vs lockouts slotHashes earliest rootToCheck index slotHashesIndex toFilter bound
  case case1 | case2 | case3 | case4 | case7 | case8 => cases ok
  case case9 ih => exact ih ok
  case case5 tooOld _ _ _ =>
    intro checked isRoot _
    cases isRoot
    simp +zetaDelta only [Option.getD_some] at tooOld
    exact .inr (Nat.lt_of_not_le tooOld)
  case case6 | case11 =>
    intro checked isRoot
    cases isRoot
  case case10 older _ root _ _ equal _ =>
    intro checked isRoot _
    cases isRoot
    simp +zetaDelta only [Option.getD_some] at equal
    rw [Nat.compare_eq_eq.1 equal]
    exact .inl (List.mem_map_of_mem (List.getElem_mem older))
  case case12 =>
    cases ok
    intro checked _ moved
    omega

theorem filterScan_last
    (ok : filterScan vs lockouts slotHashes earliest rootToCheck index slotHashesIndex toFilter bound =
      some (.ok result)) :
    result.1 = lockouts.length → index < lockouts.length → ∀ last ∈ lockouts.getLast?, earliest ≤ last.slot →
      (slotHashes[result.2.1]?).map (·.1) = some last.slot := by
  fun_induction filterScan vs lockouts slotHashes earliest rootToCheck index slotHashesIndex toFilter bound
  case case1 | case2 | case3 | case4 | case7 | case8 => cases ok
  case case5 ih | case9 ih | case10 ih => exact ih ok
  case case6 index _ _ inside _ _ _ _ _ _ tooOld _ ih =>
    intro atEnd _ last isLast recent
    have more : index + 1 < lockouts.length := by
      by_contra newest
      have atLast : lockouts[index] = last := by
        rw [List.getLast?_eq_getElem?, Option.mem_def, List.getElem?_eq_getElem (by omega)] at isLast
        simpa [show lockouts.length - 1 = index by omega] using isLast
      simp +zetaDelta only [Option.getD_none] at tooOld
      exact tooOld (atLast ▸ recent)
    exact ih ok atEnd more last isLast recent
  case case11 index _ _ _ inside _ older _ _ _ equal ih =>
    intro atEnd _ last isLast recent
    by_cases more : index + 1 < lockouts.length
    · exact ih ok atEnd more last isLast recent
    · rw [filterScan_of_done (by omega)] at ok
      cases ok
      have atLast : lockouts[index] = last := by
        rw [List.getLast?_eq_getElem?, Option.mem_def, List.getElem?_eq_getElem (by omega)] at isLast
        simpa [show lockouts.length - 1 = index by omega] using isLast
      simp +zetaDelta only [Option.getD_none] at equal
      rw [List.getElem?_eq_getElem older, Option.map_some, ← atLast, Nat.compare_eq_eq.1 equal]
  case case12 =>
    cases ok
    intro atEnd before
    omega

end Scan

section Retain

theorem retainUnfiltered_sublist :
    ∀ (lockouts : List Lockout) (index : Nat) (toFilter : List Nat),
      (retainUnfiltered lockouts index toFilter).Sublist lockouts
  | [], _, _ => List.Sublist.slnil
  | _ :: rest, index, [] => (retainUnfiltered_sublist rest (index + 1) []).cons_cons _
  | _ :: rest, index, next :: toFilter => by
    simp only [retainUnfiltered]
    split_ifs
    · exact (retainUnfiltered_sublist rest (index + 1) toFilter).cons _
    · exact (retainUnfiltered_sublist rest (index + 1) (next :: toFilter)).cons_cons _

theorem getElem_mem_retainUnfiltered :
    ∀ (lockouts : List Lockout) (index : Nat) (toFilter : List Nat) (k : Nat) (inside : k < lockouts.length),
      index + k ∉ toFilter → lockouts[k] ∈ retainUnfiltered lockouts index toFilter
  | [], _, _, _, inside, _ => absurd inside (Nat.not_lt_zero _)
  | lockout :: rest, index, toFilter, 0, _, kept => by
    cases toFilter with
    | nil => simp [retainUnfiltered]
    | cons next toFilter =>
      have differs : index ≠ next := fun same => kept (by simp [same])
      simp [retainUnfiltered, differs]
  | lockout :: rest, index, toFilter, k + 1, inside, kept => by
    have shifted : (index + 1) + k = index + (k + 1) := by omega
    cases toFilter with
    | nil =>
      simp only [retainUnfiltered, List.getElem_cons_succ]
      exact List.mem_cons_of_mem _
        (getElem_mem_retainUnfiltered rest (index + 1) [] k (by simpa using inside) (by simp))
    | cons next toFilter =>
      simp only [retainUnfiltered, List.getElem_cons_succ]
      split_ifs with same
      · refine getElem_mem_retainUnfiltered rest (index + 1) toFilter k (by simpa using inside) ?_
        rw [shifted]
        exact fun mem => kept (List.mem_cons_of_mem _ mem)
      · refine List.mem_cons_of_mem _
          (getElem_mem_retainUnfiltered rest (index + 1) (next :: toFilter) k (by simpa using inside) ?_)
        rw [shifted]
        exact kept

end Retain

theorem overwriteOldRoot_of_lt (vs : VoteState) {root earliest : Slot} (older : root < earliest) :
    overwriteOldRoot vs (some root) earliest = vs.rootSlot ∨
      ∃ v ∈ vs.votes, v.slot ≤ root ∧ overwriteOldRoot vs (some root) earliest = some v.slot := by
  simp only [overwriteOldRoot, if_pos older]
  cases found : vs.votes.reverse.find? (·.slot ≤ root) with
  | none => exact .inl rfl
  | some vote =>
    have below : vote.slot ≤ root :=
      of_decide_eq_true (List.find?_some (p := fun vote : LandedVote => decide (vote.slot ≤ root)) found)
    exact .inr ⟨vote, List.mem_reverse.1 (List.mem_of_find?_eq_some found), below, rfl⟩

theorem overwriteOldRoot_of_le (vs : VoteState) {root earliest : Slot} (recent : earliest ≤ root) :
    overwriteOldRoot vs (some root) earliest = some root := by
  simp only [overwriteOldRoot, if_neg (not_lt.2 recent)]

theorem checkAndFilterProposedVoteState_cases (vs : VoteState) (proposedLockouts : List Lockout)
    (proposedRoot : Option Slot) (proposedHash : Hash) (slotHashes : List (Slot × Hash)) :
    (∃ e, checkAndFilterProposedVoteState vs proposedLockouts proposedRoot proposedHash slotHashes =
        some (.error e)) ∨
      ∃ last oldest slotHashesIndex toFilter, proposedLockouts.getLast? = some last ∧
        slotHashes.getLast? = some oldest ∧ oldest.1 ≤ last.slot ∧
        filterScan vs proposedLockouts slotHashes oldest.1 (overwriteOldRoot vs proposedRoot oldest.1) 0
          slotHashes.length [] le_rfl = some (.ok (proposedLockouts.length, slotHashesIndex, toFilter)) ∧
        slotHashes[slotHashesIndex]? = some (last.slot, proposedHash) ∧
        checkAndFilterProposedVoteState vs proposedLockouts proposedRoot proposedHash slotHashes =
          some (.ok (retainUnfiltered proposedLockouts 0 toFilter, overwriteOldRoot vs proposedRoot oldest.1)) := by
  unfold checkAndFilterProposedVoteState
  split
  · exact .inl ⟨_, rfl⟩
  rename_i lastProposed last
  split_ifs with tooOld
  · exact .inl ⟨_, rfl⟩
  split
  · exact .inl ⟨_, rfl⟩
  rename_i earliest earliestHash oldest
  split_ifs with beforeHistory
  · exact .inl ⟨_, rfl⟩
  dsimp only
  split
  · rename_i never
    exact absurd never (filterScan_ne_none _ _ _ _ _)
  · exact .inl ⟨_, rfl⟩
  rename_i index slotHashesIndex toFilter scan
  split_ifs with incomplete
  · exact .inl ⟨_, rfl⟩
  have complete : index = proposedLockouts.length := not_not.1 incomplete
  subst complete
  have nonempty : 0 < proposedLockouts.length :=
    List.length_pos_of_ne_nil fun empty => by simp [empty] at last
  have atLast := filterScan_last scan rfl nonempty lastProposed last (Nat.le_of_not_lt beforeHistory)
  split
  · rename_i missing
    rw [missing] at atLast
    cases atLast
  rename_i slot hash found
  rw [found, Option.map_some, Option.some.injEq] at atLast
  split_ifs with differs wrongHash
  · exact absurd atLast.symm differs
  · exact .inl ⟨_, rfl⟩
  · have sameHash : hash = proposedHash := not_not.1 wrongHash
    subst atLast sameHash
    exact .inr ⟨lastProposed, (earliest, earliestHash), slotHashesIndex, toFilter, last, oldest,
      Nat.le_of_not_lt beforeHistory, scan, found, rfl⟩

/-- What `check_and_filter_proposed_vote_state` accepts. It never panics, and a proposal it accepts
has increasing slots and ends in a slot hash with the proposed hash; every proposed slot at or above
the oldest slot hash is a slot hash; the filter keeps the order and drops only votes older than the
history that `contains_slot` does not find, which on a tower in slot order no current vote holds;
and the root is the proposed one, found among the slot hashes, unless that is older than the
history, when it is the current root or a current vote at or below it. -/
theorem checkAndFilterProposedVoteState_accepts (vs : VoteState) (proposedLockouts : List Lockout)
    (proposedRoot : Option Slot) (proposedHash : Hash) (slotHashes : List (Slot × Hash)) :
    checkAndFilterProposedVoteState vs proposedLockouts proposedRoot proposedHash slotHashes ≠ none ∧
      ∀ filtered newRoot, checkAndFilterProposedVoteState vs proposedLockouts proposedRoot proposedHash slotHashes =
          some (.ok (filtered, newRoot)) →
        (proposedLockouts.map (·.slot)).Pairwise (· < ·) ∧
        (∃ last ∈ proposedLockouts.getLast?, (last.slot, proposedHash) ∈ slotHashes) ∧
        (∀ oldest ∈ slotHashes.getLast?, ∀ l ∈ filtered, oldest.1 ≤ l.slot → l.slot ∈ slotHashes.map (·.1)) ∧
        filtered.Sublist proposedLockouts ∧
        (∀ l ∈ proposedLockouts, l ∉ filtered → (∀ oldest ∈ slotHashes.getLast?, l.slot < oldest.1) ∧
          vs.containsSlot l.slot = false ∧
          (vs.votes.Pairwise (fun older newer => older.slot < newer.slot) → ∀ v ∈ vs.votes, v.slot ≠ l.slot)) ∧
        (proposedRoot = none → newRoot = none) ∧
        (∀ oldest ∈ slotHashes.getLast?, ∀ root ∈ proposedRoot, oldest.1 ≤ root →
          newRoot = some root ∧ root ∈ slotHashes.map (·.1)) ∧
        (∀ oldest ∈ slotHashes.getLast?, ∀ root ∈ proposedRoot, root < oldest.1 →
          newRoot = vs.rootSlot ∨ ∃ v ∈ vs.votes, v.slot ≤ root ∧ newRoot = some v.slot) := by
  rcases checkAndFilterProposedVoteState_cases vs proposedLockouts proposedRoot proposedHash slotHashes with
    ⟨e, failed⟩ | ⟨last, oldest, slotHashesIndex, toFilter, isLast, isOldest, recent, scan, atHash, accepted⟩
  · refine ⟨by simp [failed], fun filtered newRoot ok => ?_⟩
    rw [failed] at ok
    cases ok
  refine ⟨by simp [accepted], fun filtered newRoot ok => ?_⟩
  rw [accepted, Option.some.injEq, Except.ok.injEq, Prod.mk.injEq] at ok
  obtain ⟨rfl, rfl⟩ := ok
  have nonempty : 0 < proposedLockouts.length :=
    List.length_pos_of_ne_nil fun empty => by simp [empty] at isLast
  have sub := retainUnfiltered_sublist proposedLockouts 0 toFilter
  have dropped : ∀ l ∈ proposedLockouts, l ∉ retainUnfiltered proposedLockouts 0 toFilter →
      l.slot < oldest.1 ∧ vs.containsSlot l.slot = false := by
    intro l mem gone
    obtain ⟨k, inside, rfl⟩ := List.mem_iff_getElem.1 mem
    have collected : k ∈ toFilter := by
      by_contra notCollected
      exact gone (getElem_mem_retainUnfiltered proposedLockouts 0 toFilter k inside (by simpa using notCollected))
    rcases filterScan_filtered scan k collected with empty | ⟨_, older, missing⟩
    · cases empty
    · exact ⟨older, missing⟩
  refine ⟨?_, ?_, ?_, sub, ?_, ?_, ?_, ?_⟩
  · have chain : (proposedLockouts.map (·.slot)).IsChain (· < ·) := by
      rw [List.isChain_iff_getElem]
      intro k next
      simp only [List.length_map] at next
      have ordered := filterScan_ordered scan (k + 1) next (Nat.succ_pos k) (Nat.zero_le _) next
      simpa using ordered
    exact List.isChain_iff_pairwise.1 chain
  · exact ⟨last, isLast, List.mem_of_getElem? atHash⟩
  · intro earliest isEarliest l mem high
    rw [isOldest, Option.mem_def, Option.some.injEq] at isEarliest
    subst isEarliest
    obtain ⟨k, inside, rfl⟩ := List.mem_iff_getElem.1 (sub.subset mem)
    exact filterScan_found scan k inside (Nat.zero_le k) inside high
  · intro l mem gone
    obtain ⟨older, missing⟩ := dropped l mem gone
    refine ⟨fun earliest isEarliest => ?_, missing,
      fun sorted => slot_ne_of_containsSlot_eq_false sorted missing⟩
    rw [isOldest, Option.mem_def, Option.some.injEq] at isEarliest
    exact isEarliest ▸ older
  · rintro rfl
    rfl
  · intro earliest isEarliest root isRoot high
    rw [isOldest, Option.mem_def, Option.some.injEq] at isEarliest
    rw [Option.mem_def] at isRoot
    subst isEarliest isRoot
    have kept := overwriteOldRoot_of_le vs high
    refine ⟨kept, ?_⟩
    rcases filterScan_root scan root kept nonempty with found | older
    · exact found
    · exact absurd high (not_le.2 older)
  · intro earliest isEarliest root isRoot older
    rw [isOldest, Option.mem_def, Option.some.injEq] at isEarliest
    rw [Option.mem_def] at isRoot
    subst isEarliest isRoot
    exact overwriteOldRoot_of_lt vs older

/-- On votes out of slot order the binary search of `contains_slot` misses slot 1, which the votes
hold, and the filter drops the proposed vote for it. -/
theorem checkAndFilterProposedVoteState_drops_held_slot :
    let vs : VoteState := ⟨[⟨0, ⟨3, 1⟩⟩, ⟨0, ⟨5, 1⟩⟩, ⟨0, ⟨1, 1⟩⟩], none, [], ⟨0, 0⟩⟩
    checkAndFilterProposedVoteState vs [⟨1, 1⟩, ⟨10, 1⟩] none 7 [(10, 7)] = some (.ok ([⟨10, 1⟩], none)) ∧
      (⟨1, 1⟩ : Lockout) ∉ [(⟨10, 1⟩ : Lockout)] ∧ ∃ v ∈ vs.votes, v.slot = 1 := by
  intro vs
  refine ⟨?_, by decide, ⟨0, ⟨1, 1⟩⟩, by simp [vs], rfl⟩
  simp [vs, checkAndFilterProposedVoteState, filterScan, containsSlot, binarySearchSlot, overwriteOldRoot]
  rfl

end VoteProgram
