import Mathlib
import Agave.Library.List
import Agave.Vote.Invariant

namespace VoteProgram

open VoteState

/-! The filter of a proposed tower never drops its newest vote. -/

theorem retainUnfiltered_append_last (last : Lockout) :
    ∀ (init : List Lockout) (index : Nat) (toFilter : List Nat), index + init.length ∉ toFilter →
      ∃ kept, retainUnfiltered (init ++ [last]) index toFilter = kept ++ [last]
  | [], index, [], _ => ⟨[], rfl⟩
  | [], index, next :: toFilter, notFiltered => by
    have differ : index ≠ next := fun same => notFiltered (by simp [same])
    exact ⟨[], by simp [retainUnfiltered, differ]⟩
  | lockout :: init, index, [], _ => by
    obtain ⟨kept, rest⟩ := retainUnfiltered_append_last last init (index + 1) [] (by simp)
    exact ⟨lockout :: kept, by simp [retainUnfiltered, rest]⟩
  | lockout :: init, index, next :: toFilter, notFiltered => by
    have shifted : index + 1 + init.length = index + (lockout :: init).length := by
      simp only [List.length_cons]
      omega
    by_cases filtered : index = next
    · subst filtered
      obtain ⟨kept, rest⟩ := retainUnfiltered_append_last last init (index + 1) toFilter
        (fun mem => notFiltered (by rw [← shifted]; exact List.mem_cons_of_mem index mem))
      exact ⟨kept, by simp [retainUnfiltered, rest]⟩
    · obtain ⟨kept, rest⟩ := retainUnfiltered_append_last last init (index + 1) (next :: toFilter)
        (by rw [shifted]; exact notFiltered)
      exact ⟨lockout :: kept, by simp [retainUnfiltered, filtered, rest]⟩

theorem filterScan_toFilter {vs : VoteState} {lockouts : List Lockout} {slotHashes : List (Slot × Hash)}
    {earliest : Slot} {rootToCheck : Option Slot} {index slotHashesIndex : Nat} {toFilter : List Nat}
    {bound : slotHashesIndex ≤ slotHashes.length} {result : Nat × Nat × List Nat}
    (ok : filterScan vs lockouts slotHashes earliest rootToCheck index slotHashesIndex toFilter bound =
      some (.ok result)) :
    ∀ k ∈ result.2.2, k ∈ toFilter ∨ ∃ inside : k < lockouts.length, lockouts[k].slot < earliest := by
  fun_induction filterScan vs lockouts slotHashes earliest rootToCheck index slotHashesIndex toFilter bound
  case case1 | case2 | case3 | case4 | case7 | case8 => cases ok
  case case12 =>
    cases ok
    exact fun k mem => .inl mem
  case case9 ih | case10 ih | case11 ih => exact ih ok
  case case5 ih =>
    intro k mem
    rcases ih ok k mem with old | below
    · left
      simpa +zetaDelta using old
    · exact .inr below
  case case6 inside _ _ _ _ _ _ tooOld _ ih =>
    intro k mem
    rcases ih ok k mem with old | below
    · simp +zetaDelta only [Option.isNone_none, Bool.and_true] at old
      split_ifs at old
      · rcases List.mem_append.mp old with old | pushed
        · exact .inl old
        · rw [List.mem_singleton.mp pushed]
          exact .inr ⟨inside.1, Nat.lt_of_not_le tooOld⟩
      · exact .inl old
    · exact .inr below

theorem checkAndFilterProposedVoteState_ok {vs : VoteState} {proposedLockouts filtered : List Lockout}
    {proposedRoot newRoot : Option Slot} {proposedHash : Hash} {slotHashes : List (Slot × Hash)}
    (ok : checkAndFilterProposedVoteState vs proposedLockouts proposedRoot proposedHash slotHashes =
      some (.ok (filtered, newRoot))) :
    ∃ lastProposed, filtered.getLast? = some lastProposed ∧ ∀ v ∈ vs.votes.getLast?, v.slot < lastProposed.slot := by
  unfold checkAndFilterProposedVoteState at ok
  split at ok
  · cases ok
  rename_i lastProposed last
  split_ifs at ok with tooOld
  · cases ok
  split at ok
  · cases ok
  rename_i earliest earliestHash hashes
  split_ifs at ok with beforeHistory
  · cases ok
  dsimp only at ok
  split at ok
  · cases ok
  · cases ok
  rename_i index slotHashesIndex toFilter scan
  split_ifs at ok with complete
  · cases ok
  split at ok
  · cases ok
  rename_i slot hash found
  split_ifs at ok with sameSlot sameHash
  · cases ok
  cases ok
  obtain ⟨init, split⟩ := List.getLast?_eq_some_iff.mp last
  have notFiltered : 0 + init.length ∉ toFilter := by
    intro filteredLast
    rcases filterScan_toFilter scan _ (by simpa using filteredLast) with never | ⟨inside, older⟩
    · cases never
    · have atLast : proposedLockouts[init.length] = lastProposed := by
        simp [split]
      rw [atLast] at older
      exact beforeHistory older
  obtain ⟨kept, retained⟩ := retainUnfiltered_append_last lastProposed init 0 toFilter notFiltered
  refine ⟨lastProposed, by rw [split, retained]; simp, ?_⟩
  intro v isLast
  rw [Option.mem_def] at isLast
  simp only [isLast, Option.any_some, Bool.not_eq_true] at tooOld
  exact Nat.lt_of_not_le (of_decide_eq_false tooOld)

/-! What the merge loop guarantees about every current vote it walks past. -/

/-- A new tower respects the lockout of a current vote when it keeps the vote's slot with at least
its confirmations, or the vote expired before the first newer slot of the tower. -/
def LockoutRespected (newVotes : List LandedVote) (v : LandedVote) : Prop :=
  (∃ w ∈ newVotes, w.slot = v.slot ∧ v.confirmationCount ≤ w.confirmationCount) ∨
    ∃ t ∈ newVotes, v.slot < t.slot ∧ (∀ u ∈ newVotes, v.slot < u.slot → t.slot ≤ u.slot) ∧
      v.lockout.lastLockedOutSlot < t.slot

theorem LockoutRespected.cons {news : List LandedVote} {v : LandedVote} (respected : LockoutRespected news v)
    (new : LandedVote) (older : new.slot < v.slot) : LockoutRespected (new :: news) v := by
  rcases respected with ⟨w, mem, sameSlot, counted⟩ | ⟨t, mem, newer, first, expired⟩
  · exact .inl ⟨w, List.mem_cons_of_mem new mem, sameSlot, counted⟩
  · refine .inr ⟨t, List.mem_cons_of_mem new mem, newer, ?_, expired⟩
    intro u isNew above
    rcases List.mem_cons.mp isNew with rfl | later
    · grind
    · exact first u later above

theorem LockoutRespected.of_lockouts {news news' : List LandedVote} {v : LandedVote}
    (respected : LockoutRespected news v)
    (same : news'.map LandedVote.lockout = news.map LandedVote.lockout) : LockoutRespected news' v := by
  have transfer : ∀ {xs ys : List LandedVote}, xs.map LandedVote.lockout = ys.map LandedVote.lockout →
      ∀ w ∈ ys, ∃ w' ∈ xs, w'.lockout = w.lockout := by
    intro xs ys sameMap w mem
    have image : w.lockout ∈ xs.map LandedVote.lockout := sameMap ▸ List.mem_map_of_mem mem
    simpa using image
  rcases respected with ⟨w, mem, sameSlot, counted⟩ | ⟨t, mem, newer, first, expired⟩
  · obtain ⟨w', mem', lockout⟩ := transfer same w mem
    exact .inl ⟨w', mem', by simpa [lockout] using sameSlot, by simpa [lockout] using counted⟩
  · obtain ⟨t', mem', lockout⟩ := transfer same t mem
    refine .inr ⟨t', mem', by simpa [lockout] using newer, ?_, by simpa [lockout] using expired⟩
    intro u inNew above
    obtain ⟨u', mem'', sameU⟩ := transfer same.symm u inNew
    simpa [lockout, sameU] using first u' mem'' (by simpa [sameU] using above)

theorem mergeVotes_respected :
    ∀ {currents news merged : List LandedVote}, mergeVotes currents news = .ok merged →
      currents.Pairwise (·.slot < ·.slot) → news.Pairwise (·.slot < ·.slot) →
      (∀ v ∈ currents, ∃ n ∈ news, v.slot < n.slot) → ∀ v ∈ currents, LockoutRespected news v
  | [], _, _, _, _, _, _, v, mem => by cases mem
  | current :: _, [], _, _, _, _, covered, _, _ => by
    obtain ⟨n, mem, _⟩ := covered current (by simp)
    cases mem
  | current :: currents, new :: news, merged, ok, sortedCurrents, sortedNews, covered, v, mem => by
    obtain ⟨currentBelow, sortedRest⟩ := List.pairwise_cons.mp sortedCurrents
    obtain ⟨newBelow, sortedNewRest⟩ := List.pairwise_cons.mp sortedNews
    simp only [mergeVotes] at ok
    split at ok
    · rename_i order
      split_ifs at ok with conflict
      have older : current.slot < new.slot := Nat.compare_eq_lt.mp order
      rcases List.mem_cons.mp mem with rfl | later
      · refine .inr ⟨new, by simp, older, ?_, Nat.lt_of_not_le conflict⟩
        intro u inNew _
        rcases List.mem_cons.mp inNew with rfl | later
        · exact le_rfl
        · exact (newBelow u later).le
      · exact mergeVotes_respected ok sortedRest sortedNews (fun u inRest => covered u (by simp [inRest])) v later
    · rename_i order
      split_ifs at ok with rollBack
      have same : current.slot = new.slot := Nat.compare_eq_eq.mp order
      cases rest : mergeVotes currents news with
      | error e =>
        rw [rest] at ok
        cases ok
      | ok tail =>
        rcases List.mem_cons.mp mem with rfl | later
        · exact .inl ⟨new, by simp, same.symm, Nat.le_of_not_lt rollBack⟩
        · have coveredRest : ∀ u ∈ currents, ∃ n ∈ news, u.slot < n.slot := by
            intro u inRest
            obtain ⟨n, inNew, below⟩ := covered u (by simp [inRest])
            rcases List.mem_cons.mp inNew with rfl | later
            · grind
            · exact ⟨n, later, below⟩
          exact (mergeVotes_respected rest sortedRest sortedNewRest coveredRest v later).cons new
            (by grind)
    · rename_i order
      have newer : new.slot < current.slot := Nat.compare_eq_gt.mp order
      cases rest : mergeVotes (current :: currents) news with
      | error e =>
        rw [rest] at ok
        cases ok
      | ok tail =>
        have atLeast : ∀ u ∈ current :: currents, current.slot ≤ u.slot := by
          intro u inCurrents
          rcases List.mem_cons.mp inCurrents with rfl | later
          · exact le_rfl
          · exact (currentBelow u later).le
        have coveredRest : ∀ u ∈ current :: currents, ∃ n ∈ news, u.slot < n.slot := by
          intro u inCurrents
          obtain ⟨n, inNew, below⟩ := covered u inCurrents
          rcases List.mem_cons.mp inNew with rfl | later
          · grind
          · exact ⟨n, later, below⟩
        exact (mergeVotes_respected rest sortedCurrents sortedNewRest coveredRest v mem).cons new
          (by grind)

theorem mem_drop_rootedCount {vs : VoteState} {newRoot : Option Slot} {v : LandedVote} (mem : v ∈ vs.votes)
    (above : ∀ r, newRoot = some r → r < v.slot) : v ∈ vs.votes.drop (vs.rootedCount newRoot) := by
  rcases newRoot with _ | r
  · simpa [rootedCount] using mem
  · exact List.mem_drop_takeWhile_length mem (decide_eq_false (Nat.not_le.mpr (above r rfl)))

/-- What replacing the tower `vs` by `vs'` must respect: the root only moves forward, the new tower
ends above every current vote, and every current vote above the new root is kept or had expired. -/
structure Supersedes (vs vs' : VoteState) : Prop where
  root_mono : ∀ r, vs.rootSlot = some r → ∃ r', vs'.rootSlot = some r' ∧ r ≤ r'
  last_newer : ∃ last, vs'.votes.getLast? = some last ∧ ∀ v ∈ vs.votes, v.slot < last.slot
  respected : ∀ v ∈ vs.votes, (∀ r, vs'.rootSlot = some r → r < v.slot) → LockoutRespected vs'.votes v

theorem doProcessProposal_supersedes {vs vs' : VoteState} (wf : vs.WellFormed)
    {slotHashes : List (Slot × Hash)} {epoch : Epoch} {slot : Slot} {lockouts : List Lockout}
    {root : Option Slot} {hash : Hash} {timestamp : Option UnixTimestamp}
    (ok : doProcessProposal vs slotHashes epoch slot lockouts root hash timestamp = some (.ok (), vs')) :
    Supersedes vs vs' := by
  obtain ⟨filtered, newRoot, checked, processed⟩ := doProcessProposal_ok ok
  obtain ⟨lastProposed, keptLast, newer⟩ := checkAndFilterProposedVoteState_ok checked
  obtain ⟨-, merged, earned, valid, -, isRoot⟩ := processNewVoteState_ok processed
  obtain ⟨-, roots, checkedVotes, mergeOk, -⟩ := validateNewVoteState_ok valid
  obtain ⟨chain, -, -, -⟩ := checkProposedVotes_ok checkedVotes
  have same := processNewVoteState_lockouts processed
  have written : vs'.votes.map LandedVote.lockout = filtered := by
    rw [same, List.map_map]
    simp [Function.comp_def]
  have allNewer : ∀ v ∈ vs.votes, v.slot < lastProposed.slot := by
    intro v mem
    cases isLast : vs.votes.getLast? with
    | none =>
      rw [List.getLast?_eq_none_iff] at isLast
      rw [isLast] at mem
      cases mem
    | some top =>
      exact Nat.lt_of_le_of_lt (slot_le_last wf.chain mem isLast) (newer top isLast)
  have lastMem : LandedVote.ofLockout lastProposed ∈ filtered.map LandedVote.ofLockout :=
    List.mem_map_of_mem (List.mem_of_getLast? keptLast)
  refine ⟨?_, ?_, ?_⟩
  · intro r current
    rw [isRoot]
    exact roots r current
  · have lastWritten : (vs'.votes.getLast?).map LandedVote.lockout = some lastProposed := by
      rw [← List.getLast?_map, written, keptLast]
    obtain ⟨last, isLast, lockout⟩ := Option.map_eq_some_iff.mp lastWritten
    have lastSlot : last.slot = lastProposed.slot := by rw [LandedVote.slot_eq, lockout]
    exact ⟨last, isLast, fun v mem => lastSlot ▸ allNewer v mem⟩
  · intro v mem above
    have remaining := mem_drop_rootedCount mem (isRoot ▸ above)
    have respected := mergeVotes_respected mergeOk
      ((slots_pairwise wf.chain).sublist (List.drop_sublist _ _)) (slots_pairwise chain)
      (fun u inRest => ⟨_, lastMem, by simpa using allNewer u (List.mem_of_mem_drop inRest)⟩) v remaining
    exact respected.of_lockouts same

/-- A tower sync that succeeds never rolls back the root and never drops a current vote above the new
root that was still locked out. -/
theorem towerSync_supersedes {vs vs' : VoteState} (wf : vs.WellFormed) {slotHashes : List (Slot × Hash)}
    {epoch : Epoch} {slot : Slot} {towerSync : TowerSync}
    (ok : doProcessTowerSync vs slotHashes epoch slot towerSync = some (.ok (), vs')) : Supersedes vs vs' :=
  doProcessProposal_supersedes wf ok

theorem towerSync_supersedes_extending :
    (⟨[⟨0, ⟨2, 2⟩⟩, ⟨0, ⟨3, 1⟩⟩], none, [], ⟨0, 0⟩⟩ : VoteState).WellFormed ∧
      doProcessTowerSync ⟨[⟨0, ⟨2, 2⟩⟩, ⟨0, ⟨3, 1⟩⟩], none, [], ⟨0, 0⟩⟩ [(4, 7), (3, 6), (2, 5)] 0 5
          ⟨[⟨2, 3⟩, ⟨3, 2⟩, ⟨4, 1⟩], none, 7, none, 0⟩ =
        some (.ok (), ⟨[⟨3, ⟨2, 3⟩⟩, ⟨2, ⟨3, 2⟩⟩, ⟨1, ⟨4, 1⟩⟩], none, [], ⟨0, 0⟩⟩) ∧
      Supersedes ⟨[⟨0, ⟨2, 2⟩⟩, ⟨0, ⟨3, 1⟩⟩], none, [], ⟨0, 0⟩⟩
        ⟨[⟨3, ⟨2, 3⟩⟩, ⟨2, ⟨3, 2⟩⟩, ⟨1, ⟨4, 1⟩⟩], none, [], ⟨0, 0⟩⟩ := by
  have wf : (⟨[⟨0, ⟨2, 2⟩⟩, ⟨0, ⟨3, 1⟩⟩], none, [], ⟨0, 0⟩⟩ : VoteState).WellFormed :=
    ⟨by decide, List.isChain_cons_cons.mpr ⟨⟨by decide, by decide, by decide⟩, List.isChain_singleton _⟩,
      by decide, by simp⟩
  have ok : doProcessTowerSync ⟨[⟨0, ⟨2, 2⟩⟩, ⟨0, ⟨3, 1⟩⟩], none, [], ⟨0, 0⟩⟩ [(4, 7), (3, 6), (2, 5)] 0 5
      ⟨[⟨2, 3⟩, ⟨3, 2⟩, ⟨4, 1⟩], none, 7, none, 0⟩ =
      some (.ok (), ⟨[⟨3, ⟨2, 3⟩⟩, ⟨2, ⟨3, 2⟩⟩, ⟨1, ⟨4, 1⟩⟩], none, [], ⟨0, 0⟩⟩) := by
    -- the scans are well-founded recursions, which `decide` does not unfold
    simp [doProcessTowerSync, doProcessProposal, checkAndFilterProposedVoteState, overwriteOldRoot, filterScan,
      retainUnfiltered, processNewVoteState, validateNewVoteState, rootedCount, mergeVotes]
    decide
  exact ⟨wf, ok, towerSync_supersedes wf ok⟩

end VoteProgram
