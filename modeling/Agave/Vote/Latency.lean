import Mathlib
import Agave.Vote.Spec

/-! The latencies `process_new_vote_state` writes. The merge loop copies the latency of a current
vote onto the proposed vote of the same slot, and a second pass computes every latency that is
still zero. Over sorted towers the merge is a lookup by slot among the unrooted current votes, so a
stored latency is kept only when it is not zero. -/

namespace VoteProgram

open VoteState

/-- The vote the merge writes for a proposed vote: with the latency of the current vote of its
slot, if there is one. -/
def carryLatency (currents : List LandedVote) (proposed : LandedVote) : LandedVote :=
  match currents.find? (·.slot = proposed.slot) with
  | some current => { proposed with latency := current.latency }
  | none => proposed

section Carry

variable {current proposed : LandedVote} {currents : List LandedVote}

@[simp] theorem carryLatency_lockout (currents : List LandedVote) (proposed : LandedVote) :
    (carryLatency currents proposed).lockout = proposed.lockout := by
  unfold carryLatency
  split <;> rfl

theorem carryLatency_cons_of_lt (below : current.slot < proposed.slot) :
    carryLatency (current :: currents) proposed = carryLatency currents proposed := by
  have differs : ¬current.slot = proposed.slot := Nat.ne_of_lt below
  simp only [carryLatency, List.find?_cons, differs, decide_false]

theorem carryLatency_cons_of_eq (same : current.slot = proposed.slot) :
    carryLatency (current :: currents) proposed = { proposed with latency := current.latency } := by
  simp only [carryLatency, List.find?_cons, same, decide_true]

theorem carryLatency_of_lt (above : ∀ c ∈ currents, proposed.slot < c.slot) :
    carryLatency currents proposed = proposed := by
  have missing : currents.find? (·.slot = proposed.slot) = none := by
    rw [List.find?_eq_none]
    intro c mem same
    exact absurd (of_decide_eq_true same) (Nat.ne_of_gt (above c mem))
  simp only [carryLatency, missing]

end Carry

theorem mergeVotes_eq_map_carryLatency :
    ∀ {currents news merged : List LandedVote}, currents.Pairwise (fun older newer => older.slot < newer.slot) →
      news.Pairwise (fun older newer => older.slot < newer.slot) → mergeVotes currents news = .ok merged →
      merged = news.map (carryLatency currents)
  | [], news, merged, _, _, ok => by
    rw [mergeVotes_nil] at ok
    cases ok
    exact (List.map_id' news).symm.trans (List.map_congr_left fun proposed _ => by simp [carryLatency])
  | _ :: _, [], merged, _, _, ok => by
    simp only [mergeVotes] at ok
    cases ok
    rfl
  | current :: currents, new :: news, merged, sortedCurrents, sortedNews, ok => by
    have restCurrents := sortedCurrents.of_cons
    have restNews := sortedNews.of_cons
    have newBelow : ∀ later ∈ news, new.slot < later.slot :=
      fun later => List.rel_of_pairwise_cons sortedNews
    have currentBelow : ∀ later ∈ currents, current.slot < later.slot :=
      fun later => List.rel_of_pairwise_cons sortedCurrents
    simp only [mergeVotes] at ok
    split at ok
    · next older =>
      split_ifs at ok
      have before : current.slot < new.slot := Nat.compare_eq_lt.1 older
      rw [mergeVotes_eq_map_carryLatency restCurrents sortedNews ok]
      refine List.map_congr_left fun later mem => (carryLatency_cons_of_lt ?_).symm
      rcases List.mem_cons.1 mem with rfl | after
      · exact before
      · exact before.trans (newBelow later after)
    · next same =>
      split_ifs at ok
      have equal : current.slot = new.slot := Nat.compare_eq_eq.1 same
      cases rest : mergeVotes currents news with
      | error e =>
        rw [rest] at ok
        cases ok
      | ok tail =>
        rw [rest] at ok
        cases ok
        rw [mergeVotes_eq_map_carryLatency restCurrents restNews rest, List.map_cons,
          carryLatency_cons_of_eq equal]
        refine congrArg _ (List.map_congr_left fun later mem => (carryLatency_cons_of_lt ?_).symm)
        exact equal ▸ newBelow later mem
    · next newer =>
      have after : new.slot < current.slot := Nat.compare_eq_gt.1 newer
      cases rest : mergeVotes (current :: currents) news with
      | error e =>
        rw [rest] at ok
        cases ok
      | ok tail =>
        rw [rest] at ok
        cases ok
        rw [mergeVotes_eq_map_carryLatency sortedCurrents restNews rest, List.map_cons]
        refine congrArg (· :: _) (carryLatency_of_lt fun c mem => ?_).symm
        rcases List.mem_cons.1 mem with rfl | later
        · exact after
        · exact after.trans (currentBelow c later)

theorem fillLatency_latency (currentSlot : Slot) (vote : LandedVote) :
    (fillLatency currentSlot vote).latency =
      if vote.latency = 0 then computeVoteLatency vote.slot currentSlot else vote.latency := by
  unfold fillLatency
  split <;> rfl

/-- The latencies a successful `process_new_vote_state` writes over a well-formed state: the vote of
a slot among the unrooted current votes has the stored latency unless that is zero, any other vote
has the proposed latency unless that is zero, and a zero latency is computed from the slot. -/
theorem processNewVoteState_latency {vs vs' : VoteState} (wf : vs.WellFormed) {newState : List LandedVote}
    {newRoot : Option Slot} {timestamp : Option UnixTimestamp} {epoch : Epoch} {currentSlot : Slot}
    (ok : processNewVoteState vs newState newRoot timestamp epoch currentSlot = some (.ok (), vs')) :
    ∀ written ∈ vs'.votes,
      (∀ current ∈ vs.votes.drop (vs.rootedCount newRoot), current.slot = written.slot →
        written.latency =
          if current.latency = 0 then computeVoteLatency written.slot currentSlot else current.latency) ∧
      ((∀ current ∈ vs.votes.drop (vs.rootedCount newRoot), current.slot ≠ written.slot) →
        ∃ proposed ∈ newState, proposed.lockout = written.lockout ∧
          written.latency =
            if proposed.latency = 0 then computeVoteLatency written.slot currentSlot else proposed.latency) := by
  obtain ⟨-, merged, earned, valid, votes, -⟩ := processNewVoteState_ok ok
  obtain ⟨-, -, checked, mergeOk, -⟩ := validateNewVoteState_ok valid
  obtain ⟨chain, -, -, -⟩ := checkProposedVotes_ok checked
  have sorted := (slots_pairwise wf.chain).sublist (List.drop_sublist (vs.rootedCount newRoot) vs.votes)
  have distinct : ((vs.votes.drop (vs.rootedCount newRoot)).map LandedVote.slot).Nodup :=
    (List.pairwise_map.2 sorted).nodup
  intro written mem
  rw [votes, mergeVotes_eq_map_carryLatency sorted (slots_pairwise chain) mergeOk, List.map_map,
    List.mem_map] at mem
  obtain ⟨proposed, proposedMem, rfl⟩ := mem
  simp only [Function.comp_apply, fillLatency_latency, LandedVote.slot_eq, fillLatency_lockout,
    carryLatency_lockout]
  cases found : (vs.votes.drop (vs.rootedCount newRoot)).find? (·.slot = proposed.slot) with
  | some current =>
    have currentMem := List.mem_of_find?_eq_some found
    have same : current.slot = proposed.slot :=
      of_decide_eq_true (List.find?_some (p := fun vote : LandedVote => decide (vote.slot = proposed.slot)) found)
    have carried : carryLatency (vs.votes.drop (vs.rootedCount newRoot)) proposed =
        { proposed with latency := current.latency } := by
      simp only [carryLatency, found]
    rw [carried]
    constructor
    · intro other otherMem otherSame
      have equal := List.inj_on_of_nodup_map distinct otherMem currentMem (by simpa using otherSame.trans same.symm)
      subst equal
      rfl
    · intro missing
      exact absurd same (missing current currentMem)
  | none =>
    have carried : carryLatency (vs.votes.drop (vs.rootedCount newRoot)) proposed = proposed := by
      simp only [carryLatency, found]
    rw [carried]
    constructor
    · intro other otherMem otherSame
      have absent := List.find?_eq_none.1 found other otherMem
      exact absurd (decide_eq_true (by simpa using otherSame)) absent
    · intro _
      exact ⟨proposed, proposedMem, rfl, rfl⟩

theorem processNewVoteState_latency_recomputed :
    let vs : VoteState := ⟨[⟨0, ⟨1, 1⟩⟩], none, [], ⟨0, 0⟩⟩
    let vs' : VoteState := { vs with votes := [⟨4, ⟨1, 1⟩⟩] }
    vs.WellFormed ∧ processNewVoteState vs [⟨0, ⟨1, 1⟩⟩] none none 0 5 = some (.ok (), vs') ∧
      ∀ written ∈ vs'.votes, written.latency = computeVoteLatency written.slot 5 := by
  intro vs vs'
  have wf : vs.WellFormed := ⟨by decide, List.isChain_singleton _, by simp [vs, maxLockoutHistory], by simp [vs]⟩
  have merged : mergeVotes [⟨0, ⟨1, 1⟩⟩] [⟨0, ⟨1, 1⟩⟩] = .ok [⟨0, ⟨1, 1⟩⟩] := by
    rw [mergeVotes]
    simp [mergeVotes_nil]
    rfl
  have ok : processNewVoteState vs [⟨0, ⟨1, 1⟩⟩] none none 0 5 = some (.ok (), vs') := by
    simp only [vs, processNewVoteState, validateNewVoteState, rootedCount, List.drop_zero, merged]
    rfl
  refine ⟨wf, ok, fun written mem => ?_⟩
  have kept := (processNewVoteState_latency wf ok written mem).1 ⟨0, ⟨1, 1⟩⟩ (by simp [vs, rootedCount])
  simp only [vs', List.mem_singleton] at mem
  subst mem
  simpa using kept rfl

/-- A slot first voted on at latency zero and proposed again has its latency computed, not kept. -/
theorem processNewVoteState_zero_latency_recomputed :
    let vs : VoteState := ⟨[⟨0, ⟨1, 1⟩⟩], none, [], ⟨0, 0⟩⟩
    processNewVoteState vs [⟨0, ⟨1, 1⟩⟩] none none 0 5 = some (.ok (), { vs with votes := [⟨4, ⟨1, 1⟩⟩] }) ∧
      (⟨1, 1⟩ : Lockout) ∈ vs.votes.map LandedVote.lockout ∧ (4 : Nat) ≠ 0 := by
  intro vs
  have merged : mergeVotes [⟨0, ⟨1, 1⟩⟩] [⟨0, ⟨1, 1⟩⟩] = .ok [⟨0, ⟨1, 1⟩⟩] := by
    rw [mergeVotes]
    simp [mergeVotes_nil]
    rfl
  refine ⟨?_, by simp [vs], by decide⟩
  simp only [vs, processNewVoteState, validateNewVoteState, rootedCount, List.drop_zero, merged]
  rfl

end VoteProgram
