import Mathlib
import Agave.Library.StateMachine
import Agave.Vote.Spec

namespace VoteProgram

open VoteState StateMachine

/-- The operations of the vote program that change a tower, each as it succeeds. -/
inductive VoteStep : VoteState → VoteState → Prop
  | processNextVoteSlot (vs : VoteState) (slot : Slot) (epoch : Epoch) (currentSlot : Slot) :
      VoteStep vs (vs.processNextVoteSlot slot epoch currentSlot)
  | processVoteUnfiltered {vs vs' : VoteState} (voteSlots : List Slot) (vote : Vote)
      (slotHashes : List (Slot × Hash)) (epoch : Epoch) (currentSlot : Slot)
      (ok : processVoteUnfiltered vs voteSlots vote slotHashes epoch currentSlot = .ok vs') : VoteStep vs vs'
  | processVote {vs vs' : VoteState} (vote : Vote) (slotHashes : List (Slot × Hash)) (epoch : Epoch)
      (currentSlot : Slot) (ok : processVote vs vote slotHashes epoch currentSlot = .ok vs') : VoteStep vs vs'
  | doProcessVoteStateUpdate {vs vs' : VoteState} (slotHashes : List (Slot × Hash)) (epoch : Epoch)
      (slot : Slot) (voteStateUpdate : VoteStateUpdate)
      (ok : doProcessVoteStateUpdate vs slotHashes epoch slot voteStateUpdate = some (.ok (), vs')) :
      VoteStep vs vs'
  | doProcessTowerSync {vs vs' : VoteState} (slotHashes : List (Slot × Hash)) (epoch : Epoch) (slot : Slot)
      (towerSync : TowerSync) (ok : doProcessTowerSync vs slotHashes epoch slot towerSync = some (.ok (), vs')) :
      VoteStep vs vs'

/-- The tower invariant together with votes above every nonzero root. -/
def TowerInvariant (vs : VoteState) : Prop := vs.WellFormed ∧ vs.RootBacked

theorem foldl_processNextVoteSlot_invariant (epoch : Epoch) (currentSlot : Slot) :
    ∀ (voteSlots : List Slot) {vs : VoteState}, TowerInvariant vs →
      TowerInvariant (voteSlots.foldl (fun vs slot => vs.processNextVoteSlot slot epoch currentSlot) vs)
  | [], _, inv => inv
  | slot :: rest, _, inv =>
    foldl_processNextVoteSlot_invariant epoch currentSlot rest
      (processNextVoteSlot_wellFormed inv.1 inv.2 slot epoch currentSlot)

theorem processVoteUnfiltered_invariant {vs vs' : VoteState} {voteSlots : List Slot} {vote : Vote}
    {slotHashes : List (Slot × Hash)} {epoch : Epoch} {currentSlot : Slot} (inv : TowerInvariant vs)
    (ok : processVoteUnfiltered vs voteSlots vote slotHashes epoch currentSlot = .ok vs') : TowerInvariant vs' := by
  rw [(processVoteUnfiltered_ok ok).2]
  exact foldl_processNextVoteSlot_invariant epoch currentSlot voteSlots inv

theorem doProcessProposal_invariant {vs vs' : VoteState} {slotHashes : List (Slot × Hash)} {epoch : Epoch}
    {slot : Slot} {lockouts : List Lockout} {root : Option Slot} {hash : Hash} {timestamp : Option UnixTimestamp}
    (ok : doProcessProposal vs slotHashes epoch slot lockouts root hash timestamp = some (.ok (), vs')) :
    TowerInvariant vs' := by
  obtain ⟨_, _, _, processed⟩ := doProcessProposal_ok ok
  exact processNewVoteState_wellFormed processed

theorem voteStep_preserved : Preserved VoteStep TowerInvariant := by
  intro vs vs' inv step
  cases step with
  | processNextVoteSlot slot epoch currentSlot => exact processNextVoteSlot_wellFormed inv.1 inv.2 slot epoch currentSlot
  | processVoteUnfiltered voteSlots vote slotHashes epoch currentSlot ok => exact processVoteUnfiltered_invariant inv ok
  | processVote vote slotHashes epoch currentSlot ok =>
    obtain ⟨voteSlots, unfiltered⟩ := processVote_ok ok
    exact processVoteUnfiltered_invariant inv unfiltered
  | doProcessVoteStateUpdate slotHashes epoch slot voteStateUpdate ok => exact doProcessProposal_invariant ok
  | doProcessTowerSync slotHashes epoch slot towerSync ok => exact doProcessProposal_invariant ok

theorem default_invariant : TowerInvariant default := by
  refine ⟨⟨by simp [default, maxLockoutHistory], List.isChain_nil, by simp [default], ?_⟩, ?_⟩
  · intro r isRoot
    cases isRoot
  · intro r isRoot
    cases isRoot

/-- Every tower operation that succeeds keeps the tower invariant together with votes above a nonzero
root, and every state reached from `VoteState::default()` is well-formed. -/
theorem tower_invariant :
    Preserved VoteStep TowerInvariant ∧ ∀ vs, Reachable VoteStep default vs → vs.WellFormed :=
  ⟨voteStep_preserved, fun _ reach => (voteStep_preserved.reachable default_invariant reach).1⟩

/-- A well-formed state with a root and no votes accepts a vote below its root. -/
theorem tower_invariant_root_without_votes :
    (⟨[], some 5, [], ⟨0, 0⟩⟩ : VoteState).WellFormed ∧
      ¬ ((⟨[], some 5, [], ⟨0, 0⟩⟩ : VoteState).processNextVoteSlot 3 0 0).WellFormed := by
  refine ⟨⟨by simp [maxLockoutHistory], List.isChain_nil, by simp, by simp⟩, ?_⟩
  intro wf
  have votes : ((⟨[], some 5, [], ⟨0, 0⟩⟩ : VoteState).processNextVoteSlot 3 0 0).votes = [⟨0, ⟨3, 1⟩⟩] := by
    decide
  have root : ((⟨[], some 5, [], ⟨0, 0⟩⟩ : VoteState).processNextVoteSlot 3 0 0).rootSlot = some 5 := by
    decide
  have below := wf.root_lt 5 root (by decide) ⟨0, ⟨3, 1⟩⟩ (by simp [votes])
  simp at below

end VoteProgram
