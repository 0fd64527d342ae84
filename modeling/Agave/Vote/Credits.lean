import Mathlib
import Agave.Library.List
import Agave.Vote.State

/-! The history `epoch_credits` kept by `increment_credits`. Each call opens its epoch in the
history (a first entry, the current entry, a new entry after an epoch that earned credits with the
oldest entry evicted past `MAX_EPOCH_CREDITS_HISTORY`, or the last entry moved to the new epoch when
its epoch earned nothing) and then adds the credits to the last entry. Over every run whose epochs
never go back, from an empty history, the epochs increase, each entry starts from the credits its
predecessor ended with, and `credits()` is the saturated total of the credits added. -/

namespace VoteProgram

open MachineInt

abbrev CreditEntry := Epoch × Nat × Nat

/-- The eviction of `increment_credits`: past `MAX_EPOCH_CREDITS_HISTORY` entries the oldest goes. -/
def evictOldest (history : List CreditEntry) : List CreditEntry :=
  if maxEpochCreditsHistory < history.length then history.tail else history

/-- How `increment_credits` opens `epoch` in `history` before it adds the credits to the last
entry of `opened`. -/
inductive OpensEpoch : List CreditEntry → Epoch → List CreditEntry → Prop
  | first (epoch : Epoch) : OpensEpoch [] epoch [(epoch, 0, 0)]
  | current (init : List CreditEntry) (epoch : Epoch) (credits prevCredits : Nat) :
      OpensEpoch (init ++ [(epoch, credits, prevCredits)]) epoch (init ++ [(epoch, credits, prevCredits)])
  | push (init : List CreditEntry) (lastEpoch epoch : Epoch) (credits prevCredits : Nat)
      (moved : epoch ≠ lastEpoch) (earned : credits ≠ prevCredits) :
      OpensEpoch (init ++ [(lastEpoch, credits, prevCredits)]) epoch
        (evictOldest (init ++ [(lastEpoch, credits, prevCredits), (epoch, credits, credits)]))
  | relabel (init : List CreditEntry) (lastEpoch epoch : Epoch) (credits : Nat) (moved : epoch ≠ lastEpoch) :
      OpensEpoch (init ++ [(lastEpoch, credits, credits)]) epoch (evictOldest (init ++ [(epoch, credits, credits)]))

/-- What the history keeps apart from its length: increasing epochs, entries that never lose
credits, each entry starting from the credits of the one before, and a last total within `u64`. -/
structure CreditChain (history : List CreditEntry) : Prop where
  epochs_lt : (history.map (·.1)).IsChain (· < ·)
  prev_le : ∀ entry ∈ history, entry.2.2 ≤ entry.2.1
  chained : history.IsChain fun older newer => newer.2.2 = older.2.1
  last_le : ∀ entry ∈ history.getLast?, entry.2.1 ≤ maxValue 64

structure CreditHistory (history : List CreditEntry) : Prop extends CreditChain history where
  length_le : history.length ≤ maxEpochCreditsHistory

namespace VoteState

/-- `credits`: the credits of the last entry of the history, or `0` before the first. -/
def credits (vs : VoteState) : Nat := (vs.epochCredits.getLast?.map (·.2.1)).getD 0

/-- `increment_credits` called with each `(epoch, credits)` of `calls` in turn. -/
def incrementCreditsEach (vs : VoteState) (calls : List (Epoch × Nat)) : VoteState :=
  calls.foldl (fun vs call => vs.incrementCredits call.1 call.2) vs

end VoteState

section Eviction

theorem length_evictOldest_le {history : List CreditEntry} (bound : history.length ≤ maxEpochCreditsHistory + 1) :
    (evictOldest history).length ≤ maxEpochCreditsHistory := by
  unfold evictOldest
  split_ifs with full
  · simp only [List.length_tail]
    omega
  · omega

theorem getLast?_evictOldest (history : List CreditEntry) : (evictOldest history).getLast? = history.getLast? := by
  unfold evictOldest
  split_ifs with full
  · match history, full with
    | _ :: second :: rest, _ => simp
  · rfl

theorem CreditChain.evictOldest {history : List CreditEntry} (chain : CreditChain history) :
    CreditChain (evictOldest history) := by
  unfold VoteProgram.evictOldest
  split_ifs with full
  · have last := getLast?_evictOldest history
    simp only [VoteProgram.evictOldest, if_pos full] at last
    refine ⟨?_, fun entry mem => chain.prev_le entry (List.mem_of_mem_tail mem), chain.chained.tail, ?_⟩
    · simpa only [List.map_tail] using chain.epochs_lt.tail
    · simpa only [last] using chain.last_le
  · exact chain

end Eviction

section Chain

variable {init : List CreditEntry}

theorem CreditChain.replaceLast {last entry : CreditEntry} (chain : CreditChain (init ++ [last]))
    (epoch_le : last.1 ≤ entry.1) (prev_eq : entry.2.2 = last.2.2) (credits_le : last.2.1 ≤ entry.2.1)
    (bounded : entry.2.1 ≤ maxValue 64) : CreditChain (init ++ [entry]) := by
  obtain ⟨epochs_lt, prev_le, chained, -⟩ := chain
  simp only [List.map_append, List.map_cons, List.map_nil, List.isChain_append] at epochs_lt chained
  refine ⟨?_, ?_, chained.1.append (List.isChain_singleton _) ?_, by simpa using bounded⟩
  · rw [List.map_append]
    refine epochs_lt.1.append (List.isChain_singleton _) ?_
    intro x before y head
    simp only [List.map_cons, List.map_nil, List.head?_cons, Option.mem_def, Option.some.injEq] at head
    subst head
    exact lt_of_lt_of_le (epochs_lt.2.2 x before last.1 rfl) epoch_le
  · intro e mem
    rcases List.mem_append.1 mem with old | new
    · exact prev_le e (List.mem_append_left _ old)
    · rw [List.mem_singleton.1 new, prev_eq]
      exact (prev_le last (by simp)).trans credits_le
  · intro x before y head
    simp only [List.head?_cons, Option.mem_def, Option.some.injEq] at head
    subst head
    rw [prev_eq]
    exact chained.2.2 x before last rfl

theorem CreditChain.push {last : CreditEntry} {epoch : Epoch} (chain : CreditChain (init ++ [last]))
    (later : last.1 < epoch) : CreditChain (init ++ [last, (epoch, last.2.1, last.2.1)]) := by
  obtain ⟨epochs_lt, prev_le, chained, last_le⟩ := chain
  have bounded : last.2.1 ≤ maxValue 64 := last_le last (by simp)
  have split : init ++ [last, (epoch, last.2.1, last.2.1)] = (init ++ [last]) ++ [(epoch, last.2.1, last.2.1)] := by
    simp
  rw [split]
  refine ⟨?_, ?_, chained.append (List.isChain_singleton _) ?_, by simpa using bounded⟩
  · rw [List.map_append]
    refine epochs_lt.append (List.isChain_singleton _) ?_
    intro x before y head
    simp only [List.map_append, List.map_cons, List.map_nil, List.getLast?_concat, Option.mem_def,
      Option.some.injEq, List.head?_cons] at before head
    subst before head
    exact later
  · intro e mem
    rcases List.mem_append.1 mem with old | new
    · exact prev_le e old
    · rw [List.mem_singleton.1 new]
  · intro x before y head
    simp only [List.getLast?_concat, Option.mem_def, Option.some.injEq, List.head?_cons] at before head
    subst before head
    rfl

theorem CreditChain.addToLastCredits {history : List CreditEntry} (chain : CreditChain history) (credits : Nat) :
    CreditChain (VoteState.addToLastCredits history credits) := by
  rcases List.eq_nil_or_concat' history with empty | ⟨init, last, rfl⟩
  · subst empty
    exact chain
  · have bounded : last.2.1 ≤ maxValue 64 := chain.last_le last (by simp)
    rw [VoteState.addToLastCredits, List.modifyLast_concat]
    exact chain.replaceLast le_rfl rfl (le_saturatingAdd bounded) (saturatingAdd_le_max _ _ _)

end Chain

section Opening

variable {history opened : List CreditEntry} {epoch : Epoch}

theorem VoteState.incrementCredits_opens (vs : VoteState) (epoch : Epoch) (credits : Nat) :
    ∃ opened, OpensEpoch vs.epochCredits epoch opened ∧
      (vs.incrementCredits epoch credits).epochCredits = VoteState.addToLastCredits opened credits := by
  rcases List.eq_nil_or_concat' vs.epochCredits with empty | ⟨init, ⟨lastEpoch, lastCredits, prevCredits⟩, history⟩
  · refine ⟨_, empty ▸ OpensEpoch.first epoch, ?_⟩
    simp only [VoteState.incrementCredits, empty, List.getLast?_nil]
  · by_cases moved : epoch = lastEpoch
    · subst moved
      refine ⟨_, history ▸ OpensEpoch.current init epoch lastCredits prevCredits, ?_⟩
      simp only [VoteState.incrementCredits, history, List.getLast?_concat, ne_eq, not_true_eq_false,
        if_false]
    · by_cases earned : lastCredits = prevCredits
      · subst earned
        refine ⟨_, history ▸ OpensEpoch.relabel init lastEpoch epoch lastCredits moved, ?_⟩
        simp only [VoteState.incrementCredits, history, List.getLast?_concat, ne_eq, moved,
          not_false_eq_true, if_true, not_true_eq_false, if_false, List.dropLast_concat, evictOldest]
      · refine ⟨_, history ▸ OpensEpoch.push init lastEpoch epoch lastCredits prevCredits moved earned, ?_⟩
        simp only [VoteState.incrementCredits, history, List.getLast?_concat, ne_eq, moved, earned,
          not_false_eq_true, if_true, List.append_assoc, List.cons_append, List.nil_append, evictOldest]

theorem OpensEpoch.length_le (opens : OpensEpoch history epoch opened)
    (bound : history.length ≤ maxEpochCreditsHistory) : opened.length ≤ maxEpochCreditsHistory := by
  cases opens with
  | first => simp [maxEpochCreditsHistory]
  | current => exact bound
  | push =>
    apply length_evictOldest_le
    simp only [List.length_append, List.length_cons] at bound ⊢
    omega
  | relabel =>
    apply length_evictOldest_le
    simp only [List.length_append, List.length_cons] at bound ⊢
    omega

theorem OpensEpoch.getLast? (opens : OpensEpoch history epoch opened) :
    opened.getLast?.map (fun entry => (entry.1, entry.2.1)) =
      some (epoch, (history.getLast?.map (·.2.1)).getD 0) := by
  cases opens with
  | first => rfl
  | current => simp
  | push => simp [getLast?_evictOldest]
  | relabel => simp [getLast?_evictOldest]

theorem OpensEpoch.chain (opens : OpensEpoch history epoch opened) (chain : CreditChain history)
    (later : ∀ last ∈ history.getLast?, last.1 ≤ epoch) : CreditChain opened := by
  cases opens with
  | first =>
    refine ⟨List.isChain_singleton _, ?_, List.isChain_singleton _, ?_⟩ <;> simp
  | current => exact chain
  | push init lastEpoch epoch credits prevCredits moved =>
    have le : lastEpoch ≤ epoch := later (lastEpoch, credits, prevCredits) (by simp)
    exact (chain.push (lt_of_le_of_ne le (Ne.symm moved))).evictOldest
  | relabel init lastEpoch epoch credits moved =>
    have le : lastEpoch ≤ epoch := later (lastEpoch, credits, credits) (by simp)
    have relabelled : CreditChain (init ++ [(epoch, credits, credits)]) :=
      chain.replaceLast le rfl le_rfl (chain.last_le (lastEpoch, credits, credits) (by simp))
    exact relabelled.evictOldest

end Opening

namespace VoteState

variable {vs : VoteState} {epoch : Epoch}

theorem getLast?_epoch_le_of_currentEpoch_le (later : vs.currentEpoch ≤ epoch) :
    ∀ last ∈ vs.epochCredits.getLast?, last.1 ≤ epoch := by
  intro last mem
  simpa [currentEpoch, Option.mem_def.1 mem] using later

end VoteState

open VoteState

variable {vs : VoteState} {epoch : Epoch}

theorem CreditHistory.incrementCredits (holds : CreditHistory vs.epochCredits) (later : vs.currentEpoch ≤ epoch)
    (credits : Nat) : CreditHistory (vs.incrementCredits epoch credits).epochCredits := by
  obtain ⟨opened, opens, result⟩ := vs.incrementCredits_opens epoch credits
  rw [result]
  have chain := opens.chain holds.toCreditChain (getLast?_epoch_le_of_currentEpoch_le later)
  refine ⟨chain.addToLastCredits credits, ?_⟩
  rw [addToLastCredits, List.length_modifyLast]
  exact opens.length_le holds.length_le

theorem VoteState.getLast?_incrementCredits (vs : VoteState) (epoch : Epoch) (credits : Nat) :
    (vs.incrementCredits epoch credits).epochCredits.getLast?.map (fun entry => (entry.1, entry.2.1)) =
      some (epoch, saturatingAdd 64 vs.credits credits) := by
  obtain ⟨opened, opens, result⟩ := vs.incrementCredits_opens epoch credits
  have last := opens.getLast?
  rw [result, addToLastCredits, List.getLast?_modifyLast, Option.map_map]
  rcases lastOpened : opened.getLast? with _ | ⟨e, c, p⟩
  · simp [lastOpened] at last
  · simp only [lastOpened, Option.map_some, Option.some.injEq, Prod.mk.injEq] at last
    simp [last.1, last.2, VoteState.credits]

@[simp] theorem VoteState.currentEpoch_incrementCredits (vs : VoteState) (epoch : Epoch) (credits : Nat) :
    (vs.incrementCredits epoch credits).currentEpoch = epoch := by
  have last := congrArg (fun last => (last.map (·.1)).getD 0) (vs.getLast?_incrementCredits epoch credits)
  simpa [currentEpoch, Option.map_map, Function.comp_def] using last

@[simp] theorem VoteState.credits_incrementCredits (vs : VoteState) (epoch : Epoch) (credits : Nat) :
    (vs.incrementCredits epoch credits).credits = saturatingAdd 64 vs.credits credits := by
  have last := congrArg (fun last => (last.map (·.2)).getD 0) (vs.getLast?_incrementCredits epoch credits)
  simpa [VoteState.credits, Option.map_map, Function.comp_def] using last

theorem CreditHistory.incrementCreditsEach {calls : List (Epoch × Nat)} (holds : CreditHistory vs.epochCredits)
    (later : ∀ call ∈ calls, vs.currentEpoch ≤ call.1)
    (nondecreasing : calls.Pairwise fun first second => first.1 ≤ second.1) :
    CreditHistory (vs.incrementCreditsEach calls).epochCredits := by
  induction calls generalizing vs with
  | nil => exact holds
  | cons call rest ih =>
    obtain ⟨first, rest_nondecreasing⟩ := List.pairwise_cons.1 nondecreasing
    apply ih (holds.incrementCredits (later call (by simp)) call.2) _ rest_nondecreasing
    intro next mem
    rw [currentEpoch_incrementCredits]
    exact first next mem

theorem VoteState.credits_incrementCreditsEach (calls : List (Epoch × Nat)) (bounded : vs.credits ≤ maxValue 64) :
    (vs.incrementCreditsEach calls).credits = min (maxValue 64) (vs.credits + (calls.map (·.2)).sum) := by
  induction calls generalizing vs with
  | nil =>
    simp only [incrementCreditsEach, List.foldl_nil, List.map_nil, List.sum_nil, Nat.add_zero]
    exact (min_eq_right bounded).symm
  | cons call rest ih =>
    have step : (vs.incrementCredits call.1 call.2).credits ≤ maxValue 64 := by
      rw [credits_incrementCredits]
      exact saturatingAdd_le_max _ _ _
    simp only [incrementCreditsEach, List.foldl_cons] at ih ⊢
    rw [ih step, credits_incrementCredits, saturatingAdd, List.map_cons, List.sum_cons]
    omega

/-- The history of `epoch_credits` after any run of `increment_credits` with non-decreasing epochs
from an empty history. -/
theorem VoteState.incrementCreditsEach_history (calls : List (Epoch × Nat))
    (nondecreasing : calls.Pairwise fun first second => first.1 ≤ second.1)
    (vs : VoteState) (empty : vs.epochCredits = []) :
    (vs.incrementCreditsEach calls).epochCredits.length ≤ maxEpochCreditsHistory ∧
      ((vs.incrementCreditsEach calls).epochCredits.map (·.1)).Pairwise (· < ·) ∧
      (∀ entry ∈ (vs.incrementCreditsEach calls).epochCredits, entry.2.2 ≤ entry.2.1) ∧
      (vs.incrementCreditsEach calls).epochCredits.IsChain (fun older newer => newer.2.2 = older.2.1) ∧
      (vs.incrementCreditsEach calls).credits = min (maxValue 64) (calls.map (·.2)).sum := by
  have initial : CreditHistory vs.epochCredits := by
    rw [empty]
    exact ⟨⟨List.isChain_nil, by simp, List.isChain_nil, by simp⟩, by decide⟩
  have start : vs.currentEpoch = 0 := by simp [currentEpoch, empty]
  have holds := initial.incrementCreditsEach (fun call _ => start ▸ Nat.zero_le call.1) nondecreasing
  have total := credits_incrementCreditsEach calls (show vs.credits ≤ maxValue 64 by simp [credits, empty])
  have zero : vs.credits = 0 := by simp [credits, empty]
  rw [zero, Nat.zero_add] at total
  exact ⟨holds.length_le, List.isChain_iff_pairwise.1 holds.epochs_lt, holds.prev_le, holds.chained, total⟩

theorem VoteState.incrementCreditsEach_history_run :
    ([(3, 2), (3, 1), (4, 0), (5, 7), (9, 1)] : List (Epoch × Nat)).Pairwise
        (fun first second => first.1 ≤ second.1) ∧
      (default : VoteState).epochCredits = [] ∧
      ((default : VoteState).incrementCreditsEach [(3, 2), (3, 1), (4, 0), (5, 7), (9, 1)]).credits = 11 :=
  have main := incrementCreditsEach_history [(3, 2), (3, 1), (4, 0), (5, 7), (9, 1)] (by decide) default rfl
  ⟨by decide, rfl, main.2.2.2.2.trans (by decide)⟩

end VoteProgram
