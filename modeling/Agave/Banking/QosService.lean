import Mathlib
import Agave.Cost.Accounting

/-! `QosService` of the banking stage: a batch's costs are offered to the block's tracker in order
and the ones that fit are selected and counted in flight. Once the batch has been recorded, each
selected cost is updated by what its execution used or removed if it was not committed; when the
batch could not be recorded at all, the selected costs are removed. The error of a cost that does
not fit is the tracker's, converted by `TransactionError::from`. -/

namespace Banking

open MachineInt Runtime CostModel

variable {ε : Type*}

/-- `ACCOUNT_DATA_COST_PAGE_SIZE`. -/
def accountDataCostPageSize : Nat := 32 * 1024

/-- `DEFAULT_HEAP_COST`. -/
def defaultHeapCost : Nat := 8

/-- `FeeStructure::calculate_memory_usage_cost` at the default heap cost. -/
def calculateLoadedAccountsDataSizeCost (loadedAccountsDataSize : Nat) : Nat :=
  saturatingMul 64 (saturatingAdd 64 loadedAccountsDataSize (accountDataCostPageSize - 1) / accountDataCostPageSize)
    defaultHeapCost

inductive CommitTransactionDetails
  | committed (computeUnits loadedAccountsDataSize : Nat)
  | notCommitted
  deriving DecidableEq, Repr

/-- The costs of a batch the tracker took. -/
def includedCosts (results : List (Except ε TransactionCost)) : List TransactionCost :=
  results.filterMap Except.toOption

@[simp] theorem includedCosts_nil : includedCosts ([] : List (Except ε TransactionCost)) = [] := rfl

@[simp] theorem includedCosts_ok (txCost : TransactionCost) (results : List (Except ε TransactionCost)) :
    includedCosts (.ok txCost :: results) = txCost :: includedCosts results := rfl

@[simp] theorem includedCosts_error (e : ε) (results : List (Except ε TransactionCost)) :
    includedCosts (.error e :: results) = includedCosts results := rfl

namespace QosService

section Select

variable (fromCostTrackerError : CostTrackerError → ε)

/-- The loop of `select_transactions_per_cost`: each computed cost is offered to the tracker in
turn, and the costs that fit are counted. -/
def selectTransactionsLoop :
    CostTracker → Nat → List (Except ε TransactionCost) → List (Except ε TransactionCost) × Nat × CostTracker
  | t, numIncluded, [] => ([], numIncluded, t)
  | t, numIncluded, .ok cost :: costs =>
    match t.tryAdd cost with
    | .ok (_, t') =>
      let rest := selectTransactionsLoop t' (numIncluded + 1) costs
      (.ok cost :: rest.1, rest.2)
    | .error e =>
      let rest := selectTransactionsLoop t numIncluded costs
      (.error (fromCostTrackerError e) :: rest.1, rest.2)
  | t, numIncluded, .error e :: costs =>
    let rest := selectTransactionsLoop t numIncluded costs
    (.error e :: rest.1, rest.2)

/-- The results for the batch, how many of its costs were selected, and the tracker. -/
def selectTransactionsPerCost (t : CostTracker) (transactionsCosts : List (Except ε TransactionCost)) :
    List (Except ε TransactionCost) × Nat × CostTracker :=
  let selected := selectTransactionsLoop fromCostTrackerError t 0 transactionsCosts
  (selected.1, selected.2.1, selected.2.2.addTransactionsInFlight selected.2.1)

/-- `select_and_accumulate_transaction_costs` on costs already computed: the results, and how many
transactions the cost model throttled. -/
def selectAndAccumulateTransactionCosts (t : CostTracker) (transactionCosts : List (Except ε TransactionCost)) :
    (List (Except ε TransactionCost) × Nat) × CostTracker :=
  let selected := selectTransactionsPerCost fromCostTrackerError t transactionCosts
  ((selected.1, transactionCosts.length - selected.2.1), selected.2.2)

end Select

/-- One pass of the loop of `remove_unrecorded_transaction_costs`. -/
def removeUnrecorded (state : CostTracker × Nat) : Except ε TransactionCost → CostTracker × Nat
  | .ok txCost => (state.1.remove txCost, state.2 + 1)
  | .error _ => state

def removeUnrecordedTransactionCosts (t : CostTracker) (transactionCostResults : List (Except ε TransactionCost)) :
    CostTracker :=
  let removed := transactionCostResults.foldl removeUnrecorded (t, 0)
  removed.1.subTransactionsInFlight removed.2

/-- One pass of the loop of `remove_or_update_recorded_transaction_costs`. -/
def removeOrUpdateRecorded (state : CostTracker × Nat) :
    Except ε TransactionCost × CommitTransactionDetails → CostTracker × Nat
  | (.ok txCost, .committed computeUnits loadedAccountsDataSize) =>
    (state.1.updateExecutionCost txCost computeUnits (calculateLoadedAccountsDataSizeCost loadedAccountsDataSize),
      state.2 + 1)
  | (.ok txCost, .notCommitted) => (state.1.remove txCost, state.2 + 1)
  | (.error _, _) => state

/-- The results and the statuses are zipped: a result without a status is neither removed nor
updated. -/
def removeOrUpdateRecordedTransactionCosts (t : CostTracker)
    (transactionCostResults : List (Except ε TransactionCost))
    (transactionCommittedStatus : List CommitTransactionDetails) : CostTracker :=
  let updated := (transactionCostResults.zip transactionCommittedStatus).foldl removeOrUpdateRecorded (t, 0)
  updated.1.subTransactionsInFlight updated.2

def removeOrUpdateCosts (t : CostTracker) (transactionCostResults : List (Except ε TransactionCost)) :
    Option (List CommitTransactionDetails) → CostTracker
  | some transactionCommittedStatus =>
    removeOrUpdateRecordedTransactionCosts t transactionCostResults transactionCommittedStatus
  | none => removeUnrecordedTransactionCosts t transactionCostResults

/-- The charges a recorded batch leaves in the tracker: the executed cost of each selected
transaction that was committed. -/
def committedCharges : List (Except ε TransactionCost × CommitTransactionDetails) → List Charge
  | [] => []
  | (.ok txCost, .committed computeUnits loadedAccountsDataSize) :: entries =>
    Charge.executed txCost computeUnits (calculateLoadedAccountsDataSizeCost loadedAccountsDataSize) ::
      committedCharges entries
  | _ :: entries => committedCharges entries

/-! ### Selection -/

section SelectLoop

variable (fromCostTrackerError : CostTrackerError → ε)

/-- A result of the selection is the cost it was given or an error. -/
def Kept (result cost : Except ε TransactionCost) : Prop := result = cost ∨ result.toOption = none

theorem selectTransactionsLoop_kept : ∀ (t : CostTracker) (numIncluded : Nat) (costs : List (Except ε TransactionCost)),
    List.Forall₂ Kept (selectTransactionsLoop fromCostTrackerError t numIncluded costs).1 costs
  | _, _, [] => .nil
  | t, numIncluded, .ok cost :: costs => by
    rw [selectTransactionsLoop]
    split
    · exact .cons (.inl rfl) (selectTransactionsLoop_kept _ _ costs)
    · exact .cons (.inr rfl) (selectTransactionsLoop_kept _ _ costs)
  | _, _, .error _ :: costs => .cons (.inl rfl) (selectTransactionsLoop_kept _ _ costs)

theorem includedCosts_sublist_of_kept {results costs : List (Except ε TransactionCost)}
    (kept : List.Forall₂ Kept results costs) : (includedCosts results).Sublist (includedCosts costs) := by
  induction kept with
  | nil => exact .slnil
  | @cons result cost results costs same _ ih =>
    rcases same with rfl | dropped
    · cases result with
      | ok txCost => exact ih.cons_cons txCost
      | error e => exact ih
    · cases result with
      | ok txCost => cases dropped
      | error e =>
        cases cost with
        | ok txCost => exact ih.cons txCost
        | error e' => exact ih

theorem committedCharges_sublist_of_kept {results costs : List (Except ε TransactionCost)}
    (kept : List.Forall₂ Kept results costs) :
    ∀ statuses : List CommitTransactionDetails,
      (committedCharges (results.zip statuses)).Sublist (committedCharges (costs.zip statuses)) := by
  induction kept with
  | nil => exact fun _ => .slnil
  | @cons result cost results costs same _ ih =>
    rintro (_ | ⟨status, statuses⟩)
    · exact .slnil
    rw [List.zip_cons_cons, List.zip_cons_cons]
    rcases same with rfl | dropped
    · cases result with
      | ok txCost =>
        cases status with
        | committed computeUnits loadedAccountsDataSize => exact (ih statuses).cons_cons _
        | notCommitted => exact ih statuses
      | error e => exact ih statuses
    · cases result with
      | ok txCost => cases dropped
      | error e =>
        cases cost with
        | ok txCost =>
          cases status with
          | committed computeUnits loadedAccountsDataSize => exact (ih statuses).cons _
          | notCommitted => exact ih statuses
        | error e' => exact ih statuses

theorem selectTransactionsLoop_numIncluded : ∀ (t : CostTracker) (numIncluded : Nat) (costs : List (Except ε TransactionCost)),
    (selectTransactionsLoop fromCostTrackerError t numIncluded costs).2.1 =
      numIncluded + (includedCosts (selectTransactionsLoop fromCostTrackerError t numIncluded costs).1).length
  | _, _, [] => rfl
  | t, numIncluded, .ok cost :: costs => by
    rw [selectTransactionsLoop]
    split
    · rw [includedCosts_ok, List.length_cons, selectTransactionsLoop_numIncluded]
      omega
    · rw [includedCosts_error, selectTransactionsLoop_numIncluded]
  | _, _, .error _ :: costs => by
    rw [selectTransactionsLoop, includedCosts_error, selectTransactionsLoop_numIncluded]

theorem selectTransactionsLoop_inFlightTransactionCount :
    ∀ (t : CostTracker) (numIncluded : Nat) (costs : List (Except ε TransactionCost)),
      (selectTransactionsLoop fromCostTrackerError t numIncluded costs).2.2.inFlightTransactionCount =
        t.inFlightTransactionCount
  | _, _, [] => rfl
  | t, numIncluded, .ok cost :: costs => by
    rw [selectTransactionsLoop]
    split
    · rename_i updatedCosts t' added
      rw [selectTransactionsLoop_inFlightTransactionCount, (CostTracker.tryAdd_eq_ok added).2.1,
        CostTracker.addTransactionCost_inFlightTransactionCount]
    · exact selectTransactionsLoop_inFlightTransactionCount _ _ costs
  | _, _, .error _ :: costs => selectTransactionsLoop_inFlightTransactionCount _ _ costs

theorem selectTransactionsLoop_accounts : ∀ (t : CostTracker) (numIncluded : Nat)
    (costs : List (Except ε TransactionCost)) (held : List Charge), Accounts t held →
    Bounded ((includedCosts costs).map Charge.estimate ++ held) →
    Accounts (selectTransactionsLoop fromCostTrackerError t numIncluded costs).2.2
      ((includedCosts (selectTransactionsLoop fromCostTrackerError t numIncluded costs).1).map Charge.estimate ++ held)
  | _, _, [], _, acc, _ => acc
  | t, numIncluded, .ok cost :: costs, held, acc, bounded => by
    rw [includedCosts_ok, List.map_cons, List.cons_append] at bounded
    rw [selectTransactionsLoop]
    split
    · rename_i updatedCosts t' added
      have fits : Bounded (Charge.estimate cost :: held) :=
        bounded.subperm ((List.sublist_append_right _ held).cons_cons _).subperm
      have first : Accounts t' (Charge.estimate cost :: held) := acc.tryAdd fits added
      have rest := selectTransactionsLoop_accounts t' (numIncluded + 1) costs (Charge.estimate cost :: held) first
        (bounded.subperm List.perm_middle.subperm)
      rw [includedCosts_ok, List.map_cons, List.cons_append]
      exact rest.perm List.perm_middle
    · exact selectTransactionsLoop_accounts t numIncluded costs held acc
        (bounded.subperm (List.sublist_cons_self _ _).subperm)
  | t, numIncluded, .error _ :: costs, held, acc, bounded =>
    selectTransactionsLoop_accounts t numIncluded costs held acc bounded

end SelectLoop

/-! ### Removal of a batch that was not recorded -/

section Unrecorded

variable {results : List (Except ε TransactionCost)}

theorem foldl_removeUnrecorded_count :
    ∀ (results : List (Except ε TransactionCost)) (state : CostTracker × Nat),
      (results.foldl removeUnrecorded state).2 = state.2 + (includedCosts results).length
  | [], _ => rfl
  | .ok _ :: results, _ => by
    rw [List.foldl_cons, foldl_removeUnrecorded_count results, includedCosts_ok, List.length_cons]
    dsimp only [removeUnrecorded]
    omega
  | .error _ :: results, state => foldl_removeUnrecorded_count results state

theorem foldl_removeUnrecorded_inFlightTransactionCount :
    ∀ (results : List (Except ε TransactionCost)) (state : CostTracker × Nat),
      (results.foldl removeUnrecorded state).1.inFlightTransactionCount = state.1.inFlightTransactionCount
  | [], _ => rfl
  | .ok _ :: results, _ => foldl_removeUnrecorded_inFlightTransactionCount results _
  | .error _ :: results, state => foldl_removeUnrecorded_inFlightTransactionCount results state

theorem foldl_removeUnrecorded_accounts {held : List Charge} :
    ∀ (results : List (Except ε TransactionCost)) (state : CostTracker × Nat),
      Accounts state.1 ((includedCosts results).map Charge.estimate ++ held) →
        Accounts (results.foldl removeUnrecorded state).1 held
  | [], _, acc => acc
  | .ok _ :: results, _, acc => foldl_removeUnrecorded_accounts results _ acc.removeTransactionCost
  | .error _ :: results, state, acc => foldl_removeUnrecorded_accounts results state acc

end Unrecorded

/-! ### Removal or update of a recorded batch -/

section Recorded

theorem foldl_removeOrUpdateRecorded_count :
    ∀ (results : List (Except ε TransactionCost)) (statuses : List CommitTransactionDetails) (state : CostTracker × Nat),
      ((results.zip statuses).foldl removeOrUpdateRecorded state).2 =
        state.2 + (includedCosts (results.take statuses.length)).length
  | [], _, _ => by rw [List.zip_nil_left, List.take_nil]; rfl
  | _ :: _, [], _ => by rw [List.zip_nil_right, List.length_nil, List.take_zero]; rfl
  | .ok _ :: results, status :: statuses, state => by
    rw [List.zip_cons_cons, List.foldl_cons, List.length_cons, List.take_succ_cons, includedCosts_ok,
      List.length_cons, foldl_removeOrUpdateRecorded_count results statuses]
    cases status <;>
    · dsimp only [removeOrUpdateRecorded]
      omega
  | .error _ :: results, _ :: statuses, state => by
    rw [List.zip_cons_cons, List.foldl_cons, List.length_cons, List.take_succ_cons, includedCosts_error]
    exact foldl_removeOrUpdateRecorded_count results statuses state

theorem foldl_removeOrUpdateRecorded_inFlightTransactionCount :
    ∀ (results : List (Except ε TransactionCost)) (statuses : List CommitTransactionDetails) (state : CostTracker × Nat),
      ((results.zip statuses).foldl removeOrUpdateRecorded state).1.inFlightTransactionCount =
        state.1.inFlightTransactionCount
  | [], _, _ => by rw [List.zip_nil_left]; rfl
  | _ :: _, [], _ => by rw [List.zip_nil_right]; rfl
  | .ok _ :: results, status :: statuses, state => by
    rw [List.zip_cons_cons, List.foldl_cons, foldl_removeOrUpdateRecorded_inFlightTransactionCount results statuses]
    cases status with
    | committed computeUnits loadedAccountsDataSize => exact CostTracker.updateExecutionCost_inFlightTransactionCount _ _
    | notCommitted => rfl
  | .error _ :: results, _ :: statuses, state => foldl_removeOrUpdateRecorded_inFlightTransactionCount results statuses state

theorem foldl_removeOrUpdateRecorded_accounts :
    ∀ (results : List (Except ε TransactionCost)) (statuses : List CommitTransactionDetails) (state : CostTracker × Nat)
      (other : List Charge),
      Accounts state.1 ((includedCosts (results.take statuses.length)).map Charge.estimate ++ other) →
      Bounded ((includedCosts (results.take statuses.length)).map Charge.estimate ++
        (committedCharges (results.zip statuses) ++ other)) →
      Accounts ((results.zip statuses).foldl removeOrUpdateRecorded state).1 (committedCharges (results.zip statuses) ++ other)
  | [], _, _, _, acc, _ => by
    rw [List.take_nil] at acc
    rw [List.zip_nil_left]
    exact acc
  | _ :: _, [], _, _, acc, _ => by
    rw [List.length_nil, List.take_zero] at acc
    rw [List.zip_nil_right]
    exact acc
  | .ok txCost :: results, status :: statuses, state, other, acc, bounded => by
    rw [List.length_cons, List.take_succ_cons, includedCosts_ok, List.map_cons, List.cons_append] at acc bounded
    rw [List.zip_cons_cons] at bounded ⊢
    rw [List.foldl_cons]
    cases status with
    | committed computeUnits loadedAccountsDataSize =>
      simp only [committedCharges] at bounded ⊢
      have executed : Bounded (Charge.executed txCost computeUnits (calculateLoadedAccountsDataSizeCost
          loadedAccountsDataSize) :: ((includedCosts (results.take statuses.length)).map Charge.estimate ++ other)) :=
        bounded.subperm (List.subperm_ext_iff.mpr fun x _ => by
          simp only [List.count_cons, List.count_append]
          split_ifs <;> omega)
      have updated := acc.updateExecutionCost_cons executed
      have rest := foldl_removeOrUpdateRecorded_accounts results statuses
        (state.1.updateExecutionCost txCost computeUnits (calculateLoadedAccountsDataSizeCost loadedAccountsDataSize),
          state.2 + 1)
        (Charge.executed txCost computeUnits (calculateLoadedAccountsDataSizeCost loadedAccountsDataSize) :: other)
        (updated.perm List.perm_middle.symm)
        (bounded.subperm (List.subperm_ext_iff.mpr fun x _ => by
          simp only [List.count_cons, List.count_append]
          split_ifs <;> omega))
      exact rest.perm List.perm_middle
    | notCommitted =>
      simp only [committedCharges] at bounded ⊢
      exact foldl_removeOrUpdateRecorded_accounts results statuses _ other acc.removeTransactionCost
        (bounded.subperm (List.sublist_cons_self _ _).subperm)
  | .error _ :: results, status :: statuses, state, other, acc, bounded => by
    rw [List.length_cons, List.take_succ_cons, includedCosts_error] at acc bounded
    rw [List.zip_cons_cons] at bounded ⊢
    simp only [committedCharges] at bounded ⊢
    exact foldl_removeOrUpdateRecorded_accounts results statuses state other acc bounded

end Recorded

section RoundTrip

variable {fromCostTrackerError : CostTrackerError → ε} {t : CostTracker} {live : List Charge}
  {transactionsCosts : List (Except ε TransactionCost)}

theorem includedCosts_length_le (results : List (Except ε TransactionCost)) :
    (includedCosts results).length ≤ results.length :=
  List.length_filterMap_le _ _

/-- A batch selected and then not recorded leaves the tracker counting what it counted before,
with as many transactions in flight. -/
theorem removeUnrecordedTransactionCosts_selectTransactionsPerCost (acc : Accounts t live)
    (bounded : Bounded ((includedCosts transactionsCosts).map Charge.estimate ++ live))
    (room : t.inFlightTransactionCount + transactionsCosts.length ≤ maxValue 64) :
    let selected := selectTransactionsPerCost fromCostTrackerError t transactionsCosts
    let t' := removeUnrecordedTransactionCosts selected.2.2 selected.1
    Accounts t' live ∧ t'.inFlightTransactionCount = t.inFlightTransactionCount := by
  have kept := selectTransactionsLoop_kept fromCostTrackerError t 0 transactionsCosts
  have counted := selectTransactionsLoop_numIncluded fromCostTrackerError t 0 transactionsCosts
  have inFlight := selectTransactionsLoop_inFlightTransactionCount fromCostTrackerError t 0 transactionsCosts
  have holds := selectTransactionsLoop_accounts fromCostTrackerError t 0 transactionsCosts live acc bounded
  dsimp only [selectTransactionsPerCost, removeUnrecordedTransactionCosts]
  generalize selectTransactionsLoop fromCostTrackerError t 0 transactionsCosts = selected at kept counted inFlight holds ⊢
  obtain ⟨results, numIncluded, t₁⟩ := selected
  dsimp only at kept counted inFlight holds ⊢
  have included : (includedCosts results).length ≤ transactionsCosts.length :=
    le_trans (includedCosts_sublist_of_kept kept).length_le (includedCosts_length_le _)
  constructor
  · exact (foldl_removeUnrecorded_accounts results _ (holds.inFlight _)).inFlight _
  · dsimp only [CostTracker.subTransactionsInFlight]
    rw [foldl_removeUnrecorded_inFlightTransactionCount, foldl_removeUnrecorded_count]
    dsimp only [CostTracker.addTransactionsInFlight]
    rw [inFlight, counted, saturatingAdd_of_le (by omega)]
    omega

theorem removeUnrecordedTransactionCosts_selectTransactionsPerCost_vote :
    let selected := selectTransactionsPerCost id CostTracker.default [.ok (.simpleVote ⟨[], 1, 0, 0⟩)]
    let t' := removeUnrecordedTransactionCosts selected.2.2 selected.1
    Accounts t' [] ∧ t'.inFlightTransactionCount = CostTracker.default.inFlightTransactionCount :=
  removeUnrecordedTransactionCosts_selectTransactionsPerCost accounts_default
    ⟨by decide, fun _ => by simp [total, Charge.accountAmount, TransactionCost.writableAccounts], by decide, by decide,
      by decide, by decide, by decide⟩ (by decide)

theorem includedCosts_take_append_drop (results : List (Except ε TransactionCost)) (n : Nat) :
    includedCosts (results.take n) ++ includedCosts (results.drop n) = includedCosts results := by
  rw [includedCosts, includedCosts, ← List.filterMap_append, List.take_append_drop, includedCosts]

/-- A batch selected and then recorded leaves the tracker counting what it counted before and the
executed costs of the committed transactions; a selected transaction without a status stays
counted at its estimate, and in flight. -/
theorem removeOrUpdateRecordedTransactionCosts_selectTransactionsPerCost (acc : Accounts t live)
    (transactionCommittedStatus : List CommitTransactionDetails)
    (bounded : Bounded ((includedCosts transactionsCosts).map Charge.estimate ++
      (committedCharges (transactionsCosts.zip transactionCommittedStatus) ++ live)))
    (room : t.inFlightTransactionCount + transactionsCosts.length ≤ maxValue 64) :
    let selected := selectTransactionsPerCost fromCostTrackerError t transactionsCosts
    let t' := removeOrUpdateRecordedTransactionCosts selected.2.2 selected.1 transactionCommittedStatus
    let unrecorded := includedCosts (selected.1.drop transactionCommittedStatus.length)
    Accounts t' (committedCharges (selected.1.zip transactionCommittedStatus) ++ (unrecorded.map Charge.estimate ++ live)) ∧
      t'.inFlightTransactionCount = t.inFlightTransactionCount + unrecorded.length := by
  have selectedBounded : Bounded ((includedCosts transactionsCosts).map Charge.estimate ++ live) :=
    bounded.subperm ((List.Sublist.refl _).append (List.sublist_append_right _ live)).subperm
  have kept := selectTransactionsLoop_kept fromCostTrackerError t 0 transactionsCosts
  have counted := selectTransactionsLoop_numIncluded fromCostTrackerError t 0 transactionsCosts
  have inFlight := selectTransactionsLoop_inFlightTransactionCount fromCostTrackerError t 0 transactionsCosts
  have holds := selectTransactionsLoop_accounts fromCostTrackerError t 0 transactionsCosts live acc selectedBounded
  dsimp only [selectTransactionsPerCost, removeOrUpdateRecordedTransactionCosts]
  generalize selectTransactionsLoop fromCostTrackerError t 0 transactionsCosts = selected at kept counted inFlight holds ⊢
  obtain ⟨results, numIncluded, t₁⟩ := selected
  dsimp only at kept counted inFlight holds ⊢
  have included : (includedCosts results).length ≤ transactionsCosts.length :=
    le_trans (includedCosts_sublist_of_kept kept).length_le (includedCosts_length_le _)
  have split := includedCosts_take_append_drop results transactionCommittedStatus.length
  rw [← split, List.map_append, List.append_assoc] at holds
  have recordedBounded : Bounded ((includedCosts (results.take transactionCommittedStatus.length)).map Charge.estimate ++
      (committedCharges (results.zip transactionCommittedStatus) ++
        ((includedCosts (results.drop transactionCommittedStatus.length)).map Charge.estimate ++ live))) := by
    have estimates := (includedCosts_sublist_of_kept kept).map Charge.estimate
    have executed := committedCharges_sublist_of_kept kept transactionCommittedStatus
    rw [← split, List.map_append] at estimates
    refine bounded.subperm (List.subperm_ext_iff.mpr fun x _ => ?_)
    have fewerEstimates := estimates.count_le x
    have fewerExecuted := executed.count_le x
    simp only [List.count_append] at fewerEstimates ⊢
    omega
  constructor
  · exact (foldl_removeOrUpdateRecorded_accounts results transactionCommittedStatus _ _
      (holds.inFlight _) recordedBounded).inFlight _
  · dsimp only [CostTracker.subTransactionsInFlight]
    rw [foldl_removeOrUpdateRecorded_inFlightTransactionCount, foldl_removeOrUpdateRecorded_count]
    dsimp only [CostTracker.addTransactionsInFlight]
    have lengths : (includedCosts (results.take transactionCommittedStatus.length)).length +
        (includedCosts (results.drop transactionCommittedStatus.length)).length = (includedCosts results).length := by
      rw [← List.length_append, split]
    rw [inFlight, counted, saturatingAdd_of_le (by omega)]
    omega

theorem removeOrUpdateRecordedTransactionCosts_selectTransactionsPerCost_vote :
    let selected := selectTransactionsPerCost id CostTracker.default [.ok (.simpleVote ⟨[], 1, 0, 0⟩)]
    let t' := removeOrUpdateRecordedTransactionCosts selected.2.2 selected.1 [.committed 2000 0]
    let unrecorded := includedCosts (selected.1.drop 1)
    Accounts t' (committedCharges (selected.1.zip [.committed 2000 0]) ++ (unrecorded.map Charge.estimate ++ [])) ∧
      t'.inFlightTransactionCount = CostTracker.default.inFlightTransactionCount + unrecorded.length :=
  removeOrUpdateRecordedTransactionCosts_selectTransactionsPerCost accounts_default [.committed 2000 0]
    ⟨by decide, fun _ => by simp [total, Charge.accountAmount, TransactionCost.writableAccounts, committedCharges,
      Charge.executed], by decide, by decide, by decide, by decide, by decide⟩ (by decide)

end RoundTrip

end QosService

end Banking
