import Mathlib
import Agave.Library.MachineInt
import Agave.Library.CounterMap
import Agave.Runtime.TransactionContext

/-! `CostTracker` of the cost model: the estimated costs of the transactions admitted to a block,
summed for the whole block, for its simple votes and for each account a transaction write-locks,
and checked against the block's limits before a transaction is admitted. All counters are `u64`
with saturating arithmetic. The map of account costs is a partial function: `entry(key).or_insert(0)`
inserts a key at zero, and a key absent from it reads as zero. -/

namespace CostModel

open MachineInt Runtime

/-! ### `block_cost_limits` -/

def computeUnitToUsRatio : Nat := 30

def signatureCost : Nat := computeUnitToUsRatio * 24

def writeLockUnits : Nat := computeUnitToUsRatio * 10

def maxBlockReplayTimeUs : Nat := 400000

def maxConcurrency : Nat := 4

def maxBlockUnits : Nat := maxBlockReplayTimeUs * computeUnitToUsRatio * maxConcurrency

def maxWritableAccountUnits : Nat := maxBlockReplayTimeUs * computeUnitToUsRatio

/-- `(MAX_BLOCK_UNITS as f64 * 0.75_f64) as u64`, exact in `f64`. -/
def maxVoteUnits : Nat := maxBlockUnits * 3 / 4

def maxBlockAccountsDataSizeDelta : Nat := 100000000

/-- `vote_processor::DEFAULT_COMPUTE_UNITS`. -/
def defaultComputeUnits : Nat := 2100

def simpleVoteUsageCost : Nat := 3428

/-! ### `TransactionCost` -/

/-- What the tracker reads of a transaction: the keys it write-locks, in the order of its account
keys, and the counts of its `signature_details()`. -/
structure Transaction where
  writableAccounts : List Pubkey
  numTransactionSignatures : Nat
  numSecp256k1InstructionSignatures : Nat
  numEd25519InstructionSignatures : Nat
  deriving DecidableEq, Repr

structure UsageCostDetails where
  transaction : Transaction
  signatureCost : Nat
  writeLockCost : Nat
  dataBytesCost : Nat
  programsExecutionCost : Nat
  loadedAccountsDataSizeCost : Nat
  allocatedAccountsDataSize : Nat
  deriving DecidableEq, Repr

def UsageCostDetails.sum (usageCost : UsageCostDetails) : Nat :=
  saturatingAdd 64 (saturatingAdd 64 (saturatingAdd 64 (saturatingAdd 64 usageCost.signatureCost
    usageCost.writeLockCost) usageCost.dataBytesCost) usageCost.programsExecutionCost)
    usageCost.loadedAccountsDataSizeCost

inductive TransactionCost
  | simpleVote (transaction : Transaction)
  | transaction (usageCost : UsageCostDetails)
  deriving DecidableEq, Repr

namespace TransactionCost

def sum : TransactionCost → Nat
  | simpleVote _ => simpleVoteUsageCost
  | transaction usageCost => usageCost.sum

def programsExecutionCost : TransactionCost → Nat
  | simpleVote _ => defaultComputeUnits
  | transaction usageCost => usageCost.programsExecutionCost

def isSimpleVote : TransactionCost → Bool
  | simpleVote _ => true
  | transaction _ => false

def allocatedAccountsDataSize : TransactionCost → Nat
  | simpleVote _ => 0
  | transaction usageCost => usageCost.allocatedAccountsDataSize

/-- A simple vote loads less than one page of account data, charged at 8 units. -/
def loadedAccountsDataSizeCost : TransactionCost → Nat
  | simpleVote _ => 8
  | transaction usageCost => usageCost.loadedAccountsDataSizeCost

def writableAccounts : TransactionCost → List Pubkey
  | simpleVote tx => tx.writableAccounts
  | transaction usageCost => usageCost.transaction.writableAccounts

def numTransactionSignatures : TransactionCost → Nat
  | simpleVote _ => 1
  | transaction usageCost => usageCost.transaction.numTransactionSignatures

def numSecp256k1InstructionSignatures : TransactionCost → Nat
  | simpleVote _ => 0
  | transaction usageCost => usageCost.transaction.numSecp256k1InstructionSignatures

def numEd25519InstructionSignatures : TransactionCost → Nat
  | simpleVote _ => 0
  | transaction usageCost => usageCost.transaction.numEd25519InstructionSignatures

/-- The part of the estimate that `update_execution_cost` replaces by what the execution used. -/
def estimatedLoadAndExecutionUnits (txCost : TransactionCost) : Nat :=
  saturatingAdd 64 txCost.programsExecutionCost txCost.loadedAccountsDataSizeCost

theorem sum_le_maxValue (txCost : TransactionCost) : txCost.sum ≤ maxValue 64 := by
  cases txCost with
  | simpleVote => exact (by decide : simpleVoteUsageCost ≤ maxValue 64)
  | transaction usageCost => exact saturatingAdd_le_max _ _ _

theorem estimatedLoadAndExecutionUnits_le_sum (txCost : TransactionCost) :
    txCost.estimatedLoadAndExecutionUnits ≤ txCost.sum := by
  cases txCost with
  | simpleVote => exact (by decide : saturatingAdd 64 defaultComputeUnits 8 ≤ simpleVoteUsageCost)
  | transaction usageCost =>
    simp only [estimatedLoadAndExecutionUnits, programsExecutionCost, loadedAccountsDataSizeCost, sum,
      UsageCostDetails.sum, saturatingAdd]
    omega

end TransactionCost

/-! ### `CostTracker` -/

inductive CostTrackerError
  | wouldExceedBlockMaxLimit
  | wouldExceedVoteMaxLimit
  | wouldExceedAccountMaxLimit
  | wouldExceedAccountDataBlockLimit
  | wouldExceedAccountDataTotalLimit
  deriving DecidableEq, Repr

structure UpdatedCosts where
  updatedBlockCost : Nat
  updatedCostliestAccountCost : Nat
  deriving DecidableEq, Repr

structure CostTracker where
  accountCostLimit : Nat
  blockCostLimit : Nat
  voteCostLimit : Nat
  costByWritableAccounts : Pubkey → Option Nat
  blockCost : Nat
  voteCost : Nat
  transactionCount : Nat
  allocatedAccountsDataSize : Nat
  transactionSignatureCount : Nat
  secp256k1InstructionSignatureCount : Nat
  ed25519InstructionSignatureCount : Nat
  inFlightTransactionCount : Nat

namespace CostTracker

def default : CostTracker :=
  ⟨maxWritableAccountUnits, maxBlockUnits, maxVoteUnits, fun _ => none, 0, 0, 0, 0, 0, 0, 0, 0⟩

def setLimits (t : CostTracker) (accountCostLimit blockCostLimit voteCostLimit : Nat) : CostTracker :=
  { t with accountCostLimit, blockCostLimit, voteCostLimit }

def newFromParentLimits (t : CostTracker) : CostTracker :=
  default.setLimits t.accountCostLimit t.blockCostLimit t.voteCostLimit

def reset (t : CostTracker) : CostTracker :=
  { t with
    costByWritableAccounts := fun _ => none
    blockCost := 0
    voteCost := 0
    transactionCount := 0
    allocatedAccountsDataSize := 0
    transactionSignatureCount := 0
    secp256k1InstructionSignatureCount := 0
    ed25519InstructionSignatureCount := 0
    inFlightTransactionCount := 0 }

def addTransactionsInFlight (t : CostTracker) (inFlightTransactionCount : Nat) : CostTracker :=
  { t with inFlightTransactionCount := saturatingAdd 64 t.inFlightTransactionCount inFlightTransactionCount }

def subTransactionsInFlight (t : CostTracker) (inFlightTransactionCount : Nat) : CostTracker :=
  { t with inFlightTransactionCount := t.inFlightTransactionCount - inFlightTransactionCount }

def wouldFit (t : CostTracker) (txCost : TransactionCost) : Except CostTrackerError Unit :=
  let cost := txCost.sum
  if txCost.isSimpleVote ∧ saturatingAdd 64 t.voteCost cost > t.voteCostLimit then .error .wouldExceedVoteMaxLimit
  else if saturatingAdd 64 t.blockCost cost > t.blockCostLimit then .error .wouldExceedBlockMaxLimit
  -- the transaction alone is more costly than the account limit
  else if cost > t.accountCostLimit then .error .wouldExceedAccountMaxLimit
  else if saturatingAdd 64 t.allocatedAccountsDataSize txCost.allocatedAccountsDataSize >
      maxBlockAccountsDataSizeDelta then .error .wouldExceedAccountDataBlockLimit
  else
    -- an account not in the map is not checked: its cost is the transaction's, checked above
    txCost.writableAccounts.forM fun accountKey =>
      match t.costByWritableAccounts accountKey with
      | some chainedCost =>
        if saturatingAdd 64 chainedCost cost > t.accountCostLimit then .error .wouldExceedAccountMaxLimit
        else pure ()
      | none => pure ()

/-- One pass of the loop of `add_transaction_execution_cost`: the account's cost goes up by the
adjustment, and the highest cost updated so far is kept. -/
def addAccountCost (adjustment : Nat) : (Pubkey → Option Nat) × Nat → Pubkey → (Pubkey → Option Nat) × Nat
  | (accounts, costliestAccountCost), accountKey =>
    (CounterMap.modify (saturatingAdd 64 · adjustment) accounts accountKey,
      max costliestAccountCost (saturatingAdd 64 (CounterMap.get accounts accountKey) adjustment))

/-- Returns the highest cost of the accounts it updated. -/
def addTransactionExecutionCost (t : CostTracker) (txCost : TransactionCost) (adjustment : Nat) :
    CostTracker × Nat :=
  let accounts := txCost.writableAccounts.foldl (addAccountCost adjustment) (t.costByWritableAccounts, 0)
  ({ t with
      costByWritableAccounts := accounts.1
      blockCost := saturatingAdd 64 t.blockCost adjustment
      voteCost := if txCost.isSimpleVote then saturatingAdd 64 t.voteCost adjustment else t.voteCost },
    accounts.2)

def subTransactionExecutionCost (t : CostTracker) (txCost : TransactionCost) (adjustment : Nat) :
    CostTracker :=
  { t with
    costByWritableAccounts :=
      CounterMap.modifyAll (· - adjustment) t.costByWritableAccounts txCost.writableAccounts
    blockCost := t.blockCost - adjustment
    voteCost := if txCost.isSimpleVote then t.voteCost - adjustment else t.voteCost }

def addTransactionCost (t : CostTracker) (txCost : TransactionCost) : CostTracker × Nat :=
  let t := { t with
    allocatedAccountsDataSize := saturatingAdd 64 t.allocatedAccountsDataSize txCost.allocatedAccountsDataSize
    transactionCount := saturatingAdd 64 t.transactionCount 1
    transactionSignatureCount := saturatingAdd 64 t.transactionSignatureCount txCost.numTransactionSignatures
    secp256k1InstructionSignatureCount :=
      saturatingAdd 64 t.secp256k1InstructionSignatureCount txCost.numSecp256k1InstructionSignatures
    ed25519InstructionSignatureCount :=
      saturatingAdd 64 t.ed25519InstructionSignatureCount txCost.numEd25519InstructionSignatures }
  t.addTransactionExecutionCost txCost txCost.sum

def removeTransactionCost (t : CostTracker) (txCost : TransactionCost) : CostTracker :=
  let t := t.subTransactionExecutionCost txCost txCost.sum
  { t with
    allocatedAccountsDataSize := t.allocatedAccountsDataSize - txCost.allocatedAccountsDataSize
    transactionCount := t.transactionCount - 1
    transactionSignatureCount := t.transactionSignatureCount - txCost.numTransactionSignatures
    secp256k1InstructionSignatureCount :=
      t.secp256k1InstructionSignatureCount - txCost.numSecp256k1InstructionSignatures
    ed25519InstructionSignatureCount :=
      t.ed25519InstructionSignatureCount - txCost.numEd25519InstructionSignatures }

/-- A tracker the estimate does not fit is left as it was: the check reads and does not write. -/
def tryAdd (t : CostTracker) (txCost : TransactionCost) : Except CostTrackerError (UpdatedCosts × CostTracker) := do
  t.wouldFit txCost
  let added := t.addTransactionCost txCost
  pure (⟨added.1.blockCost, added.2⟩, added.1)

def updateExecutionCost (t : CostTracker) (estimatedTxCost : TransactionCost)
    (actualExecutionUnits actualLoadedAccountsDataSizeCost : Nat) : CostTracker :=
  let actualLoadAndExecutionUnits := saturatingAdd 64 actualExecutionUnits actualLoadedAccountsDataSizeCost
  let estimatedLoadAndExecutionUnits := estimatedTxCost.estimatedLoadAndExecutionUnits
  match compare actualLoadAndExecutionUnits estimatedLoadAndExecutionUnits with
  | .eq => t
  | .gt =>
    (t.addTransactionExecutionCost estimatedTxCost (actualLoadAndExecutionUnits - estimatedLoadAndExecutionUnits)).1
  | .lt => t.subTransactionExecutionCost estimatedTxCost (estimatedLoadAndExecutionUnits - actualLoadAndExecutionUnits)

def remove (t : CostTracker) (txCost : TransactionCost) : CostTracker := t.removeTransactionCost txCost

/-! ### What each operation does -/

theorem foldl_addAccountCost_fst (adjustment : Nat) :
    ∀ (keys : List Pubkey) (accounts : Pubkey → Option Nat) (costliestAccountCost : Nat),
      (keys.foldl (addAccountCost adjustment) (accounts, costliestAccountCost)).1 =
        CounterMap.modifyAll (saturatingAdd 64 · adjustment) accounts keys
  | [], _, _ => rfl
  | _ :: keys, _, _ => foldl_addAccountCost_fst adjustment keys _ _

section Operations

variable {t : CostTracker} {txCost : TransactionCost}

@[simp] theorem addTransactionExecutionCost_costByWritableAccounts (adjustment : Nat) :
    (t.addTransactionExecutionCost txCost adjustment).1.costByWritableAccounts =
      CounterMap.modifyAll (saturatingAdd 64 · adjustment) t.costByWritableAccounts txCost.writableAccounts :=
  foldl_addAccountCost_fst adjustment _ _ _

theorem wouldFit_eq_ok (fits : t.wouldFit txCost = .ok ()) :
    (txCost.isSimpleVote → saturatingAdd 64 t.voteCost txCost.sum ≤ t.voteCostLimit) ∧
      saturatingAdd 64 t.blockCost txCost.sum ≤ t.blockCostLimit ∧ txCost.sum ≤ t.accountCostLimit ∧
      saturatingAdd 64 t.allocatedAccountsDataSize txCost.allocatedAccountsDataSize ≤ maxBlockAccountsDataSizeDelta ∧
      ∀ accountKey ∈ txCost.writableAccounts, ∀ chainedCost, t.costByWritableAccounts accountKey = some chainedCost →
        saturatingAdd 64 chainedCost txCost.sum ≤ t.accountCostLimit := by
  dsimp only [wouldFit] at fits
  -- the four early returns are errors, which `split_ifs` discards
  split_ifs at fits with vote block account allocated
  rw [ExceptLoop.forM_eq_ok_iff] at fits
  refine ⟨fun isVote => Nat.le_of_not_lt fun exceeds => vote ⟨isVote, exceeds⟩, Nat.le_of_not_lt block,
    Nat.le_of_not_lt account, Nat.le_of_not_lt allocated, ?_⟩
  intro accountKey mem chainedCost found
  have passed := fits accountKey mem
  rw [found] at passed
  dsimp only at passed
  split_ifs at passed with exceeds
  exact Nat.le_of_not_lt exceeds

theorem wouldFit_get (fits : t.wouldFit txCost = .ok ()) :
    ∀ accountKey ∈ txCost.writableAccounts,
      saturatingAdd 64 (CounterMap.get t.costByWritableAccounts accountKey) txCost.sum ≤ t.accountCostLimit := by
  obtain ⟨-, -, alone, -, chained⟩ := wouldFit_eq_ok fits
  intro accountKey mem
  cases found : t.costByWritableAccounts accountKey with
  | none =>
    rw [CounterMap.get, found, Option.getD_none, saturatingAdd, Nat.zero_add]
    exact le_trans (min_le_left _ _) alone
  | some chainedCost =>
    rw [CounterMap.get, found, Option.getD_some]
    exact chained accountKey mem chainedCost found

theorem tryAdd_eq_ok {updatedCosts : UpdatedCosts} {t' : CostTracker}
    (ok : t.tryAdd txCost = .ok (updatedCosts, t')) :
    t.wouldFit txCost = .ok () ∧ t' = (t.addTransactionCost txCost).1 ∧
      updatedCosts = ⟨t'.blockCost, (t.addTransactionCost txCost).2⟩ := by
  simp only [tryAdd, ExceptLoop.bind_eq_ok, ExceptLoop.pure_eq_ok, Prod.mk.injEq] at ok
  obtain ⟨⟨⟩, fits, updated, added⟩ := ok
  exact ⟨fits, added.symm, by rw [← updated, ← added]⟩

theorem tryAdd_of_wouldFit_eq_ok (fits : t.wouldFit txCost = .ok ()) :
    t.tryAdd txCost = .ok (⟨(t.addTransactionCost txCost).1.blockCost, (t.addTransactionCost txCost).2⟩,
      (t.addTransactionCost txCost).1) := by
  rw [tryAdd, fits]
  rfl

theorem tryAdd_of_wouldFit_eq_error {e : CostTrackerError} (exceeds : t.wouldFit txCost = .error e) :
    t.tryAdd txCost = .error e := by
  rw [tryAdd, exceeds]
  rfl

theorem updateExecutionCost_eq (actualExecutionUnits actualLoadedAccountsDataSizeCost : Nat) :
    t.updateExecutionCost txCost actualExecutionUnits actualLoadedAccountsDataSizeCost =
      let actual := saturatingAdd 64 actualExecutionUnits actualLoadedAccountsDataSizeCost
      let estimated := txCost.estimatedLoadAndExecutionUnits
      if estimated < actual then (t.addTransactionExecutionCost txCost (actual - estimated)).1
      else if actual < estimated then t.subTransactionExecutionCost txCost (estimated - actual)
      else t := by
  simp only [updateExecutionCost]
  split
  · rename_i same
    rw [Nat.compare_eq_eq] at same
    rw [if_neg (by omega), if_neg (by omega)]
  · rename_i more
    rw [Nat.compare_eq_gt] at more
    rw [if_pos more]
  · rename_i less
    rw [Nat.compare_eq_lt] at less
    rw [if_neg (by omega), if_pos less]

/-! The tracker's operations leave the count in flight to the banking stage. -/

@[simp] theorem addTransactionCost_inFlightTransactionCount :
    (t.addTransactionCost txCost).1.inFlightTransactionCount = t.inFlightTransactionCount := rfl

@[simp] theorem remove_inFlightTransactionCount :
    (t.remove txCost).inFlightTransactionCount = t.inFlightTransactionCount := rfl

@[simp] theorem updateExecutionCost_inFlightTransactionCount (actualExecutionUnits actualLoadedAccountsDataSizeCost : Nat) :
    (t.updateExecutionCost txCost actualExecutionUnits actualLoadedAccountsDataSizeCost).inFlightTransactionCount =
      t.inFlightTransactionCount := by
  rw [updateExecutionCost_eq]
  dsimp only
  split_ifs <;> rfl

end Operations

end CostTracker

end CostModel
