import Mathlib
import Agave.Library.StateMachine
import Agave.Cost.Tracker

/-! What the tracker's counters count. The banking stage adds a transaction's estimated cost with
`try_add` and, once the transaction is recorded, either removes it again or replaces the estimate of
its execution and loading by what the execution used. Along every such run the tracker's counters
are sums over the costs it holds, each charged at its estimate or at its executed amount, as long as
no sum passes `u64::MAX`. And whatever the costs, as long as each transaction write-locks an account
only once and an update only lowers a charge, no counter passes its limit. -/

namespace CostModel

open MachineInt Runtime StateMachine

/-- A cost the tracker holds and the amount it is charged. -/
structure Charge where
  cost : TransactionCost
  amount : Nat
  deriving DecidableEq, Repr

namespace Charge

/-- A cost as `try_add` charges it. -/
def estimate (txCost : TransactionCost) : Charge := ⟨txCost, txCost.sum⟩

/-- A cost once `update_execution_cost` has replaced its estimated execution and loading by what
the execution used. -/
def executed (txCost : TransactionCost) (actualExecutionUnits actualLoadedAccountsDataSizeCost : Nat) : Charge :=
  ⟨txCost, txCost.sum - txCost.estimatedLoadAndExecutionUnits +
    saturatingAdd 64 actualExecutionUnits actualLoadedAccountsDataSizeCost⟩

@[simp] theorem estimate_cost (txCost : TransactionCost) : (estimate txCost).cost = txCost := rfl

@[simp] theorem estimate_amount (txCost : TransactionCost) : (estimate txCost).amount = txCost.sum := rfl

def voteAmount (charge : Charge) : Nat := if charge.cost.isSimpleVote then charge.amount else 0

/-- An account is charged once for every time the transaction lists it as writable. -/
def accountAmount (accountKey : Pubkey) (charge : Charge) : Nat :=
  charge.cost.writableAccounts.count accountKey * charge.amount

theorem voteAmount_le (charge : Charge) : charge.voteAmount ≤ charge.amount := by
  unfold voteAmount
  split <;> omega

end Charge

/-- The sum of `f` over the charges. -/
def total (f : Charge → Nat) (live : List Charge) : Nat := (live.map f).sum

@[simp] theorem total_nil (f : Charge → Nat) : total f [] = 0 := rfl

@[simp] theorem total_cons (f : Charge → Nat) (charge : Charge) (live : List Charge) :
    total f (charge :: live) = f charge + total f live := by
  rw [total, List.map_cons, List.sum_cons, total]

theorem total_append (f : Charge → Nat) (front back : List Charge) :
    total f (front ++ back) = total f front + total f back := by
  rw [total, List.map_append, List.sum_append, total, total]

theorem total_erase (f : Charge → Nat) {charge : Charge} {live : List Charge} (mem : charge ∈ live) :
    total f live = f charge + total f (live.erase charge) :=
  (List.sum_map_erase f mem).symm

theorem total_perm (f : Charge → Nat) {live live' : List Charge} (perm : live.Perm live') :
    total f live = total f live' :=
  (perm.map f).sum_eq

theorem total_le_of_subperm (f : Charge → Nat) {live live' : List Charge} (sub : live.Subperm live') :
    total f live ≤ total f live' := by
  obtain ⟨between, perm, sublist⟩ := sub
  rw [← total_perm f perm]
  exact (sublist.map f).sum_le_sum fun _ _ => Nat.zero_le _

theorem total_le_total {f g : Charge → Nat} (le : ∀ charge, f charge ≤ g charge) (live : List Charge) :
    total f live ≤ total g live := by
  induction live with
  | nil => exact le_rfl
  | cons charge live ih =>
    rw [total_cons, total_cons]
    exact Nat.add_le_add (le charge) ih

/-- The tracker's counters are the sums over the charges it holds. -/
structure Accounts (t : CostTracker) (live : List Charge) : Prop where
  blockCost : t.blockCost = total (·.amount) live
  voteCost : t.voteCost = total Charge.voteAmount live
  accountCost : ∀ accountKey,
    CounterMap.get t.costByWritableAccounts accountKey = total (Charge.accountAmount accountKey) live
  allocatedAccountsDataSize : t.allocatedAccountsDataSize = total (·.cost.allocatedAccountsDataSize) live
  transactionCount : t.transactionCount = live.length
  transactionSignatureCount : t.transactionSignatureCount = total (·.cost.numTransactionSignatures) live
  secp256k1InstructionSignatureCount :
    t.secp256k1InstructionSignatureCount = total (·.cost.numSecp256k1InstructionSignatures) live
  ed25519InstructionSignatureCount :
    t.ed25519InstructionSignatureCount = total (·.cost.numEd25519InstructionSignatures) live

/-- No sum over the charges passes `u64::MAX`. -/
structure Bounded (live : List Charge) : Prop where
  blockCost : total (·.amount) live ≤ maxValue 64
  accountCost : ∀ accountKey, total (Charge.accountAmount accountKey) live ≤ maxValue 64
  allocatedAccountsDataSize : total (·.cost.allocatedAccountsDataSize) live ≤ maxValue 64
  transactionCount : live.length ≤ maxValue 64
  transactionSignatureCount : total (·.cost.numTransactionSignatures) live ≤ maxValue 64
  secp256k1InstructionSignatureCount : total (·.cost.numSecp256k1InstructionSignatures) live ≤ maxValue 64
  ed25519InstructionSignatureCount : total (·.cost.numEd25519InstructionSignatures) live ≤ maxValue 64

theorem Bounded.subperm {live live' : List Charge} (bounded : Bounded live') (sub : live.Subperm live') :
    Bounded live where
  blockCost := le_trans (total_le_of_subperm _ sub) bounded.blockCost
  accountCost accountKey := le_trans (total_le_of_subperm _ sub) (bounded.accountCost accountKey)
  allocatedAccountsDataSize := le_trans (total_le_of_subperm _ sub) bounded.allocatedAccountsDataSize
  transactionCount := le_trans sub.length_le bounded.transactionCount
  transactionSignatureCount := le_trans (total_le_of_subperm _ sub) bounded.transactionSignatureCount
  secp256k1InstructionSignatureCount :=
    le_trans (total_le_of_subperm _ sub) bounded.secp256k1InstructionSignatureCount
  ed25519InstructionSignatureCount := le_trans (total_le_of_subperm _ sub) bounded.ed25519InstructionSignatureCount

theorem Bounded.voteCost {live : List Charge} (bounded : Bounded live) :
    total Charge.voteAmount live ≤ maxValue 64 :=
  le_trans (total_le_total Charge.voteAmount_le live) bounded.blockCost

/-- What a charge adds to all the sums of `Bounded` together: its amount to the block and to each
account it write-locks, its data size, its signatures and one transaction. -/
def Charge.weight (charge : Charge) : Nat :=
  (charge.cost.writableAccounts.length + 1) * charge.amount + charge.cost.allocatedAccountsDataSize +
    charge.cost.numTransactionSignatures + charge.cost.numSecp256k1InstructionSignatures +
    charge.cost.numEd25519InstructionSignatures + 1

theorem total_le_of_le_weight {f : Charge → Nat} {live : List Charge} (small : total Charge.weight live ≤ maxValue 64)
    (le : ∀ charge, f charge ≤ charge.weight) : total f live ≤ maxValue 64 :=
  le_trans (total_le_total le live) small

theorem Bounded.of_total_weight {live : List Charge} (small : total Charge.weight live ≤ maxValue 64) :
    Bounded live where
  blockCost := total_le_of_le_weight small fun charge => by unfold Charge.weight; nlinarith
  accountCost accountKey := total_le_of_le_weight small fun charge => by
    have listed := Nat.mul_le_mul_right charge.amount (charge.cost.writableAccounts.count_le_length (a := accountKey))
    unfold Charge.accountAmount Charge.weight
    nlinarith
  allocatedAccountsDataSize := total_le_of_le_weight small fun charge => by unfold Charge.weight; omega
  transactionCount := by
    have counted : live.length = total (fun _ => 1) live := by simp [total]
    rw [counted]
    exact total_le_of_le_weight small fun charge => by unfold Charge.weight; omega
  transactionSignatureCount := total_le_of_le_weight small fun charge => by unfold Charge.weight; omega
  secp256k1InstructionSignatureCount := total_le_of_le_weight small fun charge => by unfold Charge.weight; omega
  ed25519InstructionSignatureCount := total_le_of_le_weight small fun charge => by unfold Charge.weight; omega

theorem Accounts.perm {t : CostTracker} {live live' : List Charge} (acc : Accounts t live) (perm : live.Perm live') :
    Accounts t live' where
  blockCost := acc.blockCost.trans (total_perm _ perm)
  voteCost := acc.voteCost.trans (total_perm _ perm)
  accountCost accountKey := (acc.accountCost accountKey).trans (total_perm _ perm)
  allocatedAccountsDataSize := acc.allocatedAccountsDataSize.trans (total_perm _ perm)
  transactionCount := acc.transactionCount.trans perm.length_eq
  transactionSignatureCount := acc.transactionSignatureCount.trans (total_perm _ perm)
  secp256k1InstructionSignatureCount := acc.secp256k1InstructionSignatureCount.trans (total_perm _ perm)
  ed25519InstructionSignatureCount := acc.ed25519InstructionSignatureCount.trans (total_perm _ perm)

theorem Accounts.inFlight {t : CostTracker} {live : List Charge} (acc : Accounts t live)
    (inFlightTransactionCount : Nat) : Accounts { t with inFlightTransactionCount } live where
  blockCost := acc.blockCost
  voteCost := acc.voteCost
  accountCost := acc.accountCost
  allocatedAccountsDataSize := acc.allocatedAccountsDataSize
  transactionCount := acc.transactionCount
  transactionSignatureCount := acc.transactionSignatureCount
  secp256k1InstructionSignatureCount := acc.secp256k1InstructionSignatureCount
  ed25519InstructionSignatureCount := acc.ed25519InstructionSignatureCount

theorem accounts_default : Accounts CostTracker.default [] where
  blockCost := rfl
  voteCost := rfl
  accountCost _ := rfl
  allocatedAccountsDataSize := rfl
  transactionCount := rfl
  transactionSignatureCount := rfl
  secp256k1InstructionSignatureCount := rfl
  ed25519InstructionSignatureCount := rfl

section Steps

variable {t : CostTracker} {live : List Charge} {txCost : TransactionCost}

theorem saturatingAdd_of_total {counter amount rest : Nat} (counted : counter = rest)
    (bounded : amount + rest ≤ maxValue 64) : saturatingAdd 64 counter amount = amount + rest := by
  rw [saturatingAdd_of_le (by omega), counted, Nat.add_comm]

theorem saturatingAdd_of_counted {counter amount adjustment rest : Nat} (counted : counter = amount + rest)
    (bounded : amount + adjustment + rest ≤ maxValue 64) :
    saturatingAdd 64 counter adjustment = amount + adjustment + rest := by
  rw [saturatingAdd_of_le (by omega), counted]
  omega

theorem iterate_saturatingAdd_of_counted {counter weight amount adjustment rest : Nat}
    (counted : counter = weight * amount + rest) (bounded : weight * (amount + adjustment) + rest ≤ maxValue 64) :
    (saturatingAdd 64 · adjustment)^[weight] counter = weight * (amount + adjustment) + rest := by
  have spread : weight * (amount + adjustment) = weight * amount + weight * adjustment := Nat.mul_add _ _ _
  rw [saturatingAdd_iterate _ _ (by omega), saturatingAdd_of_le (by omega)]
  omega

theorem iterate_sub_of_counted {counter weight amount adjustment rest : Nat}
    (counted : counter = weight * amount + rest) (le : adjustment ≤ amount) :
    (· - adjustment)^[weight] counter = weight * (amount - adjustment) + rest := by
  have spread : weight * (amount - adjustment) = weight * amount - weight * adjustment :=
    Nat.mul_sub_left_distrib _ _ _
  have within : weight * adjustment ≤ weight * amount := Nat.mul_le_mul_left _ le
  rw [sub_iterate]
  omega

theorem Accounts.addTransactionCost (acc : Accounts t live) (bounded : Bounded (Charge.estimate txCost :: live)) :
    Accounts (t.addTransactionCost txCost).1 (Charge.estimate txCost :: live) where
  blockCost := by
    have fits := bounded.blockCost
    rw [total_cons] at fits ⊢
    exact saturatingAdd_of_total acc.blockCost fits
  voteCost := by
    have fits := bounded.voteCost
    rw [total_cons] at fits ⊢
    by_cases vote : txCost.isSimpleVote
    · have charged : (Charge.estimate txCost).voteAmount = txCost.sum := if_pos vote
      have added : (t.addTransactionCost txCost).1.voteCost = saturatingAdd 64 t.voteCost txCost.sum := if_pos vote
      rw [charged] at fits ⊢
      rw [added]
      exact saturatingAdd_of_total acc.voteCost fits
    · have charged : (Charge.estimate txCost).voteAmount = 0 := if_neg vote
      have added : (t.addTransactionCost txCost).1.voteCost = t.voteCost := if_neg vote
      rw [charged, added, Nat.zero_add]
      exact acc.voteCost
  accountCost accountKey := by
    have fits := bounded.accountCost accountKey
    rw [total_cons] at fits ⊢
    have counted := acc.accountCost accountKey
    simp only [CostTracker.addTransactionCost, CostTracker.addTransactionExecutionCost_costByWritableAccounts,
      CounterMap.get_modifyAll]
    rw [saturatingAdd_iterate _ _ (by rw [counted]; omega)]
    exact saturatingAdd_of_total counted fits
  allocatedAccountsDataSize := by
    have fits := bounded.allocatedAccountsDataSize
    rw [total_cons] at fits ⊢
    exact saturatingAdd_of_total acc.allocatedAccountsDataSize fits
  transactionCount := by
    have fits := bounded.transactionCount
    rw [List.length_cons] at fits ⊢
    rw [Nat.add_comm] at fits ⊢
    exact saturatingAdd_of_total acc.transactionCount fits
  transactionSignatureCount := by
    have fits := bounded.transactionSignatureCount
    rw [total_cons] at fits ⊢
    exact saturatingAdd_of_total acc.transactionSignatureCount fits
  secp256k1InstructionSignatureCount := by
    have fits := bounded.secp256k1InstructionSignatureCount
    rw [total_cons] at fits ⊢
    exact saturatingAdd_of_total acc.secp256k1InstructionSignatureCount fits
  ed25519InstructionSignatureCount := by
    have fits := bounded.ed25519InstructionSignatureCount
    rw [total_cons] at fits ⊢
    exact saturatingAdd_of_total acc.ed25519InstructionSignatureCount fits

theorem Accounts.tryAdd (acc : Accounts t live) (bounded : Bounded (Charge.estimate txCost :: live))
    {updatedCosts : UpdatedCosts} {t' : CostTracker} (ok : t.tryAdd txCost = .ok (updatedCosts, t')) :
    Accounts t' (Charge.estimate txCost :: live) := by
  obtain ⟨-, rfl, -⟩ := CostTracker.tryAdd_eq_ok ok
  exact acc.addTransactionCost bounded

theorem Accounts.removeTransactionCost {rest : List Charge} (acc : Accounts t (Charge.estimate txCost :: rest)) :
    Accounts (t.removeTransactionCost txCost) rest where
  blockCost := Nat.sub_eq_of_eq_add' (acc.blockCost.trans (total_cons _ _ _))
  voteCost := by
    have counted := acc.voteCost
    rw [total_cons] at counted
    by_cases vote : txCost.isSimpleVote
    · have charged : (Charge.estimate txCost).voteAmount = txCost.sum := if_pos vote
      have removed : (t.removeTransactionCost txCost).voteCost = t.voteCost - txCost.sum := if_pos vote
      rw [charged] at counted
      rw [removed]
      exact Nat.sub_eq_of_eq_add' counted
    · have charged : (Charge.estimate txCost).voteAmount = 0 := if_neg vote
      have removed : (t.removeTransactionCost txCost).voteCost = t.voteCost := if_neg vote
      rw [charged, Nat.zero_add] at counted
      rw [removed]
      exact counted
  accountCost accountKey := by
    have counted := acc.accountCost accountKey
    rw [total_cons] at counted
    have removed := iterate_sub_of_counted counted (le_refl txCost.sum)
    simp only [Charge.estimate_cost, Charge.estimate_amount, Nat.sub_self, Nat.mul_zero, Nat.zero_add] at removed
    simp only [CostTracker.removeTransactionCost, CostTracker.subTransactionExecutionCost, CounterMap.get_modifyAll]
    exact removed
  allocatedAccountsDataSize := Nat.sub_eq_of_eq_add' (acc.allocatedAccountsDataSize.trans (total_cons _ _ _))
  transactionCount := Nat.sub_eq_of_eq_add (acc.transactionCount.trans (List.length_cons ..))
  transactionSignatureCount := Nat.sub_eq_of_eq_add' (acc.transactionSignatureCount.trans (total_cons _ _ _))
  secp256k1InstructionSignatureCount :=
    Nat.sub_eq_of_eq_add' (acc.secp256k1InstructionSignatureCount.trans (total_cons _ _ _))
  ed25519InstructionSignatureCount :=
    Nat.sub_eq_of_eq_add' (acc.ed25519InstructionSignatureCount.trans (total_cons _ _ _))

theorem Accounts.remove (acc : Accounts t live) (held : Charge.estimate txCost ∈ live) :
    Accounts (t.remove txCost) (live.erase (Charge.estimate txCost)) :=
  (acc.perm (List.perm_cons_erase held)).removeTransactionCost

section Adjust

variable {charge : Charge} {rest : List Charge} {adjustment : Nat}

theorem Accounts.addTransactionExecutionCost (acc : Accounts t (charge :: rest))
    (bounded : Bounded (⟨charge.cost, charge.amount + adjustment⟩ :: rest)) :
    Accounts (t.addTransactionExecutionCost charge.cost adjustment).1
      (⟨charge.cost, charge.amount + adjustment⟩ :: rest) where
  blockCost := by
    have fits := bounded.blockCost
    rw [total_cons] at fits ⊢
    exact saturatingAdd_of_counted (acc.blockCost.trans (total_cons _ _ _)) fits
  voteCost := by
    have fits := bounded.voteCost
    have counted := acc.voteCost
    rw [total_cons] at fits counted ⊢
    by_cases vote : charge.cost.isSimpleVote
    · have charged : charge.voteAmount = charge.amount := if_pos vote
      have raised : Charge.voteAmount ⟨charge.cost, charge.amount + adjustment⟩ = charge.amount + adjustment :=
        if_pos vote
      have added : (t.addTransactionExecutionCost charge.cost adjustment).1.voteCost =
          saturatingAdd 64 t.voteCost adjustment := if_pos vote
      rw [charged] at counted
      rw [raised] at fits ⊢
      rw [added]
      exact saturatingAdd_of_counted counted fits
    · have charged : charge.voteAmount = 0 := if_neg vote
      have raised : Charge.voteAmount ⟨charge.cost, charge.amount + adjustment⟩ = 0 := if_neg vote
      have added : (t.addTransactionExecutionCost charge.cost adjustment).1.voteCost = t.voteCost := if_neg vote
      rw [charged] at counted
      rw [raised, added]
      exact counted
  accountCost accountKey := by
    have fits := bounded.accountCost accountKey
    have counted := acc.accountCost accountKey
    rw [total_cons] at fits counted ⊢
    rw [CostTracker.addTransactionExecutionCost_costByWritableAccounts, CounterMap.get_modifyAll]
    exact iterate_saturatingAdd_of_counted counted fits
  allocatedAccountsDataSize := acc.allocatedAccountsDataSize
  transactionCount := acc.transactionCount
  transactionSignatureCount := acc.transactionSignatureCount
  secp256k1InstructionSignatureCount := acc.secp256k1InstructionSignatureCount
  ed25519InstructionSignatureCount := acc.ed25519InstructionSignatureCount

theorem Accounts.subTransactionExecutionCost (acc : Accounts t (charge :: rest)) (le : adjustment ≤ charge.amount) :
    Accounts (t.subTransactionExecutionCost charge.cost adjustment)
      (⟨charge.cost, charge.amount - adjustment⟩ :: rest) where
  blockCost := by
    have counted := acc.blockCost
    rw [total_cons] at counted ⊢
    show t.blockCost - adjustment = charge.amount - adjustment + _
    omega
  voteCost := by
    have counted := acc.voteCost
    rw [total_cons] at counted ⊢
    by_cases vote : charge.cost.isSimpleVote
    · have charged : charge.voteAmount = charge.amount := if_pos vote
      have lowered : Charge.voteAmount ⟨charge.cost, charge.amount - adjustment⟩ = charge.amount - adjustment :=
        if_pos vote
      have taken : (t.subTransactionExecutionCost charge.cost adjustment).voteCost = t.voteCost - adjustment :=
        if_pos vote
      rw [charged] at counted
      rw [lowered, taken]
      omega
    · have charged : charge.voteAmount = 0 := if_neg vote
      have lowered : Charge.voteAmount ⟨charge.cost, charge.amount - adjustment⟩ = 0 := if_neg vote
      have taken : (t.subTransactionExecutionCost charge.cost adjustment).voteCost = t.voteCost := if_neg vote
      rw [charged] at counted
      rw [lowered, taken]
      exact counted
  accountCost accountKey := by
    have counted := acc.accountCost accountKey
    rw [total_cons] at counted ⊢
    simp only [CostTracker.subTransactionExecutionCost, CounterMap.get_modifyAll]
    exact iterate_sub_of_counted counted le
  allocatedAccountsDataSize := acc.allocatedAccountsDataSize
  transactionCount := acc.transactionCount
  transactionSignatureCount := acc.transactionSignatureCount
  secp256k1InstructionSignatureCount := acc.secp256k1InstructionSignatureCount
  ed25519InstructionSignatureCount := acc.ed25519InstructionSignatureCount

end Adjust

section Update

variable {actualExecutionUnits actualLoadedAccountsDataSizeCost : Nat}

theorem Charge.executed_of_lt
    (more : txCost.estimatedLoadAndExecutionUnits <
      saturatingAdd 64 actualExecutionUnits actualLoadedAccountsDataSizeCost) :
    Charge.executed txCost actualExecutionUnits actualLoadedAccountsDataSizeCost =
      ⟨txCost, txCost.sum + (saturatingAdd 64 actualExecutionUnits actualLoadedAccountsDataSizeCost -
        txCost.estimatedLoadAndExecutionUnits)⟩ := by
  have within := txCost.estimatedLoadAndExecutionUnits_le_sum
  rw [Charge.executed]
  congr 1
  omega

theorem Charge.executed_of_le
    (le : saturatingAdd 64 actualExecutionUnits actualLoadedAccountsDataSizeCost ≤
      txCost.estimatedLoadAndExecutionUnits) :
    Charge.executed txCost actualExecutionUnits actualLoadedAccountsDataSizeCost =
      ⟨txCost, txCost.sum - (txCost.estimatedLoadAndExecutionUnits -
        saturatingAdd 64 actualExecutionUnits actualLoadedAccountsDataSizeCost)⟩ := by
  have within := txCost.estimatedLoadAndExecutionUnits_le_sum
  rw [Charge.executed]
  congr 1
  omega

theorem Accounts.updateExecutionCost_cons {rest : List Charge} (acc : Accounts t (Charge.estimate txCost :: rest))
    (bounded : Bounded (Charge.executed txCost actualExecutionUnits actualLoadedAccountsDataSizeCost :: rest)) :
    Accounts (t.updateExecutionCost txCost actualExecutionUnits actualLoadedAccountsDataSizeCost)
      (Charge.executed txCost actualExecutionUnits actualLoadedAccountsDataSizeCost :: rest) := by
  have within := txCost.estimatedLoadAndExecutionUnits_le_sum
  rw [CostTracker.updateExecutionCost_eq]
  dsimp only
  split_ifs with more less
  · rw [Charge.executed_of_lt more] at bounded ⊢
    exact acc.addTransactionExecutionCost bounded
  · rw [Charge.executed_of_le less.le]
    exact acc.subTransactionExecutionCost (by rw [Charge.estimate_amount]; omega)
  · rw [Charge.executed_of_le (Nat.le_of_not_lt more), show txCost.estimatedLoadAndExecutionUnits -
      saturatingAdd 64 actualExecutionUnits actualLoadedAccountsDataSizeCost = 0 by omega, Nat.sub_zero]
    exact acc

theorem Accounts.updateExecutionCost (acc : Accounts t live) (held : Charge.estimate txCost ∈ live)
    (bounded : Bounded (Charge.executed txCost actualExecutionUnits actualLoadedAccountsDataSizeCost ::
      live.erase (Charge.estimate txCost))) :
    Accounts (t.updateExecutionCost txCost actualExecutionUnits actualLoadedAccountsDataSizeCost)
      (Charge.executed txCost actualExecutionUnits actualLoadedAccountsDataSizeCost ::
        live.erase (Charge.estimate txCost)) :=
  (acc.perm (List.perm_cons_erase held)).updateExecutionCost_cons bounded

end Update

end Steps

/-! ### The banking stage's operations -/

/-- What the banking stage does to a block's tracker: `try_add` the estimate of a transaction it
selects and, once a selected transaction is recorded, `remove` it when it was not committed or
`update_execution_cost` when it was. -/
inductive Operation
  | tryAdd (txCost : TransactionCost)
  | remove (txCost : TransactionCost)
  | updateExecutionCost (txCost : TransactionCost) (actualExecutionUnits actualLoadedAccountsDataSizeCost : Nat)
  deriving DecidableEq, Repr

namespace Operation

/-- The tracker after an operation; an estimate that does not fit leaves it as it was. -/
def apply (t : CostTracker) : Operation → CostTracker
  | tryAdd txCost =>
    match t.tryAdd txCost with
    | .ok (_, t') => t'
    | .error _ => t
  | remove txCost => t.remove txCost
  | updateExecutionCost txCost actualExecutionUnits actualLoadedAccountsDataSizeCost =>
    t.updateExecutionCost txCost actualExecutionUnits actualLoadedAccountsDataSizeCost

/-- The charges the tracker holds after an operation. -/
def held (t : CostTracker) (live : List Charge) : Operation → List Charge
  | tryAdd txCost =>
    match t.tryAdd txCost with
    | .ok _ => Charge.estimate txCost :: live
    | .error _ => live
  | remove txCost => live.erase (Charge.estimate txCost)
  | updateExecutionCost txCost actualExecutionUnits actualLoadedAccountsDataSizeCost =>
    Charge.executed txCost actualExecutionUnits actualLoadedAccountsDataSizeCost :: live.erase (Charge.estimate txCost)

/-- The tracker with the charges it holds. -/
def next (s : CostTracker × List Charge) (op : Operation) : CostTracker × List Charge :=
  (op.apply s.1, op.held s.1 s.2)

/-- An operation of the banking stage on what it holds: it removes or updates only a transaction
it selected and did not remove or update since, and no sum over what is held after it passes
`u64::MAX`. -/
def Allowed (s : CostTracker × List Charge) : Operation → Prop
  | tryAdd txCost => Bounded (Charge.estimate txCost :: s.2)
  | remove txCost => Charge.estimate txCost ∈ s.2
  | updateExecutionCost txCost actualExecutionUnits actualLoadedAccountsDataSizeCost =>
    Charge.estimate txCost ∈ s.2 ∧
      Bounded (Charge.executed txCost actualExecutionUnits actualLoadedAccountsDataSizeCost ::
        s.2.erase (Charge.estimate txCost))

section TryAdd

variable {t : CostTracker} {live : List Charge} {txCost : TransactionCost}

theorem apply_tryAdd_of_fits (fits : t.wouldFit txCost = .ok ()) :
    (tryAdd txCost).apply t = (t.addTransactionCost txCost).1 := by
  rw [apply, CostTracker.tryAdd_of_wouldFit_eq_ok fits]

theorem held_tryAdd_of_fits (fits : t.wouldFit txCost = .ok ()) :
    (tryAdd txCost).held t live = Charge.estimate txCost :: live := by
  rw [held, CostTracker.tryAdd_of_wouldFit_eq_ok fits]

theorem apply_tryAdd_of_exceeds {e : CostTrackerError} (exceeds : t.wouldFit txCost = .error e) :
    (tryAdd txCost).apply t = t := by
  rw [apply, CostTracker.tryAdd_of_wouldFit_eq_error exceeds]

theorem held_tryAdd_of_exceeds {e : CostTrackerError} (exceeds : t.wouldFit txCost = .error e) :
    (tryAdd txCost).held t live = live := by
  rw [held, CostTracker.tryAdd_of_wouldFit_eq_error exceeds]

end TryAdd

end Operation

theorem accounts_preserved :
    Preserved (ActionStep Operation.Allowed Operation.next) (fun s => Accounts s.1 s.2) := by
  rintro ⟨t, live⟩ _ acc ⟨op, allowed, rfl⟩
  cases op with
  | tryAdd txCost =>
    cases fits : t.wouldFit txCost with
    | error e =>
      show Accounts ((Operation.tryAdd txCost).apply t) ((Operation.tryAdd txCost).held t live)
      rw [Operation.apply_tryAdd_of_exceeds fits, Operation.held_tryAdd_of_exceeds fits]
      exact acc
    | ok u =>
      show Accounts ((Operation.tryAdd txCost).apply t) ((Operation.tryAdd txCost).held t live)
      rw [Operation.apply_tryAdd_of_fits fits, Operation.held_tryAdd_of_fits fits]
      exact acc.addTransactionCost allowed
  | remove txCost => exact acc.remove allowed
  | updateExecutionCost txCost actualExecutionUnits actualLoadedAccountsDataSizeCost =>
    exact acc.updateExecutionCost allowed.1 allowed.2

/-- Along every run of the banking stage from a tracker that counts what it holds, the counters
are the sums of what it holds. -/
theorem accounts_of_reachable {start s : CostTracker × List Charge} (initial : Accounts start.1 start.2)
    (reach : Reachable (ActionStep Operation.Allowed Operation.next) start s) : Accounts s.1 s.2 :=
  accounts_preserved.reachable initial reach

/-- A transaction write-locking the accounts `1` and `2`, as the default tracker admits it. -/
def twoAccountsCost : TransactionCost := .transaction ⟨⟨[1, 2], 1, 0, 0⟩, 720, 600, 0, 1000, 0, 0⟩

/-- A vote write-locking the account `2`. -/
def voteOnAccountCost : TransactionCost := .simpleVote ⟨[2], 1, 0, 0⟩

/-- The banking stage selects the transaction and the vote, records the transaction with 500 of its
1000 estimated units, and removes the vote, which was not committed. -/
def bankingRun : List Operation :=
  [.tryAdd twoAccountsCost, .tryAdd voteOnAccountCost, .updateExecutionCost twoAccountsCost 500 0,
    .remove voteOnAccountCost]

theorem accounts_of_reachable_bankingRun :
    Accounts (bankingRun.foldl Operation.next (CostTracker.default, [])).1
      (bankingRun.foldl Operation.next (CostTracker.default, [])).2 := by
  have allowed : AllowedRun Operation.Allowed Operation.next (CostTracker.default, []) bankingRun :=
    ⟨Bounded.of_total_weight (by decide), Bounded.of_total_weight (by decide),
      ⟨by decide, Bounded.of_total_weight (by decide)⟩, by simp only [Operation.Allowed]; decide, trivial⟩
  exact @accounts_of_reachable (CostTracker.default, []) _ accounts_default
    (Reachable.foldl bankingRun (Reachable.refl _ _) allowed)

/-! ### Limits -/

/-- The counters the tracker checks are within their limits. -/
structure WithinLimits (t : CostTracker) : Prop where
  blockCost : t.blockCost ≤ t.blockCostLimit
  voteCost : t.voteCost ≤ t.voteCostLimit
  accountCost : ∀ accountKey, CounterMap.get t.costByWritableAccounts accountKey ≤ t.accountCostLimit
  allocatedAccountsDataSize : t.allocatedAccountsDataSize ≤ maxBlockAccountsDataSizeDelta

theorem withinLimits_default : WithinLimits CostTracker.default where
  blockCost := Nat.zero_le _
  voteCost := Nat.zero_le _
  accountCost _ := Nat.zero_le _
  allocatedAccountsDataSize := Nat.zero_le _

section Limits

variable {t : CostTracker} {txCost : TransactionCost}

/-- An estimate that fits keeps the tracker within its limits, when the transaction write-locks
each account once: the check of an account is made for one estimate, and an account listed twice
is charged twice. -/
theorem WithinLimits.addTransactionCost (within : WithinLimits t) (fits : t.wouldFit txCost = .ok ())
    (unique : txCost.writableAccounts.Nodup) : WithinLimits (t.addTransactionCost txCost).1 where
  blockCost := (CostTracker.wouldFit_eq_ok fits).2.1
  voteCost := by
    by_cases vote : txCost.isSimpleVote
    · have added : (t.addTransactionCost txCost).1.voteCost = saturatingAdd 64 t.voteCost txCost.sum := if_pos vote
      rw [added]
      exact (CostTracker.wouldFit_eq_ok fits).1 vote
    · have added : (t.addTransactionCost txCost).1.voteCost = t.voteCost := if_neg vote
      rw [added]
      exact within.voteCost
  accountCost accountKey := by
    simp only [CostTracker.addTransactionCost, CostTracker.addTransactionExecutionCost_costByWritableAccounts,
      CounterMap.get_modifyAll]
    have once := List.nodup_iff_count_le_one.mp unique accountKey
    rcases Nat.le_one_iff_eq_zero_or_eq_one.mp once with absent | listed
    · rw [absent, Function.iterate_zero_apply]
      exact within.accountCost accountKey
    · rw [listed, Function.iterate_one]
      exact CostTracker.wouldFit_get fits accountKey (List.count_pos_iff.mp (by omega))
  allocatedAccountsDataSize := (CostTracker.wouldFit_eq_ok fits).2.2.2.1

theorem WithinLimits.subTransactionExecutionCost (within : WithinLimits t) (txCost : TransactionCost)
    (adjustment : Nat) : WithinLimits (t.subTransactionExecutionCost txCost adjustment) where
  blockCost := le_trans (Nat.sub_le _ _) within.blockCost
  voteCost := by
    by_cases vote : txCost.isSimpleVote
    · have taken : (t.subTransactionExecutionCost txCost adjustment).voteCost = t.voteCost - adjustment :=
        if_pos vote
      rw [taken]
      exact le_trans (Nat.sub_le _ _) within.voteCost
    · have taken : (t.subTransactionExecutionCost txCost adjustment).voteCost = t.voteCost := if_neg vote
      rw [taken]
      exact within.voteCost
  accountCost accountKey := by
    simp only [CostTracker.subTransactionExecutionCost, CounterMap.get_modifyAll, sub_iterate]
    exact le_trans (Nat.sub_le _ _) (within.accountCost accountKey)
  allocatedAccountsDataSize := within.allocatedAccountsDataSize

theorem WithinLimits.removeTransactionCost (within : WithinLimits t) (txCost : TransactionCost) :
    WithinLimits (t.removeTransactionCost txCost) :=
  have taken := within.subTransactionExecutionCost txCost txCost.sum
  { blockCost := taken.blockCost
    voteCost := taken.voteCost
    accountCost := taken.accountCost
    allocatedAccountsDataSize := le_trans (Nat.sub_le _ _) taken.allocatedAccountsDataSize }

theorem WithinLimits.updateExecutionCost (within : WithinLimits t)
    {actualExecutionUnits actualLoadedAccountsDataSizeCost : Nat}
    (le : saturatingAdd 64 actualExecutionUnits actualLoadedAccountsDataSizeCost ≤
      txCost.estimatedLoadAndExecutionUnits) :
    WithinLimits (t.updateExecutionCost txCost actualExecutionUnits actualLoadedAccountsDataSizeCost) := by
  rw [CostTracker.updateExecutionCost_eq]
  dsimp only
  rw [if_neg (Nat.not_lt.mpr le)]
  split_ifs
  · exact within.subTransactionExecutionCost _ _
  · exact within

end Limits

/-- An operation of a banking stage that keeps the limits: the transactions it selects write-lock
each account once, as a sanitized transaction does, and the executions it records used at most
their estimate. -/
def Operation.Admissible : Operation → Prop
  | .tryAdd txCost => txCost.writableAccounts.Nodup
  | .remove _ => True
  | .updateExecutionCost txCost actualExecutionUnits actualLoadedAccountsDataSizeCost =>
    saturatingAdd 64 actualExecutionUnits actualLoadedAccountsDataSizeCost ≤ txCost.estimatedLoadAndExecutionUnits

theorem withinLimits_preserved :
    Preserved (ActionStep (fun _ op => Operation.Admissible op) Operation.apply) WithinLimits := by
  rintro t _ within ⟨op, admissible, rfl⟩
  cases op with
  | tryAdd txCost =>
    cases fits : t.wouldFit txCost with
    | error e =>
      rw [Operation.apply_tryAdd_of_exceeds fits]
      exact within
    | ok u =>
      rw [Operation.apply_tryAdd_of_fits fits]
      exact within.addTransactionCost fits admissible
  | remove txCost => exact within.removeTransactionCost txCost
  | updateExecutionCost txCost actualExecutionUnits actualLoadedAccountsDataSizeCost =>
    exact within.updateExecutionCost admissible

/-- Along every run of a banking stage that keeps the limits, from a tracker within its limits,
no counter passes its limit. -/
theorem withinLimits_of_reachable {start t : CostTracker} (initial : WithinLimits start)
    (reach : Reachable (ActionStep (fun _ op => Operation.Admissible op) Operation.apply) start t) :
    WithinLimits t :=
  withinLimits_preserved.reachable initial reach

theorem withinLimits_of_reachable_bankingRun :
    WithinLimits (bankingRun.foldl Operation.apply CostTracker.default) := by
  have admissible : AllowedRun (fun _ op => Operation.Admissible op) Operation.apply CostTracker.default bankingRun :=
    ⟨by simp only [Operation.Admissible]; decide, by simp only [Operation.Admissible]; decide,
      by simp only [Operation.Admissible]; decide, trivial, trivial⟩
  exact withinLimits_of_reachable withinLimits_default (Reachable.foldl bankingRun (Reachable.refl _ _) admissible)

end CostModel
