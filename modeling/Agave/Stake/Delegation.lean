import Mathlib
import Agave.Runtime.TransactionContext

/-! Stake delegations, the cluster's stake history and its warmup and cooldown rates, and the
`split` and `deactivate` of a stake. -/

namespace StakeProgram

open Runtime

abbrev Epoch := Nat

/-- `u64::MAX`: the deactivation epoch of a stake that is not deactivating, and the activation epoch
of a bootstrap stake. -/
def epochMax : Epoch := 2 ^ 64 - 1

/-- The cluster's stake at an epoch; `StakeActivationStatus` is the same record for one delegation. -/
structure StakeHistoryEntry where
  effective : Nat
  activating : Nat
  deactivating : Nat
  deriving DecidableEq, Repr

abbrev StakeActivationStatus := StakeHistoryEntry

/-- `StakeHistoryGetEntry::get_entry`: the entry of an epoch, while it is still in the history. -/
abbrev StakeHistory := Epoch → Option StakeHistoryEntry

structure Delegation where
  voterPubkey : Pubkey
  stake : Nat
  activationEpoch : Epoch
  deactivationEpoch : Epoch
  deriving DecidableEq, Repr

def defaultWarmupCooldownRate : ℚ := 1 / 4

def newWarmupCooldownRate : ℚ := 9 / 100

def warmupCooldownRate (currentEpoch : Epoch) (newRateActivationEpoch : Option Epoch) : ℚ :=
  if currentEpoch < newRateActivationEpoch.getD epochMax then defaultWarmupCooldownRate
  else newWarmupCooldownRate

namespace Delegation

variable (delegation : Delegation)

def isBootstrap : Bool := delegation.activationEpoch == epochMax

end Delegation

structure Stake where
  delegation : Delegation
  creditsObserved : Nat
  deriving DecidableEq, Repr

inductive StakeError
  | tooSoonToRedelegate
  | insufficientDelegation
  | alreadyDeactivated
  | lockupInForce
  | mergeTransientStake
  | mergeMismatch
  | insufficientStake
  | voteAddressMismatch
  deriving DecidableEq, Repr

namespace Stake

/-- `Stake::split`: the stake left shrinks by `remainingStakeDelta`, the new one has `splitStakeAmount`. -/
def split (stake : Stake) (remainingStakeDelta splitStakeAmount : Nat) : Except StakeError (Stake × Stake) :=
  if remainingStakeDelta > stake.delegation.stake then .error .insufficientStake
  else
    let remaining := { stake with
      delegation := { stake.delegation with stake := stake.delegation.stake - remainingStakeDelta } }
    .ok (remaining, { remaining with delegation := { remaining.delegation with stake := splitStakeAmount } })

def deactivate (stake : Stake) (epoch : Epoch) : Except StakeError Stake :=
  if stake.delegation.deactivationEpoch ≠ epochMax then .error .alreadyDeactivated
  else .ok { stake with delegation := { stake.delegation with deactivationEpoch := epoch } }

end Stake

end StakeProgram
