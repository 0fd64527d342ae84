import Mathlib
import Agave.Library.MachineInt
import Agave.Runtime.TransactionContext
import Agave.Stake.Delegation
import Agave.Stake.Activation
import Agave.Stake.State

/-! The stake program's initialization, `delegate` (with `redelegate_stake`), `deactivate` and
`withdraw`, each on the accounts it borrows. -/

namespace StakeProgram

open Runtime MachineInt

/-- `rent.minimum_balance(data_len)`. -/
abbrev Rent := Nat → Nat

/-- `StakeStateV2::size_of()`. -/
def stakeStateV2Size : Nat := 200

def lamportsPerSol : Nat := 1000000000

def getMinimumDelegation (stakeRaiseMinimumDelegationTo1Sol : Bool) : Nat :=
  if stakeRaiseMinimumDelegationTo1Sol then 1 * lamportsPerSol else 1

/-- A vote account as `delegate` reads it: its key, its owner, and the credits of the vote state its
data holds, `none` when it holds none. -/
structure VoteAccount where
  key : Pubkey
  owner : Pubkey
  credits : Option Nat
  deriving DecidableEq, Repr

/-- `vote_account.get_state::<VoteStateVersions>()`, read for its credits. -/
def VoteAccount.voteStateCredits (voteAccount : VoteAccount) : Except Error Nat :=
  match voteAccount.credits with
  | some credits => .ok credits
  | none => .error (.instruction .invalidAccountData)

/-- `initialize`, a keyword of Lean. -/
def initializeStakeAccount (authorized : Authorized) (lockup : Lockup) (rent : Rent) (stakeAccount : StakeAccount) :
    Except Error StakeAccount :=
  if stakeAccount.dataLen ≠ stakeStateV2Size then .error (.instruction .invalidAccountData)
  else
    match stakeAccount.state with
    | .uninitialized =>
      let rentExemptReserve := rent stakeAccount.dataLen
      if stakeAccount.lamports ≥ rentExemptReserve then
        .ok (stakeAccount.setState (.initialized ⟨rentExemptReserve, authorized, lockup⟩))
      else .error (.instruction .insufficientFunds)
    | _ => .error (.instruction .invalidAccountData)

def validateDelegatedAmount (stakeAccount : StakeAccount) (stakeMeta : Meta) (stakeRaiseMinimumDelegationTo1Sol : Bool) :
    Except Error Nat :=
  -- the rent cannot be staked
  let stakeAmount := stakeAccount.lamports - stakeMeta.rentExemptReserve
  if stakeAmount < getMinimumDelegation stakeRaiseMinimumDelegationTo1Sol then .error (.stake .insufficientDelegation)
  else .ok stakeAmount

def newStake (stake : Nat) (voterPubkey : Pubkey) (credits : Nat) (activationEpoch : Epoch) : Stake :=
  ⟨⟨voterPubkey, stake, activationEpoch, epochMax⟩, credits⟩

def redelegateStake (stake : Stake) (stakeLamports : Nat) (voterPubkey : Pubkey) (credits : Nat) (clock : Clock)
    (history : StakeHistory) (newRateActivationEpoch : Option Epoch) : Except StakeError Stake :=
  if stake.delegation.effectiveStake history newRateActivationEpoch clock.epoch ≠ 0 then
    -- an active stake to the same voter, deactivating from this epoch on: the deactivation is rescinded
    if stake.delegation.voterPubkey = voterPubkey ∧ clock.epoch = stake.delegation.deactivationEpoch then
      .ok { stake with delegation := { stake.delegation with deactivationEpoch := epochMax } }
    else .error .tooSoonToRedelegate
  else
    .ok ⟨{ stake.delegation with
      stake := stakeLamports
      activationEpoch := clock.epoch
      deactivationEpoch := epochMax
      voterPubkey := voterPubkey }, credits⟩

def delegate (voteProgramId : Pubkey) (voteAccount : VoteAccount) (clock : Clock) (history : StakeHistory)
    (newRateActivationEpoch : Option Epoch) (signers : List Pubkey) (stakeRaiseMinimumDelegationTo1Sol : Bool)
    (stakeAccount : StakeAccount) : Except Error StakeAccount := do
  if voteAccount.owner ≠ voteProgramId then throw (.instruction .incorrectProgramId)
  match stakeAccount.state with
  | .initialized stakeMeta =>
    stakeMeta.authorized.check signers .staker
    let stakeAmount ← validateDelegatedAmount stakeAccount stakeMeta stakeRaiseMinimumDelegationTo1Sol
    let credits ← voteAccount.voteStateCredits
    pure (stakeAccount.setState (.stake stakeMeta (newStake stakeAmount voteAccount.key credits clock.epoch) .empty))
  | .stake stakeMeta stake stakeFlags =>
    stakeMeta.authorized.check signers .staker
    let stakeAmount ← validateDelegatedAmount stakeAccount stakeMeta stakeRaiseMinimumDelegationTo1Sol
    let credits ← voteAccount.voteStateCredits
    let stake ← (redelegateStake stake stakeAmount voteAccount.key credits clock history
      newRateActivationEpoch).mapError .stake
    pure (stakeAccount.setState (.stake stakeMeta stake stakeFlags))
  | _ => throw (.instruction .invalidAccountData)

def deactivate (clock : Clock) (signers : List Pubkey) (stakeAccount : StakeAccount) : Except Error StakeAccount :=
  match stakeAccount.state with
  | .stake stakeMeta stake stakeFlags => do
    stakeMeta.authorized.check signers .staker
    let stake ← (stake.deactivate clock.epoch).mapError .stake
    pure (stakeAccount.setState (.stake stakeMeta stake stakeFlags))
  | _ => .error (.instruction .invalidAccountData)

/-- The lockup, the balance to keep and whether the account is staked, as `withdraw` reads them from
the state. -/
def withdrawReserve (clock : Clock) (history : StakeHistory) (newRateActivationEpoch : Option Epoch)
    (signers : List Pubkey) (stakeAccount : StakeAccount) : Except Error (Lockup × Nat × Bool) :=
  match stakeAccount.state with
  | .stake stakeMeta stake _ => do
    stakeMeta.authorized.check signers .withdrawer
    -- in cooldown the effective stake is kept; before deactivation the full stake, which warmup may
    -- still make effective
    let staked :=
      if clock.epoch ≥ stake.delegation.deactivationEpoch then
        stake.delegation.effectiveStake history newRateActivationEpoch clock.epoch
      else stake.delegation.stake
    match checkedAdd 64 staked stakeMeta.rentExemptReserve with
    | some stakedAndReserve => pure (stakeMeta.lockup, stakedAndReserve, staked ≠ 0)
    | none => throw (.instruction .insufficientFunds)
  | .initialized stakeMeta => do
    stakeMeta.authorized.check signers .withdrawer
    pure (stakeMeta.lockup, stakeMeta.rentExemptReserve, false)
  | .uninitialized =>
    if stakeAccount.key ∉ signers then .error (.instruction .missingRequiredSignature)
    else .ok (default, 0, false)
  | _ => .error (.instruction .invalidAccountData)

/-- `withdraw` of `lamports` to an account holding `toLamports`; `custodian` is the custodian's key
when it signs. -/
def withdraw (lamports : Nat) (clock : Clock) (history : StakeHistory) (withdrawAuthority : Pubkey)
    (withdrawAuthorityIsSigner : Bool) (custodian : Option Pubkey) (newRateActivationEpoch : Option Epoch)
    (stakeAccount : StakeAccount) (toLamports : Nat) : Except Error (StakeAccount × Nat) := do
  if !withdrawAuthorityIsSigner then throw (.instruction .missingRequiredSignature)
  let (lockup, reserve, isStaked) ←
    withdrawReserve clock history newRateActivationEpoch [withdrawAuthority] stakeAccount
  if lockup.isInForce clock custodian then throw (.stake .lockupInForce)
  let lamportsAndReserve ← match checkedAdd 64 lamports reserve with
    | some total => pure total
    | none => throw (.instruction .insufficientFunds)
  -- an active stake must not go away
  if isStaked ∧ lamportsAndReserve > stakeAccount.lamports then throw (.instruction .insufficientFunds)
  if lamports ≠ stakeAccount.lamports ∧ lamportsAndReserve > stakeAccount.lamports then
    throw (.instruction .insufficientFunds)
  -- deinitialize upon zero balance
  let stakeAccount := if lamports = stakeAccount.lamports then stakeAccount.setState .uninitialized else stakeAccount
  let stakeAccount ← stakeAccount.checkedSubLamports lamports
  match checkedAdd 64 toLamports lamports with
  | some total => pure (stakeAccount, total)
  | none => throw (.instruction .arithmeticOverflow)

end StakeProgram
