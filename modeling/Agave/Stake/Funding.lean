import Mathlib
import Agave.Library.MachineInt
import Agave.Library.ExceptLoop
import Agave.Stake.Delegation
import Agave.Stake.Activation
import Agave.Stake.State
import Agave.Stake.Instructions

/-! Which stake operations keep an account's lamports behind what it holds. Initialization,
deactivation and withdrawal do; delegation does too, except when it rescinds a deactivation, which
restores the whole delegated stake over whatever lamports the account still has. -/

namespace StakeProgram

open Runtime MachineInt

variable {clock : Clock} {history : StakeHistory} {newRateActivationEpoch : Option Epoch}
  {signers : List Pubkey} {stakeAccount after : StakeAccount}

theorem validateDelegatedAmount_ok {stakeMeta : Meta} {flag : Bool} {stakeAmount : Nat}
    (ok : validateDelegatedAmount stakeAccount stakeMeta flag = .ok stakeAmount) :
    stakeAmount = stakeAccount.lamports - stakeMeta.rentExemptReserve ∧
      stakeMeta.rentExemptReserve + stakeAmount = stakeAccount.lamports := by
  unfold validateDelegatedAmount at ok
  dsimp only at ok
  split_ifs at ok with short
  cases ok
  have positive : 0 < getMinimumDelegation flag := by
    unfold getMinimumDelegation lamportsPerSol
    split <;> omega
  exact ⟨rfl, by omega⟩

theorem redelegateStake_cases {stake result : Stake} {stakeLamports : Nat} {voterPubkey : Pubkey}
    {credits : Nat}
    (ok : redelegateStake stake stakeLamports voterPubkey credits clock history newRateActivationEpoch = .ok result) :
    (stake.delegation.deactivationEpoch = clock.epoch ∧
      result = { stake with delegation := { stake.delegation with deactivationEpoch := epochMax } }) ∨
    (result.delegation.stake = stakeLamports ∧ result.delegation.deactivationEpoch = epochMax) := by
  unfold redelegateStake at ok
  split_ifs at ok with active rescind
  · cases ok
    exact .inl ⟨rescind.2.symm, rfl⟩
  · cases ok
    exact .inr ⟨rfl, rfl⟩

theorem delegate_funded {voteProgramId : Pubkey} {voteAccount : VoteAccount} {flag : Bool}
    (ok : delegate voteProgramId voteAccount clock history newRateActivationEpoch signers flag stakeAccount =
      .ok after) :
    after.lamports = stakeAccount.lamports ∧
      (after.Funded ∨
        ∃ stakeMeta stake stakeFlags, stakeAccount.state = .stake stakeMeta stake stakeFlags ∧
          stake.delegation.deactivationEpoch = clock.epoch ∧
          after.state = .stake stakeMeta
            { stake with delegation := { stake.delegation with deactivationEpoch := epochMax } } stakeFlags) := by
  unfold delegate at ok
  by_cases owner : voteAccount.owner = voteProgramId
  case neg => simp [owner, throw, throwThe, MonadExceptOf.throw, ExceptLoop.bind_eq_ok] at ok
  simp only [owner, ne_eq, not_true_eq_false, if_false] at ok
  cases state : stakeAccount.state with
  | initialized stakeMeta =>
    simp only [state, ExceptLoop.bind_eq_ok] at ok
    obtain ⟨_, -, stakeAmount, validated, credits, -, done⟩ := ok
    simp only [pure, Except.pure, Except.ok.injEq] at done
    subst done
    refine ⟨rfl, .inl ?_⟩
    simp only [StakeAccount.Funded, StakeAccount.setState_state, StakeAccount.setState_lamports, newStake]
    exact fun _ => le_of_eq (validateDelegatedAmount_ok validated).2
  | stake stakeMeta stake stakeFlags =>
    simp only [state, ExceptLoop.bind_eq_ok] at ok
    obtain ⟨_, -, stakeAmount, validated, credits, -, redelegated, renewed, done⟩ := ok
    simp only [pure, Except.pure, Except.ok.injEq] at done
    subst done
    refine ⟨rfl, ?_⟩
    cases result : redelegateStake stake stakeAmount voteAccount.key credits clock history
      newRateActivationEpoch with
    | error e => simp [result, Except.mapError] at renewed
    | ok result' =>
      simp only [result, Except.mapError, Except.ok.injEq] at renewed
      subst renewed
      rcases redelegateStake_cases result with ⟨deactivating, rfl⟩ | ⟨staked, -⟩
      · exact .inr ⟨stakeMeta, stake, stakeFlags, rfl, deactivating, rfl⟩
      · left
        simp only [StakeAccount.Funded, StakeAccount.setState_state, StakeAccount.setState_lamports, staked]
        exact fun _ => le_of_eq (validateDelegatedAmount_ok validated).2
  | uninitialized => simp [state, throw, throwThe, MonadExceptOf.throw] at ok
  | rewardsPool => simp [state, throw, throwThe, MonadExceptOf.throw] at ok

/-- The rescinding path of `redelegate_stake`: a stake deactivating from this very epoch and still
effective, delegated again to the same voter, is no longer deactivating, whatever lamports the
account holds. -/
theorem delegate_rescinds {voteProgramId : Pubkey} {voteAccount : VoteAccount} {flag : Bool}
    {stakeMeta : Meta} {stake : Stake} {stakeFlags : StakeFlags} {credits : Nat}
    (state : stakeAccount.state = .stake stakeMeta stake stakeFlags) (owner : voteAccount.owner = voteProgramId)
    (signed : stakeMeta.authorized.staker ∈ signers)
    (delegable : getMinimumDelegation flag ≤ stakeAccount.lamports - stakeMeta.rentExemptReserve)
    (voteState : voteAccount.credits = some credits)
    (active : stake.delegation.effectiveStake history newRateActivationEpoch clock.epoch ≠ 0)
    (sameVoter : stake.delegation.voterPubkey = voteAccount.key)
    (deactivating : stake.delegation.deactivationEpoch = clock.epoch) :
    delegate voteProgramId voteAccount clock history newRateActivationEpoch signers flag stakeAccount =
      .ok (stakeAccount.setState (.stake stakeMeta
        { stake with delegation := { stake.delegation with deactivationEpoch := epochMax } } stakeFlags)) := by
  have rescinded : redelegateStake stake (stakeAccount.lamports - stakeMeta.rentExemptReserve) voteAccount.key
      credits clock history newRateActivationEpoch =
        .ok { stake with delegation := { stake.delegation with deactivationEpoch := epochMax } } := by
    simp [redelegateStake, active, sameVoter, deactivating]
  have validated : validateDelegatedAmount stakeAccount stakeMeta flag =
      .ok (stakeAccount.lamports - stakeMeta.rentExemptReserve) := by
    simp [validateDelegatedAmount, Nat.not_lt.mpr delegable]
  simp [delegate, owner, state, Authorized.check, signed, validated, VoteAccount.voteStateCredits, voteState,
    rescinded, Except.mapError, bind, Except.bind, pure, Except.pure]

theorem deactivate_funded (ok : deactivate clock signers stakeAccount = .ok after) (funded : stakeAccount.Funded) :
    after.lamports = stakeAccount.lamports ∧ after.Funded := by
  unfold deactivate at ok
  cases state : stakeAccount.state with
  | stake stakeMeta stake stakeFlags =>
    simp only [state, ExceptLoop.bind_eq_ok] at ok
    obtain ⟨_, -, deactivated, stakeDeactivated, done⟩ := ok
    simp only [pure, Except.pure, Except.ok.injEq] at done
    subst done
    refine ⟨rfl, ?_⟩
    cases result : stake.deactivate clock.epoch with
    | error e => simp [result, Except.mapError] at stakeDeactivated
    | ok result' =>
      simp only [result, Except.mapError, Except.ok.injEq] at stakeDeactivated
      subst stakeDeactivated
      unfold Stake.deactivate at result
      split_ifs at result with wasDeactivating
      cases result
      simp only [StakeAccount.Funded, state] at funded
      simp only [StakeAccount.Funded, StakeAccount.setState_state, StakeAccount.setState_lamports]
      exact fun _ => funded (not_not.mp wasDeactivating)
  | initialized stakeMeta => simp [state] at ok
  | uninitialized => simp [state] at ok
  | rewardsPool => simp [state] at ok

theorem initializeStakeAccount_funded {authorized : Authorized} {lockup : Lockup} {rent : Rent}
    (ok : initializeStakeAccount authorized lockup rent stakeAccount = .ok after) :
    after.lamports = stakeAccount.lamports ∧ after.Funded := by
  unfold initializeStakeAccount at ok
  split_ifs at ok
  split at ok
  · dsimp only at ok
    split_ifs at ok with enough
    cases ok
    exact ⟨rfl, enough⟩
  · cases ok

/-- Any balance at or above the reserve that `withdraw` computes keeps the account funded, as long
as the clock is before the last epoch (at which the effective stake of a stake that is not
deactivating may still be warming up). -/
theorem withdrawReserve_covers {lockup : Lockup} {reserve : Nat} {isStaked : Bool}
    (ok : withdrawReserve clock history newRateActivationEpoch signers stakeAccount = .ok (lockup, reserve, isStaked))
    (beforeMax : clock.epoch < epochMax) {balance : Nat} (covered : reserve ≤ balance) :
    { stakeAccount with lamports := balance }.Funded := by
  unfold withdrawReserve at ok
  unfold StakeAccount.Funded
  cases state : stakeAccount.state with
  | stake stakeMeta stake stakeFlags =>
    simp only [state, ExceptLoop.bind_eq_ok] at ok
    obtain ⟨_, -, ok⟩ := ok
    intro notDeactivating
    have kept : ¬clock.epoch ≥ stake.delegation.deactivationEpoch := by
      rw [notDeactivating]
      exact Nat.not_le.mpr beforeMax
    simp only [kept, if_false] at ok
    cases added : checkedAdd 64 stake.delegation.stake stakeMeta.rentExemptReserve with
    | none => simp [added, throw, throwThe, MonadExceptOf.throw] at ok
    | some stakedAndReserve =>
      obtain ⟨-, rfl⟩ := checkedAdd_eq_some.mp added
      simp only [added, pure, Except.pure, Except.ok.injEq, Prod.mk.injEq] at ok
      dsimp only
      omega
  | initialized stakeMeta =>
    simp only [state, ExceptLoop.bind_eq_ok] at ok
    obtain ⟨_, -, ok⟩ := ok
    simp only [pure, Except.pure, Except.ok.injEq, Prod.mk.injEq] at ok
    dsimp only
    omega
  | uninitialized => trivial
  | rewardsPool => trivial

section Withdraw

variable {lamports toLamports : Nat} {withdrawAuthority : Pubkey} {isSigner : Bool} {custodian : Option Pubkey}
  {result : StakeAccount × Nat}

theorem withdraw_ok (ok : withdraw lamports clock history withdrawAuthority isSigner custodian newRateActivationEpoch
      stakeAccount toLamports = .ok result) :
    ∃ lockup reserve isStaked,
      withdrawReserve clock history newRateActivationEpoch [withdrawAuthority] stakeAccount =
        .ok (lockup, reserve, isStaked) ∧
      (isStaked → lamports + reserve ≤ stakeAccount.lamports) ∧
      (lamports ≠ stakeAccount.lamports → lamports + reserve ≤ stakeAccount.lamports) ∧
      lamports ≤ stakeAccount.lamports ∧
      result = ({ (if lamports = stakeAccount.lamports then stakeAccount.setState .uninitialized else stakeAccount) with
        lamports := stakeAccount.lamports - lamports }, toLamports + lamports) := by
  unfold withdraw at ok
  cases isSigner
  case false => simp [throw, throwThe, MonadExceptOf.throw, ExceptLoop.bind_eq_ok] at ok
  simp only [Bool.not_true, Bool.false_eq_true, if_false, ExceptLoop.bind_eq_ok] at ok
  obtain ⟨⟨lockup, reserve, isStaked⟩, reserved, ok⟩ := ok
  refine ⟨lockup, reserve, isStaked, reserved, ?_⟩
  -- every guard of the source throws: only the path through all of them is left
  by_cases locked : lockup.isInForce clock custodian = true
  · simp [locked, throw, throwThe, MonadExceptOf.throw, ExceptLoop.bind_eq_ok] at ok
  cases added : checkedAdd 64 lamports reserve with
  | none => simp [locked, added, throw, throwThe, MonadExceptOf.throw, ExceptLoop.bind_eq_ok] at ok
  | some lamportsAndReserve =>
    obtain ⟨-, rfl⟩ := checkedAdd_eq_some.mp added
    simp only [locked, added, Bool.false_eq_true, if_false, ExceptLoop.bind_eq_ok, pure, Except.pure,
      Except.ok.injEq, exists_eq_left'] at ok
    by_cases staked : isStaked = true ∧ lamports + reserve > stakeAccount.lamports
    · simp [staked, throw, throwThe, MonadExceptOf.throw, ExceptLoop.bind_eq_ok] at ok
    by_cases short : lamports ≠ stakeAccount.lamports ∧ lamports + reserve > stakeAccount.lamports
    · rw [if_neg staked, if_pos short] at ok
      simp [throw, throwThe, MonadExceptOf.throw, ExceptLoop.bind_eq_ok] at ok
    rw [if_neg staked, if_neg short] at ok
    simp only [ExceptLoop.bind_eq_ok] at ok
    obtain ⟨rest, subtracted, ok⟩ := ok
    obtain ⟨enough, rfl⟩ := StakeAccount.checkedSubLamports_ok subtracted
    cases total : checkedAdd 64 toLamports lamports with
    | none => simp [total, throw, throwThe, MonadExceptOf.throw] at ok
    | some total' =>
      obtain ⟨-, rfl⟩ := checkedAdd_eq_some.mp total
      simp only [total, Except.ok.injEq] at ok
      refine ⟨fun isStaked => ?_, fun moved => ?_, ?_, ?_⟩
      · simp only [isStaked, true_and, gt_iff_lt, not_lt] at staked
        exact staked
      · simp only [moved, ne_eq, not_false_eq_true, true_and, gt_iff_lt, not_lt] at short
        exact short
      · split at enough <;> exact enough
      · rw [← ok]
        split <;> rfl

theorem withdraw_funded (ok : withdraw lamports clock history withdrawAuthority isSigner custodian
      newRateActivationEpoch stakeAccount toLamports = .ok result) (beforeMax : clock.epoch < epochMax) :
    result.1.Funded ∧ result.1.lamports + result.2 = stakeAccount.lamports + toLamports := by
  obtain ⟨lockup, reserve, isStaked, reserved, -, covered, enough, rfl⟩ := withdraw_ok ok
  refine ⟨?_, by dsimp only; omega⟩
  by_cases closed : lamports = stakeAccount.lamports
  · simp [closed, StakeAccount.Funded]
  · simp only [closed, if_false]
    have kept := covered closed
    exact withdrawReserve_covers reserved beforeMax (by omega)

end Withdraw

/-- A stake that warmed up only in part is deactivated, drained down to its effective stake in the
deactivation epoch, and delegated again to the same voter in that epoch: the deactivation is
rescinded and the account holds a stake of 20 lamports that is not deactivating over 16 lamports. -/
theorem rescind_after_withdraw_unfunded :
    StakeAccount.Funded ⟨1, 30, 200, .initialized ⟨10, ⟨2, 3⟩, default⟩⟩ ∧
    (do
      let delegated ← delegate 5 ⟨7, 5, some 0⟩ ⟨0, 0⟩ (fun _ => none) none [2] false
        ⟨1, 30, 200, .initialized ⟨10, ⟨2, 3⟩, default⟩⟩
      let deactivated ← deactivate ⟨1, 0⟩ [2] delegated
      let withdrawn ← withdraw 14 ⟨1, 0⟩ (fun e => if e = 0 then some ⟨100, 80, 0⟩ else none) 3 true none none
        deactivated 0
      delegate 5 ⟨7, 5, some 0⟩ ⟨1, 0⟩ (fun e => if e = 0 then some ⟨100, 80, 0⟩ else none) none [2] false
        withdrawn.1) =
      .ok ⟨1, 16, 200, .stake ⟨10, ⟨2, 3⟩, default⟩ ⟨⟨7, 20, 0, epochMax⟩, 0⟩ .empty⟩ ∧
    ¬StakeAccount.Funded ⟨1, 16, 200, .stake ⟨10, ⟨2, 3⟩, default⟩ ⟨⟨7, 20, 0, epochMax⟩, 0⟩ .empty⟩ := by
  decide +kernel

end StakeProgram
