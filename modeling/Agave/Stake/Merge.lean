import Mathlib
import Agave.Library.MachineInt
import Agave.Library.ExceptLoop
import Agave.Stake.Delegation
import Agave.Stake.Activation
import Agave.Stake.State

/-! `merge`: a stake account absorbs another that is not in transition. When both are active the
merged stake observes the stake-weighted mean of the two accounts' credits, rounded up, so that the
merged account is owed no more credits times stake than the two accounts were. -/

namespace StakeProgram

open Runtime MachineInt ExceptLoop

/-- `solana_program::instruction::checked_add`: an overflow is `InsufficientFunds`. -/
def Instruction.checkedAdd (a b : Nat) : Except Error Nat :=
  match MachineInt.checkedAdd 64 a b with
  | some sum => .ok sum
  | none => .error (.instruction .insufficientFunds)

/-- `u64::try_from` of a `u128`. -/
def u64TryFrom (value : Nat) : Option Nat := if value ≤ maxValue 64 then some value else none

def stakeWeightedCreditsObserved (stake : Stake) (absorbedLamports absorbedCreditsObserved : Nat) : Option Nat :=
  if stake.creditsObserved = absorbedCreditsObserved then some stake.creditsObserved
  else do
    let totalStake ← checkedAdd 64 stake.delegation.stake absorbedLamports
    let stakeWeightedCredits ← checkedMul 128 stake.creditsObserved stake.delegation.stake
    let absorbedWeightedCredits ← checkedMul 128 absorbedCreditsObserved absorbedLamports
    -- rounded up, by adding `denominator - 1` to the numerator
    let totalWeightedCredits ← checkedAdd 128 stakeWeightedCredits absorbedWeightedCredits
    let totalWeightedCredits ← checkedAdd 128 totalWeightedCredits totalStake
    let totalWeightedCredits ← checkedSub totalWeightedCredits 1
    u64TryFrom (← checkedDiv totalWeightedCredits totalStake)

def mergeDelegationStakeAndCreditsObserved (stake : Stake) (absorbedLamports absorbedCreditsObserved : Nat) :
    Except Error Stake := do
  let creditsObserved ← match stakeWeightedCreditsObserved stake absorbedLamports absorbedCreditsObserved with
    | some credits => pure credits
    | none => throw (.instruction .arithmeticOverflow)
  let delegatedStake ← Instruction.checkedAdd stake.delegation.stake absorbedLamports
  pure { stake with creditsObserved, delegation := { stake.delegation with stake := delegatedStake } }

/-- What a stake account is to `merge`: inactive with its lamports, activating in its activation
epoch, or fully active. -/
inductive MergeKind
  | inactive (stakeMeta : Meta) (stakeLamports : Nat) (stakeFlags : StakeFlags)
  | activationEpoch (stakeMeta : Meta) (stake : Stake) (stakeFlags : StakeFlags)
  | fullyActive (stakeMeta : Meta) (stake : Stake)
  deriving DecidableEq, Repr

namespace MergeKind

def stakeMeta : MergeKind → Meta
  | .inactive stakeMeta _ _ => stakeMeta
  | .activationEpoch stakeMeta _ _ => stakeMeta
  | .fullyActive stakeMeta _ => stakeMeta

def activeStake : MergeKind → Option Stake
  | .inactive _ _ _ => none
  | .activationEpoch _ stake _ => some stake
  | .fullyActive _ stake => some stake

def getIfMergeable (stakeState : StakeStateV2) (stakeLamports : Nat) (clock : Clock) (history : StakeHistory)
    (newRateActivationEpoch : Option Epoch) : Except Error MergeKind :=
  match stakeState with
  | .stake stakeMeta stake stakeFlags =>
    -- a stake in transition, activating or deactivating with an effective part, does not merge
    let status := stake.delegation.stakeActivatingAndDeactivating history newRateActivationEpoch clock.epoch
    match status.effective, status.activating, status.deactivating with
    | 0, 0, 0 => .ok (.inactive stakeMeta stakeLamports stakeFlags)
    | 0, _, _ => .ok (.activationEpoch stakeMeta stake stakeFlags)
    | _, 0, 0 => .ok (.fullyActive stakeMeta stake)
    | _, _, _ => .error (.stake .mergeTransientStake)
  | .initialized stakeMeta => .ok (.inactive stakeMeta stakeLamports StakeFlags.empty)
  | _ => .error (.instruction .invalidAccountData)

/-- Lockups may differ once both have expired; the rent-exempt reserves may always differ. -/
def metasCanMerge (stake source : Meta) (clock : Clock) : Except Error Unit :=
  let canMergeLockups := stake.lockup = source.lockup ∨
    (!stake.lockup.isInForce clock none ∧ !source.lockup.isInForce clock none)
  if stake.authorized = source.authorized ∧ canMergeLockups then .ok () else .error (.stake .mergeMismatch)

def activeDelegationsCanMerge (stake source : Delegation) : Except Error Unit :=
  if stake.voterPubkey ≠ source.voterPubkey then .error (.stake .mergeMismatch)
  else if stake.deactivationEpoch = epochMax ∧ source.deactivationEpoch = epochMax then .ok ()
  else .error (.stake .mergeMismatch)

def merge (self source : MergeKind) (clock : Clock) : Except Error (Option StakeStateV2) := do
  metasCanMerge self.stakeMeta source.stakeMeta clock
  match self.activeStake, source.activeStake with
  | some stake, some source => activeDelegationsCanMerge stake.delegation source.delegation
  | _, _ => pure ()
  match self, source with
  | .inactive _ _ _, .inactive _ _ _ => pure none
  | .inactive _ _ _, .activationEpoch _ _ _ => pure none
  | .activationEpoch stakeMeta stake stakeFlags, .inactive _ sourceLamports sourceStakeFlags => do
    let delegatedStake ← Instruction.checkedAdd stake.delegation.stake sourceLamports
    pure (some (.stake stakeMeta { stake with delegation := { stake.delegation with stake := delegatedStake } }
      (stakeFlags.union sourceStakeFlags)))
  | .activationEpoch stakeMeta stake stakeFlags, .activationEpoch sourceMeta sourceStake sourceStakeFlags => do
    let sourceLamports ← Instruction.checkedAdd sourceMeta.rentExemptReserve sourceStake.delegation.stake
    let stake ← mergeDelegationStakeAndCreditsObserved stake sourceLamports sourceStake.creditsObserved
    pure (some (.stake stakeMeta stake (stakeFlags.union sourceStakeFlags)))
  | .fullyActive stakeMeta stake, .fullyActive _ sourceStake => do
    -- the source's rent-exempt reserve is not staked: it moves over as withdrawable lamports
    let stake ← mergeDelegationStakeAndCreditsObserved stake sourceStake.delegation.stake sourceStake.creditsObserved
    pure (some (.stake stakeMeta stake StakeFlags.empty))
  | _, _ => throw (.stake .mergeMismatch)

end MergeKind

/-- `merge` of `sourceAccount`, owned by `sourceOwner`, into `stakeAccount`: the merged state, and
the source drained into it. -/
def merge (stakeProgramId sourceOwner : Pubkey) (clock : Clock) (history : StakeHistory)
    (newRateActivationEpoch : Option Epoch) (signers : List Pubkey) (stakeAccount sourceAccount : StakeAccount) :
    Except Error (StakeAccount × StakeAccount) := do
  if sourceOwner ≠ stakeProgramId then throw (.instruction .incorrectProgramId)
  if stakeAccount.key = sourceAccount.key then throw (.instruction .invalidArgument)
  let stakeMergeKind ←
    MergeKind.getIfMergeable stakeAccount.state stakeAccount.lamports clock history newRateActivationEpoch
  stakeMergeKind.stakeMeta.authorized.check signers .staker
  let sourceMergeKind ←
    MergeKind.getIfMergeable sourceAccount.state sourceAccount.lamports clock history newRateActivationEpoch
  let stakeAccount := match ← stakeMergeKind.merge sourceMergeKind clock with
    | some mergedState => stakeAccount.setState mergedState
    | none => stakeAccount
  let sourceAccount := sourceAccount.setState .uninitialized
  let lamports := sourceAccount.lamports
  let sourceAccount ← sourceAccount.checkedSubLamports lamports
  let stakeAccount ← stakeAccount.checkedAddLamports lamports
  pure (stakeAccount, sourceAccount)

/-! ### The credits a merge observes -/

/-- `c` is between `c₁` and `c₂`, and is the mean of the two weighted by the stakes `s₁` and `s₂`,
rounded up. -/
structure WeightedMean (c₁ s₁ c₂ s₂ c : Nat) : Prop where
  lower : min c₁ c₂ ≤ c
  upper : c ≤ max c₁ c₂
  covers : c₁ * s₁ + c₂ * s₂ ≤ c * (s₁ + s₂)
  within : c * (s₁ + s₂) < c₁ * s₁ + c₂ * s₂ + (s₁ + s₂)

section WeightedMean

variable {c₁ s₁ c₂ s₂ c : Nat}

theorem weightedMean_self (positive : 0 < s₁ + s₂) : WeightedMean c s₁ c s₂ c where
  lower := min_le_left _ _
  upper := le_max_left _ _
  covers := by rw [Nat.mul_add]
  within := by
    rw [Nat.mul_add]
    omega

theorem weightedMean_ceilDiv (positive : 0 < s₁ + s₂) :
    WeightedMean c₁ s₁ c₂ s₂ (ceilDiv (c₁ * s₁ + c₂ * s₂) (s₁ + s₂)) where
  lower := by
    apply le_ceilDiv positive
    rw [Nat.mul_add]
    exact Nat.add_le_add (Nat.mul_le_mul_right _ (min_le_left _ _)) (Nat.mul_le_mul_right _ (min_le_right _ _))
  upper := by
    apply ceilDiv_le positive
    rw [Nat.mul_add]
    exact Nat.add_le_add (Nat.mul_le_mul_right _ (le_max_left _ _)) (Nat.mul_le_mul_right _ (le_max_right _ _))
  covers := le_ceilDiv_mul _ positive
  within := ceilDiv_mul_lt _ positive

theorem WeightedMean.owed_le (mean : WeightedMean c₁ s₁ c₂ s₂ c) {C : Nat} (covered : max c₁ c₂ ≤ C) :
    (C - c) * (s₁ + s₂) ≤ (C - c₁) * s₁ + (C - c₂) * s₂ := by
  have first : c₁ * s₁ ≤ C * s₁ := Nat.mul_le_mul_right _ (le_trans (le_max_left _ _) covered)
  have second : c₂ * s₂ ≤ C * s₂ := Nat.mul_le_mul_right _ (le_trans (le_max_right _ _) covered)
  have merged : c * (s₁ + s₂) ≤ C * s₁ + C * s₂ := by
    rw [← Nat.mul_add]
    exact Nat.mul_le_mul_right _ (le_trans mean.upper covered)
  have covers := mean.covers
  rw [Nat.sub_mul, Nat.sub_mul, Nat.sub_mul, Nat.mul_add C]
  omega

end WeightedMean

section Weighted

variable {stake : Stake} {absorbedLamports absorbedCreditsObserved : Nat}

theorem weighted_le_maxValue (creditsFit : stake.creditsObserved ≤ maxValue 64)
    (absorbedCreditsFit : absorbedCreditsObserved ≤ maxValue 64) :
    stake.creditsObserved * stake.delegation.stake + absorbedCreditsObserved * absorbedLamports ≤
      maxValue 64 * (stake.delegation.stake + absorbedLamports) := by
  rw [Nat.mul_add]
  exact Nat.add_le_add (Nat.mul_le_mul_right _ creditsFit) (Nat.mul_le_mul_right _ absorbedCreditsFit)

theorem stakeWeightedCreditsObserved_of_ne (differ : stake.creditsObserved ≠ absorbedCreditsObserved)
    (creditsFit : stake.creditsObserved ≤ maxValue 64) (absorbedCreditsFit : absorbedCreditsObserved ≤ maxValue 64)
    (positive : 0 < stake.delegation.stake + absorbedLamports)
    (fits : stake.delegation.stake + absorbedLamports ≤ maxValue 64) :
    stakeWeightedCreditsObserved stake absorbedLamports absorbedCreditsObserved =
      some (ceilDiv (stake.creditsObserved * stake.delegation.stake + absorbedCreditsObserved * absorbedLamports)
        (stake.delegation.stake + absorbedLamports)) := by
  have weighted : stake.creditsObserved * stake.delegation.stake + absorbedCreditsObserved * absorbedLamports ≤
      maxValue 64 * (stake.delegation.stake + absorbedLamports) :=
    weighted_le_maxValue creditsFit absorbedCreditsFit
  have square : maxValue 64 * (stake.delegation.stake + absorbedLamports) ≤ maxValue 64 * maxValue 64 :=
    Nat.mul_le_mul_left _ fits
  have stakeWeighted : stake.creditsObserved * stake.delegation.stake ≤ maxValue (64 + 64) :=
    mul_le_maxValue_add creditsFit (show stake.delegation.stake ≤ maxValue 64 by omega)
  have absorbedWeighted : absorbedCreditsObserved * absorbedLamports ≤ maxValue (64 + 64) :=
    mul_le_maxValue_add absorbedCreditsFit (show absorbedLamports ≤ maxValue 64 by omega)
  have total : stake.creditsObserved * stake.delegation.stake + absorbedCreditsObserved * absorbedLamports +
      (stake.delegation.stake + absorbedLamports) ≤ maxValue 128 := by
    norm_num [maxValue] at weighted square fits ⊢
    omega
  have quotient : (stake.creditsObserved * stake.delegation.stake + absorbedCreditsObserved * absorbedLamports +
      (stake.delegation.stake + absorbedLamports) - 1) / (stake.delegation.stake + absorbedLamports) ≤ maxValue 64 :=
    ceilDiv_le positive weighted
  have numerator : 1 ≤ stake.creditsObserved * stake.delegation.stake +
      absorbedCreditsObserved * absorbedLamports + (stake.delegation.stake + absorbedLamports) := by
    omega
  simp only [stakeWeightedCreditsObserved, if_neg differ, checkedAdd_of_le fits, Option.bind_eq_bind,
    Option.bind_some, checkedMul_of_le stakeWeighted, checkedMul_of_le absorbedWeighted,
    checkedAdd_of_le (le_trans (Nat.le_add_right _ _) total), checkedAdd_of_le total,
    checkedSub_of_le numerator, checkedDiv_of_pos positive, u64TryFrom, if_pos quotient]
  rfl

theorem stakeWeightedCreditsObserved_of_eq (same : stake.creditsObserved = absorbedCreditsObserved) :
    stakeWeightedCreditsObserved stake absorbedLamports absorbedCreditsObserved = some stake.creditsObserved := by
  rw [stakeWeightedCreditsObserved, if_pos same]

theorem mergeDelegationStakeAndCreditsObserved_of_some {credits : Nat}
    (observed : stakeWeightedCreditsObserved stake absorbedLamports absorbedCreditsObserved = some credits)
    (fits : stake.delegation.stake + absorbedLamports ≤ maxValue 64) :
    mergeDelegationStakeAndCreditsObserved stake absorbedLamports absorbedCreditsObserved =
      .ok { stake with
            creditsObserved := credits
            delegation := { stake.delegation with stake := stake.delegation.stake + absorbedLamports } } := by
  rw [mergeDelegationStakeAndCreditsObserved, observed]
  simp only [Instruction.checkedAdd, checkedAdd_of_le fits]
  rfl

theorem stakeWeightedCreditsObserved_weightedMean (creditsFit : stake.creditsObserved ≤ maxValue 64)
    (absorbedCreditsFit : absorbedCreditsObserved ≤ maxValue 64)
    (positive : 0 < stake.delegation.stake + absorbedLamports)
    (fits : stake.delegation.stake + absorbedLamports ≤ maxValue 64) :
    ∃ credits, stakeWeightedCreditsObserved stake absorbedLamports absorbedCreditsObserved = some credits ∧
      WeightedMean stake.creditsObserved stake.delegation.stake absorbedCreditsObserved absorbedLamports credits := by
  by_cases same : stake.creditsObserved = absorbedCreditsObserved
  · refine ⟨stake.creditsObserved, stakeWeightedCreditsObserved_of_eq same, ?_⟩
    rw [← same]
    exact weightedMean_self positive
  · exact ⟨_, stakeWeightedCreditsObserved_of_ne same creditsFit absorbedCreditsFit positive fits,
      weightedMean_ceilDiv positive⟩

theorem merge_never_creates_rewards (creditsFit : stake.creditsObserved ≤ maxValue 64)
    (absorbedCreditsFit : absorbedCreditsObserved ≤ maxValue 64)
    (positive : 0 < stake.delegation.stake + absorbedLamports)
    (fits : stake.delegation.stake + absorbedLamports ≤ maxValue 64) :
    ∃ credits, stakeWeightedCreditsObserved stake absorbedLamports absorbedCreditsObserved = some credits ∧
      min stake.creditsObserved absorbedCreditsObserved ≤ credits ∧
      credits ≤ max stake.creditsObserved absorbedCreditsObserved ∧
      stake.creditsObserved * stake.delegation.stake + absorbedCreditsObserved * absorbedLamports ≤
        credits * (stake.delegation.stake + absorbedLamports) ∧
      credits * (stake.delegation.stake + absorbedLamports) <
        stake.creditsObserved * stake.delegation.stake + absorbedCreditsObserved * absorbedLamports +
          (stake.delegation.stake + absorbedLamports) ∧
      (∀ C, max stake.creditsObserved absorbedCreditsObserved ≤ C →
        (C - credits) * (stake.delegation.stake + absorbedLamports) ≤
          (C - stake.creditsObserved) * stake.delegation.stake + (C - absorbedCreditsObserved) * absorbedLamports) ∧
      mergeDelegationStakeAndCreditsObserved stake absorbedLamports absorbedCreditsObserved =
        .ok { stake with
              creditsObserved := credits
              delegation := { stake.delegation with stake := stake.delegation.stake + absorbedLamports } } := by
  obtain ⟨credits, observed, mean⟩ :=
    stakeWeightedCreditsObserved_weightedMean creditsFit absorbedCreditsFit positive fits
  exact ⟨credits, observed, mean.lower, mean.upper, mean.covers, mean.within, fun _ covered => mean.owed_le covered,
    mergeDelegationStakeAndCreditsObserved_of_some observed fits⟩

end Weighted

/-- Three lamports at ten credits absorbing one at fourteen: the mean eleven, exactly. -/
theorem merge_never_creates_rewards_three_and_one :
    let stake : Stake := ⟨⟨0, 3, 0, epochMax⟩, 10⟩
    stake.creditsObserved ≤ maxValue 64 ∧ 14 ≤ maxValue 64 ∧ 0 < stake.delegation.stake + 1 ∧
    stake.delegation.stake + 1 ≤ maxValue 64 ∧
    ∃ credits, stakeWeightedCreditsObserved stake 1 14 = some credits ∧
      min stake.creditsObserved 14 ≤ credits ∧ credits ≤ max stake.creditsObserved 14 ∧
      stake.creditsObserved * stake.delegation.stake + 14 * 1 ≤ credits * (stake.delegation.stake + 1) ∧
      credits * (stake.delegation.stake + 1) <
        stake.creditsObserved * stake.delegation.stake + 14 * 1 + (stake.delegation.stake + 1) ∧
      (∀ C, max stake.creditsObserved 14 ≤ C →
        (C - credits) * (stake.delegation.stake + 1) ≤
          (C - stake.creditsObserved) * stake.delegation.stake + (C - 14) * 1) ∧
      mergeDelegationStakeAndCreditsObserved stake 1 14 =
        .ok { stake with
              creditsObserved := credits
              delegation := { stake.delegation with stake := stake.delegation.stake + 1 } } := by
  intro stake
  have creditsFit : stake.creditsObserved ≤ maxValue 64 := by decide
  have absorbedCreditsFit : 14 ≤ maxValue 64 := by decide
  have positive : 0 < stake.delegation.stake + 1 := by decide
  have fits : stake.delegation.stake + 1 ≤ maxValue 64 := by decide
  exact ⟨creditsFit, absorbedCreditsFit, positive, fits,
    merge_never_creates_rewards creditsFit absorbedCreditsFit positive fits⟩

/-! ### Merging two accounts -/

section Accounts

variable {stake sourceStake mergedStake : Stake} {absorbedLamports absorbedCreditsObserved : Nat}

theorem mergeDelegationStakeAndCreditsObserved_eq_ok
    (ok : mergeDelegationStakeAndCreditsObserved stake absorbedLamports absorbedCreditsObserved = .ok mergedStake) :
    ∃ credits, stakeWeightedCreditsObserved stake absorbedLamports absorbedCreditsObserved = some credits ∧
      stake.delegation.stake + absorbedLamports ≤ maxValue 64 ∧
      mergedStake = { stake with
        creditsObserved := credits
        delegation := { stake.delegation with stake := stake.delegation.stake + absorbedLamports } } := by
  rw [mergeDelegationStakeAndCreditsObserved] at ok
  cases observed : stakeWeightedCreditsObserved stake absorbedLamports absorbedCreditsObserved with
  | none => simp [observed, throw, throwThe, MonadExceptOf.throw, bind, Except.bind] at ok
  | some credits =>
    simp only [observed, bind_eq_ok, pure_eq_ok, Instruction.checkedAdd] at ok
    obtain ⟨_, rfl, delegatedStake, added, rfl⟩ := ok
    split at added
    · rename_i sum fits
      cases added
      obtain ⟨fit, rfl⟩ := checkedAdd_eq_some.mp fits
      exact ⟨credits, rfl, fit, rfl⟩
    · cases added

theorem MergeKind.merge_fullyActive_eq_ok {destinationMeta sourceMeta : Meta} {clock : Clock}
    {merged : Option StakeStateV2}
    (ok : (MergeKind.fullyActive destinationMeta stake).merge (.fullyActive sourceMeta sourceStake) clock = .ok merged) :
    ∃ mergedStake, mergeDelegationStakeAndCreditsObserved stake sourceStake.delegation.stake
        sourceStake.creditsObserved = .ok mergedStake ∧
      merged = some (.stake destinationMeta mergedStake StakeFlags.empty) := by
  simp only [MergeKind.merge, MergeKind.stakeMeta, MergeKind.activeStake, bind_eq_ok, pure_eq_ok] at ok
  obtain ⟨_, -, _, -, mergedStake, merging, rfl⟩ := ok
  exact ⟨mergedStake, merging, rfl⟩

theorem MergeKind.merge_fullyActive_owed_le {destinationMeta sourceMeta mergedMeta : Meta} {clock : Clock}
    {mergedFlags : StakeFlags} (creditsFit : stake.creditsObserved ≤ maxValue 64)
    (sourceCreditsFit : sourceStake.creditsObserved ≤ maxValue 64)
    (ok : (MergeKind.fullyActive destinationMeta stake).merge (.fullyActive sourceMeta sourceStake) clock =
      .ok (some (.stake mergedMeta mergedStake mergedFlags)))
    {C : Nat} (covered : max stake.creditsObserved sourceStake.creditsObserved ≤ C) :
    mergedStake.delegation.stake = stake.delegation.stake + sourceStake.delegation.stake ∧
      (C - mergedStake.creditsObserved) * mergedStake.delegation.stake ≤
        (C - stake.creditsObserved) * stake.delegation.stake +
          (C - sourceStake.creditsObserved) * sourceStake.delegation.stake := by
  obtain ⟨merged, merging, same⟩ := MergeKind.merge_fullyActive_eq_ok ok
  obtain ⟨credits, observed, fits, rfl⟩ := mergeDelegationStakeAndCreditsObserved_eq_ok merging
  cases same
  refine ⟨rfl, ?_⟩
  rcases Nat.eq_zero_or_pos (stake.delegation.stake + sourceStake.delegation.stake) with empty | positive
  · dsimp only
    rw [empty, Nat.mul_zero]
    exact Nat.zero_le _
  · obtain ⟨credits', observed', mean⟩ :=
      stakeWeightedCreditsObserved_weightedMean creditsFit sourceCreditsFit positive fits
    rw [observed] at observed'
    cases observed'
    exact mean.owed_le covered

theorem lamports_of_merged (stakeAccount : StakeAccount) (merged : Option StakeStateV2) :
    (match merged with
      | some mergedState => stakeAccount.setState mergedState
      | none => stakeAccount).lamports = stakeAccount.lamports := by
  cases merged <;> rfl

theorem key_of_merged (stakeAccount : StakeAccount) (merged : Option StakeStateV2) :
    (match merged with
      | some mergedState => stakeAccount.setState mergedState
      | none => stakeAccount).key = stakeAccount.key := by
  cases merged <;> rfl

theorem merge_eq_ok {stakeProgramId sourceOwner : Pubkey} {clock : Clock} {history : StakeHistory}
    {newRateActivationEpoch : Option Epoch} {signers : List Pubkey}
    {stakeAccount sourceAccount stakeAccount' sourceAccount' : StakeAccount}
    (ok : merge stakeProgramId sourceOwner clock history newRateActivationEpoch signers stakeAccount sourceAccount =
      .ok (stakeAccount', sourceAccount')) :
    stakeAccount'.lamports = stakeAccount.lamports + sourceAccount.lamports ∧ sourceAccount'.lamports = 0 ∧
      sourceAccount'.state = .uninitialized ∧ stakeAccount'.key = stakeAccount.key := by
  simp only [merge, ite_throw_bind_eq_ok, bind_eq_ok, pure_eq_ok] at ok
  obtain ⟨-, -, _, -, _, -, _, -, merged, -, drained, subtracted, filled, added, same⟩ := ok
  cases same
  obtain ⟨-, rfl⟩ := StakeAccount.checkedSubLamports_ok subtracted
  rw [StakeAccount.checkedAddLamports_ok added]
  refine ⟨?_, Nat.sub_self _, StakeAccount.setState_state sourceAccount .uninitialized,
    key_of_merged stakeAccount merged⟩
  dsimp only
  rw [lamports_of_merged, StakeAccount.setState_lamports]

end Accounts

end StakeProgram
