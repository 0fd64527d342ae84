import Mathlib
import Agave.Library.MachineInt
import Agave.Stake.Delegation

/-! The warmup and cooldown loops of `stake_and_activating` and `stake_activating_and_deactivating`
as the release build runs them: the `u64` sum of the warmup wraps, the difference to the delegated
stake is a `u64` subtraction, and the cooldown subtracts saturating. The `f64` arithmetic of a pass
is left open: `FloatPortion` is what it gives before `as u64`, so the loops are read for every value
it may take. With the cluster's rates, read exactly over `ℚ`, they give the
`stake_activating_and_deactivating` and `Delegation::stake` that the stake program calls. -/

namespace StakeProgram

open MachineInt

/-- What `weight * newly_effective_cluster_stake` truncates to, from the epoch a pass computes, the
stake it weighs and the cluster's stake the epoch before. -/
abbrev FloatPortion := Nat → Nat → StakeHistoryEntry → Nat

/-- `(portion as u64).max(1)`: saturated to `u64`, and at least one. -/
def newlyStake (portion : FloatPortion) (currentEpoch : Nat) (weighed : Nat) (prevClusterStake : StakeHistoryEntry) :
    Nat :=
  max (min (portion currentEpoch weighed prevClusterStake) (maxValue 64)) 1

/-- `weight * newly_effective_cluster_stake` of a warmup pass, its `f64`s read exactly over `ℚ`. -/
def warmupRatePortion (newRateActivationEpoch : Option Epoch) : FloatPortion :=
  fun currentEpoch remainingActivatingStake prevClusterStake =>
    ((remainingActivatingStake / prevClusterStake.activating : ℚ) *
      (prevClusterStake.effective * warmupCooldownRate currentEpoch newRateActivationEpoch)).floor.toNat

/-- `weight * newly_not_effective_cluster_stake` of a cooldown pass. -/
def cooldownRatePortion (newRateActivationEpoch : Option Epoch) : FloatPortion :=
  fun currentEpoch currentEffectiveStake prevClusterStake =>
    ((currentEffectiveStake / prevClusterStake.deactivating : ℚ) *
      (prevClusterStake.effective * warmupCooldownRate currentEpoch newRateActivationEpoch)).floor.toNat

def StakeActivationStatus.withEffective (effective : Nat) : StakeActivationStatus := ⟨effective, 0, 0⟩

def StakeActivationStatus.withEffectiveAndActivating (effective activating : Nat) : StakeActivationStatus :=
  ⟨effective, activating, 0⟩

def StakeActivationStatus.withDeactivating (deactivating : Nat) : StakeActivationStatus :=
  ⟨deactivating, 0, deactivating⟩

namespace Delegation

variable (delegation : Delegation) (history : StakeHistory) (warmupPortion cooldownPortion : FloatPortion)

/-- The loop of `stake_and_activating` from `prevEpoch` on; `none` when
`delegated_stake - current_effective_stake` would underflow. -/
def warmupLoop (targetEpoch prevEpoch : Nat) (prevClusterStake : StakeHistoryEntry) (currentEffectiveStake : Nat) :
    Option Nat :=
  let currentEpoch := prevEpoch + 1
  if prevClusterStake.activating = 0 then some currentEffectiveStake
  else
    match checkedSub delegation.stake currentEffectiveStake with
    | none => none
    | some remainingActivatingStake =>
      let currentEffectiveStake := wrappingAdd 64 currentEffectiveStake
        (newlyStake warmupPortion currentEpoch remainingActivatingStake prevClusterStake)
      if currentEffectiveStake ≥ delegation.stake then some delegation.stake
      else if currentEpoch ≥ targetEpoch ∨ currentEpoch ≥ delegation.deactivationEpoch then
        some currentEffectiveStake
      else
        match history currentEpoch with
        | some currentClusterStake => warmupLoop targetEpoch currentEpoch currentClusterStake currentEffectiveStake
        | none => some currentEffectiveStake
termination_by targetEpoch - prevEpoch
decreasing_by omega

/-- The loop of `stake_activating_and_deactivating` from `prevEpoch` on. -/
def cooldownLoop (targetEpoch prevEpoch : Nat) (prevClusterStake : StakeHistoryEntry) (currentEffectiveStake : Nat) :
    Nat :=
  let currentEpoch := prevEpoch + 1
  if prevClusterStake.deactivating = 0 then currentEffectiveStake
  else
    -- `saturating_sub`
    let currentEffectiveStake :=
      currentEffectiveStake - newlyStake cooldownPortion currentEpoch currentEffectiveStake prevClusterStake
    if currentEffectiveStake = 0 then 0
    else if currentEpoch ≥ targetEpoch then currentEffectiveStake
    else
      match history currentEpoch with
      | some currentClusterStake => cooldownLoop targetEpoch currentEpoch currentClusterStake currentEffectiveStake
      | none => currentEffectiveStake
termination_by targetEpoch - prevEpoch
decreasing_by omega

def stakeAndActivatingWith (targetEpoch : Nat) : Option (Nat × Nat) :=
  let delegatedStake := delegation.stake
  if delegation.isBootstrap then some (delegatedStake, 0)
  else if delegation.activationEpoch = delegation.deactivationEpoch then some (0, 0)
  else if targetEpoch = delegation.activationEpoch then some (0, delegatedStake)
  else if targetEpoch < delegation.activationEpoch then some (0, 0)
  else
    match history delegation.activationEpoch with
    | some clusterStakeAtActivationEpoch => do
      let currentEffectiveStake ← delegation.warmupLoop history warmupPortion targetEpoch
        delegation.activationEpoch clusterStakeAtActivationEpoch 0
      let activatingStake ← checkedSub delegatedStake currentEffectiveStake
      pure (currentEffectiveStake, activatingStake)
    | none => some (delegatedStake, 0)

def stakeActivatingAndDeactivatingWith (targetEpoch : Nat) : Option StakeActivationStatus := do
  let (effectiveStake, activatingStake) ← delegation.stakeAndActivatingWith history warmupPortion targetEpoch
  if targetEpoch < delegation.deactivationEpoch then
    if activatingStake = 0 then pure (.withEffective effectiveStake)
    else pure (.withEffectiveAndActivating effectiveStake activatingStake)
  else if targetEpoch = delegation.deactivationEpoch then pure (.withDeactivating effectiveStake)
  else
    match history delegation.deactivationEpoch with
    | some clusterStakeAtDeactivationEpoch =>
      pure (.withDeactivating (cooldownLoop history cooldownPortion targetEpoch delegation.deactivationEpoch
        clusterStakeAtDeactivationEpoch effectiveStake))
    -- `StakeActivationStatus::default()`
    | none => pure ⟨0, 0, 0⟩


/-! ### The warmup loop -/

section Warmup

variable {delegation : Delegation} {history : StakeHistory} {warmupPortion : FloatPortion}

theorem checkedSub_stake_eq_none {current : Nat} (below : current ≤ delegation.stake) :
    checkedSub delegation.stake current ≠ none := by
  rw [checkedSub_of_le below]
  exact Option.some_ne_none _

theorem warmupLoop_le {targetEpoch prevEpoch current : Nat} {prevClusterStake : StakeHistoryEntry}
    (below : current ≤ delegation.stake) :
    ∃ effective, delegation.warmupLoop history warmupPortion targetEpoch prevEpoch prevClusterStake current =
      some effective ∧ effective ≤ delegation.stake := by
  fun_induction delegation.warmupLoop history warmupPortion targetEpoch prevEpoch prevClusterStake current with
  | case1 => exact ⟨_, rfl, below⟩
  | case2 _ _ _ _ underflow => exact absurd underflow (checkedSub_stake_eq_none below)
  | case3 => exact ⟨_, rfl, le_refl _⟩
  | case4 _ _ _ _ _ _ _ _ short _ => exact ⟨_, rfl, le_of_lt (not_le.mp short)⟩
  | case5 _ _ _ _ _ _ _ _ short _ _ _ ih => exact ih (le_of_lt (not_le.mp short))
  | case6 _ _ _ _ _ _ _ _ short _ _ => exact ⟨_, rfl, le_of_lt (not_le.mp short)⟩

/-- No pass adds more than the delegated stake, and that is at most `2 ^ 63`: then the `u64` sum of
the warmup never wraps. -/
structure NoWrap (delegation : Delegation) (warmupPortion : FloatPortion) : Prop where
  bounded : ∀ currentEpoch weighed prevClusterStake,
    newlyStake warmupPortion currentEpoch weighed prevClusterStake ≤ delegation.stake
  small : delegation.stake ≤ 2 ^ 63

theorem NoWrap.wrappingAdd_eq (noWrap : NoWrap delegation warmupPortion) {current currentEpoch weighed : Nat}
    {prevClusterStake : StakeHistoryEntry} (below : current < delegation.stake ∨ current = 0) :
    wrappingAdd 64 current (newlyStake warmupPortion currentEpoch weighed prevClusterStake) =
      current + newlyStake warmupPortion currentEpoch weighed prevClusterStake := by
  have bounded := noWrap.bounded currentEpoch weighed prevClusterStake
  have small := noWrap.small
  apply Nat.mod_eq_of_lt
  omega

theorem le_warmupLoop (noWrap : NoWrap delegation warmupPortion) {targetEpoch prevEpoch current effective : Nat}
    {prevClusterStake : StakeHistoryEntry} (below : current < delegation.stake ∨ current = 0)
    (fits : current ≤ delegation.stake)
    (run : delegation.warmupLoop history warmupPortion targetEpoch prevEpoch prevClusterStake current = some effective) :
    current ≤ effective := by
  fun_induction delegation.warmupLoop history warmupPortion targetEpoch prevEpoch prevClusterStake current with
  | case1 => exact le_of_eq (Option.some.inj run)
  | case2 => cases run
  | case3 => exact Option.some.inj run ▸ fits
  | case4 _ _ _ _ _ _ _ wrapped =>
    have grows : wrapped = _ := noWrap.wrappingAdd_eq below
    have ran := Option.some.inj run
    omega
  | case5 _ _ _ _ _ _ _ wrapped short _ _ _ ih =>
    have grows : wrapped = _ := noWrap.wrappingAdd_eq below
    have step := ih (.inl (not_le.mp short)) (le_of_lt (not_le.mp short)) run
    omega
  | case6 _ _ _ _ _ _ _ wrapped =>
    have grows : wrapped = _ := noWrap.wrappingAdd_eq below
    have ran := Option.some.inj run
    omega

theorem warmupLoop_of_active {targetEpoch prevEpoch current remaining : Nat} {prevClusterStake : StakeHistoryEntry}
    (active : ¬prevClusterStake.activating = 0) (subtracted : checkedSub delegation.stake current = some remaining) :
    delegation.warmupLoop history warmupPortion targetEpoch prevEpoch prevClusterStake current =
      let currentEffectiveStake := wrappingAdd 64 current
        (newlyStake warmupPortion (prevEpoch + 1) remaining prevClusterStake)
      if currentEffectiveStake ≥ delegation.stake then some delegation.stake
      else if prevEpoch + 1 ≥ targetEpoch ∨ prevEpoch + 1 ≥ delegation.deactivationEpoch then
        some currentEffectiveStake
      else
        match history (prevEpoch + 1) with
        | some currentClusterStake =>
          delegation.warmupLoop history warmupPortion targetEpoch (prevEpoch + 1) currentClusterStake
            currentEffectiveStake
        | none => some currentEffectiveStake := by
  rw [warmupLoop, if_neg active, subtracted]

theorem warmupLoop_of_capped {targetEpoch prevEpoch current remaining : Nat} {prevClusterStake : StakeHistoryEntry}
    (active : ¬prevClusterStake.activating = 0) (subtracted : checkedSub delegation.stake current = some remaining)
    (capped : wrappingAdd 64 current (newlyStake warmupPortion (prevEpoch + 1) remaining prevClusterStake) ≥
      delegation.stake) :
    delegation.warmupLoop history warmupPortion targetEpoch prevEpoch prevClusterStake current =
      some delegation.stake := by
  rw [warmupLoop_of_active active subtracted]
  exact if_pos capped

theorem warmupLoop_of_stops {targetEpoch prevEpoch current remaining : Nat} {prevClusterStake : StakeHistoryEntry}
    (active : ¬prevClusterStake.activating = 0) (subtracted : checkedSub delegation.stake current = some remaining)
    (short : ¬wrappingAdd 64 current (newlyStake warmupPortion (prevEpoch + 1) remaining prevClusterStake) ≥
      delegation.stake)
    (stops : prevEpoch + 1 ≥ targetEpoch ∨ prevEpoch + 1 ≥ delegation.deactivationEpoch) :
    delegation.warmupLoop history warmupPortion targetEpoch prevEpoch prevClusterStake current =
      some (wrappingAdd 64 current (newlyStake warmupPortion (prevEpoch + 1) remaining prevClusterStake)) := by
  rw [warmupLoop_of_active active subtracted]
  dsimp only
  rw [if_neg short, if_pos stops]

theorem warmupLoop_of_continues {targetEpoch prevEpoch current remaining : Nat}
    {prevClusterStake : StakeHistoryEntry} (active : ¬prevClusterStake.activating = 0)
    (subtracted : checkedSub delegation.stake current = some remaining)
    (short : ¬wrappingAdd 64 current (newlyStake warmupPortion (prevEpoch + 1) remaining prevClusterStake) ≥
      delegation.stake)
    (continues : ¬(prevEpoch + 1 ≥ targetEpoch ∨ prevEpoch + 1 ≥ delegation.deactivationEpoch)) :
    delegation.warmupLoop history warmupPortion targetEpoch prevEpoch prevClusterStake current =
      match history (prevEpoch + 1) with
      | some currentClusterStake =>
        delegation.warmupLoop history warmupPortion targetEpoch (prevEpoch + 1) currentClusterStake
          (wrappingAdd 64 current (newlyStake warmupPortion (prevEpoch + 1) remaining prevClusterStake))
      | none => some (wrappingAdd 64 current (newlyStake warmupPortion (prevEpoch + 1) remaining prevClusterStake)) := by
  rw [warmupLoop_of_active active subtracted]
  dsimp only
  rw [if_neg short, if_neg continues]

theorem warmupLoop_mono (noWrap : NoWrap delegation warmupPortion) {earlier later prevEpoch current e₁ e₂ : Nat}
    {prevClusterStake : StakeHistoryEntry} (le : earlier ≤ later) (below : current < delegation.stake ∨ current = 0)
    (fits : current ≤ delegation.stake)
    (first : delegation.warmupLoop history warmupPortion earlier prevEpoch prevClusterStake current = some e₁)
    (second : delegation.warmupLoop history warmupPortion later prevEpoch prevClusterStake current = some e₂) :
    e₁ ≤ e₂ := by
  fun_induction delegation.warmupLoop history warmupPortion earlier prevEpoch prevClusterStake current with
  | case1 _ _ _ inactive =>
    rw [warmupLoop, if_pos inactive] at second
    rw [← Option.some.inj first, ← Option.some.inj second]
  | case2 => cases first
  | case3 _ _ _ _ active _ subtracted _ capped =>
    rw [warmupLoop_of_capped active subtracted capped] at second
    rw [← Option.some.inj first, ← Option.some.inj second]
  | case4 prevEpoch _ _ _ active _ subtracted _ short =>
    rw [← Option.some.inj first]
    -- the earlier target stops here; the later one may go on, and only adds from here
    by_cases laterStops : prevEpoch + 1 ≥ later ∨ prevEpoch + 1 ≥ delegation.deactivationEpoch
    · rw [warmupLoop_of_stops active subtracted short laterStops] at second
      rw [← Option.some.inj second]
    · rw [warmupLoop_of_continues active subtracted short laterStops] at second
      split at second
      · exact le_warmupLoop noWrap (.inl (not_le.mp short)) (le_of_lt (not_le.mp short)) second
      · rw [← Option.some.inj second]
  | case5 prevEpoch _ _ currentEpoch active _ subtracted _ short continues _ found ih =>
    have epoch : currentEpoch = prevEpoch + 1 := rfl
    have laterContinues : ¬(prevEpoch + 1 ≥ later ∨ prevEpoch + 1 ≥ delegation.deactivationEpoch) := by omega
    rw [warmupLoop_of_continues active subtracted short laterContinues, ← epoch, found] at second
    exact ih (.inl (not_le.mp short)) (le_of_lt (not_le.mp short)) first second
  | case6 prevEpoch _ _ currentEpoch active _ subtracted _ short continues missing =>
    have epoch : currentEpoch = prevEpoch + 1 := rfl
    have laterContinues : ¬(prevEpoch + 1 ≥ later ∨ prevEpoch + 1 ≥ delegation.deactivationEpoch) := by omega
    rw [warmupLoop_of_continues active subtracted short laterContinues, ← epoch, missing] at second
    rw [← Option.some.inj first, ← Option.some.inj second]

theorem warmupLoop_of_deactivationEpoch_le {targetEpoch prevEpoch current : Nat}
    {prevClusterStake : StakeHistoryEntry} (le : targetEpoch ≥ delegation.deactivationEpoch) :
    delegation.warmupLoop history warmupPortion targetEpoch prevEpoch prevClusterStake current =
      delegation.warmupLoop history warmupPortion delegation.deactivationEpoch prevEpoch prevClusterStake current := by
  fun_induction delegation.warmupLoop history warmupPortion targetEpoch prevEpoch prevClusterStake current with
  | case1 _ _ _ inactive => rw [warmupLoop, if_pos inactive]
  | case2 _ _ _ active underflow => rw [warmupLoop, if_neg active, underflow]
  | case3 _ _ _ _ active _ subtracted _ capped => rw [warmupLoop_of_capped active subtracted capped]
  | case4 prevEpoch _ _ currentEpoch active _ subtracted _ short stops =>
    have epoch : currentEpoch = prevEpoch + 1 := rfl
    have deactivated : prevEpoch + 1 ≥ delegation.deactivationEpoch ∨
        prevEpoch + 1 ≥ delegation.deactivationEpoch := by omega
    rw [warmupLoop_of_stops active subtracted short deactivated]
  | case5 prevEpoch _ _ currentEpoch active _ subtracted _ short continues _ found ih =>
    have epoch : currentEpoch = prevEpoch + 1 := rfl
    have active' : ¬(prevEpoch + 1 ≥ delegation.deactivationEpoch ∨
        prevEpoch + 1 ≥ delegation.deactivationEpoch) := by omega
    rw [warmupLoop_of_continues active subtracted short active', ← epoch, found]
    exact ih
  | case6 prevEpoch _ _ currentEpoch active _ subtracted _ short continues missing =>
    have epoch : currentEpoch = prevEpoch + 1 := rfl
    have active' : ¬(prevEpoch + 1 ≥ delegation.deactivationEpoch ∨
        prevEpoch + 1 ≥ delegation.deactivationEpoch) := by omega
    rw [warmupLoop_of_continues active subtracted short active', ← epoch, missing]

end Warmup

/-! ### The cooldown loop -/

section Cooldown

variable {history : StakeHistory} {cooldownPortion : FloatPortion}

theorem cooldownLoop_of_active {targetEpoch prevEpoch current : Nat} {prevClusterStake : StakeHistoryEntry}
    (active : ¬prevClusterStake.deactivating = 0) :
    cooldownLoop history cooldownPortion targetEpoch prevEpoch prevClusterStake current =
      let currentEffectiveStake :=
        current - newlyStake cooldownPortion (prevEpoch + 1) current prevClusterStake
      if currentEffectiveStake = 0 then 0
      else if prevEpoch + 1 ≥ targetEpoch then currentEffectiveStake
      else
        match history (prevEpoch + 1) with
        | some currentClusterStake =>
          cooldownLoop history cooldownPortion targetEpoch (prevEpoch + 1) currentClusterStake currentEffectiveStake
        | none => currentEffectiveStake := by
  rw [cooldownLoop, if_neg active]

theorem cooldownLoop_of_zero {targetEpoch prevEpoch current : Nat} {prevClusterStake : StakeHistoryEntry}
    (active : ¬prevClusterStake.deactivating = 0)
    (zero : current - newlyStake cooldownPortion (prevEpoch + 1) current prevClusterStake = 0) :
    cooldownLoop history cooldownPortion targetEpoch prevEpoch prevClusterStake current = 0 := by
  rw [cooldownLoop_of_active active]
  exact if_pos zero

theorem cooldownLoop_of_stops {targetEpoch prevEpoch current : Nat} {prevClusterStake : StakeHistoryEntry}
    (active : ¬prevClusterStake.deactivating = 0)
    (nonzero : ¬current - newlyStake cooldownPortion (prevEpoch + 1) current prevClusterStake = 0)
    (stops : prevEpoch + 1 ≥ targetEpoch) :
    cooldownLoop history cooldownPortion targetEpoch prevEpoch prevClusterStake current =
      current - newlyStake cooldownPortion (prevEpoch + 1) current prevClusterStake := by
  rw [cooldownLoop_of_active active]
  dsimp only
  rw [if_neg nonzero, if_pos stops]

theorem cooldownLoop_of_continues {targetEpoch prevEpoch current : Nat} {prevClusterStake : StakeHistoryEntry}
    (active : ¬prevClusterStake.deactivating = 0)
    (nonzero : ¬current - newlyStake cooldownPortion (prevEpoch + 1) current prevClusterStake = 0)
    (continues : ¬prevEpoch + 1 ≥ targetEpoch) :
    cooldownLoop history cooldownPortion targetEpoch prevEpoch prevClusterStake current =
      match history (prevEpoch + 1) with
      | some currentClusterStake =>
        cooldownLoop history cooldownPortion targetEpoch (prevEpoch + 1) currentClusterStake
          (current - newlyStake cooldownPortion (prevEpoch + 1) current prevClusterStake)
      | none => current - newlyStake cooldownPortion (prevEpoch + 1) current prevClusterStake := by
  rw [cooldownLoop_of_active active]
  dsimp only
  rw [if_neg nonzero, if_neg continues]

theorem cooldownLoop_le {targetEpoch prevEpoch current : Nat} {prevClusterStake : StakeHistoryEntry} :
    cooldownLoop history cooldownPortion targetEpoch prevEpoch prevClusterStake current ≤ current := by
  fun_induction cooldownLoop history cooldownPortion targetEpoch prevEpoch prevClusterStake current with
  | case1 => exact le_refl _
  | case2 => exact Nat.zero_le _
  | case3 => exact Nat.sub_le _ _
  | case4 _ _ _ _ _ _ _ _ _ _ ih => exact le_trans ih (Nat.sub_le _ _)
  | case5 => exact Nat.sub_le _ _

theorem cooldownLoop_anti {earlier later prevEpoch current : Nat} {prevClusterStake : StakeHistoryEntry}
    (le : earlier ≤ later) :
    cooldownLoop history cooldownPortion later prevEpoch prevClusterStake current ≤
      cooldownLoop history cooldownPortion earlier prevEpoch prevClusterStake current := by
  fun_induction cooldownLoop history cooldownPortion earlier prevEpoch prevClusterStake current with
  | case1 _ _ _ inactive => rw [cooldownLoop, if_pos inactive]
  | case2 _ _ _ _ active _ zero => rw [cooldownLoop_of_zero active zero]
  | case3 prevEpoch _ _ _ active _ nonzero =>
    -- the earlier target stops here; the later one may go on, and only subtracts from here
    by_cases laterStops : prevEpoch + 1 ≥ later
    · rw [cooldownLoop_of_stops active nonzero laterStops]
    · rw [cooldownLoop_of_continues active nonzero laterStops]
      split
      · exact cooldownLoop_le
      · exact le_refl _
  | case4 prevEpoch _ _ currentEpoch active _ nonzero continues _ found ih =>
    have epoch : currentEpoch = prevEpoch + 1 := rfl
    have laterContinues : ¬prevEpoch + 1 ≥ later := by omega
    rw [cooldownLoop_of_continues active nonzero laterContinues, ← epoch, found]
    exact ih
  | case5 prevEpoch _ _ currentEpoch active _ nonzero continues missing =>
    have epoch : currentEpoch = prevEpoch + 1 := rfl
    have laterContinues : ¬prevEpoch + 1 ≥ later := by omega
    rw [cooldownLoop_of_continues active nonzero laterContinues, ← epoch, missing]

end Cooldown

/-! ### `stake_and_activating` -/

section StakeAndActivating

variable {delegation : Delegation} {history : StakeHistory} {warmupPortion : FloatPortion} {targetEpoch : Nat}

theorem stakeAndActivatingWith_of_isBootstrap (bootstrap : delegation.isBootstrap) :
    delegation.stakeAndActivatingWith history warmupPortion targetEpoch = some (delegation.stake, 0) := by
  rw [stakeAndActivatingWith, if_pos bootstrap]

theorem stakeAndActivatingWith_of_instant (notBootstrap : ¬delegation.isBootstrap)
    (instant : delegation.activationEpoch = delegation.deactivationEpoch) :
    delegation.stakeAndActivatingWith history warmupPortion targetEpoch = some (0, 0) := by
  rw [stakeAndActivatingWith, if_neg notBootstrap, if_pos instant]

theorem stakeAndActivatingWith_of_le (notBootstrap : ¬delegation.isBootstrap)
    (differ : ¬delegation.activationEpoch = delegation.deactivationEpoch)
    (early : targetEpoch ≤ delegation.activationEpoch) :
    delegation.stakeAndActivatingWith history warmupPortion targetEpoch =
      some (0, if targetEpoch = delegation.activationEpoch then delegation.stake else 0) := by
  rw [stakeAndActivatingWith, if_neg notBootstrap, if_neg differ]
  split_ifs with activating before
  · rfl
  · rfl
  · exact absurd (Nat.lt_of_le_of_ne early activating) before

theorem stakeAndActivatingWith_of_missing (notBootstrap : ¬delegation.isBootstrap)
    (differ : ¬delegation.activationEpoch = delegation.deactivationEpoch)
    (late : targetEpoch > delegation.activationEpoch) (missing : history delegation.activationEpoch = none) :
    delegation.stakeAndActivatingWith history warmupPortion targetEpoch = some (delegation.stake, 0) := by
  rw [stakeAndActivatingWith, if_neg notBootstrap, if_neg differ, if_neg (by omega), if_neg (by omega), missing]

theorem stakeAndActivatingWith_of_found (notBootstrap : ¬delegation.isBootstrap)
    (differ : ¬delegation.activationEpoch = delegation.deactivationEpoch)
    (late : targetEpoch > delegation.activationEpoch) {clusterStake : StakeHistoryEntry}
    (found : history delegation.activationEpoch = some clusterStake) :
    ∃ effective, delegation.warmupLoop history warmupPortion targetEpoch delegation.activationEpoch clusterStake 0 =
        some effective ∧ effective ≤ delegation.stake ∧
      delegation.stakeAndActivatingWith history warmupPortion targetEpoch =
        some (effective, delegation.stake - effective) := by
  obtain ⟨effective, ran, fits⟩ := @warmupLoop_le delegation history warmupPortion targetEpoch
    delegation.activationEpoch 0 clusterStake (Nat.zero_le _)
  refine ⟨effective, ran, fits, ?_⟩
  rw [stakeAndActivatingWith, if_neg notBootstrap, if_neg differ, if_neg (by omega), if_neg (by omega)]
  simp only [found, ran, Option.bind_eq_bind, Option.bind_some, checkedSub_of_le fits]
  rfl

theorem stakeAndActivatingWith_spec :
    ∃ effective activating,
      delegation.stakeAndActivatingWith history warmupPortion targetEpoch = some (effective, activating) ∧
      effective ≤ delegation.stake ∧ activating ≤ delegation.stake - effective ∧
      (delegation.isBootstrap ∨
          (¬delegation.activationEpoch = delegation.deactivationEpoch ∧ targetEpoch ≥ delegation.activationEpoch) →
        effective + activating = delegation.stake) := by
  by_cases bootstrap : delegation.isBootstrap
  · exact ⟨_, _, stakeAndActivatingWith_of_isBootstrap bootstrap, le_refl _, Nat.zero_le _, fun _ => rfl⟩
  by_cases instant : delegation.activationEpoch = delegation.deactivationEpoch
  · refine ⟨_, _, stakeAndActivatingWith_of_instant bootstrap instant, Nat.zero_le _, Nat.zero_le _, ?_⟩
    rintro (bootstrap' | ⟨differ, _⟩)
    · exact absurd bootstrap' bootstrap
    · exact absurd instant differ
  rcases Nat.lt_or_ge delegation.activationEpoch targetEpoch with late | early
  · cases found : history delegation.activationEpoch with
    | none =>
      exact ⟨_, _, stakeAndActivatingWith_of_missing bootstrap instant late found, le_refl _, Nat.zero_le _,
        fun _ => rfl⟩
    | some clusterStake =>
      obtain ⟨effective, -, fits, split⟩ := stakeAndActivatingWith_of_found bootstrap instant late found
      exact ⟨_, _, split, fits, le_refl _, fun _ => by omega⟩
  · refine ⟨_, _, stakeAndActivatingWith_of_le bootstrap instant early, Nat.zero_le _, ?_, ?_⟩
    · split_ifs
      · exact le_refl _
      · exact Nat.zero_le _
    · rintro (bootstrap' | ⟨_, late⟩)
      · exact absurd bootstrap' bootstrap
      · rw [if_pos (by omega), Nat.zero_add]

theorem stakeAndActivatingWith_mono (noWrap : NoWrap delegation warmupPortion) {earlier later e₁ a₁ e₂ a₂ : Nat}
    (le : earlier ≤ later)
    (first : delegation.stakeAndActivatingWith history warmupPortion earlier = some (e₁, a₁))
    (second : delegation.stakeAndActivatingWith history warmupPortion later = some (e₂, a₂)) : e₁ ≤ e₂ := by
  by_cases bootstrap : delegation.isBootstrap
  · rw [stakeAndActivatingWith_of_isBootstrap bootstrap] at first second
    cases first
    cases second
    exact le_refl _
  by_cases instant : delegation.activationEpoch = delegation.deactivationEpoch
  · rw [stakeAndActivatingWith_of_instant bootstrap instant] at first
    cases first
    exact Nat.zero_le _
  rcases Nat.lt_or_ge delegation.activationEpoch earlier with late | early
  · have late' : later > delegation.activationEpoch := by omega
    cases found : history delegation.activationEpoch with
    | none =>
      rw [stakeAndActivatingWith_of_missing bootstrap instant late found] at first
      rw [stakeAndActivatingWith_of_missing bootstrap instant late' found] at second
      cases first
      cases second
      exact le_refl _
    | some clusterStake =>
      obtain ⟨_, ran₁, -, split₁⟩ := stakeAndActivatingWith_of_found bootstrap instant late found
      obtain ⟨_, ran₂, -, split₂⟩ := stakeAndActivatingWith_of_found bootstrap instant late' found
      rw [split₁] at first
      rw [split₂] at second
      cases first
      cases second
      exact warmupLoop_mono noWrap le (.inr rfl) (Nat.zero_le _) ran₁ ran₂
  · rw [stakeAndActivatingWith_of_le bootstrap instant early] at first
    cases first
    exact Nat.zero_le _

theorem stakeAndActivatingWith_of_deactivationEpoch_le
    (ordered : delegation.isBootstrap ∨ delegation.activationEpoch ≤ delegation.deactivationEpoch)
    (le : targetEpoch ≥ delegation.deactivationEpoch) :
    delegation.stakeAndActivatingWith history warmupPortion targetEpoch =
      delegation.stakeAndActivatingWith history warmupPortion delegation.deactivationEpoch := by
  by_cases bootstrap : delegation.isBootstrap
  · rw [stakeAndActivatingWith_of_isBootstrap bootstrap, stakeAndActivatingWith_of_isBootstrap bootstrap]
  by_cases instant : delegation.activationEpoch = delegation.deactivationEpoch
  · rw [stakeAndActivatingWith_of_instant bootstrap instant, stakeAndActivatingWith_of_instant bootstrap instant]
  have activated := Nat.lt_of_le_of_ne (ordered.resolve_left bootstrap) instant
  have late : targetEpoch > delegation.activationEpoch := by omega
  cases found : history delegation.activationEpoch with
  | none =>
    rw [stakeAndActivatingWith_of_missing bootstrap instant late found,
      stakeAndActivatingWith_of_missing bootstrap instant activated found]
  | some clusterStake =>
    obtain ⟨_, ran, -, split⟩ := stakeAndActivatingWith_of_found bootstrap instant late found
    obtain ⟨_, ran', -, split'⟩ := stakeAndActivatingWith_of_found bootstrap instant activated found
    rw [split, split', ← Option.some.inj (ran.symm.trans ((warmupLoop_of_deactivationEpoch_le le).trans ran'))]

end StakeAndActivating

/-! ### `stake_activating_and_deactivating` -/

/-- What the status of a delegation at `targetEpoch` keeps to: effective, activating and deactivating
stake within the delegated stake; before deactivation and once activation has begun, effective and
activating stake make it up; from deactivation on nothing activates and what deactivates is what is
still effective. -/
structure StatusBounds (delegation : Delegation) (targetEpoch : Nat) (status : StakeActivationStatus) : Prop where
  effective_le : status.effective ≤ delegation.stake
  activating_le : status.activating ≤ delegation.stake - status.effective
  deactivating_le : status.deactivating ≤ status.effective
  sum_eq : targetEpoch < delegation.deactivationEpoch →
    ¬delegation.activationEpoch = delegation.deactivationEpoch →
    (delegation.isBootstrap ∨ targetEpoch ≥ delegation.activationEpoch) →
    status.effective + status.activating = delegation.stake
  deactivated : targetEpoch ≥ delegation.deactivationEpoch →
    status.activating = 0 ∧ status.deactivating = status.effective

section Status

variable {delegation : Delegation} {history : StakeHistory} {warmupPortion cooldownPortion : FloatPortion}
  {targetEpoch effective activating : Nat}

theorem stakeActivatingAndDeactivatingWith_of_lt (before : targetEpoch < delegation.deactivationEpoch)
    (split : delegation.stakeAndActivatingWith history warmupPortion targetEpoch = some (effective, activating)) :
    delegation.stakeActivatingAndDeactivatingWith history warmupPortion cooldownPortion targetEpoch =
      some ⟨effective, activating, 0⟩ := by
  rw [stakeActivatingAndDeactivatingWith, split]
  simp only [Option.bind_eq_bind, Option.bind_some, if_pos before]
  split_ifs with none
  · rw [none]
    rfl
  · rfl

theorem stakeActivatingAndDeactivatingWith_of_eq (deactivating : targetEpoch = delegation.deactivationEpoch)
    (split : delegation.stakeAndActivatingWith history warmupPortion targetEpoch = some (effective, activating)) :
    delegation.stakeActivatingAndDeactivatingWith history warmupPortion cooldownPortion targetEpoch =
      some ⟨effective, 0, effective⟩ := by
  rw [stakeActivatingAndDeactivatingWith, split]
  simp only [Option.bind_eq_bind, Option.bind_some, if_neg (show ¬targetEpoch < delegation.deactivationEpoch by omega),
    if_pos deactivating]
  rfl

theorem stakeActivatingAndDeactivatingWith_of_gt (after : targetEpoch > delegation.deactivationEpoch)
    (split : delegation.stakeAndActivatingWith history warmupPortion targetEpoch = some (effective, activating)) :
    delegation.stakeActivatingAndDeactivatingWith history warmupPortion cooldownPortion targetEpoch =
      some (match history delegation.deactivationEpoch with
        | some clusterStake =>
          .withDeactivating (cooldownLoop history cooldownPortion targetEpoch delegation.deactivationEpoch
            clusterStake effective)
        | none => ⟨0, 0, 0⟩) := by
  rw [stakeActivatingAndDeactivatingWith, split]
  simp only [Option.bind_eq_bind, Option.bind_some, if_neg (show ¬targetEpoch < delegation.deactivationEpoch by omega),
    if_neg (show ¬targetEpoch = delegation.deactivationEpoch by omega)]
  split <;> rfl

theorem stakeActivatingAndDeactivatingWith_spec :
    ∃ status, delegation.stakeActivatingAndDeactivatingWith history warmupPortion cooldownPortion targetEpoch =
      some status ∧ delegation.StatusBounds targetEpoch status := by
  obtain ⟨effective, activating, split, fits, rest, sum⟩ :=
    @stakeAndActivatingWith_spec delegation history warmupPortion targetEpoch
  rcases Nat.lt_trichotomy targetEpoch delegation.deactivationEpoch with before | deactivating | after
  · refine ⟨_, stakeActivatingAndDeactivatingWith_of_lt before split, fits, rest, Nat.zero_le _, ?_, ?_⟩
    · intro _ differ activated
      exact sum (activated.imp_right fun late => ⟨differ, late⟩)
    · intro deactivated
      omega
  · refine ⟨_, stakeActivatingAndDeactivatingWith_of_eq deactivating split, fits, Nat.zero_le _, le_refl _, ?_,
      fun _ => ⟨rfl, rfl⟩⟩
    intro before
    omega
  · refine ⟨_, stakeActivatingAndDeactivatingWith_of_gt after split, ?_⟩
    have early : ¬targetEpoch < delegation.deactivationEpoch := by omega
    split
    · rename_i clusterStake _
      have cooled := @cooldownLoop_le history cooldownPortion targetEpoch delegation.deactivationEpoch effective
        clusterStake
      exact ⟨le_trans cooled fits, Nat.zero_le _, le_refl _, fun before => absurd before early, fun _ => ⟨rfl, rfl⟩⟩
    · exact ⟨Nat.zero_le _, Nat.zero_le _, le_refl _, fun before => absurd before early, fun _ => ⟨rfl, rfl⟩⟩

theorem effective_of_le_deactivationEpoch {status : StakeActivationStatus}
    (le : targetEpoch ≤ delegation.deactivationEpoch)
    (statusAt : delegation.stakeActivatingAndDeactivatingWith history warmupPortion cooldownPortion targetEpoch =
      some status)
    (split : delegation.stakeAndActivatingWith history warmupPortion targetEpoch = some (effective, activating)) :
    status.effective = effective := by
  rcases Nat.lt_or_eq_of_le le with before | deactivating
  · rw [stakeActivatingAndDeactivatingWith_of_lt before split] at statusAt
    cases statusAt
    rfl
  · rw [stakeActivatingAndDeactivatingWith_of_eq deactivating split] at statusAt
    cases statusAt
    rfl

theorem effective_mono_of_le_deactivationEpoch (noWrap : NoWrap delegation warmupPortion) {earlier later : Nat}
    {s₁ s₂ : StakeActivationStatus} (le : earlier ≤ later) (before : later ≤ delegation.deactivationEpoch)
    (first : delegation.stakeActivatingAndDeactivatingWith history warmupPortion cooldownPortion earlier = some s₁)
    (second : delegation.stakeActivatingAndDeactivatingWith history warmupPortion cooldownPortion later = some s₂) :
    s₁.effective ≤ s₂.effective := by
  obtain ⟨e₁, a₁, split₁, -⟩ := @stakeAndActivatingWith_spec delegation history warmupPortion earlier
  obtain ⟨e₂, a₂, split₂, -⟩ := @stakeAndActivatingWith_spec delegation history warmupPortion later
  rw [effective_of_le_deactivationEpoch (le_trans le before) first split₁,
    effective_of_le_deactivationEpoch before second split₂]
  exact stakeAndActivatingWith_mono noWrap le split₁ split₂

theorem effective_anti_of_deactivationEpoch_le
    (ordered : delegation.isBootstrap ∨ delegation.activationEpoch ≤ delegation.deactivationEpoch)
    {earlier later : Nat} {s₁ s₂ : StakeActivationStatus} (deactivated : earlier ≥ delegation.deactivationEpoch)
    (le : earlier ≤ later)
    (first : delegation.stakeActivatingAndDeactivatingWith history warmupPortion cooldownPortion earlier = some s₁)
    (second : delegation.stakeActivatingAndDeactivatingWith history warmupPortion cooldownPortion later = some s₂) :
    s₂.effective ≤ s₁.effective := by
  obtain ⟨effective, activating, split, -⟩ :=
    @stakeAndActivatingWith_spec delegation history warmupPortion delegation.deactivationEpoch
  have split₁ := (stakeAndActivatingWith_of_deactivationEpoch_le ordered deactivated).trans split
  have split₂ := (stakeAndActivatingWith_of_deactivationEpoch_le ordered
    (show later ≥ delegation.deactivationEpoch by omega)).trans split
  rcases Nat.lt_or_eq_of_le deactivated with after | deactivating
  · rw [stakeActivatingAndDeactivatingWith_of_gt after split₁] at first
    rw [stakeActivatingAndDeactivatingWith_of_gt (show later > delegation.deactivationEpoch by omega) split₂] at second
    cases first
    cases second
    split
    · exact cooldownLoop_anti le
    · exact le_refl _
  · rw [stakeActivatingAndDeactivatingWith_of_eq deactivating.symm split₁] at first
    cases first
    rcases Nat.lt_or_eq_of_le le with later' | same
    · rw [stakeActivatingAndDeactivatingWith_of_gt (show later > delegation.deactivationEpoch by omega)
        split₂] at second
      cases second
      split
      · exact cooldownLoop_le
      · exact Nat.zero_le _
    · rw [← same, stakeActivatingAndDeactivatingWith_of_eq deactivating.symm split₁] at second
      cases second
      exact le_refl _

end Status

theorem stake_activation_within_delegation (delegation : Delegation) (history : StakeHistory)
    (warmupPortion cooldownPortion : FloatPortion) :
    (∀ targetEpoch, ∃ status,
      delegation.stakeActivatingAndDeactivatingWith history warmupPortion cooldownPortion targetEpoch = some status ∧
      delegation.StatusBounds targetEpoch status) ∧
    ((∀ currentEpoch weighed prevClusterStake,
        newlyStake warmupPortion currentEpoch weighed prevClusterStake ≤ delegation.stake) →
      delegation.stake ≤ 2 ^ 63 →
      ∀ earlier later s₁ s₂, earlier ≤ later → later ≤ delegation.deactivationEpoch →
        delegation.stakeActivatingAndDeactivatingWith history warmupPortion cooldownPortion earlier = some s₁ →
        delegation.stakeActivatingAndDeactivatingWith history warmupPortion cooldownPortion later = some s₂ →
        s₁.effective ≤ s₂.effective) ∧
    ((delegation.isBootstrap ∨ delegation.activationEpoch ≤ delegation.deactivationEpoch) →
      ∀ earlier later s₁ s₂, earlier ≥ delegation.deactivationEpoch → earlier ≤ later →
        delegation.stakeActivatingAndDeactivatingWith history warmupPortion cooldownPortion earlier = some s₁ →
        delegation.stakeActivatingAndDeactivatingWith history warmupPortion cooldownPortion later = some s₂ →
        s₂.effective ≤ s₁.effective) :=
  ⟨fun _ => stakeActivatingAndDeactivatingWith_spec,
    fun bounded small _ _ _ _ le before first second =>
      effective_mono_of_le_deactivationEpoch ⟨bounded, small⟩ le before first second,
    fun ordered _ _ _ _ deactivated le first second =>
      effective_anti_of_deactivationEpoch_le ordered deactivated le first second⟩

/-! ### The cluster's rates -/

/-- `stake_activating_and_deactivating`, with the warmup and cooldown portions of the cluster's
rates. Its loops never fail (`stakeActivatingAndDeactivatingWith_spec`), so the default is never
read. -/
def stakeActivatingAndDeactivating (newRateActivationEpoch : Option Epoch) (targetEpoch : Epoch) :
    StakeActivationStatus :=
  (delegation.stakeActivatingAndDeactivatingWith history (warmupRatePortion newRateActivationEpoch)
    (cooldownRatePortion newRateActivationEpoch) targetEpoch).getD ⟨0, 0, 0⟩

/-- `Delegation::stake`: the effective stake at an epoch. -/
def effectiveStake (newRateActivationEpoch : Option Epoch) (epoch : Epoch) : Nat :=
  (delegation.stakeActivatingAndDeactivating history newRateActivationEpoch epoch).effective

theorem stakeActivatingAndDeactivatingWith_rates (newRateActivationEpoch : Option Epoch) (targetEpoch : Epoch) :
    delegation.stakeActivatingAndDeactivatingWith history (warmupRatePortion newRateActivationEpoch)
        (cooldownRatePortion newRateActivationEpoch) targetEpoch =
      some (delegation.stakeActivatingAndDeactivating history newRateActivationEpoch targetEpoch) := by
  obtain ⟨status, computed, -⟩ := @stakeActivatingAndDeactivatingWith_spec delegation history
    (warmupRatePortion newRateActivationEpoch) (cooldownRatePortion newRateActivationEpoch) targetEpoch
  rw [stakeActivatingAndDeactivating, computed, Option.getD_some]

theorem effectiveStake_le (newRateActivationEpoch : Option Epoch) (epoch : Epoch) :
    delegation.effectiveStake history newRateActivationEpoch epoch ≤ delegation.stake := by
  obtain ⟨status, computed, bounds⟩ := @stakeActivatingAndDeactivatingWith_spec delegation history
    (warmupRatePortion newRateActivationEpoch) (cooldownRatePortion newRateActivationEpoch) epoch
  rw [effectiveStake, stakeActivatingAndDeactivating, computed, Option.getD_some]
  exact bounds.effective_le

end Delegation

/-! ### Pending, wrapping and late delegations -/

def zeroPortion : FloatPortion := fun _ _ _ => 0

/-- All of `u64::MAX` lamports, activating from epoch zero. -/
def wrappingDelegation : Delegation := ⟨0, 2 ^ 64 - 1, 0, epochMax⟩

def wrappingHistory : StakeHistory := fun epoch => if epoch ≤ 1 then some ⟨1, 1, 0⟩ else none

def wrappingPortion : FloatPortion := fun epoch _ _ => if epoch = 1 then 2 ^ 64 - 3 else 2 ^ 63

/-- One lamport activating from epoch one, never deactivated. -/
def pendingDelegation : Delegation := ⟨0, 1, 1, epochMax⟩

/-- One lamport deactivated at epoch one and activating from epoch two. -/
def lateDelegation : Delegation := ⟨0, 1, 2, 1⟩

def quietHistory : StakeHistory := fun _ => some ⟨1, 1, 0⟩

/-- Before its activation epoch a delegation has neither effective nor activating stake. The `u64`
sum of the warmup wraps although no pass adds more than the delegated stake, and the effective stake
drops. A delegation that activates after it deactivates gains effective stake past its deactivation
epoch. -/
theorem stakeActivatingAndDeactivatingWith_pending_wrapping_late :
    pendingDelegation.stakeActivatingAndDeactivatingWith (fun _ => none) zeroPortion zeroPortion 0 =
      some ⟨0, 0, 0⟩ ∧
    (∀ currentEpoch weighed prevClusterStake,
      newlyStake wrappingPortion currentEpoch weighed prevClusterStake ≤ wrappingDelegation.stake) ∧
    wrappingDelegation.stakeActivatingAndDeactivatingWith wrappingHistory wrappingPortion zeroPortion 1 =
      some ⟨2 ^ 64 - 3, 2, 0⟩ ∧
    wrappingDelegation.stakeActivatingAndDeactivatingWith wrappingHistory wrappingPortion zeroPortion 2 =
      some ⟨2 ^ 63 - 3, 2 ^ 63 + 2, 0⟩ ∧
    (∀ currentEpoch weighed prevClusterStake,
      newlyStake zeroPortion currentEpoch weighed prevClusterStake ≤ lateDelegation.stake) ∧
    lateDelegation.stakeActivatingAndDeactivatingWith quietHistory zeroPortion zeroPortion 2 = some ⟨0, 0, 0⟩ ∧
    lateDelegation.stakeActivatingAndDeactivatingWith quietHistory zeroPortion zeroPortion 3 = some ⟨1, 0, 1⟩ := by
  refine ⟨by decide +kernel, fun _ _ _ => max_le (min_le_right _ _) (by decide), by decide +kernel,
    by decide +kernel, fun _ _ _ => ?_, by decide +kernel, by decide +kernel⟩
  simp only [newlyStake, zeroPortion, Nat.zero_min, Nat.zero_max]
  decide

end StakeProgram
