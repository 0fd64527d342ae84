import Mathlib
import Agave.Library.MachineInt
import Agave.Library.Partition

/-! `solana_epoch_schedule` (`sdk/epoch-schedule/src/lib.rs`): the cut of slots into epochs. With
warmup, the epochs before `first_normal_epoch` have `MINIMUM_SLOTS_PER_EPOCH` slots doubling each
time; from `first_normal_slot` on every epoch has `slots_per_epoch` slots. The code reads the epoch
of a warmup slot off `next_power_of_two` and `trailing_zeros`, that of a later slot by division,
in saturating `u64` and `u32` arithmetic. Over the slots below `2 ^ 63` of a schedule built by
`custom`, it computes the cut `epochStart` describes, whose blocks the slots fill in order. -/

namespace Epoch

open MachineInt

/-- `MINIMUM_SLOTS_PER_EPOCH`. -/
def minimumSlotsPerEpoch : Nat := 32

/-- `EpochSchedule`. -/
structure EpochSchedule where
  slotsPerEpoch : Nat
  leaderScheduleSlotOffset : Nat
  warmup : Bool
  firstNormalEpoch : Nat
  firstNormalSlot : Nat
  deriving DecidableEq, Repr

namespace EpochSchedule

/-- `EpochSchedule::custom`, `none` where its assertion fails. -/
def custom (slotsPerEpoch leaderScheduleSlotOffset : Nat) (warmup : Bool) : Option EpochSchedule :=
  if slotsPerEpoch ≥ minimumSlotsPerEpoch then
    let normal : Nat × Nat :=
      if warmup then
        let nextPower := nextPowerOfTwo 64 slotsPerEpoch
        let log2SlotsPerEpoch := trailingZeros 64 nextPower - trailingZeros 64 minimumSlotsPerEpoch
        (log2SlotsPerEpoch, nextPower - minimumSlotsPerEpoch)
      else (0, 0)
    some
      { slotsPerEpoch := slotsPerEpoch
        leaderScheduleSlotOffset := leaderScheduleSlotOffset
        warmup := warmup
        firstNormalEpoch := normal.1
        firstNormalSlot := normal.2 }
  else none

variable (schedule : EpochSchedule)

/-- `get_slots_in_epoch`. -/
def getSlotsInEpoch (epoch : Nat) : Nat :=
  if epoch < schedule.firstNormalEpoch then
    saturatingPow 64 2 (saturatingAdd 32 (epoch % 2 ^ 32) (trailingZeros 64 minimumSlotsPerEpoch))
  else schedule.slotsPerEpoch

/-- `get_epoch_and_slot_index`. -/
def getEpochAndSlotIndex (slot : Nat) : Nat × Nat :=
  if slot < schedule.firstNormalSlot then
    let epoch :=
      trailingZeros 64 (nextPowerOfTwo 64 (saturatingAdd 64 (saturatingAdd 64 slot minimumSlotsPerEpoch) 1)) -
        trailingZeros 64 minimumSlotsPerEpoch - 1
    let epochLen := saturatingPow 64 2 (saturatingAdd 32 epoch (trailingZeros 64 minimumSlotsPerEpoch))
    (epoch, slot - (epochLen - minimumSlotsPerEpoch))
  else
    let normalSlotIndex := slot - schedule.firstNormalSlot
    let normalEpochIndex := (checkedDiv normalSlotIndex schedule.slotsPerEpoch).getD 0
    let epoch := saturatingAdd 64 schedule.firstNormalEpoch normalEpochIndex
    let slotIndex := (checkedRem normalSlotIndex schedule.slotsPerEpoch).getD 0
    (epoch, slotIndex)

/-- `get_epoch`. -/
def getEpoch (slot : Nat) : Nat := (schedule.getEpochAndSlotIndex slot).1

/-- `get_leader_schedule_epoch`: until the normal slots, as if the offset were one epoch. -/
def getLeaderScheduleEpoch (slot : Nat) : Nat :=
  if slot < schedule.firstNormalSlot then saturatingAdd 64 (schedule.getEpochAndSlotIndex slot).1 1
  else
    let newSlotsSinceFirstNormalSlot := slot - schedule.firstNormalSlot
    let newFirstNormalLeaderScheduleSlot :=
      saturatingAdd 64 newSlotsSinceFirstNormalSlot schedule.leaderScheduleSlotOffset
    let newEpochsSinceFirstNormalLeaderSchedule :=
      (checkedDiv newFirstNormalLeaderScheduleSlot schedule.slotsPerEpoch).getD 0
    saturatingAdd 64 schedule.firstNormalEpoch newEpochsSinceFirstNormalLeaderSchedule

/-- `get_first_slot_in_epoch`. -/
def getFirstSlotInEpoch (epoch : Nat) : Nat :=
  if epoch ≤ schedule.firstNormalEpoch then
    saturatingMul 64 (saturatingPow 64 2 (epoch % 2 ^ 32) - 1) minimumSlotsPerEpoch
  else
    saturatingAdd 64 (saturatingMul 64 (epoch - schedule.firstNormalEpoch) schedule.slotsPerEpoch)
      schedule.firstNormalSlot

/-- `get_last_slot_in_epoch`. -/
def getLastSlotInEpoch (epoch : Nat) : Nat :=
  saturatingAdd 64 (schedule.getFirstSlotInEpoch epoch) (schedule.getSlotsInEpoch epoch) - 1

/-! ### The cut of the slots into epochs -/

/-- What `custom` establishes for a `slots_per_epoch` between `MINIMUM_SLOTS_PER_EPOCH` and `2^62`:
the warmup epochs double from `MINIMUM_SLOTS_PER_EPOCH` up to `first_normal_slot`, which leaves room
for them in a `u64`. -/
structure Valid : Prop where
  minimum : minimumSlotsPerEpoch ≤ schedule.slotsPerEpoch
  maximum : schedule.slotsPerEpoch ≤ 2 ^ 62
  firstNormalEpoch_le : schedule.firstNormalEpoch ≤ 57
  firstNormalSlot_eq : schedule.firstNormalSlot = minimumSlotsPerEpoch * (2 ^ schedule.firstNormalEpoch - 1)

/-- The first slot of each epoch, in unbounded arithmetic. -/
def epochStart (epoch : Nat) : Nat :=
  if epoch ≤ schedule.firstNormalEpoch then minimumSlotsPerEpoch * (2 ^ epoch - 1)
  else (epoch - schedule.firstNormalEpoch) * schedule.slotsPerEpoch + schedule.firstNormalSlot

/-- The number of slots of each epoch. -/
def epochLength (epoch : Nat) : Nat :=
  if epoch < schedule.firstNormalEpoch then 2 ^ (epoch + 5) else schedule.slotsPerEpoch

variable {schedule}

theorem epochStart_normal (valid : schedule.Valid) (epochs : Nat) :
    schedule.epochStart (schedule.firstNormalEpoch + epochs) =
      epochs * schedule.slotsPerEpoch + schedule.firstNormalSlot := by
  unfold epochStart
  split_ifs with warm
  · have : epochs = 0 := by omega
    rw [this, Nat.add_zero, Nat.zero_mul, Nat.zero_add, valid.firstNormalSlot_eq]
  · rw [Nat.add_sub_cancel_left]

theorem epochStart_succ (valid : schedule.Valid) (epoch : Nat) :
    schedule.epochStart (epoch + 1) = schedule.epochStart epoch + schedule.epochLength epoch := by
  unfold epochLength
  split_ifs with warm
  · have one : 1 ≤ 2 ^ epoch := Nat.one_le_two_pow
    rw [epochStart, epochStart, if_pos (by omega), if_pos (by omega), pow_succ, pow_add]
    unfold minimumSlotsPerEpoch
    rw [show (2 : Nat) ^ 5 = 32 from rfl]
    omega
  · obtain ⟨epochs, rfl⟩ := Nat.exists_eq_add_of_le (Nat.le_of_not_lt warm)
    rw [Nat.add_assoc, epochStart_normal valid, epochStart_normal valid, Nat.succ_mul]
    omega

theorem epochLength_pos (valid : schedule.Valid) (epoch : Nat) : 0 < schedule.epochLength epoch := by
  unfold epochLength
  split_ifs
  · exact Nat.two_pow_pos _
  · have := valid.minimum
    unfold minimumSlotsPerEpoch at this
    omega

theorem epochStart_strictMono (valid : schedule.Valid) : StrictMono schedule.epochStart := by
  apply strictMono_nat_of_lt_succ
  intro epoch
  rw [epochStart_succ valid]
  have := epochLength_pos valid epoch
  omega

theorem epochLength_le (valid : schedule.Valid) (epoch : Nat) : schedule.epochLength epoch ≤ 2 ^ 62 := by
  unfold epochLength
  split_ifs with warm
  · exact Nat.pow_le_pow_right (by decide) (by have := valid.firstNormalEpoch_le; omega)
  · exact valid.maximum

/-! ### `custom` builds a valid schedule -/

theorem trailingZeros_minimumSlotsPerEpoch : trailingZeros 64 minimumSlotsPerEpoch = 5 :=
  trailingZeros_two_pow (show 5 < 64 by decide)

theorem custom_valid {slotsPerEpoch leaderScheduleSlotOffset : Nat} {warmup : Bool}
    (minimum : minimumSlotsPerEpoch ≤ slotsPerEpoch) (maximum : slotsPerEpoch ≤ 2 ^ 62) :
    ∃ schedule, custom slotsPerEpoch leaderScheduleSlotOffset warmup = some schedule ∧
      schedule.slotsPerEpoch = slotsPerEpoch ∧ schedule.leaderScheduleSlotOffset = leaderScheduleSlotOffset ∧
      schedule.Valid := by
  refine ⟨_, if_pos minimum, rfl, rfl, ⟨minimum, maximum, ?_, ?_⟩⟩
  all_goals
    dsimp only
    cases warmup
    case false => simp
  all_goals
    simp only [if_true]
    have small : Nat.clog 2 slotsPerEpoch ≤ 62 := Nat.clog_le_of_le_pow maximum
    have large : 5 ≤ Nat.clog 2 slotsPerEpoch := by
      unfold minimumSlotsPerEpoch at minimum
      exact (Nat.lt_clog_iff_pow_lt (by decide)).2 (by omega)
    rw [nextPowerOfTwo_of_lt (by omega), trailingZeros_two_pow (by omega), trailingZeros_minimumSlotsPerEpoch]
  · omega
  · obtain ⟨epochs, split⟩ := Nat.exists_eq_add_of_le large
    rw [split, Nat.add_sub_cancel_left, pow_add]
    unfold minimumSlotsPerEpoch
    rw [show (2 : Nat) ^ 5 = 32 from rfl, Nat.mul_sub, Nat.mul_one, Nat.mul_comm]

/-! ### The code computes the cut -/

theorem getSlotsInEpoch_eq (valid : schedule.Valid) (epoch : Nat) :
    schedule.getSlotsInEpoch epoch = schedule.epochLength epoch := by
  unfold getSlotsInEpoch epochLength
  split_ifs with warm
  · have early : epoch ≤ 57 := by have := valid.firstNormalEpoch_le; omega
    rw [Nat.mod_eq_of_lt (by omega), trailingZeros_minimumSlotsPerEpoch,
      saturatingAdd_of_le (by unfold maxValue; omega)]
    apply saturatingPow_of_le
    have : 2 ^ (epoch + 5) ≤ 2 ^ 62 := Nat.pow_le_pow_right (by decide) (by omega)
    unfold maxValue
    omega
  · rfl

theorem getFirstSlotInEpoch_eq (valid : schedule.Valid) {epoch : Nat}
    (fits : schedule.epochStart epoch ≤ maxValue 64) :
    schedule.getFirstSlotInEpoch epoch = schedule.epochStart epoch := by
  unfold getFirstSlotInEpoch
  unfold epochStart at fits ⊢
  split_ifs at fits ⊢ with warm
  · have early : epoch ≤ 57 := by have := valid.firstNormalEpoch_le; omega
    have power : 2 ^ epoch ≤ 2 ^ 57 := Nat.pow_le_pow_right (by decide) early
    rw [Nat.mod_eq_of_lt (by omega), saturatingPow_of_le (by unfold maxValue; omega), Nat.mul_comm]
    exact saturatingMul_of_le (by rw [Nat.mul_comm]; exact fits)
  · rw [saturatingMul_of_le (by omega), saturatingAdd_of_le fits]

theorem minimum_mul_pow_sub (epoch : Nat) : minimumSlotsPerEpoch * (2 ^ epoch - 1) = 32 * 2 ^ epoch - 32 := by
  unfold minimumSlotsPerEpoch
  rw [Nat.mul_sub, Nat.mul_one]

theorem getEpochAndSlotIndex_of_warmup (valid : schedule.Valid) {slot : Nat} (warm : slot < schedule.firstNormalSlot) :
    ∃ epoch, schedule.getEpochAndSlotIndex slot = (epoch, slot - schedule.epochStart epoch) ∧
      schedule.epochStart epoch ≤ slot ∧ slot < schedule.epochStart (epoch + 1) := by
  have bound := valid.firstNormalSlot_eq
  have early := valid.firstNormalEpoch_le
  rw [minimum_mul_pow_sub] at bound
  -- `slot + 33` lies in `(2 ^ (c - 1), 2 ^ c]` for `c = clog 2 (slot + 33)`, and `c ≤ first_normal_epoch + 5`
  have below : slot + 33 ≤ 2 ^ (schedule.firstNormalEpoch + 5) := by
    rw [pow_add, show (2 : Nat) ^ 5 = 32 from rfl]
    omega
  have room : 2 ^ (schedule.firstNormalEpoch + 5) ≤ 2 ^ 62 := Nat.pow_le_pow_right (by decide) (by omega)
  have small : Nat.clog 2 (slot + 33) ≤ schedule.firstNormalEpoch + 5 := Nat.clog_le_of_le_pow below
  have large : 5 < Nat.clog 2 (slot + 33) := (Nat.lt_clog_iff_pow_lt (by decide)).2 (by norm_num)
  obtain ⟨epoch, split⟩ : ∃ epoch, Nat.clog 2 (slot + 33) = epoch + 6 := ⟨Nat.clog 2 (slot + 33) - 6, by omega⟩
  have upper : slot + 33 ≤ 64 * 2 ^ epoch := by
    have := Nat.le_pow_clog (show 1 < 2 by decide) (slot + 33)
    rw [split, pow_add, show (2 : Nat) ^ 6 = 64 from rfl, Nat.mul_comm] at this
    exact this
  have lower : 32 * 2 ^ epoch < slot + 33 := by
    have := Nat.pow_lt_of_lt_clog (show epoch + 5 < Nat.clog 2 (slot + 33) by omega)
    rw [pow_add, show (2 : Nat) ^ 5 = 32 from rfl, Nat.mul_comm] at this
    exact this
  have startEq : schedule.epochStart epoch = 32 * 2 ^ epoch - 32 := by
    rw [epochStart, if_pos (by omega), minimum_mul_pow_sub]
  have nextEq : schedule.epochStart (epoch + 1) = 64 * 2 ^ epoch - 32 := by
    rw [epochStart, if_pos (by omega), minimum_mul_pow_sub, pow_succ]
    omega
  refine ⟨epoch, ?_, by omega, by omega⟩
  have exponent : epoch + 5 ≤ 62 := by omega
  have power : 2 ^ (epoch + 5) ≤ 2 ^ 62 := Nat.pow_le_pow_right (by decide) exponent
  rw [getEpochAndSlotIndex, if_pos warm]
  dsimp only
  rw [trailingZeros_minimumSlotsPerEpoch,
    saturatingAdd_of_le (show slot + minimumSlotsPerEpoch ≤ maxValue 64 by unfold minimumSlotsPerEpoch maxValue; omega),
    saturatingAdd_of_le (show slot + minimumSlotsPerEpoch + 1 ≤ maxValue 64 by
      unfold minimumSlotsPerEpoch maxValue; omega),
    show slot + minimumSlotsPerEpoch + 1 = slot + 33 from rfl, nextPowerOfTwo_of_lt (by omega),
    trailingZeros_two_pow (by omega), split, show epoch + 6 - 5 - 1 = epoch by omega,
    saturatingAdd_of_le (show epoch + 5 ≤ maxValue 32 by unfold maxValue; omega),
    saturatingPow_of_le (show 2 ^ (epoch + 5) ≤ maxValue 64 by unfold maxValue; omega), startEq, pow_add,
    show (2 : Nat) ^ 5 = 32 from rfl, Nat.mul_comm]
  rfl

theorem getEpochAndSlotIndex_of_normal (valid : schedule.Valid) {slot : Nat} (normal : schedule.firstNormalSlot ≤ slot)
    (below : slot < 2 ^ 63) :
    schedule.getEpochAndSlotIndex slot =
      (schedule.firstNormalEpoch + (slot - schedule.firstNormalSlot) / schedule.slotsPerEpoch,
        (slot - schedule.firstNormalSlot) % schedule.slotsPerEpoch) := by
  have positive : 0 < schedule.slotsPerEpoch := by have := valid.minimum; unfold minimumSlotsPerEpoch at this; omega
  have early := valid.firstNormalEpoch_le
  have quotient := Nat.div_le_self (slot - schedule.firstNormalSlot) schedule.slotsPerEpoch
  rw [getEpochAndSlotIndex, if_neg (by omega)]
  simp only [checkedDiv_getD, checkedRem_getD positive]
  rw [saturatingAdd_of_le (by unfold maxValue; omega)]

theorem getEpochAndSlotIndex_spec (valid : schedule.Valid) {slot : Nat} (below : slot < 2 ^ 63) :
    schedule.epochStart (schedule.getEpoch slot) ≤ slot ∧ slot < schedule.epochStart (schedule.getEpoch slot + 1) ∧
      (schedule.getEpochAndSlotIndex slot).2 = slot - schedule.epochStart (schedule.getEpoch slot) := by
  unfold getEpoch
  rcases Nat.lt_or_ge slot schedule.firstNormalSlot with warm | normal
  · obtain ⟨epoch, found, lower, upper⟩ := getEpochAndSlotIndex_of_warmup valid warm
    rw [found]
    exact ⟨lower, upper, rfl⟩
  · have positive : 0 < schedule.slotsPerEpoch := by have := valid.minimum; unfold minimumSlotsPerEpoch at this; omega
    rw [getEpochAndSlotIndex_of_normal valid normal below]
    dsimp only
    rw [Nat.add_assoc, epochStart_normal valid, epochStart_normal valid]
    have split := Nat.div_add_mod (slot - schedule.firstNormalSlot) schedule.slotsPerEpoch
    have remainder := Nat.mod_lt (slot - schedule.firstNormalSlot) positive
    refine ⟨?_, ?_, ?_⟩
    · rw [Nat.mul_comm] at split
      omega
    · rw [Nat.succ_mul]
      rw [Nat.mul_comm] at split
      omega
    · rw [Nat.mul_comm] at split
      omega

theorem getEpoch_finds (valid : schedule.Valid) : Partition.Finds schedule.epochStart schedule.getEpoch (2 ^ 63) :=
  fun _ below => ⟨(getEpochAndSlotIndex_spec valid below).1, (getEpochAndSlotIndex_spec valid below).2.1⟩

theorem epochStart_firstNormalEpoch (valid : schedule.Valid) :
    schedule.epochStart schedule.firstNormalEpoch = schedule.firstNormalSlot := by
  have := epochStart_normal valid 0
  rwa [Nat.add_zero, Nat.zero_mul, Nat.zero_add] at this

theorem getEpoch_lt_of_warmup (valid : schedule.Valid) {slot : Nat} (warm : slot < schedule.firstNormalSlot) :
    schedule.getEpoch slot < schedule.firstNormalEpoch := by
  have bound := valid.firstNormalSlot_eq
  have power : 2 ^ schedule.firstNormalEpoch ≤ 2 ^ 57 := Nat.pow_le_pow_right (by decide) valid.firstNormalEpoch_le
  rw [minimum_mul_pow_sub] at bound
  have lower := (getEpochAndSlotIndex_spec valid (show slot < 2 ^ 63 by omega)).1
  by_contra late
  have := (epochStart_strictMono valid).monotone (Nat.le_of_not_lt late)
  rw [epochStart_firstNormalEpoch valid] at this
  omega

/-! ### The leader schedule epoch -/

theorem getLeaderScheduleEpoch_of_warmup (valid : schedule.Valid) {slot : Nat} (warm : slot < schedule.firstNormalSlot) :
    schedule.getLeaderScheduleEpoch slot = schedule.getEpoch slot + 1 := by
  have := getEpoch_lt_of_warmup valid warm
  have := valid.firstNormalEpoch_le
  rw [getLeaderScheduleEpoch, if_pos warm, saturatingAdd_of_le (by unfold maxValue; unfold getEpoch at *; omega)]
  rfl

theorem getLeaderScheduleEpoch_of_normal (valid : schedule.Valid) {slot : Nat} (normal : schedule.firstNormalSlot ≤ slot)
    (below : slot < 2 ^ 63) (offset : schedule.leaderScheduleSlotOffset ≤ schedule.slotsPerEpoch) :
    schedule.getLeaderScheduleEpoch slot = schedule.firstNormalEpoch +
      (slot - schedule.firstNormalSlot + schedule.leaderScheduleSlotOffset) / schedule.slotsPerEpoch := by
  have maximum := valid.maximum
  have early := valid.firstNormalEpoch_le
  have quotient := Nat.div_le_self (slot - schedule.firstNormalSlot + schedule.leaderScheduleSlotOffset)
    schedule.slotsPerEpoch
  rw [getLeaderScheduleEpoch, if_neg (by omega)]
  dsimp only
  rw [saturatingAdd_of_le (show slot - schedule.firstNormalSlot + schedule.leaderScheduleSlotOffset ≤ maxValue 64 by
      unfold maxValue; omega), checkedDiv_getD,
    saturatingAdd_of_le (show schedule.firstNormalEpoch + (slot - schedule.firstNormalSlot +
      schedule.leaderScheduleSlotOffset) / schedule.slotsPerEpoch ≤ maxValue 64 by unfold maxValue; omega)]

theorem div_le_add_div_le (x : Nat) {offset divisor : Nat} (positive : 0 < divisor) (small : offset ≤ divisor) :
    x / divisor ≤ (x + offset) / divisor ∧ (x + offset) / divisor ≤ x / divisor + 1 := by
  refine ⟨Nat.div_le_div_right (Nat.le_add_right x offset), ?_⟩
  rw [← Nat.add_div_right x positive]
  exact Nat.div_le_div_right (by omega)

/-! ### The epochs cut the slots -/

/-- The epochs of a schedule cut the slots below `2 ^ 63`: each slot has an index below its epoch's
length from the epoch's first slot, each epoch ends where the next begins, and the epoch grows
with the slot by steps of at most one. -/
structure PartitionsSlots (schedule : EpochSchedule) : Prop where
  index_lt : ∀ slot < 2 ^ 63,
    (schedule.getEpochAndSlotIndex slot).2 < schedule.getSlotsInEpoch (schedule.getEpochAndSlotIndex slot).1
  first_add_index : ∀ slot < 2 ^ 63,
    schedule.getFirstSlotInEpoch (schedule.getEpochAndSlotIndex slot).1 + (schedule.getEpochAndSlotIndex slot).2 =
      slot
  last_add_one : ∀ slot < 2 ^ 63,
    schedule.getLastSlotInEpoch (schedule.getEpochAndSlotIndex slot).1 + 1 =
      schedule.getFirstSlotInEpoch ((schedule.getEpochAndSlotIndex slot).1 + 1)
  getEpoch_mono : ∀ slot slot', slot ≤ slot' → slot' < 2 ^ 63 → schedule.getEpoch slot ≤ schedule.getEpoch slot'
  getEpoch_succ_le : ∀ slot, slot + 1 < 2 ^ 63 → schedule.getEpoch (slot + 1) ≤ schedule.getEpoch slot + 1

/-- The leader schedule epoch of a slot is its epoch or the next, and grows with the slot by steps
of at most one, across the end of warmup too. -/
structure LeaderScheduleFollows (schedule : EpochSchedule) : Prop where
  mem : ∀ slot < 2 ^ 63, schedule.getLeaderScheduleEpoch slot = schedule.getEpoch slot ∨
    schedule.getLeaderScheduleEpoch slot = schedule.getEpoch slot + 1
  mono : ∀ slot slot', slot ≤ slot' → slot' < 2 ^ 63 →
    schedule.getLeaderScheduleEpoch slot ≤ schedule.getLeaderScheduleEpoch slot'
  succ_le : ∀ slot, slot + 1 < 2 ^ 63 →
    schedule.getLeaderScheduleEpoch (slot + 1) ≤ schedule.getLeaderScheduleEpoch slot + 1

theorem Valid.partitionsSlots (valid : schedule.Valid) : schedule.PartitionsSlots where
  index_lt slot below := by
    obtain ⟨lower, upper, index⟩ := getEpochAndSlotIndex_spec valid below
    have next := epochStart_succ valid (schedule.getEpoch slot)
    rw [index, getSlotsInEpoch_eq valid]
    unfold getEpoch at *
    omega
  first_add_index slot below := by
    obtain ⟨lower, -, index⟩ := getEpochAndSlotIndex_spec valid below
    unfold getEpoch at *
    rw [index, getFirstSlotInEpoch_eq valid (by unfold maxValue; omega)]
    omega
  last_add_one slot below := by
    obtain ⟨lower, upper, -⟩ := getEpochAndSlotIndex_spec valid below
    have next := epochStart_succ valid (schedule.getEpoch slot)
    have length := epochLength_le valid (schedule.getEpoch slot)
    have positive := epochLength_pos valid (schedule.getEpoch slot)
    unfold getEpoch at *
    rw [getLastSlotInEpoch, getFirstSlotInEpoch_eq valid (by unfold maxValue; omega), getSlotsInEpoch_eq valid,
      saturatingAdd_of_le (by unfold maxValue; omega), getFirstSlotInEpoch_eq valid (by unfold maxValue; omega)]
    omega
  getEpoch_mono _ _ le below := (getEpoch_finds valid).monotone (epochStart_strictMono valid) le below
  getEpoch_succ_le _ below := (getEpoch_finds valid).succ_le (epochStart_strictMono valid) below

theorem Valid.leaderScheduleFollows (valid : schedule.Valid)
    (offset : schedule.leaderScheduleSlotOffset ≤ schedule.slotsPerEpoch) : schedule.LeaderScheduleFollows := by
  have positive : 0 < schedule.slotsPerEpoch := by have := valid.minimum; unfold minimumSlotsPerEpoch at this; omega
  have increasing := epochStart_strictMono valid
  have finds := getEpoch_finds valid
  have normalEpochs : ∀ slot, schedule.firstNormalSlot ≤ slot → slot < 2 ^ 63 →
      schedule.getEpoch slot = schedule.firstNormalEpoch + (slot - schedule.firstNormalSlot) / schedule.slotsPerEpoch ∧
      schedule.getLeaderScheduleEpoch slot = schedule.firstNormalEpoch +
        (slot - schedule.firstNormalSlot + schedule.leaderScheduleSlotOffset) / schedule.slotsPerEpoch := by
    intro slot normal below
    refine ⟨?_, getLeaderScheduleEpoch_of_normal valid normal below offset⟩
    rw [getEpoch, getEpochAndSlotIndex_of_normal valid normal below]
  refine ⟨fun slot below => ?_, fun slot slot' le below => ?_, fun slot below => ?_⟩
  · rcases Nat.lt_or_ge slot schedule.firstNormalSlot with warm | normal
    · exact .inr (getLeaderScheduleEpoch_of_warmup valid warm)
    · obtain ⟨epochEq, leaderEq⟩ := normalEpochs slot normal below
      have := div_le_add_div_le (slot - schedule.firstNormalSlot) positive offset
      omega
  · rcases Nat.lt_or_ge slot' schedule.firstNormalSlot with warm' | normal'
    · rw [getLeaderScheduleEpoch_of_warmup valid (by omega), getLeaderScheduleEpoch_of_warmup valid warm']
      exact Nat.add_le_add_right (finds.monotone increasing le below) 1
    · obtain ⟨-, leaderEq'⟩ := normalEpochs slot' normal' below
      rcases Nat.lt_or_ge slot schedule.firstNormalSlot with warm | normal
      · have := getEpoch_lt_of_warmup valid warm
        rw [getLeaderScheduleEpoch_of_warmup valid warm, leaderEq']
        exact le_trans (by omega) (Nat.le_add_right _ _)
      · obtain ⟨-, leaderEq⟩ := normalEpochs slot normal (by omega)
        rw [leaderEq, leaderEq']
        exact Nat.add_le_add_left (Nat.div_le_div_right (by omega)) _
  · rcases Nat.lt_or_ge (slot + 1) schedule.firstNormalSlot with warm | normal
    · rw [getLeaderScheduleEpoch_of_warmup valid warm, getLeaderScheduleEpoch_of_warmup valid (by omega)]
      exact Nat.add_le_add_right (finds.succ_le increasing below) 1
    · obtain ⟨-, leaderEq'⟩ := normalEpochs (slot + 1) normal below
      rcases Nat.lt_or_ge slot schedule.firstNormalSlot with warm | normal
      · have last : slot + 1 = schedule.firstNormalSlot := by omega
        have lastEpoch : schedule.getEpoch slot = schedule.firstNormalEpoch - 1 := by
          have late := getEpoch_lt_of_warmup valid warm
          apply finds.eq_of_mem increasing (by omega)
          · have := increasing (show schedule.firstNormalEpoch - 1 < schedule.firstNormalEpoch by omega)
            rw [epochStart_firstNormalEpoch valid] at this
            omega
          · rw [show schedule.firstNormalEpoch - 1 + 1 = schedule.firstNormalEpoch by omega,
              epochStart_firstNormalEpoch valid]
            exact warm
        have oneEpoch := (div_le_add_div_le 0 positive offset).2
        rw [Nat.zero_add, Nat.zero_div] at oneEpoch
        have := getEpoch_lt_of_warmup valid warm
        rw [getLeaderScheduleEpoch_of_warmup valid warm, leaderEq', lastEpoch, last, Nat.sub_self, Nat.zero_add]
        omega
      · obtain ⟨-, leaderEq⟩ := normalEpochs slot normal (by omega)
        have := (div_le_add_div_le (slot - schedule.firstNormalSlot + schedule.leaderScheduleSlotOffset)
          positive (show 1 ≤ schedule.slotsPerEpoch by omega)).2
        rw [leaderEq, leaderEq', show slot + 1 - schedule.firstNormalSlot + schedule.leaderScheduleSlotOffset =
          slot - schedule.firstNormalSlot + schedule.leaderScheduleSlotOffset + 1 by omega]
        omega

end EpochSchedule

open EpochSchedule in
/-- For every `slots_per_epoch` from `MINIMUM_SLOTS_PER_EPOCH` to `2 ^ 62`, every offset and either
warmup, `custom` builds a schedule whose epochs cut the slots below `2 ^ 63`, and whose leader
schedule epochs follow them where the offset is at most an epoch. -/
theorem epochSchedule_partitions {slotsPerEpoch leaderScheduleSlotOffset : Nat} {warmup : Bool}
    (minimum : minimumSlotsPerEpoch ≤ slotsPerEpoch) (maximum : slotsPerEpoch ≤ 2 ^ 62) :
    ∃ schedule, custom slotsPerEpoch leaderScheduleSlotOffset warmup = some schedule ∧ schedule.PartitionsSlots ∧
      (leaderScheduleSlotOffset ≤ slotsPerEpoch → schedule.LeaderScheduleFollows) := by
  obtain ⟨schedule, built, slotsEq, offsetEq, valid⟩ :=
    @custom_valid slotsPerEpoch leaderScheduleSlotOffset warmup minimum maximum
  refine ⟨schedule, built, valid.partitionsSlots, fun offset => valid.leaderScheduleFollows ?_⟩
  rw [offsetEq, slotsEq]
  exact offset

open EpochSchedule in
theorem epochSchedule_partitions_default : minimumSlotsPerEpoch ≤ 432000 ∧ 432000 ≤ 2 ^ 62 ∧
    ∃ schedule, custom 432000 432000 true = some schedule ∧ schedule.PartitionsSlots ∧
      (432000 ≤ 432000 → schedule.LeaderScheduleFollows) :=
  ⟨by decide, by decide, epochSchedule_partitions (by decide) (by decide)⟩

end Epoch
