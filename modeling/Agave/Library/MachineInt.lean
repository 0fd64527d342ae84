import Mathlib

namespace MachineInt

/-- The largest value of an unsigned integer of `w` bits. -/
def maxValue (w : Nat) : Nat := 2 ^ w - 1

/-- `saturating_add` of the unsigned integer types of `w` bits, on values in range. -/
def saturatingAdd (w a b : Nat) : Nat := min (a + b) (maxValue w)

/-- `checked_add`: `none` where the sum leaves the `w`-bit range. -/
def checkedAdd (w a b : Nat) : Option Nat := if a + b ≤ maxValue w then some (a + b) else none

/-- `checked_sub` of unsigned integers: `none` below zero. -/
def checkedSub (a b : Nat) : Option Nat := if b ≤ a then some (a - b) else none

/-- `+` of `w`-bit unsigned integers, which wraps in release builds. -/
def wrappingAdd (w a b : Nat) : Nat := (a + b) % 2 ^ w

/-- `-` of `w`-bit unsigned integers, which wraps in release builds. -/
def wrappingSub (w a b : Nat) : Nat := (a + (2 ^ w - b % 2 ^ w)) % 2 ^ w

/-- `*` of `w`-bit unsigned integers, which wraps in release builds. -/
def wrappingMul (w a b : Nat) : Nat := a * b % 2 ^ w

/-- `pow` of `w`-bit unsigned integers, which wraps in release builds. -/
def wrappingPow (w base exp : Nat) : Nat := base ^ exp % 2 ^ w

/-- `saturating_add` of signed integers of `w` bits. -/
def saturatingAddSigned (w : Nat) (a b : Int) : Int := max (-2 ^ (w - 1)) (min (2 ^ (w - 1) - 1) (a + b))

/-- `saturating_sub` of signed integers of `w` bits. -/
def saturatingSubSigned (w : Nat) (a b : Int) : Int := max (-2 ^ (w - 1)) (min (2 ^ (w - 1) - 1) (a - b))

/-- `saturating_mul` of the unsigned integer types of `w` bits. -/
def saturatingMul (w a b : Nat) : Nat := min (a * b) (maxValue w)

/-- `saturating_pow` of the unsigned integer types of `w` bits. -/
def saturatingPow (w base exp : Nat) : Nat := min (base ^ exp) (maxValue w)

/-- `checked_div` of unsigned integers: `none` for a zero divisor. -/
def checkedDiv (a b : Nat) : Option Nat := if b = 0 then none else some (a / b)

def checkedMul (w a b : Nat) : Option Nat := if a * b ≤ maxValue w then some (a * b) else none

/-- `checked_rem` of unsigned integers: `none` for a zero divisor. -/
def checkedRem (a b : Nat) : Option Nat := if b = 0 then none else some (a % b)

/-- `next_power_of_two` of `w`-bit unsigned integers: the least power of two at or above the value,
wrapped to zero past the top bit as release builds do. -/
def nextPowerOfTwo (w x : Nat) : Nat := if Nat.clog 2 x < w then 2 ^ Nat.clog 2 x else 0

/-- `trailing_zeros` of a `w`-bit value: the zero bits below its lowest set bit, all `w` for zero. -/
def trailingZeros (w x : Nat) : Nat := go w x
where
  go : Nat → Nat → Nat
    | 0, _ => 0
    | fuel + 1, x => if x % 2 = 1 then 0 else go fuel (x / 2) + 1

theorem saturatingAdd_le_add (w a b : Nat) : saturatingAdd w a b ≤ a + b := min_le_left _ _

theorem saturatingAdd_le_max (w a b : Nat) : saturatingAdd w a b ≤ maxValue w := min_le_right _ _

theorem saturatingAdd_of_le {w a b : Nat} (fits : a + b ≤ maxValue w) : saturatingAdd w a b = a + b :=
  min_eq_left fits

theorem saturatingAdd_iterate {w : Nat} (d : Nat) :
    ∀ (n : Nat) {x : Nat}, x ≤ maxValue w → (saturatingAdd w · d)^[n] x = saturatingAdd w x (n * d)
  | 0, x, bound => by
    rw [Function.iterate_zero_apply, Nat.zero_mul, saturatingAdd, Nat.add_zero, min_eq_left bound]
  | n + 1, x, _ => by
    rw [Function.iterate_succ_apply, saturatingAdd_iterate d n (saturatingAdd_le_max w x d), Nat.succ_mul]
    unfold saturatingAdd
    omega

theorem sub_iterate (d : Nat) : ∀ (n x : Nat), (· - d)^[n] x = x - n * d
  | 0, x => by rw [Function.iterate_zero_apply, Nat.zero_mul, Nat.sub_zero]
  | n + 1, x => by
    rw [Function.iterate_succ_apply, sub_iterate d n, Nat.sub_sub, Nat.succ_mul, Nat.add_comm d]

theorem saturatingAdd_mono_right {w a b c : Nat} (le : b ≤ c) :
    saturatingAdd w a b ≤ saturatingAdd w a c :=
  min_le_min_right _ (Nat.add_le_add_left le a)

theorem le_saturatingAdd {w a b : Nat} (bound : a ≤ maxValue w) : a ≤ saturatingAdd w a b :=
  le_min (Nat.le_add_right a b) bound

theorem saturatingAdd_of_lt_max {w a b : Nat} (small : saturatingAdd w a b < maxValue w) :
    saturatingAdd w a b = a + b := by
  unfold saturatingAdd at *
  omega

theorem le_saturatingMul_iff {w x a b : Nat} (bound : x ≤ maxValue w) :
    x ≤ saturatingMul w a b ↔ x ≤ a * b := by
  simp [saturatingMul, bound]

theorem le_saturatingAdd_mul_iff {w x a b c : Nat} (bound : x ≤ maxValue w) (positive : 0 < c) :
    x ≤ saturatingAdd w a b * c ↔ x ≤ (a + b) * c := by
  by_cases fits : a + b ≤ maxValue w
  · rw [saturatingAdd_of_le fits]
  · have saturated : saturatingAdd w a b = maxValue w := min_eq_right (by omega)
    have below : x ≤ maxValue w * c := Nat.le_trans bound (Nat.le_mul_of_pos_right _ positive)
    have past : x ≤ (a + b) * c := Nat.le_trans (by omega) (Nat.le_mul_of_pos_right _ positive)
    rw [saturated]
    exact ⟨fun _ => past, fun _ => below⟩

@[simp] theorem checkedAdd_eq_some {w a b c : Nat} :
    checkedAdd w a b = some c ↔ a + b ≤ maxValue w ∧ a + b = c := by
  unfold checkedAdd
  split <;> simp_all

@[simp] theorem checkedSub_eq_some {a b c : Nat} : checkedSub a b = some c ↔ b ≤ a ∧ a - b = c := by
  unfold checkedSub
  split <;> simp_all

theorem saturatingPow_of_le {w base exp : Nat} (fits : base ^ exp ≤ maxValue w) :
    saturatingPow w base exp = base ^ exp :=
  min_eq_left fits

theorem saturatingMul_of_le {w a b : Nat} (fits : a * b ≤ maxValue w) : saturatingMul w a b = a * b :=
  min_eq_left fits

/-- A zero divisor leaves `unwrap_or(0)` at zero, as Lean's division does. -/
@[simp] theorem checkedDiv_getD (a b : Nat) : (checkedDiv a b).getD 0 = a / b := by
  unfold checkedDiv
  split_ifs with zero
  · rw [zero, Nat.div_zero]
    rfl
  · rfl

theorem checkedRem_getD {a b : Nat} (positive : 0 < b) : (checkedRem a b).getD 0 = a % b := by
  rw [checkedRem, if_neg (by omega)]
  rfl

theorem checkedAdd_of_le {w a b : Nat} (fits : a + b ≤ maxValue w) : checkedAdd w a b = some (a + b) :=
  if_pos fits

theorem checkedMul_of_le {w a b : Nat} (fits : a * b ≤ maxValue w) : checkedMul w a b = some (a * b) :=
  if_pos fits

theorem checkedSub_of_le {a b : Nat} (le : b ≤ a) : checkedSub a b = some (a - b) :=
  if_pos le

theorem mul_le_maxValue_add {w v a b : Nat} (fitsA : a ≤ maxValue w) (fitsB : b ≤ maxValue v) :
    a * b ≤ maxValue (w + v) := by
  have belowB : b ≤ 2 ^ v := le_trans fitsB (Nat.sub_le _ _)
  have positive : 1 ≤ 2 ^ v := Nat.one_le_two_pow
  calc a * b ≤ maxValue w * 2 ^ v := Nat.mul_le_mul fitsA belowB
    _ = 2 ^ (w + v) - 2 ^ v := by rw [maxValue, Nat.sub_mul, Nat.one_mul, Nat.pow_add]
    _ ≤ maxValue (w + v) := by
      rw [maxValue]
      omega

theorem checkedDiv_of_pos {a b : Nat} (positive : 0 < b) : checkedDiv a b = some (a / b) :=
  if_neg (Nat.pos_iff_ne_zero.mp positive)

/-! ### Ceiling division

`(n + d - 1) / d`, the quotient rounded up, as code computes it by adding `d - 1` to the numerator. -/

def ceilDiv (n d : Nat) : Nat := (n + d - 1) / d

theorem le_ceilDiv_mul (n : Nat) {d : Nat} (positive : 0 < d) : n ≤ ceilDiv n d * d := by
  have split := Nat.div_add_mod (n + d - 1) d
  have small := Nat.mod_lt (n + d - 1) positive
  rw [ceilDiv, Nat.mul_comm]
  omega

theorem ceilDiv_mul_lt (n : Nat) {d : Nat} (positive : 0 < d) : ceilDiv n d * d < n + d := by
  have below := Nat.div_mul_le_self (n + d - 1) d
  rw [ceilDiv]
  omega

theorem ceilDiv_le {n d k : Nat} (positive : 0 < d) (bound : n ≤ k * d) : ceilDiv n d ≤ k := by
  have below : ceilDiv n d * d < (k + 1) * d := by
    have := ceilDiv_mul_lt n positive
    rw [Nat.add_mul, Nat.one_mul]
    omega
  exact Nat.le_of_lt_succ (Nat.lt_of_mul_lt_mul_right below)

theorem le_ceilDiv {n d k : Nat} (positive : 0 < d) (bound : k * d ≤ n) : k ≤ ceilDiv n d := by
  have above := le_ceilDiv_mul n positive
  by_contra more
  have : ceilDiv n d * d < k * d := Nat.mul_lt_mul_of_pos_right (by omega) positive
  omega

theorem nextPowerOfTwo_of_lt {w x : Nat} (small : Nat.clog 2 x < w) : nextPowerOfTwo w x = 2 ^ Nat.clog 2 x :=
  if_pos small

theorem trailingZeros_two_pow {w k : Nat} (small : k < w) : trailingZeros w (2 ^ k) = k := by
  unfold trailingZeros
  induction w generalizing k with
  | zero => omega
  | succ fuel ih =>
    rw [trailingZeros.go]
    cases k with
    | zero => rfl
    | succ k =>
      rw [if_neg (by rw [Nat.pow_succ]; omega), Nat.pow_succ, Nat.mul_div_cancel _ (by decide), ih (by omega)]

theorem wrappingPow_of_lt {w base exp : Nat} (small : base ^ exp < 2 ^ w) :
    wrappingPow w base exp = base ^ exp :=
  Nat.mod_eq_of_lt small

theorem wrappingAdd_of_lt {w a b : Nat} (fits : a + b < 2 ^ w) : wrappingAdd w a b = a + b :=
  Nat.mod_eq_of_lt fits

theorem wrappingMul_of_lt {w a b : Nat} (fits : a * b < 2 ^ w) : wrappingMul w a b = a * b :=
  Nat.mod_eq_of_lt fits

theorem wrappingAdd_wrappingAdd (w a b c : Nat) : wrappingAdd w (wrappingAdd w a b) c = wrappingAdd w (a + b) c :=
  Nat.mod_add_mod _ _ _

theorem wrappingAdd_wrappingMul (w a b c : Nat) : wrappingAdd w (wrappingMul w a b) c = wrappingAdd w (a * b) c :=
  Nat.mod_add_mod _ _ _

theorem wrappingSub_of_le {w a b : Nat} (le : b ≤ a) (fits : a < 2 ^ w) : wrappingSub w a b = a - b := by
  have small : b % 2 ^ w = b := Nat.mod_eq_of_lt (by omega)
  rw [wrappingSub, small, show a + (2 ^ w - b) = (a - b) + 2 ^ w by omega, Nat.add_mod_right,
    Nat.mod_eq_of_lt (by omega)]

theorem eq_of_mod_eq_of_le_of_lt_add {w j k : Nat} (le : j ≤ k) (near : k < j + w)
    (same : j % w = k % w) : j = k := by
  have dvd : w ∣ k - j := Nat.dvd_of_mod_eq_zero (Nat.sub_mod_eq_zero_of_mod_eq same.symm)
  have zero : k - j = 0 := Nat.eq_zero_of_dvd_of_lt dvd (by omega)
  omega

theorem eq_of_mod_eq_of_lt_add {w lo j k : Nat} (hj : lo ≤ j) (hj' : j < lo + w) (hk : lo ≤ k)
    (hk' : k < lo + w) (same : j % w = k % w) : j = k := by
  rcases Nat.le_total j k with le | le
  · exact eq_of_mod_eq_of_le_of_lt_add le (by omega) same
  · exact (eq_of_mod_eq_of_le_of_lt_add le (by omega) same.symm).symm

end MachineInt
