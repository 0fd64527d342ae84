import Mathlib
import Agave.Library.ByteDecoder
import Agave.Library.Leb128
import Agave.Encoding.ShortVec

/-! `solana_serde_varint` (`sdk/serde-varint/src/lib.rs`): `u16`, `u32` and `u64` written seven bits
at a time, as vote offsets are. One macro, `impl_var_int!`, gives all three types the same
`serialize` and `visit_seq`, which differ only in `BITS`; they are modelled once, with the width a
parameter. The visitor refuses a last byte whose digit does not fit the width, a last zero byte
after the first, and a byte that continues past the width; it accepts exactly the strings that start
with a serialization of a value of the type (`visitSeq_run_eq_ok_iff`), and the serialization is the
one of `ShortU16` (`serialize_eq_shortU16`). -/

namespace VarInt

open ByteDecoder Leb128

/-- The types `impl_var_int!` implements `VarInt` for. -/
inductive VarIntType where
  | u16
  | u32
  | u64
  deriving DecidableEq, Repr

/-- `<$type>::BITS`. -/
def VarIntType.bits : VarIntType → Nat
  | .u16 => 16
  | .u32 => 32
  | .u64 => 64

/-- `self.leading_zeros()` of a value of a `bits`-bit type. -/
def leadingZeros (bits value : Nat) : Nat := bits - value.size

/-- `num_bytes` of `VarInt::serialize`, the length of the tuple it declares. -/
def numBytes (bits value : Nat) : Nat :=
  let significant := bits - leadingZeros bits value
  max ((significant + 6) / 7) 1

/-- `VarInt::serialize`: the low seven bits with the top bit set while `self >= 0x80`, then the
rest as the last byte. -/
def serialize (value : Nat) : List UInt8 :=
  if value ≥ 0x80 then ((value &&& 0x7f) ||| 0x80).toUInt8 :: serialize (value >>> 7)
  else [value.toUInt8]
termination_by value
decreasing_by
  rw [Nat.shiftRight_eq_div_pow]
  omega

/-- The errors of the visitor under `bincode`: the end of the input, and the visitor's own. -/
inductive DecodeError where
  | unexpectedEof
  | custom (message : String)
  deriving DecidableEq, Repr

/-- `VarInt::visit_seq` under `deserialize_tuple((BITS + 6) / 7, ..)`, as `bincode` drives it: the
loop asks for at most that many elements, so the tuple never ends before the bytes do. -/
def visitSeq (bits : Nat) : Decoder DecodeError Nat := go 0 0
where
  go (out shift : Nat) : Decoder DecodeError Nat :=
    if shift < bits then do
      let byte ← nextByte .unexpectedEof
      let out := out ||| ((byte.toNat &&& 0x7f) <<< shift) % 2 ^ bits
      if byte.toNat &&& 0x80 = 0 then
        -- the shift must not have cut bits off the last byte
        if (out >>> shift) % 2 ^ 8 ≠ byte.toNat then throw (.custom "Last Byte Truncated")
        -- a last zero byte only as the whole encoding of zero
        else if byte = 0 ∧ (shift ≠ 0 ∨ out ≠ 0) then throw (.custom "Invalid Trailing Zeros")
        else pure out
      else go out (shift + 7)
    else throw (.custom "Left Shift Overflows")
  termination_by bits - shift

/-! ### The serializer -/

theorem serialize_eq (value : Nat) : serialize value = (encode value).map Nat.toUInt8 := by
  induction value using Nat.strongRecOn with
  | ind value ih =>
    rw [serialize, Nat.shiftRight_eq_div_pow, and_0x7f]
    rcases Nat.lt_or_ge value 128 with small | large
    · rw [if_neg (by omega), encode_of_lt small]
      rfl
    · rw [if_pos large, encode_of_le large, or_0x80 (Nat.mod_lt _ (by omega)), List.map_cons,
        ih _ (by omega)]

theorem serialize_eq_shortU16 (value : Nat) : serialize value = ShortVec.serialize value := by
  rw [serialize_eq, ShortVec.serialize_eq]

theorem length_serialize {bits value : Nat} (small : value < 2 ^ bits) :
    (serialize value).length = numBytes bits value := by
  have fits : value.size ≤ bits := Nat.size_le.2 small
  rw [serialize_eq, List.length_map, length_encode, numBytes, leadingZeros]
  congr 3
  omega

/-! ### The visitor, one byte at a time -/

theorem or_shiftLeft_mod_eq {bits shift out digit : Nat} (inside : shift < bits) (below : out < 2 ^ shift) :
    out ||| (digit <<< shift) % 2 ^ bits = out + digit % 2 ^ (bits - shift) * 2 ^ shift := by
  have split : 2 ^ bits = 2 ^ (bits - shift) * 2 ^ shift := by
    rw [← pow_add]
    congr 1
    omega
  rw [Nat.shiftLeft_eq, split, Nat.mul_mod_mul_right, ← or_shiftLeft_eq_add below, Nat.shiftLeft_eq]

theorem add_mul_shiftRight {shift out digit : Nat} (below : out < 2 ^ shift) :
    (out + digit * 2 ^ shift) >>> shift = digit := by
  rw [Nat.shiftRight_eq_div_pow, Nat.add_mul_div_right _ _ (Nat.two_pow_pos shift), Nat.div_eq_of_lt below,
    Nat.zero_add]

theorem truncated_iff {bits shift digit : Nat} (small : digit < 128) :
    digit % 2 ^ (bits - shift) % 2 ^ 8 = digit ↔ digit < 2 ^ (bits - shift) := by
  constructor
  · intro kept
    by_contra large
    have := Nat.mod_lt digit (Nat.two_pow_pos (bits - shift))
    have := Nat.mod_le (digit % 2 ^ (bits - shift)) (2 ^ 8)
    omega
  · intro fits
    rw [Nat.mod_eq_of_lt fits, Nat.mod_eq_of_lt (by omega)]

theorem add_mul_lt_iff {bits shift out digit : Nat} (inside : shift < bits) (below : out < 2 ^ shift) :
    out + digit * 2 ^ shift < 2 ^ bits ↔ digit < 2 ^ (bits - shift) := by
  have split : 2 ^ bits = 2 ^ (bits - shift) * 2 ^ shift := by
    rw [← pow_add]
    congr 1
    omega
  rw [split]
  constructor
  · intro fits
    by_contra large
    have := Nat.mul_le_mul_right (2 ^ shift) (Nat.le_of_not_lt large)
    omega
  · intro fits
    have := Nat.mul_le_mul_right (2 ^ shift) (Nat.succ_le_of_lt fits)
    rw [Nat.succ_mul] at this
    omega

theorem visitSeq_go_of_le {bits out shift : Nat} (outside : bits ≤ shift) (bytes : List UInt8) :
    (visitSeq.go bits out shift).run bytes = .error (.custom "Left Shift Overflows") := by
  rw [visitSeq.go, if_neg (by omega)]
  rfl

theorem visitSeq_go_cons_eq_ok_iff {bits out shift x : Nat} {byte : UInt8} {rest rest' : List UInt8}
    (inside : shift < bits) (below : out < 2 ^ shift) :
    (visitSeq.go bits out shift).run (byte :: rest) = .ok (x, rest') ↔
      (byte.toNat < 128 ∧ ¬(byte.toNat = 0 ∧ shift ≠ 0) ∧ x = out + byte.toNat * 2 ^ shift ∧ x < 2 ^ bits ∧
          rest' = rest) ∨
        (128 ≤ byte.toNat ∧
          (visitSeq.go bits (out + byte.toNat % 128 % 2 ^ (bits - shift) * 2 ^ shift) (shift + 7)).run rest =
            .ok (x, rest')) := by
  have isByte : byte.toNat < 256 := byte.toNat_lt_size
  have zeroIff : byte = 0 ↔ byte.toNat = 0 := by
    rw [← UInt8.toNat_inj]
    rfl
  rw [visitSeq.go, if_pos inside, StateT.run_bind, nextByte_cons, ok_bind]
  simp only [and_0x7f, or_shiftLeft_mod_eq inside below, and_0x80_eq_zero_iff isByte, zeroIff]
  by_cases last : byte.toNat < 128
  · rw [if_pos last]
    simp only [add_mul_shiftRight below, Nat.mod_eq_of_lt last, Nat.not_le.2 last, false_and, or_false, last,
      true_and]
    split_ifs with truncated zeros
    · have large : ¬out + byte.toNat * 2 ^ shift < 2 ^ bits := by
        rw [add_mul_lt_iff inside below]
        exact fun fits => truncated ((truncated_iff last).2 fits)
      constructor
      · exact fun stuck => nomatch stuck
      · rintro ⟨-, rfl, small, -⟩
        exact absurd small large
    · obtain ⟨zero, nonzero⟩ := zeros
      have shifted : shift ≠ 0 := by
        rintro rfl
        simp only [zero, Nat.zero_mod, Nat.zero_mul, Nat.add_zero, pow_zero] at nonzero below
        omega
      constructor
      · exact fun stuck => nomatch stuck
      · rintro ⟨refused, -⟩
        exact absurd ⟨zero, shifted⟩ refused
    · have fits := (truncated_iff last).1 (not_not.1 truncated)
      have kept : ¬(byte.toNat = 0 ∧ shift ≠ 0) := fun refused => zeros ⟨refused.1, .inl refused.2⟩
      rw [Nat.mod_eq_of_lt fits]
      constructor
      · intro found
        cases found
        exact ⟨kept, rfl, (add_mul_lt_iff inside below).2 fits, rfl⟩
      · rintro ⟨-, rfl, -, rfl⟩
        rfl
  · rw [if_neg last]
    simp only [last, false_and, false_or, Nat.le_of_not_lt last, true_and]

/-! ### What the visitor accepts -/

theorem not_reads_of_le {bits shift out x count : Nat} {bytes : List Nat} (positive : 0 < bits)
    (outside : bits ≤ shift) : ¬Reads (2 ^ bits) bytes shift out x count := by
  intro reads
  have higher := le_of_reads (by omega) reads
  have small := lt_of_reads reads
  have := Nat.pow_le_pow_right (by omega : 0 < 2) outside
  omega

theorem visitSeq_go_run_eq_ok_iff {bits x : Nat} {rest' : List UInt8} (positive : 0 < bits) :
    ∀ {bytes : List UInt8} {out shift : Nat}, out < 2 ^ shift →
      ((visitSeq.go bits out shift).run bytes = .ok (x, rest') ↔
        ∃ count, Reads (2 ^ bits) (bytes.map UInt8.toNat) shift out x count ∧ rest' = bytes.drop count) := by
  intro bytes
  induction bytes with
  | nil =>
    intro out shift below
    simp only [List.map_nil, not_reads_nil, false_and, exists_false, iff_false]
    rcases Nat.lt_or_ge shift bits with inside | outside
    · rw [visitSeq.go, if_pos inside, StateT.run_bind, nextByte_nil, error_bind]
      exact fun stuck => nomatch stuck
    · rw [visitSeq_go_of_le outside]
      exact fun stuck => nomatch stuck
  | cons byte tail ih =>
    intro out shift below
    rcases Nat.lt_or_ge shift bits with inside | outside
    · have isByte : byte.toNat < 256 := byte.toNat_lt_size
      rw [visitSeq_go_cons_eq_ok_iff inside below, List.map_cons]
      simp only [reads_cons_iff isByte]
      by_cases last : byte.toNat < 128
      · simp only [last, Nat.not_le.2 last, false_and, or_false, true_and]
        constructor
        · rintro ⟨refused, sum, small, rfl⟩
          exact ⟨1, ⟨refused, sum, small, rfl⟩, rfl⟩
        · rintro ⟨count, ⟨refused, sum, small, rfl⟩, rfl⟩
          exact ⟨refused, sum, small, rfl⟩
      · have digit : byte.toNat % 128 < 128 := Nat.mod_lt _ (by omega)
        have digit' : byte.toNat % 128 % 2 ^ (bits - shift) < 128 := by
          have := Nat.mod_le (byte.toNat % 128) (2 ^ (bits - shift))
          omega
        simp only [last, false_and, false_or, Nat.le_of_not_lt last, true_and]
        rw [ih (add_digit_lt below digit')]
        rcases Nat.lt_or_ge (shift + 7) bits with room | full
        · have whole : byte.toNat % 128 % 2 ^ (bits - shift) = byte.toNat % 128 :=
            Nat.mod_eq_of_lt (lt_of_lt_of_le digit (Nat.pow_le_pow_right (by omega) (by omega) : 2 ^ 7 ≤ _))
          rw [whole]
          constructor
          · rintro ⟨count, reads, rfl⟩
            exact ⟨count + 1, ⟨count, reads, rfl⟩, rfl⟩
          · rintro ⟨_, ⟨count, reads, rfl⟩, rfl⟩
            exact ⟨count, reads, rfl⟩
        · simp only [not_reads_of_le positive (Nat.le_of_lt_succ (Nat.lt_succ_of_le full)), false_and,
            exists_false]
    · rw [visitSeq_go_of_le outside]
      simp only [reduceCtorEq, false_iff, not_exists, not_and]
      exact fun count reads => absurd reads (not_reads_of_le positive outside)

theorem visitSeq_run_eq_ok_iff {bits x : Nat} {bytes rest : List UInt8} (positive : 0 < bits) :
    (visitSeq bits).run bytes = .ok (x, rest) ↔
      x < 2 ^ bits ∧ serialize x <+: bytes ∧ rest = bytes.drop (serialize x).length := by
  rw [visitSeq, visitSeq_go_run_eq_ok_iff positive (by decide)]
  simp only [reads_zero_iff, parse_eq_some_iff, Bool.false_eq_true, false_implies, true_and,
    serialize_eq_shortU16, ShortVec.serialize_prefix_iff, ShortVec.length_serialize]
  constructor
  · rintro ⟨count, ⟨⟨rfl, isPrefix⟩, small⟩, rfl⟩
    exact ⟨small, isPrefix, rfl⟩
  · rintro ⟨small, isPrefix, rfl⟩
    exact ⟨_, ⟨⟨rfl, isPrefix⟩, small⟩, rfl⟩

theorem inverts_visitSeq {bits : Nat} (positive : 0 < bits) :
    Inverts (visitSeq bits) serialize (· < 2 ^ bits) := fun _ small _ =>
  (visitSeq_run_eq_ok_iff positive).2 ⟨small, List.prefix_append _ _, (List.drop_left ..).symm⟩

theorem bits_pos (t : VarIntType) : 0 < t.bits := by
  cases t <;> decide

/-- The var-int encodings of `u16`, `u32` and `u64`. The serialization of every value of the type
is read back with the bytes after it left, and has as many bytes as `serialize` declares; every
string the visitor accepts starts with the serialization of the value it returns, which is of the
type; and the serialization is the one of `ShortU16`. -/
theorem varInt_canonical (t : VarIntType) :
    (∀ x < 2 ^ t.bits, ∀ rest : List UInt8,
      (visitSeq t.bits).run (serialize x ++ rest) = .ok (x, rest) ∧ (serialize x).length = numBytes t.bits x) ∧
    (∀ (bytes rest : List UInt8) (x : Nat), (visitSeq t.bits).run bytes = .ok (x, rest) →
      x < 2 ^ t.bits ∧ serialize x <+: bytes ∧ rest = bytes.drop (serialize x).length) ∧
    ∀ x, serialize x = ShortVec.serialize x := by
  refine ⟨fun x small rest => ⟨?_, length_serialize small⟩, fun bytes rest x => (visitSeq_run_eq_ok_iff (bits_pos t)).1,
    serialize_eq_shortU16⟩
  exact (visitSeq_run_eq_ok_iff (bits_pos t)).2 ⟨small, List.prefix_append _ _, (List.drop_left ..).symm⟩

end VarInt
