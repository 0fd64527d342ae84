import Mathlib
import Agave.Encoding.ShortVec

/-! `transaction-view/src/bytes.rs`: the readers that the zero-copy transaction parser frames a
packet with. Each takes the packet and an offset into it and returns what it read with the offset
after it; an error leaves the caller's offset as it was. `read_compressed_u16` reads the same
`ShortU16` forms as `solana_short_vec` (`readCompressedU16_eq_ok_iff`), and
`optimized_read_compressed_u16` only the one- and two-byte ones, the values below `2 ^ 14`. -/

namespace TransactionView

open ShortVec Leb128

/-- `TransactionViewError`. -/
inductive TransactionViewError where
  | parseError
  | sanitizeError
  | addressLookupMismatch
  deriving DecidableEq, Repr

/-- `check_remaining`: at least `numBytes` bytes from `offset` on. Its `wrapping_sub` never wraps
under the function's assumption that the offset is within the packet, which every caller keeps. -/
def checkRemaining (bytes : List UInt8) (offset numBytes : Nat) : Except TransactionViewError Unit :=
  if numBytes > bytes.length - offset then .error .parseError else .ok ()

/-- `read_byte`. -/
def readByte (bytes : List UInt8) (offset : Nat) : Except TransactionViewError (UInt8 × Nat) :=
  match bytes[offset]? with
  | none => .error .parseError
  | some value => .ok (value, offset + 1)

/-- `read_compressed_u16`: up to three bytes in a `u16`, refusing a zero byte after the first and
a third byte above `3`. -/
def readCompressedU16 (bytes : List UInt8) (offset : Nat) : Except TransactionViewError (Nat × Nat) :=
  go 0 0 0
where
  go (i result shift : Nat) : Except TransactionViewError (Nat × Nat) :=
    if i < 3 then
      match bytes[offset + i]? with
      | none => .error .parseError
      | some byte =>
        -- non-minimal encoding or overflow
        if (i > 0 ∧ byte.toNat = 0) ∨ (i = 2 ∧ byte.toNat > 3) then .error .parseError
        else
          let result := result ||| ((byte.toNat &&& 0x7f) <<< shift) % 2 ^ 16
          if byte.toNat &&& 0x80 = 0 then .ok (result, offset + i + 1)
          else go (i + 1) result (shift + 7)
    else .ok (result, offset + 3)
  termination_by 3 - i

/-- `optimized_read_compressed_u16`: at most two bytes, for the array lengths of a packet. -/
def optimizedReadCompressedU16 (bytes : List UInt8) (offset : Nat) : Except TransactionViewError (Nat × Nat) :=
  match bytes[offset]? with
  | none => .error .parseError
  | some byte1 =>
    let result := byte1.toNat &&& 0x7f
    if byte1.toNat &&& 0x80 = 0 then .ok (result, offset + 1)
    else
      match bytes[offset + 1]? with
      | none => .error .parseError
      | some byte2 =>
        -- non-minimal encoding or overflow
        if byte2.toNat = 0 ∨ byte2.toNat &&& 0x80 ≠ 0 then .error .parseError
        else .ok (result ||| ((byte2.toNat &&& 0x7f) <<< 7) % 2 ^ 16, offset + 2)

/-- `advance_offset_for_array::<T>` for a `T` of `size` bytes. -/
def advanceOffsetForArray (size : Nat) (bytes : List UInt8) (offset numElements : Nat) :
    Except TransactionViewError Nat := do
  let arrayLenBytes := numElements * size
  checkRemaining bytes offset arrayLenBytes
  pure (offset + arrayLenBytes)

/-- `advance_offset_for_type::<T>` for a `T` of `size` bytes. -/
def advanceOffsetForType (size : Nat) (bytes : List UInt8) (offset : Nat) : Except TransactionViewError Nat := do
  checkRemaining bytes offset size
  pure (offset + size)

/-! ### The bound checks -/

theorem checkRemaining_eq_ok_iff {bytes : List UInt8} {offset numBytes : Nat} (inside : offset ≤ bytes.length) :
    checkRemaining bytes offset numBytes = .ok () ↔ offset + numBytes ≤ bytes.length := by
  rw [checkRemaining]
  split_ifs <;> simp only [false_iff, true_iff] <;> omega

theorem getElem?_of_drop_eq_nil {bytes : List UInt8} {offset : Nat} (remaining : bytes.drop offset = []) :
    bytes[offset]? = none := by
  rw [← List.head?_drop, remaining]
  rfl

theorem getElem?_of_drop_eq_cons {bytes rest : List UInt8} {offset : Nat} {byte : UInt8}
    (remaining : bytes.drop offset = byte :: rest) : bytes[offset]? = some byte := by
  rw [← List.head?_drop, remaining]
  rfl

theorem drop_succ_of_drop_eq_cons {bytes rest : List UInt8} {offset : Nat} {byte : UInt8}
    (remaining : bytes.drop offset = byte :: rest) : bytes.drop (offset + 1) = rest := by
  rw [← List.drop_drop, remaining, List.drop_one, List.tail_cons]

/-! ### `read_compressed_u16` reads as `visit_byte` does -/

theorem accepted_digit_lt {i result : Nat} {byte : UInt8} (early : i < 3) (below : result < 2 ^ (7 * i))
    (accepted : ¬((i > 0 ∧ byte.toNat = 0) ∨ (i = 2 ∧ byte.toNat > 3))) :
    result + byte.toNat % 128 * 2 ^ (7 * i) < 2 ^ 16 := by
  have digit : byte.toNat % 128 < 128 := Nat.mod_lt _ (by omega)
  rcases (by omega : i = 0 ∨ i = 1 ∨ i = 2) with rfl | rfl | rfl
  all_goals norm_num at below accepted ⊢
  all_goals omega

theorem refused_iff_visitByte_error {i result : Nat} {byte : UInt8} (early : i < 3) (below : result < 2 ^ (7 * i)) :
    ((i > 0 ∧ byte.toNat = 0) ∨ (i = 2 ∧ byte.toNat > 3)) ↔ ∃ error, visitByte byte result i = .error error := by
  have isByte : byte.toNat < 256 := byte.toNat_lt_size
  rw [visitByte_of_lt early below]
  constructor
  · intro refused
    split_ifs with isAlias continues overflow
    · exact ⟨_, rfl⟩
    · exact ⟨_, rfl⟩
    · exact ⟨_, rfl⟩
    all_goals
      rcases refused with ⟨positive, zero⟩ | ⟨rfl, large⟩
      · omega
      · norm_num at overflow
        omega
  · rintro ⟨error, refused⟩
    by_contra accepted
    have fits := accepted_digit_lt early below accepted
    split_ifs at refused <;> omega

theorem readCompressedU16_go_of_getElem {bytes : List UInt8} {offset i result : Nat} {byte : UInt8}
    (early : i < 3) (below : result < 2 ^ (7 * i)) (read : bytes[offset + i]? = some byte) :
    readCompressedU16.go bytes offset i result (7 * i) =
      match visitByte byte result i with
      | .error _ => .error .parseError
      | .ok (.done newVal) => .ok (newVal, offset + i + 1)
      | .ok (.more newVal) => readCompressedU16.go bytes offset (i + 1) newVal (7 * (i + 1)) := by
  rw [readCompressedU16.go, if_pos early, read]
  simp only
  by_cases refused : (i > 0 ∧ byte.toNat = 0) ∨ (i = 2 ∧ byte.toNat > 3)
  · obtain ⟨error, visited⟩ := (refused_iff_visitByte_error early below).1 refused
    rw [if_pos refused, visited]
  · have fits := accepted_digit_lt early below refused
    have digitEq : ((byte.toNat &&& 0x7f) <<< (7 * i)) % 2 ^ 16 = (byte.toNat % 128) <<< (7 * i) := by
      rw [and_0x7f]
      apply Nat.mod_eq_of_lt
      rw [Nat.shiftLeft_eq]
      omega
    have isByte : byte.toNat < 256 := byte.toNat_lt_size
    rw [if_neg refused, digitEq, or_shiftLeft_eq_add below, visitByte_of_lt early below,
      show 7 * i + 7 = 7 * (i + 1) by omega]
    simp only [and_0x80_eq_zero_iff isByte]
    rw [if_neg (show ¬(byte.toNat = 0 ∧ i ≠ 0) by omega), if_neg (show ¬(i = 2 ∧ 128 ≤ byte.toNat) by omega),
      if_neg (show ¬(result + byte.toNat % 128 * 2 ^ (7 * i) > 0xffff) by omega)]
    split_ifs <;> rfl

theorem readCompressedU16_go_of_getElem_none {bytes : List UInt8} {offset i result : Nat} (early : i < 3)
    (missing : bytes[offset + i]? = none) : readCompressedU16.go bytes offset i result (7 * i) = .error .parseError := by
  rw [readCompressedU16.go, if_pos early, missing]

theorem readCompressedU16_go_eq_ok_iff {bytes : List UInt8} {offset n offset' : Nat} :
    ∀ {rest : List UInt8} {i val : Nat}, bytes.drop (offset + i) = rest → i < 3 → val < 2 ^ (7 * i) →
      (readCompressedU16.go bytes offset i val (7 * i) = .ok (n, offset') ↔
        ∃ k, Finishes rest i val n k ∧ offset' = offset + i + k) := by
  intro rest
  induction rest with
  | nil =>
    intro i val remaining early _
    rw [readCompressedU16_go_of_getElem_none early (getElem?_of_drop_eq_nil remaining)]
    simp only [reduceCtorEq, not_finishes_nil, false_and, exists_false]
  | cons elem tail ih =>
    intro i val remaining early below
    have next : bytes.drop (offset + (i + 1)) = tail := by
      rw [← Nat.add_assoc]
      exact drop_succ_of_drop_eq_cons remaining
    simp only [finishes_cons_iff early below]
    rw [readCompressedU16_go_of_getElem early below (getElem?_of_drop_eq_cons remaining)]
    rcases status : visitByte elem val i with error | ⟨newVal⟩ | ⟨newVal⟩
    · simp
    · simp only [Except.ok.injEq, Prod.mk.injEq, VisitStatus.done.injEq, reduceCtorEq, false_and, exists_false, or_false]
      constructor
      · rintro ⟨rfl, rfl⟩
        exact ⟨1, ⟨rfl, rfl⟩, rfl⟩
      · rintro ⟨k, ⟨rfl, rfl⟩, rfl⟩
        exact ⟨rfl, rfl⟩
    · obtain ⟨continues, room, sum, -⟩ := (visitByte_eq_more_iff early below).1 status
      rw [ih next room (Nat.mul_add_one 7 i ▸ sum ▸ add_digit_lt below (Nat.mod_lt _ (by omega)))]
      simp only [reduceCtorEq, false_and, VisitStatus.more.injEq, Except.ok.injEq, false_or]
      constructor
      · rintro ⟨k, finishes, rfl⟩
        exact ⟨k + 1, ⟨newVal, k, rfl, finishes, rfl⟩, by omega⟩
      · rintro ⟨_, ⟨_, k, rfl, finishes, rfl⟩, rfl⟩
        exact ⟨k, finishes, by omega⟩

theorem readCompressedU16_eq_ok_iff {bytes : List UInt8} {offset n offset' : Nat} :
    readCompressedU16 bytes offset = .ok (n, offset') ↔ ∃ k, StartsWith (bytes.drop offset) n k ∧ offset' = offset + k := by
  rw [readCompressedU16, readCompressedU16_go_eq_ok_iff (show bytes.drop (offset + 0) = bytes.drop offset from rfl) (by decide)
    (by decide)]
  simp only [finishes_zero_iff, Nat.add_zero]

/-! ### `optimized_read_compressed_u16` -/

theorem finishes_zero_cons_iff {byte1 : UInt8} {rest : List UInt8} {n k : Nat} :
    Finishes (byte1 :: rest) 0 0 n k ∧ n < 2 ^ 14 ↔
      (byte1.toNat < 128 ∧ n = byte1.toNat ∧ k = 1) ∨
        (128 ≤ byte1.toNat ∧ ∃ byte2 tail, rest = byte2 :: tail ∧ byte2.toNat ≠ 0 ∧ byte2.toNat < 128 ∧
          n = byte1.toNat % 128 + byte2.toNat % 128 * 2 ^ 7 ∧ k = 2) := by
  have isByte1 : byte1.toNat < 256 := byte1.toNat_lt_size
  rw [finishes_cons_iff (by decide) (by decide), visitByte_eq_done_iff (by decide) (by decide)]
  simp only [visitByte_eq_more_iff (by decide : 0 < 3) (by decide : 0 < 2 ^ (7 * 0)), ne_eq, not_true_eq_false,
    and_false, not_false_eq_true, true_and, Nat.mul_zero, pow_zero, Nat.mul_one, Nat.zero_add]
  constructor
  · rintro ⟨⟨⟨digit, rfl, -⟩, rfl⟩ | ⟨_, count', ⟨continues, -, rfl, -⟩, finishes, rfl⟩, small⟩
    · exact .inl ⟨digit, Nat.mod_eq_of_lt digit, rfl⟩
    · refine .inr ⟨continues, ?_⟩
      rcases rest with _ | ⟨byte2, tail⟩
      · exact absurd finishes not_finishes_nil
      · have digitLt : byte1.toNat % 128 < 2 ^ (7 * 1) := Nat.mod_lt _ (by decide)
        simp only [finishes_cons_iff (by decide) digitLt, visitByte_eq_done_iff (by decide) digitLt,
          visitByte_eq_more_iff (by decide) digitLt] at finishes
        rcases finishes with ⟨⟨digit2, nonzero, rfl, -⟩, rfl⟩ | ⟨newVal, _, -, third, -⟩
        · refine ⟨byte2, tail, rfl, ?_, digit2, by norm_num, rfl⟩
          omega
        · have := le_of_finishes (by decide) third
          norm_num at this
          omega
  · rintro (⟨digit, rfl, rfl⟩ | ⟨continues, byte2, tail, rfl, nonzero, digit2, rfl, rfl⟩)
    · exact ⟨.inl ⟨⟨digit, (Nat.mod_eq_of_lt digit).symm, by omega⟩, rfl⟩, by omega⟩
    · have digitLt : byte1.toNat % 128 < 2 ^ (7 * 1) := Nat.mod_lt _ (by decide)
      have fits : byte1.toNat % 128 + byte2.toNat % 128 * 2 ^ 7 < 2 ^ 14 := by omega
      refine ⟨.inr ⟨_, 1, ⟨continues, by decide, rfl, by omega⟩, ?_, rfl⟩, fits⟩
      rw [finishes_cons_iff (by decide) digitLt, visitByte_eq_done_iff (by decide) digitLt]
      exact .inl ⟨⟨digit2, by omega, by norm_num, by omega⟩, rfl⟩

theorem optimizedReadCompressedU16_eq_ok_iff {bytes : List UInt8} {offset n offset' : Nat} :
    optimizedReadCompressedU16 bytes offset = .ok (n, offset') ↔
      ∃ k, StartsWith (bytes.drop offset) n k ∧ n < 2 ^ 14 ∧ offset' = offset + k := by
  simp only [← finishes_zero_iff]
  rw [optimizedReadCompressedU16]
  rcases remaining : bytes.drop offset with _ | ⟨byte1, rest⟩
  · rw [getElem?_of_drop_eq_nil remaining]
    simp [not_finishes_nil]
  · have isByte1 : byte1.toNat < 256 := byte1.toNat_lt_size
    have exists_iff : (∃ k, Finishes (byte1 :: rest) 0 0 n k ∧ n < 2 ^ 14 ∧ offset' = offset + k) ↔
        ∃ k, (Finishes (byte1 :: rest) 0 0 n k ∧ n < 2 ^ 14) ∧ offset' = offset + k := by
      simp only [and_assoc]
    rw [getElem?_of_drop_eq_cons remaining, exists_iff]
    simp only [finishes_zero_cons_iff, and_0x7f, and_0x80_eq_zero_iff isByte1]
    by_cases first : byte1.toNat < 128
    · rw [if_pos first]
      simp only [Except.ok.injEq, Prod.mk.injEq, Nat.not_le.2 first, false_and, or_false, first, true_and,
        Nat.mod_eq_of_lt first]
      constructor
      · rintro ⟨rfl, rfl⟩
        exact ⟨1, ⟨rfl, rfl⟩, rfl⟩
      · rintro ⟨_, ⟨rfl, rfl⟩, rfl⟩
        exact ⟨rfl, rfl⟩
    · rw [if_neg first]
      simp only [first, false_and, false_or, Nat.le_of_not_lt first, true_and]
      have next := drop_succ_of_drop_eq_cons remaining
      rcases rest with _ | ⟨byte2, tail⟩
      · rw [getElem?_of_drop_eq_nil next]
        simp
      · have isByte2 : byte2.toNat < 256 := byte2.toNat_lt_size
        rw [getElem?_of_drop_eq_cons next]
        have digitsEq : byte1.toNat % 128 ||| ((byte2.toNat % 128) <<< 7) % 2 ^ 16 =
            byte1.toNat % 128 + byte2.toNat % 128 * 2 ^ 7 := by
          have digit2 : (byte2.toNat % 128) <<< 7 < 2 ^ 16 := by
            rw [Nat.shiftLeft_eq]
            omega
          rw [Nat.mod_eq_of_lt digit2, or_shiftLeft_eq_add (show byte1.toNat % 128 < 2 ^ 7 from Nat.mod_lt _ (by decide))]
        simp only [List.cons.injEq]
        split_ifs with refused
        · rw [Ne, and_0x80_eq_zero_iff isByte2] at refused
          simp only [false_iff, not_exists, not_and]
          rintro _ ⟨_, _, ⟨rfl, rfl⟩, nonzero, digit2, -⟩ -
          omega
        · rw [Ne, and_0x80_eq_zero_iff isByte2] at refused
          simp only [Except.ok.injEq, Prod.mk.injEq, digitsEq]
          constructor
          · rintro ⟨rfl, rfl⟩
            exact ⟨2, ⟨byte2, tail, ⟨rfl, rfl⟩, by omega, by omega, rfl, rfl⟩, rfl⟩
          · rintro ⟨_, ⟨_, _, ⟨rfl, rfl⟩, -, -, rfl, rfl⟩, rfl⟩
            exact ⟨rfl, rfl⟩

theorem readCompressedU16_append_iff {pre rest : List UInt8} {n : Nat} :
    readCompressedU16 (pre ++ rest) 0 = .ok (n, pre.length) ↔ pre = serialize n ∧ n < 2 ^ 16 := by
  rw [readCompressedU16_eq_ok_iff, ← @startsWith_append_iff pre rest n]
  simp only [List.drop_zero, Nat.zero_add, exists_eq_right']

/-- The four decoders of a compact `u16`. `ShortU16::deserialize`, `decode_shortu16_len` and
`read_compressed_u16` each accept, of any byte string, exactly a prefix that is the serialization of
the value they return, so one accepts a prefix exactly when the others do; every `u16` has such a
serialization, of one to three bytes. `optimized_read_compressed_u16` accepts what they accept below
`2 ^ 14` and nothing else. -/
theorem shortU16_decoders_agree :
    (∀ n < 2 ^ 16, ∀ rest : List UInt8, 1 ≤ (serialize n).length ∧ (serialize n).length ≤ 3 ∧
      visitSeq.run (serialize n ++ rest) = .ok (n, rest) ∧
      decodeShortU16Len (serialize n ++ rest) = .ok (n, (serialize n).length) ∧
      readCompressedU16 (serialize n ++ rest) 0 = .ok (n, (serialize n).length)) ∧
    (∀ (pre rest : List UInt8) (n : Nat),
      (visitSeq.run (pre ++ rest) = .ok (n, rest) ∨ decodeShortU16Len (pre ++ rest) = .ok (n, pre.length) ∨
          readCompressedU16 (pre ++ rest) 0 = .ok (n, pre.length)) →
        pre = serialize n ∧ visitSeq.run (pre ++ rest) = .ok (n, rest) ∧
          decodeShortU16Len (pre ++ rest) = .ok (n, pre.length) ∧ readCompressedU16 (pre ++ rest) 0 = .ok (n, pre.length)) ∧
    (∀ (bytes : List UInt8) (offset n offset' : Nat),
      optimizedReadCompressedU16 bytes offset = .ok (n, offset') ↔
        readCompressedU16 bytes offset = .ok (n, offset') ∧ n < 2 ^ 14) := by
  refine ⟨?roundTrip, ?agree, ?optimized⟩
  case roundTrip =>
    intro n small rest
    have serialized : serialize n = serialize n ∧ n < 2 ^ 16 := ⟨rfl, small⟩
    exact ⟨one_le_length_serialize n, length_serialize_le small, visitSeq_run_append_iff.2 serialized,
      decodeShortU16Len_append_iff.2 serialized, readCompressedU16_append_iff.2 serialized⟩
  case agree =>
    intro pre rest n accepted
    have serialized : pre = serialize n ∧ n < 2 ^ 16 := by
      rcases accepted with visited | decoded | read
      · exact visitSeq_run_append_iff.1 visited
      · exact decodeShortU16Len_append_iff.1 decoded
      · exact readCompressedU16_append_iff.1 read
    exact ⟨serialized.1, visitSeq_run_append_iff.2 serialized, decodeShortU16Len_append_iff.2 serialized,
      readCompressedU16_append_iff.2 serialized⟩
  case optimized =>
    intro bytes offset n offset'
    rw [optimizedReadCompressedU16_eq_ok_iff, readCompressedU16_eq_ok_iff]
    constructor
    · rintro ⟨k, starts, small, rfl⟩
      exact ⟨⟨k, starts, rfl⟩, small⟩
    · rintro ⟨⟨k, starts, rfl⟩, small⟩
      exact ⟨k, starts, small, rfl⟩

/-! ### Reading what a packet holds at an offset -/

section Remaining

variable {bytes pre rest : List UInt8} {offset : Nat}

theorem drop_add_length_of_drop_eq_append (remaining : bytes.drop offset = pre ++ rest) :
    bytes.drop (offset + pre.length) = rest := by
  rw [← List.drop_drop, remaining, List.drop_left]

theorem length_eq_of_drop_eq {suffix : List UInt8} (remaining : bytes.drop offset = suffix) (nonempty : suffix ≠ []) :
    bytes.length = offset + suffix.length := by
  have length : (bytes.drop offset).length = bytes.length - offset := List.length_drop
  have positive := List.length_pos_of_ne_nil nonempty
  rw [remaining] at length
  omega

theorem readByte_of_drop_eq_cons {byte : UInt8} (remaining : bytes.drop offset = byte :: rest) :
    readByte bytes offset = .ok (byte, offset + 1) := by
  rw [readByte, getElem?_of_drop_eq_cons remaining]

theorem checkRemaining_of_drop_eq_append {numBytes : Nat} (remaining : bytes.drop offset = pre ++ rest)
    (fits : numBytes ≤ pre.length) : checkRemaining bytes offset numBytes = .ok () := by
  have length : (bytes.drop offset).length = bytes.length - offset := List.length_drop
  rw [remaining, List.length_append] at length
  rw [checkRemaining, if_neg (by omega)]

theorem advanceOffsetForArray_of_drop_eq_append {size numElements : Nat}
    (remaining : bytes.drop offset = pre ++ rest) (length : pre.length = numElements * size) :
    advanceOffsetForArray size bytes offset numElements = .ok (offset + pre.length) := by
  rw [advanceOffsetForArray, checkRemaining_of_drop_eq_append remaining length.ge, length]
  rfl

theorem advanceOffsetForType_of_drop_eq_append {size : Nat} (remaining : bytes.drop offset = pre ++ rest)
    (length : pre.length = size) : advanceOffsetForType size bytes offset = .ok (offset + pre.length) := by
  rw [advanceOffsetForType, checkRemaining_of_drop_eq_append remaining length.ge, length]
  rfl

theorem optimizedReadCompressedU16_of_drop_eq_append {n : Nat} (remaining : bytes.drop offset = serialize n ++ rest)
    (small : n < 2 ^ 14) : optimizedReadCompressedU16 bytes offset = .ok (n, offset + (serialize n).length) := by
  have starts : StartsWith (bytes.drop offset) n (serialize n).length := by
    rw [remaining]
    exact startsWith_append_iff.2 ⟨rfl, by omega⟩
  exact optimizedReadCompressedU16_eq_ok_iff.2 ⟨_, starts, small, rfl⟩

end Remaining

/-! ### The offset only moves forward -/

section Forward

variable {bytes : List UInt8} {offset offset' : Nat}

theorem offset_lt_of_readByte {byte : UInt8} (read : readByte bytes offset = .ok (byte, offset')) :
    offset < offset' := by
  rw [readByte] at read
  split at read
  · exact absurd read (by simp)
  · simp only [Except.ok.injEq, Prod.mk.injEq] at read
    omega

theorem offset_lt_of_optimizedReadCompressedU16 {n : Nat}
    (read : optimizedReadCompressedU16 bytes offset = .ok (n, offset')) : offset < offset' := by
  obtain ⟨k, starts, -, rfl⟩ := optimizedReadCompressedU16_eq_ok_iff.1 read
  have positive := one_le_length_serialize n
  rw [← starts.2.1] at positive
  omega

theorem offset_le_of_advanceOffsetForArray {size numElements : Nat}
    (advanced : advanceOffsetForArray size bytes offset numElements = .ok offset') : offset ≤ offset' := by
  rw [advanceOffsetForArray, checkRemaining] at advanced
  split_ifs at advanced
  · exact absurd advanced (by simp [bind, Except.bind])
  · simp only [bind, Except.bind, pure, Except.pure, Except.ok.injEq] at advanced
    omega

theorem offset_le_of_advanceOffsetForType {size : Nat}
    (advanced : advanceOffsetForType size bytes offset = .ok offset') : offset ≤ offset' := by
  rw [advanceOffsetForType, checkRemaining] at advanced
  split_ifs at advanced
  · exact absurd advanced (by simp [bind, Except.bind])
  · simp only [bind, Except.bind, pure, Except.pure, Except.ok.injEq] at advanced
    omega

end Forward

end TransactionView
