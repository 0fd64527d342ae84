import Mathlib
import Agave.Library.ByteDecoder
import Agave.Library.Leb128
import Agave.Library.MachineInt

/-! `solana_short_vec` (`sdk/short-vec/src/lib.rs`): `ShortU16`, a `u16` in one to three bytes of
seven bits each, lowest first, and the vectors whose length it prefixes. The serializer writes the
shortest LEB128 form (`serialize_eq`). The two decoders, the serde visitor that `bincode` drives and
`decode_shortu16_len`, both go through `visit_byte`, which refuses a zero byte past the first, a
third byte that continues, and values past `u16::MAX`; each accepts exactly the byte strings that
start with a serialization (`visitSeq_run_eq_ok_iff`, `decodeShortU16Len_eq_ok_iff`). -/

namespace ShortVec

open ByteDecoder MachineInt Leb128

/-- `ShortU16::serialize`: the low seven bits of what is left, with the top bit set while more
follows. -/
def serialize (value : Nat) : List UInt8 := go value
where
  go (remVal : Nat) : List UInt8 :=
    let elem := remVal &&& 0x7f
    if remVal >>> 7 = 0 then [elem.toUInt8]
    else (elem ||| 0x80).toUInt8 :: go (remVal >>> 7)
  termination_by remVal
  decreasing_by
    rw [Nat.shiftRight_eq_div_pow] at *
    omega

theorem serialize_eq (value : Nat) : serialize value = (encode value).map Nat.toUInt8 := by
  unfold serialize
  induction value using Nat.strongRecOn with
  | ind value ih =>
    rw [serialize.go, Nat.shiftRight_eq_div_pow, and_0x7f]
    rcases Nat.lt_or_ge value 128 with small | large
    · rw [if_pos (by omega), encode_of_lt small, Nat.mod_eq_of_lt small]
      rfl
    · rw [if_neg (by omega), encode_of_le large, or_0x80 (Nat.mod_lt _ (by omega)), List.map_cons,
        ← Nat.shiftRight_eq_div_pow, ih _ (by rw [Nat.shiftRight_eq_div_pow]; omega),
        Nat.shiftRight_eq_div_pow]

theorem toNat_serialize (value : Nat) : (serialize value).map UInt8.toNat = encode value := by
  rw [serialize_eq, List.map_map]
  conv => rhs; rw [← List.map_id (encode value)]
  refine List.map_congr_left fun byte mem => ?_
  simp only [Function.comp_apply, Nat.toUInt8_eq, UInt8.toNat_ofNat', id_eq]
  exact Nat.mod_eq_of_lt (lt_of_mem_encode mem)

theorem serialize_prefix_iff (value : Nat) (bytes : List UInt8) :
    serialize value <+: bytes ↔ encode value <+: bytes.map UInt8.toNat := by
  constructor
  · intro isPrefix
    rw [← toNat_serialize]
    exact isPrefix.map _
  · intro isPrefix
    have back := isPrefix.map Nat.toUInt8
    rw [List.map_map] at back
    have roundTrip : (Nat.toUInt8 ∘ UInt8.toNat) = id := funext fun byte => by simp
    rw [roundTrip, List.map_id, ← serialize_eq] at back
    exact back

theorem length_serialize (value : Nat) : (serialize value).length = (encode value).length := by
  rw [serialize_eq, List.length_map]

/-- `VisitStatus`. -/
inductive VisitStatus where
  | done (value : Nat)
  | more (value : Nat)
  deriving DecidableEq, Repr

/-- `VisitError`. -/
inductive VisitError where
  | tooLong (len : Nat)
  | tooShort (len : Nat)
  | overflow (value : Nat)
  | alias
  | byteThreeContinues
  deriving DecidableEq, Repr

/-- `MAX_ENCODING_LENGTH`. -/
def maxEncodingLength : Nat := 3

/-- `visit_byte`: one byte into the value read so far, in `u32` arithmetic. -/
def visitByte (elem : UInt8) (val nthByte : Nat) : Except VisitError VisitStatus :=
  if elem = 0 ∧ nthByte ≠ 0 then .error .alias
  else
    let elemVal := elem.toNat &&& 0x7f
    let elemDone := elem.toNat &&& 0x80 = 0
    if nthByte ≥ maxEncodingLength then .error (.tooLong (nthByte + 1))
    else if nthByte = maxEncodingLength - 1 ∧ ¬elemDone then .error .byteThreeContinues
    else
      -- `u32::try_from(nth_byte).unwrap_or(u32::MAX).saturating_mul(7)`, then `checked_shl`
      let shift := saturatingMul 32 (min nthByte (maxValue 32)) 7
      let elemVal := if shift < 32 then (elemVal <<< shift) % 2 ^ 32 else maxValue 32
      let newVal := val ||| elemVal
      if newVal > 0xffff then .error (.overflow newVal)
      else if elemDone then .ok (.done newVal) else .ok (.more newVal)

theorem visitByte_of_lt {elem : UInt8} {val nthByte : Nat} (early : nthByte < 3) (below : val < 2 ^ (7 * nthByte)) :
    visitByte elem val nthByte =
      if elem.toNat = 0 ∧ nthByte ≠ 0 then .error .alias
      else if nthByte = 2 ∧ 128 ≤ elem.toNat then .error .byteThreeContinues
      else if val + elem.toNat % 128 * 2 ^ (7 * nthByte) > 0xffff then
        .error (.overflow (val + elem.toNat % 128 * 2 ^ (7 * nthByte)))
      else if elem.toNat < 128 then .ok (.done (val + elem.toNat % 128 * 2 ^ (7 * nthByte)))
      else .ok (.more (val + elem.toNat % 128 * 2 ^ (7 * nthByte))) := by
  have isByte := elem.toNat_lt_size
  have zeroIff : elem = 0 ↔ elem.toNat = 0 := by
    rw [← UInt8.toNat_inj]
    rfl
  have doneIff := and_0x80_eq_zero_iff isByte
  have shiftEq : saturatingMul 32 (min nthByte (maxValue 32)) 7 = 7 * nthByte := by
    unfold saturatingMul maxValue
    omega
  have digitLt : elem.toNat % 128 * 2 ^ (7 * nthByte) < 2 ^ 32 := by
    have : 2 ^ (7 * nthByte) ≤ 2 ^ 14 := Nat.pow_le_pow_right (by omega) (by omega)
    have : elem.toNat % 128 < 128 := Nat.mod_lt _ (by omega)
    calc elem.toNat % 128 * 2 ^ (7 * nthByte) < 128 * 2 ^ 14 := by
          apply Nat.mul_lt_mul_of_lt_of_le <;> omega
      _ ≤ 2 ^ 32 := by decide
  have newValEq : val ||| (elem.toNat &&& 0x7f) <<< (7 * nthByte) % 2 ^ 32 = val + elem.toNat % 128 * 2 ^ (7 * nthByte) := by
    rw [and_0x7f, Nat.mod_eq_of_lt (by rwa [Nat.shiftLeft_eq]), or_shiftLeft_eq_add below]
  unfold visitByte
  simp only [zeroIff, doneIff, shiftEq, maxEncodingLength, show ¬nthByte ≥ 3 by omega, if_false,
    show 7 * nthByte < 32 by omega, if_true, newValEq, Nat.reduceSub, Nat.not_lt]

/-- The errors of the visitor under `bincode`: the end of the input, and the visitor's own. -/
inductive DecodeError where
  | unexpectedEof
  | visit (error : VisitError)
  deriving DecidableEq, Repr

/-- `seq.next_element::<u8>()` of bincode's tuple access: the next byte, which must be there. -/
def nextElement : Decoder DecodeError UInt8 := nextByte .unexpectedEof

/-- `ShortU16Visitor::visit_seq` under `deserialize_tuple(3, ..)`, as `bincode::deserialize`
drives it: the tuple holds as many elements as the loop reads. -/
def visitSeq : Decoder DecodeError Nat := go 0 0
where
  go (nthByte val : Nat) : Decoder DecodeError Nat :=
    if nthByte < maxEncodingLength then do
      let elem ← nextElement
      match visitByte elem val nthByte with
      | .error error => throw (.visit error)
      | .ok (.done newVal) => pure newVal
      | .ok (.more newVal) => go (nthByte + 1) newVal
    else throw (.visit .byteThreeContinues)
  termination_by maxEncodingLength - nthByte

/-- `decode_shortu16_len`: the value and the number of bytes it took. -/
def decodeShortU16Len (bytes : List UInt8) : Except Unit (Nat × Nat) :=
  go (bytes.take maxEncodingLength) 0 0
where
  go : List UInt8 → Nat → Nat → Except Unit (Nat × Nat)
  | [], _, _ => .error ()
  | byte :: rest, nthByte, val =>
    match visitByte byte val nthByte with
    | .error _ => .error ()
    | .ok (.more newVal) => go rest (nthByte + 1) newVal
    | .ok (.done newVal) => .ok (newVal, nthByte + 1)

/-- `bytes` starts with the serialization of the `u16` `n`, of `k` bytes. -/
def StartsWith (bytes : List UInt8) (n k : Nat) : Prop :=
  n < 2 ^ 16 ∧ k = (serialize n).length ∧ serialize n <+: bytes

theorem startsWith_iff_parse {bytes : List UInt8} {n k : Nat} :
    StartsWith bytes n k ↔ parse false (bytes.map UInt8.toNat) = some (n, k) ∧ n < 2 ^ 16 := by
  rw [StartsWith, parse_eq_some_iff, serialize_prefix_iff, length_serialize]
  simp only [Bool.false_eq_true, false_implies, true_and]
  constructor
  · rintro ⟨small, lengthEq, isPrefix⟩
    exact ⟨⟨lengthEq, isPrefix⟩, small⟩
  · rintro ⟨⟨lengthEq, isPrefix⟩, small⟩
    exact ⟨small, lengthEq, isPrefix⟩

@[simp] theorem nextElement_nil : nextElement.run ([] : List UInt8) = .error .unexpectedEof := rfl

@[simp] theorem nextElement_cons (byte : UInt8) (rest : List UInt8) :
    nextElement.run (byte :: rest) = .ok (byte, rest) := rfl

theorem visitSeq_go_nil {nthByte val : Nat} : ∀ n rest, (visitSeq.go nthByte val).run [] ≠ .ok (n, rest) := by
  intro n rest
  rw [visitSeq.go]
  split
  · rw [StateT.run_bind, nextElement_nil, error_bind]
    exact fun stuck => nomatch stuck
  · exact fun stuck => nomatch stuck

theorem visitSeq_go_cons {nthByte val : Nat} (early : nthByte < maxEncodingLength) (elem : UInt8) (rest : List UInt8) :
    (visitSeq.go nthByte val).run (elem :: rest) =
      match visitByte elem val nthByte with
      | .error error => .error (.visit error)
      | .ok (.done newVal) => .ok (newVal, rest)
      | .ok (.more newVal) => (visitSeq.go (nthByte + 1) newVal).run rest := by
  rw [visitSeq.go, if_pos early, StateT.run_bind, nextElement_cons, ok_bind]
  cases visitByte elem val nthByte with
  | error error => rfl
  | ok status => cases status <;> rfl

/-! ### What `visit_byte` accepts at each position -/

theorem visitByte_eq_done_iff {elem : UInt8} {val nthByte n : Nat} (early : nthByte < 3) (below : val < 2 ^ (7 * nthByte)) :
    visitByte elem val nthByte = .ok (.done n) ↔
      elem.toNat < 128 ∧ ¬(elem.toNat = 0 ∧ nthByte ≠ 0) ∧ n = val + elem.toNat % 128 * 2 ^ (7 * nthByte) ∧
        n < 2 ^ 16 := by
  rw [visitByte_of_lt early below]
  split_ifs <;> simp only [reduceCtorEq, false_iff, Except.ok.injEq, VisitStatus.done.injEq] <;> omega

theorem visitByte_eq_more_iff {elem : UInt8} {val nthByte n : Nat} (early : nthByte < 3) (below : val < 2 ^ (7 * nthByte)) :
    visitByte elem val nthByte = .ok (.more n) ↔
      128 ≤ elem.toNat ∧ nthByte + 1 < 3 ∧ n = val + elem.toNat % 128 * 2 ^ (7 * nthByte) ∧ n < 2 ^ 16 := by
  rw [visitByte_of_lt early below]
  split_ifs <;> simp only [reduceCtorEq, false_iff, Except.ok.injEq, VisitStatus.more.injEq] <;> omega

/-- The bytes from position `nthByte` on finish the `u16` `n` over the value `val` of the bytes
before, in `count` bytes. -/
def Finishes (bytes : List UInt8) (nthByte val n count : Nat) : Prop :=
  Reads (2 ^ 16) (bytes.map UInt8.toNat) (7 * nthByte) val n count

theorem not_finishes_nil {nthByte val n count : Nat} : ¬Finishes [] nthByte val n count :=
  not_reads_nil

theorem le_of_finishes {bytes : List UInt8} {nthByte val n count : Nat} (later : 0 < nthByte)
    (finishes : Finishes bytes nthByte val n count) : val + 2 ^ (7 * nthByte) ≤ n :=
  le_of_reads (by omega) finishes

theorem finishes_zero_iff {bytes : List UInt8} {n k : Nat} : Finishes bytes 0 0 n k ↔ StartsWith bytes n k := by
  rw [startsWith_iff_parse, Finishes, Nat.mul_zero, reads_zero_iff]

theorem finishes_cons_iff {elem : UInt8} {rest : List UInt8} {nthByte val n count : Nat} (early : nthByte < 3)
    (below : val < 2 ^ (7 * nthByte)) :
    Finishes (elem :: rest) nthByte val n count ↔
      (visitByte elem val nthByte = .ok (.done n) ∧ count = 1) ∨
        ∃ newVal count', visitByte elem val nthByte = .ok (.more newVal) ∧ Finishes rest (nthByte + 1) newVal n count' ∧
          count = count' + 1 := by
  have isByte : elem.toNat < 256 := elem.toNat_lt_size
  simp only [Finishes, List.map_cons, reads_cons_iff isByte, visitByte_eq_done_iff early below,
    visitByte_eq_more_iff early below, Nat.mul_add, Nat.mul_one]
  constructor
  · rintro (⟨digit, refused, sum, small, rfl⟩ | ⟨continues, count', reads, rfl⟩)
    · exact .inl ⟨⟨digit, by omega, by rw [Nat.mod_eq_of_lt digit]; exact sum, small⟩, rfl⟩
    · have small := lt_of_reads reads
      have higher := le_of_reads (by omega) reads
      have weight := Nat.two_pow_pos (7 * nthByte + 7)
      have room : nthByte + 1 < 3 := by
        by_contra third
        have : 2 ^ 16 ≤ 2 ^ (7 * nthByte + 7) := Nat.pow_le_pow_right (by omega) (by omega)
        omega
      exact .inr ⟨_, count', ⟨continues, room, rfl, by omega⟩, reads, rfl⟩
  · rintro (⟨⟨digit, refused, rfl, small⟩, rfl⟩ | ⟨newVal, count', ⟨continues, -, rfl, -⟩, reads, rfl⟩)
    · exact .inl ⟨digit, by omega, by rw [Nat.mod_eq_of_lt digit], small, rfl⟩
    · exact .inr ⟨continues, count', reads, rfl⟩

/-! ### The two decoders of `solana_short_vec` -/

theorem visitSeq_go_run_eq_ok_iff {bytes rest : List UInt8} {n : Nat} :
    ∀ {nthByte val : Nat}, nthByte < 3 → val < 2 ^ (7 * nthByte) →
      ((visitSeq.go nthByte val).run bytes = .ok (n, rest) ↔ ∃ count, Finishes bytes nthByte val n count ∧ rest = bytes.drop count) := by
  induction bytes with
  | nil =>
    intro nthByte val _ _
    simp only [not_finishes_nil, false_and, exists_false, iff_false]
    exact visitSeq_go_nil n rest
  | cons elem tail ih =>
    intro nthByte val early below
    simp only [finishes_cons_iff early below]
    rw [visitSeq_go_cons early]
    rcases status : visitByte elem val nthByte with error | ⟨newVal⟩ | ⟨newVal⟩
    · simp
    · simp only [Except.ok.injEq, Prod.mk.injEq, VisitStatus.done.injEq, reduceCtorEq, false_and, exists_false, or_false]
      constructor
      · rintro ⟨rfl, rfl⟩
        exact ⟨1, ⟨rfl, rfl⟩, rfl⟩
      · rintro ⟨count, ⟨rfl, rfl⟩, rfl⟩
        exact ⟨rfl, rfl⟩
    · obtain ⟨continues, room, sum, -⟩ := (visitByte_eq_more_iff early below).1 status
      rw [ih room (Nat.mul_add_one 7 nthByte ▸ sum ▸ add_digit_lt below (Nat.mod_lt _ (by omega)))]
      simp only [reduceCtorEq, false_and, VisitStatus.more.injEq, Except.ok.injEq, false_or]
      constructor
      · rintro ⟨count, finishes, rfl⟩
        exact ⟨count + 1, ⟨newVal, count, rfl, finishes, rfl⟩, rfl⟩
      · rintro ⟨_, ⟨_, count, rfl, finishes, rfl⟩, rfl⟩
        exact ⟨count, finishes, rfl⟩

theorem visitSeq_run_eq_ok_iff {bytes rest : List UInt8} {n : Nat} :
    visitSeq.run bytes = .ok (n, rest) ↔ ∃ k, StartsWith bytes n k ∧ rest = bytes.drop k := by
  simp only [visitSeq, visitSeq_go_run_eq_ok_iff (by decide : 0 < 3) (by decide : 0 < 2 ^ (7 * 0)), finishes_zero_iff]

theorem decodeShortU16Len_go_cons {elem : UInt8} {rest : List UInt8} {nthByte val : Nat} :
    decodeShortU16Len.go (elem :: rest) nthByte val =
      match visitByte elem val nthByte with
      | .error _ => .error ()
      | .ok (.more newVal) => decodeShortU16Len.go rest (nthByte + 1) newVal
      | .ok (.done newVal) => .ok (newVal, nthByte + 1) := rfl

theorem decodeShortU16Len_go_eq_ok_iff {bytes : List UInt8} {n count : Nat} :
    ∀ {nthByte val : Nat}, nthByte < 3 → val < 2 ^ (7 * nthByte) →
      (decodeShortU16Len.go bytes nthByte val = .ok (n, count) ↔ ∃ k, Finishes bytes nthByte val n k ∧ count = nthByte + k) := by
  induction bytes with
  | nil =>
    intro nthByte val _ _
    simp only [not_finishes_nil, false_and, exists_false, iff_false]
    exact fun stuck => nomatch stuck
  | cons elem tail ih =>
    intro nthByte val early below
    simp only [finishes_cons_iff early below]
    rw [decodeShortU16Len_go_cons]
    rcases status : visitByte elem val nthByte with error | ⟨newVal⟩ | ⟨newVal⟩
    · simp
    · simp only [Except.ok.injEq, Prod.mk.injEq, VisitStatus.done.injEq, reduceCtorEq, false_and, exists_false, or_false]
      constructor
      · rintro ⟨rfl, rfl⟩
        exact ⟨1, ⟨rfl, rfl⟩, rfl⟩
      · rintro ⟨k, ⟨rfl, rfl⟩, rfl⟩
        exact ⟨rfl, rfl⟩
    · obtain ⟨continues, room, sum, -⟩ := (visitByte_eq_more_iff early below).1 status
      rw [ih room (Nat.mul_add_one 7 nthByte ▸ sum ▸ add_digit_lt below (Nat.mod_lt _ (by omega)))]
      simp only [reduceCtorEq, false_and, VisitStatus.more.injEq, Except.ok.injEq, false_or]
      constructor
      · rintro ⟨k, finishes, rfl⟩
        exact ⟨k + 1, ⟨newVal, k, rfl, finishes, rfl⟩, by omega⟩
      · rintro ⟨_, ⟨_, k, rfl, finishes, rfl⟩, rfl⟩
        exact ⟨k, finishes, by omega⟩

theorem length_serialize_le {n : Nat} (small : n < 2 ^ 16) : (serialize n).length ≤ 3 := by
  rw [length_serialize, length_encode_le_iff (by decide)]
  omega

theorem one_le_length_serialize (n : Nat) : 1 ≤ (serialize n).length := by
  rw [length_serialize]
  exact (encode n).length_pos_of_ne_nil (encode_ne_nil n)

theorem startsWith_take_iff {bytes : List UInt8} {n k : Nat} :
    StartsWith (bytes.take maxEncodingLength) n k ↔ StartsWith bytes n k := by
  unfold StartsWith
  constructor
  · rintro ⟨small, rfl, isPrefix⟩
    exact ⟨small, rfl, (List.prefix_take_iff.1 isPrefix).1⟩
  · rintro ⟨small, rfl, isPrefix⟩
    exact ⟨small, rfl, List.prefix_take_iff.2 ⟨isPrefix, length_serialize_le small⟩⟩

theorem decodeShortU16Len_eq_ok_iff {bytes : List UInt8} {n k : Nat} :
    decodeShortU16Len bytes = .ok (n, k) ↔ StartsWith bytes n k := by
  rw [decodeShortU16Len, decodeShortU16Len_go_eq_ok_iff (by decide) (by decide)]
  simp only [finishes_zero_iff, startsWith_take_iff, Nat.zero_add, exists_eq_right']

/-! ### Accepting a given prefix -/

theorem startsWith_append_iff {pre rest : List UInt8} {n : Nat} :
    StartsWith (pre ++ rest) n pre.length ↔ pre = serialize n ∧ n < 2 ^ 16 := by
  unfold StartsWith
  constructor
  · rintro ⟨small, lengthEq, isPrefix⟩
    rw [List.prefix_iff_eq_take, ← lengthEq, List.take_left] at isPrefix
    exact ⟨isPrefix.symm, small⟩
  · rintro ⟨rfl, small⟩
    exact ⟨small, rfl, List.prefix_append _ _⟩

theorem visitSeq_run_append_iff {pre rest : List UInt8} {n : Nat} :
    visitSeq.run (pre ++ rest) = .ok (n, rest) ↔ pre = serialize n ∧ n < 2 ^ 16 := by
  rw [visitSeq_run_eq_ok_iff, ← startsWith_append_iff]
  constructor
  · rintro ⟨k, starts, remaining⟩
    have within : k ≤ (pre ++ rest).length := by
      rw [starts.2.1]
      exact starts.2.2.length_le
    have lengths := congrArg List.length remaining
    rw [List.length_drop, List.length_append] at lengths
    rw [List.length_append] at within
    rwa [show k = pre.length by omega] at starts
  · intro starts
    exact ⟨pre.length, starts, (List.drop_left ..).symm⟩

theorem decodeShortU16Len_append_iff {pre rest : List UInt8} {n : Nat} :
    decodeShortU16Len (pre ++ rest) = .ok (n, pre.length) ↔ pre = serialize n ∧ n < 2 ^ 16 := by
  rw [decodeShortU16Len_eq_ok_iff, startsWith_append_iff]

/-! ### Vectors prefixed by their length -/

/-- `short_vec::serialize`: the length as a `ShortU16`, then the elements; more than `u16::MAX`
elements fail. -/
def serializeVec {α : Type} (serializeElement : α → List UInt8) (elements : List α) :
    Except String (List UInt8) :=
  if elements.length > 65535 then .error "length larger than u16"
  else .ok (serialize elements.length ++ elements.flatMap serializeElement)

/-- `short_vec::deserialize`, as `bincode` drives its visitor: the `ShortU16` length, then that many
elements. -/
def deserializeVec {ε α : Type} (lift : DecodeError → ε) (element : Decoder ε α) : Decoder ε (List α) := do
  let len ← mapError lift visitSeq
  replicateM element len

theorem serializeVec_eq_ok_iff {α : Type} {serializeElement : α → List UInt8} {elements : List α}
    {bytes : List UInt8} :
    serializeVec serializeElement elements = .ok bytes ↔
      elements.length ≤ 65535 ∧ bytes = serialize elements.length ++ elements.flatMap serializeElement := by
  unfold serializeVec
  split_ifs with long
  · exact iff_of_false (fun failed => nomatch failed) (fun ⟨short, _⟩ => absurd short (by omega))
  · constructor
    · intro written
      cases written
      exact ⟨by omega, rfl⟩
    · rintro ⟨_, rfl⟩
      rfl

theorem inverts_deserializeVec {ε α : Type} (lift : DecodeError → ε) {element : Decoder ε α}
    {encode : α → List UInt8} {valid : α → Prop} (inverts : Inverts element encode valid) :
    Inverts (deserializeVec lift element) (fun elements => serialize elements.length ++ elements.flatMap encode)
      (fun elements => elements.length ≤ 65535 ∧ ∀ a ∈ elements, valid a) := by
  intro elements ⟨short, fits⟩ rest
  have len : visitSeq.run (serialize elements.length ++ (elements.flatMap encode ++ rest)) =
      .ok (elements.length, elements.flatMap encode ++ rest) := visitSeq_run_append_iff.2 ⟨rfl, by omega⟩
  rw [deserializeVec, List.append_assoc, run_bind_of_ok (run_mapError_of_ok lift len)]
  exact Inverts.replicateM inverts _ elements ⟨rfl, fits⟩ rest

end ShortVec
