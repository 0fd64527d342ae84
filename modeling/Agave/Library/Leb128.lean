import Mathlib

/-! Unsigned LEB128: a number as its base-128 digits from the least significant, one byte each,
every byte but the last with its top bit set. `encode` writes the shortest such form. `parse` reads
a form from the front of a byte string and accepts only shortest forms: a byte past the first that
ends the form with the digit zero makes a longer form of a shorter one, and is refused.
`parse_eq_some_iff` says that it accepts exactly the strings that start with `encode n`.

Decoders of these forms test the top bit with `&&& 0x80`, take the digit with `&&& 0x7f` and place
it with `<<<`; the lemmas at the end turn those into arithmetic on digits. -/

namespace Leb128

/-- The shortest encoding of `n`. -/
def encode (n : Nat) : List Nat :=
  if n < 128 then [n] else (n % 128 + 128) :: encode (n / 128)
termination_by n
decreasing_by omega

theorem encode_of_lt {n : Nat} (small : n < 128) : encode n = [n] := by
  rw [encode, if_pos small]

theorem encode_of_le {n : Nat} (large : 128 ≤ n) : encode n = (n % 128 + 128) :: encode (n / 128) := by
  rw [encode, if_neg (by omega)]

theorem encode_ne_nil (n : Nat) : encode n ≠ [] := by
  rw [encode]
  split <;> simp

theorem lt_of_mem_encode {n byte : Nat} (mem : byte ∈ encode n) : byte < 256 := by
  induction n using Nat.strongRecOn with
  | ind n ih =>
    rcases Nat.lt_or_ge n 128 with small | large
    · rw [encode_of_lt small, List.mem_singleton] at mem
      omega
    · rw [encode_of_le large, List.mem_cons] at mem
      rcases mem with first | rest
      · omega
      · exact ih (n / 128) (by omega) rest

theorem length_encode_le_iff {n k : Nat} (positive : 0 < k) : (encode n).length ≤ k ↔ n < 128 ^ k := by
  induction k generalizing n with
  | zero => omega
  | succ k ih =>
    rcases Nat.lt_or_ge n 128 with small | large
    · rw [encode_of_lt small]
      have : 128 ≤ 128 ^ (k + 1) := Nat.le_self_pow (by omega) 128
      simp only [List.length_singleton]
      omega
    · rw [encode_of_le large, List.length_cons, Nat.pow_succ]
      rcases Nat.eq_zero_or_pos k with rfl | kPositive
      · have := (encode (n / 128)).length_pos_of_ne_nil (encode_ne_nil _)
        simp only [pow_zero, Nat.one_mul]
        omega
      · rw [Nat.add_le_add_iff_right, ih kPositive]
        omega

/-- The form read from the front of `bytes` and the number of its bytes; `continued` when a byte
before it had its top bit set. -/
def parse (continued : Bool) : List Nat → Option (Nat × Nat)
  | [] => none
  | byte :: rest =>
    if byte < 128 then
      if byte = 0 ∧ continued then none else some (byte, 1)
    else if byte < 256 then (parse true rest).map fun (m, k) => (byte - 128 + 128 * m, k + 1)
    else none

theorem parse_eq_some_iff {continued : Bool} {bytes : List Nat} {n k : Nat} :
    parse continued bytes = some (n, k) ↔
      (continued → 0 < n) ∧ k = (encode n).length ∧ encode n <+: bytes := by
  induction bytes generalizing continued n k with
  | nil =>
    simp only [parse, reduceCtorEq, false_iff, not_and, List.prefix_nil]
    exact fun _ _ => encode_ne_nil n
  | cons byte rest ih =>
    rcases Nat.lt_or_ge byte 128 with digit | continues
    · have last : encode n <+: byte :: rest ↔ n = byte := by
        constructor
        · intro isPrefix
          rcases Nat.lt_or_ge n 128 with small | large
          · rw [encode_of_lt small, List.singleton_prefix_cons_iff] at isPrefix
            exact isPrefix
          · rw [encode_of_le large, List.cons_prefix_cons] at isPrefix
            omega
        · rintro rfl
          rw [encode_of_lt digit]
          exact List.singleton_prefix_cons_iff.2 rfl
      rw [last]
      by_cases zero : byte = 0 ∧ continued = true
      · rw [parse, if_pos digit, if_pos zero]
        simp only [reduceCtorEq, false_iff, not_and]
        intro positive _ same
        have := positive zero.2
        omega
      · rw [parse, if_pos digit, if_neg zero, Option.some.injEq, Prod.mk.injEq]
        constructor
        · rintro ⟨rfl, rfl⟩
          refine ⟨fun isContinued => ?_, by rw [encode_of_lt digit]; rfl, rfl⟩
          by_contra notPositive
          exact zero ⟨by omega, isContinued⟩
        · rintro ⟨-, lengthEq, rfl⟩
          rw [encode_of_lt digit, List.length_singleton] at lengthEq
          exact ⟨rfl, lengthEq.symm⟩
    · rcases Nat.lt_or_ge byte 256 with isByte | tooLarge
      · have first : encode n <+: byte :: rest ↔
            128 ≤ n ∧ n % 128 + 128 = byte ∧ encode (n / 128) <+: rest := by
          rcases Nat.lt_or_ge n 128 with small | large
          · rw [encode_of_lt small, List.singleton_prefix_cons_iff]
            omega
          · rw [encode_of_le large, List.cons_prefix_cons]
            simp only [large, true_and]
        rw [first, parse, if_neg (Nat.not_lt.2 continues), if_pos isByte]
        simp only [Option.map_eq_some_iff, Prod.exists, Prod.mk.injEq]
        constructor
        · rintro ⟨m, k', parsed, rfl, rfl⟩
          obtain ⟨positive, rfl, isPrefix⟩ := ih.1 parsed
          have mPositive := positive rfl
          have high : (byte - 128 + 128 * m) / 128 = m := by omega
          refine ⟨fun _ => by omega, ?_, by omega, by omega, by rw [high]; exact isPrefix⟩
          rw [encode_of_le (show 128 ≤ byte - 128 + 128 * m by omega), List.length_cons, high]
        · rintro ⟨-, lengthEq, large, rfl, isPrefix⟩
          have tail := (encode (n / 128)).length_pos_of_ne_nil (encode_ne_nil _)
          rw [encode_of_le large, List.length_cons] at lengthEq
          refine ⟨n / 128, k - 1, ih.2 ⟨fun _ => by omega, by omega, isPrefix⟩, by omega, by omega⟩
      · rw [parse, if_neg (Nat.not_lt.2 continues), if_neg (Nat.not_lt.2 tooLarge)]
        simp only [reduceCtorEq, false_iff, not_and]
        intro _ _ isPrefix
        obtain ⟨byte', rest', encoded⟩ := List.exists_cons_of_ne_nil (encode_ne_nil n)
        have bound := lt_of_mem_encode (encoded ▸ List.mem_cons_self : byte' ∈ encode n)
        rw [encoded, List.cons_prefix_cons] at isPrefix
        omega

theorem parse_cons_of_lt {continued : Bool} {byte : Nat} {rest : List Nat} {n k : Nat} (digit : byte < 128) :
    parse continued (byte :: rest) = some (n, k) ↔ ¬(byte = 0 ∧ continued = true) ∧ n = byte ∧ k = 1 := by
  rw [parse, if_pos digit]
  split_ifs with zero
  · simp only [false_iff, not_and]
    exact fun refused => absurd zero.2 (refused zero.1)
  · simp only [Option.some.injEq, Prod.mk.injEq, zero, not_false_eq_true, true_and]
    constructor
    · rintro ⟨rfl, rfl⟩
      exact ⟨rfl, rfl⟩
    · rintro ⟨rfl, rfl⟩
      exact ⟨rfl, rfl⟩

theorem parse_cons_of_le {continued : Bool} {byte : Nat} {rest : List Nat} {n k : Nat} (continues : 128 ≤ byte)
    (isByte : byte < 256) :
    parse continued (byte :: rest) = some (n, k) ↔
      ∃ m k', parse true rest = some (m, k') ∧ n = byte - 128 + 128 * m ∧ k = k' + 1 := by
  rw [parse, if_neg (Nat.not_lt.2 continues), if_pos isByte]
  simp only [Option.map_eq_some_iff, Prod.exists, Prod.mk.injEq]
  constructor
  · rintro ⟨m, k', parsed, first, second⟩
    exact ⟨m, k', parsed, first.symm, second.symm⟩
  · rintro ⟨m, k', parsed, first, second⟩
    exact ⟨m, k', parsed, first.symm, second.symm⟩

theorem parse_cons_weighted {continued : Bool} {byte : Nat} {rest : List Nat} {val shift n k : Nat} (isByte : byte < 256) :
    (∃ m, parse continued (byte :: rest) = some (m, k) ∧ n = val + m * 2 ^ shift) ↔
      (byte < 128 ∧ ¬(byte = 0 ∧ continued = true) ∧ n = val + byte * 2 ^ shift ∧ k = 1) ∨
        (128 ≤ byte ∧ ∃ m k', parse true rest = some (m, k') ∧
          n = val + byte % 128 * 2 ^ shift + m * 2 ^ (shift + 7) ∧ k = k' + 1) := by
  rcases Nat.lt_or_ge byte 128 with digit | continues
  · simp only [parse_cons_of_lt digit, Nat.not_le.2 digit, false_and, or_false]
    constructor
    · rintro ⟨m, ⟨refused, rfl, rfl⟩, rfl⟩
      exact ⟨digit, refused, rfl, rfl⟩
    · rintro ⟨-, refused, rfl, rfl⟩
      exact ⟨byte, ⟨refused, rfl, rfl⟩, rfl⟩
  · simp only [parse_cons_of_le continues isByte, Nat.not_lt.2 continues, false_and, false_or, continues, true_and]
    have digitEq : byte % 128 = byte - 128 := by omega
    constructor
    · rintro ⟨m, ⟨m', k', parsed, rfl, rfl⟩, rfl⟩
      refine ⟨m', k', parsed, ?_, rfl⟩
      rw [digitEq, pow_add]
      ring
    · rintro ⟨m', k', parsed, rfl, rfl⟩
      refine ⟨byte - 128 + 128 * m', ⟨m', k', parsed, rfl, rfl⟩, ?_⟩
      rw [digitEq, pow_add]
      ring

theorem pos_of_parse_true {bytes : List Nat} {n k : Nat} (parsed : parse true bytes = some (n, k)) : 0 < n :=
  (parse_eq_some_iff.1 parsed).1 rfl

theorem lt_of_parse {continued : Bool} {bytes : List Nat} {n k : Nat} (parsed : parse continued bytes = some (n, k)) :
    n < 128 ^ k := by
  obtain ⟨-, lengthEq, -⟩ := parse_eq_some_iff.1 parsed
  have positive := (encode n).length_pos_of_ne_nil (encode_ne_nil n)
  exact (length_encode_le_iff (by omega)).1 lengthEq.symm.le

theorem pow_le_of_parse_true {bytes : List Nat} {n k : Nat} (parsed : parse true bytes = some (n, k)) :
    128 ^ (k - 1) ≤ n := by
  obtain ⟨positive, lengthEq, -⟩ := parse_eq_some_iff.1 parsed
  rcases Nat.lt_or_ge k 2 with one | longer
  · have : k - 1 = 0 := by omega
    rw [this, pow_zero]
    exact positive rfl
  · by_contra small
    have shorter := (length_encode_le_iff (by omega)).2 (Nat.lt_of_not_le small)
    omega

/-! ### Reading from a given weight on

A decoder that has read the digits below `2 ^ shift`, of value `val`, and goes on with the rest of
the bytes: `Reads` says what it must accept, and `reads_cons_iff` is the step of an induction on the
bytes it reads. -/

/-- The form read from weight `2 ^ shift` on, above the value `val` of the digits before it, makes
a value `n` below `bound` in `count` bytes. -/
def Reads (bound : Nat) (bytes : List Nat) (shift val n count : Nat) : Prop :=
  ∃ m, parse (shift != 0) bytes = some (m, count) ∧ n = val + m * 2 ^ shift ∧ n < bound

theorem not_reads_nil {bound shift val n count : Nat} : ¬Reads bound [] shift val n count := by
  rintro ⟨m, parsed, -⟩
  cases parsed

theorem reads_zero_iff {bound : Nat} {bytes : List Nat} {n count : Nat} :
    Reads bound bytes 0 0 n count ↔ parse false bytes = some (n, count) ∧ n < bound := by
  simp only [Reads, bne_self_eq_false, pow_zero, Nat.mul_one, Nat.zero_add]
  constructor
  · rintro ⟨m, parsed, rfl, small⟩
    exact ⟨parsed, small⟩
  · rintro ⟨parsed, small⟩
    exact ⟨n, parsed, rfl, small⟩

theorem le_of_reads {bound : Nat} {bytes : List Nat} {shift val n count : Nat} (later : 0 < shift)
    (reads : Reads bound bytes shift val n count) : val + 2 ^ shift ≤ n := by
  obtain ⟨m, parsed, rfl, -⟩ := reads
  have continued : (shift != 0) = true := by simp only [bne_iff_ne]; omega
  rw [continued] at parsed
  have := Nat.le_mul_of_pos_left (2 ^ shift) (pos_of_parse_true parsed)
  omega

theorem lt_of_reads {bound : Nat} {bytes : List Nat} {shift val n count : Nat}
    (reads : Reads bound bytes shift val n count) : n < bound := by
  obtain ⟨-, -, -, small⟩ := reads
  exact small

theorem reads_cons_iff {bound byte : Nat} {rest : List Nat} {shift val n count : Nat} (isByte : byte < 256) :
    Reads bound (byte :: rest) shift val n count ↔
      (byte < 128 ∧ ¬(byte = 0 ∧ shift ≠ 0) ∧ n = val + byte * 2 ^ shift ∧ n < bound ∧ count = 1) ∨
        (128 ≤ byte ∧ ∃ count', Reads bound rest (shift + 7) (val + byte % 128 * 2 ^ shift) n count' ∧
          count = count' + 1) := by
  have continued : (shift + 7 != 0) = true := by simp
  have refusedIff : (byte = 0 ∧ (shift != 0) = true) ↔ (byte = 0 ∧ shift ≠ 0) := by rw [bne_iff_ne]
  simp only [Reads, continued]
  constructor
  · rintro ⟨m, parsed, sum, small⟩
    rcases (parse_cons_weighted isByte).1 ⟨m, parsed, sum⟩ with
      ⟨digit, refused, sum', rfl⟩ | ⟨continues, m', k', parsed', sum', rfl⟩
    · exact .inl ⟨digit, refusedIff.not.1 refused, sum', small, rfl⟩
    · exact .inr ⟨continues, k', ⟨m', parsed', sum', small⟩, rfl⟩
  · rintro (⟨digit, refused, sum, small, rfl⟩ | ⟨continues, count', ⟨m', parsed', sum, small⟩, rfl⟩)
    · obtain ⟨m, parsed, sum'⟩ :=
        (parse_cons_weighted isByte).2 (.inl ⟨digit, refusedIff.not.2 refused, sum, rfl⟩)
      exact ⟨m, parsed, sum', small⟩
    · obtain ⟨m, parsed, sum'⟩ := (parse_cons_weighted isByte).2 (.inr ⟨continues, m', count', parsed', sum, rfl⟩)
      exact ⟨m, parsed, sum', small⟩

theorem length_encode (n : Nat) : (encode n).length = max ((n.size + 6) / 7) 1 := by
  have positive := (encode n).length_pos_of_ne_nil (encode_ne_nil n)
  have least : ∀ k, 0 < k → ((encode n).length ≤ k ↔ max ((n.size + 6) / 7) 1 ≤ k) := by
    intro k kPositive
    rw [length_encode_le_iff kPositive, show (128 : Nat) ^ k = 2 ^ (7 * k) by rw [pow_mul]; norm_num,
      ← Nat.size_le]
    omega
  have below := (least _ positive).1 le_rfl
  have above := (least (max ((n.size + 6) / 7) 1) (by omega)).2 le_rfl
  omega

/-! ### Bit operations on digits -/

theorem and_0x7f (x : Nat) : x &&& 0x7f = x % 128 :=
  Nat.and_two_pow_sub_one_eq_mod x 7

theorem and_0x80_eq_zero_iff {x : Nat} (byte : x < 256) : x &&& 0x80 = 0 ↔ x < 128 :=
  (by decide +kernel : ∀ x : Fin 256, (x.val &&& 0x80 = 0 ↔ x.val < 128)) ⟨x, byte⟩

theorem or_0x80 {x : Nat} (digit : x < 128) : x ||| 0x80 = x + 128 := by
  rw [Nat.or_comm, show (0x80 : Nat) = 1 <<< 7 from rfl, ← Nat.shiftLeft_add_eq_or_of_lt (by omega)]
  omega

theorem add_digit_lt {val digit shift : Nat} (below : val < 2 ^ shift) (small : digit < 128) :
    val + digit * 2 ^ shift < 2 ^ (shift + 7) := by
  have : digit * 2 ^ shift ≤ 127 * 2 ^ shift := Nat.mul_le_mul_right _ (by omega)
  rw [pow_add]
  omega

theorem or_shiftLeft_eq_add {acc digit shift : Nat} (below : acc < 2 ^ shift) :
    acc ||| digit <<< shift = acc + digit * 2 ^ shift := by
  rw [Nat.or_comm, ← Nat.shiftLeft_add_eq_or_of_lt below, Nat.shiftLeft_eq]
  omega

end Leb128
