import Mathlib
import Agave.Library.ByteDecoder

/-! The reference decoder of `bincode::deserialize` with its default options, as serde's derived
`Deserialize` implementations drive it: fixed-width little-endian integers, `u64` lengths, one-byte
`Option` and `bool` tags, `u32` enum variant indices, the fields of a struct and the elements of a
tuple or an array one after the other, and bytes after the value left unread. -/

namespace Bincode

open ByteDecoder

/-- The errors the format raises. -/
inductive ErrorKind
  /-- `Io(UnexpectedEof)`: fewer bytes are left than a value needs. -/
  | unexpectedEof
  | invalidBoolEncoding (byte : Nat)
  | invalidTagEncoding (tag : Nat)
  /-- serde's `invalid value: integer, expected variant index 0 <= i < count`. -/
  | invalidVariantIndex (index : Nat)
  deriving DecidableEq, Repr

abbrev Decoder (α : Type) := ByteDecoder.Decoder ErrorKind α

variable {α κ ν μ : Type}

/-- An unsigned integer of `size` bytes. -/
def fixint (size : Nat) : Decoder Nat := leValue <$> readBytes .unexpectedEof size

def u8 : Decoder Nat := fixint 1

def u32 : Decoder Nat := fixint 4

def u64 : Decoder Nat := fixint 8

def i64 : Decoder Int := toSigned 64 <$> fixint 8

/-- An array `[u8; n]`: a tuple of `n` bytes. -/
def bytes (n : Nat) : Decoder (List UInt8) := readBytes .unexpectedEof n

def bool : Decoder Bool := do
  let byte ← u8
  match byte with
  | 0 => pure false
  | 1 => pure true
  | byte => throw (.invalidBoolEncoding byte)

def option (d : Decoder α) : Decoder (Option α) := do
  let tag ← u8
  match tag with
  | 0 => pure none
  | 1 => some <$> d
  | tag => throw (.invalidTagEncoding tag)

/-- A `Vec`, `VecDeque` or other sequence: a `u64` length, then its elements. -/
def seq (d : Decoder α) : Decoder (List α) := do
  let len ← u64
  replicateM d len

/-- A map, as serde's map visitors build one: a `u64` length, then that many entries, each inserted
into the map read so far. -/
def map (key : Decoder κ) (value : Decoder ν) (insert : μ → κ × ν → μ) (empty : μ) : Decoder μ := do
  let len ← u64
  loop (do let k ← key; let v ← value; pure (k, v)) insert len empty

/-- An array `[T; n]` is a tuple: its elements, without a length. -/
def array (n : Nat) (d : Decoder α) : Decoder (List α) := replicateM d n

/-- The variant index of an enum of `count` variants. -/
def variantIndex (count : Nat) : Decoder Nat := do
  let index ← u32
  if index < count then pure index else throw (.invalidVariantIndex index)

/-- `bincode::deserialize`: the value read from the front of the input. -/
def deserialize (d : Decoder α) (input : List UInt8) : Except ErrorKind α := (·.1) <$> d.run input

theorem deserialize_map (f : α → κ) (d : Decoder α) (input : List UInt8) :
    deserialize (f <$> d) input = f <$> deserialize d input := by
  simp only [deserialize, StateT.run_map, Functor.map_map]

/-! ### Every decoder of the format leaves trailing bytes alone -/

theorem prefixed_fixint (size : Nat) : Prefixed (fixint size) := (Prefixed.readBytes _ size).map _

theorem prefixed_u8 : Prefixed u8 := prefixed_fixint 1

theorem prefixed_u32 : Prefixed u32 := prefixed_fixint 4

theorem prefixed_u64 : Prefixed u64 := prefixed_fixint 8

theorem prefixed_i64 : Prefixed i64 := (prefixed_fixint 8).map _

theorem prefixed_bytes (n : Nat) : Prefixed (bytes n) := Prefixed.readBytes _ n

theorem prefixed_bool : Prefixed bool :=
  prefixed_u8.bind fun
    | 0 => Prefixed.pure false
    | 1 => Prefixed.pure true
    | _ + 2 => Prefixed.throw _

theorem prefixed_option {d : Decoder α} (prefixed : Prefixed d) : Prefixed (option d) :=
  prefixed_u8.bind fun
    | 0 => Prefixed.pure none
    | 1 => prefixed.map some
    | _ + 2 => Prefixed.throw _

theorem prefixed_seq {d : Decoder α} (prefixed : Prefixed d) : Prefixed (seq d) :=
  prefixed_u64.bind fun len => prefixed.replicateM len

theorem prefixed_map {key : Decoder κ} {value : Decoder ν} (keys : Prefixed key) (values : Prefixed value)
    (insert : μ → κ × ν → μ) (empty : μ) : Prefixed (map key value insert empty) :=
  prefixed_u64.bind fun len =>
    Prefixed.loop (keys.bind fun k => values.bind fun v => Prefixed.pure (k, v)) insert len empty

theorem prefixed_array (n : Nat) {d : Decoder α} (prefixed : Prefixed d) : Prefixed (array n d) :=
  prefixed.replicateM n

theorem prefixed_variantIndex (count : Nat) : Prefixed (variantIndex count) :=
  prefixed_u32.bind fun index => Prefixed.ite _ (Prefixed.pure index) (Prefixed.throw _)

theorem deserialize_append {d : Decoder α} (prefixed : Prefixed d) {input : List UInt8} {a : α}
    (read : deserialize d input = .ok a) (suffix : List UInt8) : deserialize d (input ++ suffix) = .ok a := by
  unfold deserialize at read ⊢
  cases run : d.run input with
  | error e =>
    rw [run] at read
    cases read
  | ok result =>
    rw [run] at read
    rw [prefixed input result.1 result.2 suffix run]
    exact read

/-! ### What `bincode::serialize` writes, read back -/

/-- The `size` little-endian bytes of `n`: an unsigned integer of `size` bytes. -/
def leBytes : Nat → Nat → List UInt8
  | 0, _ => []
  | size + 1, n => (n % 256).toUInt8 :: leBytes size (n / 256)

@[simp] theorem length_leBytes : ∀ size n, (leBytes size n).length = size
  | 0, _ => rfl
  | size + 1, n => by rw [leBytes, List.length_cons, length_leBytes size (n / 256)]

theorem leValue_leBytes : ∀ size n, n < 256 ^ size → leValue (leBytes size n) = n
  | 0, n, small => by
    rw [pow_zero] at small
    rw [show n = 0 by omega]
    rfl
  | size + 1, n, small => by
    have above : n / 256 < 256 ^ size := by
      rw [pow_succ] at small
      omega
    change (n % 256).toUInt8.toNat + 256 * leValue (leBytes size (n / 256)) = n
    have low : (n % 256).toUInt8.toNat = n % 256 := by simp
    rw [leValue_leBytes size (n / 256) above, low]
    omega

theorem inverts_leValue {ε : Type} (err : ε) (size : Nat) :
    Inverts (leValue <$> readBytes err size) (leBytes size) (· < 256 ^ size) := by
  intro n small rest
  have read : (readBytes err size).run (leBytes size n ++ rest) = .ok (leBytes size n, rest) :=
    Inverts.readBytes _ size _ (length_leBytes size n) rest
  rw [← bind_pure_comp, run_bind_of_ok read, leValue_leBytes size n small]
  rfl

theorem inverts_fixint (size : Nat) : Inverts (fixint size) (leBytes size) (· < 256 ^ size) :=
  inverts_leValue _ size

theorem inverts_u8 : Inverts u8 (leBytes 1) (· < 256) := inverts_fixint 1

theorem inverts_u64 : Inverts u64 (leBytes 8) (· < 2 ^ 64) := inverts_fixint 8

/-- The two's complement of `i` in `w` bits. -/
def fromSigned (w : Nat) (i : Int) : Nat := (i % 2 ^ w).toNat

/-- An `i64`: its two's complement. -/
def encodeI64 (i : Int) : List UInt8 := leBytes 8 (fromSigned 64 i)

theorem inverts_i64 : Inverts i64 encodeI64 (fun i => -2 ^ 63 ≤ i ∧ i < 2 ^ 63) := by
  intro i ⟨low, high⟩ rest
  have fits : fromSigned 64 i < 256 ^ 8 := by
    unfold fromSigned
    omega
  have signed : toSigned 64 (fromSigned 64 i) = i := by
    unfold toSigned fromSigned
    split_ifs <;> omega
  rw [i64, encodeI64, ← bind_pure_comp, run_bind_of_ok (inverts_fixint 8 _ fits rest), signed]
  rfl

/-- An `Option`: the tag byte, then the value if there is one. -/
def encodeOption (encode : α → List UInt8) : Option α → List UInt8
  | none => [0]
  | some a => 1 :: encode a

theorem Inverts.option {d : Decoder α} {encode : α → List UInt8} {valid : α → Prop}
    (inverts : Inverts d encode valid) :
    Inverts (Bincode.option d) (encodeOption encode) (fun o => ∀ a ∈ o, valid a)
  | none, _, rest => by
    change (Bincode.option d).run (leBytes 1 0 ++ rest) = _
    rw [Bincode.option, run_bind_of_ok (inverts_u8 0 (by decide) rest)]
    rfl
  | some a, fits, rest => by
    change (Bincode.option d).run (leBytes 1 1 ++ encode a ++ rest) = _
    rw [Bincode.option, List.append_assoc, run_bind_of_ok (inverts_u8 1 (by decide) _)]
    change (some <$> d).run (encode a ++ rest) = _
    rw [← bind_pure_comp, run_bind_of_ok (inverts a (fits a rfl) rest)]
    rfl

end Bincode
