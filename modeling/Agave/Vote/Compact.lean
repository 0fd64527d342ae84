import Mathlib
import Agave.Library.Bincode
import Agave.Library.ExceptLoop
import Agave.Encoding.ShortVec
import Agave.Encoding.VarInt
import Agave.Vote.Program
import Agave.Vote.Deserialize

/-! `serde_compact_vote_state_update` and `serde_tower_sync`: a `VoteStateUpdate` or a `TowerSync`
written with `u64::MAX` for no root and each lockout slot as its offset from the one before (from
the root, or `0`), a var-int, in a `short_vec`. The two modules differ only in the `block_id` a
`TowerSync` carries after the other fields, so the scans and the shared fields are modelled once.

`bincode` is the serializer. A hash is 32 bytes, of which the model's hash is the little-endian
value. Serialization fails with serde's custom message; deserialization errors carry the reader that
raised them. -/

namespace VoteProgram

open MachineInt ByteDecoder

/-- `LockoutOffset` of both modules: the distance from the slot before, and the count as a `u8`. -/
structure LockoutOffset where
  offset : Slot
  confirmationCount : Nat
  deriving DecidableEq, Repr

namespace Compact

/-- The `scan` of `serialize`, collected into a `Result`: the first lockout below the slot before it,
or with a count past `u8::MAX`, stops the collection. -/
def toLockoutOffsets (slot : Slot) : List Lockout → Except String (List LockoutOffset)
  | [] => .ok []
  | lockout :: lockouts =>
    match checkedSub lockout.slot slot with
    | none => .error "Invalid vote lockout"
    | some offset =>
      if lockout.confirmationCount ≤ 255 then
        (⟨offset, lockout.confirmationCount⟩ :: ·) <$> toLockoutOffsets lockout.slot lockouts
      else .error "Invalid confirmation count"

/-- The `scan` of `deserialize`, collected: each slot the one before plus its offset, failing past
`u64::MAX`. -/
def fromLockoutOffsets (slot : Slot) : List LockoutOffset → Except String (List Lockout)
  | [] => .ok []
  | lockoutOffset :: lockoutOffsets =>
    match checkedAdd 64 slot lockoutOffset.offset with
    | none => .error "Invalid lockout offset"
    | some slot =>
      (Lockout.newWithConfirmationCount slot lockoutOffset.confirmationCount :: ·) <$>
        fromLockoutOffsets slot lockoutOffsets

def serializeLockoutOffset (lockoutOffset : LockoutOffset) : List UInt8 :=
  VarInt.serialize lockoutOffset.offset ++ Bincode.leBytes 1 lockoutOffset.confirmationCount

def serializeHash (hash : Hash) : List UInt8 := Bincode.leBytes 32 hash

/-- The fields `CompactVoteStateUpdate` and `CompactTowerSync` share, in order; the `short_vec` is
the one that can fail. -/
def serializeFields (root : Slot) (lockoutOffsets : List LockoutOffset) (hash : Hash)
    (timestamp : Option UnixTimestamp) : Except String (List UInt8) := do
  let offsets ← ShortVec.serializeVec serializeLockoutOffset lockoutOffsets
  pure (Bincode.leBytes 8 root ++ offsets ++ serializeHash hash ++
    Bincode.encodeOption Bincode.encodeI64 timestamp)

/-- `serde_compact_vote_state_update::serialize`. -/
def serializeVoteStateUpdate (voteStateUpdate : VoteStateUpdate) : Except String (List UInt8) := do
  let lockoutOffsets ← toLockoutOffsets (voteStateUpdate.root.getD 0) voteStateUpdate.lockouts
  serializeFields (voteStateUpdate.root.getD (maxValue 64)) lockoutOffsets voteStateUpdate.hash
    voteStateUpdate.timestamp

/-- `serde_tower_sync::serialize`. -/
def serializeTowerSync (towerSync : TowerSync) : Except String (List UInt8) := do
  let lockoutOffsets ← toLockoutOffsets (towerSync.root.getD 0) towerSync.lockouts
  let fields ← serializeFields (towerSync.root.getD (maxValue 64)) lockoutOffsets towerSync.hash
    towerSync.timestamp
  pure (fields ++ serializeHash towerSync.blockId)

inductive DeserializeError where
  | bincode (error : Bincode.ErrorKind)
  | shortVec (error : ShortVec.DecodeError)
  | varInt (error : VarInt.DecodeError)
  | custom (message : String)

abbrev Reader (α : Type) := Decoder DeserializeError α

def lockoutOffsetReader : Reader LockoutOffset := do
  let offset ← mapError .varInt (VarInt.visitSeq 64)
  let confirmationCount ← mapError .bincode Bincode.u8
  pure ⟨offset, confirmationCount⟩

def hashReader : Reader Hash := mapError .bincode (Bincode.fixint 32)

def fieldsReader : Reader (Slot × List LockoutOffset × Hash × Option UnixTimestamp) := do
  let root ← mapError .bincode Bincode.u64
  let lockoutOffsets ← ShortVec.deserializeVec .shortVec lockoutOffsetReader
  let hash ← hashReader
  let timestamp ← mapError .bincode (Bincode.option Bincode.i64)
  pure (root, lockoutOffsets, hash, timestamp)

/-- What both `deserialize`s make of the root they read and the offsets: `u64::MAX` is no root, and
the slots add up from the root, or `0`. -/
def lockoutsReader (root : Slot) (lockoutOffsets : List LockoutOffset) :
    Reader (Option Slot × List Lockout) :=
  let root := if root ≠ maxValue 64 then some root else none
  match fromLockoutOffsets (root.getD 0) lockoutOffsets with
  | .ok lockouts => pure (root, lockouts)
  | .error message => throw (.custom message)

/-- `serde_compact_vote_state_update::deserialize`. -/
def deserializeVoteStateUpdate : Reader VoteStateUpdate := do
  let (root, lockoutOffsets, hash, timestamp) ← fieldsReader
  let (root, lockouts) ← lockoutsReader root lockoutOffsets
  pure { root, lockouts, hash, timestamp }

/-- `serde_tower_sync::deserialize`. -/
def deserializeTowerSync : Reader TowerSync := do
  let (root, lockoutOffsets, hash, timestamp) ← fieldsReader
  let blockId ← hashReader
  let (root, lockouts) ← lockoutsReader root lockoutOffsets
  pure { root, lockouts, hash, timestamp, blockId }

/-! ### The scans -/

theorem toLockoutOffsets_cons_eq_ok_iff {slot : Slot} {lockout : Lockout} {lockouts : List Lockout}
    {offsets : List LockoutOffset} :
    toLockoutOffsets slot (lockout :: lockouts) = .ok offsets ↔
      slot ≤ lockout.slot ∧ lockout.confirmationCount ≤ 255 ∧
        ∃ rest, toLockoutOffsets lockout.slot lockouts = .ok rest ∧
          offsets = ⟨lockout.slot - slot, lockout.confirmationCount⟩ :: rest := by
  by_cases le : slot ≤ lockout.slot
  · have sub : checkedSub lockout.slot slot = some (lockout.slot - slot) := by simp [checkedSub, le]
    simp only [toLockoutOffsets, sub]
    by_cases count : lockout.confirmationCount ≤ 255
    · rw [if_pos count, ByteDecoder.map_eq_ok]
      simp only [le, count, true_and]
      constructor
      · rintro ⟨rest, written, rfl⟩
        exact ⟨rest, written, rfl⟩
      · rintro ⟨rest, written, rfl⟩
        exact ⟨rest, written, rfl⟩
    · rw [if_neg count]
      simp [count]
  · have sub : checkedSub lockout.slot slot = none := by simp [checkedSub, le]
    simp [toLockoutOffsets, sub, le]

theorem toLockoutOffsets_isOk_iff (slot : Slot) (lockouts : List Lockout) :
    (∃ offsets, toLockoutOffsets slot lockouts = .ok offsets) ↔
      (slot :: lockouts.map Lockout.slot).IsChain (· ≤ ·) ∧
        ∀ lockout ∈ lockouts, lockout.confirmationCount ≤ 255 := by
  induction lockouts generalizing slot with
  | nil => simp [toLockoutOffsets]
  | cons lockout lockouts ih =>
    rw [List.map_cons, List.isChain_cons_cons, List.forall_mem_cons]
    constructor
    · rintro ⟨offsets, written⟩
      obtain ⟨le, count, rest, restWritten, -⟩ := toLockoutOffsets_cons_eq_ok_iff.1 written
      obtain ⟨chain, counts⟩ := (ih lockout.slot).1 ⟨rest, restWritten⟩
      exact ⟨⟨le, chain⟩, count, counts⟩
    · rintro ⟨⟨le, chain⟩, count, counts⟩
      obtain ⟨rest, restWritten⟩ := (ih lockout.slot).2 ⟨chain, counts⟩
      exact ⟨_, toLockoutOffsets_cons_eq_ok_iff.2 ⟨le, count, rest, restWritten, rfl⟩⟩

theorem length_of_toLockoutOffsets {slot : Slot} {lockouts : List Lockout} {offsets : List LockoutOffset}
    (written : toLockoutOffsets slot lockouts = .ok offsets) : offsets.length = lockouts.length := by
  induction lockouts generalizing slot offsets with
  | nil =>
    cases written
    rfl
  | cons lockout lockouts ih =>
    obtain ⟨-, -, rest, restWritten, rfl⟩ := toLockoutOffsets_cons_eq_ok_iff.1 written
    rw [List.length_cons, List.length_cons, ih restWritten]

theorem fits_of_toLockoutOffsets {slot : Slot} {lockouts : List Lockout} {offsets : List LockoutOffset}
    (written : toLockoutOffsets slot lockouts = .ok offsets) (slots : ∀ lockout ∈ lockouts, lockout.slot < 2 ^ 64) :
    ∀ lockoutOffset ∈ offsets, lockoutOffset.offset < 2 ^ 64 ∧ lockoutOffset.confirmationCount < 256 := by
  induction lockouts generalizing slot offsets with
  | nil =>
    cases written
    simp
  | cons lockout lockouts ih =>
    obtain ⟨-, count, rest, restWritten, rfl⟩ := toLockoutOffsets_cons_eq_ok_iff.1 written
    intro lockoutOffset mem
    rcases List.mem_cons.1 mem with rfl | later
    · have := slots lockout List.mem_cons_self
      -- `Slot` facts reach `omega` once the abbreviation is unfolded
      simp only [Slot] at this ⊢
      exact ⟨by omega, by omega⟩
    · exact ih restWritten (fun l mem => slots l (List.mem_cons_of_mem _ mem)) lockoutOffset later

theorem fromLockoutOffsets_of_toLockoutOffsets {slot : Slot} {lockouts : List Lockout}
    {offsets : List LockoutOffset} (written : toLockoutOffsets slot lockouts = .ok offsets)
    (slots : ∀ lockout ∈ lockouts, lockout.slot < 2 ^ 64) : fromLockoutOffsets slot offsets = .ok lockouts := by
  induction lockouts generalizing slot offsets with
  | nil =>
    cases written
    rfl
  | cons lockout lockouts ih =>
    obtain ⟨le, -, rest, restWritten, rfl⟩ := toLockoutOffsets_cons_eq_ok_iff.1 written
    have below := slots lockout List.mem_cons_self
    have sum : checkedAdd 64 slot (lockout.slot - slot) = some lockout.slot := by
      rw [checkedAdd_eq_some, maxValue]
      simp only [Slot] at le below ⊢
      omega
    simp only [fromLockoutOffsets, sum, ih restWritten (fun l mem => slots l (List.mem_cons_of_mem _ mem))]
    rfl

/-! ### The fields, read back -/

/-- The values of the shared fields that the Rust types hold: `u64` slots and root, a 32-byte hash
and an `i64` timestamp. -/
structure FieldsFit (lockouts : List Lockout) (root : Option Slot) (hash : Hash)
    (timestamp : Option UnixTimestamp) : Prop where
  slots : ∀ lockout ∈ lockouts, lockout.slot < 2 ^ 64
  root : ∀ slot ∈ root, slot < 2 ^ 64
  hash : hash < 2 ^ 256
  timestamp : ∀ time ∈ timestamp, -2 ^ 63 ≤ time ∧ time < 2 ^ 63

theorem serializeFields_eq_ok_iff {root : Slot} {lockoutOffsets : List LockoutOffset} {hash : Hash}
    {timestamp : Option UnixTimestamp} {bytes : List UInt8} :
    serializeFields root lockoutOffsets hash timestamp = .ok bytes ↔
      lockoutOffsets.length ≤ 65535 ∧
        bytes = Bincode.leBytes 8 root ++
          (ShortVec.serialize lockoutOffsets.length ++ lockoutOffsets.flatMap serializeLockoutOffset) ++
          serializeHash hash ++ Bincode.encodeOption Bincode.encodeI64 timestamp := by
  rw [serializeFields, ExceptLoop.bind_eq_ok]
  simp only [ShortVec.serializeVec_eq_ok_iff, ExceptLoop.pure_eq_ok]
  constructor
  · rintro ⟨_, ⟨short, rfl⟩, rfl⟩
    exact ⟨short, rfl⟩
  · rintro ⟨short, rfl⟩
    exact ⟨_, ⟨short, rfl⟩, rfl⟩

theorem inverts_lockoutOffsetReader :
    Inverts lockoutOffsetReader serializeLockoutOffset
      (fun lockoutOffset => lockoutOffset.offset < 2 ^ 64 ∧ lockoutOffset.confirmationCount < 256) := by
  intro lockoutOffset ⟨offset, count⟩ rest
  rw [serializeLockoutOffset, List.append_assoc, lockoutOffsetReader,
    run_bind_of_ok ((VarInt.inverts_visitSeq (by decide)).mapError DeserializeError.varInt _ offset _),
    run_bind_of_ok (Bincode.inverts_u8.mapError DeserializeError.bincode _ count rest)]
  rfl

theorem fieldsReader_run {root : Slot} {lockoutOffsets : List LockoutOffset} {hash : Hash}
    {timestamp : Option UnixTimestamp} {bytes : List UInt8}
    (written : serializeFields root lockoutOffsets hash timestamp = .ok bytes) (rootFits : root < 2 ^ 64)
    (offsetsFit : ∀ lockoutOffset ∈ lockoutOffsets,
      lockoutOffset.offset < 2 ^ 64 ∧ lockoutOffset.confirmationCount < 256)
    (hashFits : hash < 2 ^ 256) (timestampFits : ∀ time ∈ timestamp, -2 ^ 63 ≤ time ∧ time < 2 ^ 63)
    (rest : List UInt8) :
    fieldsReader.run (bytes ++ rest) = .ok ((root, lockoutOffsets, hash, timestamp), rest) := by
  obtain ⟨short, rfl⟩ := serializeFields_eq_ok_iff.1 written
  have vec := ShortVec.inverts_deserializeVec DeserializeError.shortVec inverts_lockoutOffsetReader
    lockoutOffsets ⟨short, offsetsFit⟩
    (serializeHash hash ++ (Bincode.encodeOption Bincode.encodeI64 timestamp ++ rest))
  dsimp only at vec
  rw [List.append_assoc, List.append_assoc, List.append_assoc, fieldsReader,
    run_bind_of_ok (Bincode.inverts_u64.mapError DeserializeError.bincode root rootFits _),
    run_bind_of_ok vec, serializeHash, hashReader,
    run_bind_of_ok ((Bincode.inverts_fixint 32).mapError DeserializeError.bincode hash
      (lt_of_lt_of_eq hashFits (by norm_num)) _),
    run_bind_of_ok ((Bincode.Inverts.option Bincode.inverts_i64).mapError DeserializeError.bincode timestamp
      timestampFits rest)]
  rfl

theorem lockoutsReader_run {root : Option Slot} {lockoutOffsets : List LockoutOffset}
    {lockouts : List Lockout} (notMax : root ≠ some (maxValue 64))
    (read : fromLockoutOffsets (root.getD 0) lockoutOffsets = .ok lockouts) (bytes : List UInt8) :
    (lockoutsReader (root.getD (maxValue 64)) lockoutOffsets).run bytes = .ok ((root, lockouts), bytes) := by
  have sentinel : (if root.getD (maxValue 64) ≠ maxValue 64 then some (root.getD (maxValue 64)) else none) =
      root := by
    cases root with
    | none => simp
    | some slot =>
      have : slot ≠ maxValue 64 := fun same => notMax (by rw [same])
      simp [this]
  unfold lockoutsReader
  dsimp only
  rw [sentinel, read]
  rfl

/-! ### Both encodings -/

def UpdateFits (voteStateUpdate : VoteStateUpdate) : Prop :=
  FieldsFit voteStateUpdate.lockouts voteStateUpdate.root voteStateUpdate.hash voteStateUpdate.timestamp

def SyncFits (towerSync : TowerSync) : Prop :=
  FieldsFit towerSync.lockouts towerSync.root towerSync.hash towerSync.timestamp ∧ towerSync.blockId < 2 ^ 256

theorem serializeFields_isOk_iff (root : Option Slot) (lockouts : List Lockout) (hash : Hash)
    (timestamp : Option UnixTimestamp) :
    (∃ offsets bytes, toLockoutOffsets (root.getD 0) lockouts = .ok offsets ∧
        serializeFields (root.getD (maxValue 64)) offsets hash timestamp = .ok bytes) ↔
      (root.getD 0 :: lockouts.map Lockout.slot).IsChain (· ≤ ·) ∧
        (∀ lockout ∈ lockouts, lockout.confirmationCount ≤ 255) ∧ lockouts.length ≤ 65535 := by
  constructor
  · rintro ⟨offsets, bytes, converted, written⟩
    obtain ⟨chain, counts⟩ := (toLockoutOffsets_isOk_iff _ lockouts).1 ⟨offsets, converted⟩
    obtain ⟨short, -⟩ := serializeFields_eq_ok_iff.1 written
    exact ⟨chain, counts, length_of_toLockoutOffsets converted ▸ short⟩
  · rintro ⟨chain, counts, short⟩
    obtain ⟨offsets, converted⟩ := (toLockoutOffsets_isOk_iff _ lockouts).2 ⟨chain, counts⟩
    exact ⟨offsets, _, converted,
      serializeFields_eq_ok_iff.2 ⟨(length_of_toLockoutOffsets converted).symm ▸ short, rfl⟩⟩

theorem getD_root_lt {root : Option Slot} (fits : ∀ slot ∈ root, slot < 2 ^ 64) :
    root.getD (maxValue 64) < 2 ^ 64 := by
  cases root with
  | none => simp [maxValue]
  | some slot => exact fits slot rfl

theorem serializeVoteStateUpdate_isOk_iff (voteStateUpdate : VoteStateUpdate) :
    (∃ bytes, serializeVoteStateUpdate voteStateUpdate = .ok bytes) ↔
      (voteStateUpdate.root.getD 0 :: voteStateUpdate.lockouts.map Lockout.slot).IsChain (· ≤ ·) ∧
        (∀ lockout ∈ voteStateUpdate.lockouts, lockout.confirmationCount ≤ 255) ∧
        voteStateUpdate.lockouts.length ≤ 65535 := by
  rw [← serializeFields_isOk_iff _ _ voteStateUpdate.hash voteStateUpdate.timestamp]
  simp only [serializeVoteStateUpdate, ExceptLoop.bind_eq_ok]
  constructor
  · rintro ⟨bytes, offsets, converted, written⟩
    exact ⟨offsets, bytes, converted, written⟩
  · rintro ⟨offsets, bytes, converted, written⟩
    exact ⟨bytes, offsets, converted, written⟩

theorem serializeTowerSync_isOk_iff (towerSync : TowerSync) :
    (∃ bytes, serializeTowerSync towerSync = .ok bytes) ↔
      (towerSync.root.getD 0 :: towerSync.lockouts.map Lockout.slot).IsChain (· ≤ ·) ∧
        (∀ lockout ∈ towerSync.lockouts, lockout.confirmationCount ≤ 255) ∧
        towerSync.lockouts.length ≤ 65535 := by
  rw [← serializeFields_isOk_iff _ _ towerSync.hash towerSync.timestamp]
  simp only [serializeTowerSync, ExceptLoop.bind_eq_ok, ExceptLoop.pure_eq_ok]
  constructor
  · rintro ⟨bytes, offsets, converted, fields, written, -⟩
    exact ⟨offsets, fields, converted, written⟩
  · rintro ⟨offsets, fields, converted, written⟩
    exact ⟨_, offsets, converted, fields, written, rfl⟩

theorem deserializeVoteStateUpdate_run {voteStateUpdate : VoteStateUpdate} {bytes : List UInt8}
    (fits : UpdateFits voteStateUpdate) (notMax : voteStateUpdate.root ≠ some (maxValue 64))
    (written : serializeVoteStateUpdate voteStateUpdate = .ok bytes) (rest : List UInt8) :
    deserializeVoteStateUpdate.run (bytes ++ rest) = .ok (voteStateUpdate, rest) := by
  obtain ⟨offsets, converted, fields⟩ := ExceptLoop.bind_eq_ok.1 written
  rw [deserializeVoteStateUpdate, run_bind_of_ok (fieldsReader_run fields (getD_root_lt fits.root)
    (fits_of_toLockoutOffsets converted fits.slots) fits.hash fits.timestamp rest)]
  dsimp only
  rw [run_bind_of_ok (lockoutsReader_run notMax (fromLockoutOffsets_of_toLockoutOffsets converted fits.slots) rest)]
  rfl

theorem deserializeTowerSync_run {towerSync : TowerSync} {bytes : List UInt8}
    (fits : SyncFits towerSync) (notMax : towerSync.root ≠ some (maxValue 64))
    (written : serializeTowerSync towerSync = .ok bytes) (rest : List UInt8) :
    deserializeTowerSync.run (bytes ++ rest) = .ok (towerSync, rest) := by
  obtain ⟨offsets, converted, sealed⟩ := ExceptLoop.bind_eq_ok.1 written
  obtain ⟨fieldBytes, fields, appended⟩ := ExceptLoop.bind_eq_ok.1 sealed
  cases ExceptLoop.pure_eq_ok.1 appended
  rw [List.append_assoc, deserializeTowerSync, run_bind_of_ok (fieldsReader_run fields
    (getD_root_lt fits.1.root) (fits_of_toLockoutOffsets converted fits.1.slots) fits.1.hash fits.1.timestamp _)]
  dsimp only
  rw [serializeHash, hashReader, run_bind_of_ok ((Bincode.inverts_fixint 32).mapError DeserializeError.bincode
      towerSync.blockId (lt_of_lt_of_eq fits.2 (by norm_num)) rest),
    run_bind_of_ok (lockoutsReader_run notMax (fromLockoutOffsets_of_toLockoutOffsets converted fits.1.slots) rest)]
  rfl

/-- Lockouts that do not decrease from no root, with counts of one, that the encoding still refuses:
a `short_vec` holds at most `u16::MAX` elements. -/
theorem serializeTowerSync_too_many_lockouts :
    ((0 :: (List.replicate 65536 (Lockout.new 1)).map Lockout.slot).IsChain (· ≤ ·) ∧
      ∀ lockout ∈ List.replicate 65536 (Lockout.new 1), lockout.confirmationCount ≤ 255) ∧
    serializeTowerSync ⟨List.replicate 65536 (Lockout.new 1), none, 0, none, 0⟩ =
      .error "length larger than u16" := by
  have chain : (0 :: (List.replicate 65536 (Lockout.new 1)).map Lockout.slot).IsChain (· ≤ ·) := by
    rw [List.map_replicate, List.isChain_cons]
    exact ⟨by simp [Lockout.new], List.isChain_replicate_of_rel 65536 (le_refl _)⟩
  have counts : ∀ lockout ∈ List.replicate 65536 (Lockout.new 1), lockout.confirmationCount ≤ 255 := by
    intro lockout mem
    rw [List.eq_of_mem_replicate mem]
    decide
  obtain ⟨offsets, converted⟩ := (toLockoutOffsets_isOk_iff 0 _).2 ⟨chain, counts⟩
  have long : offsets.length > 65535 := by
    rw [length_of_toLockoutOffsets converted, List.length_replicate]
    decide
  refine ⟨⟨chain, counts⟩, ?_⟩
  rw [serializeTowerSync]
  simp only [Option.getD_none]
  rw [converted, ok_bind, serializeFields, ShortVec.serializeVec, if_pos long]
  rfl

theorem compact_encodings_roundTrip :
    (∀ voteStateUpdate : VoteStateUpdate,
      (∃ bytes, serializeVoteStateUpdate voteStateUpdate = .ok bytes) ↔
        (voteStateUpdate.root.getD 0 :: voteStateUpdate.lockouts.map Lockout.slot).IsChain (· ≤ ·) ∧
        (∀ lockout ∈ voteStateUpdate.lockouts, lockout.confirmationCount ≤ 255) ∧
        voteStateUpdate.lockouts.length ≤ 65535) ∧
    (∀ voteStateUpdate : VoteStateUpdate, UpdateFits voteStateUpdate →
      voteStateUpdate.root ≠ some (maxValue 64) → ∀ bytes rest,
        serializeVoteStateUpdate voteStateUpdate = .ok bytes →
        deserializeVoteStateUpdate.run (bytes ++ rest) = .ok (voteStateUpdate, rest)) ∧
    (∀ towerSync : TowerSync,
      (∃ bytes, serializeTowerSync towerSync = .ok bytes) ↔
        (towerSync.root.getD 0 :: towerSync.lockouts.map Lockout.slot).IsChain (· ≤ ·) ∧
        (∀ lockout ∈ towerSync.lockouts, lockout.confirmationCount ≤ 255) ∧
        towerSync.lockouts.length ≤ 65535) ∧
    (∀ towerSync : TowerSync, SyncFits towerSync →
      towerSync.root ≠ some (maxValue 64) → ∀ bytes rest,
        serializeTowerSync towerSync = .ok bytes →
        deserializeTowerSync.run (bytes ++ rest) = .ok (towerSync, rest)) :=
  ⟨serializeVoteStateUpdate_isOk_iff,
    fun _ fits notMax _ rest written => deserializeVoteStateUpdate_run fits notMax written rest,
    serializeTowerSync_isOk_iff,
    fun _ fits notMax _ rest written => deserializeTowerSync_run fits notMax written rest⟩

end Compact

end VoteProgram
