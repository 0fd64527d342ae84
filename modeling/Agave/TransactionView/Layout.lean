import Mathlib
import Agave.TransactionView.Iterator

/-! The layout `bincode` gives a `VersionedTransaction`, which `TransactionFrame::try_new` frames:
the signatures and the static account keys as short vectors of 64- and 32-byte values, the message
header after the `0x80` prefix of a `v0` message, the recent blockhash, the instructions and, in a
`v0` message, the address table lookups. This is the format the parser is written against, not a
function of `transaction-view`; every layout within the parser's limits is accepted, with the counts
and totals of what it holds (`tryNew_serialize`). -/

namespace TransactionView

open ShortVec Leb128 ExceptLoop Iterator

def serializeInstruction (instruction : SVMInstruction) : List UInt8 :=
  instruction.programIdIndex :: (serialize instruction.accounts.length ++ instruction.accounts ++
    (serialize instruction.data.length ++ instruction.data))

def serializeAddressTableLookup (lookup : SVMMessageAddressTableLookup) : List UInt8 :=
  lookup.accountKey ++ (serialize lookup.writableIndexes.length ++ lookup.writableIndexes ++
    (serialize lookup.readonlyIndexes.length ++ lookup.readonlyIndexes))

/-- A lookup the layout holds: a 32-byte key and at least one index, fewer than `2 ^ 14` of each kind. -/
def LookupFits (lookup : SVMMessageAddressTableLookup) : Prop :=
  lookup.accountKey.length = 32 ∧ lookup.writableIndexes.length < 2 ^ 14 ∧
    lookup.readonlyIndexes.length < 2 ^ 14 ∧ 0 < lookup.writableIndexes.length + lookup.readonlyIndexes.length

structure TransactionLayout where
  signatures : List (List UInt8)
  version : TransactionVersion
  numRequiredSignatures : UInt8
  numReadonlySignedAccounts : UInt8
  numReadonlyUnsignedAccounts : UInt8
  staticAccountKeys : List (List UInt8)
  recentBlockhash : List UInt8
  instructions : List SVMInstruction
  addressTableLookups : List SVMMessageAddressTableLookup

namespace TransactionLayout

def versionPrefix : TransactionVersion → List UInt8
  | .legacy => []
  | .v0 => [messageVersionPrefix]

def instructionsSection (tx : TransactionLayout) : List UInt8 :=
  serialize tx.instructions.length ++ tx.instructions.flatMap serializeInstruction

def lookupsSection (tx : TransactionLayout) : List UInt8 :=
  match tx.version with
  | .legacy => []
  | .v0 => serialize tx.addressTableLookups.length ++ tx.addressTableLookups.flatMap serializeAddressTableLookup

/-- Each section grouped as the frame that reads it. -/
def serialize (tx : TransactionLayout) : List UInt8 :=
  (ShortVec.serialize tx.signatures.length ++ tx.signatures.flatten) ++
    ((versionPrefix tx.version ++ [tx.numRequiredSignatures, tx.numReadonlySignedAccounts,
        tx.numReadonlyUnsignedAccounts]) ++
      ((ShortVec.serialize tx.staticAccountKeys.length ++ tx.staticAccountKeys.flatten) ++
        (tx.recentBlockhash ++ (tx.instructionsSection ++ tx.lookupsSection))))

/-- A layout within the parser's limits. -/
structure Valid (tx : TransactionLayout) : Prop where
  signatures : 0 < tx.signatures.length ∧ tx.signatures.length ≤ maxSignaturesPerPacket
  signatureLength : ∀ signature ∈ tx.signatures, signature.length = 64
  legacyHeader : tx.version = .legacy → tx.numRequiredSignatures.toNat < 128
  staticAccountKeys : 0 < tx.staticAccountKeys.length ∧ tx.staticAccountKeys.length ≤ maxStaticAccountsPerPacket
  keyLength : ∀ key ∈ tx.staticAccountKeys, key.length = 32
  recentBlockhash : tx.recentBlockhash.length = 32
  instructions : tx.instructions.length < 2 ^ 14
  instructionLengths : ∀ instruction ∈ tx.instructions,
    instruction.accounts.length < 2 ^ 14 ∧ instruction.data.length < 2 ^ 14
  lookups : tx.addressTableLookups.length ≤ maxAtlsPerPacket
  lookupLengths : ∀ lookup ∈ tx.addressTableLookups, LookupFits lookup
  totalWritable : (tx.addressTableLookups.map (·.writableIndexes.length)).sum < 2 ^ 16
  totalReadonly : (tx.addressTableLookups.map (·.readonlyIndexes.length)).sum < 2 ^ 16
  legacyLookups : tx.version = .legacy → tx.addressTableLookups = []

end TransactionLayout

/-! ### Lengths -/

theorem serialize_of_lt_128 {n : Nat} (small : n < 128) : serialize n = [n.toUInt8] := by
  rw [serialize_eq, encode_of_lt small]
  rfl

theorem length_flatten_of_forall {size : Nat} :
    ∀ {values : List (List UInt8)}, (∀ value ∈ values, value.length = size) → values.flatten.length = values.length * size
  | [], _ => by simp
  | value :: values, sized => by
    rw [List.flatten_cons, List.length_append, sized value List.mem_cons_self,
      length_flatten_of_forall fun v mem => sized v (List.mem_cons_of_mem _ mem), List.length_cons]
    ring

theorem mul_le_length_flatMap {α : Type} {f : α → List UInt8} {least : Nat} :
    ∀ {items : List α}, (∀ item ∈ items, least ≤ (f item).length) → least * items.length ≤ (items.flatMap f).length
  | [], _ => by simp
  | item :: items, long => by
    have first := long item List.mem_cons_self
    have rest := mul_le_length_flatMap fun i mem => long i (List.mem_cons_of_mem _ mem)
    rw [List.flatMap_cons, List.length_append, List.length_cons, Nat.mul_succ]
    omega

theorem three_le_length_serializeInstruction (instruction : SVMInstruction) :
    3 ≤ (serializeInstruction instruction).length := by
  have accounts := one_le_length_serialize instruction.accounts.length
  have data := one_le_length_serialize instruction.data.length
  simp only [serializeInstruction, List.length_cons, List.length_append]
  omega

theorem minSizedAtl_le_length_serializeAddressTableLookup {lookup : SVMMessageAddressTableLookup}
    (key : lookup.accountKey.length = 32) (nonempty : 0 < lookup.writableIndexes.length + lookup.readonlyIndexes.length) :
    minSizedAtl ≤ (serializeAddressTableLookup lookup).length := by
  have writable := one_le_length_serialize lookup.writableIndexes.length
  have readonly := one_le_length_serialize lookup.readonlyIndexes.length
  simp only [serializeAddressTableLookup, List.length_append, minSizedAtl]
  omega

/-! ### Each frame accepts its section -/

section Accept

variable {bytes rest : List UInt8} {offset : Nat}

theorem readCountedArray_of_drop {size max : Nat} {values : List (List UInt8)}
    (remaining : bytes.drop offset = (serialize values.length ++ values.flatten) ++ rest)
    (counted : 0 < values.length ∧ values.length ≤ max) (below : max < 128)
    (sized : ∀ value ∈ values, value.length = size) :
    readCountedArray size max bytes offset =
      .ok (values.length, (offset + 1) % 2 ^ 16, offset + (serialize values.length ++ values.flatten).length) := by
  have short := serialize_of_lt_128 (show values.length < 128 by omega)
  rw [List.length_append, short, List.length_singleton]
  rw [short, List.singleton_append, List.cons_append] at remaining
  have count : values.length.toUInt8.toNat = values.length := by
    simp only [Nat.toUInt8_eq, UInt8.toNat_ofNat']
    omega
  have sizedLength : values.flatten.length = values.length.toUInt8.toNat * size := by
    rw [count]
    exact length_flatten_of_forall sized
  have array := advanceOffsetForArray_of_drop_eq_append (drop_succ_of_drop_eq_cons remaining) sizedLength
  rw [count] at array
  simp only [readCountedArray, readByte_of_drop_eq_cons remaining, ByteDecoder.ok_bind, count,
    ite_throw_bind_eq_ok]
  refine ⟨by omega, ?_⟩
  rw [array, ← Nat.add_assoc]
  rfl

theorem and_messageVersionPrefix_eq_zero {byte : UInt8} (small : byte.toNat < 128) :
    byte &&& messageVersionPrefix = 0 := by
  apply UInt8.toNat_inj.1
  rw [UInt8.toNat_and, show messageVersionPrefix.toNat = 0x80 from rfl, UInt8.toNat_zero]
  exact (and_0x80_eq_zero_iff byte.toNat_lt_size).2 small

theorem MessageHeaderFrame.tryNew_of_drop {version : TransactionVersion} {required readonlySigned readonlyUnsigned : UInt8}
    (remaining : bytes.drop offset =
      (TransactionLayout.versionPrefix version ++ [required, readonlySigned, readonlyUnsigned]) ++ rest)
    (legacy : version = .legacy → required.toNat < 128) :
    MessageHeaderFrame.tryNew bytes offset =
      .ok (⟨offset % 2 ^ 16, version, required.toNat, readonlySigned.toNat, readonlyUnsigned.toNat⟩,
        offset + (TransactionLayout.versionPrefix version ++ [required, readonlySigned, readonlyUnsigned]).length) := by
  cases version
  case legacy =>
    simp only [TransactionLayout.versionPrefix, List.nil_append, List.cons_append] at remaining
    have second := drop_succ_of_drop_eq_cons remaining
    have third := drop_succ_of_drop_eq_cons second
    have unversioned := and_messageVersionPrefix_eq_zero (legacy rfl)
    simp only [MessageHeaderFrame.tryNew, readByte_of_drop_eq_cons remaining, ByteDecoder.ok_bind, unversioned,
      ne_eq, not_true_eq_false, ↓reduceIte, pure_bind, readByte_of_drop_eq_cons second,
      readByte_of_drop_eq_cons third]
    rfl
  case v0 =>
    simp only [TransactionLayout.versionPrefix, List.cons_append] at remaining
    have first := drop_succ_of_drop_eq_cons remaining
    have second := drop_succ_of_drop_eq_cons first
    have third := drop_succ_of_drop_eq_cons second
    have versioned : messageVersionPrefix &&& messageVersionPrefix ≠ 0 := by decide
    have version0 : messageVersionPrefix &&& ~~~messageVersionPrefix = 0 := by decide
    simp only [MessageHeaderFrame.tryNew, readByte_of_drop_eq_cons remaining, ByteDecoder.ok_bind,
      if_pos versioned, if_pos version0, readByte_of_drop_eq_cons first, pure_bind, readByte_of_drop_eq_cons second,
      readByte_of_drop_eq_cons third]
    rfl

theorem skipInstruction_of_drop {instruction : SVMInstruction}
    (remaining : bytes.drop offset = serializeInstruction instruction ++ rest)
    (small : instruction.accounts.length < 2 ^ 14 ∧ instruction.data.length < 2 ^ 14) :
    skipInstruction bytes offset = .ok (offset + (serializeInstruction instruction).length) := by
  simp only [serializeInstruction, List.cons_append, List.append_assoc] at remaining
  have atCount := drop_succ_of_drop_eq_cons remaining
  have atAccounts := drop_add_length_of_drop_eq_append atCount
  have atDataLen := drop_add_length_of_drop_eq_append atAccounts
  have atData := drop_add_length_of_drop_eq_append atDataLen
  simp only [skipInstruction, readByte_of_drop_eq_cons remaining, ByteDecoder.ok_bind,
    optimizedReadCompressedU16_of_drop_eq_append atCount small.1,
    advanceOffsetForArray_of_drop_eq_append atAccounts (Nat.mul_one _).symm,
    optimizedReadCompressedU16_of_drop_eq_append atDataLen small.2,
    advanceOffsetForArray_of_drop_eq_append atData (Nat.mul_one _).symm, serializeInstruction, List.length_cons,
    List.length_append]
  congr 1
  omega

theorem skipInstructions_of_drop :
    ∀ {instructions : List SVMInstruction} {offset : Nat},
      bytes.drop offset = instructions.flatMap serializeInstruction ++ rest →
      (∀ instruction ∈ instructions, instruction.accounts.length < 2 ^ 14 ∧ instruction.data.length < 2 ^ 14) →
      skipInstructions bytes instructions.length offset =
        .ok (offset + (instructions.flatMap serializeInstruction).length)
  | [], offset, _, _ => by simp [skipInstructions, pure, Except.pure]
  | instruction :: instructions, offset, remaining, small => by
    rw [List.flatMap_cons, List.append_assoc] at remaining
    have first := skipInstruction_of_drop remaining (small instruction List.mem_cons_self)
    have later := skipInstructions_of_drop (drop_add_length_of_drop_eq_append remaining)
      fun i mem => small i (List.mem_cons_of_mem _ mem)
    rw [List.length_cons, skipInstructions, first, ByteDecoder.ok_bind, later, List.flatMap_cons, List.length_append,
      Nat.add_assoc]

theorem InstructionsFrame.tryNew_of_drop {instructions : List SVMInstruction}
    (remaining : bytes.drop offset =
      (serialize instructions.length ++ instructions.flatMap serializeInstruction) ++ rest)
    (few : instructions.length < 2 ^ 14)
    (small : ∀ instruction ∈ instructions, instruction.accounts.length < 2 ^ 14 ∧ instruction.data.length < 2 ^ 14) :
    InstructionsFrame.tryNew bytes offset =
      .ok (⟨instructions.length, (offset + (serialize instructions.length).length) % 2 ^ 16⟩,
        offset + (serialize instructions.length ++ instructions.flatMap serializeInstruction).length) := by
  rw [List.append_assoc] at remaining
  have atInstructions := drop_add_length_of_drop_eq_append remaining
  have enough : 3 * instructions.length ≤ (instructions.flatMap serializeInstruction).length :=
    mul_le_length_flatMap fun instruction _ => three_le_length_serializeInstruction instruction
  simp only [InstructionsFrame.tryNew, optimizedReadCompressedU16_of_drop_eq_append remaining few,
    ByteDecoder.ok_bind, checkRemaining_of_drop_eq_append atInstructions enough,
    skipInstructions_of_drop atInstructions small, List.length_append, Nat.add_assoc]
  rfl

section Lookups

variable {totalWritable totalReadonly : Nat}

theorem skipAddressTableLookup_of_drop {lookup : SVMMessageAddressTableLookup}
    (remaining : bytes.drop offset = serializeAddressTableLookup lookup ++ rest) (fits : LookupFits lookup) :
    skipAddressTableLookup bytes offset totalWritable totalReadonly =
      .ok (offset + (serializeAddressTableLookup lookup).length,
        MachineInt.wrappingAdd 32 totalWritable lookup.writableIndexes.length,
        MachineInt.wrappingAdd 32 totalReadonly lookup.readonlyIndexes.length) := by
  obtain ⟨key, smallWrite, smallRead, -⟩ := fits
  simp only [serializeAddressTableLookup, List.append_assoc] at remaining
  have atWriteCount := drop_add_length_of_drop_eq_append remaining
  have atWritable := drop_add_length_of_drop_eq_append atWriteCount
  have atReadCount := drop_add_length_of_drop_eq_append atWritable
  have atReadonly := drop_add_length_of_drop_eq_append atReadCount
  simp only [skipAddressTableLookup, advanceOffsetForType_of_drop_eq_append remaining key, ByteDecoder.ok_bind,
    optimizedReadCompressedU16_of_drop_eq_append atWriteCount smallWrite,
    advanceOffsetForArray_of_drop_eq_append atWritable (Nat.mul_one _).symm,
    optimizedReadCompressedU16_of_drop_eq_append atReadCount smallRead,
    advanceOffsetForArray_of_drop_eq_append atReadonly (Nat.mul_one _).symm, serializeAddressTableLookup,
    List.length_append]
  congr 2
  omega

theorem skipAddressTableLookups_of_drop :
    ∀ {lookups : List SVMMessageAddressTableLookup} {offset totalWritable totalReadonly : Nat},
      bytes.drop offset = lookups.flatMap serializeAddressTableLookup ++ rest → (∀ lookup ∈ lookups, LookupFits lookup) →
      skipAddressTableLookups bytes lookups.length offset (totalWritable % 2 ^ 32) (totalReadonly % 2 ^ 32) =
        .ok (offset + (lookups.flatMap serializeAddressTableLookup).length,
          (totalWritable + (lookups.map (·.writableIndexes.length)).sum) % 2 ^ 32,
          (totalReadonly + (lookups.map (·.readonlyIndexes.length)).sum) % 2 ^ 32)
  | [], offset, totalWritable, totalReadonly, _, _ => by simp [skipAddressTableLookups, pure, Except.pure]
  | lookup :: lookups, offset, totalWritable, totalReadonly, remaining, fit => by
    rw [List.flatMap_cons, List.append_assoc] at remaining
    rw [List.length_cons, skipAddressTableLookups,
      skipAddressTableLookup_of_drop remaining (fit lookup List.mem_cons_self), ByteDecoder.ok_bind]
    dsimp only
    rw [MachineInt.wrappingAdd, MachineInt.wrappingAdd, Nat.mod_add_mod, Nat.mod_add_mod,
      skipAddressTableLookups_of_drop (drop_add_length_of_drop_eq_append remaining)
        fun other mem => fit other (List.mem_cons_of_mem _ mem)]
    simp only [List.flatMap_cons, List.length_append, List.map_cons, List.sum_cons, Nat.add_assoc]

theorem AddressTableLookupFrame.tryNew_of_drop {lookups : List SVMMessageAddressTableLookup}
    (remaining : bytes.drop offset =
      (serialize lookups.length ++ lookups.flatMap serializeAddressTableLookup) ++ rest)
    (few : lookups.length ≤ maxAtlsPerPacket) (fit : ∀ lookup ∈ lookups, LookupFits lookup)
    (writable : (lookups.map (·.writableIndexes.length)).sum < 2 ^ 16)
    (readonly : (lookups.map (·.readonlyIndexes.length)).sum < 2 ^ 16) :
    AddressTableLookupFrame.tryNew bytes offset =
      .ok (⟨lookups.length, (offset + 1) % 2 ^ 16, (lookups.map (·.writableIndexes.length)).sum,
          (lookups.map (·.readonlyIndexes.length)).sum⟩,
        offset + (serialize lookups.length ++ lookups.flatMap serializeAddressTableLookup).length) := by
  have most : maxAtlsPerPacket = 31 := by decide
  have short := serialize_of_lt_128 (show lookups.length < 128 by omega)
  rw [List.length_append, short, List.length_singleton, ← Nat.add_assoc]
  rw [short, List.singleton_append, List.cons_append] at remaining
  have count : lookups.length.toUInt8.toNat = lookups.length := by
    simp only [Nat.toUInt8_eq, UInt8.toNat_ofNat']
    omega
  have atLookups := drop_succ_of_drop_eq_cons remaining
  have enough : minSizedAtl * lookups.length ≤ (lookups.flatMap serializeAddressTableLookup).length :=
    mul_le_length_flatMap fun lookup mem =>
      minSizedAtl_le_length_serializeAddressTableLookup (fit lookup mem).1 (fit lookup mem).2.2.2
  have skipped := @skipAddressTableLookups_of_drop bytes rest lookups (offset + 1) 0 0 atLookups fit
  simp only [Nat.zero_mod, Nat.zero_add, Nat.mod_eq_of_lt (show _ < 2 ^ 32 from writable.trans (by decide)),
    Nat.mod_eq_of_lt (show _ < 2 ^ 32 from readonly.trans (by decide))] at skipped
  simp only [AddressTableLookupFrame.tryNew, readByte_of_drop_eq_cons remaining, ByteDecoder.ok_bind, count,
    show ¬lookups.length > maxAtlsPerPacket by omega, ↓reduceIte, checkRemaining_of_drop_eq_append atLookups enough,
    skipped, Nat.not_le.2 writable, Nat.not_le.2 readonly, ge_iff_le]
  rfl

end Lookups

end Accept

/-! ### The whole transaction -/

theorem tryNew_serialize {tx : TransactionLayout} (valid : tx.Valid) :
    ∃ frame, TransactionFrame.tryNew tx.serialize = .ok frame ∧
      frame.signature.numSignatures = tx.signatures.length ∧
      frame.messageHeader.version = tx.version ∧
      frame.staticAccountKeys.numStaticAccounts = tx.staticAccountKeys.length ∧
      frame.instructions.numInstructions = tx.instructions.length ∧
      frame.addressTableLookup.numAddressTableLookups = tx.addressTableLookups.length ∧
      frame.addressTableLookup.totalWritableLookupAccounts =
        (tx.addressTableLookups.map (·.writableIndexes.length)).sum ∧
      frame.addressTableLookup.totalReadonlyLookupAccounts =
        (tx.addressTableLookups.map (·.readonlyIndexes.length)).sum ∧
      (tx.version = .v0 →
        frame.addressTableLookup.offset = (tx.serialize.length - tx.lookupsSection.length + 1) % 2 ^ 16) := by
  obtain ⟨signatures, signatureLength, legacyHeader, keys, keyLength, blockhash, few, instructionLengths, lookups,
    lookupLengths, totalWritable, totalReadonly, legacyLookups⟩ := valid
  have atSignatures : tx.serialize.drop 0 = (serialize tx.signatures.length ++ tx.signatures.flatten) ++ _ := rfl
  have atHeader := drop_add_length_of_drop_eq_append atSignatures
  have atKeys := drop_add_length_of_drop_eq_append atHeader
  have atBlockhash := drop_add_length_of_drop_eq_append atKeys
  have atInstructions := drop_add_length_of_drop_eq_append atBlockhash
  rw [TransactionLayout.instructionsSection] at atInstructions
  have atLookups := drop_add_length_of_drop_eq_append atInstructions
  simp only [TransactionFrame.tryNew, SignatureFrame.tryNew,
    readCountedArray_of_drop atSignatures signatures (by decide) signatureLength, ByteDecoder.ok_bind, pure_bind,
    MessageHeaderFrame.tryNew_of_drop atHeader legacyHeader, StaticAccountKeysFrame.tryNew,
    readCountedArray_of_drop atKeys keys (by decide) keyLength, advanceOffsetForType_of_drop_eq_append atBlockhash blockhash,
    InstructionsFrame.tryNew_of_drop atInstructions few instructionLengths]
  have nonempty : serialize tx.instructions.length ++ tx.instructions.flatMap serializeInstruction ++
      tx.lookupsSection ≠ [] := by
    intro empty
    have lengths := congrArg List.length empty
    have positive := one_le_length_serialize tx.instructions.length
    simp only [List.length_append, List.length_nil] at lengths
    omega
  have ended := length_eq_of_drop_eq atInstructions nonempty
  cases version : tx.version
  case legacy =>
    have noSection : tx.lookupsSection = [] := by simp only [TransactionLayout.lookupsSection, version]
    rw [noSection] at ended
    simp only [version] at ended ⊢
    refine ⟨_, ite_throw_bind_eq_ok.2 ⟨by simp only [List.length_append, List.length_nil, ne_eq, not_not] at ended ⊢; omega, rfl⟩, rfl, rfl, rfl, rfl, ?_, ?_, ?_,
      fun v0 => absurd v0 (by decide)⟩
    all_goals simp [legacyLookups version]
  case v0 =>
    have lookupsSection : tx.lookupsSection = (serialize tx.addressTableLookups.length ++
        tx.addressTableLookups.flatMap serializeAddressTableLookup) ++ [] := by
      simp only [TransactionLayout.lookupsSection, version, List.append_nil]
    rw [lookupsSection] at atLookups ended
    simp only [version] at atLookups ended ⊢
    simp only [AddressTableLookupFrame.tryNew_of_drop atLookups lookups lookupLengths totalWritable totalReadonly,
      ByteDecoder.ok_bind]
    refine ⟨_, ite_throw_bind_eq_ok.2
      ⟨by simp only [List.length_append, List.length_nil, ne_eq, not_not] at ended ⊢; omega, rfl⟩,
      rfl, rfl, rfl, rfl, rfl, rfl, rfl, fun _ => ?_⟩
    rw [lookupsSection, ended]
    simp only [List.length_append, List.length_nil]
    congr 1
    omega

/-! ### Reading a serialized lookup back -/

theorem take_of_drop_eq_append {bytes pre rest : List UInt8} {offset n : Nat}
    (remaining : bytes.drop offset = pre ++ rest) (length : pre.length = n) : (bytes.drop offset).take n = pre := by
  rw [remaining, ← length, List.take_left]

theorem run_readAddressTableLookup_of_drop {bytes rest : List UInt8} {offset : Nat} {lookup : SVMMessageAddressTableLookup}
    (remaining : bytes.drop offset = serializeAddressTableLookup lookup ++ rest) (key : lookup.accountKey.length = 32)
    (smallWrite : lookup.writableIndexes.length < 2 ^ 14) (smallRead : lookup.readonlyIndexes.length < 2 ^ 14) :
    (readAddressTableLookup bytes).run.run offset =
      (some lookup, offset + (serializeAddressTableLookup lookup).length) := by
  simp only [serializeAddressTableLookup, List.append_assoc] at remaining
  have atWriteCount := drop_add_length_of_drop_eq_append remaining
  have atWritable := drop_add_length_of_drop_eq_append atWriteCount
  have atReadCount := drop_add_length_of_drop_eq_append atWritable
  have atReadonly := drop_add_length_of_drop_eq_append atReadCount
  rw [readAddressTableLookup,
    run_bind_of_some (run_readOk_of_ok (readType_of_advanceOffsetForType
      (advanceOffsetForType_of_drop_eq_append remaining key))),
    run_bind_of_some (run_readOk_of_ok (optimizedReadCompressedU16_of_drop_eq_append atWriteCount smallWrite)),
    run_bind_of_some (run_readOk_readSliceData (advanceOffsetForArray_of_drop_eq_append atWritable (Nat.mul_one _).symm)),
    run_bind_of_some (run_readOk_of_ok (optimizedReadCompressedU16_of_drop_eq_append atReadCount smallRead)),
    run_bind_of_some (run_readOk_readSliceData (advanceOffsetForArray_of_drop_eq_append atReadonly (Nat.mul_one _).symm))]
  change (some (SVMMessageAddressTableLookup.mk _ _ _), _) = _
  rw [take_of_drop_eq_append remaining key, take_of_drop_eq_append atWritable (Nat.mul_one _).symm,
    take_of_drop_eq_append atReadonly (Nat.mul_one _).symm]
  simp only [serializeAddressTableLookup, List.length_append, Nat.add_assoc]

/-! ### A packet of `2 ^ 16` bytes or more

`AddressTableLookupFrame::try_new` keeps the offset of the lookups as a `u16`, so in a longer packet
the iterator reads its lookups from the wrong place. -/

def bigInstruction : SVMInstruction := ⟨0, List.replicate 16383 0, List.replicate 16383 0⟩

/-- A `v0` packet of 65713 bytes: two instructions of 32771 bytes, then one lookup. -/
def longPacket : TransactionLayout :=
  ⟨[List.replicate 64 0], .v0, 1, 0, 0, [List.replicate 32 0], List.replicate 32 0,
    [bigInstruction, bigInstruction], [⟨List.replicate 32 0, [0], []⟩]⟩

def emptyLookup : SVMMessageAddressTableLookup := ⟨List.replicate 32 0, [], []⟩

theorem serialize_16383 : serialize 16383 = [0xFF, 0x7F] := by
  rw [serialize_eq, encode_of_le (by norm_num), encode_of_lt (by norm_num)]
  rfl

theorem serializeAddressTableLookup_emptyLookup :
    serializeAddressTableLookup emptyLookup = List.replicate 34 0 := by
  rw [serializeAddressTableLookup, emptyLookup, List.length_nil, serialize_of_lt_128 (by norm_num)]
  rfl

theorem serializeInstruction_bigInstruction :
    serializeInstruction bigInstruction =
      [0, 0xFF, 0x7F] ++ (List.replicate 4 0 ++ (serializeAddressTableLookup emptyLookup ++
        (List.replicate 16345 0 ++ ([0xFF, 0x7F] ++ List.replicate 16383 0)))) := by
  have accounts : List.replicate 16383 (0 : UInt8) =
      List.replicate 4 0 ++ List.replicate 34 0 ++ List.replicate 16345 0 := by
    rw [← List.replicate_add, ← List.replicate_add]
  simp only [serializeInstruction, bigInstruction, List.length_replicate]
  rw [serialize_16383, serializeAddressTableLookup_emptyLookup]
  nth_rewrite 1 [accounts]
  simp only [List.cons_append, List.nil_append, List.append_assoc]

theorem serialize_longPacket :
    longPacket.serialize =
      ([1] ++ List.replicate 64 0) ++ (([0x80] ++ [1, 0, 0]) ++ (([1] ++ List.replicate 32 0) ++
        (List.replicate 32 0 ++ (([2] ++ (serializeInstruction bigInstruction ++ serializeInstruction bigInstruction)) ++
          longPacket.lookupsSection)))) := by
  have one : Nat.toUInt8 1 = 1 := rfl
  have two : Nat.toUInt8 2 = 2 := rfl
  rw [TransactionLayout.serialize, TransactionLayout.instructionsSection]
  simp only [longPacket, List.length_cons, List.length_nil, Nat.reduceAdd, TransactionLayout.versionPrefix,
    List.flatten_cons, List.flatten_nil, List.flatMap_cons, List.flatMap_nil, List.append_nil]
  rw [serialize_of_lt_128 (by norm_num), serialize_of_lt_128 (by norm_num), one, two, messageVersionPrefix]

theorem drop_append_of_length_le {α : Type} {l₁ l₂ : List α} {n : Nat} (short : l₁.length ≤ n) :
    (l₁ ++ l₂).drop n = l₂.drop (n - l₁.length) := by
  rw [List.drop_append, List.drop_eq_nil_of_le short, List.nil_append]

theorem drop_serialize_longPacket :
    ∃ rest, longPacket.serialize.drop 142 = serializeAddressTableLookup emptyLookup ++ rest := by
  rw [serialize_longPacket, serializeInstruction_bigInstruction]
  simp only [List.append_assoc, List.length_cons, List.length_nil, List.length_replicate, Nat.reduceAdd,
    drop_append_of_length_le, Nat.reduceSub, Nat.reduceLeDiff, List.drop_zero]
  exact ⟨_, rfl⟩

theorem length_lookupsSection_longPacket : longPacket.lookupsSection.length = 36 := by
  simp only [longPacket, TransactionLayout.lookupsSection, List.flatMap_cons, List.flatMap_nil, List.length_append,
    serializeAddressTableLookup, List.length_cons, List.length_nil, List.length_replicate,
    serialize_of_lt_128 (by norm_num : 1 < 128), serialize_of_lt_128 (by norm_num : 0 < 128)]

theorem length_serializeInstruction_bigInstruction : (serializeInstruction bigInstruction).length = 32771 := by
  rw [serializeInstruction_bigInstruction, serializeAddressTableLookup_emptyLookup]
  simp only [List.length_append, List.length_replicate]
  rfl

theorem length_serialize_longPacket : longPacket.serialize.length = 65713 := by
  rw [serialize_longPacket]
  simp only [List.length_append, length_serializeInstruction_bigInstruction, length_lookupsSection_longPacket]
  rfl

theorem longPacket_valid : longPacket.Valid where
  signatures := by decide
  signatureLength := by simp only [longPacket, List.mem_singleton, forall_eq, List.length_replicate]
  legacyHeader := by simp only [longPacket, reduceCtorEq, IsEmpty.forall_iff]
  staticAccountKeys := by decide
  keyLength := by simp only [longPacket, List.mem_singleton, forall_eq, List.length_replicate]
  recentBlockhash := List.length_replicate
  instructions := by decide
  instructionLengths := by
    simp only [longPacket, bigInstruction, List.mem_cons, List.not_mem_nil, or_false, forall_eq_or_imp, forall_eq,
      List.length_replicate, and_self]
    norm_num
  lookups := by decide
  lookupLengths := by
    simp only [longPacket, List.mem_singleton, forall_eq, LookupFits, List.length_replicate, List.length_cons,
      List.length_nil]
    norm_num
  totalWritable := by decide
  totalReadonly := by decide
  legacyLookups := by simp only [longPacket, reduceCtorEq, IsEmpty.forall_iff]

theorem transactionView_iterators_long_packet :
    ∃ frame, TransactionFrame.tryNew longPacket.serialize = .ok frame ∧ 2 ^ 16 ≤ longPacket.serialize.length ∧
      frame.addressTableLookup.numAddressTableLookups = 1 ∧
      frame.addressTableLookup.totalWritableLookupAccounts = 1 ∧
      collect AddressTableLookupIterator.next 2 (frame.addressTableLookupIter longPacket.serialize) =
        some ([emptyLookup], ⟨longPacket.serialize, 176, 1, 1⟩) := by
  obtain ⟨frame, parsed, -, -, -, -, lookups, writable, -, offset⟩ := tryNew_serialize longPacket_valid
  -- `(65713 - 36 + 1) % 2 ^ 16`: the lookups are read from byte 142, inside the first instruction
  have start : frame.addressTableLookup.offset = 142 := by
    rw [offset rfl, length_serialize_longPacket, length_lookupsSection_longPacket]
    norm_num
  obtain ⟨rest, remaining⟩ := drop_serialize_longPacket
  have reads := run_readAddressTableLookup_of_drop remaining List.length_replicate (by decide) (by decide)
  rw [serializeAddressTableLookup_emptyLookup] at reads
  have iter : frame.addressTableLookupIter longPacket.serialize = ⟨longPacket.serialize, 142, 1, 0⟩ := by
    rw [TransactionFrame.addressTableLookupIter, start, lookups]
    rfl
  -- the iterator is given whole, so that the read unifies with it and not the packet's bytes
  have first : AddressTableLookupIterator.next (frame.addressTableLookupIter longPacket.serialize) =
      (some emptyLookup, ⟨longPacket.serialize, 176, 1, 1⟩) := by
    rw [iter, @AddressTableLookupIterator.next_of_lt ⟨longPacket.serialize, 142, 1, 0⟩ _ _ (by decide) (by decide)
      reads]
    rfl
  have second : AddressTableLookupIterator.next ⟨longPacket.serialize, 176, 1, 1⟩ =
      (none, ⟨longPacket.serialize, 176, 1, 1⟩) := by
    rw [AddressTableLookupIterator.next, nextItem_of_ge (le_refl 1)]
  refine ⟨frame, parsed, by rw [length_serialize_longPacket]; norm_num, lookups, writable, ?_⟩
  rw [collect_succ_of_some 1 first, collect_succ_of_none 0 second]
  rfl

end TransactionView
