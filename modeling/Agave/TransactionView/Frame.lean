import Mathlib
import Agave.Library.MachineInt
import Agave.Library.ExceptLoop
import Agave.TransactionView.Bytes

/-! `TransactionFrame::try_new`: one pass over a serialized transaction that checks its layout and
keeps, for each section, its length and where it starts: the signatures, the message header and
its version, the static account keys, the recent blockhash, the instructions and, in a `v0`
transaction, the address table lookups. The bytes must end where the last section does.

The starting offsets are `u16` in the frames, cast from the `usize` offset; the cast is `% 2 ^ 16`.
The loops of the frames are recursive functions with one pass per element, as `for _ in 0..n`
runs them. -/

namespace TransactionView

open MachineInt

def packetDataSize : Nat := 1280 - 40 - 8

/-- Each signature comes with a static key: 96 bytes. -/
def maxSignaturesPerPacket : Nat := packetDataSize / (64 + 32)

def maxStaticAccountsPerPacket : Nat := packetDataSize / 32

/-- A key and two array lengths, and one index in one of the arrays. -/
def minSizedAtl : Nat := 32 + 1 + 1 + 1

def minSizedPacketWithAtls : Nat := 1 + 64 + 1 + 3 + 1 + 32 + 32 + 1 + 1

def maxAtlsPerPacket : Nat := (packetDataSize - minSizedPacketWithAtls) / minSizedAtl

def messageVersionPrefix : UInt8 := 0x80

inductive TransactionVersion where
  | legacy
  | v0
  deriving DecidableEq, Repr

structure SignatureFrame where
  numSignatures : Nat
  offset : Nat
  deriving DecidableEq, Repr

/-- The two counted arrays of a transaction, its signatures and its static account keys: a count
byte, neither zero nor above `max`, then that many values of `size` bytes. The count, where the
values begin, and the offset after them. -/
def readCountedArray (size max : Nat) (bytes : List UInt8) (offset : Nat) :
    Except TransactionViewError (Nat × Nat × Nat) := do
  let (num, offset) ← readByte bytes offset
  if num.toNat = 0 ∨ num.toNat > max then throw .parseError
  let arrayOffset := offset % 2 ^ 16
  let offset ← advanceOffsetForArray size bytes offset num.toNat
  pure (num.toNat, arrayOffset, offset)

def SignatureFrame.tryNew (bytes : List UInt8) (offset : Nat) :
    Except TransactionViewError (SignatureFrame × Nat) := do
  let (numSignatures, signatureOffset, offset) ← readCountedArray 64 maxSignaturesPerPacket bytes offset
  pure (⟨numSignatures, signatureOffset⟩, offset)

structure MessageHeaderFrame where
  offset : Nat
  version : TransactionVersion
  numRequiredSignatures : Nat
  numReadonlySignedAccounts : Nat
  numReadonlyUnsignedAccounts : Nat
  deriving DecidableEq, Repr

/-- The prefix byte of a `v0` message has its top bit set, and the version below it; a legacy
message has no prefix, and the byte is its count of required signatures. -/
def MessageHeaderFrame.tryNew (bytes : List UInt8) (offset : Nat) :
    Except TransactionViewError (MessageHeaderFrame × Nat) := do
  let messageOffset := offset % 2 ^ 16
  let (messagePrefix, offset) ← readByte bytes offset
  let (version, numRequiredSignatures, offset) ←
    if messagePrefix &&& messageVersionPrefix ≠ 0 then
      if messagePrefix &&& ~~~messageVersionPrefix = 0 then do
        let (numRequiredSignatures, offset) ← readByte bytes offset
        pure (TransactionVersion.v0, numRequiredSignatures.toNat, offset)
      else throw .parseError
    else pure (TransactionVersion.legacy, messagePrefix.toNat, offset)
  let (numReadonlySignedAccounts, offset) ← readByte bytes offset
  let (numReadonlyUnsignedAccounts, offset) ← readByte bytes offset
  pure (⟨messageOffset, version, numRequiredSignatures, numReadonlySignedAccounts.toNat,
    numReadonlyUnsignedAccounts.toNat⟩, offset)

structure StaticAccountKeysFrame where
  numStaticAccounts : Nat
  offset : Nat
  deriving DecidableEq, Repr

def StaticAccountKeysFrame.tryNew (bytes : List UInt8) (offset : Nat) :
    Except TransactionViewError (StaticAccountKeysFrame × Nat) := do
  let (numStaticAccounts, staticAccountsOffset, offset) ←
    readCountedArray 32 maxStaticAccountsPerPacket bytes offset
  pure (⟨numStaticAccounts, staticAccountsOffset⟩, offset)

structure InstructionsFrame where
  numInstructions : Nat
  offset : Nat
  deriving DecidableEq, Repr

/-- One pass of the loop of `InstructionsFrame::try_new`: the program index, then the account
indexes and the data, each a length and that many bytes. -/
def skipInstruction (bytes : List UInt8) (offset : Nat) : Except TransactionViewError Nat := do
  let (_, offset) ← readByte bytes offset
  let (numAccounts, offset) ← optimizedReadCompressedU16 bytes offset
  let offset ← advanceOffsetForArray 1 bytes offset numAccounts
  let (dataLen, offset) ← optimizedReadCompressedU16 bytes offset
  advanceOffsetForArray 1 bytes offset dataLen

def skipInstructions (bytes : List UInt8) : Nat → Nat → Except TransactionViewError Nat
  | 0, offset => pure offset
  | n + 1, offset => do
    let offset ← skipInstruction bytes offset
    skipInstructions bytes n offset

/-- Every instruction takes three bytes at least, which the count is checked against first. -/
def InstructionsFrame.tryNew (bytes : List UInt8) (offset : Nat) :
    Except TransactionViewError (InstructionsFrame × Nat) := do
  let (numInstructions, offset) ← optimizedReadCompressedU16 bytes offset
  checkRemaining bytes offset (3 * numInstructions)
  let instructionsOffset := offset % 2 ^ 16
  let offset ← skipInstructions bytes numInstructions offset
  pure (⟨numInstructions, instructionsOffset⟩, offset)

structure AddressTableLookupFrame where
  numAddressTableLookups : Nat
  offset : Nat
  totalWritableLookupAccounts : Nat
  totalReadonlyLookupAccounts : Nat
  deriving DecidableEq, Repr

/-- One pass of the loop of `AddressTableLookupFrame::try_new`: the table's key, then the writable
and the readonly indexes, each a length and that many bytes; the lengths add into `u32` totals. -/
def skipAddressTableLookup (bytes : List UInt8) (offset totalWritable totalReadonly : Nat) :
    Except TransactionViewError (Nat × Nat × Nat) := do
  let offset ← advanceOffsetForType 32 bytes offset
  let (numWriteAccounts, offset) ← optimizedReadCompressedU16 bytes offset
  let totalWritable := wrappingAdd 32 totalWritable numWriteAccounts
  let offset ← advanceOffsetForArray 1 bytes offset numWriteAccounts
  let (numReadAccounts, offset) ← optimizedReadCompressedU16 bytes offset
  let totalReadonly := wrappingAdd 32 totalReadonly numReadAccounts
  let offset ← advanceOffsetForArray 1 bytes offset numReadAccounts
  pure (offset, totalWritable, totalReadonly)

def skipAddressTableLookups (bytes : List UInt8) :
    Nat → Nat → Nat → Nat → Except TransactionViewError (Nat × Nat × Nat)
  | 0, offset, totalWritable, totalReadonly => pure (offset, totalWritable, totalReadonly)
  | n + 1, offset, totalWritable, totalReadonly => do
    let (offset, totalWritable, totalReadonly) ←
      skipAddressTableLookup bytes offset totalWritable totalReadonly
    skipAddressTableLookups bytes n offset totalWritable totalReadonly

/-- The totals are `u16` in the frame; a sum past `u16::MAX` is a sanitize error. -/
def AddressTableLookupFrame.tryNew (bytes : List UInt8) (offset : Nat) :
    Except TransactionViewError (AddressTableLookupFrame × Nat) := do
  let (numAddressTableLookups, offset) ← readByte bytes offset
  if numAddressTableLookups.toNat > maxAtlsPerPacket then throw .parseError
  checkRemaining bytes offset (minSizedAtl * numAddressTableLookups.toNat)
  let addressTableLookupsOffset := offset % 2 ^ 16
  let (offset, totalWritableLookupAccounts, totalReadonlyLookupAccounts) ←
    skipAddressTableLookups bytes numAddressTableLookups.toNat offset 0 0
  if totalWritableLookupAccounts ≥ 2 ^ 16 then throw .sanitizeError
  if totalReadonlyLookupAccounts ≥ 2 ^ 16 then throw .sanitizeError
  pure (⟨numAddressTableLookups.toNat, addressTableLookupsOffset, totalWritableLookupAccounts,
    totalReadonlyLookupAccounts⟩, offset)

structure TransactionFrame where
  signature : SignatureFrame
  messageHeader : MessageHeaderFrame
  staticAccountKeys : StaticAccountKeysFrame
  recentBlockhashOffset : Nat
  instructions : InstructionsFrame
  addressTableLookup : AddressTableLookupFrame
  deriving DecidableEq, Repr

def TransactionFrame.tryNew (bytes : List UInt8) : Except TransactionViewError TransactionFrame := do
  let (signature, offset) ← SignatureFrame.tryNew bytes 0
  let (messageHeader, offset) ← MessageHeaderFrame.tryNew bytes offset
  let (staticAccountKeys, offset) ← StaticAccountKeysFrame.tryNew bytes offset
  let recentBlockhashOffset := offset % 2 ^ 16
  let offset ← advanceOffsetForType 32 bytes offset
  let (instructions, offset) ← InstructionsFrame.tryNew bytes offset
  let (addressTableLookup, offset) ←
    match messageHeader.version with
    | .legacy => pure (⟨0, 0, 0, 0⟩, offset)
    | .v0 => AddressTableLookupFrame.tryNew bytes offset
  if offset ≠ bytes.length then throw .parseError
  pure ⟨signature, messageHeader, staticAccountKeys, recentBlockhashOffset, instructions,
    addressTableLookup⟩

/-! ### What a successful pass leaves -/

section Parsed

open ExceptLoop

variable {bytes : List UInt8} {offset offset' : Nat}

theorem offset_le_of_skipInstruction (skipped : skipInstruction bytes offset = .ok offset') :
    offset ≤ offset' := by
  simp only [skipInstruction, bind_eq_ok] at skipped
  obtain ⟨⟨_, o1⟩, read1, ⟨_, o2⟩, read2, o3, advanced3, ⟨_, o4⟩, read4, advanced5⟩ := skipped
  have := offset_lt_of_readByte read1
  have := offset_lt_of_optimizedReadCompressedU16 read2
  have := offset_le_of_advanceOffsetForArray advanced3
  have := offset_lt_of_optimizedReadCompressedU16 read4
  have := offset_le_of_advanceOffsetForArray advanced5
  omega

theorem offset_le_of_skipInstructions :
    ∀ {n offset}, skipInstructions bytes n offset = .ok offset' → offset ≤ offset'
  | 0, _, skipped => by
    rw [skipInstructions, pure_eq_ok] at skipped
    omega
  | _ + 1, _, skipped => by
    rw [skipInstructions, bind_eq_ok] at skipped
    obtain ⟨o1, first, rest⟩ := skipped
    exact (offset_le_of_skipInstruction first).trans (offset_le_of_skipInstructions rest)

theorem offset_le_of_skipAddressTableLookup {totalWritable totalReadonly : Nat} {result : Nat × Nat × Nat}
    (skipped : skipAddressTableLookup bytes offset totalWritable totalReadonly = .ok result) :
    offset ≤ result.1 := by
  simp only [skipAddressTableLookup, bind_eq_ok, pure_eq_ok] at skipped
  obtain ⟨o1, advanced1, ⟨_, o2⟩, read2, o3, advanced3, ⟨_, o4⟩, read4, o5, advanced5, rfl⟩ := skipped
  have := offset_le_of_advanceOffsetForType advanced1
  have := offset_lt_of_optimizedReadCompressedU16 read2
  have := offset_le_of_advanceOffsetForArray advanced3
  have := offset_lt_of_optimizedReadCompressedU16 read4
  have := offset_le_of_advanceOffsetForArray advanced5
  dsimp only
  omega

theorem offset_le_of_skipAddressTableLookups {result : Nat × Nat × Nat} :
    ∀ {n offset totalWritable totalReadonly},
      skipAddressTableLookups bytes n offset totalWritable totalReadonly = .ok result → offset ≤ result.1
  | 0, _, _, _, skipped => by
    rw [skipAddressTableLookups, pure_eq_ok] at skipped
    rw [← skipped]
  | _ + 1, _, _, _, skipped => by
    rw [skipAddressTableLookups, bind_eq_ok] at skipped
    obtain ⟨⟨o1, w1, r1⟩, first, rest⟩ := skipped
    exact (offset_le_of_skipAddressTableLookup first).trans (offset_le_of_skipAddressTableLookups rest)

theorem InstructionsFrame.tryNew_eq_ok {frame : InstructionsFrame}
    (parsed : InstructionsFrame.tryNew bytes offset = .ok (frame, offset')) :
    ∃ start, frame.numInstructions < 2 ^ 14 ∧ frame.offset = start % 2 ^ 16 ∧ start ≤ offset' ∧
      skipInstructions bytes frame.numInstructions start = .ok offset' := by
  simp only [InstructionsFrame.tryNew, bind_eq_ok, pure_eq_ok, Prod.mk.injEq] at parsed
  obtain ⟨⟨n, start⟩, read, -, -, finish, skipped, rfl, rfl⟩ := parsed
  obtain ⟨-, -, small, -⟩ := optimizedReadCompressedU16_eq_ok_iff.1 read
  exact ⟨start, small, rfl, offset_le_of_skipInstructions skipped, skipped⟩

theorem AddressTableLookupFrame.tryNew_eq_ok {frame : AddressTableLookupFrame}
    (parsed : AddressTableLookupFrame.tryNew bytes offset = .ok (frame, offset')) :
    frame.numAddressTableLookups ≤ maxAtlsPerPacket ∧ frame.offset = (offset + 1) % 2 ^ 16 ∧
      offset + 1 ≤ offset' ∧ frame.totalWritableLookupAccounts < 2 ^ 16 ∧
      frame.totalReadonlyLookupAccounts < 2 ^ 16 ∧
      skipAddressTableLookups bytes frame.numAddressTableLookups (offset + 1) 0 0 =
        .ok (offset', frame.totalWritableLookupAccounts, frame.totalReadonlyLookupAccounts) := by
  simp only [AddressTableLookupFrame.tryNew, bind_eq_ok, ite_throw_bind_eq_ok, pure_eq_ok,
    Prod.mk.injEq] at parsed
  obtain ⟨⟨n, start⟩, read, few, -, -, ⟨finish, w, r⟩, skipped, smallW, smallR, rfl, rfl⟩ := parsed
  have next : start = offset + 1 := by
    rw [readByte] at read
    split at read <;> simp_all
  subst next
  exact ⟨Nat.le_of_not_lt few, rfl, offset_le_of_skipAddressTableLookups skipped, Nat.lt_of_not_le smallW,
    Nat.lt_of_not_le smallR, skipped⟩

theorem TransactionFrame.tryNew_eq_ok {frame : TransactionFrame} (parsed : TransactionFrame.tryNew bytes = .ok frame) :
    ∃ start finish, InstructionsFrame.tryNew bytes start = .ok (frame.instructions, finish) ∧
      (frame.messageHeader.version = .legacy →
        frame.addressTableLookup = ⟨0, 0, 0, 0⟩ ∧ finish = bytes.length) ∧
      (frame.messageHeader.version = .v0 →
        AddressTableLookupFrame.tryNew bytes finish = .ok (frame.addressTableLookup, bytes.length)) := by
  simp only [TransactionFrame.tryNew, bind_eq_ok] at parsed
  obtain ⟨signature, -, ⟨header, o2⟩, -, keys, -, start, -, ⟨instructions, finish⟩, framed, rest⟩ := parsed
  -- the `do` block goes on inside each arm of the match on the version
  cases version : header.version
  all_goals simp only [version, bind_eq_ok, pure_eq_ok, ite_throw_bind_eq_ok, not_not] at rest
  case legacy =>
    obtain ⟨_, rfl, ended, rfl⟩ := rest
    exact ⟨start, finish, framed, fun _ => ⟨rfl, ended⟩, fun v0 => absurd (version.symm.trans v0) (by decide)⟩
  case v0 =>
    obtain ⟨⟨lookups, last⟩, lookedUp, ended, rfl⟩ := rest
    refine ⟨start, finish, framed, fun legacy => absurd (version.symm.trans legacy) (by decide), fun _ => ?_⟩
    rw [lookedUp, ← ended]

end Parsed

end TransactionView
