import Mathlib
import Agave.Library.Iterator
import Agave.TransactionView.Frame

/-! `InstructionsIterator` and `AddressTableLookupIterator`: the second pass over the sections that
`TransactionFrame::try_new` framed, which reads each item where the first pass only stepped over it.
`next` ends with `None` on any failed read (`.ok()?`). Under a packet of fewer than `2 ^ 16` bytes
every read of the second pass is one that the first pass made and passed, at the same offset, so the
iterators yield as many items as the frames count and end where the frames' sections end
(`transactionView_iterators`). -/

namespace TransactionView

open MachineInt ExceptLoop Iterator

structure SVMInstruction where
  programIdIndex : UInt8
  accounts : List UInt8
  data : List UInt8
  deriving DecidableEq, Repr

structure SVMMessageAddressTableLookup where
  accountKey : List UInt8
  writableIndexes : List UInt8
  readonlyIndexes : List UInt8
  deriving DecidableEq, Repr

/-- `read_slice_data::<T>`: the `numElements` values of `size` bytes at the offset, as bytes. -/
def readSliceData (size : Nat) (bytes : List UInt8) (offset numElements : Nat) :
    Except TransactionViewError (List UInt8 × Nat) := do
  let offset' ← advanceOffsetForArray size bytes offset numElements
  pure ((bytes.drop offset).take (numElements * size), offset')

def readType (size : Nat) (bytes : List UInt8) (offset : Nat) :
    Except TransactionViewError (List UInt8 × Nat) := do
  let offset' ← advanceOffsetForType size bytes offset
  pure ((bytes.drop offset).take size, offset')

/-- A read on `&mut self.offset` followed by `.ok()?`. -/
def readOk {α : Type} (read : Nat → Except TransactionViewError (α × Nat)) : OptionT (StateM Nat) α :=
  OptionT.mk fun offset =>
    match read offset with
    | .ok (value, offset') => (some value, offset')
    | .error _ => (none, offset)

/-- The `next` of both iterators, on their offset and index: the index is a `u16` for the
instructions and a `u8` for the lookups. -/
def nextItem {α : Type} (width : Nat) (read : OptionT (StateM Nat) α) (offset count index : Nat) :
    Option α × Nat × Nat :=
  if index < count then
    let index := wrappingAdd width index 1
    let (item, offset) := read.run.run offset
    (item, offset, index)
  else (none, offset, index)

def readInstruction (bytes : List UInt8) : OptionT (StateM Nat) SVMInstruction := do
  let programIdIndex ← readOk (readByte bytes)
  let numAccounts ← readOk (optimizedReadCompressedU16 bytes)
  let accounts ← readOk fun offset => readSliceData 1 bytes offset numAccounts
  let dataLen ← readOk (optimizedReadCompressedU16 bytes)
  let data ← readOk fun offset => readSliceData 1 bytes offset dataLen
  pure ⟨programIdIndex, accounts, data⟩

structure InstructionsIterator where
  bytes : List UInt8
  offset : Nat
  numInstructions : Nat
  index : Nat

def InstructionsIterator.next (self : InstructionsIterator) : Option SVMInstruction × InstructionsIterator :=
  let (item, offset, index) := nextItem 16 (readInstruction self.bytes) self.offset self.numInstructions self.index
  (item, { self with offset, index })

def readAddressTableLookup (bytes : List UInt8) : OptionT (StateM Nat) SVMMessageAddressTableLookup := do
  let accountKey ← readOk (readType 32 bytes)
  let numWriteAccounts ← readOk (optimizedReadCompressedU16 bytes)
  let writableIndexes ← readOk fun offset => readSliceData 1 bytes offset numWriteAccounts
  let numReadAccounts ← readOk (optimizedReadCompressedU16 bytes)
  let readonlyIndexes ← readOk fun offset => readSliceData 1 bytes offset numReadAccounts
  pure ⟨accountKey, writableIndexes, readonlyIndexes⟩

structure AddressTableLookupIterator where
  bytes : List UInt8
  offset : Nat
  numAddressTableLookups : Nat
  index : Nat

def AddressTableLookupIterator.next (self : AddressTableLookupIterator) :
    Option SVMMessageAddressTableLookup × AddressTableLookupIterator :=
  let (item, offset, index) :=
    nextItem 8 (readAddressTableLookup self.bytes) self.offset self.numAddressTableLookups self.index
  (item, { self with offset, index })

def TransactionFrame.instructionsIter (self : TransactionFrame) (bytes : List UInt8) : InstructionsIterator :=
  ⟨bytes, self.instructions.offset, self.instructions.numInstructions, 0⟩

def TransactionFrame.addressTableLookupIter (self : TransactionFrame) (bytes : List UInt8) :
    AddressTableLookupIterator :=
  ⟨bytes, self.addressTableLookup.offset, self.addressTableLookup.numAddressTableLookups, 0⟩

/-! ### One item: the reads of `next` are the checks of the frame -/

section Reads

variable {bytes : List UInt8} {offset offset' : Nat}

theorem run_readOk_of_ok {α : Type} {read : Nat → Except TransactionViewError (α × Nat)} {value : α}
    (ok : read offset = .ok (value, offset')) : (readOk read).run.run offset = (some value, offset') := by
  change (match read offset with
    | .ok (value, offset') => (some value, offset')
    | .error _ => (none, offset)) = _
  rw [ok]

theorem readSliceData_of_advanceOffsetForArray {size numElements : Nat}
    (advanced : advanceOffsetForArray size bytes offset numElements = .ok offset') :
    readSliceData size bytes offset numElements = .ok ((bytes.drop offset).take (numElements * size), offset') := by
  rw [readSliceData, advanced]
  rfl

theorem length_take_drop_of_advanceOffsetForArray {size numElements : Nat}
    (advanced : advanceOffsetForArray size bytes offset numElements = .ok offset') :
    ((bytes.drop offset).take (numElements * size)).length = numElements * size := by
  rw [advanceOffsetForArray, checkRemaining] at advanced
  split_ifs at advanced with short
  · exact absurd advanced (by simp [bind, Except.bind])
  · rw [List.length_take, List.length_drop]
    omega

theorem run_readOk_readSliceData {size numElements : Nat}
    (advanced : advanceOffsetForArray size bytes offset numElements = .ok offset') :
    (readOk fun offset => readSliceData size bytes offset numElements).run.run offset =
      (some ((bytes.drop offset).take (numElements * size)), offset') :=
  run_readOk_of_ok (readSliceData_of_advanceOffsetForArray advanced)

theorem readType_of_advanceOffsetForType {size : Nat} (advanced : advanceOffsetForType size bytes offset = .ok offset') :
    readType size bytes offset = .ok ((bytes.drop offset).take size, offset') := by
  rw [readType, advanced]
  rfl

theorem nextItem_of_lt {α : Type} {width count index : Nat} {read : OptionT (StateM Nat) α} {item : α}
    (below : index < count) (fits : count < 2 ^ width) (reads : read.run.run offset = (some item, offset')) :
    nextItem width read offset count index = (some item, offset', index + 1) := by
  rw [nextItem, if_pos below, reads, wrappingAdd, Nat.mod_eq_of_lt (by omega)]

theorem nextItem_of_ge {α : Type} {width count index : Nat} {read : OptionT (StateM Nat) α} (done : count ≤ index) :
    nextItem width read offset count index = (none, offset, index) := by
  rw [nextItem, if_neg (Nat.not_lt.2 done)]

theorem InstructionsIterator.next_of_lt {iter : InstructionsIterator} {item : SVMInstruction} {offset' : Nat}
    (below : iter.index < iter.numInstructions) (fits : iter.numInstructions < 2 ^ 16)
    (reads : (readInstruction iter.bytes).run.run iter.offset = (some item, offset')) :
    iter.next = (some item, { iter with offset := offset', index := iter.index + 1 }) := by
  rw [InstructionsIterator.next, nextItem_of_lt below fits reads]

theorem AddressTableLookupIterator.next_of_lt {iter : AddressTableLookupIterator} {item : SVMMessageAddressTableLookup}
    {offset' : Nat} (below : iter.index < iter.numAddressTableLookups) (fits : iter.numAddressTableLookups < 2 ^ 8)
    (reads : (readAddressTableLookup iter.bytes).run.run iter.offset = (some item, offset')) :
    iter.next = (some item, { iter with offset := offset', index := iter.index + 1 }) := by
  rw [AddressTableLookupIterator.next, nextItem_of_lt below fits reads]

theorem run_readInstruction_of_skipInstruction (skipped : skipInstruction bytes offset = .ok offset') :
    ∃ instruction, (readInstruction bytes).run.run offset = (some instruction, offset') := by
  simp only [skipInstruction, bind_eq_ok] at skipped
  obtain ⟨⟨programIdIndex, o1⟩, read1, ⟨numAccounts, o2⟩, read2, o3, advanced3, ⟨dataLen, o4⟩, read4,
    advanced5⟩ := skipped
  dsimp only at read2 advanced3 advanced5
  refine ⟨⟨programIdIndex, (bytes.drop o2).take (numAccounts * 1), (bytes.drop o4).take (dataLen * 1)⟩, ?_⟩
  rw [readInstruction, run_bind_of_some (run_readOk_of_ok read1), run_bind_of_some (run_readOk_of_ok read2),
    run_bind_of_some (run_readOk_readSliceData advanced3),
    run_bind_of_some (run_readOk_of_ok read4),
    run_bind_of_some (run_readOk_readSliceData advanced5)]
  rfl

theorem run_readAddressTableLookup_of_skipAddressTableLookup {totalWritable totalReadonly totalWritable'
    totalReadonly' : Nat}
    (skipped : skipAddressTableLookup bytes offset totalWritable totalReadonly =
      .ok (offset', totalWritable', totalReadonly')) :
    ∃ lookup, (readAddressTableLookup bytes).run.run offset = (some lookup, offset') ∧
      lookup.writableIndexes.length < 2 ^ 14 ∧ lookup.readonlyIndexes.length < 2 ^ 14 ∧
      totalWritable' = wrappingAdd 32 totalWritable lookup.writableIndexes.length ∧
      totalReadonly' = wrappingAdd 32 totalReadonly lookup.readonlyIndexes.length := by
  simp only [skipAddressTableLookup, bind_eq_ok, pure_eq_ok, Prod.mk.injEq] at skipped
  obtain ⟨o1, advanced1, ⟨numWrite, o2⟩, read2, o3, advanced3, ⟨numRead, o4⟩, read4, o5, advanced5,
    rfl, rfl, rfl⟩ := skipped
  dsimp only at advanced3 advanced5 ⊢
  have writable := length_take_drop_of_advanceOffsetForArray advanced3
  have readonly := length_take_drop_of_advanceOffsetForArray advanced5
  obtain ⟨-, -, smallWrite, -⟩ := optimizedReadCompressedU16_eq_ok_iff.1 read2
  obtain ⟨-, -, smallRead, -⟩ := optimizedReadCompressedU16_eq_ok_iff.1 read4
  refine ⟨⟨(bytes.drop offset).take 32, (bytes.drop o2).take (numWrite * 1), (bytes.drop o4).take (numRead * 1)⟩,
    ?_, ?_, ?_, ?_, ?_⟩
  · rw [readAddressTableLookup, run_bind_of_some (run_readOk_of_ok (readType_of_advanceOffsetForType advanced1)),
      run_bind_of_some (run_readOk_of_ok read2),
      run_bind_of_some (run_readOk_readSliceData advanced3),
      run_bind_of_some (run_readOk_of_ok read4),
      run_bind_of_some (run_readOk_readSliceData advanced5)]
    rfl
  · dsimp only
    omega
  · dsimp only
    omega
  · rw [writable, Nat.mul_one]
  · rw [readonly, Nat.mul_one]

end Reads

/-! ### A whole run of each iterator -/

section Runs

variable {bytes : List UInt8} {finish : Nat}

theorem collect_instructionsIterator {count : Nat} (fits : count < 2 ^ 16) :
    ∀ k (iter : InstructionsIterator), iter.bytes = bytes → iter.numInstructions = count →
      iter.index + k = count → skipInstructions bytes k iter.offset = .ok finish →
      ∃ instructions last, collect InstructionsIterator.next (k + 1) iter = some (instructions, last) ∧
        instructions.length = k ∧ last.offset = finish := by
  let P : Nat → List SVMInstruction → InstructionsIterator → Prop := fun k _ iter =>
    iter.bytes = bytes ∧ iter.numInstructions = count ∧ iter.index + k = count ∧
      skipInstructions bytes k iter.offset = .ok finish
  have step : ∀ k done iter, P (k + 1) done iter →
      ∃ item iter', iter.next = (some item, iter') ∧ P k (done ++ [item]) iter' := by
    rintro k done iter ⟨sameBytes, sameCount, counted, skipped⟩
    rw [skipInstructions, bind_eq_ok, ← sameBytes] at skipped
    obtain ⟨offset', first, rest⟩ := skipped
    obtain ⟨item, reads⟩ := run_readInstruction_of_skipInstruction first
    refine ⟨item, { iter with offset := offset', index := iter.index + 1 }, ?_, sameBytes, sameCount,
      by dsimp only; omega, sameBytes ▸ rest⟩
    exact InstructionsIterator.next_of_lt (by omega) (sameCount ▸ fits) reads
  have stop : ∀ done iter, P 0 done iter → iter.next = (none, iter) := by
    rintro done iter ⟨-, sameCount, counted, -⟩
    rw [InstructionsIterator.next, nextItem_of_ge (by omega)]
  intro k iter sameBytes sameCount counted skipped
  obtain ⟨instructions, last, collected, length, -, -, -, ended⟩ :=
    collect_of_countdown step stop k [] iter ⟨sameBytes, sameCount, counted, skipped⟩
  rw [skipInstructions, pure_eq_ok] at ended
  exact ⟨instructions, last, collected, length, ended⟩

theorem sum_map_append_singleton_mod {α : Type} (f : α → Nat) (done : List α) (item : α) :
    ((done ++ [item]).map f).sum % 2 ^ 32 = wrappingAdd 32 ((done.map f).sum % 2 ^ 32) (f item) := by
  rw [List.map_append, List.sum_append, List.map_singleton, List.sum_singleton, wrappingAdd, Nat.mod_add_mod]

/-- From an iterator `k` lookups before its count, over lookups the frame's pass stepped over to
`finish` with the totals `totalWritable` and `totalReadonly`: those are the totals, modulo `2 ^ 32`,
of the lookups the iterator yields. -/
theorem collect_addressTableLookupIterator {count totalWritable totalReadonly : Nat} (fits : count < 2 ^ 8) :
    ∀ k (iter : AddressTableLookupIterator), iter.bytes = bytes → iter.numAddressTableLookups = count →
      iter.index + k = count →
      skipAddressTableLookups bytes k iter.offset 0 0 = .ok (finish, totalWritable, totalReadonly) →
      ∃ lookups last, collect AddressTableLookupIterator.next (k + 1) iter = some (lookups, last) ∧
        lookups.length = k ∧ last.offset = finish ∧
        (∀ lookup ∈ lookups, lookup.writableIndexes.length < 2 ^ 14 ∧ lookup.readonlyIndexes.length < 2 ^ 14) ∧
        totalWritable = (lookups.map (·.writableIndexes.length)).sum % 2 ^ 32 ∧
        totalReadonly = (lookups.map (·.readonlyIndexes.length)).sum % 2 ^ 32 := by
  let P : Nat → List SVMMessageAddressTableLookup → AddressTableLookupIterator → Prop := fun k done iter =>
    iter.bytes = bytes ∧ iter.numAddressTableLookups = count ∧ iter.index + k = count ∧
      (∀ lookup ∈ done, lookup.writableIndexes.length < 2 ^ 14 ∧ lookup.readonlyIndexes.length < 2 ^ 14) ∧
      skipAddressTableLookups bytes k iter.offset ((done.map (·.writableIndexes.length)).sum % 2 ^ 32)
        ((done.map (·.readonlyIndexes.length)).sum % 2 ^ 32) = .ok (finish, totalWritable, totalReadonly)
  have step : ∀ k done iter, P (k + 1) done iter →
      ∃ item iter', iter.next = (some item, iter') ∧ P k (done ++ [item]) iter' := by
    rintro k done iter ⟨sameBytes, sameCount, counted, small, skipped⟩
    rw [skipAddressTableLookups, bind_eq_ok, ← sameBytes] at skipped
    obtain ⟨⟨offset', w, r⟩, first, rest⟩ := skipped
    obtain ⟨item, reads, smallW, smallR, rfl, rfl⟩ := run_readAddressTableLookup_of_skipAddressTableLookup first
    refine ⟨item, { iter with offset := offset', index := iter.index + 1 }, ?_, sameBytes, sameCount,
      by dsimp only; omega, ?_, ?_⟩
    · exact AddressTableLookupIterator.next_of_lt (by omega) (sameCount ▸ fits) reads
    · intro lookup mem
      rcases List.mem_append.1 mem with old | new
      · exact small lookup old
      · rw [List.mem_singleton.1 new]
        exact ⟨smallW, smallR⟩
    · rw [sum_map_append_singleton_mod, sum_map_append_singleton_mod]
      exact sameBytes ▸ rest
  have stop : ∀ done iter, P 0 done iter → iter.next = (none, iter) := by
    rintro done iter ⟨-, sameCount, counted, -⟩
    rw [AddressTableLookupIterator.next, nextItem_of_ge (by omega)]
  intro k iter sameBytes sameCount counted skipped
  obtain ⟨lookups, last, collected, length, -, -, -, small, ended⟩ :=
    collect_of_countdown step stop k [] iter ⟨sameBytes, sameCount, counted, by simp, skipped⟩
  rw [skipAddressTableLookups, pure_eq_ok] at ended
  simp only [List.nil_append, Prod.mk.injEq] at ended small
  exact ⟨lookups, last, collected, length, ended.1, small, ended.2.1.symm, ended.2.2.symm⟩

theorem sum_map_le_mul {α : Type} {f : α → Nat} {bound : Nat} {items : List α} (small : ∀ a ∈ items, f a < bound) :
    (items.map f).sum ≤ items.length * bound := by
  have le := List.sum_le_card_nsmul (items.map f) bound (by simpa using fun a mem => (small a mem).le)
  rwa [List.length_map, smul_eq_mul] at le

theorem collect_addressTableLookupIter {frame : TransactionFrame}
    (few : frame.addressTableLookup.numAddressTableLookups ≤ maxAtlsPerPacket)
    (skipped : skipAddressTableLookups bytes frame.addressTableLookup.numAddressTableLookups
      frame.addressTableLookup.offset 0 0 = .ok (finish, frame.addressTableLookup.totalWritableLookupAccounts,
        frame.addressTableLookup.totalReadonlyLookupAccounts)) :
    ∃ lookups last, collect AddressTableLookupIterator.next (frame.addressTableLookup.numAddressTableLookups + 1)
        (frame.addressTableLookupIter bytes) = some (lookups, last) ∧
      lookups.length = frame.addressTableLookup.numAddressTableLookups ∧ last.offset = finish ∧
      frame.addressTableLookup.totalWritableLookupAccounts = (lookups.map (·.writableIndexes.length)).sum ∧
      frame.addressTableLookup.totalReadonlyLookupAccounts = (lookups.map (·.readonlyIndexes.length)).sum := by
  have most : maxAtlsPerPacket = 31 := by decide
  obtain ⟨lookups, last, collected, length, ended, small, totalW, totalR⟩ :=
    collect_addressTableLookupIterator (by omega : frame.addressTableLookup.numAddressTableLookups < 2 ^ 8) _
      (frame.addressTableLookupIter bytes) rfl rfl (Nat.zero_add _) skipped
  have boundW := sum_map_le_mul fun lookup mem => (small lookup mem).1
  have boundR := sum_map_le_mul fun lookup mem => (small lookup mem).2
  rw [length] at boundW boundR
  refine ⟨lookups, last, collected, length, ended, ?_, ?_⟩
  · rw [totalW, Nat.mod_eq_of_lt (by omega)]
  · rw [totalR, Nat.mod_eq_of_lt (by omega)]

end Runs

/-! ### The iterators of a parsed transaction -/

section View

variable {bytes : List UInt8} {frame : TransactionFrame}

theorem lookups_of_tryNew (short : bytes.length < 2 ^ 16) (parsed : TransactionFrame.tryNew bytes = .ok frame) :
    ∃ start finish, InstructionsFrame.tryNew bytes start = .ok (frame.instructions, finish) ∧
      finish ≤ bytes.length ∧ ∃ finish', frame.addressTableLookup.numAddressTableLookups ≤ maxAtlsPerPacket ∧
        skipAddressTableLookups bytes frame.addressTableLookup.numAddressTableLookups
          frame.addressTableLookup.offset 0 0 = .ok (finish', frame.addressTableLookup.totalWritableLookupAccounts,
            frame.addressTableLookup.totalReadonlyLookupAccounts) ∧
        (frame.messageHeader.version = .legacy → finish = bytes.length) ∧
        (frame.messageHeader.version = .v0 → frame.addressTableLookup.offset = finish + 1 ∧ finish' = bytes.length) := by
  obtain ⟨start, finish, framed, whenLegacy, whenV0⟩ := TransactionFrame.tryNew_eq_ok parsed
  refine ⟨start, finish, framed, ?_⟩
  cases version : frame.messageHeader.version
  case legacy =>
    obtain ⟨none, ended⟩ := whenLegacy version
    rw [none]
    exact ⟨ended.le, 0, by decide, rfl, fun _ => ended, fun v0 => absurd v0 (by decide)⟩
  case v0 =>
    obtain ⟨few, offsetEq, inside, -, -, skipped⟩ := AddressTableLookupFrame.tryNew_eq_ok (whenV0 version)
    have startEq : frame.addressTableLookup.offset = finish + 1 := by
      rw [offsetEq, Nat.mod_eq_of_lt (by omega)]
    exact ⟨by omega, bytes.length, few, startEq ▸ skipped, fun legacy => absurd legacy (by decide), fun _ => ⟨startEq, rfl⟩⟩

theorem transactionView_iterators (short : bytes.length < 2 ^ 16) (parsed : TransactionFrame.tryNew bytes = .ok frame) :
    ∃ instructions lookups instructionsEnd lookupsEnd,
      collect InstructionsIterator.next (frame.instructions.numInstructions + 1) (frame.instructionsIter bytes) =
        some (instructions, instructionsEnd) ∧
      instructions.length = frame.instructions.numInstructions ∧
      collect AddressTableLookupIterator.next (frame.addressTableLookup.numAddressTableLookups + 1)
        (frame.addressTableLookupIter bytes) = some (lookups, lookupsEnd) ∧
      lookups.length = frame.addressTableLookup.numAddressTableLookups ∧
      frame.addressTableLookup.totalWritableLookupAccounts = (lookups.map (·.writableIndexes.length)).sum ∧
      frame.addressTableLookup.totalReadonlyLookupAccounts = (lookups.map (·.readonlyIndexes.length)).sum ∧
      (frame.messageHeader.version = .legacy → instructionsEnd.offset = bytes.length) ∧
      (frame.messageHeader.version = .v0 →
        instructionsEnd.offset + 1 = frame.addressTableLookup.offset ∧ lookupsEnd.offset = bytes.length) := by
  obtain ⟨start, finish, framed, finishLe, finish', few, skippedLookups, whenLegacy, whenV0⟩ :=
    lookups_of_tryNew short parsed
  obtain ⟨first, small, offsetEq, firstLe, skipped⟩ := InstructionsFrame.tryNew_eq_ok framed
  -- the instructions start inside the packet, so their `u16` offset is their offset
  have firstEq : frame.instructions.offset = first := by
    rw [offsetEq, Nat.mod_eq_of_lt (by omega)]
  obtain ⟨instructions, instructionsEnd, collectedI, lengthI, endedI⟩ :=
    collect_instructionsIterator (by omega : frame.instructions.numInstructions < 2 ^ 16) _
      (frame.instructionsIter bytes) rfl rfl (Nat.zero_add _)
      (firstEq ▸ skipped)
  obtain ⟨lookups, lookupsEnd, collectedL, lengthL, endedL, totalW, totalR⟩ :=
    collect_addressTableLookupIter few skippedLookups
  refine ⟨instructions, lookups, instructionsEnd, lookupsEnd, collectedI, lengthI, collectedL, lengthL, totalW,
    totalR, fun version => endedI.trans (whenLegacy version), fun version => ?_⟩
  obtain ⟨startEq, rfl⟩ := whenV0 version
  exact ⟨by rw [endedI, startEq], endedL⟩

end View

/-- A v0 packet of 178 bytes: one signature, the header, one key, the blockhash, one instruction with
one account and two bytes of data, and one lookup with one writable and one readonly index. -/
def v0Packet : List UInt8 :=
  [1] ++ List.replicate 64 0 ++ [0x80, 1, 0, 0, 1] ++ List.replicate 32 0 ++ List.replicate 32 0 ++
    [1, 0, 1, 0, 2, 7, 7] ++ [1] ++ List.replicate 32 0 ++ [1, 0, 1, 1]

def v0Frame : TransactionFrame :=
  ⟨⟨1, 1⟩, ⟨65, .v0, 1, 0, 0⟩, ⟨1, 70⟩, 102, ⟨1, 135⟩, ⟨1, 142, 1, 1⟩⟩

theorem transactionView_iterators_v0_packet :
    v0Packet.length < 2 ^ 16 ∧ TransactionFrame.tryNew v0Packet = .ok v0Frame ∧
    ∃ instructions lookups instructionsEnd lookupsEnd,
      collect InstructionsIterator.next (v0Frame.instructions.numInstructions + 1)
        (v0Frame.instructionsIter v0Packet) = some (instructions, instructionsEnd) ∧
      instructions.length = v0Frame.instructions.numInstructions ∧
      collect AddressTableLookupIterator.next (v0Frame.addressTableLookup.numAddressTableLookups + 1)
        (v0Frame.addressTableLookupIter v0Packet) = some (lookups, lookupsEnd) ∧
      lookups.length = v0Frame.addressTableLookup.numAddressTableLookups ∧
      v0Frame.addressTableLookup.totalWritableLookupAccounts = (lookups.map (·.writableIndexes.length)).sum ∧
      v0Frame.addressTableLookup.totalReadonlyLookupAccounts = (lookups.map (·.readonlyIndexes.length)).sum ∧
      (v0Frame.messageHeader.version = .legacy → instructionsEnd.offset = v0Packet.length) ∧
      (v0Frame.messageHeader.version = .v0 →
        instructionsEnd.offset + 1 = v0Frame.addressTableLookup.offset ∧
          lookupsEnd.offset = v0Packet.length) := by
  have short : v0Packet.length < 2 ^ 16 := by
    simp only [v0Packet, List.length_append, List.length_cons, List.length_nil, List.length_replicate]
    norm_num
  have parsed : TransactionFrame.tryNew v0Packet = .ok v0Frame := by decide +kernel
  exact ⟨short, parsed, transactionView_iterators short parsed⟩

end TransactionView
