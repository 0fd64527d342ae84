import Mathlib
import Agave.AddressLookupTable.State
import Agave.Library.ExceptLoop

/-! The instructions of the address lookup table program (`processor.rs`), over the accounts the
program owns: `tables` maps an address to the table stored there, `none` where no account owned by
the program is. A table is created at an address derived from its authority, a slot that is still in
`SlotHashes` and a bump seed; it is then only extended, frozen or deactivated, and closed once its
deactivation slot has left `SlotHashes`. `processInstruction_cases` says once what a successful
instruction can do to `tables`; the other modules reason from it. -/

namespace LookupTable

open MachineInt

variable {Pubkey : Type}

/-- The errors the program returns, as the `InstructionError` variants it uses. -/
inductive InstructionError where
  | invalidArgument
  | invalidInstructionData
  | invalidAccountData
  | missingRequiredSignature
  | invalidAccountOwner
  | immutable
  | incorrectAuthority
  | invalidSeeds
  deriving DecidableEq, Repr

/-- `ProgramInstruction`. -/
inductive ProgramInstruction (Pubkey : Type) where
  | createLookupTable (recentSlot : Slot) (bumpSeed : Nat)
  | freezeLookupTable
  | extendLookupTable (newAddresses : List Pubkey)
  | deactivateLookupTable
  | closeLookupTable
  deriving DecidableEq, Repr

/-- What an instruction reads of its accounts: the table (account 0), the authority (account 1)
and whether it signed, whether the payer of a creation signed (account 2), and whether the
recipient of a close (account 2) is the table itself. -/
structure InstructionAccounts (Pubkey : Type) where
  lookupTable : Pubkey
  authority : Pubkey
  authorityIsSigner : Bool
  payerIsSigner : Bool
  recipientIsLookupTable : Bool
  deriving DecidableEq, Repr

/-- The accounts the program owns, by address. -/
abbrev Tables (Pubkey : Type) := Pubkey → Option (AddressLookupTable Pubkey)

/-- A new table: the metadata of `LookupTableMeta::new` and no addresses. -/
def AddressLookupTable.new (authority : Pubkey) : AddressLookupTable Pubkey :=
  ⟨LookupTableMeta.new authority, []⟩

section Evolves

/-- What freezing, extending and deactivating may change of a table in `slot`: addresses are only
appended; the deactivation slot is set once, to the slot; and the record of the last extension is
kept, or moved to the slot from an earlier one with the length before the extension. -/
structure Evolves (slot : Slot) (table table' : AddressLookupTable Pubkey) : Prop where
  appended : ∃ extra, table'.addresses = table.addresses ++ extra
  deactivation : table'.lookupTableMeta.deactivationSlot = table.lookupTableMeta.deactivationSlot ∨
    table.lookupTableMeta.deactivationSlot = slotMax ∧ table'.lookupTableMeta.deactivationSlot = slot
  extension :
    (table'.lookupTableMeta.lastExtendedSlot = table.lookupTableMeta.lastExtendedSlot ∧
      table'.lookupTableMeta.lastExtendedSlotStartIndex = table.lookupTableMeta.lastExtendedSlotStartIndex ∧
      (table'.addresses = table.addresses ∨ table.lookupTableMeta.lastExtendedSlot = slot)) ∨
    (table.lookupTableMeta.lastExtendedSlot ≠ slot ∧ table'.lookupTableMeta.lastExtendedSlot = slot ∧
      table'.lookupTableMeta.lastExtendedSlotStartIndex = table.addresses.length)

theorem Evolves.of_meta {slot : Slot} {table table' : AddressLookupTable Pubkey}
    (addresses : table'.addresses = table.addresses)
    (deactivation : table'.lookupTableMeta.deactivationSlot = table.lookupTableMeta.deactivationSlot ∨
      table.lookupTableMeta.deactivationSlot = slotMax ∧ table'.lookupTableMeta.deactivationSlot = slot)
    (lastExtended : table'.lookupTableMeta.lastExtendedSlot = table.lookupTableMeta.lastExtendedSlot)
    (startIndex : table'.lookupTableMeta.lastExtendedSlotStartIndex =
      table.lookupTableMeta.lastExtendedSlotStartIndex) : Evolves slot table table' :=
  ⟨⟨[], by rw [addresses, List.append_nil]⟩, deactivation, .inl ⟨lastExtended, startIndex, .inl addresses⟩⟩

end Evolves

variable [DecidableEq Pubkey]

section Instructions

variable (tables : Tables Pubkey) (accounts : InstructionAccounts Pubkey)

/-- The checks every instruction on an existing table starts with: the table account belongs to
the program and the authority signed. -/
def signedTable : Except InstructionError (AddressLookupTable Pubkey) :=
  match tables accounts.lookupTable with
  | none => .error .invalidAccountOwner
  | some table => if !accounts.authorityIsSigner then .error .missingRequiredSignature else .ok table

/-- The authority checks on a table: it is not frozen, and the signer is its authority. -/
def checkAuthority (table : AddressLookupTable Pubkey) (authority : Pubkey) : Except InstructionError Unit :=
  if table.lookupTableMeta.authority.isNone then .error .immutable
  else if table.lookupTableMeta.authority ≠ some authority then .error .incorrectAuthority
  else .ok ()

/-- The table stored back at its address. -/
def store (table : AddressLookupTable Pubkey) : Tables Pubkey :=
  Function.update tables accounts.lookupTable (some table)

/-- `Processor::create_lookup_table`: the table address must be derived from the authority, a slot
still in `SlotHashes` and the bump seed; on an address the program already owns it does nothing.
`derive` is `Pubkey::create_program_address` over these seeds, `none` when it fails. -/
def createLookupTable (derive : Pubkey → Slot → Nat → Option Pubkey) (slotHashes : SlotHashes)
    (untrustedRecentSlot : Slot) (bumpSeed : Nat) : Except InstructionError (Tables Pubkey) := do
  if !accounts.payerIsSigner then throw .missingRequiredSignature
  let derivationSlot ← (if untrustedRecentSlot ∈ slotHashes then pure untrustedRecentSlot
    else throw .invalidInstructionData : Except InstructionError Slot)
  let derivedTableKey ← (derive accounts.authority derivationSlot bumpSeed).elim (throw .invalidSeeds) pure
  if accounts.lookupTable ≠ derivedTableKey then throw .invalidArgument
  pure (if (tables accounts.lookupTable).isSome then tables
    else store tables accounts (AddressLookupTable.new accounts.authority))

/-- `Processor::freeze_lookup_table`. -/
def freezeLookupTable : Except InstructionError (Tables Pubkey) := do
  let table ← signedTable tables accounts
  checkAuthority table accounts.authority
  if table.lookupTableMeta.deactivationSlot ≠ slotMax then throw .invalidArgument
  if table.addresses.isEmpty then throw .invalidInstructionData
  pure (store tables accounts { table with lookupTableMeta := { table.lookupTableMeta with authority := none } })

/-- The metadata after an extension in `clockSlot`: the first extension in a slot records the slot
and the length it starts from. `u8::try_from` of that length fails past `u8::MAX`. -/
def extendedMeta (table : AddressLookupTable Pubkey) (clockSlot : Slot) :
    Except InstructionError (LookupTableMeta Pubkey) :=
  if clockSlot ≠ table.lookupTableMeta.lastExtendedSlot then
    if table.addresses.length ≤ maxValue 8 then
      .ok { table.lookupTableMeta with
            lastExtendedSlot := clockSlot
            lastExtendedSlotStartIndex := table.addresses.length }
    else .error .invalidAccountData
  else .ok table.lookupTableMeta

/-- `Processor::extend_lookup_table`, without the rent top-up that follows the write. -/
def extendLookupTable (clockSlot : Slot) (newAddresses : List Pubkey) :
    Except InstructionError (Tables Pubkey) := do
  let table ← signedTable tables accounts
  checkAuthority table accounts.authority
  if table.lookupTableMeta.deactivationSlot ≠ slotMax then throw .invalidArgument
  if table.addresses.length ≥ lookupTableMaxAddresses then throw .invalidArgument
  if newAddresses.isEmpty then throw .invalidInstructionData
  let newTableAddressesLen := saturatingAdd 64 table.addresses.length newAddresses.length
  if newTableAddressesLen > lookupTableMaxAddresses then throw .invalidInstructionData
  let lookupTableMeta ← extendedMeta table clockSlot
  pure (store tables accounts ⟨lookupTableMeta, table.addresses ++ newAddresses⟩)

/-- `Processor::deactivate_lookup_table`. -/
def deactivateLookupTable (clockSlot : Slot) : Except InstructionError (Tables Pubkey) := do
  let table ← signedTable tables accounts
  checkAuthority table accounts.authority
  if table.lookupTableMeta.deactivationSlot ≠ slotMax then throw .invalidArgument
  pure (store tables accounts
    { table with lookupTableMeta := { table.lookupTableMeta with deactivationSlot := clockSlot } })

/-- `Processor::close_lookup_table`: the recipient check comes before the authority checks; the
table account is emptied, and with no lamports left it is gone after the transaction. -/
def closeLookupTable (clockSlot : Slot) (slotHashes : SlotHashes) : Except InstructionError (Tables Pubkey) := do
  let table ← signedTable tables accounts
  if accounts.recipientIsLookupTable then throw .invalidArgument
  checkAuthority table accounts.authority
  match table.lookupTableMeta.status clockSlot slotHashes with
  | .activated => throw .invalidArgument
  | .deactivating _ => throw .invalidArgument
  | .deactivated => pure (Function.update tables accounts.lookupTable none)

/-- The program's entrypoint on a decoded instruction, in the slot of the clock. -/
def processInstruction (derive : Pubkey → Slot → Nat → Option Pubkey) (clockSlot : Slot)
    (slotHashes : SlotHashes) : ProgramInstruction Pubkey → Except InstructionError (Tables Pubkey)
  | .createLookupTable recentSlot bumpSeed =>
    createLookupTable tables accounts derive slotHashes recentSlot bumpSeed
  | .freezeLookupTable => freezeLookupTable tables accounts
  | .extendLookupTable newAddresses => extendLookupTable tables accounts clockSlot newAddresses
  | .deactivateLookupTable => deactivateLookupTable tables accounts clockSlot
  | .closeLookupTable => closeLookupTable tables accounts clockSlot slotHashes

end Instructions

section Inversion

variable {tables tables' : Tables Pubkey} {accounts : InstructionAccounts Pubkey}

omit [DecidableEq Pubkey] in
theorem signedTable_eq_ok {table : AddressLookupTable Pubkey}
    (signed : signedTable tables accounts = .ok table) : tables accounts.lookupTable = some table := by
  unfold signedTable at signed
  split at signed
  · cases signed
  · rename_i found
    split at signed
    · cases signed
    · cases signed
      exact found

theorem createLookupTable_eq_ok {derive : Pubkey → Slot → Nat → Option Pubkey} {slotHashes : SlotHashes}
    {recentSlot : Slot} {bumpSeed : Nat}
    (created : createLookupTable tables accounts derive slotHashes recentSlot bumpSeed = .ok tables') :
    recentSlot ∈ slotHashes ∧ derive accounts.authority recentSlot bumpSeed = some accounts.lookupTable ∧
      ((tables accounts.lookupTable).isSome ∧ tables' = tables ∨
        tables accounts.lookupTable = none ∧
          tables' = store tables accounts (AddressLookupTable.new accounts.authority)) := by
  simp only [createLookupTable, ExceptLoop.bind_eq_ok, ExceptLoop.ite_throw_bind_eq_ok,
    ExceptLoop.ite_pure_throw_eq_ok, ExceptLoop.elim_throw_pure_eq_ok] at created
  obtain ⟨-, slot, ⟨recent, rfl⟩, key, derived, same, stored⟩ := created
  rw [not_not] at same
  subst same
  refine ⟨recent, derived, ?_⟩
  rw [ExceptLoop.pure_eq_ok] at stored
  cases existing : tables accounts.lookupTable with
  | some _ =>
    simp only [existing, Option.isSome_some, if_true] at stored
    exact .inl ⟨rfl, stored.symm⟩
  | none =>
    simp only [existing, Option.isSome_none, Bool.false_eq_true, if_false] at stored
    exact .inr ⟨rfl, stored.symm⟩

theorem freezeLookupTable_eq_ok (frozen : freezeLookupTable tables accounts = .ok tables') :
    ∃ table, tables accounts.lookupTable = some table ∧
      tables' = store tables accounts { table with lookupTableMeta := { table.lookupTableMeta with authority := none } } := by
  simp only [freezeLookupTable, ExceptLoop.bind_eq_ok, ExceptLoop.ite_throw_bind_eq_ok, ExceptLoop.pure_eq_ok] at frozen
  obtain ⟨table, signed, -, -, -, -, stored⟩ := frozen
  exact ⟨table, signedTable_eq_ok signed, stored.symm⟩

theorem extendLookupTable_eq_ok {clockSlot : Slot} {newAddresses : List Pubkey}
    (extended : extendLookupTable tables accounts clockSlot newAddresses = .ok tables') :
    ∃ table lookupTableMeta, tables accounts.lookupTable = some table ∧
      extendedMeta table clockSlot = .ok lookupTableMeta ∧
      tables' = store tables accounts ⟨lookupTableMeta, table.addresses ++ newAddresses⟩ := by
  simp only [extendLookupTable, ExceptLoop.bind_eq_ok, ExceptLoop.ite_throw_bind_eq_ok,
    ExceptLoop.pure_eq_ok] at extended
  obtain ⟨table, signed, -, -, -, -, -, -, lookupTableMeta, recorded, stored⟩ := extended
  exact ⟨table, lookupTableMeta, signedTable_eq_ok signed, recorded, stored.symm⟩

theorem deactivateLookupTable_eq_ok {clockSlot : Slot}
    (deactivated : deactivateLookupTable tables accounts clockSlot = .ok tables') :
    ∃ table, tables accounts.lookupTable = some table ∧ table.lookupTableMeta.deactivationSlot = slotMax ∧
      tables' = store tables accounts
        { table with lookupTableMeta := { table.lookupTableMeta with deactivationSlot := clockSlot } } := by
  simp only [deactivateLookupTable, ExceptLoop.bind_eq_ok, ExceptLoop.ite_throw_bind_eq_ok,
    ExceptLoop.pure_eq_ok] at deactivated
  obtain ⟨table, signed, -, -, active, stored⟩ := deactivated
  exact ⟨table, signedTable_eq_ok signed, not_not.1 active, stored.symm⟩

theorem closeLookupTable_eq_ok {clockSlot : Slot} {slotHashes : SlotHashes}
    (closed : closeLookupTable tables accounts clockSlot slotHashes = .ok tables') :
    ∃ table, tables accounts.lookupTable = some table ∧
      table.lookupTableMeta.status clockSlot slotHashes = .deactivated ∧
      tables' = Function.update tables accounts.lookupTable none := by
  simp only [closeLookupTable, ExceptLoop.bind_eq_ok, ExceptLoop.ite_throw_bind_eq_ok] at closed
  obtain ⟨table, signed, -, -, -, settled⟩ := closed
  refine ⟨table, signedTable_eq_ok signed, ?_⟩
  split at settled
  · simp [throw, throwThe, MonadExceptOf.throw] at settled
  · simp [throw, throwThe, MonadExceptOf.throw] at settled
  · rename_i deactivated
    exact ⟨deactivated, (ExceptLoop.pure_eq_ok.1 settled).symm⟩

omit [DecidableEq Pubkey] in
theorem extendedMeta_evolves {table : AddressLookupTable Pubkey} {clockSlot : Slot}
    {lookupTableMeta : LookupTableMeta Pubkey} (newAddresses : List Pubkey)
    (recorded : extendedMeta table clockSlot = .ok lookupTableMeta) :
    Evolves clockSlot table ⟨lookupTableMeta, table.addresses ++ newAddresses⟩ := by
  unfold extendedMeta at recorded
  split at recorded
  · rename_i later
    split at recorded
    · cases recorded
      exact ⟨⟨newAddresses, rfl⟩, .inl rfl, .inr ⟨Ne.symm later, rfl, rfl⟩⟩
    · cases recorded
  · rename_i same
    cases recorded
    exact ⟨⟨newAddresses, rfl⟩, .inl rfl, .inl ⟨rfl, rfl, .inr (not_not.1 same).symm⟩⟩

/-- What a successful instruction does to the tables: nothing, or it creates a table at an
address derived from a slot in `SlotHashes` where none was, or it changes the table at its address
as `Evolves` allows, or it removes a deactivated table. -/
theorem processInstruction_cases {derive : Pubkey → Slot → Nat → Option Pubkey} {clockSlot : Slot}
    {slotHashes : SlotHashes} {instruction : ProgramInstruction Pubkey}
    (ok : processInstruction tables accounts derive clockSlot slotHashes instruction = .ok tables') :
    tables' = tables ∨
    (∃ recentSlot bumpSeed, recentSlot ∈ slotHashes ∧
      derive accounts.authority recentSlot bumpSeed = some accounts.lookupTable ∧
      tables accounts.lookupTable = none ∧ tables' = store tables accounts (AddressLookupTable.new accounts.authority)) ∨
    (∃ table table', tables accounts.lookupTable = some table ∧ Evolves clockSlot table table' ∧
      tables' = store tables accounts table') ∨
    (∃ table, tables accounts.lookupTable = some table ∧
      table.lookupTableMeta.status clockSlot slotHashes = .deactivated ∧
      tables' = Function.update tables accounts.lookupTable none) := by
  cases instruction with
  | createLookupTable recentSlot bumpSeed =>
    obtain ⟨recent, derived, ⟨-, same⟩ | ⟨absent, stored⟩⟩ := createLookupTable_eq_ok ok
    · exact .inl same
    · exact .inr (.inl ⟨recentSlot, bumpSeed, recent, derived, absent, stored⟩)
  | freezeLookupTable =>
    obtain ⟨table, found, stored⟩ := freezeLookupTable_eq_ok ok
    have evolves : Evolves clockSlot table
        { table with lookupTableMeta := { table.lookupTableMeta with authority := none } } :=
      Evolves.of_meta rfl (.inl rfl) rfl rfl
    exact .inr (.inr (.inl ⟨table, _, found, evolves, stored⟩))
  | extendLookupTable newAddresses =>
    obtain ⟨table, lookupTableMeta, found, recorded, stored⟩ := extendLookupTable_eq_ok ok
    exact .inr (.inr (.inl ⟨table, _, found, extendedMeta_evolves newAddresses recorded, stored⟩))
  | deactivateLookupTable =>
    obtain ⟨table, found, active, stored⟩ := deactivateLookupTable_eq_ok ok
    have evolves : Evolves clockSlot table
        { table with lookupTableMeta := { table.lookupTableMeta with deactivationSlot := clockSlot } } :=
      Evolves.of_meta rfl (.inr ⟨active, rfl⟩) rfl rfl
    exact .inr (.inr (.inl ⟨table, _, found, evolves, stored⟩))
  | closeLookupTable =>
    exact .inr (.inr (.inr (closeLookupTable_eq_ok ok)))

theorem processInstruction_requires {derive : Pubkey → Slot → Nat → Option Pubkey} {clockSlot : Slot}
    {slotHashes : SlotHashes} {instruction : ProgramInstruction Pubkey}
    (ok : processInstruction tables accounts derive clockSlot slotHashes instruction = .ok tables') :
    (∃ table, tables accounts.lookupTable = some table) ∨
      ∃ authority recentSlot bumpSeed, recentSlot ∈ slotHashes ∧
        derive authority recentSlot bumpSeed = some accounts.lookupTable := by
  cases instruction with
  | createLookupTable recentSlot bumpSeed =>
    obtain ⟨recent, derived, -⟩ := createLookupTable_eq_ok ok
    exact .inr ⟨_, recentSlot, bumpSeed, recent, derived⟩
  | freezeLookupTable =>
    obtain ⟨table, found, -⟩ := freezeLookupTable_eq_ok ok
    exact .inl ⟨table, found⟩
  | extendLookupTable newAddresses =>
    obtain ⟨table, -, found, -⟩ := extendLookupTable_eq_ok ok
    exact .inl ⟨table, found⟩
  | deactivateLookupTable =>
    obtain ⟨table, found, -⟩ := deactivateLookupTable_eq_ok ok
    exact .inl ⟨table, found⟩
  | closeLookupTable =>
    obtain ⟨table, found, -⟩ := closeLookupTable_eq_ok ok
    exact .inl ⟨table, found⟩

end Inversion

end LookupTable
