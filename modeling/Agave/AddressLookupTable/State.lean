import Mathlib
import Agave.Library.MachineInt

/-! The state of an address lookup table (`address_lookup_table/state.rs`): its metadata, its status
against the `SlotHashes` sysvar, and the lookup of addresses by index. A table resolves only the
addresses appended before the current slot: the first extension in a slot records where the
addresses of that slot start, and lookups in the same slot stop there (`activeAddresses`). -/

namespace LookupTable

open MachineInt

abbrev Slot := Nat

/-- `slot_hashes::MAX_ENTRIES`. -/
def maxEntries : Nat := 512

/-- `Slot::MAX`: the deactivation slot of a table that was never deactivated. -/
def slotMax : Slot := maxValue 64

/-- `LOOKUP_TABLE_MAX_ADDRESSES`. -/
def lookupTableMaxAddresses : Nat := 256

/-- The slots of the `SlotHashes` sysvar, most recent first; no function here reads the hashes. -/
abbrev SlotHashes := List Slot

variable {Pubkey : Type}

/-- `LookupTableMeta`, without its padding. -/
structure LookupTableMeta (Pubkey : Type) where
  deactivationSlot : Slot
  lastExtendedSlot : Slot
  lastExtendedSlotStartIndex : Nat
  authority : Option Pubkey
  deriving DecidableEq, Repr

/-- `LookupTableStatus`. -/
inductive LookupTableStatus where
  | activated
  | deactivating (remainingBlocks : Nat)
  | deactivated
  deriving DecidableEq, Repr

namespace LookupTableMeta

/-- `LookupTableMeta::new`: the default metadata, with an authority. -/
def new (authority : Pubkey) : LookupTableMeta Pubkey :=
  { deactivationSlot := slotMax
    lastExtendedSlot := 0
    lastExtendedSlotStartIndex := 0
    authority := some authority }

/-- `LookupTableMeta::status`: a deactivated table stays deactivating in its deactivation slot and
while that slot is in `SlotHashes`. `SlotHashes::position` is the binary search of the sorted
sysvar, which finds the index of the slot. -/
def status (lookupTableMeta : LookupTableMeta Pubkey) (currentSlot : Slot) (slotHashes : SlotHashes) :
    LookupTableStatus :=
  if lookupTableMeta.deactivationSlot = slotMax then .activated
  else if lookupTableMeta.deactivationSlot = currentSlot then
    .deactivating (saturatingAdd 64 maxEntries 1)
  else match slotHashes.idxOf? lookupTableMeta.deactivationSlot with
    | some slotHashPosition => .deactivating (maxEntries - slotHashPosition)
    | none => .deactivated

/-- `LookupTableMeta::is_active`. -/
def isActive (lookupTableMeta : LookupTableMeta Pubkey) (currentSlot : Slot) (slotHashes : SlotHashes) : Bool :=
  match lookupTableMeta.status currentSlot slotHashes with
  | .activated => true
  | .deactivating _ => true
  | .deactivated => false

theorem status_eq_deactivated {lookupTableMeta : LookupTableMeta Pubkey} {currentSlot : Slot}
    {slotHashes : SlotHashes} :
    lookupTableMeta.status currentSlot slotHashes = .deactivated ↔
      lookupTableMeta.deactivationSlot ≠ slotMax ∧ lookupTableMeta.deactivationSlot ≠ currentSlot ∧
        lookupTableMeta.deactivationSlot ∉ slotHashes := by
  unfold status
  split
  · simp_all
  split
  · simp_all
  split
  · rename_i position found
    have present : lookupTableMeta.deactivationSlot ∈ slotHashes := by
      by_contra absent
      rw [List.idxOf?_eq_none_iff.2 absent] at found
      cases found
    simp_all
  · rename_i missing
    simp_all [List.idxOf?_eq_none_iff.1 missing]

theorem isActive_eq_false {lookupTableMeta : LookupTableMeta Pubkey} {currentSlot : Slot}
    {slotHashes : SlotHashes} :
    lookupTableMeta.isActive currentSlot slotHashes = false ↔
      lookupTableMeta.status currentSlot slotHashes = .deactivated := by
  unfold isActive
  split <;> simp_all

end LookupTableMeta

/-- `AddressLookupTable`: the metadata and the addresses stored after it. -/
structure AddressLookupTable (Pubkey : Type) where
  lookupTableMeta : LookupTableMeta Pubkey
  addresses : List Pubkey
  deriving DecidableEq, Repr

/-- `AddressLookupError`, the errors of a lookup. -/
inductive AddressLookupError where
  | lookupTableAccountNotFound
  | invalidLookupIndex
  deriving DecidableEq, Repr

namespace AddressLookupTable

/-- `AddressLookupTable::get_active_addresses_len`: in the slot of its last extension, a table
resolves only the addresses it had before that slot. -/
def getActiveAddressesLen (table : AddressLookupTable Pubkey) (currentSlot : Slot) (slotHashes : SlotHashes) :
    Except AddressLookupError Nat :=
  if !table.lookupTableMeta.isActive currentSlot slotHashes then .error .lookupTableAccountNotFound
  else
    .ok (if currentSlot > table.lookupTableMeta.lastExtendedSlot then table.addresses.length
      else table.lookupTableMeta.lastExtendedSlotStartIndex)

/-- `AddressLookupTable::lookup` through `lookup_iter`: every index read from the active addresses,
the whole lookup failing if one index is past them. The slice `addresses[0..len]` panics, `none`,
when the recorded start lies past the addresses. -/
def lookup (table : AddressLookupTable Pubkey) (currentSlot : Slot) (indexes : List Nat)
    (slotHashes : SlotHashes) : Option (Except AddressLookupError (List Pubkey)) :=
  match table.getActiveAddressesLen currentSlot slotHashes with
  | .error error => some (.error error)
  | .ok activeAddressesLen =>
    if activeAddressesLen ≤ table.addresses.length then
      let activeAddresses := table.addresses.take activeAddressesLen
      some ((indexes.mapM fun idx => activeAddresses[idx]?).elim (.error .invalidLookupIndex) .ok)
    else none

/-- The addresses a table resolves in a slot: those from before its last extension when that was
in the slot. -/
def activeAddresses (table : AddressLookupTable Pubkey) (currentSlot : Slot) : List Pubkey :=
  if currentSlot > table.lookupTableMeta.lastExtendedSlot then table.addresses
  else table.addresses.take table.lookupTableMeta.lastExtendedSlotStartIndex

theorem getActiveAddressesLen_eq_ok {table : AddressLookupTable Pubkey} {currentSlot : Slot}
    {slotHashes : SlotHashes} {activeAddressesLen : Nat} :
    table.getActiveAddressesLen currentSlot slotHashes = .ok activeAddressesLen ↔
      table.lookupTableMeta.isActive currentSlot slotHashes = true ∧
        activeAddressesLen = if currentSlot > table.lookupTableMeta.lastExtendedSlot then table.addresses.length
          else table.lookupTableMeta.lastExtendedSlotStartIndex := by
  unfold getActiveAddressesLen
  by_cases active : table.lookupTableMeta.isActive currentSlot slotHashes = true
  · simp only [active, Bool.not_true, Bool.false_eq_true, if_false, Except.ok.injEq, true_and]
    exact eq_comm
  · simp [active]

theorem activeAddresses_eq_take (table : AddressLookupTable Pubkey) (currentSlot : Slot) :
    table.activeAddresses currentSlot =
      table.addresses.take (if currentSlot > table.lookupTableMeta.lastExtendedSlot then table.addresses.length
        else table.lookupTableMeta.lastExtendedSlotStartIndex) := by
  unfold activeAddresses
  split
  · rw [List.take_length]
  · rfl

theorem activeAddresses_isPrefix (table : AddressLookupTable Pubkey) (currentSlot : Slot) :
    table.activeAddresses currentSlot <+: table.addresses := by
  unfold activeAddresses
  split
  · exact List.prefix_refl _
  · exact List.take_prefix _ _

theorem lookup_eq_ok {table : AddressLookupTable Pubkey} {currentSlot : Slot} {indexes : List Nat}
    {slotHashes : SlotHashes} {found : List Pubkey}
    (looked : table.lookup currentSlot indexes slotHashes = some (.ok found)) :
    indexes.mapM (fun idx => (table.activeAddresses currentSlot)[idx]?) = some found := by
  unfold lookup at looked
  cases lenEq : table.getActiveAddressesLen currentSlot slotHashes with
  | error error => simp [lenEq] at looked
  | ok activeAddressesLen =>
    have activeEq := (getActiveAddressesLen_eq_ok.1 lenEq).2
    simp only [lenEq] at looked
    by_cases fits : activeAddressesLen ≤ table.addresses.length
    · rw [if_pos fits] at looked
      rw [activeAddresses_eq_take, ← activeEq]
      revert looked
      cases indexes.mapM fun idx => (table.addresses.take activeAddressesLen)[idx]? <;> simp
    · rw [if_neg fits] at looked
      cases looked

end AddressLookupTable

end LookupTable
