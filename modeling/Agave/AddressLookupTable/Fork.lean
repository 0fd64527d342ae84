import Mathlib
import Agave.AddressLookupTable.Processor
import Agave.Library.List
import Agave.Library.StateMachine

/-! The lookup table program along one fork. A bank holds the slots of the earlier blocks, the slot
of its own block and the program's accounts; a step runs one instruction in the block, or moves to a
block of a later slot, whose `SlotHashes` then holds the `MAX_ENTRIES` most recent earlier slots.

Three facts follow, assuming only that an address is derived from one slot (`SlotDetermined`, the
collision resistance of `create_program_address`). Within a slot every successful lookup reads the
addresses the table had when the slot began, however many extensions ran in it. Along the whole
fork successful lookups of an index of a table read one address. And a closed table stays closed:
its address was derived from a slot older than its deactivation, which has left `SlotHashes` for
good, so no creation can pass the check that the derivation slot is recent. -/

namespace LookupTable

open StateMachine

variable {Pubkey : Type} [DecidableEq Pubkey]

/-- A bank of one fork, as far as lookup tables go: the slots of the earlier blocks, oldest first,
the slot of its block, and the accounts of the program. -/
structure Bank (Pubkey : Type) where
  ancestors : List Slot
  slot : Slot
  tables : Tables Pubkey

namespace Bank

/-- The `SlotHashes` sysvar of the bank: the `MAX_ENTRIES` most recent earlier slots of the fork,
most recent first. -/
def slotHashes (bank : Bank Pubkey) : SlotHashes := bank.ancestors.reverse.take maxEntries

/-- A transaction of one instruction of the program: what it writes, or nothing when it fails. -/
def execute (derive : Pubkey → Slot → Nat → Option Pubkey) (bank : Bank Pubkey)
    (accounts : InstructionAccounts Pubkey) (instruction : ProgramInstruction Pubkey) : Bank Pubkey :=
  match processInstruction bank.tables accounts derive bank.slot bank.slotHashes instruction with
  | .ok tables => { bank with tables }
  | .error _ => bank

/-- The next block of the fork, at a later slot. -/
def advance (bank : Bank Pubkey) (slot : Slot) : Bank Pubkey :=
  { ancestors := bank.ancestors ++ [bank.slot], slot, tables := bank.tables }

/-- A lookup against the current data of a table. -/
def lookup (bank : Bank Pubkey) (lookupTable : Pubkey) (indexes : List Nat) :
    Option (Except AddressLookupError (List Pubkey)) :=
  match bank.tables lookupTable with
  | none => some (.error .lookupTableAccountNotFound)
  | some table => table.lookup bank.slot indexes bank.slotHashes

/-- The addresses of the table at an address, none where there is no table. -/
def addressesOf (bank : Bank Pubkey) (lookupTable : Pubkey) : List Pubkey :=
  ((bank.tables lookupTable).map (·.addresses)).getD []

/-- The first bank of the fork: no tables. -/
def genesis (slot : Slot) : Bank Pubkey := ⟨[], slot, fun _ => none⟩

/-- An earlier slot of the fork that has left `SlotHashes` lies above `slot`. -/
def Expired (bank : Bank Pubkey) (slot : Slot) : Prop :=
  ∃ older ∈ bank.ancestors, older ∉ bank.slotHashes ∧ slot < older

/-- No table of the bank was extended in its own slot: the bank begins its block. -/
def Fresh (bank : Bank Pubkey) : Prop :=
  ∀ address table, bank.tables address = some table → table.lookupTableMeta.lastExtendedSlot < bank.slot

@[simp] theorem execute_ancestors (derive : Pubkey → Slot → Nat → Option Pubkey) (bank : Bank Pubkey)
    (accounts : InstructionAccounts Pubkey) (instruction : ProgramInstruction Pubkey) :
    (bank.execute derive accounts instruction).ancestors = bank.ancestors := by
  unfold execute
  split <;> rfl

@[simp] theorem execute_slot (derive : Pubkey → Slot → Nat → Option Pubkey) (bank : Bank Pubkey)
    (accounts : InstructionAccounts Pubkey) (instruction : ProgramInstruction Pubkey) :
    (bank.execute derive accounts instruction).slot = bank.slot := by
  unfold execute
  split <;> rfl

@[simp] theorem execute_slotHashes (derive : Pubkey → Slot → Nat → Option Pubkey) (bank : Bank Pubkey)
    (accounts : InstructionAccounts Pubkey) (instruction : ProgramInstruction Pubkey) :
    (bank.execute derive accounts instruction).slotHashes = bank.slotHashes := by
  simp [slotHashes]

theorem execute_tables (derive : Pubkey → Slot → Nat → Option Pubkey) (bank : Bank Pubkey)
    (accounts : InstructionAccounts Pubkey) (instruction : ProgramInstruction Pubkey) :
    (bank.execute derive accounts instruction).tables = bank.tables ∨
      processInstruction bank.tables accounts derive bank.slot bank.slotHashes instruction =
        .ok (bank.execute derive accounts instruction).tables := by
  unfold execute
  split
  · rename_i written
    exact .inr written
  · exact .inl rfl

omit [DecidableEq Pubkey] in
theorem mem_ancestors_of_mem_slotHashes {bank : Bank Pubkey} {slot : Slot} (recent : slot ∈ bank.slotHashes) :
    slot ∈ bank.ancestors :=
  List.mem_reverse.1 (List.mem_of_mem_take recent)

end Bank

/-- `create_program_address` never derives one address from two slots. Its seeds are the
authority, the slot and the bump seed at fixed lengths, so this is the collision resistance of the
hash it applies. -/
def SlotDetermined (derive : Pubkey → Slot → Nat → Option Pubkey) : Prop :=
  ∀ ⦃authority authority' : Pubkey⦄ ⦃slot slot' : Slot⦄ ⦃bumpSeed bumpSeed' : Nat⦄ ⦃address : Pubkey⦄,
    derive authority slot bumpSeed = some address → derive authority' slot' bumpSeed' = some address →
      slot = slot'

/-- A step of the fork: a transaction in the current block, or the next block. -/
inductive Step (derive : Pubkey → Slot → Nat → Option Pubkey) : Bank Pubkey → Bank Pubkey → Prop where
  | execute (bank : Bank Pubkey) (accounts : InstructionAccounts Pubkey) (instruction : ProgramInstruction Pubkey) :
    Step derive bank (bank.execute derive accounts instruction)
  | advance (bank : Bank Pubkey) (slot : Slot) (later : bank.slot < slot) : Step derive bank (bank.advance slot)

/-- A step inside the current block. -/
inductive BlockStep (derive : Pubkey → Slot → Nat → Option Pubkey) : Bank Pubkey → Bank Pubkey → Prop where
  | execute (bank : Bank Pubkey) (accounts : InstructionAccounts Pubkey) (instruction : ProgramInstruction Pubkey) :
    BlockStep derive bank (bank.execute derive accounts instruction)

theorem BlockStep.step {derive : Pubkey → Slot → Nat → Option Pubkey} {bank bank' : Bank Pubkey}
    (inBlock : BlockStep derive bank bank') : Step derive bank bank' := by
  cases inBlock with
  | execute accounts instruction => exact .execute bank accounts instruction

section Invariant

variable (derive : Pubkey → Slot → Nat → Option Pubkey)

/-- What holds of every table in a bank: its address was derived from an earlier slot of the fork,
older than its deactivation; it was deactivated in an earlier slot or in this one; and its record of
the last extension lies in the past and inside its addresses. -/
structure TableValid (ancestors : List Slot) (slot : Slot) (address : Pubkey)
    (table : AddressLookupTable Pubkey) : Prop where
  derived : ∃ authority recentSlot bumpSeed, derive authority recentSlot bumpSeed = some address ∧
    recentSlot ∈ ancestors ∧
    (table.lookupTableMeta.deactivationSlot ≠ slotMax → recentSlot < table.lookupTableMeta.deactivationSlot)
  deactivated : table.lookupTableMeta.deactivationSlot ≠ slotMax →
    table.lookupTableMeta.deactivationSlot ∈ ancestors ∨ table.lookupTableMeta.deactivationSlot = slot
  extended : table.lookupTableMeta.lastExtendedSlot ≤ slot
  startIndex_le : table.lookupTableMeta.lastExtendedSlotStartIndex ≤ table.addresses.length

/-- The invariant of the fork: its slots increase, and every table is valid. -/
structure Bank.Valid (bank : Bank Pubkey) : Prop where
  increasing : bank.ancestors.Pairwise (· < ·)
  before : ∀ older ∈ bank.ancestors, older < bank.slot
  tables : ∀ address table, bank.tables address = some table →
    TableValid derive bank.ancestors bank.slot address table

/-- A table that was closed: no table is at its address, which was derived from an expired slot. -/
def Bank.Dead (bank : Bank Pubkey) (address : Pubkey) : Prop :=
  bank.tables address = none ∧
    ∃ authority recentSlot bumpSeed, derive authority recentSlot bumpSeed = some address ∧ bank.Expired recentSlot

end Invariant

section Fork

variable {bank : Bank Pubkey} {slot : Slot}

omit [DecidableEq Pubkey] in
theorem Bank.Expired.not_mem_slotHashes (increasing : bank.ancestors.Pairwise (· < ·))
    (expired : bank.Expired slot) : slot ∉ bank.slotHashes := by
  obtain ⟨older, ancestor, gone, below⟩ := expired
  intro recent
  have split := List.take_append_drop (bank.ancestors.length - maxEntries) bank.ancestors
  rw [Bank.slotHashes, List.take_reverse, List.mem_reverse] at gone recent
  have dropped : older ∈ bank.ancestors.take (bank.ancestors.length - maxEntries) := by
    rw [← split, List.mem_append] at ancestor
    exact ancestor.resolve_right gone
  rw [← split, List.pairwise_append] at increasing
  exact Nat.lt_asymm below (increasing.2.2 older dropped slot recent)

omit [DecidableEq Pubkey] in
theorem Bank.Expired.advance (before : ∀ older ∈ bank.ancestors, older < bank.slot) {next : Slot}
    (expired : bank.Expired slot) : (bank.advance next).Expired slot := by
  obtain ⟨older, ancestor, gone, below⟩ := expired
  refine ⟨older, List.mem_append_left _ ancestor, ?_, below⟩
  have shifted : (bank.advance next).slotHashes = bank.slot :: bank.ancestors.reverse.take (maxEntries - 1) := by
    simp [Bank.advance, Bank.slotHashes, maxEntries]
  rw [shifted, List.mem_cons, not_or]
  exact ⟨Nat.ne_of_lt (before older ancestor),
    fun shorter => gone ((List.take_sublist_take_left (Nat.sub_le maxEntries 1)).subset shorter)⟩

@[simp] theorem Bank.expired_execute (derive : Pubkey → Slot → Nat → Option Pubkey)
    (accounts : InstructionAccounts Pubkey) (instruction : ProgramInstruction Pubkey) :
    (bank.execute derive accounts instruction).Expired slot ↔ bank.Expired slot := by
  simp [Bank.Expired]

end Fork

section Tables

omit [DecidableEq Pubkey] in
/-- A new table resolves nothing. -/
@[simp] theorem activeAddresses_new (authority : Pubkey) (slot : Slot) :
    (AddressLookupTable.new authority).activeAddresses slot = [] := by
  unfold AddressLookupTable.activeAddresses
  split <;> rfl

variable {derive : Pubkey → Slot → Nat → Option Pubkey} {ancestors : List Slot} {slot : Slot}
  {address : Pubkey} {table table' : AddressLookupTable Pubkey}

omit [DecidableEq Pubkey] in
theorem TableValid.evolve (before : ∀ older ∈ ancestors, older < slot)
    (valid : TableValid derive ancestors slot address table) (evolves : Evolves slot table table') :
    TableValid derive ancestors slot address table' where
  derived := by
    obtain ⟨authority, recentSlot, bumpSeed, derived, recent, older⟩ := valid.derived
    refine ⟨authority, recentSlot, bumpSeed, derived, recent, fun deactivated => ?_⟩
    rcases evolves.deactivation with same | ⟨-, now⟩
    · rw [same] at deactivated ⊢
      exact older deactivated
    · rw [now]
      exact before recentSlot recent
  deactivated := by
    intro deactivated
    rcases evolves.deactivation with same | ⟨-, now⟩
    · rw [same] at deactivated ⊢
      exact valid.deactivated deactivated
    · exact .inr now
  extended := by
    rcases evolves.extension with ⟨same, -, -⟩ | ⟨-, now, -⟩
    · rw [same]
      exact valid.extended
    · rw [now]
  startIndex_le := by
    obtain ⟨extra, appended⟩ := evolves.appended
    have bound := valid.startIndex_le
    rcases evolves.extension with ⟨-, same, -⟩ | ⟨-, -, start⟩
    · rw [same, appended, List.length_append]
      omega
    · rw [start, appended, List.length_append]
      omega

omit [DecidableEq Pubkey] in
theorem Evolves.activeAddresses_eq (extended : table.lookupTableMeta.lastExtendedSlot ≤ slot)
    (startIndex : table.lookupTableMeta.lastExtendedSlotStartIndex ≤ table.addresses.length)
    (evolves : Evolves slot table table') : table'.activeAddresses slot = table.activeAddresses slot := by
  obtain ⟨extra, appended⟩ := evolves.appended
  unfold AddressLookupTable.activeAddresses
  rcases evolves.extension with ⟨sameSlot, sameStart, unchanged | inSlot⟩ | ⟨earlier, now, start⟩
  · rw [sameSlot, sameStart, unchanged]
  · rw [sameSlot, sameStart, inSlot, if_neg (lt_irrefl slot), if_neg (lt_irrefl slot), appended,
      List.take_append_of_le_length startIndex]
  · rw [now, if_neg (lt_irrefl slot), start, appended, List.take_left,
      if_pos (lt_of_le_of_ne extended earlier)]

end Tables

section Steps

variable {derive : Pubkey → Slot → Nat → Option Pubkey} {bank : Bank Pubkey} {address : Pubkey}

omit [DecidableEq Pubkey] in
theorem Bank.valid_genesis (derive : Pubkey → Slot → Nat → Option Pubkey) (slot : Slot) :
    (Bank.genesis slot).Valid derive :=
  ⟨List.Pairwise.nil, fun _ none => absurd none List.not_mem_nil, fun _ _ none => by cases none⟩

theorem forall_update_eq_some {tables : Tables Pubkey} {target : Pubkey} {written : Option (AddressLookupTable Pubkey)}
    {holds : Pubkey → AddressLookupTable Pubkey → Prop} (here : ∀ table, written = some table → holds target table)
    (elsewhere : ∀ address table, address ≠ target → tables address = some table → holds address table) :
    ∀ address table, Function.update tables target written address = some table → holds address table := by
  intro address table found
  by_cases same : address = target
  · subst same
    rw [Function.update_self] at found
    exact here table found
  · rw [Function.update_of_ne same] at found
    exact elsewhere address table same found

theorem Bank.Valid.execute (valid : bank.Valid derive) (accounts : InstructionAccounts Pubkey)
    (instruction : ProgramInstruction Pubkey) : (bank.execute derive accounts instruction).Valid derive := by
  refine ⟨by simpa using valid.increasing, by simpa using valid.before, ?_⟩
  simp only [Bank.execute_ancestors, Bank.execute_slot]
  have unchanged : ∀ address table, address ≠ accounts.lookupTable → bank.tables address = some table →
      TableValid derive bank.ancestors bank.slot address table := fun address table _ found =>
    valid.tables address table found
  rcases Bank.execute_tables derive bank accounts instruction with same | written
  · rw [same]
    exact valid.tables
  rcases processInstruction_cases written with same | ⟨recentSlot, bumpSeed, recent, derived, -, stored⟩ |
      ⟨table, table', found, evolves, stored⟩ | ⟨table, -, -, removed⟩
  · rw [same]
    exact valid.tables
  · rw [stored]
    refine forall_update_eq_some (fun created new => ?_) unchanged
    cases new
    exact ⟨⟨accounts.authority, recentSlot, bumpSeed, derived, Bank.mem_ancestors_of_mem_slotHashes recent,
      fun active => absurd rfl active⟩, fun active => absurd rfl active, Nat.zero_le _, Nat.le_refl 0⟩
  · rw [stored]
    refine forall_update_eq_some (fun changed written => ?_) unchanged
    cases written
    exact (valid.tables _ table found).evolve valid.before evolves
  · rw [removed]
    exact forall_update_eq_some (fun _ none => by cases none) unchanged

omit [DecidableEq Pubkey] in
theorem Bank.Valid.advance (valid : bank.Valid derive) {next : Slot} (later : bank.slot < next) :
    (bank.advance next).Valid derive where
  increasing := List.pairwise_append.2 ⟨valid.increasing, List.pairwise_singleton _ _,
    fun older ancestor current now => by
      rw [List.mem_singleton] at now
      exact now ▸ valid.before older ancestor⟩
  before := by
    intro older mem
    rcases List.mem_append.1 mem with ancestor | now
    · exact Nat.lt_trans (valid.before older ancestor) later
    · rw [List.mem_singleton] at now
      exact now ▸ later
  tables := by
    intro address table found
    have tableValid := valid.tables address table found
    obtain ⟨authority, recentSlot, bumpSeed, derived, recent, older⟩ := tableValid.derived
    refine ⟨⟨authority, recentSlot, bumpSeed, derived, List.mem_append_left _ recent, older⟩, fun deactivated => ?_,
      Nat.le_trans tableValid.extended later.le, tableValid.startIndex_le⟩
    rcases tableValid.deactivated deactivated with ancestor | now
    · exact .inl (List.mem_append_left _ ancestor)
    · exact .inl (List.mem_append_right _ (List.mem_singleton.2 now))

theorem Bank.Valid.step (valid : bank.Valid derive) {bank' : Bank Pubkey} (step : Step derive bank bank') :
    bank'.Valid derive := by
  cases step with
  | execute accounts instruction => exact valid.execute accounts instruction
  | advance next later => exact valid.advance later

omit [DecidableEq Pubkey] in
theorem Bank.Dead.not_derived (determined : SlotDetermined derive) (valid : bank.Valid derive)
    (dead : bank.Dead derive address) {authority : Pubkey} {recentSlot : Slot} {bumpSeed : Nat}
    (recent : recentSlot ∈ bank.slotHashes) (derived : derive authority recentSlot bumpSeed = some address) : False := by
  obtain ⟨-, authority', expiredSlot, bumpSeed', derived', expired⟩ := dead
  have same := determined derived' derived
  subst same
  exact expired.not_mem_slotHashes valid.increasing recent

theorem Bank.Dead.processInstruction_ne_ok (determined : SlotDetermined derive) (valid : bank.Valid derive)
    (dead : bank.Dead derive address) {accounts : InstructionAccounts Pubkey} (onTable : accounts.lookupTable = address)
    (instruction : ProgramInstruction Pubkey) (tables' : Tables Pubkey) :
    processInstruction bank.tables accounts derive bank.slot bank.slotHashes instruction ≠ .ok tables' := by
  intro ok
  subst onTable
  rcases processInstruction_requires ok with ⟨table, found⟩ | ⟨authority, recentSlot, bumpSeed, recent, derived⟩
  · rw [dead.1] at found
    cases found
  · exact dead.not_derived determined valid recent derived

theorem Bank.Dead.execute (determined : SlotDetermined derive) (valid : bank.Valid derive)
    (dead : bank.Dead derive address) (accounts : InstructionAccounts Pubkey) (instruction : ProgramInstruction Pubkey) :
    (bank.execute derive accounts instruction).Dead derive address := by
  obtain ⟨authority, recentSlot, bumpSeed, derived, expired⟩ := dead.2
  refine ⟨?_, authority, recentSlot, bumpSeed, derived, (Bank.expired_execute derive accounts instruction).2 expired⟩
  rcases Bank.execute_tables derive bank accounts instruction with same | written
  · rw [same]
    exact dead.1
  by_cases onTable : accounts.lookupTable = address
  · exact absurd written (dead.processInstruction_ne_ok determined valid onTable instruction _)
  rcases processInstruction_cases written with same | ⟨_, _, -, -, -, stored⟩ | ⟨_, _, -, -, stored⟩ |
      ⟨_, -, -, removed⟩
  · rw [same]
    exact dead.1
  · rw [stored, store, Function.update_of_ne (Ne.symm onTable)]
    exact dead.1
  · rw [stored, store, Function.update_of_ne (Ne.symm onTable)]
    exact dead.1
  · rw [removed, Function.update_of_ne (Ne.symm onTable)]
    exact dead.1

omit [DecidableEq Pubkey] in
theorem Bank.Dead.advance (valid : bank.Valid derive) (dead : bank.Dead derive address) {next : Slot} :
    (bank.advance next).Dead derive address := by
  obtain ⟨authority, recentSlot, bumpSeed, derived, expired⟩ := dead.2
  exact ⟨dead.1, authority, recentSlot, bumpSeed, derived, expired.advance valid.before⟩

theorem Bank.Dead.step (determined : SlotDetermined derive) (valid : bank.Valid derive)
    (dead : bank.Dead derive address) {bank' : Bank Pubkey} (step : Step derive bank bank') :
    bank'.Dead derive address := by
  cases step with
  | execute accounts instruction => exact dead.execute determined valid accounts instruction
  | advance next later => exact dead.advance valid

theorem Bank.Valid.dead_of_removed (valid : bank.Valid derive) {accounts : InstructionAccounts Pubkey}
    {instruction : ProgramInstruction Pubkey} {table : AddressLookupTable Pubkey} (found : bank.tables address = some table)
    (removed : (bank.execute derive accounts instruction).tables address = none) :
    (bank.execute derive accounts instruction).Dead derive address := by
  refine ⟨removed, ?_⟩
  rcases Bank.execute_tables derive bank accounts instruction with same | written
  · rw [same, found] at removed
    cases removed
  -- only a close removes a table: every other instruction writes one or leaves the address alone
  have closed : ∃ table, bank.tables address = some table ∧
      table.lookupTableMeta.status bank.slot bank.slotHashes = .deactivated := by
    rcases processInstruction_cases written with same | ⟨_, _, -, -, -, stored⟩ | ⟨_, _, -, -, stored⟩ |
        ⟨closedTable, closedFound, deactivated, written'⟩
    · rw [same, found] at removed
      cases removed
    · rw [stored, store, Function.update_apply] at removed
      split at removed
      · cases removed
      · rw [found] at removed
        cases removed
    · rw [stored, store, Function.update_apply] at removed
      split at removed
      · cases removed
      · rw [found] at removed
        cases removed
    · rw [written', Function.update_apply] at removed
      split at removed
      · rename_i here
        exact ⟨closedTable, here ▸ closedFound, deactivated⟩
      · rw [found] at removed
        cases removed
  obtain ⟨table, found, deactivated⟩ := closed
  obtain ⟨notMax, notNow, gone⟩ := LookupTableMeta.status_eq_deactivated.1 deactivated
  have tableValid := valid.tables address table found
  obtain ⟨authority, recentSlot, bumpSeed, derived, -, older⟩ := tableValid.derived
  refine ⟨authority, recentSlot, bumpSeed, derived, (Bank.expired_execute derive accounts instruction).2 ?_⟩
  exact ⟨_, (tableValid.deactivated notMax).resolve_right notNow, gone, older notMax⟩

end Steps

section Resolution

variable {derive : Pubkey → Slot → Nat → Option Pubkey}

/-- The tables of a block against the bank `start` it began with: each table resolves the
addresses it had then, and an address without a table had none then or is dead. -/
structure SlotView (derive : Pubkey → Slot → Nat → Option Pubkey) (start bank : Bank Pubkey) : Prop where
  active : ∀ address table, bank.tables address = some table →
    table.activeAddresses bank.slot = start.addressesOf address
  reborn : ∀ address, bank.tables address = none → start.tables address = none ∨ bank.Dead derive address

omit [DecidableEq Pubkey] in
theorem SlotView.start {start : Bank Pubkey} (fresh : start.Fresh) : SlotView derive start start where
  active address table found := by
    rw [AddressLookupTable.activeAddresses, if_pos (fresh address table found), Bank.addressesOf, found]
    rfl
  reborn _ absent := .inl absent

theorem SlotView.execute (determined : SlotDetermined derive) {start bank : Bank Pubkey}
    (valid : bank.Valid derive) (view : SlotView derive start bank) (accounts : InstructionAccounts Pubkey)
    (instruction : ProgramInstruction Pubkey) : SlotView derive start (bank.execute derive accounts instruction) where
  active := by
    rw [Bank.execute_slot]
    have unchanged : ∀ address table, address ≠ accounts.lookupTable → bank.tables address = some table →
        table.activeAddresses bank.slot = start.addressesOf address := fun address table _ found =>
      view.active address table found
    rcases Bank.execute_tables derive bank accounts instruction with same | written
    · rw [same]
      exact view.active
    rcases processInstruction_cases written with same | ⟨recentSlot, bumpSeed, recent, derived, absent, stored⟩ |
        ⟨table, table', found, evolves, stored⟩ | ⟨table, -, -, removed⟩
    · rw [same]
      exact view.active
    · rw [stored]
      refine forall_update_eq_some (fun created new => ?_) unchanged
      cases new
      rcases view.reborn _ absent with before | dead
      · rw [activeAddresses_new, Bank.addressesOf, before]
        rfl
      · exact (dead.not_derived determined valid recent derived).elim
    · rw [stored]
      refine forall_update_eq_some (fun changed written => ?_) unchanged
      cases written
      have tableValid := valid.tables _ table found
      rw [evolves.activeAddresses_eq tableValid.extended tableValid.startIndex_le]
      exact view.active _ table found
    · rw [removed]
      exact forall_update_eq_some (fun _ none => by cases none) unchanged
  reborn address absent := by
    cases found : bank.tables address with
    | none =>
      rcases view.reborn address found with before | dead
      · exact .inl before
      · exact .inr (dead.execute determined valid accounts instruction)
    | some table => exact .inr (valid.dead_of_removed found absent)

/-- How the table at each address goes on from a bank to a later one: it is dead, or it holds the
addresses it had and maybe more; and a dead address stays dead. -/
def Lineage (derive : Pubkey → Slot → Nat → Option Pubkey) (bank bank' : Bank Pubkey) : Prop :=
  ∀ address, (∀ table, bank.tables address = some table → bank'.Dead derive address ∨
      ∃ table', bank'.tables address = some table' ∧ table.addresses <+: table'.addresses) ∧
    (bank.Dead derive address → bank'.Dead derive address)

omit [DecidableEq Pubkey] in
theorem Lineage.refl (bank : Bank Pubkey) : Lineage derive bank bank :=
  fun _ => ⟨fun table found => .inr ⟨table, found, List.prefix_refl _⟩, id⟩

omit [DecidableEq Pubkey] in
theorem Lineage.trans {bank bank' bank'' : Bank Pubkey} (first : Lineage derive bank bank')
    (second : Lineage derive bank' bank'') : Lineage derive bank bank'' := by
  intro address
  refine ⟨fun table found => ?_, fun dead => (second address).2 ((first address).2 dead)⟩
  rcases (first address).1 table found with dead | ⟨table', found', isPrefix⟩
  · exact .inl ((second address).2 dead)
  · rcases (second address).1 table' found' with dead | ⟨table'', found'', isPrefix'⟩
    · exact .inl dead
    · exact .inr ⟨table'', found'', isPrefix.trans isPrefix'⟩

theorem Lineage.execute (determined : SlotDetermined derive) {bank : Bank Pubkey} (valid : bank.Valid derive)
    (accounts : InstructionAccounts Pubkey) (instruction : ProgramInstruction Pubkey) :
    Lineage derive bank (bank.execute derive accounts instruction) := by
  intro address
  refine ⟨fun table found => ?_, fun dead => dead.execute determined valid accounts instruction⟩
  cases after : (bank.execute derive accounts instruction).tables address with
  | none => exact .inl (valid.dead_of_removed found after)
  | some table' =>
    refine .inr ⟨table', rfl, ?_⟩
    rcases Bank.execute_tables derive bank accounts instruction with same | written
    · rw [same, found, Option.some.injEq] at after
      rw [after]
    rcases processInstruction_cases written with same | ⟨_, _, -, -, absent, stored⟩ |
        ⟨changed, changed', changedFound, evolves, stored⟩ | ⟨_, -, -, removed⟩
    · rw [same, found, Option.some.injEq] at after
      rw [after]
    · rw [stored, store, Function.update_apply] at after
      split at after
      · rename_i here
        rw [here, absent] at found
        cases found
      · rw [found, Option.some.injEq] at after
        rw [after]
    · rw [stored, store, Function.update_apply] at after
      split at after
      · rename_i here
        rw [here, changedFound, Option.some.injEq] at found
        rw [Option.some.injEq] at after
        obtain ⟨extra, appended⟩ := evolves.appended
        rw [← after, ← found, appended]
        exact List.prefix_append _ _
      · rw [found, Option.some.injEq] at after
        rw [after]
    · rw [removed, Function.update_apply] at after
      split at after
      · cases after
      · rw [found, Option.some.injEq] at after
        rw [after]

theorem Lineage.step (determined : SlotDetermined derive) {bank bank' : Bank Pubkey} (valid : bank.Valid derive)
    (step : Step derive bank bank') : Lineage derive bank bank' := by
  cases step with
  | execute accounts instruction => exact Lineage.execute determined valid accounts instruction
  | advance next later =>
    exact fun address => ⟨fun table found => .inr ⟨table, found, List.prefix_refl _⟩, fun dead => dead.advance valid⟩

omit [DecidableEq Pubkey] in
theorem Bank.lookup_eq_ok {bank : Bank Pubkey} {address : Pubkey} {indexes : List Nat} {found : List Pubkey}
    (looked : bank.lookup address indexes = some (.ok found)) :
    ∃ table, bank.tables address = some table ∧
      indexes.mapM (fun idx => (table.activeAddresses bank.slot)[idx]?) = some found := by
  unfold Bank.lookup at looked
  cases present : bank.tables address with
  | none => simp [present] at looked
  | some table =>
    rw [present] at looked
    exact ⟨table, rfl, AddressLookupTable.lookup_eq_ok looked⟩

/-- The banks that begin a block of the fork: the genesis and every later block. -/
def SlotStart (derive : Pubkey → Slot → Nat → Option Pubkey) (genesisSlot : Slot) (start : Bank Pubkey) : Prop :=
  start = Bank.genesis genesisSlot ∨
    ∃ bank next, Reachable (Step derive) (Bank.genesis genesisSlot) bank ∧ bank.slot < next ∧ start = bank.advance next

theorem Bank.Valid.reachable {genesisSlot : Slot} {bank : Bank Pubkey}
    (reach : Reachable (Step derive) (Bank.genesis genesisSlot) bank) : bank.Valid derive :=
  Preserved.reachable (fun _ _ valid step => valid.step step) (Bank.valid_genesis derive genesisSlot) reach

theorem SlotStart.reachable_fresh {genesisSlot : Slot} {start : Bank Pubkey} (begins : SlotStart derive genesisSlot start) :
    Reachable (Step derive) (Bank.genesis genesisSlot) start ∧ start.Fresh := by
  rcases begins with rfl | ⟨bank, next, reach, later, rfl⟩
  · exact ⟨Reachable.refl _ _, fun _ _ none => by cases none⟩
  · refine ⟨reach.tail (.advance bank next later), fun address table found => ?_⟩
    exact Nat.lt_of_le_of_lt ((Bank.Valid.reachable reach).tables address table found).extended later

/-- Lookup tables resolve addresses stably and append-only along a fork. Within a block, every
successful lookup reads the addresses the table had when the block began. Along the fork, two
successful lookups of a table read one list of addresses. And once a table is closed, its address
never holds a table again: every instruction on it fails and every lookup of it fails. -/
structure StableResolution (derive : Pubkey → Slot → Nat → Option Pubkey) (genesisSlot : Slot) : Prop where
  same_slot : ∀ start bank, SlotStart derive genesisSlot start → Relation.ReflTransGen (BlockStep derive) start bank →
    ∀ address indexes found, bank.lookup address indexes = some (.ok found) →
      indexes.mapM (fun idx => (start.addressesOf address)[idx]?) = some found
  same_address : ∀ bank bank', Reachable (Step derive) (Bank.genesis genesisSlot) bank →
    Relation.ReflTransGen (Step derive) bank bank' →
    ∀ address indexes indexes' found found', bank.lookup address indexes = some (.ok found) →
      bank'.lookup address indexes' = some (.ok found') →
      ∃ addresses : List Pubkey, indexes.mapM (fun idx => addresses[idx]?) = some found ∧
        indexes'.mapM (fun idx => addresses[idx]?) = some found'
  closed_forever : ∀ bank accounts tables, Reachable (Step derive) (Bank.genesis genesisSlot) bank →
    processInstruction bank.tables accounts derive bank.slot bank.slotHashes .closeLookupTable = .ok tables →
    ∀ bank', Relation.ReflTransGen (Step derive) (bank.execute derive accounts .closeLookupTable) bank' →
      bank'.tables accounts.lookupTable = none ∧
      (∀ accounts' instruction tables', accounts'.lookupTable = accounts.lookupTable →
        processInstruction bank'.tables accounts' derive bank'.slot bank'.slotHashes instruction ≠ .ok tables') ∧
      ∀ indexes found, bank'.lookup accounts.lookupTable indexes ≠ some (.ok found)

theorem stable_resolution (determined : SlotDetermined derive) (genesisSlot : Slot) :
    StableResolution derive genesisSlot where
  same_slot start bank begins inBlock address indexes found looked := by
    obtain ⟨reach, fresh⟩ := begins.reachable_fresh
    have preserved : Preserved (BlockStep derive) fun bank => bank.Valid derive ∧ SlotView derive start bank := by
      rintro bank _ ⟨valid, view⟩ ⟨accounts, instruction⟩
      exact ⟨valid.execute accounts instruction, view.execute determined valid accounts instruction⟩
    have holds : bank.Valid derive ∧ SlotView derive start bank :=
      preserved.reachable ⟨Bank.Valid.reachable reach, SlotView.start fresh⟩ inBlock
    obtain ⟨table, present, read⟩ := Bank.lookup_eq_ok looked
    rwa [holds.2.active address table present] at read
  same_address bank bank' reach later address indexes indexes' found found' looked looked' := by
    have lineage := Preserved.reflTransGen_rel (fun _ _ valid step => valid.step step) Lineage.refl Lineage.trans
      (fun _ _ valid step => Lineage.step determined valid step) (Bank.Valid.reachable reach) later
    obtain ⟨table, present, read⟩ := Bank.lookup_eq_ok looked
    obtain ⟨table', present', read'⟩ := Bank.lookup_eq_ok looked'
    rcases (lineage address).1 table present with dead | ⟨table'', present'', isPrefix⟩
    · rw [dead.1] at present'
      cases present'
    rw [present', Option.some.injEq] at present''
    subst present''
    exact ⟨table'.addresses,
      List.mapM_getElem?_of_isPrefix ((table.activeAddresses_isPrefix bank.slot).trans isPrefix) read,
      List.mapM_getElem?_of_isPrefix (table'.activeAddresses_isPrefix bank'.slot) read'⟩
  closed_forever bank accounts tables reach closed bank' later := by
    have valid := Bank.Valid.reachable reach
    have present : ∃ table, bank.tables accounts.lookupTable = some table := by
      obtain ⟨table, found, -⟩ := closeLookupTable_eq_ok closed
      exact ⟨table, found⟩
    obtain ⟨table, found⟩ := present
    have removed : (bank.execute derive accounts .closeLookupTable).tables accounts.lookupTable = none := by
      obtain ⟨-, -, -, written⟩ := closeLookupTable_eq_ok closed
      simp [Bank.execute, closed, written]
    have preserved : Preserved (Step derive) fun bank => bank.Valid derive ∧ bank.Dead derive accounts.lookupTable :=
      fun _ _ ⟨valid, dead⟩ step => ⟨valid.step step, dead.step determined valid step⟩
    have holds : bank'.Valid derive ∧ bank'.Dead derive accounts.lookupTable :=
      preserved.reachable ⟨valid.execute accounts .closeLookupTable, valid.dead_of_removed found removed⟩ later
    refine ⟨holds.2.1, fun accounts' instruction tables' onTable =>
      holds.2.processInstruction_ne_ok determined holds.1 onTable instruction tables', fun indexes found looked => ?_⟩
    obtain ⟨table, present, -⟩ := Bank.lookup_eq_ok looked
    rw [holds.2.1] at present
    cases present

/-- Seeds packed into one number derive each address from one slot, so the three facts hold of
that derivation. -/
theorem stable_resolution_pair :
    SlotDetermined (fun (authority : Nat) slot bumpSeed => some (Nat.pair authority (Nat.pair slot bumpSeed))) ∧
      StableResolution (fun (authority : Nat) slot bumpSeed => some (Nat.pair authority (Nat.pair slot bumpSeed))) 0 := by
  have determined :
      SlotDetermined (fun (authority : Nat) slot bumpSeed => some (Nat.pair authority (Nat.pair slot bumpSeed))) := by
    intro authority authority' slot slot' bumpSeed bumpSeed' address derived derived'
    rw [Option.some.injEq] at derived derived'
    rw [← derived'] at derived
    exact (Nat.pair_eq_pair.1 (Nat.pair_eq_pair.1 derived).2).1
  exact ⟨determined, stable_resolution determined 0⟩

end Resolution

end LookupTable
