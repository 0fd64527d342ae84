import Mathlib
import Agave.Library.MachineInt
import Agave.Library.Mutation
import Agave.Runtime.TransactionContext

namespace Runtime

open MachineInt

/-- `MAX_PERMITTED_DATA_LENGTH`. -/
def maxPermittedDataLength : Nat := 10 * 1024 * 1024

/-- `MAX_PERMITTED_ACCOUNTS_DATA_ALLOCATIONS_PER_TRANSACTION`. -/
def maxPermittedAccountsDataAllocationsPerTransaction : Int := maxPermittedDataLength * 2

/-- `is_zeroed`, which compares the buffer chunk by chunk with zeros. -/
def isZeroed (buf : List UInt8) : Bool := buf.all (· = 0)

/-- `Vec::resize(new_length, 0)`: truncates, or fills with zeros at the end. -/
def resizeData (data : List UInt8) (newLength : Nat) : List UInt8 :=
  data.take newLength ++ List.replicate (newLength - data.length) 0

/-- Writes into the slice that `get_data_mut` returns, byte by byte. -/
def writeData (data : List UInt8) (writes : List (Nat × UInt8)) : List UInt8 :=
  writes.foldl (fun data write => data.set write.1 write.2) data

namespace BorrowedAccount

variable (ctx : InstructionContext) (borrowed : BorrowedAccount)

/-- Whether the owner is the last program of the instruction. -/
def isOwnedByCurrentProgram (tc : TransactionContext) : Bool :=
  match ctx.getLastProgramKey tc with
  | .ok key => key == (borrowed.getAccount tc).owner
  | .error _ => false

def isExecutableInternal (tc : TransactionContext) : Bool :=
  !tc.removeAccountsExecutableFlagChecks && (borrowed.getAccount tc).executable

def modifyAccount (f : AccountSharedData → AccountSharedData) : EStateM InstructionError TransactionContext Unit :=
  modify fun tc => tc.setAccount borrowed.indexInTransaction (f (borrowed.getAccount tc))

def setOwner (pubkey : Pubkey) : EStateM InstructionError TransactionContext Unit := do
  let tc ← get
  -- Only the owner can assign a new owner
  if !borrowed.isOwnedByCurrentProgram ctx tc then throw .modifiedProgramId
  -- and only if the account is writable
  if !borrowed.isWritable ctx then throw .modifiedProgramId
  -- and only if the account is not executable
  if borrowed.isExecutableInternal tc then throw .modifiedProgramId
  -- and only if the data is zero-initialized or empty
  if !isZeroed (borrowed.getAccount tc).data then throw .modifiedProgramId
  -- don't touch the account if the owner does not change
  if (borrowed.getAccount tc).owner = pubkey then return ()
  borrowed.modifyAccount fun account => { account with owner := pubkey }

def setLamports (lamports : Nat) : EStateM InstructionError TransactionContext Unit := do
  let tc ← get
  -- An account not owned by the program cannot have its balance decrease
  if !borrowed.isOwnedByCurrentProgram ctx tc && lamports < (borrowed.getAccount tc).lamports then
    throw .externalAccountLamportSpend
  -- The balance of read-only may not change
  if !borrowed.isWritable ctx then throw .readonlyLamportChange
  -- The balance of executable accounts may not change
  if borrowed.isExecutableInternal tc then throw .executableLamportChange
  -- don't touch the account if the lamports do not change
  if (borrowed.getAccount tc).lamports = lamports then return ()
  borrowed.modifyAccount fun account => { account with lamports := lamports }

def checkedAddLamports (lamports : Nat) : EStateM InstructionError TransactionContext Unit := do
  let tc ← get
  match checkedAdd 64 (borrowed.getAccount tc).lamports lamports with
  | some sum => borrowed.setLamports ctx sum
  | none => throw .arithmeticOverflow

def checkedSubLamports (lamports : Nat) : EStateM InstructionError TransactionContext Unit := do
  let tc ← get
  match checkedSub (borrowed.getAccount tc).lamports lamports with
  | some difference => borrowed.setLamports ctx difference
  | none => throw .arithmeticOverflow

def canDataBeChanged : EStateM InstructionError TransactionContext Unit := do
  let tc ← get
  -- Only non-executable accounts data can be changed
  if borrowed.isExecutableInternal tc then throw .executableDataModified
  -- and only if the account is writable
  if !borrowed.isWritable ctx then throw .readonlyDataModified
  -- and only if we are the owner
  if !borrowed.isOwnedByCurrentProgram ctx tc then throw .externalAccountDataModified

def canDataBeResized (newLength : Nat) : EStateM InstructionError TransactionContext Unit := do
  let tc ← get
  let oldLength := (borrowed.getAccount tc).data.length
  -- Only the owner can change the length of the data
  if newLength ≠ oldLength && !borrowed.isOwnedByCurrentProgram ctx tc then throw .accountDataSizeChanged
  -- The new length can not exceed the maximum permitted length
  if newLength > maxPermittedDataLength then throw .invalidRealloc
  -- The resize can not exceed the per-transaction maximum
  let lengthDelta := saturatingSubSigned 64 newLength oldLength
  if saturatingAddSigned 64 tc.accountsResizeDelta lengthDelta > maxPermittedAccountsDataAllocationsPerTransaction then
    throw .maxAccountsDataAllocationsExceeded

def updateAccountsResizeDelta (newLen : Nat) : EStateM InstructionError TransactionContext Unit :=
  modify fun tc => tc.setAccountsResizeDelta
    (saturatingAddSigned 64 tc.accountsResizeDelta
      (saturatingSubSigned 64 newLen (borrowed.getAccount tc).data.length))

/-- `get_data_mut`: the checks before the data is handed out; touching the account and reserving
capacity change nothing that is modelled. -/
def getDataMut : EStateM InstructionError TransactionContext Unit := borrowed.canDataBeChanged ctx

def setDataFromSlice (data : List UInt8) : EStateM InstructionError TransactionContext Unit := do
  borrowed.canDataBeResized ctx data.length
  borrowed.canDataBeChanged ctx
  borrowed.updateAccountsResizeDelta data.length
  borrowed.modifyAccount fun account => { account with data := data }

def setDataLength (newLength : Nat) : EStateM InstructionError TransactionContext Unit := do
  borrowed.canDataBeResized ctx newLength
  borrowed.canDataBeChanged ctx
  let tc ← get
  -- don't touch the account if the length does not change
  if (borrowed.getAccount tc).data.length = newLength then return ()
  borrowed.updateAccountsResizeDelta newLength
  borrowed.modifyAccount fun account => { account with data := resizeData account.data newLength }

def extendFromSlice (data : List UInt8) : EStateM InstructionError TransactionContext Unit := do
  let tc ← get
  let newLen := saturatingAdd 64 (borrowed.getAccount tc).data.length data.length
  borrowed.canDataBeResized ctx newLen
  borrowed.canDataBeChanged ctx
  if data.isEmpty then return ()
  borrowed.updateAccountsResizeDelta newLen
  borrowed.modifyAccount fun account => { account with data := account.data ++ data }

/-- `set_state` with the bincode encoding of the state, `none` when it cannot be serialized. The
write cannot fail once the encoding fits, so it writes the encoding over the front of the data. -/
def setState (serialized : Option (List UInt8)) : EStateM InstructionError TransactionContext Unit := do
  borrowed.getDataMut ctx
  match serialized with
  | none => throw .genericError
  | some bytes =>
    let tc ← get
    if bytes.length > (borrowed.getAccount tc).data.length then throw .accountDataTooSmall
    borrowed.modifyAccount fun account => { account with data := bytes ++ account.data.drop bytes.length }

def setExecutable (isExecutable : Bool) : EStateM InstructionError TransactionContext Unit := do
  let tc ← get
  -- To become executable an account must be rent exempt
  if !tc.isRentExempt (borrowed.getAccount tc).lamports (borrowed.getAccount tc).data.length then
    throw .executableAccountNotRentExempt
  -- Only the owner can set the executable flag
  if !borrowed.isOwnedByCurrentProgram ctx tc then throw .executableModified
  -- and only if the account is writable
  if !borrowed.isWritable ctx then throw .executableModified
  -- one can not clear the executable flag
  if borrowed.isExecutableInternal tc && !isExecutable then throw .executableModified
  -- don't touch the account if the executable flag does not change
  if (borrowed.getAccount tc).executable = isExecutable then return ()
  borrowed.modifyAccount fun account => { account with executable := isExecutable }

end BorrowedAccount

/-- A call on a borrowed account; `getDataMut` carries the writes made into the slice it returns. -/
inductive BorrowedAccountOp
  | setOwner (pubkey : Pubkey)
  | setLamports (lamports : Nat)
  | checkedAddLamports (lamports : Nat)
  | checkedSubLamports (lamports : Nat)
  | setDataFromSlice (data : List UInt8)
  | setDataLength (newLength : Nat)
  | extendFromSlice (data : List UInt8)
  | getDataMut (writes : List (Nat × UInt8))
  | setState (serialized : Option (List UInt8))
  | setExecutable (isExecutable : Bool)
  deriving DecidableEq, Repr

namespace BorrowedAccountOp

variable (ctx : InstructionContext) (borrowed : BorrowedAccount)

def apply : BorrowedAccountOp → EStateM InstructionError TransactionContext Unit
  | setOwner pubkey => borrowed.setOwner ctx pubkey
  | setLamports lamports => borrowed.setLamports ctx lamports
  | checkedAddLamports lamports => borrowed.checkedAddLamports ctx lamports
  | checkedSubLamports lamports => borrowed.checkedSubLamports ctx lamports
  | setDataFromSlice data => borrowed.setDataFromSlice ctx data
  | setDataLength newLength => borrowed.setDataLength ctx newLength
  | extendFromSlice data => borrowed.extendFromSlice ctx data
  | getDataMut writes => do
    borrowed.getDataMut ctx
    borrowed.modifyAccount fun account => { account with data := writeData account.data writes }
  | setState serialized => borrowed.setState ctx serialized
  | setExecutable isExecutable => borrowed.setExecutable ctx isExecutable

/-- The transaction context after the calls, each made whether the ones before returned `Ok` or `Err`. -/
def run (ops : List BorrowedAccountOp) (tc : TransactionContext) : TransactionContext :=
  Mutation.runEach (fun op => apply ctx borrowed op) ops tc

end BorrowedAccountOp

section Rules

/-- The program may change the account: the borrow is writable, the program owns the account, and
the account is not executable unless the executable checks are removed. -/
def Controls (writable : Bool) (program : Pubkey) (removeChecks : Bool) (account : AccountSharedData) : Prop :=
  writable = true ∧ account.owner = program ∧ (removeChecks = true ∨ account.executable = false)

/-- The changes that the setters allow between two states of an account, for a borrow with the
privilege `writable` by an instruction whose last program is `program`, with `removeChecks` the
`remove_accounts_executable_flag_checks` flag of the transaction. -/
structure PermittedChange (writable : Bool) (program : Pubkey) (removeChecks : Bool)
    (old new : AccountSharedData) : Prop where
  lamports_decrease : new.lamports < old.lamports → old.owner = program ∧ writable = true
  lamports_change : new.lamports ≠ old.lamports → writable = true ∧ (removeChecks = true ∨ old.executable = false)
  data_change : new.data ≠ old.data → Controls writable program removeChecks old
  data_length : new.data.length ≠ old.data.length → new.data.length ≤ maxPermittedDataLength
  owner_change : new.owner ≠ old.owner → Controls writable program removeChecks old
  executable_change : new.executable ≠ old.executable → Controls writable program removeChecks old

variable {writable : Bool} {program : Pubkey} {removeChecks : Bool} {a₀ a a' : AccountSharedData}

theorem PermittedChange.refl : PermittedChange writable program removeChecks a a :=
  ⟨fun lower => absurd lower (Nat.lt_irrefl _), fun changed => absurd rfl changed, fun changed => absurd rfl changed,
    fun changed => absurd rfl changed, fun changed => absurd rfl changed, fun changed => absurd rfl changed⟩

theorem PermittedChange.owner_eq (permitted : PermittedChange writable program removeChecks a₀ a)
    (owned : a.owner = program) : a₀.owner = program := by
  by_cases same : a.owner = a₀.owner
  · rw [← same]
    exact owned
  · exact (permitted.owner_change same).2.1

theorem PermittedChange.executable_free (permitted : PermittedChange writable program removeChecks a₀ a)
    (free : removeChecks = true ∨ a.executable = false) : removeChecks = true ∨ a₀.executable = false := by
  by_cases same : a.executable = a₀.executable
  · rw [← same]
    exact free
  · exact (permitted.executable_change same).2.2

theorem PermittedChange.controls (permitted : PermittedChange writable program removeChecks a₀ a)
    (controls : Controls writable program removeChecks a) : Controls writable program removeChecks a₀ :=
  ⟨controls.1, permitted.owner_eq controls.2.1, permitted.executable_free controls.2.2⟩

theorem PermittedChange.trans (first : PermittedChange writable program removeChecks a₀ a)
    (second : PermittedChange writable program removeChecks a a') : PermittedChange writable program removeChecks a₀ a' where
  lamports_decrease lower := by
    by_cases before : a.lamports < a₀.lamports
    · exact first.lamports_decrease before
    · obtain ⟨owned, isWritable⟩ := second.lamports_decrease (by omega)
      exact ⟨first.owner_eq owned, isWritable⟩
  lamports_change changed := by
    by_cases same : a.lamports = a₀.lamports
    · obtain ⟨isWritable, free⟩ := second.lamports_change (by rw [same]; exact changed)
      exact ⟨isWritable, first.executable_free free⟩
    · exact first.lamports_change same
  data_change changed := by
    by_cases same : a.data = a₀.data
    · exact first.controls (second.data_change (by rw [same]; exact changed))
    · exact first.data_change same
  data_length changed := by
    by_cases same : a'.data.length = a.data.length
    · rw [same]
      exact first.data_length (by rw [← same]; exact changed)
    · exact second.data_length same
  owner_change changed := by
    by_cases same : a.owner = a₀.owner
    · exact first.controls (second.owner_change (by rw [same]; exact changed))
    · exact first.owner_change same
  executable_change changed := by
    by_cases same : a.executable = a₀.executable
    · exact first.controls (second.executable_change (by rw [same]; exact changed))
    · exact first.executable_change same

theorem PermittedChange.of_lamports {lamports : Nat}
    (decrease : lamports < a.lamports → a.owner = program ∧ writable = true)
    (change : lamports ≠ a.lamports → writable = true ∧ (removeChecks = true ∨ a.executable = false)) :
    PermittedChange writable program removeChecks a { a with lamports := lamports } :=
  ⟨decrease, change, fun changed => absurd rfl changed, fun changed => absurd rfl changed,
    fun changed => absurd rfl changed, fun changed => absurd rfl changed⟩

theorem PermittedChange.of_data {data : List UInt8} (controls : Controls writable program removeChecks a)
    (length : data.length ≠ a.data.length → data.length ≤ maxPermittedDataLength) :
    PermittedChange writable program removeChecks a { a with data := data } :=
  ⟨fun lower => absurd lower (Nat.lt_irrefl _), fun changed => absurd rfl changed, fun _ => controls, length,
    fun changed => absurd rfl changed, fun changed => absurd rfl changed⟩

theorem PermittedChange.of_owner {owner : Pubkey} (controls : Controls writable program removeChecks a) :
    PermittedChange writable program removeChecks a { a with owner := owner } :=
  ⟨fun lower => absurd lower (Nat.lt_irrefl _), fun changed => absurd rfl changed, fun changed => absurd rfl changed,
    fun changed => absurd rfl changed, fun _ => controls, fun changed => absurd rfl changed⟩

theorem PermittedChange.of_executable {executable : Bool} (controls : Controls writable program removeChecks a) :
    PermittedChange writable program removeChecks a { a with executable := executable } :=
  ⟨fun lower => absurd lower (Nat.lt_irrefl _), fun changed => absurd rfl changed, fun changed => absurd rfl changed,
    fun changed => absurd rfl changed, fun changed => absurd rfl changed, fun _ => controls⟩

end Rules

theorem writeData_length (writes : List (Nat × UInt8)) : ∀ data, (writeData data writes).length = data.length := by
  induction writes with
  | nil => intro data; rfl
  | cons write writes ih =>
    intro data
    simp only [writeData, List.foldl_cons] at ih ⊢
    rw [ih, List.length_set]

theorem resizeData_length (data : List UInt8) (newLength : Nat) : (resizeData data newLength).length = newLength := by
  simp only [resizeData, List.length_append, List.length_take, List.length_replicate]
  omega

namespace BorrowedAccount

variable {ctx : InstructionContext} {borrowed : BorrowedAccount} {program : Pubkey} {tc : TransactionContext}

@[simp] theorem getAccount_setAccountsResizeDelta (delta : Int) :
    borrowed.getAccount (tc.setAccountsResizeDelta delta) = borrowed.getAccount tc := rfl

theorem isExecutableInternal_eq_false :
    borrowed.isExecutableInternal tc = false ↔
      tc.removeAccountsExecutableFlagChecks = true ∨ (borrowed.getAccount tc).executable = false := by
  cases checks : tc.removeAccountsExecutableFlagChecks <;> simp [isExecutableInternal, checks]

theorem owner_of_lastProgram (lastProgram : ctx.getLastProgramKey tc = .ok program)
    (owned : borrowed.isOwnedByCurrentProgram ctx tc = true) : (borrowed.getAccount tc).owner = program := by
  simp only [isOwnedByCurrentProgram, lastProgram, beq_iff_eq] at owned
  exact owned.symm

section Outcome

variable (ctx borrowed program tc)

/-- What one call can do from `tc`: fail and leave `tc` as it was, or write a resize delta and the
account as the rules permit. -/
def CallOutcome (result : EStateM.Result InstructionError TransactionContext Unit) : Prop :=
  (∃ e, result = .error e tc) ∨
    ∃ account delta,
      result = .ok () ((tc.setAccountsResizeDelta delta).setAccount borrowed.indexInTransaction account) ∧
      PermittedChange (borrowed.isWritable ctx) program tc.removeAccountsExecutableFlagChecks
        (borrowed.getAccount tc) account ∧
      (tc.accountsResizeDelta ≤ maxPermittedAccountsDataAllocationsPerTransaction →
        delta ≤ maxPermittedAccountsDataAllocationsPerTransaction)

variable {ctx borrowed program tc}

theorem CallOutcome.of_error (e : InstructionError) : CallOutcome ctx borrowed program tc (.error e tc) :=
  .inl ⟨e, rfl⟩

theorem CallOutcome.of_unchanged : CallOutcome ctx borrowed program tc (.ok () tc) := by
  refine .inr ⟨borrowed.getAccount tc, tc.accountsResizeDelta, ?_, .refl, id⟩
  show EStateM.Result.ok () tc =
    .ok () (tc.setAccount borrowed.indexInTransaction (tc.accountAt borrowed.indexInTransaction))
  rw [TransactionContext.setAccount_accountAt_self]

theorem CallOutcome.of_write {account : AccountSharedData}
    (permitted : PermittedChange (borrowed.isWritable ctx) program tc.removeAccountsExecutableFlagChecks
      (borrowed.getAccount tc) account) :
    CallOutcome ctx borrowed program tc (.ok () (tc.setAccount borrowed.indexInTransaction account)) :=
  .inr ⟨account, tc.accountsResizeDelta, rfl, permitted, id⟩

end Outcome

section Setters

variable (owned : borrowed.isOwnedByCurrentProgram ctx tc = true → (borrowed.getAccount tc).owner = program)
include owned

theorem setOwner_outcome (pubkey : Pubkey) : CallOutcome ctx borrowed program tc (borrowed.setOwner ctx pubkey tc) := by
  simp only [setOwner, modifyAccount, Mutation.bind_apply, Mutation.get_apply, Mutation.ite_apply,
    Mutation.throw_apply, Mutation.pure_apply, Mutation.modify_apply]
  split_ifs with notOwned readonly executable notZeroed same
  · exact .of_error _
  · exact .of_error _
  · exact .of_error _
  · exact .of_error _
  · exact .of_unchanged
  · exact .of_write (.of_owner ⟨by simpa using readonly, owned (by simpa using notOwned),
      isExecutableInternal_eq_false.mp (by simpa using executable)⟩)

theorem setLamports_outcome (lamports : Nat) :
    CallOutcome ctx borrowed program tc (borrowed.setLamports ctx lamports tc) := by
  simp only [setLamports, modifyAccount, Mutation.bind_apply, Mutation.get_apply, Mutation.ite_apply,
    Mutation.throw_apply, Mutation.pure_apply, Mutation.modify_apply]
  split_ifs with spend readonly executable same
  · exact .of_error _
  · exact .of_error _
  · exact .of_error _
  · exact .of_unchanged
  · have isWritable : borrowed.isWritable ctx = true := by simpa using readonly
    refine .of_write (.of_lamports (fun lower => ⟨owned ?_, isWritable⟩)
      fun _ => ⟨isWritable, isExecutableInternal_eq_false.mp (by simpa using executable)⟩)
    simp only [Bool.and_eq_true, Bool.not_eq_true', decide_eq_true_eq, not_and] at spend
    by_contra notOwned
    exact spend (by simpa using notOwned) lower

theorem checkedAddLamports_outcome (lamports : Nat) :
    CallOutcome ctx borrowed program tc (borrowed.checkedAddLamports ctx lamports tc) := by
  simp only [checkedAddLamports, Mutation.bind_apply, Mutation.get_apply]
  cases sum : checkedAdd 64 (borrowed.getAccount tc).lamports lamports with
  | some total => exact setLamports_outcome owned total
  | none => exact .of_error _

theorem checkedSubLamports_outcome (lamports : Nat) :
    CallOutcome ctx borrowed program tc (borrowed.checkedSubLamports ctx lamports tc) := by
  simp only [checkedSubLamports, Mutation.bind_apply, Mutation.get_apply]
  cases difference : checkedSub (borrowed.getAccount tc).lamports lamports with
  | some rest => exact setLamports_outcome owned rest
  | none => exact .of_error _

theorem canDataBeChanged_outcome :
    (∃ e, borrowed.canDataBeChanged ctx tc = .error e tc) ∨
      (borrowed.canDataBeChanged ctx tc = .ok () tc ∧
        Controls (borrowed.isWritable ctx) program tc.removeAccountsExecutableFlagChecks (borrowed.getAccount tc)) := by
  simp only [canDataBeChanged, Mutation.bind_apply, Mutation.get_apply, Mutation.ite_apply, Mutation.throw_apply,
    Mutation.pure_apply]
  split_ifs with executable readonly notOwned
  · exact .inl ⟨_, rfl⟩
  · exact .inl ⟨_, rfl⟩
  · exact .inl ⟨_, rfl⟩
  · exact .inr ⟨rfl, by simpa using readonly, owned (by simpa using notOwned),
      isExecutableInternal_eq_false.mp (by simpa using executable)⟩

theorem setExecutable_outcome (isExecutable : Bool) :
    CallOutcome ctx borrowed program tc (borrowed.setExecutable ctx isExecutable tc) := by
  simp only [setExecutable, modifyAccount, Mutation.bind_apply, Mutation.get_apply, Mutation.ite_apply,
    Mutation.throw_apply, Mutation.pure_apply, Mutation.modify_apply]
  split_ifs with notExempt notOwned readonly clearing same
  · exact .of_error _
  · exact .of_error _
  · exact .of_error _
  · exact .of_error _
  · exact .of_unchanged
  · refine .of_write (.of_executable ⟨by simpa using readonly, owned (by simpa using notOwned), ?_⟩)
    cases checks : tc.removeAccountsExecutableFlagChecks
    · cases executable : (borrowed.getAccount tc).executable
      · exact .inr rfl
      · simp [isExecutableInternal, checks, executable] at clearing
        simp [executable, clearing] at same
    · exact .inl rfl

end Setters

theorem canDataBeResized_outcome (newLength : Nat) :
    (∃ e, borrowed.canDataBeResized ctx newLength tc = .error e tc) ∨
      (borrowed.canDataBeResized ctx newLength tc = .ok () tc ∧ newLength ≤ maxPermittedDataLength ∧
        saturatingAddSigned 64 tc.accountsResizeDelta
            (saturatingSubSigned 64 newLength (borrowed.getAccount tc).data.length) ≤
          maxPermittedAccountsDataAllocationsPerTransaction) := by
  simp only [canDataBeResized, Mutation.bind_apply, Mutation.get_apply, Mutation.ite_apply, Mutation.throw_apply,
    Mutation.pure_apply]
  split_ifs with owner tooLong tooMuch
  · exact .inl ⟨_, rfl⟩
  · exact .inl ⟨_, rfl⟩
  · exact .inl ⟨_, rfl⟩
  · exact .inr ⟨rfl, Nat.le_of_not_lt tooLong, Int.not_lt.mp tooMuch⟩

section DataSetters

variable (owned : borrowed.isOwnedByCurrentProgram ctx tc = true → (borrowed.getAccount tc).owner = program)
include owned

theorem setDataFromSlice_outcome (data : List UInt8) :
    CallOutcome ctx borrowed program tc (borrowed.setDataFromSlice ctx data tc) := by
  rcases @canDataBeResized_outcome ctx borrowed tc data.length with ⟨e, failed⟩ | ⟨resizable, bounded, allocations⟩
  · simp only [setDataFromSlice, Mutation.bind_apply, failed]
    exact .of_error e
  rcases canDataBeChanged_outcome owned with ⟨e, failed⟩ | ⟨changeable, controls⟩
  · simp only [setDataFromSlice, Mutation.bind_apply, resizable, failed]
    exact .of_error e
  simp only [setDataFromSlice, Mutation.bind_apply, resizable, changeable, updateAccountsResizeDelta, modifyAccount,
    Mutation.modify_apply, getAccount_setAccountsResizeDelta]
  exact .inr ⟨_, _, rfl, .of_data controls fun _ => bounded, fun _ => allocations⟩

theorem setDataLength_outcome (newLength : Nat) :
    CallOutcome ctx borrowed program tc (borrowed.setDataLength ctx newLength tc) := by
  rcases @canDataBeResized_outcome ctx borrowed tc newLength with ⟨e, failed⟩ | ⟨resizable, bounded, allocations⟩
  · simp only [setDataLength, Mutation.bind_apply, failed]
    exact .of_error e
  rcases canDataBeChanged_outcome owned with ⟨e, failed⟩ | ⟨changeable, controls⟩
  · simp only [setDataLength, Mutation.bind_apply, resizable, failed]
    exact .of_error e
  simp only [setDataLength, Mutation.bind_apply, resizable, changeable, Mutation.get_apply, Mutation.ite_apply,
    Mutation.pure_apply, updateAccountsResizeDelta, modifyAccount, Mutation.modify_apply,
    getAccount_setAccountsResizeDelta]
  split_ifs with same
  · exact .of_unchanged
  · exact .inr ⟨_, _, rfl, .of_data controls fun _ => by rw [resizeData_length]; exact bounded, fun _ => allocations⟩

theorem extendFromSlice_outcome (data : List UInt8) :
    CallOutcome ctx borrowed program tc (borrowed.extendFromSlice ctx data tc) := by
  rcases @canDataBeResized_outcome ctx borrowed tc (saturatingAdd 64 (borrowed.getAccount tc).data.length data.length)
    with ⟨e, failed⟩ | ⟨resizable, bounded, allocations⟩
  · simp only [extendFromSlice, Mutation.bind_apply, Mutation.get_apply, failed]
    exact .of_error e
  rcases canDataBeChanged_outcome owned with ⟨e, failed⟩ | ⟨changeable, controls⟩
  · simp only [extendFromSlice, Mutation.bind_apply, Mutation.get_apply, resizable, failed]
    exact .of_error e
  simp only [extendFromSlice, Mutation.bind_apply, Mutation.get_apply, resizable, changeable, Mutation.ite_apply,
    Mutation.pure_apply, updateAccountsResizeDelta, modifyAccount, Mutation.modify_apply,
    getAccount_setAccountsResizeDelta]
  split_ifs with empty
  · exact .of_unchanged
  · have fits : saturatingAdd 64 (borrowed.getAccount tc).data.length data.length =
        (borrowed.getAccount tc).data.length + data.length :=
      saturatingAdd_of_lt_max (Nat.lt_of_le_of_lt bounded (by decide))
    refine .inr ⟨_, _, rfl, .of_data controls fun _ => ?_, fun _ => allocations⟩
    rw [List.length_append, ← fits]
    exact bounded

theorem setState_outcome (serialized : Option (List UInt8)) :
    CallOutcome ctx borrowed program tc (borrowed.setState ctx serialized tc) := by
  rcases canDataBeChanged_outcome owned with ⟨e, failed⟩ | ⟨changeable, controls⟩
  · simp only [setState, getDataMut, Mutation.bind_apply, failed]
    exact .of_error e
  simp only [setState, getDataMut, Mutation.bind_apply, changeable]
  cases serialized with
  | none => exact .of_error _
  | some bytes =>
    simp only [Mutation.bind_apply, Mutation.get_apply, Mutation.ite_apply, Mutation.throw_apply, modifyAccount,
      Mutation.modify_apply]
    split_ifs with tooSmall
    · exact .of_error _
    · refine .of_write (.of_data controls fun changed => absurd ?_ changed)
      simp only [List.length_append, List.length_drop]
      omega

theorem apply_outcome (op : BorrowedAccountOp) : CallOutcome ctx borrowed program tc (op.apply ctx borrowed tc) := by
  cases op with
  | setOwner pubkey => exact setOwner_outcome owned pubkey
  | setLamports lamports => exact setLamports_outcome owned lamports
  | checkedAddLamports lamports => exact checkedAddLamports_outcome owned lamports
  | checkedSubLamports lamports => exact checkedSubLamports_outcome owned lamports
  | setDataFromSlice data => exact setDataFromSlice_outcome owned data
  | setDataLength newLength => exact setDataLength_outcome owned newLength
  | extendFromSlice data => exact extendFromSlice_outcome owned data
  | getDataMut writes =>
    rcases canDataBeChanged_outcome owned with ⟨e, failed⟩ | ⟨changeable, controls⟩
    · simp only [BorrowedAccountOp.apply, getDataMut, Mutation.bind_apply, failed]
      exact .of_error e
    · simp only [BorrowedAccountOp.apply, getDataMut, Mutation.bind_apply, changeable, modifyAccount,
        Mutation.modify_apply]
      exact .of_write (.of_data controls fun changed => absurd (writeData_length writes _) changed)
  | setState serialized => exact setState_outcome owned serialized
  | setExecutable isExecutable => exact setExecutable_outcome owned isExecutable

end DataSetters

theorem apply_error_unchanged {op : BorrowedAccountOp} {e : InstructionError} {after : TransactionContext}
    (failed : op.apply ctx borrowed tc = .error e after) : after = tc := by
  rcases @apply_outcome ctx borrowed (borrowed.getAccount tc).owner tc (fun _ => rfl) op with
    ⟨e', unchanged⟩ | ⟨_, _, wrote, -⟩
  · rw [unchanged] at failed
    cases failed
    rfl
  · rw [wrote] at failed
    cases failed

/-- What a sequence of calls keeps, against the transaction context `tc₀` before it. -/
structure RunInvariant (ctx : InstructionContext) (borrowed : BorrowedAccount) (program : Pubkey)
    (tc₀ tc : TransactionContext) : Prop where
  accountKeys_eq : tc.accountKeys = tc₀.accountKeys
  removeChecks_eq : tc.removeAccountsExecutableFlagChecks = tc₀.removeAccountsExecutableFlagChecks
  accounts_length : tc.accounts.length = tc₀.accounts.length
  permitted : PermittedChange (borrowed.isWritable ctx) program tc₀.removeAccountsExecutableFlagChecks
    (borrowed.getAccount tc₀) (borrowed.getAccount tc)
  resizeDelta : tc₀.accountsResizeDelta ≤ maxPermittedAccountsDataAllocationsPerTransaction →
    tc.accountsResizeDelta ≤ maxPermittedAccountsDataAllocationsPerTransaction

theorem RunInvariant.step {tc₀ : TransactionContext} (lastProgram : ctx.getLastProgramKey tc₀ = .ok program)
    (inRange : borrowed.indexInTransaction < tc₀.accounts.length) (inv : RunInvariant ctx borrowed program tc₀ tc)
    (op : BorrowedAccountOp) :
    RunInvariant ctx borrowed program tc₀ (Mutation.stateAfter (op.apply ctx borrowed tc)) := by
  have stillLast : ctx.getLastProgramKey tc = .ok program := by
    rw [InstructionContext.getLastProgramKey_congr inv.accountKeys_eq]
    exact lastProgram
  rcases apply_outcome (owner_of_lastProgram stillLast) op with ⟨e, failed⟩ | ⟨account, delta, wrote, permitted, bounded⟩
  · rw [failed]
    exact inv
  · rw [wrote, Mutation.stateAfter_ok]
    have inRange' : borrowed.indexInTransaction < (tc.setAccountsResizeDelta delta).accounts.length := by
      simpa [inv.accounts_length] using inRange
    have written : borrowed.getAccount ((tc.setAccountsResizeDelta delta).setAccount borrowed.indexInTransaction account) =
        account := TransactionContext.accountAt_setAccount inRange' account
    rw [inv.removeChecks_eq] at permitted
    refine ⟨by simp [inv.accountKeys_eq], by simp [inv.removeChecks_eq], by simp [inv.accounts_length], ?_, ?_⟩
    · rw [written]
      exact inv.permitted.trans permitted
    · intro start
      simpa using bounded (inv.resizeDelta start)

end BorrowedAccount

open BorrowedAccount in
theorem borrowedAccount_modification_rules {tc : TransactionContext} {ctx : InstructionContext} {program : Pubkey}
    {index : IndexOfAccount} {borrowed : BorrowedAccount} (lastProgram : ctx.getLastProgramKey tc = .ok program)
    (borrow : ctx.tryBorrowInstructionAccount tc index = .ok borrowed) (ops : List BorrowedAccountOp) :
    (∀ (op : BorrowedAccountOp) (state : TransactionContext) (e : InstructionError) (after : TransactionContext),
      op.apply ctx borrowed state = .error e after → after = state) ∧
    PermittedChange (borrowed.isWritable ctx) program tc.removeAccountsExecutableFlagChecks
      (borrowed.getAccount tc) (borrowed.getAccount (BorrowedAccountOp.run ctx borrowed ops tc)) ∧
    (tc.accountsResizeDelta ≤ maxPermittedAccountsDataAllocationsPerTransaction →
      (BorrowedAccountOp.run ctx borrowed ops tc).accountsResizeDelta ≤
        maxPermittedAccountsDataAllocationsPerTransaction) := by
  obtain ⟨entry, -, inTransaction, -, inRange⟩ := InstructionContext.tryBorrowInstructionAccount_ok borrow
  rw [← inTransaction] at inRange
  have start : RunInvariant ctx borrowed program tc tc := ⟨rfl, rfl, rfl, .refl, id⟩
  have finish := Mutation.runEach_invariant (RunInvariant ctx borrowed program tc)
    (fun op _ inv => inv.step lastProgram inRange op) ops tc start
  exact ⟨fun _ _ _ _ failed => apply_error_unchanged failed, finish.permitted, finish.resizeDelta⟩

/-- A spend and a write by the owning program, after which the data is no longer zeroed and the
owner cannot be reassigned. -/
theorem borrowedAccount_modification_rules_spend :
    PermittedChange true 9 false ⟨10, [0, 0], 9, false⟩ ⟨7, [1, 2, 3], 9, false⟩ :=
  (@borrowedAccount_modification_rules
    ⟨[5, 9], [⟨10, [0, 0], 9, false⟩, ⟨1, [], 0, true⟩], rfl, 8, 64, [0],
      [⟨0, 0, [1], [⟨0, 0, 0, false, true⟩], []⟩], 0, false, fun _ _ => true⟩
    ⟨0, 0, [1], [⟨0, 0, 0, false, true⟩], []⟩ 9 0 ⟨0, 1⟩ rfl rfl
    [.checkedSubLamports 3, .setDataFromSlice [1, 2, 3], .setOwner 7]).2.1

end Runtime
