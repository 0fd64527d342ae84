import Mathlib
import Agave.Library.ExceptLoop

namespace Runtime

abbrev Pubkey := Nat
abbrev IndexOfAccount := Nat

inductive InstructionError
  | genericError
  | missingAccount
  | notEnoughAccountKeys
  | privilegeEscalation
  | accountNotExecutable
  | callDepth
  | unbalancedInstruction
  | maxInstructionTraceLengthExceeded
  | accountBorrowOutstanding
  | arithmeticOverflow
  | modifiedProgramId
  | externalAccountLamportSpend
  | readonlyLamportChange
  | executableLamportChange
  | executableDataModified
  | readonlyDataModified
  | externalAccountDataModified
  | accountDataSizeChanged
  | invalidRealloc
  | maxAccountsDataAllocationsExceeded
  | executableModified
  | executableAccountNotRentExempt
  | accountDataTooSmall
  | invalidArgument
  | invalidInstructionData
  | invalidAccountData
  | insufficientFunds
  | incorrectProgramId
  | missingRequiredSignature
  | invalidAccountOwner
  deriving DecidableEq, Repr

/-- The variants of `TransactionError` the modelled checks raise; an index is the instruction's `u8`. -/
inductive TransactionError
  | accountInUse
  | accountLoadedTwice
  | tooManyAccountLocks
  | instructionError (index : Nat) (err : InstructionError)
  | duplicateInstruction (index : Nat)
  | invalidLoadedAccountsDataSizeLimit
  deriving DecidableEq, Repr

structure AccountSharedData where
  lamports : Nat
  data : List UInt8
  owner : Pubkey
  executable : Bool
  deriving DecidableEq, Repr

instance : Inhabited AccountSharedData := ⟨⟨0, [], 0, false⟩⟩

structure InstructionAccount where
  indexInTransaction : IndexOfAccount
  indexInCaller : IndexOfAccount
  indexInCallee : IndexOfAccount
  isSigner : Bool
  isWritable : Bool
  deriving DecidableEq, Repr

structure InstructionContext where
  nestingLevel : Nat
  instructionAccountsLamportSum : Nat
  programAccounts : List IndexOfAccount
  instructionAccounts : List InstructionAccount
  instructionData : List UInt8
  deriving DecidableEq, Repr

instance : Inhabited InstructionContext := ⟨⟨0, 0, [], [], []⟩⟩

/-- The transaction context. The keys and the accounts are unzipped from one list, so they have the same
length. -/
structure TransactionContext where
  accountKeys : List Pubkey
  accounts : List AccountSharedData
  keys_length : accountKeys.length = accounts.length
  instructionStackCapacity : Nat
  instructionTraceCapacity : Nat
  instructionStack : List Nat
  instructionTrace : List InstructionContext
  accountsResizeDelta : Int
  removeAccountsExecutableFlagChecks : Bool
  /-- `rent.is_exempt(lamports, data_len)`. -/
  isRentExempt : Nat → Nat → Bool

namespace TransactionContext

variable (tc : TransactionContext)

/-- The account at an index; borrows check the index, so the default is never read. -/
def accountAt (index : IndexOfAccount) : AccountSharedData := tc.accounts.getD index default

/-- Writes an account back through its borrow. -/
def setAccount (index : IndexOfAccount) (account : AccountSharedData) : TransactionContext :=
  { tc with
    accounts := tc.accounts.set index account
    keys_length := by rw [List.length_set]; exact tc.keys_length }

def setAccountsResizeDelta (delta : Int) : TransactionContext := { tc with accountsResizeDelta := delta }

def findIndexOfAccount (pubkey : Pubkey) : Option IndexOfAccount := tc.accountKeys.findIdx? (· = pubkey)

/-- `rposition`: the last account with the key. -/
def findIndexOfProgramAccount (pubkey : Pubkey) : Option IndexOfAccount :=
  (tc.accountKeys.reverse.findIdx? (· = pubkey)).map (tc.accountKeys.length - 1 - ·)

def getKeyOfAccountAtIndex (indexInTransaction : IndexOfAccount) : Except InstructionError Pubkey :=
  match tc.accountKeys[indexInTransaction]? with
  | some key => .ok key
  | none => .error .notEnoughAccountKeys

def getInstructionContextAtNestingLevel (nestingLevel : Nat) : Except InstructionError InstructionContext :=
  match tc.instructionStack[nestingLevel]? with
  | none => .error .callDepth
  | some indexInTrace =>
    match tc.instructionTrace[indexInTrace]? with
    | some instructionContext => .ok instructionContext
    | none => .error .callDepth

def getCurrentInstructionContext : Except InstructionError InstructionContext :=
  if tc.instructionStack.length = 0 then .error .callDepth
  else tc.getInstructionContextAtNestingLevel (tc.instructionStack.length - 1)

end TransactionContext

namespace InstructionContext

variable (ctx : InstructionContext) (tc : TransactionContext)

def findIndexOfInstructionAccount (pubkey : Pubkey) : Option IndexOfAccount :=
  ctx.instructionAccounts.findIdx? fun account => tc.accountKeys[account.indexInTransaction]? = some pubkey

def getIndexOfInstructionAccountInTransaction (instructionAccountIndex : IndexOfAccount) :
    Except InstructionError IndexOfAccount :=
  match ctx.instructionAccounts[instructionAccountIndex]? with
  | some account => .ok account.indexInTransaction
  | none => .error .notEnoughAccountKeys

def getIndexOfProgramAccountInTransaction (programAccountIndex : IndexOfAccount) :
    Except InstructionError IndexOfAccount :=
  match ctx.programAccounts[programAccountIndex]? with
  | some index => .ok index
  | none => .error .notEnoughAccountKeys

/-- `Some` of the first occurrence when the account is a duplicate. -/
def isInstructionAccountDuplicate (instructionAccountIndex : IndexOfAccount) :
    Except InstructionError (Option IndexOfAccount) :=
  match ctx.instructionAccounts[instructionAccountIndex]? with
  | some account => .ok (if account.indexInCallee = instructionAccountIndex then none else some account.indexInCallee)
  | none => .error .notEnoughAccountKeys

/-- The privilege `flag` of an instruction account, as `is_instruction_account_signer` and
`is_instruction_account_writable` read it. -/
def getInstructionAccountFlag (flag : InstructionAccount → Bool) (instructionAccountIndex : IndexOfAccount) :
    Except InstructionError Bool :=
  match ctx.instructionAccounts[instructionAccountIndex]? with
  | some account => .ok (flag account)
  | none => .error .missingAccount

def isInstructionAccountSigner (instructionAccountIndex : IndexOfAccount) : Except InstructionError Bool :=
  ctx.getInstructionAccountFlag (·.isSigner) instructionAccountIndex

def isInstructionAccountWritable (instructionAccountIndex : IndexOfAccount) : Except InstructionError Bool :=
  ctx.getInstructionAccountFlag (·.isWritable) instructionAccountIndex

def getLastProgramKey : Except InstructionError Pubkey := do
  let indexInTransaction ← ctx.getIndexOfProgramAccountInTransaction (ctx.programAccounts.length - 1)
  tc.getKeyOfAccountAtIndex indexInTransaction

end InstructionContext

/-- An account borrowed through an instruction context, by its indices: the account itself stays in
the transaction context, which its setters write. The `RefCell` borrow state is not modelled. -/
structure BorrowedAccount where
  indexInTransaction : IndexOfAccount
  indexInInstruction : IndexOfAccount
  deriving DecidableEq, Repr

namespace InstructionContext

variable (ctx : InstructionContext) (tc : TransactionContext)

/-- The instruction context is only stored in the borrowed account, which here names its index. -/
def tryBorrowAccount (indexInTransaction indexInInstruction : IndexOfAccount) :
    Except InstructionError BorrowedAccount :=
  if indexInTransaction < tc.accounts.length then .ok ⟨indexInTransaction, indexInInstruction⟩
  else .error .missingAccount

def tryBorrowProgramAccount (programAccountIndex : IndexOfAccount) : Except InstructionError BorrowedAccount := do
  let indexInTransaction ← ctx.getIndexOfProgramAccountInTransaction programAccountIndex
  tryBorrowAccount tc indexInTransaction programAccountIndex

def tryBorrowInstructionAccount (instructionAccountIndex : IndexOfAccount) :
    Except InstructionError BorrowedAccount := do
  let indexInTransaction ← ctx.getIndexOfInstructionAccountInTransaction instructionAccountIndex
  tryBorrowAccount tc indexInTransaction (ctx.programAccounts.length + instructionAccountIndex)

end InstructionContext

namespace BorrowedAccount

variable (tc : TransactionContext) (ctx : InstructionContext) (borrowed : BorrowedAccount)

/-- The key of a borrowed account; the index was checked against the accounts when it was borrowed. -/
def getKey : Pubkey := tc.accountKeys.getD borrowed.indexInTransaction 0

def getAccount : AccountSharedData := tc.accountAt borrowed.indexInTransaction

/-- `is_signer` and `is_writable` read the privilege through `check`; program accounts have none. -/
def instructionAccountPrivilege (check : IndexOfAccount → Except InstructionError Bool) : Bool :=
  if borrowed.indexInInstruction < ctx.programAccounts.length then false
  else
    match check (borrowed.indexInInstruction - ctx.programAccounts.length) with
    | .ok value => value
    | .error _ => false

def isSigner : Bool := borrowed.instructionAccountPrivilege ctx ctx.isInstructionAccountSigner

def isWritable : Bool := borrowed.instructionAccountPrivilege ctx ctx.isInstructionAccountWritable

end BorrowedAccount

namespace TransactionContext

variable {tc : TransactionContext}

theorem findIndexOfAccount_key {pubkey : Pubkey} {index : IndexOfAccount}
    (found : tc.findIndexOfAccount pubkey = some index) : tc.accountKeys[index]? = some pubkey := by
  obtain ⟨bound, key, -⟩ := List.findIdx?_eq_some_iff_getElem.mp found
  rw [List.getElem?_eq_getElem bound]
  simpa using key

theorem findIndexOfAccount_inj {pubkey other : Pubkey} {index : IndexOfAccount}
    (found : tc.findIndexOfAccount pubkey = some index) (foundOther : tc.findIndexOfAccount other = some index) :
    pubkey = other := by
  have key := findIndexOfAccount_key found
  rw [findIndexOfAccount_key foundOther] at key
  exact (Option.some.inj key).symm

theorem findIndexOfAccount_of_key (nodup : tc.accountKeys.Nodup) {pubkey : Pubkey} {index : IndexOfAccount}
    (key : tc.accountKeys[index]? = some pubkey) : tc.findIndexOfAccount pubkey = some index := by
  obtain ⟨bound, atIndex⟩ := List.getElem?_eq_some_iff.mp key
  refine List.findIdx?_eq_some_iff_getElem.mpr ⟨bound, by simp [atIndex], fun j before same => ?_⟩
  have boundJ : j < tc.accountKeys.length := Nat.lt_trans before bound
  have sameKey : tc.accountKeys[j] = tc.accountKeys[index] := by simpa [atIndex] using same
  have sameIndex : j = index := nodup.getElem_inj_iff.mp sameKey
  exact absurd sameIndex (Nat.ne_of_lt before)

@[simp] theorem setAccount_accountKeys (index : IndexOfAccount) (account : AccountSharedData) :
    (tc.setAccount index account).accountKeys = tc.accountKeys := rfl

@[simp] theorem setAccount_accounts (index : IndexOfAccount) (account : AccountSharedData) :
    (tc.setAccount index account).accounts = tc.accounts.set index account := rfl

@[simp] theorem setAccount_accountsResizeDelta (index : IndexOfAccount) (account : AccountSharedData) :
    (tc.setAccount index account).accountsResizeDelta = tc.accountsResizeDelta := rfl

@[simp] theorem setAccount_removeAccountsExecutableFlagChecks (index : IndexOfAccount)
    (account : AccountSharedData) :
    (tc.setAccount index account).removeAccountsExecutableFlagChecks = tc.removeAccountsExecutableFlagChecks := rfl

@[simp] theorem setAccount_isRentExempt (index : IndexOfAccount) (account : AccountSharedData) :
    (tc.setAccount index account).isRentExempt = tc.isRentExempt := rfl

@[simp] theorem setAccountsResizeDelta_accountKeys (delta : Int) :
    (tc.setAccountsResizeDelta delta).accountKeys = tc.accountKeys := rfl

@[simp] theorem setAccountsResizeDelta_accounts (delta : Int) :
    (tc.setAccountsResizeDelta delta).accounts = tc.accounts := rfl

@[simp] theorem setAccountsResizeDelta_accountsResizeDelta (delta : Int) :
    (tc.setAccountsResizeDelta delta).accountsResizeDelta = delta := rfl

@[simp] theorem setAccountsResizeDelta_removeAccountsExecutableFlagChecks (delta : Int) :
    (tc.setAccountsResizeDelta delta).removeAccountsExecutableFlagChecks = tc.removeAccountsExecutableFlagChecks := rfl

@[simp] theorem setAccountsResizeDelta_isRentExempt (delta : Int) :
    (tc.setAccountsResizeDelta delta).isRentExempt = tc.isRentExempt := rfl

@[simp] theorem accountAt_setAccountsResizeDelta (delta : Int) (index : IndexOfAccount) :
    (tc.setAccountsResizeDelta delta).accountAt index = tc.accountAt index := rfl

@[simp] theorem setAccount_accounts_length (index : IndexOfAccount) (account : AccountSharedData) :
    (tc.setAccount index account).accounts.length = tc.accounts.length := List.length_set

theorem setAccount_accountAt_self (index : IndexOfAccount) : tc.setAccount index (tc.accountAt index) = tc := by
  have same : tc.accounts.set index (tc.accountAt index) = tc.accounts := by
    by_cases inRange : index < tc.accounts.length
    · simp [accountAt, List.getD_eq_getElem?_getD, List.getElem?_eq_getElem inRange]
    · exact List.set_eq_of_length_le (Nat.le_of_not_lt inRange)
  cases tc
  simpa [setAccount] using same

@[simp] theorem accountAt_setAccount {index : IndexOfAccount} (inRange : index < tc.accounts.length)
    (account : AccountSharedData) : (tc.setAccount index account).accountAt index = account := by
  simp [accountAt, setAccount, List.getD_eq_getElem?_getD, List.getElem?_set_self inRange]

end TransactionContext

namespace InstructionContext

variable {ctx : InstructionContext} {tc : TransactionContext}

theorem findIndexOfInstructionAccount_entry {pubkey : Pubkey} {index : IndexOfAccount}
    (found : ctx.findIndexOfInstructionAccount tc pubkey = some index) :
    ∃ account, ctx.instructionAccounts[index]? = some account ∧
      tc.accountKeys[account.indexInTransaction]? = some pubkey := by
  obtain ⟨bound, key, -⟩ := List.findIdx?_eq_some_iff_getElem.mp found
  exact ⟨_, List.getElem?_eq_getElem bound, by simpa using key⟩

theorem getLastProgramKey_congr {other : TransactionContext} (same : other.accountKeys = tc.accountKeys) :
    ctx.getLastProgramKey other = ctx.getLastProgramKey tc := by
  simp [getLastProgramKey, TransactionContext.getKeyOfAccountAtIndex, same]

theorem tryBorrowInstructionAccount_ok {index : IndexOfAccount} {borrowed : BorrowedAccount}
    (ok : ctx.tryBorrowInstructionAccount tc index = .ok borrowed) :
    ∃ account, ctx.instructionAccounts[index]? = some account ∧
      borrowed.indexInTransaction = account.indexInTransaction ∧
      borrowed.indexInInstruction = ctx.programAccounts.length + index ∧
      account.indexInTransaction < tc.accounts.length := by
  cases entry : ctx.instructionAccounts[index]? with
  | none =>
    simp [tryBorrowInstructionAccount, getIndexOfInstructionAccountInTransaction, entry, ExceptLoop.bind_eq_ok] at ok
  | some account =>
    simp only [tryBorrowInstructionAccount, getIndexOfInstructionAccountInTransaction, tryBorrowAccount, entry,
      ExceptLoop.bind_eq_ok, Except.ok.injEq, exists_eq_left'] at ok
    split at ok
    · rename_i inRange
      cases ok
      exact ⟨account, rfl, rfl, rfl, inRange⟩
    · cases ok

theorem tryBorrowProgramAccount_ok {index : IndexOfAccount} {borrowed : BorrowedAccount}
    (ok : ctx.tryBorrowProgramAccount tc index = .ok borrowed) :
    borrowed.indexInInstruction = index ∧ index < ctx.programAccounts.length ∧
      borrowed.indexInTransaction < tc.accounts.length := by
  cases entry : ctx.programAccounts[index]? with
  | none => simp [tryBorrowProgramAccount, getIndexOfProgramAccountInTransaction, entry, ExceptLoop.bind_eq_ok] at ok
  | some indexInTransaction =>
    simp only [tryBorrowProgramAccount, getIndexOfProgramAccountInTransaction, tryBorrowAccount, entry,
      ExceptLoop.bind_eq_ok, Except.ok.injEq, exists_eq_left'] at ok
    split at ok
    · rename_i inRange
      cases ok
      exact ⟨rfl, (List.getElem?_eq_some_iff.mp entry).1, inRange⟩
    · cases ok

end InstructionContext

namespace BorrowedAccount

variable {ctx : InstructionContext} {borrowed : BorrowedAccount}

theorem isWritable_of_programAccount (program : borrowed.indexInInstruction < ctx.programAccounts.length) :
    borrowed.isWritable ctx = false := by
  simp [isWritable, instructionAccountPrivilege, program]

theorem instructionAccountPrivilege_of_entry {flag : InstructionAccount → Bool} {index : IndexOfAccount}
    {account : InstructionAccount} (entry : ctx.instructionAccounts[index]? = some account)
    (atIndex : borrowed.indexInInstruction = ctx.programAccounts.length + index) :
    borrowed.instructionAccountPrivilege ctx (ctx.getInstructionAccountFlag flag) = flag account := by
  simp [instructionAccountPrivilege, atIndex, InstructionContext.getInstructionAccountFlag, entry]

end BorrowedAccount

end Runtime
