import Mathlib
import Agave.Library.MachineInt
import Agave.Library.ExceptLoop
import Agave.Library.Mutation
import Agave.Runtime.TransactionContext
import Agave.Runtime.Invoke

namespace Runtime

open MachineInt

namespace TransactionContext

variable (tc : TransactionContext)

/-- `TransactionContext::new`: the keys and accounts unzipped, no instruction on the stack, and the
one empty context reserved for the next instruction. -/
def new (transactionAccounts : List (Pubkey × AccountSharedData)) (isRentExempt : Nat → Nat → Bool)
    (instructionStackCapacity instructionTraceCapacity : Nat) : TransactionContext where
  accountKeys := transactionAccounts.map (·.1)
  accounts := transactionAccounts.map (·.2)
  keys_length := by simp
  instructionStackCapacity := instructionStackCapacity
  instructionTraceCapacity := instructionTraceCapacity
  instructionStack := []
  instructionTrace := [default]
  accountsResizeDelta := 0
  removeAccountsExecutableFlagChecks := true
  isRentExempt := isRentExempt

def getAccountAtIndex (indexInTransaction : IndexOfAccount) : Except InstructionError AccountSharedData :=
  match tc.accounts[indexInTransaction]? with
  | some account => .ok account
  | none => .error .notEnoughAccountKeys

/-- `get_instruction_trace_length`: the trace without the context reserved for the next instruction. -/
def getInstructionTraceLength : Nat := tc.instructionTrace.length - 1

/-- One iteration of `instruction_accounts_lamport_sum`, which adds the lamports of an instruction
account to the `u128` sum unless the account is a duplicate. -/
def addInstructionAccountLamports (instructionContext : InstructionContext) (sum : Nat)
    (instructionAccountIndex : IndexOfAccount) : Except InstructionError Nat := do
  match ← instructionContext.isInstructionAccountDuplicate instructionAccountIndex with
  | some _ => pure sum
  | none =>
    let indexInTransaction ← instructionContext.getIndexOfInstructionAccountInTransaction instructionAccountIndex
    let account ← tc.getAccountAtIndex indexInTransaction
    match checkedAdd 128 account.lamports sum with
    | some total => pure total
    | none => throw .arithmeticOverflow

def instructionAccountsLamportSum (instructionContext : InstructionContext) : Except InstructionError Nat :=
  (List.range instructionContext.instructionAccounts.length).foldlM
    (tc.addInstructionAccountLamports instructionContext) 0

/-- `get_next_instruction_context`: the last context of the trace, reserved for the next instruction. -/
def modifyNextInstructionContext (f : InstructionContext → InstructionContext) : TransactionContext :=
  { tc with instructionTrace := tc.instructionTrace.modifyLast f }

def push : EStateM InstructionError TransactionContext Unit := do
  let tc ← get
  let nestingLevel := tc.instructionStack.length
  let callerInstructionContext ← Mutation.ofExcept
    (match tc.instructionTrace.getLast? with
      | some instructionContext => .ok instructionContext
      | none => .error .callDepth)
  let calleeInstructionAccountsLamportSum ←
    Mutation.ofExcept (tc.instructionAccountsLamportSum callerInstructionContext)
  if !tc.instructionStack.isEmpty then
    let callerInstructionContext ← Mutation.ofExcept tc.getCurrentInstructionContext
    let originalCallerInstructionAccountsLamportSum := callerInstructionContext.instructionAccountsLamportSum
    let currentCallerInstructionAccountsLamportSum ←
      Mutation.ofExcept (tc.instructionAccountsLamportSum callerInstructionContext)
    if originalCallerInstructionAccountsLamportSum ≠ currentCallerInstructionAccountsLamportSum then
      throw .unbalancedInstruction
  modify fun tc => tc.modifyNextInstructionContext fun instructionContext =>
    { instructionContext with
      nestingLevel := nestingLevel
      instructionAccountsLamportSum := calleeInstructionAccountsLamportSum }
  let indexInTrace := tc.getInstructionTraceLength
  if indexInTrace ≥ tc.instructionTraceCapacity then throw .maxInstructionTraceLengthExceeded
  modify fun tc => { tc with instructionTrace := tc.instructionTrace ++ [default] }
  if nestingLevel ≥ tc.instructionStackCapacity then throw .callDepth
  modify fun tc => { tc with instructionStack := tc.instructionStack ++ [indexInTrace] }

/-- Whether the lamport sum of the current instruction changed since its push. The program accounts
are borrowed to check that none is still borrowed, which is not modelled: only their indices are
checked. -/
def detectUnbalancedInstruction : Except InstructionError Bool := do
  let instructionContext ← tc.getCurrentInstructionContext
  instructionContext.programAccounts.forM fun accountIndex => do
    let _ ← tc.getAccountAtIndex accountIndex
    pure ()
  let sum ← tc.instructionAccountsLamportSum instructionContext
  pure (instructionContext.instructionAccountsLamportSum ≠ sum)

def pop : EStateM InstructionError TransactionContext Unit := do
  let tc ← get
  if tc.instructionStack.isEmpty then throw .callDepth
  -- Always pop, even if we detected an unbalanced instruction
  modify fun tc => { tc with instructionStack := tc.instructionStack.dropLast }
  if ← Mutation.ofExcept tc.detectUnbalancedInstruction then throw .unbalancedInstruction

/-- `get_next_instruction_context()?.configure(..)`. -/
def configureNextInstruction (programAccounts : List IndexOfAccount)
    (instructionAccounts : List InstructionAccount) (instructionData : List UInt8) :
    EStateM InstructionError TransactionContext Unit := do
  let tc ← get
  if tc.instructionTrace.isEmpty then throw .callDepth
  modify fun tc => tc.modifyNextInstructionContext fun instructionContext =>
    { instructionContext with
      programAccounts := programAccounts
      instructionAccounts := instructionAccounts
      instructionData := instructionData }

/-- The lamports of every account of the transaction. -/
def lamports : List Nat := tc.accounts.map (·.lamports)

end TransactionContext

/-- The accounts of an instruction, by their index in the transaction. -/
def accountIndices (instructionContext : InstructionContext) : Finset IndexOfAccount :=
  (instructionContext.instructionAccounts.map (·.indexInTransaction)).toFinset

@[simp] theorem accountIndices_default : accountIndices default = ∅ := rfl

/-- The lamports of the accounts of an instruction, each account once. -/
def accountsLamports (instructionContext : InstructionContext) (lamports : List Nat) : Nat :=
  ∑ j ∈ accountIndices instructionContext, lamports.getD j 0

theorem WellFormed.indexInCallee_eq_self_iff {accounts : List InstructionAccount} (wellFormed : WellFormed accounts)
    {k : Nat} (h : k < accounts.length) :
    accounts[k].indexInCallee = k ↔
      accounts[k].indexInTransaction ∉ (accounts.take k).map (·.indexInTransaction) := by
  rw [wellFormed.indexInCallee_eq k h, List.findIdx_eq h]
  simp only [decide_true, true_and, decide_eq_false_iff_not, List.mem_map, List.mem_take_iff_getElem, not_exists,
    not_and]
  constructor
  · rintro earlier a ⟨j, hj, rfl⟩
    exact earlier j (by omega)
  · intro fresh j hj same
    exact fresh _ ⟨j, by omega, rfl⟩ same

namespace TransactionContext

variable {tc : TransactionContext} {instructionContext : InstructionContext}

theorem addInstructionAccountLamports_ok {sum k result : Nat}
    (ok : tc.addInstructionAccountLamports instructionContext sum k = .ok result) :
    ∃ bound : k < instructionContext.instructionAccounts.length,
      (instructionContext.instructionAccounts[k].indexInCallee ≠ k ∧ result = sum) ∨
      (instructionContext.instructionAccounts[k].indexInCallee = k ∧
        ∃ account, tc.accounts[instructionContext.instructionAccounts[k].indexInTransaction]? = some account ∧
          result = account.lamports + sum) := by
  unfold addInstructionAccountLamports InstructionContext.isInstructionAccountDuplicate at ok
  cases entry : instructionContext.instructionAccounts[k]? with
  | none => simp [entry, ExceptLoop.bind_eq_ok] at ok
  | some account =>
    obtain ⟨bound, atK⟩ := List.getElem?_eq_some_iff.mp entry
    refine ⟨bound, ?_⟩
    rw [atK]
    by_cases first : account.indexInCallee = k
    · cases stored : tc.accounts[account.indexInTransaction]? with
      | none =>
        simp [entry, first, stored, InstructionContext.getIndexOfInstructionAccountInTransaction, getAccountAtIndex,
          ExceptLoop.bind_eq_ok] at ok
      | some stored' =>
        simp only [entry, first, if_true, InstructionContext.getIndexOfInstructionAccountInTransaction,
          getAccountAtIndex, ExceptLoop.bind_eq_ok, Except.ok.injEq, exists_eq_left'] at ok
        simp only [stored, Except.ok.injEq, exists_eq_left'] at ok
        refine .inr ⟨first, stored', rfl, ?_⟩
        cases added : checkedAdd 128 stored'.lamports sum with
        | none => simp [added, throw, throwThe, MonadExceptOf.throw] at ok
        | some total =>
          simp only [added, pure, Except.pure, Except.ok.injEq] at ok
          rw [← ok, (checkedAdd_eq_some.mp added).2]
    · left
      simp [entry, first, ExceptLoop.bind_eq_ok, pure, Except.pure] at ok
      exact ⟨first, ok.symm⟩

theorem getD_lamports {index : IndexOfAccount} {account : AccountSharedData}
    (stored : tc.accounts[index]? = some account) : tc.lamports.getD index 0 = account.lamports := by
  simp [lamports, List.getD_eq_getElem?_getD, stored]

@[simp] theorem length_lamports : tc.lamports.length = tc.accounts.length := List.length_map _

@[simp] theorem lamports_setAccountsResizeDelta (delta : Int) : (tc.setAccountsResizeDelta delta).lamports = tc.lamports :=
  rfl

theorem lamports_setAccount (index : IndexOfAccount) (account : AccountSharedData) :
    (tc.setAccount index account).lamports = tc.lamports.set index account.lamports := by
  simp [lamports, List.map_set]

theorem lamports_setAccount_of_lamports {index : IndexOfAccount} {account : AccountSharedData}
    (same : account.lamports = (tc.accountAt index).lamports) : (tc.setAccount index account).lamports = tc.lamports := by
  rw [lamports_setAccount]
  by_cases inRange : index < tc.lamports.length
  · have bound : index < tc.accounts.length := by simpa using inRange
    have atIndex : account.lamports = tc.lamports[index] := by
      simp [same, accountAt, lamports, List.getD_eq_getElem?_getD, List.getElem?_eq_getElem bound]
    rw [atIndex, List.set_getElem_self]
  · exact List.set_eq_of_length_le (Nat.le_of_not_lt inRange)

theorem addInstructionAccountLamports_sum (wellFormed : WellFormed instructionContext.instructionAccounts)
    {k acc acc' : Nat}
    (sumEq : acc = ∑ j ∈ ((instructionContext.instructionAccounts.take k).map (·.indexInTransaction)).toFinset,
      tc.lamports.getD j 0)
    (inRange : ∀ a ∈ instructionContext.instructionAccounts.take k, a.indexInTransaction < tc.accounts.length)
    (step : tc.addInstructionAccountLamports instructionContext acc k = .ok acc') :
    acc' = ∑ j ∈ ((instructionContext.instructionAccounts.take (k + 1)).map (·.indexInTransaction)).toFinset,
      tc.lamports.getD j 0 ∧
    ∀ a ∈ instructionContext.instructionAccounts.take (k + 1), a.indexInTransaction < tc.accounts.length := by
  obtain ⟨bound, ⟨notFirst, same⟩ | ⟨first, account, stored, added⟩⟩ := addInstructionAccountLamports_ok step
  all_goals rw [List.take_succ_eq_append_getElem bound, List.map_append, List.toFinset_append]
  · have earlier : instructionContext.instructionAccounts[k].indexInTransaction ∈
        (instructionContext.instructionAccounts.take k).map (·.indexInTransaction) := by
      by_contra fresh
      exact notFirst ((wellFormed.indexInCallee_eq_self_iff bound).mpr fresh)
    have absorbed : ((instructionContext.instructionAccounts.take k).map (·.indexInTransaction)).toFinset ∪
        ([instructionContext.instructionAccounts[k]].map (·.indexInTransaction)).toFinset =
        ((instructionContext.instructionAccounts.take k).map (·.indexInTransaction)).toFinset := by
      simpa using List.mem_toFinset.mpr earlier
    refine ⟨by rw [absorbed, same, sumEq], fun a mem => ?_⟩
    rcases List.mem_append.mp mem with old | new
    · exact inRange a old
    · obtain ⟨b, memB, sameIndex⟩ := List.mem_map.mp earlier
      rw [List.mem_singleton.mp new, ← sameIndex]
      exact inRange b memB
  · have fresh := (wellFormed.indexInCallee_eq_self_iff bound).mp first
    have inBounds : instructionContext.instructionAccounts[k].indexInTransaction < tc.accounts.length :=
      (List.getElem?_eq_some_iff.mp stored).1
    refine ⟨?_, fun a mem => ?_⟩
    · rw [added, sumEq]
      simp only [List.map_cons, List.map_nil, List.toFinset_cons, List.toFinset_nil, insert_empty_eq]
      rw [Finset.union_singleton, Finset.sum_insert (by simpa using fresh), getD_lamports stored]
    · rcases List.mem_append.mp mem with old | new
      · exact inRange a old
      · rw [List.mem_singleton.mp new]
        exact inBounds

theorem instructionAccountsLamportSum_eq (wellFormed : WellFormed instructionContext.instructionAccounts)
    {sum : Nat} (ok : tc.instructionAccountsLamportSum instructionContext = .ok sum) :
    sum = accountsLamports instructionContext tc.lamports ∧
      ∀ j ∈ accountIndices instructionContext, j < tc.accounts.length := by
  have loop := ExceptLoop.foldlM_range_invariant
    (fun k acc => acc = ∑ j ∈ ((instructionContext.instructionAccounts.take k).map (·.indexInTransaction)).toFinset,
        tc.lamports.getD j 0 ∧
      ∀ a ∈ instructionContext.instructionAccounts.take k, a.indexInTransaction < tc.accounts.length)
    (fun _ _ _ ⟨sumEq, inRange⟩ step => addInstructionAccountLamports_sum wellFormed sumEq inRange step)
    instructionContext.instructionAccounts.length (by simp) ok
  simpa [accountsLamports, accountIndices] using loop

end TransactionContext

namespace TransactionContext

/-! The states that `push`, `pop` and `configure` leave, and the contexts they touch. -/

variable (tc : TransactionContext)

/-- The context at a position of the trace. -/
def contextAt (indexInTrace : Nat) : InstructionContext := tc.instructionTrace.getD indexInTrace default

/-- The context reserved for the next instruction. -/
def nextInstructionContext : InstructionContext := tc.instructionTrace.getLast?.getD default

/-- The next context as `push` marks it: its nesting level and its lamport sum. -/
def markNextInstruction (calleeSum : Nat) : TransactionContext :=
  tc.modifyNextInstructionContext fun instructionContext =>
    { instructionContext with
      nestingLevel := tc.instructionStack.length
      instructionAccountsLamportSum := calleeSum }

def reserveNextInstruction : TransactionContext :=
  { tc with instructionTrace := tc.instructionTrace ++ [default] }

def pushInstructionIndex (indexInTrace : Nat) : TransactionContext :=
  { tc with instructionStack := tc.instructionStack ++ [indexInTrace] }

def popInstructionIndex : TransactionContext :=
  { tc with instructionStack := tc.instructionStack.dropLast }

variable {tc}

@[simp] theorem modifyNextInstructionContext_accounts (f : InstructionContext → InstructionContext) :
    (tc.modifyNextInstructionContext f).accounts = tc.accounts := rfl

@[simp] theorem modifyNextInstructionContext_instructionStack (f : InstructionContext → InstructionContext) :
    (tc.modifyNextInstructionContext f).instructionStack = tc.instructionStack := rfl

@[simp] theorem modifyNextInstructionContext_instructionTrace_length (f : InstructionContext → InstructionContext) :
    (tc.modifyNextInstructionContext f).instructionTrace.length = tc.instructionTrace.length :=
  List.length_modifyLast f tc.instructionTrace

@[simp] theorem reserveNextInstruction_accounts : tc.reserveNextInstruction.accounts = tc.accounts := rfl

@[simp] theorem reserveNextInstruction_instructionStack :
    tc.reserveNextInstruction.instructionStack = tc.instructionStack := rfl

@[simp] theorem reserveNextInstruction_instructionTrace :
    tc.reserveNextInstruction.instructionTrace = tc.instructionTrace ++ [default] := rfl

@[simp] theorem pushInstructionIndex_accounts (indexInTrace : Nat) :
    (tc.pushInstructionIndex indexInTrace).accounts = tc.accounts := rfl

@[simp] theorem pushInstructionIndex_instructionStack (indexInTrace : Nat) :
    (tc.pushInstructionIndex indexInTrace).instructionStack = tc.instructionStack ++ [indexInTrace] := rfl

@[simp] theorem pushInstructionIndex_instructionTrace (indexInTrace : Nat) :
    (tc.pushInstructionIndex indexInTrace).instructionTrace = tc.instructionTrace := rfl

@[simp] theorem popInstructionIndex_accounts : tc.popInstructionIndex.accounts = tc.accounts := rfl

@[simp] theorem popInstructionIndex_instructionStack :
    tc.popInstructionIndex.instructionStack = tc.instructionStack.dropLast := rfl

@[simp] theorem popInstructionIndex_instructionTrace :
    tc.popInstructionIndex.instructionTrace = tc.instructionTrace := rfl

@[simp] theorem contextAt_pushInstructionIndex (indexInTrace i : Nat) :
    (tc.pushInstructionIndex indexInTrace).contextAt i = tc.contextAt i := rfl

@[simp] theorem nextInstructionContext_pushInstructionIndex (indexInTrace : Nat) :
    (tc.pushInstructionIndex indexInTrace).nextInstructionContext = tc.nextInstructionContext := rfl

@[simp] theorem contextAt_popInstructionIndex (i : Nat) : tc.popInstructionIndex.contextAt i = tc.contextAt i := rfl

@[simp] theorem nextInstructionContext_popInstructionIndex :
    tc.popInstructionIndex.nextInstructionContext = tc.nextInstructionContext := rfl

theorem markNextInstruction_accounts (calleeSum : Nat) : (tc.markNextInstruction calleeSum).accounts = tc.accounts :=
  rfl

theorem contextAt_modifyNextInstructionContext (f : InstructionContext → InstructionContext) {i : Nat}
    (before : i + 1 < tc.instructionTrace.length) : (tc.modifyNextInstructionContext f).contextAt i = tc.contextAt i := by
  simp only [contextAt, modifyNextInstructionContext, List.getD_eq_getElem?_getD, List.getElem?_modifyLast_of_lt f before]

theorem nextInstructionContext_modifyNextInstructionContext (f : InstructionContext → InstructionContext)
    (nonEmpty : tc.instructionTrace ≠ []) :
    (tc.modifyNextInstructionContext f).nextInstructionContext = f tc.nextInstructionContext := by
  obtain ⟨next, last⟩ := Option.ne_none_iff_exists'.mp (mt List.getLast?_eq_none_iff.mp nonEmpty)
  simp [nextInstructionContext, modifyNextInstructionContext, List.getLast?_modifyLast, last]

theorem contextAt_reserveNextInstruction {i : Nat} (inTrace : i < tc.instructionTrace.length) :
    tc.reserveNextInstruction.contextAt i = tc.contextAt i :=
  List.getD_append _ _ _ _ inTrace

@[simp] theorem nextInstructionContext_reserveNextInstruction :
    tc.reserveNextInstruction.nextInstructionContext = default := by
  simp [nextInstructionContext, reserveNextInstruction]

theorem contextAt_reserveNextInstruction_last (nonEmpty : tc.instructionTrace ≠ []) :
    tc.reserveNextInstruction.contextAt (tc.instructionTrace.length - 1) = tc.nextInstructionContext := by
  obtain ⟨next, last⟩ := Option.ne_none_iff_exists'.mp (mt List.getLast?_eq_none_iff.mp nonEmpty)
  have inTrace : tc.instructionTrace.length - 1 < tc.instructionTrace.length :=
    Nat.sub_lt (List.length_pos_iff.mpr nonEmpty) Nat.one_pos
  rw [contextAt_reserveNextInstruction inTrace, contextAt, List.getD_eq_getElem?_getD, ← List.getLast?_eq_getElem?]
  rfl

theorem getCurrentInstructionContext_ok {instructionContext : InstructionContext}
    (current : tc.getCurrentInstructionContext = .ok instructionContext) :
    ∃ indexInTrace, tc.instructionStack.getLast? = some indexInTrace ∧
      indexInTrace < tc.instructionTrace.length ∧ instructionContext = tc.contextAt indexInTrace := by
  unfold getCurrentInstructionContext getInstructionContextAtNestingLevel at current
  split_ifs at current with empty
  cases top : tc.instructionStack[tc.instructionStack.length - 1]? with
  | none => simp [top] at current
  | some indexInTrace =>
    cases atIndex : tc.instructionTrace[indexInTrace]? with
    | none => simp [top, atIndex] at current
    | some found =>
      simp only [top, atIndex, Except.ok.injEq] at current
      refine ⟨indexInTrace, by rw [List.getLast?_eq_getElem?, top], (List.getElem?_eq_some_iff.mp atIndex).1, ?_⟩
      rw [contextAt, List.getD_eq_getElem?_getD, atIndex, current]
      rfl

theorem getCurrentInstructionContext_of_top {indexInTrace : Nat}
    (top : tc.instructionStack.getLast? = some indexInTrace) (inTrace : indexInTrace < tc.instructionTrace.length) :
    tc.getCurrentInstructionContext = .ok (tc.contextAt indexInTrace) := by
  have nonEmpty : tc.instructionStack.length ≠ 0 := by
    intro empty
    simp [List.length_eq_zero_iff.mp empty] at top
  rw [List.getLast?_eq_getElem?] at top
  simp [getCurrentInstructionContext, getInstructionContextAtNestingLevel, nonEmpty, top, contextAt,
    List.getD_eq_getElem?_getD, List.getElem?_eq_getElem inTrace]

theorem push_cases {result : EStateM.Result InstructionError TransactionContext Unit}
    (pushed : push tc = result) :
    (∃ e, result = .error e tc) ∨
    ∃ callee calleeSum, tc.instructionTrace.getLast? = some callee ∧
      tc.instructionAccountsLamportSum callee = .ok calleeSum ∧
      (result = .error .maxInstructionTraceLengthExceeded (tc.markNextInstruction calleeSum) ∨
        result = .error .callDepth (tc.markNextInstruction calleeSum).reserveNextInstruction ∨
        result = .ok () ((tc.markNextInstruction calleeSum).reserveNextInstruction.pushInstructionIndex
          tc.getInstructionTraceLength)) := by
  subst pushed
  simp only [push, Mutation.bind_apply, Mutation.get_apply]
  cases last : tc.instructionTrace.getLast? with
  | none => exact .inl ⟨_, rfl⟩
  | some callee =>
    simp only [Mutation.ofExcept_ok]
    cases sum : tc.instructionAccountsLamportSum callee with
    | error e => exact .inl ⟨_, rfl⟩
    | ok calleeSum =>
      simp only [Mutation.ofExcept_ok, Mutation.ite_apply]
      by_cases empty : tc.instructionStack.isEmpty
      · simp only [empty, Bool.not_true, Bool.false_eq_true, if_false, Mutation.bind_apply, Mutation.ite_apply,
          Mutation.throw_apply, Mutation.modify_apply]
        split_ifs
        · exact .inr ⟨callee, calleeSum, rfl, sum, .inl rfl⟩
        · exact .inr ⟨callee, calleeSum, rfl, sum, .inr (.inl rfl)⟩
        · exact .inr ⟨callee, calleeSum, rfl, sum, .inr (.inr rfl)⟩
      simp only [empty, Bool.not_false, if_true, Mutation.bind_apply]
      cases current : tc.getCurrentInstructionContext with
      | error e => exact .inl ⟨_, rfl⟩
      | ok caller =>
        simp only [Mutation.ofExcept_ok]
        cases callerSum : tc.instructionAccountsLamportSum caller with
        | error e => exact .inl ⟨_, rfl⟩
        | ok currentSum =>
          simp only [Mutation.ofExcept_ok]
          by_cases balanced : caller.instructionAccountsLamportSum = currentSum
          · simp only [balanced, ne_eq, not_true_eq_false, if_false, Mutation.bind_apply, Mutation.ite_apply,
              Mutation.throw_apply, Mutation.modify_apply]
            split_ifs
            · exact .inr ⟨callee, calleeSum, rfl, sum, .inl rfl⟩
            · exact .inr ⟨callee, calleeSum, rfl, sum, .inr (.inl rfl)⟩
            · exact .inr ⟨callee, calleeSum, rfl, sum, .inr (.inr rfl)⟩
          · simp only [balanced, ne_eq, not_false_eq_true, if_true, Mutation.bind_apply, Mutation.throw_apply]
            exact .inl ⟨_, rfl⟩

theorem pop_cases {result : EStateM.Result InstructionError TransactionContext Unit} (popped : pop tc = result) :
    (tc.instructionStack = [] ∧ result = .error .callDepth tc) ∨
    (tc.instructionStack ≠ [] ∧
      ((tc.detectUnbalancedInstruction = .ok false ∧ result = .ok () tc.popInstructionIndex) ∨
        ∃ e, result = .error e tc.popInstructionIndex)) := by
  subst popped
  simp only [pop, Mutation.bind_apply, Mutation.get_apply, Mutation.ite_apply, Mutation.throw_apply,
    Mutation.modify_apply]
  by_cases empty : tc.instructionStack.isEmpty
  · simp only [empty, if_true]
    exact .inl ⟨List.isEmpty_iff.mp empty, trivial⟩
  simp only [empty, Bool.false_eq_true, if_false]
  refine .inr ⟨mt List.isEmpty_iff.mpr empty, ?_⟩
  cases unbalanced : tc.detectUnbalancedInstruction with
  | error e => exact .inr ⟨e, rfl⟩
  | ok changed =>
    cases changed with
    | true => exact .inr ⟨.unbalancedInstruction, rfl⟩
    | false => exact .inl ⟨rfl, rfl⟩

theorem detectUnbalancedInstruction_eq_false (balanced : tc.detectUnbalancedInstruction = .ok false) :
    ∃ instructionContext, tc.getCurrentInstructionContext = .ok instructionContext ∧
      tc.instructionAccountsLamportSum instructionContext = .ok instructionContext.instructionAccountsLamportSum := by
  simp only [detectUnbalancedInstruction, ExceptLoop.bind_eq_ok] at balanced
  obtain ⟨instructionContext, current, -, -, sum, computed, result⟩ := balanced
  simp only [pure, Except.pure, Except.ok.injEq, decide_eq_false_iff_not, not_not] at result
  exact ⟨instructionContext, current, result ▸ computed⟩

theorem configureNextInstruction_cases {programAccounts : List IndexOfAccount}
    {instructionAccounts : List InstructionAccount} {instructionData : List UInt8}
    {result : EStateM.Result InstructionError TransactionContext Unit}
    (configured : configureNextInstruction programAccounts instructionAccounts instructionData tc = result) :
    (tc.instructionTrace = [] ∧ result = .error .callDepth tc) ∨
    (tc.instructionTrace ≠ [] ∧
      result = .ok () (tc.modifyNextInstructionContext fun instructionContext =>
        { instructionContext with
          programAccounts := programAccounts
          instructionAccounts := instructionAccounts
          instructionData := instructionData })) := by
  subst configured
  simp only [configureNextInstruction, Mutation.bind_apply, Mutation.get_apply, Mutation.ite_apply,
    Mutation.throw_apply, Mutation.modify_apply]
  by_cases empty : tc.instructionTrace.isEmpty
  · simp only [empty, if_true]
    exact .inl ⟨List.isEmpty_iff.mp empty, trivial⟩
  · simp only [empty, Bool.false_eq_true, if_false]
    exact .inr ⟨mt List.isEmpty_iff.mpr empty, trivial⟩

end TransactionContext

end Runtime
