import Mathlib
import Agave.Library.List
import Agave.Library.Mutation
import Agave.Library.StateMachine
import Agave.Runtime.TransactionContext
import Agave.Runtime.BorrowedAccount
import Agave.Runtime.InstructionStack

namespace Runtime

open TransactionContext

/-- One step of a transaction's execution, as the runtime and the programs it invokes drive it. -/
inductive ExecutionStep
  | push
  | pop
  | configure (programAccounts : List IndexOfAccount) (instructionAccounts : List InstructionAccount)
      (instructionData : List UInt8)
  | borrowInstructionAccount (instructionAccountIndex : IndexOfAccount) (op : BorrowedAccountOp)
  | borrowProgramAccount (programAccountIndex : IndexOfAccount) (op : BorrowedAccountOp)

namespace ExecutionStep

/-- A setter called on an account borrowed from the current instruction. -/
def borrowAndApply (borrow : InstructionContext → TransactionContext → Except InstructionError BorrowedAccount)
    (op : BorrowedAccountOp) : EStateM InstructionError TransactionContext Unit := do
  let tc ← get
  let instructionContext ← Mutation.ofExcept tc.getCurrentInstructionContext
  let borrowed ← Mutation.ofExcept (borrow instructionContext tc)
  op.apply instructionContext borrowed

def run : ExecutionStep → EStateM InstructionError TransactionContext Unit
  | push => TransactionContext.push
  | pop => TransactionContext.pop
  | configure programAccounts instructionAccounts instructionData =>
    configureNextInstruction programAccounts instructionAccounts instructionData
  | borrowInstructionAccount index op =>
    borrowAndApply (fun instructionContext tc => instructionContext.tryBorrowInstructionAccount tc index) op
  | borrowProgramAccount index op =>
    borrowAndApply (fun instructionContext tc => instructionContext.tryBorrowProgramAccount tc index) op

/-- The runtime configures an instruction with a well-formed account list, and a nested one with
accounts of its caller only. -/
def Admissible (tc : TransactionContext) : ExecutionStep → Prop
  | configure _ instructionAccounts _ =>
    WellFormed instructionAccounts ∧
      ∀ caller, tc.getCurrentInstructionContext = .ok caller →
        ∀ account ∈ instructionAccounts, account.indexInTransaction ∈ accountIndices caller
  | _ => True

/-- The ghost record of an execution: a successful push records the lamports of every account, and a
pop drops the record of the instruction it pops. -/
def recordLamports (tc : TransactionContext) (result : EStateM.Result InstructionError TransactionContext Unit)
    (lamportsAtPush : List (List Nat)) : ExecutionStep → List (List Nat)
  | push =>
    match result with
    | .ok _ _ => lamportsAtPush ++ [tc.lamports]
    | .error _ _ => lamportsAtPush
  | pop => if tc.instructionStack.isEmpty then lamportsAtPush else lamportsAtPush.dropLast
  | _ => lamportsAtPush

end ExecutionStep

/-- A transaction context, with the lamports of every account at the push of each instruction on its
stack. -/
structure Execution where
  tc : TransactionContext
  lamportsAtPush : List (List Nat)

namespace Execution

def next (e : Execution) (step : ExecutionStep) : Execution where
  tc := Mutation.stateAfter (step.run e.tc)
  lamportsAtPush := step.recordLamports e.tc (step.run e.tc) e.lamportsAtPush

def start (transactionAccounts : List (Pubkey × AccountSharedData)) (isRentExempt : Nat → Nat → Bool)
    (instructionStackCapacity instructionTraceCapacity : Nat) : Execution :=
  ⟨TransactionContext.new transactionAccounts isRentExempt instructionStackCapacity instructionTraceCapacity, []⟩

def Step : Execution → Execution → Prop :=
  StateMachine.ActionStep (fun e step => step.Admissible e.tc) next

end Execution

namespace ExecutionStep

theorem borrowAndApply_cases
    {borrow : InstructionContext → TransactionContext → Except InstructionError BorrowedAccount}
    {op : BorrowedAccountOp} {tc : TransactionContext}
    {result : EStateM.Result InstructionError TransactionContext Unit} (ran : borrowAndApply borrow op tc = result) :
    (∃ e, result = .error e tc) ∨
    ∃ instructionContext borrowed account delta, tc.getCurrentInstructionContext = .ok instructionContext ∧
      borrow instructionContext tc = .ok borrowed ∧
      result = .ok () ((tc.setAccountsResizeDelta delta).setAccount borrowed.indexInTransaction account) ∧
      PermittedChange (borrowed.isWritable instructionContext) (borrowed.getAccount tc).owner
        tc.removeAccountsExecutableFlagChecks (borrowed.getAccount tc) account := by
  subst ran
  simp only [borrowAndApply, Mutation.bind_apply, Mutation.get_apply]
  cases current : tc.getCurrentInstructionContext with
  | error e => exact .inl ⟨e, rfl⟩
  | ok instructionContext =>
    simp only [Mutation.ofExcept_ok]
    cases borrowOk : borrow instructionContext tc with
    | error e => exact .inl ⟨e, rfl⟩
    | ok borrowed =>
      simp only [Mutation.ofExcept_ok]
      have outcome : BorrowedAccount.CallOutcome instructionContext borrowed (borrowed.getAccount tc).owner tc
          (op.apply instructionContext borrowed tc) := BorrowedAccount.apply_outcome (fun _ => rfl) op
      rcases outcome with ⟨e, failed⟩ | ⟨account, delta, wrote, permitted, -⟩
      · exact .inl ⟨e, failed⟩
      · exact .inr ⟨instructionContext, borrowed, account, delta, rfl, borrowOk, wrote, permitted⟩

end ExecutionStep

theorem getD_lamports_of_permitted {tc : TransactionContext} {instructionContext : InstructionContext}
    {borrowed : BorrowedAccount} {program : Pubkey} {account : AccountSharedData} {delta : Int} {j : Nat}
    (permitted : PermittedChange (borrowed.isWritable instructionContext) program
      tc.removeAccountsExecutableFlagChecks (borrowed.getAccount tc) account)
    (untouched : j ≠ borrowed.indexInTransaction ∨ borrowed.isWritable instructionContext = false) :
    ((tc.setAccountsResizeDelta delta).setAccount borrowed.indexInTransaction account).lamports.getD j 0 =
      tc.lamports.getD j 0 := by
  rcases untouched with other | readonly
  · simp only [lamports_setAccount, lamports_setAccountsResizeDelta, List.getD_eq_getElem?_getD,
      List.getElem?_set_ne (Ne.symm other)]
  · have same : account.lamports =
        ((tc.setAccountsResizeDelta delta).accountAt borrowed.indexInTransaction).lamports := by
      by_contra changed
      have writable := (permitted.lamports_change changed).1
      rw [readonly] at writable
      exact Bool.false_ne_true writable
    rw [lamports_setAccount_of_lamports same, lamports_setAccountsResizeDelta]

/-- What an instruction on the stack keeps from its push: its context is behind the next one, its
recorded sum is the sum of its accounts at the push, and every other account has its lamports of then. -/
structure Frame (tc : TransactionContext) (indexInTrace : Nat) (atPush : List Nat) : Prop where
  inTrace : indexInTrace + 1 < tc.instructionTrace.length
  wellFormed : WellFormed (tc.contextAt indexInTrace).instructionAccounts
  inRange : ∀ j ∈ accountIndices (tc.contextAt indexInTrace), j < tc.accounts.length
  length_eq : atPush.length = tc.accounts.length
  recorded : (tc.contextAt indexInTrace).instructionAccountsLamportSum =
    accountsLamports (tc.contextAt indexInTrace) atPush
  outside : ∀ j ∉ accountIndices (tc.contextAt indexInTrace), tc.lamports.getD j 0 = atPush.getD j 0

namespace Frame

variable {tc tc' : TransactionContext} {indexInTrace : Nat} {atPush : List Nat}

theorem congr (frame : Frame tc indexInTrace atPush)
    (longer : tc.instructionTrace.length ≤ tc'.instructionTrace.length)
    (kept : tc'.contextAt indexInTrace = tc.contextAt indexInTrace)
    (length : tc'.accounts.length = tc.accounts.length)
    (outside : ∀ j ∉ accountIndices (tc.contextAt indexInTrace), tc'.lamports.getD j 0 = tc.lamports.getD j 0) :
    Frame tc' indexInTrace atPush where
  inTrace := Nat.lt_of_lt_of_le frame.inTrace longer
  wellFormed := by rw [kept]; exact frame.wellFormed
  inRange := by rw [kept, length]; exact frame.inRange
  length_eq := by rw [length]; exact frame.length_eq
  recorded := by rw [kept]; exact frame.recorded
  outside := by
    rw [kept]
    intro j notIn
    rw [outside j notIn]
    exact frame.outside j notIn

theorem lamports_sum (frame : Frame tc indexInTrace atPush)
    (balanced : accountsLamports (tc.contextAt indexInTrace) tc.lamports =
      accountsLamports (tc.contextAt indexInTrace) atPush) :
    tc.lamports.sum = atPush.sum :=
  List.sum_eq_of_getD_eq_off (by rw [length_lamports, frame.length_eq])
    (fun j mem => by rw [length_lamports]; exact frame.inRange j mem) balanced frame.outside

end Frame

namespace Execution

/-- Every instruction on the stack keeps its frame; the accounts of each are among those of every
instruction below it; and the next instruction's accounts are well formed and among those of every
instruction on the stack. -/
structure Invariant (e : Execution) : Prop where
  trace_ne_nil : e.tc.instructionTrace ≠ []
  frames : List.Forall₂ (Frame e.tc) e.tc.instructionStack e.lamportsAtPush
  nested : (e.tc.instructionStack.map fun i => accountIndices (e.tc.contextAt i)).Pairwise
    fun outer inner => inner ⊆ outer
  next_wellFormed : WellFormed e.tc.nextInstructionContext.instructionAccounts
  next_nested : ∀ i ∈ e.tc.instructionStack,
    accountIndices e.tc.nextInstructionContext ⊆ accountIndices (e.tc.contextAt i)

namespace Invariant

variable {e : Execution}

theorem inTrace (inv : e.Invariant) {i : Nat} (mem : i ∈ e.tc.instructionStack) :
    i + 1 < e.tc.instructionTrace.length := by
  obtain ⟨_, _, frame⟩ := inv.frames.exists_of_mem_left mem
  exact frame.inTrace

theorem top_nested (inv : e.Invariant) {top : Nat} (atTop : e.tc.instructionStack.getLast? = some top) :
    ∀ i ∈ e.tc.instructionStack, accountIndices (e.tc.contextAt top) ⊆ accountIndices (e.tc.contextAt i) := by
  obtain ⟨below, split⟩ := List.getLast?_eq_some_iff.mp atTop
  have nested := inv.nested
  rw [split, List.map_append, List.pairwise_append] at nested
  intro i mem
  rw [split] at mem
  rcases List.mem_append.mp mem with isBelow | isTop
  · exact nested.2.2 _ (List.mem_map_of_mem isBelow) _ (by simp)
  · rw [List.mem_singleton.mp isTop]

theorem congr (inv : e.Invariant) {tc' : TransactionContext}
    (stack : tc'.instructionStack = e.tc.instructionStack)
    (longer : e.tc.instructionTrace.length ≤ tc'.instructionTrace.length)
    (kept : ∀ i, i + 1 < e.tc.instructionTrace.length → tc'.contextAt i = e.tc.contextAt i)
    (length : tc'.accounts.length = e.tc.accounts.length)
    (outside : ∀ i ∈ e.tc.instructionStack, ∀ j ∉ accountIndices (e.tc.contextAt i),
      tc'.lamports.getD j 0 = e.tc.lamports.getD j 0)
    (next_wellFormed : WellFormed tc'.nextInstructionContext.instructionAccounts)
    (next_nested : ∀ i ∈ e.tc.instructionStack,
      accountIndices tc'.nextInstructionContext ⊆ accountIndices (e.tc.contextAt i)) :
    Invariant ⟨tc', e.lamportsAtPush⟩ := by
  have keptOnStack : ∀ i ∈ e.tc.instructionStack, tc'.contextAt i = e.tc.contextAt i :=
    fun i mem => kept i (inv.inTrace mem)
  refine ⟨?_, ?_, ?_, next_wellFormed, ?_⟩
  · have nonEmpty := List.length_pos_iff.mpr inv.trace_ne_nil
    exact List.length_pos_iff.mp (Nat.lt_of_lt_of_le nonEmpty longer)
  · show List.Forall₂ (Frame tc') tc'.instructionStack e.lamportsAtPush
    rw [stack]
    exact inv.frames.imp_of_mem_left
      (fun i mem _ frame => frame.congr longer (keptOnStack i mem) length (outside i mem)) (fun _ mem => mem)
  · show ((tc'.instructionStack.map fun i => accountIndices (tc'.contextAt i)).Pairwise _)
    rw [stack, List.map_congr_left fun i mem => by rw [keptOnStack i mem]]
    exact inv.nested
  · intro i mem
    rw [keptOnStack i (stack ▸ mem)]
    exact next_nested i (stack ▸ mem)

theorem popInstructionIndex (inv : e.Invariant) :
    Invariant ⟨e.tc.popInstructionIndex, e.lamportsAtPush.dropLast⟩ where
  trace_ne_nil := inv.trace_ne_nil
  frames := inv.frames.dropLast.imp fun _ _ frame => frame.congr le_rfl rfl rfl fun _ _ => rfl
  nested := by
    show (e.tc.instructionStack.dropLast.map _).Pairwise _
    exact inv.nested.sublist ((List.dropLast_sublist _).map _)
  next_wellFormed := inv.next_wellFormed
  next_nested := fun i mem => inv.next_nested i (List.dropLast_subset _ mem)

theorem pushInstructionIndex (inv : e.Invariant) {callee : InstructionContext} {calleeSum : Nat}
    (last : e.tc.instructionTrace.getLast? = some callee)
    (sum : e.tc.instructionAccountsLamportSum callee = .ok calleeSum) :
    Invariant ⟨(e.tc.markNextInstruction calleeSum).reserveNextInstruction.pushInstructionIndex
      e.tc.getInstructionTraceLength, e.lamportsAtPush ++ [e.tc.lamports]⟩ := by
  have nonEmpty := inv.trace_ne_nil
  have isNext : callee = e.tc.nextInstructionContext := by simp [nextInstructionContext, last]
  subst isNext
  have lengthPos := List.length_pos_iff.mpr nonEmpty
  have kept : ∀ i, i + 1 < e.tc.instructionTrace.length →
      ((e.tc.markNextInstruction calleeSum).reserveNextInstruction.pushInstructionIndex
        e.tc.getInstructionTraceLength).contextAt i = e.tc.contextAt i := by
    intro i before
    show (e.tc.markNextInstruction calleeSum).reserveNextInstruction.contextAt i = _
    rw [contextAt_reserveNextInstruction (by simp [markNextInstruction]; omega)]
    exact contextAt_modifyNextInstructionContext _ before
  have callee : ((e.tc.markNextInstruction calleeSum).reserveNextInstruction.pushInstructionIndex
      e.tc.getInstructionTraceLength).contextAt e.tc.getInstructionTraceLength =
      { e.tc.nextInstructionContext with
        nestingLevel := e.tc.instructionStack.length
        instructionAccountsLamportSum := calleeSum } := by
    have sameLength : (e.tc.markNextInstruction calleeSum).instructionTrace.length = e.tc.instructionTrace.length :=
      modifyNextInstructionContext_instructionTrace_length _
    rw [contextAt_pushInstructionIndex, getInstructionTraceLength, ← sameLength, contextAt_reserveNextInstruction_last
      (List.length_pos_iff.mp (sameLength ▸ lengthPos))]
    exact nextInstructionContext_modifyNextInstructionContext _ nonEmpty
  obtain ⟨recorded, inRange⟩ := instructionAccountsLamportSum_eq inv.next_wellFormed sum
  refine ⟨by simp [markNextInstruction, reserveNextInstruction, modifyNextInstructionContext], ?_, ?_, ?_, ?_⟩
  · refine List.rel_append (inv.frames.imp_of_mem_left (fun i mem _ frame => frame.congr ?_ (kept i (inv.inTrace mem))
      rfl fun _ _ => rfl) fun _ mem => mem) (List.Forall₂.cons ?_ .nil)
    · refine ⟨?_, ?_, ?_, by simp [markNextInstruction], ?_, fun _ _ => rfl⟩
      · simp [getInstructionTraceLength, markNextInstruction]
        omega
      · rw [callee]
        exact inv.next_wellFormed
      · rw [callee]
        exact inRange
      · rw [callee]
        exact recorded
    · simp [markNextInstruction]
  · simp only [pushInstructionIndex_instructionStack, List.map_append, List.map_singleton, callee]
    rw [List.map_congr_left fun i mem => by rw [kept i (inv.inTrace mem)], List.pairwise_append]
    refine ⟨inv.nested, List.pairwise_singleton _ _, fun outer mem inner isCallee => ?_⟩
    obtain ⟨i, onStack, rfl⟩ := List.mem_map.mp mem
    rw [List.mem_singleton.mp isCallee]
    exact inv.next_nested i onStack
  · simp only [nextInstructionContext_pushInstructionIndex, nextInstructionContext_reserveNextInstruction]
    decide
  · intro i _
    simp

theorem current (inv : e.Invariant) {i : Nat} (mem : i ∈ e.tc.instructionStack) :
    ∃ top, e.tc.instructionStack.getLast? = some top ∧
      e.tc.getCurrentInstructionContext = .ok (e.tc.contextAt top) := by
  obtain ⟨top, atTop⟩ := Option.ne_none_iff_exists'.mp (mt List.getLast?_eq_none_iff.mp (List.ne_nil_of_mem mem))
  have inTrace := inv.inTrace (List.mem_of_getLast? atTop)
  exact ⟨top, atTop, getCurrentInstructionContext_of_top atTop (by omega)⟩

theorem step_push (inv : e.Invariant) : (e.next .push).Invariant := by
  rcases push_cases (rfl : e.tc.push = _) with ⟨err, failed⟩ | ⟨callee, calleeSum, last, sum, marked | reserved | pushed⟩
  · simp only [next, ExecutionStep.run, ExecutionStep.recordLamports, failed, Mutation.stateAfter_error]
    exact inv
  · simp only [next, ExecutionStep.run, ExecutionStep.recordLamports, marked, Mutation.stateAfter_error]
    have next := nextInstructionContext_modifyNextInstructionContext
      (fun instructionContext => { instructionContext with
        nestingLevel := e.tc.instructionStack.length
        instructionAccountsLamportSum := calleeSum }) inv.trace_ne_nil
    refine inv.congr rfl (by simp [markNextInstruction]) (fun i before => contextAt_modifyNextInstructionContext _ before)
      rfl (fun _ _ _ _ => rfl) ?_ ?_
    · rw [markNextInstruction, next]
      exact inv.next_wellFormed
    · rw [markNextInstruction, next]
      exact inv.next_nested
  · simp only [next, ExecutionStep.run, ExecutionStep.recordLamports, reserved, Mutation.stateAfter_error]
    refine inv.congr rfl (by simp [markNextInstruction]) (fun i before => ?_) rfl (fun _ _ _ _ => rfl) ?_ ?_
    · rw [contextAt_reserveNextInstruction (by simp [markNextInstruction]; omega)]
      exact contextAt_modifyNextInstructionContext _ before
    · rw [nextInstructionContext_reserveNextInstruction]
      decide
    · intro i _
      simp
  · simp only [next, ExecutionStep.run, ExecutionStep.recordLamports, pushed, Mutation.stateAfter_ok]
    exact inv.pushInstructionIndex last sum

theorem step_pop (inv : e.Invariant) : (e.next .pop).Invariant := by
  rcases pop_cases (rfl : e.tc.pop = _) with ⟨empty, failed⟩ | ⟨nonEmpty, ⟨-, popped⟩ | ⟨err, failed⟩⟩
  · simp only [next, ExecutionStep.run, ExecutionStep.recordLamports, failed, Mutation.stateAfter_error, empty,
      List.isEmpty_nil, if_true]
    exact inv
  · simp only [next, ExecutionStep.run, ExecutionStep.recordLamports, popped, Mutation.stateAfter_ok,
      List.isEmpty_iff, nonEmpty, if_false]
    exact inv.popInstructionIndex
  · simp only [next, ExecutionStep.run, ExecutionStep.recordLamports, failed, Mutation.stateAfter_error,
      List.isEmpty_iff, nonEmpty, if_false]
    exact inv.popInstructionIndex

theorem step_configure (inv : e.Invariant) {programAccounts : List IndexOfAccount}
    {instructionAccounts : List InstructionAccount} {instructionData : List UInt8}
    (admissible : (ExecutionStep.configure programAccounts instructionAccounts instructionData).Admissible e.tc) :
    (e.next (.configure programAccounts instructionAccounts instructionData)).Invariant := by
  obtain ⟨wellFormed, withinCaller⟩ := admissible
  rcases configureNextInstruction_cases
    (rfl : configureNextInstruction programAccounts instructionAccounts instructionData e.tc = _) with
    ⟨-, failed⟩ | ⟨nonEmpty, configured⟩
  · simp only [next, ExecutionStep.run, ExecutionStep.recordLamports, failed, Mutation.stateAfter_error]
    exact inv
  simp only [next, ExecutionStep.run, ExecutionStep.recordLamports, configured, Mutation.stateAfter_ok]
  have next := nextInstructionContext_modifyNextInstructionContext
    (fun instructionContext => { instructionContext with
      programAccounts := programAccounts
      instructionAccounts := instructionAccounts
      instructionData := instructionData }) nonEmpty
  refine inv.congr rfl (by simp) (fun i before => contextAt_modifyNextInstructionContext _ before) rfl
    (fun _ _ _ _ => rfl) ?_ ?_
  · rw [next]
    exact wellFormed
  · intro i mem j configuredAccount
    rw [next] at configuredAccount
    obtain ⟨account, isConfigured, rfl⟩ := List.mem_map.mp (List.mem_toFinset.mp configuredAccount)
    obtain ⟨top, atTop, current⟩ := inv.current mem
    exact inv.top_nested atTop i mem (withinCaller _ current account isConfigured)

theorem step_borrowAndApply (inv : e.Invariant)
    {borrow : InstructionContext → TransactionContext → Except InstructionError BorrowedAccount}
    (op : BorrowedAccountOp)
    (confined : ∀ instructionContext borrowed, e.tc.getCurrentInstructionContext = .ok instructionContext →
      borrow instructionContext e.tc = .ok borrowed →
      borrowed.indexInTransaction ∈ accountIndices instructionContext ∨ borrowed.isWritable instructionContext = false) :
    Invariant ⟨Mutation.stateAfter (ExecutionStep.borrowAndApply borrow op e.tc), e.lamportsAtPush⟩ := by
  rcases ExecutionStep.borrowAndApply_cases (rfl : ExecutionStep.borrowAndApply borrow op e.tc = _) with
    ⟨err, failed⟩ | ⟨instructionContext, borrowed, account, delta, current, borrowOk, wrote, permitted⟩
  · rw [failed, Mutation.stateAfter_error]
    exact inv
  rw [wrote, Mutation.stateAfter_ok]
  refine inv.congr rfl le_rfl (fun _ _ => rfl) (by simp) (fun i mem j notIn => getD_lamports_of_permitted permitted ?_)
    inv.next_wellFormed inv.next_nested
  obtain ⟨top, atTop, -, rfl⟩ := getCurrentInstructionContext_ok current
  rcases confined _ _ current borrowOk with inside | readonly
  · exact .inl fun same => notIn (inv.top_nested atTop i mem (same ▸ inside))
  · exact .inr readonly

theorem step (inv : e.Invariant) {step : ExecutionStep} (admissible : step.Admissible e.tc) :
    (e.next step).Invariant := by
  cases step with
  | push => exact inv.step_push
  | pop => exact inv.step_pop
  | configure programAccounts instructionAccounts instructionData => exact inv.step_configure admissible
  | borrowInstructionAccount index op =>
    refine inv.step_borrowAndApply op fun instructionContext borrowed _ borrowOk => .inl ?_
    obtain ⟨account, entry, sameIndex, -, -⟩ := InstructionContext.tryBorrowInstructionAccount_ok borrowOk
    rw [sameIndex, accountIndices, List.mem_toFinset]
    exact List.mem_map_of_mem (List.mem_of_getElem? entry)
  | borrowProgramAccount index op =>
    refine inv.step_borrowAndApply op fun instructionContext borrowed _ borrowOk => .inr ?_
    obtain ⟨atIndex, isProgram, -⟩ := InstructionContext.tryBorrowProgramAccount_ok borrowOk
    exact BorrowedAccount.isWritable_of_programAccount (atIndex ▸ isProgram)

end Invariant

theorem start_invariant (transactionAccounts : List (Pubkey × AccountSharedData)) (isRentExempt : Nat → Nat → Bool)
    (instructionStackCapacity instructionTraceCapacity : Nat) :
    (start transactionAccounts isRentExempt instructionStackCapacity instructionTraceCapacity).Invariant where
  trace_ne_nil := List.cons_ne_nil _ _
  frames := .nil
  nested := .nil
  next_wellFormed := by
    show WellFormed []
    decide
  next_nested := fun _ mem => nomatch mem

theorem invariant_of_reachable {transactionAccounts : List (Pubkey × AccountSharedData)}
    {isRentExempt : Nat → Nat → Bool} {instructionStackCapacity instructionTraceCapacity : Nat} {e : Execution}
    (reach : StateMachine.Reachable Step
      (start transactionAccounts isRentExempt instructionStackCapacity instructionTraceCapacity) e) :
    e.Invariant :=
  StateMachine.Preserved.reachable (fun _ _ inv ⟨_, admissible, next⟩ => next ▸ inv.step admissible)
    (start_invariant _ _ _ _) reach

end Execution

/-- Whenever `pop` returns `Ok`, the popped instruction's accounts hold the lamports they held at its
push, and so do all accounts of the transaction together. -/
theorem pop_conserves_lamports {transactionAccounts : List (Pubkey × AccountSharedData)}
    {isRentExempt : Nat → Nat → Bool} {instructionStackCapacity instructionTraceCapacity : Nat} {e : Execution}
    (reach : StateMachine.Reachable Execution.Step
      (Execution.start transactionAccounts isRentExempt instructionStackCapacity instructionTraceCapacity) e)
    {tc : TransactionContext} (popped : e.tc.pop = .ok () tc) :
    ∃ instructionContext atPush, e.tc.getCurrentInstructionContext = .ok instructionContext ∧
      e.lamportsAtPush.getLast? = some atPush ∧
      accountsLamports instructionContext tc.lamports = accountsLamports instructionContext atPush ∧
      tc.lamports.sum = atPush.sum := by
  have inv := Execution.invariant_of_reachable reach
  rcases pop_cases popped with ⟨-, failed⟩ | ⟨-, ⟨balanced, poppedState⟩ | ⟨_, failed⟩⟩
  · cases failed
  · obtain ⟨instructionContext, current, sum⟩ := detectUnbalancedInstruction_eq_false balanced
    obtain ⟨top, atTop, -, rfl⟩ := getCurrentInstructionContext_ok current
    obtain ⟨atPush, last, frame⟩ := inv.frames.getLast? atTop
    have after : tc.lamports = e.tc.lamports := by
      cases poppedState
      rfl
    have inside : accountsLamports (e.tc.contextAt top) e.tc.lamports =
        accountsLamports (e.tc.contextAt top) atPush := by
      rw [← (instructionAccountsLamportSum_eq frame.wellFormed sum).1]
      exact frame.recorded
    refine ⟨_, atPush, current, last, ?_, ?_⟩
    · rw [after]
      exact inside
    · rw [after]
      exact frame.lamports_sum inside
  · cases failed

/-- Three lamports moved between the two writable accounts of a top-level instruction of program 9,
which is still on the stack. -/
def transferExecution : Execution :=
  ([.configure [2] [⟨0, 0, 0, true, true⟩, ⟨1, 1, 1, false, true⟩] [], .push,
      .borrowInstructionAccount 0 (.checkedSubLamports 3), .borrowInstructionAccount 1 (.checkedAddLamports 3)] :
      List ExecutionStep).foldl Execution.next
    (Execution.start [(5, ⟨10, [], 9, false⟩), (6, ⟨1, [], 9, false⟩), (9, ⟨1, [], 0, true⟩)] (fun _ _ => true) 4 8)

theorem pop_conserves_lamports_transfer :
    ∃ instructionContext atPush, transferExecution.tc.getCurrentInstructionContext = .ok instructionContext ∧
      transferExecution.lamportsAtPush.getLast? = some atPush ∧
      accountsLamports instructionContext transferExecution.tc.popInstructionIndex.lamports =
        accountsLamports instructionContext atPush ∧
      transferExecution.tc.popInstructionIndex.lamports.sum = atPush.sum := by
  have reach : StateMachine.Reachable Execution.Step
      (Execution.start [(5, ⟨10, [], 9, false⟩), (6, ⟨1, [], 9, false⟩), (9, ⟨1, [], 0, true⟩)] (fun _ _ => true) 4 8)
      transferExecution :=
    StateMachine.Reachable.foldl _ (StateMachine.Reachable.refl _ _)
      ⟨⟨by decide, fun _ current => nomatch current⟩, trivial, trivial, trivial, trivial⟩
  exact pop_conserves_lamports reach rfl

end Runtime
