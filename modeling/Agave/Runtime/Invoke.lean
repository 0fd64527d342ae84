import Mathlib
import Agave.Library.List
import Agave.Library.ExceptLoop
import Agave.Runtime.TransactionContext

namespace Runtime

structure AccountMeta where
  pubkey : Pubkey
  isSigner : Bool
  isWritable : Bool
  deriving DecidableEq, Repr

/-- The fields of `StableInstruction` that `prepare_instruction` reads. -/
structure StableInstruction where
  accounts : List AccountMeta
  programId : Pubkey
  deriving DecidableEq, Repr

/-- The features that `prepare_instruction` reads. -/
structure FeatureSet where
  liftCpiCallerRestriction : Bool
  removeAccountsExecutableFlagChecks : Bool
  deriving DecidableEq, Repr

/-- The instruction accounts that `MessageProcessor::process_message` builds for a top-level
instruction from the transaction indices of its accounts. -/
def topLevelInstructionAccounts (isSigner isWritable : IndexOfAccount → Bool) (accounts : List IndexOfAccount) :
    List InstructionAccount :=
  accounts.mapIdx fun instructionAccountIndex indexInTransaction =>
    let indexInCallee :=
      ((accounts.take instructionAccountIndex).findIdx? (· = indexInTransaction)).getD instructionAccountIndex
    ⟨indexInTransaction, indexInTransaction, indexInCallee, isSigner indexInTransaction, isWritable indexInTransaction⟩

namespace InvokeContext

section Prepare

variable (tc : TransactionContext) (caller : InstructionContext)

/-- One iteration of the loop of `prepare_instruction` that finds the account of each meta and
merges the privileges of duplicates into their first entry. -/
def deduplicateStep :
    List InstructionAccount × List Nat → AccountMeta × IndexOfAccount →
      Except InstructionError (List InstructionAccount × List Nat)
  | (deduplicated, duplicateIndices), (accountMeta, instructionAccountIndex) =>
    match tc.findIndexOfAccount accountMeta.pubkey with
    | none => .error .missingAccount
    | some indexInTransaction =>
      match deduplicated.findIdx? (·.indexInTransaction = indexInTransaction) with
      | some duplicateIndex =>
        match deduplicated[duplicateIndex]? with
        | none => .error .notEnoughAccountKeys
        | some account =>
          .ok (deduplicated.set duplicateIndex
                { account with
                  isSigner := account.isSigner || accountMeta.isSigner
                  isWritable := account.isWritable || accountMeta.isWritable },
            duplicateIndices ++ [duplicateIndex])
      | none =>
        match caller.findIndexOfInstructionAccount tc accountMeta.pubkey with
        | none => .error .missingAccount
        | some indexInCaller =>
          .ok (deduplicated ++
                [⟨indexInTransaction, indexInCaller, instructionAccountIndex, accountMeta.isSigner,
                  accountMeta.isWritable⟩],
            duplicateIndices ++ [deduplicated.length])

/-- The privilege check of `prepare_instruction` against the caller's entry of the account. -/
def checkPrivileges (signers : List Pubkey) (account : InstructionAccount) : Except InstructionError Unit := do
  let borrowed ← caller.tryBorrowInstructionAccount tc account.indexInCaller
  -- Readonly in caller cannot become writable in callee
  if account.isWritable && !borrowed.isWritable caller then throw .privilegeEscalation
  -- To be signed in the callee, it must be either signed in the caller or by the program
  if account.isSigner && !(borrowed.isSigner caller || signers.contains (borrowed.getKey tc)) then
    throw .privilegeEscalation

def getDeduplicated (deduplicated : List InstructionAccount) (duplicateIndex : Nat) :
    Except InstructionError InstructionAccount :=
  match deduplicated[duplicateIndex]? with
  | some account => .ok account
  | none => .error .notEnoughAccountKeys

/-- The program account of the callee: any account of the transaction once `lift_cpi_caller_restriction`
is active, otherwise an executable account of the caller. -/
def findProgramAccountIndex (featureSet : FeatureSet) (calleeProgramId : Pubkey) :
    Except InstructionError IndexOfAccount :=
  if featureSet.liftCpiCallerRestriction then
    match tc.findIndexOfProgramAccount calleeProgramId with
    | some programAccountIndex => .ok programAccountIndex
    | none => .error .missingAccount
  else
    match caller.findIndexOfInstructionAccount tc calleeProgramId with
    | none => .error .missingAccount
    | some programAccountIndex => do
      let borrowed ← caller.tryBorrowInstructionAccount tc programAccountIndex
      if !featureSet.removeAccountsExecutableFlagChecks && !(borrowed.getAccount tc).executable then
        throw .accountNotExecutable
      pure borrowed.indexInTransaction

end Prepare

def prepareInstruction (tc : TransactionContext) (featureSet : FeatureSet) (instruction : StableInstruction)
    (signers : List Pubkey) : Except InstructionError (List InstructionAccount × List IndexOfAccount) := do
  let instructionContext ← tc.getCurrentInstructionContext
  let (deduplicated, duplicateIndices) ←
    instruction.accounts.zipIdx.foldlM (deduplicateStep tc instructionContext) ([], [])
  deduplicated.forM (checkPrivileges tc instructionContext signers)
  let instructionAccounts ← duplicateIndices.mapM (getDeduplicated deduplicated)
  let programAccountIndex ← findProgramAccountIndex tc instructionContext featureSet instruction.programId
  pure (instructionAccounts, [programAccountIndex])

end InvokeContext

/-- Each entry names, as `index_in_callee`, the first entry of its account, and entries of one
account agree on their privileges. -/
structure WellFormed (accounts : List InstructionAccount) : Prop where
  indexInCallee_eq : ∀ i (h : i < accounts.length),
    accounts[i].indexInCallee = accounts.findIdx (·.indexInTransaction = accounts[i].indexInTransaction)
  privileges_eq : ∀ a ∈ accounts, ∀ b ∈ accounts, a.indexInTransaction = b.indexInTransaction →
    a.isSigner = b.isSigner ∧ a.isWritable = b.isWritable

instance (accounts : List InstructionAccount) : Decidable (WellFormed accounts) :=
  decidable_of_iff
    ((∀ i (h : i < accounts.length),
        accounts[i].indexInCallee = accounts.findIdx (·.indexInTransaction = accounts[i].indexInTransaction)) ∧
      ∀ a ∈ accounts, ∀ b ∈ accounts, a.indexInTransaction = b.indexInTransaction →
        a.isSigner = b.isSigner ∧ a.isWritable = b.isWritable)
    ⟨fun ⟨callee, privileges⟩ => ⟨callee, privileges⟩, fun ⟨callee, privileges⟩ => ⟨callee, privileges⟩⟩

/-- A list of instruction accounts is well-formed when it follows a list of keys entry by entry: the
transaction index of each entry is that of its key and of no other key of the list, its
`index_in_callee` is the first position of its key, and its privileges are those of its key. -/
theorem WellFormed.of_keys {κ : Type} [DecidableEq κ] {keys : List κ} {accounts : List InstructionAccount}
    (index : κ → IndexOfAccount) (signer writable : κ → Bool)
    (injective : ∀ k ∈ keys, ∀ k' ∈ keys, index k = index k' → k = k')
    (follows : List.Forall₂ (fun k a => a.indexInTransaction = index k ∧ a.indexInCallee = keys.findIdx (· = k) ∧
      a.isSigner = signer k ∧ a.isWritable = writable k) keys accounts) :
    WellFormed accounts := by
  constructor
  · intro i h
    have hk : i < keys.length := follows.length_eq ▸ h
    obtain ⟨atIndex, callee, -, -⟩ := follows.get hk h
    simp only [List.get_eq_getElem] at atIndex callee
    rw [callee]
    refine follows.findIdx_eq (fun k mem a rel => ?_) (List.Subset.refl _)
    rw [rel.1, atIndex]
    exact decide_eq_decide.mpr ⟨congrArg index, injective k mem _ (List.getElem_mem hk)⟩
  · intro a memA b memB same
    obtain ⟨k, memK, relA⟩ := follows.exists_of_mem_right memA
    obtain ⟨k', memK', relB⟩ := follows.exists_of_mem_right memB
    have sameKey : k = k' := injective k memK k' memK' (by rw [← relA.1, ← relB.1, same])
    subst sameKey
    exact ⟨relA.2.2.1.trans relB.2.2.1.symm, relA.2.2.2.trans relB.2.2.2.symm⟩

theorem topLevelInstructionAccounts_wellFormed (isSigner isWritable : IndexOfAccount → Bool)
    (indices : List IndexOfAccount) : WellFormed (topLevelInstructionAccounts isSigner isWritable indices) := by
  have follows : List.Forall₂ (fun k a => a.indexInTransaction = id k ∧ a.indexInCallee = indices.findIdx (· = k) ∧
      a.isSigner = isSigner k ∧ a.isWritable = isWritable k) indices
      (topLevelInstructionAccounts isSigner isWritable indices) := by
    refine List.forall₂_iff_get.mpr ⟨by simp [topLevelInstructionAccounts], fun i h₁ h₂ => ?_⟩
    have callee := List.getD_findIdx?_take h₁ (p := (· = indices[i])) (by simp)
    simp only [topLevelInstructionAccounts, List.get_eq_getElem, List.getElem_mapIdx, id]
    exact ⟨trivial, callee, trivial, trivial⟩
  exact WellFormed.of_keys id isSigner isWritable (fun _ _ _ _ same => same) follows

example : (topLevelInstructionAccounts (· = 4) (fun _ => true) [4, 7, 4]).map (·.indexInCallee) = [0, 1, 0] := by
  decide

namespace InvokeContext

/-- The entry that `prepare_instruction` builds for the account with `pubkey` from the metas `metas`. -/
def mergedAccount (metas : List AccountMeta) (pubkey : Pubkey) (indexInTransaction indexInCaller : IndexOfAccount) :
    InstructionAccount :=
  ⟨indexInTransaction, indexInCaller, metas.findIdx (·.pubkey = pubkey),
    metas.any (fun m => m.pubkey = pubkey && m.isSigner), metas.any (fun m => m.pubkey = pubkey && m.isWritable)⟩

section Merge

variable {done : List AccountMeta} {m : AccountMeta} {pubkey : Pubkey} {t c : IndexOfAccount}

theorem mergedAccount_append_of_ne (occurs : ∃ m' ∈ done, m'.pubkey = pubkey) (other : m.pubkey ≠ pubkey) :
    mergedAccount (done ++ [m]) pubkey t c = mergedAccount done pubkey t c := by
  have found : done.findIdx (·.pubkey = pubkey) < done.length := List.findIdx_lt_length.mpr (by simpa using occurs)
  simp [mergedAccount, List.findIdx_append, found, other]

theorem mergedAccount_append_self (occurs : ∃ m' ∈ done, m'.pubkey = m.pubkey) :
    mergedAccount (done ++ [m]) m.pubkey t c =
      { mergedAccount done m.pubkey t c with
        isSigner := (mergedAccount done m.pubkey t c).isSigner || m.isSigner
        isWritable := (mergedAccount done m.pubkey t c).isWritable || m.isWritable } := by
  have found : done.findIdx (·.pubkey = m.pubkey) < done.length := List.findIdx_lt_length.mpr (by simpa using occurs)
  simp [mergedAccount, List.findIdx_append, found]

theorem mergedAccount_append_new (fresh : ∀ m' ∈ done, m'.pubkey ≠ m.pubkey) :
    mergedAccount (done ++ [m]) m.pubkey t c = ⟨t, c, done.length, m.isSigner, m.isWritable⟩ := by
  have notFound : done.findIdx (·.pubkey = m.pubkey) = done.length := List.findIdx_eq_length.mpr (by simpa using fresh)
  have noSigner : done.any (fun m' => m'.pubkey = m.pubkey && m'.isSigner) = false := by
    simpa using fun m' mem same => absurd same (fresh m' mem)
  have noWriter : done.any (fun m' => m'.pubkey = m.pubkey && m'.isWritable) = false := by
    simpa using fun m' mem same => absurd same (fresh m' mem)
  simp only [mergedAccount, List.findIdx_append, notFound, Nat.lt_irrefl, if_false, List.any_append, noSigner,
    noWriter, Bool.false_or]
  simp

end Merge

section Deduplicate

variable (tc : TransactionContext) (caller : InstructionContext)

/-- `entry` is the merged entry of the account of `accountMeta`, found both in the transaction and
in the caller. -/
def MergedAt (metas : List AccountMeta) (accountMeta : AccountMeta) (entry : Option InstructionAccount) : Prop :=
  ∃ indexInTransaction indexInCaller, tc.findIndexOfAccount accountMeta.pubkey = some indexInTransaction ∧
    caller.findIndexOfInstructionAccount tc accountMeta.pubkey = some indexInCaller ∧
    entry = some (mergedAccount metas accountMeta.pubkey indexInTransaction indexInCaller)

/-- The invariant of the deduplication loop after the metas `done`: one entry per account, and the
duplicate index of each meta points at the merged entry of its account. -/
structure Deduplicated (done : List AccountMeta) (acc : List InstructionAccount × List Nat) : Prop where
  nodup : (acc.1.map (·.indexInTransaction)).Nodup
  merged : List.Forall₂ (fun m d => MergedAt tc caller done m acc.1[d]?) done acc.2
  referenced : ∀ d < acc.1.length, d ∈ acc.2

variable {tc caller}
variable {done : List AccountMeta} {deduplicated : List InstructionAccount} {duplicateIndices : List Nat}
  {m : AccountMeta} {t : IndexOfAccount}

theorem Deduplicated.merge {d : Nat} {e : InstructionAccount}
    (inv : Deduplicated tc caller done (deduplicated, duplicateIndices))
    (found : tc.findIndexOfAccount m.pubkey = some t)
    (duplicate : deduplicated.findIdx? (·.indexInTransaction = t) = some d) (entry : deduplicated[d]? = some e) :
    Deduplicated tc caller (done ++ [m])
      (deduplicated.set d
          { e with
            isSigner := e.isSigner || m.isSigner
            isWritable := e.isWritable || m.isWritable },
        duplicateIndices ++ [d]) := by
  obtain ⟨bound, atD, -⟩ := List.findIdx?_eq_some_iff_getElem.mp duplicate
  have atT : deduplicated[d].indexInTransaction = t := by simpa using atD
  have entryIndex : e.indexInTransaction = t := by
    rw [List.getElem?_eq_getElem bound, Option.some.injEq] at entry
    rw [← entry, atT]
  obtain ⟨m', mem', merged'⟩ := inv.merged.exists_of_mem_right (inv.referenced d bound)
  obtain ⟨t', c', found', callerFound', entry'⟩ := merged'
  rw [entry, Option.some.injEq] at entry'
  have sameIndex : t' = t := by rw [← entryIndex, entry']; rfl
  have sameKey : m'.pubkey = m.pubkey := TransactionContext.findIndexOfAccount_inj found' (sameIndex ▸ found)
  rw [sameIndex, sameKey] at entry'
  rw [sameKey] at callerFound'
  subst entry'
  refine ⟨?_, List.rel_append ?_ (.cons ⟨t, c', found, callerFound', ?_⟩ .nil), ?_⟩
  · have keep : (deduplicated.set d
          { mergedAccount done m.pubkey t c' with
            isSigner := (mergedAccount done m.pubkey t c').isSigner || m.isSigner
            isWritable := (mergedAccount done m.pubkey t c').isWritable || m.isWritable }).map
          (·.indexInTransaction) = deduplicated.map (·.indexInTransaction) := by
      have boundMap : d < (deduplicated.map (·.indexInTransaction)).length := by simpa using bound
      rw [List.map_set]
      convert List.set_getElem_self boundMap
      simpa [mergedAccount] using atT.symm
    simpa [keep] using inv.nodup
  · refine inv.merged.imp_of_mem_left (fun m'' mem'' d'' merged'' => ?_) (List.Subset.refl _)
    obtain ⟨t'', c'', found'', callerFound'', entry''⟩ := merged''
    by_cases same : m''.pubkey = m.pubkey
    · have sameT : t'' = t := Option.some.inj (found''.symm.trans (same ▸ found))
      have sameC : c'' = c' := Option.some.inj (callerFound''.symm.trans (same ▸ callerFound'))
      rw [sameT, sameC, same] at entry''
      have sameD : d'' = d := inv.nodup.index_eq_of_map entry'' entry rfl
      refine ⟨t, c', same ▸ found, same ▸ callerFound', ?_⟩
      rw [sameD, List.getElem?_set_self bound, same, mergedAccount_append_self ⟨m', mem', sameKey⟩]
    · have other : d ≠ d'' := by
        rintro rfl
        rw [entry, Option.some.injEq] at entry''
        have sameT : t'' = t := congrArg InstructionAccount.indexInTransaction entry''.symm
        exact same (TransactionContext.findIndexOfAccount_inj found'' (sameT ▸ found))
      refine ⟨t'', c'', found'', callerFound'', ?_⟩
      rw [List.getElem?_set_ne other, entry'', mergedAccount_append_of_ne ⟨m'', mem'', rfl⟩ (Ne.symm same)]
  · rw [List.getElem?_set_self bound, mergedAccount_append_self ⟨m', mem', sameKey⟩]
  · intro d'' lt
    rw [List.length_set] at lt
    exact List.mem_append_left _ (inv.referenced d'' lt)

theorem Deduplicated.push {c : IndexOfAccount} (inv : Deduplicated tc caller done (deduplicated, duplicateIndices))
    (found : tc.findIndexOfAccount m.pubkey = some t)
    (fresh : deduplicated.findIdx? (·.indexInTransaction = t) = none)
    (callerFound : caller.findIndexOfInstructionAccount tc m.pubkey = some c) :
    Deduplicated tc caller (done ++ [m])
      (deduplicated ++ [⟨t, c, done.length, m.isSigner, m.isWritable⟩], duplicateIndices ++ [deduplicated.length]) := by
  have absent : ∀ e ∈ deduplicated, e.indexInTransaction ≠ t := by
    simpa using List.findIdx?_eq_none_iff.mp fresh
  have new : ∀ m' ∈ done, m'.pubkey ≠ m.pubkey := by
    intro m' mem' same
    obtain ⟨d', -, t', c', found', -, entry'⟩ := inv.merged.exists_of_mem_left mem'
    have sameT : t' = t := Option.some.inj (found'.symm.trans (same ▸ found))
    exact absent _ (List.mem_of_getElem? entry') sameT
  refine ⟨?_, List.rel_append ?_ (.cons ⟨t, c, found, callerFound, ?_⟩ .nil), ?_⟩
  · simpa [List.nodup_append] using ⟨inv.nodup, absent⟩
  · refine inv.merged.imp_of_mem_left (fun m'' mem'' d'' merged'' => ?_) (List.Subset.refl _)
    obtain ⟨t'', c'', found'', callerFound'', entry''⟩ := merged''
    have bound'' : d'' < deduplicated.length := (List.getElem?_eq_some_iff.mp entry'').1
    refine ⟨t'', c'', found'', callerFound'', ?_⟩
    rw [List.getElem?_append_left bound'', entry'',
      mergedAccount_append_of_ne ⟨m'', mem'', rfl⟩ (Ne.symm (new m'' mem''))]
  · rw [List.getElem?_concat_length, mergedAccount_append_new new]
  · intro d lt
    rw [List.length_append, List.length_singleton] at lt
    rcases Nat.lt_succ_iff_lt_or_eq.mp lt with lt | rfl
    · exact List.mem_append_left _ (inv.referenced d lt)
    · simp

theorem deduplicateStep_deduplicated {acc acc' : List InstructionAccount × List Nat}
    (inv : Deduplicated tc caller done acc) (ok : deduplicateStep tc caller acc (m, done.length) = .ok acc') :
    Deduplicated tc caller (done ++ [m]) acc' := by
  obtain ⟨deduplicated, duplicateIndices⟩ := acc
  unfold deduplicateStep at ok
  cases found : tc.findIndexOfAccount m.pubkey with
  | none => simp [found] at ok
  | some t =>
    cases duplicate : deduplicated.findIdx? (·.indexInTransaction = t) with
    | some d =>
      cases entry : deduplicated[d]? with
      | none => simp [found, duplicate, entry] at ok
      | some e =>
        simp only [found, duplicate, entry, Except.ok.injEq] at ok
        rw [← ok]
        exact inv.merge found duplicate entry
    | none =>
      cases callerFound : caller.findIndexOfInstructionAccount tc m.pubkey with
      | none => simp [found, duplicate, callerFound] at ok
      | some c =>
        simp only [found, duplicate, callerFound, Except.ok.injEq] at ok
        rw [← ok]
        exact inv.push found duplicate callerFound

theorem deduplicate_loop {metas : List AccountMeta} {acc : List InstructionAccount × List Nat}
    (ok : metas.zipIdx.foldlM (deduplicateStep tc caller) ([], []) = .ok acc) : Deduplicated tc caller metas acc := by
  have start : Deduplicated tc caller [] ([], []) := ⟨List.nodup_nil, .nil, fun _ lt => absurd lt (Nat.not_lt_zero _)⟩
  simpa using ExceptLoop.foldlM_zipIdx_invariant (Deduplicated tc caller)
    (fun _ _ _ _ inv step => deduplicateStep_deduplicated inv step) metas [] start ok

theorem checkPrivileges_ok {signers : List Pubkey} {account : InstructionAccount}
    (ok : checkPrivileges tc caller signers account = .ok ()) :
    ∃ entry, caller.instructionAccounts[account.indexInCaller]? = some entry ∧
      (account.isWritable → entry.isWritable) ∧
      (account.isSigner → entry.isSigner ∨ tc.accountKeys.getD entry.indexInTransaction 0 ∈ signers) := by
  simp only [checkPrivileges, ExceptLoop.bind_eq_ok] at ok
  obtain ⟨borrowed, borrow, ok⟩ := ok
  obtain ⟨entry, atEntry, inTransaction, inInstruction, -⟩ := InstructionContext.tryBorrowInstructionAccount_ok borrow
  have writable : borrowed.isWritable caller = entry.isWritable :=
    BorrowedAccount.instructionAccountPrivilege_of_entry atEntry inInstruction
  have signer : borrowed.isSigner caller = entry.isSigner :=
    BorrowedAccount.instructionAccountPrivilege_of_entry atEntry inInstruction
  have key : borrowed.getKey tc = tc.accountKeys.getD entry.indexInTransaction 0 := by
    rw [BorrowedAccount.getKey, inTransaction]
  rw [writable, signer, key] at ok
  refine ⟨entry, atEntry, fun isWritable => ?_, fun isSigner => ?_⟩
  · cases escalated : entry.isWritable
    · simp [isWritable, escalated, ExceptLoop.bind_eq_ok] at ok
    · rfl
  · by_contra escalated
    simp only [not_or, Bool.not_eq_true, List.getD_eq_getElem?_getD] at escalated
    cases atSigner : account.isWritable <;> cases atWritable : entry.isWritable <;>
      simp [isSigner, escalated, atSigner, atWritable, ExceptLoop.bind_eq_ok] at ok

theorem getDeduplicated_ok {index : Nat} {account : InstructionAccount}
    (ok : getDeduplicated deduplicated index = .ok account) : deduplicated[index]? = some account := by
  unfold getDeduplicated at ok
  split at ok
  · rename_i found
    rw [found, Except.ok.inj ok]
  · cases ok

end Deduplicate

/-- What `prepare_instruction` returns for each meta: the merged entry of its account, which passed
the privilege check. -/
def Prepared (tc : TransactionContext) (caller : InstructionContext) (signers : List Pubkey)
    (metas : List AccountMeta) (accounts : List InstructionAccount) : Prop :=
  List.Forall₂ (fun m a => MergedAt tc caller metas m (some a) ∧ checkPrivileges tc caller signers a = .ok ())
    metas accounts

theorem prepareInstruction_ok {tc : TransactionContext} {featureSet : FeatureSet} {instruction : StableInstruction}
    {signers : List Pubkey} {accounts : List InstructionAccount} {programIndices : List IndexOfAccount}
    (ok : prepareInstruction tc featureSet instruction signers = .ok (accounts, programIndices)) :
    ∃ caller, tc.getCurrentInstructionContext = .ok caller ∧ Prepared tc caller signers instruction.accounts accounts := by
  simp only [prepareInstruction, ExceptLoop.bind_eq_ok] at ok
  obtain ⟨caller, current, acc, loop, finished, checked, mapped, lookedUp, index, -, done⟩ := ok
  have same : mapped = accounts := by
    simp only [pure, Except.pure, Except.ok.injEq, Prod.mk.injEq] at done
    exact done.1
  subst same
  have checks := ExceptLoop.forall_of_forM_eq_ok checked
  refine ⟨caller, current, ((deduplicate_loop loop).merged.compose
    (ExceptLoop.forall₂_of_mapM_eq_ok lookedUp)).imp fun m a ⟨d, merged, lookup⟩ => ?_⟩
  have entry := getDeduplicated_ok lookup
  rw [entry] at merged
  exact ⟨merged, checks a (List.mem_of_getElem? entry)⟩

section Prepared

variable {tc : TransactionContext} {caller : InstructionContext} {signers : List Pubkey}
  {metas : List AccountMeta} {accounts : List InstructionAccount}

theorem Prepared.entry (prepared : Prepared tc caller signers metas accounts) {i : Nat} (h : i < accounts.length)
    (hm : i < metas.length) :
    ∃ t c, tc.findIndexOfAccount metas[i].pubkey = some t ∧
      caller.findIndexOfInstructionAccount tc metas[i].pubkey = some c ∧
      accounts[i] = mergedAccount metas metas[i].pubkey t c ∧ checkPrivileges tc caller signers accounts[i] = .ok () := by
  obtain ⟨⟨t, c, found, callerFound, entry⟩, checked⟩ := prepared.get hm h
  simp only [List.get_eq_getElem] at found callerFound entry checked
  exact ⟨t, c, found, callerFound, Option.some.inj entry, checked⟩

theorem Prepared.wellFormed (prepared : Prepared tc caller signers metas accounts) : WellFormed accounts := by
  have found : ∀ k ∈ metas.map (·.pubkey), ∃ t, tc.findIndexOfAccount k = some t := by
    intro k mem
    obtain ⟨m, memMetas, rfl⟩ := List.mem_map.mp mem
    obtain ⟨a, -, ⟨t, -, found, -⟩, -⟩ := prepared.exists_of_mem_left memMetas
    exact ⟨t, found⟩
  have follows : List.Forall₂ (fun k a => a.indexInTransaction = (tc.findIndexOfAccount k).getD 0 ∧
      a.indexInCallee = (metas.map (·.pubkey)).findIdx (· = k) ∧
      a.isSigner = metas.any (fun m => m.pubkey = k && m.isSigner) ∧
      a.isWritable = metas.any (fun m => m.pubkey = k && m.isWritable)) (metas.map (·.pubkey)) accounts := by
    refine List.forall₂_map_left_iff.mpr (prepared.imp fun m a ⟨⟨t, c, found, _, entry⟩, _⟩ => ?_)
    rw [Option.some.inj entry]
    simp [mergedAccount, found, List.findIdx_map, Function.comp_def]
  refine WellFormed.of_keys _ _ _ (fun k mem k' mem' same => ?_) follows
  obtain ⟨t, atK⟩ := found k mem
  obtain ⟨t', atK'⟩ := found k' mem'
  rw [atK, atK', Option.getD_some, Option.getD_some] at same
  exact TransactionContext.findIndexOfAccount_inj atK (same ▸ atK')

/-- Against the caller, with distinct keys and a well-formed caller: the entry named by
`index_in_caller` holds the same account, and no entry of the account in the caller has less
privilege. -/
theorem Prepared.callerEntry (nodup : tc.accountKeys.Nodup) (callerWellFormed : WellFormed caller.instructionAccounts)
    (prepared : Prepared tc caller signers metas accounts) {i : Nat} (h : i < accounts.length)
    (hm : i < metas.length) :
    caller.instructionAccounts[accounts[i].indexInCaller]?.map (·.indexInTransaction) =
        some accounts[i].indexInTransaction ∧
      ∀ entry ∈ caller.instructionAccounts, entry.indexInTransaction = accounts[i].indexInTransaction →
        (accounts[i].isWritable → entry.isWritable) ∧ (accounts[i].isSigner → entry.isSigner ∨ metas[i].pubkey ∈ signers) := by
  obtain ⟨t, c, found, callerFound, atI, checked⟩ := prepared.entry h hm
  obtain ⟨first, atFirst, writable, signer⟩ := checkPrivileges_ok checked
  obtain ⟨first', atFirst', key⟩ := InstructionContext.findIndexOfInstructionAccount_entry callerFound
  have indexInCaller : accounts[i].indexInCaller = c := by rw [atI]; rfl
  have indexInTransaction : accounts[i].indexInTransaction = t := by rw [atI]; rfl
  rw [indexInCaller, atFirst', Option.some.injEq] at atFirst
  subst atFirst
  have firstIndex : first'.indexInTransaction = t :=
    Option.some.inj ((TransactionContext.findIndexOfAccount_of_key nodup key).symm.trans found)
  refine ⟨by simp [indexInCaller, atFirst', firstIndex, indexInTransaction], fun entry mem same => ?_⟩
  obtain ⟨sameSigner, sameWritable⟩ := callerWellFormed.privileges_eq entry mem first' (List.mem_of_getElem? atFirst')
    (by rw [same, indexInTransaction, firstIndex])
  have keyFirst : tc.accountKeys.getD first'.indexInTransaction 0 = metas[i].pubkey := by
    simp [List.getD_eq_getElem?_getD, key]
  refine ⟨fun isWritable => sameWritable ▸ writable isWritable, fun isSigner => ?_⟩
  rcases signer isSigner with signed | bySigners
  · exact .inl (sameSigner ▸ signed)
  · exact .inr (keyFirst ▸ bySigners)

end Prepared

end InvokeContext

open InvokeContext in
theorem prepareInstruction_no_privilege_escalation :
    (∀ (isSigner isWritable : IndexOfAccount → Bool) (indices : List IndexOfAccount),
      WellFormed (topLevelInstructionAccounts isSigner isWritable indices)) ∧
    ∀ (tc : TransactionContext) (caller : InstructionContext) (featureSet : FeatureSet)
      (instruction : StableInstruction) (signers : List Pubkey) (accounts : List InstructionAccount)
      (programIndices : List IndexOfAccount),
      tc.accountKeys.Nodup → tc.getCurrentInstructionContext = .ok caller → WellFormed caller.instructionAccounts →
      prepareInstruction tc featureSet instruction signers = .ok (accounts, programIndices) →
      WellFormed accounts ∧ accounts.length = instruction.accounts.length ∧
      ∀ i (h : i < accounts.length) (hm : i < instruction.accounts.length),
        tc.accountKeys[accounts[i].indexInTransaction]? = some instruction.accounts[i].pubkey ∧
        accounts[i].isSigner =
          instruction.accounts.any (fun m => m.pubkey = instruction.accounts[i].pubkey && m.isSigner) ∧
        accounts[i].isWritable =
          instruction.accounts.any (fun m => m.pubkey = instruction.accounts[i].pubkey && m.isWritable) ∧
        caller.instructionAccounts[accounts[i].indexInCaller]?.map (·.indexInTransaction) =
          some accounts[i].indexInTransaction ∧
        ∀ entry ∈ caller.instructionAccounts, entry.indexInTransaction = accounts[i].indexInTransaction →
          (accounts[i].isWritable → entry.isWritable) ∧
          (accounts[i].isSigner → entry.isSigner ∨ instruction.accounts[i].pubkey ∈ signers) := by
  refine ⟨topLevelInstructionAccounts_wellFormed, fun tc caller featureSet instruction signers accounts programIndices
    nodup current callerWellFormed ok => ?_⟩
  obtain ⟨caller', current', prepared⟩ := prepareInstruction_ok ok
  rw [current, Except.ok.injEq] at current'
  subst current'
  refine ⟨prepared.wellFormed, prepared.length_eq.symm, fun i h hm => ?_⟩
  obtain ⟨t, c, found, -, atI, -⟩ := prepared.entry h hm
  refine ⟨?_, by rw [atI]; rfl, by rw [atI]; rfl, prepared.callerEntry nodup callerWellFormed h hm⟩
  rw [atI]
  exact TransactionContext.findIndexOfAccount_key found

/-- A meta repeated with another privilege is merged into the entry of its first occurrence. -/
theorem prepareInstruction_no_privilege_escalation_merged :
    InvokeContext.prepareInstruction
        ⟨[10, 11, 12, 13], [⟨1, [], 0, false⟩, ⟨1, [], 0, false⟩, ⟨1, [], 0, false⟩, ⟨1, [], 0, true⟩], rfl, 8, 64,
          [0], [⟨1, 0, [3], [⟨0, 0, 0, true, true⟩, ⟨1, 1, 1, false, true⟩, ⟨2, 2, 2, false, false⟩,
            ⟨3, 3, 3, false, false⟩], []⟩], 0, false, fun _ _ => true⟩
        ⟨false, false⟩ ⟨[⟨11, false, false⟩, ⟨10, true, false⟩, ⟨11, false, true⟩], 13⟩ [] =
      .ok ([⟨1, 1, 0, false, true⟩, ⟨0, 0, 1, true, false⟩, ⟨1, 1, 0, false, true⟩], [3]) ∧
    WellFormed [⟨1, 1, 0, false, true⟩, ⟨0, 0, 1, true, false⟩, ⟨1, 1, 0, false, true⟩] := by
  refine ⟨?ok, (prepareInstruction_no_privilege_escalation.2 _ _ _ _ _ _ _ (by decide) rfl (by decide) ?ok).1⟩
  rfl

end Runtime
