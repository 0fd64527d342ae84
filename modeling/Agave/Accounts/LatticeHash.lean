import Mathlib
import Agave.Library.ParallelFold

/-! The accounts lattice hash: the sum, over all pubkeys, of a 1024-element vector of `u16`s hashed
from each account, kept up to date when a bank is frozen by mixing out the previous version of each
account written in the slot and mixing in its current one. The previous version comes from the
lattice-hash cache filled while transactions ran, or is loaded from the ancestors; the per-account
deltas are summed by a parallel fold over chunks of the slot's accounts. The blake3 XOF of an
account's fields is a parameter, `hasher`: nothing proved here depends on it. -/

namespace LatticeHash

open ParallelFold

def numElements : Nat := 1024

/-- `LtHash`: the `[u16; NUM_ELEMENTS]` array as a function of the index. -/
abbrev LtHash := Fin numElements → UInt16

namespace LtHash

def identity : LtHash := fun _ => 0

/-- `mix_in`: element-wise `wrapping_add`. -/
def mixIn (self other : LtHash) : LtHash := fun i => self i + other i

/-- `mix_out`: element-wise `wrapping_sub`. -/
def mixOut (self other : LtHash) : LtHash := fun i => self i - other i

/-! Wrapping `u16` arithmetic is the ring `UInt16`, so the hashes form the group `(ℤ/2¹⁶)¹⁰²⁴`,
with `mix_in` its addition and `mix_out` its subtraction. -/

@[simp] theorem identity_eq_zero : identity = 0 := rfl

@[simp] theorem mixIn_eq_add (self other : LtHash) : mixIn self other = self + other := rfl

@[simp] theorem mixOut_eq_sub (self other : LtHash) : mixOut self other = self - other := rfl

end LtHash

open LtHash

variable {K : Type}

/-- An account as `ReadableAccount` shows it. -/
structure AccountSharedData (K : Type) where
  lamports : Nat
  data : List UInt8
  owner : K
  executable : Bool
  rentEpoch : Nat
  deriving DecidableEq, Repr

variable [DecidableEq K]

/-- `accounts_equal`: the same lamports, executable flag, rent epoch, owner and data. -/
def accountsEqual (me other : AccountSharedData K) : Bool :=
  decide (me.lamports = other.lamports ∧ me.executable = other.executable ∧ me.rentEpoch = other.rentEpoch ∧
    me.owner = other.owner ∧ me.data = other.data)

theorem eq_of_accountsEqual {me other : AccountSharedData K} (equal : accountsEqual me other = true) :
    me = other := by
  obtain ⟨lamports, executable, rentEpoch, owner, data⟩ := of_decide_eq_true equal
  cases me
  cases other
  simp_all

/-- `AccountsDb::lt_hash_account`: the identity for an account with no lamports, else the hash of its
fields and pubkey. -/
def ltHashAccount (hasher : AccountSharedData K → K → LtHash) (account : AccountSharedData K) (pubkey : K) :
    LtHash :=
  if account.lamports = 0 then identity else hasher account pubkey

inductive InitialStateOfAccount (K : Type)
  | dead
  | alive (account : AccountSharedData K)
  deriving DecidableEq, Repr

inductive CacheValue (K : Type)
  | inspectAccount (initialStateOfAccount : InitialStateOfAccount K)
  | bankNew
  deriving DecidableEq, Repr

/-- The counters of `calculate_delta_lt_hash`'s statistics. -/
structure Stats where
  numCacheMisses : Nat
  numAccountsUnmodified : Nat
  deriving DecidableEq, Repr

instance : Inhabited Stats := ⟨⟨0, 0⟩⟩

/-- `Stats::add_assign`. -/
def Stats.addAssign (self other : Stats) : Stats :=
  ⟨self.numCacheMisses + other.numCacheMisses, self.numAccountsUnmodified + other.numAccountsUnmodified⟩

/-- The parts of a bank that its accounts lattice hash reads and writes. -/
structure Bank (K : Type) where
  slot : Nat
  accountsLtHash : LtHash
  cacheForAccountsLtHash : K → Option (CacheValue K)

section Delta

variable (hasher : AccountSharedData K → K → LtHash) (cache : K → Option (CacheValue K))
  (load : K → Option (AccountSharedData K))

/-- The initial state of an account, and whether the cache missed: the cache's, unless it has none
or only `BankNew`, when the account is loaded from the strict ancestors. -/
def initialStateOfAccount (pubkey : K) : InitialStateOfAccount K × Bool :=
  match cache pubkey with
  | some (.inspectAccount initialStateOfAccount) => (initialStateOfAccount, false)
  | some .bankNew | none =>
    (match load pubkey with
      | some account => .alive account
      | none => .dead, true)

/-- One step of the fold over a chunk: mix out the previous version of the account, unless it was
dead, and mix in the current one; an account that did not change is skipped. -/
def foldAccount (accum : LtHash × Stats) (entry : K × AccountSharedData K) : LtHash × Stats :=
  let (pubkey, currAccount) := entry
  let (initial, missed) := initialStateOfAccount cache load pubkey
  let stats := if missed then { accum.2 with numCacheMisses := accum.2.numCacheMisses + 1 } else accum.2
  match initial with
  | .dead => (accum.1.mixIn (ltHashAccount hasher currAccount pubkey), stats)
  | .alive prevAccount =>
    if accountsEqual currAccount prevAccount then
      (accum.1, { stats with numAccountsUnmodified := stats.numAccountsUnmodified + 1 })
    else ((accum.1.mixOut (ltHashAccount hasher prevAccount pubkey)).mixIn (ltHashAccount hasher currAccount pubkey),
      stats)

/-- The combination of two chunks' results in the `reduce`. -/
def reduceAccum (accum elem : LtHash × Stats) : LtHash × Stats :=
  (accum.1.mixIn elem.1, accum.2.addAssign elem.2)

/-- `calculate_delta_lt_hash`, from the cache it reads: the results the parallel fold over the
slot's accounts may give, whatever the chunks and the shape of the reduction. -/
def CalculateDeltaLtHash (accountsCurr : List (K × AccountSharedData K)) (result : LtHash × Stats) : Prop :=
  FoldChunks (foldAccount hasher cache load) reduceAccum (identity, default) accountsCurr result

end Delta

namespace Bank

/-- The cache as `calculate_delta_lt_hash` reads it: in slot 0 no account was alive before, so the
entries that transaction processing cached are dropped. -/
def cacheForDelta (bank : Bank K) : K → Option (CacheValue K) :=
  if bank.slot = 0 then fun _ => none else bank.cacheForAccountsLtHash

/-- `update_accounts_lt_hash`, with `load` the loader from the strict ancestors: the banks it may
leave, one for each schedule of the delta's parallel fold. -/
def UpdateAccountsLtHash (hasher : AccountSharedData K → K → LtHash) (bank : Bank K)
    (load : K → Option (AccountSharedData K)) (accountsCurr : List (K × AccountSharedData K)) (bank' : Bank K) :
    Prop :=
  ∃ delta : LtHash × Stats, CalculateDeltaLtHash hasher bank.cacheForDelta load accountsCurr delta ∧
    bank' = ⟨bank.slot, mixIn bank.accountsLtHash delta.1, bank.cacheForDelta⟩

end Bank

/-! The specification: the lattice hash of a whole state of the accounts, from scratch. -/

section Spec

variable (hasher : AccountSharedData K → K → LtHash)

/-- The hash a pubkey contributes with what it holds: nothing when its account is dead. -/
def ltHashOf (account : Option (AccountSharedData K)) (pubkey : K) : LtHash :=
  match account with
  | some account => ltHashAccount hasher account pubkey
  | none => identity

/-- The accounts lattice hash of a state, summed over every pubkey. -/
def stateLtHash [Fintype K] (state : K → Option (AccountSharedData K)) : LtHash :=
  ∑ pubkey, ltHashOf hasher (state pubkey) pubkey

/-- The state after the slot's writes. -/
def applyWrites (state : K → Option (AccountSharedData K)) (accountsCurr : List (K × AccountSharedData K)) :
    K → Option (AccountSharedData K) :=
  accountsCurr.foldr (fun entry state => Function.update state entry.1 (some entry.2)) state

namespace InitialStateOfAccount

/-- The initial state an account had in `state`. -/
def ofState (state : K → Option (AccountSharedData K)) (pubkey : K) : InitialStateOfAccount K :=
  match state pubkey with
  | some account => .alive account
  | none => .dead

/-- The account an initial state holds. -/
def account : InitialStateOfAccount K → Option (AccountSharedData K)
  | .dead => none
  | .alive account => some account

omit [DecidableEq K] in
@[simp] theorem account_ofState (state : K → Option (AccountSharedData K)) (pubkey : K) :
    (ofState state pubkey).account = state pubkey := by
  unfold ofState
  split <;> simp_all [account]

end InitialStateOfAccount

/-- Where the delta learns the initial state of `pubkey` from, it finds its version in `state`: the
cache inspected it, or the cache holds nothing for it and the loader returns it. -/
def Supplies (state : K → Option (AccountSharedData K)) (cache : K → Option (CacheValue K))
    (load : K → Option (AccountSharedData K)) (pubkey : K) : Prop :=
  cache pubkey = some (.inspectAccount (.ofState state pubkey)) ∨
    ((cache pubkey = none ∨ cache pubkey = some .bankNew) ∧ load pubkey = state pubkey)

instance (state : K → Option (AccountSharedData K)) (cache : K → Option (CacheValue K))
    (load : K → Option (AccountSharedData K)) (pubkey : K) : Decidable (Supplies state cache load pubkey) :=
  inferInstanceAs (Decidable (_ ∨ _))

end Spec

section Delta

variable (hasher : AccountSharedData K → K → LtHash) {cache : K → Option (CacheValue K)}
  {load : K → Option (AccountSharedData K)}

/-- What one account adds to the delta: its current hash less the hash of the initial state read. -/
def accountDelta (cache : K → Option (CacheValue K)) (load : K → Option (AccountSharedData K))
    (entry : K × AccountSharedData K) : LtHash :=
  ltHashAccount hasher entry.2 entry.1 - ltHashOf hasher (initialStateOfAccount cache load entry.1).1.account entry.1

omit [DecidableEq K] in
theorem initialStateOfAccount_of_supplies {state : K → Option (AccountSharedData K)} {pubkey : K}
    (supplied : Supplies state cache load pubkey) :
    (initialStateOfAccount cache load pubkey).1 = .ofState state pubkey := by
  rcases supplied with inspected | ⟨missed, loaded⟩
  · simp [initialStateOfAccount, inspected]
  · have loaded_state : (match load pubkey with
        | some account => InitialStateOfAccount.alive account
        | none => .dead) = .ofState state pubkey := by
      rw [loaded]
      rfl
    rcases missed with missing | bankNew
    · simp only [initialStateOfAccount, missing, loaded_state]
    · simp only [initialStateOfAccount, bankNew, loaded_state]

theorem foldAccount_fst (accum : LtHash × Stats) (entry : K × AccountSharedData K) :
    (foldAccount hasher cache load accum entry).1 = accum.1 + accountDelta hasher cache load entry := by
  obtain ⟨pubkey, currAccount⟩ := entry
  rcases read : initialStateOfAccount cache load pubkey with ⟨_ | prevAccount, missed⟩
  · simp [foldAccount, accountDelta, read, InitialStateOfAccount.account, ltHashOf]
  · by_cases unchanged : accountsEqual currAccount prevAccount
    · obtain rfl := eq_of_accountsEqual unchanged
      simp [foldAccount, accountDelta, read, unchanged, InitialStateOfAccount.account, ltHashOf]
    · simp only [foldAccount, accountDelta, read, unchanged, InitialStateOfAccount.account, ltHashOf,
        mixIn_eq_add, mixOut_eq_sub, Bool.false_eq_true, if_false]
      abel

theorem calculateDeltaLtHash_fst {accountsCurr : List (K × AccountSharedData K)} {delta : LtHash × Stats}
    (computed : CalculateDeltaLtHash hasher cache load accountsCurr delta) :
    delta.1 = (accountsCurr.map (accountDelta hasher cache load)).sum :=
  FoldChunks.measure_eq_sum Prod.fst (accountDelta hasher cache load) rfl (fun _ _ => rfl)
    (foldAccount_fst hasher) computed

end Delta

section Writes

variable (hasher : AccountSharedData K → K → LtHash)

theorem applyWrites_of_not_mem {state : K → Option (AccountSharedData K)} {pubkey : K} :
    ∀ {accountsCurr : List (K × AccountSharedData K)}, pubkey ∉ accountsCurr.map Prod.fst →
      applyWrites state accountsCurr pubkey = state pubkey
  | [], _ => rfl
  | entry :: accountsCurr, unwritten => by
    rw [List.map_cons, List.mem_cons, not_or] at unwritten
    rw [applyWrites, List.foldr_cons, Function.update_of_ne unwritten.1]
    exact applyWrites_of_not_mem unwritten.2

theorem stateLtHash_applyWrites [Fintype K] (state : K → Option (AccountSharedData K)) :
    ∀ {accountsCurr : List (K × AccountSharedData K)}, (accountsCurr.map Prod.fst).Nodup →
      stateLtHash hasher (applyWrites state accountsCurr) = stateLtHash hasher state +
        (accountsCurr.map fun entry => ltHashAccount hasher entry.2 entry.1 - ltHashOf hasher (state entry.1) entry.1).sum
  | [], _ => by simp [applyWrites]
  | entry :: accountsCurr, distinct => by
    rw [List.map_cons, List.nodup_cons] at distinct
    have earlier : applyWrites state accountsCurr entry.1 = state entry.1 := applyWrites_of_not_mem distinct.1
    have written : applyWrites state (entry :: accountsCurr) =
        Function.update (applyWrites state accountsCurr) entry.1 (some entry.2) := rfl
    rw [stateLtHash, written, sum_update_eq_add_sub (fun pubkey account => ltHashOf hasher account pubkey), ← stateLtHash,
      stateLtHash_applyWrites state distinct.2, earlier, List.map_cons, List.sum_cons]
    simp only [ltHashOf]
    abel

end Writes

/-- Freezing a bank keeps its accounts lattice hash equal to the hash of its accounts from scratch:
if the hash was that of the state before the slot, and the delta reads each written account's
version in that state, then however the fold is chunked and reduced, the new hash is the hash of the
state after the slot's writes; and the fold has a result. -/
theorem updateAccountsLtHash_from_scratch [Fintype K] (hasher : AccountSharedData K → K → LtHash) {bank : Bank K}
    {state : K → Option (AccountSharedData K)} {load : K → Option (AccountSharedData K)}
    {accountsCurr : List (K × AccountSharedData K)}
    (consistent : bank.accountsLtHash = stateLtHash hasher state)
    (distinct : (accountsCurr.map Prod.fst).Nodup)
    (supplied : ∀ entry ∈ accountsCurr, Supplies state bank.cacheForDelta load entry.1) :
    (∃ bank', bank.UpdateAccountsLtHash hasher load accountsCurr bank') ∧
      ∀ bank', bank.UpdateAccountsLtHash hasher load accountsCurr bank' →
        bank'.accountsLtHash = stateLtHash hasher (applyWrites state accountsCurr) := by
  refine ⟨⟨_, _, FoldChunks.sequential accountsCurr, rfl⟩, ?_⟩
  rintro bank' ⟨delta, computed, rfl⟩
  have deltas : accountsCurr.map (accountDelta hasher bank.cacheForDelta load) =
      accountsCurr.map fun entry => ltHashAccount hasher entry.2 entry.1 - ltHashOf hasher (state entry.1) entry.1 :=
    List.map_congr_left fun entry written => by
      rw [accountDelta, initialStateOfAccount_of_supplies (supplied entry written),
        InitialStateOfAccount.account_ofState]
  calc mixIn bank.accountsLtHash delta.1
      = stateLtHash hasher state + (accountsCurr.map (accountDelta hasher bank.cacheForDelta load)).sum := by
        rw [mixIn_eq_add, consistent, calculateDeltaLtHash_fst hasher computed]
    _ = stateLtHash hasher (applyWrites state accountsCurr) := by
        rw [deltas, stateLtHash_applyWrites hasher state distinct]

/-- A bank in slot 1 whose cache inspected the one account alive before, writing it and a new one. -/
theorem updateAccountsLtHash_from_scratch_inspected :
    let account : AccountSharedData (Fin 2) := ⟨5, [], 0, false, 0⟩
    let state : Fin 2 → Option (AccountSharedData (Fin 2)) := fun pubkey => if pubkey = 0 then some account else none
    let hasher : AccountSharedData (Fin 2) → Fin 2 → LtHash := fun account _ _ => UInt16.ofNat account.lamports
    let bank : Bank (Fin 2) := ⟨1, stateLtHash hasher state,
      fun pubkey => if pubkey = 0 then some (.inspectAccount (.alive account)) else none⟩
    let load : Fin 2 → Option (AccountSharedData (Fin 2)) := fun _ => none
    let accountsCurr : List (Fin 2 × AccountSharedData (Fin 2)) := [(0, { account with lamports := 3 }), (1, ⟨7, [1], 1, false, 0⟩)]
    bank.accountsLtHash = stateLtHash hasher state ∧ (accountsCurr.map Prod.fst).Nodup ∧
      (∀ entry ∈ accountsCurr, Supplies state bank.cacheForDelta load entry.1) ∧
      ((∃ bank', bank.UpdateAccountsLtHash hasher load accountsCurr bank') ∧
        ∀ bank', bank.UpdateAccountsLtHash hasher load accountsCurr bank' →
          bank'.accountsLtHash = stateLtHash hasher (applyWrites state accountsCurr)) :=
  ⟨rfl, by decide, by decide, updateAccountsLtHash_from_scratch _ rfl (by decide) (by decide)⟩

end LatticeHash
