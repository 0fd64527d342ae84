import Mathlib
import Agave.Library.ExceptLoop
import Agave.Library.StateMachine
import Agave.Runtime.TransactionContext

/-! `AccountLocks` of `accounts-db`, and the bank's use of it in `Accounts::lock_accounts`,
`Accounts::lock_accounts_with_results` and `Accounts::unlock_accounts`: a set of write-locked
accounts and a count of read locks for each account. A transaction is first checked for too many
accounts and for an account listed twice, then takes all of its locks or none. Over every run of
locking and unlocking batches, the locks are what the transactions holding them took, and no two
of those transactions conflict.

A read-lock count is a `u64`, here a `Nat`: it never passes the number of transactions holding the
lock, and `unlock_readonly` only meets positive counts (`Holds.positive`), so the `u64` arithmetic
never wraps. The `debug_assert!`s of the unlocks are compiled out of a release build, where
unlocking what is not locked does nothing. -/

namespace AccountsDb

open Runtime StateMachine ExceptLoop

structure AccountLocks where
  writeLocks : Std.HashSet Pubkey
  readonlyLocks : Std.HashMap Pubkey Nat

namespace AccountLocks

def default : AccountLocks := ⟨∅, ∅⟩

variable (locks : AccountLocks)

def isLockedReadonly (key : Pubkey) : Bool := locks.readonlyLocks[key]?.any (· > 0)

def isLockedWrite (key : Pubkey) : Bool := locks.writeLocks.contains key

def canReadLock (key : Pubkey) : Bool := !locks.isLockedWrite key

def canWriteLock (key : Pubkey) : Bool := !locks.isLockedReadonly key && !locks.isLockedWrite key

def lockReadonly (key : Pubkey) : AccountLocks :=
  { locks with readonlyLocks := locks.readonlyLocks.insert key (locks.readonlyLocks.getD key 0 + 1) }

def lockWrite (key : Pubkey) : AccountLocks := { locks with writeLocks := locks.writeLocks.insert key }

def unlockReadonly (key : Pubkey) : AccountLocks :=
  match locks.readonlyLocks[key]? with
  | some count =>
    if count - 1 = 0 then { locks with readonlyLocks := locks.readonlyLocks.erase key }
    else { locks with readonlyLocks := locks.readonlyLocks.insert key (count - 1) }
  | none => locks

def unlockWrite (key : Pubkey) : AccountLocks := { locks with writeLocks := locks.writeLocks.erase key }

/-- One pass of the first loop of `try_lock_accounts`. -/
def checkLock : Pubkey × Bool → Except TransactionError Unit
  | (key, writable) =>
    if writable then
      if !locks.canWriteLock key then throw .accountInUse else pure ()
    else if !locks.canReadLock key then throw .accountInUse else pure ()

def lock : Pubkey × Bool → AccountLocks
  | (key, writable) => if writable then locks.lockWrite key else locks.lockReadonly key

def unlock : Pubkey × Bool → AccountLocks
  | (key, writable) => if writable then locks.unlockWrite key else locks.unlockReadonly key

/-- Every key is checked before any is locked, so a failure leaves the locks as they were. -/
def tryLockAccounts (keys : List (Pubkey × Bool)) : Except TransactionError AccountLocks := do
  keys.forM locks.checkLock
  pure (keys.foldl lock locks)

def unlockAccounts (keys : List (Pubkey × Bool)) : AccountLocks := keys.foldl unlock locks

end AccountLocks

def useAccountLockSetSize : Nat := 32

/-- `account_keys.iter().any(|key| !set.insert(*key))`: `insert` reports whether the key was new. -/
def hasDuplicatesInSet : List Pubkey → Std.HashSet Pubkey → Bool
  | [], _ => false
  | key :: accountKeys, set =>
    let (present, set) := set.containsThenInsert key
    present || hasDuplicatesInSet accountKeys set

/-- The brute-force loops: each key against every later one. -/
def hasDuplicatesFrom : List Pubkey → Bool
  | [] => false
  | key :: accountKeys => accountKeys.any (key == ·) || hasDuplicatesFrom accountKeys

def hasDuplicates (accountKeys : List Pubkey) : Bool :=
  if accountKeys.length ≥ useAccountLockSetSize then hasDuplicatesInSet accountKeys ∅
  else hasDuplicatesFrom accountKeys

def validateAccountLocks (accountKeys : List Pubkey) (txAccountLockLimit : Nat) : Except TransactionError Unit :=
  if accountKeys.length > txAccountLockLimit then .error .tooManyAccountLocks
  else if hasDuplicates accountKeys then .error .accountLoadedTwice
  else .ok ()

/-- What the locks read of a transaction: its account keys, and which of them it writes. -/
structure Transaction where
  accountKeys : List Pubkey
  isWritable : Nat → Bool

/-- `TransactionAccountLocksIterator::accounts_with_is_writable`. -/
def Transaction.accountsWithIsWritable (tx : Transaction) : List (Pubkey × Bool) :=
  tx.accountKeys.zipIdx.map fun (key, index) => (key, tx.isWritable index)

namespace Accounts

/-- One call of the closure of `lock_accounts_inner`. -/
def lockTransaction (locks : AccountLocks) :
    Except TransactionError (List (Pubkey × Bool)) → Except TransactionError Unit × AccountLocks
  | .ok keys =>
    match locks.tryLockAccounts keys with
    | .ok locked => (.ok (), locked)
    | .error err => (.error err, locks)
  | .error err => (.error err, locks)

def lockAccountsInner (locks : AccountLocks) :
    List (Except TransactionError (List (Pubkey × Bool))) → List (Except TransactionError Unit) × AccountLocks
  | [] => ([], locks)
  | txAccountLocksResult :: rest =>
    let (result, locked) := lockTransaction locks txAccountLocksResult
    let (results, final) := lockAccountsInner locked rest
    (result :: results, final)

def validatedLocks (txAccountLockLimit : Nat) (tx : Transaction) : Except TransactionError (List (Pubkey × Bool)) :=
  (validateAccountLocks tx.accountKeys txAccountLockLimit).map fun _ => tx.accountsWithIsWritable

def lockAccounts (locks : AccountLocks) (txs : List Transaction) (txAccountLockLimit : Nat) :
    List (Except TransactionError Unit) × AccountLocks :=
  lockAccountsInner locks (txs.map (validatedLocks txAccountLockLimit))

def lockAccountsWithResults (locks : AccountLocks) (txs : List Transaction) (results : List (Except TransactionError Unit))
    (txAccountLockLimit : Nat) : List (Except TransactionError Unit) × AccountLocks :=
  lockAccountsInner locks ((txs.zip results).map fun (tx, result) =>
    match result with
    | .ok () => validatedLocks txAccountLockLimit tx
    | .error err => .error err)

def unlockAccounts (locks : AccountLocks) (txsAndResults : List (Transaction × Except TransactionError Unit)) :
    AccountLocks :=
  if !txsAndResults.any (fun (_, res) => res.isOk) then locks
  else txsAndResults.foldl (fun locks (tx, res) =>
    if res.isOk then locks.unlockAccounts tx.accountsWithIsWritable else locks) locks

end Accounts

/-! ### The locks, one key at a time -/

namespace AccountLocks

variable (locks : AccountLocks) {key key' : Pubkey}

/-- No read-lock count is zero: `unlock_readonly` removes a count that falls to zero. -/
def Positive : Prop := ∀ (key : Pubkey) (count : Nat), locks.readonlyLocks[key]? = some count → 0 < count

theorem positive_default : default.Positive := by
  intro key count found
  simp [default] at found

theorem isLockedReadonly_eq : locks.isLockedReadonly key = decide (0 < locks.readonlyLocks.getD key 0) := by
  rw [isLockedReadonly, Std.HashMap.getD_eq_getD_getElem?]
  cases locks.readonlyLocks[key]? <;> simp

theorem isLockedWrite_eq : locks.isLockedWrite key = decide (key ∈ locks.writeLocks) := by
  rw [isLockedWrite, Bool.eq_iff_iff, decide_eq_true_iff, Std.HashSet.mem_iff_contains]

theorem getElem?_readonlyLocks_of_positive (positive : locks.Positive) (key : Pubkey) :
    locks.readonlyLocks[key]? =
      if locks.readonlyLocks.getD key 0 = 0 then none else some (locks.readonlyLocks.getD key 0) := by
  rw [Std.HashMap.getD_eq_getD_getElem?]
  cases found : locks.readonlyLocks[key]? with
  | none => rfl
  | some count =>
    have counted := positive key count found
    rw [Option.getD_some, if_neg (by omega)]

theorem checkLock_eq_ok_iff (writable : Bool) :
    locks.checkLock (key, writable) = .ok () ↔
      key ∉ locks.writeLocks ∧ (writable = true → locks.readonlyLocks.getD key 0 = 0) := by
  cases writable <;>
    simp [checkLock, canWriteLock, canReadLock, isLockedReadonly_eq, isLockedWrite_eq, throw, throwThe,
      MonadExceptOf.throw, pure, Except.pure, and_comm]

theorem mem_lock (entry : Pubkey × Bool) :
    key' ∈ (locks.lock entry).writeLocks ↔ key' ∈ locks.writeLocks ∨ entry = (key', true) := by
  obtain ⟨key, writable⟩ := entry
  cases writable
  · simp [lock, lockReadonly]
  · simp only [lock, lockWrite, if_true, Std.HashSet.mem_insert, beq_iff_eq, Prod.mk.injEq, and_true]
    exact Or.comm

theorem lock_getD (entry : Pubkey × Bool) :
    (locks.lock entry).readonlyLocks.getD key' 0 =
      locks.readonlyLocks.getD key' 0 + if entry = (key', false) then 1 else 0 := by
  obtain ⟨key, writable⟩ := entry
  cases writable
  · simp only [lock, lockReadonly, Bool.false_eq_true, if_false, Std.HashMap.getD_insert, beq_iff_eq,
      Prod.mk.injEq, and_true]
    split_ifs with same
    · rw [same]
    · rfl
  · simp [lock, lockWrite]

theorem Positive.lock {locks : AccountLocks} (positive : locks.Positive) (entry : Pubkey × Bool) : (locks.lock entry).Positive := by
  obtain ⟨key, writable⟩ := entry
  intro key' count found
  cases writable
  · simp only [AccountLocks.lock, lockReadonly, Bool.false_eq_true, if_false, Std.HashMap.getElem?_insert,
      beq_iff_eq] at found
    split_ifs at found
    · cases found
      omega
    · exact positive key' count found
  · exact positive key' count found

theorem unlockReadonly_writeLocks : (locks.unlockReadonly key).writeLocks = locks.writeLocks := by
  unfold unlockReadonly
  split
  · split_ifs <;> rfl
  · rfl

theorem unlockReadonly_getD :
    (locks.unlockReadonly key).readonlyLocks.getD key' 0 = locks.readonlyLocks.getD key' 0 - if key = key' then 1 else 0 := by
  unfold unlockReadonly
  cases found : locks.readonlyLocks[key]? with
  | none =>
    have absent : locks.readonlyLocks.getD key 0 = 0 := by
      rw [Std.HashMap.getD_eq_getD_getElem?, found, Option.getD_none]
    split_ifs with same
    · rw [← same, absent]
    · rfl
  | some count =>
    have stored : locks.readonlyLocks.getD key 0 = count := by
      rw [Std.HashMap.getD_eq_getD_getElem?, found, Option.getD_some]
    dsimp only
    split_ifs with emptied same same
    · rw [Std.HashMap.getD_erase, if_pos (beq_iff_eq.mpr same), ← same, stored]
      omega
    · rw [Std.HashMap.getD_erase, if_neg (by simpa using same), Nat.sub_zero]
    · rw [Std.HashMap.getD_insert, if_pos (beq_iff_eq.mpr same), ← same, stored]
    · rw [Std.HashMap.getD_insert, if_neg (by simpa using same), Nat.sub_zero]

theorem Positive.unlockReadonly {locks : AccountLocks} (positive : locks.Positive) (key : Pubkey) : (locks.unlockReadonly key).Positive := by
  intro key' count found
  unfold AccountLocks.unlockReadonly at found
  split at found
  · split_ifs at found with emptied
    · rw [Std.HashMap.getElem?_erase] at found
      split_ifs at found
      exact positive key' count found
    · rw [Std.HashMap.getElem?_insert] at found
      split_ifs at found
      · cases found
        omega
      · exact positive key' count found
  · exact positive key' count found

theorem mem_unlock (entry : Pubkey × Bool) :
    key' ∈ (locks.unlock entry).writeLocks ↔ key' ∈ locks.writeLocks ∧ entry ≠ (key', true) := by
  obtain ⟨key, writable⟩ := entry
  cases writable
  · simp [unlock, unlockReadonly_writeLocks]
  · simp only [unlock, unlockWrite, if_true, Std.HashSet.mem_erase, beq_eq_false_iff_ne, ne_eq, Prod.mk.injEq,
      and_true]
    exact And.comm

theorem unlock_getD (entry : Pubkey × Bool) :
    (locks.unlock entry).readonlyLocks.getD key' 0 =
      locks.readonlyLocks.getD key' 0 - if entry = (key', false) then 1 else 0 := by
  obtain ⟨key, writable⟩ := entry
  cases writable
  · simp only [unlock, Bool.false_eq_true, if_false, unlockReadonly_getD, Prod.mk.injEq, and_true]
  · simp [unlock, unlockWrite]

theorem Positive.unlock {locks : AccountLocks} (positive : locks.Positive) (entry : Pubkey × Bool) : (locks.unlock entry).Positive := by
  obtain ⟨key, writable⟩ := entry
  cases writable
  · exact positive.unlockReadonly key
  · exact positive

/-! Both loops over a transaction's keys, by induction on the keys. -/

theorem mem_foldl_lock :
    ∀ (keys : List (Pubkey × Bool)) (locks : AccountLocks),
      key ∈ (keys.foldl lock locks).writeLocks ↔ key ∈ locks.writeLocks ∨ (key, true) ∈ keys
  | [], locks => by simp
  | entry :: keys, locks => by
    rw [List.foldl_cons, mem_foldl_lock keys, mem_lock, List.mem_cons, eq_comm]
    tauto

theorem foldl_lock_getD :
    ∀ (keys : List (Pubkey × Bool)) (locks : AccountLocks),
      (keys.foldl lock locks).readonlyLocks.getD key 0 = locks.readonlyLocks.getD key 0 + keys.count (key, false)
  | [], locks => by simp
  | entry :: keys, locks => by
    rw [List.foldl_cons, foldl_lock_getD keys, lock_getD, List.count_cons]
    simp only [beq_iff_eq]
    omega

theorem Positive.foldl_lock :
    ∀ (keys : List (Pubkey × Bool)) {locks : AccountLocks}, locks.Positive →
      (keys.foldl AccountLocks.lock locks).Positive
  | [], _, positive => positive
  | entry :: keys, _, positive => Positive.foldl_lock keys (positive.lock entry)

theorem mem_foldl_unlock :
    ∀ (keys : List (Pubkey × Bool)) (locks : AccountLocks),
      key ∈ (keys.foldl unlock locks).writeLocks ↔ key ∈ locks.writeLocks ∧ (key, true) ∉ keys
  | [], locks => by simp
  | entry :: keys, locks => by
    rw [List.foldl_cons, mem_foldl_unlock keys, mem_unlock, List.mem_cons, eq_comm]
    tauto

theorem foldl_unlock_getD :
    ∀ (keys : List (Pubkey × Bool)) (locks : AccountLocks),
      (keys.foldl unlock locks).readonlyLocks.getD key 0 = locks.readonlyLocks.getD key 0 - keys.count (key, false)
  | [], locks => by simp
  | entry :: keys, locks => by
    rw [List.foldl_cons, foldl_unlock_getD keys, unlock_getD, List.count_cons]
    simp only [beq_iff_eq]
    omega

theorem Positive.foldl_unlock :
    ∀ (keys : List (Pubkey × Bool)) {locks : AccountLocks}, locks.Positive →
      (keys.foldl AccountLocks.unlock locks).Positive
  | [], _, positive => positive
  | entry :: keys, _, positive => Positive.foldl_unlock keys (positive.unlock entry)

theorem tryLockAccounts_eq_ok_iff (keys : List (Pubkey × Bool)) (locked : AccountLocks) :
    locks.tryLockAccounts keys = .ok locked ↔ (∀ entry ∈ keys, locks.checkLock entry = .ok ()) ∧
      keys.foldl lock locks = locked := by
  rw [tryLockAccounts, bind_eq_ok]
  constructor
  · rintro ⟨⟨⟩, checked, locking⟩
    exact ⟨forM_eq_ok_iff.mp checked, pure_eq_ok.mp locking⟩
  · rintro ⟨checked, locking⟩
    exact ⟨(), forM_eq_ok_iff.mpr checked, pure_eq_ok.mpr locking⟩

/-- Every check of `try_lock_accounts` reads the locks from before the call, so a list that names an
unlocked account as written and as read, its other keys free, takes both locks: only
`validate_account_locks` keeps such a list out. -/
theorem tryLockAccounts_write_and_read {keys : List (Pubkey × Bool)}
    (written : (key, true) ∈ keys) (read : (key, false) ∈ keys)
    (free : key ∉ locks.writeLocks) (unread : locks.readonlyLocks.getD key 0 = 0)
    (others : ∀ entry ∈ keys, entry.1 ≠ key → locks.checkLock entry = .ok ()) :
    ∃ locked, locks.tryLockAccounts keys = .ok locked ∧
      locked.isLockedWrite key = true ∧ locked.isLockedReadonly key = true := by
  have checked : ∀ entry ∈ keys, locks.checkLock entry = .ok () := by
    rintro ⟨other, writable⟩ listed
    by_cases same : other = key
    · rw [same]
      exact (locks.checkLock_eq_ok_iff writable).mpr ⟨free, fun _ => unread⟩
    · exact others _ listed same
  refine ⟨_, (locks.tryLockAccounts_eq_ok_iff _ _).mpr ⟨checked, rfl⟩, ?_, ?_⟩
  · rw [isLockedWrite_eq, decide_eq_true_iff, mem_foldl_lock]
    exact .inr written
  · rw [isLockedReadonly_eq, decide_eq_true_iff, foldl_lock_getD]
    have := List.count_pos_iff.mpr read
    omega

/-- A transaction writing account `7`, reading account `8` and reading account `7` again. -/
theorem tryLockAccounts_write_and_read_default :
    ((7, true) ∈ [(7, true), (8, false), (7, false)] ∧ (7, false) ∈ [(7, true), (8, false), (7, false)] ∧
      7 ∉ default.writeLocks ∧ default.readonlyLocks.getD 7 0 = 0 ∧
      ∀ entry ∈ [(7, true), (8, false), (7, false)], entry.1 ≠ 7 → default.checkLock entry = .ok ()) ∧
    ∃ locked, default.tryLockAccounts [(7, true), (8, false), (7, false)] = .ok locked ∧
      locked.isLockedWrite 7 = true ∧ locked.isLockedReadonly 7 = true := by
  have written : ((7 : Pubkey), true) ∈ [(7, true), (8, false), (7, false)] := by decide
  have read : ((7 : Pubkey), false) ∈ [(7, true), (8, false), (7, false)] := by decide
  have free : (7 : Pubkey) ∉ default.writeLocks := by simp [default]
  have unread : default.readonlyLocks.getD 7 0 = 0 := by simp [default]
  have others : ∀ entry ∈ [((7 : Pubkey), true), (8, false), (7, false)], entry.1 ≠ 7 →
      default.checkLock entry = .ok () := by
    intro entry listed other
    simp only [List.mem_cons, List.not_mem_nil, or_false] at listed
    rcases listed with rfl | rfl | rfl
    · exact absurd rfl other
    · exact (default.checkLock_eq_ok_iff false).mpr ⟨by simp [default], fun never => Bool.noConfusion never⟩
    · exact absurd rfl other
  exact ⟨⟨written, read, free, unread, others⟩, tryLockAccounts_write_and_read default written read free unread others⟩

end AccountLocks

/-! ### Validation -/

theorem hasDuplicatesInSet_cons (key : Pubkey) (accountKeys : List Pubkey) (set : Std.HashSet Pubkey) :
    hasDuplicatesInSet (key :: accountKeys) set = (set.contains key || hasDuplicatesInSet accountKeys (set.insert key)) := by
  rw [← Std.HashSet.containsThenInsert_fst, ← Std.HashSet.containsThenInsert_snd]
  rfl

theorem hasDuplicatesInSet_iff :
    ∀ (accountKeys : List Pubkey) (set : Std.HashSet Pubkey),
      hasDuplicatesInSet accountKeys set = true ↔ (∃ key ∈ accountKeys, key ∈ set) ∨ ¬ accountKeys.Nodup
  | [], set => by simp [hasDuplicatesInSet]
  | key :: accountKeys, set => by
    rw [hasDuplicatesInSet_cons, Bool.or_eq_true, hasDuplicatesInSet_iff accountKeys, ← Std.HashSet.mem_iff_contains]
    simp only [Std.HashSet.mem_insert, beq_iff_eq, List.mem_cons, List.nodup_cons, exists_eq_or_imp]
    grind

theorem hasDuplicatesFrom_iff : ∀ accountKeys : List Pubkey, hasDuplicatesFrom accountKeys = true ↔ ¬ accountKeys.Nodup
  | [] => by simp [hasDuplicatesFrom]
  | key :: accountKeys => by
    rw [hasDuplicatesFrom, Bool.or_eq_true, hasDuplicatesFrom_iff accountKeys, List.nodup_cons]
    simp only [List.any_eq_true, beq_iff_eq, exists_eq_right']
    tauto

theorem hasDuplicates_iff (accountKeys : List Pubkey) : hasDuplicates accountKeys = true ↔ ¬ accountKeys.Nodup := by
  unfold hasDuplicates
  split
  · rw [hasDuplicatesInSet_iff]
    simp
  · exact hasDuplicatesFrom_iff accountKeys

/-- `validate_account_locks` refuses a transaction over the lock limit, then one that lists an account
twice, whichever of its two duplicate checks the number of keys selects. -/
theorem validateAccountLocks_eq (accountKeys : List Pubkey) (txAccountLockLimit : Nat) :
    validateAccountLocks accountKeys txAccountLockLimit =
      if txAccountLockLimit < accountKeys.length then .error .tooManyAccountLocks
      else if accountKeys.Nodup then .ok () else .error .accountLoadedTwice := by
  unfold validateAccountLocks
  have duplicates := hasDuplicates_iff accountKeys
  split_ifs <;> simp_all

theorem validateAccountLocks_eq_ok_iff (accountKeys : List Pubkey) (txAccountLockLimit : Nat) :
    validateAccountLocks accountKeys txAccountLockLimit = .ok () ↔
      accountKeys.length ≤ txAccountLockLimit ∧ accountKeys.Nodup := by
  unfold validateAccountLocks
  have duplicates := hasDuplicates_iff accountKeys
  split_ifs <;> simp_all

theorem Transaction.map_fst_accountsWithIsWritable (tx : Transaction) :
    tx.accountsWithIsWritable.map Prod.fst = tx.accountKeys := by
  rw [Transaction.accountsWithIsWritable, List.map_map]
  exact List.zipIdx_map_fst 0 tx.accountKeys

/-! ### What the locks hold

The locks held are the account lists of the transactions whose lock succeeded and that are not yet
unlocked. -/

section Held

variable {locks : AccountLocks} {held : List (List (Pubkey × Bool))} {keys keys' : List (Pubkey × Bool)}

/-- Neither list writes an account the other uses. -/
def Compatible (keys keys' : List (Pubkey × Bool)) : Prop :=
  ∀ key, ((key, true) ∈ keys → key ∉ keys'.map Prod.fst) ∧ ((key, true) ∈ keys' → key ∉ keys.map Prod.fst)

theorem Compatible.symm (compatible : Compatible keys keys') : Compatible keys' keys :=
  fun key => (compatible key).symm

/-- The read locks the held lists take of an account. -/
def readers (held : List (List (Pubkey × Bool))) (key : Pubkey) : Nat := (held.map (·.count (key, false))).sum

theorem readers_append (held held' : List (List (Pubkey × Bool))) (key : Pubkey) :
    readers (held ++ held') key = readers held key + readers held' key := by
  simp [readers]

theorem readers_perm {held' : List (List (Pubkey × Bool))} (perm : held.Perm held') (key : Pubkey) :
    readers held key = readers held' key :=
  (perm.map _).sum_eq

theorem not_mem_of_readers_eq_zero {key : Pubkey} (none : readers held key = 0) (member : keys ∈ held) :
    (key, false) ∉ keys := by
  rw [readers, List.sum_eq_zero_iff] at none
  exact List.count_eq_zero.mp (none _ (List.mem_map_of_mem member))

theorem mem_map_fst_iff {key : Pubkey} : key ∈ keys.map Prod.fst ↔ (key, true) ∈ keys ∨ (key, false) ∈ keys := by
  simp only [List.mem_map, Prod.exists, exists_and_right, exists_eq_right]
  constructor
  · rintro ⟨writable, listed⟩
    cases writable
    · exact .inr listed
    · exact .inl listed
  · rintro (listed | listed)
    · exact ⟨true, listed⟩
    · exact ⟨false, listed⟩

/-- The locks are those the held lists take, and no two held lists conflict. -/
structure Holds (locks : AccountLocks) (held : List (List (Pubkey × Bool))) : Prop where
  distinct : ∀ keys ∈ held, (keys.map Prod.fst).Nodup
  compatible : held.Pairwise Compatible
  write : ∀ key, key ∈ locks.writeLocks ↔ ∃ keys ∈ held, (key, true) ∈ keys
  readonly : ∀ key, locks.readonlyLocks.getD key 0 = readers held key
  positive : locks.Positive

theorem holds_default : Holds AccountLocks.default [] where
  distinct := by simp
  compatible := .nil
  write := by simp [AccountLocks.default]
  readonly := by simp [AccountLocks.default, readers]
  positive := AccountLocks.positive_default

theorem Holds.perm (holds : Holds locks held) {held' : List (List (Pubkey × Bool))} (perm : held.Perm held') :
    Holds locks held' where
  distinct := fun keys member => holds.distinct keys (perm.mem_iff.mpr member)
  compatible := (perm.pairwise_iff Compatible.symm).mp holds.compatible
  write := fun key => by
    rw [holds.write key]
    exact exists_congr fun keys => and_congr_left' perm.mem_iff
  readonly := fun key => by rw [holds.readonly key, readers_perm perm]
  positive := holds.positive

theorem Holds.lookup_eq {locks' : AccountLocks} (holds : Holds locks held) (holds' : Holds locks' held) (key : Pubkey) :
    locks.writeLocks.contains key = locks'.writeLocks.contains key ∧
      locks.readonlyLocks[key]? = locks'.readonlyLocks[key]? := by
  constructor
  · rw [Bool.eq_iff_iff, ← Std.HashSet.mem_iff_contains, ← Std.HashSet.mem_iff_contains, holds.write, holds'.write]
  · rw [locks.getElem?_readonlyLocks_of_positive holds.positive, locks'.getElem?_readonlyLocks_of_positive holds'.positive,
      holds.readonly, holds'.readonly]

theorem Holds.compatible_of_checked (holds : Holds locks held)
    (checked : ∀ entry ∈ keys, locks.checkLock entry = .ok ()) (member : keys' ∈ held) : Compatible keys' keys := by
  intro key
  constructor
  · intro writes listed
    obtain ⟨writable, entry⟩ : ∃ writable, (key, writable) ∈ keys := by
      rcases mem_map_fst_iff.mp listed with entry | entry
      · exact ⟨true, entry⟩
      · exact ⟨false, entry⟩
    have free := ((locks.checkLock_eq_ok_iff writable).mp (checked _ entry)).1
    exact free ((holds.write key).mpr ⟨keys', member, writes⟩)
  · intro writes listed
    obtain ⟨free, unread⟩ := (locks.checkLock_eq_ok_iff true).mp (checked _ writes)
    have notRead := not_mem_of_readers_eq_zero ((holds.readonly key).symm.trans (unread rfl)) member
    rcases mem_map_fst_iff.mp listed with entry | entry
    · exact free ((holds.write key).mpr ⟨keys', member, entry⟩)
    · exact notRead entry

theorem Holds.lock (holds : Holds locks held) (distinct : (keys.map Prod.fst).Nodup)
    (checked : ∀ entry ∈ keys, locks.checkLock entry = .ok ()) :
    Holds (keys.foldl AccountLocks.lock locks) (held ++ [keys]) where
  distinct := by
    intro keys' member
    rcases List.mem_append.mp member with member | member
    · exact holds.distinct keys' member
    · rw [List.mem_singleton.mp member]
      exact distinct
  compatible := by
    rw [List.pairwise_append]
    refine ⟨holds.compatible, List.pairwise_singleton _ _, ?_⟩
    intro keys' member keys'' added
    rw [List.mem_singleton.mp added]
    exact holds.compatible_of_checked checked member
  write := by
    intro key
    rw [AccountLocks.mem_foldl_lock, holds.write]
    simp only [List.mem_append, List.mem_singleton]
    constructor
    · rintro (⟨keys', member, writes⟩ | writes)
      · exact ⟨keys', .inl member, writes⟩
      · exact ⟨keys, .inr rfl, writes⟩
    · rintro ⟨keys', member | rfl, writes⟩
      · exact .inl ⟨keys', member, writes⟩
      · exact .inr writes
  readonly := by
    intro key
    rw [AccountLocks.foldl_lock_getD, holds.readonly, readers_append]
    simp [readers]
  positive := AccountLocks.Positive.foldl_lock keys holds.positive

theorem Holds.unlock (holds : Holds locks held) (member : keys ∈ held) :
    Holds (locks.unlockAccounts keys) (held.erase keys) where
  distinct := fun keys' kept => holds.distinct keys' (List.mem_of_mem_erase kept)
  compatible := holds.compatible.sublist List.erase_sublist
  write := by
    intro key
    have rest := (List.perm_cons_erase member).pairwise_iff Compatible.symm |>.mp holds.compatible
    rw [AccountLocks.unlockAccounts, AccountLocks.mem_foldl_unlock, holds.write]
    constructor
    · rintro ⟨⟨keys', held', writes⟩, notOurs⟩
      have other : keys' ≠ keys := fun same => notOurs (same ▸ writes)
      exact ⟨keys', (List.mem_erase_of_ne other).mpr held', writes⟩
    · rintro ⟨keys', kept, writes⟩
      refine ⟨⟨keys', List.mem_of_mem_erase kept, writes⟩, fun ours => ?_⟩
      have apart := (List.pairwise_cons.mp rest).1 keys' kept
      exact (apart key).1 ours (List.mem_map_of_mem writes)
  readonly := by
    intro key
    have split : readers held key = keys.count (key, false) + readers (held.erase keys) key := by
      rw [readers_perm (List.perm_cons_erase member)]
      simp [readers]
    rw [AccountLocks.unlockAccounts, AccountLocks.foldl_unlock_getD, holds.readonly, split]
    omega
  positive := AccountLocks.Positive.foldl_unlock keys holds.positive

end Held

/-! ### Batches -/

/-- The account lists of the transactions of a batch whose result is `Ok`. -/
def granted (txsAndResults : List (Transaction × Except TransactionError Unit)) : List (List (Pubkey × Bool)) :=
  txsAndResults.filterMap fun (tx, result) => if result.isOk then some tx.accountsWithIsWritable else none

@[simp] theorem granted_nil : granted [] = [] := rfl

theorem granted_cons_ok (tx : Transaction) (rest : List (Transaction × Except TransactionError Unit)) :
    granted ((tx, .ok ()) :: rest) = tx.accountsWithIsWritable :: granted rest := rfl

theorem granted_cons_error (tx : Transaction) (err : TransactionError) (rest : List (Transaction × Except TransactionError Unit)) :
    granted ((tx, .error err) :: rest) = granted rest := rfl

/-- An input of `lock_accounts_inner` for a transaction: when `Ok`, its own locks, without a repeated
account. -/
def Validated (tx : Transaction) (input : Except TransactionError (List (Pubkey × Bool))) : Prop :=
  ∀ keys, input = .ok keys → keys = tx.accountsWithIsWritable ∧ tx.accountKeys.Nodup

theorem validated_validatedLocks (txAccountLockLimit : Nat) (tx : Transaction) :
    Validated tx (Accounts.validatedLocks txAccountLockLimit tx) := by
  intro keys validated
  unfold Accounts.validatedLocks at validated
  cases checked : validateAccountLocks tx.accountKeys txAccountLockLimit with
  | error err =>
    rw [checked] at validated
    cases validated
  | ok u =>
    rw [checked] at validated
    cases validated
    exact ⟨rfl, ((validateAccountLocks_eq_ok_iff _ _).mp checked).2⟩

section Batch

variable {locks : AccountLocks} {held : List (List (Pubkey × Bool))}

theorem Holds.lockAccountsInner :
    ∀ {txs : List Transaction} {inputs : List (Except TransactionError (List (Pubkey × Bool)))},
      List.Forall₂ Validated txs inputs → ∀ {locks : AccountLocks} {held : List (List (Pubkey × Bool))},
      Holds locks held →
      Holds (Accounts.lockAccountsInner locks inputs).2 (held ++ granted (txs.zip (Accounts.lockAccountsInner locks inputs).1))
  | _, _, .nil, _, _, holds => by simpa [Accounts.lockAccountsInner] using holds
  | tx :: _, input :: _, .cons validated rest, locks, held, holds => by
    cases input with
    | error err =>
      exact granted_cons_error tx err _ ▸ Holds.lockAccountsInner rest holds
    | ok keys =>
      obtain ⟨rfl, distinct⟩ := validated keys rfl
      cases tried : locks.tryLockAccounts tx.accountsWithIsWritable with
      | error err =>
        have step : Accounts.lockTransaction locks (.ok tx.accountsWithIsWritable) = (.error err, locks) := by
          rw [Accounts.lockTransaction, tried]
        simp only [Accounts.lockAccountsInner, step]
        rw [List.zip_cons_cons, granted_cons_error]
        exact Holds.lockAccountsInner rest holds
      | ok locked =>
        have step : Accounts.lockTransaction locks (.ok tx.accountsWithIsWritable) = (.ok (), locked) := by
          rw [Accounts.lockTransaction, tried]
        obtain ⟨checked, rfl⟩ := (locks.tryLockAccounts_eq_ok_iff _ _).mp tried
        have added := holds.lock (by rw [Transaction.map_fst_accountsWithIsWritable]; exact distinct) checked
        simp only [Accounts.lockAccountsInner, step]
        rw [List.zip_cons_cons, granted_cons_ok, ← List.singleton_append, ← List.append_assoc]
        exact Holds.lockAccountsInner rest added

theorem Holds.lockAccounts (holds : Holds locks held) (txs : List Transaction) (txAccountLockLimit : Nat) :
    Holds (Accounts.lockAccounts locks txs txAccountLockLimit).2
      (held ++ granted (txs.zip (Accounts.lockAccounts locks txs txAccountLockLimit).1)) := by
  have validated : List.Forall₂ Validated txs (txs.map (Accounts.validatedLocks txAccountLockLimit)) := by
    rw [List.forall₂_map_right_iff, List.forall₂_same]
    exact fun tx _ => validated_validatedLocks txAccountLockLimit tx
  exact holds.lockAccountsInner validated

theorem Holds.lockAccountsWithResults (holds : Holds locks held) (txs : List Transaction)
    (results : List (Except TransactionError Unit)) (txAccountLockLimit : Nat) :
    Holds (Accounts.lockAccountsWithResults locks txs results txAccountLockLimit).2
      (held ++ granted (((txs.zip results).map Prod.fst).zip
        (Accounts.lockAccountsWithResults locks txs results txAccountLockLimit).1)) := by
  have validated : List.Forall₂ Validated ((txs.zip results).map Prod.fst) ((txs.zip results).map fun (tx, result) =>
      match result with
      | .ok () => Accounts.validatedLocks txAccountLockLimit tx
      | .error err => .error err) := by
    rw [List.forall₂_map_right_iff, List.forall₂_map_left_iff, List.forall₂_same]
    rintro ⟨tx, result⟩ _
    cases result with
    | ok u => exact validated_validatedLocks txAccountLockLimit tx
    | error err =>
      intro keys failed
      cases failed
  exact holds.lockAccountsInner validated

theorem unlockAccounts_eq_foldl (locks : AccountLocks) (txsAndResults : List (Transaction × Except TransactionError Unit)) :
    Accounts.unlockAccounts locks txsAndResults = (granted txsAndResults).foldl AccountLocks.unlockAccounts locks := by
  rw [granted, List.foldl_filterMap, Accounts.unlockAccounts]
  split
  · rename_i noneOk
    rw [Bool.not_eq_true', List.any_eq_false] at noneOk
    rw [List.foldl_ext _ (fun locks _ => locks)]
    · exact (List.foldl_fixed _).symm
    · rintro locks ⟨tx, result⟩ member
      have failed := noneOk _ member
      simp only [Bool.not_eq_true] at failed
      simp [failed]
  · apply List.foldl_ext
    rintro locks ⟨tx, result⟩ _
    cases result <;> rfl

theorem Holds.unlockAll :
    ∀ (released : List (List (Pubkey × Bool))) {locks : AccountLocks} {held : List (List (Pubkey × Bool))},
      Holds locks held → released.Subperm held →
      Holds (released.foldl AccountLocks.unlockAccounts locks) (held.diff released)
  | [], _, _, holds, _ => holds
  | keys :: released, _, held, holds, sub => by
    have member : keys ∈ held := sub.subset List.mem_cons_self
    have rest : released.Subperm (held.erase keys) := by
      simpa using sub.erase keys
    rw [List.foldl_cons, List.diff_cons]
    exact Holds.unlockAll released (holds.unlock member) rest

theorem Holds.unlockAccounts (holds : Holds locks held) {txsAndResults : List (Transaction × Except TransactionError Unit)}
    (sub : (granted txsAndResults).Subperm held) :
    Holds (Accounts.unlockAccounts locks txsAndResults) (held.diff (granted txsAndResults)) := by
  rw [unlockAccounts_eq_foldl]
  exact Holds.unlockAll _ holds sub

theorem diff_append_perm (held released : List (List (Pubkey × Bool))) : ((held ++ released).diff released).Perm held := by
  rw [List.perm_iff_count]
  intro keys
  rw [List.count_diff, List.count_append]
  omega

/-- Unlocking a batch with the results its lock returned gives back the locks as they were: from
every state of the invariant, every lookup of the map and the set reads what it read before. -/
theorem unlockAccounts_lockAccounts (holds : Holds locks held) (txs : List Transaction) (txAccountLockLimit : Nat)
    (key : Pubkey) :
    (Accounts.unlockAccounts (Accounts.lockAccounts locks txs txAccountLockLimit).2
        (txs.zip (Accounts.lockAccounts locks txs txAccountLockLimit).1)).writeLocks.contains key =
      locks.writeLocks.contains key ∧
    (Accounts.unlockAccounts (Accounts.lockAccounts locks txs txAccountLockLimit).2
        (txs.zip (Accounts.lockAccounts locks txs txAccountLockLimit).1)).readonlyLocks[key]? =
      locks.readonlyLocks[key]? := by
  have locked := holds.lockAccounts txs txAccountLockLimit
  have unlocked := locked.unlockAccounts (List.sublist_append_right _ _).subperm
  exact (unlocked.perm (diff_append_perm _ _)).lookup_eq holds key

/-- A transfer: the payer and the recipient written, the program read. -/
def transferTransaction : Transaction := ⟨[1, 2, 3], fun index => index < 2⟩

theorem unlockAccounts_lockAccounts_transfers :
    (Accounts.unlockAccounts (Accounts.lockAccounts AccountLocks.default [transferTransaction, transferTransaction] 64).2
        ([transferTransaction, transferTransaction].zip
          (Accounts.lockAccounts AccountLocks.default [transferTransaction, transferTransaction] 64).1)).writeLocks.contains 1 =
      AccountLocks.default.writeLocks.contains 1 ∧
    (Accounts.unlockAccounts (Accounts.lockAccounts AccountLocks.default [transferTransaction, transferTransaction] 64).2
        ([transferTransaction, transferTransaction].zip
          (Accounts.lockAccounts AccountLocks.default [transferTransaction, transferTransaction] 64).1)).readonlyLocks[3]? =
      AccountLocks.default.readonlyLocks[3]? :=
  ⟨(unlockAccounts_lockAccounts holds_default [transferTransaction, transferTransaction] 64 1).1,
    (unlockAccounts_lockAccounts holds_default [transferTransaction, transferTransaction] 64 3).2⟩

end Batch

/-! ### Runs -/

/-- The locks, and the account lists of the transactions holding them. -/
structure Execution where
  locks : AccountLocks
  held : List (List (Pubkey × Bool))

/-- The calls the bank makes on its account locks. -/
inductive Operation
  | lockAccounts (txs : List Transaction) (txAccountLockLimit : Nat)
  | lockAccountsWithResults (txs : List Transaction) (results : List (Except TransactionError Unit))
    (txAccountLockLimit : Nat)
  | unlockAccounts (txsAndResults : List (Transaction × Except TransactionError Unit))

namespace Execution

def start : Execution := ⟨AccountLocks.default, []⟩

def next (execution : Execution) : Operation → Execution
  | .lockAccounts txs txAccountLockLimit =>
    ⟨(Accounts.lockAccounts execution.locks txs txAccountLockLimit).2,
      execution.held ++ granted (txs.zip (Accounts.lockAccounts execution.locks txs txAccountLockLimit).1)⟩
  | .lockAccountsWithResults txs results txAccountLockLimit =>
    ⟨(Accounts.lockAccountsWithResults execution.locks txs results txAccountLockLimit).2,
      execution.held ++ granted (((txs.zip results).map Prod.fst).zip
        (Accounts.lockAccountsWithResults execution.locks txs results txAccountLockLimit).1)⟩
  | .unlockAccounts txsAndResults =>
    ⟨Accounts.unlockAccounts execution.locks txsAndResults, execution.held.diff (granted txsAndResults)⟩

/-- The bank unlocks only transactions whose locks it holds: those its lock of the batch granted. -/
def Allowed (execution : Execution) : Operation → Prop
  | .unlockAccounts txsAndResults => (granted txsAndResults).Subperm execution.held
  | _ => True

def Step : Execution → Execution → Prop := ActionStep Allowed next

theorem holds_preserved : Preserved Step fun execution => Holds execution.locks execution.held := by
  rintro execution _ holds ⟨operation, allowed, rfl⟩
  cases operation with
  | lockAccounts txs txAccountLockLimit => exact holds.lockAccounts txs txAccountLockLimit
  | lockAccountsWithResults txs results txAccountLockLimit =>
    exact holds.lockAccountsWithResults txs results txAccountLockLimit
  | unlockAccounts txsAndResults => exact holds.unlockAccounts allowed

/-- Along every run of locking and unlocking batches, the locks are exactly those the transactions
holding them took, and no two of those transactions conflict: an account written by one is used
by no other. -/
theorem holds_of_reachable {execution : Execution} (reach : Reachable Step start execution) :
    Holds execution.locks execution.held :=
  holds_preserved.reachable holds_default reach

theorem holds_of_reachable_transfer :
    Holds (start.next (.lockAccounts [transferTransaction] 64)).locks (start.next (.lockAccounts [transferTransaction] 64)).held :=
  holds_of_reachable ((Reachable.refl _ _).tail ⟨.lockAccounts [transferTransaction] 64, trivial, rfl⟩)

end Execution

end AccountsDb
