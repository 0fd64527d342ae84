import Mathlib
import Agave.Library.MachineInt

/-! The thread-aware account locks of the banking stage's transaction scheduler: each account has a
write lock held by one thread and read locks held by a set of threads, each with a count, so that
a queued transaction can be scheduled onto a thread that already holds its locks. A `ThreadSet`,
the `u64` bit set of thread ids below `MAX_THREADS`, is the finite set of its members; a failed
`assert!`, `assert_eq!`, `panic!` or `unreachable!` is `none`. A `LockCount` is a `u32`, incremented
and decremented with the wrapping arithmetic of a release build. -/

namespace Banking

open MachineInt

/-- `MAX_THREADS`, the bits of a `u64`. -/
def maxThreads : Nat := 64

abbrev ThreadId := Nat

/-- `ThreadSet`, as the set of the threads whose bit is set. -/
abbrev ThreadSet := Finset ThreadId

namespace ThreadSet

def none : ThreadSet := ∅

/-- The threads below `numThreads`: the low `numThreads` bits, or `u64::MAX` for all of them. -/
def any (numThreads : Nat) : ThreadSet := Finset.range numThreads

def only (threadId : ThreadId) : ThreadSet := {threadId}

/-- The thread of a set of exactly one thread: the `trailing_zeros` of its single bit. -/
def onlyOneContained (threadSet : ThreadSet) : Option ThreadId :=
  if one : threadSet.card = 1 then some (threadSet.min' (Finset.card_pos.mp (one ▸ Nat.one_pos)))
  else Option.none

def isEmpty (threadSet : ThreadSet) : Bool := decide (threadSet = none)

def contains (threadSet : ThreadSet) (threadId : ThreadId) : Bool := decide (threadId ∈ threadSet)

def insert (threadSet : ThreadSet) (threadId : ThreadId) : ThreadSet := Insert.insert threadId threadSet

def remove (threadSet : ThreadSet) (threadId : ThreadId) : ThreadSet := threadSet.erase threadId

end ThreadSet

structure AccountWriteLocks where
  threadId : ThreadId
  lockCount : Nat

/-- The read locks of an account, with `lock_counts: [LockCount; MAX_THREADS]` as a function of the
thread. -/
structure AccountReadLocks where
  threadSet : ThreadSet
  lockCounts : ThreadId → Nat

/-- The locks of an account; `AccountLocks::default()` has neither. -/
structure AccountLocks where
  writeLocks : Option AccountWriteLocks
  readLocks : Option AccountReadLocks

instance : Inhabited AccountLocks := ⟨⟨none, none⟩⟩

/-- The number of threads and the locks of each account: an account has an entry only while it has
a lock. -/
structure ThreadAwareAccountLocks (κ : Type) where
  numThreads : Nat
  locks : κ → Option AccountLocks

namespace ThreadAwareAccountLocks

variable {κ : Type} [DecidableEq κ] (s : ThreadAwareAccountLocks κ)

def new (numThreads : Nat) : Option (ThreadAwareAccountLocks κ) :=
  -- `assert!(num_threads > 0)` and `assert!(num_threads <= MAX_THREADS)`
  if 0 < numThreads ∧ numThreads ≤ maxThreads then some ⟨numThreads, fun _ => none⟩ else none

/-- The entry of an account replaced, or removed with `none`. -/
def setLocks (account : κ) (entry : Option AccountLocks) : ThreadAwareAccountLocks κ :=
  { s with locks := Function.update s.locks account entry }

@[simp] theorem setLocks_numThreads (account : κ) (entry : Option AccountLocks) :
    (s.setLocks account entry).numThreads = s.numThreads := rfl

@[simp] theorem setLocks_locks (account : κ) (entry : Option AccountLocks) :
    (s.setLocks account entry).locks = Function.update s.locks account entry := rfl

/-- `schedulable_threads::<WRITE>`. -/
def schedulableThreads (write : Bool) (account : κ) : Option ThreadSet :=
  match s.locks account with
  | none => some (ThreadSet.any s.numThreads)
  | some ⟨none, some readLocks⟩ =>
    if write then some ((readLocks.threadSet.onlyOneContained.map ThreadSet.only).getD ThreadSet.none)
    else some (ThreadSet.any s.numThreads)
  | some ⟨some writeLocks, none⟩ => some (ThreadSet.only writeLocks.threadId)
  | some ⟨some writeLocks, some readLocks⟩ =>
    -- `assert_eq!`
    if readLocks.threadSet.onlyOneContained = some writeLocks.threadId then some readLocks.threadSet else none
  -- `unreachable!()`
  | some ⟨none, none⟩ => none

def readSchedulableThreads (account : κ) : Option ThreadSet := s.schedulableThreads false account

def writeSchedulableThreads (account : κ) : Option ThreadSet := s.schedulableThreads true account

/-- A loop of `accounts_schedulable_threads` over one list of accounts, narrowing the threads; the
inner `none` is its early `return None` once no thread is left. -/
def narrowSchedulableThreads (write : Bool) : ThreadSet → List κ → Option (Option ThreadSet)
  | threads, [] => some (some threads)
  | threads, account :: rest => do
    let accountThreads ← s.schedulableThreads write account
    let threads := threads ∩ accountThreads
    if threads.isEmpty then pure none else narrowSchedulableThreads write threads rest

def accountsSchedulableThreads (writeAccountLocks readAccountLocks : List κ) : Option (Option ThreadSet) := do
  match ← s.narrowSchedulableThreads true (ThreadSet.any s.numThreads) writeAccountLocks with
  | none => pure none
  | some threads => s.narrowSchedulableThreads false threads readAccountLocks

def writeLockAccount (account : κ) (threadId : ThreadId) : Option (ThreadAwareAccountLocks κ) :=
  -- `entry(*account).or_default()`
  let entry := (s.locks account).getD default
  -- `assert_eq!`: an outstanding read lock must be on the same thread
  if entry.readLocks.any (·.threadSet.onlyOneContained != some threadId) then none
  else
    match entry.writeLocks with
    | some writeLocks =>
      -- `assert_eq!`: an outstanding write lock must be on the same thread
      if writeLocks.threadId ≠ threadId then none
      else some (s.setLocks account (some { entry with
        writeLocks := some { writeLocks with lockCount := wrappingAdd 32 writeLocks.lockCount 1 } }))
    | none => some (s.setLocks account (some { entry with writeLocks := some ⟨threadId, 1⟩ }))

def writeUnlockAccount (account : κ) (threadId : ThreadId) : Option (ThreadAwareAccountLocks κ) :=
  match s.locks account with
  -- `panic!`: the write lock must exist
  | none => none
  | some entry =>
    match entry.writeLocks with
    | none => none
    | some writeLocks =>
      -- `assert_eq!`: an outstanding write lock must be on the same thread
      if writeLocks.threadId ≠ threadId then none
      else
        let lockCount := wrappingSub 32 writeLocks.lockCount 1
        if lockCount = 0 then
          if entry.readLocks.isNone then some (s.setLocks account none)
          else some (s.setLocks account (some { entry with writeLocks := none }))
        else some (s.setLocks account (some { entry with writeLocks := some { writeLocks with lockCount } }))

def readLockAccount (account : κ) (threadId : ThreadId) : Option (ThreadAwareAccountLocks κ) :=
  -- `entry(*account).or_default()`
  let entry := (s.locks account).getD default
  -- `assert_eq!`: an outstanding write lock must be on the same thread
  if entry.writeLocks.any (·.threadId != threadId) then none
  else
    let readLocks : AccountReadLocks := match entry.readLocks with
      | some readLocks =>
        ⟨readLocks.threadSet.insert threadId,
          Function.update readLocks.lockCounts threadId (wrappingAdd 32 (readLocks.lockCounts threadId) 1)⟩
      | none => ⟨ThreadSet.only threadId, Function.update (fun _ => 0) threadId 1⟩
    some (s.setLocks account (some { entry with readLocks := some readLocks }))

def readUnlockAccount (account : κ) (threadId : ThreadId) : Option (ThreadAwareAccountLocks κ) :=
  match s.locks account with
  -- `panic!`: the read lock must exist
  | none => none
  | some entry =>
    match entry.readLocks with
    | none => none
    | some readLocks =>
      -- `assert!`: an outstanding read lock must be on the same thread
      if !readLocks.threadSet.contains threadId then none
      else
        let lockCount := wrappingSub 32 (readLocks.lockCounts threadId) 1
        let lockCounts := Function.update readLocks.lockCounts threadId lockCount
        if lockCount = 0 then
          let threadSet := readLocks.threadSet.remove threadId
          if threadSet.isEmpty then
            if entry.writeLocks.isNone then some (s.setLocks account none)
            else some (s.setLocks account (some { entry with readLocks := none }))
          else some (s.setLocks account (some { entry with readLocks := some ⟨threadSet, lockCounts⟩ }))
        else some (s.setLocks account (some { entry with readLocks := some ⟨readLocks.threadSet, lockCounts⟩ }))

def lockAccounts (writeAccountLocks readAccountLocks : List κ) (threadId : ThreadId) :
    Option (ThreadAwareAccountLocks κ) := do
  -- `assert!(thread_id < self.num_threads)`
  if s.numThreads ≤ threadId then none
  else
    let s ← writeAccountLocks.foldlM (fun s account => s.writeLockAccount account threadId) s
    readAccountLocks.foldlM (fun s account => s.readLockAccount account threadId) s

def unlockAccounts (writeAccountLocks readAccountLocks : List κ) (threadId : ThreadId) :
    Option (ThreadAwareAccountLocks κ) := do
  let s ← writeAccountLocks.foldlM (fun s account => s.writeUnlockAccount account threadId) s
  readAccountLocks.foldlM (fun s account => s.readUnlockAccount account threadId) s

/-- `try_lock_accounts`: the thread chosen by `threadSelector` among the schedulable and allowed
threads, with the accounts locked on it, or `none` and nothing locked. -/
def tryLockAccounts (writeAccountLocks readAccountLocks : List κ) (allowedThreads : ThreadSet)
    (threadSelector : ThreadSet → ThreadId) : Option (Option ThreadId × ThreadAwareAccountLocks κ) := do
  match ← s.accountsSchedulableThreads writeAccountLocks readAccountLocks with
  | none => pure (none, s)
  | some threads =>
    let schedulableThreads := threads ∩ allowedThreads
    if schedulableThreads.isEmpty then pure (none, s)
    else
      let threadId := threadSelector schedulableThreads
      let s ← s.lockAccounts writeAccountLocks readAccountLocks threadId
      pure (some threadId, s)

end ThreadAwareAccountLocks

end Banking
