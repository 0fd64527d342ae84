import Mathlib
import Agave.Library.StateMachine
import Agave.Banking.ThreadAwareAccountLocks
import Agave.Banking.Holding

/-! The thread-aware account locks under the scheduler that drives them: each `try_lock_accounts`
that returns a thread is a grant of its accounts on that thread, and each `unlock_accounts` gives an
outstanding grant back. Over every run, the locks of each account count the locks that the
outstanding grants take of it, and grants on different threads never conflict. -/

namespace Banking

open StateMachine

variable {κ : Type} [DecidableEq κ]

/-- A `try_lock_accounts` that returned `Some(thread_id)`, and is not yet unlocked. -/
structure Grant (κ : Type) where
  writeAccountLocks : List κ
  readAccountLocks : List κ
  threadId : ThreadId
  deriving DecidableEq

/-- The locks that the grants take of each account on each thread through their lists `accounts`,
one per occurrence of the account. -/
def heldBy (accounts : Grant κ → List κ) (grants : List (Grant κ)) : κ → ThreadId → Nat :=
  fun account t => ((grants.filter (·.threadId = t)).map fun grant => (accounts grant).count account).sum

section HeldBy

variable (accounts : Grant κ → List κ)

@[simp] theorem heldBy_nil : heldBy accounts [] = fun _ _ => 0 := rfl

theorem heldBy_cons (grant : Grant κ) (grants : List (Grant κ)) :
    heldBy accounts (grant :: grants) = addAt (heldBy accounts grants) (accounts grant) grant.threadId := by
  funext account t
  by_cases here : t = grant.threadId
  · simp [heldBy, addAt, here, Nat.add_comm]
  · simp [heldBy, addAt, here, Ne.symm here]

theorem heldBy_perm {grants others : List (Grant κ)} (perm : grants.Perm others) :
    heldBy accounts grants = heldBy accounts others := by
  funext account t
  exact ((perm.filter _).map _).sum_eq

theorem heldBy_append_singleton (grants : List (Grant κ)) (grant : Grant κ) :
    heldBy accounts (grants ++ [grant]) = addAt (heldBy accounts grants) (accounts grant) grant.threadId := by
  rw [heldBy_perm accounts (List.perm_append_singleton grant grants), heldBy_cons]

theorem heldBy_le_sum_length (grants : List (Grant κ)) (account : κ) (t : ThreadId) :
    heldBy accounts grants account t ≤ (grants.map fun grant => (accounts grant).length).sum := by
  induction grants with
  | nil => simp
  | cons grant grants ih =>
    have fewer := (accounts grant).count_le_length (a := account)
    rw [heldBy_cons, List.map_cons, List.sum_cons]
    unfold addAt
    split_ifs <;> omega

theorem heldBy_of_mem {grants : List (Grant κ)} {grant : Grant κ} (member : grant ∈ grants) :
    heldBy accounts grants = addAt (heldBy accounts (grants.erase grant)) (accounts grant) grant.threadId := by
  rw [heldBy_perm accounts (List.perm_cons_erase member), heldBy_cons]

end HeldBy

/-- The locks and the outstanding grants. -/
structure Execution (κ : Type) where
  locks : ThreadAwareAccountLocks κ
  grants : List (Grant κ)

inductive Action (κ : Type)
  | tryLockAccounts (writeAccountLocks readAccountLocks : List κ) (allowedThreads : ThreadSet)
    (threadSelector : ThreadSet → ThreadId)
  | unlockAccounts (grant : Grant κ)

/-- The protocol of the scheduler: a selector returns a member of the non-empty set it is given, a
grant leaves every lock count within its `u32`, and only an outstanding grant is unlocked. -/
def Action.Allowed (execution : Execution κ) : Action κ → Prop
  | .tryLockAccounts writeAccountLocks readAccountLocks _ threadSelector =>
    (∀ threads : ThreadSet, threads.Nonempty → threadSelector threads ∈ threads) ∧
    ∀ account t, heldBy Grant.writeAccountLocks execution.grants account t + writeAccountLocks.count account < 2 ^ 32 ∧
      heldBy Grant.readAccountLocks execution.grants account t + readAccountLocks.count account < 2 ^ 32
  | .unlockAccounts grant => grant ∈ execution.grants

theorem Action.allowed_tryLockAccounts {execution : Execution κ} {writeAccountLocks readAccountLocks : List κ}
    {allowedThreads : ThreadSet} {threadSelector : ThreadSet → ThreadId}
    (selects : ∀ threads : ThreadSet, threads.Nonempty → threadSelector threads ∈ threads)
    (short : (execution.grants.map fun grant => grant.writeAccountLocks.length).sum + writeAccountLocks.length < 2 ^ 32 ∧
      (execution.grants.map fun grant => grant.readAccountLocks.length).sum + readAccountLocks.length < 2 ^ 32) :
    Action.Allowed execution (.tryLockAccounts writeAccountLocks readAccountLocks allowedThreads threadSelector) := by
  refine ⟨selects, fun account t => ⟨?_, ?_⟩⟩
  · have held := heldBy_le_sum_length Grant.writeAccountLocks execution.grants account t
    have listed := writeAccountLocks.count_le_length (a := account)
    omega
  · have held := heldBy_le_sum_length Grant.readAccountLocks execution.grants account t
    have listed := readAccountLocks.count_le_length (a := account)
    omega

namespace Execution

def next (execution : Execution κ) : Action κ → Option (Execution κ)
  | .tryLockAccounts writeAccountLocks readAccountLocks allowedThreads threadSelector => do
    let (threadId, locks) ← execution.locks.tryLockAccounts writeAccountLocks readAccountLocks allowedThreads
      threadSelector
    pure ⟨locks, execution.grants ++ (threadId.map fun threadId => ⟨writeAccountLocks, readAccountLocks, threadId⟩).toList⟩
  | .unlockAccounts grant => do
    let locks ← execution.locks.unlockAccounts grant.writeAccountLocks grant.readAccountLocks grant.threadId
    pure ⟨locks, execution.grants.erase grant⟩

def start (locks : ThreadAwareAccountLocks κ) : Execution κ := ⟨locks, []⟩

def Step : Execution κ → Execution κ → Prop := PartialActionStep Action.Allowed next

/-- The locks of every account hold what the outstanding grants take of it. -/
def Invariant (execution : Execution κ) : Prop :=
  Book execution.locks (heldBy Grant.writeAccountLocks execution.grants) (heldBy Grant.readAccountLocks execution.grants)

theorem start_invariant {numThreads : Nat} {locks : ThreadAwareAccountLocks κ}
    (created : ThreadAwareAccountLocks.new numThreads = some locks) : (start locks).Invariant := by
  unfold ThreadAwareAccountLocks.new at created
  split at created
  · cases created
    exact ⟨fun _ _ => ⟨rfl, rfl⟩, fun _ _ _ => ⟨rfl, rfl⟩, fun _ _ => ⟨by simp [start], by simp [start]⟩⟩
  · cases created

variable {execution : Execution κ}

theorem Invariant.act (invariant : execution.Invariant) {action : Action κ} (allowed : Action.Allowed execution action) :
    ∃ next, execution.next action = some next ∧ next.Invariant := by
  cases action with
  | tryLockAccounts writeAccountLocks readAccountLocks allowedThreads threadSelector =>
    obtain ⟨⟨granted, locks⟩, tried, described⟩ := ThreadAwareAccountLocks.tryLockAccounts_spec invariant
      writeAccountLocks readAccountLocks allowedThreads allowed.1 allowed.2
    rcases described with unchanged | ⟨threadId, rfl, -, lockedBook, -⟩
    · obtain ⟨rfl, rfl⟩ := Prod.mk.inj unchanged
      exact ⟨⟨execution.locks, execution.grants⟩, by simp [next, tried, bind], invariant⟩
    · refine ⟨⟨locks, execution.grants ++ [⟨writeAccountLocks, readAccountLocks, threadId⟩]⟩,
        by simp [next, tried, bind], ?_⟩
      show Book locks (heldBy Grant.writeAccountLocks (execution.grants ++ [⟨writeAccountLocks, readAccountLocks, threadId⟩]))
        (heldBy Grant.readAccountLocks (execution.grants ++ [⟨writeAccountLocks, readAccountLocks, threadId⟩]))
      rw [heldBy_append_singleton, heldBy_append_singleton]
      exact lockedBook
  | unlockAccounts grant =>
    have book : Book execution.locks
        (addAt (heldBy Grant.writeAccountLocks (execution.grants.erase grant)) grant.writeAccountLocks grant.threadId)
        (addAt (heldBy Grant.readAccountLocks (execution.grants.erase grant)) grant.readAccountLocks grant.threadId) := by
      rw [← heldBy_of_mem _ allowed, ← heldBy_of_mem _ allowed]
      exact invariant
    obtain ⟨unlocked, ran, unlockedBook, -⟩ := ThreadAwareAccountLocks.unlockAccounts_spec book
    exact ⟨⟨unlocked, execution.grants.erase grant⟩, by simp [next, ran, bind], unlockedBook⟩

theorem invariant_of_reachable {numThreads : Nat} {locks : ThreadAwareAccountLocks κ}
    (created : ThreadAwareAccountLocks.new numThreads = some locks) (reach : Reachable Step (start locks) execution) :
    execution.Invariant :=
  (Preserved.partialActionStep fun _ _ invariant allowed => invariant.act allowed).reachable
    (start_invariant created) reach

end Execution

/-- `write_locks.lock_count` of an account, zero without a write lock. -/
def writeLockCount (s : ThreadAwareAccountLocks κ) (account : κ) : Nat :=
  match (s.locks account).bind (·.writeLocks) with
  | some writeLocks => writeLocks.lockCount
  | none => 0

/-- `read_locks.lock_counts[thread_id]` of an account, zero without read locks. -/
def readLockCount (s : ThreadAwareAccountLocks κ) (account : κ) (threadId : ThreadId) : Nat :=
  match (s.locks account).bind (·.readLocks) with
  | some readLocks => readLocks.lockCounts threadId
  | none => 0

section Counting

variable (accounts : Grant κ → List κ) {account : κ}

theorem sum_count_eq_heldBy (threadId : ThreadId) :
    ∀ {grants : List (Grant κ)}, (∀ t ≠ threadId, heldBy accounts grants account t = 0) →
      (grants.map fun grant => (accounts grant).count account).sum = heldBy accounts grants account threadId
  | [], _ => rfl
  | grant :: grants, only => by
    have step : ∀ t, heldBy accounts (grant :: grants) account t =
        heldBy accounts grants account t + if t = grant.threadId then (accounts grant).count account else 0 := by
      intro t
      rw [heldBy_cons]
      rfl
    have rest : ∀ t ≠ threadId, heldBy accounts grants account t = 0 := by
      intro t other
      have := only t other
      rw [step] at this
      omega
    rw [List.map_cons, List.sum_cons, sum_count_eq_heldBy threadId rest, step]
    by_cases here : threadId = grant.threadId
    · rw [if_pos here]
      omega
    · have none := only grant.threadId (Ne.symm here)
      rw [step, if_pos rfl] at none
      rw [if_neg here]
      omega

theorem heldBy_pos {grants : List (Grant κ)} {grant : Grant κ} (granted : grant ∈ grants)
    (listed : account ∈ accounts grant) : 0 < heldBy accounts grants account grant.threadId := by
  rw [heldBy_of_mem accounts granted]
  unfold addAt
  rw [if_pos rfl]
  have := List.count_pos_iff.mpr listed
  omega

end Counting

namespace Book

section Entries

variable {s : ThreadAwareAccountLocks κ} {writes reads : κ → ThreadId → Nat} (book : Book s writes reads)
include book

omit [DecidableEq κ] in
theorem mem_threadSet_iff {account : κ} {readLocks : AccountReadLocks}
    (reading : (s.locks account).bind (·.readLocks) = some readLocks) (threadId : ThreadId) :
    threadId ∈ readLocks.threadSet ↔ 0 < readLocks.lockCounts threadId := by
  have holds := book.holds account
  rcases entry : s.locks account with _ | ⟨writeLocks, _ | readLocks'⟩ <;> rw [entry] at reading holds
  · cases reading
  · cases reading
  · obtain rfl := Option.some.inj reading
    rw [(holds.2.1.2 threadId).1]
    exact (holds.2.1.2 threadId).2

omit [DecidableEq κ] in
theorem isSome_iff (account : κ) :
    (s.locks account).isSome ↔ 0 < writeLockCount s account ∨ ∃ threadId, 0 < readLockCount s account threadId := by
  have holds := book.holds account
  unfold writeLockCount readLockCount
  rcases entry : s.locks account with _ | ⟨_ | writeLocks, _ | readLocks⟩ <;> rw [entry] at holds
  · simp
  · exact absurd holds.2.2 (by simp)
  · obtain ⟨threadId, member⟩ := holds.2.1.1
    refine ⟨fun _ => .inr ⟨threadId, ?_⟩, fun _ => rfl⟩
    show 0 < readLocks.lockCounts threadId
    rw [(holds.2.1.2 threadId).1]
    exact (holds.2.1.2 threadId).2.mp member
  · exact ⟨fun _ => .inl holds.1.1, fun _ => rfl⟩
  · exact ⟨fun _ => .inl holds.1.1, fun _ => rfl⟩

end Entries

variable {s : ThreadAwareAccountLocks κ} {grants : List (Grant κ)}
  (book : Book s (heldBy Grant.writeAccountLocks grants) (heldBy Grant.readAccountLocks grants))
include book

theorem writeLockCount_eq (account : κ) :
    writeLockCount s account = (grants.map fun grant => grant.writeAccountLocks.count account).sum := by
  have holds := book.holds account
  unfold writeLockCount
  rcases entry : s.locks account with _ | ⟨_ | writeLocks, readLocks⟩
  · rw [entry] at holds
    exact ((sum_count_eq_heldBy _ 0 fun t _ => (holds t).1).trans (holds 0).1).symm
  · rw [entry] at holds
    exact ((sum_count_eq_heldBy _ 0 fun t _ => holds.1 t).trans (holds.1 0)).symm
  · rw [entry] at holds
    obtain ⟨-, writer, others⟩ := holds.1
    exact writer.symm.trans (sum_count_eq_heldBy _ _ fun t other => (others t other).1).symm

theorem readLockCount_eq (account : κ) (threadId : ThreadId) :
    readLockCount s account threadId = heldBy Grant.readAccountLocks grants account threadId := by
  have holds := book.holds account
  unfold readLockCount
  rcases entry : s.locks account with _ | ⟨writeLocks, _ | readLocks⟩
  · rw [entry] at holds
    exact (holds threadId).2.symm
  · rw [entry] at holds
    exact (holds.2.1 threadId).symm
  · rw [entry] at holds
    exact (holds.2.1.2 threadId).1

theorem exclusive {grant other : Grant κ} (granted : grant ∈ grants) (otherGranted : other ∈ grants)
    (different : grant.threadId ≠ other.threadId) {account : κ} (writes : account ∈ grant.writeAccountLocks) :
    account ∉ other.writeAccountLocks ∧ account ∉ other.readAccountLocks := by
  have holds := book.holds account
  have writing := heldBy_pos _ granted writes
  rcases entry : s.locks account with _ | ⟨_ | writeLocks, readLocks⟩
  · rw [entry] at holds
    exact absurd (holds grant.threadId).1 (Nat.pos_iff_ne_zero.mp writing)
  · rw [entry] at holds
    exact absurd (holds.1 grant.threadId) (Nat.pos_iff_ne_zero.mp writing)
  · rw [entry] at holds
    have writer := holds.1.thread_eq (.inl writing)
    have free := holds.1.2.2 other.threadId (writer ▸ Ne.symm different)
    exact ⟨fun listed => absurd free.1 (Nat.pos_iff_ne_zero.mp (heldBy_pos _ otherGranted listed)),
      fun listed => absurd free.2 (Nat.pos_iff_ne_zero.mp (heldBy_pos _ otherGranted listed))⟩

end Book

namespace Execution

variable {execution : Execution κ}

theorem thread_locks_counted {numThreads : Nat} {locks : ThreadAwareAccountLocks κ}
    (created : ThreadAwareAccountLocks.new numThreads = some locks) (reach : Reachable Step (start locks) execution) :
    (∀ action, Action.Allowed execution action → ∃ next, execution.next action = some next) ∧
    (∀ account,
      writeLockCount execution.locks account =
        (execution.grants.map fun grant => grant.writeAccountLocks.count account).sum ∧
      (∀ threadId, readLockCount execution.locks account threadId =
        ((execution.grants.filter (·.threadId = threadId)).map fun grant => grant.readAccountLocks.count account).sum) ∧
      (∀ readLocks, (execution.locks.locks account).bind (·.readLocks) = some readLocks →
        ∀ threadId, threadId ∈ readLocks.threadSet ↔ 0 < readLocks.lockCounts threadId) ∧
      ((execution.locks.locks account).isSome ↔
        0 < writeLockCount execution.locks account ∨ ∃ threadId, 0 < readLockCount execution.locks account threadId)) ∧
    ∀ grant ∈ execution.grants, ∀ other ∈ execution.grants, grant.threadId ≠ other.threadId →
      ∀ account ∈ grant.writeAccountLocks, account ∉ other.writeAccountLocks ∧ account ∉ other.readAccountLocks := by
  have invariant := invariant_of_reachable created reach
  refine ⟨fun action allowed => ?_, fun account => ⟨invariant.writeLockCount_eq account,
    invariant.readLockCount_eq account, fun readLocks reading => invariant.mem_threadSet_iff reading,
    invariant.isSome_iff account⟩, fun grant granted other otherGranted different account writes =>
    invariant.exclusive granted otherGranted different writes⟩
  obtain ⟨next, moved, -⟩ := invariant.act allowed
  exact ⟨next, moved⟩

/-- Two threads: the first grant writes account `0` and reads account `1` on thread `0`; the second,
allowed only thread `1`, writes account `2` and reads account `1` there too. -/
theorem thread_locks_counted_two_threads :
    let locks : ThreadAwareAccountLocks Nat := ⟨2, fun _ => none⟩
    let lowest : ThreadSet → ThreadId := fun threads => if nonempty : threads.Nonempty then threads.min' nonempty else 0
    let first := ((start locks).next (.tryLockAccounts [0] [1] (ThreadSet.any 2) lowest)).getD (start locks)
    let execution := (first.next (.tryLockAccounts [2] [1] (ThreadSet.only 1) lowest)).getD first
    ThreadAwareAccountLocks.new 2 = some locks ∧ Reachable Step (start locks) execution ∧
    (∀ action, Action.Allowed execution action → ∃ next, execution.next action = some next) ∧
    (∀ account,
      writeLockCount execution.locks account =
        (execution.grants.map fun grant => grant.writeAccountLocks.count account).sum ∧
      (∀ threadId, readLockCount execution.locks account threadId =
        ((execution.grants.filter (·.threadId = threadId)).map fun grant => grant.readAccountLocks.count account).sum) ∧
      (∀ readLocks, (execution.locks.locks account).bind (·.readLocks) = some readLocks →
        ∀ threadId, threadId ∈ readLocks.threadSet ↔ 0 < readLocks.lockCounts threadId) ∧
      ((execution.locks.locks account).isSome ↔
        0 < writeLockCount execution.locks account ∨ ∃ threadId, 0 < readLockCount execution.locks account threadId)) ∧
    ∀ grant ∈ execution.grants, ∀ other ∈ execution.grants, grant.threadId ≠ other.threadId →
      ∀ account ∈ grant.writeAccountLocks, account ∉ other.writeAccountLocks ∧ account ∉ other.readAccountLocks := by
  intro locks lowest first execution
  have selects : ∀ threads : ThreadSet, threads.Nonempty → lowest threads ∈ threads :=
    fun threads nonempty => by simp [lowest, nonempty, Finset.min'_mem]
  have created : ThreadAwareAccountLocks.new 2 = some locks := rfl
  have firstStep : Step (start locks) first := by
    unfold Step
    exact PartialActionStep.of_isSome (a := Action.tryLockAccounts [0] [1] (ThreadSet.any 2) lowest)
      (Action.allowed_tryLockAccounts selects (by decide)) (by decide)
  have secondStep : Step first execution := by
    unfold Step
    exact PartialActionStep.of_isSome (a := Action.tryLockAccounts [2] [1] (ThreadSet.only 1) lowest)
      (Action.allowed_tryLockAccounts selects (by decide)) (by decide)
  have reach : Reachable Step (start locks) execution := ((Reachable.refl Step _).tail firstStep).tail secondStep
  exact ⟨created, reach, thread_locks_counted created reach⟩

/-- A transaction that lists its write account twice takes two write locks of it in one grant. -/
theorem writeLockCount_of_repeated_account :
    let locks : ThreadAwareAccountLocks Nat := ⟨1, fun _ => none⟩
    let execution := ((start locks).next (.tryLockAccounts [0, 0] [] (ThreadSet.any 1)
      fun threads => if nonempty : threads.Nonempty then threads.min' nonempty else 0)).getD (start locks)
    ThreadAwareAccountLocks.new 1 = some locks ∧ Reachable Step (start locks) execution ∧
      writeLockCount execution.locks 0 = 2 ∧
      (execution.grants.filter fun grant => 0 ∈ grant.writeAccountLocks).length = 1 := by
  intro locks execution
  have allowed : Action.Allowed (start locks) (.tryLockAccounts [0, 0] [] (ThreadSet.any 1)
      fun threads => if nonempty : threads.Nonempty then threads.min' nonempty else 0) :=
    Action.allowed_tryLockAccounts (fun threads nonempty => by simp [nonempty, Finset.min'_mem]) (by decide)
  exact ⟨rfl, (Reachable.refl Step _).tail ⟨_, allowed, rfl⟩, by decide, by decide⟩

end Execution

end Banking
