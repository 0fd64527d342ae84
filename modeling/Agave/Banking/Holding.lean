import Mathlib
import Agave.Library.OptionLoop
import Agave.Banking.ThreadAwareAccountLocks

/-! What the locks of one account hold against the locks taken of it on each thread, and what each
operation on one account does to them: `schedulable_threads` gives the threads that can take a lock
without meeting another thread's, and the lock and unlock of an account on a thread never panic
when it is schedulable, or holds the lock it releases. -/

namespace Banking

open MachineInt

namespace ThreadSet

@[simp] theorem mem_any {numThreads threadId : Nat} : threadId ∈ any numThreads ↔ threadId < numThreads :=
  Finset.mem_range

theorem onlyOneContained_eq_some {threadSet : ThreadSet} {threadId : ThreadId} :
    threadSet.onlyOneContained = some threadId ↔ threadSet = {threadId} := by
  unfold onlyOneContained
  constructor
  · intro contained
    split at contained
    · rename_i one
      obtain ⟨member, rfl⟩ := Finset.card_eq_one.mp one
      simp only [Option.some.injEq, Finset.min'_singleton] at contained
      rw [contained]
    · cases contained
  · rintro rfl
    simp

theorem isEmpty_eq_false {threadSet : ThreadSet} : threadSet.isEmpty = false ↔ threadSet.Nonempty := by
  rw [isEmpty, none, Finset.nonempty_iff_ne_empty]
  exact decide_eq_false_iff_not

end ThreadSet

/-- The write lock of an account against the write locks `writes t` and the read locks `reads t` that
each thread `t` takes of it: one thread holds every write lock, and no other thread holds a lock. -/
def WriteHolds : Option AccountWriteLocks → (ThreadId → Nat) → (ThreadId → Nat) → Prop
  | none, writes, _ => ∀ t, writes t = 0
  | some writeLocks, writes, reads => 0 < writeLocks.lockCount ∧ writes writeLocks.threadId = writeLocks.lockCount ∧
    ∀ t ≠ writeLocks.threadId, writes t = 0 ∧ reads t = 0

/-- The read locks of an account count those of each thread, and their set is the threads with one. -/
def ReadHolds : Option AccountReadLocks → (ThreadId → Nat) → Prop
  | none, reads => ∀ t, reads t = 0
  | some readLocks, reads => readLocks.threadSet.Nonempty ∧
    ∀ t, readLocks.lockCounts t = reads t ∧ (t ∈ readLocks.threadSet ↔ 0 < reads t)

/-- The entry of an account against the locks taken of it: there is one exactly while a lock is. -/
def Holds : Option AccountLocks → (ThreadId → Nat) → (ThreadId → Nat) → Prop
  | none, writes, reads => ∀ t, writes t = 0 ∧ reads t = 0
  | some entry, writes, reads => WriteHolds entry.writeLocks writes reads ∧ ReadHolds entry.readLocks reads ∧
    (entry.writeLocks.isSome ∨ entry.readLocks.isSome)

section Holds

variable {writes reads : ThreadId → Nat} {threadId : ThreadId}

theorem Holds.getD {entry : Option AccountLocks} (holds : Holds entry writes reads) :
    WriteHolds (entry.getD default).writeLocks writes reads ∧ ReadHolds (entry.getD default).readLocks reads := by
  cases entry with
  | none => exact ⟨fun t => (holds t).1, fun t => (holds t).2⟩
  | some entry => exact ⟨holds.1, holds.2.1⟩

theorem WriteHolds.thread_eq {writeLocks : AccountWriteLocks} (holds : WriteHolds (some writeLocks) writes reads)
    (held : 0 < writes threadId ∨ 0 < reads threadId) : writeLocks.threadId = threadId := by
  by_contra other
  have free := holds.2.2 threadId (Ne.symm other)
  omega

theorem WriteHolds.thread_eq_of_free {writeLocks : AccountWriteLocks} (holds : WriteHolds (some writeLocks) writes reads)
    (free : ∀ t ≠ threadId, writes t = 0) : writeLocks.threadId = threadId := by
  by_contra other
  have := free _ other
  have := holds.2.1
  have := holds.1
  omega

theorem WriteHolds.mono_reads {writeLocks : Option AccountWriteLocks} {fewer : ThreadId → Nat}
    (holds : WriteHolds writeLocks writes reads) (le : ∀ t, fewer t ≤ reads t) : WriteHolds writeLocks writes fewer := by
  cases writeLocks with
  | none => exact holds
  | some writeLocks =>
    refine ⟨holds.1, holds.2.1, fun t other => ⟨(holds.2.2 t other).1, ?_⟩⟩
    have := (holds.2.2 t other).2
    have := le t
    omega

theorem ReadHolds.threadSet_eq {readLocks : AccountReadLocks} (holds : ReadHolds (some readLocks) reads)
    (only : ∀ t ≠ threadId, reads t = 0) : readLocks.threadSet = {threadId} := by
  obtain ⟨nonempty, counted⟩ := holds
  refine Finset.eq_singleton_iff_unique_mem.mpr ⟨?_, fun t member => ?_⟩
  · obtain ⟨t, member⟩ := nonempty
    by_contra outside
    have same : t = threadId := by
      by_contra other
      have := (counted t).2.mp member
      have := only t other
      omega
    exact outside (same ▸ member)
  · by_contra other
    have := (counted t).2.mp member
    have := only t other
    omega

theorem WriteHolds.writer_iff {writeLocks : AccountWriteLocks} (holds : WriteHolds (some writeLocks) writes reads)
    {numThreads : Nat} (below : ∀ t, 0 < writes t ∨ 0 < reads t → t < numThreads) (write : Bool) (t : ThreadId) :
    t ∈ ThreadSet.only writeLocks.threadId ↔
      t < numThreads ∧ ∀ t' ≠ t, writes t' = 0 ∧ (write = true → reads t' = 0) := by
  obtain ⟨counted, writer, others⟩ := holds
  rw [ThreadSet.only, Finset.mem_singleton]
  constructor
  · rintro rfl
    exact ⟨below _ (.inl (writer ▸ counted)), fun t' other => ⟨(others t' other).1, fun _ => (others t' other).2⟩⟩
  · rintro ⟨-, only⟩
    by_contra other
    have := (only writeLocks.threadId (Ne.symm other)).1
    omega

end Holds

namespace ThreadAwareAccountLocks

variable {κ : Type} [DecidableEq κ] (s : ThreadAwareAccountLocks κ) {account : κ} {writes reads : ThreadId → Nat}
  {threadId : ThreadId}

omit [DecidableEq κ] in
theorem schedulableThreads_spec (holds : Holds (s.locks account) writes reads)
    (bounded : ∀ t, s.numThreads ≤ t → writes t = 0 ∧ reads t = 0) (write : Bool) :
    ∃ threads, s.schedulableThreads write account = some threads ∧
      ∀ t, t ∈ threads ↔ t < s.numThreads ∧ ∀ t' ≠ t, writes t' = 0 ∧ (write = true → reads t' = 0) := by
  have below : ∀ t, 0 < writes t ∨ 0 < reads t → t < s.numThreads := fun t held => by
    by_contra above
    have := bounded t (Nat.le_of_not_lt above)
    omega
  unfold schedulableThreads
  rcases entry : s.locks account with _ | ⟨_ | writeLocks, _ | readLocks⟩
  · rw [entry] at holds
    exact ⟨_, rfl, fun t => ⟨fun member => ⟨ThreadSet.mem_any.mp member,
      fun t' _ => ⟨(holds t').1, fun _ => (holds t').2⟩⟩, fun ⟨fits, _⟩ => ThreadSet.mem_any.mpr fits⟩⟩
  · rw [entry] at holds
    exact absurd holds.2.2 (by simp)
  · rw [entry] at holds
    obtain ⟨noWrites, readHolds, -⟩ := holds
    have counted := readHolds.2
    cases write with
    | false =>
      exact ⟨_, rfl, fun t => ⟨fun member => ⟨ThreadSet.mem_any.mp member,
        fun t' _ => ⟨noWrites t', fun never => absurd never Bool.false_ne_true⟩⟩,
        fun ⟨fits, _⟩ => ThreadSet.mem_any.mpr fits⟩⟩
    | true =>
      refine ⟨_, if_pos rfl, fun t => ?_⟩
      cases contained : readLocks.threadSet.onlyOneContained with
      | some only =>
        have single := ThreadSet.onlyOneContained_eq_some.mp contained
        rw [Option.map_some, Option.getD_some, ThreadSet.only, Finset.mem_singleton]
        constructor
        · rintro rfl
          refine ⟨below t (.inr ((counted t).2.mp (by simp [single]))), fun t' other => ⟨noWrites t', fun _ => ?_⟩⟩
          by_contra held
          have reader := (counted t').2.mpr (Nat.pos_of_ne_zero held)
          rw [single, Finset.mem_singleton] at reader
          exact other reader
        · rintro ⟨-, only'⟩
          have := readHolds.threadSet_eq fun t' other => (only' t' other).2 rfl
          rw [single, Finset.singleton_inj] at this
          exact this.symm
      | none =>
        rw [Option.map_none, Option.getD_none]
        refine ⟨fun member => absurd member (Finset.notMem_empty t), fun ⟨_, only'⟩ => ?_⟩
        have single := readHolds.threadSet_eq fun t' other => (only' t' other).2 rfl
        rw [← ThreadSet.onlyOneContained_eq_some, contained] at single
        cases single
  · rw [entry] at holds
    exact ⟨_, rfl, holds.1.writer_iff below write⟩
  · rw [entry] at holds
    obtain ⟨writeHolds, readHolds, -⟩ := holds
    have single := readHolds.threadSet_eq fun t other => (writeHolds.2.2 t other).2
    refine ⟨_, ?_, writeHolds.writer_iff below write⟩
    show (if readLocks.threadSet.onlyOneContained = some writeLocks.threadId then some readLocks.threadSet
      else none) = _
    rw [single, ThreadSet.onlyOneContained_eq_some.mpr rfl, if_pos rfl]
    rfl

theorem writeLockAccount_spec (holds : Holds (s.locks account) writes reads)
    (free : ∀ t ≠ threadId, writes t = 0 ∧ reads t = 0) (room : writes threadId + 1 < 2 ^ 32) :
    ∃ entry, s.writeLockAccount account threadId = some (s.setLocks account (some entry)) ∧
      Holds (some entry) (Function.update writes threadId (writes threadId + 1)) reads := by
  obtain ⟨writeHolds, readHolds⟩ := holds.getD
  unfold writeLockAccount
  generalize (s.locks account).getD default = entry at writeHolds readHolds ⊢
  obtain ⟨writeLocks, readLocks⟩ := entry
  have readsHere : readLocks.any (·.threadSet.onlyOneContained != some threadId) = false := by
    cases readLocks with
    | none => rfl
    | some readLocks =>
      have single := readHolds.threadSet_eq fun t other => (free t other).2
      simp [ThreadSet.onlyOneContained_eq_some.mpr single]
  dsimp only
  rw [readsHere, if_neg Bool.false_ne_true]
  cases writeLocks with
  | some writeLocks =>
    have same := writeHolds.thread_eq_of_free fun t other => (free t other).1
    -- the count is the thread's, so one more still fits a `u32`
    have counted := writeHolds.2.1
    rw [same] at counted
    dsimp only
    rw [if_neg (show ¬writeLocks.threadId ≠ threadId from not_not.mpr same),
      wrappingAdd_of_lt (show writeLocks.lockCount + 1 < 2 ^ 32 by omega)]
    refine ⟨_, rfl, ⟨Nat.succ_pos _, ?_, fun t other => ?_⟩, readHolds, .inl rfl⟩
    · show Function.update writes threadId (writes threadId + 1) writeLocks.threadId = writeLocks.lockCount + 1
      rw [same, Function.update_self, counted]
    · rw [Function.update_of_ne (same ▸ other)]
      exact writeHolds.2.2 t other
  | none =>
    refine ⟨_, rfl, ⟨Nat.one_pos, by simp [writeHolds threadId], fun t other => ?_⟩, readHolds, .inl rfl⟩
    rw [Function.update_of_ne other]
    exact ⟨writeHolds t, (free t other).2⟩

theorem readLockAccount_spec (holds : Holds (s.locks account) writes reads)
    (free : ∀ t ≠ threadId, writes t = 0) (room : reads threadId + 1 < 2 ^ 32) :
    ∃ entry, s.readLockAccount account threadId = some (s.setLocks account (some entry)) ∧
      Holds (some entry) writes (Function.update reads threadId (reads threadId + 1)) := by
  obtain ⟨writeHolds, readHolds⟩ := holds.getD
  unfold readLockAccount
  generalize (s.locks account).getD default = entry at writeHolds readHolds ⊢
  obtain ⟨writeLocks, readLocks⟩ := entry
  have writesHere : writeLocks.any (·.threadId != threadId) = false := by
    cases writeLocks with
    | none => rfl
    | some writeLocks => simp [writeHolds.thread_eq_of_free free]
  dsimp only
  rw [writesHere, if_neg Bool.false_ne_true]
  refine ⟨_, rfl, ?_, ?_, .inr rfl⟩
  · cases writeLocks with
    | none => exact writeHolds
    | some writeLocks =>
      have same := writeHolds.thread_eq_of_free free
      refine ⟨writeHolds.1, writeHolds.2.1, fun t other => ⟨(writeHolds.2.2 t other).1, ?_⟩⟩
      rw [Function.update_of_ne (same ▸ other)]
      exact (writeHolds.2.2 t other).2
  · cases readLocks with
    | some readLocks =>
      dsimp only
      rw [wrappingAdd_of_lt (show readLocks.lockCounts threadId + 1 < 2 ^ 32 by rw [(readHolds.2 threadId).1]; exact room)]
      refine ⟨Finset.insert_nonempty _ _, fun t => ?_⟩
      by_cases here : t = threadId
      · subst here
        simp [ThreadSet.insert, (readHolds.2 t).1]
      · simp [ThreadSet.insert, here, readHolds.2 t]
    | none =>
      refine ⟨Finset.singleton_nonempty _, fun t => ?_⟩
      by_cases here : t = threadId
      · subst here
        simp [ThreadSet.only, readHolds t]
      · simp [ThreadSet.only, here, readHolds t]

theorem writeUnlockAccount_spec (holds : Holds (s.locks account) writes reads) (held : 0 < writes threadId)
    (fits : writes threadId < 2 ^ 32) :
    ∃ entry, s.writeUnlockAccount account threadId = some (s.setLocks account entry) ∧
      Holds entry (Function.update writes threadId (writes threadId - 1)) reads := by
  unfold writeUnlockAccount
  rcases entry : s.locks account with _ | ⟨_ | writeLocks, readLocks⟩
  · rw [entry] at holds
    exact absurd (holds threadId).1 (Nat.pos_iff_ne_zero.mp held)
  · rw [entry] at holds
    exact absurd (holds.1 threadId) (Nat.pos_iff_ne_zero.mp held)
  · rw [entry] at holds
    obtain ⟨writeHolds, readHolds, -⟩ := holds
    have same := writeHolds.thread_eq (.inl held)
    obtain ⟨counted, writer, others⟩ := writeHolds
    rw [same] at writer others
    dsimp only
    rw [if_neg (show ¬writeLocks.threadId ≠ threadId from not_not.mpr same),
      wrappingSub_of_le (show 1 ≤ writeLocks.lockCount by omega) (show writeLocks.lockCount < 2 ^ 32 by omega)]
    have writesLeft : ∀ t, Function.update writes threadId (writes threadId - 1) t =
        if t = threadId then writeLocks.lockCount - 1 else 0 := by
      intro t
      by_cases here : t = threadId
      · rw [here, Function.update_self, if_pos rfl, writer]
      · rw [Function.update_of_ne here, if_neg here, (others t here).1]
    split_ifs with last noReads
    · cases readLocks with
      | some _ => cases noReads
      | none =>
        refine ⟨_, rfl, fun t => ⟨?_, readHolds t⟩⟩
        rw [writesLeft]
        split_ifs <;> omega
    · refine ⟨_, rfl, fun t => ?_, readHolds, ?_⟩
      · rw [writesLeft]
        split_ifs <;> omega
      · cases readLocks with
        | none => cases noReads rfl
        | some _ => exact .inr rfl
    · refine ⟨_, rfl, ⟨Nat.pos_of_ne_zero last, ?_, fun t other => ?_⟩, readHolds, .inl rfl⟩
      · show Function.update writes threadId (writes threadId - 1) writeLocks.threadId = writeLocks.lockCount - 1
        rw [same, writesLeft, if_pos rfl]
      · have other' : t ≠ threadId := fun here => other (here.trans same.symm)
        rw [writesLeft, if_neg other']
        exact ⟨rfl, (others t other').2⟩

theorem readUnlockAccount_spec (holds : Holds (s.locks account) writes reads) (held : 0 < reads threadId)
    (fits : reads threadId < 2 ^ 32) :
    ∃ entry, s.readUnlockAccount account threadId = some (s.setLocks account entry) ∧
      Holds entry writes (Function.update reads threadId (reads threadId - 1)) := by
  have fewer : ∀ t, Function.update reads threadId (reads threadId - 1) t ≤ reads t := by
    intro t
    by_cases here : t = threadId
    · rw [here, Function.update_self]
      exact Nat.sub_le _ _
    · rw [Function.update_of_ne here]
  unfold readUnlockAccount
  rcases entry : s.locks account with _ | ⟨writeLocks, _ | readLocks⟩
  · rw [entry] at holds
    exact absurd (holds threadId).2 (Nat.pos_iff_ne_zero.mp held)
  · rw [entry] at holds
    exact absurd (holds.2.1 threadId) (Nat.pos_iff_ne_zero.mp held)
  · rw [entry] at holds
    obtain ⟨writeHolds, ⟨nonempty, counted⟩, -⟩ := holds
    have member : threadId ∈ readLocks.threadSet := (counted threadId).2.mpr held
    dsimp only
    rw [show readLocks.threadSet.contains threadId = true from decide_eq_true member, Bool.not_true,
      if_neg Bool.false_ne_true, (counted threadId).1, wrappingSub_of_le held fits]
    have writeHolds := writeHolds.mono_reads fewer
    have single : (readLocks.threadSet.remove threadId).isEmpty = true → readLocks.threadSet = {threadId} := by
      intro empty
      have gone : readLocks.threadSet.erase threadId = ∅ := decide_eq_true_iff.mp empty
      rw [← Finset.insert_erase member, gone]
      rfl
    split_ifs with last empty noWrites
    · have single := single empty
      cases writeLocks with
      | some _ => cases noWrites
      | none =>
        refine ⟨_, rfl, fun t => ⟨writeHolds t, ?_⟩⟩
        by_cases here : t = threadId
        · rw [here, Function.update_self, last]
        · rw [Function.update_of_ne here]
          by_contra reading
          have := (counted t).2.mpr (Nat.pos_of_ne_zero reading)
          rw [single, Finset.mem_singleton] at this
          exact here this
    · have single := single empty
      refine ⟨_, rfl, writeHolds, fun t => ?_, ?_⟩
      · by_cases here : t = threadId
        · rw [here, Function.update_self, last]
        · rw [Function.update_of_ne here]
          by_contra reading
          have := (counted t).2.mpr (Nat.pos_of_ne_zero reading)
          rw [single, Finset.mem_singleton] at this
          exact here this
      · cases writeLocks with
        | none => cases noWrites rfl
        | some _ => exact .inl rfl
    · refine ⟨_, rfl, writeHolds, ⟨ThreadSet.isEmpty_eq_false.mp (Bool.of_not_eq_true empty), fun t => ?_⟩, .inr rfl⟩
      by_cases here : t = threadId
      · subst here
        simp [ThreadSet.remove, last]
      · simp [ThreadSet.remove, here, counted t]
    · refine ⟨_, rfl, writeHolds, ⟨nonempty, fun t => ?_⟩, .inr rfl⟩
      by_cases here : t = threadId
      · subst here
        dsimp only
        rw [Function.update_self, Function.update_self]
        exact ⟨rfl, ⟨fun _ => Nat.pos_of_ne_zero last, fun _ => member⟩⟩
      · dsimp only
        rw [Function.update_of_ne here, Function.update_of_ne here]
        exact counted t

end ThreadAwareAccountLocks

/-- The locks of the accounts `accounts` taken on `threadId`, added to `counts`: an account listed
twice is locked twice. -/
def addAt {κ : Type} [DecidableEq κ] (counts : κ → ThreadId → Nat) (accounts : List κ) (threadId : ThreadId) :
    κ → ThreadId → Nat :=
  fun account t => counts account t + if t = threadId then accounts.count account else 0

section AddAt

variable {κ : Type} [DecidableEq κ] {counts : κ → ThreadId → Nat} {accounts : List κ} {threadId : ThreadId}

theorem addAt_of_ne {account : κ} {t : ThreadId} (other : t ≠ threadId) :
    addAt counts accounts threadId account t = counts account t := by
  simp [addAt, other]

@[simp] theorem addAt_nil : addAt counts ([] : List κ) threadId = counts := by
  funext account t
  simp [addAt]

theorem addAt_append_singleton (account : κ) :
    addAt counts (accounts ++ [account]) threadId = Function.update (addAt counts accounts threadId) account
      (Function.update (addAt counts accounts threadId account) threadId
        (addAt counts accounts threadId account threadId + 1)) := by
  funext other t
  by_cases same : other = account
  · subst same
    by_cases here : t = threadId
    · subst here
      simp [addAt, List.count_append]
      omega
    · simp [addAt, here]
  · simp [addAt, same, List.count_append, Ne.symm same]

theorem addAt_cons (account : κ) :
    addAt counts accounts threadId = Function.update (addAt counts (account :: accounts) threadId) account
      (Function.update (addAt counts (account :: accounts) threadId account) threadId
        (addAt counts (account :: accounts) threadId account threadId - 1)) := by
  funext other t
  by_cases same : other = account
  · subst same
    by_cases here : t = threadId
    · subst here
      simp [addAt]
    · simp [addAt, here]
  · simp [addAt, same, Ne.symm same]

theorem addAt_le_of_sublist {done : List κ} (sub : done.Sublist accounts) {account : κ} {t : ThreadId} :
    addAt counts done threadId account t ≤ addAt counts accounts threadId account t := by
  unfold addAt
  split_ifs
  · have := sub.count_le account
    omega
  · exact le_rfl

theorem addAt_le_cons (other : κ) {account : κ} {t : ThreadId} :
    addAt counts accounts threadId account t ≤ addAt counts (other :: accounts) threadId account t :=
  addAt_le_of_sublist (List.sublist_cons_self other accounts)

theorem addAt_lt {bound : Nat} (fits : ∀ account t, counts account t < bound)
    (room : ∀ account, counts account threadId + accounts.count account < bound) (account : κ) (t : ThreadId) :
    addAt counts accounts threadId account t < bound := by
  unfold addAt
  split_ifs with here
  · rw [here]
    exact room account
  · simpa using fits account t

end AddAt

/-- The locks of every account hold the locks taken of it on each thread, all below `num_threads`,
and each count fits its `u32`. -/
structure Book {κ : Type} (s : ThreadAwareAccountLocks κ) (writes reads : κ → ThreadId → Nat) : Prop where
  holds : ∀ account, Holds (s.locks account) (writes account) (reads account)
  bounded : ∀ account t, s.numThreads ≤ t → writes account t = 0 ∧ reads account t = 0
  fits : ∀ account t, writes account t < 2 ^ 32 ∧ reads account t < 2 ^ 32

namespace Book

variable {κ : Type} [DecidableEq κ] {s : ThreadAwareAccountLocks κ} {writes reads : κ → ThreadId → Nat}

theorem setLocks (book : Book s writes reads) {account : κ} {entry : Option AccountLocks}
    {writes' reads' : κ → ThreadId → Nat} (holds : Holds entry (writes' account) (reads' account))
    (sameWrites : ∀ other ≠ account, writes' other = writes other) (sameReads : ∀ other ≠ account, reads' other = reads other)
    (bounded : ∀ t, s.numThreads ≤ t → writes' account t = 0 ∧ reads' account t = 0)
    (fits : ∀ t, writes' account t < 2 ^ 32 ∧ reads' account t < 2 ^ 32) :
    Book (s.setLocks account entry) writes' reads' where
  holds other := by
    by_cases same : other = account
    · subst same
      simpa using holds
    · rw [ThreadAwareAccountLocks.setLocks_locks, Function.update_of_ne same, sameWrites other same,
        sameReads other same]
      exact book.holds other
  bounded other t above := by
    by_cases same : other = account
    · subst same
      exact bounded t above
    · rw [sameWrites other same, sameReads other same]
      exact book.bounded other t above
  fits other t := by
    by_cases same : other = account
    · subst same
      exact fits t
    · rw [sameWrites other same, sameReads other same]
      exact book.fits other t

end Book

namespace ThreadAwareAccountLocks

variable {κ : Type} [DecidableEq κ] {s : ThreadAwareAccountLocks κ} {writes reads : κ → ThreadId → Nat}
  {writeAccountLocks readAccountLocks : List κ} {threadId : ThreadId}

omit [DecidableEq κ] in
theorem narrowSchedulableThreads_spec (book : Book s writes reads) (write : Bool) :
    ∀ (accounts : List κ) (threads : ThreadSet), ∃ result, s.narrowSchedulableThreads write threads accounts = some result ∧
      ∀ narrowed, result = some narrowed → ∀ t, t ∈ narrowed ↔ t ∈ threads ∧ ∀ account ∈ accounts,
        t < s.numThreads ∧ ∀ t' ≠ t, writes account t' = 0 ∧ (write = true → reads account t' = 0)
  | [], threads => ⟨_, rfl, fun narrowed same t => by simp [← Option.some.inj same]⟩
  | account :: rest, threads => by
    obtain ⟨accountThreads, scheduled, schedulable⟩ :=
      s.schedulableThreads_spec (book.holds account) (book.bounded account) write
    by_cases empty : (threads ∩ accountThreads).isEmpty = true
    · refine ⟨none, by simp [narrowSchedulableThreads, scheduled, empty, bind], fun _ never => absurd never (by simp)⟩
    · obtain ⟨result, narrowedRest, described⟩ := narrowSchedulableThreads_spec book write rest (threads ∩ accountThreads)
      refine ⟨result, by simp [narrowSchedulableThreads, scheduled, empty, bind, narrowedRest], fun narrowed same t => ?_⟩
      rw [described narrowed same t, Finset.mem_inter, schedulable t, List.forall_mem_cons]
      tauto

omit [DecidableEq κ] in
theorem accountsSchedulableThreads_spec (book : Book s writes reads) (writeAccountLocks readAccountLocks : List κ) :
    ∃ result, s.accountsSchedulableThreads writeAccountLocks readAccountLocks = some result ∧
      ∀ threads, result = some threads → ∀ t ∈ threads, t < s.numThreads ∧
        (∀ account ∈ writeAccountLocks, ∀ t' ≠ t, writes account t' = 0 ∧ reads account t' = 0) ∧
        ∀ account ∈ readAccountLocks, ∀ t' ≠ t, writes account t' = 0 := by
  obtain ⟨writable, narrowedWrites, writesDescribed⟩ :=
    narrowSchedulableThreads_spec book true writeAccountLocks (ThreadSet.any s.numThreads)
  cases writable with
  | none => exact ⟨none, by simp [accountsSchedulableThreads, narrowedWrites, bind], fun _ never => absurd never (by simp)⟩
  | some writeThreads =>
    obtain ⟨result, narrowedReads, readsDescribed⟩ := narrowSchedulableThreads_spec book false readAccountLocks writeThreads
    refine ⟨result, by simp [accountsSchedulableThreads, narrowedWrites, bind, narrowedReads], fun threads same t member => ?_⟩
    obtain ⟨inWrites, readable⟩ := (readsDescribed threads same t).mp member
    obtain ⟨fits, writable⟩ := (writesDescribed writeThreads rfl t).mp inWrites
    exact ⟨ThreadSet.mem_any.mp fits, fun account inList t' other => ⟨((writable account inList).2 t' other).1,
      ((writable account inList).2 t' other).2 rfl⟩, fun account inList t' other => ((readable account inList).2 t' other).1⟩

theorem lockAccounts_spec (book : Book s writes reads) (fits : threadId < s.numThreads)
    (writable : ∀ account ∈ writeAccountLocks, ∀ t ≠ threadId, writes account t = 0 ∧ reads account t = 0)
    (readable : ∀ account ∈ readAccountLocks, ∀ t ≠ threadId, writes account t = 0)
    (room : ∀ account, writes account threadId + writeAccountLocks.count account < 2 ^ 32 ∧
      reads account threadId + readAccountLocks.count account < 2 ^ 32) :
    ∃ locked, s.lockAccounts writeAccountLocks readAccountLocks threadId = some locked ∧
      Book locked (addAt writes writeAccountLocks threadId) (addAt reads readAccountLocks threadId) ∧
      locked.numThreads = s.numThreads := by
  have writesFit := addAt_lt (fun account t => (book.fits account t).1) fun account => (room account).1
  have readsFit := addAt_lt (fun account t => (book.fits account t).2) fun account => (room account).2
  obtain ⟨written, writeLoop, writeBook, writeThreads⟩ := OptionLoop.foldlM_invariant (l := writeAccountLocks)
    (f := fun (s : ThreadAwareAccountLocks κ) account => s.writeLockAccount account threadId)
    (fun done acc => Book acc (addAt writes done threadId) reads ∧ acc.numThreads = s.numThreads)
    (fun done account rest acc position ⟨book, numThreads⟩ => by
      have member : account ∈ writeAccountLocks := by simp [position]
      have prefixFits : ∀ t, addAt writes (done ++ [account]) threadId account t < 2 ^ 32 := fun t =>
        lt_of_le_of_lt (addAt_le_of_sublist (by simp [position])) (writesFit account t)
      obtain ⟨entry, locked, holds⟩ := acc.writeLockAccount_spec (book.holds account)
        (fun t other => by
          rw [addAt_of_ne other]
          exact writable account member t other)
        (by simpa [addAt_append_singleton] using prefixFits threadId)
      refine ⟨_, locked, book.setLocks (by rw [addAt_append_singleton, Function.update_self]; exact holds)
        (fun other different => by rw [addAt_append_singleton, Function.update_of_ne different])
        (fun _ _ => rfl) (fun t above => ?_) (fun t => ⟨prefixFits t, (book.fits account t).2⟩), numThreads⟩
      have other : t ≠ threadId := by
        rintro rfl
        rw [numThreads] at above
        exact absurd above (Nat.not_le.mpr fits)
      have old := book.bounded account t above
      rw [addAt_of_ne other] at old ⊢
      exact old)
    ⟨by simpa using book, rfl⟩
  obtain ⟨locked, readLoop, readBook, readThreads⟩ := OptionLoop.foldlM_invariant (l := readAccountLocks)
    (f := fun (s : ThreadAwareAccountLocks κ) account => s.readLockAccount account threadId)
    (fun done acc => Book acc (addAt writes writeAccountLocks threadId) (addAt reads done threadId) ∧
      acc.numThreads = s.numThreads)
    (fun done account rest acc position ⟨book, numThreads⟩ => by
      have member : account ∈ readAccountLocks := by simp [position]
      have prefixFits : ∀ t, addAt reads (done ++ [account]) threadId account t < 2 ^ 32 := fun t =>
        lt_of_le_of_lt (addAt_le_of_sublist (by simp [position])) (readsFit account t)
      obtain ⟨entry, locked, holds⟩ := acc.readLockAccount_spec (book.holds account)
        (fun t other => by
          rw [addAt_of_ne other]
          exact readable account member t other)
        (by simpa [addAt_append_singleton] using prefixFits threadId)
      refine ⟨_, locked, book.setLocks (by rw [addAt_append_singleton, Function.update_self]; exact holds)
        (fun _ _ => rfl) (fun other different => by rw [addAt_append_singleton, Function.update_of_ne different])
        (fun t above => ?_) (fun t => ⟨(book.fits account t).1, prefixFits t⟩), numThreads⟩
      have other : t ≠ threadId := by
        rintro rfl
        rw [numThreads] at above
        exact absurd above (Nat.not_le.mpr fits)
      have old := book.bounded account t above
      simp only [addAt_of_ne other] at old ⊢
      exact old)
    ⟨by simpa using writeBook, writeThreads⟩
  refine ⟨locked, ?_, readBook, readThreads⟩
  simp [lockAccounts, Nat.not_le.mpr fits, bind, writeLoop, readLoop]

theorem unlockAccounts_spec
    (book : Book s (addAt writes writeAccountLocks threadId) (addAt reads readAccountLocks threadId)) :
    ∃ unlocked, s.unlockAccounts writeAccountLocks readAccountLocks threadId = some unlocked ∧
      Book unlocked writes reads ∧ unlocked.numThreads = s.numThreads := by
  obtain ⟨written, writeLoop, writeBook, writeThreads⟩ := OptionLoop.foldlM_invariant (l := writeAccountLocks)
    (f := fun (s : ThreadAwareAccountLocks κ) account => s.writeUnlockAccount account threadId)
    (fun done acc => Book acc (addAt writes (writeAccountLocks.drop done.length) threadId)
      (addAt reads readAccountLocks threadId) ∧ acc.numThreads = s.numThreads)
    (fun done account rest acc position ⟨book, numThreads⟩ => by
      have left : writeAccountLocks.drop done.length = account :: rest := by simp [position]
      have leftAfter : writeAccountLocks.drop (done ++ [account]).length = rest := by simp [position]
      rw [left] at book
      obtain ⟨entry, unlocked, holds⟩ := acc.writeUnlockAccount_spec (book.holds account)
        (show 0 < addAt writes (account :: rest) threadId account threadId by simp [addAt])
        (book.fits account threadId).1
      refine ⟨_, unlocked, ⟨book.setLocks (by rw [leftAfter, addAt_cons account, Function.update_self]; exact holds)
        (fun other different => by rw [leftAfter, addAt_cons account, Function.update_of_ne different])
        (fun _ _ => rfl) (fun t above => ?_)
        (fun t => leftAfter ▸ ⟨lt_of_le_of_lt (addAt_le_cons account) (book.fits account t).1,
          (book.fits account t).2⟩), numThreads⟩⟩
      have old := book.bounded account t above
      rw [leftAfter]
      exact ⟨Nat.eq_zero_of_le_zero (le_of_le_of_eq (addAt_le_cons account) old.1), old.2⟩)
    ⟨by simpa using book, rfl⟩
  obtain ⟨unlocked, readLoop, readBook, readThreads⟩ := OptionLoop.foldlM_invariant (l := readAccountLocks)
    (f := fun (s : ThreadAwareAccountLocks κ) account => s.readUnlockAccount account threadId)
    (fun done acc => Book acc writes (addAt reads (readAccountLocks.drop done.length) threadId) ∧
      acc.numThreads = s.numThreads)
    (fun done account rest acc position ⟨book, numThreads⟩ => by
      have left : readAccountLocks.drop done.length = account :: rest := by simp [position]
      have leftAfter : readAccountLocks.drop (done ++ [account]).length = rest := by simp [position]
      rw [left] at book
      obtain ⟨entry, unlocked, holds⟩ := acc.readUnlockAccount_spec (book.holds account)
        (show 0 < addAt reads (account :: rest) threadId account threadId by simp [addAt])
        (book.fits account threadId).2
      refine ⟨_, unlocked, ⟨book.setLocks (by rw [leftAfter, addAt_cons account, Function.update_self]; exact holds)
        (fun _ _ => rfl) (fun other different => by rw [leftAfter, addAt_cons account, Function.update_of_ne different])
        (fun t above => ?_)
        (fun t => leftAfter ▸ ⟨(book.fits account t).1,
          lt_of_le_of_lt (addAt_le_cons account) (book.fits account t).2⟩), numThreads⟩⟩
      have old := book.bounded account t above
      rw [leftAfter]
      exact ⟨old.1, Nat.eq_zero_of_le_zero (le_of_le_of_eq (addAt_le_cons account) old.2)⟩)
    ⟨by simpa using writeBook, writeThreads⟩
  refine ⟨unlocked, ?_, by simpa using readBook, readThreads⟩
  simp [unlockAccounts, bind, writeLoop, readLoop]

theorem tryLockAccounts_spec (book : Book s writes reads) (writeAccountLocks readAccountLocks : List κ)
    (allowedThreads : ThreadSet) {threadSelector : ThreadSet → ThreadId}
    (selects : ∀ threads : ThreadSet, threads.Nonempty → threadSelector threads ∈ threads)
    (room : ∀ account t, writes account t + writeAccountLocks.count account < 2 ^ 32 ∧
      reads account t + readAccountLocks.count account < 2 ^ 32) :
    ∃ result, s.tryLockAccounts writeAccountLocks readAccountLocks allowedThreads threadSelector = some result ∧
      (result = (none, s) ∨ ∃ threadId, result.1 = some threadId ∧ threadId ∈ allowedThreads ∧
        Book result.2 (addAt writes writeAccountLocks threadId) (addAt reads readAccountLocks threadId) ∧
        result.2.numThreads = s.numThreads) := by
  obtain ⟨schedulable, scheduled, described⟩ := accountsSchedulableThreads_spec book writeAccountLocks readAccountLocks
  cases schedulable with
  | none => exact ⟨(none, s), by simp [tryLockAccounts, scheduled, bind], .inl rfl⟩
  | some threads =>
    by_cases empty : (threads ∩ allowedThreads).isEmpty = true
    · exact ⟨(none, s), by simp [tryLockAccounts, scheduled, bind, empty], .inl rfl⟩
    · have chosen := selects _ (ThreadSet.isEmpty_eq_false.mp (Bool.of_not_eq_true empty))
      rw [Finset.mem_inter] at chosen
      obtain ⟨fits, writable, readable⟩ := described threads rfl _ chosen.1
      obtain ⟨locked, lockedRun, lockedBook, lockedThreads⟩ := lockAccounts_spec book fits writable readable
        fun account => room account _
      refine ⟨(some (threadSelector (threads ∩ allowedThreads)), locked), ?_, .inr ⟨_, rfl, chosen.2, lockedBook,
        lockedThreads⟩⟩
      simp [tryLockAccounts, scheduled, bind, Bool.of_not_eq_true empty, lockedRun]

end ThreadAwareAccountLocks

end Banking
