import Mathlib
import Agave.Library.MachineInt
import Agave.Library.List
import Agave.Library.OptionLoop
import Agave.Scheduler.StateMachine
import Agave.Scheduler.Queue
import Agave.Scheduler.Execution

/-! `deschedule_task` keeps the invariant of the execution and never panics: each address the task
held is unlocked, and the loop that relocks it for the tasks blocked on it pops each of them once,
counts it down, and hands it out when it waits nowhere else. -/

namespace UnifiedScheduler

open MachineInt SchedulingStateMachine

variable {α : Type}

/-- The four task counters of two machines agree. -/
def SameCounters (machine other : SchedulingStateMachine α) : Prop :=
  other.activeTaskCount = machine.activeTaskCount ∧ other.handledTaskCount = machine.handledTaskCount ∧
    other.unblockedTaskCount = machine.unblockedTaskCount ∧ other.totalTaskCount = machine.totalTaskCount

theorem SameCounters.refl (machine : SchedulingStateMachine α) : SameCounters machine machine := ⟨rfl, rfl, rfl, rfl⟩

theorem SameCounters.trans {machine middle other : SchedulingStateMachine α} (first : SameCounters machine middle)
    (second : SameCounters middle other) : SameCounters machine other :=
  ⟨second.1.trans first.1, second.2.1.trans first.2.1, second.2.2.1.trans first.2.2.1, second.2.2.2.trans first.2.2.2⟩

theorem SameCounters.setUsageQueue [DecidableEq α] (machine : SchedulingStateMachine α) (address : α) (usageQueue : UsageQueueInner α) :
    SameCounters machine (machine.setUsageQueue address usageQueue) := ⟨rfl, rfl, rfl, rfl⟩

variable [DecidableEq α]

section Spec

variable (s : SchedulingStateMachine α) (address : α)

theorem unlockUsageQueue_of_unlock {requestedUsage : RequestedUsage} {inHand : Option (UsageFromTask α)}
    {usageQueue : UsageQueueInner α} (unlocked : (s.usageQueues address).unlock requestedUsage = some (inHand, usageQueue)) :
    s.unlockUsageQueue (address, requestedUsage) =
      unblockUsages address (usageQueue.blockedUsagesFromTasks.length + 1) inHand (s.setUsageQueue address usageQueue) := by
  simp [unlockUsageQueue, unlocked, bind]

theorem unblockUsages_none (fuel : Nat) : unblockUsages address fuel none s = some s := by
  cases fuel <;> rfl

theorem unblockUsages_some {fuel : Nat} {requestedUsage : RequestedUsage} {task : Task α}
    {unblocked : SchedulingStateMachine α} {usageQueue : UsageQueueInner α}
    (tried : s.tryUnblock task = some unblocked)
    (locked : (unblocked.usageQueues address).tryLock requestedUsage = some (.ok (), usageQueue)) :
    unblockUsages address (fuel + 1) (some (requestedUsage, task)) s =
      (match requestedUsage with
        | .readonly => usageQueue.popUnblockedReadonlyUsageFromTask
        | .writable => some (none, usageQueue)) >>= fun popped =>
      unblockUsages address fuel popped.1 (unblocked.setUsageQueue address popped.2) := by
  simp only [unblockUsages, tried, locked, bind, Option.bind]
  cases requestedUsage <;> rfl

end Spec

/-- What the counts and the unblocked queue say of the live tasks, with one task popped off a queue
and not yet counted down. -/
structure TaskBook (live handedOut : List (Task α)) (machine : SchedulingStateMachine α) (inHand : Option (Task α)) :
    Prop where
  counts : ∀ task ∈ live, machine.blockedUsageCounts task.id =
    waitingCount machine.usageQueues task + if inHand = some task then 1 else 0
  countsFree : ∀ id ∉ live.map Task.id, machine.blockedUsageCounts id = 0
  partition : (live.filter fun task => machine.blockedUsageCounts task.id = 0).Perm
    (machine.unblockedTaskQueue ++ handedOut)

namespace TaskBook

variable {live handedOut : List (Task α)} {machine : SchedulingStateMachine α} {address : α}

theorem tryUnblock {task : Task α} (book : TaskBook live handedOut machine (some task)) (live_task : task ∈ live)
    (distinct : (live.map Task.id).Nodup) :
    ∃ unblocked, machine.tryUnblock task = some unblocked ∧ TaskBook live handedOut unblocked none ∧
      unblocked.usageQueues = machine.usageQueues ∧ SameCounters machine unblocked := by
  have counted := book.counts task live_task
  simp only [if_true] at counted
  have decremented : decrement (machine.blockedUsageCounts task.id) = some (waitingCount machine.usageQueues task) := by
    simp [decrement, checkedSub, counted]
  have others : ∀ other ∈ live, other ≠ task → other.id ≠ task.id := fun other member different same =>
    different (List.inj_on_of_nodup_map distinct member live_task same)
  let counts := Function.update machine.blockedUsageCounts task.id (waitingCount machine.usageQueues task)
  have countsBook : ∀ other ∈ live, counts other.id = waitingCount machine.usageQueues other := by
    intro other member
    by_cases same : other = task
    · subst same
      simp [counts]
    · have := book.counts other member
      simp only [Option.some.injEq, Ne.symm same, if_false, Nat.add_zero] at this
      simp [counts, Function.update_of_ne (others other member same), this]
  have countsFree : ∀ id ∉ live.map Task.id, counts id = 0 := by
    intro id outside
    have elsewhere : id ≠ task.id := fun same => outside (same ▸ List.mem_map_of_mem live_task)
    simp [counts, Function.update_of_ne elsewhere, book.countsFree id outside]
  have wasBlocked : machine.blockedUsageCounts task.id ≠ 0 := by omega
  by_cases done : waitingCount machine.usageQueues task = 0
  · refine ⟨{ machine with blockedUsageCounts := counts, unblockedTaskQueue := machine.unblockedTaskQueue ++ [task] },
      by simp [SchedulingStateMachine.tryUnblock, decremented, done, bind, counts], ⟨?_, countsFree, ?_⟩, rfl,
      SameCounters.refl machine⟩
    · intro other member
      simpa using countsBook other member
    · have flipped := List.filter_perm_of_flip (List.Nodup.of_map Task.id distinct) live_task
        (p := fun other => decide (machine.blockedUsageCounts other.id = 0))
        (q := fun other => decide (counts other.id = 0))
        (by simpa using wasBlocked) (by simp [counts, done])
        (fun other member different => by simp [counts, Function.update_of_ne (others other member different)])
      refine flipped.trans ?_
      refine (book.partition.append_right [task]).trans ?_
      simp only [List.append_assoc]
      exact (List.perm_append_comm.append_left _).trans (by simp)
  · refine ⟨{ machine with blockedUsageCounts := counts },
      by simp [SchedulingStateMachine.tryUnblock, decremented, done, bind, counts], ⟨?_, countsFree, ?_⟩, rfl,
      SameCounters.refl machine⟩
    · intro other member
      simpa using countsBook other member
    · have same : (live.filter fun other => counts other.id = 0) =
          live.filter fun other => machine.blockedUsageCounts other.id = 0 := by
        refine List.filter_congr fun other member => ?_
        by_cases isTask : other = task
        · subst isTask
          simp [counts, done, wasBlocked]
        · simp [counts, Function.update_of_ne (others other member isTask)]
      simpa [same] using book.partition

theorem setQueue (book : TaskBook live handedOut machine none) {usageQueue : UsageQueueInner α}
    {popped : Option (UsageFromTask α)}
    (split : (machine.usageQueues address).blockedUsagesFromTasks = popped.toList ++ usageQueue.blockedUsagesFromTasks)
    (nodup : ((machine.usageQueues address).blockedUsagesFromTasks.map Prod.snd).Nodup)
    (poppedUses : ∀ usage ∈ popped, (address, usage.1) ∈ usage.2.lockContexts ∧ usage.2.addresses.Nodup) :
    TaskBook live handedOut (machine.setUsageQueue address usageQueue) (popped.map Prod.snd) where
  counts := by
    intro task member
    have counted := book.counts task member
    simp only [reduceCtorEq, if_false, Nat.add_zero] at counted
    rw [setUsageQueue_usageQueues]
    cases popped with
    | none =>
      simp only [Option.toList_none, List.nil_append] at split
      simp only [Option.map_none, reduceCtorEq, if_false, Nat.add_zero]
      rw [waitingCount_update_of_iff (by rw [split]), ← counted]
      rfl
    | some usage =>
      obtain ⟨requestedUsage, poppedTask⟩ := usage
      simp only [Option.toList_some, List.singleton_append] at split
      rw [split, List.map_cons, List.nodup_cons] at nodup
      by_cases same : task = poppedTask
      · subst same
        obtain ⟨uses, nodupAddresses⟩ := poppedUses (requestedUsage, task) rfl
        have updated := waitingCount_update machine.usageQueues usageQueue nodupAddresses uses
        have wasWaiting : waitsAt machine.usageQueues task address = true := by simp [waitsAt, split]
        rw [wasWaiting, if_pos rfl, if_neg nodup.1, Nat.add_zero] at updated
        dsimp only at updated
        show machine.blockedUsageCounts task.id = _
        rw [counted, Option.map_some, if_pos rfl]
        omega
      · have different : ¬(some poppedTask = some task) := fun equal => same (Option.some.inj equal).symm
        simp only [Option.map_some, different, if_false, Nat.add_zero]
        rw [waitingCount_update_of_iff (by rw [split]; simp [same]), ← counted]
        rfl
  countsFree := book.countsFree
  partition := book.partition

end TaskBook

section Relocking

variable {live handedOut : List (Task α)} (distinct : (live.map Task.id).Nodup)
  (nodupAddresses : ∀ task ∈ live, task.addresses.Nodup) (room : live.length ≤ maxValue 32)
include distinct nodupAddresses room

/-- The relocking loop of `unlock_usage_queues` at an address never panics nor runs out of fuel: it
relocks the usage in hand and the readonly ones behind it, counting each task down, and leaves the
queue holding its users with nothing in hand. It touches no other address, only pops blocked
usages, and leaves the counters alone. -/
theorem unblockUsages_spec (address : α) :
    ∀ (fuel : Nat) (inHand : Option (UsageFromTask α)) (machine : SchedulingStateMachine α),
      Queued (usersOf address live) (machine.usageQueues address) inHand →
      TaskBook live handedOut machine (inHand.map Prod.snd) →
      (inHand.isSome → (machine.usageQueues address).blockedUsagesFromTasks.length < fuel) →
      ∃ result, unblockUsages address fuel inHand machine = some result ∧
        Queued (usersOf address live) (result.usageQueues address) none ∧ TaskBook live handedOut result none ∧
        (∀ other ≠ address, result.usageQueues other = machine.usageQueues other) ∧
        (∀ usage ∈ (result.usageQueues address).blockedUsagesFromTasks,
          usage ∈ (machine.usageQueues address).blockedUsagesFromTasks) ∧
        SameCounters machine result
  | _, none, machine, queued, book, _ =>
    ⟨machine, unblockUsages_none machine address _, queued, book, fun _ _ => rfl, fun _ member => member,
      SameCounters.refl machine⟩
  | 0, some _, _, _, _, fuelLeft => absurd (fuelLeft rfl) (Nat.not_lt_zero _)
  | fuel + 1, some (requestedUsage, task), machine, queued, book, fuelLeft => by
    have live_task : task ∈ live := (mem_usersOf.mp queued.mem_of_inHand).1
    obtain ⟨unblocked, tried, book, sameQueues, counters⟩ := book.tryUnblock live_task distinct
    have queuedHere : Queued (usersOf address live) (unblocked.usageQueues address) (some (requestedUsage, task)) := by
      rw [sameQueues]
      exact queued
    obtain ⟨relocked, locked, queuedRelocked, sameBlocked, readers⟩ :=
      queuedHere.relock (Nat.le_trans (length_usersOf_le nodupAddresses) room)
    obtain ⟨popped, usageQueue, pop, queuedPopped, poppedSplit⟩ :
        ∃ popped usageQueue, (match requestedUsage with
          | .readonly => relocked.popUnblockedReadonlyUsageFromTask
          | .writable => some (none, relocked)) = some (popped, usageQueue) ∧
          Queued (usersOf address live) usageQueue popped ∧
          relocked.blockedUsagesFromTasks = popped.toList ++ usageQueue.blockedUsagesFromTasks := by
      cases requestedUsage with
      | readonly => exact queuedRelocked.popUnblockedReadonly (readers rfl)
      | writable => exact ⟨none, relocked, rfl, queuedRelocked, rfl⟩
    rw [sameBlocked] at poppedSplit
    have blockedNodup : ((unblocked.usageQueues address).blockedUsagesFromTasks.map Prod.snd).Nodup :=
      (queuedHere.blocked_sublist.map Prod.snd).nodup
        (nodup_map_snd_usersOf (List.Nodup.of_map Task.id distinct) nodupAddresses)
    have poppedUses : ∀ usage ∈ popped, (address, usage.1) ∈ usage.2.lockContexts ∧ usage.2.addresses.Nodup := by
      intro usage member
      have waiting : usage ∈ (unblocked.usageQueues address).blockedUsagesFromTasks := by
        rw [poppedSplit]
        exact List.mem_append_left _ (Option.mem_toList.mpr member)
      have user := mem_usersOf.mp (queuedHere.mem_of_blocked waiting)
      exact ⟨user.2, nodupAddresses _ user.1⟩
    have fuelLeft : popped.isSome → usageQueue.blockedUsagesFromTasks.length < fuel := by
      intro isSome
      obtain ⟨usage, rfl⟩ := Option.isSome_iff_exists.mp isSome
      have lengths := congrArg List.length poppedSplit
      have before := fuelLeft rfl
      rw [sameQueues] at lengths
      simp only [Option.toList_some, List.singleton_append, List.length_cons] at lengths
      omega
    obtain ⟨result, ran, queuedResult, bookResult, others, fewer, moreCounters⟩ :=
      unblockUsages_spec address fuel popped (unblocked.setUsageQueue address usageQueue) (by simpa using queuedPopped)
        (book.setQueue poppedSplit blockedNodup poppedUses) (by simpa using fuelLeft)
    refine ⟨result, ?_, queuedResult, bookResult, fun other different => ?_, fun usage member => ?_,
      counters.trans ((SameCounters.setUsageQueue unblocked address usageQueue).trans moreCounters)⟩
    · rw [unblockUsages_some machine address tried locked, pop]
      exact ran
    · rw [others other different, setUsageQueue_usageQueues, Function.update_of_ne different, sameQueues]
    · have waiting := fewer usage member
      rw [setUsageQueue_usageQueues, Function.update_self] at waiting
      rw [← sameQueues, poppedSplit]
      exact List.mem_append_right _ waiting

end Relocking

/-- Where the loop of `unlock_usage_queues` stands after the lock contexts `done` of the task: the
addresses done hold their users among the other live tasks, the others still hold the task, the
book is that of the other live tasks, the task waits nowhere, and the counters are those the loop
started from. -/
structure Unlocking (live handedOut : List (Task α)) (task : Task α) (base : SchedulingStateMachine α)
    (done : List (α × RequestedUsage)) (machine : SchedulingStateMachine α) : Prop where
  queued : ∀ address, Queued (usersOf address (if address ∈ done.map Prod.fst then live.erase task else live))
    (machine.usageQueues address) none
  book : TaskBook (live.erase task) (handedOut.erase task) machine none
  notWaiting : ∀ address, task ∉ (machine.usageQueues address).blockedUsagesFromTasks.map Prod.snd
  counters : SameCounters base machine

namespace Unlocking

variable {live handedOut : List (Task α)} {task : Task α} {base machine : SchedulingStateMachine α}

theorem erase_live (task : Task α) (distinct : (live.map Task.id).Nodup) (nodupAddresses : ∀ task ∈ live, task.addresses.Nodup)
    (room : live.length ≤ maxValue 32) :
    ((live.erase task).map Task.id).Nodup ∧ (∀ other ∈ live.erase task, other.addresses.Nodup) ∧
      (live.erase task).length ≤ maxValue 32 :=
  ⟨((List.erase_sublist).map Task.id).nodup distinct,
    fun other member => nodupAddresses other (List.mem_of_mem_erase member),
    Nat.le_trans List.length_erase_le room⟩

theorem step (distinct : (live.map Task.id).Nodup) (nodupAddresses : ∀ task ∈ live, task.addresses.Nodup)
    (room : live.length ≤ maxValue 32) (live_task : task ∈ live) {done rest : List (α × RequestedUsage)}
    {context : α × RequestedUsage} (position : task.lockContexts = done ++ context :: rest)
    (unlocking : Unlocking live handedOut task base done machine) :
    ∃ next, machine.unlockUsageQueue context = some next ∧ Unlocking live handedOut task base (done ++ [context]) next := by
  obtain ⟨address, requestedUsage⟩ := context
  have nodupTask := nodupAddresses task live_task
  have mem : (address, requestedUsage) ∈ task.lockContexts := by simp [position]
  have notDone : address ∉ done.map Prod.fst := by
    have nodup := nodupTask
    rw [Task.addresses, position, List.map_append, List.map_cons] at nodup
    exact fun inDone => List.disjoint_of_nodup_append nodup inDone List.mem_cons_self
  obtain ⟨front, back, -, liveSplit, erased⟩ := List.exists_erase_eq live_task
  have queuedHere := unlocking.queued address
  rw [if_neg notDone, liveSplit, usersOf_erase nodupTask mem] at queuedHere
  have holding : (requestedUsage, task) ∉ (machine.usageQueues address).blockedUsagesFromTasks :=
    fun waiting => unlocking.notWaiting address (List.mem_map_of_mem (f := Prod.snd) waiting)
  obtain ⟨inHand, usageQueue, unlocked, queuedUnlocked, blockedSplit⟩ := queuedHere.unlock holding
  have blockedUsers := queuedHere.blocked_sublist
  rw [← usersOf_erase nodupTask mem, ← liveSplit] at blockedUsers
  have blockedNodup : ((machine.usageQueues address).blockedUsagesFromTasks.map Prod.snd).Nodup :=
    (blockedUsers.map Prod.snd).nodup (nodup_map_snd_usersOf (List.Nodup.of_map Task.id distinct) nodupAddresses)
  have poppedUses : ∀ usage ∈ inHand, (address, usage.1) ∈ usage.2.lockContexts ∧ usage.2.addresses.Nodup := by
    intro usage member
    have user := mem_usersOf.mp (blockedUsers.subset (by
      rw [blockedSplit]
      exact List.mem_append_left _ (Option.mem_toList.mpr member)))
    exact ⟨user.2, nodupAddresses _ user.1⟩
  obtain ⟨distinct', nodupAddresses', room'⟩ := erase_live task distinct nodupAddresses room
  have queuedSet : Queued (usersOf address (live.erase task))
      ((machine.setUsageQueue address usageQueue).usageQueues address) inHand := by
    rw [erased, usersOf_append, setUsageQueue_usageQueues, Function.update_self]
    exact queuedUnlocked
  obtain ⟨result, ran, queuedResult, bookResult, others, fewer, counters⟩ :=
    unblockUsages_spec distinct' nodupAddresses' room' address (usageQueue.blockedUsagesFromTasks.length + 1) inHand
      (machine.setUsageQueue address usageQueue) queuedSet (unlocking.book.setQueue blockedSplit blockedNodup poppedUses)
      (fun _ => by simp)
  refine ⟨result, by rw [unlockUsageQueue_of_unlock machine address unlocked]; exact ran, ⟨fun other => ?_, bookResult,
    fun other => ?_, unlocking.counters.trans ((SameCounters.setUsageQueue machine address usageQueue).trans counters)⟩⟩
  · by_cases same : other = address
    · subst same
      simpa using queuedResult
    · have stillDone : other ∈ (done ++ [(address, requestedUsage)]).map Prod.fst ↔ other ∈ done.map Prod.fst := by
        simp [same]
      rw [others other same, setUsageQueue_usageQueues, Function.update_of_ne same, if_congr stillDone rfl rfl]
      exact unlocking.queued other
  · by_cases same : other = address
    · subst same
      intro waiting
      obtain ⟨usage, member, rfl⟩ := List.mem_map.mp waiting
      have popped := fewer usage member
      rw [setUsageQueue_usageQueues, Function.update_self] at popped
      exact unlocking.notWaiting other (List.mem_map_of_mem (by rw [blockedSplit]; exact List.mem_append_right _ popped))
    · rw [others other same, setUsageQueue_usageQueues, Function.update_of_ne same]
      exact unlocking.notWaiting other

end Unlocking

namespace Execution

variable {execution : Execution α} {task : Task α}

theorem Invariant.unlocking (invariant : execution.Invariant) (handed : task ∈ execution.handedOut)
    {base : SchedulingStateMachine α} (usageQueues : base.usageQueues = execution.machine.usageQueues)
    (counts : base.blockedUsageCounts = execution.machine.blockedUsageCounts)
    (queue : base.unblockedTaskQueue = execution.machine.unblockedTaskQueue) :
    Unlocking execution.live execution.handedOut task base [] base := by
  obtain ⟨live_task, zero⟩ := invariant.mem_free_iff.mp (List.mem_append_right _ handed)
  have nodup := List.Nodup.of_map Task.id invariant.distinct
  refine ⟨fun address => ?_, ⟨fun other member => ?_, fun id outside => ?_, ?_⟩, fun address => ?_,
    SameCounters.refl base⟩
  · simpa [usageQueues] using invariant.queued address
  · simp only [reduceCtorEq, if_false, Nat.add_zero]
    rw [counts, usageQueues]
    exact invariant.counts other (List.mem_of_mem_erase member)
  · rw [counts]
    by_cases own : id = task.id
    · rw [own, zero]
    · refine invariant.countsFree id fun inLive => outside ?_
      obtain ⟨other, member, rfl⟩ := List.mem_map.mp inLive
      exact List.mem_map_of_mem ((List.mem_erase_of_ne fun same => own (congrArg Task.id same)).mpr member)
  · have disjoint := (invariant.partition.nodup_iff.mp (nodup.filter _))
    have notQueued : task ∉ execution.machine.unblockedTaskQueue :=
      fun queued => List.disjoint_of_nodup_append disjoint queued handed
    rw [counts, queue, nodup.filter_erase, ← List.erase_append_right _ notQueued]
    exact invariant.partition.erase task
  · rw [usageQueues]
    exact invariant.not_waiting_of_free (List.mem_append_right _ handed) address

theorem Invariant.descheduleTask (invariant : execution.Invariant) (allowed : Action.Allowed execution (.descheduleTask task)) :
    ∃ next, execution.next (.descheduleTask task) = some next ∧ next.Invariant := by
  obtain ⟨live_task, -⟩ := invariant.mem_free_iff.mp (List.mem_append_right _ allowed)
  have liveLength := List.length_pos_of_mem live_task
  have handedLength := List.length_pos_of_mem (show task ∈ execution.handedOut from allowed)
  have active := invariant.active
  have handled := invariant.handled
  have total := invariant.total
  have bounded := invariant.bounded
  have fits : execution.machine.handledTaskCount + 1 ≤ maxValue 32 := by omega
  have room : execution.live.length ≤ maxValue 32 := by omega
  let base : SchedulingStateMachine α := { execution.machine with
    activeTaskCount := execution.machine.activeTaskCount - 1
    handledTaskCount := execution.machine.handledTaskCount + 1 }
  have descheduled : execution.machine.descheduleTask task = base.unlockUsageQueues task := by
    have positive : 1 ≤ execution.machine.activeTaskCount := by omega
    simp [SchedulingStateMachine.descheduleTask, bind, decrement, increment, checkedSub, checkedAdd, positive, fits,
      base]
  have start : Unlocking execution.live execution.handedOut task base [] base :=
    invariant.unlocking allowed rfl rfl rfl
  obtain ⟨machine, loop, unlocking⟩ := OptionLoop.foldlM_invariant (l := task.lockContexts)
    (f := fun (machine : SchedulingStateMachine α) context => machine.unlockUsageQueue context)
    (fun done machine => Unlocking execution.live execution.handedOut task base done machine)
    (fun _ _ _ _ position unlocking => unlocking.step invariant.distinct invariant.nodupAddresses room live_task
      position) start
  have ran : execution.machine.descheduleTask task = some machine := descheduled.trans loop
  refine ⟨⟨machine, execution.live.erase task, execution.handedOut.erase task, execution.scheduled⟩,
    by simp [next, ran, bind], ?_⟩
  obtain ⟨distinct, nodupAddresses, -⟩ := Unlocking.erase_live task invariant.distinct
    invariant.nodupAddresses room
  obtain ⟨sameActive, sameHandled, sameUnblocked, sameTotal⟩ := unlocking.counters
  have liveErased := List.length_erase_of_mem live_task
  have handedErased := List.length_erase_of_mem (show task ∈ execution.handedOut from allowed)
  have unblocked := invariant.unblocked
  dsimp only [base] at sameActive sameHandled sameUnblocked sameTotal
  refine ⟨distinct, nodupAddresses, fun address => ?_, fun other member => ?_, unlocking.book.countsFree,
    unlocking.book.partition, ?_, ?_, ?_, ?_, bounded⟩
  · have queued := unlocking.queued address
    split_ifs at queued with used
    · exact queued
    · obtain ⟨front, back, -, liveSplit, erased⟩ := List.exists_erase_eq live_task
      rwa [liveSplit, usersOf_erase_of_not_mem used, ← erased] at queued
  · simpa using unlocking.book.counts other member
  · dsimp only
    omega
  · dsimp only
    omega
  · dsimp only
    omega
  · dsimp only
    omega

end Execution

end UnifiedScheduler
