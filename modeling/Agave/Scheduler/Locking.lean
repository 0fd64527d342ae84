import Mathlib
import Agave.Library.MachineInt
import Agave.Library.List
import Agave.Library.OptionLoop
import Agave.Scheduler.StateMachine
import Agave.Scheduler.Queue
import Agave.Scheduler.Execution

/-! `schedule_task`, `schedule_next_unblocked_task` and `reinitialize` keep the invariant of the
execution, and never panic when called as the protocol says. -/

namespace UnifiedScheduler

open MachineInt SchedulingStateMachine

variable {α : Type} [DecidableEq α]

section Spec

variable (s : SchedulingStateMachine α) (task : Task α) (blocked : Nat) (context : α × RequestedUsage)

theorem tryLockUsageQueue_of_locked {usageQueue : UsageQueueInner α}
    (noBlocked : (s.usageQueues context.1).blockedUsagesFromTasks = [])
    (locked : (s.usageQueues context.1).tryLock context.2 = some (.ok (), usageQueue)) :
    s.tryLockUsageQueue task blocked context = some (blocked, s.setUsageQueue context.1 usageQueue) := by
  simp [tryLockUsageQueue, UsageQueueInner.hasNoBlockedUsage, noBlocked, locked, bind]

theorem tryLockUsageQueue_of_refused {usageQueue : UsageQueueInner α}
    (refused : (s.usageQueues context.1).blockedUsagesFromTasks ≠ [] ∨
      (s.usageQueues context.1).tryLock context.2 = some (.error (), s.usageQueues context.1))
    (pushed : (s.usageQueues context.1).pushBlockedUsageFromTask (context.2, task) = some usageQueue)
    (fits : blocked < maxValue 32) :
    s.tryLockUsageQueue task blocked context = some (blocked + 1, s.setUsageQueue context.1 usageQueue) := by
  have counted : increment blocked = some (blocked + 1) := by simp [increment, checkedAdd]; omega
  rcases refused with waiting | refused
  · simp [tryLockUsageQueue, UsageQueueInner.hasNoBlockedUsage, waiting, pushed, counted, bind]
  · by_cases noBlocked : (s.usageQueues context.1).blockedUsagesFromTasks = []
    · simp [tryLockUsageQueue, UsageQueueInner.hasNoBlockedUsage, noBlocked, refused, pushed, counted, bind]
    · simp [tryLockUsageQueue, UsageQueueInner.hasNoBlockedUsage, noBlocked, pushed, counted, bind]

theorem tryLockUsageQueues_of_loop {machine : SchedulingStateMachine α}
    (loop : task.lockContexts.foldlM (fun acc context => acc.2.tryLockUsageQueue task acc.1 context) (0, s) =
      some (blocked, machine)) :
    s.tryLockUsageQueues task = some (if blocked = 0 then (some task, machine)
      else (none, { machine with blockedUsageCounts := Function.update machine.blockedUsageCounts task.id blocked })) := by
  simp only [tryLockUsageQueues, bind, Option.bind, loop]
  split <;> rfl

end Spec

/-- The loop of `try_lock_usage_queues` after the contexts `done` of `task`: the queues of their
addresses hold the task's usages after those of the live tasks, `blocked` counts the queues the
task waits in, and nothing else of `base` has changed. -/
structure Locking (live : List (Task α)) (task : Task α) (base : SchedulingStateMachine α)
    (done : List (α × RequestedUsage)) (blocked : Nat) (machine : SchedulingStateMachine α) : Prop where
  queued : ∀ address, Queued (usersOf address live ++
    (done.filter (·.1 = address)).map fun context => (context.2, task)) (machine.usageQueues address) none
  others : ∀ other ∈ live, waitingCount machine.usageQueues other = waitingCount base.usageQueues other
  counted : blocked = waitingCount machine.usageQueues task
  unchanged : machine = { base with usageQueues := machine.usageQueues }
  bounded : blocked ≤ done.length

namespace Locking

variable {live : List (Task α)} {task : Task α} {base machine : SchedulingStateMachine α}
  {done rest : List (α × RequestedUsage)} {context : α × RequestedUsage} {blocked : Nat}

theorem not_waiting_of_not_live (queued : ∀ address, Queued (usersOf address live) (machine.usageQueues address) none)
    (fresh : task ∉ live) (address : α) :
    task ∉ (machine.usageQueues address).blockedUsagesFromTasks.map Prod.snd := by
  intro waiting
  obtain ⟨usage, blockedUsage, rfl⟩ := List.mem_map.mp waiting
  exact fresh (mem_usersOf.mp ((queued address).mem_of_blocked blockedUsage)).1

theorem start (queued : ∀ address, Queued (usersOf address live) (base.usageQueues address) none)
    (fresh : task ∉ live) : Locking live task base [] 0 base where
  queued := fun address => by simpa using queued address
  others := fun _ _ => rfl
  counted := by
    symm
    refine List.countP_eq_zero.mpr fun context _ => ?_
    simpa [waitsAt] using not_waiting_of_not_live queued fresh context.1
  unchanged := rfl
  bounded := Nat.zero_le _

theorem filter_done_eq_nil (position : task.lockContexts = done ++ context :: rest)
    (nodup : task.addresses.Nodup) : done.filter (·.1 = context.1) = [] := by
  rw [Task.addresses, position, List.map_append, List.map_cons, List.nodup_append] at nodup
  exact List.filter_eq_nil_iff.mpr fun other inDone same =>
    nodup.2.2 _ (List.mem_map_of_mem inDone) _ List.mem_cons_self (by simpa using same)

theorem setQueue (locking : Locking live task base done blocked machine)
    (position : task.lockContexts = done ++ context :: rest) (nodup : task.addresses.Nodup)
    {usageQueue : UsageQueueInner α}
    (queued : Queued (usersOf context.1 live ++ [(context.2, task)]) usageQueue none)
    (othersSame : ∀ other ∈ live, other ∈ usageQueue.blockedUsagesFromTasks.map Prod.snd ↔
      other ∈ (machine.usageQueues context.1).blockedUsagesFromTasks.map Prod.snd)
    (fresh : task ∉ (machine.usageQueues context.1).blockedUsagesFromTasks.map Prod.snd) :
    Locking live task base (done ++ [context])
      (blocked + if task ∈ usageQueue.blockedUsagesFromTasks.map Prod.snd then 1 else 0)
      (machine.setUsageQueue context.1 usageQueue) where
  queued := fun address => by
    by_cases here : address = context.1
    · subst here
      simpa [filter_done_eq_nil position nodup] using queued
    · have other := locking.queued address
      have skipped : ¬context.1 = address := fun same => here same.symm
      simpa [here, skipped] using other
  others := fun other member => by
    rw [setUsageQueue_usageQueues, waitingCount_update_of_iff (othersSame other member)]
    exact locking.others other member
  counted := by
    have mem : (context.1, context.2) ∈ task.lockContexts := by simp [position]
    have updated := waitingCount_update machine.usageQueues usageQueue nodup mem
    have notBefore : waitsAt machine.usageQueues task context.1 = false := by simpa [waitsAt] using fresh
    rw [notBefore] at updated
    simp only [Bool.false_eq_true, if_false, Nat.add_zero] at updated
    rw [setUsageQueue_usageQueues, updated, locking.counted]
  unchanged := by rw [locking.unchanged]; rfl
  bounded := by
    have := locking.bounded
    simp only [List.length_append, List.length_singleton]
    split <;> omega

theorem step (locking : Locking live task base done blocked machine)
    (position : task.lockContexts = done ++ context :: rest) (nodup : task.addresses.Nodup) (fresh : task ∉ live)
    (nodupLive : ∀ other ∈ live, other.addresses.Nodup) (room : live.length < maxValue 32)
    (fits : task.lockContexts.length ≤ maxValue 32) :
    ∃ acc, machine.tryLockUsageQueue task blocked context = some acc ∧
      Locking live task base (done ++ [context]) acc.1 acc.2 := by
  have queued : Queued (usersOf context.1 live) (machine.usageQueues context.1) none := by
    simpa [filter_done_eq_nil position nodup] using locking.queued context.1
  have absent : task ∉ (machine.usageQueues context.1).blockedUsagesFromTasks.map Prod.snd := by
    intro waiting
    obtain ⟨usage, blockedUsage, rfl⟩ := List.mem_map.mp waiting
    exact fresh (mem_usersOf.mp (queued.mem_of_blocked blockedUsage)).1
  have countFits : blocked < maxValue 32 := by
    have := locking.bounded
    have : done.length < task.lockContexts.length := by simp [position]
    omega
  have wait : (machine.usageQueues context.1).currentUsage ≠ none →
      (machine.usageQueues context.1).blockedUsagesFromTasks ≠ [] ∨
        (machine.usageQueues context.1).tryLock context.2 = some (.error (), machine.usageQueues context.1) →
      ∃ acc, machine.tryLockUsageQueue task blocked context = some acc ∧
        Locking live task base (done ++ [context]) acc.1 acc.2 := by
    intro used refused
    obtain ⟨usageQueue, pushed, queued'⟩ := queued.push context.2 task used
    have inQueue : task ∈ usageQueue.blockedUsagesFromTasks.map Prod.snd := by
      simp [UsageQueueInner.pushBlockedUsageFromTask_of_used used] at pushed
      simp [← pushed]
    refine ⟨_, tryLockUsageQueue_of_refused machine task blocked context refused pushed countFits, ?_⟩
    have next := locking.setQueue position nodup queued' (fun other member => ?_) absent
    · simpa [inQueue] using next
    · rw [UsageQueueInner.pushBlockedUsageFromTask_of_used used, Option.some.injEq] at pushed
      have : other ≠ task := fun same => fresh (same ▸ member)
      simp [← pushed, this]
  by_cases noBlocked : (machine.usageQueues context.1).blockedUsagesFromTasks = []
  · have holders : (usersOf context.1 live).length < maxValue 32 :=
      Nat.lt_of_le_of_lt (length_usersOf_le nodupLive) room
    obtain ⟨holdersList, split, holds, -⟩ := queued
    have fewer : (holdersList.map Prod.fst).length < maxValue 32 := by
      have := congrArg List.length split
      simp only [List.length_append] at this
      simp only [List.length_map]
      omega
    obtain ⟨⟨lockResult, usageQueue⟩, locked⟩ := UsageQueueInner.tryLock_isSome context.2 holds fewer
    cases lockResult with
    | ok _ =>
      refine ⟨_, tryLockUsageQueue_of_locked machine task blocked context noBlocked locked, ?_⟩
      have queued' := Queued.lock task ⟨holdersList, split, holds, fun nonempty => absurd noBlocked nonempty⟩
        noBlocked locked
      have sameBlocked := UsageQueueInner.tryLock_blocked locked
      have next := locking.setQueue position nodup queued' (fun other _ => by rw [sameBlocked]) absent
      simpa [sameBlocked, noBlocked] using next
    | error _ =>
      obtain ⟨rfl, used⟩ := UsageQueueInner.tryLock_error locked
      exact wait used (.inr locked)
  · exact wait (queued.currentUsage_ne_none noBlocked) (.inl noBlocked)

end Locking

namespace Execution

variable {execution : Execution α} {task : Task α}

theorem Invariant.scheduleTask (invariant : execution.Invariant)
    (allowed : Action.Allowed execution (.scheduleTask task)) :
    ∃ next, execution.next (.scheduleTask task) = some next ∧ next.Invariant := by
  obtain ⟨freshId, nodup, fits, fewer⟩ := allowed
  have fresh : task ∉ execution.live := fun member => freshId task member rfl
  have totalFits : execution.machine.totalTaskCount + 1 ≤ maxValue 32 := by
    have := invariant.total
    omega
  have activeFits : execution.machine.activeTaskCount + 1 ≤ maxValue 32 := by
    have := invariant.handled
    omega
  have room : execution.live.length < maxValue 32 := by
    rw [← invariant.active]
    omega
  let base : SchedulingStateMachine α := { execution.machine with
    totalTaskCount := execution.machine.totalTaskCount + 1,
    activeTaskCount := execution.machine.activeTaskCount + 1 }
  have start : Locking execution.live task base [] (0, base).1 (0, base).2 := Locking.start invariant.queued fresh
  obtain ⟨⟨blocked, machine⟩, loop, locking⟩ := OptionLoop.foldlM_invariant (l := task.lockContexts)
    (f := fun (acc : Nat × SchedulingStateMachine α) context => acc.2.tryLockUsageQueue task acc.1 context)
    (fun done (acc : Nat × SchedulingStateMachine α) => Locking execution.live task base done acc.1 acc.2)
    (fun _ _ _ _ position locking => locking.step position nodup fresh invariant.nodupAddresses room fits) start
  dsimp only at locking
  have scheduled : execution.machine.scheduleTask task = base.tryLockUsageQueues task := by
    simp [SchedulingStateMachine.scheduleTask, bind, increment, checkedAdd, totalFits, activeFits, base]
  rw [tryLockUsageQueues_of_loop base task blocked loop] at scheduled
  have unchanged := locking.unchanged
  have sameCounts : machine.blockedUsageCounts = execution.machine.blockedUsageCounts := by rw [unchanged]
  have sameQueue : machine.unblockedTaskQueue = execution.machine.unblockedTaskQueue := by rw [unchanged]
  have sameActive : machine.activeTaskCount = execution.machine.activeTaskCount + 1 := by rw [unchanged]
  have sameTotal : machine.totalTaskCount = execution.machine.totalTaskCount + 1 := by rw [unchanged]
  have sameHandled : machine.handledTaskCount = execution.machine.handledTaskCount := by rw [unchanged]
  have sameUnblocked : machine.unblockedTaskCount = execution.machine.unblockedTaskCount := by rw [unchanged]
  have queued : ∀ address, Queued (usersOf address (execution.live ++ [task])) (machine.usageQueues address) none := by
    intro address
    simpa using locking.queued address
  have liveCounts : ∀ other ∈ execution.live,
      machine.blockedUsageCounts other.id = waitingCount machine.usageQueues other := by
    intro other member
    rw [sameCounts, invariant.counts other member, locking.others other member]
  have nodupAddresses : ∀ other ∈ execution.live ++ [task], other.addresses.Nodup := by
    intro other member
    rcases List.mem_append.mp member with inLive | isTask
    · exact invariant.nodupAddresses other inLive
    · rw [List.mem_singleton.mp isTask]
      exact nodup
  have notLiveId : task.id ∉ execution.live.map Task.id := fun inLive => by
    obtain ⟨other, member, same⟩ := List.mem_map.mp inLive
    exact freshId other member same
  have distinct : ((execution.live ++ [task]).map Task.id).Nodup := by
    rw [List.map_append]
    refine List.nodup_append.mpr ⟨invariant.distinct, List.nodup_singleton _, fun id inLive other isTask => ?_⟩
    rw [List.map_singleton, List.mem_singleton] at isTask
    rintro rfl
    exact notLiveId (isTask ▸ inLive)
  have freeCount : execution.machine.blockedUsageCounts task.id = 0 := invariant.countsFree task.id notLiveId
  have outsideFree : ∀ id ∉ (execution.live ++ [task]).map Task.id, execution.machine.blockedUsageCounts id = 0 :=
    fun id outside => invariant.countsFree id fun inLive =>
      outside (by simp only [List.map_append]; exact List.mem_append_left _ inLive)
  by_cases unblocked : blocked = 0
  · rw [if_pos unblocked] at scheduled
    refine ⟨⟨machine, execution.live ++ [task], execution.handedOut ++ [task], execution.scheduled + 1⟩,
      by simp [next, scheduled, bind], distinct, nodupAddresses, queued, fun other member => ?_,
      fun id outside => by dsimp only; rw [sameCounts]; exact outsideFree id outside, ?_, ?_, ?_, ?_, ?_, ?_⟩
    all_goals dsimp only
    · rcases List.mem_append.mp member with inLive | isTask
      · exact liveCounts other inLive
      · rw [List.mem_singleton.mp isTask, sameCounts, freeCount, ← locking.counted, unblocked]
    · rw [List.filter_append, sameCounts, sameQueue]
      simpa [freeCount, ← List.append_assoc] using invariant.partition.append_right [task]
    · simp [sameActive, invariant.active]
    · simp only [sameHandled, sameActive, sameTotal]
      have := invariant.handled
      omega
    · simp only [sameUnblocked, sameTotal, List.length_append, List.length_singleton]
      have := invariant.unblocked
      omega
    · simp only [sameTotal]
      have := invariant.total
      omega
    · omega
  · rw [if_neg unblocked] at scheduled
    refine ⟨⟨{ machine with blockedUsageCounts := Function.update machine.blockedUsageCounts task.id blocked },
        execution.live ++ [task], execution.handedOut, execution.scheduled + 1⟩,
      by simp [next, scheduled, bind], distinct, nodupAddresses, queued, fun other member => ?_,
      fun id outside => ?_, ?_, ?_, ?_, ?_, ?_, ?_⟩
    all_goals dsimp only
    · rcases List.mem_append.mp member with inLive | isTask
      · have elsewhere : other.id ≠ task.id := freshId other inLive
        simp only [Function.update_of_ne elsewhere]
        exact liveCounts other inLive
      · rw [List.mem_singleton.mp isTask]
        simpa using locking.counted
    · have elsewhere : id ≠ task.id := fun same => outside (by simp [same])
      simp only [Function.update_of_ne elsewhere, sameCounts]
      exact outsideFree id outside
    · have liveSame : (execution.live.filter fun other =>
          Function.update machine.blockedUsageCounts task.id blocked other.id = 0) =
          execution.live.filter fun other => execution.machine.blockedUsageCounts other.id = 0 :=
        List.filter_congr fun other member => by
          rw [Function.update_of_ne (freshId other member), sameCounts]
      simp only [List.filter_append, liveSame, sameQueue]
      simpa [unblocked] using invariant.partition
    · simp [sameActive, invariant.active]
    · simp only [sameHandled, sameActive, sameTotal]
      have := invariant.handled
      omega
    · simp only [sameUnblocked, sameTotal, List.length_append, List.length_singleton]
      have := invariant.unblocked
      omega
    · simp only [sameTotal]
      have := invariant.total
      omega
    · omega

theorem Invariant.scheduleNextUnblockedTask (invariant : execution.Invariant) :
    ∃ next, execution.next .scheduleNextUnblockedTask = some next ∧ next.Invariant := by
  cases queue : execution.machine.unblockedTaskQueue with
  | nil =>
    refine ⟨execution, by simp [next, SchedulingStateMachine.scheduleNextUnblockedTask, queue, bind], invariant⟩
  | cons task rest =>
    have lengths := invariant.partition.length_eq
    have filtered := List.length_filter_le (fun task => execution.machine.blockedUsageCounts task.id = 0) execution.live
    have fits : execution.machine.unblockedTaskCount + 1 ≤ maxValue 32 := by
      have := invariant.unblocked
      have := invariant.total
      have := invariant.bounded
      simp only [queue, List.length_append, List.length_cons] at lengths
      omega
    have counted : increment execution.machine.unblockedTaskCount = some (execution.machine.unblockedTaskCount + 1) := by
      simp [increment, checkedAdd, fits]
    refine ⟨⟨{ execution.machine with
        unblockedTaskQueue := rest
        unblockedTaskCount := execution.machine.unblockedTaskCount + 1 },
      execution.live, execution.handedOut ++ [task], execution.scheduled⟩,
      by simp [next, SchedulingStateMachine.scheduleNextUnblockedTask, queue, counted, bind], ?_⟩
    refine ⟨invariant.distinct, invariant.nodupAddresses, invariant.queued, invariant.counts, invariant.countsFree,
      ?_, invariant.active, invariant.handled, ?_, invariant.total, invariant.bounded⟩
    · have moved : (task :: rest ++ execution.handedOut).Perm (rest ++ (execution.handedOut ++ [task])) := by
        rw [← List.append_assoc]
        exact (List.perm_append_singleton task _).symm
      have partition := invariant.partition
      rw [queue] at partition
      exact partition.trans moved
    · have := invariant.unblocked
      simp only [List.length_append, List.length_singleton]
      omega

theorem Invariant.reinitialize (invariant : execution.Invariant) (allowed : Action.Allowed execution Action.reinitialize) :
    ∃ next, execution.next Action.reinitialize = some next ∧ next.Invariant := by
  obtain ⟨noLive, noQueue, noHandedOut⟩ := invariant.idle allowed
  have idle : execution.machine.activeTaskCount = 0 := by rw [invariant.active, noLive]; rfl
  refine ⟨⟨{ execution.machine with
      activeTaskCount := 0
      handledTaskCount := 0
      unblockedTaskCount := 0
      totalTaskCount := 0 }, execution.live, execution.handedOut, execution.scheduled⟩,
    by simp [next, SchedulingStateMachine.reinitialize, hasNoActiveTask, idle, noQueue, bind], ?_⟩
  refine ⟨invariant.distinct, invariant.nodupAddresses, invariant.queued, invariant.counts, invariant.countsFree,
    by simp [noLive, noQueue, noHandedOut], by simp [noLive], rfl, by simp [noLive], Nat.zero_le _, invariant.bounded⟩

end Execution

end UnifiedScheduler
