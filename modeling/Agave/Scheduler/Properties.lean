import Mathlib
import Agave.Library.List
import Agave.Library.StateMachine
import Agave.Scheduler.StateMachine
import Agave.Scheduler.Queue
import Agave.Scheduler.Execution
import Agave.Scheduler.Locking
import Agave.Scheduler.Unlocking

/-! What every execution of the scheduling state machine keeps under the callers' protocol: no
action panics, of two conflicting tasks the later one is never handed out before the earlier one
is descheduled, each task counts the queues it waits in, while tasks are live one of them can run,
and a machine without active tasks holds no lock. -/

namespace UnifiedScheduler

open MachineInt SchedulingStateMachine StateMachine

variable {α : Type} [DecidableEq α]

namespace Execution

variable {execution : Execution α}

theorem Invariant.act (invariant : execution.Invariant) {action : Action α} (allowed : Action.Allowed execution action) :
    ∃ next, execution.next action = some next ∧ next.Invariant := by
  cases action with
  | scheduleTask task => exact invariant.scheduleTask allowed
  | scheduleNextUnblockedTask => exact invariant.scheduleNextUnblockedTask
  | descheduleTask task => exact invariant.descheduleTask allowed
  | reinitialize => exact Invariant.reinitialize invariant allowed

theorem invariant_of_reachable (reach : Reachable Step start execution) : execution.Invariant :=
  (Preserved.partialActionStep fun _ _ invariant allowed => invariant.act allowed).reachable start_invariant reach

section Invariant

variable (invariant : execution.Invariant)
include invariant

theorem Invariant.not_free_of_conflicts {earlier later : Task α} (order : [earlier, later].Sublist execution.live)
    (conflict : earlier.Conflicts later) : later ∉ execution.machine.unblockedTaskQueue ++ execution.handedOut := by
  intro free
  obtain ⟨front, back, split, inFront, inBack⟩ := List.cons_sublist_iff.mp order
  obtain ⟨address, usage, laterUsage, uses, laterUses, writable⟩ := conflict
  have queued := invariant.queued address
  rw [split, usersOf_append] at queued
  have holding : (laterUsage, later) ∉ (execution.machine.usageQueues address).blockedUsagesFromTasks :=
    fun waiting => invariant.not_waiting_of_free free address (List.mem_map_of_mem (f := Prod.snd) waiting)
  obtain ⟨readonly, laterReadonly⟩ := queued.readonly_of_not_blocked
    (mem_usersOf.mpr ⟨inFront, uses⟩ : (usage, earlier) ∈ usersOf address front)
    (mem_usersOf.mpr ⟨List.singleton_sublist.mp inBack, laterUses⟩ : (laterUsage, later) ∈ usersOf address back)
    holding
  rcases writable with isWritable | isWritable
  · cases isWritable.symm.trans readonly
  · cases isWritable.symm.trans laterReadonly

theorem Invariant.handedOut_pairwise : execution.handedOut.Pairwise fun task other => ¬task.Conflicts other := by
  have nodup : (execution.machine.unblockedTaskQueue ++ execution.handedOut).Nodup :=
    invariant.partition.nodup_iff.mp ((List.Nodup.of_map Task.id invariant.distinct).filter _)
  refine List.pairwise_iff_forall_sublist.mpr fun {task other} pair conflict => ?_
  have different : task ≠ other := by
    rintro rfl
    exact List.nodup_iff_sublist.mp (List.nodup_append.mp nodup).2.1 task pair
  have taskFree : task ∈ execution.machine.unblockedTaskQueue ++ execution.handedOut :=
    List.mem_append_right _ (pair.subset (by simp))
  have otherFree : other ∈ execution.machine.unblockedTaskQueue ++ execution.handedOut :=
    List.mem_append_right _ (pair.subset (by simp))
  rcases List.pair_sublist_or (invariant.mem_free_iff.mp taskFree).1 (invariant.mem_free_iff.mp otherFree).1
    different with order | order
  · exact invariant.not_free_of_conflicts order conflict otherFree
  · exact invariant.not_free_of_conflicts order conflict.symm taskFree

theorem Invariant.head_not_waiting {first : Task α} {rest : List (Task α)} (live : execution.live = first :: rest)
    (address : α) : first ∉ (execution.machine.usageQueues address).blockedUsagesFromTasks.map Prod.snd := by
  intro waiting
  obtain ⟨usage, member, own⟩ := List.mem_map.mp waiting
  obtain ⟨earlier, later, holder, split, held, inLater⟩ := (invariant.queued address).exists_holder member
  have liveNodup := List.Nodup.of_map Task.id invariant.distinct
  have users : ((usersOf address execution.live).map Prod.snd).Nodup :=
    nodup_map_snd_usersOf liveNodup invariant.nodupAddresses
  rw [split, List.map_append] at users
  have different : holder.2 ≠ usage.2 := fun same => List.disjoint_of_nodup_append users
    (List.mem_map_of_mem held) (by rw [same]; exact List.mem_map_of_mem inLater)
  obtain ⟨front, back, order, inFront, inBack⟩ := before_of_usersOf split held inLater different
  rw [own] at inBack
  rw [live] at order liveNodup
  cases front with
  | nil => exact absurd inFront List.not_mem_nil
  | cons head front =>
    obtain ⟨-, restSplit⟩ := List.cons.inj order
    exact (List.nodup_cons.mp liveNodup).1 (restSplit ▸ List.mem_append_right front inBack)

theorem Invariant.head_free {first : Task α} {rest : List (Task α)} (live : execution.live = first :: rest) :
    first ∈ execution.machine.unblockedTaskQueue ++ execution.handedOut := by
  have member : first ∈ execution.live := by simp [live]
  refine invariant.mem_free_iff.mpr ⟨member, ?_⟩
  rw [invariant.counts first member]
  exact List.countP_eq_zero.mpr fun context _ => by simpa [waitsAt] using invariant.head_not_waiting live context.1

theorem Invariant.blockedUsageCount_eq_encard {task : Task α} (member : task ∈ execution.live) :
    (execution.machine.blockedUsageCounts task.id : ℕ∞) =
      {address | task ∈ (execution.machine.usageQueues address).blockedUsagesFromTasks.map Prod.snd}.encard := by
  have waitingAt : {address | task ∈ (execution.machine.usageQueues address).blockedUsagesFromTasks.map Prod.snd} =
      ↑(task.addresses.filter (waitsAt execution.machine.usageQueues task)).toFinset := by
    ext address
    simp only [Set.mem_ofPred_eq, List.coe_toFinset, List.mem_filter, waitsAt, decide_eq_true_eq]
    exact ⟨fun waiting => ⟨(invariant.waiting_counted waiting).2.1, waiting⟩, And.right⟩
  rw [waitingAt, Set.encard_coe_eq_coe_finsetCard,
    List.toFinset_card_of_nodup ((invariant.nodupAddresses task member).filter _), ← List.countP_eq_length_filter,
    Task.addresses, List.countP_map, invariant.counts task member]
  rfl

end Invariant

theorem conflicting_tasks_ordered (reach : Reachable Step start execution) :
    (∀ earlier later, [earlier, later].Sublist execution.live → earlier.Conflicts later →
      later ∉ execution.machine.unblockedTaskQueue ∧ later ∉ execution.handedOut) ∧
    execution.handedOut.Pairwise fun task other => ¬task.Conflicts other := by
  have invariant := invariant_of_reachable reach
  refine ⟨fun earlier later order conflict => ?_, invariant.handedOut_pairwise⟩
  simpa [not_or] using invariant.not_free_of_conflicts order conflict

/-- A task that writes address `0`, then one that reads it: the reader waits for the writer. -/
theorem conflicting_tasks_ordered_writer_reader :
    let execution := ((start.next (.scheduleTask ⟨0, [(0, .writable)]⟩)).bind fun scheduled =>
      scheduled.next (.scheduleTask ⟨1, [(0, .readonly)]⟩)).getD start
    Reachable Step start execution ∧
      (∀ earlier later, [earlier, later].Sublist execution.live → earlier.Conflicts later →
        later ∉ execution.machine.unblockedTaskQueue ∧ later ∉ execution.handedOut) ∧
      execution.handedOut.Pairwise fun task other => ¬task.Conflicts other := by
  intro execution
  have first : Step start ((start.next (.scheduleTask ⟨0, [(0, .writable)]⟩)).getD start) :=
    ⟨.scheduleTask ⟨0, [(0, .writable)]⟩, ⟨by simp [start], by decide, by decide, by decide⟩, rfl⟩
  have reach : Reachable Step start execution :=
    ((Reachable.refl Step start).tail first).tail
      ⟨.scheduleTask ⟨1, [(0, .readonly)]⟩, ⟨by decide, by decide, by decide, by decide⟩, rfl⟩
  exact ⟨reach, conflicting_tasks_ordered reach⟩

theorem reachable_bookkeeping (reach : Reachable Step start execution) :
    (∀ action, Action.Allowed execution action → ∃ next, execution.next action = some next) ∧
    (∀ task ∈ execution.live,
      (execution.machine.blockedUsageCounts task.id : ℕ∞) =
        {address | task ∈ (execution.machine.usageQueues address).blockedUsagesFromTasks.map Prod.snd}.encard ∧
      (∀ address, ((execution.machine.usageQueues address).blockedUsagesFromTasks.map Prod.snd).count task ≤ 1) ∧
      (task ∉ execution.machine.unblockedTaskQueue → task ∉ execution.handedOut →
        0 < execution.machine.blockedUsageCounts task.id)) ∧
    execution.machine.activeTaskCount = execution.live.length ∧
    ((∃ address, (execution.machine.usageQueues address).blockedUsagesFromTasks ≠ []) →
      execution.machine.unblockedTaskQueue ≠ [] ∨ execution.handedOut ≠ []) ∧
    (execution.machine.hasNoActiveTask = true → execution.machine.unblockedTaskQueue = [] ∧
      (∀ address, (execution.machine.usageQueues address).currentUsage = none ∧
        (execution.machine.usageQueues address).blockedUsagesFromTasks = []) ∧
      ∀ id, execution.machine.blockedUsageCounts id = 0) := by
  have invariant := invariant_of_reachable reach
  refine ⟨fun action allowed => ?_, fun task member => ⟨invariant.blockedUsageCount_eq_encard member,
    fun address => List.nodup_iff_count_le_one.mp (invariant.nodup_blocked address) task,
    fun notQueued notHanded => ?_⟩, invariant.active, ?_, fun idle => ?_⟩
  · obtain ⟨next, moved, -⟩ := invariant.act allowed
    exact ⟨next, moved⟩
  · refine Nat.pos_of_ne_zero fun zero => ?_
    rcases List.mem_append.mp (invariant.mem_free_iff.mpr ⟨member, zero⟩) with queued | handed
    · exact notQueued queued
    · exact notHanded handed
  · rintro ⟨address, blocked⟩
    obtain ⟨usage, member⟩ := List.exists_mem_of_ne_nil _ blocked
    have live := (mem_usersOf.mp ((invariant.queued address).mem_of_blocked member)).1
    obtain ⟨first, rest, split⟩ := List.exists_cons_of_ne_nil (List.ne_nil_of_mem live)
    rcases List.mem_append.mp (invariant.head_free split) with queued | handed
    · exact .inl (List.ne_nil_of_mem queued)
    · exact .inr (List.ne_nil_of_mem handed)
  · obtain ⟨noLive, noQueue, -⟩ := invariant.idle idle
    refine ⟨noQueue, fun address => ?_, fun id => invariant.countsFree id (by simp [noLive])⟩
    have queued := invariant.queued address
    rw [noLive, usersOf_nil] at queued
    exact queued.eq_default

/-- The writer and the reader scheduled, then the writer descheduled: the reader is relocked and
queued. -/
theorem reachable_bookkeeping_relocked :
    let execution := (((start.next (.scheduleTask ⟨0, [(0, .writable)]⟩)).bind fun scheduled =>
      scheduled.next (.scheduleTask ⟨1, [(0, .readonly)]⟩)).bind fun scheduled =>
        scheduled.next (.descheduleTask ⟨0, [(0, .writable)]⟩)).getD start
    Reachable Step start execution ∧
    (∀ action, Action.Allowed execution action → ∃ next, execution.next action = some next) ∧
    (∀ task ∈ execution.live,
      (execution.machine.blockedUsageCounts task.id : ℕ∞) =
        {address | task ∈ (execution.machine.usageQueues address).blockedUsagesFromTasks.map Prod.snd}.encard ∧
      (∀ address, ((execution.machine.usageQueues address).blockedUsagesFromTasks.map Prod.snd).count task ≤ 1) ∧
      (task ∉ execution.machine.unblockedTaskQueue → task ∉ execution.handedOut →
        0 < execution.machine.blockedUsageCounts task.id)) ∧
    execution.machine.activeTaskCount = execution.live.length ∧
    ((∃ address, (execution.machine.usageQueues address).blockedUsagesFromTasks ≠ []) →
      execution.machine.unblockedTaskQueue ≠ [] ∨ execution.handedOut ≠ []) ∧
    (execution.machine.hasNoActiveTask = true → execution.machine.unblockedTaskQueue = [] ∧
      (∀ address, (execution.machine.usageQueues address).currentUsage = none ∧
        (execution.machine.usageQueues address).blockedUsagesFromTasks = []) ∧
      ∀ id, execution.machine.blockedUsageCounts id = 0) := by
  intro execution
  have first : Step start ((start.next (.scheduleTask ⟨0, [(0, .writable)]⟩)).getD start) :=
    ⟨.scheduleTask ⟨0, [(0, .writable)]⟩, ⟨by simp [start], by decide, by decide, by decide⟩, rfl⟩
  have second : Step ((start.next (.scheduleTask ⟨0, [(0, .writable)]⟩)).getD start)
      (((start.next (.scheduleTask ⟨0, [(0, .writable)]⟩)).bind fun scheduled =>
        scheduled.next (.scheduleTask ⟨1, [(0, .readonly)]⟩)).getD start) :=
    ⟨.scheduleTask ⟨1, [(0, .readonly)]⟩, ⟨by decide, by decide, by decide, by decide⟩, rfl⟩
  have reach : Reachable Step start execution :=
    (((Reachable.refl Step start).tail first).tail second).tail ⟨.descheduleTask ⟨0, [(0, .writable)]⟩, by unfold Action.Allowed; decide, rfl⟩
  exact ⟨reach, reachable_bookkeeping reach⟩

end Execution

end UnifiedScheduler
