import Mathlib
import Agave.Library.MachineInt
import Agave.Library.List
import Agave.Library.StateMachine
import Agave.Scheduler.StateMachine
import Agave.Scheduler.Queue

/-! The state machine driven by callers that keep its protocol, with the tasks each call has taken
in and handed out, and the invariant that ties the usage queues, the blocked usage counts and the
unblocked queue to those tasks. -/

namespace UnifiedScheduler

open MachineInt SchedulingStateMachine

variable {α : Type} [DecidableEq α]

def Task.addresses (task : Task α) : List α := task.lockContexts.map Prod.fst

/-- The usages of an address by some tasks, in the order of the tasks. -/
def usersOf (address : α) (tasks : List (Task α)) : List (UsageFromTask α) :=
  tasks.flatMap fun task => (task.lockContexts.filter (·.1 = address)).map fun context => (context.2, task)

/-- Whether a task waits in the usage queue of an address. -/
def waitsAt (usageQueues : α → UsageQueueInner α) (task : Task α) (address : α) : Bool :=
  decide (task ∈ (usageQueues address).blockedUsagesFromTasks.map Prod.snd)

/-- The usage queues a task waits in, counted over its own addresses. -/
def waitingCount (usageQueues : α → UsageQueueInner α) (task : Task α) : Nat :=
  task.lockContexts.countP fun context => waitsAt usageQueues task context.1

/-- Two tasks conflict when they share an address that one of them locks writable. -/
def Task.Conflicts (task other : Task α) : Prop :=
  ∃ address usage otherUsage, (address, usage) ∈ task.lockContexts ∧ (address, otherUsage) ∈ other.lockContexts ∧
    (usage = .writable ∨ otherUsage = .writable)

omit [DecidableEq α] in
theorem Task.Conflicts.symm {task other : Task α} (conflict : task.Conflicts other) : other.Conflicts task := by
  obtain ⟨address, usage, otherUsage, uses, otherUses, writable⟩ := conflict
  exact ⟨address, otherUsage, usage, otherUses, uses, writable.symm⟩

section UsersOf

variable {address : α} {tasks : List (Task α)} {task : Task α}

@[simp] theorem usersOf_nil : usersOf address ([] : List (Task α)) = [] := rfl

@[simp] theorem usersOf_append (tasks others : List (Task α)) :
    usersOf address (tasks ++ others) = usersOf address tasks ++ usersOf address others := List.flatMap_append

@[simp] theorem usersOf_cons : usersOf address (task :: tasks) =
    (task.lockContexts.filter (·.1 = address)).map (fun context => (context.2, task)) ++ usersOf address tasks :=
  List.flatMap_cons

theorem mem_usersOf {usage : UsageFromTask α} :
    usage ∈ usersOf address tasks ↔ usage.2 ∈ tasks ∧ (address, usage.1) ∈ usage.2.lockContexts := by
  obtain ⟨requestedUsage, user⟩ := usage
  simp only [usersOf, List.mem_flatMap, List.mem_map, List.mem_filter, decide_eq_true_eq, Prod.mk.injEq]
  constructor
  · rintro ⟨task, member, ⟨context, ⟨inContexts, rfl⟩, rfl, rfl⟩⟩
    exact ⟨member, inContexts⟩
  · rintro ⟨member, inContexts⟩
    exact ⟨user, member, (address, requestedUsage), ⟨inContexts, rfl⟩, rfl, rfl⟩

theorem filter_address_of_mem {requestedUsage : RequestedUsage} (nodup : task.addresses.Nodup)
    (mem : (address, requestedUsage) ∈ task.lockContexts) :
    task.lockContexts.filter (·.1 = address) = [(address, requestedUsage)] := by
  obtain ⟨front, back, split⟩ := List.append_of_mem mem
  rw [Task.addresses, split, List.map_append, List.map_cons, List.nodup_append, List.nodup_cons] at nodup
  have notFront : ∀ context ∈ front, context.1 ≠ address := fun context inFront same =>
    nodup.2.2 _ (List.mem_map_of_mem inFront) address List.mem_cons_self same
  have notBack : ∀ context ∈ back, context.1 ≠ address := fun context inBack same =>
    nodup.2.1.1 (by simpa [same] using List.mem_map_of_mem (f := Prod.fst) inBack)
  rw [split, List.filter_append, List.filter_cons_of_pos (by simp), List.filter_eq_nil_iff.mpr (by simpa using notFront),
    List.filter_eq_nil_iff.mpr (by simpa using notBack)]
  rfl

theorem usersOf_singleton_of_mem {requestedUsage : RequestedUsage} (nodup : task.addresses.Nodup)
    (mem : (address, requestedUsage) ∈ task.lockContexts) : usersOf address [task] = [(requestedUsage, task)] := by
  simp [filter_address_of_mem nodup mem]

theorem usersOf_singleton_of_not_mem (outside : address ∉ task.addresses) : usersOf address [task] = [] := by
  simp only [usersOf_cons, usersOf_nil, List.append_nil, List.map_eq_nil_iff, List.filter_eq_nil_iff,
    decide_eq_true_eq]
  exact fun context inContexts same => outside (same ▸ List.mem_map_of_mem inContexts)

theorem length_usersOf_le (nodup : ∀ task ∈ tasks, task.addresses.Nodup) :
    (usersOf address tasks).length ≤ tasks.length := by
  induction tasks with
  | nil => simp
  | cons task tasks ih =>
    have once : (task.lockContexts.filter (·.1 = address)).length ≤ 1 := by
      by_cases uses : ∃ requestedUsage, (address, requestedUsage) ∈ task.lockContexts
      · obtain ⟨requestedUsage, mem⟩ := uses
        simp [filter_address_of_mem (nodup task List.mem_cons_self) mem]
      · rw [List.filter_eq_nil_iff.mpr fun context inContexts same => uses ⟨context.2, by
          simpa using (show (context.1, context.2) = (address, context.2) by simp at same; rw [same]) ▸ inContexts⟩]
        simp
    have rest := ih fun other member => nodup other (List.mem_cons_of_mem _ member)
    simp only [usersOf_cons, List.length_append, List.length_map, List.length_cons]
    omega

theorem before_of_usersOf {earlier later : List (UsageFromTask α)} {first second : UsageFromTask α}
    (split : usersOf address tasks = earlier ++ later) (inEarlier : first ∈ earlier) (inLater : second ∈ later)
    (distinct : first.2 ≠ second.2) :
    ∃ front back, tasks = front ++ back ∧ first.2 ∈ front ∧ second.2 ∈ back := by
  induction tasks generalizing earlier with
  | nil => simp at split; simp [split.1] at inEarlier
  | cons task tasks ih =>
    rw [usersOf_cons] at split
    have ownTask : ∀ usage ∈ (task.lockContexts.filter (·.1 = address)).map (fun context => (context.2, task)),
        usage.2 = task := by
      intro usage own
      obtain ⟨context, -, rfl⟩ := List.mem_map.mp own
      rfl
    rcases List.append_eq_append_iff.mp split with ⟨rest, rfl, others⟩ | ⟨rest, own, rfl⟩
    · rcases List.mem_append.mp inEarlier with own | inRest
      · have : first.2 = task := ownTask first own
        have member : second ∈ usersOf address tasks := others ▸ List.mem_append_right rest inLater
        exact ⟨[task], tasks, rfl, by simp [this], (mem_usersOf.mp member).1⟩
      · obtain ⟨front, back, rfl, inFront, inBack⟩ := ih others inRest
        exact ⟨task :: front, back, rfl, List.mem_cons_of_mem _ inFront, inBack⟩
    · have firstOwn : first.2 = task := ownTask first (own ▸ List.mem_append_left rest inEarlier)
      rcases List.mem_append.mp inLater with inRest | member
      · exact absurd (firstOwn.trans (ownTask second (own ▸ List.mem_append_right earlier inRest)).symm) distinct
      · exact ⟨[task], tasks, rfl, by simp [firstOwn], (mem_usersOf.mp member).1⟩

theorem nodup_map_snd_usersOf (nodup : tasks.Nodup) (nodupAddresses : ∀ task ∈ tasks, task.addresses.Nodup) :
    ((usersOf address tasks).map Prod.snd).Nodup := by
  induction tasks with
  | nil => simp
  | cons task tasks ih =>
    obtain ⟨notLater, nodupRest⟩ := List.nodup_cons.mp nodup
    have rest := ih nodupRest fun other member => nodupAddresses other (List.mem_cons_of_mem _ member)
    rw [usersOf_cons, List.map_append, List.nodup_append]
    refine ⟨?_, rest, fun own ownMember later laterMember same => ?_⟩
    · by_cases uses : ∃ requestedUsage, (address, requestedUsage) ∈ task.lockContexts
      · obtain ⟨requestedUsage, mem⟩ := uses
        simp [filter_address_of_mem (nodupAddresses task List.mem_cons_self) mem]
      · rw [List.filter_eq_nil_iff.mpr fun context inContexts same => uses ⟨context.2, by
          simpa using (show (context.1, context.2) = (address, context.2) by simp at same; rw [same]) ▸ inContexts⟩]
        simp
    · simp only [List.map_map, List.mem_map, Function.comp_apply] at ownMember
      obtain ⟨context, -, rfl⟩ := ownMember
      obtain ⟨usage, inLater, rfl⟩ := List.mem_map.mp laterMember
      exact notLater (same ▸ (mem_usersOf.mp inLater).1)

theorem usersOf_erase {front back : List (Task α)} {requestedUsage : RequestedUsage}
    (nodup : task.addresses.Nodup) (mem : (address, requestedUsage) ∈ task.lockContexts) :
    usersOf address (front ++ task :: back) = usersOf address front ++ (requestedUsage, task) :: usersOf address back := by
  rw [usersOf_append, usersOf_cons, filter_address_of_mem nodup mem]
  rfl

theorem usersOf_erase_of_not_mem {front back : List (Task α)} (outside : address ∉ task.addresses) :
    usersOf address (front ++ task :: back) = usersOf address (front ++ back) := by
  rw [← List.singleton_append, usersOf_append, usersOf_append, usersOf_append, usersOf_singleton_of_not_mem outside,
    List.nil_append]

end UsersOf

section Waiting

variable {usageQueues : α → UsageQueueInner α} {task : Task α} {address : α} {usageQueue : UsageQueueInner α}

theorem waitsAt_update (other : α) :
    waitsAt (Function.update usageQueues address usageQueue) task other =
      if other = address then decide (task ∈ usageQueue.blockedUsagesFromTasks.map Prod.snd)
      else waitsAt usageQueues task other := by
  by_cases same : other = address
  · subst same
    simp [waitsAt]
  · simp [waitsAt, same]

theorem waitingCount_update_of_iff
    (same : task ∈ usageQueue.blockedUsagesFromTasks.map Prod.snd ↔
      task ∈ (usageQueues address).blockedUsagesFromTasks.map Prod.snd) :
    waitingCount (Function.update usageQueues address usageQueue) task = waitingCount usageQueues task := by
  refine List.countP_congr fun context _ => ?_
  rw [waitsAt_update]
  split
  · rename_i here
    simp [waitsAt, here, same]
  · rfl

theorem waitingCount_update (usageQueues : α → UsageQueueInner α) (usageQueue : UsageQueueInner α)
    {requestedUsage : RequestedUsage} (nodup : task.addresses.Nodup)
    (mem : (address, requestedUsage) ∈ task.lockContexts) :
    waitingCount (Function.update usageQueues address usageQueue) task +
        (if waitsAt usageQueues task address then 1 else 0) =
      waitingCount usageQueues task + (if task ∈ usageQueue.blockedUsagesFromTasks.map Prod.snd then 1 else 0) := by
  obtain ⟨front, back, split⟩ := List.append_of_mem mem
  have nodup' := nodup
  rw [Task.addresses, split, List.map_append, List.map_cons, List.nodup_append, List.nodup_cons] at nodup'
  have agree : ∀ context ∈ front ++ back, waitsAt (Function.update usageQueues address usageQueue) task context.1 =
      waitsAt usageQueues task context.1 := by
    intro context member
    have elsewhere : context.1 ≠ address := by
      rintro same
      rcases List.mem_append.mp member with inFront | inBack
      · exact nodup'.2.2 _ (List.mem_map_of_mem inFront) address List.mem_cons_self same
      · exact nodup'.2.1.1 (by simpa [same] using List.mem_map_of_mem (f := Prod.fst) inBack)
    rw [waitsAt_update, if_neg elsewhere]
  have frontSame := List.countP_congr (p := fun context => waitsAt (Function.update usageQueues address usageQueue)
    task context.1) (q := fun context => waitsAt usageQueues task context.1) (l := front)
    fun context member => by rw [agree context (List.mem_append_left _ member)]
  have backSame := List.countP_congr (p := fun context => waitsAt (Function.update usageQueues address usageQueue)
    task context.1) (q := fun context => waitsAt usageQueues task context.1) (l := back)
    fun context member => by rw [agree context (List.mem_append_right _ member)]
  unfold waitingCount
  rw [split, List.countP_append, List.countP_append, List.countP_cons, List.countP_cons, frontSame, backSame,
    waitsAt_update, if_pos rfl]
  simp only [decide_eq_true_eq]
  split_ifs <;> omega

end Waiting

/-- The state machine with what its callers have done: the tasks scheduled and not yet descheduled,
in the order `schedule_task` took them, those of them handed out by `schedule_task` or
`schedule_next_unblocked_task`, and how many tasks were ever scheduled. -/
structure Execution (α : Type) where
  machine : SchedulingStateMachine α
  live : List (Task α)
  handedOut : List (Task α)
  scheduled : Nat

inductive Action (α : Type)
  | scheduleTask (task : Task α)
  | scheduleNextUnblockedTask
  | descheduleTask (task : Task α)
  | reinitialize

/-- The protocol of the callers: a task to schedule is new, was created from a transaction (no
duplicate account keys, and fewer than `2^32` of them), and is one of fewer than `2^32` tasks; a
task to deschedule has been handed out and not yet descheduled; the machine is reinitialized only
when it has no active task. -/
def Action.Allowed (execution : Execution α) : Action α → Prop
  | .scheduleTask task =>
    (∀ other ∈ execution.live, other.id ≠ task.id) ∧ task.addresses.Nodup ∧
      task.lockContexts.length ≤ maxValue 32 ∧ execution.scheduled < maxValue 32
  | .scheduleNextUnblockedTask => True
  | .descheduleTask task => task ∈ execution.handedOut
  | Action.reinitialize => execution.machine.hasNoActiveTask = true

namespace Execution

def next (execution : Execution α) : Action α → Option (Execution α)
  | .scheduleTask task => do
    let (scheduled, machine) ← execution.machine.scheduleTask task
    pure ⟨machine, execution.live ++ [task], execution.handedOut ++ scheduled.toList, execution.scheduled + 1⟩
  | .scheduleNextUnblockedTask => do
    let (unblocked, machine) ← execution.machine.scheduleNextUnblockedTask
    pure { execution with machine, handedOut := execution.handedOut ++ unblocked.toList }
  | .descheduleTask task => do
    let machine ← execution.machine.descheduleTask task
    pure { execution with machine, live := execution.live.erase task, handedOut := execution.handedOut.erase task }
  | Action.reinitialize => do
    let machine ← SchedulingStateMachine.reinitialize execution.machine
    pure { execution with machine }

def start : Execution α := ⟨initial, [], [], 0⟩

def Step : Execution α → Execution α → Prop := StateMachine.PartialActionStep Action.Allowed next

/-- What the machine's state says of the tasks: each address's queue holds its users among the live
tasks, each live task counts the queues it waits in, the tasks that wait nowhere are exactly those
in the unblocked queue and those handed out, and the counters count what they name. -/
structure Invariant (execution : Execution α) : Prop where
  distinct : (execution.live.map Task.id).Nodup
  nodupAddresses : ∀ task ∈ execution.live, task.addresses.Nodup
  queued : ∀ address, Queued (usersOf address execution.live) (execution.machine.usageQueues address) none
  counts : ∀ task ∈ execution.live,
    execution.machine.blockedUsageCounts task.id = waitingCount execution.machine.usageQueues task
  countsFree : ∀ id ∉ execution.live.map Task.id, execution.machine.blockedUsageCounts id = 0
  partition : (execution.live.filter fun task => execution.machine.blockedUsageCounts task.id = 0).Perm
    (execution.machine.unblockedTaskQueue ++ execution.handedOut)
  active : execution.machine.activeTaskCount = execution.live.length
  handled : execution.machine.handledTaskCount + execution.machine.activeTaskCount = execution.machine.totalTaskCount
  unblocked : execution.machine.unblockedTaskCount + execution.live.length ≤
    execution.machine.totalTaskCount + execution.handedOut.length
  total : execution.machine.totalTaskCount ≤ execution.scheduled
  bounded : execution.scheduled ≤ maxValue 32

theorem start_invariant : (start : Execution α).Invariant where
  distinct := List.nodup_nil
  nodupAddresses := fun _ member => absurd member List.not_mem_nil
  queued := fun _ => ⟨[], rfl, rfl, fun nonempty => absurd rfl nonempty⟩
  counts := fun _ member => absurd member List.not_mem_nil
  countsFree := fun _ _ => rfl
  partition := List.Perm.refl _
  active := rfl
  handled := rfl
  unblocked := le_rfl
  total := le_rfl
  bounded := Nat.zero_le _

section Invariant

variable {execution : Execution α} (invariant : execution.Invariant) {task : Task α}
include invariant

theorem Invariant.mem_free_iff : task ∈ execution.machine.unblockedTaskQueue ++ execution.handedOut ↔
    task ∈ execution.live ∧ execution.machine.blockedUsageCounts task.id = 0 := by
  rw [← invariant.partition.mem_iff]
  simp

theorem Invariant.waiting_counted {address : α}
    (waiting : task ∈ (execution.machine.usageQueues address).blockedUsagesFromTasks.map Prod.snd) :
    task ∈ execution.live ∧ address ∈ task.addresses ∧ 0 < execution.machine.blockedUsageCounts task.id := by
  obtain ⟨usage, member, rfl⟩ := List.mem_map.mp waiting
  have user := mem_usersOf.mp ((invariant.queued address).mem_of_blocked member)
  refine ⟨user.1, List.mem_map_of_mem (f := Prod.fst) user.2, ?_⟩
  rw [invariant.counts _ user.1]
  exact List.countP_pos_iff.mpr ⟨(address, usage.1), user.2, by simpa [waitsAt] using waiting⟩

theorem Invariant.not_waiting_of_free (free : task ∈ execution.machine.unblockedTaskQueue ++ execution.handedOut)
    (address : α) : task ∉ (execution.machine.usageQueues address).blockedUsagesFromTasks.map Prod.snd :=
  fun waiting => (invariant.waiting_counted waiting).2.2.ne' (invariant.mem_free_iff.mp free).2

theorem Invariant.nodup_blocked (address : α) :
    ((execution.machine.usageQueues address).blockedUsagesFromTasks.map Prod.snd).Nodup :=
  ((invariant.queued address).blocked_sublist.map Prod.snd).nodup
    (nodup_map_snd_usersOf (List.Nodup.of_map Task.id invariant.distinct) invariant.nodupAddresses)

theorem Invariant.idle (idle : execution.machine.hasNoActiveTask = true) :
    execution.live = [] ∧ execution.machine.unblockedTaskQueue = [] ∧ execution.handedOut = [] := by
  have noLive : execution.live = [] := by
    have none : execution.machine.activeTaskCount = 0 := by simpa [hasNoActiveTask] using idle
    exact List.eq_nil_of_length_eq_zero (invariant.active ▸ none)
  have nothing := invariant.partition
  rw [noLive, List.filter_nil] at nothing
  exact ⟨noLive, List.append_eq_nil_iff.mp (List.perm_nil.mp nothing.symm)⟩

end Invariant

end Execution

end UnifiedScheduler
