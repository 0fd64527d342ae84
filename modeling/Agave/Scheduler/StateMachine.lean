import Mathlib
import Agave.Library.MachineInt

/-! The scheduling state machine of the unified scheduler: one FIFO usage queue per address, which
tasks lock address by address as they are scheduled and release as they are descheduled. A panic of
the source (`unreachable!`, `assert_matches!`, `panic!`, and a `ShortCounter` that overflows or
underflows its `u32`) is `none`. -/

namespace UnifiedScheduler

open MachineInt

/-- `ShortCounter::increment`. -/
def increment (counter : Nat) : Option Nat := checkedAdd 32 counter 1

/-- `ShortCounter::decrement`. -/
def decrement (counter : Nat) : Option Nat := checkedSub counter 1

inductive RequestedUsage
  | readonly
  | writable
  deriving DecidableEq, Repr

inductive Usage
  | readonly (count : Nat)
  | writable
  deriving DecidableEq, Repr

/-- `From<RequestedUsage> for Usage`. -/
def Usage.ofRequestedUsage : RequestedUsage → Usage
  | .readonly => .readonly 1
  | .writable => .writable

/-- A task as the state machine sees it: the identity of the `Arc` it lives in, and the lock context
of each address of its transaction. -/
structure Task (α : Type) where
  id : Nat
  lockContexts : List (α × RequestedUsage)
  deriving DecidableEq, Repr

abbrev UsageFromTask (α : Type) := RequestedUsage × Task α

/-- `Result<(), ()>`. -/
abbrev LockResult := Except Unit Unit

structure UsageQueueInner (α : Type) where
  currentUsage : Option Usage
  blockedUsagesFromTasks : List (UsageFromTask α)
  deriving DecidableEq, Repr

instance {α : Type} : Inhabited (UsageQueueInner α) := ⟨⟨none, []⟩⟩

namespace UsageQueueInner

variable {α : Type} (usageQueue : UsageQueueInner α)

def tryLock (requestedUsage : RequestedUsage) : Option (LockResult × UsageQueueInner α) :=
  match usageQueue.currentUsage, requestedUsage with
  | none, requestedUsage =>
    some (.ok (), { usageQueue with currentUsage := some (.ofRequestedUsage requestedUsage) })
  | some (.readonly count), .readonly => do
    let count ← increment count
    pure (.ok (), { usageQueue with currentUsage := some (.readonly count) })
  | some (.readonly _), .writable => some (.error (), usageQueue)
  | some .writable, _ => some (.error (), usageQueue)

/-- The queue once unused: no current usage, and its first blocked usage popped. -/
def release : Option (UsageFromTask α) × UsageQueueInner α :=
  (usageQueue.blockedUsagesFromTasks.head?, ⟨none, usageQueue.blockedUsagesFromTasks.tail⟩)

def unlock (requestedUsage : RequestedUsage) : Option (Option (UsageFromTask α) × UsageQueueInner α) :=
  match usageQueue.currentUsage, requestedUsage with
  | some (.readonly count), .readonly =>
    if count = 1 then some usageQueue.release
    else do
      let count ← decrement count
      pure (none, { usageQueue with currentUsage := some (.readonly count) })
  | some .writable, .writable => some usageQueue.release
  -- `unreachable!()`
  | _, _ => none

def pushBlockedUsageFromTask (usageFromTask : UsageFromTask α) : Option (UsageQueueInner α) :=
  match usageQueue.currentUsage with
  | some _ => some { usageQueue with blockedUsagesFromTasks := usageQueue.blockedUsagesFromTasks ++ [usageFromTask] }
  | none => none

def popUnblockedReadonlyUsageFromTask : Option (Option (UsageFromTask α) × UsageQueueInner α) :=
  match usageQueue.blockedUsagesFromTasks with
  | (.readonly, task) :: rest =>
    match usageQueue.currentUsage with
    | some (.readonly _) => some (some (.readonly, task), { usageQueue with blockedUsagesFromTasks := rest })
    | _ => none
  | _ => some (none, usageQueue)

def hasNoBlockedUsage : Bool := usageQueue.blockedUsagesFromTasks.isEmpty

end UsageQueueInner

/-- The state machine, with the usage queues of the addresses (one per address, shared by the
tasks that lock it) and the `blocked_usage_count` of each task, by its identity. -/
structure SchedulingStateMachine (α : Type) where
  unblockedTaskQueue : List (Task α)
  activeTaskCount : Nat
  handledTaskCount : Nat
  unblockedTaskCount : Nat
  totalTaskCount : Nat
  usageQueues : α → UsageQueueInner α
  blockedUsageCounts : Nat → Nat

namespace SchedulingStateMachine

variable {α : Type} [DecidableEq α] (s : SchedulingStateMachine α)

/-- `exclusively_initialize_current_thread_for_scheduling`, with every usage queue as
`UsageQueue::default()` makes it. -/
def initial : SchedulingStateMachine α := ⟨[], 0, 0, 0, 0, fun _ => default, fun _ => 0⟩

def hasNoActiveTask : Bool := s.activeTaskCount = 0

def hasUnblockedTask : Bool := !s.unblockedTaskQueue.isEmpty

def setUsageQueue (address : α) (usageQueue : UsageQueueInner α) : SchedulingStateMachine α :=
  { s with usageQueues := Function.update s.usageQueues address usageQueue }

@[simp] theorem setUsageQueue_usageQueues (address : α) (usageQueue : UsageQueueInner α) :
    (s.setUsageQueue address usageQueue).usageQueues = Function.update s.usageQueues address usageQueue := rfl

/-- One pass of the loop of `try_lock_usage_queues`, with the usages blocked so far. -/
def tryLockUsageQueue (task : Task α) (blockedUsageCount : Nat) (context : α × RequestedUsage) :
    Option (Nat × SchedulingStateMachine α) := do
  let usageQueue := s.usageQueues context.1
  let (lockResult, usageQueue) ←
    if usageQueue.hasNoBlockedUsage then usageQueue.tryLock context.2 else pure (.error (), usageQueue)
  match lockResult with
  | .ok () => pure (blockedUsageCount, s.setUsageQueue context.1 usageQueue)
  | .error () => do
    let blockedUsageCount ← increment blockedUsageCount
    let usageQueue ← usageQueue.pushBlockedUsageFromTask (context.2, task)
    pure (blockedUsageCount, s.setUsageQueue context.1 usageQueue)

def tryLockUsageQueues (task : Task α) : Option (Option (Task α) × SchedulingStateMachine α) := do
  let (blockedUsageCount, s) ←
    task.lockContexts.foldlM (fun acc context => acc.2.tryLockUsageQueue task acc.1 context) (0, s)
  -- no blocked usage count means success
  if blockedUsageCount = 0 then pure (some task, s)
  else pure (none, { s with blockedUsageCounts := Function.update s.blockedUsageCounts task.id blockedUsageCount })

def scheduleTask (task : Task α) : Option (Option (Task α) × SchedulingStateMachine α) := do
  let totalTaskCount ← increment s.totalTaskCount
  let activeTaskCount ← increment s.activeTaskCount
  { s with totalTaskCount, activeTaskCount }.tryLockUsageQueues task

def scheduleNextUnblockedTask : Option (Option (Task α) × SchedulingStateMachine α) :=
  match s.unblockedTaskQueue with
  | task :: rest => do
    let unblockedTaskCount ← increment s.unblockedTaskCount
    pure (some task, { s with unblockedTaskQueue := rest, unblockedTaskCount })
  | [] => some (none, s)

/-- `TaskInner::try_unblock`, with the task pushed onto the unblocked queue when it unblocks. -/
def tryUnblock (task : Task α) : Option (SchedulingStateMachine α) := do
  let count ← decrement (s.blockedUsageCounts task.id)
  let s := { s with blockedUsageCounts := Function.update s.blockedUsageCounts task.id count }
  pure (if count = 0 then { s with unblockedTaskQueue := s.unblockedTaskQueue ++ [task] } else s)

/-- The `while let` loop of `unlock_usage_queues` at `address`. Each pass pops one blocked usage off
the queue, so `fuel`, one more than the usages left, never runs out before the loop stops. -/
def unblockUsages (address : α) : (fuel : Nat) → Option (UsageFromTask α) → SchedulingStateMachine α →
    Option (SchedulingStateMachine α)
  | _, none, s => some s
  | 0, some _, _ => none
  | fuel + 1, some (requestedUsage, taskWithUnblockedQueue), s => do
    let s ← s.tryUnblock taskWithUnblockedQueue
    let (lockResult, usageQueue) ← (s.usageQueues address).tryLock requestedUsage
    match lockResult with
    | .ok () =>
      -- further readonly usages are relocked for parallelism
      let (unblockedTaskFromQueue, usageQueue) ← match requestedUsage with
        | .readonly => usageQueue.popUnblockedReadonlyUsageFromTask
        | .writable => pure (none, usageQueue)
      unblockUsages address fuel unblockedTaskFromQueue (s.setUsageQueue address usageQueue)
    -- "should never fail in this context"
    | .error () => none

def unlockUsageQueue (context : α × RequestedUsage) : Option (SchedulingStateMachine α) := do
  let (unblockedTaskFromQueue, usageQueue) ← (s.usageQueues context.1).unlock context.2
  unblockUsages context.1 (usageQueue.blockedUsagesFromTasks.length + 1) unblockedTaskFromQueue
    (s.setUsageQueue context.1 usageQueue)

def unlockUsageQueues (task : Task α) : Option (SchedulingStateMachine α) :=
  task.lockContexts.foldlM (fun s context => s.unlockUsageQueue context) s

def descheduleTask (task : Task α) : Option (SchedulingStateMachine α) := do
  let activeTaskCount ← decrement s.activeTaskCount
  let handledTaskCount ← increment s.handledTaskCount
  { s with activeTaskCount, handledTaskCount }.unlockUsageQueues task

def reinitialize : Option (SchedulingStateMachine α) :=
  if s.hasNoActiveTask ∧ s.unblockedTaskQueue.length = 0 then
    some { s with activeTaskCount := 0, handledTaskCount := 0, unblockedTaskCount := 0, totalTaskCount := 0 }
  else none

end SchedulingStateMachine

/-- `create_task`: a lock context per account key of the transaction, writable where the message
says so. `id` is the identity of the `Arc` that `Task::new` allocates. -/
def createTask {α : Type} (id : Nat) (accountKeys : List α) (isWritable : Nat → Bool) : Task α :=
  ⟨id, accountKeys.zipIdx.map fun (address, index) =>
    (address, if isWritable index then .writable else .readonly)⟩

end UnifiedScheduler
