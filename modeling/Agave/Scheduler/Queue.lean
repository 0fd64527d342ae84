import Mathlib
import Agave.Library.MachineInt
import Agave.Library.List
import Agave.Scheduler.StateMachine

/-! What one address's usage queue holds against the usages of the tasks that lock the address, in
the order the tasks were scheduled: the holders first, whose usage is the queue's current usage,
then the blocked usages. Every operation of `UsageQueueInner` keeps this. -/

namespace UnifiedScheduler

open MachineInt

variable {α : Type}

/-- `current` is the usage of holders that requested `usages`. -/
def Usage.Holds : Option Usage → List RequestedUsage → Prop
  | none, usages => usages = []
  | some .writable, usages => usages = [.writable]
  | some (.readonly count), usages => 0 < count ∧ usages = List.replicate count .readonly

/-- A usage the queue takes at once: the queue is unused, or a readonly usage joins readers. -/
def Relockable (currentUsage : Option Usage) (requestedUsage : RequestedUsage) : Prop :=
  currentUsage = none ∨ requestedUsage = .readonly ∧ ∃ count, currentUsage = some (.readonly count)

/-- The queue of an address against its `users`: first the holders, whose usage is the current one,
then the usage popped off the queue and being relocked, if any, then the blocked usages. A queue
with blocked usages and nothing in hand has holders, so it never waits on nobody. -/
def Queued (users : List (UsageFromTask α)) (usageQueue : UsageQueueInner α)
    (inHand : Option (UsageFromTask α)) : Prop :=
  ∃ holders, users = holders ++ inHand.toList ++ usageQueue.blockedUsagesFromTasks ∧
    Usage.Holds usageQueue.currentUsage (holders.map Prod.fst) ∧
    match inHand with
    | some (requestedUsage, _) => Relockable usageQueue.currentUsage requestedUsage
    | none => usageQueue.blockedUsagesFromTasks ≠ [] → holders ≠ []

namespace Usage.Holds

theorem ne_nil {usage : Usage} {usages : List RequestedUsage} (holds : Usage.Holds (some usage) usages) :
    usages ≠ [] := by
  cases usage with
  | writable => simp only [Usage.Holds] at holds; simp [holds]
  | readonly count =>
    obtain ⟨positive, rfl⟩ := holds
    exact List.ne_nil_of_length_pos (by simpa using positive)

theorem eq_none {current : Option Usage} (holds : Usage.Holds current []) : current = none := by
  cases current with
  | none => rfl
  | some usage => exact absurd rfl holds.ne_nil

theorem readonly_of_two_le {current : Option Usage} {usages : List RequestedUsage}
    (holds : Usage.Holds current usages) (two : 2 ≤ usages.length) : ∀ usage ∈ usages, usage = .readonly := by
  match current, holds with
  | none, rfl => simp at two
  | some .writable, rfl => simp at two
  | some (.readonly _), ⟨_, rfl⟩ => exact fun _ mem => List.eq_of_mem_replicate mem

end Usage.Holds

namespace UsageQueueInner

variable {usageQueue next : UsageQueueInner α} {requestedUsage : RequestedUsage} {lockResult : LockResult}

theorem tryLock_cases (locked : usageQueue.tryLock requestedUsage = some (lockResult, next)) :
    (lockResult = .ok () ∧ next.blockedUsagesFromTasks = usageQueue.blockedUsagesFromTasks ∧
      (usageQueue.currentUsage = none ∧ next.currentUsage = some (.ofRequestedUsage requestedUsage) ∨
        ∃ count, usageQueue.currentUsage = some (.readonly count) ∧ requestedUsage = .readonly ∧
          next.currentUsage = some (.readonly (count + 1)))) ∨
    (lockResult = .error () ∧ next = usageQueue ∧ usageQueue.currentUsage ≠ none) := by
  rcases usageQueue with ⟨_ | _ | _, blocked⟩ <;> cases requestedUsage <;>
    simp only [tryLock, bind, pure, Option.some.injEq, Prod.mk.injEq, Option.bind_eq_some_iff, increment,
      checkedAdd_eq_some] at locked
  all_goals first
    | obtain ⟨rfl, rfl⟩ := locked; simp
    | obtain ⟨_, ⟨-, rfl⟩, rfl, rfl⟩ := locked; simp

theorem tryLock_error (locked : usageQueue.tryLock requestedUsage = some (.error (), next)) :
    next = usageQueue ∧ usageQueue.currentUsage ≠ none := by
  rcases tryLock_cases locked with ⟨refused, -⟩ | ⟨-, same, used⟩
  · cases refused
  · exact ⟨same, used⟩

theorem tryLock_blocked (locked : usageQueue.tryLock requestedUsage = some (lockResult, next)) :
    next.blockedUsagesFromTasks = usageQueue.blockedUsagesFromTasks := by
  rcases tryLock_cases locked with ⟨-, same, -⟩ | ⟨-, rfl, -⟩
  · exact same
  · rfl

theorem Holds.tryLock_ok {usages : List RequestedUsage} (holds : Usage.Holds usageQueue.currentUsage usages)
    (locked : usageQueue.tryLock requestedUsage = some (.ok (), next)) :
    Usage.Holds next.currentUsage (usages ++ [requestedUsage]) := by
  rcases tryLock_cases locked with ⟨-, -, ⟨unused, taken⟩ | ⟨count, readers, rfl, taken⟩⟩ | ⟨refused, -⟩
  · rw [unused] at holds
    rw [taken, show usages = [] from holds]
    cases requestedUsage <;> simp [Usage.Holds, Usage.ofRequestedUsage]
  · rw [readers] at holds
    obtain ⟨positive, rfl⟩ := holds
    rw [taken]
    exact ⟨Nat.succ_pos count, List.replicate_succ'.symm⟩
  · cases refused

theorem tryLock_isSome {usages : List RequestedUsage} (requestedUsage : RequestedUsage) (holds : Usage.Holds usageQueue.currentUsage usages)
    (room : usages.length < maxValue 32) : ∃ result, usageQueue.tryLock requestedUsage = some result := by
  match usageQueue, requestedUsage, holds with
  | ⟨some (.readonly count), _⟩, .readonly, ⟨_, readers⟩ =>
    have fits : count + 1 ≤ maxValue 32 := by simpa [readers] using room
    exact ⟨_, by simp [tryLock, bind, increment, checkedAdd, fits]; rfl⟩
  | ⟨none, _⟩, _, _ | ⟨some (.readonly _), _⟩, .writable, _ | ⟨some .writable, _⟩, _, _ => exact ⟨_, rfl⟩

theorem tryLock_ok_of_relockable (relockable : Relockable usageQueue.currentUsage requestedUsage)
    (locked : usageQueue.tryLock requestedUsage = some (lockResult, next)) : lockResult = .ok () := by
  rcases tryLock_cases locked with ⟨done, -⟩ | ⟨rfl, -, used⟩
  · exact done
  · rcases relockable with unused | ⟨rfl, count, readers⟩
    · exact absurd unused used
    · rcases usageQueue with ⟨current, blocked⟩
      dsimp only at readers
      subst readers
      simp [tryLock, bind, Option.bind_eq_some_iff] at locked

@[simp] theorem unlock_writable (usageQueue : UsageQueueInner α) (writer : usageQueue.currentUsage = some .writable) :
    usageQueue.unlock .writable = some usageQueue.release := by
  simp [unlock, writer]

@[simp] theorem unlock_last_reader (usageQueue : UsageQueueInner α)
    (reader : usageQueue.currentUsage = some (.readonly 1)) : usageQueue.unlock .readonly = some usageQueue.release := by
  simp [unlock, reader]

theorem unlock_reader (usageQueue : UsageQueueInner α) {count : Nat}
    (readers : usageQueue.currentUsage = some (.readonly (count + 2))) :
    usageQueue.unlock .readonly = some (none, { usageQueue with currentUsage := some (.readonly (count + 1)) }) := by
  simp [unlock, readers, bind, decrement, checkedSub]

theorem pushBlockedUsageFromTask_of_used {usageFromTask : UsageFromTask α} (used : usageQueue.currentUsage ≠ none) :
    usageQueue.pushBlockedUsageFromTask usageFromTask =
      some { usageQueue with blockedUsagesFromTasks := usageQueue.blockedUsagesFromTasks ++ [usageFromTask] } := by
  unfold pushBlockedUsageFromTask
  split
  · rfl
  · contradiction

end UsageQueueInner

namespace Queued

open UsageQueueInner

variable {users before after : List (UsageFromTask α)} {usageQueue next : UsageQueueInner α}
  {requestedUsage : RequestedUsage} {task : Task α}

theorem blocked_sublist {inHand : Option (UsageFromTask α)} (queued : Queued users usageQueue inHand) :
    usageQueue.blockedUsagesFromTasks.Sublist users := by
  obtain ⟨holders, rfl, -⟩ := queued
  exact List.sublist_append_right _ _

theorem mem_of_blocked {inHand : Option (UsageFromTask α)} {waiter : UsageFromTask α}
    (queued : Queued users usageQueue inHand) (waiting : waiter ∈ usageQueue.blockedUsagesFromTasks) : waiter ∈ users :=
  queued.blocked_sublist.subset waiting

theorem mem_of_inHand {usage : UsageFromTask α} (queued : Queued users usageQueue (some usage)) : usage ∈ users := by
  obtain ⟨holders, rfl, -⟩ := queued
  simp

theorem currentUsage_ne_none (queued : Queued users usageQueue none) (blocked : usageQueue.blockedUsagesFromTasks ≠ []) :
    usageQueue.currentUsage ≠ none := by
  obtain ⟨holders, -, holds, haveHolders⟩ := queued
  intro unused
  rw [unused] at holds
  exact haveHolders blocked (List.map_eq_nil_iff.mp holds)

theorem lock (task : Task α) (queued : Queued users usageQueue none) (noBlocked : usageQueue.blockedUsagesFromTasks = [])
    (locked : usageQueue.tryLock requestedUsage = some (.ok (), next)) :
    Queued (users ++ [(requestedUsage, task)]) next none := by
  obtain ⟨holders, rfl, holds, -⟩ := queued
  have stillNone : next.blockedUsagesFromTasks = [] := (tryLock_blocked locked).trans noBlocked
  refine ⟨holders ++ [(requestedUsage, task)], by simp [noBlocked, stillNone], ?_, fun blocked => absurd stillNone blocked⟩
  simpa using Holds.tryLock_ok holds locked

theorem push (queued : Queued users usageQueue none) (requestedUsage : RequestedUsage) (task : Task α)
    (used : usageQueue.currentUsage ≠ none) :
    ∃ next, usageQueue.pushBlockedUsageFromTask (requestedUsage, task) = some next ∧
      Queued (users ++ [(requestedUsage, task)]) next none := by
  obtain ⟨holders, rfl, holds, -⟩ := queued
  refine ⟨_, pushBlockedUsageFromTask_of_used used, holders, by simp, holds, fun _ => ?_⟩
  obtain ⟨usage, current⟩ := Option.ne_none_iff_exists'.mp used
  rw [current] at holds
  exact fun noHolders => holds.ne_nil (by simp [noHolders])

theorem released (waiting : users = usageQueue.blockedUsagesFromTasks) :
    Queued users usageQueue.release.2 usageQueue.release.1 := by
  rcases usageQueue with ⟨current, _ | ⟨usage, rest⟩⟩
  · exact ⟨[], by simp [UsageQueueInner.release, waiting], rfl, fun nonempty => absurd rfl nonempty⟩
  · exact ⟨[], by simp [UsageQueueInner.release, waiting], rfl, Or.inl rfl⟩

theorem unlock (queued : Queued (before ++ (requestedUsage, task) :: after) usageQueue none)
    (holding : (requestedUsage, task) ∉ usageQueue.blockedUsagesFromTasks) :
    ∃ inHand next, usageQueue.unlock requestedUsage = some (inHand, next) ∧ Queued (before ++ after) next inHand ∧
      usageQueue.blockedUsagesFromTasks = inHand.toList ++ next.blockedUsagesFromTasks := by
  obtain ⟨holders, split, holds, haveHolders⟩ := queued
  obtain ⟨rest, rfl, rfl⟩ :=
    List.append_eq_append_cons_of_not_mem (by simpa using split.symm) holding
  simp only [List.map_append, List.map_cons] at holds
  have alone : before = [] → rest = [] → usageQueue.unlock requestedUsage = some usageQueue.release →
      ∃ inHand next, usageQueue.unlock requestedUsage = some (inHand, next) ∧
        Queued (before ++ (rest ++ usageQueue.blockedUsagesFromTasks)) next inHand ∧
        usageQueue.blockedUsagesFromTasks = inHand.toList ++ next.blockedUsagesFromTasks := by
    rintro rfl rfl unlocked
    refine ⟨_, _, unlocked, released (by simp), ?_⟩
    cases usageQueue.blockedUsagesFromTasks <;> rfl
  match current : usageQueue.currentUsage, holds with
  | none, holds => simp [Usage.Holds] at holds
  | some .writable, holds =>
    simp only [Usage.Holds] at holds
    obtain ⟨rfl, rfl, rfl⟩ : before = [] ∧ requestedUsage = .writable ∧ rest = [] := by
      rcases before with _ | ⟨_, before⟩
      · simpa using holds
      · simp at holds
    exact alone rfl rfl (unlock_writable _ current)
  | some (.readonly count), ⟨positive, readers⟩ =>
    have inHolders : requestedUsage ∈ before.map Prod.fst ++ requestedUsage :: rest.map Prod.fst := by simp
    have reader : requestedUsage = .readonly := List.eq_of_mem_replicate (readers ▸ inHolders)
    subst reader
    have lengths := congrArg List.length readers
    simp only [List.length_append, List.length_cons, List.length_map, List.length_replicate] at lengths
    rcases Nat.lt_or_ge count 2 with one | more
    · have last : count = 1 := by omega
      exact alone (List.eq_nil_of_length_eq_zero (by omega)) (List.eq_nil_of_length_eq_zero (by omega))
        (unlock_last_reader _ (last ▸ current))
    · obtain ⟨fewer, rfl⟩ : ∃ fewer, count = fewer + 2 := ⟨count - 2, by omega⟩
      refine ⟨none, _, unlock_reader _ current, ⟨before ++ rest, by simp, ⟨Nat.succ_pos fewer, ?_⟩, ?_⟩, by simp⟩
      · refine List.eq_replicate_iff.mpr ⟨by simp; omega, fun usage mem => ?_⟩
        have inHolders : usage ∈ before.map Prod.fst ++ RequestedUsage.readonly :: rest.map Prod.fst := by
          simp only [List.map_append, List.mem_append, List.mem_cons] at mem ⊢
          tauto
        exact List.eq_of_mem_replicate (readers ▸ inHolders)
      · intro _ noHolders
        obtain ⟨rfl, rfl⟩ := List.append_eq_nil_iff.mp noHolders
        simp at lengths

theorem relock (queued : Queued users usageQueue (some (requestedUsage, task)))
    (room : users.length ≤ maxValue 32) :
    ∃ next, usageQueue.tryLock requestedUsage = some (.ok (), next) ∧ Queued users next none ∧
      next.blockedUsagesFromTasks = usageQueue.blockedUsagesFromTasks ∧
      (requestedUsage = .readonly → ∃ count, next.currentUsage = some (.readonly count)) := by
  obtain ⟨holders, rfl, holds, relockable⟩ := queued
  have fewer : (holders.map Prod.fst).length < maxValue 32 := by simp at room ⊢; omega
  obtain ⟨⟨lockResult, next⟩, locked⟩ := tryLock_isSome requestedUsage holds fewer
  obtain rfl := tryLock_ok_of_relockable relockable locked
  have same := tryLock_blocked locked
  refine ⟨next, locked, ⟨holders ++ [(requestedUsage, task)], by simp [same], ?_, fun _ => by simp⟩, same, ?_⟩
  · simpa using Holds.tryLock_ok holds locked
  · rintro rfl
    rcases tryLock_cases locked with ⟨-, -, ⟨-, taken⟩ | ⟨count, -, -, taken⟩⟩ | ⟨refused, -⟩
    · exact ⟨1, taken⟩
    · exact ⟨count + 1, taken⟩
    · cases refused

theorem popUnblockedReadonly (queued : Queued users usageQueue none)
    (readers : ∃ count, usageQueue.currentUsage = some (.readonly count)) :
    ∃ inHand next, usageQueue.popUnblockedReadonlyUsageFromTask = some (inHand, next) ∧ Queued users next inHand ∧
      usageQueue.blockedUsagesFromTasks = inHand.toList ++ next.blockedUsagesFromTasks := by
  obtain ⟨holders, rfl, holds, -⟩ := queued
  obtain ⟨count, current⟩ := readers
  rcases usageQueue with ⟨currentUsage, blocked⟩
  dsimp only at current holds ⊢
  subst current
  match blocked with
  | (.readonly, waiter) :: rest =>
    exact ⟨_, _, rfl, ⟨holders, by simp, holds, .inr ⟨rfl, count, rfl⟩⟩, rfl⟩
  | [] => exact ⟨_, _, rfl, ⟨holders, by simp, holds, fun nonempty => absurd rfl nonempty⟩, rfl⟩
  | (.writable, waiter) :: rest =>
    exact ⟨_, _, rfl, ⟨holders, by simp, holds, fun _ noHolders => holds.ne_nil (by simp [noHolders])⟩, rfl⟩

theorem eq_default (queued : Queued [] usageQueue none) : usageQueue.currentUsage = none ∧ usageQueue.blockedUsagesFromTasks = [] := by
  obtain ⟨holders, empty, holds, -⟩ := queued
  simp only [Option.toList_none, List.append_nil, List.nil_eq, List.append_eq_nil_iff] at empty
  obtain ⟨rfl, noBlocked⟩ := empty
  exact ⟨Usage.Holds.eq_none holds, noBlocked⟩

theorem readonly_of_not_blocked {earlier later : List (UsageFromTask α)} {first second : UsageFromTask α}
    (queued : Queued (earlier ++ later) usageQueue none) (inEarlier : first ∈ earlier) (inLater : second ∈ later)
    (holding : second ∉ usageQueue.blockedUsagesFromTasks) : first.1 = .readonly ∧ second.1 = .readonly := by
  obtain ⟨holders, split, holds, -⟩ := queued
  simp only [Option.toList_none, List.append_nil] at split
  rcases List.append_eq_append_iff.mp split with ⟨others, rfl, rfl⟩ | ⟨rest, -, blocked⟩
  · have heldToo : second ∈ others := by simpa [holding] using inLater
    have two : 2 ≤ ((earlier ++ others).map Prod.fst).length := by
      simp only [List.length_map, List.length_append]
      have := List.length_pos_of_mem inEarlier
      have := List.length_pos_of_mem heldToo
      omega
    have readers := Usage.Holds.readonly_of_two_le holds two
    exact ⟨readers _ (List.mem_map_of_mem (List.mem_append_left _ inEarlier)),
      readers _ (List.mem_map_of_mem (List.mem_append_right _ heldToo))⟩
  · exact absurd (blocked ▸ List.mem_append_right rest inLater) holding

theorem exists_holder {waiter : UsageFromTask α} (queued : Queued users usageQueue none)
    (waiting : waiter ∈ usageQueue.blockedUsagesFromTasks) :
    ∃ earlier later holder, users = earlier ++ later ∧ holder ∈ earlier ∧ waiter ∈ later := by
  obtain ⟨holders, rfl, -, haveHolders⟩ := queued
  obtain ⟨holder, held⟩ := List.exists_mem_of_ne_nil _ (haveHolders (List.ne_nil_of_mem waiting))
  exact ⟨holders, _, holder, by simp, held, waiting⟩

end Queued

end UnifiedScheduler
