import Mathlib
import Agave.Library.StateMachine
import Agave.Runtime.StatusCache

/-! The invariant `clear_slot_entries` relies on, in the words of its comment: every blockhash a
slot recorded is in the cache, with every key slice the slot recorded for it, because `purge_roots`
drops a blockhash only with the records of the slots no later than its highest. We prove it of every
cache the bank's calls reach, as long as no key is inserted twice in one slot under one blockhash, and
so that `clear_slot_entries` never panics there; a key inserted twice does make it panic. -/

namespace Runtime

namespace StatusCache

open StateMachine

variable {T : Type}

/-- A slot's record of a blockhash, as the cache must still hold it. -/
structure Recorded (cache : KeyStatusMap T) (slot : Slot) (blockhash : Hash) (keyList : List (KeySlice × T)) :
    Prop where
  nonempty : keyList ≠ []
  distinct : (keyList.map Prod.fst).Nodup
  cached : ∃ entry, cache[blockhash]? = some entry ∧ slot ≤ entry.1
  held : ∀ keyEntry ∈ keyList, ∃ fork ∈ forks cache blockhash keyEntry.1, fork.1 = slot

def Consistent (sc : StatusCache T) : Prop :=
  ∀ slot blockhash, blockhash ∈ sc.slotDeltas.getD slot ∅ →
    Recorded sc.cache slot blockhash (deltaEntries sc.slotDeltas slot blockhash)

theorem consistent_default : Consistent (default : StatusCache T) := by
  intro slot blockhash recorded
  rw [default, Std.HashMap.getD_empty] at recorded
  exact absurd recorded Std.HashMap.not_mem_empty

section Insert

variable (sc : StatusCache T) (transactionBlockhash : Hash) (key : Key) (slot : Slot) (res : T) (randomKeyIndex : Nat)

theorem Recorded.insert {slot' : Slot} {blockhash : Hash} {keyList : List (KeySlice × T)}
    (recorded : Recorded sc.cache slot' blockhash keyList) :
    Recorded (sc.insert transactionBlockhash key slot res randomKeyIndex).cache slot' blockhash keyList where
  nonempty := recorded.nonempty
  distinct := recorded.distinct
  cached := by
    obtain ⟨entry, cached, below⟩ := recorded.cached
    obtain ⟨entry', cached', raised, -⟩ := insert_cached sc transactionBlockhash key slot res randomKeyIndex blockhash cached
    exact ⟨entry', cached', le_trans below raised⟩
  held := by
    intro keyEntry listed
    obtain ⟨fork, kept, atSlot⟩ := recorded.held keyEntry listed
    refine ⟨fork, ?_, atSlot⟩
    rw [forks_insert]
    split
    · rename_i same
      rw [same.1]
      exact List.mem_append_left _ kept
    · exact kept

theorem consistent_insert (holds : Consistent sc)
    (fresh : keySlice key (min (sc.cache.getD transactionBlockhash (slot, randomKeyIndex, ∅)).2.1 (maxKeyIndex key)) ∉
      (deltaEntries sc.slotDeltas slot transactionBlockhash).map Prod.fst) :
    Consistent (sc.insert transactionBlockhash key slot res randomKeyIndex) := by
  intro slot' blockhash recorded
  rw [mem_slotDeltas_insert] at recorded
  rw [deltaEntries_insert]
  split
  · rename_i same
    obtain ⟨rfl, rfl⟩ := same
    have before : Recorded sc.cache slot transactionBlockhash (deltaEntries sc.slotDeltas slot transactionBlockhash) ∨
        deltaEntries sc.slotDeltas slot transactionBlockhash = [] := by
      by_cases present : transactionBlockhash ∈ sc.slotDeltas.getD slot ∅
      · exact .inl (holds slot transactionBlockhash present)
      · right
        rw [deltaEntries, Std.HashMap.getD_eq_fallback present]
    refine ⟨by simp, ?_, insert_cached_self sc transactionBlockhash key slot res randomKeyIndex, ?_⟩
    · rw [List.map_append, List.nodup_append]
      refine ⟨?_, List.nodup_singleton _, ?_⟩
      · rcases before with before | empty
        · exact before.distinct
        · rw [empty]
          exact List.nodup_nil
      · intro slice listed slice' added
        rw [List.map_singleton, List.mem_singleton] at added
        rw [added]
        rintro rfl
        exact fresh listed
    · intro keyEntry listed
      rcases List.mem_append.mp listed with old | new
      · rcases before with before | empty
        · exact (before.insert sc transactionBlockhash key slot res randomKeyIndex).held keyEntry old
        · rw [empty] at old
          exact absurd old List.not_mem_nil
      · rw [List.mem_singleton] at new
        subst new
        refine ⟨(slot, res), ?_, rfl⟩
        rw [forks_insert, if_pos ⟨rfl, rfl⟩]
        exact List.mem_append_right _ (List.mem_singleton_self _)
  · rename_i other
    have old : blockhash ∈ sc.slotDeltas.getD slot' ∅ := recorded.resolve_left other
    exact (holds slot' blockhash old).insert sc transactionBlockhash key slot res randomKeyIndex

end Insert

section Purge

variable (sc : StatusCache T)

theorem Recorded.filter {min slot : Slot} {blockhash : Hash} {keyList : List (KeySlice × T)}
    (recorded : Recorded sc.cache slot blockhash keyList) (later : slot > min) :
    Recorded (sc.cache.filter fun _ entry => entry.1 > min) slot blockhash keyList where
  nonempty := recorded.nonempty
  distinct := recorded.distinct
  cached := by
    obtain ⟨entry, cached, below⟩ := recorded.cached
    refine ⟨entry, ?_, below⟩
    rw [Std.HashMap.getElem?_filter', cached, Option.filter_some, if_pos (decide_eq_true (lt_of_lt_of_le later below))]
  held := by
    obtain ⟨entry, cached, below⟩ := recorded.cached
    intro keyEntry listed
    rw [forks_filter, cached]
    dsimp only
    rw [if_pos (lt_of_lt_of_le later below)]
    exact recorded.held keyEntry listed

theorem consistent_purgeRoots (holds : Consistent sc) : Consistent sc.purgeRoots := by
  rcases purgeRoots_cases sc with same | ⟨min, -, -, purged⟩
  · rw [same]
    exact holds
  · rw [purged]
    intro slot blockhash recorded
    rw [mem_slotDeltas_filter] at recorded
    dsimp only
    rw [deltaEntries_filter, if_pos recorded.1]
    exact (holds slot blockhash recorded.2).filter sc recorded.1

theorem consistent_addRoot (holds : Consistent sc) (fork : Slot) : Consistent (sc.addRoot fork) :=
  consistent_purgeRoots { sc with roots := sc.roots.insert fork } holds

end Purge

section Clear

variable {sc sc' : StatusCache T} {slot : Slot}

theorem Recorded.clearSlotEntries {slot' : Slot} {blockhash : Hash} {keyList : List (KeySlice × T)}
    (cleared : sc.clearSlotEntries slot = some sc') (other : slot' ≠ slot)
    (recorded : Recorded sc.cache slot' blockhash keyList) : Recorded sc'.cache slot' blockhash keyList := by
  have kept : ∀ keyEntry ∈ keyList, ∃ fork ∈ forks sc'.cache blockhash keyEntry.1, fork.1 = slot' := by
    intro keyEntry listed
    obtain ⟨fork, held, atSlot⟩ := recorded.held keyEntry listed
    refine ⟨fork, ?_, atSlot⟩
    rw [clearSlotEntries_forks cleared]
    split
    · exact List.mem_filter.mpr ⟨held, by simpa [atSlot] using other⟩
    · exact held
  refine ⟨recorded.nonempty, recorded.distinct, ?_, kept⟩
  obtain ⟨keyEntry, listed⟩ := List.exists_mem_of_ne_nil _ recorded.nonempty
  obtain ⟨fork, held, -⟩ := kept keyEntry listed
  obtain ⟨entry', cached'⟩ := cache_of_forks_ne_nil (List.ne_nil_of_mem held)
  obtain ⟨entry, cached, sameSlot⟩ := clearSlotEntries_maxSlot cleared cached'
  obtain ⟨entry'', cached'', below⟩ := recorded.cached
  rw [cached, Option.some.injEq] at cached''
  subst cached''
  exact ⟨entry', cached', sameSlot ▸ below⟩

theorem consistent_clearSlotEntries (holds : Consistent sc) (cleared : sc.clearSlotEntries slot = some sc') :
    Consistent sc' := by
  obtain ⟨-, erased⟩ := clearSlotEntries_roots_slotDeltas cleared
  intro slot' blockhash recorded
  rw [erased, Std.HashMap.getD_erase] at recorded
  have other : slot ≠ slot' := by
    rintro rfl
    rw [if_pos (beq_self_eq_true _)] at recorded
    exact Std.HashMap.not_mem_empty recorded
  rw [if_neg (by simpa using other)] at recorded
  have same : deltaEntries sc'.slotDeltas slot' blockhash = deltaEntries sc.slotDeltas slot' blockhash := by
    rw [deltaEntries, deltaEntries, erased, Std.HashMap.getD_erase, if_neg (by simpa using other)]
  rw [same]
  exact (holds slot' blockhash recorded).clearSlotEntries cleared (Ne.symm other)

theorem clearSlotEntries_isSome (holds : Consistent sc) (slot : Slot) : (sc.clearSlotEntries slot).isSome := by
  unfold clearSlotEntries
  split
  · rename_i status found
    have stored : sc.slotDeltas.getD slot ∅ = status := by
      rw [Std.HashMap.getD_eq_getD_getElem?, found, Option.getD_some]
    have recorded : ∀ entry ∈ status.toList, (∃ cached, sc.cache[entry.1]? = some cached) ∧
        (entry.2.2.map Prod.fst).Nodup ∧ ∀ keyEntry ∈ entry.2.2, forks sc.cache entry.1 keyEntry.1 ≠ [] := by
      intro entry listed
      have lookup := Std.HashMap.mem_toList_iff_getElem?_eq_some.mp listed
      have present : entry.1 ∈ sc.slotDeltas.getD slot ∅ := by
        rw [stored, Std.HashMap.mem_iff_isSome_getElem?, lookup]
        rfl
      have entries : deltaEntries sc.slotDeltas slot entry.1 = entry.2.2 := by
        rw [deltaEntries, stored, Std.HashMap.getD_eq_getD_getElem?, lookup, Option.getD_some]
      have record := holds slot entry.1 present
      rw [entries] at record
      obtain ⟨cached, found', -⟩ := record.cached
      refine ⟨⟨cached, found'⟩, record.distinct, fun keyEntry keyListed => ?_⟩
      obtain ⟨fork, held, -⟩ := record.held keyEntry keyListed
      exact List.ne_nil_of_mem held
    have distinct : (status.toList.map Prod.fst).Nodup := by
      rw [List.Nodup, List.pairwise_map]
      exact Std.HashMap.distinct_keys_toList.imp fun different => by simpa using different
    obtain ⟨cache, inner⟩ := foldlM_clearBlockhash_of_forks slot status.toList sc.cache distinct recorded
    rw [Option.bind_eq_bind, inner]
    rfl
  · rfl

end Clear

/-! ### A key inserted twice -/

section Twice

variable {slot : Slot} {slice : KeySlice}

theorem foldlM_clearKeySlice_of_not_mem :
    ∀ (keyList : List (KeySlice × T)) (allHashMaps : KeyMap T), slice ∈ keyList.map Prod.fst → slice ∉ allHashMaps →
      keyList.foldlM (fun allHashMaps entry => clearKeySlice slot allHashMaps entry.1) allHashMaps = none
  | [], _, listed, _ => absurd listed List.not_mem_nil
  | entry :: keyList, allHashMaps, listed, absent => by
    rw [List.foldlM_cons, Option.bind_eq_bind]
    by_cases same : entry.1 = slice
    · rw [same, clearKeySlice, Std.HashMap.getElem?_eq_none absent]
      rfl
    · have later : slice ∈ keyList.map Prod.fst := by
        rcases List.mem_cons.mp listed with first | later
        · exact absurd first.symm same
        · exact later
      cases cleared : clearKeySlice slot allHashMaps entry.1 with
      | none => rfl
      | some between =>
        have stillAbsent : slice ∉ between := by
          rw [Std.HashMap.mem_iff_isSome_getElem?, clearKeySlice_getElem?_of_ne cleared same,
            ← Std.HashMap.mem_iff_isSome_getElem?]
          exact absent
        exact foldlM_clearKeySlice_of_not_mem keyList between later stillAbsent

theorem foldlM_clearKeySlice_of_twice :
    ∀ (keyList : List (KeySlice × T)) (allHashMaps : KeyMap T), 2 ≤ (keyList.map Prod.fst).count slice →
      (∀ fork ∈ allHashMaps.getD slice [], fork.1 = slot) →
      keyList.foldlM (fun allHashMaps entry => clearKeySlice slot allHashMaps entry.1) allHashMaps = none
  | [], _, twice, _ => absurd twice (by simp)
  | entry :: keyList, allHashMaps, twice, atSlot => by
    rw [List.map_cons, List.count_cons] at twice
    rw [List.foldlM_cons, Option.bind_eq_bind]
    by_cases same : entry.1 = slice
    · rw [if_pos (beq_iff_eq.mpr same)] at twice
      rw [same]
      unfold clearKeySlice
      cases found : allHashMaps[slice]? with
      | none => rfl
      | some keyList' =>
        have stored : allHashMaps.getD slice [] = keyList' := by
          rw [Std.HashMap.getD_eq_getD_getElem?, found, Option.getD_some]
        have emptied : keyList'.filter (fun fork => fork.1 != slot) = [] := by
          rw [List.filter_eq_nil_iff]
          intro fork held
          rw [stored] at atSlot
          simp [atSlot fork held]
        have again : 0 < (keyList.map Prod.fst).count slice := by omega
        dsimp only
        rw [emptied, List.isEmpty_nil, if_pos rfl, Option.bind_some]
        exact foldlM_clearKeySlice_of_not_mem keyList _ (List.count_pos_iff.mp again)
          (fun present => by simp at present)
    · rw [if_neg (by simpa using same)] at twice
      cases cleared : clearKeySlice slot allHashMaps entry.1 with
      | none => rfl
      | some between =>
        have unchanged : between.getD slice [] = allHashMaps.getD slice [] := by
          rw [Std.HashMap.getD_eq_getD_getElem?, Std.HashMap.getD_eq_getD_getElem?,
            clearKeySlice_getElem?_of_ne cleared same]
        exact foldlM_clearKeySlice_of_twice keyList between twice (unchanged ▸ atSlot)

theorem foldlM_clearBlockhash_of_twice {blockhash : Hash} :
    ∀ (entries : List (Hash × Nat × List (KeySlice × T))) (cache : KeyStatusMap T), (entries.map Prod.fst).Nodup →
      (∃ entry ∈ entries, entry.1 = blockhash ∧ 2 ≤ (entry.2.2.map Prod.fst).count slice) →
      (∀ fork ∈ forks cache blockhash slice, fork.1 = slot) →
      entries.foldlM (fun cache entry => clearBlockhash slot cache entry.1 entry.2.2) cache = none
  | [], _, _, ⟨_, listed, _⟩, _ => absurd listed List.not_mem_nil
  | entry :: entries, cache, distinct, ⟨target, listed, same, twice⟩, atSlot => by
    rw [List.map_cons, List.nodup_cons] at distinct
    rw [List.foldlM_cons, Option.bind_eq_bind]
    rcases List.mem_cons.mp listed with rfl | later
    · unfold clearBlockhash
      cases found : cache[target.1]? with
      | none => rfl
      | some cached =>
        have stored : forks cache target.1 slice = cached.2.2.getD slice [] := by rw [forks, found]
        rw [same] at stored
        dsimp only
        rw [Option.bind_eq_bind, foldlM_clearKeySlice_of_twice _ _ twice (stored ▸ atSlot)]
        rfl
    · have other : entry.1 ≠ blockhash := fun first =>
        distinct.1 (first ▸ same ▸ List.mem_map_of_mem later)
      cases cleared : clearBlockhash slot cache entry.1 entry.2.2 with
      | none => rfl
      | some between =>
        have unchanged : ∀ fork ∈ forks between blockhash slice, fork.1 = slot := by
          rw [clearBlockhash_forks cleared, if_neg (fun both => other both.1)]
          exact atSlot
        exact foldlM_clearBlockhash_of_twice entries between distinct.2 ⟨target, later, same, twice⟩ unchanged

end Twice

section InsertTwice

variable (sc : StatusCache T) (transactionBlockhash : Hash) (key : Key) (slot : Slot) (res res' : T)
  (randomKeyIndex randomKeyIndex' : Nat)

theorem insert_keyIndex :
    ((sc.insert transactionBlockhash key slot res randomKeyIndex).cache.getD transactionBlockhash
        (slot, randomKeyIndex', ∅)).2.1 = (sc.cache.getD transactionBlockhash (slot, randomKeyIndex, ∅)).2.1 := by
  rw [insert_cache]
  dsimp only
  rw [Std.HashMap.getD_insert_self]

/-- `clear_slot_entries` panics on a slot that inserted a key twice under one blockhash, when no
other slot holds a status for it. -/
theorem clearSlotEntries_insert_insert
    (atSlot : ∀ fork ∈ forks sc.cache transactionBlockhash
      (keySlice key (min (sc.cache.getD transactionBlockhash (slot, randomKeyIndex, ∅)).2.1 (maxKeyIndex key))),
      fork.1 = slot) :
    ((sc.insert transactionBlockhash key slot res randomKeyIndex).insert transactionBlockhash key slot res'
      randomKeyIndex').clearSlotEntries slot = none := by
  have sameIndex := insert_keyIndex sc transactionBlockhash key slot res randomKeyIndex randomKeyIndex'
  set twice := (sc.insert transactionBlockhash key slot res randomKeyIndex).insert transactionBlockhash key slot res'
    randomKeyIndex' with twiceDef
  set slice := keySlice key (min (sc.cache.getD transactionBlockhash (slot, randomKeyIndex, ∅)).2.1 (maxKeyIndex key))
    with sliceDef
  have recorded : deltaEntries twice.slotDeltas slot transactionBlockhash =
      deltaEntries sc.slotDeltas slot transactionBlockhash ++ [(slice, res)] ++ [(slice, res')] := by
    rw [twiceDef, deltaEntries_insert, if_pos ⟨rfl, rfl⟩, deltaEntries_insert, if_pos ⟨rfl, rfl⟩, sameIndex]
  have held : forks twice.cache transactionBlockhash slice =
      forks sc.cache transactionBlockhash slice ++ [(slot, res)] ++ [(slot, res')] := by
    rw [twiceDef, forks_insert, sameIndex, if_pos ⟨rfl, rfl⟩, forks_insert, if_pos ⟨rfl, rfl⟩]
  have heldAtSlot : ∀ fork ∈ forks twice.cache transactionBlockhash slice, fork.1 = slot := by
    intro fork member
    rw [held, List.mem_append, List.mem_append, List.mem_singleton, List.mem_singleton] at member
    rcases member with (old | rfl) | rfl
    · exact atSlot fork old
    · rfl
    · rfl
  have present : transactionBlockhash ∈ twice.slotDeltas.getD slot ∅ := by
    rw [twiceDef, mem_slotDeltas_insert]
    exact .inl ⟨rfl, rfl⟩
  unfold clearSlotEntries
  cases found : twice.slotDeltas[slot]? with
  | none =>
    rw [Std.HashMap.getD_eq_getD_getElem?, found, Option.getD_none] at present
    exact absurd present Std.HashMap.not_mem_empty
  | some status =>
    have stored : twice.slotDeltas.getD slot ∅ = status := by
      rw [Std.HashMap.getD_eq_getD_getElem?, found, Option.getD_some]
    rw [stored] at present
    obtain ⟨entry, lookup⟩ := Option.isSome_iff_exists.mp (Std.HashMap.mem_iff_isSome_getElem?.mp present)
    have entries : entry.2 = deltaEntries twice.slotDeltas slot transactionBlockhash := by
      rw [deltaEntries, stored, Std.HashMap.getD_eq_getD_getElem?, lookup, Option.getD_some]
    have distinct : (status.toList.map Prod.fst).Nodup := by
      rw [List.Nodup, List.pairwise_map]
      exact Std.HashMap.distinct_keys_toList.imp fun different => by simpa using different
    have listedTwice : 2 ≤ (entry.2.map Prod.fst).count slice := by
      rw [entries, recorded]
      simp
    dsimp only
    rw [Option.bind_eq_bind, foldlM_clearBlockhash_of_twice status.toList twice.cache distinct
      ⟨(transactionBlockhash, entry), Std.HashMap.mem_toList_iff_getElem?_eq_some.mpr lookup, rfl, listedTwice⟩
      heldAtSlot]
    rfl

/-- The slot already holds a status for the key when it inserts it twice more. -/
theorem clearSlotEntries_insert_thrice :
    ((((default : StatusCache Unit).insert 7 signatureKey 1 () 0).insert 7 signatureKey 1 () 0).insert 7
      signatureKey 1 () 0).clearSlotEntries 1 = none :=
  clearSlotEntries_insert_insert _ 7 signatureKey 1 () () 0 0 (by
    intro fork member
    rw [forks_insert] at member
    split at member
    · rw [List.mem_append, List.mem_singleton] at member
      rcases member with old | rfl
      · simp [forks, default] at old
      · rfl
    · simp [forks, default] at member)

end InsertTwice

/-! ### Runs -/

section Runs

/-- The calls the bank makes on its status cache. -/
inductive Operation (T : Type)
  | insert (transactionBlockhash : Hash) (key : Key) (slot : Slot) (res : T) (randomKeyIndex : Nat)
  | addRoot (fork : Slot)
  | purgeRoots
  | clearSlotEntries (slot : Slot)

/-- `none` where the call panics. -/
def Operation.apply (sc : StatusCache T) : Operation T → Option (StatusCache T)
  | .insert transactionBlockhash key slot res randomKeyIndex =>
    some (sc.insert transactionBlockhash key slot res randomKeyIndex)
  | .addRoot fork => some (sc.addRoot fork)
  | .purgeRoots => some sc.purgeRoots
  | .clearSlotEntries slot => sc.clearSlotEntries slot

/-- The bank inserts a key once in a slot under a blockhash: a transaction already processed is
rejected before it executes. -/
def Operation.Allowed (sc : StatusCache T) : Operation T → Prop
  | .insert transactionBlockhash key slot _ randomKeyIndex =>
    keySlice key (min (sc.cache.getD transactionBlockhash (slot, randomKeyIndex, ∅)).2.1 (maxKeyIndex key)) ∉
      (deltaEntries sc.slotDeltas slot transactionBlockhash).map Prod.fst
  | _ => True

structure Invariant (sc : StatusCache T) : Prop where
  consistent : Consistent sc
  roots : sc.roots.size ≤ maxCacheEntries

theorem invariant_default : Invariant (default : StatusCache T) where
  consistent := consistent_default
  roots := by
    rw [default, Std.HashSet.size_insert, if_neg Std.HashSet.not_mem_empty, Std.HashSet.size_empty]
    decide

theorem roots_size_addRoot {sc : StatusCache T} (bounded : sc.roots.size ≤ maxCacheEntries) (fork : Slot) :
    (sc.addRoot fork).roots.size ≤ maxCacheEntries := by
  have grown : (sc.roots.insert fork).size ≤ sc.roots.size + 1 := Std.HashSet.size_insert_le
  rw [addRoot, purgeRoots_roots_size]
  dsimp only
  split <;> omega

theorem invariant_preserved :
    Preserved (PartialActionStep (@Operation.Allowed T) Operation.apply) Invariant := by
  apply Preserved.partialActionStep
  intro sc op holds allowed
  cases op with
  | insert transactionBlockhash key slot res randomKeyIndex =>
    exact ⟨_, rfl, consistent_insert sc transactionBlockhash key slot res randomKeyIndex holds.consistent allowed,
      holds.roots⟩
  | addRoot fork =>
    exact ⟨_, rfl, consistent_addRoot sc holds.consistent fork, roots_size_addRoot holds.roots fork⟩
  | purgeRoots =>
    refine ⟨_, rfl, consistent_purgeRoots sc holds.consistent, ?_⟩
    have bounded := holds.roots
    rw [purgeRoots_roots_size]
    split <;> omega
  | clearSlotEntries slot =>
    obtain ⟨sc', cleared⟩ := Option.isSome_iff_exists.mp (clearSlotEntries_isSome holds.consistent slot)
    exact ⟨sc', cleared, consistent_clearSlotEntries holds.consistent cleared,
      (clearSlotEntries_roots_slotDeltas cleared).1 ▸ holds.roots⟩

theorem reachable_invariant {sc : StatusCache T}
    (reach : Reachable (PartialActionStep (@Operation.Allowed T) Operation.apply) default sc) : Invariant sc :=
  invariant_preserved.reachable invariant_default reach

/-- Along every run of the bank's calls, `clear_slot_entries` does not panic. -/
theorem clearSlotEntries_isSome_of_reachable {sc : StatusCache T}
    (reach : Reachable (PartialActionStep (@Operation.Allowed T) Operation.apply) default sc) (slot : Slot) :
    (sc.clearSlotEntries slot).isSome :=
  clearSlotEntries_isSome (invariant_preserved.reachable invariant_default reach).consistent slot

theorem reachable_invariant_insert : Invariant ((default : StatusCache Unit).insert 7 signatureKey 1 () 0) :=
  reachable_invariant
    ((Reachable.refl _ _).tail ⟨.insert 7 signatureKey 1 () 0, by simp [Operation.Allowed, deltaEntries, default], rfl⟩)

theorem clearSlotEntries_isSome_of_reachable_insert :
    (((default : StatusCache Unit).insert 7 signatureKey 1 () 0).clearSlotEntries 1).isSome :=
  clearSlotEntries_isSome_of_reachable
    ((Reachable.refl _ _).tail ⟨.insert 7 signatureKey 1 () 0, by simp [Operation.Allowed, deltaEntries, default], rfl⟩) 1

end Runs

end StatusCache

end Runtime
