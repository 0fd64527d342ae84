import Mathlib

/-! `StatusCache` of the runtime: the statuses of the transactions processed in each slot, by the
blockhash they were signed against and by a 20-byte slice of their key (a signature or a message
hash), taken at an offset drawn once for each blockhash. Next to the cache, `slot_deltas` records
what each slot inserted, so that a slot's entries can be cleared; roots are kept up to
`MAX_CACHE_ENTRIES` of them, and adding one more purges the oldest with everything no later than it.
The maps are `Std.HashMap`s; where the source iterates a map, the model iterates its `toList`. -/

namespace Runtime

namespace StatusCache

/-- `MAX_RECENT_BLOCKHASHES`: 120 s at 160 ticks a second and 64 ticks a slot. -/
def maxCacheEntries : Nat := 120 * 160 / 64

def cachedKeySize : Nat := 20

abbrev Slot := Nat
abbrev Hash := Nat
abbrev KeySlice := List UInt8

/-- A key long enough to slice; on a shorter key the slicing of `insert` and `get_status` panics. -/
structure Key where
  bytes : List UInt8
  long : cachedKeySize ≤ bytes.length

abbrev ForkStatus (T : Type) := List (Slot × T)
abbrev KeyMap (T : Type) := Std.HashMap KeySlice (ForkStatus T)
abbrev Status (T : Type) := Std.HashMap Hash (Nat × List (KeySlice × T))
abbrev KeyStatusMap (T : Type) := Std.HashMap Hash (Slot × Nat × KeyMap T)
abbrev SlotDeltaMap (T : Type) := Std.HashMap Slot (Status T)

def maxKeyIndex (key : Key) : Nat := key.bytes.length - (cachedKeySize + 1)

def keySlice (key : Key) (keyIndex : Nat) : KeySlice := (key.bytes.drop keyIndex).take cachedKeySize

/-- A signature: 64 bytes. -/
def signatureKey : Key := ⟨List.replicate 64 0, by decide⟩

end StatusCache

open StatusCache

structure StatusCache (T : Type) where
  cache : KeyStatusMap T
  roots : Std.HashSet Slot
  slotDeltas : SlotDeltaMap T

namespace StatusCache

variable {T : Type}

/-- `0` is always a root. -/
def default : StatusCache T := ⟨∅, (∅ : Std.HashSet Slot).insert 0, ∅⟩

/-- One key slice of `clear_slot_entries`: the forks of the slot are dropped, and the slice with
them when none is left. -/
def clearKeySlice (slot : Slot) (allHashMaps : KeyMap T) (keySlice : KeySlice) : Option (KeyMap T) :=
  match allHashMaps[keySlice]? with
  | some keyList =>
    let keyList := keyList.filter fun fork => fork.1 != slot
    some (if keyList.isEmpty then allHashMaps.erase keySlice else allHashMaps.insert keySlice keyList)
  -- `panic!("Map for key must exist if key exists in self.slot_deltas")`
  | none => none

/-- One blockhash of `clear_slot_entries`, with the key slices the slot recorded for it. -/
def clearBlockhash (slot : Slot) (cache : KeyStatusMap T) (blockhash : Hash) (keyList : List (KeySlice × T)) :
    Option (KeyStatusMap T) :=
  match cache[blockhash]? with
  | some (maxSlot, keyIndex, allHashMaps) => do
    let allHashMaps ← keyList.foldlM (fun allHashMaps entry => clearKeySlice slot allHashMaps entry.1) allHashMaps
    pure (if allHashMaps.isEmpty then cache.erase blockhash else cache.insert blockhash (maxSlot, keyIndex, allHashMaps))
  -- `panic!("Blockhash must exist if it exists in self.slot_deltas")`
  | none => none

/-- `none` where the source panics. -/
def clearSlotEntries (sc : StatusCache T) (slot : Slot) : Option (StatusCache T) :=
  let removed := { sc with slotDeltas := sc.slotDeltas.erase slot }
  match sc.slotDeltas[slot]? with
  | some slotDeltas => do
    let cache ← slotDeltas.toList.foldlM (fun cache entry => clearBlockhash slot cache entry.1 entry.2.2) sc.cache
    pure { removed with cache }
  | none => some removed

def getStatus (sc : StatusCache T) (key : Key) (transactionBlockhash : Hash) (ancestors : Slot → Bool) :
    Option (Slot × T) := do
  let map ← sc.cache[transactionBlockhash]?
  let index := min map.2.1 (maxKeyIndex key)
  let storedForks ← map.2.2[keySlice key index]?
  storedForks.find? fun fork => ancestors fork.1 || sc.roots.contains fork.1

def getStatusAnyBlockhash (sc : StatusCache T) (key : Key) (ancestors : Slot → Bool) : Option (Slot × T) :=
  sc.cache.keys.findSome? fun blockhash => sc.getStatus key blockhash ancestors

def purgeRoots (sc : StatusCache T) : StatusCache T :=
  if sc.roots.size > maxCacheEntries then
    match sc.roots.toList.min? with
    | some min =>
      { roots := sc.roots.erase min
        cache := sc.cache.filter fun _ entry => entry.1 > min
        slotDeltas := sc.slotDeltas.filter fun slot _ => slot > min }
    | none => sc
  else sc

def addRoot (sc : StatusCache T) (fork : Slot) : StatusCache T :=
  { sc with roots := sc.roots.insert fork }.purgeRoots

def addToSlotDelta (sc : StatusCache T) (transactionBlockhash : Hash) (slot : Slot) (keyIndex : Nat)
    (keySlice : KeySlice) (res : T) : StatusCache T :=
  let forkEntry := sc.slotDeltas.getD slot ∅
  let hashEntry := forkEntry.getD transactionBlockhash (keyIndex, [])
  { sc with
    slotDeltas := sc.slotDeltas.insert slot
      (forkEntry.insert transactionBlockhash (hashEntry.1, hashEntry.2 ++ [(keySlice, res)])) }

/-- `randomKeyIndex` is what `thread_rng().gen_range(0..max_key_index + 1)` draws; it is read only
when the blockhash is new to the cache. -/
def insert (sc : StatusCache T) (transactionBlockhash : Hash) (key : Key) (slot : Slot) (res : T)
    (randomKeyIndex : Nat) : StatusCache T :=
  let maxKeyIndex := maxKeyIndex key
  let entry := sc.cache.getD transactionBlockhash (slot, randomKeyIndex, ∅)
  let keyIndex := min entry.2.1 maxKeyIndex
  let slice := keySlice key keyIndex
  let forks := entry.2.2.getD slice [] ++ [(slot, res)]
  let inserted := { sc with
    cache := sc.cache.insert transactionBlockhash (max slot entry.1, entry.2.1, entry.2.2.insert slice forks) }
  inserted.addToSlotDelta transactionBlockhash slot keyIndex slice res

/-! ### What the maps hold -/

/-- The statuses a cache holds for a blockhash and a key slice: none where either is absent. -/
def forks (cache : KeyStatusMap T) (blockhash : Hash) (keySlice : KeySlice) : ForkStatus T :=
  match cache[blockhash]? with
  | some entry => entry.2.2.getD keySlice []
  | none => []

/-- What a slot recorded for a blockhash. -/
def deltaEntries (slotDeltas : SlotDeltaMap T) (slot : Slot) (blockhash : Hash) : List (KeySlice × T) :=
  ((slotDeltas.getD slot ∅).getD blockhash (0, [])).2

theorem forks_eq_getD (cache : KeyStatusMap T) (blockhash : Hash) (keySlice : KeySlice) (slot : Slot)
    (keyIndex : Nat) : forks cache blockhash keySlice = (cache.getD blockhash (slot, keyIndex, ∅)).2.2.getD keySlice [] := by
  have outer : cache.getD blockhash (slot, keyIndex, ∅) = cache[blockhash]?.getD (slot, keyIndex, ∅) :=
    Std.HashMap.getD_eq_getD_getElem?
  rw [outer, forks]
  cases cache[blockhash]? with
  | none => exact Std.HashMap.getD_empty.symm
  | some entry => rfl

theorem getD_snd_eq {ν : Type} (status : Std.HashMap Hash (Nat × List ν)) (blockhash : Hash) (keyIndex keyIndex' : Nat)
    (entries : List ν) : (status.getD blockhash (keyIndex, entries)).2 = (status.getD blockhash (keyIndex', entries)).2 := by
  rw [Std.HashMap.getD_eq_getD_getElem?, Std.HashMap.getD_eq_getD_getElem?]
  cases status[blockhash]? <;> rfl

theorem cache_of_forks_ne_nil {cache : KeyStatusMap T} {blockhash : Hash} {keySlice : KeySlice}
    (held : forks cache blockhash keySlice ≠ []) : ∃ entry, cache[blockhash]? = some entry := by
  unfold forks at held
  split at held
  · exact ⟨_, by assumption⟩
  · exact absurd rfl held

section Insert

variable (sc : StatusCache T) (transactionBlockhash : Hash) (key : Key) (slot : Slot) (res : T) (randomKeyIndex : Nat)

theorem insert_cache :
    (sc.insert transactionBlockhash key slot res randomKeyIndex).cache =
      let entry := sc.cache.getD transactionBlockhash (slot, randomKeyIndex, ∅)
      let slice := keySlice key (min entry.2.1 (maxKeyIndex key))
      sc.cache.insert transactionBlockhash
        (max slot entry.1, entry.2.1, entry.2.2.insert slice (entry.2.2.getD slice [] ++ [(slot, res)])) := rfl

@[simp] theorem insert_roots : (sc.insert transactionBlockhash key slot res randomKeyIndex).roots = sc.roots := rfl

theorem forks_insert (blockhash : Hash) (slice : KeySlice) :
    forks (sc.insert transactionBlockhash key slot res randomKeyIndex).cache blockhash slice =
      if transactionBlockhash = blockhash ∧
          keySlice key (min (sc.cache.getD transactionBlockhash (slot, randomKeyIndex, ∅)).2.1 (maxKeyIndex key)) = slice
      then forks sc.cache transactionBlockhash slice ++ [(slot, res)]
      else forks sc.cache blockhash slice := by
  rw [insert_cache]
  dsimp only
  by_cases same : transactionBlockhash = blockhash
  · subst same
    rw [forks, Std.HashMap.getElem?_insert_self]
    dsimp only
    rw [Std.HashMap.getD_insert, forks_eq_getD sc.cache transactionBlockhash slice slot randomKeyIndex]
    by_cases sameSlice : keySlice key (min (sc.cache.getD transactionBlockhash (slot, randomKeyIndex, ∅)).2.1
      (maxKeyIndex key)) = slice
    · rw [if_pos (beq_iff_eq.mpr sameSlice), if_pos ⟨rfl, sameSlice⟩, sameSlice]
    · rw [if_neg (by simpa using sameSlice), if_neg (fun both => sameSlice both.2)]
  · rw [if_neg (fun both => same both.1), forks, Std.HashMap.getElem?_insert, if_neg (by simpa using same)]
    rfl

theorem deltaEntries_insert (slot' : Slot) (blockhash : Hash) :
    deltaEntries (sc.insert transactionBlockhash key slot res randomKeyIndex).slotDeltas slot' blockhash =
      if slot = slot' ∧ transactionBlockhash = blockhash then
        deltaEntries sc.slotDeltas slot transactionBlockhash ++
          [(keySlice key (min (sc.cache.getD transactionBlockhash (slot, randomKeyIndex, ∅)).2.1 (maxKeyIndex key)), res)]
      else deltaEntries sc.slotDeltas slot' blockhash := by
  simp only [insert, addToSlotDelta, deltaEntries]
  rw [Std.HashMap.getD_insert]
  by_cases sameSlot : slot = slot'
  · subst sameSlot
    rw [if_pos (beq_self_eq_true slot), Std.HashMap.getD_insert]
    by_cases same : transactionBlockhash = blockhash
    · subst same
      rw [if_pos (beq_self_eq_true _), if_pos ⟨rfl, rfl⟩]
      exact congrArg (· ++ _) (getD_snd_eq _ _ _ _ _)
    · rw [if_neg (by simpa using same), if_neg (fun both => same both.2)]
  · rw [if_neg (by simpa using sameSlot), if_neg (fun both => sameSlot both.1)]

theorem mem_slotDeltas_insert (slot' : Slot) (blockhash : Hash) :
    blockhash ∈ (sc.insert transactionBlockhash key slot res randomKeyIndex).slotDeltas.getD slot' ∅ ↔
      (slot = slot' ∧ transactionBlockhash = blockhash) ∨ blockhash ∈ sc.slotDeltas.getD slot' ∅ := by
  simp only [insert, addToSlotDelta]
  rw [Std.HashMap.getD_insert]
  by_cases sameSlot : slot = slot'
  · subst sameSlot
    rw [if_pos (beq_self_eq_true slot), Std.HashMap.mem_insert, beq_iff_eq]
    exact ⟨fun found => found.elim (fun same => .inl ⟨rfl, same⟩) .inr,
      fun found => found.elim (fun both => .inl both.2) .inr⟩
  · rw [if_neg (by simpa using sameSlot)]
    exact ⟨.inr, fun found => found.elim (fun both => absurd both.1 sameSlot) id⟩

theorem insert_cached (blockhash : Hash) {entry : Slot × Nat × KeyMap T} (cached : sc.cache[blockhash]? = some entry) :
    ∃ entry', (sc.insert transactionBlockhash key slot res randomKeyIndex).cache[blockhash]? = some entry' ∧
      entry.1 ≤ entry'.1 ∧ entry'.2.1 = entry.2.1 := by
  rw [insert_cache]
  dsimp only
  rw [Std.HashMap.getElem?_insert]
  by_cases same : transactionBlockhash = blockhash
  · subst same
    rw [if_pos (beq_self_eq_true _), Std.HashMap.getD_eq_getD_getElem?, cached, Option.getD_some]
    exact ⟨_, rfl, le_max_right _ _, rfl⟩
  · rw [if_neg (by simpa using same), cached]
    exact ⟨entry, rfl, le_rfl, rfl⟩

theorem insert_cached_self :
    ∃ entry', (sc.insert transactionBlockhash key slot res randomKeyIndex).cache[transactionBlockhash]? = some entry' ∧
      slot ≤ entry'.1 := by
  rw [insert_cache]
  dsimp only
  rw [Std.HashMap.getElem?_insert_self]
  exact ⟨_, rfl, le_max_left _ _⟩

/-- A key just inserted is found under its blockhash from every fork that sees the slot. -/
theorem getStatus_insert_isSome {ancestors : Slot → Bool} (seen : ancestors slot = true ∨ slot ∈ sc.roots) :
    ((sc.insert transactionBlockhash key slot res randomKeyIndex).getStatus key transactionBlockhash ancestors).isSome := by
  have inserted := insert_cache sc transactionBlockhash key slot res randomKeyIndex
  dsimp only at inserted
  simp only [getStatus, inserted, Std.HashMap.getElem?_insert_self, Option.bind_eq_bind, Option.bind_some,
    insert_roots]
  rw [List.find?_isSome]
  refine ⟨(slot, res), List.mem_append_right _ (List.mem_singleton_self _), ?_⟩
  rcases seen with ancestor | root
  · rw [ancestor, Bool.true_or]
  · rw [Std.HashSet.mem_iff_contains.mp root, Bool.or_true]

theorem getStatus_insert_isSome_ancestor :
    (((default : StatusCache Unit).insert 7 signatureKey 1 () 0).getStatus signatureKey 7 (· == 1)).isSome :=
  getStatus_insert_isSome default 7 signatureKey 1 () 0 (.inl rfl)

theorem getStatus_eq_find (key : Key) (blockhash : Hash) (ancestors : Slot → Bool) :
    sc.getStatus key blockhash ancestors = sc.cache[blockhash]?.bind fun entry =>
      (forks sc.cache blockhash (keySlice key (min entry.2.1 (maxKeyIndex key)))).find?
        fun fork => ancestors fork.1 || sc.roots.contains fork.1 := by
  unfold getStatus forks
  cases cached : sc.cache[blockhash]? with
  | none => rfl
  | some entry =>
    dsimp only [Option.bind_eq_bind, Option.bind_some]
    rw [Std.HashMap.getD_eq_getD_getElem?]
    cases entry.2.2[keySlice key (min entry.2.1 (maxKeyIndex key))]? <;> rfl

/-- `insert` never changes what `get_status` finds: a status it finds stays first in its list. -/
theorem getStatus_insert_of_eq_some {key' : Key} {blockhash : Hash} {ancestors : Slot → Bool} {status : Slot × T}
    (found : sc.getStatus key' blockhash ancestors = some status) :
    (sc.insert transactionBlockhash key slot res randomKeyIndex).getStatus key' blockhash ancestors = some status := by
  rw [getStatus_eq_find] at found ⊢
  obtain ⟨entry, cached, lookup⟩ := Option.bind_eq_some_iff.mp found
  obtain ⟨entry', cached', -, sameIndex⟩ := insert_cached sc transactionBlockhash key slot res randomKeyIndex blockhash cached
  rw [cached', Option.bind_some, sameIndex, insert_roots, forks_insert]
  split
  · rename_i same
    rw [List.find?_append, same.1, lookup, Option.some_or]
  · exact lookup

theorem getStatus_insert_of_eq_some_later_slot :
    (((default : StatusCache Unit).insert 7 signatureKey 1 () 0).insert 7 signatureKey 2 () 0).getStatus signatureKey 7
      (· == 1) = some (1, ()) :=
  getStatus_insert_of_eq_some _ 7 signatureKey 2 () 0 (by simp [getStatus_eq_find, insert_cache, forks, default])

end Insert

section Clear

variable {slot : Slot}

theorem clearKeySlice_getD {allHashMaps allHashMaps' : KeyMap T} {slice : KeySlice}
    (cleared : clearKeySlice slot allHashMaps slice = some allHashMaps') (slice' : KeySlice) :
    allHashMaps'.getD slice' [] =
      if slice = slice' then (allHashMaps.getD slice' []).filter (fun fork => fork.1 != slot)
      else allHashMaps.getD slice' [] := by
  unfold clearKeySlice at cleared
  split at cleared
  · rename_i keyList found
    rw [Option.some.injEq] at cleared
    subst cleared
    by_cases same : slice = slice'
    · subst same
      have stored : allHashMaps.getD slice [] = keyList := by
        rw [Std.HashMap.getD_eq_getD_getElem?, found, Option.getD_some]
      rw [if_pos rfl, stored]
      split
      · rename_i emptied
        rw [Std.HashMap.getD_erase_self, (List.isEmpty_iff.mp emptied)]
      · rw [Std.HashMap.getD_insert_self]
    · have other : (slice == slice') = false := by simpa using same
      rw [if_neg same]
      split
      · rw [Std.HashMap.getD_erase, if_neg (by simp [other])]
      · rw [Std.HashMap.getD_insert, if_neg (by simp [other])]
  · cases cleared

theorem mem_of_clearKeySlice {allHashMaps allHashMaps' : KeyMap T} {slice slice' : KeySlice}
    (cleared : clearKeySlice slot allHashMaps slice = some allHashMaps') (other : slice ≠ slice')
    (present : slice' ∈ allHashMaps) : slice' ∈ allHashMaps' := by
  unfold clearKeySlice at cleared
  split at cleared
  · rw [Option.some.injEq] at cleared
    subst cleared
    have different : (slice == slice') = false := by simpa using other
    split
    · exact Std.HashMap.mem_erase.mpr ⟨different, present⟩
    · exact Std.HashMap.mem_insert.mpr (.inr present)
  · cases cleared

theorem clearKeySlice_getElem?_of_ne {allHashMaps allHashMaps' : KeyMap T} {slice slice' : KeySlice}
    (cleared : clearKeySlice slot allHashMaps slice = some allHashMaps') (other : slice ≠ slice') :
    allHashMaps'[slice']? = allHashMaps[slice']? := by
  unfold clearKeySlice at cleared
  split at cleared
  · rw [Option.some.injEq] at cleared
    subst cleared
    have different : (slice == slice') = false := by simpa using other
    split
    · rw [Std.HashMap.getElem?_erase, if_neg (by simp [different])]
    · rw [Std.HashMap.getElem?_insert, if_neg (by simp [different])]
  · cases cleared

theorem clearKeySlice_of_mem (slot : Slot) {allHashMaps : KeyMap T} {slice : KeySlice} (present : slice ∈ allHashMaps) :
    ∃ allHashMaps', clearKeySlice slot allHashMaps slice = some allHashMaps' := by
  obtain ⟨keyList, found⟩ := Option.isSome_iff_exists.mp (Std.HashMap.mem_iff_isSome_getElem?.mp present)
  unfold clearKeySlice
  rw [found]
  exact ⟨_, rfl⟩

theorem foldlM_clearKeySlice_getD :
    ∀ (keyList : List (KeySlice × T)) (allHashMaps allHashMaps' : KeyMap T),
      keyList.foldlM (fun allHashMaps entry => clearKeySlice slot allHashMaps entry.1) allHashMaps = some allHashMaps' →
      ∀ slice, allHashMaps'.getD slice [] =
        if slice ∈ keyList.map Prod.fst then (allHashMaps.getD slice []).filter (fun fork => fork.1 != slot)
        else allHashMaps.getD slice []
  | [], _, _, cleared, slice => by
    rw [List.foldlM_nil, Option.pure_def, Option.some.injEq] at cleared
    rw [cleared, List.map_nil, if_neg List.not_mem_nil]
  | entry :: keyList, allHashMaps, allHashMaps', cleared, slice => by
    rw [List.foldlM_cons, Option.bind_eq_bind, Option.bind_eq_some_iff] at cleared
    obtain ⟨between, first, rest⟩ := cleared
    rw [foldlM_clearKeySlice_getD keyList between allHashMaps' rest slice, clearKeySlice_getD first slice]
    rw [List.map_cons]
    by_cases later : slice ∈ keyList.map Prod.fst
    · rw [if_pos later, if_pos (List.mem_cons_of_mem _ later)]
      split
      · rw [List.filter_filter]
        simp only [Bool.and_self]
      · rfl
    · rw [if_neg later]
      by_cases same : entry.1 = slice
      · rw [if_pos same, if_pos (same ▸ List.mem_cons_self)]
      · rw [if_neg same, if_neg]
        intro listed
        rcases List.mem_cons.mp listed with first | rest
        · exact same first.symm
        · exact later rest

theorem foldlM_clearKeySlice_of_mem (slot : Slot) :
    ∀ (keyList : List (KeySlice × T)) (allHashMaps : KeyMap T), (keyList.map Prod.fst).Nodup →
      (∀ entry ∈ keyList, entry.1 ∈ allHashMaps) →
      ∃ allHashMaps', keyList.foldlM (fun allHashMaps entry => clearKeySlice slot allHashMaps entry.1) allHashMaps =
        some allHashMaps'
  | [], allHashMaps, _, _ => ⟨allHashMaps, rfl⟩
  | entry :: keyList, allHashMaps, distinct, present => by
    rw [List.map_cons, List.nodup_cons] at distinct
    obtain ⟨between, first⟩ := clearKeySlice_of_mem slot (present entry List.mem_cons_self)
    have kept : ∀ entry' ∈ keyList, entry'.1 ∈ between := fun entry' listed =>
      mem_of_clearKeySlice first (fun same => distinct.1 (same ▸ List.mem_map_of_mem listed))
        (present entry' (List.mem_cons_of_mem _ listed))
    obtain ⟨allHashMaps', rest⟩ := foldlM_clearKeySlice_of_mem slot keyList between distinct.2 kept
    refine ⟨allHashMaps', ?_⟩
    rw [List.foldlM_cons, first]
    exact rest

theorem clearBlockhash_forks {cache cache' : KeyStatusMap T} {blockhash : Hash} {keyList : List (KeySlice × T)}
    (cleared : clearBlockhash slot cache blockhash keyList = some cache') (blockhash' : Hash) (slice : KeySlice) :
    forks cache' blockhash' slice =
      if blockhash = blockhash' ∧ slice ∈ keyList.map Prod.fst then
        (forks cache blockhash' slice).filter (fun fork => fork.1 != slot)
      else forks cache blockhash' slice := by
  unfold clearBlockhash at cleared
  split at cleared
  · rename_i maxSlot keyIndex allHashMaps found
    rw [Option.bind_eq_bind, Option.bind_eq_some_iff] at cleared
    obtain ⟨allHashMaps', inner, stored⟩ := cleared
    rw [Option.pure_def, Option.some.injEq] at stored
    subst stored
    by_cases same : blockhash = blockhash'
    · subst same
      have before : forks cache blockhash slice = allHashMaps.getD slice [] := by rw [forks, found]
      have after : forks (if allHashMaps'.isEmpty then cache.erase blockhash
          else cache.insert blockhash (maxSlot, keyIndex, allHashMaps')) blockhash slice = allHashMaps'.getD slice [] := by
        split
        · rename_i emptied
          rw [forks, Std.HashMap.getElem?_erase_self, Std.HashMap.getD_of_isEmpty emptied]
        · rw [forks, Std.HashMap.getElem?_insert_self]
      rw [after, before, foldlM_clearKeySlice_getD keyList allHashMaps allHashMaps' inner slice]
      by_cases listed : slice ∈ keyList.map Prod.fst
      · rw [if_pos listed, if_pos ⟨rfl, listed⟩]
      · rw [if_neg listed, if_neg (fun both => listed both.2)]
    · have other : (blockhash == blockhash') = false := by simpa using same
      rw [if_neg (show ¬(blockhash = blockhash' ∧ slice ∈ keyList.map Prod.fst) from fun both => same both.1)]
      split
      · rw [forks, forks, Std.HashMap.getElem?_erase, if_neg (by simp [other])]
      · rw [forks, forks, Std.HashMap.getElem?_insert, if_neg (by simp [other])]
  · cases cleared

theorem clearBlockhash_of_ne {cache cache' : KeyStatusMap T} {blockhash blockhash' : Hash}
    {keyList : List (KeySlice × T)} (cleared : clearBlockhash slot cache blockhash keyList = some cache')
    (other : blockhash ≠ blockhash') : cache'[blockhash']? = cache[blockhash']? := by
  unfold clearBlockhash at cleared
  split at cleared
  · rw [Option.bind_eq_bind, Option.bind_eq_some_iff] at cleared
    obtain ⟨allHashMaps', -, stored⟩ := cleared
    rw [Option.pure_def, Option.some.injEq] at stored
    subst stored
    have different : (blockhash == blockhash') = false := by simpa using other
    split
    · rw [Std.HashMap.getElem?_erase, if_neg (by simp [different])]
    · rw [Std.HashMap.getElem?_insert, if_neg (by simp [different])]
  · cases cleared

theorem clearBlockhash_maxSlot {cache cache' : KeyStatusMap T} {blockhash blockhash' : Hash}
    {keyList : List (KeySlice × T)} (cleared : clearBlockhash slot cache blockhash keyList = some cache')
    {entry' : Slot × Nat × KeyMap T} (kept : cache'[blockhash']? = some entry') :
    ∃ entry, cache[blockhash']? = some entry ∧ entry.1 = entry'.1 := by
  by_cases same : blockhash = blockhash'
  · subst same
    unfold clearBlockhash at cleared
    split at cleared
    · rename_i maxSlot keyIndex allHashMaps found
      rw [Option.bind_eq_bind, Option.bind_eq_some_iff] at cleared
      obtain ⟨allHashMaps', -, stored⟩ := cleared
      rw [Option.pure_def, Option.some.injEq] at stored
      subst stored
      split at kept
      · rw [Std.HashMap.getElem?_erase_self] at kept
        cases kept
      · rw [Std.HashMap.getElem?_insert_self, Option.some.injEq] at kept
        exact ⟨_, found, by rw [← kept]⟩
    · cases cleared
  · rw [clearBlockhash_of_ne cleared same] at kept
    exact ⟨entry', kept, rfl⟩

theorem clearBlockhash_of_forks (slot : Slot) {cache : KeyStatusMap T} {blockhash : Hash} {keyList : List (KeySlice × T)}
    (cached : ∃ entry, cache[blockhash]? = some entry) (distinct : (keyList.map Prod.fst).Nodup)
    (held : ∀ entry ∈ keyList, forks cache blockhash entry.1 ≠ []) :
    ∃ cache', clearBlockhash slot cache blockhash keyList = some cache' := by
  obtain ⟨⟨maxSlot, keyIndex, allHashMaps⟩, found⟩ := cached
  have present : ∀ entry ∈ keyList, entry.1 ∈ allHashMaps := by
    intro entry listed
    by_contra absent
    apply held entry listed
    rw [forks, found]
    exact Std.HashMap.getD_eq_fallback absent
  obtain ⟨allHashMaps', inner⟩ := foldlM_clearKeySlice_of_mem slot keyList allHashMaps distinct present
  unfold clearBlockhash
  rw [found]
  dsimp only
  rw [inner]
  exact ⟨_, rfl⟩

theorem foldlM_clearBlockhash_forks :
    ∀ (entries : List (Hash × Nat × List (KeySlice × T))) (cache cache' : KeyStatusMap T),
      entries.foldlM (fun cache entry => clearBlockhash slot cache entry.1 entry.2.2) cache = some cache' →
      ∀ blockhash slice, forks cache' blockhash slice =
        if ∃ entry ∈ entries, entry.1 = blockhash ∧ slice ∈ entry.2.2.map Prod.fst then
          (forks cache blockhash slice).filter (fun fork => fork.1 != slot)
        else forks cache blockhash slice
  | [], _, _, cleared, blockhash, slice => by
    rw [List.foldlM_nil, Option.pure_def, Option.some.injEq] at cleared
    rw [cleared, if_neg (fun ⟨_, listed, _⟩ => List.not_mem_nil listed)]
  | entry :: entries, cache, cache', cleared, blockhash, slice => by
    rw [List.foldlM_cons, Option.bind_eq_bind, Option.bind_eq_some_iff] at cleared
    obtain ⟨between, first, rest⟩ := cleared
    rw [foldlM_clearBlockhash_forks entries between cache' rest blockhash slice, clearBlockhash_forks first]
    by_cases later : ∃ entry ∈ entries, entry.1 = blockhash ∧ slice ∈ entry.2.2.map Prod.fst
    · have listed : ∃ entry' ∈ entry :: entries, entry'.1 = blockhash ∧ slice ∈ entry'.2.2.map Prod.fst := by
        obtain ⟨entry', listed, matching⟩ := later
        exact ⟨entry', List.mem_cons_of_mem _ listed, matching⟩
      rw [if_pos later, if_pos listed]
      split
      · rw [List.filter_filter]
        simp only [Bool.and_self]
      · rfl
    · rw [if_neg later]
      by_cases this : entry.1 = blockhash ∧ slice ∈ entry.2.2.map Prod.fst
      · have listed : ∃ entry' ∈ entry :: entries, entry'.1 = blockhash ∧ slice ∈ entry'.2.2.map Prod.fst :=
          ⟨entry, List.mem_cons_self, this⟩
        rw [if_pos this, if_pos listed]
      · have unlisted : ¬∃ entry' ∈ entry :: entries, entry'.1 = blockhash ∧ slice ∈ entry'.2.2.map Prod.fst := by
          rintro ⟨entry', listed, matching⟩
          rcases List.mem_cons.mp listed with rfl | listed
          · exact this matching
          · exact later ⟨entry', listed, matching⟩
        rw [if_neg this, if_neg unlisted]

theorem foldlM_clearBlockhash_maxSlot :
    ∀ (entries : List (Hash × Nat × List (KeySlice × T))) (cache cache' : KeyStatusMap T),
      entries.foldlM (fun cache entry => clearBlockhash slot cache entry.1 entry.2.2) cache = some cache' →
      ∀ {blockhash : Hash} {entry' : Slot × Nat × KeyMap T}, cache'[blockhash]? = some entry' →
        ∃ entry, cache[blockhash]? = some entry ∧ entry.1 = entry'.1
  | [], _, _, cleared, _, entry', kept => by
    rw [List.foldlM_nil, Option.pure_def, Option.some.injEq] at cleared
    subst cleared
    exact ⟨entry', kept, rfl⟩
  | entry :: entries, cache, cache', cleared, blockhash, entry', kept => by
    rw [List.foldlM_cons, Option.bind_eq_bind, Option.bind_eq_some_iff] at cleared
    obtain ⟨between, first, rest⟩ := cleared
    obtain ⟨middle, found, sameSlot⟩ := foldlM_clearBlockhash_maxSlot entries between cache' rest kept
    obtain ⟨original, found', sameSlot'⟩ := clearBlockhash_maxSlot first found
    exact ⟨original, found', sameSlot'.trans sameSlot⟩

theorem foldlM_clearBlockhash_of_forks (slot : Slot) :
    ∀ (entries : List (Hash × Nat × List (KeySlice × T))) (cache : KeyStatusMap T), (entries.map Prod.fst).Nodup →
      (∀ entry ∈ entries, (∃ cached, cache[entry.1]? = some cached) ∧ (entry.2.2.map Prod.fst).Nodup ∧
        ∀ keyEntry ∈ entry.2.2, forks cache entry.1 keyEntry.1 ≠ []) →
      ∃ cache', entries.foldlM (fun cache entry => clearBlockhash slot cache entry.1 entry.2.2) cache = some cache'
  | [], cache, _, _ => ⟨cache, rfl⟩
  | entry :: entries, cache, distinct, recorded => by
    rw [List.map_cons, List.nodup_cons] at distinct
    obtain ⟨cached, unique, held⟩ := recorded entry List.mem_cons_self
    obtain ⟨between, first⟩ := clearBlockhash_of_forks slot cached unique held
    have untouched : ∀ entry' ∈ entries, entry.1 ≠ entry'.1 := fun entry' listed same =>
      distinct.1 (same ▸ List.mem_map_of_mem listed)
    have kept : ∀ entry' ∈ entries, (∃ cached, between[entry'.1]? = some cached) ∧ (entry'.2.2.map Prod.fst).Nodup ∧
        ∀ keyEntry ∈ entry'.2.2, forks between entry'.1 keyEntry.1 ≠ [] := by
      intro entry' listed
      obtain ⟨cached', unique', held'⟩ := recorded entry' (List.mem_cons_of_mem _ listed)
      refine ⟨by rw [clearBlockhash_of_ne first (untouched entry' listed)]; exact cached', unique', ?_⟩
      intro keyEntry keyListed
      rw [clearBlockhash_forks first, if_neg (fun both => untouched entry' listed both.1)]
      exact held' keyEntry keyListed
    obtain ⟨cache', rest⟩ := foldlM_clearBlockhash_of_forks slot entries between distinct.2 kept
    refine ⟨cache', ?_⟩
    rw [List.foldlM_cons, first]
    exact rest

theorem exists_mem_toList_iff (status : Status T) (blockhash : Hash) (slice : KeySlice) :
    (∃ entry ∈ status.toList, entry.1 = blockhash ∧ slice ∈ entry.2.2.map Prod.fst) ↔
      slice ∈ (status.getD blockhash (0, [])).2.map Prod.fst := by
  rw [Std.HashMap.getD_eq_getD_getElem?]
  constructor
  · rintro ⟨⟨_, entry⟩, listed, rfl, recorded⟩
    rw [Std.HashMap.mem_toList_iff_getElem?_eq_some.mp listed]
    exact recorded
  · intro recorded
    cases found : status[blockhash]? with
    | none =>
      rw [found] at recorded
      exact absurd recorded List.not_mem_nil
    | some entry =>
      rw [found] at recorded
      exact ⟨(blockhash, entry), Std.HashMap.mem_toList_iff_getElem?_eq_some.mpr found, rfl, recorded⟩

variable {sc sc' : StatusCache T}

theorem clearSlotEntries_forks (cleared : sc.clearSlotEntries slot = some sc') (blockhash : Hash) (slice : KeySlice) :
    forks sc'.cache blockhash slice =
      if slice ∈ (deltaEntries sc.slotDeltas slot blockhash).map Prod.fst then
        (forks sc.cache blockhash slice).filter (fun fork => fork.1 != slot)
      else forks sc.cache blockhash slice := by
  unfold clearSlotEntries at cleared
  split at cleared
  · rename_i status found
    rw [Option.bind_eq_bind, Option.bind_eq_some_iff] at cleared
    obtain ⟨cache, inner, stored⟩ := cleared
    rw [Option.pure_def, Option.some.injEq] at stored
    subst stored
    have stored : sc.slotDeltas.getD slot ∅ = status := by
      rw [Std.HashMap.getD_eq_getD_getElem?, found, Option.getD_some]
    have recorded : deltaEntries sc.slotDeltas slot blockhash = (status.getD blockhash (0, [])).2 := by
      rw [deltaEntries, stored]
    rw [foldlM_clearBlockhash_forks _ _ _ inner, recorded]
    by_cases listed : slice ∈ (status.getD blockhash (0, [])).2.map Prod.fst
    · rw [if_pos ((exists_mem_toList_iff status blockhash slice).mpr listed), if_pos listed]
    · rw [if_neg (fun found => listed ((exists_mem_toList_iff status blockhash slice).mp found)), if_neg listed]
  · rename_i absent
    rw [Option.some.injEq] at cleared
    subst cleared
    have stored : sc.slotDeltas.getD slot ∅ = ∅ := by
      rw [Std.HashMap.getD_eq_getD_getElem?, absent, Option.getD_none]
    have nothing : deltaEntries sc.slotDeltas slot blockhash = [] := by
      rw [deltaEntries, stored, Std.HashMap.getD_empty]
    rw [nothing, List.map_nil, if_neg List.not_mem_nil]

theorem clearSlotEntries_roots_slotDeltas (cleared : sc.clearSlotEntries slot = some sc') :
    sc'.roots = sc.roots ∧ sc'.slotDeltas = sc.slotDeltas.erase slot := by
  unfold clearSlotEntries at cleared
  split at cleared
  · rw [Option.bind_eq_bind, Option.bind_eq_some_iff] at cleared
    obtain ⟨cache, -, stored⟩ := cleared
    rw [Option.pure_def, Option.some.injEq] at stored
    subst stored
    exact ⟨rfl, rfl⟩
  · rw [Option.some.injEq] at cleared
    subst cleared
    exact ⟨rfl, rfl⟩

theorem clearSlotEntries_maxSlot (cleared : sc.clearSlotEntries slot = some sc') {blockhash : Hash}
    {entry' : Slot × Nat × KeyMap T} (kept : sc'.cache[blockhash]? = some entry') :
    ∃ entry, sc.cache[blockhash]? = some entry ∧ entry.1 = entry'.1 := by
  unfold clearSlotEntries at cleared
  split at cleared
  · rw [Option.bind_eq_bind, Option.bind_eq_some_iff] at cleared
    obtain ⟨cache, inner, stored⟩ := cleared
    rw [Option.pure_def, Option.some.injEq] at stored
    subst stored
    exact foldlM_clearBlockhash_maxSlot _ _ _ inner kept
  · rw [Option.some.injEq] at cleared
    subst cleared
    exact ⟨entry', kept, rfl⟩

end Clear

section Purge

variable (sc : StatusCache T)

theorem purgeRoots_cases :
    sc.purgeRoots = sc ∨ ∃ min ∈ sc.roots, maxCacheEntries < sc.roots.size ∧
      sc.purgeRoots = { roots := sc.roots.erase min
                        cache := sc.cache.filter fun _ entry => entry.1 > min
                        slotDeltas := sc.slotDeltas.filter fun slot _ => slot > min } := by
  unfold purgeRoots
  split
  · rename_i crowded
    split
    · rename_i min lowest
      exact .inr ⟨min, Std.HashSet.mem_toList.mp (List.min?_mem lowest), crowded, rfl⟩
    · exact .inl rfl
  · exact .inl rfl

theorem purgeRoots_roots_size :
    sc.purgeRoots.roots.size = if maxCacheEntries < sc.roots.size then sc.roots.size - 1 else sc.roots.size := by
  unfold purgeRoots
  split
  · rename_i crowded
    split
    · rename_i min lowest
      rw [Std.HashSet.size_erase, if_pos (Std.HashSet.mem_toList.mp (List.min?_mem lowest))]
    · rename_i none
      have empty := congrArg List.length (List.min?_eq_none_iff.mp none)
      rw [Std.HashSet.length_toList, List.length_nil] at empty
      omega
  · rfl

theorem forks_filter (min : Slot) (blockhash : Hash) (slice : KeySlice) :
    forks (sc.cache.filter fun _ entry => entry.1 > min) blockhash slice =
      match sc.cache[blockhash]? with
      | some entry => if entry.1 > min then forks sc.cache blockhash slice else []
      | none => [] := by
  rw [forks, Std.HashMap.getElem?_filter']
  cases found : sc.cache[blockhash]? with
  | none => rfl
  | some entry =>
    dsimp only
    rw [Option.filter_some]
    by_cases later : entry.1 > min
    · rw [if_pos (decide_eq_true later), if_pos later, forks, found]
    · rw [if_neg (by simpa using later), if_neg later]

theorem deltaEntries_filter (min : Slot) (slot : Slot) (blockhash : Hash) :
    deltaEntries (sc.slotDeltas.filter fun slot _ => slot > min) slot blockhash =
      if slot > min then deltaEntries sc.slotDeltas slot blockhash else [] := by
  have kept : (sc.slotDeltas.filter fun slot _ => slot > min).getD slot ∅ =
      ((sc.slotDeltas[slot]?).filter fun _ => slot > min).getD ∅ := by
    rw [Std.HashMap.getD_eq_getD_getElem?, Std.HashMap.getElem?_filter']
  have original : sc.slotDeltas.getD slot ∅ = sc.slotDeltas[slot]?.getD ∅ := Std.HashMap.getD_eq_getD_getElem?
  rw [deltaEntries, deltaEntries, kept, original]
  cases sc.slotDeltas[slot]? with
  | none =>
    rw [Option.filter_none, Option.getD_none, Std.HashMap.getD_empty]
    split <;> rfl
  | some status =>
    rw [Option.filter_some]
    by_cases later : slot > min
    · rw [if_pos (decide_eq_true later), if_pos later]
    · rw [if_neg (by simpa using later), if_neg later, Option.getD_none, Std.HashMap.getD_empty]

theorem mem_slotDeltas_filter (min slot : Slot) (blockhash : Hash) :
    blockhash ∈ (sc.slotDeltas.filter fun slot _ => slot > min).getD slot ∅ ↔
      slot > min ∧ blockhash ∈ sc.slotDeltas.getD slot ∅ := by
  rw [Std.HashMap.getD_eq_getD_getElem?, Std.HashMap.getElem?_filter', Std.HashMap.getD_eq_getD_getElem?]
  cases sc.slotDeltas[slot]? with
  | none =>
    rw [Option.filter_none, Option.getD_none]
    exact ⟨fun absent => absurd absent (Std.HashMap.not_mem_empty), fun both => absurd both.2 Std.HashMap.not_mem_empty⟩
  | some status =>
    rw [Option.filter_some, Option.getD_some]
    by_cases later : slot > min
    · rw [if_pos (decide_eq_true later), Option.getD_some]
      exact ⟨fun found => ⟨later, found⟩, And.right⟩
    · rw [if_neg (by simpa using later), Option.getD_none]
      exact ⟨fun absent => absurd absent Std.HashMap.not_mem_empty, fun both => absurd both.1 later⟩

end Purge

end StatusCache

end Runtime
