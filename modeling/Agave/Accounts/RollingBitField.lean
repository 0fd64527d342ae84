import Mathlib
import Agave.Library.MachineInt

/-! `RollingBitField` of `accounts-db`: a set of `u64` keys held as a window of bits, bit
`key % max_width` for each key `key` with `min ≤ key < max_exclusive`, and a side set `excess` of
keys below the window. An insert above the window moves its lowest keys into `excess` until the new
key fits; a remove of the lowest key moves `min` up to the next set bit (`purge`).

The bit vector is a function of the address, and `excess` (an `IntSet`) is a list without
duplicates whose order is the one the model's inserts give it: `get_all` lists `excess` first, in
an order the code leaves unspecified. Keys are `Nat`: the code's `key + 1` is exact below
`u64::MAX`. -/

namespace AccountsDb

open MachineInt

structure RollingBitField where
  maxWidth : Nat
  min : Nat
  maxExclusive : Nat
  bits : Nat → Bool
  count : Nat
  excess : List Nat

namespace RollingBitField

/-- `RollingBitField::new`, with its two assertions on `max_width`. -/
def new (maxWidth : Nat) : Option RollingBitField :=
  if 0 < maxWidth ∧ maxWidth.isPowerOfTwo then
    some ⟨maxWidth, 0, 0, fun _ => false, 0, []⟩
  else none

def getAddress (bf : RollingBitField) (key : Nat) : Nat := key % bf.maxWidth

def allItemsInExcess (bf : RollingBitField) : Bool := bf.excess.length == bf.count

def containsAssumeInRange (bf : RollingBitField) (key : Nat) : Bool := bf.bits (bf.getAddress key)

def contains (bf : RollingBitField) (key : Nat) : Bool :=
  if key < bf.maxExclusive then
    if bf.min ≤ key then bf.containsAssumeInRange key else key ∈ bf.excess
  else false

def len (bf : RollingBitField) : Nat := bf.count

def isEmpty (bf : RollingBitField) : Bool := bf.len == 0

/-- `min()`: `min`, unless `excess` holds keys, whose least is then below it. -/
def min? (bf : RollingBitField) : Option Nat :=
  if bf.isEmpty then none
  else if bf.excess.isEmpty then some bf.min
  else
    let excessMin := bf.excess.min?
    if bf.allItemsInExcess then excessMin
    else some (Nat.min bf.min (excessMin.getD (maxValue 64)))

/-- The keys the loop of `get_all` collects from the window, in increasing order. -/
def windowKeys (bf : RollingBitField) : List Nat :=
  (List.range' bf.min (bf.maxExclusive - bf.min)).filter bf.containsAssumeInRange

def getAll (bf : RollingBitField) : List Nat := bf.excess ++ bf.windowKeys

/-- `get_all_less_than`: the window loop stops at the first key not below the bound. -/
def getAllLessThan (bf : RollingBitField) (maxSlotExclusive : Nat) : List Nat :=
  bf.excess.filter (· < maxSlotExclusive) ++
    ((List.range' bf.min (bf.maxExclusive - bf.min)).takeWhile (· < maxSlotExclusive)).filter
      bf.containsAssumeInRange

/-- `purge`: after `key` left the bit field, move `min` to the next set bit if `key` was `min`; with
no key left in the bits, close the window at `max_exclusive`. -/
def purge (bf : RollingBitField) (key : Nat) : RollingBitField :=
  if 0 < bf.count ∧ bf.allItemsInExcess = false then
    if key = bf.min then
      match (List.range' (bf.min + 1) (bf.maxExclusive - (bf.min + 1))).find? bf.containsAssumeInRange with
      | some next => { bf with min := next }
      | none => bf
    else bf
  else { bf with min := bf.maxExclusive }

theorem purge_eq (bf : RollingBitField) (key : Nat) : bf.purge key = { bf with min := (bf.purge key).min } := by
  unfold purge
  split
  · split
    · split <;> rfl
    · rfl
  · rfl

@[simp] theorem purge_maxWidth (bf : RollingBitField) (key : Nat) :
    (bf.purge key).maxWidth = bf.maxWidth := by
  rw [purge_eq]

@[simp] theorem purge_maxExclusive (bf : RollingBitField) (key : Nat) :
    (bf.purge key).maxExclusive = bf.maxExclusive := by
  rw [purge_eq]

@[simp] theorem purge_bits (bf : RollingBitField) (key : Nat) : (bf.purge key).bits = bf.bits := by
  rw [purge_eq]

@[simp] theorem purge_count (bf : RollingBitField) (key : Nat) : (bf.purge key).count = bf.count := by
  rw [purge_eq]

@[simp] theorem purge_excess (bf : RollingBitField) (key : Nat) :
    (bf.purge key).excess = bf.excess := by
  rw [purge_eq]

theorem purge_min_le (bf : RollingBitField) (key : Nat) :
    (bf.purge key).min ≤ max bf.min bf.maxExclusive := by
  unfold purge
  split
  · split
    · split
      · next next found =>
        have inside := List.mem_range'_1.1 (List.mem_of_find?_eq_some found)
        show next ≤ _
        omega
      · exact le_max_left _ _
    · exact le_max_left _ _
  · exact le_max_right _ _

/-- The keys the eviction loop can still move into `excess`: every `min` it reaches lies below
`max(min, max_exclusive)`, and each round adds a new one. -/
def unevicted (bf : RollingBitField) : Finset Nat :=
  Finset.range (max bf.min bf.maxExclusive + 1) \ bf.excess.toFinset

theorem unevicted_purge_lt (bf : RollingBitField) (fresh : bf.min ∉ bf.excess) (bits : Nat → Bool) :
    (({ bf with excess := bf.min :: bf.excess, bits } : RollingBitField).purge bf.min).unevicted.card <
      bf.unevicted.card := by
  apply Finset.card_lt_card
  rw [Finset.ssubset_iff_of_subset]
  · refine ⟨bf.min, ?_, ?_⟩
    · simp [unevicted, fresh]
    · simp [unevicted]
  · intro x mem
    have bound := purge_min_le ({ bf with excess := bf.min :: bf.excess, bits } : RollingBitField) bf.min
    simp only [unevicted, purge_excess, purge_maxExclusive, Finset.mem_sdiff, Finset.mem_range,
      List.mem_toFinset, List.mem_cons, not_or] at mem bound ⊢
    exact ⟨by omega, mem.2.2⟩

/-- The eviction loop of `insert`: while the window up to `new_max` is wider than `max_width`, move
`min` into `excess` (asserting it was not there), clear its bit and purge it. The flag is
`bits_empty`, set when the last key of the bits has moved. -/
def evictOld (bf : RollingBitField) (newMax : Nat) : Option (RollingBitField × Bool) :=
  if newMax - bf.min ≤ bf.maxWidth then some (bf, false)
  else if _fresh : bf.min ∈ bf.excess then none
  else
    let moved := ({ bf with
      excess := bf.min :: bf.excess
      bits := Function.update bf.bits (bf.getAddress bf.min) false } : RollingBitField).purge bf.min
    if moved.allItemsInExcess then some (moved, true) else moved.evictOld newMax
termination_by bf.unevicted.card
decreasing_by exact unevicted_purge_lt bf _fresh _

section Evict

variable {bf : RollingBitField} {newMax : Nat}

theorem evictOld_of_fits (fits : newMax - bf.min ≤ bf.maxWidth) : bf.evictOld newMax = some (bf, false) := by
  rw [evictOld, if_pos fits]

theorem evictOld_of_mem (wide : ¬newMax - bf.min ≤ bf.maxWidth) (mem : bf.min ∈ bf.excess) :
    bf.evictOld newMax = none := by
  rw [evictOld, if_neg wide, dif_pos mem]

theorem evictOld_of_fresh (wide : ¬newMax - bf.min ≤ bf.maxWidth) (fresh : bf.min ∉ bf.excess) :
    bf.evictOld newMax =
      let moved := ({ bf with
        excess := bf.min :: bf.excess
        bits := Function.update bf.bits (bf.getAddress bf.min) false } : RollingBitField).purge bf.min
      if moved.allItemsInExcess then some (moved, true) else moved.evictOld newMax := by
  rw [evictOld, if_neg wide, dif_neg fresh]

end Evict

/-- The last step of `insert`: set the key's bit if it is clear, restarting the window at the key
when the bits were empty and widening it otherwise, under the assertion that it still fits. -/
def updateBits (bf : RollingBitField) (key : Nat) (bitsEmpty : Bool) : Option RollingBitField :=
  let address := bf.getAddress key
  if bf.bits address then some bf
  else
    let bits := Function.update bf.bits address true
    if bitsEmpty then
      some { bf with bits, min := key, maxExclusive := key + 1, count := bf.count + 1 }
    else
      let min := Nat.min bf.min key
      let maxExclusive := Nat.max bf.maxExclusive (key + 1)
      if maxExclusive ≤ min + bf.maxWidth then
        some { bf with bits, min, maxExclusive, count := bf.count + 1 }
      else none

/-- `insert`; `none` is a failed assertion. -/
def insert (bf : RollingBitField) (key : Nat) : Option RollingBitField :=
  let bitsEmpty := bf.count == 0 || bf.allItemsInExcess
  if bitsEmpty then bf.updateBits key true
  else if key < bf.min then
    some (if key ∈ bf.excess then bf else { bf with excess := key :: bf.excess, count := bf.count + 1 })
  else if key < bf.maxExclusive then bf.updateBits key false
  else do
    let (bf, bitsEmpty) ← bf.evictOld (key + 1)
    bf.updateBits key bitsEmpty

/-- `remove`, with whether the key was found. -/
def remove (bf : RollingBitField) (key : Nat) : RollingBitField × Bool :=
  if bf.min ≤ key then
    if key < bf.maxExclusive then
      let address := bf.getAddress key
      let get := bf.bits address
      if get then
        (({ bf with count := bf.count - 1, bits := Function.update bf.bits address false }
          : RollingBitField).purge key, get)
      else (bf, get)
    else (bf, false)
  else if key ∈ bf.excess then ({ bf with excess := bf.excess.erase key, count := bf.count - 1 }, true)
  else (bf, false)

/-! ### The keys of the window -/

section Window

variable {bf : RollingBitField} {key k : Nat}

theorem mem_windowKeys :
    k ∈ bf.windowKeys ↔ bf.min ≤ k ∧ k < bf.maxExclusive ∧ bf.bits (k % bf.maxWidth) = true := by
  simp only [windowKeys, List.mem_filter, List.mem_range'_1, containsAssumeInRange, getAddress]
  constructor
  · rintro ⟨⟨low, high⟩, set⟩
    exact ⟨low, by omega, set⟩
  · rintro ⟨low, high, set⟩
    exact ⟨⟨low, by omega⟩, set⟩

theorem windowKeys_nodup (bf : RollingBitField) : bf.windowKeys.Nodup :=
  List.Nodup.filter _ List.nodup_range'

/-- The shape of the window: at most `max_width` keys wide, and every set bit is the bit of a key
inside it, so that the bits and the keys of the window correspond one to one. -/
structure Window (bf : RollingBitField) : Prop where
  width_pos : 0 < bf.maxWidth
  min_le_max : bf.min ≤ bf.maxExclusive
  max_le : bf.maxExclusive ≤ bf.min + bf.maxWidth
  bits_in_window : ∀ address, bf.bits address = true →
    ∃ k, bf.min ≤ k ∧ k < bf.maxExclusive ∧ k % bf.maxWidth = address

theorem Window.mem_windowKeys_of_bits (window : bf.Window) (low : bf.min ≤ key)
    (high : key < bf.min + bf.maxWidth) (set : bf.bits (key % bf.maxWidth) = true) : key ∈ bf.windowKeys := by
  obtain ⟨k, lowK, highK, address⟩ := window.bits_in_window _ set
  have same : k = key := eq_of_mod_eq_of_lt_add lowK (by have := window.max_le; omega) low high address
  subst same
  exact mem_windowKeys.2 ⟨lowK, highK, set⟩

theorem Window.bits_eq_false (window : bf.Window) (empty : bf.windowKeys = []) (address : Nat) :
    bf.bits address = false := by
  cases set : bf.bits address with
  | false => rfl
  | true =>
    obtain ⟨k, low, high, rfl⟩ := window.bits_in_window _ set
    have mem := mem_windowKeys.2 ⟨low, high, set⟩
    simp [empty] at mem

theorem windowKeys_raise_min {m : Nat} (raised : bf.min ≤ m) (inside : m ≤ bf.maxExclusive)
    (skipped : ∀ k ∈ bf.windowKeys, m ≤ k) : ({ bf with min := m } : RollingBitField).windowKeys = bf.windowKeys := by
  have split : List.range' bf.min (bf.maxExclusive - bf.min) =
      List.range' bf.min (m - bf.min) ++ List.range' m (bf.maxExclusive - m) := by
    have joined : List.range' bf.min (m - bf.min) ++ List.range' (bf.min + 1 * (m - bf.min)) (bf.maxExclusive - m) =
        List.range' bf.min (m - bf.min + (bf.maxExclusive - m)) := List.range'_append
    rw [show bf.min + 1 * (m - bf.min) = m by omega,
      show m - bf.min + (bf.maxExclusive - m) = bf.maxExclusive - bf.min by omega] at joined
    exact joined.symm
  have below : (List.range' bf.min (m - bf.min)).filter bf.containsAssumeInRange = [] := by
    rw [List.filter_eq_nil_iff]
    intro j mem set
    have range := List.mem_range'_1.1 mem
    have := skipped j (mem_windowKeys.2 ⟨range.1, by omega, set⟩)
    omega
  simp only [windowKeys, split, List.filter_append, below, List.nil_append]
  rfl

theorem Window.raise_min (window : bf.Window) {m : Nat} (raised : bf.min ≤ m) (inside : m ≤ bf.maxExclusive)
    (skipped : ∀ k ∈ bf.windowKeys, m ≤ k) : ({ bf with min := m } : RollingBitField).Window where
  width_pos := window.width_pos
  min_le_max := inside
  max_le := by have := window.max_le; dsimp only; omega
  bits_in_window address set := by
    obtain ⟨k, low, high, rfl⟩ := window.bits_in_window address set
    exact ⟨k, skipped k (mem_windowKeys.2 ⟨low, high, set⟩), high, rfl⟩

end Window

theorem purge_cases (bf : RollingBitField) (key : Nat) :
    (0 < bf.count ∧ bf.allItemsInExcess = false ∧ key = bf.min ∧ ∃ next,
      (List.range' (bf.min + 1) (bf.maxExclusive - (bf.min + 1))).find? bf.containsAssumeInRange = some next ∧
        bf.purge key = { bf with min := next }) ∨
    (0 < bf.count ∧ bf.allItemsInExcess = false ∧ key = bf.min ∧
      (List.range' (bf.min + 1) (bf.maxExclusive - (bf.min + 1))).find? bf.containsAssumeInRange = none ∧
        bf.purge key = bf) ∨
    (key ≠ bf.min ∧ bf.purge key = bf) ∨
    (¬(0 < bf.count ∧ bf.allItemsInExcess = false) ∧ bf.purge key = { bf with min := bf.maxExclusive }) := by
  unfold purge
  split
  · next live =>
    split
    · next same =>
      split
      · next next found => exact .inl ⟨live.1, live.2, same, next, found, rfl⟩
      · next missing => exact .inr (.inl ⟨live.1, live.2, same, missing, rfl⟩)
    · next differs => exact .inr (.inr (.inl ⟨differs, rfl⟩))
  · next closed => exact .inr (.inr (.inr ⟨closed, rfl⟩))

section Purge

variable {bf : RollingBitField} {key : Nat}

/-- `purge` after the bit of `key` was cleared (of `min`, when `key` is `min`) on a state whose
`count` counts `excess` and the window: the window keeps its keys and its shape, and `min` moves up
to the least of them. -/
theorem Window.purge (window : bf.Window) (counted : bf.count = bf.excess.length + bf.windowKeys.length)
    (cleared : key = bf.min → bf.bits (bf.min % bf.maxWidth) = false)
    (kept : key ≠ bf.min → bf.windowKeys ≠ [] → bf.bits (bf.min % bf.maxWidth) = true) :
    (bf.purge key).windowKeys = bf.windowKeys ∧ (bf.purge key).Window ∧
      ((bf.purge key).windowKeys ≠ [] →
        (bf.purge key).bits ((bf.purge key).min % (bf.purge key).maxWidth) = true) ∧
      bf.min ≤ (bf.purge key).min ∧ (key = bf.min → bf.min < bf.maxExclusive → bf.min < (bf.purge key).min) := by
  have live_iff : (0 < bf.count ∧ bf.allItemsInExcess = false) ↔ bf.windowKeys ≠ [] := by
    rw [allItemsInExcess, beq_eq_false_iff_ne, counted, ← List.length_pos_iff]
    omega
  rcases purge_cases bf key with ⟨live, -, rfl, next, found, purged⟩ | ⟨live, notAll, rfl, missing, -⟩ |
    ⟨differs, purged⟩ | ⟨closed, purged⟩
  · obtain ⟨set, inRange, before⟩ := List.find?_range'_eq_some.1 found
    have range := List.mem_range'_1.1 inRange
    have skipped : ∀ k ∈ bf.windowKeys, next ≤ k := by
      intro k mem
      obtain ⟨low, -, setK⟩ := mem_windowKeys.1 mem
      have differs : k ≠ bf.min := fun same => by simp [same, cleared rfl] at setK
      by_contra above
      have clear := before k (by omega) (by omega)
      simp [containsAssumeInRange, getAddress, setK] at clear
    rw [purged]
    refine ⟨windowKeys_raise_min (by omega) (by omega) skipped, window.raise_min (by omega) (by omega) skipped,
      fun _ => set, by dsimp only; omega, fun _ _ => by dsimp only; omega⟩
  · obtain ⟨k, mem⟩ := List.exists_mem_of_ne_nil _ (live_iff.1 ⟨live, notAll⟩)
    obtain ⟨low, high, setK⟩ := mem_windowKeys.1 mem
    have differs : k ≠ bf.min := fun same => by simp [same, cleared rfl] at setK
    have clear := List.find?_range'_eq_none.1 missing k (by omega) (by omega)
    simp [containsAssumeInRange, getAddress, setK] at clear
  · rw [purged]
    exact ⟨rfl, window, kept differs, le_rfl, fun same => absurd same differs⟩
  · have empty : bf.windowKeys = [] := by
      by_contra nonempty
      exact closed (live_iff.2 nonempty)
    have skipped : ∀ k ∈ bf.windowKeys, bf.maxExclusive ≤ k := by simp [empty]
    rw [purged]
    refine ⟨windowKeys_raise_min window.min_le_max le_rfl skipped,
      window.raise_min window.min_le_max le_rfl skipped, ?_, window.min_le_max, fun _ inside => inside⟩
    rw [windowKeys_raise_min window.min_le_max le_rfl skipped, empty]
    exact fun nonempty => absurd rfl nonempty

end Purge

/-- The invariant of every state of a run whose keys come in order: the window has its shape,
`excess` holds distinct keys below `min`, `count` counts both, and `min` is a key whenever the bits
hold one. -/
structure Valid (bf : RollingBitField) : Prop extends Window bf where
  excess_nodup : bf.excess.Nodup
  excess_lt_min : ∀ e ∈ bf.excess, e < bf.min
  count_eq : bf.count = bf.excess.length + bf.windowKeys.length
  min_set : bf.windowKeys ≠ [] → bf.bits (bf.min % bf.maxWidth) = true

/-- The keys the bit field holds. -/
def items (bf : RollingBitField) : Finset Nat := bf.getAll.toFinset

@[simp] theorem mem_items {bf : RollingBitField} {k : Nat} :
    k ∈ bf.items ↔ k ∈ bf.excess ∨ k ∈ bf.windowKeys := by
  simp [items, getAll]

section Valid

variable {bf : RollingBitField} {key : Nat}

theorem Valid.min_mem (valid : bf.Valid) (nonempty : bf.windowKeys ≠ []) : bf.min ∈ bf.windowKeys := by
  have set := valid.min_set nonempty
  obtain ⟨k, low, high, -⟩ := valid.bits_in_window _ set
  exact mem_windowKeys.2 ⟨le_rfl, by omega, set⟩

theorem Valid.allItemsInExcess_iff (valid : bf.Valid) : bf.allItemsInExcess = true ↔ bf.windowKeys = [] := by
  rw [allItemsInExcess, beq_iff_eq, valid.count_eq, ← List.length_eq_zero_iff]
  omega

theorem Valid.bitsEmpty_iff (valid : bf.Valid) :
    (bf.count == 0 || bf.allItemsInExcess) = true ↔ bf.windowKeys = [] := by
  rw [Bool.or_eq_true, valid.allItemsInExcess_iff, beq_iff_eq, valid.count_eq, ← List.length_eq_zero_iff]
  omega

end Valid

/-! ### Remove -/

section Remove

variable {bf : RollingBitField} {key : Nat}

theorem Valid.mem_windowKeys_clear (valid : bf.Valid) (mem : key ∈ bf.windowKeys) {k : Nat} :
    k ∈ ({ bf with bits := Function.update bf.bits (key % bf.maxWidth) false } : RollingBitField).windowKeys ↔
      k ≠ key ∧ k ∈ bf.windowKeys := by
  obtain ⟨low, high, -⟩ := mem_windowKeys.1 mem
  have max_le := valid.max_le
  simp only [mem_windowKeys, Function.update_apply]
  constructor
  · rintro ⟨lowK, highK, set⟩
    split at set
    · cases set
    · next differs =>
      exact ⟨fun same => differs (congrArg (· % bf.maxWidth) same), lowK, highK, set⟩
  · rintro ⟨differs, lowK, highK, set⟩
    refine ⟨lowK, highK, ?_⟩
    rw [if_neg fun same => differs (eq_of_mod_eq_of_lt_add lowK (by omega) low (by omega) same)]
    exact set

theorem Valid.remove (valid : bf.Valid) (key : Nat) :
    (bf.remove key).1.Valid ∧ (bf.remove key).1.items = bf.items.erase key ∧
      (bf.remove key).1.maxExclusive = bf.maxExclusive ∧ (bf.remove key).1.maxWidth = bf.maxWidth ∧
      ∀ e ∈ (bf.remove key).1.excess, e ∈ bf.excess := by
  have notExcess : bf.min ≤ key → key ∉ bf.excess := fun low mem => by
    have := valid.excess_lt_min key mem
    omega
  unfold RollingBitField.remove
  by_cases low : bf.min ≤ key
  · by_cases high : key < bf.maxExclusive
    · rw [if_pos low, if_pos high]
      by_cases set : bf.bits (key % bf.maxWidth) = true
      · simp only [getAddress, set, if_true]
        have mem : key ∈ bf.windowKeys := mem_windowKeys.2 ⟨low, high, set⟩
        set cleared : RollingBitField :=
          { bf with count := bf.count - 1, bits := Function.update bf.bits (key % bf.maxWidth) false }
        have clearedKeys : ∀ k, k ∈ cleared.windowKeys ↔ k ≠ key ∧ k ∈ bf.windowKeys :=
          fun _ => valid.mem_windowKeys_clear mem
        have erased : cleared.windowKeys.Perm (bf.windowKeys.erase key) :=
          (List.perm_ext_iff_of_nodup cleared.windowKeys_nodup (bf.windowKeys_nodup.erase key)).2 fun k => by
            rw [clearedKeys, bf.windowKeys_nodup.mem_erase_iff]
        have shape : cleared.Window :=
          ⟨valid.width_pos, valid.min_le_max, valid.max_le, fun address set => by
            simp only [cleared, Function.update_apply] at set
            split at set
            · cases set
            · exact valid.bits_in_window address set⟩
        have counted : cleared.count = cleared.excess.length + cleared.windowKeys.length := by
          rw [erased.length_eq, List.length_erase_of_mem mem]
          have := List.length_pos_of_mem mem
          have := valid.count_eq
          simp only [cleared]
          omega
        obtain ⟨keys, window, minSet, raised, -⟩ := shape.purge counted
          (fun same => by
            have same : key = bf.min := same
            simp [cleared, same]) (fun differs _ => by
            have differs : key ≠ bf.min := differs
            have set := valid.min_set (List.ne_nil_of_mem mem)
            have ne : bf.min % bf.maxWidth ≠ key % bf.maxWidth := fun same => differs
              (eq_of_mod_eq_of_lt_add low (by have := valid.max_le; omega) le_rfl
                (by have := valid.max_le; omega) same.symm)
            simpa [cleared, ne] using set)
        refine ⟨⟨window, by rw [purge_excess]; exact valid.excess_nodup, fun e mem => ?_, ?_, minSet⟩, ?_,
          purge_maxExclusive _ _, purge_maxWidth _ _, fun e mem => by rwa [purge_excess] at mem⟩
        · rw [purge_excess] at mem
          exact lt_of_lt_of_le (valid.excess_lt_min e mem) raised
        · rw [purge_count, purge_excess, keys]
          exact counted
        · ext k
          simp only [mem_items, purge_excess, keys, clearedKeys, Finset.mem_erase]
          constructor
          · rintro (mem | ⟨differs, mem⟩)
            · exact ⟨fun same => notExcess low (same ▸ mem), .inl mem⟩
            · exact ⟨differs, .inr mem⟩
          · rintro ⟨differs, mem | mem⟩
            · exact .inl mem
            · exact .inr ⟨differs, mem⟩
      · have absent : key ∉ bf.items := by
          simp only [mem_items, mem_windowKeys, not_or]
          exact ⟨notExcess low, fun ⟨_, _, set'⟩ => set set'⟩
        simp only [getAddress, set]
        exact ⟨valid, (Finset.erase_eq_of_notMem absent).symm, rfl, rfl, fun e mem => mem⟩
    · have absent : key ∉ bf.items := by
        simp only [mem_items, mem_windowKeys, not_or]
        exact ⟨notExcess low, fun ⟨_, inside, _⟩ => high inside⟩
      rw [if_pos low, if_neg high]
      exact ⟨valid, (Finset.erase_eq_of_notMem absent).symm, rfl, rfl, fun e mem => mem⟩
  · rw [if_neg low]
    by_cases mem : key ∈ bf.excess
    · rw [if_pos mem]
      dsimp only
      refine ⟨⟨⟨valid.width_pos, valid.min_le_max, valid.max_le, valid.bits_in_window⟩, valid.excess_nodup.erase key, fun e mem => valid.excess_lt_min e
        (List.mem_of_mem_erase mem), ?_, valid.min_set⟩, ?_, rfl, rfl, fun e mem => List.mem_of_mem_erase mem⟩
      · have := valid.count_eq
        have := List.length_pos_of_mem mem
        simp only [List.length_erase_of_mem mem]
        exact (by omega : bf.count - 1 = bf.excess.length - 1 + bf.windowKeys.length)
      · ext k
        simp only [mem_items, valid.excess_nodup.mem_erase_iff, Finset.mem_erase]
        constructor
        · rintro (⟨differs, mem⟩ | mem)
          · exact ⟨differs, .inl mem⟩
          · exact ⟨fun same => low (same ▸ (mem_windowKeys.1 mem).1), .inr mem⟩
        · rintro ⟨differs, mem | mem⟩
          · exact .inl ⟨differs, mem⟩
          · exact .inr mem
    · have absent : key ∉ bf.items := by
        simp only [mem_items, mem_windowKeys, not_or]
        exact ⟨mem, fun ⟨inside, _, _⟩ => low inside⟩
      rw [if_neg mem]
      exact ⟨valid, (Finset.erase_eq_of_notMem absent).symm, rfl, rfl, fun e mem => mem⟩

end Remove

/-! ### Insert -/

section Insert

variable {bf : RollingBitField} {key : Nat}

theorem updateBits_of_set (set : bf.bits (key % bf.maxWidth) = true) (bitsEmpty : Bool) :
    bf.updateBits key bitsEmpty = some bf := by
  simp [updateBits, getAddress, set]

theorem updateBits_restart_eq (clear : bf.bits (key % bf.maxWidth) = false) :
    bf.updateBits key true = some { bf with
      bits := Function.update bf.bits (key % bf.maxWidth) true
      min := key
      maxExclusive := key + 1
      count := bf.count + 1 } := by
  simp [updateBits, getAddress, clear]

theorem updateBits_widen_eq (clear : bf.bits (key % bf.maxWidth) = false) (low : bf.min ≤ key)
    (fits : max bf.maxExclusive (key + 1) ≤ bf.min + bf.maxWidth) :
    bf.updateBits key false = some { bf with
      bits := Function.update bf.bits (key % bf.maxWidth) true
      maxExclusive := max bf.maxExclusive (key + 1)
      count := bf.count + 1 } := by
  have minEq : Nat.min bf.min key = bf.min := Nat.min_eq_left low
  simp only [updateBits, getAddress, clear, minEq, Bool.false_eq_true, if_false]
  rw [if_pos fits]

theorem Valid.updateBits_restart (valid : bf.Valid) (empty : bf.windowKeys = [])
    (above : ∀ e ∈ bf.excess, e < key) :
    ∃ bf', bf.updateBits key true = some bf' ∧ bf'.Valid ∧ bf'.items = Insert.insert key bf.items ∧
      bf'.windowKeys ≠ [] ∧ bf'.maxExclusive = key + 1 ∧ bf'.maxWidth = bf.maxWidth := by
  have clear := valid.bits_eq_false empty (key % bf.maxWidth)
  rw [updateBits_restart_eq clear]
  have keys : ({ bf with
      bits := Function.update bf.bits (key % bf.maxWidth) true
      min := key
      maxExclusive := key + 1
      count := bf.count + 1 } : RollingBitField).windowKeys = [key] := by
    simp [windowKeys, containsAssumeInRange, getAddress]
  have counted := valid.count_eq
  rw [empty, List.length_nil] at counted
  refine ⟨_, rfl, ⟨⟨valid.width_pos, Nat.le_succ key, by dsimp only; have := valid.width_pos; omega,
    fun address set => ?_⟩, valid.excess_nodup, above, ?_, fun _ => by simp⟩, ?_, by simp [keys], rfl, rfl⟩
  · simp only [Function.update_apply] at set
    split at set
    · next same => exact ⟨key, le_rfl, Nat.lt_succ_self key, same.symm⟩
    · simp [valid.bits_eq_false empty] at set
  · rw [keys]
    dsimp only
    rw [List.length_singleton]
    omega
  · ext k
    simp [keys, empty, or_comm]

theorem Valid.updateBits_widen (valid : bf.Valid) (nonempty : bf.windowKeys ≠ []) (low : bf.min ≤ key)
    (near : key < bf.min + bf.maxWidth) :
    ∃ bf', bf.updateBits key false = some bf' ∧ bf'.Valid ∧ bf'.items = Insert.insert key bf.items ∧
      bf'.windowKeys ≠ [] ∧ bf'.maxExclusive = max bf.maxExclusive (key + 1) ∧ bf'.maxWidth = bf.maxWidth := by
  by_cases set : bf.bits (key % bf.maxWidth) = true
  · have mem := valid.mem_windowKeys_of_bits low near set
    have high := (mem_windowKeys.1 mem).2.1
    exact ⟨bf, updateBits_of_set set false, valid, (Finset.insert_eq_of_mem (mem_items.2 (.inr mem))).symm,
      nonempty, by omega, rfl⟩
  · have clear : bf.bits (key % bf.maxWidth) = false := by simpa using set
    have fits : max bf.maxExclusive (key + 1) ≤ bf.min + bf.maxWidth := max_le valid.max_le near
    rw [updateBits_widen_eq clear low fits]
    set widened : RollingBitField := { bf with
      bits := Function.update bf.bits (key % bf.maxWidth) true
      maxExclusive := max bf.maxExclusive (key + 1)
      count := bf.count + 1 }
    have keys : ∀ k, k ∈ widened.windowKeys ↔ k = key ∨ k ∈ bf.windowKeys := by
      intro k
      simp only [widened, mem_windowKeys, Function.update_apply]
      constructor
      · rintro ⟨lowK, highK, setK⟩
        split at setK
        · next same => exact .inl (eq_of_mod_eq_of_lt_add lowK (by omega) low near same)
        · exact .inr (mem_windowKeys.1 (valid.mem_windowKeys_of_bits lowK (by omega) setK))
      · rintro (rfl | ⟨lowK, highK, setK⟩)
        · simp [low]
        · refine ⟨lowK, by omega, ?_⟩
          split <;> simp [setK]
    have added : widened.windowKeys.Perm (key :: bf.windowKeys) :=
      (List.perm_ext_iff_of_nodup widened.windowKeys_nodup
        (List.nodup_cons.2 ⟨fun mem => set (mem_windowKeys.1 mem).2.2, bf.windowKeys_nodup⟩)).2
        fun k => by rw [keys, List.mem_cons]
    have keyMem : key ∈ widened.windowKeys := (keys key).2 (.inl rfl)
    refine ⟨widened, rfl, ⟨⟨valid.width_pos, le_trans valid.min_le_max (le_max_left _ _), fits,
      fun address setA => ?_⟩, valid.excess_nodup, valid.excess_lt_min, ?_, fun _ => ?_⟩, ?_,
      List.ne_nil_of_mem keyMem, rfl, rfl⟩
    · simp only [widened, Function.update_apply] at setA
      split at setA
      · next same => exact ⟨key, low, by dsimp only [widened]; omega, same.symm⟩
      · obtain ⟨k, lowK, highK, address⟩ := valid.bits_in_window address setA
        exact ⟨k, lowK, by dsimp only [widened]; omega, address⟩
    · rw [added.length_eq, List.length_cons]
      have := valid.count_eq
      dsimp only [widened]
      omega
    · have minSet := valid.min_set nonempty
      simp only [widened, Function.update_apply]
      split <;> simp [minSet]
    · ext k
      simp only [mem_items, keys, Finset.mem_insert]
      dsimp only [widened]
      tauto

theorem Valid.evict (valid : bf.Valid) (nonempty : bf.windowKeys ≠ []) :
    let moved := ({ bf with
      excess := bf.min :: bf.excess
      bits := Function.update bf.bits (bf.getAddress bf.min) false } : RollingBitField).purge bf.min
    moved.Valid ∧ moved.items = bf.items ∧ moved.maxExclusive = bf.maxExclusive ∧ moved.maxWidth = bf.maxWidth := by
  intro moved
  have minMem := valid.min_mem nonempty
  set moving : RollingBitField := { bf with
    excess := bf.min :: bf.excess
    bits := Function.update bf.bits (bf.getAddress bf.min) false }
  have keys : ∀ k, k ∈ moving.windowKeys ↔ k ≠ bf.min ∧ k ∈ bf.windowKeys :=
    fun _ => valid.mem_windowKeys_clear minMem
  have erased : moving.windowKeys.Perm (bf.windowKeys.erase bf.min) :=
    (List.perm_ext_iff_of_nodup moving.windowKeys_nodup (bf.windowKeys_nodup.erase bf.min)).2 fun k => by
      rw [keys, bf.windowKeys_nodup.mem_erase_iff]
  have shape : moving.Window :=
    ⟨valid.width_pos, valid.min_le_max, valid.max_le, fun address set => by
      simp only [moving, Function.update_apply] at set
      split at set
      · cases set
      · exact valid.bits_in_window address set⟩
  have counted : moving.count = moving.excess.length + moving.windowKeys.length := by
    rw [erased.length_eq, List.length_erase_of_mem minMem]
    have := List.length_pos_of_mem minMem
    have := valid.count_eq
    simp only [moving, List.length_cons]
    omega
  obtain ⟨purgedKeys, window, minSet, -, raised⟩ := shape.purge counted
    (fun _ => by simp [moving, getAddress]) (fun differs => absurd rfl differs)
  have raised : bf.min < moved.min := raised rfl (mem_windowKeys.1 minMem).2.1
  have fresh : bf.min ∉ bf.excess := fun mem => Nat.lt_irrefl _ (valid.excess_lt_min _ mem)
  refine ⟨⟨window, ?_, fun e mem => ?_, ?_, minSet⟩, ?_, purge_maxExclusive _ _, purge_maxWidth _ _⟩
  · rw [purge_excess]
    exact List.nodup_cons.2 ⟨fresh, valid.excess_nodup⟩
  · rw [purge_excess] at mem
    rcases List.mem_cons.1 mem with rfl | mem
    · exact raised
    · exact (valid.excess_lt_min e mem).trans raised
  · rw [purge_count, purge_excess, purgedKeys]
    exact counted
  · ext k
    simp only [moved, mem_items, purge_excess, purgedKeys, keys, moving, List.mem_cons]
    constructor
    · rintro ((rfl | mem) | ⟨-, mem⟩)
      · exact .inr minMem
      · exact .inl mem
      · exact .inr mem
    · rintro (mem | mem)
      · exact .inl (.inr mem)
      · by_cases same : k = bf.min
        · exact .inl (.inl same)
        · exact .inr ⟨same, mem⟩

theorem Valid.evictOld (valid : bf.Valid) (nonempty : bf.windowKeys ≠ []) (above : bf.maxExclusive ≤ key) :
    ∃ moved bitsEmpty, bf.evictOld (key + 1) = some (moved, bitsEmpty) ∧ moved.Valid ∧ moved.items = bf.items ∧
      moved.maxExclusive = bf.maxExclusive ∧ moved.maxWidth = bf.maxWidth ∧
      (bitsEmpty = true → moved.windowKeys = []) ∧
      (bitsEmpty = false → moved.windowKeys ≠ [] ∧ key + 1 - moved.min ≤ moved.maxWidth) := by
  fun_induction bf.evictOld (key + 1) with
  | case1 bf fits => exact ⟨bf, false, rfl, valid, rfl, rfl, rfl, nofun, fun _ => ⟨nonempty, fits⟩⟩
  | case2 bf wide mem => exact absurd (valid.excess_lt_min _ mem) (Nat.lt_irrefl _)
  | case3 bf wide fresh moved emptied =>
    obtain ⟨movedValid, movedItems, movedMax, movedWidth⟩ := valid.evict nonempty
    exact ⟨_, true, rfl, movedValid, movedItems, movedMax, movedWidth,
      fun _ => movedValid.allItemsInExcess_iff.1 emptied, nofun⟩
  | case4 bf wide fresh moved live ih =>
    obtain ⟨movedValid, movedItems, movedMax, movedWidth⟩ := valid.evict nonempty
    have movedLive : moved.windowKeys ≠ [] := fun empty => live (movedValid.allItemsInExcess_iff.2 empty)
    obtain ⟨last, bitsEmpty, evicted, lastValid, lastItems, lastMax, lastWidth, ifEmpty, ifLive⟩ :=
      ih movedValid movedLive (movedMax ▸ above)
    exact ⟨last, bitsEmpty, evicted, lastValid, lastItems.trans movedItems, lastMax.trans movedMax,
      lastWidth.trans movedWidth, ifEmpty, ifLive⟩

/-- `insert` keeps the invariant and adds the key to the set, provided the key lies above `excess`
whenever the window is empty: that is the case `insert` gets wrong, restarting the window at the key
with `excess` left above it. -/
theorem Valid.insert (valid : bf.Valid) (safe : bf.windowKeys = [] → ∀ e ∈ bf.excess, e < key) :
    ∃ bf', bf.insert key = some bf' ∧ bf'.Valid ∧ bf'.items = Insert.insert key bf.items ∧
      bf'.windowKeys ≠ [] ∧ bf'.maxExclusive ≤ max bf.maxExclusive (key + 1) ∧ bf'.maxWidth = bf.maxWidth := by
  unfold RollingBitField.insert
  dsimp only
  by_cases empty : bf.windowKeys = []
  · rw [if_pos (valid.bitsEmpty_iff.2 empty)]
    obtain ⟨bf', updated, valid', items', nonempty', max', width'⟩ := valid.updateBits_restart empty (safe empty)
    exact ⟨bf', updated, valid', items', nonempty', by omega, width'⟩
  rw [if_neg fun bitsEmpty => empty (valid.bitsEmpty_iff.1 bitsEmpty)]
  by_cases below : key < bf.min
  · rw [if_pos below]
    by_cases mem : key ∈ bf.excess
    · rw [if_pos mem]
      exact ⟨bf, rfl, valid, (Finset.insert_eq_of_mem (mem_items.2 (.inl mem))).symm, empty,
        le_max_left _ _, rfl⟩
    · rw [if_neg mem]
      refine ⟨_, rfl, ⟨⟨valid.width_pos, valid.min_le_max, valid.max_le, valid.bits_in_window⟩,
        List.nodup_cons.2 ⟨mem, valid.excess_nodup⟩, fun e mem => ?_, ?_, valid.min_set⟩, ?_, empty,
        le_max_left _ _, rfl⟩
      · rcases List.mem_cons.1 mem with rfl | mem
        · exact below
        · exact valid.excess_lt_min e mem
      · have := valid.count_eq
        simp only [List.length_cons]
        exact (by omega : bf.count + 1 = bf.excess.length + 1 + bf.windowKeys.length)
      · ext k
        simp only [mem_items, List.mem_cons, Finset.mem_insert]
        exact or_assoc
  rw [if_neg below]
  by_cases inside : key < bf.maxExclusive
  · rw [if_pos inside]
    obtain ⟨bf', updated, valid', items', nonempty', max', width'⟩ :=
      valid.updateBits_widen empty (show bf.min ≤ key by omega) (by have := valid.max_le; omega)
    exact ⟨bf', updated, valid', items', nonempty', max'.le, width'⟩
  rw [if_neg inside]
  obtain ⟨moved, bitsEmpty, evicted, movedValid, movedItems, movedMax, movedWidth, ifEmpty, ifLive⟩ :=
    valid.evictOld empty (show bf.maxExclusive ≤ key by omega)
  rw [evicted]
  have movedBelow : moved.min ≤ key := by
    have := movedValid.min_le_max
    omega
  cases bitsEmpty with
  | true =>
    have above : ∀ e ∈ moved.excess, e < key := fun e mem =>
      lt_of_lt_of_le (movedValid.excess_lt_min e mem) movedBelow
    obtain ⟨bf', updated, valid', items', nonempty', max', width'⟩ :=
      movedValid.updateBits_restart (ifEmpty rfl) above
    exact ⟨bf', updated, valid', movedItems ▸ items', nonempty', by omega, width'.trans movedWidth⟩
  | false =>
    obtain ⟨movedLive, fits⟩ := ifLive rfl
    obtain ⟨bf', updated, valid', items', nonempty', max', width'⟩ :=
      movedValid.updateBits_widen movedLive movedBelow (by omega)
    exact ⟨bf', updated, valid', movedItems ▸ items', nonempty', by omega, width'.trans movedWidth⟩

end Insert

end RollingBitField

end AccountsDb
