import Mathlib
import Agave.Library.MachineInt

/-! The `SlotHistory` sysvar: one bit for each of the last `MAX_ENTRIES` slots, slot `s` at bit
`s % MAX_ENTRIES`, and `next_slot`, one past the newest slot added. `add` clears the bits of the
slots it skips, or the whole vector after a gap of `MAX_ENTRIES` or more, and sets the bit of the
new slot; `check` answers from the bit for a slot of the window `[oldest, newest]`.

The bit vector is a function of the position, as in `RollingBitField`; `set_block` writes the 64
positions of one block. -/

namespace Sysvar

open MachineInt

def maxEntries : Nat := 1024 * 1024

structure SlotHistory where
  bits : Nat → Bool
  nextSlot : Nat

inductive Check where
  | future
  | tooOld
  | found
  | notFound
  deriving DecidableEq, Repr

namespace SlotHistory

/-- `BitVec::set_block`: the 64 positions of block `block` take the bits of `value`. -/
def setBlock (bits : Nat → Bool) (block value : Nat) : Nat → Bool :=
  fun position => if position / 64 = block then value.testBit (position % 64) else bits position

/-- `SlotHistory::default`: slot 0 alone. -/
def default : SlotHistory :=
  { bits := Function.update (fun _ => false) 0 true, nextSlot := 1 }

def add (history : SlotHistory) (slot : Nat) : SlotHistory :=
  let bits :=
    if slot > history.nextSlot ∧ slot - history.nextSlot ≥ maxEntries then
      -- wrapped past the current history: clear the whole vector
      let fullBlocks := maxEntries / 64
      (List.range fullBlocks).foldl (fun bits i => setBlock bits i 0) history.bits
    else
      (List.range' history.nextSlot (slot - history.nextSlot)).foldl
        (fun bits skipped => Function.update bits (skipped % maxEntries) false) history.bits
  { bits := Function.update bits (slot % maxEntries) true, nextSlot := wrappingAdd 64 slot 1 }

def oldest (history : SlotHistory) : Nat := history.nextSlot - maxEntries

def newest (history : SlotHistory) : Nat := history.nextSlot - 1

def check (history : SlotHistory) (slot : Nat) : Check :=
  if slot > history.newest then .future
  else if slot < history.oldest then .tooOld
  else if history.bits (slot % maxEntries) then .found
  else .notFound

@[simp] theorem add_nextSlot (history : SlotHistory) (slot : Nat) :
    (history.add slot).nextSlot = wrappingAdd 64 slot 1 := rfl

theorem foldl_setBlock_zero (bits : Nat → Bool) (blocks position : Nat) :
    (List.range blocks).foldl (fun bits i => setBlock bits i 0) bits position =
      (decide (blocks ≤ position / 64) && bits position) := by
  induction blocks with
  | zero => simp
  | succ blocks ih =>
    rw [List.range_succ, List.foldl_append, List.foldl_cons, List.foldl_nil]
    simp only [setBlock, Nat.zero_testBit, ih]
    by_cases here : position / 64 = blocks
    · simp [here]
    · simp only [here, if_false]
      by_cases le : blocks + 1 ≤ position / 64
      · simp [le, show blocks ≤ position / 64 by omega]
      · simp [le, show ¬blocks ≤ position / 64 by omega]

theorem foldl_clear (bits : Nat → Bool) (skipped : List Nat) (position : Nat) :
    skipped.foldl (fun bits s => Function.update bits (s % maxEntries) false) bits position =
      if ∃ s ∈ skipped, s % maxEntries = position then false else bits position := by
  induction skipped generalizing bits with
  | nil => simp
  | cons s skipped ih =>
    rw [List.foldl_cons, ih, Function.update_apply]
    by_cases here : s % maxEntries = position
    · simp [here]
    · simp [here, Ne.symm here]

theorem nextSlot_add (history : SlotHistory) {slot : Nat} (fits : slot < maxValue 64) :
    (history.add slot).nextSlot = slot + 1 := by
  rw [add_nextSlot, wrappingAdd, Nat.mod_eq_of_lt]
  unfold maxValue at fits
  omega

theorem add_bits_self (history : SlotHistory) (slot : Nat) :
    (history.add slot).bits (slot % maxEntries) = true := by
  simp [add]

theorem add_bits_of_lt (history : SlotHistory) {slot x : Nat} (below : x < slot)
    (near : slot < x + maxEntries) :
    (history.add slot).bits (x % maxEntries) =
      if history.nextSlot ≤ x then false else history.bits (x % maxEntries) := by
  have other : x % maxEntries ≠ slot % maxEntries := fun same =>
    absurd (eq_of_mod_eq_of_le_of_lt_add below.le near same) (by omega)
  unfold add
  dsimp only
  rw [Function.update_of_ne other]
  by_cases wrapped : slot > history.nextSlot ∧ slot - history.nextSlot ≥ maxEntries
  · have inBlock : x % maxEntries / 64 < maxEntries / 64 := by
      have := Nat.mod_lt x (show 0 < maxEntries by decide)
      unfold maxEntries at *
      omega
    rw [if_pos wrapped, foldl_setBlock_zero, if_pos (show history.nextSlot ≤ x by omega)]
    simp [Nat.not_le.mpr inBlock]
  · have skipped : (∃ s ∈ List.range' history.nextSlot (slot - history.nextSlot),
        s % maxEntries = x % maxEntries) ↔ history.nextSlot ≤ x := by
      constructor
      · rintro ⟨s, mem, same⟩
        rw [List.mem_range'_1] at mem
        by_contra before
        have := eq_of_mod_eq_of_le_of_lt_add (show x ≤ s by omega) (show s < x + maxEntries by omega)
          same.symm
        omega
      · intro le
        exact ⟨x, List.mem_range'_1.mpr ⟨le, by omega⟩, rfl⟩
    rw [if_neg wrapped, foldl_clear]
    simp only [skipped]

/-- What `check` answers from: the slots added so far lie below `next_slot`, and in the window
`[oldest, newest]` the bits are set exactly at them. -/
structure Records (history : SlotHistory) (slots : List Nat) : Prop where
  lt_nextSlot : ∀ s ∈ slots, s < history.nextSlot
  bits_iff : ∀ x, history.oldest ≤ x → x < history.nextSlot →
    (history.bits (x % maxEntries) = true ↔ x ∈ slots)

theorem default_records : default.Records [0] where
  lt_nextSlot := by simp [default]
  bits_iff := by
    intro x _ below
    obtain rfl : x = 0 := by simp only [default] at below; omega
    simp [default]

variable {history : SlotHistory} {slots : List Nat}

theorem Records.add (records : history.Records slots) {slot : Nat} (later : history.nextSlot ≤ slot)
    (fits : slot < maxValue 64) : (history.add slot).Records (slots ++ [slot]) where
  lt_nextSlot := by
    intro s mem
    rw [nextSlot_add history fits]
    rcases List.mem_append.mp mem with old | new
    · have := records.lt_nextSlot s old
      omega
    · rw [List.mem_singleton.mp new]
      omega
  bits_iff := by
    intro x older below
    rw [oldest, nextSlot_add history fits] at older
    rw [nextSlot_add history fits] at below
    rcases Nat.lt_or_ge x slot with before | atSlot
    · have notSlot : x ∉ [slot] := by simp; omega
      rw [add_bits_of_lt history before (by omega), List.mem_append, or_iff_left notSlot]
      by_cases fresh : history.nextSlot ≤ x
      · have notAdded : x ∉ slots := fun mem => absurd (records.lt_nextSlot x mem) (by omega)
        simp [fresh, notAdded]
      · rw [if_neg fresh]
        exact records.bits_iff x (by unfold oldest; omega) (by omega)
    · obtain rfl : x = slot := by omega
      simp [add_bits_self]

theorem Records.check_eq (records : history.Records slots) (positive : 0 < history.nextSlot)
    (x : Nat) :
    history.check x =
      if history.newest < x then .future
      else if x < history.oldest then .tooOld
      else if x ∈ slots then .found else .notFound := by
  unfold check
  by_cases future : history.newest < x
  · simp [future]
  · by_cases old : x < history.oldest
    · simp [future, old]
    · have window := records.bits_iff x (Nat.not_lt.mp old) (by unfold newest at future; omega)
      by_cases added : x ∈ slots
      · simp [future, old, added, window.mpr added]
      · simp [future, old, added, mt window.mp added]

theorem Records.foldl (records : history.Records slots) (positive : 0 < history.nextSlot)
    {later : List Nat} (increasing : (history.newest :: later).IsChain (· < ·))
    (fits : ∀ s ∈ later, s < maxValue 64) :
    (later.foldl SlotHistory.add history).Records (slots ++ later) ∧
      (later.foldl SlotHistory.add history).nextSlot = later.getLastD history.newest + 1 := by
  induction later generalizing history slots with
  | nil =>
    refine ⟨by simpa using records, ?_⟩
    simp only [List.foldl_nil, List.getLastD_nil, newest]
    omega
  | cons slot later ih =>
    rw [List.isChain_cons_cons] at increasing
    have fitsSlot := fits slot List.mem_cons_self
    have newest_add : (history.add slot).newest = slot := by
      rw [newest, nextSlot_add history fitsSlot, Nat.add_sub_cancel]
    have step := records.add (show history.nextSlot ≤ slot by unfold newest at increasing; omega)
      fitsSlot
    obtain ⟨records', next'⟩ := ih step (by rw [nextSlot_add history fitsSlot]; omega)
      (by rw [newest_add]; exact increasing.2) (fun s mem => fits s (List.mem_cons_of_mem _ mem))
    rw [List.append_assoc, List.singleton_append] at records'
    rw [newest_add] at next'
    rw [List.foldl_cons, List.getLastD_cons]
    exact ⟨records', next'⟩

end SlotHistory

open SlotHistory in
theorem slotHistory_check (slots : List Nat) (increasing : (0 :: slots).IsChain (· < ·))
    (fits : ∀ s ∈ slots, s < maxValue 64) (x : Nat) :
    (slots.foldl add SlotHistory.default).nextSlot = slots.getLastD 0 + 1 ∧
    ((slots.foldl add SlotHistory.default).check x = .future ↔ slots.getLastD 0 < x) ∧
    ((slots.foldl add SlotHistory.default).check x = .tooOld ↔
      x < (slots.foldl add SlotHistory.default).nextSlot - maxEntries) ∧
    ((slots.foldl add SlotHistory.default).check x = .found ↔ x ≤ slots.getLastD 0 ∧
      (slots.foldl add SlotHistory.default).nextSlot - maxEntries ≤ x ∧ x ∈ 0 :: slots) ∧
    ((slots.foldl add SlotHistory.default).check x = .notFound ↔ x ≤ slots.getLastD 0 ∧
      (slots.foldl add SlotHistory.default).nextSlot - maxEntries ≤ x ∧ x ∉ 0 :: slots) := by
  obtain ⟨records, next⟩ := default_records.foldl (by decide) increasing fits
  rw [show SlotHistory.default.newest = 0 from rfl] at next
  rw [records.check_eq (by omega) x, List.singleton_append, newest, oldest, next,
    Nat.add_sub_cancel]
  refine ⟨rfl, ?_⟩
  by_cases future : slots.getLastD 0 < x
  · rw [if_pos future]
    exact ⟨iff_of_true rfl future, iff_of_false (by decide) (by omega),
      iff_of_false (by decide) (fun found => absurd found.1 (by omega)),
      iff_of_false (by decide) (fun notFound => absurd notFound.1 (by omega))⟩
  · by_cases old : x < slots.getLastD 0 + 1 - maxEntries
    · rw [if_neg future, if_pos old]
      exact ⟨iff_of_false (by decide) future, iff_of_true rfl old,
        iff_of_false (by decide) (fun found => absurd found.2.1 (by omega)),
        iff_of_false (by decide) (fun notFound => absurd notFound.2.1 (by omega))⟩
    · rw [if_neg future, if_neg old]
      by_cases added : x ∈ 0 :: slots
      · rw [if_pos added]
        exact ⟨iff_of_false (by decide) future, iff_of_false (by decide) old,
          iff_of_true rfl ⟨by omega, by omega, added⟩,
          iff_of_false (by decide) (fun notFound => notFound.2.2 added)⟩
      · rw [if_neg added]
        exact ⟨iff_of_false (by decide) future, iff_of_false (by decide) old,
          iff_of_false (by decide) (fun found => added found.2.2),
          iff_of_true rfl ⟨by omega, by omega, added⟩⟩

open SlotHistory in
theorem slotHistory_check_seven :
    ([0, 7] : List Nat).IsChain (· < ·) ∧ (∀ s ∈ [7], s < maxValue 64) ∧
    ([7].foldl add SlotHistory.default).nextSlot = [7].getLastD 0 + 1 ∧
    (([7].foldl add SlotHistory.default).check 7 = .future ↔ [7].getLastD 0 < 7) ∧
    (([7].foldl add SlotHistory.default).check 7 = .tooOld ↔
      7 < ([7].foldl add SlotHistory.default).nextSlot - maxEntries) ∧
    (([7].foldl add SlotHistory.default).check 7 = .found ↔ 7 ≤ [7].getLastD 0 ∧
      ([7].foldl add SlotHistory.default).nextSlot - maxEntries ≤ 7 ∧ 7 ∈ [0, 7]) ∧
    (([7].foldl add SlotHistory.default).check 7 = .notFound ↔ 7 ≤ [7].getLastD 0 ∧
      ([7].foldl add SlotHistory.default).nextSlot - maxEntries ≤ 7 ∧ 7 ∉ [0, 7]) :=
  ⟨by decide, by simp [maxValue], slotHistory_check [7] (by decide) (by simp [maxValue]) 7⟩

end Sysvar
