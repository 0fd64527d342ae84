import Mathlib

/-! A table of results filled on demand, as `slots[index].get_or_insert_with(compute)` fills an
array of `Option`s: the first lookup of an index computes the result and stores it, later lookups of
the index read it back, and an index past the table panics. Where every lookup of an index asks for
the result of the same key, the table answers what computing the result each time would. -/

namespace Memo

variable {β : Type*}

/-- `none` where the index is out of range: `get_mut(index).expect(..)` panics. -/
def getOrInsertWith (slots : List (Option β)) (index : Nat) (compute : Unit → β) : Option (β × List (Option β)) :=
  match slots[index]? with
  | none => none
  | some (some stored) => some (stored, slots)
  | some none =>
    let result := compute ()
    some (result, slots.set index (some result))

/-- Every stored result is the one `result` gives its index. -/
def Consistent (result : Nat → β) (slots : List (Option β)) : Prop :=
  ∀ index stored, slots[index]? = some (some stored) → stored = result index

theorem consistent_replicate (result : Nat → β) (size : Nat) : Consistent result (List.replicate size none) := by
  intro index stored found
  rw [List.getElem?_replicate] at found
  split_ifs at found
  cases found

theorem getOrInsertWith_of_consistent {result : Nat → β} {slots : List (Option β)} (consistent : Consistent result slots)
    (index : Nat) (inRange : index < slots.length) :
    ∃ slots', getOrInsertWith slots index (fun _ => result index) = some (result index, slots') ∧
      Consistent result slots' ∧ slots'.length = slots.length := by
  unfold getOrInsertWith
  cases found : slots[index]? with
  | none => exact absurd found (List.getElem?_eq_none_iff.not.mpr (by omega))
  | some slot =>
    cases slot with
    | some stored =>
      rw [consistent index stored found]
      exact ⟨slots, rfl, consistent, rfl⟩
    | none =>
      refine ⟨slots.set index (some (result index)), rfl, ?_, List.length_set⟩
      intro index' stored stored'
      rw [List.getElem?_set] at stored'
      split_ifs at stored' with same
      · cases stored'
        rw [same]
      · exact consistent index' stored stored'

end Memo
