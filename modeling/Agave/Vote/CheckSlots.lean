import Mathlib
import Agave.Library.List
import Agave.Vote.Program

/-! `check_slots_are_valid` against what it decides. Its loop walks the vote slots upward from the
oldest and the slot hashes from the oldest, the back of the list, toward the newest. Over vote slots
in increasing and slot hashes in decreasing order it is a merge: where the two indices stop says
whether a vote slot was newer than the last vote, whether every newer one was found, and which slot
hash the newest one matched. -/

namespace VoteProgram

open VoteState

/-- A slot above the last voted slot, or any slot before the first vote. -/
def IsNewer (lastVotedSlot : Option Slot) (slot : Slot) : Prop := ∀ voted ∈ lastVotedSlot, voted < slot

instance (lastVotedSlot : Option Slot) (slot : Slot) : Decidable (IsNewer lastVotedSlot slot) :=
  inferInstanceAs (Decidable (∀ voted ∈ lastVotedSlot, voted < slot))

theorem any_le_iff_not_isNewer {lastVotedSlot : Option Slot} {slot : Slot} :
    lastVotedSlot.any (slot ≤ ·) = true ↔ ¬ IsNewer lastVotedSlot slot := by
  cases lastVotedSlot <;> simp [IsNewer]

theorem IsNewer.mono {lastVotedSlot : Option Slot} {slot slot' : Slot} (newer : IsNewer lastVotedSlot slot)
    (le : slot ≤ slot') : IsNewer lastVotedSlot slot' :=
  fun voted mem => lt_of_lt_of_le (newer voted mem) le

/-- What `check_slots_are_valid` decides over vote slots in increasing and slot hashes in decreasing
order: a vote with no slot above the last voted one, or a history without slot hashes, is too old; a
newer slot missing from the history is a mismatch, and so is a hash other than the vote's paired
with its newest slot. -/
def slotsValidity (vs : VoteState) (voteSlots : List Slot) (voteHash : Hash) (slotHashes : List (Slot × Hash)) :
    Except VoteError Unit :=
  if (∀ slot ∈ voteSlots, ¬ IsNewer vs.lastVotedSlot slot) ∨ slotHashes = [] then .error .voteTooOld
  else if ∃ slot ∈ voteSlots, IsNewer vs.lastVotedSlot slot ∧ slot ∉ slotHashes.map (·.1) then .error .slotsMismatch
  else if ∃ largest ∈ voteSlots.getLast?, ∃ entry ∈ slotHashes, entry.1 = largest ∧ entry.2 ≠ voteHash then
    .error .slotHashMismatch
  else .ok ()

section Scan

variable {lastVotedSlot : Option Slot} {voteSlots : List Slot} {slotHashes : List (Slot × Hash)}

theorem checkSlotsScan_snd_le (i j : Nat) (bound : j ≤ slotHashes.length) :
    (checkSlotsScan lastVotedSlot voteSlots slotHashes i j bound).2 ≤ j := by
  induction i, j, bound using checkSlotsScan.induct lastVotedSlot voteSlots slotHashes with
  | case1 i j bound inside _ old ih => rwa [checkSlotsScan_old inside old]
  | case2 i j bound inside older new differs ih =>
    rw [checkSlotsScan_skip inside older new differs]
    omega
  | case3 i j bound inside older new same ih =>
    rw [checkSlotsScan_found inside older new (not_not.1 same)]
    omega
  | case4 i j bound done => rw [checkSlotsScan_done done]

theorem checkSlotsScan_snd_eq_iff (i j : Nat) (bound : j ≤ slotHashes.length) :
    (checkSlotsScan lastVotedSlot voteSlots slotHashes i j bound).2 = j ↔
      j = 0 ∨ ∀ k (inside : k < voteSlots.length), i ≤ k → ¬ IsNewer lastVotedSlot voteSlots[k] := by
  induction i, j, bound using checkSlotsScan.induct lastVotedSlot voteSlots slotHashes with
  | case1 i j bound inside _ old ih =>
    rw [checkSlotsScan_old inside old, ih]
    have oldSlot := any_le_iff_not_isNewer.1 old
    constructor
    · rintro (empty | later)
      · exact .inl empty
      · refine .inr fun k below ik => ?_
        rcases Nat.eq_or_lt_of_le ik with rfl | after
        · exact oldSlot
        · exact later k below after
    · rintro (empty | later)
      · exact .inl empty
      · exact .inr fun k below ik => later k below (by omega)
  | case2 i j bound inside older new differs ih =>
    rw [checkSlotsScan_skip inside older new differs]
    have moved : (checkSlotsScan lastVotedSlot voteSlots slotHashes i (j - 1) (by omega)).2 ≤ j - 1 :=
      checkSlotsScan_snd_le i (j - 1) _
    have newer := not_not.1 (mt any_le_iff_not_isNewer.2 new)
    constructor
    · intro stays
      omega
    · rintro (empty | later)
      · omega
      · exact absurd newer (later i inside.1 le_rfl)
  | case3 i j bound inside older new same ih =>
    rw [checkSlotsScan_found inside older new (not_not.1 same)]
    have moved : (checkSlotsScan lastVotedSlot voteSlots slotHashes (i + 1) (j - 1) (by omega)).2 ≤ j - 1 :=
      checkSlotsScan_snd_le (i + 1) (j - 1) _
    have newer := not_not.1 (mt any_le_iff_not_isNewer.2 new)
    constructor
    · intro stays
      omega
    · rintro (empty | later)
      · omega
      · exact absurd newer (later i inside.1 le_rfl)
  | case4 i j bound done =>
    rw [checkSlotsScan_done done]
    refine ⟨fun _ => ?_, fun _ => rfl⟩
    rcases Nat.eq_zero_or_pos j with empty | positive
    · exact .inl empty
    · exact .inr fun k below ik => absurd ⟨by omega, positive⟩ done

theorem mem_take_of_ne_oldest {j : Nat} (older : j - 1 < slotHashes.length) (positive : 0 < j) {slot : Slot}
    (differs : slot ≠ slotHashes[j - 1].1) :
    slot ∈ (slotHashes.map (·.1)).take j ↔ slot ∈ (slotHashes.map (·.1)).take (j - 1) := by
  have split := List.mem_take_add_one_iff (l := slotHashes.map (·.1)) (n := j - 1) (by simpa using older)
    (x := slot)
  rw [Nat.sub_add_cancel positive] at split
  simp only [List.getElem_map] at split
  rw [split, or_iff_left differs]

/-- Over vote slots in increasing and slot hashes in decreasing order, the scan reaches the end of
the vote slots exactly when every newer vote slot from `i` on is among the slot hashes left, and a
slot hash is left unless no vote slot is. -/
theorem checkSlotsScan_fst_eq_iff (increasing : voteSlots.Pairwise (· < ·))
    (decreasing : (slotHashes.map (·.1)).Pairwise (· > ·)) (i j : Nat) (bound : j ≤ slotHashes.length)
    (start : i ≤ voteSlots.length) :
    (checkSlotsScan lastVotedSlot voteSlots slotHashes i j bound).1 = voteSlots.length ↔
      (i = voteSlots.length ∨ 0 < j) ∧ ∀ k (inside : k < voteSlots.length), i ≤ k →
        IsNewer lastVotedSlot voteSlots[k] → voteSlots[k] ∈ (slotHashes.map (·.1)).take j := by
  have ascending : ∀ a b (ha : a < voteSlots.length) (hb : b < voteSlots.length), a < b → voteSlots[a] < voteSlots[b] :=
    fun a b ha hb => List.pairwise_iff_getElem.1 increasing a b ha hb
  induction i, j, bound using checkSlotsScan.induct lastVotedSlot voteSlots slotHashes with
  | case1 i j bound inside _ old ih =>
    rw [checkSlotsScan_old inside old]
    refine (ih inside.1).trans ?_
    have oldSlot := any_le_iff_not_isNewer.1 old
    constructor
    · rintro ⟨-, later⟩
      refine ⟨.inr inside.2, fun k below ik newer => ?_⟩
      rcases Nat.eq_or_lt_of_le ik with rfl | after
      · exact absurd newer oldSlot
      · exact later k below after newer
    · rintro ⟨-, later⟩
      exact ⟨.inr inside.2, fun k below ik => later k below (by omega)⟩
  | case2 i j bound inside older new differs ih =>
    rw [checkSlotsScan_skip inside older new differs]
    refine (ih start).trans ?_
    have newer := not_not.1 (mt any_le_iff_not_isNewer.2 new)
    have shrink : (slotHashes.map (·.1)).take (j - 1) ⊆ (slotHashes.map (·.1)).take j :=
      List.take_subset_take_left _ (by omega)
    constructor
    · rintro ⟨-, later⟩
      exact ⟨.inr inside.2, fun k below ik newerK => shrink (later k below ik newerK)⟩
    · rintro ⟨-, later⟩
      have found := (mem_take_of_ne_oldest older inside.2 differs).1 (later i inside.1 le_rfl newer)
      have above : slotHashes[j - 1].1 < voteSlots[i] := by
        have ordered := decreasing.rel_of_mem_take (by simpa using older) found
        rwa [List.getElem_map] at ordered
      refine ⟨.inr (List.pos_of_mem_take found), fun k below ik newerK => ?_⟩
      have ordered : voteSlots[i] ≤ voteSlots[k] := by
        rcases Nat.eq_or_lt_of_le ik with rfl | after
        · exact le_rfl
        · exact le_of_lt (ascending i k inside.1 below after)
      exact (mem_take_of_ne_oldest older inside.2 (lt_of_lt_of_le above ordered).ne').1 (later k below ik newerK)
  | case3 i j bound inside older new same ih =>
    rw [checkSlotsScan_found inside older new (not_not.1 same)]
    refine (ih (by omega)).trans ?_
    have newer := not_not.1 (mt any_le_iff_not_isNewer.2 new)
    have matched : voteSlots[i] ∈ (slotHashes.map (·.1)).take j := by
      have split := List.mem_take_add_one_iff (l := slotHashes.map (·.1)) (n := j - 1) (by simpa using older)
        (x := voteSlots[i])
      rw [Nat.sub_add_cancel inside.2] at split
      simpa [not_not.1 same] using split
    have later_ne : ∀ k (below : k < voteSlots.length), i < k → voteSlots[k] ≠ slotHashes[j - 1].1 := by
      intro k below after
      have above := ascending i k inside.1 below after
      rw [not_not.1 same] at above
      exact above.ne'
    constructor
    · rintro ⟨-, later⟩
      refine ⟨.inr inside.2, fun k below ik newerK => ?_⟩
      rcases Nat.eq_or_lt_of_le ik with rfl | after
      · exact matched
      · exact List.take_subset_take_left _ (by omega) (later k below after newerK)
    · rintro ⟨-, later⟩
      have rest : ∀ k (below : k < voteSlots.length), i + 1 ≤ k → IsNewer lastVotedSlot voteSlots[k] →
          voteSlots[k] ∈ (slotHashes.map (·.1)).take (j - 1) := fun k below ik newerK =>
        (mem_take_of_ne_oldest older inside.2 (later_ne k below ik)).1 (later k below (by omega) newerK)
      refine ⟨?_, rest⟩
      by_cases last : i + 1 = voteSlots.length
      · exact .inl last
      · have next : i + 1 < voteSlots.length := by omega
        have newerNext := newer.mono (le_of_lt (ascending i (i + 1) inside.1 next (by omega)))
        exact .inr (List.pos_of_mem_take (rest (i + 1) next le_rfl newerNext))
  | case4 i j bound done =>
    rw [checkSlotsScan_done done]
    constructor
    · intro (atEnd : i = voteSlots.length)
      exact ⟨.inl atEnd, fun k below ik => absurd below (by omega)⟩
    · rintro ⟨atEnd | positive, -⟩
      · exact atEnd
      · show i = voteSlots.length
        omega

theorem checkSlotsScan_newest (increasing : voteSlots.Pairwise (· < ·)) (i j : Nat) (bound : j ≤ slotHashes.length)
    (pending : ∃ k, ∃ (inside : k < voteSlots.length), i ≤ k ∧ IsNewer lastVotedSlot voteSlots[k])
    (found : (checkSlotsScan lastVotedSlot voteSlots slotHashes i j bound).1 = voteSlots.length) :
    (slotHashes.map (·.1))[(checkSlotsScan lastVotedSlot voteSlots slotHashes i j bound).2]? =
      voteSlots.getLast? := by
  induction i, j, bound using checkSlotsScan.induct lastVotedSlot voteSlots slotHashes with
  | case1 i j bound inside _ old ih =>
    rw [checkSlotsScan_old inside old] at found ⊢
    obtain ⟨k, below, ik, newer⟩ := pending
    have after : i ≠ k := by
      rintro rfl
      exact any_le_iff_not_isNewer.1 old newer
    exact ih ⟨k, below, by omega, newer⟩ found
  | case2 i j bound inside older new differs ih =>
    rw [checkSlotsScan_skip inside older new differs] at found ⊢
    exact ih pending found
  | case3 i j bound inside older new same ih =>
    rw [checkSlotsScan_found inside older new (not_not.1 same)] at found ⊢
    have newer := not_not.1 (mt any_le_iff_not_isNewer.2 new)
    by_cases more : i + 1 < voteSlots.length
    · have ordered := List.pairwise_iff_getElem.1 increasing i (i + 1) inside.1 more (by omega)
      exact ih ⟨i + 1, more, le_rfl, newer.mono (le_of_lt ordered)⟩ found
    · have last : i + 1 = voteSlots.length := by omega
      rw [checkSlotsScan_done (by omega)]
      show (slotHashes.map (·.1))[j - 1]? = voteSlots.getLast?
      rw [List.getLast?_eq_getElem?, ← last, Nat.add_sub_cancel, List.getElem?_eq_getElem inside.1,
        List.getElem?_map, List.getElem?_eq_getElem older, not_not.1 same]
      rfl
  | case4 i j bound done =>
    rw [checkSlotsScan_done done] at found
    obtain ⟨k, below, ik, -⟩ := pending
    have atEnd : i = voteSlots.length := found
    omega

end Scan

/-- `check_slots_are_valid` over vote slots in increasing and slot hashes in decreasing order is
`slotsValidity`, and the slot hash it reads after the scan is inside the list. -/
theorem checkSlotsAreValid_eq_slotsValidity (vs : VoteState) (voteSlots : List Slot) (voteHash : Hash)
    (slotHashes : List (Slot × Hash)) (increasing : voteSlots.Pairwise (· < ·))
    (decreasing : (slotHashes.map (·.1)).Pairwise (· > ·)) :
    checkSlotsAreValid vs voteSlots voteHash slotHashes = slotsValidity vs voteSlots voteHash slotHashes ∧
      (checkSlotsScan vs.lastVotedSlot voteSlots slotHashes 0 slotHashes.length le_rfl).2 ≤ slotHashes.length := by
  have within := @checkSlotsScan_snd_le vs.lastVotedSlot voteSlots slotHashes 0 slotHashes.length le_rfl
  refine ⟨?_, within⟩
  have stale := @checkSlotsScan_snd_eq_iff vs.lastVotedSlot voteSlots slotHashes 0 slotHashes.length le_rfl
  have complete := @checkSlotsScan_fst_eq_iff vs.lastVotedSlot voteSlots slotHashes increasing decreasing 0
    slotHashes.length le_rfl (Nat.zero_le _)
  have newest := @checkSlotsScan_newest vs.lastVotedSlot voteSlots slotHashes increasing 0 slotHashes.length le_rfl
  unfold checkSlotsAreValid slotsValidity
  generalize checkSlotsScan vs.lastVotedSlot voteSlots slotHashes 0 slotHashes.length le_rfl = result
    at within stale complete newest ⊢
  obtain ⟨i, j⟩ := result
  dsimp only at within stale complete newest ⊢
  have tooOld : j = slotHashes.length ↔ (∀ slot ∈ voteSlots, ¬IsNewer vs.lastVotedSlot slot) ∨ slotHashes = [] := by
    rw [stale, List.forall_mem_iff_getElem, ← List.length_eq_zero_iff]
    simp only [Nat.zero_le, true_implies]
    exact or_comm
  by_cases old : (∀ slot ∈ voteSlots, ¬IsNewer vs.lastVotedSlot slot) ∨ slotHashes = []
  · rw [if_pos (tooOld.2 old), if_pos old]
  rw [if_neg (mt tooOld.1 old), if_neg old]
  have moved : j < slotHashes.length := lt_of_le_of_ne within (mt tooOld.1 old)
  push Not at old
  obtain ⟨⟨slot, mem, newer⟩, nonempty⟩ := old
  have allFound : i = voteSlots.length ↔
      ∀ slot ∈ voteSlots, IsNewer vs.lastVotedSlot slot → slot ∈ slotHashes.map (·.1) := by
    have whole : (slotHashes.map (·.1)).take slotHashes.length = slotHashes.map (·.1) :=
      List.take_of_length_le (by simp)
    rw [complete, List.forall_mem_iff_getElem, whole]
    simp only [List.length_pos_of_ne_nil nonempty, or_true, true_and, Nat.zero_le, true_implies]
  by_cases missing : ∃ slot ∈ voteSlots, IsNewer vs.lastVotedSlot slot ∧ slot ∉ slotHashes.map (·.1)
  · have notAtEnd : i ≠ voteSlots.length := by
      intro atEnd
      obtain ⟨other, otherMem, otherNewer, absent⟩ := missing
      exact absent (allFound.1 atEnd other otherMem otherNewer)
    rw [if_pos notAtEnd, if_pos missing]
  have atEnd : i = voteSlots.length := by
    refine allFound.2 fun other otherMem otherNewer => ?_
    by_contra absent
    exact missing ⟨other, otherMem, otherNewer, absent⟩
  rw [if_neg (not_not.2 atEnd), if_neg missing]
  obtain ⟨k, below, rfl⟩ := List.mem_iff_getElem.1 mem
  have last := newest ⟨k, below, Nat.zero_le k, newer⟩ atEnd
  rw [List.getElem?_map, List.getElem?_eq_getElem moved] at last
  have unique : (slotHashes.map (·.1)).Nodup := decreasing.nodup
  have mismatch : slotHashes[j]?.map Prod.snd ≠ some voteHash ↔
      ∃ largest ∈ voteSlots.getLast?, ∃ entry ∈ slotHashes, entry.1 = largest ∧ entry.2 ≠ voteHash := by
    rw [List.getElem?_eq_getElem moved, ← last]
    constructor
    · intro differs
      refine ⟨_, rfl, slotHashes[j], List.getElem_mem moved, rfl, fun same => differs ?_⟩
      simp [same]
    · rintro ⟨largest, isLargest, entry, entryMem, sameSlot, differs⟩
      simp only [Option.map_some, Option.mem_def, Option.some.injEq] at isLargest ⊢
      obtain ⟨m, hm, rfl⟩ := List.mem_iff_getElem.1 entryMem
      have atJ := List.Nodup.index_eq_of_map unique (List.getElem?_eq_getElem hm)
        (List.getElem?_eq_getElem moved) (sameSlot.trans isLargest.symm)
      subst atJ
      exact fun same => differs (Option.some.inj same)
  by_cases wrongHash : slotHashes[j]?.map Prod.snd ≠ some voteHash
  · rw [if_pos wrongHash, if_pos (mismatch.1 wrongHash)]
  · rw [if_neg wrongHash, if_neg (mt mismatch.2 wrongHash)]

theorem checkSlotsAreValid_eq_slotsValidity_three :
    [3, 5].Pairwise (· < ·) ∧ (([(5, 9), (4, 1), (3, 2)] : List (Slot × Hash)).map (·.1)).Pairwise (· > ·) ∧
      checkSlotsAreValid default [3, 5] 9 [(5, 9), (4, 1), (3, 2)] =
        slotsValidity default [3, 5] 9 [(5, 9), (4, 1), (3, 2)] :=
  ⟨by decide, by decide, (checkSlotsAreValid_eq_slotsValidity default [3, 5] 9 _ (by decide) (by decide)).1⟩

/-- With no slot hash at all, a vote whose slot is newer than the last vote is too old rather than a
mismatch; and a vote slot given twice is a mismatch although the newer slot is in the history with
the vote's hash. -/
theorem checkSlotsAreValid_empty_or_repeated :
    let fresh : VoteState := ⟨[], none, [], ⟨0, 0⟩⟩
    checkSlotsAreValid fresh [5] 0 [] = .error .voteTooOld ∧ IsNewer fresh.lastVotedSlot 5 ∧
      checkSlotsAreValid fresh [5, 5] 7 [(5, 7)] = .error .slotsMismatch ∧ [5, 5].Pairwise (· ≤ ·) ∧
      (∀ slot ∈ [5, 5], IsNewer fresh.lastVotedSlot slot ∧ (slot, 7) ∈ [(5, 7)]) := by
  intro fresh
  refine ⟨?_, by decide, ?_, by decide, by decide⟩ <;>
    simp [fresh, checkSlotsAreValid, checkSlotsScan, VoteState.lastVotedSlot, VoteState.lastLockout]

end VoteProgram
