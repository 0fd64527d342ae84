import Mathlib

/-! Loops of the `Option` monad, where `none` is a failure: the rule that proves a loop never fails
and ends in an invariant, from one iteration at each position of the list. -/

namespace OptionLoop

variable {σ β : Type*}

theorem foldlM_invariant {f : σ → β → Option σ} {l : List β} (inv : List β → σ → Prop)
    (step : ∀ done x rest acc, l = done ++ x :: rest → inv done acc → ∃ acc', f acc x = some acc' ∧ inv (done ++ [x]) acc')
    {init : σ} (initial : inv [] init) : ∃ result, l.foldlM f init = some result ∧ inv l result := by
  suffices loop : ∀ rest done acc, l = done ++ rest → inv done acc →
      ∃ result, rest.foldlM f acc = some result ∧ inv l result from loop l [] init rfl initial
  intro rest
  induction rest with
  | nil =>
    intro done acc whole holds
    exact ⟨acc, rfl, by simpa [whole] using holds⟩
  | cons x rest ih =>
    intro done acc whole holds
    obtain ⟨acc', moved, holds'⟩ := step done x rest acc whole holds
    obtain ⟨result, ran, final⟩ := ih (done ++ [x]) acc' (by simp [whole]) holds'
    exact ⟨result, by simp [List.foldlM_cons, moved, ran], final⟩

end OptionLoop
