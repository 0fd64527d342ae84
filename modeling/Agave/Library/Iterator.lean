import Mathlib

/-! An iterator given by its `next`: a function from a state to what it yields, `none` once it is
done, and the state after. `collect` is what a `for` loop or `Iterator::collect` sees of it, with
a bound on the calls of `next`; `collect_of_countdown` is the rule for an iterator that is known
to yield a given number of items and then stop. A `next` that reads its item with reads that may
fail is written in `OptionT (StateM σ)`: a failed read ends it with `none`, in the state the reads
before it left. -/

namespace Iterator

variable {σ α : Type}

/-- The items up to the first `none`, and the state `next` left then; `none` when `fuel` calls
of `next` were not enough to reach it. -/
def collect (next : σ → Option α × σ) : Nat → σ → Option (List α × σ)
  | 0, _ => none
  | fuel + 1, state =>
    match next state with
    | (none, state) => some ([], state)
    | (some item, state) => (collect next fuel state).map fun (items, last) => (item :: items, last)

@[simp]
theorem collect_succ_of_none {next : σ → Option α × σ} {state state' : σ} (fuel : Nat)
    (stops : next state = (none, state')) : collect next (fuel + 1) state = some ([], state') := by
  rw [collect, stops]

@[simp]
theorem collect_succ_of_some {next : σ → Option α × σ} {state state' : σ} {item : α} (fuel : Nat)
    (yields : next state = (some item, state')) :
    collect next (fuel + 1) state =
      (collect next fuel state').map fun (items, last) => (item :: items, last) := by
  rw [collect, yields]

section Countdown

variable {next : σ → Option α × σ} {P : Nat → List α → σ → Prop}

theorem collect_of_countdown
    (step : ∀ k done state, P (k + 1) done state →
      ∃ item state', next state = (some item, state') ∧ P k (done ++ [item]) state')
    (stop : ∀ done state, P 0 done state → next state = (none, state)) :
    ∀ k done state, P k done state →
      ∃ items last, collect next (k + 1) state = some (items, last) ∧ items.length = k ∧
        P 0 (done ++ items) last := by
  intro k
  induction k with
  | zero =>
    intro done state done_state
    refine ⟨[], state, collect_succ_of_none 0 (stop done state done_state), rfl, ?_⟩
    rwa [List.append_nil]
  | succ k ih =>
    intro done state more
    obtain ⟨item, state', yields, rest⟩ := step k done state more
    obtain ⟨items, last, collected, length, ends⟩ := ih (done ++ [item]) state' rest
    refine ⟨item :: items, last, ?_, by rw [List.length_cons, length], ?_⟩
    · rw [collect_succ_of_some (k + 1) yields, collected]
      rfl
    · rwa [List.append_cons]

end Countdown

theorem run_bind_of_some {β : Type} {x : OptionT (StateM σ) α} {f : α → OptionT (StateM σ) β} {state state' : σ}
    {a : α} (first : x.run.run state = (some a, state')) : (x >>= f).run.run state = (f a).run.run state' := by
  simp only [OptionT.run_bind, Option.elimM, StateT.run_bind, first]
  rfl

end Iterator
