import Mathlib

namespace StateMachine

variable {σ : Type*}

/-- States reached from `init` by any number of steps. -/
def Reachable (step : σ → σ → Prop) (init : σ) : σ → Prop := Relation.ReflTransGen step init

/-- `inv` holds after every step taken from a state where it holds. -/
def Preserved (step : σ → σ → Prop) (inv : σ → Prop) : Prop :=
  ∀ ⦃s t : σ⦄, inv s → step s t → inv t

theorem Reachable.refl (step : σ → σ → Prop) (init : σ) : Reachable step init init :=
  Relation.ReflTransGen.refl

theorem Reachable.tail {step : σ → σ → Prop} {init s t : σ}
    (reach : Reachable step init s) (next : step s t) : Reachable step init t :=
  Relation.ReflTransGen.tail reach next

theorem Preserved.reachable {step : σ → σ → Prop} {inv : σ → Prop} {init s : σ}
    (preserved : Preserved step inv) (initial : inv init) (reach : Reachable step init s) : inv s := by
  induction reach with
  | refl => exact initial
  | tail _ next ih => exact preserved ih next

/-- The induction rule for a relation between two states of a run: a reflexive and transitive
relation that every step from a state of the invariant establishes holds from such a state to every
state reached from it. -/
theorem Preserved.reflTransGen_rel {step : σ → σ → Prop} {inv : σ → Prop} {rel : σ → σ → Prop}
    (preserved : Preserved step inv) (refl : ∀ s, rel s s) (trans : ∀ {a b c}, rel a b → rel b c → rel a c)
    (single : ∀ ⦃s t⦄, inv s → step s t → rel s t) {s t : σ} (holds : inv s)
    (steps : Relation.ReflTransGen step s t) : rel s t := by
  have both : inv t ∧ rel s t := by
    induction steps with
    | refl => exact ⟨holds, refl s⟩
    | tail _ next ih => exact ⟨preserved ih.1 next, trans ih.2 (single ih.1 next)⟩
  exact both.2

theorem Preserved.and {step : σ → σ → Prop} {p q : σ → Prop}
    (hp : Preserved step p) (hq : Preserved step q) : Preserved step (fun s => p s ∧ q s) :=
  fun _ _ inv next => ⟨hp inv.1 next, hq inv.2 next⟩

theorem Preserved.mono {step step' : σ → σ → Prop} {inv : σ → Prop}
    (preserved : Preserved step' inv) (sub : ∀ s t, step s t → step' s t) : Preserved step inv :=
  fun _ _ holds next => preserved holds (sub _ _ next)

section Actions

variable {α : Type*}

/-- A machine driven by actions: an action `allowed` in a state moves it to `next`. -/
def ActionStep (allowed : σ → α → Prop) (next : σ → α → σ) (s t : σ) : Prop :=
  ∃ a, allowed s a ∧ t = next s a

/-- Every action of a sequence is allowed in the state that the actions before it lead to. -/
def AllowedRun (allowed : σ → α → Prop) (next : σ → α → σ) : σ → List α → Prop
  | _, [] => True
  | s, a :: rest => allowed s a ∧ AllowedRun allowed next (next s a) rest

theorem Reachable.foldl {allowed : σ → α → Prop} {next : σ → α → σ} {init : σ} :
    ∀ (actions : List α) {s : σ}, Reachable (ActionStep allowed next) init s →
      AllowedRun allowed next s actions → Reachable (ActionStep allowed next) init (actions.foldl next s)
  | [], _, reach, _ => reach
  | a :: rest, _, reach, ⟨allowed, restAllowed⟩ =>
    Reachable.foldl rest (reach.tail ⟨a, allowed, rfl⟩) restAllowed

/-- A machine whose actions may fail: an action `allowed` in a state moves it to what `next`
returns, and an action that fails moves it nowhere. -/
def PartialActionStep (allowed : σ → α → Prop) (next : σ → α → Option σ) (s t : σ) : Prop :=
  ∃ a, allowed s a ∧ next s a = some t

theorem PartialActionStep.of_isSome {allowed : σ → α → Prop} {next : σ → α → Option σ} {s : σ} {a : α}
    (isAllowed : allowed s a) (succeeds : (next s a).isSome) : PartialActionStep allowed next s ((next s a).getD s) := by
  obtain ⟨t, moved⟩ := Option.isSome_iff_exists.mp succeeds
  exact ⟨a, isAllowed, by rw [moved]; rfl⟩

theorem Preserved.partialActionStep {allowed : σ → α → Prop} {next : σ → α → Option σ} {inv : σ → Prop}
    (step : ∀ s a, inv s → allowed s a → ∃ t, next s a = some t ∧ inv t) :
    Preserved (PartialActionStep allowed next) inv := by
  rintro s t holds ⟨a, isAllowed, moved⟩
  obtain ⟨t', moved', holds'⟩ := step s a holds isAllowed
  rw [moved, Option.some.injEq] at moved'
  exact moved' ▸ holds'

end Actions

end StateMachine
