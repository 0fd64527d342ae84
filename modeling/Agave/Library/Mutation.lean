import Mathlib

/-! Methods on `&mut self` that return a `Result`, as `EStateM` actions: the state after an error
is what the method wrote before it failed. -/

namespace Mutation

universe u

section Apply

variable {ε σ α β : Type u}

@[simp] theorem bind_apply (x : EStateM ε σ α) (f : α → EStateM ε σ β) (s : σ) :
    (x >>= f) s = match x s with
      | .ok a s' => f a s'
      | .error e s' => .error e s' := rfl

@[simp] theorem get_apply (s : σ) : (get : EStateM ε σ σ) s = .ok s s := rfl

@[simp] theorem modify_apply (f : σ → σ) (s : σ) : (modify f : EStateM ε σ PUnit) s = .ok ⟨⟩ (f s) := rfl

@[simp] theorem throw_apply (e : ε) (s : σ) : (throw e : EStateM ε σ α) s = .error e s := rfl

@[simp] theorem ite_apply (c : Prop) [Decidable c] (x y : EStateM ε σ α) (s : σ) :
    (if c then x else y) s = if c then x s else y s := by
  split <;> rfl

@[simp] theorem pure_apply (a : α) (s : σ) : (pure a : EStateM ε σ α) s = .ok a s := rfl

/-- A computation that only reads, run as an action: `?` on a `Result` inside a `&mut self` method. -/
def ofExcept (x : Except ε α) : EStateM ε σ α := fun s =>
  match x with
  | .ok a => .ok a s
  | .error e => .error e s

@[simp] theorem ofExcept_ok (a : α) (s : σ) : (ofExcept (.ok a) : EStateM ε σ α) s = .ok a s := rfl

@[simp] theorem ofExcept_error (e : ε) (s : σ) : (ofExcept (.error e) : EStateM ε σ α) s = .error e s := rfl

end Apply

variable {ε σ α : Type u} {β : Type*}

/-- The state after an action, whether it succeeded or failed. -/
def stateAfter : EStateM.Result ε σ α → σ
  | .ok _ s => s
  | .error _ s => s

@[simp] theorem stateAfter_ok (a : α) (s : σ) : stateAfter (.ok a s : EStateM.Result ε σ α) = s := rfl

@[simp] theorem stateAfter_error (e : ε) (s : σ) : stateAfter (.error e s : EStateM.Result ε σ α) = s := rfl

/-- Runs the action of each element in turn, each from the state that the one before left,
whatever its result. -/
def runEach (act : β → σ → EStateM.Result ε σ α) (xs : List β) (s : σ) : σ :=
  xs.foldl (fun s x => stateAfter (act x s)) s

theorem runEach_invariant {act : β → σ → EStateM.Result ε σ α} (inv : σ → Prop)
    (step : ∀ x s, inv s → inv (stateAfter (act x s))) : ∀ (xs : List β) (s : σ), inv s → inv (runEach act xs s)
  | [], _, holds => holds
  | x :: xs, s, holds => runEach_invariant inv step xs _ (step x s holds)

end Mutation
