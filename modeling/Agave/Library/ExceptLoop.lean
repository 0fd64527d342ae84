import Mathlib

/-! Loops of the `Except` monad: what a successful `foldlM`, `mapM` or `forM` says about every
iteration. -/

namespace ExceptLoop

variable {ε α β σ : Type*}

universe u in
theorem bind_eq_ok {ε α β : Type u} {x : Except ε α} {f : α → Except ε β} {b : β} :
    x >>= f = .ok b ↔ ∃ a, x = .ok a ∧ f a = .ok b := by
  cases x <;> simp [bind, Except.bind]

universe u in
theorem pure_eq_ok {ε α : Type u} {a b : α} : (pure a : Except ε α) = .ok b ↔ a = b := by
  simp [pure, Except.pure]

universe u in
theorem ite_throw_bind_eq_ok {ε α β : Type u} {c : Prop} [Decidable c] {e : ε} {f : α → Except ε β}
    {x : Except ε β} {b : β} : (if c then throw e >>= f else x) = .ok b ↔ ¬ c ∧ x = .ok b := by
  by_cases h : c <;> simp [h, throw, throwThe, MonadExceptOf.throw, bind, Except.bind]

universe u in
theorem ite_pure_throw_eq_ok {ε α : Type u} {c : Prop} [Decidable c] {e : ε} {x a : α} :
    (if c then pure x else throw e : Except ε α) = .ok a ↔ c ∧ x = a := by
  by_cases h : c <;> simp [h, throw, throwThe, MonadExceptOf.throw, pure, Except.pure]

universe u in
theorem ite_throw_pure_eq_ok {ε α : Type u} {c : Prop} [Decidable c] {e : ε} {x a : α} :
    (if c then throw e else pure x : Except ε α) = .ok a ↔ ¬ c ∧ x = a := by
  by_cases h : c <;> simp [h, throw, throwThe, MonadExceptOf.throw, pure, Except.pure]

universe u in
theorem elim_throw_pure_eq_ok {ε α : Type u} {o : Option α} {e : ε} {a : α} :
    (o.elim (throw e) pure : Except ε α) = .ok a ↔ o = some a := by
  cases o <;> simp [throw, throwThe, MonadExceptOf.throw, pure, Except.pure]

theorem foldlM_zipIdx_invariant {f : σ → α × Nat → Except ε σ} (inv : List α → σ → Prop)
    (step : ∀ done acc a acc', inv done acc → f acc (a, done.length) = .ok acc' → inv (done ++ [a]) acc') :
    ∀ (rest done : List α) {acc acc' : σ}, inv done acc →
      (rest.zipIdx done.length).foldlM f acc = .ok acc' → inv (done ++ rest) acc'
  | [], done, acc, acc', holds, ok => by
    have same : acc = acc' := by simpa [pure, Except.pure] using ok
    simpa [← same] using holds
  | a :: rest, done, acc, acc', holds, ok => by
    rw [List.zipIdx_cons, List.foldlM_cons] at ok
    cases first : f acc (a, done.length) with
    | error e =>
      rw [first] at ok
      cases ok
    | ok mid =>
      rw [first] at ok
      have next : inv (done ++ [a] ++ rest) acc' :=
        foldlM_zipIdx_invariant inv step rest (done ++ [a]) (step done acc a mid holds first) (by simpa [bind, Except.bind] using ok)
      simpa using next

theorem foldlM_range_invariant {f : σ → Nat → Except ε σ} (inv : Nat → σ → Prop)
    (step : ∀ k acc acc', inv k acc → f acc k = .ok acc' → inv (k + 1) acc') :
    ∀ (n : Nat) {init result : σ}, inv 0 init → (List.range n).foldlM f init = .ok result → inv n result
  | 0, init, result, holds, ok => by
    have same : init = result := by simpa [pure, Except.pure] using ok
    simpa [← same] using holds
  | n + 1, init, result, holds, ok => by
    rw [List.range_succ, List.foldlM_append] at ok
    cases first : (List.range n).foldlM f init with
    | error e =>
      rw [first] at ok
      cases ok
    | ok mid =>
      rw [first] at ok
      cases last : f mid n with
      | error e => simp [last, bind, Except.bind] at ok
      | ok value =>
        have same : value = result := by simpa [last, bind, Except.bind, pure, Except.pure] using ok
        rw [same] at last
        exact step n mid result (foldlM_range_invariant inv step n holds first) last

theorem forall₂_of_mapM_eq_ok {f : α → Except ε β} :
    ∀ {l : List α} {r : List β}, l.mapM f = .ok r → List.Forall₂ (fun a b => f a = .ok b) l r
  | [], r, ok => by
    have same : [] = r := by simpa [pure, Except.pure] using ok
    rw [← same]
    exact .nil
  | a :: l, r, ok => by
    rw [List.mapM_cons] at ok
    cases head : f a with
    | error e =>
      rw [head] at ok
      cases ok
    | ok b =>
      cases tail : l.mapM f with
      | error e =>
        rw [head, tail] at ok
        cases ok
      | ok bs =>
        rw [head, tail] at ok
        have same : b :: bs = r := by simpa [bind, Except.bind, pure, Except.pure] using ok
        rw [← same]
        exact .cons head (forall₂_of_mapM_eq_ok tail)

theorem forall_of_forM_eq_ok {f : α → Except ε PUnit} :
    ∀ {l : List α}, l.forM f = .ok () → ∀ a ∈ l, f a = .ok ()
  | [], _, _, mem => by cases mem
  | b :: l, ok, a, mem => by
    simp only [List.forM] at ok
    cases head : f b with
    | error e =>
      rw [head] at ok
      cases ok
    | ok u =>
      rw [head] at ok
      rcases List.mem_cons.mp mem with rfl | later
      · exact head
      · exact forall_of_forM_eq_ok ok a later

theorem forM_eq_ok_iff {f : α → Except ε PUnit} :
    ∀ {l : List α}, l.forM f = .ok () ↔ ∀ a ∈ l, f a = .ok ()
  | [] => by simp [List.forM, pure, Except.pure]
  | b :: l => by
    simp only [List.forM, List.forall_mem_cons]
    cases head : f b with
    | error e => simp [bind, Except.bind]
    | ok u => simp only [bind, Except.bind, true_and]; exact forM_eq_ok_iff

end ExceptLoop
