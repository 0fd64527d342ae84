import Mathlib

/-! A parallel fold in the style of a work-stealing runtime: the items are cut into runs of
consecutive items, each run is folded sequentially from an identity, and the partial results are
combined by a `reduce` whose shape and order the scheduler picks. What such a fold may return is a
relation, not a function; where the fold and the combination both add up a measure of their
inputs, every schedule returns the plain sum. Such a fold often computes the change of a sum over
keys when some keys are rewritten; the last section says what that change is. -/

namespace ParallelFold

variable {α β M : Type*}

/-- The results a `reduce` with `op` and `identity` may give on a list of partial results: any
binary tree over them, in any order, with the identity at the empty leaves. -/
inductive Reduces (op : α → α → α) (identity : α) : List α → α → Prop
  | identity : Reduces op identity [] identity
  | single (part : α) : Reduces op identity [part] part
  | combine {left right : List α} {a b : α} :
      Reduces op identity left a → Reduces op identity right b → Reduces op identity (left ++ right) (op a b)
  | perm {parts parts' : List α} {result : α} :
      parts.Perm parts' → Reduces op identity parts result → Reduces op identity parts' result

/-- What `fold_chunks(identity, fold).reduce(identity, op)` may return on `items`: the items cut
into consecutive chunks of any sizes, each folded from the identity, and the folds reduced. -/
def FoldChunks (fold : α → β → α) (op : α → α → α) (identity : α) (items : List β) (result : α) : Prop :=
  ∃ chunks : List (List β), chunks.flatten = items ∧
    Reduces op identity (chunks.map (List.foldl fold identity)) result

theorem FoldChunks.sequential {fold : α → β → α} {op : α → α → α} {identity : α} (items : List β) :
    FoldChunks fold op identity items (op identity (items.foldl fold identity)) := by
  refine ⟨[[], items], by simp, ?_⟩
  exact Reduces.combine (Reduces.single identity) (Reduces.single _)

section Measure

variable [AddCommMonoid M] {op : α → α → α} {identity : α} (measure : α → M)

theorem Reduces.measure_eq_sum (zero : measure identity = 0)
    (additive : ∀ a b, measure (op a b) = measure a + measure b) {parts : List α} {result : α}
    (reduces : Reduces op identity parts result) : measure result = (parts.map measure).sum := by
  induction reduces with
  | identity => simpa using zero
  | single part => simp
  | combine _ _ left right => rw [additive, left, right, List.map_append, List.sum_append]
  | perm permuted _ ih => rw [ih, (permuted.map measure).sum_eq]

theorem foldl_measure {fold : α → β → α} (weight : β → M)
    (step : ∀ acc item, measure (fold acc item) = measure acc + weight item) :
    ∀ (items : List β) (acc : α), measure (items.foldl fold acc) = measure acc + (items.map weight).sum
  | [], acc => by simp
  | item :: items, acc => by
    rw [List.foldl_cons, foldl_measure weight step items, step, List.map_cons, List.sum_cons, add_assoc]

theorem FoldChunks.measure_eq_sum {fold : α → β → α} (weight : β → M) (zero : measure identity = 0)
    (additive : ∀ a b, measure (op a b) = measure a + measure b)
    (step : ∀ acc item, measure (fold acc item) = measure acc + weight item) {items : List β} {result : α}
    (folds : FoldChunks fold op identity items result) : measure result = (items.map weight).sum := by
  obtain ⟨chunks, flattened, reduces⟩ := folds
  have chunk_sum : ∀ chunk : List β,
      measure (chunk.foldl fold identity) = (chunk.map weight).sum := fun chunk => by
    rw [foldl_measure measure weight step, zero, zero_add]
  rw [reduces.measure_eq_sum measure zero additive, ← flattened, List.map_map,
    List.map_flatten, List.sum_flatten, List.map_map]
  exact congrArg List.sum (List.map_congr_left fun chunk _ => chunk_sum chunk)

end Measure

section KeyedSum

variable {κ V : Type*} [Fintype κ] [DecidableEq κ] [AddCommGroup M]

theorem sum_update_eq_add_sub (term : κ → V → M) (state : κ → V) (key : κ) (value : V) :
    ∑ k, term k (Function.update state key value k) =
      ∑ k, term k (state k) + (term key value - term key (state key)) := by
  have split : ∀ s : κ → V, ∑ k, term k (s k) = term key (s key) + ∑ k ∈ Finset.univ.erase key, term k (s k) :=
    fun s => (Finset.add_sum_erase _ _ (Finset.mem_univ key)).symm
  have rest : ∑ k ∈ Finset.univ.erase key, term k (Function.update state key value k) =
      ∑ k ∈ Finset.univ.erase key, term k (state k) :=
    Finset.sum_congr rfl fun k mem => by rw [Function.update_of_ne (Finset.ne_of_mem_erase mem)]
  rw [split, split state, rest, Function.update_self]
  abel

end KeyedSum

end ParallelFold
