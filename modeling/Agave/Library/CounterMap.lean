import Mathlib

/-! A map of counters where an absent key reads as zero, the way `entry(key).or_insert(0)` treats
it: updating a counter inserts its key. Updating along a list of keys applies the update once for
every occurrence of each key. -/

namespace CounterMap

variable {κ : Type*} [DecidableEq κ]

/-- The counter of a key, zero when the key is absent. -/
def get (m : κ → Option Nat) (k : κ) : Nat := (m k).getD 0

/-- `*map.entry(k).or_insert(0) = f(..)`. -/
def modify (f : Nat → Nat) (m : κ → Option Nat) (k : κ) : κ → Option Nat :=
  Function.update m k (some (f (get m k)))

def modifyAll (f : Nat → Nat) (m : κ → Option Nat) (keys : List κ) : κ → Option Nat :=
  keys.foldl (modify f) m

variable {f : Nat → Nat} {m : κ → Option Nat}

@[simp] theorem get_modify_self (k : κ) : get (modify f m k) k = f (get m k) := by
  simp [get, modify]

@[simp] theorem get_modify_of_ne {k k' : κ} (other : k' ≠ k) : get (modify f m k) k' = get m k' := by
  simp [get, modify, other]

@[simp] theorem modifyAll_nil : modifyAll f m [] = m := rfl

@[simp] theorem modifyAll_cons (k : κ) (keys : List κ) :
    modifyAll f m (k :: keys) = modifyAll f (modify f m k) keys := rfl

theorem get_modifyAll (keys : List κ) (k : κ) : get (modifyAll f m keys) k = f^[keys.count k] (get m k) := by
  induction keys generalizing m with
  | nil => rfl
  | cons k' keys ih =>
    rw [modifyAll_cons, ih]
    by_cases same : k = k'
    · subst same
      rw [get_modify_self, List.count_cons_self, Function.iterate_succ_apply]
    · rw [get_modify_of_ne same, List.count_cons_of_ne (Ne.symm same)]

theorem modifyAll_of_not_mem {keys : List κ} {k : κ} (absent : k ∉ keys) : modifyAll f m keys k = m k := by
  induction keys generalizing m with
  | nil => rfl
  | cons k' keys ih =>
    have other : k ≠ k' := by
      rintro rfl
      exact absent List.mem_cons_self
    rw [modifyAll_cons, ih (fun mem => absent (List.mem_cons_of_mem _ mem))]
    exact Function.update_of_ne other _ _

end CounterMap
