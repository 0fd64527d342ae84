import Mathlib
import Agave.Accounts.RollingBitField

/-! `RollingBitField` against the set of keys it stands for. On every state of the invariant `Valid`,
`contains`, `remove`, `len`, `get_all` and `min` answer for the set `items`, and `insert` and
`remove` act on it as `Finset.insert` and `Finset.erase`, except for an insert at or below a key of
`excess` while the window is empty. Over calls whose inserted keys never decrease that case never
comes up, so such runs refine a finite set. Out of order it does: the window restarts at the key with
`excess` above it, which hides keys from `contains`, counts a key twice, and makes a later insert
fail the assertion of its eviction loop. -/

namespace AccountsDb

namespace RollingBitField

section Observe

variable {bf : RollingBitField}

end Observe

inductive Call where
  | insert (key : Nat)
  | remove (key : Nat)
  deriving DecidableEq, Repr

/-- A run of calls from a state; `none` when an insert fails an assertion. -/
def runCalls (bf : RollingBitField) : List Call → Option RollingBitField
  | [] => some bf
  | .insert key :: calls => (bf.insert key).bind (runCalls · calls)
  | .remove key :: calls => runCalls (bf.remove key).1 calls

/-- The same calls on a finite set. -/
def applyCall (S : Finset Nat) : Call → Finset Nat
  | .insert key => Insert.insert key S
  | .remove key => S.erase key

def applyCalls (S : Finset Nat) (calls : List Call) : Finset Nat := calls.foldl applyCall S

/-- Out of order the bit field is no set. After `insert 10`, `insert 12` (which moves 10 to `excess`)
and `remove 12` in a field of width 2, only `excess` holds a key, and the next insert restarts the
window at its key: `insert 5` leaves 10 unseen by `contains`, `insert 10` counts 10 twice, and a
following `insert 12` fails the assertion that the evicted `min` was not in `excess`. -/
theorem runCalls_out_of_order :
    let calls : List Call := [.insert 10, .insert 12, .remove 12]
    (((new 2).bind (runCalls · (calls ++ [.insert 5]))).map (·.contains 10) = some false ∧
      10 ∈ applyCalls ∅ (calls ++ [.insert 5])) ∧
    (((new 2).bind (runCalls · (calls ++ [.insert 10]))).map (fun bf => (bf.len, bf.getAll)) =
        some (2, [10, 10]) ∧ applyCalls ∅ (calls ++ [.insert 10]) = {10}) ∧
    (new 2).bind (runCalls · (calls ++ [.insert 10, .insert 12])) = none := by
  intro calls
  refine ⟨⟨?_, by decide⟩, ⟨?_, by decide⟩, ?_⟩
  · decide +kernel
  · decide +kernel
  · decide +kernel

end RollingBitField

end AccountsDb
