import Mathlib
import Agave.Library.MachineInt

namespace VoteProgram

open MachineInt

abbrev Slot := Nat
abbrev Epoch := Nat
abbrev UnixTimestamp := Int
abbrev Hash := Nat

def maxLockoutHistory : Nat := 31
def initialLockout : Nat := 2
def maxEpochCreditsHistory : Nat := 64
def voteCreditsGraceSlots : Nat := 2
def voteCreditsMaximumPerSlot : Nat := 16

inductive VoteError where
  | voteTooOld
  | slotsMismatch
  | slotHashMismatch
  | emptySlots
  | timestampTooOld
  | tooSoonToReauthorize
  | lockoutConflict
  | newVoteStateLockoutMismatch
  | slotsNotOrdered
  | confirmationsNotOrdered
  | zeroConfirmations
  | confirmationTooLarge
  | rootRollBack
  | confirmationRollBack
  | slotSmallerThanRoot
  | tooManyVotes
  | votesTooOldAllFiltered
  | rootOnDifferentFork
  | activeVoteAccountClose
  | commissionUpdateTooLate
  | assertionFailed
  deriving DecidableEq, Repr

structure Lockout where
  slot : Slot
  confirmationCount : Nat
  deriving DecidableEq, Repr

namespace Lockout

def new (slot : Slot) : Lockout := ⟨slot, 1⟩

/-- The number of slots for which this vote is locked. -/
def lockout (l : Lockout) : Nat := wrappingPow 64 initialLockout l.confirmationCount

/-- The last slot at which the vote is still locked out. -/
def lastLockedOutSlot (l : Lockout) : Slot := saturatingAdd 64 l.slot l.lockout

def isLockedOutAtSlot (l : Lockout) (slot : Slot) : Bool := slot ≤ l.lastLockedOutSlot

def increaseConfirmationCount (l : Lockout) (increase : Nat) : Lockout :=
  { l with confirmationCount := saturatingAdd 32 l.confirmationCount increase }

theorem lockout_of_lt {l : Lockout} (small : l.confirmationCount < 64) :
    l.lockout = 2 ^ l.confirmationCount := by
  apply wrappingPow_of_lt
  exact Nat.pow_lt_pow_right (by decide) small

theorem lastLockedOutSlot_mono {l l' : Lockout} (slot : l.slot = l'.slot)
    (count : l.confirmationCount ≤ l'.confirmationCount) (small : l'.confirmationCount < 64) :
    l.lastLockedOutSlot ≤ l'.lastLockedOutSlot := by
  have grows : l.lockout ≤ l'.lockout := by
    rw [lockout_of_lt (by omega), lockout_of_lt small]
    exact Nat.pow_le_pow_right (by decide) count
  unfold lastLockedOutSlot
  rw [slot]
  exact saturatingAdd_mono_right grows

theorem slot_le_lastLockedOutSlot {l : Lockout} (bound : l.slot ≤ maxValue 64) :
    l.slot ≤ l.lastLockedOutSlot :=
  le_saturatingAdd bound

@[simp] theorem increaseConfirmationCount_slot (l : Lockout) (increase : Nat) :
    (l.increaseConfirmationCount increase).slot = l.slot := rfl

theorem increaseConfirmationCount_one {l : Lockout} (small : l.confirmationCount < maxValue 32) :
    (l.increaseConfirmationCount 1).confirmationCount = l.confirmationCount + 1 :=
  saturatingAdd_of_le small

end Lockout

structure LandedVote where
  latency : Nat
  lockout : Lockout
  deriving DecidableEq, Repr

namespace LandedVote

def slot (v : LandedVote) : Slot := v.lockout.slot

def confirmationCount (v : LandedVote) : Nat := v.lockout.confirmationCount

@[simp] theorem slot_eq (v : LandedVote) : v.slot = v.lockout.slot := rfl

@[simp] theorem confirmationCount_eq (v : LandedVote) : v.confirmationCount = v.lockout.confirmationCount := rfl

/-- `impl From<Lockout> for LandedVote`. -/
def ofLockout (lockout : Lockout) : LandedVote := ⟨0, lockout⟩

@[simp] theorem ofLockout_lockout (lockout : Lockout) : (ofLockout lockout).lockout = lockout := rfl

end LandedVote

structure BlockTimestamp where
  slot : Slot
  timestamp : UnixTimestamp
  deriving DecidableEq, Repr

end VoteProgram
