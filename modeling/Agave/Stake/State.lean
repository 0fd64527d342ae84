import Mathlib
import Agave.Library.MachineInt
import Agave.Runtime.TransactionContext
import Agave.Stake.Delegation

/-! The state a stake account holds, its authorities and lockup, and the account as the stake
program reads it through its borrow. -/

namespace StakeProgram

open Runtime MachineInt

structure Authorized where
  staker : Pubkey
  withdrawer : Pubkey
  deriving DecidableEq, Repr

structure Lockup where
  unixTimestamp : Int
  epoch : Epoch
  custodian : Pubkey
  deriving DecidableEq, Repr

instance : Inhabited Lockup := ⟨⟨0, 0, 0⟩⟩

structure Meta where
  rentExemptReserve : Nat
  authorized : Authorized
  lockup : Lockup
  deriving DecidableEq, Repr

/-- `StakeFlags`: a set of bits, of which merges keep the union. -/
structure StakeFlags where
  bits : Nat
  deriving DecidableEq, Repr

def StakeFlags.empty : StakeFlags := ⟨0⟩

def StakeFlags.union (flags other : StakeFlags) : StakeFlags := ⟨flags.bits ||| other.bits⟩

inductive StakeStateV2
  | uninitialized
  | initialized (stakeMeta : Meta)
  | stake (stakeMeta : Meta) (stake : Stake) (stakeFlags : StakeFlags)
  | rewardsPool
  deriving DecidableEq, Repr

structure Clock where
  epoch : Epoch
  unixTimestamp : Int
  deriving DecidableEq, Repr

inductive StakeAuthorize
  | staker
  | withdrawer
  deriving DecidableEq, Repr

/-- The errors of the stake program: the runtime's, and its own custom ones. -/
inductive Error
  | instruction (e : InstructionError)
  | stake (e : StakeError)
  deriving DecidableEq, Repr

def Authorized.check (authorized : Authorized) (signers : List Pubkey) (stakeAuthorize : StakeAuthorize) :
    Except Error Unit :=
  let authorizedSigner := match stakeAuthorize with
    | .staker => authorized.staker
    | .withdrawer => authorized.withdrawer
  if authorizedSigner ∈ signers then .ok () else .error (.instruction .missingRequiredSignature)

def Lockup.isInForce (lockup : Lockup) (clock : Clock) (custodian : Option Pubkey) : Bool :=
  if custodian = some lockup.custodian then false
  else decide (lockup.unixTimestamp > clock.unixTimestamp) || decide (lockup.epoch > clock.epoch)

/-- A stake account as the stake program reads it through its borrow: the key, the lamports, the
length of the data and the state the data holds. -/
structure StakeAccount where
  key : Pubkey
  lamports : Nat
  dataLen : Nat
  state : StakeStateV2
  deriving DecidableEq, Repr

namespace StakeAccount

def setState (stakeAccount : StakeAccount) (state : StakeStateV2) : StakeAccount := { stakeAccount with state }

/-- `checked_add_lamports` on the `u64` balance. -/
def checkedAddLamports (stakeAccount : StakeAccount) (lamports : Nat) : Except Error StakeAccount :=
  match checkedAdd 64 stakeAccount.lamports lamports with
  | some total => .ok { stakeAccount with lamports := total }
  | none => .error (.instruction .arithmeticOverflow)

def checkedSubLamports (stakeAccount : StakeAccount) (lamports : Nat) : Except Error StakeAccount :=
  match checkedSub stakeAccount.lamports lamports with
  | some rest => .ok { stakeAccount with lamports := rest }
  | none => .error (.instruction .arithmeticOverflow)

/-- The account backs what it holds: an initialized account its rent-exempt reserve, and a stake
that is not deactivating the reserve and the delegated stake. -/
def Funded (stakeAccount : StakeAccount) : Prop :=
  match stakeAccount.state with
  | .initialized stakeMeta => stakeMeta.rentExemptReserve ≤ stakeAccount.lamports
  | .stake stakeMeta stake _ =>
    stake.delegation.deactivationEpoch = epochMax →
      stakeMeta.rentExemptReserve + stake.delegation.stake ≤ stakeAccount.lamports
  | _ => True

instance (stakeAccount : StakeAccount) : Decidable stakeAccount.Funded := by
  unfold Funded
  split <;> infer_instance

@[simp] theorem setState_lamports (stakeAccount : StakeAccount) (state : StakeStateV2) :
    (stakeAccount.setState state).lamports = stakeAccount.lamports := rfl

@[simp] theorem setState_state (stakeAccount : StakeAccount) (state : StakeStateV2) :
    (stakeAccount.setState state).state = state := rfl

theorem checkedAddLamports_ok {stakeAccount after : StakeAccount} {lamports : Nat}
    (ok : stakeAccount.checkedAddLamports lamports = .ok after) :
    after = { stakeAccount with lamports := stakeAccount.lamports + lamports } := by
  unfold checkedAddLamports at ok
  split at ok
  · rename_i total added
    cases ok
    rw [(checkedAdd_eq_some.mp added).2]
  · cases ok

theorem checkedSubLamports_ok {stakeAccount after : StakeAccount} {lamports : Nat}
    (ok : stakeAccount.checkedSubLamports lamports = .ok after) :
    lamports ≤ stakeAccount.lamports ∧ after = { stakeAccount with lamports := stakeAccount.lamports - lamports } := by
  unfold checkedSubLamports at ok
  split at ok
  · rename_i rest subtracted
    cases ok
    obtain ⟨enough, difference⟩ := checkedSub_eq_some.mp subtracted
    exact ⟨enough, by rw [difference]⟩
  · cases ok

end StakeAccount

end StakeProgram
