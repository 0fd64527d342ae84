import Mathlib
import Agave.Library.Bincode
import Agave.Vote.Lockout

/-! The data of a vote account: `VoteStateVersions` with its three layouts, `convert_to_current`,
and what `bincode::deserialize::<VoteStateVersions>` reads, field by field as serde's derive reads
them. The vote program's model (`VoteProgram.VoteState`) keeps four of the current layout's fields;
here every field is kept, since the decoders read them all. -/

namespace VoteProgram

namespace Account

open ByteDecoder Bincode

/-- A `Pubkey`: its 32 bytes. -/
abbrev Pubkey := List UInt8

/-- `Pubkey::default()`. -/
def defaultPubkey : Pubkey := List.replicate 32 0

/-- `MAX_ITEMS`: the entries of a `CircBuf`. -/
def maxItems : Nat := 32

/-- `AuthorizedVoters`: its `BTreeMap<Epoch, Pubkey>`, as the entries in increasing order of epoch. -/
structure AuthorizedVoters where
  authorizedVoters : List (Epoch × Pubkey)
  deriving DecidableEq, Repr

namespace AuthorizedVoters

/-- `BTreeMap::insert` on entries in increasing order of key: the entry of `epoch` is replaced, or
added in its place. -/
def insertEntry (epoch : Epoch) (voter : Pubkey) : List (Epoch × Pubkey) → List (Epoch × Pubkey)
  | [] => [(epoch, voter)]
  | (e, v) :: rest =>
    if epoch < e then (epoch, voter) :: (e, v) :: rest
    else if epoch = e then (epoch, voter) :: rest
    else (e, v) :: insertEntry epoch voter rest

/-- `AuthorizedVoters::insert`. -/
def insert (self : AuthorizedVoters) (epoch : Epoch) (voter : Pubkey) : AuthorizedVoters :=
  ⟨insertEntry epoch voter self.authorizedVoters⟩

/-- `AuthorizedVoters::new`. -/
def new (epoch : Epoch) (voter : Pubkey) : AuthorizedVoters := insert ⟨[]⟩ epoch voter

end AuthorizedVoters

/-- `CircBuf<I>`: `MAX_ITEMS` entries, the next index and whether none was pushed. -/
structure CircBuf (α : Type) where
  buf : List α
  idx : Nat
  isEmpty : Bool
  deriving DecidableEq, Repr

/-- `CircBuf::default()` of the prior voters. -/
def CircBuf.default : CircBuf (Pubkey × Epoch × Epoch) :=
  ⟨List.replicate maxItems (defaultPubkey, 0, 0), maxItems - 1, true⟩

/-- The `CircBuf` of `VoteState0_23_5`, which has no `is_empty`. -/
structure CircBuf0_23_5 (α : Type) where
  buf : List α
  idx : Nat
  deriving DecidableEq, Repr

/-- `VoteState`, the current layout, with every field. -/
structure VoteState where
  nodePubkey : Pubkey
  authorizedWithdrawer : Pubkey
  commission : Nat
  votes : List LandedVote
  rootSlot : Option Slot
  authorizedVoters : AuthorizedVoters
  priorVoters : CircBuf (Pubkey × Epoch × Epoch)
  epochCredits : List (Epoch × Nat × Nat)
  lastTimestamp : BlockTimestamp
  deriving DecidableEq, Repr

/-- `VoteState1_14_11`: the current layout with plain lockouts for votes. -/
structure VoteState1_14_11 where
  nodePubkey : Pubkey
  authorizedWithdrawer : Pubkey
  commission : Nat
  votes : List Lockout
  rootSlot : Option Slot
  authorizedVoters : AuthorizedVoters
  priorVoters : CircBuf (Pubkey × Epoch × Epoch)
  epochCredits : List (Epoch × Nat × Nat)
  lastTimestamp : BlockTimestamp
  deriving DecidableEq, Repr

/-- `VoteState0_23_5`: one authorized voter, and prior voters with the slot of their change. -/
structure VoteState0_23_5 where
  nodePubkey : Pubkey
  authorizedVoter : Pubkey
  authorizedVoterEpoch : Epoch
  priorVoters : CircBuf0_23_5 (Pubkey × Epoch × Epoch × Slot)
  authorizedWithdrawer : Pubkey
  commission : Nat
  votes : List Lockout
  rootSlot : Option Slot
  epochCredits : List (Epoch × Nat × Nat)
  lastTimestamp : BlockTimestamp
  deriving DecidableEq, Repr

inductive VoteStateVersions
  | v0_23_5 (state : VoteState0_23_5)
  | v1_14_11 (state : VoteState1_14_11)
  | current (state : VoteState)
  deriving DecidableEq, Repr

namespace VoteStateVersions

/-- `landed_votes_from_lockouts`. -/
def landedVotesFromLockouts (lockouts : List Lockout) : List LandedVote := lockouts.map LandedVote.ofLockout

/-- `convert_to_current`. -/
def convertToCurrent : VoteStateVersions → VoteState
  | .v0_23_5 state =>
    { nodePubkey := state.nodePubkey
      authorizedWithdrawer := state.authorizedWithdrawer
      commission := state.commission
      votes := landedVotesFromLockouts state.votes
      rootSlot := state.rootSlot
      authorizedVoters := AuthorizedVoters.new state.authorizedVoterEpoch state.authorizedVoter
      priorVoters := CircBuf.default
      epochCredits := state.epochCredits
      lastTimestamp := state.lastTimestamp }
  | .v1_14_11 state =>
    { nodePubkey := state.nodePubkey
      authorizedWithdrawer := state.authorizedWithdrawer
      commission := state.commission
      votes := landedVotesFromLockouts state.votes
      rootSlot := state.rootSlot
      authorizedVoters := state.authorizedVoters
      priorVoters := state.priorVoters
      epochCredits := state.epochCredits
      lastTimestamp := state.lastTimestamp }
  | .current state => state

/-- Whether this is the oldest layout, which the on-chain decoder refuses. -/
def isV0_23_5 : VoteStateVersions → Bool
  | .v0_23_5 _ => true
  | _ => false

end VoteStateVersions

/-! ### What `bincode` reads -/

def decodePubkey : Bincode.Decoder Pubkey := bytes 32

def decodeLockout : Bincode.Decoder Lockout := do
  let slot ← u64
  let confirmationCount ← u32
  pure ⟨slot, confirmationCount⟩

def decodeLandedVote : Bincode.Decoder LandedVote := do
  let latency ← u8
  let lockout ← decodeLockout
  pure ⟨latency, lockout⟩

def decodeBlockTimestamp : Bincode.Decoder BlockTimestamp := do
  let slot ← u64
  let timestamp ← i64
  pure ⟨slot, timestamp⟩

def decodeAuthorizedVoters : Bincode.Decoder AuthorizedVoters :=
  Bincode.map u64 decodePubkey (fun voters entry => voters.insert entry.1 entry.2) ⟨[]⟩

def decodePriorVoter : Bincode.Decoder (Pubkey × Epoch × Epoch) := do
  let voter ← decodePubkey
  let fromEpoch ← u64
  let untilEpoch ← u64
  pure (voter, fromEpoch, untilEpoch)

def decodePriorVoters : Bincode.Decoder (CircBuf (Pubkey × Epoch × Epoch)) := do
  let buf ← array maxItems decodePriorVoter
  let idx ← u64
  let isEmpty ← bool
  pure ⟨buf, idx, isEmpty⟩

def decodeEpochCredit : Bincode.Decoder (Epoch × Nat × Nat) := do
  let epoch ← u64
  let credits ← u64
  let prevCredits ← u64
  pure (epoch, credits, prevCredits)

def decodeVoteState : Bincode.Decoder VoteState := do
  let nodePubkey ← decodePubkey
  let authorizedWithdrawer ← decodePubkey
  let commission ← u8
  let votes ← seq decodeLandedVote
  let rootSlot ← option u64
  let authorizedVoters ← decodeAuthorizedVoters
  let priorVoters ← decodePriorVoters
  let epochCredits ← seq decodeEpochCredit
  let lastTimestamp ← decodeBlockTimestamp
  pure ⟨nodePubkey, authorizedWithdrawer, commission, votes, rootSlot, authorizedVoters, priorVoters,
    epochCredits, lastTimestamp⟩

def decodeVoteState1_14_11 : Bincode.Decoder VoteState1_14_11 := do
  let nodePubkey ← decodePubkey
  let authorizedWithdrawer ← decodePubkey
  let commission ← u8
  let votes ← seq decodeLockout
  let rootSlot ← option u64
  let authorizedVoters ← decodeAuthorizedVoters
  let priorVoters ← decodePriorVoters
  let epochCredits ← seq decodeEpochCredit
  let lastTimestamp ← decodeBlockTimestamp
  pure ⟨nodePubkey, authorizedWithdrawer, commission, votes, rootSlot, authorizedVoters, priorVoters,
    epochCredits, lastTimestamp⟩

def decodePriorVoter0_23_5 : Bincode.Decoder (Pubkey × Epoch × Epoch × Slot) := do
  let voter ← decodePubkey
  let fromEpoch ← u64
  let untilEpoch ← u64
  let slot ← u64
  pure (voter, fromEpoch, untilEpoch, slot)

def decodePriorVoters0_23_5 : Bincode.Decoder (CircBuf0_23_5 (Pubkey × Epoch × Epoch × Slot)) := do
  let buf ← array maxItems decodePriorVoter0_23_5
  let idx ← u64
  pure ⟨buf, idx⟩

def decodeVoteState0_23_5 : Bincode.Decoder VoteState0_23_5 := do
  let nodePubkey ← decodePubkey
  let authorizedVoter ← decodePubkey
  let authorizedVoterEpoch ← u64
  let priorVoters ← decodePriorVoters0_23_5
  let authorizedWithdrawer ← decodePubkey
  let commission ← u8
  let votes ← seq decodeLockout
  let rootSlot ← option u64
  let epochCredits ← seq decodeEpochCredit
  let lastTimestamp ← decodeBlockTimestamp
  pure ⟨nodePubkey, authorizedVoter, authorizedVoterEpoch, priorVoters, authorizedWithdrawer, commission, votes,
    rootSlot, epochCredits, lastTimestamp⟩

/-- The layout of each variant index of `VoteStateVersions`. -/
def decodeVersion : Nat → Bincode.Decoder VoteStateVersions
  | 0 => VoteStateVersions.v0_23_5 <$> decodeVoteState0_23_5
  | 1 => VoteStateVersions.v1_14_11 <$> decodeVoteState1_14_11
  | _ + 2 => VoteStateVersions.current <$> decodeVoteState

def decodeVoteStateVersions : Bincode.Decoder VoteStateVersions := do
  let variant ← variantIndex 3
  decodeVersion variant

/-! ### The reference leaves trailing bytes alone -/

theorem prefixed_decodeLockout : Prefixed decodeLockout :=
  prefixed_u64.bind fun _ => prefixed_u32.bind fun _ => Prefixed.pure _

theorem prefixed_decodeLandedVote : Prefixed decodeLandedVote :=
  prefixed_u8.bind fun _ => prefixed_decodeLockout.bind fun _ => Prefixed.pure _

theorem prefixed_decodeBlockTimestamp : Prefixed decodeBlockTimestamp :=
  prefixed_u64.bind fun _ => prefixed_i64.bind fun _ => Prefixed.pure _

theorem prefixed_decodePubkey : Prefixed decodePubkey := prefixed_bytes 32

theorem prefixed_decodeAuthorizedVoters : Prefixed decodeAuthorizedVoters :=
  prefixed_map prefixed_u64 prefixed_decodePubkey _ _

theorem prefixed_decodeEpochCredit : Prefixed decodeEpochCredit :=
  prefixed_u64.bind fun _ => prefixed_u64.bind fun _ => prefixed_u64.bind fun _ => Prefixed.pure _

theorem prefixed_decodePriorVoters : Prefixed decodePriorVoters :=
  let entry : Prefixed decodePriorVoter :=
    prefixed_decodePubkey.bind fun _ => prefixed_u64.bind fun _ => prefixed_u64.bind fun _ => Prefixed.pure _
  (prefixed_array maxItems entry).bind fun _ => prefixed_u64.bind fun _ => prefixed_bool.bind fun _ => Prefixed.pure _

theorem prefixed_decodePriorVoters0_23_5 : Prefixed decodePriorVoters0_23_5 :=
  let entry : Prefixed decodePriorVoter0_23_5 :=
    prefixed_decodePubkey.bind fun _ => prefixed_u64.bind fun _ => prefixed_u64.bind fun _ =>
      prefixed_u64.bind fun _ => Prefixed.pure _
  (prefixed_array maxItems entry).bind fun _ => prefixed_u64.bind fun _ => Prefixed.pure _

theorem prefixed_decodeVoteState : Prefixed decodeVoteState :=
  prefixed_decodePubkey.bind fun _ => prefixed_decodePubkey.bind fun _ => prefixed_u8.bind fun _ =>
    (prefixed_seq prefixed_decodeLandedVote).bind fun _ => (prefixed_option prefixed_u64).bind fun _ =>
      prefixed_decodeAuthorizedVoters.bind fun _ => prefixed_decodePriorVoters.bind fun _ =>
        (prefixed_seq prefixed_decodeEpochCredit).bind fun _ => prefixed_decodeBlockTimestamp.bind fun _ =>
          Prefixed.pure _

theorem prefixed_decodeVoteState1_14_11 : Prefixed decodeVoteState1_14_11 :=
  prefixed_decodePubkey.bind fun _ => prefixed_decodePubkey.bind fun _ => prefixed_u8.bind fun _ =>
    (prefixed_seq prefixed_decodeLockout).bind fun _ => (prefixed_option prefixed_u64).bind fun _ =>
      prefixed_decodeAuthorizedVoters.bind fun _ => prefixed_decodePriorVoters.bind fun _ =>
        (prefixed_seq prefixed_decodeEpochCredit).bind fun _ => prefixed_decodeBlockTimestamp.bind fun _ =>
          Prefixed.pure _

theorem prefixed_decodeVoteState0_23_5 : Prefixed decodeVoteState0_23_5 :=
  prefixed_decodePubkey.bind fun _ => prefixed_decodePubkey.bind fun _ => prefixed_u64.bind fun _ =>
    prefixed_decodePriorVoters0_23_5.bind fun _ => prefixed_decodePubkey.bind fun _ => prefixed_u8.bind fun _ =>
      (prefixed_seq prefixed_decodeLockout).bind fun _ => (prefixed_option prefixed_u64).bind fun _ =>
        (prefixed_seq prefixed_decodeEpochCredit).bind fun _ => prefixed_decodeBlockTimestamp.bind fun _ =>
          Prefixed.pure _

theorem prefixed_decodeVoteStateVersions : Prefixed decodeVoteStateVersions :=
  (prefixed_variantIndex 3).bind fun
    | 0 => prefixed_decodeVoteState0_23_5.map _
    | 1 => prefixed_decodeVoteState1_14_11.map _
    | _ + 2 => prefixed_decodeVoteState.map _

/-! ### The variant index first -/

theorem deserialize_decodeVoteStateVersions {input rest : List UInt8} {variant : Nat}
    (read : u32.run input = .ok (variant, rest)) :
    Bincode.deserialize decodeVoteStateVersions input =
      if variant < 3 then Bincode.deserialize (decodeVersion variant) rest
      else .error (.invalidVariantIndex variant) := by
  simp only [Bincode.deserialize, decodeVoteStateVersions, variantIndex, StateT.run_bind, read, bind_assoc,
    ok_bind]
  split_ifs <;> rfl

theorem deserialize_decodeVoteStateVersions_of_error {input : List UInt8} {e : ErrorKind}
    (read : u32.run input = .error e) : Bincode.deserialize decodeVoteStateVersions input = .error e := by
  simp only [Bincode.deserialize, decodeVoteStateVersions, variantIndex, StateT.run_bind, read, bind_assoc,
    error_bind, Except.map_error]

end Account

end VoteProgram
