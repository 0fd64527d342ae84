import Mathlib
import Agave.Vote.Account
import Agave.Runtime.TransactionContext

/-! `VoteState::deserialize_into_uninit`: the hand-written decoder of a vote account's data over the
readers of `serialize_utils::cursor`, and that it reads what `bincode` reads. Each reader agrees
with the `bincode` decoder of its field; the loops that push or insert each entry agree with
serde's sequences and maps; and `VoteState1_14_11` converted to the current layout is the current
layout read with plain lockouts for votes. -/

namespace VoteProgram

namespace Lockout

/-- `Lockout::new_with_confirmation_count`. -/
def newWithConfirmationCount (slot : Slot) (confirmationCount : Nat) : Lockout := ⟨slot, confirmationCount⟩

end Lockout

namespace Account

open ByteDecoder Runtime

/-- A reader of a `Cursor`, failing with an `InstructionError`. -/
abbrev CursorReader (α : Type) := ByteDecoder.Decoder InstructionError α

/-! ### `serialize_utils::cursor` -/

/-- `read_exact` of `size` bytes into a little-endian integer: `read_u8`, `read_u32` and
`read_u64` differ only in `size`. -/
def readLe (size : Nat) : CursorReader Nat := leValue <$> readBytes .invalidAccountData size

def readU8 : CursorReader Nat := readLe 1

def readU32 : CursorReader Nat := readLe 4

def readU64 : CursorReader Nat := readLe 8

def readI64 : CursorReader Int := toSigned 64 <$> readLe 8

def readOptionU64 : CursorReader (Option Nat) := do
  let variant ← readU8
  match variant with
  | 0 => pure none
  | 1 => some <$> readU64
  | _ => throw .invalidAccountData

/-- `read_pubkey`, and `read_pubkey_into`, whose `fill_buf` and check of 32 bytes read the same. -/
def readPubkey : CursorReader Pubkey := readBytes .invalidAccountData 32

def readBool : CursorReader Bool := do
  let byte ← readU8
  match byte with
  | 0 => pure false
  | 1 => pure true
  | _ => throw .invalidAccountData

/-! ### `deserialize_vote_state_into` -/

/-- One vote of `read_votes`: a latency only where the layout has one. -/
def readVote (hasLatency : Bool) : CursorReader LandedVote := do
  let latency ← if hasLatency then readU8 else pure 0
  let slot ← readU64
  let confirmationCount ← readU32
  pure ⟨latency, Lockout.newWithConfirmationCount slot confirmationCount⟩

/-- `read_votes`: `vote_count` votes, each pushed at the back. -/
def readVotes (hasLatency : Bool) : CursorReader (List LandedVote) := do
  let voteCount ← readU64
  loop (readVote hasLatency) (fun votes vote => votes ++ [vote]) voteCount []

def readAuthorizedVoter : CursorReader (Epoch × Pubkey) := do
  let epoch ← readU64
  let authorizedVoter ← readPubkey
  pure (epoch, authorizedVoter)

/-- `read_authorized_voters`: each entry inserted in turn. -/
def readAuthorizedVoters : CursorReader AuthorizedVoters := do
  let authorizedVoterCount ← readU64
  loop readAuthorizedVoter (fun voters entry => voters.insert entry.1 entry.2) authorizedVoterCount ⟨[]⟩

def readPriorVoter : CursorReader (Pubkey × Epoch × Epoch) := do
  let priorVoter ← readPubkey
  let fromEpoch ← readU64
  let untilEpoch ← readU64
  pure (priorVoter, fromEpoch, untilEpoch)

/-- `read_prior_voters_into`: the entry read at step `i` written at `buf[i]`, then `idx` and
`is_empty`. -/
def readPriorVotersInto : CursorReader (CircBuf (Pubkey × Epoch × Epoch)) := do
  let buf ← loop readPriorVoter (fun buf entry => buf ++ [entry]) maxItems []
  let idx ← readU64
  let isEmpty ← readBool
  pure ⟨buf, idx, isEmpty⟩

def readEpochCredit : CursorReader (Epoch × Nat × Nat) := do
  let epoch ← readU64
  let credits ← readU64
  let prevCredits ← readU64
  pure (epoch, credits, prevCredits)

/-- `read_epoch_credits`: each entry pushed. -/
def readEpochCredits : CursorReader (List (Epoch × Nat × Nat)) := do
  let epochCreditCount ← readU64
  loop readEpochCredit (fun credits entry => credits ++ [entry]) epochCreditCount []

def readLastTimestampInto : CursorReader BlockTimestamp := do
  let slot ← readU64
  let timestamp ← readI64
  pure ⟨slot, timestamp⟩

/-- `deserialize_vote_state_into`: the fields in the layout's order, those read into the state in
place and those written at the end alike. -/
def deserializeVoteStateInto (hasLatency : Bool) : CursorReader VoteState := do
  let nodePubkey ← readPubkey
  let authorizedWithdrawer ← readPubkey
  let commission ← readU8
  let votes ← readVotes hasLatency
  let rootSlot ← readOptionU64
  let authorizedVoters ← readAuthorizedVoters
  let priorVoters ← readPriorVotersInto
  let epochCredits ← readEpochCredits
  let lastTimestamp ← readLastTimestampInto
  pure ⟨nodePubkey, authorizedWithdrawer, commission, votes, rootSlot, authorizedVoters, priorVoters,
    epochCredits, lastTimestamp⟩

/-- `VoteState::deserialize_into_ptr`; `targetOsSolana` is the `cfg(target_os = "solana")` of the
build, where the oldest layout is refused. -/
def deserializeIntoPtr (targetOsSolana : Bool) (input : List UInt8) : Except InstructionError VoteState :=
  match readU32.run input with
  | .error e => .error e
  | .ok (variant, rest) =>
    match variant with
    | 0 =>
      if targetOsSolana then .error .invalidAccountData
      else
        match Bincode.deserialize decodeVoteStateVersions input with
        | .ok versioned => .ok versioned.convertToCurrent
        | .error _ => .error .invalidAccountData
    | 1 => (·.1) <$> (deserializeVoteStateInto false).run rest
    | 2 => (·.1) <$> (deserializeVoteStateInto true).run rest
    | _ => .error .invalidAccountData

/-- `VoteState::deserialize_into_uninit`. -/
def deserializeIntoUninit (targetOsSolana : Bool) (input : List UInt8) : Except InstructionError VoteState :=
  deserializeIntoPtr targetOsSolana input

/-! ### Each reader reads what `bincode` reads -/

open Bincode

theorem agree_readLe (size : Nat) : Agree (readLe size) (fixint size) := (Agree.readBytes _ _ size).map _

theorem agree_readU8 : Agree readU8 u8 := agree_readLe 1

theorem agree_readU32 : Agree readU32 u32 := agree_readLe 4

theorem agree_readU64 : Agree readU64 u64 := agree_readLe 8

theorem agree_readI64 : Agree readI64 i64 := (agree_readLe 8).map _

theorem agree_readPubkey : Agree readPubkey decodePubkey := Agree.readBytes _ _ 32

theorem agree_readOptionU64 : Agree readOptionU64 (option u64) :=
  agree_readU8.bind fun
    | 0 => Agree.pure none
    | 1 => agree_readU64.map some
    | _ + 2 => Agree.throw _ _

theorem agree_readBool : Agree readBool bool :=
  agree_readU8.bind fun
    | 0 => Agree.pure false
    | 1 => Agree.pure true
    | _ + 2 => Agree.throw _ _

theorem agree_readVote_latency : Agree (readVote true) decodeLandedVote := by
  have nested : decodeLandedVote = (do
      let latency ← u8
      let slot ← u64
      let confirmationCount ← u32
      pure ⟨latency, ⟨slot, confirmationCount⟩⟩) := by
    simp only [decodeLandedVote, decodeLockout, bind_assoc, pure_bind]
  rw [nested]
  exact agree_readU8.bind fun _ => agree_readU64.bind fun _ => agree_readU32.bind fun _ => Agree.pure _

theorem readVote_false : readVote false = LandedVote.ofLockout <$> (do
    let slot ← readU64
    let confirmationCount ← readU32
    pure (Lockout.newWithConfirmationCount slot confirmationCount)) := by
  simp only [readVote, Bool.false_eq_true, ↓reduceIte, pure_bind, map_bind, map_pure]
  rfl

theorem agree_readVotes_latency : Agree (readVotes true) (seq decodeLandedVote) := by
  simp only [readVotes, loop_push]
  exact agree_readU64.bind fun count => agree_readVote_latency.replicateM count

theorem agree_readVotes_lockouts :
    Agree (readVotes false) (VoteStateVersions.landedVotesFromLockouts <$> seq decodeLockout) := by
  have lockout : Agree (do
      let slot ← readU64
      let confirmationCount ← readU32
      pure (Lockout.newWithConfirmationCount slot confirmationCount) : CursorReader Lockout) decodeLockout :=
    agree_readU64.bind fun _ => agree_readU32.bind fun _ => Agree.pure _
  simp only [readVotes, loop_push, readVote_false, replicateM_map]
  simp only [seq, map_bind]
  exact agree_readU64.bind fun count => (lockout.replicateM count).map _

theorem agree_readAuthorizedVoters : Agree readAuthorizedVoters decodeAuthorizedVoters :=
  agree_readU64.bind fun count =>
    Agree.loop (agree_readU64.bind fun _ => agree_readPubkey.bind fun _ => Agree.pure _) _ count _

theorem agree_readPriorVotersInto : Agree readPriorVotersInto decodePriorVoters := by
  have entry : Agree readPriorVoter decodePriorVoter :=
    agree_readPubkey.bind fun _ => agree_readU64.bind fun _ => agree_readU64.bind fun _ => Agree.pure _
  rw [readPriorVotersInto, loop_push]
  exact (entry.replicateM maxItems).bind fun _ => agree_readU64.bind fun _ => agree_readBool.bind fun _ =>
    Agree.pure _

theorem agree_readEpochCredits : Agree readEpochCredits (seq decodeEpochCredit) := by
  have entry : Agree readEpochCredit decodeEpochCredit :=
    agree_readU64.bind fun _ => agree_readU64.bind fun _ => agree_readU64.bind fun _ => Agree.pure _
  simp only [readEpochCredits, loop_push]
  exact agree_readU64.bind fun count => entry.replicateM count

theorem agree_readLastTimestampInto : Agree readLastTimestampInto decodeBlockTimestamp :=
  agree_readU64.bind fun _ => agree_readI64.bind fun _ => Agree.pure _

/-! ### The two layouts the hand-written decoder reads -/

section Fields

variable {ε ε' : Type}

/-- The fields of the current layout in order, each read by its reader: `VoteState1_14_11`,
converted, and `VoteState` differ only in the reader of the votes. -/
def readFields (pubkey : Decoder ε Pubkey) (commission : Decoder ε Nat) (votes : Decoder ε (List LandedVote))
    (rootSlot : Decoder ε (Option Slot)) (authorizedVoters : Decoder ε AuthorizedVoters)
    (priorVoters : Decoder ε (CircBuf (Pubkey × Epoch × Epoch)))
    (epochCredits : Decoder ε (List (Epoch × Nat × Nat))) (lastTimestamp : Decoder ε BlockTimestamp) :
    Decoder ε VoteState := do
  let nodePubkey ← pubkey
  let authorizedWithdrawer ← pubkey
  let commission ← commission
  let votes ← votes
  let rootSlot ← rootSlot
  let authorizedVoters ← authorizedVoters
  let priorVoters ← priorVoters
  let epochCredits ← epochCredits
  let lastTimestamp ← lastTimestamp
  pure ⟨nodePubkey, authorizedWithdrawer, commission, votes, rootSlot, authorizedVoters, priorVoters,
    epochCredits, lastTimestamp⟩

theorem Agree.readFields {pubkey₁ : Decoder ε Pubkey} {pubkey₂ : Decoder ε' Pubkey}
    {commission₁ : Decoder ε Nat} {commission₂ : Decoder ε' Nat}
    {votes₁ : Decoder ε (List LandedVote)} {votes₂ : Decoder ε' (List LandedVote)}
    {rootSlot₁ : Decoder ε (Option Slot)} {rootSlot₂ : Decoder ε' (Option Slot)}
    {voters₁ : Decoder ε AuthorizedVoters} {voters₂ : Decoder ε' AuthorizedVoters}
    {prior₁ : Decoder ε (CircBuf (Pubkey × Epoch × Epoch))} {prior₂ : Decoder ε' (CircBuf (Pubkey × Epoch × Epoch))}
    {credits₁ : Decoder ε (List (Epoch × Nat × Nat))} {credits₂ : Decoder ε' (List (Epoch × Nat × Nat))}
    {timestamp₁ : Decoder ε BlockTimestamp} {timestamp₂ : Decoder ε' BlockTimestamp}
    (pubkey : Agree pubkey₁ pubkey₂) (commission : Agree commission₁ commission₂) (votes : Agree votes₁ votes₂)
    (rootSlot : Agree rootSlot₁ rootSlot₂) (voters : Agree voters₁ voters₂) (prior : Agree prior₁ prior₂)
    (credits : Agree credits₁ credits₂) (timestamp : Agree timestamp₁ timestamp₂) :
    Agree (readFields pubkey₁ commission₁ votes₁ rootSlot₁ voters₁ prior₁ credits₁ timestamp₁)
      (readFields pubkey₂ commission₂ votes₂ rootSlot₂ voters₂ prior₂ credits₂ timestamp₂) :=
  pubkey.bind fun _ => pubkey.bind fun _ => commission.bind fun _ => votes.bind fun _ => rootSlot.bind fun _ =>
    voters.bind fun _ => prior.bind fun _ => credits.bind fun _ => timestamp.bind fun _ => Agree.pure _

end Fields

theorem convertToCurrent_decodeVoteState1_14_11 :
    (fun state => (VoteStateVersions.v1_14_11 state).convertToCurrent) <$> decodeVoteState1_14_11 =
      readFields decodePubkey u8 (VoteStateVersions.landedVotesFromLockouts <$> seq decodeLockout) (option u64)
        decodeAuthorizedVoters decodePriorVoters (seq decodeEpochCredit) decodeBlockTimestamp := by
  simp only [decodeVoteState1_14_11, readFields, map_bind, map_pure, bind_map_left]
  rfl

theorem agree_deserializeVoteStateInto_current : Agree (deserializeVoteStateInto true) decodeVoteState :=
  Agree.readFields agree_readPubkey agree_readU8 agree_readVotes_latency agree_readOptionU64
    agree_readAuthorizedVoters agree_readPriorVotersInto agree_readEpochCredits agree_readLastTimestampInto

theorem agree_deserializeVoteStateInto_1_14_11 :
    Agree (deserializeVoteStateInto false)
      ((fun state => (VoteStateVersions.v1_14_11 state).convertToCurrent) <$> decodeVoteState1_14_11) := by
  rw [convertToCurrent_decodeVoteState1_14_11]
  exact Agree.readFields agree_readPubkey agree_readU8 agree_readVotes_lockouts agree_readOptionU64
    agree_readAuthorizedVoters agree_readPriorVotersInto agree_readEpochCredits agree_readLastTimestampInto

/-! ### The decoder against `bincode` -/

theorem value_eq_ok_iff_of_agree {α : Type} {d : CursorReader VoteState} {layout : Bincode.Decoder α}
    {tag : α → VoteStateVersions} (agree : Agree d ((fun s => (tag s).convertToCurrent) <$> layout))
    (notOldest : ∀ s, (tag s).isV0_23_5 = false) (targetOsSolana : Bool) (rest : List UInt8) (state : VoteState) :
    (·.1) <$> d.run rest = .ok state ↔
      ∃ versioned, Bincode.deserialize (tag <$> layout) rest = .ok versioned ∧
        (targetOsSolana = true → versioned.isV0_23_5 = false) ∧ versioned.convertToCurrent = state := by
  rw [agree.value_eq_ok_iff]
  change Bincode.deserialize _ rest = _ ↔ _
  rw [deserialize_map, map_eq_ok]
  constructor
  · rintro ⟨s, read, rfl⟩
    exact ⟨tag s, by rw [deserialize_map, read]; rfl, fun _ => notOldest s, rfl⟩
  · rintro ⟨versioned, read, -, rfl⟩
    rw [deserialize_map, map_eq_ok] at read
    obtain ⟨s, read, rfl⟩ := read
    exact ⟨s, read, rfl⟩

theorem deserializeIntoUninit_eq_ok_iff (targetOsSolana : Bool) (input : List UInt8) (state : VoteState) :
    deserializeIntoUninit targetOsSolana input = .ok state ↔
      ∃ versioned, Bincode.deserialize decodeVoteStateVersions input = .ok versioned ∧
        (targetOsSolana = true → versioned.isV0_23_5 = false) ∧ versioned.convertToCurrent = state := by
  unfold deserializeIntoUninit deserializeIntoPtr
  rcases agree_readU32.run_cases input with ⟨⟨variant, rest⟩, hand, ref⟩ | ⟨⟨e, hand⟩, ⟨e', ref⟩⟩
  · rw [hand, deserialize_decodeVoteStateVersions ref]
    match variant with
    | 0 =>
      -- the oldest layout, which only `bincode` reads, and only off the chain
      rw [if_pos (show 0 < 3 by decide), decodeVersion, deserialize_map]
      cases targetOsSolana with
      | true =>
        constructor
        · intro failed
          cases failed
        · rintro ⟨versioned, read, refused, -⟩
          obtain ⟨old, -, rfl⟩ := map_eq_ok.mp read
          cases refused rfl
      | false =>
        dsimp only
        cases read : Bincode.deserialize decodeVoteState0_23_5 rest with
        | error e =>
          constructor
          · intro failed
            cases failed
          · rintro ⟨_, failed, -⟩
            cases failed
        | ok old =>
          constructor
          · intro found
            cases found
            exact ⟨_, rfl, fun failed => (Bool.false_ne_true failed).elim, rfl⟩
          · rintro ⟨_, found, -, rfl⟩
            cases found
            rfl
    | 1 =>
      rw [if_pos (show 1 < 3 by decide), decodeVersion]
      exact value_eq_ok_iff_of_agree agree_deserializeVoteStateInto_1_14_11 (fun _ => rfl) targetOsSolana rest state
    | 2 =>
      have current : Agree (deserializeVoteStateInto true)
          ((fun s => (VoteStateVersions.current s).convertToCurrent) <$> decodeVoteState) := by
        rw [show (fun s => (VoteStateVersions.current s).convertToCurrent) = (fun s => s) from rfl, id_map']
        exact agree_deserializeVoteStateInto_current
      rw [if_pos (show 2 < 3 by decide), decodeVersion]
      exact value_eq_ok_iff_of_agree current (fun _ => rfl) targetOsSolana rest state
    | n + 3 =>
      rw [if_neg (show ¬n + 3 < 3 by omega)]
      constructor
      · intro failed
        cases failed
      · rintro ⟨_, failed, -⟩
        cases failed
  · rw [hand, deserialize_decodeVoteStateVersions_of_error ref]
    constructor
    · intro failed
      cases failed
    · rintro ⟨_, failed, -⟩
      cases failed

theorem deserializeIntoUninit_eq_bincode (targetOsSolana : Bool) (input : List UInt8) (state : VoteState) :
    (deserializeIntoUninit targetOsSolana input = .ok state ↔
      ∃ versioned, Bincode.deserialize decodeVoteStateVersions input = .ok versioned ∧
        (targetOsSolana = true → versioned.isV0_23_5 = false) ∧ versioned.convertToCurrent = state) ∧
    ∀ suffix, (deserializeIntoUninit targetOsSolana input = .ok state →
        deserializeIntoUninit targetOsSolana (input ++ suffix) = .ok state) ∧
      ∀ versioned, Bincode.deserialize decodeVoteStateVersions input = .ok versioned →
        Bincode.deserialize decodeVoteStateVersions (input ++ suffix) = .ok versioned := by
  refine ⟨deserializeIntoUninit_eq_ok_iff targetOsSolana input state, fun suffix => ⟨fun read => ?_,
    fun versioned read => deserialize_append prefixed_decodeVoteStateVersions read suffix⟩⟩
  -- trailing bytes: `bincode` leaves them unread, and the decoder succeeds where it does
  obtain ⟨versioned, found, taken, converted⟩ := (deserializeIntoUninit_eq_ok_iff targetOsSolana input state).mp read
  exact (deserializeIntoUninit_eq_ok_iff targetOsSolana (input ++ suffix) state).mpr
    ⟨versioned, deserialize_append prefixed_decodeVoteStateVersions found suffix, taken, converted⟩

end Account

end VoteProgram
