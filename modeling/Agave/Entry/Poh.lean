import Mathlib
import Agave.Library.MachineInt

/-! Proof of History (`entry/src/poh.rs`, `entry/src/entry.rs`): the generator `Poh`, which hashes
without pause and mixes transactions in, and the checks a validator runs on the entries it
receives. `Entry::verify` re-runs a generator in low power mode from the previous entry's hash;
`EntrySlice::verify_tick_hash_count` counts the hashes of every tick; `verify_ticks`
(`ledger/src/blockstore_processor.rs`) checks the ticks of a slot. The hash functions are
parameters, and nothing is assumed of `hash`, `hashv` or `hash_transactions`. -/

namespace ProofOfHistory

open MachineInt

/-- `LOW_POWER_MODE`: the hashes per tick of a generator that emits an entry on every tick. -/
def lowPowerMode : Nat := maxValue 64

theorem one_lt_lowPowerMode : 1 < lowPowerMode := by decide

/-- `Poh`, without `slot_start_time`, which only `target_poh_time` reads. The counters are `u64`. -/
structure Poh (Hash : Type) where
  hash : Hash
  numHashes : Nat
  hashesPerTick : Nat
  remainingHashes : Nat
  tickNumber : Nat
  deriving DecidableEq, Repr

/-- `PohEntry`. -/
structure PohEntry (Hash : Type) where
  numHashes : Nat
  hash : Hash
  deriving DecidableEq, Repr

variable {Hash Tx : Type}

namespace Poh

/-- `Poh::new_with_slot_info`; `none` is the failed `assert!(hashes_per_tick > 1)`. -/
def newWithSlotInfo (hash : Hash) (hashesPerTick : Option Nat) (tickNumber : Nat) : Option (Poh Hash) :=
  let hashesPerTick := hashesPerTick.getD lowPowerMode
  if hashesPerTick > 1 then
    some
      { hash := hash
        numHashes := 0
        hashesPerTick := hashesPerTick
        remainingHashes := hashesPerTick
        tickNumber := tickNumber }
  else none

/-- `Poh::new`. -/
def new (hash : Hash) (hashesPerTick : Option Nat) : Option (Poh Hash) :=
  newWithSlotInfo hash hashesPerTick 0

theorem new_some {hash : Hash} {hashesPerTick : Nat} (atLeastTwo : 1 < hashesPerTick) :
    Poh.new hash (some hashesPerTick) = some ⟨hash, 0, hashesPerTick, hashesPerTick, 0⟩ := by
  simp [new, newWithSlotInfo, atLeastTwo]

theorem new_none (hash : Hash) : Poh.new hash none = some ⟨hash, 0, lowPowerMode, lowPowerMode, 0⟩ := by
  simp [new, newWithSlotInfo, one_lt_lowPowerMode]

section Hashing

variable (hash : Hash → Hash) (hashv : Hash → Hash → Hash)

/-- `Poh::hash` (named for what it does, `hash` being the field): up to `maxNumHashes` hashes,
always leaving one for the tick. `none` is the `u64` underflow of `remaining_hashes - 1` or the
failed `assert!`; the flag asks the caller to tick next. -/
def hashMany (poh : Poh Hash) (maxNumHashes : Nat) : Option (Poh Hash × Bool) := do
  let remaining ← checkedSub poh.remainingHashes 1
  let numHashes := min remaining maxNumHashes
  let poh := { poh with
    hash := hash^[numHashes] poh.hash
    numHashes := poh.numHashes + numHashes
    remainingHashes := poh.remainingHashes - numHashes }
  if poh.remainingHashes > 0 then some (poh, poh.remainingHashes == 1) else none

/-- `Poh::record`: the mixin goes into the next hash, which ends the entry. When only the tick's own
hash is left, nothing is recorded and the caller must tick first. -/
def record (poh : Poh Hash) (mixin : Hash) : Option (Poh Hash × Option (PohEntry Hash)) :=
  if poh.remainingHashes = 1 then some (poh, none)
  else do
    let remainingHashes ← checkedSub poh.remainingHashes 1
    pure ({ poh with hash := hashv poh.hash mixin, numHashes := 0, remainingHashes := remainingHashes },
      some ⟨poh.numHashes + 1, hashv poh.hash mixin⟩)

/-- `Poh::tick`: one more hash. Outside low power mode it emits an entry only on the last hash of
the tick, and then starts the next tick. -/
def tick (poh : Poh Hash) : Option (Poh Hash × Option (PohEntry Hash)) := do
  let remainingHashes ← checkedSub poh.remainingHashes 1
  let poh := { poh with hash := hash poh.hash, numHashes := poh.numHashes + 1, remainingHashes := remainingHashes }
  if poh.hashesPerTick ≠ lowPowerMode ∧ poh.remainingHashes ≠ 0 then pure (poh, none)
  else
    pure ({ poh with remainingHashes := poh.hashesPerTick, numHashes := 0, tickNumber := poh.tickNumber + 1 },
      some ⟨poh.numHashes, poh.hash⟩)

theorem hashMany_eq {poh : Poh Hash} (remaining : 0 < poh.remainingHashes) (maxNumHashes : Nat) :
    poh.hashMany hash maxNumHashes =
      some ({ poh with
          hash := hash^[min (poh.remainingHashes - 1) maxNumHashes] poh.hash
          numHashes := poh.numHashes + min (poh.remainingHashes - 1) maxNumHashes
          remainingHashes := poh.remainingHashes - min (poh.remainingHashes - 1) maxNumHashes },
        poh.remainingHashes - min (poh.remainingHashes - 1) maxNumHashes == 1) := by
  simp [hashMany, checkedSub, Nat.one_le_iff_ne_zero.2 remaining.ne']
  omega

theorem hashMany_of_lt {poh : Poh Hash} {maxNumHashes : Nat} (fits : maxNumHashes < poh.remainingHashes) :
    poh.hashMany hash maxNumHashes =
      some ({ poh with
          hash := hash^[maxNumHashes] poh.hash
          numHashes := poh.numHashes + maxNumHashes
          remainingHashes := poh.remainingHashes - maxNumHashes },
        poh.remainingHashes - maxNumHashes == 1) := by
  rw [hashMany_eq hash (by omega), min_eq_right (by omega)]

theorem record_of_tick_due {poh : Poh Hash} (due : poh.remainingHashes = 1) (mixin : Hash) :
    poh.record hashv mixin = some (poh, none) := by
  simp [record, due]

theorem record_of_lt {poh : Poh Hash} (pending : 1 < poh.remainingHashes) (mixin : Hash) :
    poh.record hashv mixin =
      some ({ poh with
          hash := hashv poh.hash mixin
          numHashes := 0
          remainingHashes := poh.remainingHashes - 1 },
        some ⟨poh.numHashes + 1, hashv poh.hash mixin⟩) := by
  simp [record, checkedSub, pending.ne', pending.le]

theorem tick_of_pending {poh : Poh Hash} (notLowPower : poh.hashesPerTick ≠ lowPowerMode)
    (pending : 1 < poh.remainingHashes) :
    poh.tick hash =
      some ({ poh with
          hash := hash poh.hash
          numHashes := poh.numHashes + 1
          remainingHashes := poh.remainingHashes - 1 }, none) := by
  have left : poh.remainingHashes - 1 ≠ 0 := by omega
  simp [tick, checkedSub, pending.le, notLowPower, left]

theorem tick_of_last {poh : Poh Hash} (remaining : 0 < poh.remainingHashes)
    (last : poh.hashesPerTick = lowPowerMode ∨ poh.remainingHashes = 1) :
    poh.tick hash =
      some ({ poh with
          hash := hash poh.hash
          numHashes := 0
          remainingHashes := poh.hashesPerTick
          tickNumber := poh.tickNumber + 1 }, some ⟨poh.numHashes + 1, hash poh.hash⟩) := by
  have emits : ¬(poh.hashesPerTick ≠ lowPowerMode ∧ poh.remainingHashes - 1 ≠ 0) := by omega
  simp only [tick, checkedSub, Nat.one_le_iff_ne_zero.2 remaining.ne', if_true]
  simp [emits]

theorem record_emits {poh poh' : Poh Hash} {mixin : Hash} {entry : PohEntry Hash}
    (recorded : poh.record hashv mixin = some (poh', some entry)) : entry.numHashes = poh.numHashes + 1 := by
  rcases Nat.lt_trichotomy poh.remainingHashes 1 with none_left | due | pending
  · simp [record, checkedSub, Nat.lt_one_iff.1 none_left] at recorded
  · simp [record_of_tick_due hashv due] at recorded
  · simp only [record_of_lt hashv pending, Option.some.injEq, Prod.mk.injEq] at recorded
    rw [← recorded.2]

theorem tick_emits {poh poh' : Poh Hash} {entry : PohEntry Hash}
    (ticked : poh.tick hash = some (poh', some entry)) : entry.numHashes = poh.numHashes + 1 := by
  rcases Nat.eq_zero_or_pos poh.remainingHashes with none_left | remaining
  · simp [tick, checkedSub, none_left] at ticked
  by_cases last : poh.hashesPerTick = lowPowerMode ∨ poh.remainingHashes = 1
  · simp only [tick_of_last hash remaining last, Option.some.injEq, Prod.mk.injEq] at ticked
    rw [← ticked.2]
  · have pending : 1 < poh.remainingHashes := by omega
    simp [tick_of_pending hash (by tauto) pending] at ticked

end Hashing

end Poh

/-- `Entry`: the hashes since the previous entry, the hash they reach, and the transactions mixed
into the last of them (none for a tick). -/
structure Entry (Hash Tx : Type) where
  numHashes : Nat
  hash : Hash
  transactions : List Tx
  deriving DecidableEq, Repr

/-- `Entry::is_tick`. -/
def Entry.isTick (entry : Entry Hash Tx) : Bool := entry.transactions.isEmpty

section Verify

variable (hash : Hash → Hash) (hashv : Hash → Hash → Hash) (hashTransactions : List Tx → Hash)

/-- `next_hash`: the hash `numHashes` after `startHash`, the last one mixing in the transactions,
computed by a generator in low power mode. `none` is the `unwrap` of a `record` that asks for a
tick first, which happens only at `numHashes = u64::MAX`. -/
def nextHash (startHash : Hash) (numHashes : Nat) (transactions : List Tx) : Option Hash :=
  if numHashes = 0 ∧ transactions.isEmpty then some startHash
  else do
    let poh ← Poh.new startHash none
    let (poh, _) ← poh.hashMany hash (numHashes - 1)
    if transactions.isEmpty then
      let (_, entry) ← poh.tick hash
      let entry ← entry
      pure entry.hash
    else
      let (_, entry) ← poh.record hashv (hashTransactions transactions)
      let entry ← entry
      pure entry.hash

/-- `Entry::new`: a transaction entry has at least the one hash that mixes them in. -/
def Entry.new (prevHash : Hash) (numHashes : Nat) (transactions : List Tx) : Option (Entry Hash Tx) := do
  let numHashes := if numHashes = 0 ∧ !transactions.isEmpty then 1 else numHashes
  let hash ← nextHash hash hashv hashTransactions prevHash numHashes transactions
  pure ⟨numHashes, hash, transactions⟩

/-- `Entry::verify`. -/
def Entry.verify [DecidableEq Hash] (entry : Entry Hash Tx) (startHash : Hash) : Option Bool := do
  let refHash ← nextHash hash hashv hashTransactions startHash entry.numHashes entry.transactions
  pure (entry.hash = refHash)

/-- `EntrySlice::verify_cpu_generic`: every entry verified against the hash of the one before it,
the first against `startHash` through a genesis tick. -/
def verifyCpuGeneric [DecidableEq Hash] (startHash : Hash) (entries : List (Entry Hash Tx)) : Option Bool :=
  let genesis : Entry Hash Tx := ⟨0, startHash, []⟩
  ((genesis :: entries).zip entries).allM fun (x0, x1) => x1.verify hash hashv hashTransactions x0.hash

theorem nextHash_zero (startHash : Hash) :
    nextHash hash hashv hashTransactions startHash 0 ([] : List Tx) = some startHash := by
  simp [nextHash]

theorem nextHash_tick {startHash : Hash} {numHashes : Nat} (positive : 0 < numHashes)
    (bound : numHashes ≤ lowPowerMode) :
    nextHash hash hashv hashTransactions startHash numHashes ([] : List Tx) = some (hash^[numHashes] startHash) := by
  have notZero : numHashes ≠ 0 := by omega
  have ran := Poh.hashMany_of_lt hash
    (show numHashes - 1 < (⟨startHash, 0, lowPowerMode, lowPowerMode, 0⟩ : Poh Hash).remainingHashes by
      dsimp only; omega)
  have ticked := Poh.tick_of_last hash
    (show 0 < (⟨hash^[numHashes - 1] startHash, numHashes - 1, lowPowerMode, lowPowerMode - (numHashes - 1), 0⟩ :
      Poh Hash).remainingHashes by dsimp only; omega) (.inl rfl)
  simp only [nextHash, notZero, false_and, if_false, Poh.new_none, Option.bind_eq_bind, Option.bind_some,
    ran, zero_add, List.isEmpty_nil, if_true, ticked]
  rw [← Function.iterate_succ_apply' hash, Nat.succ_eq_add_one, Nat.sub_add_cancel positive]
  rfl

theorem nextHash_record {startHash : Hash} {numHashes : Nat} {transactions : List Tx}
    (nonempty : transactions ≠ []) (bound : numHashes < lowPowerMode) :
    nextHash hash hashv hashTransactions startHash numHashes transactions =
      some (hashv (hash^[numHashes - 1] startHash) (hashTransactions transactions)) := by
  have notEmpty : transactions.isEmpty = false := List.isEmpty_eq_false_iff.2 nonempty
  have ran := Poh.hashMany_of_lt hash
    (show numHashes - 1 < (⟨startHash, 0, lowPowerMode, lowPowerMode, 0⟩ : Poh Hash).remainingHashes by
      dsimp only; omega)
  have recorded := Poh.record_of_lt hashv
    (show 1 < (⟨hash^[numHashes - 1] startHash, numHashes - 1, lowPowerMode, lowPowerMode - (numHashes - 1), 0⟩ :
      Poh Hash).remainingHashes by dsimp only; have := one_lt_lowPowerMode; omega) (hashTransactions transactions)
  simp only [nextHash, notEmpty, Bool.false_eq_true, and_false, if_false, Poh.new_none, Option.bind_eq_bind,
    Option.bind_some, ran, zero_add, recorded]
  rfl

theorem Entry.verify_eq_true [DecidableEq Hash] {entry : Entry Hash Tx} {startHash : Hash} :
    entry.verify hash hashv hashTransactions startHash = some true ↔
      nextHash hash hashv hashTransactions startHash entry.numHashes entry.transactions = some entry.hash := by
  unfold Entry.verify
  cases nextHash hash hashv hashTransactions startHash entry.numHashes entry.transactions with
  | none => simp
  | some refHash => simp [eq_comm]

theorem Entry.verify_new [DecidableEq Hash] {prevHash : Hash} {numHashes : Nat} {transactions : List Tx}
    {entry : Entry Hash Tx} (made : Entry.new hash hashv hashTransactions prevHash numHashes transactions = some entry) :
    entry.verify hash hashv hashTransactions prevHash = some true := by
  simp only [Entry.new, Option.bind_eq_bind, Option.bind_eq_some_iff, Option.pure_def, Option.some.injEq] at made
  obtain ⟨hash', computed, rfl⟩ := made
  exact (Entry.verify_eq_true hash hashv hashTransactions).2 computed

@[simp] theorem verifyCpuGeneric_nil [DecidableEq Hash] (startHash : Hash) :
    verifyCpuGeneric hash hashv hashTransactions startHash ([] : List (Entry Hash Tx)) = some true := rfl

theorem verifyCpuGeneric_cons [DecidableEq Hash] (startHash : Hash) (entry : Entry Hash Tx)
    (entries : List (Entry Hash Tx)) :
    verifyCpuGeneric hash hashv hashTransactions startHash (entry :: entries) =
      (entry.verify hash hashv hashTransactions startHash).bind fun ok =>
        if ok then verifyCpuGeneric hash hashv hashTransactions entry.hash entries else some false := by
  -- the rest of the pairs read only the hash of the entry before each, so the entry itself may
  -- stand in for the genesis tick of the shorter list
  have rest : ((entry :: entries).zip entries).allM
        (fun (x0, x1) => x1.verify hash hashv hashTransactions x0.hash) =
      verifyCpuGeneric hash hashv hashTransactions entry.hash entries := by
    cases entries with
    | nil => rfl
    | cons next entries => simp [verifyCpuGeneric]
  simp only [verifyCpuGeneric, List.zip_cons_cons, List.allM] at rest ⊢
  rw [← rest]
  cases entry.verify hash hashv hashTransactions startHash with
  | none => rfl
  | some ok => cases ok <;> rfl

end Verify

/-- `EntrySlice::verify_tick_hash_count`: the hashes since the last tick, carried in
`tickHashCount` from the slices before, add up to `hashesPerTick` at every tick and stay below it
after the last. It returns the verdict and the count carried on. -/
def verifyTickHashCount (entries : List (Entry Hash Tx)) (tickHashCount hashesPerTick : Nat) : Bool × Nat :=
  -- zero hashes per tick disables the check
  if hashesPerTick = 0 then (true, tickHashCount)
  else go entries tickHashCount
where
  go : List (Entry Hash Tx) → Nat → Bool × Nat
  | [], tickHashCount => (decide (tickHashCount < hashesPerTick), tickHashCount)
  | entry :: entries, tickHashCount =>
    let tickHashCount := saturatingAdd 64 tickHashCount entry.numHashes
    if entry.isTick then
      if tickHashCount ≠ hashesPerTick then (false, tickHashCount) else go entries 0
    else go entries tickHashCount

theorem verifyTickHashCount_of_pos {entries : List (Entry Hash Tx)} {tickHashCount hashesPerTick : Nat}
    (positive : 0 < hashesPerTick) :
    verifyTickHashCount entries tickHashCount hashesPerTick = verifyTickHashCount.go hashesPerTick entries tickHashCount := by
  simp [verifyTickHashCount, positive.ne']

/-- `EntrySlice::tick_count`. -/
def tickCount (entries : List (Entry Hash Tx)) : Nat := (entries.filter Entry.isTick).length

/-- `BlockError`, the variants `verify_ticks` returns. -/
inductive BlockError where
  | tooManyTicks
  | tooFewTicks
  | trailingEntry
  | invalidLastTick
  | invalidTickHashCount
  deriving DecidableEq, Repr

/-- The fields of a `Bank` that `verify_ticks` reads. -/
structure TickBank where
  tickHeight : Nat
  maxTickHeight : Nat
  hashesPerTick : Option Nat
  deriving DecidableEq, Repr

/-- `verify_ticks`: the slot's ticks do not pass its last tick height, a full slot reaches it and
ends with a tick, and every tick has its hashes. It returns the tick hash count carried on. -/
def verifyTicks (bank : TickBank) (entries : List (Entry Hash Tx)) (slotFull : Bool) (tickHashCount : Nat) :
    Except BlockError Nat :=
  let nextBankTickHeight := bank.tickHeight + tickCount entries
  if nextBankTickHeight > bank.maxTickHeight then .error .tooManyTicks
  else if nextBankTickHeight < bank.maxTickHeight ∧ slotFull then .error .tooFewTicks
  else if nextBankTickHeight = bank.maxTickHeight ∧ (entries.getLast?.map (!·.isTick)).getD false then
    .error .trailingEntry
  else if nextBankTickHeight = bank.maxTickHeight ∧ !slotFull then .error .invalidLastTick
  else
    let (verified, tickHashCount) := verifyTickHashCount entries tickHashCount (bank.hashesPerTick.getD 0)
    if !verified then .error .invalidTickHashCount else .ok tickHashCount

theorem verifyTicks_full {bank : TickBank} {entries : List (Entry Hash Tx)} {tickHashCount tickHashCount' : Nat}
    (verified : verifyTicks bank entries true tickHashCount = .ok tickHashCount') :
    bank.tickHeight + tickCount entries = bank.maxTickHeight ∧
      ∀ entry ∈ entries.getLast?, entry.isTick = true := by
  unfold verifyTicks at verified
  by_cases tooMany : bank.tickHeight + tickCount entries > bank.maxTickHeight
  · simp [tooMany] at verified
  by_cases tooFew : bank.tickHeight + tickCount entries < bank.maxTickHeight
  · simp [tooMany, tooFew] at verified
  have reached : bank.tickHeight + tickCount entries = bank.maxTickHeight := by omega
  refine ⟨reached, fun entry last => ?_⟩
  cases tick : entry.isTick
  · simp [reached, Option.mem_def.1 last, tick] at verified
  · rfl

end ProofOfHistory
