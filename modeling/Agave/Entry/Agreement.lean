import Mathlib
import Agave.Entry.Poh

/-! Generation and verification of Proof of History agree. A PoH service drives a generator with
`hash`, `record` and `tick` calls, turns each recorded `PohEntry` into an `Entry` with the
transactions it mixed in and each emitted tick into an `Entry` without transactions. Outside low
power mode, every such run succeeds and its entries pass `verify_cpu_generic` and
`verify_tick_hash_count` (`Tracks.run`), and every entry list that passes both, each entry of at
least one hash, is the output of such a run (`Tracks.run_of_verified`).

A run keeps one invariant, `Tracks`: the verifier's tick hash count, the generator's pending hashes
and its remaining hashes add up to a tick, and the generator's hash is its pending hashes applied
to the last entry's hash. What the verifiers do with one entry is `Admits`. -/

namespace ProofOfHistory

open MachineInt

variable {Hash Tx : Type}

/-- The calls a PoH service makes on its generator; a record mixes in `hash_transactions` of its
transactions. -/
inductive PohCall (Tx : Type) where
  | hash (maxNumHashes : Nat)
  | record (transactions : List Tx)
  | tick
  deriving DecidableEq, Repr

/-- The calls of a service that records only non-empty transaction lists. -/
def RecordsNonempty (calls : List (PohCall Tx)) : Prop :=
  ∀ transactions, PohCall.record transactions ∈ calls → transactions ≠ []

section Run

variable (hash : Hash → Hash) (hashv : Hash → Hash → Hash) (hashTransactions : List Tx → Hash)

/-- One call and the entry it emits: a recorded `PohEntry` carries its transactions, a tick none. -/
def Poh.call (poh : Poh Hash) : PohCall Tx → Option (Poh Hash × Option (Entry Hash Tx))
  | .hash maxNumHashes => (poh.hashMany hash maxNumHashes).map fun (poh, _) => (poh, none)
  | .record transactions => (poh.record hashv (hashTransactions transactions)).map fun (poh, entry) =>
      (poh, entry.map fun entry => ⟨entry.numHashes, entry.hash, transactions⟩)
  | .tick => (poh.tick hash).map fun (poh, entry) => (poh, entry.map fun entry => ⟨entry.numHashes, entry.hash, []⟩)

/-- A run of calls and the entries it emits; `none` when a call panics. -/
def Poh.run (poh : Poh Hash) : List (PohCall Tx) → Option (Poh Hash × List (Entry Hash Tx))
  | [] => some (poh, [])
  | call :: calls => do
    let (poh, entry) ← poh.call hash hashv hashTransactions call
    let (poh, entries) ← poh.run calls
    pure (poh, entry.toList ++ entries)

@[simp] theorem Poh.run_nil (poh : Poh Hash) :
    poh.run hash hashv hashTransactions ([] : List (PohCall Tx)) = some (poh, []) := rfl

theorem Poh.run_cons {poh poh' : Poh Hash} {call : PohCall Tx} {entry : Option (Entry Hash Tx)}
    (called : poh.call hash hashv hashTransactions call = some (poh', entry)) (calls : List (PohCall Tx)) :
    poh.run hash hashv hashTransactions (call :: calls) =
      (poh'.run hash hashv hashTransactions calls).map fun (poh, entries) => (poh, entry.toList ++ entries) := by
  simp only [Poh.run, called, Option.bind_eq_bind, Option.bind_some]
  cases poh'.run hash hashv hashTransactions calls <;> rfl

theorem Poh.run_append {poh poh' : Poh Hash} {calls : List (PohCall Tx)} {entries : List (Entry Hash Tx)}
    (ran : poh.run hash hashv hashTransactions calls = some (poh', entries)) (calls' : List (PohCall Tx)) :
    poh.run hash hashv hashTransactions (calls ++ calls') =
      (poh'.run hash hashv hashTransactions calls').map fun (poh, entries') => (poh, entries ++ entries') := by
  induction calls generalizing poh entries with
  | nil =>
    simp only [Poh.run_nil, Option.some.injEq, Prod.mk.injEq] at ran
    obtain ⟨rfl, rfl⟩ := ran
    simp only [List.nil_append]
    cases poh.run hash hashv hashTransactions calls' <;> rfl
  | cons call calls ih =>
    simp only [Poh.run, Option.bind_eq_bind, Option.bind_eq_some_iff, Option.pure_def, Option.some.injEq] at ran
    obtain ⟨⟨poh₁, entry⟩, called, ⟨poh₂, rest⟩, ranRest, same⟩ := ran
    simp only [Prod.mk.injEq] at same
    obtain ⟨rfl, rfl⟩ := same
    rw [List.cons_append, Poh.run_cons hash hashv hashTransactions called, ih ranRest]
    cases poh₂.run hash hashv hashTransactions calls' <;> simp

theorem Poh.call_numHashes_pos {poh poh' : Poh Hash} {call : PohCall Tx} {entry : Entry Hash Tx}
    (called : poh.call hash hashv hashTransactions call = some (poh', some entry)) : 1 ≤ entry.numHashes := by
  cases call with
  | hash maxNumHashes => simp [Poh.call] at called
  | record transactions =>
    cases recorded : poh.record hashv (hashTransactions transactions) with
    | none => simp [Poh.call, recorded] at called
    | some result =>
      obtain ⟨poh₁, pohEntry⟩ := result
      cases pohEntry with
      | none => simp [Poh.call, recorded] at called
      | some pohEntry =>
        simp only [Poh.call, recorded, Option.map_some, Option.some.injEq, Prod.mk.injEq] at called
        rw [← called.2]
        show 1 ≤ pohEntry.numHashes
        rw [Poh.record_emits hashv recorded]
        omega
  | tick =>
    cases ticked : poh.tick hash with
    | none => simp [Poh.call, ticked] at called
    | some result =>
      obtain ⟨poh₁, pohEntry⟩ := result
      cases pohEntry with
      | none => simp [Poh.call, ticked] at called
      | some pohEntry =>
        simp only [Poh.call, ticked, Option.map_some, Option.some.injEq, Prod.mk.injEq] at called
        rw [← called.2]
        show 1 ≤ pohEntry.numHashes
        rw [Poh.tick_emits hash ticked]
        omega

theorem Poh.run_numHashes_pos {poh poh' : Poh Hash} {calls : List (PohCall Tx)} {entries : List (Entry Hash Tx)}
    (ran : poh.run hash hashv hashTransactions calls = some (poh', entries)) :
    ∀ entry ∈ entries, 1 ≤ entry.numHashes := by
  induction calls generalizing poh entries with
  | nil =>
    simp only [Poh.run_nil, Option.some.injEq, Prod.mk.injEq] at ran
    simp [← ran.2]
  | cons call calls ih =>
    simp only [Poh.run, Option.bind_eq_bind, Option.bind_eq_some_iff, Option.pure_def, Option.some.injEq] at ran
    obtain ⟨⟨poh₁, emitted⟩, called, ⟨poh₂, rest⟩, ranRest, same⟩ := ran
    simp only [Prod.mk.injEq] at same
    obtain ⟨rfl, rfl⟩ := same
    intro entry mem
    rcases List.mem_append.1 mem with first | later
    · cases emitted with
      | none => cases first
      | some emitted =>
        simp only [Option.toList_some, List.mem_singleton] at first
        exact first ▸ Poh.call_numHashes_pos hash hashv hashTransactions called
    · exact ih ranRest entry later

end Run

section Agreement

variable (hash : Hash → Hash) (hashv : Hash → Hash → Hash) (hashTransactions : List Tx → Hash)
variable [DecidableEq Hash] {hashesPerTick : Nat}

/-- What the two verifiers make of one more entry: it verifies against the last hash, and the tick
hash count moves on as `verify_tick_hash_count` moves it, back to zero after a tick of exactly
`hashesPerTick` hashes. -/
def Admits (hashesPerTick : Nat) (lastHash : Hash) (tickHashCount : Nat) (entry : Entry Hash Tx)
    (tickHashCount' : Nat) : Prop :=
  entry.verify hash hashv hashTransactions lastHash = some true ∧
    if entry.isTick then saturatingAdd 64 tickHashCount entry.numHashes = hashesPerTick ∧ tickHashCount' = 0
    else tickHashCount' = saturatingAdd 64 tickHashCount entry.numHashes

theorem verified_cons {lastHash : Hash} {tickHashCount : Nat} {entry : Entry Hash Tx}
    {entries : List (Entry Hash Tx)} :
    (verifyCpuGeneric hash hashv hashTransactions lastHash (entry :: entries) = some true ∧
        (verifyTickHashCount.go hashesPerTick (entry :: entries) tickHashCount).1 = true) ↔
      ∃ tickHashCount', Admits hash hashv hashTransactions hashesPerTick lastHash tickHashCount entry tickHashCount' ∧
        verifyCpuGeneric hash hashv hashTransactions entry.hash entries = some true ∧
        (verifyTickHashCount.go hashesPerTick entries tickHashCount').1 = true := by
  rw [verifyCpuGeneric_cons]
  cases verified : entry.verify hash hashv hashTransactions lastHash with
  | none => simp [Admits, verified]
  | some ok =>
    cases ok
    · simp [Admits, verified]
    · cases tick : entry.isTick
      · simp [Admits, verified, tick, verifyTickHashCount.go]
      · by_cases counted : saturatingAdd 64 tickHashCount entry.numHashes = hashesPerTick
        · simp [Admits, verified, tick, verifyTickHashCount.go, counted]
        · simp [Admits, verified, tick, verifyTickHashCount.go, counted]

theorem saturatingAdd_eq_of_le (notLowPower : hashesPerTick < lowPowerMode) {count numHashes : Nat}
    (within : saturatingAdd 64 count numHashes ≤ hashesPerTick) : saturatingAdd 64 count numHashes = count + numHashes := by
  unfold saturatingAdd at within ⊢
  unfold lowPowerMode at notLowPower
  omega

omit [DecidableEq Hash] in
theorem count_lt_of_verified (notLowPower : hashesPerTick < lowPowerMode) {entries : List (Entry Hash Tx)}
    (positive : ∀ entry ∈ entries, 1 ≤ entry.numHashes) {tickHashCount : Nat}
    (verified : (verifyTickHashCount.go hashesPerTick entries tickHashCount).1 = true) :
    tickHashCount < hashesPerTick := by
  induction entries generalizing tickHashCount with
  | nil => simpa [verifyTickHashCount.go] using verified
  | cons entry entries ih =>
    have hashed := positive entry (by simp)
    have after : saturatingAdd 64 tickHashCount entry.numHashes ≤ hashesPerTick := by
      cases tick : entry.isTick
      · simp only [verifyTickHashCount.go, tick, Bool.false_eq_true, if_false] at verified
        exact (ih (fun e mem => positive e (by simp [mem])) verified).le
      · by_cases counted : saturatingAdd 64 tickHashCount entry.numHashes = hashesPerTick
        · exact counted.le
        · simp [verifyTickHashCount.go, tick, counted] at verified
    have sum := saturatingAdd_eq_of_le notLowPower after
    omega

/-- A generator in step with verifiers that accepted its entries so far: the last ends in
`lastHash`, and `tickHashCount` hashes were counted since the last tick. -/
structure Tracks (hashesPerTick : Nat) (lastHash : Hash) (tickHashCount : Nat) (poh : Poh Hash) : Prop where
  hashesPerTick_eq : poh.hashesPerTick = hashesPerTick
  remaining_pos : 0 < poh.remainingHashes
  counted : tickHashCount + poh.numHashes + poh.remainingHashes = hashesPerTick
  hash_eq : poh.hash = hash^[poh.numHashes] lastHash

omit [DecidableEq Hash] in
theorem tracks_new {h0 : Hash} (atLeastTwo : 2 ≤ hashesPerTick) :
    Tracks hash hashesPerTick h0 0 ⟨h0, 0, hashesPerTick, hashesPerTick, 0⟩ :=
  ⟨rfl, by dsimp only; omega, by dsimp only; omega, rfl⟩

variable {hash}
variable {lastHash : Hash} {tickHashCount : Nat} {poh : Poh Hash}

omit [DecidableEq Hash] in
theorem Tracks.hashMany (tracks : Tracks hash hashesPerTick lastHash tickHashCount poh) (maxNumHashes : Nat) :
    ∃ poh', poh.call hash hashv hashTransactions (.hash maxNumHashes) = some (poh', none) ∧
      Tracks hash hashesPerTick lastHash tickHashCount poh' ∧ poh'.tickNumber = poh.tickNumber := by
  have counted := tracks.counted
  set numHashes := min (poh.remainingHashes - 1) maxNumHashes with numHashes_eq
  refine ⟨{ poh with
      hash := hash^[numHashes] poh.hash
      numHashes := poh.numHashes + numHashes
      remainingHashes := poh.remainingHashes - numHashes }, ?_, ⟨?_, ?_, ?_, ?_⟩, rfl⟩
  · simp [Poh.call, Poh.hashMany_eq hash tracks.remaining_pos, ← numHashes_eq]
  · exact tracks.hashesPerTick_eq
  · have := tracks.remaining_pos
    dsimp only; omega
  · dsimp only; omega
  · dsimp only
    rw [tracks.hash_eq, Nat.add_comm poh.numHashes, Function.iterate_add_apply]

theorem Tracks.record (tracks : Tracks hash hashesPerTick lastHash tickHashCount poh)
    (notLowPower : hashesPerTick < lowPowerMode) {transactions : List Tx} (nonempty : transactions ≠ []) :
    ∃ poh', (poh.call hash hashv hashTransactions (.record transactions) = some (poh', none) ∧
        Tracks hash hashesPerTick lastHash tickHashCount poh' ∧ poh'.tickNumber = poh.tickNumber) ∨
      ∃ entry tickHashCount', poh.call hash hashv hashTransactions (.record transactions) = some (poh', some entry) ∧
        Admits hash hashv hashTransactions hashesPerTick lastHash tickHashCount entry tickHashCount' ∧
        Tracks hash hashesPerTick entry.hash tickHashCount' poh' ∧ poh'.tickNumber = poh.tickNumber ∧
        entry.isTick = false := by
  have counted := tracks.counted
  rcases Nat.lt_or_ge 1 poh.remainingHashes with pending | due
  · have notTick : (⟨poh.numHashes + 1, hashv poh.hash (hashTransactions transactions), transactions⟩ :
        Entry Hash Tx).isTick = false := List.isEmpty_eq_false_iff.2 nonempty
    have sum : saturatingAdd 64 tickHashCount (poh.numHashes + 1) = tickHashCount + (poh.numHashes + 1) :=
      saturatingAdd_of_le (by unfold lowPowerMode at notLowPower; omega)
    refine ⟨{ poh with
        hash := hashv poh.hash (hashTransactions transactions)
        numHashes := 0
        remainingHashes := poh.remainingHashes - 1 },
      .inr ⟨⟨poh.numHashes + 1, hashv poh.hash (hashTransactions transactions), transactions⟩,
        tickHashCount + (poh.numHashes + 1), ?_, ⟨?_, ?_⟩, ⟨?_, ?_, ?_, ?_⟩, rfl, notTick⟩⟩
    · simp [Poh.call, Poh.record_of_lt hashv pending]
    · rw [Entry.verify_eq_true]
      dsimp only
      rw [nextHash_record hash hashv hashTransactions nonempty (by omega), Nat.add_sub_cancel, ← tracks.hash_eq]
    · rw [notTick, sum]
      rfl
    · exact tracks.hashesPerTick_eq
    · dsimp only; omega
    · dsimp only; omega
    · rfl
  · have due : poh.remainingHashes = 1 := by have := tracks.remaining_pos; omega
    exact ⟨poh, .inl ⟨by simp [Poh.call, Poh.record_of_tick_due hashv due], tracks, rfl⟩⟩

theorem Tracks.tick (tracks : Tracks hash hashesPerTick lastHash tickHashCount poh)
    (notLowPower : hashesPerTick < lowPowerMode) :
    ∃ poh', (poh.call hash hashv hashTransactions .tick = some (poh', none) ∧
        Tracks hash hashesPerTick lastHash tickHashCount poh' ∧ poh'.tickNumber = poh.tickNumber) ∨
      ∃ entry tickHashCount', poh.call hash hashv hashTransactions .tick = some (poh', some entry) ∧
        Admits hash hashv hashTransactions hashesPerTick lastHash tickHashCount entry tickHashCount' ∧
        Tracks hash hashesPerTick entry.hash tickHashCount' poh' ∧ poh'.tickNumber = poh.tickNumber + 1 ∧
        entry.isTick = true := by
  have counted := tracks.counted
  have notLow : poh.hashesPerTick ≠ lowPowerMode := by rw [tracks.hashesPerTick_eq]; omega
  have stepped : hash poh.hash = hash^[poh.numHashes + 1] lastHash := by
    rw [tracks.hash_eq, Function.iterate_succ_apply']
  rcases Nat.lt_or_ge 1 poh.remainingHashes with pending | due
  · refine ⟨{ poh with
        hash := hash poh.hash
        numHashes := poh.numHashes + 1
        remainingHashes := poh.remainingHashes - 1 },
      .inl ⟨by simp [Poh.call, Poh.tick_of_pending hash notLow pending], ⟨?_, ?_, ?_, ?_⟩, rfl⟩⟩
    · exact tracks.hashesPerTick_eq
    · dsimp only; omega
    · dsimp only; omega
    · exact stepped
  · have due : poh.remainingHashes = 1 := by have := tracks.remaining_pos; omega
    have sum : saturatingAdd 64 tickHashCount (poh.numHashes + 1) = hashesPerTick := by
      rw [saturatingAdd_of_le (by unfold lowPowerMode at notLowPower; omega)]
      omega
    refine ⟨{ poh with
        hash := hash poh.hash
        numHashes := 0
        remainingHashes := poh.hashesPerTick
        tickNumber := poh.tickNumber + 1 },
      .inr ⟨⟨poh.numHashes + 1, hash poh.hash, []⟩, 0, ?_, ⟨?_, ?_⟩, ⟨?_, ?_, ?_, ?_⟩, rfl, rfl⟩⟩
    · simp [Poh.call, Poh.tick_of_last hash tracks.remaining_pos (.inr due)]
    · rw [Entry.verify_eq_true]
      dsimp only
      rw [nextHash_tick hash hashv hashTransactions (by omega) (by omega), stepped]
    · exact ⟨sum, rfl⟩
    · exact tracks.hashesPerTick_eq
    · dsimp only; rw [tracks.hashesPerTick_eq]; omega
    · dsimp only; rw [tracks.hashesPerTick_eq]; omega
    · rfl

theorem Tracks.call (tracks : Tracks hash hashesPerTick lastHash tickHashCount poh)
    (notLowPower : hashesPerTick < lowPowerMode) (call : PohCall Tx)
    (nonempty : ∀ transactions, call = .record transactions → transactions ≠ []) :
    ∃ poh', (poh.call hash hashv hashTransactions call = some (poh', none) ∧
        Tracks hash hashesPerTick lastHash tickHashCount poh' ∧ poh'.tickNumber = poh.tickNumber) ∨
      ∃ entry tickHashCount', poh.call hash hashv hashTransactions call = some (poh', some entry) ∧
        Admits hash hashv hashTransactions hashesPerTick lastHash tickHashCount entry tickHashCount' ∧
        Tracks hash hashesPerTick entry.hash tickHashCount' poh' ∧
        poh'.tickNumber = poh.tickNumber + (if entry.isTick then 1 else 0) := by
  cases call with
  | hash maxNumHashes =>
    obtain ⟨poh', called, tracks', ticks⟩ := tracks.hashMany hashv hashTransactions maxNumHashes
    exact ⟨poh', .inl ⟨called, tracks', ticks⟩⟩
  | record transactions =>
    obtain ⟨poh', waited | ⟨entry, count, called, admitted, tracks', ticks, notTick⟩⟩ :=
      tracks.record hashv hashTransactions notLowPower (nonempty transactions rfl)
    · exact ⟨poh', .inl waited⟩
    · exact ⟨poh', .inr ⟨entry, count, called, admitted, tracks', by simp [ticks, notTick]⟩⟩
  | tick =>
    obtain ⟨poh', hashed | ⟨entry, count, called, admitted, tracks', ticks, isTick⟩⟩ :=
      tracks.tick hashv hashTransactions notLowPower
    · exact ⟨poh', .inl hashed⟩
    · exact ⟨poh', .inr ⟨entry, count, called, admitted, tracks', by simp [ticks, isTick]⟩⟩

theorem Tracks.run (tracks : Tracks hash hashesPerTick lastHash tickHashCount poh)
    (notLowPower : hashesPerTick < lowPowerMode) {calls : List (PohCall Tx)} (nonempty : RecordsNonempty calls) :
    ∃ poh' entries, poh.run hash hashv hashTransactions calls = some (poh', entries) ∧
      verifyCpuGeneric hash hashv hashTransactions lastHash entries = some true ∧
      (verifyTickHashCount.go hashesPerTick entries tickHashCount).1 = true ∧
      poh'.tickNumber = poh.tickNumber + tickCount entries := by
  -- induction on the calls, the last hash and the count moving with each emitted entry
  induction calls generalizing poh lastHash tickHashCount with
  | nil =>
    have counted := tracks.counted
    have remaining := tracks.remaining_pos
    exact ⟨poh, [], rfl, rfl, by simp [verifyTickHashCount.go]; omega, by simp [tickCount]⟩
  | cons call calls ih =>
    have rest : RecordsNonempty calls := fun transactions mem => nonempty transactions (by simp [mem])
    obtain ⟨poh₁, ⟨called, tracks₁, ticks₁⟩ | ⟨entry, count, called, admitted, tracks₁, ticks₁⟩⟩ :=
      tracks.call hashv hashTransactions notLowPower call (fun transactions same => nonempty transactions (by simp [same]))
    · obtain ⟨poh', entries, ran, verified, counted, ticks⟩ := ih tracks₁ rest
      refine ⟨poh', entries, ?_, verified, counted, by rw [ticks, ticks₁]⟩
      rw [Poh.run_cons hash hashv hashTransactions called, ran]
      rfl
    · obtain ⟨poh', entries, ran, verified, counted, ticks⟩ := ih tracks₁ rest
      refine ⟨poh', entry :: entries, ?_, ?_, ?_, ?_⟩
      · rw [Poh.run_cons hash hashv hashTransactions called, ran]
        rfl
      · exact ((verified_cons hash hashv hashTransactions).2 ⟨count, admitted, verified, counted⟩).1
      · exact ((verified_cons hash hashv hashTransactions).2 ⟨count, admitted, verified, counted⟩).2
      · rw [ticks, ticks₁]
        cases tick : entry.isTick
        · simp [tickCount, tick]
        · simp [tickCount, tick]
          omega

/-- Soundness for one entry: from a generator with no pending hashes, an entry of at least one hash
that the verifiers admit, and after which the count leaves room for the tick, is emitted by a
`hash` call and a `record` or `tick` call, which leave the generator in step with no pending
hashes. -/
theorem Tracks.calls_of_admits (tracks : Tracks hash hashesPerTick lastHash tickHashCount poh)
    (idle : poh.numHashes = 0) (notLowPower : hashesPerTick < lowPowerMode) {entry : Entry Hash Tx}
    {tickHashCount' : Nat} (hashed : 1 ≤ entry.numHashes)
    (admitted : Admits hash hashv hashTransactions hashesPerTick lastHash tickHashCount entry tickHashCount')
    (room : tickHashCount' < hashesPerTick) :
    ∃ calls, RecordsNonempty calls ∧ ∃ poh', poh.run hash hashv hashTransactions calls = some (poh', [entry]) ∧
      Tracks hash hashesPerTick entry.hash tickHashCount' poh' ∧ poh'.numHashes = 0 := by
  obtain ⟨numHashes, entryHash, transactions⟩ := entry
  obtain ⟨verified, counts⟩ := admitted
  rw [Entry.verify_eq_true] at verified
  dsimp only at hashed verified counts
  have counted := tracks.counted
  rw [idle] at counted
  have start : poh.hash = lastHash := by rw [tracks.hash_eq, idle]; rfl
  have within : tickHashCount + numHashes ≤ hashesPerTick := by
    cases tick : transactions.isEmpty
    · simp only [Entry.isTick, tick, Bool.false_eq_true, if_false] at counts
      have sum := saturatingAdd_eq_of_le notLowPower (counts ▸ room.le)
      omega
    · simp only [Entry.isTick, tick, if_true] at counts
      have sum := saturatingAdd_eq_of_le notLowPower counts.1.le
      omega
  set pending : Poh Hash := { poh with
    hash := hash^[numHashes - 1] poh.hash
    numHashes := numHashes - 1
    remainingHashes := poh.remainingHashes - (numHashes - 1) } with pending_eq
  have first : poh.call hash hashv hashTransactions (.hash (numHashes - 1)) = some (pending, none) := by
    simp [Poh.call, Poh.hashMany_of_lt hash (show numHashes - 1 < poh.remainingHashes by omega), pending_eq, idle]
  cases tick : transactions.isEmpty
  · have nonempty : transactions ≠ [] := List.isEmpty_eq_false_iff.1 tick
    simp only [Entry.isTick, tick, Bool.false_eq_true, if_false] at counts
    have sum := saturatingAdd_eq_of_le notLowPower (counts ▸ room.le)
    rw [nextHash_record hash hashv hashTransactions nonempty (by unfold lowPowerMode at notLowPower ⊢; omega),
      ← start, Option.some.injEq] at verified
    have second : pending.call hash hashv hashTransactions (.record transactions) =
        some ({ poh with
          hash := entryHash
          numHashes := 0
          remainingHashes := poh.remainingHashes - (numHashes - 1) - 1 }, some ⟨numHashes, entryHash, transactions⟩) := by
      have twoLeft : 1 < pending.remainingHashes := by rw [pending_eq]; dsimp only; omega
      simp only [Poh.call, Poh.record_of_lt hashv twoLeft, Option.map_some]
      simp [pending_eq, verified, Nat.sub_add_cancel hashed]
    refine ⟨[.hash (numHashes - 1), .record transactions], ?_,
      { poh with
        hash := entryHash
        numHashes := 0
        remainingHashes := poh.remainingHashes - (numHashes - 1) - 1 }, ?_, ⟨?_, ?_, ?_, rfl⟩, rfl⟩
    · intro recordedTransactions mem
      simp only [List.mem_cons, reduceCtorEq, PohCall.record.injEq, List.not_mem_nil, or_false, false_or] at mem
      exact mem ▸ nonempty
    · rw [Poh.run_cons hash hashv hashTransactions first, Poh.run_cons hash hashv hashTransactions second]
      rfl
    · exact tracks.hashesPerTick_eq
    · dsimp only; omega
    · dsimp only; omega
  · simp only [Entry.isTick, tick, if_true] at counts
    have sum := saturatingAdd_eq_of_le notLowPower counts.1.le
    have noTransactions : transactions = [] := List.isEmpty_iff.1 tick
    subst noTransactions
    rw [nextHash_tick hash hashv hashTransactions (by omega) (by unfold lowPowerMode at notLowPower ⊢; omega),
      ← start, Option.some.injEq] at verified
    have last : hash (hash^[numHashes - 1] poh.hash) = entryHash := by
      rw [← verified, ← Function.iterate_succ_apply' hash, Nat.succ_eq_add_one, Nat.sub_add_cancel hashed]
    have second : pending.call hash hashv hashTransactions .tick =
        some ({ poh with
          hash := entryHash
          numHashes := 0
          remainingHashes := poh.hashesPerTick
          tickNumber := poh.tickNumber + 1 }, some ⟨numHashes, entryHash, []⟩) := by
      have oneLeft : pending.remainingHashes = 1 := by rw [pending_eq]; dsimp only; omega
      simp only [Poh.call, Poh.tick_of_last hash (by omega) (.inr oneLeft), Option.map_some]
      simp [pending_eq, last, Nat.sub_add_cancel hashed]
    refine ⟨[.hash (numHashes - 1), .tick], ?_,
      { poh with
        hash := entryHash
        numHashes := 0
        remainingHashes := poh.hashesPerTick
        tickNumber := poh.tickNumber + 1 }, ?_, ⟨?_, ?_, ?_, rfl⟩, rfl⟩
    · intro recordedTransactions mem
      simp at mem
    · rw [Poh.run_cons hash hashv hashTransactions first, Poh.run_cons hash hashv hashTransactions second]
      rfl
    · exact tracks.hashesPerTick_eq
    · dsimp only; rw [tracks.hashesPerTick_eq]; omega
    · dsimp only; rw [tracks.hashesPerTick_eq, counts.2]; omega

theorem Tracks.run_of_verified (tracks : Tracks hash hashesPerTick lastHash tickHashCount poh)
    (idle : poh.numHashes = 0) (notLowPower : hashesPerTick < lowPowerMode) {entries : List (Entry Hash Tx)}
    (positive : ∀ entry ∈ entries, 1 ≤ entry.numHashes)
    (verified : verifyCpuGeneric hash hashv hashTransactions lastHash entries = some true)
    (counted : (verifyTickHashCount.go hashesPerTick entries tickHashCount).1 = true) :
    ∃ calls, RecordsNonempty calls ∧ ∃ poh', poh.run hash hashv hashTransactions calls = some (poh', entries) := by
  -- induction on the entries, two calls for each
  induction entries generalizing poh lastHash tickHashCount with
  | nil => exact ⟨[], fun _ mem => by simp at mem, poh, rfl⟩
  | cons entry entries ih =>
    obtain ⟨count, admitted, verifiedRest, countedRest⟩ := (verified_cons hash hashv hashTransactions).1 ⟨verified, counted⟩
    have positiveRest : ∀ entry ∈ entries, 1 ≤ entry.numHashes := fun e mem => positive e (by simp [mem])
    have room := count_lt_of_verified notLowPower positiveRest countedRest
    obtain ⟨calls, nonempty, poh₁, ran, tracks₁, idle₁⟩ :=
      tracks.calls_of_admits hashv hashTransactions idle notLowPower (positive entry (by simp)) admitted room
    obtain ⟨calls', nonempty', poh', ran'⟩ := ih tracks₁ idle₁ positiveRest verifiedRest countedRest
    refine ⟨calls ++ calls', ?_, poh', ?_⟩
    · intro transactions mem
      rcases List.mem_append.1 mem with first | later
      · exact nonempty transactions first
      · exact nonempty' transactions later
    · rw [Poh.run_append hash hashv hashTransactions ran, ran']
      rfl

end Agreement

section Slot

variable (hash : Hash → Hash) (hashv : Hash → Hash → Hash) (hashTransactions : List Tx → Hash)
variable [DecidableEq Hash]

/-- Generation and verification agree for the generator `Poh::new(h0, Some(hashesPerTick))`: every
run of a service that records only non-empty transaction lists succeeds, emits entries of at least
one hash that both verifiers accept, and ticks once per emitted tick; and every entry list that
both verifiers accept, of entries of at least one hash, is what such a run emits. -/
structure PohAgreement (h0 : Hash) (hashesPerTick : Nat) : Prop where
  complete : ∀ calls : List (PohCall Tx), RecordsNonempty calls →
    ∃ poh entries,
      (Poh.new h0 (some hashesPerTick)).bind (·.run hash hashv hashTransactions calls) = some (poh, entries) ∧
      verifyCpuGeneric hash hashv hashTransactions h0 entries = some true ∧
      (verifyTickHashCount entries 0 hashesPerTick).1 = true ∧
      (∀ entry ∈ entries, 1 ≤ entry.numHashes) ∧ poh.tickNumber = tickCount entries
  sound : ∀ entries : List (Entry Hash Tx), (∀ entry ∈ entries, 1 ≤ entry.numHashes) →
    verifyCpuGeneric hash hashv hashTransactions h0 entries = some true →
    (verifyTickHashCount entries 0 hashesPerTick).1 = true →
    ∃ calls, RecordsNonempty calls ∧
      ∃ poh, (Poh.new h0 (some hashesPerTick)).bind (·.run hash hashv hashTransactions calls) = some (poh, entries)

theorem poh_generation_agrees_with_verification (h0 : Hash) {hashesPerTick : Nat} (atLeastTwo : 2 ≤ hashesPerTick)
    (notLowPower : hashesPerTick < lowPowerMode) : PohAgreement hash hashv hashTransactions h0 hashesPerTick where
  complete calls nonempty := by
    obtain ⟨poh, entries, ran, verified, counted, ticks⟩ :=
      (tracks_new hash atLeastTwo).run hashv hashTransactions notLowPower nonempty
    refine ⟨poh, entries, ?_, verified, ?_, Poh.run_numHashes_pos hash hashv hashTransactions ran, ?_⟩
    · rw [Poh.new_some (by omega), Option.bind_some]
      exact ran
    · rw [verifyTickHashCount_of_pos (by omega)]
      exact counted
    · rw [ticks, Nat.zero_add]
  sound entries positive verified counted := by
    rw [verifyTickHashCount_of_pos (by omega)] at counted
    obtain ⟨calls, nonempty, poh, ran⟩ :=
      (tracks_new hash atLeastTwo).run_of_verified hashv hashTransactions rfl notLowPower positive verified counted
    refine ⟨calls, nonempty, poh, ?_⟩
    rw [Poh.new_some (by omega), Option.bind_some]
    exact ran

theorem poh_generation_agrees_two_hashes_per_tick :
    2 ≤ 2 ∧ 2 < lowPowerMode ∧ PohAgreement Nat.succ (fun a b => a + b) (List.sum : List Nat → Nat) 0 2 :=
  ⟨by decide, by decide,
    poh_generation_agrees_with_verification Nat.succ (fun a b => a + b) List.sum 0 (by decide) (by decide)⟩

/-- Both directions fail at their edges. In low power mode, `hashesPerTick = u64::MAX`, the first
tick emits an entry of one hash, which `verify_tick_hash_count` rejects. And a tick of no hashes,
after a transaction entry that used up the tick, passes both verifiers, while no generator emits an
entry without a hash. -/
theorem agreement_fails_at_edges (h0 : Hash) (transaction : Tx) :
    ((Poh.new h0 (some lowPowerMode)).bind (·.run hash hashv hashTransactions [.tick]) =
        some (⟨hash h0, 0, lowPowerMode, lowPowerMode, 1⟩, [⟨1, hash h0, []⟩]) ∧
      (verifyTickHashCount [(⟨1, hash h0, []⟩ : Entry Hash Tx)] 0 lowPowerMode).1 = false) ∧
    (verifyCpuGeneric hash hashv hashTransactions h0
        [⟨2, hashv (hash h0) (hashTransactions [transaction]), [transaction]⟩,
          ⟨0, hashv (hash h0) (hashTransactions [transaction]), []⟩] = some true ∧
      (verifyTickHashCount [(⟨2, hashv (hash h0) (hashTransactions [transaction]), [transaction]⟩ : Entry Hash Tx),
          ⟨0, hashv (hash h0) (hashTransactions [transaction]), []⟩] 0 2).1 = true ∧
      ∀ calls (poh : Poh Hash), (Poh.new h0 (some 2)).bind (·.run hash hashv hashTransactions calls) ≠
        some (poh, [⟨2, hashv (hash h0) (hashTransactions [transaction]), [transaction]⟩,
          ⟨0, hashv (hash h0) (hashTransactions [transaction]), []⟩])) := by
  refine ⟨⟨?_, ?_⟩, ?_, ?_, ?_⟩
  · rw [Poh.new_some one_lt_lowPowerMode, Option.bind_some]
    have ticked := Poh.tick_of_last hash
      (show 0 < (⟨h0, 0, lowPowerMode, lowPowerMode, 0⟩ : Poh Hash).remainingHashes by
        have := one_lt_lowPowerMode
        dsimp only; omega) (.inl rfl)
    simp [Poh.run, Poh.call, ticked]
  · simp [verifyTickHashCount, verifyTickHashCount.go, saturatingAdd, Entry.isTick, lowPowerMode, maxValue]
  · have mixedIn : (⟨2, hashv (hash h0) (hashTransactions [transaction]), [transaction]⟩ : Entry Hash Tx).verify
        hash hashv hashTransactions h0 = some true := by
      rw [Entry.verify_eq_true, nextHash_record hash hashv hashTransactions (List.cons_ne_nil _ _)
        (show 2 < lowPowerMode by decide)]
      rfl
    have empty : (⟨0, hashv (hash h0) (hashTransactions [transaction]), []⟩ : Entry Hash Tx).verify
        hash hashv hashTransactions (hashv (hash h0) (hashTransactions [transaction])) = some true := by
      rw [Entry.verify_eq_true]
      exact nextHash_zero hash hashv hashTransactions _
    simp [verifyCpuGeneric_cons, mixedIn, empty]
  · simp [verifyTickHashCount, verifyTickHashCount.go, saturatingAdd, Entry.isTick, maxValue]
  · intro calls poh ran
    rw [Poh.new_some (by decide), Option.bind_some] at ran
    have hashed := Poh.run_numHashes_pos hash hashv hashTransactions ran
      ⟨0, hashv (hash h0) (hashTransactions [transaction]), []⟩ (by simp)
    simp at hashed

end Slot

/-- The edges of `agreement_fails_at_edges` with hashes modelled as numbers, `hash` as the successor. -/
theorem poh_agreement_edges :
    ((Poh.new 0 (some lowPowerMode)).bind (·.run Nat.succ (· + ·) List.sum [.tick]) =
        some (⟨1, 0, lowPowerMode, lowPowerMode, 1⟩, [⟨1, 1, []⟩]) ∧
      (verifyTickHashCount [(⟨1, 1, []⟩ : Entry Nat Nat)] 0 lowPowerMode).1 = false) ∧
    (verifyCpuGeneric Nat.succ (· + ·) List.sum 0 [⟨2, 1 + 5, [5]⟩, ⟨0, 1 + 5, []⟩] = some true ∧
      (verifyTickHashCount [(⟨2, 1 + 5, [5]⟩ : Entry Nat Nat), ⟨0, 1 + 5, []⟩] 0 2).1 = true ∧
      ∀ calls (poh : Poh Nat), (Poh.new 0 (some 2)).bind (·.run Nat.succ (· + ·) List.sum calls) ≠
        some (poh, [⟨2, 1 + 5, [5]⟩, ⟨0, 1 + 5, []⟩])) :=
  agreement_fails_at_edges Nat.succ (· + ·) List.sum 0 5

end ProofOfHistory
