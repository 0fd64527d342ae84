import Mathlib

/-! The blockhash queue of a bank (`accounts-db/src/blockhash_queue.rs`): the recent blockhashes,
each with the index of its registration and its fee rate. `register_hash` numbers a hash one past
the last registration and, once the queue holds `max_age` hashes, first drops those older than
`max_age`.

Over a run the queue stands for its history, the registrations newest first: the age of a hash is
its position in that list, and for every age up to `max_age` a hash is valid exactly when it is
among the newest `age + 1` registrations. Hashes are `Nat`s, the fee calculator is its
`lamports_per_signature`, and the `u64` indices are `Nat`s, which the history shows never pass. -/

namespace AccountsDb

abbrev Hash := Nat

/-- `MAX_RECENT_BLOCKHASHES`: `MAX_HASH_AGE_IN_SECONDS * DEFAULT_TICKS_PER_SECOND / DEFAULT_TICKS_PER_SLOT`. -/
def maxRecentBlockhashes : Nat := 120 * 160 / 64

structure HashInfo where
  lamportsPerSignature : Nat
  hashIndex : Nat
  deriving DecidableEq, Repr

structure BlockhashQueue where
  lastHashIndex : Nat
  lastHash : Option Hash
  hashes : Std.HashMap Hash HashInfo
  maxAge : Nat

namespace BlockhashQueue

def new (maxAge : Nat) : BlockhashQueue := ⟨0, none, ∅, maxAge⟩

instance : Inhabited BlockhashQueue := ⟨new maxRecentBlockhashes⟩

def getLamportsPerSignature (queue : BlockhashQueue) (hash : Hash) : Option Nat :=
  queue.hashes[hash]?.map (·.lamportsPerSignature)

/-- The deprecated `is_hash_valid`. -/
def isHashValid (queue : BlockhashQueue) (hash : Hash) : Bool := queue.hashes.contains hash

def isHashIndexValid (lastHashIndex maxAge hashIndex : Nat) : Bool := lastHashIndex - hashIndex ≤ maxAge

def getHashInfoIfValid (queue : BlockhashQueue) (hash : Hash) (maxAge : Nat) : Option HashInfo :=
  queue.hashes[hash]?.filter fun info => isHashIndexValid queue.lastHashIndex maxAge info.hashIndex

def isHashValidForAge (queue : BlockhashQueue) (hash : Hash) (maxAge : Nat) : Bool :=
  (queue.getHashInfoIfValid hash maxAge).isSome

def getHashAge (queue : BlockhashQueue) (hash : Hash) : Option Nat :=
  queue.hashes[hash]?.map fun info => queue.lastHashIndex - info.hashIndex

def genesisHash (queue : BlockhashQueue) (hash : Hash) (lamportsPerSignature : Nat) : BlockhashQueue :=
  { queue with hashes := queue.hashes.insert hash ⟨lamportsPerSignature, 0⟩, lastHash := some hash }

def registerHash (queue : BlockhashQueue) (hash : Hash) (lamportsPerSignature : Nat) : BlockhashQueue :=
  let lastHashIndex := queue.lastHashIndex + 1
  let hashes :=
    if queue.maxAge ≤ queue.hashes.size then
      queue.hashes.filter fun _ info => isHashIndexValid lastHashIndex queue.maxAge info.hashIndex
    else queue.hashes
  { queue with
    lastHashIndex
    hashes := hashes.insert hash ⟨lamportsPerSignature, lastHashIndex⟩
    lastHash := some hash }

/-- The deprecated `get_recent_blockhashes`: `(hash_index, hash, lamports_per_signature)` in the
map's order. -/
def getRecentBlockhashes (queue : BlockhashQueue) : List (Nat × Hash × Nat) :=
  queue.hashes.toList.map fun entry => (entry.2.hashIndex, entry.1, entry.2.lamportsPerSignature)

/-- A run of `register_hash` calls. -/
def registerHashes (queue : BlockhashQueue) (registrations : List (Hash × Nat)) : BlockhashQueue :=
  registrations.foldl (fun queue registration => queue.registerHash registration.1 registration.2) queue

/-! ### One registration -/

@[simp] theorem registerHash_lastHashIndex (queue : BlockhashQueue) (hash : Hash) (lamportsPerSignature : Nat) :
    (queue.registerHash hash lamportsPerSignature).lastHashIndex = queue.lastHashIndex + 1 := rfl

@[simp] theorem registerHash_maxAge (queue : BlockhashQueue) (hash : Hash) (lamportsPerSignature : Nat) :
    (queue.registerHash hash lamportsPerSignature).maxAge = queue.maxAge := rfl

theorem getElem?_registerHash (queue : BlockhashQueue) (hash : Hash) (lamportsPerSignature : Nat) (hash' : Hash) :
    (queue.registerHash hash lamportsPerSignature).hashes[hash']? =
      if hash' = hash then some ⟨lamportsPerSignature, queue.lastHashIndex + 1⟩
      else if queue.maxAge ≤ queue.hashes.size then
        queue.hashes[hash']?.filter fun info => isHashIndexValid (queue.lastHashIndex + 1) queue.maxAge info.hashIndex
      else queue.hashes[hash']? := by
  simp only [registerHash, Std.HashMap.getElem?_insert, beq_iff_eq]
  by_cases same : hash' = hash
  · rw [if_pos same.symm, if_pos same]
  · rw [if_neg (Ne.symm same), if_neg same]
    split_ifs <;> simp

theorem registerHashes_maxAge :
    ∀ (queue : BlockhashQueue) (registrations : List (Hash × Nat)),
      (queue.registerHashes registrations).maxAge = queue.maxAge
  | _, [] => rfl
  | queue, _ :: rest => registerHashes_maxAge (queue.registerHash _ _) rest

/-! ### The history a queue stands for -/

/-- The registrations of a run, newest first. -/
abbrev History := List (Hash × Nat)

/-- The number of registrations after the newest one of `hash`. -/
def History.position (history : History) (hash : Hash) : Nat := (history.map Prod.fst).idxOf hash

theorem History.position_cons_self (history : History) (hash : Hash) (lamportsPerSignature : Nat) :
    History.position ((hash, lamportsPerSignature) :: history) hash = 0 := by
  simp [History.position]

theorem History.position_cons_of_ne {history : History} {hash hash' : Hash} (lamportsPerSignature : Nat)
    (other : hash' ≠ hash) :
    History.position ((hash, lamportsPerSignature) :: history) hash' = history.position hash' + 1 :=
  List.idxOf_cons_ne _ (Ne.symm other)

theorem History.mem_of_lookup_eq_some {history : History} {hash : Hash} {lamportsPerSignature : Nat}
    (found : history.lookup hash = some lamportsPerSignature) : hash ∈ history.map Prod.fst := by
  obtain ⟨entry, member, same⟩ := List.lookup_isSome_iff.mp (Option.isSome_of_eq_some found)
  rw [beq_iff_eq.mp same]
  exact List.mem_map_of_mem member

/-- Where the queue holds a hash, the history has it with the same fee rate and the index counts
the registrations after it; every hash registered at most `max_age` registrations ago is held. -/
structure Tracks (queue : BlockhashQueue) (history : History) : Prop where
  entry : ∀ hash info, queue.hashes[hash]? = some info →
    history.lookup hash = some info.lamportsPerSignature ∧ info.hashIndex + history.position hash = queue.lastHashIndex
  recent : ∀ hash ∈ history.map Prod.fst, history.position hash ≤ queue.maxAge → (queue.hashes[hash]?).isSome

theorem tracks_new (maxAge : Nat) : Tracks (new maxAge) [] where
  entry hash info found := by
    rw [new, Std.HashMap.getElem?_empty] at found
    cases found
  recent _ listed := absurd listed List.not_mem_nil

theorem tracks_genesisHash (maxAge : Nat) (hash : Hash) (lamportsPerSignature : Nat) :
    Tracks ((new maxAge).genesisHash hash lamportsPerSignature) [(hash, lamportsPerSignature)] where
  entry hash' info found := by
    simp only [genesisHash, new, Std.HashMap.getElem?_insert, Std.HashMap.getElem?_empty, beq_iff_eq] at found
    split_ifs at found with same
    cases found
    subst same
    exact ⟨List.lookup_cons_self, by rw [History.position_cons_self]; rfl⟩
  recent hash' listed _ := by
    rw [List.map_cons, List.map_nil, List.mem_singleton] at listed
    subst listed
    simp [genesisHash]

section Tracked

variable {queue : BlockhashQueue} {history : History}

theorem Tracks.index_le (tracks : Tracks queue history) {hash : Hash} {info : HashInfo}
    (found : queue.hashes[hash]? = some info) : info.hashIndex ≤ queue.lastHashIndex := by
  have indexed := (tracks.entry hash info found).2
  omega

theorem Tracks.registerHash (tracks : Tracks queue history) (hash : Hash) (lamportsPerSignature : Nat) :
    Tracks (queue.registerHash hash lamportsPerSignature) ((hash, lamportsPerSignature) :: history) where
  entry hash' info found := by
    rw [getElem?_registerHash] at found
    by_cases same : hash' = hash
    · rw [if_pos same] at found
      cases found
      subst same
      exact ⟨List.lookup_cons_self, by rw [History.position_cons_self, registerHash_lastHashIndex]⟩
    · rw [if_neg same] at found
      have held : queue.hashes[hash']? = some info := by
        split_ifs at found
        · exact Option.eq_some_of_filter_eq_some found
        · exact found
      obtain ⟨fee, indexed⟩ := tracks.entry hash' info held
      refine ⟨?_, ?_⟩
      · rw [List.lookup_cons, (beq_eq_false_iff_ne.mpr same)]
        exact fee
      · rw [History.position_cons_of_ne _ same, registerHash_lastHashIndex]
        omega
  recent hash' listed young := by
    rw [getElem?_registerHash]
    by_cases same : hash' = hash
    · rw [if_pos same, Option.isSome_some]
    · rw [if_neg same]
      rw [History.position_cons_of_ne _ same, registerHash_maxAge] at young
      have listed' : hash' ∈ history.map Prod.fst := by
        rw [List.map_cons, List.mem_cons] at listed
        exact listed.resolve_left same
      obtain ⟨info, held⟩ := Option.isSome_iff_exists.mp (tracks.recent hash' listed' (by omega))
      have indexed := (tracks.entry hash' info held).2
      have survives : isHashIndexValid (queue.lastHashIndex + 1) queue.maxAge info.hashIndex = true := by
        rw [isHashIndexValid, decide_eq_true_eq]
        omega
      split_ifs
      · rw [held, Option.filter_some, if_pos survives, Option.isSome_some]
      · rw [held, Option.isSome_some]

theorem Tracks.registerHashes (tracks : Tracks queue history) (registrations : List (Hash × Nat)) :
    Tracks (queue.registerHashes registrations) (registrations.reverse ++ history) := by
  induction registrations generalizing queue history with
  | nil => exact tracks
  | cons registration rest ih =>
    have step := ih (tracks.registerHash registration.1 registration.2)
    rwa [List.reverse_cons, List.append_assoc, List.singleton_append]

/-! ### What the queue answers -/

theorem History.mem_take_iff {history : History} {hash : Hash} {count : Nat} :
    hash ∈ (history.take count).map Prod.fst ↔ hash ∈ history.map Prod.fst ∧ history.position hash < count := by
  rw [List.map_take]
  constructor
  · intro taken
    have listed := List.mem_of_mem_take taken
    exact ⟨listed, (List.mem_take_iff_idxOf_lt listed).mp taken⟩
  · rintro ⟨listed, early⟩
    exact (List.mem_take_iff_idxOf_lt listed).mpr early

/-- For every age up to `max_age`, a hash is valid exactly when it is among the newest `age + 1`
registrations of the history. -/
theorem isHashValidForAge_iff (tracks : Tracks queue history) {hash : Hash} {age : Nat} (bounded : age ≤ queue.maxAge) :
    queue.isHashValidForAge hash age = true ↔ hash ∈ (history.take (age + 1)).map Prod.fst := by
  rw [History.mem_take_iff, isHashValidForAge, getHashInfoIfValid]
  cases held : queue.hashes[hash]? with
  | none =>
    simp only [Option.filter_none, Option.isSome_none, Bool.false_eq_true, false_iff, not_and]
    intro listed young
    have kept := tracks.recent hash listed (by omega)
    rw [held] at kept
    exact Bool.false_ne_true kept
  | some info =>
    obtain ⟨fee, indexed⟩ := tracks.entry hash info held
    rw [Option.filter_some, isHashIndexValid]
    simp only [decide_eq_true_eq, apply_ite Option.isSome, Option.isSome_some, Option.isSome_none, ite_eq_left_iff,
      Bool.false_eq_true, imp_false, not_not]
    constructor
    · intro valid
      exact ⟨History.mem_of_lookup_eq_some fee, by omega⟩
    · rintro ⟨-, young⟩
      omega

theorem isHashValidForAge_iff_registered :
    ((new 2).registerHash 7 5000).isHashValidForAge 7 0 = true ↔ 7 ∈ ([(7, 5000)].take (0 + 1)).map Prod.fst :=
  isHashValidForAge_iff ((tracks_new 2).registerHash 7 5000) (by decide)

/-- A hash among the newest `max_age + 1` registrations has its position in the history as its age
and its newest registration's fee rate. -/
theorem getHashAge_of_mem_take (tracks : Tracks queue history) {hash : Hash}
    (recent : hash ∈ (history.take (queue.maxAge + 1)).map Prod.fst) :
    queue.getHashAge hash = some (history.position hash) ∧ queue.getLamportsPerSignature hash = history.lookup hash := by
  obtain ⟨listed, young⟩ := History.mem_take_iff.mp recent
  obtain ⟨info, held⟩ := Option.isSome_iff_exists.mp (tracks.recent hash listed (by omega))
  obtain ⟨fee, indexed⟩ := tracks.entry hash info held
  refine ⟨?_, ?_⟩
  · rw [getHashAge, held, Option.map_some]
    congr 1
    omega
  · rw [getLamportsPerSignature, held, Option.map_some, fee]

theorem getHashAge_of_mem_take_registered :
    ((new 2).registerHash 7 5000).getHashAge 7 = some (History.position [(7, 5000)] 7) ∧
      ((new 2).registerHash 7 5000).getLamportsPerSignature 7 = [(7, 5000)].lookup 7 :=
  getHashAge_of_mem_take ((tracks_new 2).registerHash 7 5000) (by decide)

/-! ### The size of the queue -/

theorem size_le_of_injOn {α β : Type} [BEq α] [Hashable α] [LawfulBEq α] [LawfulHashable α]
    (m : Std.HashMap α β) (f : α → Nat) (n : Nat) (bound : ∀ key ∈ m, f key < n)
    (injective : ∀ key ∈ m, ∀ key' ∈ m, f key = f key' → key = key') : m.size ≤ n := by
  have nodup : (m.keys.map f).Nodup :=
    List.Nodup.map_on (fun key listed key' listed' same =>
      injective key (Std.HashMap.mem_keys.mp listed) key' (Std.HashMap.mem_keys.mp listed') same) m.nodup_keys
  have below : (m.keys.map f).toFinset ⊆ Finset.range n := by
    intro value member
    obtain ⟨key, listed, rfl⟩ := List.mem_map.mp (List.mem_toFinset.mp member)
    exact Finset.mem_range.mpr (bound key (Std.HashMap.mem_keys.mp listed))
  calc m.size = (m.keys.map f).length := by rw [List.length_map, Std.HashMap.length_keys]
    _ = (m.keys.map f).toFinset.card := (List.toFinset_card_of_nodup nodup).symm
    _ ≤ (Finset.range n).card := Finset.card_le_card below
    _ = n := Finset.card_range n

theorem Tracks.size_registerHash_le (tracks : Tracks queue history) (hash : Hash) (lamportsPerSignature : Nat) :
    (queue.registerHash hash lamportsPerSignature).hashes.size ≤ queue.maxAge + 1 := by
  simp only [BlockhashQueue.registerHash]
  refine Std.HashMap.size_insert_le.trans ?_
  split_ifs with full
  · have retained : ∀ key ∈ queue.hashes.filter (fun _ info =>
          isHashIndexValid (queue.lastHashIndex + 1) queue.maxAge info.hashIndex),
        key ∈ history.map Prod.fst ∧ history.position key < queue.maxAge := by
      intro key member
      obtain ⟨info, found⟩ := Option.isSome_iff_exists.mp (Std.HashMap.mem_iff_isSome_getElem?.mp member)
      rw [Std.HashMap.getElem?_filter', Option.filter_eq_some_iff] at found
      obtain ⟨held, valid⟩ := found
      obtain ⟨fee, indexed⟩ := tracks.entry key info held
      rw [isHashIndexValid, decide_eq_true_eq] at valid
      exact ⟨History.mem_of_lookup_eq_some fee, by omega⟩
    have bounded := size_le_of_injOn _ history.position queue.maxAge
      (fun key member => (retained key member).2)
      (fun key member key' _ same => (List.idxOf_inj (retained key member).1).mp same)
    omega
  · omega

end Tracked

/-- The two ways a bank's queue starts: `new`, and `new` followed by `genesis_hash`. -/
def start (maxAge : Nat) : Option (Hash × Nat) → BlockhashQueue
  | none => new maxAge
  | some (hash, lamportsPerSignature) => (new maxAge).genesisHash hash lamportsPerSignature

theorem tracks_start (maxAge : Nat) : ∀ genesis : Option (Hash × Nat), Tracks (start maxAge genesis) genesis.toList
  | none => tracks_new maxAge
  | some (hash, lamportsPerSignature) => tracks_genesisHash maxAge hash lamportsPerSignature

/-- Every run of registrations from a fresh queue, with or without a genesis hash, refines its
history: the registrations newest first, then the genesis hash. -/
theorem tracks_registerHashes (maxAge : Nat) (genesis : Option (Hash × Nat)) (registrations : List (Hash × Nat)) :
    Tracks ((start maxAge genesis).registerHashes registrations) (registrations.reverse ++ genesis.toList) :=
  (tracks_start maxAge genesis).registerHashes registrations

/-- Along every run the queue holds at most `max_age + 1` hashes. -/
theorem size_registerHashes_le (maxAge : Nat) (genesis : Option (Hash × Nat)) (registrations : List (Hash × Nat)) :
    ((start maxAge genesis).registerHashes registrations).hashes.size ≤ maxAge + 1 := by
  rcases List.eq_nil_or_concat registrations with rfl | ⟨earlier, last, rfl⟩
  · cases genesis with
    | none => simp [start, new, registerHashes]
    | some entry =>
      refine Std.HashMap.size_insert_le.trans ?_
      simp [new]
  · have tracks := (tracks_start maxAge genesis).registerHashes earlier
    have bounded := tracks.size_registerHash_le last.1 last.2
    have sameAge : (start maxAge genesis).maxAge = maxAge := by cases genesis <;> rfl
    rw [registerHashes_maxAge, sameAge] at bounded
    rw [registerHashes, List.concat_eq_append, List.foldl_append, List.foldl_cons, List.foldl_nil]
    exact bounded

end BlockhashQueue

end AccountsDb
