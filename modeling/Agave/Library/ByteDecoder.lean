import Mathlib

/-! Decoders of byte strings, as the readers of a cursor are: each reads a prefix of the bytes left
and returns a value with the rest, or fails. Two relations carry the proofs about them. Two decoders
`Agree` when they succeed on the same inputs with the same values and leave the same bytes, whatever
their errors; both hand-written and derived decoders are built from the same few combinators, each
of which keeps `Agree`. A decoder is `Prefixed` when bytes after what it reads change nothing: it
accepts trailing bytes. -/

namespace ByteDecoder

/-- A decoder with errors `ε`: it reads from the front of the bytes left. -/
abbrev Decoder (ε α : Type) := StateT (List UInt8) (Except ε) α

variable {ε ε' α β σ : Type}

theorem ok_bind (a : α) (f : α → Except ε β) : (Except.ok a >>= f) = f a := rfl

theorem error_bind (e : ε) (f : α → Except ε β) : (Except.error e >>= f) = .error e := rfl

theorem map_eq_ok {f : α → β} {x : Except ε α} {b : β} : f <$> x = .ok b ↔ ∃ a, x = .ok a ∧ f a = b := by
  cases x with
  | error e =>
    constructor
    · intro failed
      cases failed
    · rintro ⟨_, failed, _⟩
      cases failed
  | ok a =>
    constructor
    · intro found
      cases found
      exact ⟨a, rfl, rfl⟩
    · rintro ⟨_, read, rfl⟩
      cases read
      rfl

/-- Read `n` bytes, or fail with `err` where fewer are left. -/
def readBytes (err : ε) (n : Nat) : Decoder ε (List UInt8) := fun bytes =>
  if n ≤ bytes.length then .ok (bytes.take n, bytes.drop n) else .error err

/-- Read one byte, or fail with `eof` where none is left. -/
def nextByte (eof : ε) : Decoder ε UInt8 := fun bytes =>
  match bytes with
  | [] => .error eof
  | byte :: rest => .ok (byte, rest)

@[simp] theorem nextByte_nil (eof : ε) : (nextByte eof).run [] = .error eof := rfl

@[simp] theorem nextByte_cons (eof : ε) (byte : UInt8) (rest : List UInt8) :
    (nextByte eof).run (byte :: rest) = .ok (byte, rest) := rfl

/-- The number whose little-endian bytes these are. -/
def leValue (bytes : List UInt8) : Nat :=
  bytes.foldr (fun byte value => byte.toNat + 256 * value) 0

/-- The signed integer of `w` bits whose two's complement is `n`. -/
def toSigned (w n : Nat) : Int := if n < 2 ^ (w - 1) then n else (n : Int) - 2 ^ w

/-- `n` values of `d` one after the other: a sequence of a length known in advance. -/
def replicateM (d : Decoder ε α) : Nat → Decoder ε (List α)
  | 0 => pure []
  | n + 1 => do
    let a ← d
    let rest ← replicateM d n
    pure (a :: rest)

/-- `for _ in 0..n { state = step(state, d?) }`: `n` values of `d`, each folded into the state. -/
def loop (d : Decoder ε α) (step : σ → α → σ) : Nat → σ → Decoder ε σ
  | 0, state => pure state
  | n + 1, state => do
    let a ← d
    loop d step n (step state a)

theorem loop_eq (d : Decoder ε α) (step : σ → α → σ) :
    ∀ n state, loop d step n state = (fun values => values.foldl step state) <$> replicateM d n
  | 0, state => by
    rw [loop, replicateM, map_pure, List.foldl_nil]
  | n + 1, state => by
    rw [loop, replicateM]
    simp only [loop_eq d step n, map_bind, bind_pure_comp, Functor.map_map, List.foldl_cons]

theorem loop_push (d : Decoder ε α) (n : Nat) : loop d (fun read a => read ++ [a]) n [] = replicateM d n := by
  have pushed : ∀ (values read : List α), values.foldl (fun read a => read ++ [a]) read = read ++ values := by
    intro values
    induction values with
    | nil => simp
    | cons a rest ih =>
      intro read
      rw [List.foldl_cons, ih, List.append_assoc, List.singleton_append]
  simp only [loop_eq, pushed, List.nil_append, id_map']

theorem replicateM_map (f : α → β) (d : Decoder ε α) :
    ∀ n, replicateM (f <$> d) n = List.map f <$> replicateM d n
  | 0 => by rw [replicateM, replicateM, map_pure, List.map_nil]
  | n + 1 => by
    rw [replicateM, replicateM, replicateM_map f d n]
    simp only [bind_map_left, map_bind, bind_pure_comp, Functor.map_map, List.map_cons]

/-! ### Decoders that agree -/

/-- `d₁` and `d₂` succeed on the same inputs, with the same values and the same bytes left; their
errors may differ. -/
def Agree (d₁ : Decoder ε α) (d₂ : Decoder ε' α) : Prop :=
  ∀ bytes, (d₁.run bytes).toOption = (d₂.run bytes).toOption

theorem Agree.pure (a : α) : Agree (Pure.pure a : Decoder ε α) (Pure.pure a : Decoder ε' α) :=
  fun _ => rfl

theorem Agree.throw (e : ε) (e' : ε') : Agree (MonadExcept.throw e : Decoder ε α) (MonadExcept.throw e' : Decoder ε' α) :=
  fun _ => rfl

theorem Agree.readBytes (err : ε) (err' : ε') (n : Nat) :
    Agree (ByteDecoder.readBytes err n) (ByteDecoder.readBytes err' n) := by
  intro bytes
  change (ByteDecoder.readBytes err n bytes).toOption = (ByteDecoder.readBytes err' n bytes).toOption
  unfold ByteDecoder.readBytes
  split_ifs <;> rfl

theorem Agree.bind {d₁ : Decoder ε α} {d₂ : Decoder ε' α} {f₁ : α → Decoder ε β} {f₂ : α → Decoder ε' β}
    (first : Agree d₁ d₂) (rest : ∀ a, Agree (f₁ a) (f₂ a)) : Agree (d₁ >>= f₁) (d₂ >>= f₂) := by
  intro bytes
  have same := first bytes
  simp only [StateT.run_bind]
  cases read₁ : d₁.run bytes with
  | error e₁ =>
    cases read₂ : d₂.run bytes with
    | error e₂ => rfl
    | ok r₂ =>
      rw [read₁, read₂] at same
      cases same
  | ok r₁ =>
    cases read₂ : d₂.run bytes with
    | error e₂ =>
      rw [read₁, read₂] at same
      cases same
    | ok r₂ =>
      rw [read₁, read₂] at same
      obtain rfl := Option.some.inj same
      exact rest r₁.1 r₁.2

theorem Agree.map {d₁ : Decoder ε α} {d₂ : Decoder ε' α} (f : α → β) (agree : Agree d₁ d₂) :
    Agree (f <$> d₁) (f <$> d₂) := by
  rw [← bind_pure_comp, ← bind_pure_comp]
  exact agree.bind fun a => Agree.pure (f a)

theorem Agree.ite {d₁ e₁ : Decoder ε α} {d₂ e₂ : Decoder ε' α} (c : Prop) [Decidable c]
    (pos : Agree d₁ d₂) (neg : Agree e₁ e₂) : Agree (if c then d₁ else e₁) (if c then d₂ else e₂) := by
  split_ifs
  · exact pos
  · exact neg

theorem Agree.replicateM {d₁ : Decoder ε α} {d₂ : Decoder ε' α} (agree : Agree d₁ d₂) :
    ∀ n, Agree (ByteDecoder.replicateM d₁ n) (ByteDecoder.replicateM d₂ n)
  | 0 => Agree.pure []
  | n + 1 => agree.bind fun a => (Agree.replicateM agree n).bind fun rest => Agree.pure (a :: rest)

theorem Agree.loop {d₁ : Decoder ε α} {d₂ : Decoder ε' α} (agree : Agree d₁ d₂) (step : σ → α → σ) (n : Nat)
    (state : σ) : Agree (ByteDecoder.loop d₁ step n state) (ByteDecoder.loop d₂ step n state) := by
  rw [loop_eq, loop_eq]
  exact (agree.replicateM n).map _

theorem Agree.run_eq_ok_iff {d₁ : Decoder ε α} {d₂ : Decoder ε' α} (agree : Agree d₁ d₂) (bytes : List UInt8)
    (result : α × List UInt8) : d₁.run bytes = .ok result ↔ d₂.run bytes = .ok result := by
  have same := agree bytes
  constructor
  · intro read₁
    rw [read₁] at same
    cases read₂ : d₂.run bytes with
    | error e => rw [read₂] at same; cases same
    | ok r => rw [read₂] at same; rw [Option.some.inj same]
  · intro read₂
    rw [read₂] at same
    cases read₁ : d₁.run bytes with
    | error e => rw [read₁] at same; cases same
    | ok r => rw [read₁] at same; rw [Option.some.inj same]

theorem Agree.run_cases {d₁ : Decoder ε α} {d₂ : Decoder ε' α} (agree : Agree d₁ d₂) (bytes : List UInt8) :
    (∃ result, d₁.run bytes = .ok result ∧ d₂.run bytes = .ok result) ∨
      ((∃ e, d₁.run bytes = .error e) ∧ ∃ e', d₂.run bytes = .error e') := by
  have same := agree bytes
  cases read₁ : d₁.run bytes with
  | error e =>
    cases read₂ : d₂.run bytes with
    | error e' => exact .inr ⟨⟨e, rfl⟩, ⟨e', rfl⟩⟩
    | ok r => rw [read₁, read₂] at same; cases same
  | ok r =>
    cases read₂ : d₂.run bytes with
    | error e' => rw [read₁, read₂] at same; cases same
    | ok r' =>
      rw [read₁, read₂] at same
      obtain rfl := Option.some.inj same
      exact .inl ⟨r, rfl, rfl⟩

theorem Agree.value_eq_ok_iff {d₁ : Decoder ε α} {d₂ : Decoder ε' α} (agree : Agree d₁ d₂) (bytes : List UInt8)
    (a : α) : (·.1) <$> d₁.run bytes = .ok a ↔ (·.1) <$> d₂.run bytes = .ok a := by
  rcases agree.run_cases bytes with ⟨result, read₁, read₂⟩ | ⟨⟨e, read₁⟩, ⟨e', read₂⟩⟩
  · rw [read₁, read₂]
    constructor <;> intro found <;> cases found <;> rfl
  · rw [read₁, read₂]
    constructor <;> intro failed <;> cases failed

/-! ### Trailing bytes -/

/-- Bytes after what `d` reads do not change what it returns. -/
def Prefixed (d : Decoder ε α) : Prop :=
  ∀ bytes a rest suffix, d.run bytes = .ok (a, rest) → d.run (bytes ++ suffix) = .ok (a, rest ++ suffix)

theorem Prefixed.pure (a : α) : Prefixed (Pure.pure a : Decoder ε α) := by
  intro bytes b rest suffix read
  cases read
  rfl

theorem Prefixed.throw (e : ε) : Prefixed (MonadExcept.throw e : Decoder ε α) := by
  intro bytes b rest suffix read
  cases read

theorem Prefixed.readBytes (err : ε) (n : Nat) : Prefixed (ByteDecoder.readBytes err n) := by
  intro bytes taken rest suffix read
  change ByteDecoder.readBytes err n bytes = _ at read
  change ByteDecoder.readBytes err n (bytes ++ suffix) = _
  unfold ByteDecoder.readBytes at read ⊢
  -- a failed read is no case: `split_ifs` discards it
  split_ifs at read with enough
  cases read
  rw [if_pos (by rw [List.length_append]; omega), List.take_append_of_le_length enough,
    List.drop_append_of_le_length enough]

theorem Prefixed.bind {d : Decoder ε α} {f : α → Decoder ε β} (first : Prefixed d) (rest : ∀ a, Prefixed (f a)) :
    Prefixed (d >>= f) := by
  intro bytes b left suffix read
  simp only [StateT.run_bind] at read ⊢
  cases read₁ : d.run bytes with
  | error e =>
    rw [read₁] at read
    cases read
  | ok r =>
    rw [read₁] at read
    rw [first bytes r.1 r.2 suffix read₁]
    exact rest r.1 r.2 b left suffix read

theorem Prefixed.map {d : Decoder ε α} (f : α → β) (prefixed : Prefixed d) : Prefixed (f <$> d) := by
  rw [← bind_pure_comp]
  exact prefixed.bind fun a => Prefixed.pure (f a)

theorem Prefixed.ite {d e : Decoder ε α} (c : Prop) [Decidable c] (pos : Prefixed d) (neg : Prefixed e) :
    Prefixed (if c then d else e) := by
  split_ifs
  · exact pos
  · exact neg

theorem Prefixed.replicateM {d : Decoder ε α} (prefixed : Prefixed d) :
    ∀ n, Prefixed (ByteDecoder.replicateM d n)
  | 0 => Prefixed.pure []
  | n + 1 => prefixed.bind fun a => (Prefixed.replicateM prefixed n).bind fun rest => Prefixed.pure (a :: rest)

theorem Prefixed.loop {d : Decoder ε α} (prefixed : Prefixed d) (step : σ → α → σ) (n : Nat) (state : σ) :
    Prefixed (ByteDecoder.loop d step n state) := by
  rw [loop_eq]
  exact (prefixed.replicateM n).map _

/-! ### Decoders that read back an encoder -/

theorem run_bind_of_ok {d : Decoder ε α} {f : α → Decoder ε β} {bytes rest : List UInt8} {a : α}
    (first : d.run bytes = .ok (a, rest)) : (d >>= f).run bytes = (f a).run rest := by
  rw [StateT.run_bind, first]
  rfl

/-- `d` with its errors mapped by `f`: a reader of one format called from another's. -/
def mapError (f : ε → ε') (d : Decoder ε α) : Decoder ε' α := fun bytes => (d.run bytes).mapError f

theorem run_mapError_of_ok (f : ε → ε') {d : Decoder ε α} {bytes : List UInt8} {r : α × List UInt8}
    (read : d.run bytes = .ok r) : (mapError f d).run bytes = .ok r := by
  change (d.run bytes).mapError f = _
  rw [read]
  rfl

/-- `d` reads back what `encode` writes of each value that `valid` holds of, and leaves the bytes
after it. -/
def Inverts (d : Decoder ε α) (encode : α → List UInt8) (valid : α → Prop) : Prop :=
  ∀ a, valid a → ∀ rest, d.run (encode a ++ rest) = .ok (a, rest)

variable {d : Decoder ε α} {encode : α → List UInt8} {valid : α → Prop}

theorem Inverts.mapError (f : ε → ε') (inverts : Inverts d encode valid) :
    Inverts (ByteDecoder.mapError f d) encode valid :=
  fun a fits rest => run_mapError_of_ok f (inverts a fits rest)

theorem Inverts.readBytes (err : ε) (n : Nat) :
    Inverts (ByteDecoder.readBytes err n) id (·.length = n) := by
  intro taken length rest
  change ByteDecoder.readBytes err n (taken ++ rest) = _
  unfold ByteDecoder.readBytes
  rw [if_pos (by simp [length]), ← length, List.take_left, List.drop_left]

theorem Inverts.map {f : α → β} {g : β → α} (inverts : Inverts d encode valid) :
    Inverts (f <$> d) (fun b => encode (g b)) (fun b => valid (g b) ∧ f (g b) = b) := by
  intro b ⟨fits, back⟩ rest
  rw [← bind_pure_comp, run_bind_of_ok (inverts (g b) fits rest), back]
  rfl

theorem Inverts.replicateM (inverts : Inverts d encode valid) :
    ∀ n, Inverts (ByteDecoder.replicateM d n) (fun as => as.flatMap encode)
      (fun as => as.length = n ∧ ∀ a ∈ as, valid a)
  | 0, [], _, rest => rfl
  | n + 1, a :: as, ⟨length, fits⟩, rest => by
    dsimp only
    rw [ByteDecoder.replicateM, List.flatMap_cons, List.append_assoc,
      run_bind_of_ok (inverts a (fits a List.mem_cons_self) _),
      run_bind_of_ok (Inverts.replicateM inverts n as
        ⟨by simpa using length, fun a mem => fits a (List.mem_cons_of_mem _ mem)⟩ rest)]
    rfl

end ByteDecoder
