import Mathlib
import Agave.Library.MachineInt
import Agave.Library.ByteDecoder
import Agave.Library.Bincode
import Agave.Library.Memo
import Agave.Runtime.TransactionContext
import Agave.TransactionView.Frame

/-! The compute-budget instructions of a transaction (`runtime-transaction`): `try_from` walks the
instructions once, decoding each one addressed to the compute budget program and counting the
others, and walks them again to count the builtin programs when no compute unit limit was
requested; `sanitize_and_convert_to_compute_budget_limits` checks the requests and fills in the
defaults. Both walks ask whether a program is the compute budget program or a builtin through a
filter that remembers the answer for each `program_id_index`.

An instruction's data is read with borsh's derived decoder of `ComputeBudgetInstruction`: a `u8`
variant tag and the variant's little-endian integer, bytes after it ignored. Program ids are byte
strings; the builtin program ids, among them the compute budget program's, are a parameter. -/

namespace RuntimeTransaction

open MachineInt ByteDecoder

abbrev Pubkey := List UInt8

def defaultInstructionComputeUnitLimit : Nat := 200000

def maxBuiltinAllocationComputeUnitLimit : Nat := 3000

def maxComputeUnitLimit : Nat := 1400000

def maxHeapFrameBytes : Nat := 256 * 1024

/-- `HEAP_LENGTH`. -/
def minHeapFrameBytes : Nat := 32 * 1024

def maxLoadedAccountsDataSizeBytes : Nat := 64 * 1024 * 1024

structure ComputeBudgetLimits where
  updatedHeapBytes : Nat
  computeUnitLimit : Nat
  computeUnitPrice : Nat
  loadedAccountsBytes : Nat
  deriving DecidableEq, Repr

inductive ComputeBudgetInstruction
  | unused
  | requestHeapFrame (bytes : Nat)
  | setComputeUnitLimit (units : Nat)
  | setComputeUnitPrice (microLamports : Nat)
  | setLoadedAccountsDataSizeLimit (bytes : Nat)
  deriving DecidableEq, Repr

/-- The variant tag borsh writes first. -/
def ComputeBudgetInstruction.discriminator : ComputeBudgetInstruction → Nat
  | .unused => 0
  | .requestHeapFrame _ => 1
  | .setComputeUnitLimit _ => 2
  | .setComputeUnitPrice _ => 3
  | .setLoadedAccountsDataSizeLimit _ => 4

/-- The variant's field. -/
def ComputeBudgetInstruction.value : ComputeBudgetInstruction → Nat
  | .unused => 0
  | .requestHeapFrame bytes => bytes
  | .setComputeUnitLimit units => units
  | .setComputeUnitPrice microLamports => microLamports
  | .setLoadedAccountsDataSizeLimit bytes => bytes

/-- The kinds of `io::Error` borsh's decoder raises. -/
inductive BorshError
  | unexpectedEof
  | unexpectedVariantIndex (tag : Nat)
  deriving DecidableEq, Repr

/-- An unsigned little-endian integer of `size` bytes. -/
def borshInt (size : Nat) : Decoder BorshError Nat := leValue <$> readBytes .unexpectedEof size

/-- `BorshDeserialize` derived for the enum: the variant tag, then its field. -/
def ComputeBudgetInstruction.deserialize : Decoder BorshError ComputeBudgetInstruction := do
  let tag ← borshInt 1
  match tag with
  | 0 => pure .unused
  | 1 => .requestHeapFrame <$> borshInt 4
  | 2 => .setComputeUnitLimit <$> borshInt 4
  | 3 => .setComputeUnitPrice <$> borshInt 8
  | 4 => .setLoadedAccountsDataSizeLimit <$> borshInt 4
  | tag => throw (.unexpectedVariantIndex tag)

/-- `try_from_slice_unchecked`: the value read from the front of the data, the rest ignored. -/
def tryFromSliceUnchecked (data : List UInt8) : Except BorshError ComputeBudgetInstruction :=
  (·.1) <$> ComputeBudgetInstruction.deserialize.run data

/-- `to_instruction!`: the data of an instruction to the compute budget program, the discriminator
followed by the little-endian bytes of the value. -/
def toInstructionData (discriminator : UInt8) (size value : Nat) : List UInt8 :=
  discriminator :: Bincode.leBytes size value

def requestHeapFrame (bytes : Nat) : List UInt8 := toInstructionData 1 4 bytes

def setComputeUnitLimit (units : Nat) : List UInt8 := toInstructionData 2 4 units

def setComputeUnitPrice (microLamports : Nat) : List UInt8 := toInstructionData 3 8 microLamports

def setLoadedAccountsDataSizeLimit (bytes : Nat) : List UInt8 := toInstructionData 4 4 bytes

/-- The builtin programs of `BUILTIN_INSTRUCTION_COSTS`, with the compute budget program among them. -/
structure BuiltinPrograms where
  ids : List Pubkey
  computeBudgetId : Pubkey
  computeBudget_mem : computeBudgetId ∈ ids

/-- What the walks read of an instruction: `SVMInstruction` without its accounts. -/
structure SVMInstruction where
  programIdIndex : Nat
  data : List UInt8

/-- `MAX_STATIC_ACCOUNTS_PER_PACKET`: a program id is a static account key. -/
def filterSize : Nat := TransactionView.maxStaticAccountsPerPacket

inductive ProgramKind
  | notBuiltin
  | builtin
  deriving DecidableEq, Repr

namespace BuiltinPrograms

variable (builtins : BuiltinPrograms)

/-- `MAYBE_BUILTIN_KEY`: the first bytes of the builtin program ids. -/
def maybeBuiltinKey (byte : UInt8) : Bool := builtins.ids.any fun key => key.headD 0 == byte

def checkProgramId (programId : Pubkey) : Bool :=
  if !builtins.maybeBuiltinKey (programId.headD 0) then false
  else programId == builtins.computeBudgetId

def checkProgramKind (programId : Pubkey) : ProgramKind :=
  if !builtins.maybeBuiltinKey (programId.headD 0) then .notBuiltin
  else if builtins.ids.contains programId then .builtin else .notBuiltin

/-- `ComputeBudgetProgramIdFilter::is_compute_budget_program`. -/
def isComputeBudgetProgram (flags : List (Option Bool)) (index : Nat) (programId : Pubkey) :
    Option (Bool × List (Option Bool)) :=
  Memo.getOrInsertWith flags index fun _ => builtins.checkProgramId programId

/-- `BuiltinProgramsFilter::get_program_kind`. -/
def getProgramKind (programKind : List (Option ProgramKind)) (index : Nat) (programId : Pubkey) :
    Option (ProgramKind × List (Option ProgramKind)) :=
  Memo.getOrInsertWith programKind index fun _ => builtins.checkProgramKind programId

end BuiltinPrograms

/-- Each request with the index of the instruction that made it. -/
structure ComputeBudgetInstructionDetails where
  requestedComputeUnitLimit : Option (Nat × Nat) := none
  requestedComputeUnitPrice : Option (Nat × Nat) := none
  requestedHeapSize : Option (Nat × Nat) := none
  requestedLoadedAccountsDataSizeLimit : Option (Nat × Nat) := none
  numNonComputeBudgetInstructions : Nat := 0
  numBuiltinInstructions : Nat := 0
  numNonBuiltinInstructions : Nat := 0
  deriving DecidableEq, Repr

namespace ComputeBudgetInstructionDetails

open Runtime

def processInstruction (details : ComputeBudgetInstructionDetails) (index : Nat) (instruction : SVMInstruction) :
    Except TransactionError ComputeBudgetInstructionDetails :=
  let invalidInstructionDataError := TransactionError.instructionError index .invalidInstructionData
  let duplicateInstructionError := TransactionError.duplicateInstruction index
  match tryFromSliceUnchecked instruction.data with
  | .ok (.requestHeapFrame bytes) =>
    if details.requestedHeapSize.isSome then throw duplicateInstructionError
    else pure { details with requestedHeapSize := some (index, bytes) }
  | .ok (.setComputeUnitLimit computeUnitLimit) =>
    if details.requestedComputeUnitLimit.isSome then throw duplicateInstructionError
    else pure { details with requestedComputeUnitLimit := some (index, computeUnitLimit) }
  | .ok (.setComputeUnitPrice microLamports) =>
    if details.requestedComputeUnitPrice.isSome then throw duplicateInstructionError
    else pure { details with requestedComputeUnitPrice := some (index, microLamports) }
  | .ok (.setLoadedAccountsDataSizeLimit bytes) =>
    if details.requestedLoadedAccountsDataSizeLimit.isSome then throw duplicateInstructionError
    else pure { details with requestedLoadedAccountsDataSizeLimit := some (index, bytes) }
  | _ => throw invalidInstructionDataError

variable (builtins : BuiltinPrograms)

/-- The first walk of `try_from`, from the instruction at `i` on; `none` where the filter panics. -/
def tryFromLoop (filter : List (Option Bool)) (details : ComputeBudgetInstructionDetails) (i : Nat) :
    List (Pubkey × SVMInstruction) → Option (Except TransactionError ComputeBudgetInstructionDetails)
  | [] => some (.ok details)
  | (programId, instruction) :: rest => do
    let (isComputeBudget, filter) ← builtins.isComputeBudgetProgram filter instruction.programIdIndex programId
    if isComputeBudget then
      -- `i as u8`
      match details.processInstruction (i % 256) instruction with
      | .ok details => tryFromLoop filter details (i + 1) rest
      | .error err => some (.error err)
    else
      tryFromLoop filter
        { details with numNonComputeBudgetInstructions := saturatingAdd 16 details.numNonComputeBudgetInstructions 1 }
        (i + 1) rest

/-- The second walk of `try_from`. -/
def builtinLoop (filter : List (Option ProgramKind)) (details : ComputeBudgetInstructionDetails) :
    List (Pubkey × SVMInstruction) → Option ComputeBudgetInstructionDetails
  | [] => some details
  | (programId, instruction) :: rest => do
    let (kind, filter) ← builtins.getProgramKind filter instruction.programIdIndex programId
    match kind with
    | .builtin =>
      builtinLoop filter { details with numBuiltinInstructions := saturatingAdd 16 details.numBuiltinInstructions 1 } rest
    | .notBuiltin =>
      builtinLoop filter
        { details with numNonBuiltinInstructions := saturatingAdd 16 details.numNonBuiltinInstructions 1 } rest

def tryFrom (instructions : List (Pubkey × SVMInstruction)) :
    Option (Except TransactionError ComputeBudgetInstructionDetails) := do
  match ← tryFromLoop builtins (List.replicate filterSize none) {} 0 instructions with
  | .error err => pure (.error err)
  | .ok details =>
    if details.requestedComputeUnitLimit.isNone then
      .ok <$> builtinLoop builtins (List.replicate filterSize none) details instructions
    else pure (.ok details)

def sanitizeRequestedHeapSize (bytes : Nat) : Bool :=
  decide (minHeapFrameBytes ≤ bytes ∧ bytes ≤ maxHeapFrameBytes) && bytes % 1024 == 0

/-- `reserveMinimalCusForBuiltinInstructions` is whether the feature of that name is active. -/
def calculateDefaultComputeUnitLimit (details : ComputeBudgetInstructionDetails)
    (reserveMinimalCusForBuiltinInstructions : Bool) : Nat :=
  if reserveMinimalCusForBuiltinInstructions then
    saturatingAdd 32 (saturatingMul 32 details.numBuiltinInstructions maxBuiltinAllocationComputeUnitLimit)
      (saturatingMul 32 details.numNonBuiltinInstructions defaultInstructionComputeUnitLimit)
  else saturatingMul 32 details.numNonComputeBudgetInstructions defaultInstructionComputeUnitLimit

def sanitizeAndConvertToComputeBudgetLimits (details : ComputeBudgetInstructionDetails)
    (reserveMinimalCusForBuiltinInstructions : Bool) : Except TransactionError ComputeBudgetLimits := do
  let updatedHeapBytes ← match details.requestedHeapSize with
    | some (index, requestedHeapSize) =>
      if sanitizeRequestedHeapSize requestedHeapSize then pure requestedHeapSize
      else throw (.instructionError index .invalidInstructionData)
    | none => pure minHeapFrameBytes
  let computeUnitLimit := min (details.requestedComputeUnitLimit.elim
    (details.calculateDefaultComputeUnitLimit reserveMinimalCusForBuiltinInstructions) (·.2)) maxComputeUnitLimit
  let computeUnitPrice := details.requestedComputeUnitPrice.elim 0 (·.2)
  let loadedAccountsBytes ← match details.requestedLoadedAccountsDataSizeLimit with
    -- `NonZeroU32::new`
    | some (_, requested) => if requested = 0 then throw .invalidLoadedAccountsDataSizeLimit else pure requested
    | none => pure maxLoadedAccountsDataSizeBytes
  pure ⟨min updatedHeapBytes maxHeapFrameBytes, computeUnitLimit, computeUnitPrice,
    min loadedAccountsBytes maxLoadedAccountsDataSizeBytes⟩

end ComputeBudgetInstructionDetails

/-- `process_compute_budget_instructions`. -/
def processComputeBudgetInstructions (builtins : BuiltinPrograms) (instructions : List (Pubkey × SVMInstruction))
    (reserveMinimalCusForBuiltinInstructions : Bool) : Option (Except Runtime.TransactionError ComputeBudgetLimits) :=
  (ComputeBudgetInstructionDetails.tryFrom builtins instructions).map fun details =>
    details >>= (·.sanitizeAndConvertToComputeBudgetLimits reserveMinimalCusForBuiltinInstructions)

/-! ### What the builders write, read back -/

theorem borshInt_one (byte : UInt8) (rest : List UInt8) : (borshInt 1).run (byte :: rest) = .ok (byte.toNat, rest) := by
  have read : (readBytes BorshError.unexpectedEof 1).run (byte :: rest) = .ok ([byte], rest) :=
    Inverts.readBytes _ 1 [byte] rfl rest
  rw [borshInt, StateT.run_map, read]
  simp [leValue]

theorem inverts_borshInt (size : Nat) : Inverts (borshInt size) (Bincode.leBytes size) (· < 256 ^ size) :=
  Bincode.inverts_leValue _ size

theorem tryFromSliceUnchecked_toInstructionData {discriminator : UInt8} {size : Nat}
    {variant : Nat → ComputeBudgetInstruction}
    (branch : ∀ rest, ComputeBudgetInstruction.deserialize.run (discriminator :: rest) = (variant <$> borshInt size).run rest)
    {value : Nat} (fits : value < 256 ^ size) (rest : List UInt8) :
    tryFromSliceUnchecked (toInstructionData discriminator size value ++ rest) = .ok (variant value) := by
  rw [tryFromSliceUnchecked, toInstructionData, List.cons_append, branch, StateT.run_map,
    inverts_borshInt size value fits rest]
  rfl

theorem deserialize_run_cons (tag : UInt8) (rest : List UInt8) :
    ComputeBudgetInstruction.deserialize.run (tag :: rest) =
      (match tag.toNat with
        | 0 => pure .unused
        | 1 => .requestHeapFrame <$> borshInt 4
        | 2 => .setComputeUnitLimit <$> borshInt 4
        | 3 => .setComputeUnitPrice <$> borshInt 8
        | 4 => .setLoadedAccountsDataSizeLimit <$> borshInt 4
        | tag => throw (.unexpectedVariantIndex tag) : Decoder BorshError ComputeBudgetInstruction).run rest := by
  rw [ComputeBudgetInstruction.deserialize, run_bind_of_ok (borshInt_one tag rest)]

/-- Every instruction the `ComputeBudgetInstruction` builders make decodes to the variant and value it
was made with, and the bytes after it are ignored. -/
theorem tryFromSliceUnchecked_builders (rest : List UInt8) :
    (∀ bytes < 2 ^ 32, tryFromSliceUnchecked (requestHeapFrame bytes ++ rest) = .ok (.requestHeapFrame bytes)) ∧
    (∀ units < 2 ^ 32, tryFromSliceUnchecked (setComputeUnitLimit units ++ rest) = .ok (.setComputeUnitLimit units)) ∧
    (∀ microLamports < 2 ^ 64, tryFromSliceUnchecked (setComputeUnitPrice microLamports ++ rest) =
      .ok (.setComputeUnitPrice microLamports)) ∧
    (∀ bytes < 2 ^ 32, tryFromSliceUnchecked (setLoadedAccountsDataSizeLimit bytes ++ rest) =
      .ok (.setLoadedAccountsDataSizeLimit bytes)) := by
  refine ⟨fun bytes fits => ?_, fun units fits => ?_, fun microLamports fits => ?_, fun bytes fits => ?_⟩
  · exact tryFromSliceUnchecked_toInstructionData (fun rest => deserialize_run_cons 1 rest) (by simpa using fits) rest
  · exact tryFromSliceUnchecked_toInstructionData (fun rest => deserialize_run_cons 2 rest) (by simpa using fits) rest
  · exact tryFromSliceUnchecked_toInstructionData (fun rest => deserialize_run_cons 3 rest) (by simpa using fits) rest
  · exact tryFromSliceUnchecked_toInstructionData (fun rest => deserialize_run_cons 4 rest) (by simpa using fits) rest

/-! ### The filters -/

namespace BuiltinPrograms

variable (builtins : BuiltinPrograms) {programId : Pubkey}

theorem maybeBuiltinKey_of_mem (builtin : programId ∈ builtins.ids) : builtins.maybeBuiltinKey (programId.headD 0) = true :=
  List.any_eq_true.mpr ⟨programId, builtin, beq_self_eq_true _⟩

theorem checkProgramId_eq (programId : Pubkey) : builtins.checkProgramId programId = (programId == builtins.computeBudgetId) := by
  unfold checkProgramId
  split
  · rename_i unmarked
    symm
    rw [beq_eq_false_iff_ne]
    rintro rfl
    rw [builtins.maybeBuiltinKey_of_mem builtins.computeBudget_mem] at unmarked
    exact Bool.noConfusion unmarked
  · rfl

theorem checkProgramKind_eq (programId : Pubkey) :
    builtins.checkProgramKind programId = if programId ∈ builtins.ids then .builtin else .notBuiltin := by
  unfold checkProgramKind
  by_cases builtin : programId ∈ builtins.ids
  · rw [builtins.maybeBuiltinKey_of_mem builtin, if_pos builtin]
    simp [builtin]
  · rw [if_neg builtin]
    split_ifs with _ listed
    · rfl
    · exact absurd (List.contains_iff_mem.mp listed) builtin
    · rfl

end BuiltinPrograms

/-- Each program id is the static account key its index names, and the index fits the filters. -/
def Indexed (accountKeys : List Pubkey) (instructions : List (Pubkey × SVMInstruction)) : Prop :=
  ∀ entry ∈ instructions, entry.2.programIdIndex < filterSize ∧ accountKeys[entry.2.programIdIndex]? = some entry.1

theorem Indexed.tail {accountKeys : List Pubkey} {entry : Pubkey × SVMInstruction} {rest : List (Pubkey × SVMInstruction)}
    (indexed : Indexed accountKeys (entry :: rest)) : Indexed accountKeys rest :=
  fun entry' listed => indexed entry' (List.mem_cons_of_mem _ listed)

namespace ComputeBudgetInstructionDetails

open Runtime

variable (builtins : BuiltinPrograms)

/-! ### The requests -/

/-- The value recorded for the variant with this tag. -/
def requestValue (details : ComputeBudgetInstructionDetails) : Nat → Option Nat
  | 1 => details.requestedHeapSize.map (·.2)
  | 2 => details.requestedComputeUnitLimit.map (·.2)
  | 3 => details.requestedComputeUnitPrice.map (·.2)
  | 4 => details.requestedLoadedAccountsDataSizeLimit.map (·.2)
  | _ => none

theorem processInstruction_eq_ok {details details' : ComputeBudgetInstructionDetails} {index : Nat}
    {instruction : SVMInstruction} (processed : details.processInstruction index instruction = .ok details') :
    ∃ request, tryFromSliceUnchecked instruction.data = .ok request ∧ request.discriminator ≠ 0 ∧
      details.requestValue request.discriminator = none ∧
      (∀ tag, details'.requestValue tag =
        if tag = request.discriminator then some request.value else details.requestValue tag) ∧
      details'.numNonComputeBudgetInstructions = details.numNonComputeBudgetInstructions ∧
      details'.numBuiltinInstructions = details.numBuiltinInstructions ∧
      details'.numNonBuiltinInstructions = details.numNonBuiltinInstructions := by
  unfold processInstruction at processed
  dsimp only at processed
  split at processed
  all_goals try (simp [throw, throwThe, MonadExceptOf.throw] at processed; done)
  all_goals
    rename_i value decoded
    obtain ⟨fresh, rfl⟩ := ExceptLoop.ite_throw_pure_eq_ok.mp processed
    refine ⟨_, decoded, by simp [ComputeBudgetInstruction.discriminator], ?_, ?_, rfl, rfl, rfl⟩
    · simpa [requestValue, ComputeBudgetInstruction.discriminator] using fresh
    · intro tag
      rcases tag with _ | _ | _ | _ | _ | tag <;>
        simp [requestValue, ComputeBudgetInstruction.discriminator, ComputeBudgetInstruction.value]

/-! ### The walks without their filters

The walks as they would run asking each program id directly; `tryFrom` agrees with them. -/

def tryFromLoopUncached (details : ComputeBudgetInstructionDetails) (i : Nat) :
    List (Pubkey × SVMInstruction) → Except TransactionError ComputeBudgetInstructionDetails
  | [] => .ok details
  | (programId, instruction) :: rest =>
    if programId = builtins.computeBudgetId then do
      let details ← details.processInstruction (i % 256) instruction
      tryFromLoopUncached details (i + 1) rest
    else
      tryFromLoopUncached
        { details with numNonComputeBudgetInstructions := saturatingAdd 16 details.numNonComputeBudgetInstructions 1 }
        (i + 1) rest

def builtinLoopUncached (details : ComputeBudgetInstructionDetails) :
    List (Pubkey × SVMInstruction) → ComputeBudgetInstructionDetails
  | [] => details
  | (programId, _) :: rest =>
    if programId ∈ builtins.ids then
      builtinLoopUncached { details with numBuiltinInstructions := saturatingAdd 16 details.numBuiltinInstructions 1 } rest
    else
      builtinLoopUncached
        { details with numNonBuiltinInstructions := saturatingAdd 16 details.numNonBuiltinInstructions 1 } rest

def tryFromUncached (instructions : List (Pubkey × SVMInstruction)) :
    Except TransactionError ComputeBudgetInstructionDetails := do
  let details ← tryFromLoopUncached builtins {} 0 instructions
  if details.requestedComputeUnitLimit.isNone then pure (builtinLoopUncached builtins details instructions)
  else pure details

/-! ### What the first walk accepts -/

theorem requestValue_update_numNonComputeBudgetInstructions (details : ComputeBudgetInstructionDetails) (count tag : Nat) :
    { details with numNonComputeBudgetInstructions := count }.requestValue tag = details.requestValue tag := by
  rcases tag with _ | _ | _ | _ | _ | tag <;> rfl

/-- The first walk succeeds only where every instruction to the compute budget program decodes to a
request, no two of the same variant and none of a variant recorded before; it records each request's
value under its tag and leaves the other tags as they were. -/
theorem tryFromLoopUncached_eq_ok :
    ∀ (instructions : List (Pubkey × SVMInstruction)) (details : ComputeBudgetInstructionDetails) (i : Nat)
      {details' : ComputeBudgetInstructionDetails}, tryFromLoopUncached builtins details i instructions = .ok details' →
      ∃ requests, List.Forall₂ (fun entry request => tryFromSliceUnchecked entry.2.data = .ok request)
          (instructions.filter (·.1 = builtins.computeBudgetId)) requests ∧
        (requests.map (·.discriminator)).Nodup ∧
        (∀ request ∈ requests, request.discriminator ≠ 0 ∧ details.requestValue request.discriminator = none ∧
          details'.requestValue request.discriminator = some request.value) ∧
        ∀ tag, tag ∉ requests.map (·.discriminator) → details'.requestValue tag = details.requestValue tag
  | [], details, _, _, walked => by
    cases walked
    exact ⟨[], .nil, List.nodup_nil, fun _ absent => absurd absent List.not_mem_nil, fun _ _ => rfl⟩
  | (programId, instruction) :: rest, details, i, details', walked => by
    unfold tryFromLoopUncached at walked
    by_cases addressed : programId = builtins.computeBudgetId
    · rw [if_pos addressed, ExceptLoop.bind_eq_ok] at walked
      obtain ⟨recorded, processed, restWalked⟩ := walked
      obtain ⟨request, decoded, nonzero, fresh, values, -⟩ := processInstruction_eq_ok processed
      obtain ⟨requests, read, distinct, kept, others⟩ := tryFromLoopUncached_eq_ok rest recorded (i + 1) restWalked
      have recordedValue : recorded.requestValue request.discriminator = some request.value := by
        rw [values, if_pos rfl]
      have first : request.discriminator ∉ requests.map (·.discriminator) := by
        intro listed
        obtain ⟨other, member, same⟩ := List.mem_map.mp listed
        have unrecorded := (kept other member).2.1
        rw [same, recordedValue] at unrecorded
        exact Option.some_ne_none _ unrecorded
      refine ⟨request :: requests, ?_, List.nodup_cons.mpr ⟨first, distinct⟩, ?_, ?_⟩
      · rw [List.filter_cons, if_pos (decide_eq_true addressed)]
        exact .cons decoded read
      · intro request' member
        rcases List.mem_cons.mp member with rfl | later
        · exact ⟨nonzero, fresh, (others _ first).trans recordedValue⟩
        · obtain ⟨nonzero', unrecorded, final⟩ := kept request' later
          have apart : request'.discriminator ≠ request.discriminator := fun same =>
            first (same ▸ List.mem_map_of_mem later)
          rw [values, if_neg apart] at unrecorded
          exact ⟨nonzero', unrecorded, final⟩
      · intro tag absent
        rw [List.map_cons, List.mem_cons, not_or] at absent
        rw [others tag absent.2, values, if_neg absent.1]
    · rw [if_neg addressed] at walked
      obtain ⟨requests, read, distinct, kept, others⟩ := tryFromLoopUncached_eq_ok rest _ (i + 1) walked
      refine ⟨requests, ?_, distinct, ?_, ?_⟩
      · rwa [List.filter_cons, if_neg (by simpa using addressed)]
      · intro request member
        rw [← requestValue_update_numNonComputeBudgetInstructions details
          (saturatingAdd 16 details.numNonComputeBudgetInstructions 1)]
        exact kept request member
      · intro tag absent
        rw [others tag absent, requestValue_update_numNonComputeBudgetInstructions]

theorem tryFromLoopUncached_counts :
    ∀ (instructions : List (Pubkey × SVMInstruction)) (details : ComputeBudgetInstructionDetails) (i : Nat)
      {details' : ComputeBudgetInstructionDetails}, tryFromLoopUncached builtins details i instructions = .ok details' →
      details'.numNonComputeBudgetInstructions = (saturatingAdd 16 · 1)^[instructions.countP
        (·.1 ≠ builtins.computeBudgetId)] details.numNonComputeBudgetInstructions ∧
      details'.numBuiltinInstructions = details.numBuiltinInstructions ∧
      details'.numNonBuiltinInstructions = details.numNonBuiltinInstructions
  | [], details, _, _, walked => by
    cases walked
    exact ⟨rfl, rfl, rfl⟩
  | (programId, instruction) :: rest, details, i, details', walked => by
    unfold tryFromLoopUncached at walked
    rw [List.countP_cons]
    by_cases addressed : programId = builtins.computeBudgetId
    · rw [if_pos addressed, ExceptLoop.bind_eq_ok] at walked
      obtain ⟨recorded, processed, restWalked⟩ := walked
      obtain ⟨-, -, -, -, -, nonComputeBudget, builtin, nonBuiltin⟩ := processInstruction_eq_ok processed
      obtain ⟨nonComputeBudget', builtin', nonBuiltin'⟩ :=
        tryFromLoopUncached_counts rest recorded (i + 1) restWalked
      refine ⟨?_, builtin'.trans builtin, nonBuiltin'.trans nonBuiltin⟩
      simp [nonComputeBudget', nonComputeBudget, addressed]
    · rw [if_neg addressed] at walked
      obtain ⟨nonComputeBudget', builtin', nonBuiltin'⟩ := tryFromLoopUncached_counts rest _ (i + 1) walked
      refine ⟨?_, builtin', nonBuiltin'⟩
      simp [nonComputeBudget', addressed, Function.iterate_succ_apply]

theorem builtinLoopUncached_eq :
    ∀ (instructions : List (Pubkey × SVMInstruction)) (details : ComputeBudgetInstructionDetails),
      builtinLoopUncached builtins details instructions =
        { details with
          numBuiltinInstructions :=
            (saturatingAdd 16 · 1)^[instructions.countP (·.1 ∈ builtins.ids)] details.numBuiltinInstructions
          numNonBuiltinInstructions :=
            (saturatingAdd 16 · 1)^[instructions.countP (·.1 ∉ builtins.ids)] details.numNonBuiltinInstructions }
  | [], details => rfl
  | (programId, _) :: rest, details => by
    unfold builtinLoopUncached
    by_cases builtin : programId ∈ builtins.ids
    · rw [if_pos builtin, builtinLoopUncached_eq rest]
      simp [builtin, Function.iterate_succ_apply]
    · rw [if_neg builtin, builtinLoopUncached_eq rest]
      simp [builtin, Function.iterate_succ_apply]

theorem sanitizeAndConvertToComputeBudgetLimits_eq_ok {details : ComputeBudgetInstructionDetails}
    {reserveMinimalCusForBuiltinInstructions : Bool} {limits : ComputeBudgetLimits}
    (sanitized : details.sanitizeAndConvertToComputeBudgetLimits reserveMinimalCusForBuiltinInstructions = .ok limits) :
    (∀ bytes, details.requestValue 1 = some bytes → sanitizeRequestedHeapSize bytes = true) ∧
    (∀ bytes, details.requestValue 4 = some bytes → bytes ≠ 0) ∧
    limits = ⟨min ((details.requestValue 1).getD minHeapFrameBytes) maxHeapFrameBytes,
      min ((details.requestValue 2).getD
        (details.calculateDefaultComputeUnitLimit reserveMinimalCusForBuiltinInstructions)) maxComputeUnitLimit,
      (details.requestValue 3).getD 0,
      min ((details.requestValue 4).getD maxLoadedAccountsDataSizeBytes) maxLoadedAccountsDataSizeBytes⟩ := by
  obtain ⟨computeUnitLimit, computeUnitPrice, heapSize, loadedAccountsDataSizeLimit, _, _, _⟩ := details
  rcases heapSize with _ | ⟨index, bytes⟩ <;> rcases loadedAccountsDataSizeLimit with _ | ⟨index', bytes'⟩ <;>
    dsimp only [sanitizeAndConvertToComputeBudgetLimits] at sanitized
  all_goals
    (try split_ifs at sanitized with checked) <;> cases sanitized
    refine ⟨by simp_all [requestValue], by simp_all [requestValue], ?_⟩
    cases computeUnitLimit <;> cases computeUnitPrice <;> rfl

theorem requestValue_builtinLoopUncached (details : ComputeBudgetInstructionDetails)
    (instructions : List (Pubkey × SVMInstruction)) (tag : Nat) :
    (builtinLoopUncached builtins details instructions).requestValue tag = details.requestValue tag := by
  rw [builtinLoopUncached_eq]
  rcases tag with _ | _ | _ | _ | _ | tag <;> rfl

theorem tryFromUncached_eq_ok {instructions : List (Pubkey × SVMInstruction)} {details : ComputeBudgetInstructionDetails}
    (tried : tryFromUncached builtins instructions = .ok details) :
    ∃ first, tryFromLoopUncached builtins {} 0 instructions = .ok first ∧
      (∀ tag, details.requestValue tag = first.requestValue tag) ∧
      details.numNonComputeBudgetInstructions = first.numNonComputeBudgetInstructions ∧
      (first.requestedComputeUnitLimit = none → details = builtinLoopUncached builtins first instructions) := by
  obtain ⟨first, walked, counted⟩ := ExceptLoop.bind_eq_ok.mp tried
  refine ⟨first, walked, ?_⟩
  by_cases unlimited : first.requestedComputeUnitLimit = none
  · rw [if_pos (Option.isNone_iff_eq_none.mpr unlimited)] at counted
    cases counted
    refine ⟨requestValue_builtinLoopUncached builtins first instructions, ?_, fun _ => rfl⟩
    rw [builtinLoopUncached_eq]
  · rw [if_neg (by simpa using unlimited)] at counted
    cases counted
    exact ⟨fun _ => rfl, rfl, fun limited => absurd limited unlimited⟩

section Agreement

variable {accountKeys : List Pubkey}

/-- What the compute budget filter must answer at an index: the check of the key it names. -/
def computeBudgetAt (accountKeys : List Pubkey) (index : Nat) : Bool :=
  builtins.checkProgramId (accountKeys[index]?.getD [])

def programKindAt (accountKeys : List Pubkey) (index : Nat) : ProgramKind :=
  builtins.checkProgramKind (accountKeys[index]?.getD [])

theorem tryFromLoop_eq_uncached :
    ∀ (instructions : List (Pubkey × SVMInstruction)) {filter : List (Option Bool)} (details : ComputeBudgetInstructionDetails)
      (i : Nat), Memo.Consistent (computeBudgetAt builtins accountKeys) filter → filter.length = filterSize →
      Indexed accountKeys instructions →
      tryFromLoop builtins filter details i instructions = some (tryFromLoopUncached builtins details i instructions)
  | [], _, _, _, _, _, _ => rfl
  | (programId, instruction) :: rest, filter, details, i, consistent, sized, indexed => by
    obtain ⟨inRange, named⟩ := indexed _ List.mem_cons_self
    dsimp only at inRange named
    have asked : (fun _ : Unit => builtins.checkProgramId programId) =
        fun _ => computeBudgetAt builtins accountKeys instruction.programIdIndex := by
      funext
      rw [computeBudgetAt, named, Option.getD_some]
    obtain ⟨filter', looked, consistent', sized'⟩ :=
      Memo.getOrInsertWith_of_consistent consistent instruction.programIdIndex (by omega)
    have answer : builtins.isComputeBudgetProgram filter instruction.programIdIndex programId =
        some (decide (programId = builtins.computeBudgetId), filter') := by
      rw [BuiltinPrograms.isComputeBudgetProgram, asked, looked, computeBudgetAt, named, Option.getD_some,
        builtins.checkProgramId_eq, beq_eq_decide]
    simp only [tryFromLoop, tryFromLoopUncached, answer, Option.bind_eq_bind, Option.bind_some, decide_eq_true_eq]
    split_ifs with isComputeBudget
    · cases processed : details.processInstruction (i % 256) instruction with
      | error err => rfl
      | ok details' =>
        exact tryFromLoop_eq_uncached rest details' (i + 1) consistent' (sized'.trans sized) indexed.tail
    · exact tryFromLoop_eq_uncached rest _ (i + 1) consistent' (sized'.trans sized) indexed.tail

theorem builtinLoop_eq_uncached :
    ∀ (instructions : List (Pubkey × SVMInstruction)) {filter : List (Option ProgramKind)}
      (details : ComputeBudgetInstructionDetails), Memo.Consistent (programKindAt builtins accountKeys) filter →
      filter.length = filterSize → Indexed accountKeys instructions →
      builtinLoop builtins filter details instructions = some (builtinLoopUncached builtins details instructions)
  | [], _, _, _, _, _ => rfl
  | (programId, instruction) :: rest, filter, details, consistent, sized, indexed => by
    obtain ⟨inRange, named⟩ := indexed _ List.mem_cons_self
    dsimp only at inRange named
    have asked : (fun _ : Unit => builtins.checkProgramKind programId) =
        fun _ => programKindAt builtins accountKeys instruction.programIdIndex := by
      funext
      rw [programKindAt, named, Option.getD_some]
    obtain ⟨filter', looked, consistent', sized'⟩ :=
      Memo.getOrInsertWith_of_consistent consistent instruction.programIdIndex (by omega)
    have answer : builtins.getProgramKind filter instruction.programIdIndex programId =
        some (if programId ∈ builtins.ids then .builtin else .notBuiltin, filter') := by
      rw [BuiltinPrograms.getProgramKind, asked, looked, programKindAt, named, Option.getD_some,
        builtins.checkProgramKind_eq]
    simp only [builtinLoop, builtinLoopUncached, answer, Option.bind_eq_bind, Option.bind_some]
    split_ifs
    · exact builtinLoop_eq_uncached rest _ consistent' (sized'.trans sized) indexed.tail
    · exact builtinLoop_eq_uncached rest _ consistent' (sized'.trans sized) indexed.tail

theorem tryFrom_eq_uncached {instructions : List (Pubkey × SVMInstruction)} (indexed : Indexed accountKeys instructions) :
    tryFrom builtins instructions = some (tryFromUncached builtins instructions) := by
  have first := tryFromLoop_eq_uncached builtins instructions {} 0
    (Memo.consistent_replicate (computeBudgetAt builtins accountKeys) filterSize) List.length_replicate indexed
  rw [tryFrom, tryFromUncached, first]
  simp only [Option.bind_eq_bind, Option.bind_some]
  cases tryFromLoopUncached builtins {} 0 instructions with
  | error err => rfl
  | ok details =>
    dsimp only
    rw [ok_bind]
    split_ifs
    · rw [builtinLoop_eq_uncached builtins instructions details (Memo.consistent_replicate _ filterSize)
        List.length_replicate indexed]
      rfl
    · rfl

end Agreement

end ComputeBudgetInstructionDetails

/-- The filters of both walks, the first-byte prefilter and the answers kept for each
`program_id_index`, change nothing: on every instruction list whose program ids are the static
account keys their indices name, `process_compute_budget_instructions` does not panic and returns
what asking each program id directly returns. -/
theorem processComputeBudgetInstructions_eq_uncached (builtins : BuiltinPrograms) {accountKeys : List Pubkey}
    {instructions : List (Pubkey × SVMInstruction)} (indexed : Indexed accountKeys instructions)
    (reserveMinimalCusForBuiltinInstructions : Bool) :
    processComputeBudgetInstructions builtins instructions reserveMinimalCusForBuiltinInstructions =
      some (ComputeBudgetInstructionDetails.tryFromUncached builtins instructions >>=
        (·.sanitizeAndConvertToComputeBudgetLimits reserveMinimalCusForBuiltinInstructions)) := by
  rw [processComputeBudgetInstructions, ComputeBudgetInstructionDetails.tryFrom_eq_uncached builtins indexed]
  rfl

theorem processComputeBudgetInstructions_eq_ok (builtins : BuiltinPrograms) {accountKeys : List Pubkey}
    {instructions : List (Pubkey × SVMInstruction)} (indexed : Indexed accountKeys instructions)
    {reserveMinimalCusForBuiltinInstructions : Bool} {limits : ComputeBudgetLimits}
    (processed : processComputeBudgetInstructions builtins instructions reserveMinimalCusForBuiltinInstructions =
      some (.ok limits)) :
    ∃ details, ComputeBudgetInstructionDetails.tryFromUncached builtins instructions = .ok details ∧
      details.sanitizeAndConvertToComputeBudgetLimits reserveMinimalCusForBuiltinInstructions = .ok limits := by
  rw [processComputeBudgetInstructions, ComputeBudgetInstructionDetails.tryFrom_eq_uncached builtins indexed,
    Option.map_some, Option.some_inj] at processed
  exact ExceptLoop.bind_eq_ok.mp processed

theorem exists_mem_of_forall₂ {α β : Type*} {R : α → β → Prop} {as : List α} {bs : List β}
    (related : List.Forall₂ R as bs) {a : α} (member : a ∈ as) : ∃ b ∈ bs, R a b := by
  induction related with
  | nil => cases member
  | cons head _ ih =>
    rcases List.mem_cons.mp member with rfl | later
    · exact ⟨_, List.mem_cons_self, head⟩
    · obtain ⟨b, listed, related⟩ := ih later
      exact ⟨b, List.mem_cons_of_mem _ listed, related⟩

/-! ### What accepted limits satisfy -/

/-- What a compute budget request asks of the limits a transaction runs with. -/
def ComputeBudgetLimits.Honours (limits : ComputeBudgetLimits) : ComputeBudgetInstruction → Prop
  | .unused => False
  | .requestHeapFrame bytes => limits.updatedHeapBytes = bytes
  | .setComputeUnitLimit units => limits.computeUnitLimit = min units maxComputeUnitLimit
  | .setComputeUnitPrice microLamports => limits.computeUnitPrice = microLamports
  | .setLoadedAccountsDataSizeLimit bytes => limits.loadedAccountsBytes = min bytes maxLoadedAccountsDataSizeBytes

namespace ComputeBudgetInstructionDetails

theorem iterate_saturatingAdd_zero (count : Nat) : (saturatingAdd 16 · 1)^[count] 0 = min count (maxValue 16) := by
  rw [saturatingAdd_iterate 1 count (Nat.zero_le _), saturatingAdd, Nat.zero_add, Nat.mul_one]

theorem min_calculateDefaultComputeUnitLimit {details : ComputeBudgetInstructionDetails}
    {nonComputeBudget builtin nonBuiltin : Nat}
    (nonComputeBudgetCounted : details.numNonComputeBudgetInstructions = min nonComputeBudget (maxValue 16))
    (builtinCounted : details.numBuiltinInstructions = min builtin (maxValue 16))
    (nonBuiltinCounted : details.numNonBuiltinInstructions = min nonBuiltin (maxValue 16))
    (reserveMinimalCusForBuiltinInstructions : Bool) :
    min (details.calculateDefaultComputeUnitLimit reserveMinimalCusForBuiltinInstructions) maxComputeUnitLimit =
      min (if reserveMinimalCusForBuiltinInstructions then
          maxBuiltinAllocationComputeUnitLimit * builtin + defaultInstructionComputeUnitLimit * nonBuiltin
        else defaultInstructionComputeUnitLimit * nonComputeBudget) maxComputeUnitLimit := by
  cases reserveMinimalCusForBuiltinInstructions <;>
    simp only [calculateDefaultComputeUnitLimit, nonComputeBudgetCounted, builtinCounted, nonBuiltinCounted,
      saturatingAdd, saturatingMul, maxValue, maxBuiltinAllocationComputeUnitLimit,
      defaultInstructionComputeUnitLimit, maxComputeUnitLimit, Bool.false_eq_true, if_true, if_false] <;>
    omega

end ComputeBudgetInstructionDetails

/-- The builtin programs of the runs below, the compute budget program first. -/
def twoBuiltins : BuiltinPrograms := ⟨[[3, 1], [6, 2]], [3, 1], by decide⟩

/-- A transaction under a compute unit price: an instruction to the compute budget program, one to
a program that is not a builtin and one to the other builtin, each naming its program's key. -/
def pricedTransaction : List (Pubkey × SVMInstruction) :=
  [([3, 1], ⟨1, setComputeUnitPrice 5⟩), ([9], ⟨0, []⟩), ([6, 2], ⟨2, []⟩)]

theorem indexed_pricedTransaction : Indexed [[9], [3, 1], [6, 2]] pricedTransaction := by
  unfold Indexed
  decide

theorem processComputeBudgetInstructions_pricedTransaction :
    processComputeBudgetInstructions twoBuiltins pricedTransaction true =
      some (.ok ⟨minHeapFrameBytes, 206000, 5, maxLoadedAccountsDataSizeBytes⟩) := rfl

theorem processComputeBudgetInstructions_eq_uncached_priced :
    processComputeBudgetInstructions twoBuiltins pricedTransaction true =
      some (ComputeBudgetInstructionDetails.tryFromUncached twoBuiltins pricedTransaction >>=
        (·.sanitizeAndConvertToComputeBudgetLimits true)) :=
  processComputeBudgetInstructions_eq_uncached twoBuiltins indexed_pricedTransaction true

open ComputeBudgetInstructionDetails in
/-- A transaction whose compute budget is accepted has every instruction to the compute budget
program decode to a request, no two of one variant. -/
theorem processComputeBudgetInstructions_requests (builtins : BuiltinPrograms) {accountKeys : List Pubkey}
    {instructions : List (Pubkey × SVMInstruction)} (indexed : Indexed accountKeys instructions)
    {reserveMinimalCusForBuiltinInstructions : Bool} {limits : ComputeBudgetLimits}
    (processed : processComputeBudgetInstructions builtins instructions reserveMinimalCusForBuiltinInstructions =
      some (.ok limits)) :
    ∃ requests, List.Forall₂ (fun entry request => tryFromSliceUnchecked entry.2.data = .ok request)
        (instructions.filter (·.1 = builtins.computeBudgetId)) requests ∧
      (requests.map (·.discriminator)).Nodup ∧ .unused ∉ requests := by
  obtain ⟨details, tried, -⟩ := processComputeBudgetInstructions_eq_ok builtins indexed processed
  obtain ⟨first, walked, -⟩ := tryFromUncached_eq_ok builtins tried
  obtain ⟨requests, read, distinct, kept, -⟩ := tryFromLoopUncached_eq_ok builtins instructions {} 0 walked
  exact ⟨requests, read, distinct, fun listed => (kept _ listed).1 rfl⟩

theorem processComputeBudgetInstructions_requests_priced :
    ∃ requests, List.Forall₂ (fun entry request => tryFromSliceUnchecked entry.2.data = .ok request)
        (pricedTransaction.filter (·.1 = twoBuiltins.computeBudgetId)) requests ∧
      (requests.map (·.discriminator)).Nodup ∧ .unused ∉ requests :=
  processComputeBudgetInstructions_requests twoBuiltins indexed_pricedTransaction
    processComputeBudgetInstructions_pricedTransaction

open ComputeBudgetInstructionDetails in
/-- Accepted limits honour every request an instruction to the compute budget program makes. -/
theorem processComputeBudgetInstructions_honours (builtins : BuiltinPrograms) {accountKeys : List Pubkey}
    {instructions : List (Pubkey × SVMInstruction)} (indexed : Indexed accountKeys instructions)
    {reserveMinimalCusForBuiltinInstructions : Bool} {limits : ComputeBudgetLimits}
    (processed : processComputeBudgetInstructions builtins instructions reserveMinimalCusForBuiltinInstructions =
      some (.ok limits))
    {programId : Pubkey} {instruction : SVMInstruction} {request : ComputeBudgetInstruction}
    (member : (programId, instruction) ∈ instructions) (addressed : programId = builtins.computeBudgetId)
    (decoded : tryFromSliceUnchecked instruction.data = .ok request) :
    limits.Honours request := by
  obtain ⟨details, tried, sanitized⟩ := processComputeBudgetInstructions_eq_ok builtins indexed processed
  obtain ⟨first, walked, values, -⟩ := tryFromUncached_eq_ok builtins tried
  obtain ⟨requests, read, -, kept, -⟩ := tryFromLoopUncached_eq_ok builtins instructions {} 0 walked
  obtain ⟨request', listed, decoded'⟩ :=
    exists_mem_of_forall₂ read (List.mem_filter.mpr ⟨member, decide_eq_true addressed⟩)
  rw [decoded, Except.ok.injEq] at decoded'
  subst decoded'
  obtain ⟨nonzero, -, recorded⟩ := kept request listed
  rw [← values] at recorded
  obtain ⟨heapChecked, -, rfl⟩ := sanitizeAndConvertToComputeBudgetLimits_eq_ok sanitized
  rcases request with _ | bytes | units | microLamports | bytes <;>
    dsimp only [ComputeBudgetInstruction.discriminator, ComputeBudgetInstruction.value] at nonzero recorded
  · exact absurd rfl nonzero
  · have checked := heapChecked bytes recorded
    simp only [sanitizeRequestedHeapSize, Bool.and_eq_true, decide_eq_true_eq] at checked
    show min ((details.requestValue 1).getD minHeapFrameBytes) maxHeapFrameBytes = bytes
    rw [recorded, Option.getD_some, min_eq_left checked.1.2]
  · show min ((details.requestValue 2).getD _) maxComputeUnitLimit = min units maxComputeUnitLimit
    rw [recorded, Option.getD_some]
  · show (details.requestValue 3).getD 0 = microLamports
    rw [recorded, Option.getD_some]
  · show min ((details.requestValue 4).getD _) maxLoadedAccountsDataSizeBytes = min bytes maxLoadedAccountsDataSizeBytes
    rw [recorded, Option.getD_some]

theorem processComputeBudgetInstructions_honours_price :
    (⟨minHeapFrameBytes, 206000, 5, maxLoadedAccountsDataSizeBytes⟩ : ComputeBudgetLimits).Honours
      (.setComputeUnitPrice 5) :=
  processComputeBudgetInstructions_honours twoBuiltins indexed_pricedTransaction
    processComputeBudgetInstructions_pricedTransaction List.mem_cons_self rfl rfl

open ComputeBudgetInstructionDetails in
/-- Without a request of the compute unit limit, a transaction gets the default limit for its
instructions: per builtin and per other instruction where builtins reserve fewer units, per
instruction outside the compute budget program otherwise, capped. -/
theorem processComputeBudgetInstructions_defaultComputeUnitLimit (builtins : BuiltinPrograms)
    {accountKeys : List Pubkey} {instructions : List (Pubkey × SVMInstruction)} (indexed : Indexed accountKeys instructions)
    {reserveMinimalCusForBuiltinInstructions : Bool} {limits : ComputeBudgetLimits}
    (processed : processComputeBudgetInstructions builtins instructions reserveMinimalCusForBuiltinInstructions =
      some (.ok limits))
    (unrequested : ∀ entry ∈ instructions, entry.1 = builtins.computeBudgetId →
      ∀ units, tryFromSliceUnchecked entry.2.data ≠ .ok (.setComputeUnitLimit units)) :
    limits.computeUnitLimit = min (if reserveMinimalCusForBuiltinInstructions then
          maxBuiltinAllocationComputeUnitLimit * instructions.countP (·.1 ∈ builtins.ids) +
            defaultInstructionComputeUnitLimit * instructions.countP (·.1 ∉ builtins.ids)
        else defaultInstructionComputeUnitLimit * instructions.countP (·.1 ≠ builtins.computeBudgetId))
      maxComputeUnitLimit := by
  obtain ⟨details, tried, sanitized⟩ := processComputeBudgetInstructions_eq_ok builtins indexed processed
  obtain ⟨first, walked, values, nonComputeBudget, counted⟩ := tryFromUncached_eq_ok builtins tried
  obtain ⟨requests, read, -, -, others⟩ := tryFromLoopUncached_eq_ok builtins instructions {} 0 walked
  have unlisted : 2 ∉ requests.map (·.discriminator) := by
    intro listed
    obtain ⟨request, member, tagged⟩ := List.mem_map.mp listed
    obtain ⟨entry, filtered, decoded⟩ := exists_mem_of_forall₂ (List.Forall₂.flip read) member
    obtain ⟨inList, addressed⟩ := List.mem_filter.mp filtered
    cases request with
    | setComputeUnitLimit units => exact unrequested entry inList (of_decide_eq_true addressed) units decoded
    | _ => simp [ComputeBudgetInstruction.discriminator] at tagged
  have unlimited : first.requestValue 2 = none := others 2 unlisted
  obtain ⟨walkedCount, builtinZero, nonBuiltinZero⟩ := tryFromLoopUncached_counts builtins instructions {} 0 walked
  have builtinWalk := counted (by simpa [requestValue] using unlimited)
  obtain ⟨-, -, rfl⟩ := sanitizeAndConvertToComputeBudgetLimits_eq_ok sanitized
  show min ((details.requestValue 2).getD _) maxComputeUnitLimit = _
  rw [values, unlimited, Option.getD_none]
  apply min_calculateDefaultComputeUnitLimit
  · rw [nonComputeBudget, walkedCount]
    exact iterate_saturatingAdd_zero _
  · rw [builtinWalk, builtinLoopUncached_eq, builtinZero]
    exact iterate_saturatingAdd_zero _
  · rw [builtinWalk, builtinLoopUncached_eq, nonBuiltinZero]
    exact iterate_saturatingAdd_zero _

theorem processComputeBudgetInstructions_defaultComputeUnitLimit_priced :
    (⟨minHeapFrameBytes, 206000, 5, maxLoadedAccountsDataSizeBytes⟩ : ComputeBudgetLimits).computeUnitLimit =
      min (maxBuiltinAllocationComputeUnitLimit * pricedTransaction.countP (·.1 ∈ twoBuiltins.ids) +
        defaultInstructionComputeUnitLimit * pricedTransaction.countP (·.1 ∉ twoBuiltins.ids)) maxComputeUnitLimit :=
  processComputeBudgetInstructions_defaultComputeUnitLimit twoBuiltins indexed_pricedTransaction
    processComputeBudgetInstructions_pricedTransaction (by
      intro entry member addressed units
      simp only [pricedTransaction, List.mem_cons, List.not_mem_nil, or_false] at member
      rcases member with rfl | rfl | rfl
      · exact fun decoded => by cases decoded
      · exact absurd addressed (by decide)
      · exact absurd addressed (by decide))

end RuntimeTransaction
