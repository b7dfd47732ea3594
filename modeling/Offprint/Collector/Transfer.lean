import Mathlib.Data.UInt
import Offprint.Collector.Assembler
import Offprint.Data.Double

/-!
# Transferring an observation

The collector keeps the bytes of an observation and serves them in chunks.  It counts
with doubles; the host counts with machine integers.  The two agree on every payload
whose chunks the protocol can number.
-/

namespace Offprint.Collector

open Data Effect Model ChunkAssembler List ChunkAssembler Nat

/-! ## The collector -/

/-- A number of the collector's language, as the rational it stands for. -/
abbrev Number : Type := ℚ

def isSafeInteger (number : Number) : Bool :=
  number.den == 1 && |number| ≤ 2 ^ 53 - 1

structure PrepareOptions where
  captureId : String
  frameId : Nat
  maximumChunkBytes : Number
  maximumPayloadBytes : Number

structure StoredObservation where
  bytes : List UInt8
  chunkCount : Number
  maximumChunkBytes : Number
  sha256 : String

inductive CollectorFailure where
  | typeError (message : String)
  | rangeError (message : String)
  | payloadLimit (captureId : String) (limit : Number) (attempted : Option Number)

/-- The observations that are ready to be read. -/
abbrev Observations : Type := String → Option StoredObservation

def key (captureId : String) (frameId : Nat) : String :=
  captureId ++ ":" ++ toString frameId

structure ServedDescriptor where
  captureId : String
  frameId : Nat
  chunks : Number
  encodedBytes : Number
  payloadSha256 : String

structure ServedChunk where
  captureId : String
  frameId : Nat
  sequence : Number
  total : Number
  payloadLength : Number
  payloadCrc32 : UInt32
  payload : List UInt8

def describe (observations : Observations) (captureId : String) (frameId : Nat) :
    Except CollectorFailure ServedDescriptor :=
  match observations (key captureId frameId) with
  | none => .error (.typeError "observation is not prepared")
  | some stored =>
    .ok ⟨captureId, frameId, stored.chunkCount, stored.bytes.length, stored.sha256⟩

/-- Store the serialized observation and describe it. -/
def prepare (options : PrepareOptions) (serialized : List UInt8) (observations : Observations) :
    Except CollectorFailure ServedDescriptor × Observations :=
  let cleared := Function.update observations (key options.captureId options.frameId) none
  if !isSafeInteger options.maximumChunkBytes || options.maximumChunkBytes < 1 then
    (.error (.typeError "maximumChunkBytes must be a positive safe integer"), cleared)
  else if !isSafeInteger options.maximumPayloadBytes || options.maximumPayloadBytes < 1 then
    (.error (.payloadLimit options.captureId options.maximumPayloadBytes none), cleared)
  else if options.maximumPayloadBytes < serialized.length then
    (.error (.payloadLimit options.captureId options.maximumPayloadBytes
      (some serialized.length)), cleared)
  else
    let calculatedChunks : Number := ⌈toDouble (serialized.length / options.maximumChunkBytes)⌉₊
    let stored : StoredObservation :=
      { bytes := serialized
        chunkCount := if calculatedChunks > 1 then calculatedChunks else 1
        maximumChunkBytes := options.maximumChunkBytes
        sha256 := sha256Fallback serialized }
    let observations :=
      Function.update cleared (key options.captureId options.frameId) (some stored)
    (describe observations options.captureId options.frameId, observations)

/-- A part of an array between two positions, both cut off at its length. -/
def subarray (bytes : List UInt8) (start stop : Number) : List UInt8 :=
  let first := min ⌊start⌋₊ bytes.length
  let last := min ⌊stop⌋₊ bytes.length
  (bytes.drop first).take (last - first)

def read (observations : Observations) (captureId : String) (frameId : Nat)
    (sequence : Number) : Except CollectorFailure ServedChunk :=
  match observations (key captureId frameId) with
  | none => .error (.rangeError "observation chunk is unavailable")
  | some stored =>
    if !isSafeInteger sequence || sequence < 0 || stored.chunkCount ≤ sequence then
      .error (.rangeError "observation chunk is unavailable")
    else
      let offset := toDouble (sequence * stored.maximumChunkBytes)
      let payload := subarray stored.bytes offset (toDouble (offset + stored.maximumChunkBytes))
      .ok ⟨captureId, frameId, sequence, stored.chunkCount, payload.length, crc32 payload, payload⟩

/-! ## The host -/

/-- A number that fits an unsigned integer type. -/
def decodeUnsigned (bound : Nat) (number : Number) : Option Nat :=
  if number.den = 1 ∧ 0 ≤ number.num ∧ number.num.toNat < bound then some number.num.toNat
  else none

def decodeDescriptor (served : ServedDescriptor) : Option ObservationDescriptor := do
  let chunks ← decodeUnsigned (2 ^ 32) served.chunks
  let encodedBytes ← decodeUnsigned (2 ^ 64) served.encodedBytes
  let payloadSha256 ← ContentDigest.ofHex? served.payloadSha256
  return ⟨served.captureId, served.frameId, .ofNat chunks, .ofNat encodedBytes, payloadSha256⟩

def decodeChunk (served : ServedChunk) : Option ChunkEnvelope := do
  let sequence ← decodeUnsigned (2 ^ 32) served.sequence
  let total ← decodeUnsigned (2 ^ 32) served.total
  let payloadLength ← decodeUnsigned (2 ^ 64) served.payloadLength
  if allocated : served.payload.length ≤ vecMaximum then
    some ⟨served.captureId, served.frameId, .ofNat sequence, .ofNat total, .ofNat payloadLength,
      served.payloadCrc32, served.payload, allocated⟩
  else none

/-! ## Numbers that both sides agree on -/

section Numbers

theorem isSafeInteger_natCast {number : Nat} (small : number < 2 ^ 53) :
    isSafeInteger (number : ℚ) = true := by
  have bound : (number : ℚ) ≤ 2 ^ 53 - 1 := by
    have order : (number : ℚ) + 1 ≤ 2 ^ 53 := by exact_mod_cast small
    linarith
  simp [isSafeInteger, bound]

theorem lt_of_isSafeInteger {number : Nat} (safe : isSafeInteger (toDouble number) = true) :
    number < 2 ^ 53 := by
  by_contra large
  rw [not_lt] at large
  have positive : (0 : ℚ) < number := by
    have order : 0 < number := lt_of_lt_of_le (by decide) large
    exact_mod_cast order
  have above := @le_toDouble number positive (2 ^ 53) (le_refl _) (by exact_mod_cast large)
  simp only [isSafeInteger, Bool.and_eq_true, decide_eq_true_eq] at safe
  have below := (le_abs_self _).trans safe.2
  push_cast at above
  linarith

theorem decodeUnsigned_natCast {bound number : Nat} (small : number < bound) :
    decodeUnsigned bound (number : ℚ) = some number := by
  simp [decodeUnsigned, small]

theorem ceil_div_eq_divCeil {divisor : Nat} (positive : 0 < divisor) (dividend : Nat) :
    ⌈(dividend / divisor : ℚ)⌉₊ = divCeil dividend divisor := by
  have real : (0 : ℚ) < divisor := by exact_mod_cast positive
  have bounds (count : Nat) : ⌈(dividend / divisor : ℚ)⌉₊ ≤ count ↔
      divCeil dividend divisor ≤ count := by
    rw [ceil_le, div_le_iff₀ real, divCeil, div_le_iff_le_mul_add_pred positive,
      mul_comm divisor count]
    constructor
    · intro le
      have order : dividend ≤ count * divisor := by exact_mod_cast le
      omega
    · intro le
      have order : dividend ≤ count * divisor := by omega
      exact_mod_cast order
  exact le_antisymm ((bounds _).mpr le_rfl) ((bounds _).mp le_rfl)

end Numbers

/-! ## Exactness -/

/-- The options as they arrive: the collector receives every limit as a double. -/
def PrepareOptions.ofHost (captureId : String) (frameId : Nat)
    (maximumChunkBytes maximumPayloadBytes : UInt64) : PrepareOptions :=
  ⟨captureId, frameId, toDouble maximumChunkBytes.toNat, toDouble maximumPayloadBytes.toNat⟩

def StoredObservation.of (payload : List UInt8) (maximumChunkBytes : Nat) : StoredObservation :=
  ⟨payload, (chunksFor payload.length maximumChunkBytes : Nat), maximumChunkBytes,
    sha256Fallback payload⟩

section Serve

variable {captureId : String} {frameId : Nat} {maximumChunkBytes maximumPayloadBytes : UInt64}
  {payload : List UInt8} {observations prepared : Observations} {served : ServedDescriptor}

theorem chunkCount_eq (small : payload.length < 2 ^ 53) (positive : 0 < maximumChunkBytes.toNat) :
    let calculatedChunks : Number :=
      (⌈toDouble (payload.length / maximumChunkBytes.toNat : ℚ)⌉₊ : Nat)
    (if calculatedChunks > 1 then calculatedChunks else 1) =
      (chunksFor payload.length maximumChunkBytes.toNat : Nat) := by
  dsimp only
  rw [ceil_toDouble_div small positive, ceil_div_eq_divCeil positive, chunksFor, cast_max,
    cast_one, max_def]
  split_ifs <;> linarith

theorem prepare_serves (chunkLimit : 0 < maximumChunkBytes.toNat ∧ maximumChunkBytes.toNat < 2 ^ 53)
    (payloadLimit : 0 < maximumPayloadBytes.toNat ∧ maximumPayloadBytes.toNat < 2 ^ 53)
    (fits : payload.length ≤ maximumPayloadBytes.toNat) (observations : Observations) :
    prepare (.ofHost captureId frameId maximumChunkBytes maximumPayloadBytes) payload
        observations =
      (.ok ⟨captureId, frameId, (chunksFor payload.length maximumChunkBytes.toNat : Nat),
          payload.length, sha256Fallback payload⟩,
        Function.update (Function.update observations (key captureId frameId) none)
          (key captureId frameId) (some (.of payload maximumChunkBytes.toNat))) := by
  have chunkPositive : ¬(maximumChunkBytes.toNat : ℚ) < 1 := by
    rw [not_lt]
    exact_mod_cast chunkLimit.1
  have payloadPositive : ¬(maximumPayloadBytes.toNat : ℚ) < 1 := by
    rw [not_lt]
    exact_mod_cast payloadLimit.1
  have within : ¬(maximumPayloadBytes.toNat : ℚ) < payload.length := by
    rw [not_lt]
    exact_mod_cast fits
  have counted := chunkCount_eq (lt_of_le_of_lt fits payloadLimit.2) chunkLimit.1
  simp only [prepare, PrepareOptions.ofHost, toDouble_natCast chunkLimit.2,
    toDouble_natCast payloadLimit.2, isSafeInteger_natCast chunkLimit.2,
    isSafeInteger_natCast payloadLimit.2, chunkPositive, payloadPositive, within, counted,
    Bool.not_true, Bool.false_or, decide_false, Bool.false_eq_true, if_false, describe,
    Function.update_self, StoredObservation.of]

theorem prepare_cases
    (serves : prepare (.ofHost captureId frameId maximumChunkBytes maximumPayloadBytes) payload
      observations = (.ok served, prepared)) :
    0 < maximumChunkBytes.toNat ∧ payload.length < 2 ^ 53 ∧
      payload.length ≤ maximumPayloadBytes.toNat ∧
      prepared (key captureId frameId) = some (.of payload maximumChunkBytes.toNat) ∧
      served = ⟨captureId, frameId, (chunksFor payload.length maximumChunkBytes.toNat : Nat),
        payload.length, sha256Fallback payload⟩ := by
  have limits : (0 < maximumChunkBytes.toNat ∧ maximumChunkBytes.toNat < 2 ^ 53) ∧
      (0 < maximumPayloadBytes.toNat ∧ maximumPayloadBytes.toNat < 2 ^ 53) ∧
      payload.length ≤ maximumPayloadBytes.toNat := by
    unfold prepare PrepareOptions.ofHost at serves
    split at serves
    · cases serves
    rename_i chunkLimit
    split at serves
    · cases serves
    rename_i payloadLimit
    split at serves
    · cases serves
    rename_i fits
    simp only [Bool.or_eq_true, Bool.not_eq_true', decide_eq_true_eq, not_or, Bool.not_eq_false,
      not_lt] at chunkLimit payloadLimit fits
    have chunkSmall := lt_of_isSafeInteger chunkLimit.1
    have payloadSmall := lt_of_isSafeInteger payloadLimit.1
    rw [toDouble_natCast chunkSmall] at chunkLimit
    rw [toDouble_natCast payloadSmall] at payloadLimit fits
    exact ⟨⟨by exact_mod_cast chunkLimit.2, chunkSmall⟩,
      ⟨by exact_mod_cast payloadLimit.2, payloadSmall⟩, by exact_mod_cast fits⟩
  obtain ⟨chunkLimit, payloadLimit, fits⟩ := limits
  rw [prepare_serves chunkLimit payloadLimit fits] at serves
  obtain ⟨described, rfl⟩ := Prod.mk.inj serves
  exact ⟨chunkLimit.1, lt_of_le_of_lt fits payloadLimit.2, fits, Function.update_self _ _ _,
    (Except.ok.inj described).symm⟩

theorem subarray_eq {limit sequence : Nat} (small : payload.length < 2 ^ 53)
    (inside : limit * sequence ≤ payload.length) :
    subarray payload (toDouble (sequence * limit : ℚ))
        (toDouble (toDouble (sequence * limit : ℚ) + limit)) =
      slice payload limit sequence := by
  have offset : toDouble (sequence * limit : ℚ) = ((limit * sequence : ℕ) : ℚ) := by
    rw [← cast_mul, mul_comm sequence limit, toDouble_natCast (by omega)]
  have stop : min ⌊toDouble ((limit * sequence + limit : ℕ) : ℚ)⌋₊ payload.length =
      min (limit * sequence + limit) payload.length := by
    rcases lt_or_ge (limit * sequence + limit) (2 ^ 53) with exact_ | large
    · rw [toDouble_natCast exact_, floor_natCast]
    · have real : (0 : ℚ) < ((limit * sequence + limit : ℕ) : ℚ) := by
        exact_mod_cast lt_of_lt_of_le (by decide) large
      have above := @le_toDouble _ real (2 ^ 53) (le_refl _) (by exact_mod_cast large)
      have floor := le_floor above
      omega
  unfold subarray slice
  rw [offset, ← cast_add, stop, floor_natCast, Nat.min_eq_left inside]
  dsimp only
  rcases Nat.le_total (limit * sequence + limit) payload.length with whole | short
  · rw [Nat.min_eq_left whole, Nat.add_sub_cancel_left]
  · have rest : (payload.drop (limit * sequence)).length = payload.length - limit * sequence :=
      length_drop
    rw [min_eq_right short, take_of_length_le (by omega),
      take_of_length_le (by omega)]

theorem read_eq
    {sequence : Nat} (positive : 0 < maximumChunkBytes.toNat) (small : payload.length < 2 ^ 53)
    (addressable : chunksFor payload.length maximumChunkBytes.toNat < 2 ^ 32)
    (stored : prepared (key captureId frameId) = some (.of payload maximumChunkBytes.toNat))
    (inside : sequence < chunksFor payload.length maximumChunkBytes.toNat) :
    read prepared captureId frameId sequence =
      let chunk := slice payload maximumChunkBytes.toNat sequence
      .ok ⟨captureId, frameId, sequence, (chunksFor payload.length maximumChunkBytes.toNat : Nat),
        chunk.length, Crc32.hash chunk, chunk⟩ := by
  have available : (!isSafeInteger (sequence : ℚ) || decide ((sequence : ℚ) < 0) ||
      decide ((chunksFor payload.length maximumChunkBytes.toNat : ℚ) ≤ sequence)) = false := by
    have bounded : ¬(chunksFor payload.length maximumChunkBytes.toNat : ℚ) ≤ sequence := by
      rw [not_le]
      exact_mod_cast inside
    simp [isSafeInteger_natCast (show sequence < 2 ^ 53 by omega), bounded]
  have start : maximumChunkBytes.toNat * sequence ≤ payload.length :=
    (Nat.mul_le_mul_left _ (by omega)).trans
      (TransferPlan.mul_pred_chunksFor_le positive payload.length)
  simp only [read, stored, StoredObservation.of, available, Bool.false_eq_true, if_false,
    subarray_eq small start, crc32_eq]

theorem decodeDescriptor_eq
    (addressable : chunksFor payload.length maximumChunkBytes.toNat < 2 ^ 32)
    (small : payload.length < 2 ^ 53) :
    decodeDescriptor ⟨captureId, frameId,
        (chunksFor payload.length maximumChunkBytes.toNat : Nat), payload.length,
        sha256Fallback payload⟩ =
      some ⟨captureId, frameId, .ofNat (chunksFor payload.length maximumChunkBytes.toNat),
        .ofNat payload.length, sha256 payload⟩ := by
  simp only [decodeDescriptor, decodeUnsigned_natCast addressable,
    decodeUnsigned_natCast (show payload.length < 2 ^ 64 by omega), sha256Fallback_eq,
    ContentDigest.ofHex?_toHex]
  rfl

theorem new_eq_ok
    (positive : 0 < maximumChunkBytes.toNat) (fits : payload.length ≤ maximumPayloadBytes.toNat)
    (addressable : chunksFor payload.length maximumChunkBytes.toNat < 2 ^ 32) :
    ∃ plan, TransferPlan.new ⟨captureId, frameId,
        .ofNat (chunksFor payload.length maximumChunkBytes.toNat), .ofNat payload.length,
        sha256 payload⟩ captureId frameId maximumChunkBytes maximumPayloadBytes = .ok plan ∧
      plan.captureId = captureId ∧ plan.frameId = frameId ∧
      plan.chunks.toNat = chunksFor payload.length maximumChunkBytes.toNat ∧
      plan.encodedBytes.toNat = payload.length ∧ plan.payloadSha256 = sha256 payload ∧
      plan.maximumChunkBytes = maximumChunkBytes := by
  have wide := maximumPayloadBytes.toNat_lt
  have length : (UInt64.ofNat payload.length).toNat = payload.length :=
    UInt64.toNat_ofNat_of_lt' (lt_of_le_of_lt fits wide)
  have count : (UInt32.ofNat (chunksFor payload.length maximumChunkBytes.toNat)).toNat =
      chunksFor payload.length maximumChunkBytes.toNat := UInt32.toNat_ofNat_of_lt' addressable
  have limited : ¬maximumPayloadBytes < UInt64.ofNat payload.length := by
    rw [UInt64.lt_iff_toNat_lt, length]
    omega
  simp only [TransferPlan.new, ne_eq, not_true_eq_false, or_self, if_false, dif_pos positive,
    limited, length, not_le.mpr addressable, count, dite_true]
  exact ⟨_, rfl, rfl, rfl, count, length, rfl, rfl⟩

end Serve

def receive (prepared : Observations) (captureId : String) (frameId : Nat) (sequence : Nat) :
    Option ChunkEnvelope :=
  (read prepared captureId frameId sequence).toOption >>= decodeChunk

theorem receive_eq
    {captureId : String} {frameId : Nat} {payload : List UInt8} {prepared : Observations}
    {plan : TransferPlan} (sized : plan.encodedBytes.toNat = payload.length)
    (owner : plan.captureId = captureId ∧ plan.frameId = frameId) (small : payload.length < 2 ^ 53)
    (stored : prepared (key captureId frameId) = some (.of payload plan.maximumChunkBytes.toNat))
    {sequence : Nat} (inside : sequence < plan.chunks.toNat) :
    ∃ chunk, receive prepared captureId frameId sequence = some chunk ∧
      Carries plan payload sequence chunk := by
  have counted := plan.counted
  rw [sized] at counted
  have width := plan.chunks.toNat_lt
  have chunk := read_eq plan.positive small (counted ▸ width) stored (counted ▸ inside)
  generalize sliced : slice payload plan.maximumChunkBytes.toNat sequence = part
    at chunk
  have short : part.length ≤ payload.length := by
    rw [← sliced, slice, length_take, length_drop]
    omega
  have allocated : part.length ≤ vecMaximum := by
    unfold vecMaximum
    omega
  simp only [receive, chunk, Except.toOption, Option.bind_eq_bind, Option.bind_some, decodeChunk,
    decodeUnsigned_natCast (show sequence < 2 ^ 32 by omega),
    decodeUnsigned_natCast (show chunksFor payload.length _ < 2 ^ 32 from counted ▸ width),
    decodeUnsigned_natCast (show part.length < 2 ^ 64 by omega), dif_pos allocated]
  refine ⟨_, rfl, ⟨owner.1.symm, owner.2.symm, ?_, ?_, ?_, rfl, sliced.symm⟩⟩
  · exact UInt32.toNat_ofNat_of_lt' (lt_trans inside width)
  · rw [← counted, UInt32.ofNat_toNat]
  · exact UInt64.toNat_ofNat_of_lt' (lt_of_le_of_lt short (lt_trans small (by decide)))

theorem mapM_eq_some {α β : Type} {function : α → Option β} {value : α → β} {items : List α}
    (found : ∀ item ∈ items, function item = some (value item)) :
    items.mapM function = some (items.map value) := by
  induction items with
  | nil => rfl
  | cons item rest ih =>
    rw [mapM_cons, found item mem_cons_self,
      ih fun other member => found other (mem_cons_of_mem item member)]
    rfl

/-- For every payload and chunk limit the collector accepts, pushing what it serves in
order returns the payload with the last chunk and nothing before, as long as the chunks
can be numbered.  Whatever else is pushed under whatever plan, the arithmetic
stays in range, a returned payload has the length and the digest of the plan, and no second
one is returned. -/
theorem transfer_exact
    (captureId : String) (frameId : Nat) (maximumChunkBytes maximumPayloadBytes : UInt64)
    (payload : List UInt8) (observations prepared : Observations) (served : ServedDescriptor)
    (serves : prepare (.ofHost captureId frameId maximumChunkBytes maximumPayloadBytes) payload
      observations = (.ok served, prepared))
    (addressable : chunksFor payload.length maximumChunkBytes.toNat < 2 ^ 32) :
    (∃ descriptor plan chunks,
      decodeDescriptor served = some descriptor ∧
      TransferPlan.new descriptor captureId frameId maximumChunkBytes maximumPayloadBytes =
        .ok plan ∧
      plan.sequences.mapM (receive prepared captureId frameId) = some chunks ∧
      (new plan).pushAll chunks =
        List.replicate (chunks.length - 1) (.ok none) ++ [.ok (some payload)]) ∧
    ∀ (plan : TransferPlan) (chunks : List ChunkEnvelope),
      ChunkAssembler.Guarded plan ((new plan).pushAll chunks) := by
  refine ⟨?_, fun plan chunks =>
    pushAll_guarded (sound_new plan) chunks⟩
  obtain ⟨positive, small, fits, stored, rfl⟩ := prepare_cases serves
  obtain ⟨plan, planned, capture, frame, counted, sized, digest, rfl⟩ :=
    @new_eq_ok captureId frameId maximumChunkBytes maximumPayloadBytes payload positive fits
      addressable
  have received : ∀ sequence < plan.chunks.toNat, ∃ chunk,
      receive prepared captureId frameId sequence = some chunk ∧
        ChunkAssembler.Carries plan payload sequence chunk :=
    fun sequence inside => receive_eq sized ⟨capture, frame⟩ small stored inside
  have : Nonempty ChunkEnvelope := ⟨(received 0 plan.chunks_pos).choose⟩
  choose! chunkAt arrived carried using received
  have all : plan.sequences.mapM (receive prepared captureId frameId) =
      some (plan.sequences.map chunkAt) :=
    mapM_eq_some fun sequence inside => arrived sequence (List.mem_range.mp inside)
  obtain ⟨more, several⟩ := exists_eq_succ_of_ne_zero (pos_iff_ne_zero.mp plan.chunks_pos)
  have pushed := @pushAll_carries plan payload sized.symm digest.symm chunkAt carried
    0 more (by omega)
  have ordered : plan.sequences = List.range' 0 (more + 1) := by
    rw [TransferPlan.sequences, several, List.range_eq_range']
  refine ⟨_, plan, _, decodeDescriptor_eq addressable small, planned, all, ?_⟩
  rw [ordered, List.length_map, List.length_range']
  have fresh : new plan = after plan payload 0 := rfl
  rw [fresh, pushed, Nat.add_sub_cancel]

/-- Eight bytes in chunks of three. -/
theorem transfer_exact_three :
    ∃ served prepared, prepare (.ofHost "cap_1" 1 3 100) [111, 102, 102, 112, 114, 105, 110, 116]
        (fun _ => none) = (.ok served, prepared) ∧
      ∃ descriptor plan chunks,
        decodeDescriptor served = some descriptor ∧
        TransferPlan.new descriptor "cap_1" 1 3 100 = .ok plan ∧
        plan.sequences.mapM (receive prepared "cap_1" 1) = some chunks ∧
        (new plan).pushAll chunks =
          List.replicate (chunks.length - 1) (.ok none) ++
            [.ok (some [111, 102, 102, 112, 114, 105, 110, 116])] :=
  have serves := @prepare_serves "cap_1" 1 3 100 [111, 102, 102, 112, 114, 105, 110, 116]
    (by decide) (by decide) (by decide) (fun _ => none)
  ⟨_, _, serves, (transfer_exact _ _ _ _ _ _ _ _ serves (by decide)).1⟩

/-- A payload of `2 ^ 32` bytes in chunks of one byte: the collector serves it, and the
host refuses its descriptor and every other one of that length. -/
theorem transfer_refuses_unaddressable : let payload : List UInt8 := List.replicate (2 ^ 32) 0
    ∃ served prepared,
      prepare (.ofHost "cap_1" 1 1 (2 ^ 32)) payload (fun _ => none) = (.ok served, prepared) ∧
      decodeDescriptor served = none ∧
      ∀ descriptor : ObservationDescriptor, descriptor.encodedBytes.toNat = payload.length →
        ∃ problem, TransferPlan.new descriptor "cap_1" 1 1 (2 ^ 32) = .error problem := by
  intro payload
  have sized : payload.length = 2 ^ 32 := List.length_replicate
  have many : chunksFor payload.length (1 : UInt64).toNat = 2 ^ 32 := by
    rw [sized]
    decide
  have serves := @prepare_serves "cap_1" 1 1 (2 ^ 32) payload (by decide) (by decide)
    (sized ▸ by decide) (fun _ => none)
  refine ⟨_, _, serves, ?_, fun descriptor same => ?_⟩
  · have refused : decodeUnsigned (2 ^ 32) ((2 ^ 32 : ℕ) : ℚ) = none := by
      simp [decodeUnsigned]
    rw [many]
    rfl
  · have unaddressable : 2 ^ 32 ≤ chunksFor descriptor.encodedBytes.toNat (1 : UInt64).toNat := by
      rw [same, many]
    unfold TransferPlan.new
    dsimp only
    split_ifs with foreign positive limited
    · exact ⟨_, rfl⟩
    · exact ⟨_, rfl⟩
    · exact ⟨_, rfl⟩
    · exact ⟨_, rfl⟩

end Offprint.Collector
