import Offprint.Collector.Checksum
import Offprint.Effect.Checked
import Offprint.Model.Error

/-!
# Assembling an observation

The host plans a transfer from the descriptor of an observation and takes its chunks
one after the other.  A chunk may be anything: whatever arrives, the arithmetic stays
in range, and what is handed over has the length and the digest of the descriptor.
-/

namespace Offprint.Collector

open Data Effect Checked List Model Nat

def protocolError (code message : String) : OffprintError :=
  .new code .collection message

def natural (value : Nat) : Json :=
  .number (.natural value)

structure ObservationDescriptor where
  captureId : String
  frameId : Nat
  chunks : UInt32
  encodedBytes : UInt64
  payloadSha256 : ContentDigest
  deriving Repr, DecidableEq

def vecMaximum : Nat := 2 ^ 63 - 1

structure ChunkEnvelope where
  captureId : String
  frameId : Nat
  sequence : UInt32
  total : UInt32
  payloadLength : UInt64
  payloadCrc32 : UInt32
  payload : List UInt8
  allocated : payload.length ≤ vecMaximum
  deriving Repr, DecidableEq

def ChunkEnvelope.validate (chunk : ChunkEnvelope) (maximumChunkBytes : UInt64) :
    Checked OffprintError Unit := do
  failIf (chunk.total = 0 ∨ chunk.total ≤ chunk.sequence) (protocolError
    "offprint.collector.chunk_sequence" "collector chunk sequence is outside the declared range")
  failIf (chunk.payloadLength.toNat ≠ min chunk.payload.length (2 ^ 64 - 1)) (protocolError
    "offprint.collector.chunk_length"
    "collector chunk payload length does not match its envelope")
  failIf (maximumChunkBytes < chunk.payloadLength) (protocolError
    "offprint.collector.chunk_limit" "collector chunk exceeds the negotiated byte limit")
  failIf (chunk.payloadCrc32 ≠ Crc32.hash chunk.payload) (protocolError
    "offprint.collector.chunk_checksum" "collector chunk checksum does not match its payload")

theorem ChunkEnvelope.validate_safe (chunk : ChunkEnvelope) (maximumChunkBytes : UInt64) :
    (chunk.validate maximumChunkBytes).Safe fun _ =>
      chunk.sequence.toNat < chunk.total.toNat ∧
        chunk.payloadLength.toNat = chunk.payload.length := by
  have small : chunk.payload.length ≤ 2 ^ 64 - 1 := chunk.allocated.trans (by decide)
  unfold validate
  rw [Nat.min_eq_left small]
  rw [safe_bind, safe_failIf]
  intro ordered
  rw [safe_bind, safe_failIf]
  intro measured
  rw [safe_bind, safe_failIf]
  intro _
  rw [safe_failIf]
  intro _
  rw [not_or, UInt32.not_le, UInt32.lt_iff_toNat_lt] at ordered
  exact ⟨ordered.2, not_not.mp measured⟩

section Plan

def divCeil (dividend divisor : Nat) : Nat :=
  (dividend + divisor - 1) / divisor

/-- How many chunks a payload takes; an empty one takes one. -/
def chunksFor (encodedBytes maximumChunkBytes : Nat) : Nat :=
  max (divCeil encodedBytes maximumChunkBytes) 1

/-- A validated descriptor: its count of chunks is the one its length needs. -/
structure TransferPlan where
  captureId : String
  frameId : Nat
  chunks : UInt32
  encodedBytes : UInt64
  payloadSha256 : ContentDigest
  maximumChunkBytes : UInt64
  positive : 0 < maximumChunkBytes.toNat
  counted : chunks.toNat = chunksFor encodedBytes.toNat maximumChunkBytes.toNat

namespace TransferPlan

def new (descriptor : ObservationDescriptor) (expectedCaptureId : String)
    (expectedFrameId : Nat) (maximumChunkBytes maximumPayloadBytes : UInt64) :
    Except OffprintError TransferPlan :=
  if descriptor.captureId ≠ expectedCaptureId ∨ descriptor.frameId ≠ expectedFrameId then
    .error (protocolError "offprint.collector.protocol_shape"
      "collector descriptor belongs to another capture or frame")
  else if positive : 0 < maximumChunkBytes.toNat then
    if maximumPayloadBytes < descriptor.encodedBytes then
      .error (protocolError "offprint.collector.payload_limit"
          "collector descriptor exceeds the remaining capture limit"
        |>.withDetail "encodedBytes" (natural descriptor.encodedBytes.toNat)
        |>.withDetail "limit" (natural maximumPayloadBytes.toNat))
    else
      let expectedChunks := chunksFor descriptor.encodedBytes.toNat maximumChunkBytes.toNat
      if 2 ^ 32 ≤ expectedChunks then
        .error (protocolError "offprint.collector.chunk_total"
            "collector payload requires more chunks than the protocol can address"
          |>.withDetail "declared" (natural descriptor.chunks.toNat)
          |>.withDetail "expected" (natural expectedChunks))
      else if counted : descriptor.chunks.toNat = expectedChunks then
        .ok ⟨descriptor.captureId, descriptor.frameId, descriptor.chunks,
          descriptor.encodedBytes, descriptor.payloadSha256, maximumChunkBytes, positive, counted⟩
      else
        .error (protocolError "offprint.collector.chunk_total"
            "collector descriptor chunk count does not match its encoded bytes"
          |>.withDetail "declared" (natural descriptor.chunks.toNat)
          |>.withDetail "expected" (natural expectedChunks))
  else
    .error (protocolError "offprint.collector.chunk_limit"
      "collector chunk limit must be greater than zero")

def sequences (plan : TransferPlan) : List Nat :=
  List.range plan.chunks.toNat

/-- A result that has to stay below a bound. -/
def within (bound value : Nat) : Checked OffprintError Nat :=
  .ofOption (if value < bound then some value else none)

def subtract (value amount : Nat) : Checked OffprintError Nat :=
  .ofOption (if amount ≤ value then some (value - amount) else none)

theorem within_of_lt {bound value : Nat} (small : value < bound) :
    within bound value = .ok value := by
  rw [within, if_pos small]
  rfl

theorem subtract_of_le {value amount : Nat} (le : amount ≤ value) :
    subtract value amount = .ok (value - amount) := by
  rw [subtract, if_pos le]
  rfl

/-- The length of a chunk.  Every step panics when it leaves its range. -/
def expectedChunkBytes (plan : TransferPlan) (sequence : Nat) : Checked OffprintError Nat := do
  let next ← within (2 ^ 32) (sequence + 1)
  if next < plan.chunks.toNat then
    return plan.maximumChunkBytes.toNat
  else
    let before ← subtract plan.chunks.toNat 1
    let sent ← within (2 ^ 64) (plan.maximumChunkBytes.toNat * before)
    subtract plan.encodedBytes.toNat sent

section Lengths

variable {maximumChunkBytes : Nat}

variable (positive : 0 < maximumChunkBytes) (encodedBytes : Nat)
include positive

theorem le_chunksFor_mul :
    encodedBytes ≤ chunksFor encodedBytes maximumChunkBytes * maximumChunkBytes := by
  have divided := lt_mul_div_succ (encodedBytes + maximumChunkBytes - 1) positive
  have more : divCeil encodedBytes maximumChunkBytes * maximumChunkBytes ≤
      chunksFor encodedBytes maximumChunkBytes * maximumChunkBytes :=
    mul_le_mul_right _ (le_max_left _ 1)
  rw [divCeil] at more
  rw [Nat.mul_add, Nat.mul_one, mul_comm] at divided
  omega

theorem mul_pred_chunksFor_le :
    maximumChunkBytes * (chunksFor encodedBytes maximumChunkBytes - 1) ≤ encodedBytes := by
  rcases le_total (divCeil encodedBytes maximumChunkBytes) 1 with one | several
  · rw [chunksFor, max_eq_right one]
    omega
  · have divided := Nat.mul_div_le (encodedBytes + maximumChunkBytes - 1) maximumChunkBytes
    rw [chunksFor, Nat.max_eq_left several, Nat.mul_sub, Nat.mul_one, divCeil]
    omega

end Lengths

variable (plan : TransferPlan)

def sent (plan : TransferPlan) (count : Nat) : Nat :=
  min (plan.maximumChunkBytes.toNat * count) plan.encodedBytes.toNat

theorem chunks_pos : 0 < plan.chunks.toNat := by
  rw [plan.counted]
  exact lt_of_lt_of_le zero_lt_one (le_max_right _ 1)

theorem sent_mono {count more : Nat} (le : count ≤ more) : plan.sent count ≤ plan.sent more :=
  min_le_min_right _ (Nat.mul_le_mul_left _ le)

theorem sent_of_lt {count : Nat} (inside : count < plan.chunks.toNat) :
    plan.sent count = plan.maximumChunkBytes.toNat * count := by
  have bound := mul_pred_chunksFor_le plan.positive plan.encodedBytes.toNat
  rw [← plan.counted] at bound
  exact Nat.min_eq_left ((Nat.mul_le_mul_left _ (by omega)).trans bound)

theorem sent_chunks : plan.sent plan.chunks.toNat = plan.encodedBytes.toNat := by
  have bound := le_chunksFor_mul plan.positive plan.encodedBytes.toNat
  rw [← plan.counted, mul_comm] at bound
  exact min_eq_right bound

theorem expectedChunkBytes_eq {sequence : Nat} (inside : sequence < plan.chunks.toNat) :
    plan.expectedChunkBytes sequence = .ok (plan.sent (sequence + 1) - plan.sent sequence) := by
  have width := plan.chunks.toNat_lt
  have wide := plan.encodedBytes.toNat_lt
  have bound := mul_pred_chunksFor_le plan.positive plan.encodedBytes.toNat
  rw [← plan.counted] at bound
  rw [sent_of_lt plan inside, expectedChunkBytes, within_of_lt (by omega), ok_bind]
  split
  · rename_i more
    rw [sent_of_lt plan more, Nat.mul_add, Nat.mul_one, Nat.add_sub_cancel_left]
    rfl
  · obtain rfl : sequence = plan.chunks.toNat - 1 := by omega
    rw [Nat.sub_add_cancel plan.chunks_pos, sent_chunks,
      subtract_of_le (by have := plan.chunks_pos; omega : 1 ≤ plan.chunks.toNat),
      ok_bind, within_of_lt (by omega), ok_bind, subtract_of_le bound]

end TransferPlan
end Plan

structure ChunkAssembler where
  plan : TransferPlan
  nextSequence : Nat
  payload : List UInt8
  complete : Bool

namespace ChunkAssembler

def new (plan : TransferPlan) : ChunkAssembler :=
  ⟨plan, 0, [], false⟩

/-- The checks a chunk passes before it is taken, and the length of the payload with it. -/
def checkChunk (assembler : ChunkAssembler) (chunk : ChunkEnvelope) :
    Checked OffprintError Nat := do
  let plan := assembler.plan
  failIf (chunk.captureId ≠ plan.captureId ∨ chunk.frameId ≠ plan.frameId) (protocolError
    "offprint.collector.chunk_owner" "collector chunk belongs to another capture or frame")
  failIf (chunk.total ≠ plan.chunks) (protocolError "offprint.collector.chunk_total"
      "collector chunk count does not match the validated transfer plan"
    |>.withDetail "declared" (natural chunk.total.toNat)
    |>.withDetail "expected" (natural plan.chunks.toNat))
  chunk.validate plan.maximumChunkBytes
  failIf (assembler.complete ∨ chunk.sequence.toNat ≠ assembler.nextSequence) (protocolError
    "offprint.collector.chunk_sequence" "collector chunks must arrive in sequence")
  let expectedBytes ← plan.expectedChunkBytes chunk.sequence.toNat
  failIf (chunk.payloadLength.toNat ≠ expectedBytes) (protocolError
      "offprint.collector.chunk_length"
      "collector chunk length does not match the validated transfer plan"
    |>.withDetail "actual" (natural chunk.payloadLength.toNat)
    |>.withDetail "expected" (natural expectedBytes))
  let nextBytes := assembler.payload.length + chunk.payloadLength.toNat
  failIf (2 ^ 64 ≤ nextBytes) (protocolError "offprint.collector.payload_limit"
    "collector payload length exceeds the host address space")
  failIf (plan.encodedBytes.toNat < nextBytes) (protocolError "offprint.collector.payload_limit"
      "collector payload exceeds the validated transfer plan"
    |>.withDetail "attempted" (natural nextBytes)
    |>.withDetail "limit" (natural plan.encodedBytes.toNat))
  return nextBytes

/-- The end of a transfer, once the last chunk is taken. -/
def finish (assembler : ChunkAssembler) (nextBytes : Nat) : Checked OffprintError Unit := do
  failIf (nextBytes ≠ assembler.plan.encodedBytes.toNat) (protocolError
      "offprint.collector.chunk_length"
      "collector payload length does not match the validated transfer plan"
    |>.withDetail "actual" (natural nextBytes)
    |>.withDetail "expected" (natural assembler.plan.encodedBytes.toNat))
  failIf (sha256 assembler.payload ≠ assembler.plan.payloadSha256) (protocolError
    "offprint.collector.payload_checksum"
    "collector payload digest does not match its descriptor")

def taken (assembler : ChunkAssembler) (chunk : ChunkEnvelope) : ChunkAssembler :=
  { assembler with
    payload := assembler.payload ++ chunk.payload
    nextSequence := assembler.nextSequence + 1 }

/-- The assembler that has handed its payload over. -/
def emptied (assembler : ChunkAssembler) : ChunkAssembler :=
  { assembler with complete := true, payload := [] }

/-- What a push returns, and the assembler it leaves: a chunk that is taken stays taken
even if the payload then turns out to be wrong. -/
def push (assembler : ChunkAssembler) (chunk : ChunkEnvelope) :
    Checked OffprintError (Option (List UInt8)) × ChunkAssembler :=
  match assembler.checkChunk chunk with
  | .error problem => (.error problem, assembler)
  | .panic => (.panic, assembler)
  | .ok nextBytes =>
    let taken := assembler.taken chunk
    match TransferPlan.within (2 ^ 32) taken.nextSequence with
    | .error problem => (.error problem, taken)
    | .panic => (.panic, taken)
    | .ok _ =>
      if taken.nextSequence ≠ taken.plan.chunks.toNat then
        (.ok none, taken)
      else
        match taken.finish nextBytes with
        | .error problem => (.error problem, taken)
        | .panic => (.panic, taken)
        | .ok () => (.ok (some taken.payload), taken.emptied)

/-- The results of pushing chunks one after the other. -/
def pushAll (assembler : ChunkAssembler) : List ChunkEnvelope →
    List (Checked OffprintError (Option (List UInt8)))
  | [] => []
  | chunk :: rest => (assembler.push chunk).1 :: (assembler.push chunk).2.pushAll rest

/-- What every assembler keeps: it holds what the chunks so far carried. -/
structure Sound (assembler : ChunkAssembler) : Prop where
  inside : assembler.nextSequence ≤ assembler.plan.chunks.toNat
  held : assembler.complete = false →
    assembler.payload.length = assembler.plan.sent assembler.nextSequence
  ended : assembler.complete = true → assembler.nextSequence = assembler.plan.chunks.toNat

theorem sound_new (plan : TransferPlan) : (new plan).Sound where
  inside := zero_le _
  held _ := by simp [new, TransferPlan.sent]
  ended complete := by cases complete

variable {assembler : ChunkAssembler} {results : List (Checked OffprintError (Option (List UInt8)))}

theorem admit_safe (sound : assembler.Sound) (chunk : ChunkEnvelope) :
    (assembler.checkChunk chunk).Safe fun nextBytes =>
      nextBytes = assembler.plan.sent (assembler.nextSequence + 1) ∧
        assembler.complete = false ∧
        assembler.nextSequence < assembler.plan.chunks.toNat ∧
        assembler.payload.length + chunk.payload.length = nextBytes := by
  unfold checkChunk
  rw [safe_bind, safe_failIf]
  intro _
  rw [safe_bind, safe_failIf]
  intro total
  rw [safe_bind]
  refine (chunk.validate_safe _).imp fun _ ⟨ordered, measured⟩ => ?_
  rw [safe_bind, safe_failIf]
  intro inSequence
  rw [not_or, not_not, Bool.not_eq_true] at inSequence
  obtain ⟨incomplete, next⟩ := inSequence
  rw [not_not.mp total, next] at ordered
  rw [next, assembler.plan.expectedChunkBytes_eq ordered, ok_bind]
  rw [safe_bind, safe_failIf]
  intro expected
  rw [safe_bind, safe_failIf]
  intro _
  rw [safe_bind, safe_failIf]
  intro _
  have held := sound.held incomplete
  have grows : assembler.plan.sent assembler.nextSequence ≤
      assembler.plan.sent (assembler.nextSequence + 1) :=
    assembler.plan.sent_mono (le_succ _)
  exact ⟨by omega, incomplete, ordered, by omega⟩

/-- What a push can do: refuse a chunk, take one of several, or take the last one and
then hand the payload over if its digest is the one of the plan. -/
inductive Pushed (assembler : ChunkAssembler) (chunk : ChunkEnvelope) :
    Checked OffprintError (Option (List UInt8)) × ChunkAssembler → Prop
  | refused (problem : OffprintError) : Pushed assembler chunk (.error problem, assembler)
  | took (sound : (assembler.taken chunk).Sound)
      (more : (assembler.taken chunk).nextSequence < assembler.plan.chunks.toNat) :
      Pushed assembler chunk (.ok none, assembler.taken chunk)
  | failed (problem : OffprintError) (sound : (assembler.taken chunk).Sound)
      (last : (assembler.taken chunk).nextSequence = assembler.plan.chunks.toNat) :
      Pushed assembler chunk (.error problem, assembler.taken chunk)
  | finished (sound : (assembler.taken chunk).Sound)
      (last : (assembler.taken chunk).nextSequence = assembler.plan.chunks.toNat)
      (sized : (assembler.taken chunk).payload.length = assembler.plan.encodedBytes.toNat)
      (digest : sha256 (assembler.taken chunk).payload = assembler.plan.payloadSha256) :
      Pushed assembler chunk
        (.ok (some (assembler.taken chunk).payload), (assembler.taken chunk).emptied)

theorem finish_eq (assembler : ChunkAssembler) :
    assembler.finish assembler.plan.encodedBytes.toNat =
      if sha256 assembler.payload ≠ assembler.plan.payloadSha256 then
        .error (protocolError "offprint.collector.payload_checksum"
          "collector payload digest does not match its descriptor")
      else .ok () := by
  rw [finish, failIf, if_neg (by simp)]
  rfl

theorem pushed (sound : assembler.Sound) (chunk : ChunkEnvelope) :
    Pushed assembler chunk (assembler.push chunk) := by
  rcases (admit_safe sound chunk).cases with
    ⟨problem, refused⟩ | ⟨nextBytes, admitted, sent, incomplete, inside, sized⟩
  · rw [push, refused]
    exact .refused problem
  · have width := assembler.plan.chunks.toNat_lt
    have holds : (assembler.taken chunk).Sound := by
      refine ⟨inside, fun _ => ?_, fun complete => ?_⟩
      · rw [taken, length_append, sized, sent]
      · rw [show (assembler.taken chunk).complete = assembler.complete from rfl, incomplete]
          at complete
        cases complete
    have counted : (assembler.taken chunk).nextSequence < 2 ^ 32 := by
      have below := holds.inside
      rw [show (assembler.taken chunk).plan = assembler.plan from rfl] at below
      omega
    simp only [push, admitted, TransferPlan.within_of_lt counted]
    split_ifs with more
    · exact .took holds (lt_of_le_of_ne holds.inside more)
    · rw [not_not] at more
      have whole : nextBytes = (assembler.taken chunk).plan.encodedBytes.toNat := by
        rw [sent, ← (assembler.taken chunk).plan.sent_chunks, ← more]
        rfl
      rw [whole, finish_eq]
      split_ifs with other
      · exact .failed _ holds more
      · exact .finished holds more (by rw [taken, length_append, sized, whole]; rfl)
          (not_not.mp other)

def handsOver : Checked OffprintError (Option (List UInt8)) → Bool
  | .ok (some _) => true
  | _ => false

/-- What holds of the results of a transfer, whatever chunks arrive. -/
structure Guarded (plan : TransferPlan)
    (results : List (Checked OffprintError (Option (List UInt8)))) : Prop where
  inRange : .panic ∉ results
  genuine : ∀ payload, .ok (some payload) ∈ results →
    payload.length = plan.encodedBytes.toNat ∧ sha256 payload = plan.payloadSha256
  once : results.countP handsOver ≤ 1

section

variable (sound : assembler.Sound) (ended : assembler.nextSequence = assembler.plan.chunks.toNat)
include sound ended

theorem push_of_ended (chunk : ChunkEnvelope) :
    ∃ problem, assembler.push chunk = (.error problem, assembler) := by
  have beyond : ¬(assembler.taken chunk).nextSequence ≤ assembler.plan.chunks.toNat := by
    rw [taken, ended]
    exact not_succ_le_self _
  generalize result : assembler.push chunk = step
  have pushed := pushed sound chunk
  rw [result] at pushed
  cases pushed with
  | refused problem => exact ⟨problem, rfl⟩
  | took taken more => exact absurd more.le beyond
  | failed problem taken last | finished taken last sized digest => exact absurd last.le beyond

theorem pushAll_of_ended (chunks : List ChunkEnvelope) :
    ∀ result ∈ assembler.pushAll chunks, ∃ problem, result = .error problem := by
  induction chunks with
  | nil => simp [pushAll]
  | cons chunk rest ih =>
    obtain ⟨problem, refused⟩ := push_of_ended sound ended chunk
    simp only [pushAll, refused, mem_cons]
    rintro result (rfl | later)
    · exact ⟨problem, rfl⟩
    · exact ih result later

theorem sound_emptied : assembler.emptied.Sound where
  inside := sound.inside
  held complete := by cases complete
  ended _ := ended

end

section

variable (errors : ∀ result ∈ results, ∃ problem, result = .error problem)
include errors

theorem countP_of_errors : results.countP handsOver = 0 := by
  apply countP_eq_zero.mpr
  intro result member
  obtain ⟨problem, rfl⟩ := errors result member
  exact Bool.false_ne_true

theorem guarded_of_errors {plan : TransferPlan} : Guarded plan results where
  inRange panics := by
    obtain ⟨problem, same⟩ := errors _ panics
    cases same
  genuine payload returned := by
    obtain ⟨problem, same⟩ := errors _ returned
    cases same
  once := by
    rw [countP_of_errors errors]
    exact zero_le 1

end

theorem Guarded.cons {plan : TransferPlan} (guarded : Guarded plan results)
    {result : Checked OffprintError (Option (List UInt8))} (safe : result ≠ .panic)
    (keeps : handsOver result = false) : Guarded plan (result :: results) where
  inRange panics := by
    rcases mem_cons.mp panics with same | later
    · exact safe same.symm
    · exact guarded.inRange later
  genuine payload returned := by
    rcases mem_cons.mp returned with rfl | later
    · cases keeps
    · exact guarded.genuine payload later
  once := by
    rw [countP_cons_of_neg (by rw [keeps]; exact Bool.false_ne_true)]
    exact guarded.once

theorem pushAll_guarded (sound : assembler.Sound) (chunks : List ChunkEnvelope) :
    Guarded assembler.plan (assembler.pushAll chunks) := by
  induction chunks generalizing assembler with
  | nil => exact guarded_of_errors (by simp [pushAll])
  | cons chunk rest ih =>
    have pushed := pushed sound chunk
    rw [pushAll]
    generalize assembler.push chunk = step at pushed
    cases pushed with
    | refused problem => exact (ih sound).cons (by simp) rfl
    | took holds more | failed problem holds last => exact (ih holds).cons (by simp) rfl
    | finished holds last sized digest =>
      have later := pushAll_of_ended (sound_emptied holds last) last rest
      have rest : Guarded assembler.plan _ := guarded_of_errors later
      refine ⟨?_, ?_, ?_⟩
      · simpa using rest.inRange
      · intro payload returned
        rcases mem_cons.mp returned with same | absent
        · cases same
          exact ⟨sized, digest⟩
        · exact rest.genuine payload absent
      · rw [countP_cons, countP_of_errors later]
        exact le_refl 1

/-! ## Chunks in order -/

section InOrder

def slice (bytes : List UInt8) (maximumChunkBytes sequence : Nat) : List UInt8 :=
  (bytes.drop (maximumChunkBytes * sequence)).take maximumChunkBytes

/-- The chunk that carries a slice of the payload under the plan. -/
structure Carries (plan : TransferPlan) (bytes : List UInt8) (index : Nat)
    (chunk : ChunkEnvelope) : Prop where
  captureId : chunk.captureId = plan.captureId
  frameId : chunk.frameId = plan.frameId
  sequence : chunk.sequence.toNat = index
  total : chunk.total = plan.chunks
  length : chunk.payloadLength.toNat = chunk.payload.length
  crc32 : chunk.payloadCrc32 = Crc32.hash chunk.payload
  payload : chunk.payload = slice bytes plan.maximumChunkBytes.toNat index

/-- The assembler after the first chunks of a payload. -/
def after (plan : TransferPlan) (bytes : List UInt8) (count : Nat) : ChunkAssembler :=
  ⟨plan, count, bytes.take (plan.maximumChunkBytes.toNat * count), false⟩

variable {plan : TransferPlan} {bytes : List UInt8} {count : Nat} {chunk : ChunkEnvelope}

theorem length_slice (sized : bytes.length = plan.encodedBytes.toNat)
    (inside : count < plan.chunks.toNat) :
    (slice bytes plan.maximumChunkBytes.toNat count).length =
      plan.sent (count + 1) - plan.sent count := by
  rw [plan.sent_of_lt inside, TransferPlan.sent, slice, length_take, length_drop, sized,
    Nat.mul_add, Nat.mul_one]
  omega

theorem length_after (sized : bytes.length = plan.encodedBytes.toNat) (count : Nat) :
    (after plan bytes count).payload.length = plan.sent count := by
  rw [after, length_take, sized]
  rfl

theorem taken_after (carries : Carries plan bytes count chunk) :
    (after plan bytes count).taken chunk = after plan bytes (count + 1) := by
  rw [taken, after, after, carries.payload, slice, Nat.mul_add, Nat.mul_one, take_add]

theorem validate_carries
    (inside : count < plan.chunks.toNat) (carries : Carries plan bytes count chunk) :
    chunk.validate plan.maximumChunkBytes = .ok () := by
  have ordered : ¬(chunk.total = 0 ∨ chunk.total ≤ chunk.sequence) := by
    rw [carries.total, UInt32.le_iff_toNat_le, ← UInt32.toNat_inj, carries.sequence,
      UInt32.toNat_zero]
    omega
  have measured : ¬chunk.payloadLength.toNat ≠ min chunk.payload.length (2 ^ 64 - 1) := by
    rw [not_not, ← carries.length]
    have wide := chunk.payloadLength.toNat_lt
    omega
  have limited : ¬plan.maximumChunkBytes < chunk.payloadLength := by
    rw [UInt64.lt_iff_toNat_lt, carries.length, carries.payload, not_lt]
    exact length_take_le _ _
  rw [ChunkEnvelope.validate, failIf_bind_of_not ordered,
    failIf_bind_of_not measured, failIf_bind_of_not limited]
  exact failIf_eq_ok_iff.mpr (not_not.mpr carries.crc32)

section

variable (sized : bytes.length = plan.encodedBytes.toNat)
include sized

theorem admit_carries (inside : count < plan.chunks.toNat)
    (carries : Carries plan bytes count chunk) :
    (after plan bytes count).checkChunk chunk = .ok (plan.sent (count + 1)) := by
  have length := length_slice sized inside
  rw [← carries.payload, ← carries.length] at length
  have held := length_after sized count
  have grows : plan.sent count ≤ plan.sent (count + 1) := plan.sent_mono (le_succ count)
  have total : plan.sent (count + 1) ≤ plan.encodedBytes.toNat := min_le_right _ _
  have wide := plan.encodedBytes.toNat_lt
  have valid := validate_carries inside carries
  unfold checkChunk
  simp only [show (after plan bytes count).plan = plan from rfl, valid, carries.sequence,
    plan.expectedChunkBytes_eq inside, ok_bind]
  rw [failIf_bind_of_not (by simp [carries.captureId, carries.frameId]),
    failIf_bind_of_not (by simp [carries.total]),
    failIf_bind_of_not (by simp [after]),
    failIf_bind_of_not (not_not.mpr length),
    failIf_bind_of_not (by omega), failIf_bind_of_not (by omega), held, length,
    Nat.add_sub_cancel' grows]
  rfl

theorem push_carries (digest : sha256 bytes = plan.payloadSha256)
    (inside : count < plan.chunks.toNat) (carries : Carries plan bytes count chunk) :
    (after plan bytes count).push chunk =
      if count + 1 < plan.chunks.toNat then (.ok none, after plan bytes (count + 1))
      else (.ok (some bytes), (after plan bytes (count + 1)).emptied) := by
  have width := plan.chunks.toNat_lt
  have counted : (after plan bytes (count + 1)).nextSequence < 2 ^ 32 :=
    lt_of_le_of_lt inside width
  simp only [push, admit_carries sized inside carries, taken_after carries,
    TransferPlan.within_of_lt counted]
  by_cases more : count + 1 < plan.chunks.toNat
  · rw [if_pos more]
    exact if_pos (Nat.ne_of_lt more)
  · have last : count + 1 = plan.chunks.toNat := by omega
    have ends : plan.sent (count + 1) = plan.encodedBytes.toNat := by rw [last, plan.sent_chunks]
    have whole : (after plan bytes (count + 1)).payload = bytes := by
      apply take_of_length_le
      rw [sized, ← ends]
      exact min_le_left _ _
    have finished : (after plan bytes (count + 1)).finish plan.encodedBytes.toNat = .ok () := by
      have ending := finish_eq (after plan bytes (count + 1))
      rw [whole] at ending
      exact ending.trans (if_neg (not_not.mpr digest))
    have final : ¬(after plan bytes (count + 1)).nextSequence ≠
        (after plan bytes (count + 1)).plan.chunks.toNat := not_not.mpr last
    rw [if_neg more, if_neg final, ends, finished, whole]

theorem pushAll_carries (digest : sha256 bytes = plan.payloadSha256) {chunkAt : Nat → ChunkEnvelope}
    (carried : ∀ index < plan.chunks.toNat, Carries plan bytes index (chunkAt index))
    {start more : Nat} (counted : start + (more + 1) = plan.chunks.toNat) :
    (after plan bytes start).pushAll ((List.range' start (more + 1)).map chunkAt) =
      List.replicate more (.ok none) ++ [.ok (some bytes)] := by
  induction more generalizing start with
  | zero =>
    have pushed := push_carries sized digest (by omega) (carried start (by omega))
    rw [if_neg (by omega)] at pushed
    simp [pushAll, pushed]
  | succ more ih =>
    have pushed := push_carries sized digest (by omega) (carried start (by omega))
    rw [if_pos (by omega)] at pushed
    rw [range'_succ, map_cons, pushAll, pushed, replicate_succ, cons_append,
      ih (by omega)]

end

end InOrder

end ChunkAssembler
end Offprint.Collector
