import Mathlib.Algebra.GroupWithZero.Nat
import Mathlib.Algebra.BigOperators.Group.List.Basic
import Mathlib.Data.List.Nodup
import Offprint.Effect.Fallible
import Offprint.Model.Error
import Offprint.Model.Export

/-!
# The content store of a capture

Resource bodies by their digests, and the budget of a capture.  Reading and
writing the store's own files always succeeds here; the limits do not.
-/

namespace Offprint.Pipeline

open Data Effect Model List Nat

abbrev Bytes : Type :=
  List UInt8

/-- The limits of a capture that its resources run into. -/
structure CaptureLimits where
  resources : Nat
  resourceBytes : Nat
  totalResourceBytes : Nat
  resourceRecursionDepth : Nat
  frameDepth : Nat
  resources_lt : resources < 2 ^ 32

/-- The code of the errors that report a resource limit. -/
def limitCode : String :=
  "offprint.resource.limit"

def numberDetail (value : Nat) : Json :=
  .number (.natural value)

/-! ## The store -/

structure StoredContent where
  digest : ContentDigest
  bytes : Nat
  deriving Repr, DecidableEq

structure ContentStore where
  entries : List (ContentDigest × Bytes)
  receivedBytes : Nat
  uniqueBytes : Nat
  deriving Repr, DecidableEq

/-- A response body as it arrives, with the error that ends it early. -/
structure BodyStream where
  chunks : List Bytes
  failure : Option OffprintError

namespace ContentStore

def empty : ContentStore :=
  ⟨[], 0, 0⟩

def contentError (code message : String) : OffprintError :=
  .new code .resource message

def body? (store : ContentStore) (digest : ContentDigest) : Option Bytes :=
  (store.entries.find? fun entry => entry.1 = digest).map Prod.snd

/-- The loop over the chunks; the result is the size of the body. -/
def receive (limits : CaptureLimits) :
    Nat → List Bytes → Fallible ContentStore OffprintError Nat
  | resourceBytes, [] => pure resourceBytes
  | resourceBytes, chunk :: rest => do
      let resourceBytes := resourceBytes + chunk.length
      if 2 ^ 64 ≤ resourceBytes then
        Fallible.throw (contentError limitCode "resource byte count overflowed")
      else
        let store ← Fallible.get
        let totalBytes := store.receivedBytes + chunk.length
        if 2 ^ 64 ≤ totalBytes then
          Fallible.throw (contentError limitCode "total resource byte count overflowed")
        else
          Fallible.modify fun store => { store with receivedBytes := totalBytes }
          if limits.resourceBytes < resourceBytes ∨ limits.totalResourceBytes < totalBytes then
            Fallible.throw
              ((contentError limitCode
                  "resource content exceeds the configured content-store limit")
                |>.withDetail "resourceBytes" (numberDetail resourceBytes)
                |>.withDetail "totalBytes" (numberDetail totalBytes)
                |>.withDetail "resourceLimit" (numberDetail limits.resourceBytes)
                |>.withDetail "totalLimit" (numberDetail limits.totalResourceBytes))
          else
            receive limits resourceBytes rest

variable [Sha256] (limits : CaptureLimits)

def insertStream (stream : BodyStream) : Fallible ContentStore OffprintError StoredContent := do
  let resourceBytes ← receive limits 0 stream.chunks
  match stream.failure with
  | some error => Fallible.throw error
  | none =>
    let body := stream.chunks.flatten
    let digest := Sha256.digest body
    let store ← Fallible.get
    match store.body? digest with
    | some known => return ⟨digest, known.length⟩
    | none =>
      if 2 ^ 64 ≤ store.uniqueBytes + resourceBytes then
        Fallible.throw (contentError limitCode "unique resource byte count overflowed")
      else
        Fallible.modify fun store =>
          { store with
            entries := (digest, body) :: store.entries
            uniqueBytes := store.uniqueBytes + resourceBytes }
        return ⟨digest, resourceBytes⟩

def insertBytes (bytes : Bytes) : Fallible ContentStore OffprintError StoredContent :=
  insertStream limits ⟨[bytes], none⟩

def read (limits : CaptureLimits) (content : StoredContent) :
    Fallible ContentStore OffprintError Bytes := do
  if limits.resourceBytes < content.bytes then
    Fallible.throw
      ((contentError limitCode "stored content exceeds the requested read limit")
        |>.withDetail "bytes" (numberDetail content.bytes)
        |>.withDetail "limit" (numberDetail limits.resourceBytes))
  else
    let store ← Fallible.get
    match store.body? content.digest with
    | some body => return body
    | none =>
      Fallible.throw
        (contentError "offprint.resource.store" "failed to read stored resource content")

def storeBody (stream : BodyStream) :
    Fallible ContentStore OffprintError (Bytes × StoredContent) := do
  let content ← insertStream limits stream
  let bytes ← read limits content
  return (bytes, content)

def commitBytes (bytes : Bytes) :
    Option StoredContent → Fallible ContentStore OffprintError StoredContent
  | some content =>
    if content.bytes = bytes.length ∧ content.digest = Sha256.digest bytes then
      pure content
    else
      Fallible.throw (.new "offprint.resource.store" .internal
        "stored resource content does not match the materialized bytes")
  | none => insertBytes limits bytes

end ContentStore

/-! ## What the store keeps -/

namespace ContentStore

open Fallible

/-- What is stored: each digest with the size of its body. -/
def sizes (store : ContentStore) : List (ContentDigest × Nat) :=
  store.entries.map fun entry => (entry.1, entry.2.length)

variable {store : ContentStore} {digest : ContentDigest} {body : Bytes}

theorem mem_of_body? (found : store.body? digest = some body) : (digest, body) ∈ store.entries := by
  unfold body? at found
  obtain ⟨entry, isEntry, rfl⟩ := Option.map_eq_some_iff.mp found
  have same : entry.1 = digest := by simpa using find?_some isEntry
  rw [← same]
  exact mem_of_find?_eq_some isEntry

theorem not_mem_of_body?_eq_none (absent : store.body? digest = none) :
    digest ∉ store.entries.map Prod.fst := by
  unfold body? at absent
  rw [Option.map_eq_none_iff, find?_eq_none] at absent
  intro member
  obtain ⟨entry, isEntry, rfl⟩ := mem_map.mp member
  simpa using absent entry isEntry

@[simp]
theorem code_contentError (code message : String) : (contentError code message).code = code :=
  OffprintError.code_new ..

/-- What the loop over the chunks checks, for the body as a whole. -/
structure Fits (limits : CaptureLimits) (store : ContentStore) (size added : Nat) : Prop where
  resource_lt : size < 2 ^ 64
  received_lt : store.receivedBytes + added < 2 ^ 64
  resource_le : size ≤ limits.resourceBytes
  received_le : store.receivedBytes + added ≤ limits.totalResourceBytes

/-- A store that has only received more. -/
structure Charged (before after : ContentStore) : Prop where
  entries : after.entries = before.entries
  unique : after.uniqueBytes = before.uniqueBytes
  received_le : before.receivedBytes ≤ after.receivedBytes
  received_lt : before.receivedBytes < 2 ^ 64 → after.receivedBytes < 2 ^ 64

/-- However a body is cut into chunks, the loop ends well exactly if the body fits. -/
theorem ensures_receive (limits : CaptureLimits) (chunks : List Bytes) (start : Nat)
    (store : ContentStore) : Ensures (receive limits start chunks)
      (fun size after => size = start + chunks.flatten.length ∧
        after = { store with receivedBytes := store.receivedBytes + chunks.flatten.length } ∧
        (chunks = [] ∨ Fits limits store size chunks.flatten.length))
      (fun error after => error.code = limitCode ∧ Charged store after ∧ chunks ≠ [] ∧
        ¬ Fits limits store (start + chunks.flatten.length) chunks.flatten.length) store := by
  induction chunks generalizing start store with
  | nil => simp [receive]
  | cons chunk rest ih =>
    have sizes : (chunk :: rest).flatten.length = chunk.length + rest.flatten.length := by simp
    have filled : chunk :: rest ≠ [] := cons_ne_nil chunk rest
    simp only [receive, sizes]
    split
    · refine ⟨by simp, ⟨rfl, rfl, le_rfl, id⟩, filled, fun fits => ?_⟩
      have := fits.resource_lt
      omega
    · simp only [ensures_bind, ensures_get]
      split
      · refine ⟨by simp, ⟨rfl, rfl, le_rfl, id⟩, filled, fun fits => ?_⟩
        have := fits.received_lt
        omega
      · next small =>
        simp only [ensures_bind, ensures_modify]
        split
        · refine ⟨by simp, ⟨rfl, rfl, Nat.le_add_right .., fun _ => not_le.mp small⟩, filled,
            fun fits => ?_⟩
          have := fits.resource_le
          have := fits.received_le
          omega
        · apply (ih _ _).mono
          · rintro size after ⟨rfl, rfl, passed⟩
            refine ⟨by omega, by simp [add_assoc], .inr ?_⟩
            rcases passed with rfl | ⟨resource, received, most, all⟩
            · constructor <;> simp <;> omega
            · constructor <;> dsimp only at * <;> omega
          · rintro error after ⟨code, charged, -, refused⟩
            refine ⟨code, ⟨charged.entries, charged.unique, ?_, ?_⟩, filled, ?_⟩
            · exact (Nat.le_add_right ..).trans charged.received_le
            · exact fun _ => charged.received_lt (not_le.mp small)
            · rintro ⟨resource, received, most, all⟩
              exact refused ⟨by omega, by dsimp only; omega, by omega, by dsimp only; omega⟩

variable [Sha256]

structure Sound (store : ContentStore) : Prop where
  digests : ∀ entry ∈ store.entries, entry.1 = Sha256.digest entry.2
  distinct : (store.entries.map Prod.fst).Nodup
  total : store.uniqueBytes = (store.entries.map fun entry => entry.2.length).sum
  bounded : store.uniqueBytes < 2 ^ 64

theorem sound_empty : empty.Sound :=
  ⟨by simp [empty], by simp [empty], by simp [empty], by simp [empty]⟩

theorem Sound.eq_of_mem_sizes (sound : store.Sound) {left right : ContentDigest × Nat}
    (isLeft : left ∈ store.sizes) (isRight : right ∈ store.sizes) (same : left.1 = right.1) :
    left = right := by
  have distinct : (store.sizes.map Prod.fst).Nodup := by
    rw [sizes, map_map]
    exact sound.distinct
  exact inj_on_of_nodup_map distinct isLeft isRight same

/-- A store that kept what it had and is sound. -/
structure Grown (before after : ContentStore) : Prop where
  sound : after.Sound
  kept : before.entries ⊆ after.entries

theorem Grown.refl (sound : store.Sound) : Grown store store :=
  ⟨sound, fun _ member => member⟩

theorem Grown.mem_sizes {before after : ContentStore} (grown : Grown before after)
    {size : ContentDigest × Nat} (member : size ∈ before.sizes) : size ∈ after.sizes := by
  obtain ⟨entry, isEntry, rfl⟩ := mem_map.mp member
  exact mem_map_of_mem (grown.kept isEntry)

theorem Sound.of_entries {other : ContentStore} (sound : store.Sound)
    (entries : other.entries = store.entries) (unique : other.uniqueBytes = store.uniqueBytes) :
    other.Sound := by
  obtain ⟨_, received, _⟩ := other
  cases entries
  cases unique
  exact ⟨sound.digests, sound.distinct, sound.total, sound.bounded⟩

/-- The content of a body that was received: its entry, or a new one. -/
def contentOf (store : ContentStore) (body : Bytes) : StoredContent :=
  ⟨Sha256.digest body, ((store.body? (Sha256.digest body)).getD body).length⟩

def keep (store : ContentStore) (body : Bytes) : ContentStore :=
  match store.body? (Sha256.digest body) with
  | some _ => store
  | none =>
    { store with
      entries := (Sha256.digest body, body) :: store.entries
      uniqueBytes := store.uniqueBytes + body.length }

theorem uniqueBytes_keep_le (store : ContentStore) (body : Bytes) :
    (store.keep body).uniqueBytes ≤ store.uniqueBytes + body.length := by
  unfold keep
  split
  · exact Nat.le_add_right ..
  · exact le_rfl

theorem Sound.keep (sound : store.Sound) (fits : (store.keep body).uniqueBytes < 2 ^ 64) :
    Grown store (store.keep body) ∧
      ((store.contentOf body).digest, (store.contentOf body).bytes) ∈ (store.keep body).sizes := by
  unfold ContentStore.keep contentOf at *
  cases found : store.body? (Sha256.digest body) with
  | some known => exact ⟨.refl sound, mem_map_of_mem (mem_of_body? found)⟩
  | none =>
    rw [found] at fits
    refine ⟨⟨⟨?_, ?_, ?_, fits⟩, fun _ member => mem_cons_of_mem _ member⟩, mem_cons_self⟩
    · intro entry member
      rcases mem_cons.mp member with rfl | old
      · rfl
      · exact sound.digests entry old
    · simp only [map_cons, nodup_cons]
      exact ⟨not_mem_of_body?_eq_none found, sound.distinct⟩
    · simp only [map_cons, sum_cons, sound.total]
      omega

/-- The content is stored, and the bytes are its body. -/
structure Holds (store : ContentStore) (content : StoredContent) (bytes : Bytes) : Prop where
  stored : (content.digest, content.bytes) ∈ store.sizes
  size : content.bytes = bytes.length
  digest : content.digest = Sha256.digest bytes

section

variable (limits : CaptureLimits)
include limits

/-- An insertion keeps the received body, or fails and keeps nothing. -/
theorem ensures_insertStream_exact (stream : BodyStream)
    (store : ContentStore) (small : store.uniqueBytes < 2 ^ 64) : let body := stream.chunks.flatten
    Ensures (insertStream limits stream)
      (fun content after => content = store.contentOf body ∧
        after = { store.keep body with receivedBytes := store.receivedBytes + body.length } ∧
        (store.keep body).uniqueBytes < 2 ^ 64 ∧
        (stream.chunks = [] ∨ Fits limits store body.length body.length))
      (fun error after => Charged store after ∧ (stream.failure = none →
        error.code = limitCode ∧ stream.chunks ≠ [] ∧
          (store.uniqueBytes ≤ store.receivedBytes → ¬ Fits limits store body.length body.length)))
      store := by
  intro body
  unfold insertStream
  rw [ensures_bind]
  apply (ensures_receive limits stream.chunks 0 store).mono
  · rintro size after ⟨rfl, rfl, passed⟩
    rw [zero_add] at passed ⊢
    have charged : Charged store { store with receivedBytes := store.receivedBytes +
      body.length } := by
      refine ⟨rfl, rfl, Nat.le_add_right .., fun small => ?_⟩
      rcases passed with none | fits
      · simpa [body, none] using small
      · exact fits.received_lt
    cases failure : stream.failure with
    | some error => exact ⟨charged, nofun⟩
    | none =>
      simp only [ensures_bind, ensures_get]
      have same : body? { store with receivedBytes := store.receivedBytes + body.length }
          (Sha256.digest body) = store.body? (Sha256.digest body) := rfl
      simp only [body] at same
      simp only [same, contentOf, keep, body]
      cases store.body? (Sha256.digest stream.chunks.flatten) with
      | some known => exact ⟨rfl, rfl, small, passed⟩
      | none =>
        dsimp only
        split
        · next large =>
          refine ⟨charged, fun _ => ⟨by simp, ?_, ?_⟩⟩
          · rintro none
            simp only [none, flatten_nil, length_nil] at large
            omega
          · rintro below ⟨-, received, -, -⟩
            omega
        · next room => exact ⟨rfl, rfl, not_le.mp room, passed⟩
  · rintro error after ⟨code, charged, filled, refused⟩
    rw [zero_add] at refused
    exact ⟨charged, fun _ => ⟨code, filled, fun _ => refused⟩⟩

theorem ensures_insertStream (stream : BodyStream) (sound : store.Sound) :
    Ensures (insertStream limits stream)
      (fun content after => Grown store after ∧ (content.digest, content.bytes) ∈ after.sizes)
      (fun error after => Grown store after ∧
        (stream.failure = none → error.code = limitCode)) store := by
  apply (ensures_insertStream_exact limits stream store sound.bounded).mono
  · rintro content after ⟨rfl, rfl, fits, -⟩
    obtain ⟨grown, member⟩ := sound.keep fits
    exact ⟨⟨grown.sound.of_entries rfl rfl, grown.kept⟩, member⟩
  · rintro error after ⟨charged, refused⟩
    refine ⟨⟨sound.of_entries charged.entries charged.unique, ?_⟩, fun clean => (refused clean).1⟩
    rw [charged.entries]
    exact fun _ member => member

theorem ensures_read {content : StoredContent} (sound : store.Sound)
    (member : (content.digest, content.bytes) ∈ store.sizes) : Ensures (read limits content)
      (fun bytes after => after = store ∧ store.Holds content bytes)
      (fun _ after => after = store) store := by
  unfold read
  split
  · simp
  · simp only [ensures_bind, ensures_get]
    obtain ⟨entry, isEntry, same⟩ := mem_map.mp member
    obtain ⟨digest, size⟩ := Prod.mk.inj same
    cases found : store.body? content.digest with
    | none =>
      simp
    | some body =>
      simp only [ensures_pure, true_and]
      have equal : (content.digest, body) = entry :=
        inj_on_of_nodup_map sound.distinct (mem_of_body? found) isEntry digest.symm
      refine ⟨member, ?_, sound.digests _ (mem_of_body? found)⟩
      rw [← size, ← equal]

theorem ensures_storeBody (stream : BodyStream) (sound : store.Sound) :
    Ensures (storeBody limits stream)
      (fun stored after => Grown store after ∧ after.Holds stored.2 stored.1)
      (fun _ after => Grown store after) store := by
  unfold storeBody
  rw [ensures_bind]
  apply (ensures_insertStream limits stream sound).mono
  · rintro content after ⟨grown, member⟩
    rw [ensures_bind]
    apply (ensures_read limits grown.sound member).mono
    · rintro bytes _ ⟨rfl, holds⟩
      exact ⟨grown, holds⟩
    · rintro error _ rfl
      exact grown
  · exact fun _ _ failed => failed.1

/-- Bytes that match their stored content are committed, and new bytes fail on
a limit only. -/
theorem ensures_commitBytes (bytes : Bytes) (stored : Option StoredContent) (sound : store.Sound)
    (fits : ∀ content ∈ stored, store.Holds content bytes) :
    Ensures (commitBytes limits bytes stored)
      (fun content after => Grown store after ∧ (content.digest, content.bytes) ∈ after.sizes)
      (fun error _ => error.code = limitCode) store := by
  cases stored with
  | some content =>
    obtain ⟨member, size, digest⟩ := fits content rfl
    simp only [commitBytes, size, digest, and_self, if_true, ensures_pure]
    rw [← size, ← digest]
    exact ⟨.refl sound, member⟩
  | none =>
    apply (ensures_insertStream limits ⟨[bytes], none⟩ sound).mono
    · exact fun _ _ inserted => inserted
    · exact fun _ _ failed => failed.2 rfl

end

/-! ## One insertion after another -/

/-- The store after a sequence of insertions, failed ones included. -/
def insertAll (limits : CaptureLimits) (streams : List BodyStream) : ContentStore :=
  streams.foldl (fun store stream => (insertStream limits stream store).2) empty

structure Budgeted (limits : CaptureLimits) (store : ContentStore) : Prop where
  sound : store.Sound
  received_lt : store.receivedBytes < 2 ^ 64
  unique_le : store.uniqueBytes ≤ store.receivedBytes
  within : store.uniqueBytes ≤ limits.totalResourceBytes

theorem Budgeted.insertStream {limits : CaptureLimits} (budgeted : Budgeted limits store)
    (stream : BodyStream) : Budgeted limits (insertStream limits stream store).2 := by
  obtain ⟨sound, received, below, within⟩ := budgeted
  have inserted := ensures_insertStream_exact limits stream store sound.bounded
  unfold Ensures at inserted
  split at inserted
  · next content after result =>
    rw [result]
    obtain ⟨-, rfl, fits, passed⟩ := inserted
    have grown := (sound.keep fits).1
    have most := uniqueBytes_keep_le store stream.chunks.flatten
    refine ⟨grown.sound.of_entries rfl rfl, ?_, ?_, ?_⟩ <;> dsimp only
    · rcases passed with none | fits
      · simpa [none] using received
      · exact fits.received_lt
    · omega
    · rcases passed with none | fits
      · rw [none] at most
        simp only [flatten_nil, length_nil, add_zero] at most
        rw [none, flatten_nil]
        exact most.trans within
      · have := fits.received_le
        omega
  · next error after result =>
    rw [result]
    obtain ⟨charged, -⟩ := inserted
    refine ⟨sound.of_entries charged.entries charged.unique, charged.received_lt received, ?_, ?_⟩
    · exact charged.unique.trans_le (below.trans charged.received_le)
    · exact charged.unique.trans_le within

/-- What an error-free stream of chunks is answered, and the entries it leaves. -/
def insertion (limits : CaptureLimits) (store : ContentStore) (chunks : List Bytes) :
    Option StoredContent × List (ContentDigest × Bytes) :=
  ((insertStream limits ⟨chunks, none⟩ store).1.toOption,
    (insertStream limits ⟨chunks, none⟩ store).2.entries)

theorem Budgeted.insertion_cases {limits : CaptureLimits} (budgeted : Budgeted limits store)
    (chunks : List Bytes) : let body := chunks.flatten
    (insertion limits store chunks = (some (store.contentOf body), (store.keep body).entries) ∧
        (chunks = [] ∨ Fits limits store body.length body.length)) ∨
      insertion limits store chunks = (none, store.entries) ∧ chunks ≠ [] ∧
        ¬ Fits limits store body.length body.length := by
  have inserted := ensures_insertStream_exact limits ⟨chunks, none⟩ store budgeted.sound.bounded
  unfold Ensures at inserted
  unfold insertion
  split at inserted
  · next content after result =>
    rw [result]
    obtain ⟨rfl, rfl, -, passed⟩ := inserted
    exact .inl ⟨rfl, passed⟩
  · next error after result =>
    rw [result]
    obtain ⟨charged, refused⟩ := inserted
    obtain ⟨-, filled, refused⟩ := refused rfl
    exact .inr ⟨by rw [charged.entries]; rfl, filled, refused budgeted.unique_le⟩

/-- The store accounts for its bodies, and the chunks of a new body do not matter. -/
structure Accounts (limits : CaptureLimits) (store : ContentStore) (body : Bytes) : Prop where
  sound : store.Sound
  within : store.uniqueBytes ≤ limits.totalResourceBytes
  returned : ∀ stream content after, insertStream limits stream store = (.ok content, after) →
    (content.digest, content.bytes) ∈ after.sizes
  failed : ∀ stream error after, insertStream limits stream store = (.error error, after) →
    after.entries = store.entries ∧ after.uniqueBytes = store.uniqueBytes
  chunking : ∀ chunks others : List Bytes, chunks.flatten = body → others.flatten = body →
    insertion limits store chunks = insertion limits store others

/-- Whatever was inserted before, the store accounts for its bodies; the chunks of a
new body matter only if it is empty and more was received than the limit. -/
theorem accounts_insertAll_iff (limits : CaptureLimits) (streams : List BodyStream) (body : Bytes) :
    Accounts limits (insertAll limits streams) body ↔
      body ≠ [] ∨ (insertAll limits streams).receivedBytes ≤ limits.totalResourceBytes := by
  have budgeted : Budgeted limits (insertAll limits streams) :=
    List.foldlRecOn streams _ ⟨sound_empty, by simp [empty], le_rfl, zero_le _⟩
      fun _ budgeted stream _ => budgeted.insertStream stream
  constructor
  · intro accounts
    by_cases filled : body ≠ []
    · exact .inl filled
    obtain rfl : body = [] := not_not.mp filled
    have same := accounts.chunking [] [[]] rfl rfl
    rcases budgeted.insertion_cases [] with ⟨accepted, -⟩ | ⟨-, filled, -⟩
    · rcases budgeted.insertion_cases [[]] with ⟨-, impossible | fits⟩ | ⟨refused, -⟩
      · cases impossible
      · exact .inr fits.received_le
      · rw [accepted, refused] at same
        cases same
    · exact absurd rfl filled
  · intro harmless
    refine ⟨budgeted.sound, budgeted.within, ?_, ?_, ?_⟩
    · intro stream content after result
      have inserted := ensures_insertStream limits stream budgeted.sound
      rw [Ensures, result] at inserted
      exact inserted.2
    · intro stream error after result
      have inserted := ensures_insertStream_exact limits stream _ budgeted.sound.bounded
      rw [Ensures, result] at inserted
      exact ⟨inserted.1.entries, inserted.1.unique⟩
    · have passed (chunks : List Bytes) (same : chunks.flatten = body) (none : chunks = []) :
          Fits limits (insertAll limits streams) body.length body.length := by
        rw [none] at same
        subst same
        exact ⟨by simp, budgeted.received_lt, Nat.zero_le _, by simpa using harmless⟩
      intro chunks others same sameToo
      have first := budgeted.insertion_cases chunks
      have second := budgeted.insertion_cases others
      rw [same] at first
      rw [sameToo] at second
      have fitsFirst := passed chunks same
      have fitsSecond := passed others sameToo
      grind

omit [Sha256] in
/-- After a body beyond the limit, an empty stream is stored but an empty chunk is
refused. -/
theorem not_accounts_empty_chunk :
    ∃ (_sha256 : Sha256) (limits : CaptureLimits) (streams : List BodyStream) (body : Bytes),
      ¬ Accounts limits (insertAll limits streams) body := by
  let sha256 : Sha256 := ⟨fun _ => .zero⟩
  refine ⟨sha256, ⟨0, 1, 1, 0, 0, by decide⟩, [⟨[[0, 0]], none⟩], [], fun accounts => ?_⟩
  have same := accounts.chunking [] [[]] rfl rfl
  revert same
  decide

end ContentStore

/-! ## The budget -/

inductive BudgetCounter where
  | resources
  | resourceBytes
  | totalResourceBytes
  deriving Repr, DecidableEq

def BudgetCounter.name : BudgetCounter → String
  | .resources => "Resources"
  | .resourceBytes => "ResourceBytes"
  | .totalResourceBytes => "TotalResourceBytes"

structure CaptureBudget where
  resources : Nat
  totalResourceBytes : Nat
  deriving Repr, DecidableEq

namespace CaptureBudget

variable (limits : CaptureLimits) (counter : BudgetCounter) (bytes : Nat) (budget : CaptureBudget)

def budgetLimitError (attempted limit : Nat) : OffprintError :=
  (OffprintError.new limitCode .resource (counter.name ++ " budget exceeded"))
    |>.withDetail "attempted" (numberDetail attempted)
    |>.withDetail "limit" (numberDetail limit)

def enforce (attempted limit : Nat) : Fallible CaptureBudget OffprintError Unit :=
  if attempted ≤ limit then pure ()
  else Fallible.throw (budgetLimitError counter attempted limit)

def addResource : Fallible CaptureBudget OffprintError Unit := do
  let budget ← Fallible.get
  let next := budget.resources + 1
  if 2 ^ 32 ≤ next then
    Fallible.throw (budgetLimitError .resources next limits.resources)
  else
    enforce .resources next limits.resources
    Fallible.modify fun budget => { budget with resources := next }

def reserveResourceBytes (bytes : Nat) : Fallible CaptureBudget OffprintError Unit := do
  enforce .resourceBytes bytes limits.resourceBytes
  let budget ← Fallible.get
  let next := budget.totalResourceBytes + bytes
  if 2 ^ 64 ≤ next then
    Fallible.throw (budgetLimitError .totalResourceBytes (2 ^ 64 - 1) limits.totalResourceBytes)
  else
    enforce .totalResourceBytes next limits.totalResourceBytes
    Fallible.modify fun budget => { budget with totalResourceBytes := next }

open Fallible

theorem ensures_addResource :
    Ensures (addResource limits)
      (fun _ after => after = { budget with resources := budget.resources + 1 } ∧
        budget.resources + 1 ≤ limits.resources)
      (fun error _ => error.code = limitCode) budget := by
  simp only [addResource, enforce, ensures_bind, ensures_get]
  split
  · simp [budgetLimitError]
  · rw [ensures_bind]
    split
    · next fits => simp [fits]
    · simp [budgetLimitError]

theorem ensures_reserveResourceBytes : Ensures (reserveResourceBytes limits bytes)
      (fun _ after => after.resources = budget.resources)
      (fun _ after => after.resources = budget.resources) budget := by
  simp only [reserveResourceBytes, enforce, ensures_bind]
  split
  · simp only [ensures_pure, ensures_bind, ensures_get]
    split
    · simp
    · rw [ensures_bind]
      split <;> simp
  · simp

end CaptureBudget
end Offprint.Pipeline
