import Mathlib.Algebra.Order.BigOperators.Group.List
import Mathlib.Algebra.Order.Group.Nat
import Mathlib.Data.Finset.Card
import Offprint.Pipeline.Resources

/-!
# Complete accounting of resources

`Accounted` is the invariant of a capture's resource state: every identifier
that was handed out is either still open or has exactly one terminal record,
and the counters say what the records say.  Opening a reference adds to the
open identifiers and resolving one closes it, whatever is opened and closed
inside.
-/

namespace Offprint.Pipeline

open Data Effect ContentStore List Offprint.Effect.Fallible Model

variable {Url : Type}

/-! ## The invariant -/

/-- The digest and the size of an embedded body. -/
def ResourceRecord.body? (record : ResourceRecord Url) : Option (ContentDigest × Nat) :=
  match record.outcome with
  | .embedded digest _ bytes => some (digest, bytes)
  | .failed _ => none

/-- The bodies of the embedded resources, one for each record. -/
def embeddedBodies (records : OrderedMap Nat (ResourceRecord Url)) : List (ContentDigest × Nat) :=
  records.filterMap fun entry => entry.2.body?

/-- Every identifier so far is open or has its one record, and the counters
agree with the records. -/
structure Accounted [Sha256] (limits : CaptureLimits) (unsettled : Finset Nat)
    (state : ResourceState Url) : Prop where
  store : state.store.Sound
  next : state.nextResourceId = state.summary.discovered
  budget : state.budget.resources = state.summary.discovered
  limited : state.summary.discovered ≤ limits.resources
  distinct : state.records.keys.Nodup
  identifiers : ∀ id, id < state.summary.discovered ↔ id ∈ unsettled ∨ id ∈ state.records.keys
  apart : ∀ id ∈ unsettled, id ∉ state.records.keys
  embedded : state.summary.embedded = (embeddedBodies state.records).length
  failed : state.summary.embedded + state.summary.failed = state.records.length
  digests : ∀ digest, digest ∈ state.embeddedDigests ↔
    digest ∈ (embeddedBodies state.records).map Prod.fst
  bodies : ∀ body ∈ embeddedBodies state.records, body ∈ state.store.sizes
  embeddedBytes : state.summary.embeddedBytes =
    ((embeddedBodies state.records).dedup.map Prod.snd).sum

section Invariant

variable [Sha256] {limits : CaptureLimits} {unsettled : Finset Nat} {state : ResourceState Url}
  {store : ContentStore} {after : ResourceState Url} {record : ResourceRecord Url}

theorem accounted_new (nextFrameId : Nat) :
    Accounted limits ∅ (ResourceState.new nextFrameId : ResourceState Url) where
  store := sound_empty
  next := rfl
  budget := rfl
  limited := Nat.zero_le _
  distinct := nodup_nil
  identifiers := by simp [ResourceState.new, OrderedMap.keys]
  apart := by simp
  embedded := rfl
  failed := rfl
  digests := by simp [ResourceState.new, embeddedBodies]
  bodies := by simp [ResourceState.new, embeddedBodies]
  embeddedBytes := rfl

theorem Accounted.card (accounted : Accounted limits unsettled state) :
    unsettled.card + state.records.length = state.summary.discovered := by
  have union : unsettled ∪ state.records.keys.toFinset =
      Finset.range state.summary.discovered := by
    ext id
    rw [Finset.mem_union, mem_toFinset, Finset.mem_range, accounted.identifiers id]
  have disjoint : Disjoint unsettled state.records.keys.toFinset := by
    rw [Finset.disjoint_left]
    intro id isOpen
    simpa using accounted.apart id isOpen
  calc unsettled.card + state.records.length
      = unsettled.card + state.records.keys.toFinset.card := by
        rw [toFinset_card_of_nodup accounted.distinct, OrderedMap.keys, length_map]
    _ = (unsettled ∪ state.records.keys.toFinset).card :=
        (Finset.card_union_of_disjoint disjoint).symm
    _ = state.summary.discovered := by rw [union, Finset.card_range]

theorem Accounted.records_lt (accounted : Accounted limits unsettled state) {id : Nat}
    (isOpen : id ∈ unsettled) : state.records.length + 1 < 2 ^ 32 := by
  have card := accounted.card
  have positive : 0 < unsettled.card := Finset.card_pos.mpr ⟨id, isOpen⟩
  have limited := accounted.limited
  have bounded := limits.resources_lt
  omega

theorem sum_dedup_le (sound : store.Sound)
    {bodies : List (ContentDigest × Nat)} (stored : ∀ body ∈ bodies, body ∈ store.sizes) :
    (bodies.dedup.map Prod.snd).sum ≤ store.uniqueBytes := by
  have contained : bodies.dedup ⊆ store.sizes := by
    intro body member
    exact stored body (mem_dedup.mp member)
  obtain ⟨chosen, perm, sublist⟩ := (nodup_dedup bodies).subperm contained
  have total : (store.sizes.map Prod.snd).sum = store.uniqueBytes := by
    rw [sound.total, sizes, map_map]
    rfl
  rw [← total, ← (perm.map Prod.snd).sum_eq]
  exact (sublist.map Prod.snd).sum_le_sum fun _ _ => Nat.zero_le _

/-! ## Closing a reference -/

/-- What a new record does to the identifiers. -/
structure Settled (unsettled : Finset Nat) (before after : ResourceState Url)
    (record : ResourceRecord Url) : Prop where
  records : after.records = OrderedMap.insert record.id record before.records
  discovered : after.summary.discovered = before.summary.discovered
  nextResourceId : after.nextResourceId = before.nextResourceId
  budget : after.budget.resources = before.budget.resources
  isOpen : record.id ∈ unsettled

section

variable (accounted : Accounted limits unsettled state)
  (settled : Settled unsettled state after record)
include accounted settled

theorem Settled.perm : after.records.Perm ((record.id, record) :: state.records) := by
  rw [settled.records]
  exact OrderedMap.insert_perm record (accounted.apart _ settled.isOpen)

theorem Settled.keys_perm : after.records.keys.Perm (record.id :: state.records.keys) :=
  (settled.perm accounted).map Prod.fst

theorem Settled.bodies_perm : (embeddedBodies after.records).Perm
      (record.body?.toList ++ embeddedBodies state.records) := by
  have perm := (settled.perm accounted).filterMap fun entry => entry.2.body?
  cases body : record.body? with
  | none | some value => simpa [embeddedBodies, body] using perm

end

theorem Settled.accounted (accounted : Accounted limits unsettled state)
    (settled : Settled unsettled state after record) (store : after.store.Sound)
    {embedded : List (ContentDigest × Nat)}
    (isEmbedded : record.body?.toList ++ embeddedBodies state.records = embedded)
    (count : after.summary.embedded = embedded.length)
    (failed : after.summary.embedded + after.summary.failed = state.records.length + 1)
    (digests : ∀ digest, digest ∈ after.embeddedDigests ↔ digest ∈ embedded.map Prod.fst)
    (bodies : ∀ body ∈ embedded, body ∈ after.store.sizes)
    (embeddedBytes : after.summary.embeddedBytes = (embedded.dedup.map Prod.snd).sum) :
    Accounted limits (unsettled.erase record.id) after := by
  subst isEmbedded
  have perm := settled.bodies_perm accounted
  exact {
    store := store
    next := by rw [settled.nextResourceId, settled.discovered, accounted.next]
    budget := by rw [settled.budget, settled.discovered, accounted.budget]
    limited := by
      rw [settled.discovered]
      exact accounted.limited
    distinct := by
      rw [(settled.keys_perm accounted).nodup_iff, nodup_cons]
      exact ⟨accounted.apart _ settled.isOpen, accounted.distinct⟩
    identifiers := by
      intro id
      rw [settled.discovered, accounted.identifiers id, (settled.keys_perm accounted).mem_iff,
        mem_cons, Finset.mem_erase]
      by_cases same : id = record.id
      · subst same
        simp [settled.isOpen]
      · simp [same]
    apart := by
      intro id isOpen
      rw [(settled.keys_perm accounted).mem_iff, mem_cons, not_or]
      obtain ⟨differs, isOpen⟩ := Finset.mem_erase.mp isOpen
      exact ⟨differs, accounted.apart id isOpen⟩
    embedded := count.trans perm.length_eq.symm
    failed := by rw [failed, (settled.perm accounted).length_eq, length_cons]
    digests := fun digest => (digests digest).trans (perm.map Prod.fst).mem_iff.symm
    bodies := fun body member => bodies body (perm.mem_iff.mp member)
    embeddedBytes := embeddedBytes.trans (perm.dedup.map Prod.snd).sum_eq.symm }

theorem Accounted.settle_failed (accounted : Accounted limits unsettled state)
    (record : ResourceRecord Url) {error : ResourceError}
    (outcome : record.outcome = .failed error) (isOpen : record.id ∈ unsettled) :
    Accounted limits (unsettled.erase record.id)
      { state with
        records := OrderedMap.insert record.id record state.records
        summary := { state.summary with
          failed := saturatingAdd 32 state.summary.failed 1 } } := by
  have none : record.body? = none := by simp [ResourceRecord.body?, outcome]
  have room := accounted.records_lt isOpen
  have counted := accounted.failed
  have fits : state.summary.failed + 1 < 2 ^ 32 := by omega
  refine Settled.accounted accounted ⟨rfl, rfl, rfl, rfl, isOpen⟩ accounted.store
    (by rw [none, Option.toList_none, nil_append]) accounted.embedded ?_ ?_ ?_ ?_
  · simp only [saturatingAdd_eq fits]
    omega
  · exact accounted.digests
  · exact accounted.bodies
  · exact accounted.embeddedBytes

theorem Accounted.settle_embedded (accounted : Accounted limits unsettled state)
    (record : ResourceRecord Url) (grown : Grown state.store store) {content : StoredContent}
    (stored : (content.digest, content.bytes) ∈ store.sizes) {mediaType : String}
    (outcome : record.outcome = .embedded content.digest mediaType content.bytes)
    (isOpen : record.id ∈ unsettled) : Accounted limits (unsettled.erase record.id)
      { state with
        store := store
        records := OrderedMap.insert record.id record state.records
        embeddedDigests :=
          if content.digest ∈ state.embeddedDigests then state.embeddedDigests
          else content.digest :: state.embeddedDigests
        summary := { state.summary with
          embedded := saturatingAdd 32 state.summary.embedded 1
          embeddedBytes :=
            if content.digest ∈ state.embeddedDigests then state.summary.embeddedBytes
            else saturatingAdd 64 state.summary.embeddedBytes content.bytes } } := by
  have body : record.body? = some (content.digest, content.bytes) := by
    simp [ResourceRecord.body?, outcome]
  have room := accounted.records_lt isOpen
  have counted := accounted.failed
  have fits : state.summary.embedded + 1 < 2 ^ 32 := by omega
  have known : ∀ other ∈ (content.digest, content.bytes) :: embeddedBodies state.records,
      other ∈ store.sizes := by
    intro other member
    rcases mem_cons.mp member with rfl | old
    · exact stored
    · exact grown.mem_sizes (accounted.bodies other old)
  refine Settled.accounted accounted ⟨rfl, rfl, rfl, rfl, isOpen⟩ grown.sound
    (by rw [body, Option.toList_some, singleton_append]) ?_ ?_ ?_ ?_ ?_
  · rw [length_cons, ← accounted.embedded]
    exact saturatingAdd_eq fits
  · simp only [saturatingAdd_eq fits]
    omega
  · intro digest
    rw [map_cons, mem_cons, ← accounted.digests]
    simp only
    split_ifs with already
    · constructor
      · exact .inr
      · rintro (rfl | old)
        · exact already
        · exact old
    · exact mem_cons
  · exact known
  · simp only
    split_ifs with already
    · -- Two bodies of one digest are one entry of the store.
      obtain ⟨other, isBody, same⟩ := mem_map.mp ((accounted.digests _).mp already)
      have equal : other = (content.digest, content.bytes) :=
        grown.sound.eq_of_mem_sizes (grown.mem_sizes (accounted.bodies other isBody)) stored same
      rw [dedup_cons_of_mem (equal ▸ isBody)]
      exact accounted.embeddedBytes
    · have fresh : (content.digest, content.bytes) ∉ embeddedBodies state.records := by
        intro member
        exact already ((accounted.digests _).mpr (mem_map_of_mem member))
      have total := sum_dedup_le grown.sound known
      have bounded := grown.sound.bounded
      rw [dedup_cons_of_notMem fresh, map_cons, sum_cons] at total ⊢
      rw [← accounted.embeddedBytes] at total ⊢
      rw [saturatingAdd_eq (by omega)]
      omega

/-! ## Opening a reference -/

abbrev HitsLimit (error : OffprintError) (_ : ResourceState Url) : Prop :=
  error.code = limitCode

theorem ensures_beginReference (accounted : Accounted limits unsettled state) :
    Ensures (beginReference limits)
      (fun id after => id ∉ unsettled ∧ Accounted limits (insert id unsettled) after)
      HitsLimit state := by
  unfold beginReference onBudget
  rw [ensures_bind, ensures_focus]
  apply (CaptureBudget.ensures_addResource limits state.budget).mono
  · rintro _ _ ⟨rfl, fits⟩
    simp only [ensures_bind, ensures_modify, ensures_get]
    split
    · simp [HitsLimit]
    · simp only [ensures_bind, ensures_modify, ensures_pure]
      have next := accounted.next
      have budget := accounted.budget
      have bounded := limits.resources_lt
      have more : saturatingAdd 32 state.summary.discovered 1 = state.summary.discovered + 1 :=
        saturatingAdd_eq (by omega)
      have fresh : ¬ (state.nextResourceId ∈ unsettled ∨
          state.nextResourceId ∈ state.records.keys) := by
        rw [← accounted.identifiers]
        omega
      rw [not_or] at fresh
      refine ⟨fresh.1, ?_⟩
      exact {
        store := accounted.store
        next := by simp only [more]; omega
        budget := by simp only [more]; omega
        limited := by simp only [more]; omega
        distinct := accounted.distinct
        identifiers := by
          intro id
          simp only [more, Finset.mem_insert]
          rw [or_assoc, ← accounted.identifiers id]
          omega
        apart := by
          intro id isOpen
          rcases Finset.mem_insert.mp isOpen with rfl | old
          · exact fresh.2
          · exact accounted.apart id old
        embedded := accounted.embedded
        failed := accounted.failed
        digests := accounted.digests
        bodies := accounted.bodies
        embeddedBytes := accounted.embeddedBytes }
  · exact fun _ _ failed => failed

/-- Warnings, remembered failures, frame identifiers and reserved bytes are not
part of the accounts. -/
theorem Accounted.carry (accounted : Accounted limits unsettled state) {budget : CaptureBudget}
    (resources : budget.resources = state.budget.resources) (grown : Grown state.store store)
    (warnings : List CaptureWarning) (failedLoads : List (ResourceLoadKey × OffprintError))
    (nextFrameId : Nat) : Accounted limits unsettled
      { state with
        budget := budget
        store := store
        warnings := warnings
        failedLoads := failedLoads
        nextFrameId := nextFrameId } :=
  { accounted with
    store := grown.sound
    budget := resources.trans accounted.budget
    bodies := fun body member => grown.mem_sizes (accounted.bodies body member) }

end Invariant

end Offprint.Pipeline
