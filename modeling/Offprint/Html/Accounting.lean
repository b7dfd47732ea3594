import Offprint.Html.Inventory

/-!
# The accounts of artifacts

The manifest of a verified artifact accounts for everything the artifact embeds: for every
reference there is a record of the same bytes, or a failed resource and an empty fallback.
-/

namespace Offprint.Html

open Data Document Effect Checked Model List

section Records

def ResourceSummary.sum (summary : ResourceSummary) : Nat :=
  summary.embedded + summary.external + summary.omitted + summary.failed

theorem saturatingSucc_of_lt {value : Nat} (below : value < u32Max) :
    saturatingSucc value = value + 1 :=
  min_eq_left below

theorem recountRecord_eq_ok {frames index : Nat} {recount after : Recount}
    {record : ResourceRecord} (below : recount.summary.sum < u32Max)
    (accepted : recountRecord frames recount (record, index) = .ok after) :
    after.summary.sum = recount.summary.sum + 1 ∧
      after.summary.embedded =
        recount.summary.embedded + (embeddedRecord record).toList.length := by
  unfold ResourceSummary.sum at below
  obtain ⟨-, accepted⟩ := of_failIf accepted
  obtain ⟨-, accepted⟩ := of_failIf accepted
  unfold embeddedRecord ResourceSummary.sum
  cases outcome : record.outcome with
  | embedded digest mediaType bytes =>
    rw [outcome] at accepted
    obtain ⟨-, accepted⟩ := of_failIf accepted
    obtain ⟨-, accepted⟩ := of_failIf accepted
    cases accepted
    rw [saturatingSucc_of_lt (by omega)]
    exact ⟨by dsimp only; omega, rfl⟩
  | external | omitted | failed =>
    rw [outcome] at accepted
    cases accepted
    rw [saturatingSucc_of_lt (by omega)]
    exact ⟨by dsimp only; omega, rfl⟩

theorem recount_eq_ok {frames : Nat} {recount after : Recount} {records : List ResourceRecord}
    {index : Nat} (below : recount.summary.sum + records.length ≤ u32Max)
    (accepted : (records.zipIdx index).foldlM (recountRecord frames) recount = .ok after) :
    after.summary.sum = recount.summary.sum + records.length ∧
      after.summary.embedded =
        recount.summary.embedded + (records.filterMap embeddedRecord).length := by
  induction records generalizing recount index with
  | nil =>
    cases accepted
    exact ⟨rfl, rfl⟩
  | cons record rest ih =>
    rw [length_cons] at below
    obtain ⟨between, first, others⟩ := of_bind accepted
    obtain ⟨sum, embedded⟩ := recountRecord_eq_ok (by omega) first
    obtain ⟨sumRest, embeddedRest⟩ := ih (by omega) others
    refine ⟨by rw [sumRest, sum, length_cons]; omega, ?_⟩
    rw [embeddedRest, embedded, filterMap_cons]
    cases embeddedRecord record with
    | none => rfl
    | some key =>
      simp only [Option.toList_some, length_cons, length_nil]
      omega

theorem validateResourceRecords_eq_ok {manifest : ArtifactManifest}
    (accepted : validateResourceRecords manifest = .ok ()) :
    manifest.resources.sum = manifest.resources.discovered ∧
      manifest.resources.embedded = (manifest.resourceRecords.filterMap embeddedRecord).length := by
  obtain ⟨few, accepted⟩ := of_failIf accepted
  obtain ⟨counted, accepted⟩ := of_failIf accepted
  obtain ⟨recount, recounted, accepted⟩ := of_bind accepted
  obtain ⟨-, accepted⟩ := of_failIf accepted
  have same := not_not.mp (failIf_eq_ok_iff.mp accepted)
  obtain ⟨sum, embedded⟩ := recount_eq_ok (by
    rw [show (ResourceSummary.empty manifest.resourceRecords.length).sum = 0 from rfl, zero_add]
    exact not_lt.mp few) recounted
  rw [← same]
  constructor
  · calc recount.summary.sum = 0 + manifest.resourceRecords.length := sum
      _ = manifest.resources.discovered := by rw [zero_add, not_not.mp counted]
      _ = recount.summary.discovered := by rw [← same]
  · calc recount.summary.embedded
        = 0 + (manifest.resourceRecords.filterMap embeddedRecord).length := embedded
      _ = _ := zero_add _

end Records

section Fallbacks

variable [Sha256] {left : Tally ResourceKey} {manifest : ArtifactManifest}

theorem countFallbacks_step {count total : Nat}
    (accepted : left.foldlM (fun count (entry : ResourceKey × Nat) => do
      failIf (isEmptyResourceFallback entry.1 = false)
        (embeddedError "artifact contains embedded bytes with no resource outcome")
      failIf (count + entry.2 > u32Max)
        (embeddedError "embedded fallback count exceeds the supported range")
      return count + entry.2) count = Checked.ok total) :
    total = count + left.total ∧ ∀ entry ∈ left, isEmptyResourceFallback entry.1 = true := by
  induction left generalizing count with
  | nil =>
    cases accepted
    exact ⟨rfl, fun entry none => nomatch none⟩
  | cons entry rest ih =>
    obtain ⟨between, first, others⟩ := of_bind accepted
    obtain ⟨fallback, first⟩ := of_failIf first
    obtain ⟨-, first⟩ := of_failIf first
    cases first
    obtain ⟨same, all⟩ := ih others
    refine ⟨?_, forall_mem_cons.mpr ⟨Bool.not_eq_false _ ▸ fallback, all⟩⟩
    rw [same, add_assoc]
    rfl

theorem countFallbacks_eq_ok {total : Nat} (accepted : countFallbacks left = .ok total) :
    left.keys.card = total ∧ ∀ key ∈ left.keys, isEmptyResourceFallback key = true := by
  obtain ⟨same, all⟩ := countFallbacks_step accepted
  refine ⟨by rw [Tally.card_keys, same, zero_add], ?_⟩
  intro key inside
  obtain ⟨entry, listed, rfl⟩ := Tally.mem_of_mem_keys inside
  exact all entry listed

/-- The keys that a manifest records as embedded. -/
def recordedKeys (manifest : ArtifactManifest) : Multiset ResourceKey :=
  ↑(manifest.resourceRecords.filterMap embeddedRecord)

theorem validateEmbeddedRecords_eq_ok {embedded : Tally ResourceKey}
    (accepted : validateEmbeddedRecords manifest embedded = .ok ()) :
    ∃ fallbacks, embedded.keys = recordedKeys manifest + fallbacks ∧
      (∀ key ∈ fallbacks, isEmptyResourceFallback key = true) ∧
      fallbacks.card = manifest.resources.failed := by
  unfold validateEmbeddedRecords at accepted
  cases taken : embedded.takeAll (expectedEmbedded manifest) with
  | none =>
    rw [taken] at accepted
    cases accepted
  | some left =>
    rw [taken] at accepted
    obtain ⟨count, counted, accepted⟩ := of_bind accepted
    have same := not_not.mp (failIf_eq_ok_iff.mp accepted)
    obtain ⟨card, all⟩ := countFallbacks_eq_ok counted
    rw [Tally.keys_filter] at card all
    refine ⟨left.keys, ?_, all, card.trans same⟩
    rw [Tally.keys_of_takeAll taken, expectedEmbedded, Tally.keys_foldl_add]
    exact congrArg (· + left.keys) (add_zero (recordedKeys manifest))

theorem validateVisit_eq_ok {restoreState : Bool} {visit : Visit}
    (accepted : validateVisit manifest restoreState visit = .ok ()) :
    visit.observed.references = manifest.resources.discovered ∧
      validateEmbeddedRecords manifest visit.observed.embedded = .ok () := by
  obtain ⟨-, accepted⟩ := of_failIf accepted
  obtain ⟨-, accepted⟩ := of_failIf accepted
  obtain ⟨-, accepted⟩ := of_failIf accepted
  obtain ⟨-, accepted⟩ := of_failIf accepted
  obtain ⟨same, accepted⟩ := of_failIf accepted
  exact ⟨not_not.mp same, accepted⟩

end Fallbacks

section Accounts

variable {Url : Type} [UrlParser Url] [DataUrlReader Url] [StylesheetParser] [Sha256]
variable [ArtifactCodec] [OwnedScripts] {document : Document} {manifest : ArtifactManifest}

omit [StylesheetParser] in
theorem manifest_of_inspectDocument (accepted : inspectDocument document = .ok manifest) :
    validateResourceRecords manifest = .ok () := by
  obtain ⟨id, -, accepted⟩ := of_bind accepted
  obtain ⟨-, accepted⟩ := of_failIf accepted
  cases decoded : ArtifactCodec.decodeManifest (document.textContents id) with
  | error reason =>
    rw [decoded] at accepted
    cases accepted
  | ok other =>
    rw [decoded] at accepted
    obtain ⟨_, validated, same⟩ := of_bind accepted
    cases same
    obtain ⟨-, validated⟩ := of_failIf validated
    obtain ⟨-, validated⟩ := of_failIf validated
    obtain ⟨_, records, -⟩ := of_bind validated
    exact records

/-- What an artifact embeds, against its manifest: the embedded records and the fallbacks. -/
structure Accounted (base : Url) (document : Document) (manifest : ArtifactManifest)
    (found : Multiset (Url × ResourceKey)) (fallbacks : Multiset ResourceKey) : Prop where
  holds : Holds base [document] found
  keys : found.map Prod.snd = recordedKeys manifest + fallbacks
  empty : ∀ key ∈ fallbacks, isEmptyResourceFallback key = true
  failed : fallbacks.card = manifest.resources.failed
  discovered : found.card = manifest.resources.discovered

theorem accounted_of_validateArtifactDocuments {restoreState : Bool}
    (accepted : validateArtifactDocuments Url document manifest restoreState = .ok ()) :
    ∃ (base : Url) (found : Multiset (Url × ResourceKey)) (fallbacks : Multiset ResourceKey),
      UrlParser.parse artifactBase = .ok base ∧
        Accounted base document manifest found fallbacks := by
  unfold validateArtifactDocuments at accepted
  cases parsed : (UrlParser.parse artifactBase : Except String Url) with
  | error reason =>
    rw [parsed] at accepted
    cases accepted
  | ok base =>
    rw [parsed] at accepted
    obtain ⟨visit, visited, compared⟩ := of_bind accepted
    obtain ⟨found, holds, met⟩ := visitDocuments_eq_ok visited
    obtain ⟨references, records⟩ := validateVisit_eq_ok compared
    obtain ⟨fallbacks, keys, empty, failed⟩ := validateEmbeddedRecords_eq_ok records
    refine ⟨base, found, fallbacks, rfl, holds, ?_, empty, failed, ?_⟩
    · rw [← keys, met.keys]
      exact (add_zero _).symm
    · rw [← references, met.references]
      exact (zero_add _).symm

omit [OwnedScripts] in
theorem Accounted.complete {base : Url} {found : Multiset (Url × ResourceKey)}
    {fallbacks : Multiset ResourceKey}
    (accounted : Accounted base document manifest found fallbacks)
    (valid : validateResourceRecords manifest = .ok ()) :
    manifest.resources.omitted = 0 ∧ manifest.resources.external = 0 := by
  obtain ⟨sum, embedded⟩ := validateResourceRecords_eq_ok valid
  have counts := congrArg Multiset.card accounted.keys
  rw [Multiset.card_map, Multiset.card_add, accounted.failed, accounted.discovered, recordedKeys,
    Multiset.coe_card, ← embedded] at counts
  unfold ResourceSummary.sum at sum
  omega

/-- The manifest of an accepted artifact accounts for exactly what the artifact embeds. -/
theorem accounts_of_verifyHtml {bytes : List UInt8} {verified : VerifiedHtml}
    (accepted : verifyHtml Url bytes = .ok verified) :
    inspectDocument (ArtifactCodec.parseDocument bytes) = .ok verified.manifest ∧
    ∃ (base : Url) (found : Multiset (Url × ResourceKey)) (fallbacks : Multiset ResourceKey),
      UrlParser.parse artifactBase = .ok base ∧
      (∀ other, Holds base [ArtifactCodec.parseDocument bytes] other ↔ other = found) ∧
      found.map Prod.snd = recordedKeys verified.manifest + fallbacks ∧
      (∀ key ∈ fallbacks, isEmptyResourceFallback key = true) ∧
      fallbacks.card = verified.manifest.resources.failed ∧
      found.card = verified.manifest.resources.discovered ∧
      verified.manifest.resources.omitted = 0 ∧ verified.manifest.resources.external = 0 := by
  obtain ⟨manifest, inspected, accepted⟩ := Checked.of_bind accepted
  obtain ⟨-, accepted⟩ := Checked.of_failIf accepted
  obtain ⟨_, -, accepted⟩ := Checked.of_bind accepted
  obtain ⟨_, validated, same⟩ := Checked.of_bind accepted
  cases same
  obtain ⟨base, found, fallbacks, parsed, accounted⟩ :=
    accounted_of_validateArtifactDocuments validated
  obtain ⟨omitted, external⟩ := accounted.complete (manifest_of_inspectDocument inspected)
  refine ⟨inspected, base, found, fallbacks, parsed, ?_, accounted.keys, accounted.empty,
    accounted.failed, accounted.discovered, omitted, external⟩
  intro other
  constructor
  · exact accounted.holds.unique
  · rintro rfl
    exact accounted.holds

end Accounts

section Samples

local instance : UrlParser (List Char) where
  parse := .ok
  join _ text := .ok text

local instance : StylesheetParser where
  dependencies _ := none

local instance : Sha256 where
  digest _ := .zero

local instance : OwnedScripts where
  restorationScript := "repair".toList
  stateRestorationScript := "restore".toList

/-- One picture, and nothing where another one was. -/
local instance : DataUrlReader (List Char) where
  isData _ := true
  process url := .ok <|
    if url = "data:picture".toList then ("image/png".toList, .ok [137])
    else ("application/octet-stream".toList, .ok [])

/-- The manifest of two pictures, one of which could not be retrieved. -/
def picturesManifest : ArtifactManifest where
  schemaVersion := 2
  formatVersion := 2
  viewState := ⟨"0".toList, "0".toList⟩
  frames := 1
  resources := ⟨2, 1, 0, 0, 1, 1⟩
  resourceRecords :=
    [⟨0, 1, .embedded (Sha256.digest [137]) "image/png".toList 1, true⟩, ⟨1, 1, .failed, false⟩]
  structuralRepair := ⟨false, none⟩

def picturesDocument : Document where
  nodes := [⟨none, [1], .document⟩, ⟨some 0, [2, 8, 9], .element ⟨.html, "html"⟩
      [⟨⟨.none, documentScrollX⟩, "0".toList⟩, ⟨⟨.none, documentScrollY⟩, "0".toList⟩] none⟩,
    ⟨some 1, [3, 4, 6], .element ⟨.html, "head"⟩ [] none⟩,
    ⟨some 2, [], .element ⟨.html, "meta"⟩ [⟨⟨.none, "id"⟩, cspElementId.toList⟩,
        ⟨⟨.none, "http-equiv"⟩, "Content-Security-Policy".toList⟩,
        ⟨⟨.none, "content"⟩, contentSecurityPolicy picturesManifest true⟩] none⟩,
    ⟨some 2, [5], .element ⟨.html, "script"⟩ [⟨⟨.none, "id"⟩, manifestElementId.toList⟩,
        ⟨⟨.none, "type"⟩, manifestMediaType.toList⟩] none⟩,
    ⟨some 4, [], .text []⟩,
    ⟨some 2, [7], .element ⟨.html, "script"⟩ [⟨⟨.none, "id"⟩, stateScriptElementId.toList⟩] none⟩,
    ⟨some 6, [], .text "restore".toList⟩,
    ⟨some 1, [], .element ⟨.html, "img"⟩ [⟨⟨.none, "src"⟩, "data:picture".toList⟩] none⟩,
    ⟨some 1, [], .element ⟨.html, "img"⟩ [⟨⟨.none, "src"⟩, "data:".toList⟩] none⟩]
  root := 0
  tree := ⟨[0, 1, 2, 3, 4, 5, 6, 7, 8, 9], rfl, by decide⟩

local instance : ArtifactCodec where
  parseDocument _ := picturesDocument
  decodeManifest _ := .ok picturesManifest
  decodeRepair _ := .error "no record"

theorem verifyHtml_pictures : ∃ verified, verifyHtml (List Char) [] = .ok verified := by
  have accepted : (verifyHtml (List Char) []).rec (motive := fun _ => Bool) (fun _ => true)
      (fun _ => false) false = true := by decide +kernel
  cases result : verifyHtml (List Char) [] with
  | ok verified => exact ⟨verified, rfl⟩
  | error problem | panic =>
    rw [result] at accepted
    cases accepted

theorem accounts_of_verifyHtml_pictures :
    ∃ (verified : VerifiedHtml) (found : Multiset (List Char × ResourceKey))
      (fallbacks : Multiset ResourceKey),
      verifyHtml (List Char) [] = .ok verified ∧
      found.map Prod.snd = recordedKeys verified.manifest + fallbacks ∧
      fallbacks.card = verified.manifest.resources.failed ∧
      found.card = verified.manifest.resources.discovered := by
  obtain ⟨verified, accepted⟩ := verifyHtml_pictures
  obtain ⟨-, base, found, fallbacks, -, -, keys, -, failed, discovered, -⟩ :=
    accounts_of_verifyHtml accepted
  exact ⟨verified, found, fallbacks, accepted, keys, failed, discovered⟩

end Samples
end Offprint.Html
