import Mathlib.Order.Interval.Finset.Nat
import Offprint.Data.Tally
import Offprint.Document.Discover
import Offprint.Html.Structure

/-!
# Verifying artifacts

Verification visits the document of an artifact and the documents of its frames.  It follows
every reference into the embedded resource, counts what it meets, and compares the counts with
the manifest.
-/

namespace Offprint.Html

open Data Document Effect
open Offprint.Effect.Checked (failIf)
open Model
open Offprint.Pipeline (RenderingRole)

structure ResourceKey where
  digest : ContentDigest
  mediaType : List Char
  bytes : Nat
  deriving Repr, DecidableEq

section Fallback

/-- The empty body that takes the place of a resource, with its media type. -/
def emptyResource : RenderingRole → String × List UInt8
  | .image | .svg =>
    ("image/svg+xml", Utf8.encode
      "<svg xmlns=\"http://www.w3.org/2000/svg\" width=\"1\" height=\"1\"/>".toList)
  | .stylesheet => ("text/css", [])
  | .frame => ("text/html", Utf8.encode "<!doctype html><meta charset=utf-8>".toList)
  | .font | .media | .cursor | .other => ("application/octet-stream", [])

variable [Sha256]

def keyOf (mediaType : List Char) (bytes : List UInt8) : ResourceKey :=
  ⟨Sha256.digest bytes, normalizeMediaType mediaType, bytes.length⟩

def isEmptyResourceFallback (key : ResourceKey) : Bool :=
  [RenderingRole.image, .stylesheet, .frame, .other].any fun role =>
    keyOf (emptyResource role).1.toList (emptyResource role).2 ==
      { key with mediaType := normalizeMediaType key.mediaType }

end Fallback

/-- The libraries for `data:` URLs: whether a URL is one, and the media type and the body of
one without its fragment. -/
class DataUrlReader (Url : Type) where
  isData : Url → Bool
  process : Url → Except String (List Char × Except String (List UInt8))

section Embedded

/-- How many references were met, and the embedded bytes behind them. -/
structure Observed where
  references : Nat
  embedded : Tally ResourceKey
  deriving Repr, DecidableEq

def Observed.countReference (observed : Observed) : Checked OffprintError Observed := do
  failIf (observed.references ≥ u32Max)
    (summaryError "artifact resource reference count exceeds the supported range")
  return { observed with references := observed.references + 1 }

def embeddedError (message : String) : OffprintError :=
  verificationError "offprint.verification.embedded_resource" message

def referenceError (message : String) : OffprintError :=
  verificationError "offprint.verification.reference" message

variable {Url : Type} [UrlParser Url] [DataUrlReader Url] [StylesheetParser] [Sha256]
variable [ArtifactCodec]

/-- The media type and the bytes of an embedded resource. -/
def readEmbedded (url : Url) : Checked OffprintError (List Char × List UInt8) :=
  if DataUrlReader.isData url = false then
    .error (verificationError "offprint.verification.external_reference"
      "artifact contains a render-fetch reference that is not embedded")
  else
    match DataUrlReader.process url with
    | .error reason =>
      .error (embeddedError ("artifact contains a malformed data resource: " ++ reason))
    | .ok (_, .error reason) =>
      .error (embeddedError ("artifact contains a malformed data resource body: " ++ reason))
    | .ok (mediaType, .ok bytes) => .ok (mediaType, bytes)

/-- Report a failed discovery under another error. -/
def orReport {α : Type} (message : String) : Checked OffprintError α → Checked OffprintError α
  | .error source => .error ((referenceError message).withSource source)
  | result => result

/-- A kind of embedded resource that refers to resources itself. -/
inductive NestedKind where
  | css
  | svg
  | html
  deriving Repr, DecidableEq

def nestedKind (mediaType : List Char) : Option NestedKind :=
  if mediaType = "text/css".toList then some .css
  else if mediaType = "image/svg+xml".toList then some .svg
  else if mediaType = "text/html".toList ∨ mediaType = "application/xhtml+xml".toList then
    some .html
  else none

def documentUrls (base : Url) (document : Document) (message : String) :
    Checked OffprintError (List Url) := do
  let found ← orReport message (discoverDocumentResources document base)
  return found.resources.map DiscoveredDocumentResource.resolvedUrl

def nestedUrls (base : Url) (kind : NestedKind) (bytes : List UInt8) :
    Checked OffprintError (List Url) :=
  match kind with
  | .css =>
    match Utf8.decode bytes with
    | none =>
      .error (embeddedError ("embedded stylesheet is not UTF-8: " ++ Utf8.errorText bytes))
    | some css => do
        let found ← orReport "embedded stylesheet contains an invalid resource reference"
          (discoverCssResources css base)
        return found.resources.map DiscoveredCssResource.resolvedUrl
  | .svg => do
      let document := ArtifactCodec.parseDocument bytes
      failIf (document.findSvgRoot = none) (embeddedError "embedded SVG has no root SVG element")
      validateUnownedContent document
      documentUrls base document "embedded SVG contains an invalid resource reference"
  | .html => do
      let document := ArtifactCodec.parseDocument bytes
      failIf (hasInlineFrames document = true)
        (embeddedError "embedded HTML resources cannot contain nested frames")
      validateUnownedContent document
      documentUrls base document "embedded HTML contains an invalid resource reference"

/-- Follow a reference into what it embeds; resources nest in each other so many times. -/
def validateEmbeddedResource (base : Url) : Nat → Url → Observed → Checked OffprintError Observed
  | room, url, observed => do
      let (mediaType, bytes) ← readEmbedded url
      let key := keyOf mediaType bytes
      let observed := { observed with embedded := observed.embedded.add key }
      match nestedKind key.mediaType with
      | none => return observed
      | some kind =>
        match room with
        | 0 => .error (embeddedError "embedded resource nesting exceeds the verification limit")
        | room + 1 => do
            let urls ← nestedUrls base kind bytes
            urls.foldlM (fun observed url => do
              let observed ← observed.countReference
              validateEmbeddedResource base room url observed) observed

def maximumNesting : Nat := 64

/-- Count a reference of a document and follow it. -/
def validateReference (base : Url) (room : Nat) (observed : Observed) (url : Url) :
    Checked OffprintError Observed := do
  let observed ← observed.countReference
  validateEmbeddedResource base room url observed

end Embedded

section Documents

/-- What the visit of the documents has met. -/
structure Visit where
  frames : Frames
  observed : Observed
  repairedDocuments : Nat
  stateScripts : Nat
  topDocument : Bool

variable {Url : Type} [UrlParser Url] [DataUrlReader Url] [StylesheetParser] [Sha256]
variable [ArtifactCodec] [OwnedScripts] (manifest : ArtifactManifest)

/-- Visit a document; the frames of the visit no longer hold it. -/
def visitDocument (restoreState : Bool) (base : Url) (visit : Visit) (document : Document) :
    Checked OffprintError Visit := do
  validateNoCssBaseMetadata document
  let repaired ← validateStructuralRepair document manifest
  let restores ← validateStateRestoration document
  failIf ((visit.topDocument && restoreState) ≠ restores)
    (activeContentError "state restoration must be owned by the top artifact document")
  validateScrollAttributes document
    (if visit.topDocument then some manifest.viewState else none)
  validateActiveContent document
  let frames ← collectFrames document manifest.frames visit.frames
  let urls ← documentUrls base document
    "artifact contains an invalid rendering resource reference"
  let observed ← urls.foldlM (validateReference base maximumNesting) visit.observed
  return {
    frames := frames
    observed := observed
    repairedDocuments :=
      if repaired then saturatingSucc visit.repairedDocuments else visit.repairedDocuments
    stateScripts := if restores then saturatingSucc visit.stateScripts else visit.stateScripts
    topDocument := false }

/-- Visit the pending documents until none is left; there are at most so many. -/
def visitDocuments (manifest : ArtifactManifest) (restoreState : Bool) (base : Url) :
    Nat → Visit → Checked OffprintError Visit
  | room, visit =>
    match visit.frames.pending with
    | [] => return visit
    | document :: pending =>
      match room with
      | 0 => .panic
      | room + 1 => do
          let visit := { visit with frames := { visit.frames with pending := pending } }
          let visit ← visitDocument manifest restoreState base visit document
          visitDocuments manifest restoreState base room visit

def start (document : Document) : Visit :=
  ⟨⟨1, [1], [document]⟩, ⟨0, []⟩, 0, 0, true⟩

/-- The embedded bytes that a manifest records. -/
def embeddedRecord (record : ResourceRecord) : Option ResourceKey :=
  match record.outcome with
  | .embedded digest mediaType bytes => some ⟨digest, normalizeMediaType mediaType, bytes⟩
  | _ => none

def expectedEmbedded : Tally ResourceKey :=
  (manifest.resourceRecords.filterMap embeddedRecord).foldl (fun tally key => tally.add key) []

/-- Count what is left of the embedded bytes, which can only be fallbacks. -/
def countFallbacks (left : Tally ResourceKey) : Checked OffprintError Nat :=
  left.foldlM (fun count entry => do
    failIf (isEmptyResourceFallback entry.1 = false)
      (embeddedError "artifact contains embedded bytes with no resource outcome")
    failIf (count + entry.2 > u32Max)
      (embeddedError "embedded fallback count exceeds the supported range")
    return count + entry.2) 0

def validateEmbeddedRecords (embedded : Tally ResourceKey) : Checked OffprintError Unit :=
  match embedded.takeAll (expectedEmbedded manifest) with
  | none =>
    .error (embeddedError "embedded resource bytes do not match their manifest digest records")
  | some left => do
      let fallbacks ← countFallbacks (left.filter fun entry => 0 < entry.2)
      failIf (fallbacks ≠ manifest.resources.failed)
        (embeddedError "embedded fallbacks do not match failed resource outcomes")

/-- Compare what was met with the manifest. -/
def validateVisit (restoreState : Bool) (visit : Visit) : Checked OffprintError Unit := do
  failIf (visit.frames.count ≠ manifest.frames)
    (framesError "artifact frame count does not match its manifest")
  failIf (visit.frames.ids.toFinset ≠ Finset.Icc 1 manifest.frames)
    (framesError "artifact frame identifiers are incomplete or duplicated")
  failIf (manifest.structuralRepair.applied ≠ decide (visit.repairedDocuments > 0))
    (repairRecordError "artifact structural repair records do not match the manifest")
  failIf (visit.stateScripts ≠ restoreState.toNat)
    (activeContentError "artifact state restoration does not match its execution policy")
  failIf (visit.observed.references ≠ manifest.resources.discovered)
    (summaryError "artifact resource reference count does not match its manifest")
  validateEmbeddedRecords manifest visit.observed.embedded

def artifactBase : List Char := "file:///offprint-artifact.html".toList

def validateArtifactDocuments (Url : Type) [UrlParser Url] [DataUrlReader Url]
    (document : Document) (manifest : ArtifactManifest) (restoreState : Bool) :
    Checked OffprintError Unit :=
  match (UrlParser.parse artifactBase : Except String Url) with
  | .error reason => .error (referenceError ("verification base URL is invalid: " ++ reason))
  | .ok base => do
      let visit ← visitDocuments manifest restoreState base manifest.frames (start document)
      validateVisit manifest restoreState visit

end Documents

section Verify

structure VerificationReport where
  artifactSha256 : ContentDigest
  bytes : Nat
  networkRequests : Nat
  deriving Repr, DecidableEq

/-- An artifact together with what its verification has established. -/
structure VerifiedHtml where
  bytes : List UInt8
  document : Document
  manifest : ArtifactManifest
  sha256 : ContentDigest
  verification : VerificationReport

variable (Url : Type) [UrlParser Url] [DataUrlReader Url] [StylesheetParser] [Sha256]
variable [ArtifactCodec] [OwnedScripts]

def verifyHtmlWithStateRestoration (bytes : List UInt8) (restoreState : Bool) :
    Checked OffprintError VerifiedHtml := do
  let document := ArtifactCodec.parseDocument bytes
  let manifest ← inspectDocument document
  failIf (restoreState = false ∧ manifest.structuralRepair.applied = true)
    (repairRecordError "sandboxed artifacts cannot apply structural repair")
  validateCsp document manifest restoreState
  validateArtifactDocuments Url document manifest restoreState
  let sha256 := Sha256.digest bytes
  return ⟨bytes, document, manifest, sha256, ⟨sha256, bytes.length, 0⟩⟩

def verifyHtml (bytes : List UInt8) : Checked OffprintError VerifiedHtml :=
  verifyHtmlWithStateRestoration Url bytes true

def verifyStaticSandboxed (bytes : List UInt8) : Checked OffprintError VerificationReport := do
  let verified ← verifyHtmlWithStateRestoration Url bytes false
  return verified.verification

end Verify
end Offprint.Html
