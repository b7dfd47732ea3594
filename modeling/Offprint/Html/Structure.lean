import Offprint.Data.Base64
import Offprint.Document.Policy
import Offprint.Html.Manifest

/-!
# The structure of artifacts

An artifact is a document with a manifest and a content security policy in its head.  It may
carry a record to repair its structure and a program to restore its state, and its frames are
documents of their own in the attributes of their elements.  It may run the programs its
format owns and nothing else.
-/

namespace Offprint.Html

open Data Document Effect Model
open Offprint.Effect.Checked (failIf)

def manifestElementId : String := "offprint-manifest"

def manifestMediaType : String := "application/vnd.offprint.manifest+json"

def cspElementId : String := "offprint-csp"

def repairDataElementId : String := "offprint-repair-data"

def repairScriptElementId : String := "offprint-repair-script"

def repairMediaType : String := "application/vnd.offprint.repair+json"

def repairMarkerAttribute : String := "data-offprint-node"

def stateScriptElementId : String := "offprint-state-script"

def hasValue (attrs : List Attribute) (name value : String) : Bool :=
  attributeValue attrs name == some value.toList

def isOwnedExecutableScript (attrs : List Attribute) : Bool :=
  hasValue attrs "id" repairScriptElementId || hasValue attrs "id" stateScriptElementId

def ownedElementIds : List String :=
  [cspElementId, manifestElementId, repairDataElementId, repairScriptElementId,
    stateScriptElementId]

def hasOwnedId (attrs : List Attribute) : Bool :=
  ownedElementIds.any (hasValue attrs "id")

/-- Whether an element may carry the identifier it has. -/
def ownsItsId (name : QualName) (attrs : List Attribute) : Bool :=
  if hasValue attrs "id" cspElementId then
    name == ⟨.html, "meta"⟩ && (attributeValue attrs "http-equiv").any
      (Css.eqIgnoreAsciiCase · "content-security-policy")
  else if hasValue attrs "id" manifestElementId then
    name == ⟨.html, "script"⟩ && hasValue attrs "type" manifestMediaType
  else if hasValue attrs "id" repairDataElementId then
    name == ⟨.html, "script"⟩ && hasValue attrs "type" repairMediaType
  else
    name == ⟨.html, "script"⟩

def activeContentError (message : String) : OffprintError :=
  verificationError "offprint.verification.active_content" message

def validateActiveElement (name : QualName) (attrs : List Attribute) :
    Checked OffprintError Unit := do
  failIf (isScriptElement name = true ∧ (name.ns = .svg ∨
      (isStructuredMetadataScript attrs = false ∧ isOwnedExecutableScript attrs = false)))
    (activeContentError "artifact contains an executable script element")
  failIf (hasOwnedId attrs = true ∧ ownsItsId name attrs = false)
    (activeContentError "artifact reserves its owned element identifiers")
  failIf (attrs.any isEventAttribute = true)
    (activeContentError "artifact contains an event handler attribute")
  failIf (attrs.any isJavascriptUrlAttribute = true)
    (activeContentError "artifact contains a JavaScript URL")
  failIf (isBaseElement name = true) (activeContentError "artifact contains a base URL element")
  failIf (isMetaRefresh name attrs = true) (activeContentError "artifact contains a meta refresh")
  failIf (isRequestTriggeringLink name attrs = true)
    (activeContentError "artifact contains a request-triggering link element")

variable (document : Document)

/-- Check every element of a document, in order. -/
def forElements (check : QualName → List Attribute → Checked OffprintError Unit) :
    Checked OffprintError Unit :=
  document.walk.forM fun id =>
    match document.element? id with
    | some (name, attrs) => check name attrs
    | none => return ()

def validateActiveContent : Checked OffprintError Unit :=
  forElements document validateActiveElement

def validateUnownedContent : Checked OffprintError Unit := do
  validateActiveContent document
  forElements document fun _ attrs =>
    failIf (hasOwnedId attrs = true)
      (activeContentError "embedded content cannot define artifact-owned elements")

/-- The node of a structural repair record. -/
inductive RepairNode where
  | element (marker ns name : List Char) (children templateContent : List RepairNode)
      (shadowMode : Option (List Char))
  | text (value : List Char)
  | comment (value : List Char)

/-- The libraries that read documents and records. -/
class ArtifactCodec where
  parseDocument : List UInt8 → Document
  decodeManifest : List Char → Except String ArtifactManifest
  decodeRepair : List Char → Except String RepairNode

/-- The elements of a document that satisfy a condition. -/
def elementsWhere (test : QualName → List Attribute → Bool) : List NodeId :=
  document.walk.filter fun id => (document.element? id).any fun element => test element.1 element.2

def isDirectHeadChild (id : NodeId) : Bool :=
  match document.findHtmlElement "head" with
  | some head => ((document.node id).bind Node.parent) == some head
  | none => false

def hasAttributes (id : NodeId) (count : Nat) : Bool :=
  (document.element? id).any fun element => element.2.length == count

section Inspect

variable [ArtifactCodec] [Sha256] [OwnedScripts]

def manifestError (message : String) : OffprintError :=
  verificationError "offprint.verification.manifest" message

def theOnly (ids : List NodeId) (error : OffprintError) : Checked OffprintError NodeId :=
  match ids with
  | [id] => .ok id
  | _ => .error error

def inspectDocument (document : Document) : Checked OffprintError ArtifactManifest := do
  let id ← theOnly (elementsWhere document fun name attrs =>
      name == ⟨.html, "script"⟩ && hasValue attrs "id" manifestElementId &&
        hasValue attrs "type" manifestMediaType)
    (manifestError "artifact must contain one Offprint manifest")
  failIf (isDirectHeadChild document id = false ∨ hasAttributes document id 2 = false)
    (manifestError "artifact manifest must be a direct child of the document head")
  match ArtifactCodec.decodeManifest (document.textContents id) with
  | .error reason => .error (manifestError ("artifact manifest is malformed: " ++ reason))
  | .ok manifest => do
      validateManifest manifest
      return manifest

end Inspect

section Policy

variable [Sha256] [OwnedScripts]

def scriptSource (digest : ContentDigest) : List Char :=
  "'sha256-".toList ++ Base64.encode digest.bytes ++ "'".toList

def scriptPolicy (sources : List ContentDigest) : List Char :=
  if sources = [] then "script-src 'none'".toList
  else "script-src ".toList ++ " ".toList.intercalate (sources.map scriptSource)

def contentSecurityPolicy (manifest : ArtifactManifest) (restoreState : Bool) : List Char :=
  let sources := (if restoreState then [stateRestorationScriptDigest] else []) ++
    manifest.structuralRepair.scriptSha256.toList
  "; ".toList.intercalate ["default-src 'none'".toList, "base-uri 'none'".toList,
    "connect-src 'none'".toList, "font-src data:".toList, "form-action 'none'".toList,
    "frame-src data: blob:".toList, "img-src data: blob:".toList, "media-src data: blob:".toList,
    "object-src 'none'".toList, scriptPolicy sources, "style-src 'unsafe-inline' data:".toList]

def isPolicyElement (name : QualName) (attrs : List Attribute) : Bool :=
  name == ⟨.html, "meta"⟩ && hasValue attrs "id" cspElementId &&
    (attributeValue attrs "http-equiv").any (Css.eqIgnoreAsciiCase · "content-security-policy") &&
    attrs.length == 3 && (attributeValue attrs "content").isSome

def isCanonicalPolicy (document : Document) (id : NodeId) (expected : List Char) : Bool :=
  isDirectHeadChild document id &&
    (((document.findHtmlElement "head").bind document.node).bind fun head =>
      head.children.head?) == some id &&
    (document.element? id).any fun element => attributeValue element.2 "content" == some expected

def validateCsp (document : Document) (manifest : ArtifactManifest) (restoreState : Bool) :
    Checked OffprintError Unit := do
  let error := verificationError "offprint.verification.csp"
    "artifact content security policy is missing, misplaced, or inconsistent"
  let id ← theOnly (elementsWhere document isPolicyElement) error
  failIf (isCanonicalPolicy document id (contentSecurityPolicy manifest restoreState) = false) error

end Policy

section Repair

def maximumCaptureNodes : Nat := 1000000

def isRepairMarker (marker : List Char) : Bool :=
  marker != [] && marker.length ≤ 20 && marker.all Char.isDigit

def isRepairName (text : List Char) : Bool :=
  text != [] && Text.size text ≤ 256

/-- Check the nodes on a stack, with a number of nodes still allowed. -/
def validateRepairNodes : Nat → List RepairNode → List (List Char) → Except String Unit
  | _, [], _ => .ok ()
  | 0, _ :: _, _ => .error "structural repair data exceeds the node limit"
  | room + 1, .element marker ns name children templateContent shadowMode :: stack, markers =>
    if isRepairMarker marker = false ∨ marker ∈ markers then
      .error "structural repair markers must be unique decimal identifiers"
    else if isRepairName ns = false ∨ isRepairName name = false then
      .error "structural repair element identity is invalid"
    else if shadowMode.any fun mode => mode ≠ "open".toList ∧ mode ≠ "closed".toList then
      .error "structural repair shadow mode is invalid"
    else
      validateRepairNodes room (templateContent.reverse ++ children.reverse ++ stack)
        (marker :: markers)
  | room + 1, _ :: stack, markers => validateRepairNodes room stack markers

def validateRepairTree : RepairNode → Except String Unit
  | .element marker ns name children templateContent shadowMode =>
    if marker ≠ "0".toList ∨ ns ≠ "http://www.w3.org/1999/xhtml".toList ∨
        name ≠ "html".toList then
      .error "structural repair root does not identify the captured HTML element"
    else
      validateRepairNodes maximumCaptureNodes
        [.element marker ns name children templateContent shadowMode] []
  | _ => .error "structural repair root must be an HTML element"

variable [ArtifactCodec] [Sha256] [OwnedScripts]

def repairMarkers (document : Document) : List (List Char) :=
  document.walk.filterMap fun id =>
    (document.element? id).bind fun element => attributeValue element.2 repairMarkerAttribute

def validateRepairData (json : List Char) : Checked OffprintError Unit :=
  match ArtifactCodec.decodeRepair json with
  | .error reason => .error (repairRecordError ("structural repair data is malformed: " ++ reason))
  | .ok repair =>
    match validateRepairTree repair with
    | .error message => .error (repairRecordError message)
    | .ok () => .ok ()

def validateRepairRecord (document : Document) (manifest : ArtifactManifest)
    (data scripts : List NodeId) : Checked OffprintError Unit := do
  let incomplete := repairRecordError
    "structural repair requires one data record and one owned script"
  let dataId ← theOnly data incomplete
  let scriptId ← theOnly scripts incomplete
  failIf (manifest.structuralRepair.applied = false) incomplete
  failIf (hasAttributes document dataId 2 = false ∨ hasAttributes document scriptId 1 = false ∨
      isDirectHeadChild document dataId = false ∨ isDirectHeadChild document scriptId = false)
    (repairRecordError "structural repair records must be direct children of the document head")
  failIf (document.textContents scriptId ≠ OwnedScripts.restorationScript ∨
      manifest.structuralRepair.scriptSha256 ≠ some structuralRepairScriptDigest)
    (repairRecordError "structural repair script does not match its manifest digest")
  validateRepairData (document.textContents dataId)
  failIf (¬(repairMarkers document).Nodup)
    (repairRecordError "artifact structural repair markers are duplicated")
  failIf ("0".toList ∉ repairMarkers document)
    (repairRecordError "artifact structural repair root marker is missing")

/-- Whether a document carries a structural repair, if it is a valid one. -/
def validateStructuralRepair (document : Document) (manifest : ArtifactManifest) :
    Checked OffprintError Bool := do
  let data := elementsWhere document fun name attrs =>
    name == ⟨.html, "script"⟩ && hasValue attrs "id" repairDataElementId &&
      hasValue attrs "type" repairMediaType
  let scripts := elementsWhere document fun name attrs =>
    name == ⟨.html, "script"⟩ && hasValue attrs "id" repairScriptElementId
  if data = [] ∧ scripts = [] then
    failIf (repairMarkers document ≠ [])
      (repairRecordError "artifact contains structural markers without repair data")
    return false
  else
    validateRepairRecord document manifest data scripts
    return true

end Repair

section State

variable [OwnedScripts]

/-- Whether a document restores its state, if it does so by the owned program. -/
def validateStateRestoration (document : Document) : Checked OffprintError Bool :=
  match elementsWhere document fun name attrs =>
      name == ⟨.html, "script"⟩ && hasValue attrs "id" stateScriptElementId with
  | [] => return false
  | [id] => do
      failIf (hasAttributes document id 1 = false ∨ isDirectHeadChild document id = false)
        (activeContentError "artifact state restoration program is outside the document head")
      failIf (document.textContents id ≠ OwnedScripts.stateRestorationScript)
        (activeContentError "artifact state restoration program does not match the artifact format")
      return true
  | _ => .error (activeContentError "artifact contains duplicate state restoration programs")

end State

section ScrollState

def documentScrollX : String := "data-offprint-scroll-x"

def documentScrollY : String := "data-offprint-scroll-y"

def scrollAttributes : List String :=
  [documentScrollX, documentScrollY, "data-offprint-scroll-left", "data-offprint-scroll-top"]

def validateScrollAttribute (attr : Attribute) : Checked OffprintError Unit := do
  if attr.name.ns = .none ∧ attr.name.localName ∈ scrollAttributes then
    let _ ← parseScrollCoordinate attr.value

/-- The scroll offset that the root element records. -/
def observedScroll (attrs : List Attribute) (name missing : String) : Checked OffprintError ℚ :=
  match attributeValue attrs name with
  | some value => parseScrollCoordinate value
  | none => .error (manifestError missing)

def validateRootScroll (document : Document) (expected : ViewState) :
    Checked OffprintError Unit := do
  match (document.findHtmlElement "html").bind document.element? with
  | none => .error (manifestError "artifact has no HTML root for captured view state")
  | some (_, attrs) =>
    let observedX ← observedScroll attrs documentScrollX
      "artifact root has no horizontal scroll state"
    let observedY ← observedScroll attrs documentScrollY
      "artifact root has no vertical scroll state"
    let differs := manifestError "artifact root scroll state differs from its manifest"
    let expectedX ← parseScrollCoordinate expected.scrollX
    failIf (observedX ≠ expectedX) differs
    let expectedY ← parseScrollCoordinate expected.scrollY
    failIf (observedY ≠ expectedY) differs

def validateScrollAttributes (document : Document) (expected : Option ViewState) :
    Checked OffprintError Unit := do
  forElements document fun _ attrs => attrs.forM validateScrollAttribute
  match expected with
  | some viewState => validateRootScroll document viewState
  | none => return ()

end ScrollState

def validateNoCssBaseMetadata (document : Document) : Checked OffprintError Unit :=
  forElements document fun _ attrs =>
    failIf ((attributeValue attrs "data-offprint-css-base").isSome = true)
      (verificationError "offprint.verification.reference"
        "artifact contains transient stylesheet collection metadata")

section Frames

def framesError (message : String) : OffprintError :=
  verificationError "offprint.verification.frames" message

def isFrameElement (name : QualName) : Bool :=
  name == ⟨.html, "iframe"⟩ || name == ⟨.html, "frame"⟩

/-- A decimal number of sixty-four bits, or why a text is none. -/
def parseU64 (text : List Char) : Except String Nat :=
  let digits := match text with
    | '+' :: rest => rest
    | _ => text
  if text = [] then .error "cannot parse integer from empty string"
  else if digits = [] ∨ digits.any (fun char => !char.isDigit) then
    .error "invalid digit found in string"
  else
    let value := Nat.ofDigitChars 10 digits 0
    if value ≤ u64Max then .ok value else .error "number too large to fit in target type"

/-- The frames met so far, and the documents still to visit, the next one first. -/
structure Frames where
  count : Nat
  ids : List Nat
  pending : List Document

variable [ArtifactCodec]

def frameDocument (source : List Char) : Document :=
  ArtifactCodec.parseDocument (Utf8.encode source)

def frameSource (attrs : List Attribute) : Checked OffprintError (List Char) := do
  failIf ((attributeValue attrs "data-offprint-frame-base").isSome = true)
    (framesError "artifact contains transient frame collection metadata")
  failIf ((attributeValue attrs "src").isSome = true)
    ((framesError "captured frames must use embedded document content").withDetail "hasFrameId"
      (.bool (attributeValue attrs "data-offprint-frame-id").isSome) |>.withDetail "hasSrcdoc"
        (.bool (attributeValue attrs "srcdoc").isSome))
  match attributeValue attrs "srcdoc" with
  | some source => return source
  | none => .error (framesError "captured frame has no embedded document content")

def frameId (attrs : List Attribute) : Checked OffprintError Nat :=
  match attributeValue attrs "data-offprint-frame-id" with
  | none => .error (framesError "captured frame has no stable frame identifier")
  | some text =>
    match parseU64 text with
    | .ok id => .ok id
    | .error reason =>
      .error (framesError ("captured frame identifier is invalid: " ++ reason))

def collectFrame (manifestFrames : Nat) (frames : Frames) (attrs : List Attribute) :
    Checked OffprintError Frames := do
  let source ← frameSource attrs
  let id ← frameId attrs
  failIf (id < 2 ∨ id ∈ frames.ids)
    (framesError "captured frame identifier is invalid or duplicated")
  failIf (frames.count ≥ u32Max)
    (framesError "artifact frame count exceeds the supported range")
  failIf (frames.count + 1 > manifestFrames)
    (framesError "artifact contains more frames than its manifest records")
  return ⟨frames.count + 1, id :: frames.ids, frameDocument source :: frames.pending⟩

def collectFrames (document : Document) (manifestFrames : Nat) (frames : Frames) :
    Checked OffprintError Frames :=
  document.walk.foldlM (fun frames id =>
    match document.element? id with
    | some (name, attrs) =>
      if isFrameElement name then collectFrame manifestFrames frames attrs else return frames
    | none => return frames) frames

/-- Whether a document has frames with documents in them. -/
def hasInlineFrames (document : Document) : Bool :=
  document.walk.any fun id => (document.element? id).any fun element =>
    isFrameElement element.1 && (attributeValue element.2 "srcdoc").isSome

end Frames
end Offprint.Html
