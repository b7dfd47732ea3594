import Offprint.Data.Double
import Offprint.Data.Text
import Offprint.Effect.Checked
import Offprint.Model.Error
import Offprint.Model.Export

/-!
# Artifact manifests

The manifest of an artifact records what became of every resource reference, and summarizes
the records.  Validation recounts the records and compares them with the summary.
-/

namespace Offprint.Html

open Data Effect Model
open Offprint.Effect.Checked (failIf)

def verificationError (code message : String) : OffprintError :=
  .new code .verification message

def u32Max : Nat := 2 ^ 32 - 1

def u64Max : Nat := 2 ^ 64 - 1

inductive ResourceOutcome where
  | embedded (digest : ContentDigest) (mediaType : List Char) (bytes : Nat)
  | external
  | omitted
  | failed
  deriving Repr, DecidableEq

structure ResourceRecord where
  id : Nat
  frameId : Nat
  outcome : ResourceOutcome
  hasProvenance : Bool
  deriving Repr, DecidableEq

structure ResourceSummary where
  discovered : Nat
  embedded : Nat
  external : Nat
  omitted : Nat
  failed : Nat
  embeddedBytes : Nat
  deriving Repr, DecidableEq

namespace ResourceSummary

def empty (discovered : Nat) : ResourceSummary :=
  ⟨discovered, 0, 0, 0, 0, 0⟩

/-- The sum wraps around. -/
def outcomes (summary : ResourceSummary) : Nat :=
  (summary.embedded + summary.external + summary.omitted + summary.failed) % 2 ^ 32

def isComplete (summary : ResourceSummary) : Bool :=
  summary.discovered == summary.outcomes

end ResourceSummary

structure ViewState where
  scrollX : List Char
  scrollY : List Char
  deriving Repr, DecidableEq

structure StructuralRepair where
  applied : Bool
  scriptSha256 : Option ContentDigest
  deriving Repr, DecidableEq

structure ArtifactManifest where
  schemaVersion : Nat
  formatVersion : Nat
  viewState : ViewState
  frames : Nat
  resources : ResourceSummary
  resourceRecords : List ResourceRecord
  structuralRepair : StructuralRepair
  deriving Repr, DecidableEq

def publicSchemaVersion : Nat := 2

def artifactFormatVersion : Nat := 2

def normalizeMediaType (mediaType : List Char) : List Char :=
  (Text.trim (mediaType.takeWhile (· != ';'))).map Char.toLower

section Scroll

def maximumScrollOffset : ℚ := 1000000000

def parseScrollCoordinate (value : List Char) : Checked OffprintError ℚ :=
  let outside := verificationError "offprint.verification.manifest"
    "captured scroll state exceeds the supported range"
  match Float64.parse value with
  | .error reason => .error (verificationError "offprint.verification.manifest"
      ("captured scroll state is invalid: " ++ reason))
  | .ok (.finite value) => if |value| > maximumScrollOffset then .error outside else .ok value
  | .ok _ => .error outside

def validateViewState (viewState : ViewState) : Checked OffprintError Unit := do
  let _ ← parseScrollCoordinate viewState.scrollX
  let _ ← parseScrollCoordinate viewState.scrollY

end Scroll

section Records

/-- The recount of the records so far, with the length of each embedded body. -/
structure Recount where
  summary : ResourceSummary
  uniqueEmbedded : List (ContentDigest × Nat)
  deriving Repr, DecidableEq

def saturatingSucc (value : Nat) : Nat :=
  min (value + 1) u32Max

def insertUnique (digest : ContentDigest) (bytes : Nat) (unique : List (ContentDigest × Nat)) :
    List (ContentDigest × Nat) :=
  (digest, bytes) :: unique.filter fun entry => entry.1 ≠ digest

def summaryError (message : String) : OffprintError :=
  verificationError "offprint.verification.resource_summary" message

def recountEmbedded (recount : Recount) (record : ResourceRecord) (digest : ContentDigest)
    (bytes : Nat) : Checked OffprintError Recount := do
  failIf (record.hasProvenance = false)
    (verificationError "offprint.verification.resource_provenance"
      "embedded resource record has no retrieval provenance")
  failIf ((recount.uniqueEmbedded.lookup digest).any (· ≠ bytes))
    (verificationError "offprint.verification.embedded_resource"
      "one resource digest is associated with conflicting byte lengths")
  return {
    summary := { recount.summary with embedded := saturatingSucc recount.summary.embedded }
    uniqueEmbedded := insertUnique digest bytes recount.uniqueEmbedded }

def recountRecord (frames : Nat) (recount : Recount) (record : ResourceRecord × Nat) :
    Checked OffprintError Recount := do
  let (record, index) := record
  failIf (index > u32Max) (summaryError
    ("manifest resource identifier exceeds the supported range: " ++
      "out of range integral type conversion attempted"))
  failIf (record.id ≠ index ∨ record.frameId = 0 ∨ record.frameId > frames)
    (summaryError "manifest resource identifiers or frame ownership are inconsistent")
  let summary := recount.summary
  match record.outcome with
  | .embedded digest _ bytes => recountEmbedded recount record digest bytes
  | .external =>
    return { recount with summary := { summary with external := saturatingSucc summary.external } }
  | .omitted =>
    return { recount with summary := { summary with omitted := saturatingSucc summary.omitted } }
  | .failed =>
    return { recount with summary := { summary with failed := saturatingSucc summary.failed } }

def validateResourceRecords (manifest : ArtifactManifest) : Checked OffprintError Unit := do
  let recordCount := manifest.resourceRecords.length
  failIf (recordCount > u32Max) (summaryError
    ("manifest resource record count exceeds the supported range: " ++
      "out of range integral type conversion attempted"))
  failIf (recordCount ≠ manifest.resources.discovered)
    (summaryError "manifest resource record count does not match discovered resources")
  let recount ← manifest.resourceRecords.zipIdx.foldlM (recountRecord manifest.frames)
    ⟨.empty recordCount, []⟩
  let embeddedBytes := (recount.uniqueEmbedded.map Prod.snd).sum
  failIf (embeddedBytes > u64Max)
    (summaryError "manifest embedded resource byte count overflowed")
  failIf ({ recount.summary with embeddedBytes := embeddedBytes } ≠ manifest.resources)
    (summaryError "manifest resource records do not match the resource summary")

end Records

/-- The programs that an artifact may contain, as the format fixes them. -/
class OwnedScripts where
  restorationScript : List Char
  stateRestorationScript : List Char

section Validate

variable [Sha256] [OwnedScripts]

def structuralRepairScriptDigest : ContentDigest :=
  Sha256.digest (Utf8.encode OwnedScripts.restorationScript)

def stateRestorationScriptDigest : ContentDigest :=
  Sha256.digest (Utf8.encode OwnedScripts.stateRestorationScript)

def repairRecordError (message : String) : OffprintError :=
  verificationError "offprint.verification.structural_repair" message

def validateManifest (manifest : ArtifactManifest) : Checked OffprintError Unit := do
  failIf (manifest.schemaVersion ≠ publicSchemaVersion ∨
      manifest.formatVersion ≠ artifactFormatVersion)
    (verificationError "offprint.verification.format"
      "artifact format or schema version is incompatible")
  failIf (manifest.resources.isComplete = false)
    (summaryError "manifest does not account for every discovered resource")
  validateResourceRecords manifest
  failIf (manifest.resources.external ≠ 0)
    (summaryError "safe-static artifacts cannot retain external rendering resources")
  failIf (manifest.frames = 0)
    (verificationError "offprint.verification.frames"
      "artifact manifest must account for the top frame")
  validateViewState manifest.viewState
  failIf (manifest.structuralRepair.applied ≠ manifest.structuralRepair.scriptSha256.isSome)
    (repairRecordError "structural repair state and script digest are inconsistent")
  failIf (manifest.structuralRepair.applied = true ∧
      manifest.structuralRepair.scriptSha256 ≠ some structuralRepairScriptDigest)
    (repairRecordError "structural repair script digest does not match the artifact format")

end Validate
end Offprint.Html
