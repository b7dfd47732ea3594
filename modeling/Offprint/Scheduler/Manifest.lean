import Offprint.Data.OrderedMap
import Offprint.Model.Error
import Offprint.Model.Export

/-!
# Scheduler records

The requests, outcomes and resume records of the batch and crawl schedulers.
A scheduler looks at a URL only through the operations of `PageUrl`, and at a
request only through its digest.
-/

namespace Offprint.Scheduler

open Data Model

/-! ## URLs -/

/-- What the schedulers read of a parsed URL. -/
class PageUrl (Url : Type) where
  asStr : Url → String
  scheme : Url → String
  fragment : Url → Option String
  withoutFragment : Url → Url
  sameOrigin : Url → Url → Bool
  pathSegments : Url → Option (List String)
  hostStr : Url → Option String

open PageUrl

def PageUrl.isHttp {Url : Type} [PageUrl Url] (url : Url) : Bool :=
  ["http", "https"].contains (scheme url)

/-- The URL parser's contract: a URL is its text, and removing the fragment
changes nothing else. -/
class LawfulPageUrl (Url : Type) [PageUrl Url] : Prop where
  asStr_injective : Function.Injective (asStr : Url → String)
  scheme_withoutFragment (url : Url) :
    scheme (withoutFragment url) = scheme url
  fragment_withoutFragment (url : Url) : fragment (withoutFragment url) = none
  sameOrigin_withoutFragment (url : Url) : isHttp url = true →
    sameOrigin (withoutFragment url) url = true

/-! ## Captures -/

/-- A file path: its directory, and its name cut before the last extension. -/
structure OutputPath where
  directory : String
  stem : String
  extension : Option String
  deriving Repr, DecidableEq

inductive CaptureOutput where
  | file (path : OutputPath) (conflict : ConflictPolicy)
  | bytes
  deriving Repr, DecidableEq

/-- A capture request; the settings that a scheduler passes through unread are
left out. -/
structure CaptureRequest (Url : Type) where
  url : Url
  output : CaptureOutput

inductive CaptureArtifact where
  | file (path : OutputPath) (bytes : Nat) (sha256 : ContentDigest)
  | bytes (content : List UInt8) (sha256 : ContentDigest)

structure CaptureReceipt where
  captureId : String
  artifact : CaptureArtifact

inductive ResumeJobStatus where
  | succeeded
  | failed
  deriving Repr, DecidableEq

structure ResumeJobRecord (Url : Type) where
  requestSha256 : ContentDigest
  status : ResumeJobStatus
  captureId : Option String
  artifactSha256 : Option ContentDigest
  artifactPath : Option OutputPath
  error : Option OffprintError
  url : Option Url
  depth : Option Nat
  ordinal : Option Nat

inductive ScheduledCaptureOutcome (Url : Type) where
  | succeeded (id : String) (requestSha256 : ContentDigest) (result : CaptureReceipt)
  | failed (id : String) (requestSha256 : ContentDigest) (error : OffprintError)
  | resumed (id : String) (record : ResumeJobRecord Url)

namespace ScheduledCaptureOutcome

variable {Url : Type}

def id : ScheduledCaptureOutcome Url → String
  | succeeded id _ _ => id
  | failed id _ _ => id
  | resumed id _ => id

def isSuccess : ScheduledCaptureOutcome Url → Bool
  | succeeded _ _ _ => true
  | failed _ _ _ => false
  | resumed _ record => record.status == .succeeded

end ScheduledCaptureOutcome

structure CrawlFrontierItem (Url : Type) where
  url : Url
  depth : Nat
  ordinal : Nat

inductive ScheduleKind where
  | batch
  | crawl
  deriving Repr, DecidableEq

structure ResumeManifest (Url : Type) where
  schemaVersion : Nat
  kind : ScheduleKind
  planSha256 : ContentDigest
  jobs : OrderedMap String (ResumeJobRecord Url)
  pending : List String
  frontier : List (CrawlFrontierItem Url)

structure ResumeOptions where
  manifest : String
  retryFailed : Bool
  deriving Repr, DecidableEq

def schemaVersion : Nat := 2

def schedulerError (code : String) (stage : ErrorStage) (message : String) : OffprintError :=
  .new code stage message

def manifestShapeError (message : String) : OffprintError :=
  schedulerError "offprint.scheduler.manifest_shape" .validation message

/-! ## Terminal records -/

variable {Url : Type}

def recordFromOutcome : ScheduledCaptureOutcome Url → ResumeJobRecord Url
  | .succeeded _ requestSha256 result =>
    let (artifactPath, artifactSha256) :=
      match result.artifact with
      | .file path _ sha256 => (some path, some sha256)
      | .bytes _ sha256 => (none, some sha256)
    { requestSha256 := requestSha256
      status := .succeeded
      captureId := some result.captureId
      artifactSha256 := artifactSha256
      artifactPath := artifactPath
      error := none
      url := none
      depth := none
      ordinal := none }
  | .failed _ requestSha256 error =>
    { requestSha256 := requestSha256
      status := .failed
      captureId := none
      artifactSha256 := none
      artifactPath := none
      error := some error
      url := none
      depth := none
      ordinal := none }
  | .resumed _ record => record

def validateTerminalRecord (record : ResumeJobRecord Url) : Except OffprintError Unit :=
  let valid :=
    match record.status with
    | .succeeded =>
      record.captureId.isSome && record.artifactSha256.isSome &&
      record.artifactPath.isSome && record.error.isNone
    | .failed =>
      record.captureId.isNone && record.artifactSha256.isNone &&
      record.artifactPath.isNone && record.error.isSome
  if valid then
    .ok ()
  else
    .error (manifestShapeError "resume job terminal fields do not match its status")

/-- The digests of the files that stand at the artifact paths. -/
abbrev ArtifactFiles : Type :=
  OutputPath → Option ContentDigest

def resumeArtifactIsCurrent (files : ArtifactFiles) (record : ResumeJobRecord Url) : Bool :=
  match record.artifactPath, record.artifactSha256 with
  | some path, some expected => files path == some expected
  | _, _ => false

def newManifest (kind : ScheduleKind) (planSha256 : ContentDigest) (pending : List String)
    (frontier : List (CrawlFrontierItem Url)) : ResumeManifest Url :=
  ⟨schemaVersion, kind, planSha256, [], pending, frontier⟩

/-- The manifest a schedule starts from: `checkpoint` is what the manifest file
holds, if the schedule keeps one. -/
def loadOrCreateManifest (checkpoint : Option (Option (ResumeManifest Url)))
    (kind : ScheduleKind) (planSha256 : ContentDigest) (pending : List String)
    (frontier : List (CrawlFrontierItem Url)) : Except OffprintError (ResumeManifest Url) :=
  match checkpoint with
  | none => .ok (newManifest kind planSha256 pending frontier)
  | some stored =>
    let manifest := stored.getD (newManifest kind planSha256 pending frontier)
    if manifest.schemaVersion ≠ schemaVersion ∨ manifest.kind ≠ kind ∨
        manifest.planSha256 ≠ planSha256 then
      .error (schedulerError "offprint.scheduler.manifest_mismatch" .validation
        "resume manifest does not describe this scheduler plan")
    else if manifest.frontier.isEmpty && manifest.jobs.isEmpty && kind = .crawl then
      .ok { manifest with pending := pending, frontier := frontier }
    else
      .ok manifest

theorem exists_of_bind_ok {ε α β : Type} {first : Except ε α} {next : α → Except ε β} {result : β}
    (done : first >>= next = .ok result) :
    ∃ value, first = .ok value ∧ next value = .ok result := by
  cases first with
  | ok value => exact ⟨value, rfl, done⟩
  | error failure => cases done

end Offprint.Scheduler
