import Offprint.Data.Text
import Offprint.Scheduler.Crawl
import Offprint.Scheduler.Job

/-!
# The batch scheduler

A batch as a function of its stored manifest, of the files that stand at the
artifact paths, and of the order in which its captures complete.  The manifests
it writes on the way are part of its result.
-/

namespace Offprint.Scheduler

open Data Model

variable {Url : Type}

structure BatchJob (Url : Type) where
  id : String
  request : CaptureRequest Url

structure BatchRequest (Url : Type) where
  jobs : List (BatchJob Url)
  concurrency : Nat
  resume : Option ResumeOptions

/-- The digest of a serialized list of jobs. -/
class BatchDigest (Url : Type) where
  jobsSha256 : List (BatchJob Url) → ContentDigest

/-! ## Requests -/

def maximumBatchJobs : Nat := 100000

def jobIdError (message : String) : OffprintError :=
  schedulerError "offprint.scheduler.job_id" .validation message

def resumeTargetError : OffprintError :=
  schedulerError "offprint.scheduler.resume_target" .validation
    "resumable batch jobs require file artifact targets"

/-- Check one job behind the jobs with the given identifiers. -/
def validateBatchJob (resume : Option ResumeOptions) (ids : Finset String) (job : BatchJob Url) :
    Except OffprintError (Finset String) := do
  if job.id.toList.all Text.isWhiteSpace ∨ 256 < job.id.length then
    throw (jobIdError "batch job identifiers must contain between 1 and 256 characters")
  if job.id ∈ ids then
    throw (jobIdError s!"batch job identifier `{job.id}` is duplicated")
  match job.request.output with
  | .file _ _ => return insert job.id ids
  | .bytes => if resume.isSome then throw resumeTargetError else return insert job.id ids

def validateBatchJobs (request : BatchRequest Url) : Except OffprintError Unit := do
  if request.jobs.isEmpty ∨ maximumBatchJobs < request.jobs.length then
    throw (schedulerError "offprint.scheduler.job_count" .validation
      s!"batch job count must be between 1 and {maximumBatchJobs}")
  let _ ← request.jobs.foldlM (validateBatchJob request.resume) ∅

/-! ## Manifests -/

section Manifests

variable [SchedulerEnvironment Url]

def requestDigest (job : BatchJob Url) : ContentDigest :=
  SchedulerEnvironment.requestSha256 job.request

/-- What the manifest has to say about each job: its digest and its path. -/
abbrev ExpectedJobs : Type :=
  OrderedMap String (ContentDigest × OutputPath)

def expectJob (expected : ExpectedJobs) (job : BatchJob Url) : Except OffprintError ExpectedJobs :=
  match job.request.output with
  | .file path _ => .ok (expected.insert job.id (requestDigest job, path))
  | .bytes => .error resumeTargetError

def validateBatchRecord (expected : ExpectedJobs) (entry : String × ResumeJobRecord Url) :
    Except OffprintError Unit := do
  let (id, record) := entry
  let some (expectedDigest, expectedPath) := expected.get? id
    | throw ((manifestShapeError "batch resume manifest contains an unknown job").withDetail
        "jobId" (.string id))
  if record.requestSha256 ≠ expectedDigest then
    throw ((manifestShapeError "batch resume job digest does not match its request").withDetail
      "jobId" (.string id))
  if record.url.isSome ∨ record.depth.isSome ∨ record.ordinal.isSome then
    throw ((manifestShapeError "batch resume job contains crawl coordinates").withDetail
      "jobId" (.string id))
  (validateTerminalRecord record).mapError fun error => error.withDetail "jobId" (.string id)
  if record.status = .succeeded ∧ record.artifactPath ≠ some expectedPath then
    throw ((manifestShapeError
      "batch resume artifact path does not match its request").withDetail "jobId" (.string id))

variable (manifest : ResumeManifest Url) (request : BatchRequest Url)

def expectedPending : List String :=
  (request.jobs.filter fun job => (manifest.jobs.get? job.id).isNone).map BatchJob.id

def validateBatchManifest : Except OffprintError Unit := do
  if ¬ manifest.frontier.isEmpty then
    throw (manifestShapeError "batch resume manifests cannot contain a crawl frontier")
  let expected ← request.jobs.foldlM expectJob []
  manifest.jobs.forM (validateBatchRecord expected)
  if manifest.pending ≠ expectedPending manifest request then
    throw (manifestShapeError "batch resume pending jobs do not match terminal records")

/-! ## The schedule -/

structure BatchState (Url : Type) where
  manifest : ResumeManifest Url
  outcomes : List (Option (ScheduledCaptureOutcome Url))

def refreshBatchPending (state : BatchState Url) : BatchState Url :=
  { state with
    manifest := { state.manifest with
      pending := ((request.jobs.zip state.outcomes).filter fun job => job.2.isNone).map
        fun job => job.1.id } }

/-- The record that stands for a new capture of the job, if there is one. -/
def resumable (files : ArtifactFiles) (resume : Option ResumeOptions)
    (manifest : ResumeManifest Url) (job : BatchJob Url) : Option (ResumeJobRecord Url) :=
  (manifest.jobs.get? job.id).filter fun record =>
    record.requestSha256 = requestDigest job &&
      match record.status with
      | .succeeded => resumeArtifactIsCurrent files record
      | .failed => !resume.any ResumeOptions.retryFailed

/-- Take over the record of one job, or remove it. -/
def resumeJob (files : ArtifactFiles) (resume : Option ResumeOptions) (state : BatchState Url)
    (job : BatchJob Url) : BatchState Url :=
  match resumable files resume state.manifest job with
  | some record => { state with outcomes := state.outcomes ++ [some (.resumed job.id record)] }
  | none =>
    { manifest := { state.manifest with jobs := state.manifest.jobs.erase job.id }
      outcomes := state.outcomes ++ [none] }

variable [BatchDigest Url]

/-- The state of a batch behind its first written manifest. -/
def batchStart (files : ArtifactFiles) (request : BatchRequest Url)
    (stored : Option (ResumeManifest Url)) : Except OffprintError (BatchState Url) := do
  validateConcurrency request.concurrency
  validateBatchJobs request
  let planSha256 := BatchDigest.jobsSha256 request.jobs
  let checkpoint := request.resume.map fun _ => stored
  let manifest ← loadOrCreateManifest checkpoint .batch planSha256
    (request.jobs.map BatchJob.id) []
  if request.resume.isSome then
    validateBatchManifest manifest request
  return refreshBatchPending request
    (request.jobs.foldl (resumeJob files request.resume) ⟨manifest, []⟩)

/-- Record the outcome of the job at an index. -/
def recordOutcome (request : BatchRequest Url) (state : BatchState Url) (index : Nat)
    (outcome : ScheduledCaptureOutcome Url) : BatchState Url :=
  let outcomes := state.outcomes.set index (some outcome)
  if request.resume.isSome then
    refreshBatchPending request
      { manifest := { state.manifest with
          jobs := state.manifest.jobs.insert outcome.id (recordFromOutcome outcome) }
        outcomes := outcomes }
  else
    { state with outcomes := outcomes }

/-- Record the outcomes of jobs in the order of their completion.  The first
component lists the manifests to be written, one behind each job. -/
def batchLoop (request : BatchRequest Url)
    (run : Nat → BatchJob Url → ScheduledCaptureOutcome Url) :
    BatchState Url → List Nat → List (ResumeManifest Url) × BatchState Url
  | state, [] => ([], state)
  | state, index :: rest =>
    match request.jobs[index]? with
    | none => batchLoop request run state rest
    | some job =>
      let next := recordOutcome request state index (run index job)
      let (written, final) := batchLoop request run next rest
      (next.manifest :: written, final)

def terminalOutcome (outcome : Option (ScheduledCaptureOutcome Url) × Nat) :
    Except OffprintError (ScheduledCaptureOutcome Url) :=
  match outcome with
  | (some outcome, _) => .ok outcome
  | (none, index) =>
    .error ((schedulerError "offprint.scheduler.state" .internal
      "batch scheduler ended without a terminal job outcome").withDetail
        "jobIndex" (.number (.natural index)))

/-- A batch: the manifests it writes, in order, and its outcomes. -/
structure BatchRun (Url : Type) where
  written : List (ResumeManifest Url)
  result : Except OffprintError (List (ScheduledCaptureOutcome Url))

/-- Run a batch.  `completions` lists pending jobs in the order in which they
complete, as far as the run goes. -/
def batch (run : Nat → BatchJob Url → ScheduledCaptureOutcome Url) (files : ArtifactFiles)
    (completions : List Nat) (request : BatchRequest Url)
    (stored : Option (ResumeManifest Url)) : BatchRun Url :=
  match batchStart files request stored with
  | .error error => ⟨[], .error error⟩
  | .ok state =>
    let (written, final) := batchLoop request run state completions
    { written := if request.resume.isSome then state.manifest :: written else []
      result := final.outcomes.zipIdx.mapM terminalOutcome }

variable [Sha256] (closing : Option Closing) (courses : Nat → JobCourse) (index : Nat)
  (job : BatchJob Url)

/-- The captures of a batch, whose runtime may be closed on the way. -/
def batchCapture (index : Nat) (job : BatchJob Url) : ScheduledCaptureOutcome Url :=
  runJob closing (courses index) job.id job.request (requestDigest job)

omit [BatchDigest Url] in
@[simp]
theorem id_batchCapture : (batchCapture closing courses index job).id = job.id :=
  id_runJob _ _ _ _ _

end Manifests
end Offprint.Scheduler
