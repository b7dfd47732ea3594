import Offprint.Scheduler.Crawl

/-!
# Starting and resuming a crawl

The checks a stored crawl manifest has to pass, the pages that are put back
into the frontier, and the whole crawl from its manifest to its outcomes.
-/

namespace Offprint.Scheduler

open Data Model PageUrl

variable {Url : Type}

section Validation

variable [PageUrl Url]

abbrev MetCoordinates : Type :=
  Finset String × Finset Nat

def validateCrawlCoordinates (request : CrawlRequest Url) (root : Url) (met : MetCoordinates)
    (item : CrawlFrontierItem Url) : Except OffprintError MetCoordinates := do
  let text := asStr item.url
  let isRoot := text = asStr root
  if !isHttp item.url || (fragment item.url).isSome then
    throw (manifestShapeError "crawl resume URLs must be normalized HTTP or HTTPS URLs")
  if request.sameOrigin && !sameOrigin item.url request.seed.url then
    throw ((manifestShapeError "crawl resume URL is outside the configured origin").withDetail
      "url" (.string text))
  if (item.depth = 0 ∨ item.ordinal = 0 ∨ isRoot) ∧
      (¬ isRoot ∨ item.depth ≠ 0 ∨ item.ordinal ≠ 0) then
    throw ((manifestShapeError
      "crawl resume seed must retain URL, depth, and ordinal zero").withDetail
        "url" (.string text))
  if request.maximumDepth < item.depth then
    throw ((manifestShapeError "crawl resume depth exceeds the configured limit").withDetail
      "url" (.string text))
  if request.maximumPages ≤ item.ordinal then
    throw ((manifestShapeError
      "crawl resume ordinal exceeds the configured page limit").withDetail "url" (.string text))
  if text ∈ met.1 then
    throw ((manifestShapeError "crawl resume manifest contains a duplicate URL").withDetail
      "url" (.string text))
  if item.ordinal ∈ met.2 then
    throw ((manifestShapeError "crawl resume manifest contains a duplicate ordinal").withDetail
      "ordinal" (.number (.natural item.ordinal)))
  return (insert text met.1, insert item.ordinal met.2)

/-- The page of a record, if the record has all its coordinates. -/
def ResumeJobRecord.item? (record : ResumeJobRecord Url) : Option (CrawlFrontierItem Url) :=
  match record.url, record.depth, record.ordinal with
  | some url, some depth, some ordinal => some ⟨url, depth, ordinal⟩
  | _, _, _ => none

def jobPage (job : String × ResumeJobRecord Url) : Except OffprintError (CrawlFrontierItem Url) :=
  match job.2.item? with
  | some item => .ok item
  | none =>
    .error ((manifestShapeError "crawl resume job is missing URL, depth, or ordinal").withDetail
      "jobId" (.string job.1))

variable [SchedulerEnvironment Url] [Sha256]

def validateCrawlJob (request : CrawlRequest Url) (root : Url) (met : MetCoordinates)
    (job : String × ResumeJobRecord Url) : Except OffprintError MetCoordinates := do
  let (id, record) := job
  (validateTerminalRecord record).mapError fun error => error.withDetail "jobId" (.string id)
  let item ← jobPage job
  if id ≠ asStr item.url then
    throw ((manifestShapeError "crawl resume job identifier does not match its URL").withDetail
      "jobId" (.string id))
  let met ← validateCrawlCoordinates request root met item
  if record.requestSha256 ≠
      SchedulerEnvironment.requestSha256 (crawlCaptureRequest request item) then
    throw ((manifestShapeError "crawl resume job digest does not match its request").withDetail
      "jobId" (.string id))
  if record.status = .succeeded ∧ record.artifactPath ≠ some (crawlOutputPath request item) then
    throw ((manifestShapeError
      "crawl resume artifact path does not match its request").withDetail "jobId" (.string id))
  return met

def validateCrawlManifest (manifest : ResumeManifest Url) (request : CrawlRequest Url) :
    Except OffprintError Unit := do
  if request.maximumPages < manifest.jobs.length + manifest.frontier.length then
    throw (manifestShapeError "crawl resume manifest exceeds the configured page limit")
  let root := withoutFragment request.seed.url
  let met ← manifest.jobs.foldlM (validateCrawlJob request root) (∅, ∅)
  let met ← manifest.frontier.foldlM (validateCrawlCoordinates request root) met
  if 0 ∉ met.2 then
    throw (manifestShapeError "crawl resume manifest is missing its seed page")
  if manifest.pending ≠ manifest.frontier.map fun item => asStr item.url then
    throw (manifestShapeError "crawl resume pending jobs do not match the frontier")

end Validation

section Resume

variable [PageUrl Url]

/-- Whether a record is captured again: its artifact changed, or it failed and
failures are retried. -/
def retries (files : ArtifactFiles) (retryFailed : Bool) (record : ResumeJobRecord Url) : Bool :=
  match record.status with
  | .succeeded => !resumeArtifactIsCurrent files record
  | .failed => retryFailed

/-- Drop every page that has the same URL as the page before it. -/
def dedupUrls : List (CrawlFrontierItem Url) → List (CrawlFrontierItem Url)
  | [] => []
  | item :: rest =>
    match dedupUrls rest with
    | [] => [item]
    | next :: others =>
      if asStr item.url = asStr next.url then
        item :: others
      else
        item :: next :: others

def refreshCrawlResumeState (files : ArtifactFiles) (request : CrawlRequest Url)
    (manifest : ResumeManifest Url) : Except OffprintError (ResumeManifest Url) := do
  let retryFailed := request.resume.any ResumeOptions.retryFailed
  let requeue ← (manifest.jobs.filter fun job => retries files retryFailed job.2).mapM jobPage
  return { manifest with
    jobs := manifest.jobs.filter fun job => !retries files retryFailed job.2
    frontier := dedupUrls (sortFrontier (manifest.frontier ++ requeue)) }

structure CrawlPageOutcome (Url : Type) where
  url : Url
  depth : Nat
  ordinal : Nat
  capture : ScheduledCaptureOutcome Url

def missingCoordinate (id field : String) : OffprintError :=
  (schedulerError "offprint.scheduler.manifest_shape" .internal
    s!"crawl resume job is missing its {field}").withDetail "jobId" (.string id)

def crawlOutcome (freshOutcomes : OrderedMap String (ScheduledCaptureOutcome Url))
    (job : String × ResumeJobRecord Url) : Except OffprintError (CrawlPageOutcome Url) := do
  let (id, record) := job
  let some url := record.url | throw (missingCoordinate id "URL")
  let some depth := record.depth | throw (missingCoordinate id "depth")
  let some ordinal := record.ordinal | throw (missingCoordinate id "ordinal")
  return ⟨url, depth, ordinal, (freshOutcomes.get? id).getD (.resumed id record)⟩

def crawlOutcomes (state : CrawlState Url) :
    Except OffprintError (List (CrawlPageOutcome Url)) := do
  let outcomes ← state.manifest.jobs.mapM (crawlOutcome state.freshOutcomes)
  return outcomes.insertionSort fun left right => left.ordinal ≤ right.ordinal

variable [SchedulerEnvironment Url] [Sha256]

/-- The state of a crawl behind its first written manifest. `stored` is what the
manifest file holds. -/
def crawlStart (files : ArtifactFiles) (request : CrawlRequest Url)
    (stored : Option (ResumeManifest Url)) : Except OffprintError (CrawlState Url) := do
  validateCrawlRequest request
  let planSha256 := SchedulerEnvironment.crawlPlanSha256 request.seed request.outputDirectory
    request.maximumPages request.maximumDepth request.sameOrigin
  let root ← normalizedPageUrl request.seed.url
  let checkpoint := request.resume.map fun _ => stored
  let manifest ← loadOrCreateManifest checkpoint .crawl planSha256 [asStr root]
    [⟨root, 0, 0⟩]
  validateCrawlManifest manifest request
  let manifest ← refreshCrawlResumeState files request manifest
  let manifest := persistCrawlPending manifest
  let seen ← crawlSeenUrls manifest
  return ⟨manifest, seen, []⟩

/-- A crawl: the manifests it writes, in order, and its outcomes. -/
structure CrawlRun (Url : Type) where
  written : List (ResumeManifest Url)
  result : Option (Except OffprintError (List (CrawlPageOutcome Url)))

def crawl (site : Site Url) (files : ArtifactFiles) (completions : Nat → List Nat)
    (request : CrawlRequest Url) (stored : Option (ResumeManifest Url)) : CrawlRun Url :=
  match crawlStart files request stored with
  | .error error => ⟨[], some (.error error)⟩
  | .ok state =>
    let (written, result) :=
      crawlLoop site request completions (request.maximumPages + 1) 0 state
    { written := if request.resume.isSome then state.manifest :: written else []
      result := result.map fun final => final.bind crawlOutcomes }

end Resume
end Offprint.Scheduler
