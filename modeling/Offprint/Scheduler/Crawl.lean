import Mathlib.Algebra.GroupWithZero.Nat
import Mathlib.Data.Finset.Card
import Mathlib.Data.List.Sort
import Mathlib.Data.Prod.Lex
import Mathlib.Data.String.Basic
import Offprint.Effect.JoinAll
import Offprint.Scheduler.Manifest

/-!
# The crawl scheduler

The crawl loop as a function of the site it crawls and of the order in which
the captures of each batch complete.  The manifests it writes on the way are
part of its result, because a crawl may be killed between any two of them.
-/

namespace Offprint.Scheduler

open Data Model PageUrl

variable {Url : Type}

structure CrawlRequest (Url : Type) where
  seed : CaptureRequest Url
  outputDirectory : String
  maximumPages : Nat
  maximumDepth : Nat
  concurrency : Nat
  sameOrigin : Bool
  resume : Option ResumeOptions

/-- The digests of serialized requests and plans, and the character tables
behind portable file names. -/
class SchedulerEnvironment (Url : Type) where
  requestSha256 : CaptureRequest Url → ContentDigest
  crawlPlanSha256 : CaptureRequest Url → String → Nat → Nat → Bool → ContentDigest
  isAlphanumeric : Char → Bool
  toLowercase : Char → List Char

open SchedulerEnvironment

/-- What the pages of a site answer: the identity of a captured artifact, and
the links of a page, resolved against its URL. -/
structure Site (Url : Type) where
  capture : Url → Except OffprintError (String × Nat × ContentDigest)
  links : Url → Except OffprintError (List Url)

/-! ## Requests -/

def maximumConcurrency : Nat := 256

def validateConcurrency (concurrency : Nat) : Except OffprintError Unit :=
  if concurrency = 0 ∨ maximumConcurrency < concurrency then
    .error (schedulerError "offprint.scheduler.concurrency" .validation
      s!"scheduler concurrency must be between 1 and {maximumConcurrency}")
  else
    .ok ()

def validateCrawlRequest (request : CrawlRequest Url) : Except OffprintError Unit := do
  validateConcurrency request.concurrency
  if request.maximumPages = 0 then
    throw (schedulerError "offprint.scheduler.job_count" .validation
      "crawl maximum pages must be greater than zero")
  if 10000 < request.maximumDepth then
    throw (schedulerError "offprint.scheduler.depth" .validation
      "crawl maximum depth exceeds the supported limit")

def normalizedPageUrl [PageUrl Url] (url : Url) : Except OffprintError Url :=
  if isHttp url then
    .ok (withoutFragment url)
  else
    .error (schedulerError "offprint.scheduler.url" .validation "crawl URLs must use HTTP or HTTPS")

section Links

variable [PageUrl Url]

/-! ## Links -/

/-- A set of URLs in the order of their texts. -/
def orderedUrls (urls : List Url) : List Url :=
  let ordered : OrderedMap String Url :=
    urls.foldl (fun links link => OrderedMap.insert (asStr link) link links) []
  ordered.map Prod.snd

variable (site : Site Url) (request : CrawlRequest Url) (manifest : ResumeManifest Url)

/-- A link as the crawl follows it, if it does. -/
def followed (link : Url) : Option Url :=
  match normalizedPageUrl link with
  | .ok link =>
    if request.sameOrigin && !sameOrigin link request.seed.url then none else some link
  | .error _ => none

def crawlLinks (resolved : List Url) : List Url :=
  orderedUrls (resolved.filterMap (followed request))

/-! ## The frontier -/

def frontierKey (item : CrawlFrontierItem Url) : Nat ×ₗ Nat ×ₗ String :=
  toLex (item.depth, toLex (item.ordinal, asStr item.url))

def sortFrontier (frontier : List (CrawlFrontierItem Url)) : List (CrawlFrontierItem Url) :=
  frontier.insertionSort fun left right => frontierKey left ≤ frontierKey right

def persistCrawlPending : ResumeManifest Url :=
  { manifest with pending := manifest.frontier.map fun item => asStr item.url }

def jobUrl (job : String × ResumeJobRecord Url) : Except OffprintError String :=
  match job.2.url with
  | some url => .ok (asStr url)
  | none => .error ((schedulerError "offprint.scheduler.manifest_shape" .internal
      "crawl resume job is missing its URL").withDetail "jobId" (.string job.1))

def crawlSeenUrls : Except OffprintError (Finset String) := do
  let recorded ← manifest.jobs.mapM jobUrl
  return (manifest.frontier.map fun item => asStr item.url).toFinset ∪ recorded.toFinset

/-- Admit the links of a page until the page limit is reached. -/
def admitLinks (request : CrawlRequest Url) (depth : Nat) :
    List Url → List (CrawlFrontierItem Url) → Finset String →
      List (CrawlFrontierItem Url) × Finset String
  | [], frontier, seen => (frontier, seen)
  | link :: rest, frontier, seen =>
    if request.maximumPages ≤ seen.card then
      (frontier, seen)
    else if asStr link ∈ seen then
      admitLinks request depth rest frontier seen
    else
      let seen := insert (asStr link) seen
      admitLinks request depth rest (frontier ++ [⟨link, depth + 1, seen.card - 1⟩]) seen

/-! ## The loop -/

structure CrawlState (Url : Type) where
  manifest : ResumeManifest Url
  seen : Finset String
  freshOutcomes : OrderedMap String (ScheduledCaptureOutcome Url)

/-- Record the outcome of one page and admit its links. -/
def recordPage (state : CrawlState Url) (item : CrawlFrontierItem Url)
    (outcome : ScheduledCaptureOutcome Url) : Except OffprintError (CrawlState Url) := do
  let id := asStr item.url
  let frontier := state.manifest.frontier.filter fun pending =>
    asStr pending.url ≠ id ∨ pending.depth ≠ item.depth ∨ pending.ordinal ≠ item.ordinal
  let record :=
    { recordFromOutcome outcome with
      url := some item.url, depth := some item.depth, ordinal := some item.ordinal }
  let jobs := state.manifest.jobs.insert id record
  let (frontier, seen) ←
    match outcome with
    | .succeeded _ _ _ =>
      if item.depth < request.maximumDepth then do
        let resolved ← site.links item.url
        pure (admitLinks request item.depth (crawlLinks request resolved) frontier state.seen)
      else
        pure (frontier, state.seen)
    | _ => pure (frontier, state.seen)
  return {
    manifest := persistCrawlPending
      { state.manifest with jobs := jobs, frontier := sortFrontier frontier }
    seen := seen
    freshOutcomes := state.freshOutcomes.insert id outcome }

/-- Record the outcomes of a batch in the order of its pages.  The first
component lists the manifests to be written, one behind each page. -/
def recordBatch (site : Site Url) (request : CrawlRequest Url) :
    CrawlState Url → List (CrawlFrontierItem Url × ScheduledCaptureOutcome Url) →
      List (ResumeManifest Url) × Except OffprintError (CrawlState Url)
  | state, [] => ([], .ok state)
  | state, (item, outcome) :: rest =>
    match recordPage site request state item outcome with
    | .error error => ([], .error error)
    | .ok next =>
      let (written, result) := recordBatch site request next rest
      (next.manifest :: written, result)

/-- How many pages of a sorted frontier are captured at the same time. -/
def batchWidth (frontier : List (CrawlFrontierItem Url)) : Nat :=
  let remaining := request.maximumPages - manifest.jobs.length
  let width := min (min request.concurrency remaining) frontier.length
  match frontier with
  | [] => width
  | first :: _ => min width (frontier.takeWhile fun item => item.depth = first.depth).length

end Links

/-! ## Output names -/

section Names

variable (Url) [SchedulerEnvironment Url]

def maximumStemBytes : Nat := 96

def utf8Length (characters : List Char) : Nat :=
  (characters.map Char.utf8Size).sum

def pushLowercase (stem : List Char) : List Char → List Char
  | [] => stem
  | character :: rest =>
    if maximumStemBytes < utf8Length stem + character.utf8Size then
      stem
    else
      pushLowercase (character :: stem) rest

/-- The characters of a stem in reverse; the flag says that a separator is due
before the next one. -/
def stemCharacters : List Char → List Char → Bool → List Char
  | [], stem, _ => stem
  | character :: rest, stem, separator =>
    let kept := isAlphanumeric Url character ||
      character == '-' || character == '_'
    let stem :=
      if kept then
        let separated :=
          if separator && !stem.isEmpty && decide (utf8Length stem < maximumStemBytes) then
            '-' :: stem
          else
            stem
        pushLowercase separated (toLowercase Url character)
      else
        stem
    if maximumStemBytes ≤ utf8Length stem then
      stem
    else
      stemCharacters rest stem (!kept)

def reservedFileStems : List String :=
  ["con", "prn", "aux", "nul", "com1", "com2", "com3", "com4", "com5", "com6", "com7", "com8",
    "com9", "lpt1", "lpt2", "lpt3", "lpt4", "lpt5", "lpt6", "lpt7", "lpt8", "lpt9"]

def trimStem (characters : List Char) : List Char :=
  let trimmed := characters.dropWhile fun character => ['-', '.', ' '].contains character
  (trimmed.reverse.dropWhile fun character => ['-', '.', ' '].contains character).reverse

def portableFileStem (value : String) : String :=
  let stem := String.ofList (trimStem (stemCharacters Url value.toList [] false).reverse)
  if stem.isEmpty || reservedFileStems.contains stem.toLower then "capture" else stem

end Names

section Jobs

variable [PageUrl Url] [SchedulerEnvironment Url] [Sha256]

def fiveDigits (ordinal : Nat) : String :=
  let digits := toString ordinal
  String.ofList (List.replicate (5 - digits.length) '0') ++ digits

variable (site : Site Url) (request : CrawlRequest Url)

def crawlOutputPath (item : CrawlFrontierItem Url) : OutputPath :=
  let segments := (pathSegments item.url).bind fun segments =>
    segments.reverse.find? fun segment => !segment.isEmpty
  let hint := segments.getD ((hostStr item.url).getD "page")
  let stem := portableFileStem Url hint
  let digest := (Sha256.digest (Utf8.encode (asStr item.url).toList)).toHex
  { directory := request.outputDirectory
    stem := s!"{fiveDigits item.ordinal}-{stem}-{String.ofList (digest.toList.take 12)}"
    extension := some "html" }

def crawlCaptureRequest (item : CrawlFrontierItem Url) : CaptureRequest Url :=
  { request.seed with
    url := item.url
    output := .file (crawlOutputPath request item) .replace }

/-- A scheduled capture of a page whose artifact replaces its output file. -/
def runCrawlJob (item : CrawlFrontierItem Url) : ScheduledCaptureOutcome Url :=
  let captureRequest := crawlCaptureRequest request item
  let requestSha256 := requestSha256 captureRequest
  let id := asStr item.url
  match site.capture item.url with
  | .ok (captureId, bytes, sha256) =>
    .succeeded id requestSha256
      ⟨captureId, .file (crawlOutputPath request item) bytes sha256⟩
  | .error error => .failed id requestSha256 error

/-- The crawl loop.  `completions` gives for each batch the order in which its
captures complete; there is no result when one never does, or when `fuel` is
used up. -/
def crawlLoop (site : Site Url) (request : CrawlRequest Url) (completions : Nat → List Nat) :
    Nat → Nat → CrawlState Url →
      List (ResumeManifest Url) × Option (Except OffprintError (CrawlState Url))
  | 0, _, _ => ([], none)
  | fuel + 1, batch, state =>
    if state.manifest.frontier.isEmpty ∨
        request.maximumPages ≤ state.manifest.jobs.length then
      ([], some (.ok state))
    else
      let frontier := sortFrontier state.manifest.frontier
      let state := { state with manifest := { state.manifest with frontier := frontier } }
      let active := frontier.take (batchWidth request state.manifest frontier)
      match Effect.joinAll (completions batch) active
          (fun item => (item, runCrawlJob site request item)) with
      | none => ([], none)
      | some outcomes =>
        match recordBatch site request state outcomes with
        | (written, .error error) => (written, some (.error error))
        | (written, .ok next) =>
          let (later, result) :=
            crawlLoop site request completions fuel (batch + 1) next
          (written ++ later, result)

end Jobs
end Offprint.Scheduler
