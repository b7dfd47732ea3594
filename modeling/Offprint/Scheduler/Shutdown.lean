import Offprint.Scheduler.BatchResume
import Offprint.Scheduler.CrawlResult

/-!
# Schedules whose runtime is closed

A capture that a shutdown cuts off has an error for its outcome, and schedules
record it like any other failure.  So the work that a shutdown leaves unfinished
is kept exactly if no capture that is recorded was cut off.
-/

namespace Offprint.Scheduler

open Data Model OrderedMap List Option

variable {Url : Type} {stored : Option (ResumeManifest Url)}

def withoutRetry (resume : Option ResumeOptions) : Option ResumeOptions :=
  resume.map fun options => { options with retryFailed := false }

/-! ## Batches -/

section Batches

variable {request : BatchRequest Url} {state : BatchState Url} {index : Nat} {job : BatchJob Url}
  {files : ArtifactFiles}

theorem Recorded.get?_eq_none (recorded : Recorded request state)
    (isJob : request.jobs[index]? = some job)
    (pending : state.outcomes[index]? = some none) : state.manifest.jobs.get? job.id = none := by
  have flags := congrArg (fun flags : List Bool => flags[index]?) recorded.outcomes
  simp only [getElem?_map, isJob, pending, map_some, isNone_none,
    Option.some.injEq] at flags
  exact isNone_iff_eq_none.mp flags.symm

section Loop

variable {run : Nat → BatchJob Url → ScheduledCaptureOutcome Url} {completions : List Nat}

theorem get?_recordOutcome (resumes : request.resume.isSome = true) (index : Nat)
    (outcome : ScheduledCaptureOutcome Url) (id : String) :
    (recordOutcome request state index outcome).manifest.jobs.get? id =
      (state.manifest.jobs.insert outcome.id (recordFromOutcome outcome)).get? id := by
  simp [recordOutcome, resumes, refreshBatchPending]

theorem exists_written_record (resumes : request.resume.isSome = true)
    (sameId : ∀ index job, (run index job).id = job.id) {index : Nat}
    (completed : index ∈ completions) {job : BatchJob Url}
    (isJob : request.jobs[index]? = some job) :
    ∃ manifest ∈ (batchLoop request run state completions).1,
      manifest.jobs.get? job.id = some (recordFromOutcome (run index job)) := by
  induction completions generalizing state with
  | nil => cases completed
  | cons first completions ih =>
    unfold batchLoop
    rcases mem_cons.mp completed with rfl | later
    · rw [isJob]
      refine ⟨_, mem_cons_self, ?_⟩
      rw [get?_recordOutcome resumes, sameId, get?_insert_self]
    · cases request.jobs[first]? with
      | none => exact ih later
      | some other =>
        obtain ⟨manifest, member, found⟩ :=
          @ih (recordOutcome request state first (run first other)) later
        exact ⟨manifest, mem_cons_of_mem _ member, found⟩

theorem get?_written_eq_none (resumes : request.resume.isSome = true)
    (sameId : ∀ index job, (run index job).id = job.id) {id : String}
    (uncompleted : ∀ index ∈ completions, ∀ job, request.jobs[index]? = some job → job.id ≠ id)
    (absent : state.manifest.jobs.get? id = none) {manifest : ResumeManifest Url}
    (written : manifest ∈ (batchLoop request run state completions).1) :
    manifest.jobs.get? id = none := by
  induction completions generalizing state with
  | nil => cases written
  | cons first completions ih =>
    have rest := fun index member => uncompleted index (mem_cons_of_mem first member)
    unfold batchLoop at written
    cases isJob : request.jobs[first]? with
    | none =>
      simp only [isJob] at written
      exact ih rest absent written
    | some other =>
      have differs := uncompleted first mem_cons_self other isJob
      have stillAbsent :
          (recordOutcome request state first (run first other)).manifest.jobs.get? id = none := by
        rw [get?_recordOutcome resumes, sameId, get?_insert_of_ne differs.symm, absent]
      simp only [isJob, mem_cons] at written
      rcases written with rfl | later
      · exact stillAbsent
      · exact ih rest stillAbsent later

end Loop

variable [SchedulerEnvironment Url]

theorem outcome_resumeJobs {resume : Option ResumeOptions}
    {jobs : List (BatchJob Url)} (distinct : (jobs.map BatchJob.id).Nodup)
    (start : BatchState Url) (isJob : jobs[index]? = some job)
    (absent : start.manifest.jobs.get? job.id = none) (fresh : start.outcomes = []) :
    (jobs.foldl (resumeJob files resume) start).outcomes[index]? = some none := by
  obtain ⟨⟨outcomes, added, settled⟩, records, -, -⟩ :=
    @foldl_resumeJob _ jobs _ files resume distinct start
  have none : (jobs.foldl (resumeJob files resume) start).manifest.jobs.get? job.id = none := by
    apply get?_eq_none
    intro value member
    exact ne_of_get?_eq_none absent (records _ member) rfl
  have flags := congrArg (fun flags : List Bool => flags[index]?) settled
  simp only [getElem?_map, isJob, none, map_some, isNone_none] at flags
  rw [added, fresh, nil_append]
  obtain ⟨outcome, isOutcome, isNone⟩ := map_eq_some_iff.mp flags
  rw [isOutcome, isNone_iff_eq_none.mp isNone]

variable [BatchDigest Url]

theorem batchStart_outcome (distinct : (request.jobs.map BatchJob.id).Nodup)
    {manifest : ResumeManifest Url} {resumed : BatchState Url}
    (resumes : request.resume.isSome = true)
    (started : batchStart files request (some manifest) = .ok resumed)
    (isJob : request.jobs[index]? = some job)
    (absent : manifest.jobs.get? job.id = none) : resumed.outcomes[index]? = some none := by
  obtain ⟨options, resume⟩ := isSome_iff_exists.mp resumes
  obtain ⟨_, -, started⟩ := exists_of_bind_ok started
  obtain ⟨_, -, started⟩ := exists_of_bind_ok started
  obtain ⟨kept, loaded, started⟩ := exists_of_bind_ok started
  have isManifest : kept = manifest := by
    simp only [resume, map_some, loadOrCreateManifest, getD_some, reduceCtorEq,
      decide_false, Bool.and_false, Bool.false_eq_true, ↓reduceIte] at loaded
    split_ifs at loaded
    exact (Except.ok.inj loaded).symm
  rw [isManifest, if_pos resumes] at started
  obtain ⟨_, -, started⟩ := exists_of_bind_ok started
  cases started
  exact outcome_resumeJobs distinct ⟨manifest, []⟩ isJob absent rfl

/-- The job at an index is captured by the batch and cut off on the way. -/
def UnfinishedJob (closing : Option Closing) (courses : Nat → JobCourse)
    (request : BatchRequest Url) (start : BatchState Url) (index : Nat) (job : BatchJob Url) :
    Prop :=
  request.jobs[index]? = some job ∧ start.outcomes[index]? = some none ∧
    CutOff closing (courses index)

/-- No unfinished job of a batch is recorded as failed, and all of them are
captured when the batch is resumed. -/
structure BatchKeepsUnfinished (closing : Option Closing) (courses : Nat → JobCourse)
    (request : BatchRequest Url) (start : BatchState Url)
    (written : List (ResumeManifest Url)) : Prop where
  notFailed : ∀ manifest ∈ written, ∀ index job,
    UnfinishedJob closing courses request start index job →
    ∀ record, manifest.jobs.get? job.id = some record → record.status ≠ .failed
  captured : ∀ manifest ∈ written, ∀ files resumed,
    batchStart files { request with resume := withoutRetry request.resume } (some manifest) =
      .ok resumed →
    ∀ index job, UnfinishedJob closing courses request start index job →
      resumed.outcomes[index]? = some none

variable [Sha256]

/-- A batch keeps its unfinished work exactly if it records no job that was cut
off. -/
theorem batch_keepsUnfinished_iff (valid : ResumableBatch request)
    (accepted : ∀ kept ∈ stored, AcceptedManifest request kept) {start : BatchState Url}
    (started : batchStart files request stored = .ok start) {completions : List Nat}
    (pending : ∀ index ∈ completions, start.outcomes[index]? = some none) (closing : Option Closing)
    (courses : Nat → JobCourse) :
    BatchKeepsUnfinished closing courses request start
        (batch (batchCapture closing courses) files completions request stored).written ↔
      ∀ index ∈ completions, ¬ CutOff closing (courses index) := by
  have resumes := valid.resumes
  have recorded : Recorded request start := by
    obtain ⟨state, isStart, recorded, -⟩ := batchStart_ok valid files accepted
    rw [started, Except.ok.injEq] at isStart
    rw [isStart]
    exact recorded.refresh
  have isWritten : (batch (batchCapture closing courses) files completions request stored).written =
      start.manifest :: (batchLoop request (batchCapture closing courses) start completions).1 := by
    simp [batch, started, resumes]
  have isJob {index : Nat} (member : index ∈ completions) :
      ∃ job, request.jobs[index]? = some job := by
    have length : start.outcomes.length = request.jobs.length := by
      simpa using congrArg List.length recorded.outcomes
    obtain ⟨bound, -⟩ := List.getElem?_eq_some_iff.mp (pending index member)
    exact ⟨_, getElem?_eq_getElem (length ▸ bound)⟩
  rw [isWritten]
  constructor
  · rintro ⟨notFailed, -⟩ index member cutOff
    obtain ⟨job, isJob⟩ := isJob member
    obtain ⟨manifest, written, found⟩ := @exists_written_record _ request start _ _ resumes
      (id_batchCapture closing courses) _ member _ isJob
    obtain ⟨error, failed⟩ := runJob_of_cutOff cutOff job.id job.request (requestDigest job)
    apply notFailed manifest (mem_cons_of_mem _ written) index job
      ⟨isJob, pending index member, cutOff⟩ _ found
    rw [batchCapture, failed]
    rfl
  · intro uncut
    have absent {manifest : ResumeManifest Url} (member : manifest ∈ start.manifest ::
        (batchLoop request (batchCapture closing courses) start completions).1) {index : Nat}
        {job : BatchJob Url} (unfinished : UnfinishedJob closing courses request start index job) :
        manifest.jobs.get? job.id = none := by
      obtain ⟨isJob, isPending, cutOff⟩ := unfinished
      have atStart := recorded.get?_eq_none isJob isPending
      rcases mem_cons.mp member with rfl | written
      · exact atStart
      · apply get?_written_eq_none resumes (id_batchCapture closing courses) _ atStart written
        intro other completed otherJob isOther sameId
        have same : other = index := by
          have bound := (List.getElem?_eq_some_iff.mp isOther).1
          apply (getElem?_inj (by simpa using bound) valid.distinct).mp
          simp [isOther, isJob, sameId]
        rw [same] at completed
        exact uncut index completed cutOff
    constructor
    · intro manifest member index job unfinished record found
      rw [absent member unfinished] at found
      cases found
    · intro manifest member files resumed restarted index job unfinished
      have stillResumes : (withoutRetry request.resume).isSome = true := by
        simpa [withoutRetry] using resumes
      exact @batchStart_outcome _ { request with resume := withoutRetry request.resume } _ _ _ _ _
        valid.distinct _ _ stillResumes restarted unfinished.1 (absent member unfinished)

end Batches

/-! ## Crawls -/

section Crawls

variable [PageUrl Url] [SchedulerEnvironment Url] [Sha256] (closing : Option Closing)
  (courses : Url → JobCourse) (site : Site Url) (request : CrawlRequest Url)

omit [PageUrl Url] [SchedulerEnvironment Url] in
/-- The site as a crawl sees it whose runtime is closed on the way. -/
def closingSite (links : Url → Except OffprintError (List Url)) : Site Url where
  capture url :=
    match closing.bind fun moments => interruption moments (courses url) with
    | some error => .error error
    | none =>
      match (courses url).ending with
      | .failed error => .error error
      | .captured captureId content _ => .ok (captureId, content.length, Sha256.digest content)
  links := links

theorem runCrawlJob_closingSite (links : Url → Except OffprintError (List Url))
    (request : CrawlRequest Url) (item : CrawlFrontierItem Url) :
    runCrawlJob (closingSite closing courses links) request item =
      runJob closing (courses item.url) (PageUrl.asStr item.url)
        (crawlCaptureRequest request item)
        (SchedulerEnvironment.requestSha256 (crawlCaptureRequest request item)) := by
  unfold runCrawlJob closingSite runJob jobResult
  dsimp only
  cases closing.bind fun moments => interruption moments (courses item.url) with
  | some error => rfl
  | none =>
    cases (courses item.url).ending with
    | failed error => rfl
    | captured captureId content taken => rfl

/-- The page is captured by the crawl and cut off on the way. -/
def UnfinishedPage (start : CrawlState Url) (page : CrawlFrontierItem Url) : Prop :=
  pageText page ∉ start.manifest.jobs.keys ∧ CutOff closing (courses page.url)

/-- No unfinished page of a crawl is recorded as failed, and all of them are
captured when the crawl is resumed. -/
structure CrawlKeepsUnfinished (closing : Option Closing) (courses : Url → JobCourse)
    (request : CrawlRequest Url) (start : CrawlState Url)
    (written : List (ResumeManifest Url)) : Prop where
  notFailed : ∀ manifest ∈ written, ∀ job ∈ manifest.jobs, ∀ page, job.2.item? = some page →
    UnfinishedPage closing courses start page → job.2.status ≠ .failed
  captured : ∀ manifest ∈ written, ∀ files resumed,
    crawlStart files (request.rerun request.concurrency (withoutRetry request.resume))
      (some manifest) = .ok resumed →
    ∀ page ∈ manifestPages manifest, UnfinishedPage closing courses start page →
      page ∈ resumed.manifest.frontier

/-- Every record stood in the manifest before, or belongs to a visited page. -/
def Grown (start state : CrawlState Url) : Prop :=
  ∀ job ∈ state.manifest.jobs, job ∈ start.manifest.jobs ∨
    ∃ item, job = (pageText item, pageRecord site request item)

theorem grown_keptByVisits (start : CrawlState Url) :
    KeptByVisits site request (Grown site request start) := by
  intro state next item others new _ grown _ visited job member
  rw [visited.jobs] at member
  rcases mem_of_mem_insert member with rfl | old
  · exact .inr ⟨item, rfl⟩
  · exact grown job old

theorem status_pageRecord_of_cutOff {closing : Option Closing} {courses : Url → JobCourse}
    {links : Url → Except OffprintError (List Url)} {request : CrawlRequest Url}
    {item : CrawlFrontierItem Url} (cutOff : CutOff closing (courses item.url)) :
    (pageRecord (closingSite closing courses links) request item).status = .failed := by
  obtain ⟨error, failed⟩ := runJob_of_cutOff cutOff (PageUrl.asStr item.url)
    (crawlCaptureRequest request item)
    (SchedulerEnvironment.requestSha256 (crawlCaptureRequest request item))
  unfold pageRecord
  rw [runCrawlJob_closingSite, failed]
  rfl

variable [LawfulPageUrl Url] {request : CrawlRequest Url}

/-- A crawl keeps its unfinished work exactly if it records no page that was cut
off. -/
theorem crawl_keepsUnfinished_iff (wellFormed : ∀ kept ∈ stored, WellFormed request kept)
    (resumes : request.resume.isSome = true) {files : ArtifactFiles} {start : CrawlState Url}
    (started : crawlStart files request stored = .ok start) (completions : Nat → List Nat)
    (closing : Option Closing) (courses : Url → JobCourse)
    (links : Url → Except OffprintError (List Url)) :
    let written := (crawl (closingSite closing courses links) files completions request
      stored).written
    CrawlKeepsUnfinished closing courses request start written ↔
      ∀ manifest ∈ written, ∀ page ∈ jobPages manifest.jobs,
        pageText page ∉ start.manifest.jobs.keys → ¬ CutOff closing (courses page.url) := by
  intro written
  have startable := startable_of_crawlStart started
  have sound : Sound request start := by
    rw [crawlStart_eq startable files wellFormed, Except.ok.injEq] at started
    rw [← started]
    exact sound_startState startable files wellFormed
  have grown {manifest : ResumeManifest Url} (member : manifest ∈ written) :
      WellFormed request manifest ∧ ∀ job ∈ manifest.jobs, job ∈ start.manifest.jobs ∨
        ∃ item, job = (pageText item, pageRecord (closingSite closing courses links) request
          item) := by
    simp only [written, crawl, started, resumes, ↓reduceIte] at member
    rcases mem_cons.mp member with rfl | looped
    · exact ⟨sound.manifest, fun job old => .inl old⟩
    · have concurrent := (bounds_of_validateCrawlRequest startable.valid).1.1
      have ends := @drain_isSome _ _ _ _ (closingSite closing courses links) request start _ sound
        (request.maximumPages + 1) (by omega)
      obtain ⟨middle, middleSound, middleGrown, rfl⟩ := drain_written
        (grown_keptByVisits _ request start) sound (fun job old => .inl old)
        (mem_drain_of_mem_crawlLoop concurrent sound ends looped)
      exact ⟨middleSound.manifest, middleGrown⟩
  constructor
  · rintro ⟨notFailed, -⟩ manifest member page recorded newPage cutOff
    obtain ⟨job, jobMember, isPage⟩ := mem_filterMap.mp recorded
    apply notFailed manifest member job jobMember page isPage ⟨newPage, cutOff⟩
    rcases (grown member).2 job jobMember with old | ⟨item, rfl⟩
    · obtain ⟨item, recordOf⟩ := sound.manifest.records job old
      rw [recordOf.page, Option.some.injEq] at isPage
      rw [← isPage, ← recordOf.id] at newPage
      exact absurd (mem_map_of_mem old) newPage
    · rw [(recordOf_pageRecord _ request item).page, Option.some.injEq] at isPage
      rw [← isPage] at cutOff
      exact status_pageRecord_of_cutOff cutOff
  · intro uncut
    constructor
    · intro manifest member job jobMember page isPage unfinished
      exact absurd unfinished.2
        (uncut manifest member page (mem_filterMap.mpr ⟨job, jobMember, isPage⟩) unfinished.1)
    · intro manifest member files resumed restarted page isPage unfinished
      have waiting : page ∈ manifest.frontier := by
        rcases mem_append.mp isPage with waiting | recorded
        · exact waiting
        · exact absurd unfinished.2 (uncut manifest member page recorded unfinished.1)
      have kept : ∀ kept ∈ some manifest, WellFormed
          (request.rerun request.concurrency (withoutRetry request.resume)) kept := by
        rintro _ ⟨⟩
        exact wellFormed_rerun.mpr (grown member).1
      rw [crawlStart_eq (startable_of_crawlStart restarted) files kept, Except.ok.injEq]
        at restarted
      obtain ⟨options, resume⟩ := isSome_iff_exists.mp resumes
      rw [← restarted]
      simp only [startState, startManifest, CrawlRequest.rerun, withoutRetry, resume,
        map_some, requeued, persistCrawlPending]
      exact (sortFrontier_perm _).mem_iff.mpr (mem_append_left _ waiting)

end Crawls

section LocalBatch

attribute [local instance] zeroSha256

def localBatchStart : BatchState LocalPage :=
  refreshBatchPending localBatch ⟨newManifest .batch .zero ["index"] [], [none]⟩

theorem batchStart_localBatch : batchStart (fun _ => none) localBatch none = .ok localBatchStart :=
  rfl

/-- A runtime that is closed before its only job is polled. -/
def closedAtOnce : Closing where
  begun := 0
  cancelling := 0
  woken := 0
  ordered := ordered_atOnce

end LocalBatch

end Offprint.Scheduler
