import Offprint.Scheduler.Batch
import Offprint.Scheduler.CrawlRuns

/-!
# Resuming a batch

The manifests of a batch are accepted by its next run as long as every artifact
was committed at its requested path.  The conflict policy that makes a path
unique commits elsewhere as soon as the requested path is taken.
-/

namespace Offprint.Scheduler

open Data Effect.Verdict Model List Option

variable {Url : Type} {ids : Finset String} {job : BatchJob Url}
  {entry : String × ResumeJobRecord Url} {resume : Option ResumeOptions}
  {request : BatchRequest Url} {jobs : List (BatchJob Url)}

/-! ## Valid requests -/

/-- What a resumable batch request has passed. -/
structure ResumableBatch (request : BatchRequest Url) : Prop where
  concurrency : validateConcurrency request.concurrency = .ok ()
  valid : validateBatchJobs request = .ok ()
  resumes : request.resume.isSome = true

theorem validateBatchJob_ok {next : Finset String}
    (valid : validateBatchJob resume ids job = .ok next) :
    job.id ∉ ids ∧ next = insert job.id ids ∧
      (resume.isSome = true → ∃ path conflict, job.request.output = .file path conflict) := by
  simp only [validateBatchJob, ite_throw_bind_eq_ok_iff] at valid
  obtain ⟨-, unknown, accepted⟩ := valid
  cases output : job.request.output with
  | file path conflict =>
    simp only [output, pure_eq_ok_iff] at accepted
    exact ⟨unknown, accepted.symm, fun _ => ⟨path, conflict, rfl⟩⟩
  | bytes =>
    simp only [output, ite_throw_eq_ok_iff, pure_eq_ok_iff] at accepted
    exact ⟨unknown, accepted.2.symm, fun resumes => absurd resumes accepted.1⟩

theorem foldlM_validateBatchJob {final : Finset String}
    (valid : jobs.foldlM (validateBatchJob resume) ids = .ok final) :
    (jobs.map BatchJob.id).Nodup ∧ (∀ job ∈ jobs, job.id ∉ ids) ∧
      (resume.isSome = true → ∀ job ∈ jobs, ∃ path conflict,
        job.request.output = .file path conflict) := by
  induction jobs generalizing ids with
  | nil => simp
  | cons job jobs ih =>
    rw [foldlM_cons, bind_eq_ok_iff] at valid
    obtain ⟨next, checked, remaining⟩ := valid
    obtain ⟨unknown, rfl, file⟩ := validateBatchJob_ok checked
    obtain ⟨distinct, apart, files⟩ := ih remaining
    refine ⟨?_, ?_, ?_⟩
    · rw [map_cons, nodup_cons]
      refine ⟨?_, distinct⟩
      intro repeated
      obtain ⟨other, member, same⟩ := mem_map.mp repeated
      exact apart other member (by simp [same])
    · intro other member
      rcases mem_cons.mp member with rfl | later
      · exact unknown
      · exact fun known => apart other later (Finset.mem_insert_of_mem known)
    · intro resumes other member
      rcases mem_cons.mp member with rfl | later
      · exact file resumes
      · exact files resumes other later

theorem validateBatchJobs_ok (valid : validateBatchJobs request = .ok ()) :
    (request.jobs.map BatchJob.id).Nodup ∧
      (request.resume.isSome = true → ∀ job ∈ request.jobs, ∃ path conflict,
        job.request.output = .file path conflict) := by
  simp only [validateBatchJobs, ite_throw_bind_eq_ok_iff, bind_eq_ok_iff] at valid
  obtain ⟨-, ids, checked, -⟩ := valid
  obtain ⟨distinct, -, files⟩ := foldlM_validateBatchJob checked
  exact ⟨distinct, files⟩

theorem ResumableBatch.distinct (valid : ResumableBatch request) :
    (request.jobs.map BatchJob.id).Nodup :=
  (validateBatchJobs_ok valid.valid).1

theorem ResumableBatch.file (valid : ResumableBatch request) (member : job ∈ request.jobs) :
    ∃ path conflict, job.request.output = .file path conflict :=
  (validateBatchJobs_ok valid.valid).2 valid.resumes job member

/-! ## Accepted manifests -/

section Accepted

theorem validateBatchRecord_iff {expected : ExpectedJobs} :
    validateBatchRecord expected entry = .ok () ↔
      ∃ digest path, expected.get? entry.1 = some (digest, path) ∧
        entry.2.requestSha256 = digest ∧
        (entry.2.url = none ∧ entry.2.depth = none ∧ entry.2.ordinal = none) ∧
        validateTerminalRecord entry.2 = .ok () ∧
        (entry.2.status = .succeeded → entry.2.artifactPath = some path) := by
  unfold validateBatchRecord
  cases known : expected.get? entry.1 with
  | none => simp [known]
  | some target =>
    obtain ⟨digest, path⟩ := target
    simp only [known, ite_throw_bind_eq_ok_iff, bind_eq_ok_iff, mapError_eq_ok_iff,
      ite_throw_eq_ok_iff, pure_eq_ok_iff, not_or, not_not, not_and,
      not_isSome_iff_eq_none, some.injEq, Prod.mk.injEq]
    grind

variable [SchedulerEnvironment Url]

theorem foldlM_expectJob (distinct : (jobs.map BatchJob.id).Nodup)
    (files : ∀ job ∈ jobs, ∃ path conflict, job.request.output = .file path conflict)
    (expected : ExpectedJobs) :
    ∃ final, jobs.foldlM expectJob expected = .ok final ∧
      (∀ job ∈ jobs, ∀ path conflict, job.request.output = .file path conflict →
        final.get? job.id = some (requestDigest job, path)) ∧
      ∀ id, id ∉ jobs.map BatchJob.id → final.get? id = expected.get? id := by
  induction jobs generalizing expected with
  | nil => exact ⟨expected, rfl, by simp, fun _ _ => rfl⟩
  | cons job jobs ih =>
    obtain ⟨path, conflict, output⟩ := files job mem_cons_self
    rw [map_cons, nodup_cons] at distinct
    obtain ⟨final, folded, found, others⟩ := ih distinct.2
      (fun other member => files other (mem_cons_of_mem _ member))
      (expected.insert job.id (requestDigest job, path))
    refine ⟨final, ?_, ?_, ?_⟩
    · rw [foldlM_cons, expectJob, output]
      exact folded
    · intro other member otherPath otherConflict otherOutput
      rcases mem_cons.mp member with rfl | later
      · rw [output] at otherOutput
        cases otherOutput
        rw [others other.id distinct.1, OrderedMap.get?_insert_self]
      · exact found other later otherPath otherConflict otherOutput
    · intro id absent
      rw [map_cons, mem_cons, not_or] at absent
      rw [others id absent.2, OrderedMap.get?_insert_of_ne absent.1]

def RecordFits (request : BatchRequest Url) (entry : String × ResumeJobRecord Url) : Prop :=
  ∃ job ∈ request.jobs, ∃ path conflict, job.request.output = .file path conflict ∧
    entry.1 = job.id ∧ entry.2.requestSha256 = requestDigest job ∧
    (entry.2.url = none ∧ entry.2.depth = none ∧ entry.2.ordinal = none) ∧
    validateTerminalRecord entry.2 = .ok () ∧
    (entry.2.status = .succeeded → entry.2.artifactPath = some path)

theorem ResumableBatch.validateBatchManifest_iff (valid : ResumableBatch request)
    {manifest : ResumeManifest Url} :
    validateBatchManifest manifest request = .ok () ↔
      manifest.frontier = [] ∧ (∀ entry ∈ manifest.jobs, RecordFits request entry) ∧
        manifest.pending = expectedPending manifest request := by
  obtain ⟨expected, folded, found, others⟩ := foldlM_expectJob valid.distinct
    (fun job member => valid.file member) []
  have record {entry : String × ResumeJobRecord Url} :
      validateBatchRecord expected entry = .ok () ↔ RecordFits request entry := by
    rw [validateBatchRecord_iff]
    constructor
    · rintro ⟨digest, path, known, fits⟩
      have member : entry.1 ∈ request.jobs.map BatchJob.id := by
        by_contra absent
        rw [others entry.1 absent] at known
        cases known
      obtain ⟨job, jobMember, sameId⟩ := mem_map.mp member
      obtain ⟨target, conflict, output⟩ := valid.file jobMember
      rw [← sameId, found job jobMember target conflict output] at known
      cases known
      exact ⟨job, jobMember, path, conflict, output, sameId.symm, fits⟩
    · rintro ⟨job, jobMember, path, conflict, output, sameId, fits⟩
      rw [sameId]
      exact ⟨_, _, found job jobMember path conflict output, fits⟩
  simp only [validateBatchManifest, ite_throw_bind_eq_ok_iff, bind_eq_ok_iff, folded,
    ite_throw_eq_ok_iff, pure_eq_ok_iff, forM_eq_ok_iff, not_not, List.isEmpty_iff,
    Except.ok.injEq, exists_eq_left', record, exists_const, and_true]

end Accepted

/-! ## The states of a run -/

section States

theorem pending_of_outcomes {outcomes : List (Option (ScheduledCaptureOutcome Url))}
    {unsettled : BatchJob Url → Bool} (same : outcomes.map isNone = jobs.map unsettled) :
    ((jobs.zip outcomes).filter fun job => job.2.isNone).map (fun job => job.1.id) =
      (jobs.filter unsettled).map BatchJob.id := by
  induction jobs generalizing outcomes with
  | nil => simp
  | cons job jobs ih =>
    cases outcomes with
    | nil => simp at same
    | cons outcome outcomes =>
      rw [map_cons, map_cons, List.cons.injEq] at same
      rw [zip_cons_cons, filter_cons, filter_cons, ← same.1]
      cases outcome <;> simp [ih same.2]

variable [SchedulerEnvironment Url] {request : BatchRequest Url} {state : BatchState Url}

/-- The jobs with an outcome are the jobs with a record. -/
structure Recorded (request : BatchRequest Url) (state : BatchState Url) : Prop where
  frontier : state.manifest.frontier = []
  outcomes : state.outcomes.map isNone =
    request.jobs.map fun job => (state.manifest.jobs.get? job.id).isNone

omit [SchedulerEnvironment Url] in
theorem Recorded.pending (recorded : Recorded request state) :
    (refreshBatchPending request state).manifest.pending =
      expectedPending (refreshBatchPending request state).manifest request :=
  pending_of_outcomes recorded.outcomes

omit [SchedulerEnvironment Url] in
theorem Recorded.refresh (recorded : Recorded request state) :
    Recorded request (refreshBatchPending request state) :=
  ⟨recorded.frontier, recorded.outcomes⟩

theorem ResumableBatch.accepts_iff (valid : ResumableBatch request)
    (recorded : Recorded request state) :
    validateBatchManifest (refreshBatchPending request state).manifest request = .ok () ↔
      ∀ entry ∈ state.manifest.jobs, RecordFits request entry := by
  rw [valid.validateBatchManifest_iff]
  exact ⟨fun accepted => accepted.2.1, fun fits => ⟨recorded.frontier, fits, recorded.pending⟩⟩

/-! ## The start -/

section Start

variable {files : ArtifactFiles} {resume : Option ResumeOptions} {job : BatchJob Url}

theorem get?_resumeJob_of_ne {id : String} (differs : id ≠ job.id) :
    (resumeJob files resume state job).manifest.jobs.get? id = state.manifest.jobs.get? id := by
  unfold resumeJob
  cases resumable files resume state.manifest job with
  | some record => rfl
  | none => exact OrderedMap.get?_erase_of_ne differs

theorem outcome_resumeJob (job : BatchJob Url) :
    ∃ outcome, (resumeJob files resume state job).outcomes = state.outcomes ++ [outcome] ∧
      outcome.isNone =
        ((resumeJob files resume state job).manifest.jobs.get? job.id).isNone := by
  unfold resumeJob
  cases found : resumable files resume state.manifest job with
  | some record =>
    refine ⟨_, rfl, ?_⟩
    have stored := (filter_eq_some_iff.mp found).1
    simp [stored]
  | none =>
    refine ⟨_, rfl, ?_⟩
    simp [OrderedMap.get?_erase_self]

theorem mem_of_mem_resumeJob (member : entry ∈ (resumeJob files resume state job).manifest.jobs) :
    entry ∈ state.manifest.jobs := by
  unfold resumeJob at member
  cases found : resumable files resume state.manifest job with
  | some record => simpa [found] using member
  | none =>
    simp only [found] at member
    exact mem_of_mem_filter member

theorem foldl_resumeJob (distinct : (jobs.map BatchJob.id).Nodup) (state : BatchState Url) :
    let final := jobs.foldl (resumeJob files resume) state
    (∃ outcomes, final.outcomes = state.outcomes ++ outcomes ∧ outcomes.map isNone =
      jobs.map fun job => (final.manifest.jobs.get? job.id).isNone) ∧
    (∀ entry ∈ final.manifest.jobs, entry ∈ state.manifest.jobs) ∧
    (∀ id, id ∉ jobs.map BatchJob.id → final.manifest.jobs.get? id = state.manifest.jobs.get? id) ∧
    final.manifest.frontier = state.manifest.frontier := by
  induction jobs generalizing state with
  | nil => exact ⟨⟨[], by simp⟩, fun _ member => member, fun _ _ => rfl, rfl⟩
  | cons job jobs ih =>
    rw [map_cons, nodup_cons] at distinct
    obtain ⟨⟨outcomes, added, settled⟩, records, others, frontier⟩ :=
      ih distinct.2 (resumeJob files resume state job)
    obtain ⟨outcome, appended, isNone⟩ := @outcome_resumeJob _ _ state files resume job
    refine ⟨⟨outcome :: outcomes, ?_, ?_⟩, ?_, ?_, ?_⟩
    · rw [foldl_cons, added, appended, append_assoc, singleton_append]
    · rw [map_cons, map_cons, foldl_cons, settled, isNone, others job.id distinct.1]
    · exact fun entry member => mem_of_mem_resumeJob (records entry member)
    · intro id absent
      rw [map_cons, mem_cons, not_or] at absent
      rw [foldl_cons, others id absent.2, get?_resumeJob_of_ne absent.1]
    · rw [foldl_cons, frontier]
      unfold resumeJob
      cases resumable files resume state.manifest job <;> rfl

end Start

/-! ## Recorded outcomes -/

omit [SchedulerEnvironment Url] in
theorem Recorded.recordOutcome_eq (valid : ResumableBatch request)
    (recorded : Recorded request state) {index : Nat} (isJob : request.jobs[index]? = some job)
    {outcome : ScheduledCaptureOutcome Url} (sameId : outcome.id = job.id) :
    ∃ next : BatchState Url, Recorded request next ∧
      next.manifest.jobs = state.manifest.jobs.insert job.id (recordFromOutcome outcome) ∧
      recordOutcome request state index outcome = refreshBatchPending request next := by
  refine ⟨⟨{ state.manifest with
      jobs := state.manifest.jobs.insert job.id (recordFromOutcome outcome) },
    state.outcomes.set index (some outcome)⟩, ⟨recorded.frontier, ?_⟩, rfl, ?_⟩
  · have lookup := recorded.outcomes
    have length : state.outcomes.length = request.jobs.length := by
      simpa using congrArg List.length lookup
    apply ext_getElem?
    intro position
    have before := congrArg (fun flags : List Bool => flags[position]?) lookup
    simp only [getElem?_map] at before
    rw [getElem?_map, getElem?_map]
    by_cases same : position = index
    · have inside : index < state.outcomes.length := by
        rw [length]
        exact (List.getElem?_eq_some_iff.mp isJob).1
      rw [same, isJob]
      simp [inside, OrderedMap.get?_insert_self]
    · rw [getElem?_set_ne (Ne.symm same), before]
      cases otherJob : request.jobs[position]? with
      | none => rfl
      | some other =>
        have differs : other.id ≠ job.id := by
          intro sameJob
          obtain ⟨positionBound, isOther⟩ := List.getElem?_eq_some_iff.mp otherJob
          obtain ⟨indexBound, isThis⟩ := List.getElem?_eq_some_iff.mp isJob
          apply same
          apply (@List.Nodup.getElem_inj_iff _ _ valid.distinct _ (by simpa using positionBound) _
            (by simpa using indexBound)).mp
          simp [isOther, isThis, sameJob]
        simp [OrderedMap.get?_insert_of_ne differs]
  · simp [recordOutcome, valid.resumes, sameId]

/-- The loop writes accepted manifests as long as it records what the request
allows. -/
theorem batchLoop_accepted_iff (valid : ResumableBatch request)
    {run : Nat → BatchJob Url → ScheduledCaptureOutcome Url}
    (sameId : ∀ index job, (run index job).id = job.id) (completions : List Nat)
    (recorded : Recorded request state)
    (fits : ∀ entry ∈ state.manifest.jobs, RecordFits request entry) :
    (∀ manifest ∈ (batchLoop request run state completions).1,
      validateBatchManifest manifest request = .ok ()) ↔
    ∀ index ∈ completions, ∀ job, request.jobs[index]? = some job →
      RecordFits request (job.id, recordFromOutcome (run index job)) := by
  induction completions generalizing state with
  | nil => simp [batchLoop]
  | cons index completions ih =>
    rw [forall_mem_cons, batchLoop]
    cases isJob : request.jobs[index]? with
    | none =>
      rw [ih recorded fits]
      simp
    | some job =>
      obtain ⟨next, nextRecorded, jobs, isNext⟩ :=
        recorded.recordOutcome_eq valid isJob (sameId index job)
      have first : validateBatchManifest (refreshBatchPending request next).manifest request =
          .ok () ↔ RecordFits request (job.id, recordFromOutcome (run index job)) := by
        rw [valid.accepts_iff nextRecorded, jobs]
        constructor
        · exact fun accepted => accepted _ OrderedMap.mem_insert_self
        · intro fitsNew entry member
          rcases OrderedMap.mem_of_mem_insert member with rfl | old
          · exact fitsNew
          · exact fits entry old
      have later (fitsNew : RecordFits request (job.id, recordFromOutcome (run index job))) :=
        ih nextRecorded.refresh
          ((valid.accepts_iff nextRecorded).mp (first.mpr fitsNew))
      simp only [isNext, forall_mem_cons, some.injEq, forall_eq']
      rw [first]
      constructor
      · exact fun accepted => ⟨accepted.1, (later accepted.1).mp accepted.2⟩
      · exact fun allowed => ⟨allowed.1, (later allowed.1).mpr allowed.2⟩

end States

/-! ## Displaced artifacts -/

section Runs

/-- The capture commits its artifact under a unique name, because the requested
path is taken and a later name is free. -/
def Displaced (closing : Option Closing) (course : JobCourse) (job : BatchJob Url) : Prop :=
  ¬ CutOff closing course ∧ ∃ captureId content taken path,
    course.ending = .captured captureId content taken ∧
      job.request.output = .file path .uniquify ∧ taken path = true ∧
      ∃ suffix, suffix < maximumSuffixes ∧ taken (uniqueCandidate path suffix) = false

variable [SchedulerEnvironment Url] [Sha256] {request : BatchRequest Url} {closing : Option Closing}
  {job : BatchJob Url}

omit [SchedulerEnvironment Url] in
theorem jobResult_ok_iff {course : JobCourse} {path : OutputPath} {conflict : ConflictPolicy}
    (output : job.request.output = .file path conflict) {receipt : CaptureReceipt} :
    jobResult closing course job.request = .ok receipt ↔
      ¬ CutOff closing course ∧ ∃ captureId content taken destination,
        course.ending = .captured captureId content taken ∧
          commitDestination taken path conflict = .ok destination ∧
          receipt = ⟨captureId, .file destination content.length (Sha256.digest content)⟩ := by
  have uncut : (closing.bind fun moments => interruption moments course) = none ↔
      ¬ CutOff closing course := by
    cases closing with
    | none | some moments => simp [CutOff]
  unfold jobResult
  cases stopped : closing.bind fun moments => interruption moments course with
  | some error =>
    have cut : CutOff closing course := by
      by_contra notCut
      rw [uncut.mpr notCut] at stopped
      cases stopped
    simp [cut]
  | none =>
    have notCut := uncut.mp stopped
    simp only [notCut, not_false_eq_true, true_and]
    cases ending : course.ending with
    | failed error => simp [captureResult]
    | captured captureId content taken =>
      simp only [captureResult, commitArtifact, output, CaptureEnd.captured.injEq]
      cases committed : commitDestination taken path conflict with
      | error failure =>
        simp only [bind, Except.bind, reduceCtorEq, false_iff]
        rintro ⟨_, _, _, destination, ⟨-, -, rfl⟩, isOk, -⟩
        rw [committed] at isOk
        cases isOk
      | ok destination =>
        simp only [bind, Except.bind, pure, Except.pure, Except.ok.injEq]
        constructor
        · rintro rfl
          exact ⟨captureId, content, taken, destination, ⟨rfl, rfl, rfl⟩, committed, rfl⟩
        · rintro ⟨_, _, _, other, ⟨rfl, rfl, rfl⟩, isOther, rfl⟩
          rw [committed] at isOther
          cases isOther
          rfl

theorem recordFits_batchCapture (valid : ResumableBatch request)
    {courses : Nat → JobCourse} {index : Nat} (member : job ∈ request.jobs) :
    RecordFits request (job.id, recordFromOutcome (batchCapture closing courses index job)) ↔
      ¬ Displaced closing (courses index) job := by
  obtain ⟨path, conflict, output⟩ := valid.file member
  have onlyJob : ∀ other ∈ request.jobs, job.id = other.id → other = job := by
    intro other otherMember same
    exact inj_on_of_nodup_map valid.distinct otherMember member same.symm
  unfold batchCapture runJob
  cases result : jobResult closing (courses index) job.request with
  | error failure =>
    have settled : ¬ Displaced closing (courses index) job := by
      rintro ⟨notCut, captureId, content, taken, target, ending, isFile, -, suffix, bound, free⟩
      rw [output] at isFile
      cases isFile
      obtain ⟨destination, committed⟩ := exists_persistUnique
        (⟨Nat.zero_le suffix, by omega⟩ : 0 ≤ suffix ∧ suffix < 0 + maximumSuffixes) free
      rw [(jobResult_ok_iff output).mpr ⟨notCut, captureId, content, taken, destination, ending,
        committed, rfl⟩] at result
      cases result
    refine iff_of_true ?_ settled
    exact ⟨job, member, path, conflict, output, rfl, rfl, ⟨rfl, rfl, rfl⟩, rfl, nofun⟩
  | ok receipt =>
    obtain ⟨notCut, captureId, content, taken, destination, ending, committed, rfl⟩ :=
      (jobResult_ok_iff output).mp result
    have elsewhere := commitDestination_ne_iff committed
    constructor
    · rintro ⟨other, otherMember, target, otherConflict, otherOutput, sameId, -, -, -, there⟩
        ⟨-, _, _, _, _, sameEnding, isFile, occupied, -⟩
      obtain rfl := onlyJob other otherMember sameId
      rw [output] at otherOutput isFile
      cases otherOutput
      cases isFile
      rw [ending] at sameEnding
      cases sameEnding
      apply elsewhere.mpr ⟨rfl, occupied⟩
      exact some.inj (there rfl)
    · intro settled
      refine ⟨job, member, path, conflict, output, rfl, rfl, ⟨rfl, rfl, rfl⟩, rfl, fun _ => ?_⟩
      by_contra differs
      have other : destination ≠ path := fun same => differs (congrArg some same)
      obtain ⟨rfl, occupied⟩ := elsewhere.mp other
      obtain ⟨chosen, bound, rfl, free⟩ := persistUnique_ok committed
      exact settled ⟨notCut, captureId, content, taken, path, ending, output, occupied, chosen,
        by omega, free⟩

variable [BatchDigest Url]

structure AcceptedManifest (request : BatchRequest Url) (manifest : ResumeManifest Url) :
    Prop where
  header : manifest.schemaVersion = schemaVersion ∧ manifest.kind = .batch ∧
    manifest.planSha256 = BatchDigest.jobsSha256 request.jobs
  accepted : validateBatchManifest manifest request = .ok ()

omit [Sha256] in
theorem batchStart_ok (valid : ResumableBatch request) (files : ArtifactFiles)
    {stored : Option (ResumeManifest Url)}
    (accepted : ∀ kept ∈ stored, AcceptedManifest request kept) :
    ∃ state, batchStart files request stored = .ok (refreshBatchPending request state) ∧
      Recorded request state ∧ ∀ entry ∈ state.manifest.jobs, RecordFits request entry := by
  obtain ⟨manifest, loaded, checked⟩ : ∃ manifest, loadOrCreateManifest
      (request.resume.map fun _ => stored) .batch (BatchDigest.jobsSha256 request.jobs)
      (request.jobs.map BatchJob.id) [] = .ok manifest ∧
      validateBatchManifest manifest request = .ok () := by
    obtain ⟨options, resume⟩ := isSome_iff_exists.mp valid.resumes
    rw [resume, map_some]
    cases stored with
    | none =>
      refine ⟨newManifest .batch (BatchDigest.jobsSha256 request.jobs)
        (request.jobs.map BatchJob.id) [], by simp [loadOrCreateManifest, newManifest], ?_⟩
      rw [valid.validateBatchManifest_iff]
      refine ⟨rfl, by simp [newManifest], ?_⟩
      simp [newManifest, expectedPending, OrderedMap.get?]
    | some kept =>
      obtain ⟨⟨schema, kind, plan⟩, passes⟩ := accepted kept rfl
      exact ⟨kept, by simp [loadOrCreateManifest, schema, kind, plan], passes⟩
  obtain ⟨frontier, fits, -⟩ := valid.validateBatchManifest_iff.mp checked
  obtain ⟨⟨outcomes, added, settled⟩, records, -, sameFrontier⟩ :=
    @foldl_resumeJob _ request.jobs _ files request.resume valid.distinct ⟨manifest, []⟩
  refine ⟨request.jobs.foldl (resumeJob files request.resume) ⟨manifest, []⟩, ?_, ?_, ?_⟩
  · simp [batchStart, valid.concurrency, valid.valid, loaded, valid.resumes, checked, bind,
      Except.bind, pure, Except.pure]
  · refine ⟨sameFrontier.trans frontier, ?_⟩
    rw [added]
    exact settled
  · exact fun entry member => fits entry (records entry member)

/-- Every manifest that a batch writes is accepted by its next run if and only if
no artifact of the run was displaced by a taken path. -/
theorem batch_accepted_iff (valid : ResumableBatch request) {stored : Option (ResumeManifest Url)}
    (accepted : ∀ kept ∈ stored, AcceptedManifest request kept) (closing : Option Closing)
    (courses : Nat → JobCourse) (files : ArtifactFiles) (completions : List Nat) :
    (∀ manifest ∈ (batch (batchCapture closing courses) files completions request stored).written,
      validateBatchManifest manifest request = .ok ()) ↔
    ∀ index ∈ completions, ∀ job, request.jobs[index]? = some job →
      ¬ Displaced closing (courses index) job := by
  obtain ⟨state, started, recorded, fits⟩ := batchStart_ok valid files accepted
  have first := (valid.accepts_iff recorded).mpr fits
  have loop := batchLoop_accepted_iff valid (id_batchCapture closing courses) completions
    recorded.refresh fits
  have perJob : (∀ index ∈ completions, ∀ job, request.jobs[index]? = some job →
      RecordFits request (job.id, recordFromOutcome (batchCapture closing courses index job))) ↔
      ∀ index ∈ completions, ∀ job, request.jobs[index]? = some job →
        ¬ Displaced closing (courses index) job := by
    constructor
    all_goals
      intro each index member job isJob
      have jobMember := List.mem_of_getElem? isJob
    · exact (recordFits_batchCapture valid jobMember).mp (each index member job isJob)
    · exact (recordFits_batchCapture valid jobMember).mpr (each index member job isJob)
  rw [← perJob, ← loop]
  simp only [batch, started, valid.resumes, ↓reduceIte, List.forall_mem_cons, first, true_and]

end Runs

section Results

variable [SchedulerEnvironment Url] {request : BatchRequest Url}
  {run : Nat → BatchJob Url → ScheduledCaptureOutcome Url} {completions : List Nat}

omit [SchedulerEnvironment Url] in
theorem getElem?_batchLoop {state : BatchState Url}
    (aligned : state.outcomes.length = request.jobs.length) (index : Nat) :
    (batchLoop request run state completions).2.outcomes[index]? =
      if index ∈ completions then request.jobs[index]?.map fun job => some (run index job)
      else state.outcomes[index]? := by
  induction completions generalizing state with
  | nil => simp [batchLoop]
  | cons first rest ih =>
    rw [batchLoop]
    cases isJob : request.jobs[first]? with
    | none =>
      rw [ih aligned]
      by_cases same : index = first <;> grind
    | some job =>
      have outcomes : (recordOutcome request state first (run first job)).outcomes =
          state.outcomes.set first (some (run first job)) := by
        unfold recordOutcome
        split <;> rfl
      dsimp only
      rw [ih (by rw [outcomes, length_set, aligned]), outcomes, getElem?_set]
      grind

theorem length_resumeJobs (files : ArtifactFiles) (resume : Option ResumeOptions)
    (jobs : List (BatchJob Url)) (state : BatchState Url) :
    (jobs.foldl (resumeJob files resume) state).outcomes.length =
      state.outcomes.length + jobs.length := by
  induction jobs generalizing state with
  | nil => rfl
  | cons job jobs ih =>
    obtain ⟨outcome, added, -⟩ := @outcome_resumeJob _ _ state files resume job
    rw [foldl_cons, ih, added, length_append, length_singleton, length_cons]
    omega

omit [SchedulerEnvironment Url] in
theorem mapM_terminalOutcome (outcomes : List (ScheduledCaptureOutcome Url)) (index : Nat) :
    ((outcomes.map some).zipIdx index).mapM terminalOutcome = .ok outcomes := by
  induction outcomes generalizing index with
  | nil => rfl
  | cons outcome outcomes ih =>
    rw [map_cons, zipIdx_cons, mapM_cons, ih]
    rfl

variable [BatchDigest Url]

end Results

section LocalBatch

attribute [local instance] zeroSha256

instance : BatchDigest LocalPage where
  jobsSha256 _ := .zero

/-- A batch of one page whose artifact gets a unique name if necessary. -/
def localBatch : BatchRequest LocalPage where
  jobs := [⟨"index", ⟨⟨"index"⟩, .file ⟨"pages", "index", some "html"⟩ .uniquify⟩⟩]
  concurrency := 1
  resume := some ⟨"batch.json", false⟩

theorem resumableBatch_localBatch : ResumableBatch localBatch :=
  ⟨rfl, rfl, rfl⟩

theorem ordered_atOnce : 0 ≤ 0 ∧ 0 ≤ 0 :=
  ⟨le_refl _, le_refl _⟩

/-- A capture that commits at once, when the given paths are taken. -/
def promptCourse (taken : TakenPaths) : JobCourse where
  polledAt := 0
  registeredAt := 0
  decidedAt := 0
  ordered := ordered_atOnce
  ending := .captured "capture" [] taken

theorem batch_accepted_localBatch :
    ResumableBatch localBatch ∧
    ∀ manifest ∈ (batch (batchCapture none fun _ => promptCourse fun _ => false) (fun _ => none)
      [0] localBatch none).written, validateBatchManifest manifest localBatch = .ok () := by
  refine ⟨resumableBatch_localBatch, ?_⟩
  apply (batch_accepted_iff resumableBatch_localBatch (by simp) none _ (fun _ => none) [0]).mpr
  rintro _ _ _ _ ⟨_, _, _, _, _, ending, _, occupied, _⟩
  cases ending
  cases occupied

/-- With `pages/index.html` taken the artifact becomes `pages/index-1.html`, and
the next run rejects the manifest. -/
theorem not_accepted_of_taken_path : ¬ ∀ manifest ∈ (batch (batchCapture none fun _ =>
        promptCourse fun path => path.stem == "index") (fun _ => none) [0] localBatch
        none).written, validateBatchManifest manifest localBatch = .ok () := by
  intro accepted
  have rejected := accepted _ (List.mem_cons_of_mem _ List.mem_cons_self)
  cases rejected

end LocalBatch

end Offprint.Scheduler
