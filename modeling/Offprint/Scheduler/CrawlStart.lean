import Offprint.Effect.Checked
import Offprint.Scheduler.CrawlInvariant

/-!
# Resuming a well formed manifest

A well formed manifest passes the checks of a resumed crawl, and putting pages
back into the frontier keeps it well formed, whichever records are retried.
-/

namespace Offprint.Scheduler

open Data Model PageUrl List CrawlFrontierItem

variable {Url : Type} [PageUrl Url] {pages before items : List (CrawlFrontierItem Url)}
  {request : CrawlRequest Url} {item : CrawlFrontierItem Url}

/-! ## Validation -/

def metCoordinates (pages : List (CrawlFrontierItem Url)) : MetCoordinates :=
  (seenTexts pages, (pages.map ordinal).toFinset)

theorem validateCrawlCoordinates_ok (admitted : Admitted request pages) (member : item ∈ pages)
    (newUrl : pageText item ∉ before.map pageText)
    (newOrdinal : item.ordinal ∉ before.map ordinal) :
    validateCrawlCoordinates request (crawlRoot request) (metCoordinates before) item =
      .ok (metCoordinates (before ++ [item])) := by
  obtain ⟨http, noFragment, origin⟩ := admitted.visitable item member
  have depth := admitted.depth item member
  have ordinal := lt_of_lt_of_le (admitted.ordinal_lt member) admitted.limit
  have seedOnly : ¬ ((item.depth = 0 ∨ item.ordinal = 0 ∨
      asStr item.url = asStr (crawlRoot request)) ∧
      (¬ asStr item.url = asStr (crawlRoot request) ∨
        item.depth ≠ 0 ∨ item.ordinal ≠ 0)) := by
    rintro ⟨like, unlike⟩
    have coordinates : asStr item.url = asStr (crawlRoot request) ∧
        item.depth = 0 ∧ item.ordinal = 0 := by
      rcases like with zero | zero | same
      · exact admitted.onlySeed item member (.inl zero)
      · exact admitted.onlySeed item member (.inr zero)
      · exact ⟨same, admitted.seed_of_pageText member same⟩
    rcases unlike with other | other | other
    · exact other coordinates.1
    · exact other coordinates.2.1
    · exact other coordinates.2.2
  have outside : (request.sameOrigin && !sameOrigin item.url request.seed.url) = false := by
    cases restricted : request.sameOrigin with
    | false => rfl
    | true => simp [origin restricted]
  have met : metCoordinates (before ++ [item]) =
      (insert (asStr item.url) (metCoordinates before).1,
        insert item.ordinal (metCoordinates before).2) := by
    simp [metCoordinates, seenTexts_append_singleton, pageText, toFinset_append,
      Finset.union_comm]
  have urlMet : asStr item.url ∉ (metCoordinates before).1 :=
    fun known => newUrl (mem_toFinset.mp known)
  have ordinalMet : item.ordinal ∉ (metCoordinates before).2 := by
    simpa [metCoordinates] using newOrdinal
  rw [met]
  unfold validateCrawlCoordinates
  simp only [http, noFragment, outside, seedOnly, Nat.not_lt.mpr depth, Nat.not_le.mpr ordinal,
    urlMet, ordinalMet, Bool.not_true, Option.isSome_none, Bool.or_self, Bool.false_eq_true,
    if_false]
  rfl

theorem foldlM_validateCrawlCoordinates (admitted : Admitted request pages)
    (part : ∀ item ∈ items, item ∈ pages) (urls : ((before ++ items).map pageText).Nodup)
    (ordinals : ((before ++ items).map ordinal).Nodup) :
    items.foldlM (validateCrawlCoordinates request (crawlRoot request)) (metCoordinates before) =
      .ok (metCoordinates (before ++ items)) := by
  induction items generalizing before with
  | nil => simp [pure, Except.pure]
  | cons item rest ih =>
    have newUrl : pageText item ∉ before.map pageText := by
      rw [map_append, nodup_append] at urls
      intro known
      exact urls.2.2 _ known _ mem_cons_self rfl
    have newOrdinal : item.ordinal ∉ before.map ordinal := by
      rw [map_append, nodup_append] at ordinals
      intro known
      exact ordinals.2.2 _ known _ mem_cons_self rfl
    have regroup : before ++ item :: rest = before ++ [item] ++ rest := by simp
    rw [regroup] at urls ordinals ⊢
    rw [foldlM_cons, validateCrawlCoordinates_ok admitted (part item mem_cons_self)
      newUrl newOrdinal]
    exact ih (fun other member => part other (mem_cons_of_mem _ member))
      urls ordinals

section Validation

variable [SchedulerEnvironment Url] [Sha256]

theorem RecordOf.validateCrawlJob_eq {job : String × ResumeJobRecord Url}
    (recordOf : RecordOf request item job) (root : Url) (met : MetCoordinates) :
    validateCrawlJob request root met job = validateCrawlCoordinates request root met item := by
  obtain ⟨id, record⟩ := job
  obtain ⟨page, sameId, terminal, digest, path⟩ := recordOf
  have artifact : ¬ (record.status = .succeeded ∧
      record.artifactPath ≠ some (crawlOutputPath request item)) :=
    fun wrong => wrong.2 (path wrong.1)
  have named : ¬ (id ≠ asStr item.url) := fun differs => differs sameId
  have requested : ¬ (record.requestSha256 ≠
      SchedulerEnvironment.requestSha256 (crawlCaptureRequest request item)) :=
    fun differs => differs digest
  simp only [validateCrawlJob, jobPage, page, terminal, Except.mapError, bind, Except.bind, pure,
    Except.pure, if_neg artifact, if_neg named, if_neg requested]
  cases validateCrawlCoordinates request root met item <;> rfl

theorem foldlM_validateCrawlJob (root : Url) {jobs : OrderedMap String (ResumeJobRecord Url)}
    (records : ∀ job ∈ jobs, ∃ item, RecordOf request item job) (met : MetCoordinates) :
    jobs.foldlM (validateCrawlJob request root) met =
      (jobPages jobs).foldlM (validateCrawlCoordinates request root) met := by
  induction jobs generalizing met with
  | nil => rfl
  | cons job rest ih =>
    obtain ⟨item, recordOf⟩ := records job mem_cons_self
    have restRecords := fun other member => records other (mem_cons_of_mem job member)
    have pages : jobPages (job :: rest) = item :: jobPages rest := by
      simp [jobPages, recordOf.page]
    rw [pages, foldlM_cons, foldlM_cons, recordOf.validateCrawlJob_eq]
    congr 1
    funext met
    exact ih restRecords met

theorem WellFormed.validateCrawlManifest_eq
    {manifest : ResumeManifest Url} (wellFormed : WellFormed request manifest) :
    validateCrawlManifest manifest request = .ok () := by
  have admitted : Admitted request (jobPages manifest.jobs ++ manifest.frontier) :=
    wellFormed.admitted.of_perm perm_append_comm
  have ordinals : ((jobPages manifest.jobs ++ manifest.frontier).map
      ordinal).Nodup :=
    admitted.ordinals.nodup_iff.mpr nodup_range
  have limit : ¬ request.maximumPages < manifest.jobs.length + manifest.frontier.length := by
    have bound := admitted.limit
    rw [length_append, length_jobPages wellFormed.records] at bound
    omega
  have jobs : manifest.jobs.foldlM (validateCrawlJob request (crawlRoot request)) (∅, ∅) =
      .ok (metCoordinates (jobPages manifest.jobs)) := by
    rw [foldlM_validateCrawlJob _ wellFormed.records]
    have urls := admitted.urls
    rw [map_append, nodup_append] at urls ordinals
    exact @foldlM_validateCrawlCoordinates _ _ _ [] _ request admitted
      (fun item member => mem_append_left _ member) urls.1 ordinals.1
  have frontier := foldlM_validateCrawlCoordinates admitted
    (fun item member => mem_append_right (jobPages manifest.jobs) member)
    admitted.urls ordinals
  have seed : ¬ (0 ∉ (metCoordinates (jobPages manifest.jobs ++ manifest.frontier)).2) := by
    simp only [metCoordinates, mem_toFinset, not_not, mem_map]
    exact ⟨_, admitted.seed, rfl⟩
  have pending : ¬ (manifest.pending ≠
      manifest.frontier.map fun item => asStr item.url) :=
    fun differs => differs wellFormed.pending
  have root : withoutFragment request.seed.url = crawlRoot request := rfl
  simp only [validateCrawlManifest, root, if_neg limit, jobs, frontier, if_neg seed,
    if_neg pending, bind, Except.bind, pure, Except.pure]

end Validation

/-! ## Putting pages back -/

theorem dedupUrls_eq_self (distinct : (items.map pageText).Nodup) : dedupUrls items = items := by
  induction items with
  | nil => rfl
  | cons item rest ih =>
    rw [map_cons, nodup_cons] at distinct
    rw [dedupUrls, ih distinct.2]
    cases rest with
    | nil => rfl
    | cons next others =>
      have differs : asStr item.url ≠ asStr next.url :=
        fun same => distinct.1 (mem_map.mpr ⟨next, mem_cons_self, same.symm⟩)
      simp [differs]

omit [PageUrl Url] in
theorem jobPages_filter_perm (jobs : OrderedMap String (ResumeJobRecord Url))
    (chosen : String × ResumeJobRecord Url → Bool) :
    (jobPages (jobs.filter chosen) ++ jobPages (jobs.filter fun job => !chosen job)).Perm
      (jobPages jobs) := by
  unfold jobPages
  rw [← filterMap_append]
  exact (filter_append_perm chosen jobs).filterMap _

section Resume

omit [PageUrl Url] in
theorem bounds_of_validateCrawlRequest (valid : validateCrawlRequest request = .ok ()) :
    (0 < request.concurrency ∧ request.concurrency ≤ maximumConcurrency) ∧
      0 < request.maximumPages := by
  unfold validateCrawlRequest validateConcurrency at valid
  by_cases outside : request.concurrency = 0 ∨ maximumConcurrency < request.concurrency
  · rw [if_pos outside] at valid
    cases valid
  · rw [if_neg outside] at valid
    by_cases none : request.maximumPages = 0
    · simp only [none, ↓reduceIte] at valid
      cases valid
    · omega

variable [SchedulerEnvironment Url] [Sha256] {manifest : ResumeManifest Url}
  {jobs : OrderedMap String (ResumeJobRecord Url)} {stored : Option (ResumeManifest Url)}

omit [PageUrl Url] [SchedulerEnvironment Url] [Sha256] in
theorem mapM_jobPage (located : ∀ job ∈ jobs, ∃ item, job.2.item? = some item) :
    jobs.mapM jobPage = .ok (jobPages jobs) := by
  apply Effect.Verdict.mapM_eq_filterMap
  intro job member
  obtain ⟨item, page⟩ := located job member
  exact ⟨item, by rw [jobPage, page], page⟩

/-- The manifest behind a resumption: retried records are pages again. -/
def requeued (files : ArtifactFiles) (request : CrawlRequest Url)
    (manifest : ResumeManifest Url) : ResumeManifest Url :=
  let chosen := fun job : String × ResumeJobRecord Url =>
    retries files (request.resume.any ResumeOptions.retryFailed) job.2
  persistCrawlPending { manifest with
    jobs := manifest.jobs.filter fun job => !chosen job
    frontier := sortFrontier (manifest.frontier ++ jobPages (manifest.jobs.filter chosen)) }

omit [SchedulerEnvironment Url] [Sha256] in
theorem pages_requeued (files : ArtifactFiles) (request : CrawlRequest Url)
    (manifest : ResumeManifest Url) :
    (manifestPages (requeued files request manifest)).Perm (manifestPages manifest) := by
  unfold manifestPages requeued persistCrawlPending
  apply ((sortFrontier_perm _).append_right _).trans
  rw [append_assoc]
  exact (jobPages_filter_perm manifest.jobs _).append_left _

section

variable (wellFormed : WellFormed request manifest) (files : ArtifactFiles)
include wellFormed

theorem WellFormed.requeue : WellFormed request (requeued files request manifest) where
  header := wellFormed.header
  admitted := wellFormed.admitted.of_perm (pages_requeued files request manifest).symm
  records := fun job member => wellFormed.records job (mem_of_mem_filter member)
  sorted := List.pairwise_insertionSort _ _
  pending := rfl

theorem WellFormed.refresh_eq :
    (refreshCrawlResumeState files request manifest).map persistCrawlPending =
      .ok (requeued files request manifest) := by
  have located : ∀ job ∈ manifest.jobs.filter fun job =>
      retries files (request.resume.any ResumeOptions.retryFailed) job.2,
      ∃ item, job.2.item? = some item := by
    intro job member
    obtain ⟨item, recordOf⟩ := wellFormed.records job (mem_of_mem_filter member)
    exact ⟨item, recordOf.page⟩
  have distinct := (wellFormed.requeue files).admitted.urls
  rw [manifestPages, map_append, nodup_append] at distinct
  simp only [refreshCrawlResumeState, mapM_jobPage located, bind, Except.bind, pure, Except.pure,
    Except.map, requeued]
  have kept := dedupUrls_eq_self distinct.1
  simp only [requeued, persistCrawlPending] at kept
  rw [kept]

end

omit [SchedulerEnvironment Url] [Sha256] in
theorem mapM_jobUrl (located : ∀ job ∈ jobs, ∃ item, job.2.item? = some item) :
    jobs.mapM jobUrl = .ok ((jobPages jobs).map pageText) := by
  rw [jobPages, map_filterMap]
  apply Effect.Verdict.mapM_eq_filterMap
  intro job member
  obtain ⟨item, page⟩ := located job member
  have url : job.2.url = some item.url := by
    unfold ResumeJobRecord.item? at page
    split at page
    · cases page
      assumption
    · cases page
  exact ⟨pageText item, by rw [jobUrl, url]; rfl, by rw [page]; rfl⟩

theorem WellFormed.crawlSeenUrls_eq (wellFormed : WellFormed request manifest) :
    crawlSeenUrls manifest = .ok (seenTexts (manifestPages manifest)) := by
  have located : ∀ job ∈ manifest.jobs, ∃ item, job.2.item? = some item := by
    intro job member
    obtain ⟨item, recordOf⟩ := wellFormed.records job member
    exact ⟨item, recordOf.page⟩
  simp only [crawlSeenUrls, mapM_jobUrl located, bind, Except.bind, pure, Except.pure,
    manifestPages, seenTexts, map_append, toFinset_append]
  rfl

/-! ## The start -/

structure Startable (request : CrawlRequest Url) : Prop where
  valid : validateCrawlRequest request = .ok ()
  http : PageUrl.isHttp request.seed.url = true

/-- The manifest of a crawl that has only its seed. -/
def seedManifest (request : CrawlRequest Url) : ResumeManifest Url :=
  newManifest .crawl (crawlPlan request) [PageUrl.asStr (crawlRoot request)]
    [⟨crawlRoot request, 0, 0⟩]

theorem wellFormed_seedManifest [LawfulPageUrl Url] (startable : Startable request) :
    WellFormed request (seedManifest request) where
  header := ⟨rfl, rfl, rfl⟩
  admitted := admitted_seed startable.http (bounds_of_validateCrawlRequest startable.valid).2
  records := by
    intro job member
    cases member
  sorted := pairwise_singleton _ _
  pending := rfl

def startManifest (request : CrawlRequest Url) (stored : Option (ResumeManifest Url)) :
    ResumeManifest Url :=
  match request.resume, stored with
  | some _, some kept => kept
  | _, _ => seedManifest request

theorem wellFormed_startManifest [LawfulPageUrl Url] (startable : Startable request)
    (wellFormed : ∀ kept ∈ stored, WellFormed request kept) :
    WellFormed request (startManifest request stored) := by
  unfold startManifest
  split
  · exact wellFormed _ rfl
  · exact wellFormed_seedManifest startable

theorem loadOrCreateManifest_eq (wellFormed : ∀ kept ∈ stored, WellFormed request kept) :
    loadOrCreateManifest (request.resume.map fun _ => stored) .crawl (crawlPlan request)
        [asStr (crawlRoot request)] [⟨crawlRoot request, 0, 0⟩] =
      .ok (startManifest request stored) := by
  unfold startManifest
  cases request.resume with
  | none => rfl
  | some options =>
    cases stored with
    | none => simp [loadOrCreateManifest, newManifest, seedManifest]
    | some kept =>
      obtain ⟨⟨schema, kind, plan⟩, admitted, records, -, -⟩ := wellFormed kept rfl
      have nonempty : (kept.frontier.isEmpty && kept.jobs.isEmpty) = false := by
        have some := ne_nil_of_mem admitted.seed
        cases frontier : kept.frontier with
        | cons item rest => rfl
        | nil =>
          cases jobs : kept.jobs with
          | cons job rest => rfl
          | nil => simp [manifestPages, frontier, jobs, jobPages] at some
      simp [loadOrCreateManifest, schema, kind, plan, nonempty]

/-- The state of a crawl behind its first written manifest. -/
def startState (files : ArtifactFiles) (request : CrawlRequest Url)
    (stored : Option (ResumeManifest Url)) : CrawlState Url :=
  let manifest := requeued files request (startManifest request stored)
  ⟨manifest, seenTexts (manifestPages manifest), []⟩

def seedState (request : CrawlRequest Url) : CrawlState Url :=
  ⟨seedManifest request, seenTexts (manifestPages (seedManifest request)), []⟩

omit [Sha256] in
theorem startState_none (files : ArtifactFiles) (request : CrawlRequest Url) :
    startState files request none = seedState request := by
  have started : startManifest request none = seedManifest request := by
    unfold startManifest
    cases request.resume <;> rfl
  rw [startState, started]
  rfl

variable (startable : Startable request) (files : ArtifactFiles)
  (wellFormed : ∀ kept ∈ stored, WellFormed request kept)
include startable wellFormed

theorem crawlStart_eq [LawfulPageUrl Url] :
    crawlStart files request stored = .ok (startState files request stored) := by
  have started := wellFormed_startManifest startable wellFormed
  have root : normalizedPageUrl request.seed.url = .ok (crawlRoot request) := by
    simp [normalizedPageUrl, startable.http, crawlRoot]
  have loaded := loadOrCreateManifest_eq wellFormed
  have refreshed := started.refresh_eq files
  have seen := (started.requeue files).crawlSeenUrls_eq
  unfold crawlStart
  rw [startable.valid, root]
  simp only [bind, Except.bind, pure, Except.pure]
  rw [← crawlPlan, loaded]
  simp only [started.validateCrawlManifest_eq]
  cases refresh : refreshCrawlResumeState files request (startManifest request stored) with
  | error failure =>
    rw [refresh] at refreshed
    cases refreshed
  | ok manifest =>
    rw [refresh] at refreshed
    have same : persistCrawlPending manifest =
        requeued files request (startManifest request stored) := by
      simpa [Except.map] using refreshed
    simp only [same, seen]
    rfl

theorem sound_startState [LawfulPageUrl Url] : Sound request (startState files request stored) :=
  ⟨(wellFormed_startManifest startable wellFormed).requeue files, rfl⟩

end Resume

end Offprint.Scheduler
