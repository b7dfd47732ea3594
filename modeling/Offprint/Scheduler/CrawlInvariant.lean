import Offprint.Scheduler.CrawlPages

/-!
# The crawl invariant

A manifest of a crawl is well formed: its pages are admitted, its records are
those of captures of their pages, its frontier is sorted and listed as pending.
The start of a crawl establishes this and visiting a page keeps it, whatever
the page answers.
-/

namespace Offprint.Scheduler

open Data Model OrderedMap List

variable {Url : Type} [PageUrl Url] {jobs : OrderedMap String (ResumeJobRecord Url)}
  {item : CrawlFrontierItem Url}

/-! ## Manifests -/

def jobPages (jobs : OrderedMap String (ResumeJobRecord Url)) : List (CrawlFrontierItem Url) :=
  jobs.filterMap fun job => job.2.item?

def manifestPages (manifest : ResumeManifest Url) : List (CrawlFrontierItem Url) :=
  manifest.frontier ++ jobPages manifest.jobs

omit [PageUrl Url] in
theorem jobPages_insert {id : String} {record : ResumeJobRecord Url} (fresh : id ∉ jobs.keys)
    (page : record.item? = some item) :
    (jobPages (OrderedMap.insert id record jobs)).Perm (item :: jobPages jobs) := by
  apply ((insert_perm record fresh).filterMap fun job => job.2.item?).trans
  simp [jobPages, page]

def withoutPage (item : CrawlFrontierItem Url) (frontier : List (CrawlFrontierItem Url)) :
    List (CrawlFrontierItem Url) :=
  frontier.filter fun pending =>
    PageUrl.asStr pending.url ≠ PageUrl.asStr item.url ∨ pending.depth ≠ item.depth ∨
      pending.ordinal ≠ item.ordinal

theorem withoutPage_eq_self {frontier : List (CrawlFrontierItem Url)}
    (absent : pageText item ∉ frontier.map pageText) : withoutPage item frontier = frontier := by
  apply filter_eq_self.mpr
  intro pending member
  have differs : PageUrl.asStr pending.url ≠ PageUrl.asStr item.url := by
    intro same
    exact absent (mem_map.mpr ⟨pending, member, same⟩)
  simp [differs]

theorem withoutPage_append_cons {before after : List (CrawlFrontierItem Url)}
    (distinct : ((before ++ item :: after).map pageText).Nodup) :
    withoutPage item (before ++ item :: after) = before ++ after := by
  rw [map_append, map_cons, nodup_middle, nodup_cons, ← map_append,
    map_append, mem_append, not_or] at distinct
  have kept := withoutPage_eq_self distinct.1.1
  have keptAfter := withoutPage_eq_self distinct.1.2
  rw [withoutPage] at kept keptAfter ⊢
  rw [filter_append, filter_cons_of_neg (by simp), kept, keptAfter]

section WellFormed

def Captured (site : Site Url) (url : Url) : Prop :=
  ∃ artifact, site.capture url = .ok artifact

/-- The links that a crawl follows from a page. -/
def pageLinks (site : Site Url) (request : CrawlRequest Url) (url : Url) : List Url :=
  match site.links url with
  | .ok resolved => crawlLinks request resolved
  | .error _ => []

variable [SchedulerEnvironment Url] [Sha256] {request : CrawlRequest Url}
  {manifest : ResumeManifest Url}

structure RecordOf (request : CrawlRequest Url) (item : CrawlFrontierItem Url)
    (job : String × ResumeJobRecord Url) : Prop where
  page : job.2.item? = some item
  id : job.1 = pageText item
  terminal : validateTerminalRecord job.2 = .ok ()
  digest : job.2.requestSha256 =
    SchedulerEnvironment.requestSha256 (crawlCaptureRequest request item)
  path : job.2.status = .succeeded → job.2.artifactPath = some (crawlOutputPath request item)

def crawlPlan (request : CrawlRequest Url) : ContentDigest :=
  SchedulerEnvironment.crawlPlanSha256 request.seed request.outputDirectory
    request.maximumPages request.maximumDepth request.sameOrigin

structure WellFormed (request : CrawlRequest Url) (manifest : ResumeManifest Url) : Prop where
  header : manifest.schemaVersion = schemaVersion ∧ manifest.kind = .crawl ∧
    manifest.planSha256 = crawlPlan request
  admitted : Admitted request (manifestPages manifest)
  records : ∀ job ∈ manifest.jobs, ∃ item, RecordOf request item job
  sorted : manifest.frontier.Pairwise fun left right => frontierKey left ≤ frontierKey right
  pending : manifest.pending = manifest.frontier.map pageText

structure Sound (request : CrawlRequest Url) (state : CrawlState Url) : Prop where
  manifest : WellFormed request state.manifest
  seen : state.seen = seenTexts (manifestPages state.manifest)

theorem WellFormed.key_fresh (wellFormed : WellFormed request manifest)
    (member : item ∈ manifest.frontier) : pageText item ∉ manifest.jobs.keys := by
  intro recorded
  obtain ⟨record, entry⟩ := mem_keys.mp recorded
  obtain ⟨page, recordOf⟩ := wellFormed.records _ entry
  have distinct := wellFormed.admitted.urls
  rw [manifestPages, map_append, nodup_append] at distinct
  have pageMember : page ∈ jobPages manifest.jobs :=
    mem_filterMap.mpr ⟨_, entry, recordOf.page⟩
  apply distinct.2.2 (pageText item) (mem_map_of_mem member) (pageText page)
    (mem_map_of_mem pageMember)
  exact recordOf.id

theorem length_jobPages (records : ∀ job ∈ jobs, ∃ item, RecordOf request item job) :
    (jobPages jobs).length = jobs.length := by
  induction jobs with
  | nil => rfl
  | cons job rest ih =>
    obtain ⟨item, recordOf⟩ := records job mem_cons_self
    have restLength := ih fun other member =>
      records other (mem_cons_of_mem _ member)
    simp only [jobPages, filterMap_cons, recordOf.page, length_cons] at restLength ⊢
    rw [restLength]

/-! ## Visiting a page -/

variable (site : Site Url)

def visit (request : CrawlRequest Url) (state : CrawlState Url) (item : CrawlFrontierItem Url) :
    Except OffprintError (CrawlState Url) :=
  recordPage site request state item (runCrawlJob site request item)

def pageRecord (request : CrawlRequest Url) (item : CrawlFrontierItem Url) : ResumeJobRecord Url :=
  { recordFromOutcome (runCrawlJob site request item) with
    url := some item.url, depth := some item.depth, ordinal := some item.ordinal }

theorem recordOf_pageRecord (request : CrawlRequest Url) (item : CrawlFrontierItem Url) :
    RecordOf request item (pageText item, pageRecord site request item) := by
  unfold pageRecord runCrawlJob
  cases site.capture item.url with
  | ok artifact => exact ⟨rfl, rfl, rfl, rfl, fun _ => rfl⟩
  | error failure => exact ⟨rfl, rfl, rfl, rfl, nofun⟩

/-- What a visit does: the page moves to the records, and pages one level
deeper join the frontier. -/
structure Visited (site : Site Url) (request : CrawlRequest Url) (state : CrawlState Url)
    (item : CrawlFrontierItem Url) (new : List (CrawlFrontierItem Url)) (next : CrawlState Url) :
    Prop where
  frontier : next.manifest.frontier =
    sortFrontier (withoutPage item state.manifest.frontier ++ new)
  jobs : next.manifest.jobs =
    OrderedMap.insert (pageText item) (pageRecord site request item) state.manifest.jobs
  header : next.manifest.schemaVersion = state.manifest.schemaVersion ∧
    next.manifest.kind = state.manifest.kind ∧
    next.manifest.planSha256 = state.manifest.planSha256
  pending : next.manifest.pending = next.manifest.frontier.map pageText
  seen : next.seen = seenTexts (manifestPages state.manifest ++ new)
  fresh : next.freshOutcomes =
    OrderedMap.insert (pageText item) (runCrawlJob site request item) state.freshOutcomes
  admitted : Admitted request (manifestPages state.manifest ++ new)
  deeper : ∀ page ∈ new, page.depth = item.depth + 1
  link : ∀ page ∈ new, Captured site item.url ∧ page.url ∈ pageLinks site request item.url
  complete : Captured site item.url → item.depth < request.maximumDepth →
    ∀ link ∈ pageLinks site request item.url,
      PageUrl.asStr link ∈ seenTexts (manifestPages state.manifest ++ new) ∨
        (manifestPages state.manifest ++ new).length = request.maximumPages

/-- The state behind a visit that found the given pages. -/
def afterVisit (request : CrawlRequest Url) (state : CrawlState Url) (item : CrawlFrontierItem Url)
    (frontier : List (CrawlFrontierItem Url)) (seen : Finset String) : CrawlState Url where
  manifest := persistCrawlPending
    { state.manifest with
      jobs := OrderedMap.insert (pageText item) (pageRecord site request item)
        state.manifest.jobs
      frontier := sortFrontier frontier }
  seen := seen
  freshOutcomes :=
    OrderedMap.insert (pageText item) (runCrawlJob site request item) state.freshOutcomes

variable {site : Site Url} {state next : CrawlState Url}
  {item : CrawlFrontierItem Url} {new : List (CrawlFrontierItem Url)}

theorem visit_eq_of_barren
    (barren : ¬ (Captured site item.url ∧ item.depth < request.maximumDepth)) :
    visit site request state item = .ok (afterVisit site request state item
      (withoutPage item state.manifest.frontier) state.seen) := by
  unfold visit recordPage
  cases captured : site.capture item.url with
  | error failure =>
    simp only [runCrawlJob, captured]
    simp [afterVisit, pageRecord, runCrawlJob, captured, withoutPage, pageText]
    rfl
  | ok artifact =>
    have shallow : ¬ item.depth < request.maximumDepth :=
      fun deep => barren ⟨⟨artifact, captured⟩, deep⟩
    simp only [runCrawlJob, captured]
    simp [shallow, afterVisit, pageRecord, runCrawlJob, captured, withoutPage, pageText]
    rfl

theorem visit_eq_of_fertile (captured : Captured site item.url)
    (deep : item.depth < request.maximumDepth) :
    visit site request state item =
      (site.links item.url).map fun resolved =>
        let (frontier, seen) := admitLinks request item.depth (crawlLinks request resolved)
          (withoutPage item state.manifest.frontier) state.seen
        afterVisit site request state item frontier seen := by
  obtain ⟨artifact, captured⟩ := captured
  unfold visit recordPage
  simp only [runCrawlJob, captured]
  cases links : site.links item.url with
  | error failure => simp [deep, Except.map, bind, Except.bind]
  | ok resolved =>
    simp [deep, Except.map, bind, Except.bind]
    simp [afterVisit, pageRecord, runCrawlJob, captured, withoutPage, pageText]
    rfl

theorem visit_cases [LawfulPageUrl Url] (site : Site Url) (sound : Sound request state)
    (item : CrawlFrontierItem Url) :
    (∃ error, visit site request state item = .error error ∧ Captured site item.url ∧
      site.links item.url = .error error) ∨
    ∃ new next, visit site request state item = .ok next ∧
      Visited site request state item new next := by
  by_cases fertile : Captured site item.url ∧ item.depth < request.maximumDepth
  · obtain ⟨captured, deep⟩ := fertile
    rw [visit_eq_of_fertile captured deep]
    cases links : site.links item.url with
    | error failure => exact .inl ⟨failure, rfl, captured, rfl⟩
    | ok resolved =>
      apply Or.inr
      have pageLinks_eq : pageLinks site request item.url = crawlLinks request resolved := by
        simp [pageLinks, links]
      obtain ⟨new, result, admits⟩ := @admitLinks_spec _ _ request item.depth deep
        (crawlLinks request resolved) (fun link member => visitable_of_mem_crawlLinks member)
        (manifestPages state.manifest) (withoutPage item state.manifest.frontier)
        sound.manifest.admitted
      rw [← sound.seen] at result
      refine ⟨new, afterVisit site request state item
        (withoutPage item state.manifest.frontier ++ new)
        (seenTexts (manifestPages state.manifest ++ new)), ?_, ?_⟩
      · simp only [Except.map, result]
      refine ⟨rfl, rfl, ⟨rfl, rfl, rfl⟩, rfl, rfl, rfl, admits.admitted, admits.depth, ?_, ?_⟩
      · rw [pageLinks_eq]
        exact fun page member => ⟨captured, admits.link page member⟩
      · rw [pageLinks_eq]
        exact fun _ _ => admits.complete
  · apply Or.inr
    refine ⟨[], _, visit_eq_of_barren fertile, ?_⟩
    rw [sound.seen]
    refine ⟨congrArg sortFrontier (append_nil _).symm, rfl, ⟨rfl, rfl, rfl⟩, rfl,
      congrArg seenTexts (append_nil _).symm, rfl, ?_, by simp, by simp, ?_⟩
    · simpa using sound.manifest.admitted
    · exact fun captured deep => absurd ⟨captured, deep⟩ fertile

/-! ## What a visit keeps -/

section Visit

omit [SchedulerEnvironment Url] [Sha256] in
theorem sortFrontier_perm (frontier : List (CrawlFrontierItem Url)) :
    (sortFrontier frontier).Perm frontier :=
  perm_insertionSort _ _

theorem WellFormed.frontier_perm (wellFormed : WellFormed request manifest)
    (member : item ∈ manifest.frontier) :
    manifest.frontier.Perm (item :: withoutPage item manifest.frontier) := by
  obtain ⟨before, after, split⟩ := append_of_mem member
  have distinct := wellFormed.admitted.urls
  rw [manifestPages, map_append, nodup_append, split] at distinct
  rw [split, withoutPage_append_cons distinct.1]
  exact perm_middle

section

variable (visited : Visited site request state item new next)
include visited

theorem Visited.pages_perm
    (wellFormed : WellFormed request state.manifest) (member : item ∈ state.manifest.frontier) :
    (manifestPages next.manifest).Perm (manifestPages state.manifest ++ new) := by
  have jobs := jobPages_insert (wellFormed.key_fresh member)
    (recordOf_pageRecord site request item).page
  rw [manifestPages, visited.frontier, visited.jobs]
  apply ((sortFrontier_perm _).append jobs).trans
  have moved : (withoutPage item state.manifest.frontier ++ new ++
      item :: jobPages state.manifest.jobs).Perm
        (item :: withoutPage item state.manifest.frontier ++
          (jobPages state.manifest.jobs ++ new)) := by
    apply perm_middle.trans
    simp only [cons_append, append_assoc]
    exact List.Perm.cons _ (List.Perm.append_left _ perm_append_comm)
  apply moved.trans
  rw [manifestPages, append_assoc]
  exact (wellFormed.frontier_perm member).symm.append_right _

theorem Visited.sound (sound : Sound request state) (member : item ∈ state.manifest.frontier) :
    Sound request next := by
  have perm := visited.pages_perm sound.manifest member
  have header := sound.manifest.header
  rw [← visited.header.1, ← visited.header.2.1, ← visited.header.2.2] at header
  refine ⟨⟨header, visited.admitted.of_perm perm.symm, ?_, ?_, visited.pending⟩, ?_⟩
  · intro job jobMember
    rw [visited.jobs] at jobMember
    rcases mem_of_mem_insert jobMember with rfl | old
    · exact ⟨item, recordOf_pageRecord site request item⟩
    · exact sound.manifest.records job old
  · rw [visited.frontier]
    exact pairwise_insertionSort _ _
  · rw [visited.seen, seenTexts, seenTexts]
    exact (toFinset_eq_of_perm _ _ (perm.map pageText)).symm

theorem Visited.length_jobs
    (wellFormed : WellFormed request state.manifest) (member : item ∈ state.manifest.frontier) :
    next.manifest.jobs.length = state.manifest.jobs.length + 1 := by
  rw [visited.jobs, (insert_perm _ (wellFormed.key_fresh member)).length_eq,
    length_cons]

end

end Visit

end WellFormed
end Offprint.Scheduler
