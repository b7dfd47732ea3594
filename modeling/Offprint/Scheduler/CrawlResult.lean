import Offprint.Scheduler.CrawlRuns

/-!
# Results of a crawl

The outcomes of a crawl depend on the site and on the plan alone: not on the
concurrency, not on the order in which captures complete, and not on where the
crawl was killed and resumed.
-/

namespace Offprint.Scheduler

open Data Model List

variable {Url : Type} {freshOutcomes : OrderedMap String (ScheduledCaptureOutcome Url)}
  {job : String × ResumeJobRecord Url} {state : CrawlState Url}

/-! ## Outcomes of a final state -/

/-- The outcome of a record, if the record has all its coordinates. -/
def jobOutcome (freshOutcomes : OrderedMap String (ScheduledCaptureOutcome Url))
    (job : String × ResumeJobRecord Url) : Option (CrawlPageOutcome Url) :=
  job.2.item?.map fun item =>
    ⟨item.url, item.depth, item.ordinal, (freshOutcomes.get? job.1).getD (.resumed job.1 job.2)⟩

/-- What is observed of an outcome: the page with its coordinates, and whether
its capture succeeded. -/
def CrawlPageOutcome.summary (outcome : CrawlPageOutcome Url) : Url × Nat × Nat × Bool :=
  (outcome.url, outcome.depth, outcome.ordinal, outcome.capture.isSuccess)

def jobSummary (job : String × ResumeJobRecord Url) : Option (Url × Nat × Nat × Bool) :=
  job.2.item?.map fun item => (item.url, item.depth, item.ordinal, job.2.status == .succeeded)

theorem crawlOutcome_eq {item : CrawlFrontierItem Url} (page : job.2.item? = some item) :
    crawlOutcome freshOutcomes job = .ok ⟨item.url, item.depth, item.ordinal,
      (freshOutcomes.get? job.1).getD (.resumed job.1 job.2)⟩ := by
  unfold ResumeJobRecord.item? at page
  split at page
  · rename_i url depth ordinal hasUrl hasDepth hasOrdinal
    cases page
    simp [crawlOutcome, hasUrl, hasDepth, hasOrdinal]
    rfl
  · cases page

theorem mapM_crawlOutcome {jobs : OrderedMap String (ResumeJobRecord Url)}
    (located : ∀ job ∈ jobs, ∃ item, job.2.item? = some item) :
    jobs.mapM (crawlOutcome freshOutcomes) = .ok (jobs.filterMap (jobOutcome freshOutcomes)) := by
  apply Effect.Verdict.mapM_eq_filterMap
  intro job member
  obtain ⟨item, page⟩ := located job member
  exact ⟨_, crawlOutcome_eq page, by rw [jobOutcome, page]; rfl⟩

/-- Fresh outcomes say of a capture what its record says. -/
def FreshAgrees (state : CrawlState Url) : Prop :=
  ∀ job ∈ state.manifest.jobs, ∀ outcome, state.freshOutcomes.get? job.1 = some outcome →
    outcome.isSuccess = (job.2.status == .succeeded)

theorem freshAgrees_of_nil (nothing : state.freshOutcomes = []) : FreshAgrees state := by
  intro job _ outcome found
  rw [nothing] at found
  cases found

theorem summary_jobOutcome (agrees : FreshAgrees state) (member : job ∈ state.manifest.jobs) :
    (jobOutcome state.freshOutcomes job).map CrawlPageOutcome.summary = jobSummary job := by
  have succeeded : ((state.freshOutcomes.get? job.1).getD (.resumed job.1 job.2)).isSuccess =
      (job.2.status == .succeeded) := by
    cases found : state.freshOutcomes.get? job.1 with
    | none => rfl
    | some outcome => exact agrees job member outcome found
  unfold jobOutcome jobSummary
  cases job.2.item? with
  | none => rfl
  | some item => simp [CrawlPageOutcome.summary, succeeded]

section Outcomes

variable [PageUrl Url] [SchedulerEnvironment Url] [Sha256] {request : CrawlRequest Url}

theorem Sound.crawlOutcomes_eq (sound : Sound request state) :
    crawlOutcomes state = .ok ((state.manifest.jobs.filterMap
      (jobOutcome state.freshOutcomes)).insertionSort fun left right =>
        left.ordinal ≤ right.ordinal) := by
  have located : ∀ job ∈ state.manifest.jobs, ∃ item, job.2.item? = some item := by
    intro job member
    obtain ⟨item, recordOf⟩ := sound.manifest.records job member
    exact ⟨item, recordOf.page⟩
  simp [crawlOutcomes, mapM_crawlOutcome located, bind, Except.bind, pure, Except.pure]

theorem Sound.summary_crawlOutcomes (sound : Sound request state) (agrees : FreshAgrees state) :
    (crawlOutcomes state).map (List.map CrawlPageOutcome.summary) =
      .ok ((state.manifest.jobs.filterMap jobSummary).insertionSort fun left right =>
        left.2.2.1 ≤ right.2.2.1) := by
  have summaries : (state.manifest.jobs.filterMap (jobOutcome state.freshOutcomes)).map
      CrawlPageOutcome.summary = state.manifest.jobs.filterMap jobSummary := by
    rw [map_filterMap]
    apply filterMap_congr
    exact fun job member => summary_jobOutcome agrees member
  rw [sound.crawlOutcomes_eq]
  simp only [Except.map]
  rw [← summaries]
  congr 1
  apply map_insertionSort
  exact fun _ _ _ _ => Iff.rfl

theorem isSuccess_runCrawlJob (site : Site Url) (request : CrawlRequest Url)
    (item : CrawlFrontierItem Url) :
    (runCrawlJob site request item).isSuccess =
      ((pageRecord site request item).status == .succeeded) := by
  unfold pageRecord runCrawlJob
  cases site.capture item.url <;> rfl

theorem Visited.freshAgrees {site : Site Url} {state next : CrawlState Url}
    {item : CrawlFrontierItem Url} {new : List (CrawlFrontierItem Url)}
    (visited : Visited site request state item new next) (sound : Sound request state)
    (member : item ∈ state.manifest.frontier) (agrees : FreshAgrees state) : FreshAgrees next := by
  intro job jobMember outcome found
  rw [visited.fresh] at found
  rw [visited.jobs] at jobMember
  rcases OrderedMap.mem_of_mem_insert jobMember with rfl | old
  · rw [OrderedMap.get?_insert_self] at found
    cases found
    exact isSuccess_runCrawlJob site request item
  · have differs : job.1 ≠ pageText item := by
      intro same
      apply sound.manifest.key_fresh member
      rw [← same]
      exact mem_map_of_mem old
    rw [OrderedMap.get?_insert_of_ne differs] at found
    exact agrees job old outcome found

end Outcomes

/-! ## Distances -/

def CrawlPageOutcome.item (outcome : CrawlPageOutcome Url) : CrawlFrontierItem Url :=
  ⟨outcome.url, outcome.depth, outcome.ordinal⟩

section Distances

variable [PageUrl Url] [SchedulerEnvironment Url] [Sha256] {site : Site Url}
  {request : CrawlRequest Url} {state : CrawlState Url} {outcomes : List (CrawlPageOutcome Url)}

theorem Sound.items_perm (sound : Sound request state)
    (result : crawlOutcomes state = .ok outcomes) :
    (outcomes.map CrawlPageOutcome.item).Perm (jobPages state.manifest.jobs) := by
  rw [sound.crawlOutcomes_eq, Except.ok.injEq] at result
  rw [← result]
  apply ((perm_insertionSort _ _).map _).trans
  rw [map_filterMap]
  apply List.Perm.of_eq
  apply filterMap_congr
  intro job member
  unfold jobOutcome
  cases job.2.item? <;> rfl

theorem Sound.isSuccess_iff (sound : Sound request state) (agrees : FreshAgrees state)
    (levels : Levels site request state.manifest) (result : crawlOutcomes state = .ok outcomes)
    {outcome : CrawlPageOutcome Url} (member : outcome ∈ outcomes) :
    outcome.capture.isSuccess = true ↔ Captured site outcome.url := by
  rw [sound.crawlOutcomes_eq, Except.ok.injEq] at result
  rw [← result, mem_insertionSort, mem_filterMap] at member
  obtain ⟨job, jobMember, isOutcome⟩ := member
  have summary := summary_jobOutcome agrees jobMember
  obtain ⟨item, rfl⟩ := levels.visited job jobMember
  rw [isOutcome, jobSummary, (recordOf_pageRecord site request item).page] at summary
  simp only [Option.map_some, Option.some.injEq, CrawlPageOutcome.summary, Prod.mk.injEq] at summary
  rw [summary.2.2.2, summary.1]
  unfold pageRecord runCrawlJob Captured
  cases site.capture item.url <;> simp [recordFromOutcome]

/-- The link graph among the pages of a result: from pages whose capture
succeeded to pages that were admitted. -/
def CrawlEdge (site : Site Url) (request : CrawlRequest Url)
    (outcomes : List (CrawlPageOutcome Url)) (page link : Url) : Prop :=
  (∃ outcome ∈ outcomes, outcome.url = page ∧ outcome.capture.isSuccess = true) ∧
    (∃ outcome ∈ outcomes, outcome.url = link) ∧ link ∈ pageLinks site request page

/-- A link that a crawl would follow from a page it can capture. -/
def SiteEdge (site : Site Url) (request : CrawlRequest Url) (page link : Url) : Prop :=
  Captured site page ∧ link ∈ pageLinks site request page

/-- Every page once, no more than the limit, and at its distance from the seed. -/
structure BreadthFirst (site : Site Url) (request : CrawlRequest Url)
    (outcomes : List (CrawlPageOutcome Url)) : Prop where
  distinct : (outcomes.map CrawlPageOutcome.url).Nodup
  limit : outcomes.length ≤ request.maximumPages
  distance : ∀ outcome ∈ outcomes, IsDistance (CrawlEdge site request outcomes)
    (crawlRoot request) outcome.url outcome.depth

variable [LawfulPageUrl Url]

variable (sound : Sound request state) (agrees : FreshAgrees state)
  (levels : Levels site request state.manifest) (finished : state.manifest.frontier = [])
  (result : crawlOutcomes state = .ok outcomes)
include sound agrees levels finished result

theorem Sound.leveled :
    Leveled (CrawlEdge site request outcomes) (crawlRoot request)
      (fun url depth => ∃ outcome ∈ outcomes, outcome.url = url ∧ outcome.depth = depth) := by
  have pages : manifestPages state.manifest = jobPages state.manifest.jobs := by
    rw [manifestPages, finished, nil_append]
  have perm := sound.items_perm result
  have admitted := sound.manifest.admitted
  have parent := levels.parent
  have linked := levels.linked
  rw [pages] at admitted parent linked
  have isPage {outcome : CrawlPageOutcome Url} (member : outcome ∈ outcomes) :
      outcome.item ∈ jobPages state.manifest.jobs :=
    perm.mem_iff.mp (mem_map_of_mem member)
  have hasOutcome {page : CrawlFrontierItem Url} (member : page ∈ jobPages state.manifest.jobs) :
      ∃ outcome ∈ outcomes, outcome.item = page :=
    mem_map.mp (perm.mem_iff.mpr member)
  have sameItem {first second : CrawlPageOutcome Url} (firstMember : first ∈ outcomes)
      (secondMember : second ∈ outcomes) (same : first.url = second.url) :
      first.item = second.item :=
    admitted.eq_of_pageText (isPage firstMember) (isPage secondMember)
      (congrArg PageUrl.asStr same)
  constructor
  case functional =>
    rintro node first second ⟨left, leftMember, leftUrl, rfl⟩ ⟨right, rightMember, rightUrl, rfl⟩
    exact congrArg CrawlFrontierItem.depth
      (sameItem leftMember rightMember (leftUrl.trans rightUrl.symm))
  case start =>
    obtain ⟨outcome, member, isSeed⟩ := hasOutcome admitted.seed
    exact ⟨outcome, member, congrArg CrawlFrontierItem.url isSeed,
      congrArg CrawlFrontierItem.depth isSeed⟩
  case parent =>
    rintro node depth ⟨outcome, member, rfl, rfl⟩ notRoot
    have differs : pageText outcome.item ≠ PageUrl.asStr (crawlRoot request) :=
      fun same => notRoot (LawfulPageUrl.asStr_injective same)
    obtain ⟨above, aboveMember, captured, link, deeper⟩ :=
      parent outcome.item (isPage member) differs
    obtain ⟨aboveOutcome, aboveIn, rfl⟩ := hasOutcome aboveMember
    have succeeded := (sound.isSuccess_iff agrees levels result aboveIn).mpr captured
    exact ⟨aboveOutcome.url, aboveOutcome.depth, ⟨aboveOutcome, aboveIn, rfl, rfl⟩,
      ⟨⟨aboveOutcome, aboveIn, rfl, succeeded⟩, ⟨outcome, member, rfl⟩, link⟩, deeper⟩
  case closed =>
    rintro node next depth ⟨outcome, member, rfl, rfl⟩
      ⟨⟨source, sourceMember, sameUrl, succeeded⟩, ⟨target, targetMember, rfl⟩, link⟩
    refine ⟨target.depth, ⟨target, targetMember, rfl, rfl⟩, ?_⟩
    have captured := (sound.isSuccess_iff agrees levels result sourceMember).mp succeeded
    rw [sameUrl] at captured
    by_cases deep : outcome.depth < request.maximumDepth
    · rcases linked outcome.item (isPage member) captured deep target.url link with
        ⟨below, belowMember, same, close⟩ | ⟨unknown, -⟩
      · have isTarget := admitted.eq_of_pageText belowMember (isPage targetMember) same
        rw [isTarget] at close
        exact close
      · exact absurd (mem_seenTexts.mpr ⟨_, isPage targetMember, rfl⟩) unknown
    · have bound := admitted.depth target.item (isPage targetMember)
      change target.depth ≤ request.maximumDepth at bound
      omega

theorem Sound.breadthFirst : BreadthFirst site request outcomes := by
  have perm := sound.items_perm result
  have admitted := sound.manifest.admitted
  rw [manifestPages, finished, nil_append] at admitted
  constructor
  case distinct =>
    have texts := ((perm.map pageText).nodup_iff).mpr admitted.urls
    rw [map_map] at texts
    apply List.Nodup.of_map PageUrl.asStr
    rw [map_map]
    exact texts
  case limit =>
    have length := perm.length_eq
    rw [length_map] at length
    rw [length]
    exact admitted.limit
  case distance =>
    intro outcome member
    exact (sound.leveled agrees levels finished result).isDistance ⟨outcome, member, rfl, rfl⟩

theorem Sound.within_of_walk (room : outcomes.length < request.maximumPages) {url : Url}
    {length : Nat} (walk : Walk (SiteEdge site request) (crawlRoot request) url length)
    (near : length ≤ request.maximumDepth) :
    ∃ outcome ∈ outcomes, outcome.url = url ∧ outcome.depth ≤ length := by
  have pages : manifestPages state.manifest = jobPages state.manifest.jobs := by
    rw [manifestPages, finished, nil_append]
  have perm := sound.items_perm result
  have linked := levels.linked
  rw [pages, ← perm.length_eq, length_map] at linked
  induction walk with
  | start =>
    obtain ⟨outcome, member, sameUrl, depth⟩ :=
      (sound.leveled agrees levels finished result).start
    exact ⟨outcome, member, sameUrl, depth.le⟩
  | step _ edge ih =>
    obtain ⟨outcome, member, rfl, short⟩ := ih (by omega)
    have isPage := perm.mem_iff.mp (mem_map_of_mem member)
    rcases linked outcome.item isPage edge.1 (Nat.lt_of_le_of_lt short near) _ edge.2 with
      ⟨below, belowMember, same, close⟩ | ⟨-, full⟩
    · obtain ⟨target, targetMember, rfl⟩ := mem_map.mp (perm.mem_iff.mpr belowMember)
      exact ⟨target, targetMember, LawfulPageUrl.asStr_injective same,
        close.trans (Nat.succ_le_succ short)⟩
    · exact absurd full room.ne

/-- With room left, the pages are those within the depth of the seed. -/
theorem Sound.mem_iff_isDistance (room : outcomes.length < request.maximumPages) {url : Url}
    {depth : Nat} : (∃ outcome ∈ outcomes, outcome.url = url ∧ outcome.depth = depth) ↔
      IsDistance (SiteEdge site request) (crawlRoot request) url depth ∧
        depth ≤ request.maximumDepth := by
  have leveled := sound.leveled agrees levels finished result
  have within := @Sound.within_of_walk _ _ _ _ _ _ _ _ _ sound agrees levels finished result room
  have along : ∀ {url depth}, Walk (CrawlEdge site request outcomes) (crawlRoot request) url depth →
      Walk (SiteEdge site request) (crawlRoot request) url depth := by
    intro url depth walk
    induction walk with
    | start => exact .start
    | step _ edge ih =>
      obtain ⟨⟨outcome, member, rfl, succeeded⟩, -, link⟩ := edge
      exact ih.step ⟨(sound.isSuccess_iff agrees levels result member).mp succeeded, link⟩
  constructor
  · intro level
    have near : depth ≤ request.maximumDepth := by
      obtain ⟨outcome, member, -, rfl⟩ := level
      have isPage := (sound.items_perm result).mem_iff.mp (mem_map_of_mem member)
      exact sound.manifest.admitted.depth outcome.item (mem_append_right _ isPage)
    refine ⟨⟨along (leveled.walk level), fun length walk => ?_⟩, near⟩
    by_contra longer
    obtain ⟨outcome, member, sameUrl, short⟩ := within walk (by omega)
    have same := leveled.functional level ⟨outcome, member, sameUrl, rfl⟩
    omega
  · rintro ⟨⟨walk, shortest⟩, near⟩
    obtain ⟨outcome, member, rfl, short⟩ := within walk near
    have back := shortest _ (along (leveled.walk ⟨outcome, member, rfl, rfl⟩))
    exact ⟨outcome, member, rfl, Nat.le_antisymm short back⟩

end Distances

/-! ## Whole crawls -/

section Crawls

variable [PageUrl Url] [SchedulerEnvironment Url] [Sha256] {site : Site Url}
  {request : CrawlRequest Url}

omit [SchedulerEnvironment Url] [Sha256] in
theorem admitLinks_rerun (request : CrawlRequest Url) (concurrency : Nat)
    (resume : Option ResumeOptions) (depth : Nat) (links : List Url)
    (frontier : List (CrawlFrontierItem Url)) (seen : Finset String) :
    admitLinks (request.rerun concurrency resume) depth links frontier seen =
      admitLinks request depth links frontier seen := by
  induction links generalizing frontier seen with
  | nil => rfl
  | cons link links ih =>
    unfold admitLinks
    simp only [ih]
    rfl

section

variable (site : Site Url) (request : CrawlRequest Url) (concurrency : Nat)
  (resume : Option ResumeOptions)

theorem visit_rerun (state : CrawlState Url) (item : CrawlFrontierItem Url) :
    visit site (request.rerun concurrency resume) state item = visit site request state item := by
  unfold visit recordPage
  simp only [admitLinks_rerun]
  rfl

theorem drain_rerun (fuel : Nat) (state : CrawlState Url) :
    drain site (request.rerun concurrency resume) fuel state = drain site request fuel state := by
  induction fuel generalizing state with
  | zero => rfl
  | succ fuel ih =>
    unfold drain
    simp only [visit_rerun, ih]

end

variable [LawfulPageUrl Url] {completions : Nat → List Nat} {first second concurrency : Nat}
  {firstResume resume : Option ResumeOptions}

theorem drain_ok (links : ∀ url, ∃ resolved, site.links url = .ok resolved) {fuel : Nat}
    (sound : Sound request state) (ends : (drain site request fuel state).2.isSome = true) :
    ∃ final, (drain site request fuel state).2 = some (.ok final) := by
  induction fuel generalizing state with
  | zero => cases ends
  | succ fuel ih =>
    rcases drain_cases site sound fuel with
      ⟨-, step⟩ | ⟨url, error, unreadable, -⟩ | ⟨_, _, _, next, -, -, nextSound, step⟩
    · exact ⟨state, congrArg Prod.snd step⟩
    · obtain ⟨resolved, readable⟩ := links url
      rw [readable] at unreadable
      cases unreadable
    · rw [step] at ends ⊢
      exact ih nextSound ends

theorem crawl_eq_drain (startable : Startable request) (files : ArtifactFiles)
    (complete : AllComplete completions) {stored : Option (ResumeManifest Url)}
    (wellFormed : ∀ kept ∈ stored, WellFormed request kept) :
    (crawl site files completions request stored).result =
      (drain site request (request.maximumPages + 1) (startState files request stored)).2.map
        fun final => final.bind crawlOutcomes := by
  have sound := sound_startState startable files wellFormed
  have concurrency := (bounds_of_validateCrawlRequest startable.valid).1
  have ends := @drain_isSome _ _ _ _ site request _ _ sound (request.maximumPages + 1) (by omega)
  unfold crawl
  rw [crawlStart_eq startable files wellFormed]
  dsimp only
  rw [crawlLoop_eq_drain complete concurrency (le_refl _) 0 sound ends]

omit [PageUrl Url] [SchedulerEnvironment Url] [Sha256] [LawfulPageUrl Url] in
theorem validateCrawlRequest_rerun (request : CrawlRequest Url)
    (firstBounds : 1 ≤ first ∧ first ≤ maximumConcurrency)
    (secondBounds : 1 ≤ second ∧ second ≤ maximumConcurrency)
    (firstResume secondResume : Option ResumeOptions) :
    validateCrawlRequest (request.rerun first firstResume) =
      validateCrawlRequest (request.rerun second secondResume) := by
  have accepted : ∀ {concurrency : Nat}, 1 ≤ concurrency ∧ concurrency ≤ maximumConcurrency →
      validateConcurrency concurrency = .ok () := by
    intro concurrency bounds
    unfold validateConcurrency
    rw [if_neg (by omega)]
  simp only [validateCrawlRequest, CrawlRequest.rerun, accepted firstBounds, accepted secondBounds]
  rfl

omit [SchedulerEnvironment Url] [Sha256] [LawfulPageUrl Url] in
theorem Startable.rerun (startable : Startable (request.rerun first firstResume))
    (secondBounds : 1 ≤ second ∧ second ≤ maximumConcurrency)
    (secondResume : Option ResumeOptions) : Startable (request.rerun second secondResume) := by
  have firstBounds := (bounds_of_validateCrawlRequest startable.valid).1
  refine ⟨?_, startable.http⟩
  rw [← validateCrawlRequest_rerun request firstBounds secondBounds firstResume secondResume]
  exact startable.valid

omit [LawfulPageUrl Url] in
theorem crawlStart_error (firstBounds : 1 ≤ first ∧ first ≤ maximumConcurrency)
    (secondBounds : 1 ≤ second ∧ second ≤ maximumConcurrency)
    (stuck : ¬ Startable (request.rerun first firstResume))
    (secondResume : Option ResumeOptions) (firstFiles secondFiles : ArtifactFiles)
    (firstStored secondStored : Option (ResumeManifest Url)) :
    ∃ failure, crawlStart firstFiles (request.rerun first firstResume) firstStored =
        .error failure ∧
      crawlStart secondFiles (request.rerun second secondResume) secondStored =
        .error failure := by
  have root : ∀ {concurrency : Nat} {resume : Option ResumeOptions},
      normalizedPageUrl (request.rerun concurrency resume).seed.url =
        normalizedPageUrl request.seed.url := rfl
  unfold crawlStart
  rw [← validateCrawlRequest_rerun request firstBounds secondBounds firstResume secondResume,
    root, root]
  cases valid : validateCrawlRequest (request.rerun first firstResume) with
  | error failure => exact ⟨failure, rfl, rfl⟩
  | ok _ =>
    cases normalized : normalizedPageUrl request.seed.url with
    | error failure => exact ⟨failure, rfl, rfl⟩
    | ok page =>
      exfalso
      apply stuck
      refine ⟨valid, ?_⟩
      unfold normalizedPageUrl at normalized
      split_ifs at normalized with http
      exact http

theorem sound_seedState (startable : Startable (request.rerun concurrency resume)) :
    Sound request (seedState request) := by
  have wellFormed := wellFormed_rerun.mp (wellFormed_seedManifest startable)
  exact ⟨wellFormed, rfl⟩

theorem crawl_fresh (startable : Startable (request.rerun concurrency resume))
    (files : ArtifactFiles) (complete : AllComplete completions) :
    (crawl site files completions (request.rerun concurrency resume) none).result =
      (drain site request (request.maximumPages + 1) (seedState request)).2.map
        fun final => final.bind crawlOutcomes := by
  rw [crawl_eq_drain startable files complete (by simp), startState_none, drain_rerun]
  rfl

/-- The outcomes of a crawl depend neither on its concurrency nor on the order
in which its captures complete. -/
theorem crawl_scheduling (site : Site Url) (request : CrawlRequest Url) {first second : Nat}
    (firstBounds : 1 ≤ first ∧ first ≤ 256) (secondBounds : 1 ≤ second ∧ second ≤ 256)
    {firstOrder secondOrder : Nat → List Nat} (firstComplete : AllComplete firstOrder)
    (secondComplete : AllComplete secondOrder) (firstFiles secondFiles : ArtifactFiles) :
    let firstRun := crawl site firstFiles firstOrder (request.rerun first request.resume) none
    let secondRun := crawl site secondFiles secondOrder (request.rerun second request.resume) none
    firstRun.result = secondRun.result ∧ firstRun.result.isSome = true ∧
      (∀ outcomes, firstRun.result = some (.ok outcomes) → BreadthFirst site request outcomes) ∧
      (Startable (request.rerun first request.resume) →
        (∀ url, ∃ resolved, site.links url = .ok resolved) →
        ∃ outcomes, firstRun.result = some (.ok outcomes)) := by
  intro firstRun secondRun
  by_cases startable : Startable (request.rerun first request.resume)
  case neg =>
    obtain ⟨failure, firstFails, secondFails⟩ := crawlStart_error firstBounds secondBounds startable
      request.resume firstFiles secondFiles none none
    have firstResult : firstRun.result = some (.error failure) := by
      simp only [firstRun, crawl, firstFails]
    have secondResult : secondRun.result = some (.error failure) := by
      simp only [secondRun, crawl, secondFails]
    rw [firstResult, secondResult]
    exact ⟨rfl, rfl, nofun, fun started => absurd started startable⟩
  case pos =>
    have sound := sound_seedState startable
    have ends := @drain_isSome _ _ _ _ site request _ _ sound (request.maximumPages + 1) (by omega)
    have firstResult := @crawl_fresh _ _ _ _ site request _ _ _ _ startable firstFiles firstComplete
    have secondResult := @crawl_fresh _ _ _ _ site request _ _ _ _
      (startable.rerun secondBounds request.resume) secondFiles secondComplete
    refine ⟨firstResult.trans secondResult.symm, ?_, ?_, ?_⟩
    · rw [firstResult, Option.isSome_map]
      exact ends
    · intro outcomes result
      rw [firstResult] at result
      obtain ⟨final, ended, outcomesOf⟩ := Option.map_eq_some_iff.mp result
      cases final with
      | error failure => cases outcomesOf
      | ok final =>
        have levels : Levels site request (seedManifest request) :=
          levels_seedManifest site request rfl rfl
        have kept := @drain_invariant _ _ _ _ _ site request
          (fun state => Levels site request state.manifest ∧ FreshAgrees state)
          (fun sound ⟨levels, agrees⟩ head visited => ⟨visited.levels sound head levels,
            visited.freshAgrees sound (by simp [head]) agrees⟩)
          _ _ final sound ⟨levels, freshAgrees_of_nil rfl⟩ ended
        obtain ⟨finalSound, ⟨finalLevels, agrees⟩, finished⟩ := kept
        exact finalSound.breadthFirst agrees finalLevels finished outcomesOf
    · intro _ links
      obtain ⟨final, ended⟩ := drain_ok links sound ends
      obtain ⟨finalSound, -⟩ := @drain_invariant _ _ _ _ _ site request (fun _ => True)
        (fun _ _ _ _ => trivial) _ _ final sound trivial ended
      rw [firstResult, ended]
      exact ⟨_, congrArg some finalSound.crawlOutcomes_eq⟩

end Crawls

section LocalSite

attribute [local instance] zeroSha256

theorem crawl_scheduling_localSite : (crawl localSite (fun _ => none) (fun _ => List.range 256)
        (localRequest.rerun 1 localRequest.resume) none).result =
      (crawl localSite (fun _ => none) (fun _ => (List.range 256).reverse)
        (localRequest.rerun 2 localRequest.resume) none).result := by
  have forwards : AllComplete fun _ => List.range 256 :=
    fun _ _ bound => List.mem_range.mpr bound
  have backwards : AllComplete fun _ => (List.range 256).reverse :=
    fun _ _ bound => List.mem_reverse.mpr (List.mem_range.mpr bound)
  exact (crawl_scheduling localSite localRequest (by decide) (by decide) forwards backwards
    (fun _ => none) (fun _ => none)).1

/-- A site whose pages have no links. -/
def barrenSite : Site LocalPage :=
  { localSite with links := fun _ => .ok [] }

end LocalSite

end Offprint.Scheduler
