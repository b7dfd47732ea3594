import Offprint.Scheduler.CrawlResult

/-!
# Killed crawls

A manifest says everything about the crawl that wrote it, except for the
receipts of its captures.  So a crawl that was killed and goes on from its last
manifest walks the rest of the trail that it would have walked without the kill.
-/

namespace Offprint.Scheduler

open Data Model List

section Resuming

variable {Url : Type} [PageUrl Url] [SchedulerEnvironment Url] [Sha256]

/-! ## States with the same manifest -/

section SameProgress

variable {site : Site Url} {request : CrawlRequest Url} {left right : CrawlState Url}

omit [PageUrl Url] [SchedulerEnvironment Url] [Sha256] in
/-- States that differ only in the outcomes that the running process remembers. -/
def SameProgress (left right : CrawlState Url) : Prop :=
  left.manifest = right.manifest ∧ left.seen = right.seen

theorem visit_sameProgress (same : SameProgress left right) (item : CrawlFrontierItem Url) :
    (∃ failure, visit site request left item = .error failure ∧
      visit site request right item = .error failure) ∨
    ∃ leftNext rightNext, visit site request left item = .ok leftNext ∧
      visit site request right item = .ok rightNext ∧ SameProgress leftNext rightNext := by
  obtain ⟨manifest, seen, leftFresh⟩ := left
  obtain ⟨rightManifest, rightSeen, rightFresh⟩ := right
  obtain ⟨sameManifest, sameSeen⟩ := same
  dsimp only at sameManifest sameSeen
  subst sameManifest sameSeen
  by_cases fertile : Captured site item.url ∧ item.depth < request.maximumDepth
  · rw [visit_eq_of_fertile fertile.1 fertile.2, visit_eq_of_fertile fertile.1 fertile.2]
    cases site.links item.url with
    | error failure => exact .inl ⟨failure, rfl, rfl⟩
    | ok resolved => exact .inr ⟨_, _, rfl, rfl, rfl, rfl⟩
  · rw [visit_eq_of_barren fertile, visit_eq_of_barren fertile]
    exact .inr ⟨_, _, rfl, rfl, rfl, rfl⟩

theorem drain_sameProgress (same : SameProgress left right) (fuel : Nat) :
    (drain site request fuel left).1 = (drain site request fuel right).1 ∧
      (drain site request fuel left).2.map (Except.map CrawlState.manifest) =
        (drain site request fuel right).2.map (Except.map CrawlState.manifest) := by
  induction fuel generalizing left right with
  | zero => exact ⟨rfl, rfl⟩
  | succ fuel ih =>
    unfold drain
    rw [same.1]
    cases frontier : right.manifest.frontier with
    | nil =>
      refine ⟨rfl, ?_⟩
      simp [Except.map, same.1]
    | cons item others =>
      dsimp only
      rcases visit_sameProgress same item with
        ⟨failure, leftFails, rightFails⟩ | ⟨leftNext, rightNext, leftOk, rightOk, sameNext⟩
      · rw [leftFails, rightFails]
        exact ⟨rfl, rfl⟩
      · rw [leftOk, rightOk]
        obtain ⟨written, result⟩ := ih sameNext
        dsimp only
        rw [sameNext.1, written]
        exact ⟨rfl, result⟩

end SameProgress

/-! ## The trail of a crawl -/

section Trail

variable {site : Site Url} {request : CrawlRequest Url}

/-- The manifests of an uninterrupted crawl. -/
def trail (site : Site Url) (request : CrawlRequest Url) : List (ResumeManifest Url) :=
  seedManifest request :: (drain site request (request.maximumPages + 1) (seedState request)).1

/-- The last manifest of an uninterrupted crawl, or the error that ends it. -/
def destination (site : Site Url) (request : CrawlRequest Url) :
    Option (Except OffprintError (ResumeManifest Url)) :=
  (drain site request (request.maximumPages + 1) (seedState request)).2.map
    (Except.map CrawlState.manifest)

variable [LawfulPageUrl Url] {manifest : ResumeManifest Url} {files : ArtifactFiles}
  {concurrency : Nat}

theorem drain_from_written {fuel : Nat} {state : CrawlState Url} (sound : Sound request state)
    (ends : (drain site request fuel state).2.isSome = true)
    (member : manifest ∈ state.manifest :: (drain site request fuel state).1) :
    ∃ rest middle, rest ≤ fuel ∧ Sound request middle ∧ middle.manifest = manifest ∧
      (drain site request rest middle).2 = (drain site request fuel state).2 ∧
      ∀ later ∈ (drain site request rest middle).1, later ∈ (drain site request fuel state).1 := by
  induction fuel generalizing state with
  | zero => cases ends
  | succ fuel ih =>
    rcases mem_cons.mp member with rfl | written
    · exact ⟨fuel + 1, state, le_refl _, sound, rfl, rfl, fun _ later => later⟩
    · rcases drain_cases site sound fuel with
        ⟨-, step⟩ | ⟨_, _, -, step⟩ | ⟨_, _, _, next, -, -, nextSound, step⟩ <;>
        rw [step] at ends written ⊢
      · cases written
      · cases written
      · obtain ⟨rest, middle, less, middleSound, isManifest, result, later⟩ :=
          ih nextSound ends written
        exact ⟨rest, middle, by omega, middleSound, isManifest, result,
          fun next member => mem_cons_of_mem _ (later next member)⟩

/-- The recorded artifacts still stand at their paths. -/
def Unchanged (files : ArtifactFiles) (manifest : ResumeManifest Url) : Prop :=
  ∀ job ∈ manifest.jobs, job.2.status = .succeeded → resumeArtifactIsCurrent files job.2 = true

omit [LawfulPageUrl Url] in
theorem requeued_eq_self (wellFormed : WellFormed request manifest)
    (unchanged : Unchanged files manifest)
    (keeps : request.resume.any ResumeOptions.retryFailed = false) :
    requeued files request manifest = manifest := by
  have none : ∀ job ∈ manifest.jobs, retries files false job.2 = false := by
    intro job member
    unfold retries
    cases status : job.2.status with
    | succeeded => simp [unchanged job member status]
    | failed => rfl
  have chosen : manifest.jobs.filter (fun job => retries files false job.2) = [] :=
    filter_eq_nil_iff.mpr fun job member => by simp [none job member]
  have kept : manifest.jobs.filter (fun job => !retries files false job.2) = manifest.jobs :=
    filter_eq_self.mpr fun job member => by simp [none job member]
  have pending := wellFormed.pending
  simp only [requeued, keeps, chosen, kept, jobPages, filterMap_nil, append_nil,
    sortFrontier_eq_self wellFormed.sorted, persistCrawlPending]
  obtain ⟨version, kind, plan, jobs, manifestPending, frontier⟩ := manifest
  dsimp only at pending
  subst pending
  rfl

theorem wellFormed_trail {resume : Option ResumeOptions}
    (startable : Startable (request.rerun concurrency resume))
    (member : manifest ∈ trail site request) : WellFormed request manifest := by
  have sound := sound_seedState startable
  rcases mem_cons.mp member with rfl | written
  · exact sound.manifest
  · exact wellFormed_drain sound written

theorem drain_resumed {options : ResumeOptions} {stored : Option (ResumeManifest Url)}
    (startable : Startable (request.rerun concurrency (some options)))
    (onTrail : ∀ kept ∈ stored, kept ∈ trail site request ∧ Unchanged files kept ∧
      options.retryFailed = false) :
    let start := startState files (request.rerun concurrency (some options)) stored
    Sound request start ∧ start.manifest ∈ trail site request ∧
      (∀ later ∈ (drain site request (request.maximumPages + 1) start).1,
        later ∈ trail site request) ∧
      (drain site request (request.maximumPages + 1) start).2.map
        (Except.map CrawlState.manifest) = destination site request := by
  intro start
  have seedSound := sound_seedState startable
  have enough {state : CrawlState Url} (sound : Sound request state) :
      (drain site request (request.maximumPages + 1) state).2.isSome = true :=
    drain_isSome sound (by omega)
  cases stored with
  | none =>
    have fresh : start = seedState request := startState_none files _
    rw [fresh]
    exact ⟨seedSound, mem_cons_self, fun later member => mem_cons_of_mem _ member, rfl⟩
  | some kept =>
    obtain ⟨member, unchanged, noRetry⟩ := onTrail kept rfl
    obtain ⟨rest, middle, less, middleSound, isKept, result, later⟩ :=
      drain_from_written seedSound (enough seedSound) member
    have wellFormed : WellFormed request kept := by
      rw [← isKept]
      exact middleSound.manifest
    have same : SameProgress start middle := by
      have queued : requeued files (request.rerun concurrency (some options)) kept = kept :=
        requeued_eq_self (wellFormed_rerun.mpr wellFormed) unchanged noRetry
      have started : start = ⟨kept, seenTexts (manifestPages kept), []⟩ := by
        simp only [start, startState, startManifest, CrawlRequest.rerun] at queued ⊢
        rw [queued]
      rw [started]
      exact ⟨isKept.symm, by rw [middleSound.seen, isKept]⟩
    have startSound : Sound request start := by
      refine ⟨?_, ?_⟩
      · rw [same.1, isKept]
        exact wellFormed
      · rw [same.2, middleSound.seen, same.1]
    have middleEnds : (drain site request rest middle).2.isSome = true := by
      rw [result]
      exact enough seedSound
    obtain ⟨written, ended⟩ :=
      @drain_sameProgress _ _ _ _ site request _ _ same (request.maximumPages + 1)
    rw [drain_mono less middleEnds] at written ended
    refine ⟨startSound, ?_, ?_, ?_⟩
    · rw [same.1, isKept]
      exact member
    · rw [written]
      exact fun next nextMember => mem_cons_of_mem _ (later next nextMember)
    · rw [ended, result]
      rfl

end Trail

/-! ## Kills -/

section Kills

/-- What the manifest file may hold when the runs of a crawl were killed at any
time, at a site that does not change, without loss of artifacts and without
retries. -/
inductive Interrupted (site : Site Url) (request : CrawlRequest Url) :
    Option (ResumeManifest Url) → Prop
  | absent : Interrupted site request none
  | killed {stored : Option (ResumeManifest Url)} {manifest : ResumeManifest Url}
      (files : ArtifactFiles) (completions : Nat → List Nat) (concurrency : Nat)
      (options : ResumeOptions) : Interrupted site request stored →
      (∀ kept ∈ stored, Unchanged files kept ∧ options.retryFailed = false) →
      manifest ∈ (crawl site files completions
        (request.rerun concurrency (some options)) stored).written →
      Interrupted site request (some manifest)

variable [LawfulPageUrl Url] {site : Site Url} {request : CrawlRequest Url}
  {stored : Option (ResumeManifest Url)}

theorem Interrupted.mem_trail (interrupted : Interrupted site request stored) :
    ∀ kept ∈ stored, kept ∈ trail site request := by
  induction interrupted with
  | absent => nofun
  | @killed stored manifest files completions concurrency options interrupted kept written
      ih =>
      rintro _ ⟨⟩
      unfold crawl at written
      cases started : crawlStart files (request.rerun concurrency (some options)) stored with
      | error failure =>
        rw [started] at written
        cases written
      | ok state =>
        have startable := startable_of_crawlStart started
        have wellFormed : ∀ earlier ∈ stored,
            WellFormed (request.rerun concurrency (some options)) earlier :=
          fun earlier member => wellFormed_rerun.mpr
            (wellFormed_trail startable (ih earlier member))
        rw [crawlStart_eq startable files wellFormed, Except.ok.injEq] at started
        subst started
        have onTrail := drain_resumed startable fun earlier member =>
          ⟨ih earlier member, kept earlier member⟩
        obtain ⟨-, first, later, -⟩ := onTrail
        rw [crawlStart_eq startable files wellFormed] at written
        rcases mem_cons.mp written with rfl | looped
        · exact first
        · have concurrent := (bounds_of_validateCrawlRequest startable.valid).1.1
          have sound := sound_startState startable files wellFormed
          have ends := @drain_isSome _ _ _ _ site _ _ _ sound (request.maximumPages + 1)
            (Nat.lt_of_lt_of_le (Nat.lt_succ_self _) (Nat.le_add_left _ _))
          have drained := mem_drain_of_mem_crawlLoop concurrent sound ends looped
          rw [drain_rerun] at drained
          exact later manifest drained

/-- What is observed of the result of a crawl. -/
def CrawlRun.summary (run : CrawlRun Url) :
    Option (Except OffprintError (List (Url × Nat × Nat × Bool))) :=
  run.result.map (Except.map (List.map CrawlPageOutcome.summary))

theorem crawl_summary {concurrency : Nat} {options : ResumeOptions} {files : ArtifactFiles}
    {completions : Nat → List Nat} (complete : AllComplete completions)
    (startable : Startable (request.rerun concurrency (some options)))
    (onTrail : ∀ kept ∈ stored, kept ∈ trail site request ∧ Unchanged files kept ∧
      options.retryFailed = false) :
    (crawl site files completions (request.rerun concurrency (some options)) stored).summary =
      (destination site request).map (Except.map fun manifest =>
        (manifest.jobs.filterMap jobSummary).insertionSort fun left right =>
          left.2.2.1 ≤ right.2.2.1) := by
  have wellFormed : ∀ kept ∈ stored,
      WellFormed (request.rerun concurrency (some options)) kept :=
    fun kept member => wellFormed_rerun.mpr (wellFormed_trail startable (onTrail kept member).1)
  obtain ⟨sound, -, -, ended⟩ := drain_resumed startable onTrail
  rw [CrawlRun.summary, crawl_eq_drain startable files complete wellFormed, drain_rerun, ← ended]
  change Option.map _ (Option.map _ (drain site request (request.maximumPages + 1) _).2) = _
  generalize result : (drain site request (request.maximumPages + 1)
    (startState files (request.rerun concurrency (some options)) stored)).2 = final
  rcases final with - | failure | final
  · rfl
  · rfl
  · obtain ⟨finalSound, agrees, -⟩ := @drain_invariant _ _ _ _ _ site request FreshAgrees
      (fun sound agrees head visited => visited.freshAgrees sound (by simp [head]) agrees)
      _ _ final sound (freshAgrees_of_nil rfl) result
    simp only [Option.map_some, Except.map, Except.bind]
    exact congrArg some (finalSound.summary_crawlOutcomes agrees)

end Kills

end Resuming

section LocalSite

attribute [local instance] zeroSha256

end LocalSite

end Offprint.Scheduler
