import Offprint.Scheduler.CrawlLevels
import Offprint.Scheduler.CrawlStart

/-!
# Runs of one crawl

A crawl may be killed at any time and run again from the manifest that it wrote
last, with other settings that do not belong to its plan, at a site that answers
differently, and with artifacts that have changed.  Every manifest on the way is
well formed.
-/

namespace Offprint.Scheduler

open Data Model

variable {Url : Type}

/-- The request of another run of the same crawl. -/
def CrawlRequest.rerun (request : CrawlRequest Url) (concurrency : Nat)
    (resume : Option ResumeOptions) : CrawlRequest Url :=
  { request with concurrency := concurrency, resume := resume }

section Runs

variable [PageUrl Url] {concurrency : Nat} {resume : Option ResumeOptions}
  {request : CrawlRequest Url}

theorem visitable_rerun {url : Url} :
    Visitable (request.rerun concurrency resume) url ↔ Visitable request url :=
  ⟨fun ⟨http, fragment, origin⟩ => ⟨http, fragment, origin⟩,
    fun ⟨http, fragment, origin⟩ => ⟨http, fragment, origin⟩⟩

theorem admitted_rerun {pages : List (CrawlFrontierItem Url)} :
    Admitted (request.rerun concurrency resume) pages ↔ Admitted request pages := by
  constructor
  · rintro ⟨urls, ordinals, limit, seed, onlySeed, depth, visitable⟩
    exact ⟨urls, ordinals, limit, seed, onlySeed, depth,
      fun page member => visitable_rerun.mp (visitable page member)⟩
  · rintro ⟨urls, ordinals, limit, seed, onlySeed, depth, visitable⟩
    exact ⟨urls, ordinals, limit, seed, onlySeed, depth,
      fun page member => visitable_rerun.mpr (visitable page member)⟩

variable [SchedulerEnvironment Url] [Sha256]

theorem recordOf_rerun {item : CrawlFrontierItem Url} {job : String × ResumeJobRecord Url} :
    RecordOf (request.rerun concurrency resume) item job ↔ RecordOf request item job :=
  ⟨fun ⟨page, id, terminal, digest, path⟩ => ⟨page, id, terminal, digest, path⟩,
    fun ⟨page, id, terminal, digest, path⟩ => ⟨page, id, terminal, digest, path⟩⟩

theorem wellFormed_rerun {manifest : ResumeManifest Url} :
    WellFormed (request.rerun concurrency resume) manifest ↔ WellFormed request manifest := by
  constructor
  · rintro ⟨header, admitted, records, sorted, pending⟩
    refine ⟨header, admitted_rerun.mp admitted, ?_, sorted, pending⟩
    intro job member
    exact (records job member).imp fun _ => recordOf_rerun.mp
  · rintro ⟨header, admitted, records, sorted, pending⟩
    refine ⟨header, admitted_rerun.mpr admitted, ?_, sorted, pending⟩
    intro job member
    exact (records job member).imp fun _ => recordOf_rerun.mpr

/-! ## Written manifests -/

section Written

variable [LawfulPageUrl Url] {site : Site Url} {state : CrawlState Url}
  {manifest : ResumeManifest Url} {completions : Nat → List Nat}
  {stored : Option (ResumeManifest Url)} {files : ArtifactFiles}

theorem wellFormed_drain {fuel : Nat} (sound : Sound request state)
    (written : manifest ∈ (drain site request fuel state).1) : WellFormed request manifest := by
  obtain ⟨middle, middleSound, -, rfl⟩ := @drain_written _ _ _ _ _ _ site request (fun _ => True)
    (fun _ _ _ _ => trivial) _ _ sound trivial written
  exact middleSound.manifest

theorem mem_drain_of_mem_crawlLoop (concurrent : 0 < request.concurrency) {fuel steps batch : Nat}
    (sound : Sound request state) (ends : (drain site request steps state).2.isSome = true)
    (written : manifest ∈ (crawlLoop site request completions fuel batch state).1) :
    manifest ∈ (drain site request steps state).1 := by
  induction fuel generalizing batch state with
  | zero => cases written
  | succ fuel ih =>
    by_cases empty : state.manifest.frontier = []
    · simp [crawlLoop, empty] at written
    · obtain ⟨active, rest, depth, split, -, -, level, round⟩ :=
        @crawlLoop_succ _ _ _ _ site request state completions concurrent fuel batch
          sound.manifest empty
      have same := drain_mono (Nat.le_add_left steps active.length) ends
      rw [(drain_batch sound split level).1] at same
      rw [← same] at ends ⊢
      rw [round] at written
      rcases Effect.joinAll_cases (completions batch) active (withOutcome site request) with
        missing | joined
      · simp [missing] at written
      · simp only [joined, andThen] at written ends ⊢
        cases recorded :
            (recordBatch site request state (active.map (withOutcome site request))).2 with
        | error failure => simpa only [recorded] using written
        | ok next =>
          simp only [recorded, List.mem_append] at written ends ⊢
          apply written.imp_right
          exact ih ((drain_batch sound split level).2 next recorded) ends

omit [LawfulPageUrl Url] in
theorem startable_of_crawlStart (started : crawlStart files request stored = .ok state) :
    Startable request := by
  unfold crawlStart at started
  cases valid : validateCrawlRequest request with
  | error failure =>
    rw [valid] at started
    cases started
  | ok checked =>
    by_cases http : PageUrl.isHttp request.seed.url = true
    · exact ⟨valid, http⟩
    · have root : ∃ failure, normalizedPageUrl request.seed.url = .error failure := by
        unfold normalizedPageUrl
        rw [if_neg http]
        exact ⟨_, rfl⟩
      obtain ⟨failure, root⟩ := root
      rw [valid, root] at started
      cases started

theorem wellFormed_crawl (kept : ∀ kept ∈ stored, WellFormed request kept)
    (written : manifest ∈ (crawl site files completions request stored).written) :
    WellFormed request manifest := by
  unfold crawl at written
  cases started : crawlStart files request stored with
  | error failure =>
    rw [started] at written
    cases written
  | ok state =>
    have startable := startable_of_crawlStart started
    have sound : Sound request state := by
      rw [crawlStart_eq startable files kept] at started
      cases started
      exact sound_startState startable files kept
    simp only [started] at written
    split_ifs at written
    · rcases List.mem_cons.mp written with rfl | later
      · exact sound.manifest
      · have concurrent := (bounds_of_validateCrawlRequest startable.valid).1.1
        have ends := @drain_isSome _ _ _ _ site request state _ sound (request.maximumPages + 1)
          (by omega)
        exact wellFormed_drain sound (mem_drain_of_mem_crawlLoop concurrent sound ends later)
    · cases written

end Written

/-! ## Kills and resumptions -/

/-- What the manifest file of a crawl may hold behind any number of runs, each
killed at any time. -/
inductive Stored (request : CrawlRequest Url) : Option (ResumeManifest Url) → Prop
  | absent : Stored request none
  | run {stored : Option (ResumeManifest Url)} {manifest : ResumeManifest Url} (site : Site Url)
      (files : ArtifactFiles) (completions : Nat → List Nat) (concurrency : Nat)
      (resume : Option ResumeOptions) : Stored request stored →
      manifest ∈
        (crawl site files completions (request.rerun concurrency resume) stored).written →
      Stored request (some manifest)

theorem Stored.wellFormed [LawfulPageUrl Url]
    {stored : Option (ResumeManifest Url)} (reached : Stored request stored) :
    ∀ kept ∈ stored, WellFormed request kept := by
  induction reached with
  | absent => nofun
  | run site files completions concurrency resume _ written ih =>
    rintro kept ⟨⟩
    apply wellFormed_rerun.mp
    apply wellFormed_crawl _ written
    exact fun earlier member => wellFormed_rerun.mpr (ih earlier member)

theorem seedManifest_written [LawfulPageUrl Url]
    (startable : Startable request) (resumes : request.resume.isSome = true) (site : Site Url)
    (files : ArtifactFiles) (completions : Nat → List Nat) :
    seedManifest request ∈ (crawl site files completions request none).written := by
  unfold crawl
  rw [crawlStart_eq startable files (by simp), startState_none]
  simp [resumes, seedState]

structure Resumable (request : CrawlRequest Url) (manifest : ResumeManifest Url) : Prop where
  accepted : validateCrawlManifest manifest request = .ok ()
  distinct : ((manifestPages manifest).map pageText).Nodup
  ordinals : ((manifestPages manifest).map CrawlFrontierItem.ordinal).Perm
    (List.range (manifestPages manifest).length)
  limit : (manifestPages manifest).length ≤ request.maximumPages
  seed : ∀ page ∈ manifestPages manifest, page.depth = 0 ∨ page.ordinal = 0 →
    pageText page = PageUrl.asStr (crawlRoot request)
  pending : manifest.pending = manifest.frontier.map pageText

end Runs

section LocalSite

structure LocalPage where
  name : String

instance : PageUrl LocalPage where
  asStr := LocalPage.name
  scheme _ := "http"
  fragment _ := none
  withoutFragment page := page
  sameOrigin _ _ := true
  pathSegments page := some [page.name]
  hostStr _ := none

instance : LawfulPageUrl LocalPage where
  asStr_injective := by
    rintro ⟨left⟩ ⟨right⟩ same
    exact congrArg LocalPage.mk same
  scheme_withoutFragment _ := rfl
  fragment_withoutFragment _ := rfl
  sameOrigin_withoutFragment _ _ := rfl

@[reducible]
def zeroSha256 : Sha256 where
  digest _ := .zero

attribute [local instance] zeroSha256

instance : SchedulerEnvironment LocalPage where
  requestSha256 _ := .zero
  crawlPlanSha256 _ _ _ _ _ := .zero
  isAlphanumeric := Char.isAlphanum
  toLowercase character := [character.toLower]

def localRequest : CrawlRequest LocalPage where
  seed := ⟨⟨"index"⟩, .bytes⟩
  outputDirectory := "pages"
  maximumPages := 3
  maximumDepth := 2
  concurrency := 2
  sameOrigin := true
  resume := some ⟨"crawl.json", false⟩

theorem startable_localRequest : Startable localRequest :=
  ⟨rfl, by decide⟩

def localSite : Site LocalPage where
  capture page :=
    if page.name = "missing" then
      .error (schedulerError "offprint.scheduler.url" .navigation "no such page")
    else
      .ok (page.name, 1, .zero)
  links page := .ok (if page.name = "index" then [⟨"about"⟩, ⟨"missing"⟩] else [])

end LocalSite

end Offprint.Scheduler
