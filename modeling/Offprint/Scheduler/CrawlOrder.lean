import Mathlib.Data.List.TakeWhile
import Offprint.Scheduler.CrawlInvariant

/-!
# Batches do not matter

A batch consists of the first pages of one level, and the pages it discovers
belong to the next level.  So the pages of a batch are visited in the order in
which the frontier hands them out one by one: the loop does what `drain` does,
for every concurrency and every order of completion.
-/

namespace Offprint.Scheduler

open Data Model List

variable {Url : Type} [PageUrl Url] {left right : CrawlFrontierItem Url}

/-! ## Sorted frontiers -/

theorem depth_le_of_frontierKey_le
    (before : frontierKey left ≤ frontierKey right) : left.depth ≤ right.depth := by
  rcases Prod.Lex.toLex_le_toLex.mp before with shallower | ⟨same, -⟩
  · exact le_of_lt shallower
  · exact le_of_eq same

theorem sortFrontier_append {first second : List (CrawlFrontierItem Url)}
    (sorted : first.Pairwise fun left right => frontierKey left ≤ frontierKey right)
    (below : ∀ left ∈ first, ∀ right ∈ second, frontierKey left ≤ frontierKey right) :
    sortFrontier (first ++ second) = first ++ sortFrontier second := by
  induction first with
  | nil => rfl
  | cons item rest ih =>
    obtain ⟨least, restSorted⟩ := pairwise_cons.mp sorted
    have tail := ih restSorted fun left member =>
      below left (mem_cons_of_mem _ member)
    rw [cons_append, sortFrontier, insertionSort_cons_of_forall_rel, ← sortFrontier,
      tail, cons_append]
    intro other member
    rcases mem_append.mp member with early | late
    · exact least other early
    · exact below item mem_cons_self other late

theorem sortFrontier_eq_self {frontier : List (CrawlFrontierItem Url)}
    (sorted : frontier.Pairwise fun left right => frontierKey left ≤ frontierKey right) :
    sortFrontier frontier = frontier := by
  have whole := @sortFrontier_append _ _ frontier [] sorted (by simp)
  simpa [sortFrontier] using whole

/-! ## One page at a time -/

section Drain

/-- Go on behind a batch, unless it failed. -/
def andThen (batch : List (ResumeManifest Url) × Except OffprintError (CrawlState Url))
    (rest : CrawlState Url →
      List (ResumeManifest Url) × Option (Except OffprintError (CrawlState Url))) :
    List (ResumeManifest Url) × Option (Except OffprintError (CrawlState Url)) :=
  match batch.2 with
  | .error error => (batch.1, some (.error error))
  | .ok next => (batch.1 ++ (rest next).1, (rest next).2)

omit [PageUrl Url] in
theorem batch_of_sorted (request : CrawlRequest Url) {manifest : ResumeManifest Url}
    (first : CrawlFrontierItem Url) (others : List (CrawlFrontierItem Url))
    (concurrent : 0 < request.concurrency) (room : manifest.jobs.length < request.maximumPages) :
    let width := batchWidth request manifest (first :: others)
    0 < width ∧ width ≤ request.concurrency ∧
      ∀ page ∈ (first :: others).take width, page.depth = first.depth := by
  intro width
  have levelLength : 0 < ((first :: others).takeWhile fun item =>
      item.depth = first.depth).length := by
    simp
  have bounds : width = min (min (min request.concurrency
      (request.maximumPages - manifest.jobs.length)) (first :: others).length)
        ((first :: others).takeWhile fun item => item.depth = first.depth).length := rfl
  rw [length_cons] at bounds
  refine ⟨by omega, by omega, ?_⟩
  have short : width ≤ ((first :: others).takeWhile fun item =>
      item.depth = first.depth).length := by
    omega
  intro page member
  have isPart : (first :: others).take width <+:
      (first :: others).takeWhile fun item => item.depth = first.depth := by
    apply prefix_of_prefix_length_le ( take_prefix _ _) ( takeWhile_prefix _)
    exact le_trans (length_take_le _ _) short
  simpa using mem_takeWhile_imp (isPart.subset member)

variable [SchedulerEnvironment Url] [Sha256] {site : Site Url} {request : CrawlRequest Url}
  {state next : CrawlState Url} {active rest : List (CrawlFrontierItem Url)}

/-- Visit the first page of the frontier until there is none. -/
def drain (site : Site Url) (request : CrawlRequest Url) :
    Nat → CrawlState Url →
      List (ResumeManifest Url) × Option (Except OffprintError (CrawlState Url))
  | 0, _ => ([], none)
  | fuel + 1, state =>
    match state.manifest.frontier with
    | [] => ([], some (.ok state))
    | item :: _ =>
      match visit site request state item with
      | .error error => ([], some (.error error))
      | .ok next =>
        let later := drain site request fuel next
        (next.manifest :: later.1, later.2)

def withOutcome (site : Site Url) (request : CrawlRequest Url) (item : CrawlFrontierItem Url) :
    CrawlFrontierItem Url × ScheduledCaptureOutcome Url :=
  (item, runCrawlJob site request item)

theorem Visited.frontier_of_level {item : CrawlFrontierItem Url}
    {new : List (CrawlFrontierItem Url)} (visited : Visited site request state item new next)
    (wellFormed : WellFormed request state.manifest)
    (split : state.manifest.frontier = item :: active ++ rest)
    (level : ∀ page ∈ active, page.depth = item.depth) :
    next.manifest.frontier = active ++ sortFrontier (rest ++ new) := by
  have distinct := wellFormed.admitted.urls
  rw [manifestPages, map_append, nodup_append, split] at distinct
  have others : withoutPage item state.manifest.frontier = active ++ rest := by
    rw [split]
    exact @withoutPage_append_cons _ _ item [] (active ++ rest) distinct.1
  have sorted := wellFormed.sorted
  rw [split, cons_append, pairwise_cons, pairwise_append] at sorted
  rw [visited.frontier, others, append_assoc]
  apply sortFrontier_append sorted.2.1
  intro left leftMember right rightMember
  rcases mem_append.mp rightMember with old | isNew
  · exact sorted.2.2.2 left leftMember right old
  · refine Prod.Lex.toLex_le_toLex.mpr (.inl ?_)
    rw [level left leftMember, visited.deeper right isNew]
    exact Nat.lt_succ_self _

theorem drain_mono {fewer more : Nat} (le : fewer ≤ more)
    (ends : (drain site request fewer state).2.isSome = true) :
    drain site request more state = drain site request fewer state := by
  induction fewer generalizing more state with
  | zero => cases ends
  | succ fewer ih =>
    obtain ⟨more, rfl⟩ : ∃ predecessor, more = predecessor + 1 := ⟨more - 1, by omega⟩
    unfold drain at ends ⊢
    cases frontier : state.manifest.frontier with
    | nil => rfl
    | cons item others =>
      simp only [frontier] at ends ⊢
      cases visited : visit site request state item with
      | error failure => rfl
      | ok next =>
        simp only [visited] at ends ⊢
        rw [ih (by omega) ends]

/-- One round of the loop records a batch from the head of the frontier, as soon
as its captures have completed. -/
theorem crawlLoop_succ (completions : Nat → List Nat) (concurrent : 0 < request.concurrency)
    (fuel batch : Nat) (wellFormed : WellFormed request state.manifest)
    (nonempty : state.manifest.frontier ≠ []) :
    ∃ active rest depth, state.manifest.frontier = active ++ rest ∧ 0 < active.length ∧
      active.length ≤ request.concurrency ∧ (∀ page ∈ active, page.depth = depth) ∧
      crawlLoop site request completions (fuel + 1) batch state =
        match Effect.joinAll (completions batch) active (withOutcome site request) with
        | none => ([], none)
        | some outcomes =>
          andThen (recordBatch site request state outcomes)
            (crawlLoop site request completions fuel (batch + 1)) := by
  obtain ⟨first, others, frontier⟩ := exists_cons_of_ne_nil nonempty
  have room : state.manifest.jobs.length < request.maximumPages := by
    have limit := wellFormed.admitted.limit
    rw [manifestPages, frontier, length_append, length_cons,
      length_jobPages wellFormed.records] at limit
    omega
  obtain ⟨wide, narrow, level⟩ := batch_of_sorted request first others concurrent room
  rw [← frontier] at wide narrow level
  generalize width_eq : batchWidth request state.manifest state.manifest.frontier = width
    at wide narrow level
  refine ⟨state.manifest.frontier.take width, state.manifest.frontier.drop width, first.depth,
    (take_append_drop _ _).symm, ?_, ?_, level, ?_⟩
  · rw [frontier, length_take, length_cons]
    omega
  · exact le_trans (length_take_le _ _) narrow
  · have continues : ¬ (state.manifest.frontier.isEmpty ∨
        request.maximumPages ≤ state.manifest.jobs.length) := by
      simp [frontier, room]
    rw [crawlLoop, if_neg continues, sortFrontier_eq_self wellFormed.sorted]
    simp only [width_eq]
    change (match Effect.joinAll (completions batch) (state.manifest.frontier.take width)
      (withOutcome site request) with | none => _ | some outcomes => _) = _
    cases Effect.joinAll (completions batch) (state.manifest.frontier.take width)
        (withOutcome site request) with
    | none => rfl
    | some outcomes =>
      rcases recorded : recordBatch site request state outcomes with ⟨written, failure | next⟩
      all_goals
        dsimp only
        rw [recorded]
        rfl

variable [LawfulPageUrl Url]

/-- What a drain does next: it ends, it fails on the links of a page, or it visits a page. -/
theorem drain_cases (site : Site Url) (sound : Sound request state) (fuel : Nat) :
    state.manifest.frontier = [] ∧ drain site request (fuel + 1) state = ([], some (.ok state)) ∨
      (∃ url error, site.links url = .error error ∧
        drain site request (fuel + 1) state = ([], some (.error error))) ∨
      ∃ item others new next, state.manifest.frontier = item :: others ∧
        Visited site request state item new next ∧ Sound request next ∧
        drain site request (fuel + 1) state = (next.manifest :: (drain site request fuel next).1,
          (drain site request fuel next).2) := by
  cases frontier : state.manifest.frontier with
  | nil => exact .inl ⟨rfl, by simp [drain, frontier]⟩
  | cons item others =>
    rcases visit_cases site sound item with
      ⟨error, failed, -, unreadable⟩ | ⟨new, next, succeeded, visited⟩
    · exact .inr (.inl ⟨item.url, error, unreadable, by simp [drain, frontier, failed]⟩)
    · have nextSound := visited.sound sound (by simp [frontier])
      exact .inr (.inr ⟨item, others, new, next, rfl, visited, nextSound,
        by simp [drain, frontier, succeeded]⟩)

theorem drain_batch (sound : Sound request state) {depth : Nat}
    (split : state.manifest.frontier = active ++ rest)
    (level : ∀ page ∈ active, page.depth = depth) :
    (∀ fuel, drain site request (active.length + fuel) state =
      andThen (recordBatch site request state (active.map (withOutcome site request)))
        (drain site request fuel)) ∧
    ∀ next, (recordBatch site request state (active.map (withOutcome site request))).2 =
      .ok next → Sound request next := by
  induction active generalizing state rest with
  | nil =>
    refine ⟨fun fuel => by simp [recordBatch, andThen], ?_⟩
    rintro _ ⟨⟩
    exact sound
  | cons item active ih =>
    obtain ⟨first, nextLevel⟩ := forall_mem_cons.mp level
    have restLevel := fun page member => (nextLevel page member).trans first.symm
    have member : item ∈ state.manifest.frontier := by simp [split]
    simp only [map_cons, withOutcome, recordBatch, length_cons,
      Nat.add_right_comm _ 1, drain, split, cons_append, visit]
    rcases visit_cases site sound item with ⟨error, failed, -⟩ | ⟨new, next, succeeded, visited⟩
    · rw [visit] at failed
      simp only [failed]
      exact ⟨fun _ => rfl, nofun⟩
    · obtain ⟨drained, nextSound⟩ := ih (visited.sound sound member)
        (visited.frontier_of_level sound.manifest split restLevel) nextLevel
      rw [visit] at succeeded
      simp only [succeeded, drained]
      refine ⟨fun fuel => ?_, nextSound⟩
      unfold andThen
      cases (recordBatch site request next (active.map (withOutcome site request))).2 <;> rfl

/-! ## The loop -/

/-- Every capture of every batch completes. -/
def AllComplete (completions : Nat → List Nat) : Prop :=
  ∀ batch index, index < maximumConcurrency → index ∈ completions batch

theorem crawlLoop_eq_drain {completions : Nat → List Nat} (complete : AllComplete completions)
    (concurrency : 0 < request.concurrency ∧ request.concurrency ≤ maximumConcurrency)
    {fuel steps : Nat} (enough : steps ≤ fuel) (batch : Nat)
    (sound : Sound request state) (ends : (drain site request steps state).2.isSome = true) :
    crawlLoop site request completions fuel batch state = drain site request steps state := by
  induction fuel generalizing steps batch state with
  | zero =>
    obtain rfl : steps = 0 := by omega
    cases ends
  | succ fuel ih =>
    obtain ⟨steps, rfl⟩ : ∃ predecessor, steps = predecessor + 1 := by
      cases steps with
      | zero => cases ends
      | succ steps => exact ⟨steps, rfl⟩
    by_cases empty : state.manifest.frontier = []
    · simp [crawlLoop, drain, empty]
    · obtain ⟨active, rest, depth, split, nonempty, narrow, level, round⟩ :=
        @crawlLoop_succ _ _ _ _ site request state completions concurrency.1 fuel batch
          sound.manifest empty
      rw [Effect.joinAll_eq_map fun index bound => complete batch index (by omega)] at round
      dsimp only at round
      have longer : steps + 1 ≤ active.length + steps := by omega
      have same := drain_mono longer ends
      rw [(drain_batch sound split level).1] at same
      rw [round, ← same]
      rw [← same] at ends
      unfold andThen at ends ⊢
      cases recorded :
          (recordBatch site request state (active.map (withOutcome site request))).2 with
      | error failure => rfl
      | ok next =>
        simp only [recorded] at ends ⊢
        have nextSound := (drain_batch sound split level).2 next recorded
        rw [ih (by omega) (batch + 1) nextSound ends]

theorem drain_isSome (sound : Sound request state) {fuel : Nat}
    (enough : request.maximumPages < state.manifest.jobs.length + fuel) :
    (drain site request fuel state).2.isSome = true := by
  induction fuel generalizing state with
  | zero =>
    have limit := sound.manifest.admitted.limit
    rw [manifestPages, length_append, length_jobPages sound.manifest.records] at limit
    omega
  | succ fuel ih =>
    rcases drain_cases site sound fuel with
      ⟨-, step⟩ | ⟨_, _, -, step⟩ | ⟨item, others, new, next, frontier, visited, nextSound, step⟩
    · rw [step]
      rfl
    · rw [step]
      rfl
    · rw [step]
      apply ih nextSound
      rw [visited.length_jobs sound.manifest (by simp [frontier])]
      omega

end Drain

end Offprint.Scheduler
