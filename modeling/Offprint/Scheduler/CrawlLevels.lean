import Offprint.Data.Distance
import Offprint.Scheduler.CrawlOrder

/-!
# Breadth-first levels

While a crawl that started from its seed drains its frontier, every page stands
one level below a captured page that links to it, and the links of captured
pages lead at most one level down, except to pages that the limit kept out.
At the end the depths are distances.
-/

namespace Offprint.Scheduler

open Data Model List

variable {Url : Type} [PageUrl Url] [SchedulerEnvironment Url] [Sha256]
  {manifest : ResumeManifest Url}

structure Levels (site : Site Url) (request : CrawlRequest Url) (manifest : ResumeManifest Url) :
    Prop where
  visited : ∀ job ∈ manifest.jobs, ∃ item, job = (pageText item, pageRecord site request item)
  parent : ∀ page ∈ manifestPages manifest, pageText page ≠ PageUrl.asStr (crawlRoot request) →
    ∃ above ∈ jobPages manifest.jobs, Captured site above.url ∧
      page.url ∈ pageLinks site request above.url ∧ page.depth = above.depth + 1
  near : ∀ page ∈ manifestPages manifest, ∀ pending ∈ manifest.frontier,
    page.depth ≤ pending.depth + 1
  earlier : ∀ page ∈ jobPages manifest.jobs, ∀ pending ∈ manifest.frontier,
    page.depth ≤ pending.depth
  linked : ∀ page ∈ jobPages manifest.jobs, Captured site page.url →
    page.depth < request.maximumDepth → ∀ link ∈ pageLinks site request page.url,
      (∃ below ∈ manifestPages manifest, pageText below = PageUrl.asStr link ∧
        below.depth ≤ page.depth + 1) ∨
      (PageUrl.asStr link ∉ seenTexts (manifestPages manifest) ∧
        (manifestPages manifest).length = request.maximumPages)

theorem levels_seedManifest (site : Site Url) (request : CrawlRequest Url)
    (jobs : manifest.jobs = []) (frontier : manifest.frontier = [⟨crawlRoot request, 0, 0⟩]) :
    Levels site request manifest := by
  have pages : manifestPages manifest = [⟨crawlRoot request, 0, 0⟩] := by
    simp [manifestPages, jobs, frontier, jobPages]
  constructor
  · simp [jobs]
  · intro page member differs
    rw [pages, mem_singleton] at member
    rw [member] at differs
    exact absurd rfl differs
  · intro page member pending _
    rw [pages, mem_singleton] at member
    rw [member]
    exact Nat.zero_le _
  · simp [jobs, jobPages]
  · simp [jobs, jobPages]

section Visit

variable {site : Site Url} {request : CrawlRequest Url} {state next : CrawlState Url}
  {item : CrawlFrontierItem Url} {new : List (CrawlFrontierItem Url)}

omit [SchedulerEnvironment Url] [Sha256] in
theorem mem_seenTexts {pages : List (CrawlFrontierItem Url)} {text : String} :
    text ∈ seenTexts pages ↔ ∃ page ∈ pages, pageText page = text := by
  simp [seenTexts]

theorem Visited.levels (visited : Visited site request state item new next)
    (sound : Sound request state) {others : List (CrawlFrontierItem Url)}
    (head : state.manifest.frontier = item :: others)
    (levels : Levels site request state.manifest) : Levels site request next.manifest := by
  have member : item ∈ state.manifest.frontier := by simp [head]
  have perm := visited.pages_perm sound.manifest member
  have pages {page : CrawlFrontierItem Url} : page ∈ manifestPages next.manifest ↔
      page ∈ manifestPages state.manifest ∨ page ∈ new := by
    rw [perm.mem_iff, mem_append]
  have recorded {page : CrawlFrontierItem Url} : page ∈ jobPages next.manifest.jobs ↔
      page = item ∨ page ∈ jobPages state.manifest.jobs := by
    rw [visited.jobs, (jobPages_insert (sound.manifest.key_fresh member)
      (recordOf_pageRecord site request item).page).mem_iff, mem_cons]
  have pendingPages {page : CrawlFrontierItem Url} (pending : page ∈ next.manifest.frontier) :
      page ∈ state.manifest.frontier ∨ page ∈ new := by
    rw [visited.frontier, (sortFrontier_perm _).mem_iff, mem_append] at pending
    exact pending.imp_left mem_of_mem_filter
  have itemFirst : ∀ page ∈ state.manifest.frontier, item.depth ≤ page.depth := by
    have sorted := sound.manifest.sorted
    rw [head, pairwise_cons] at sorted
    intro page pageMember
    rw [head, mem_cons] at pageMember
    rcases pageMember with rfl | later
    · exact le_refl _
    · exact depth_le_of_frontierKey_le (sorted.1 page later)
  have itemPage : item ∈ manifestPages state.manifest := mem_append_left _ member
  constructor
  case visited =>
    intro job jobMember
    rw [visited.jobs] at jobMember
    rcases OrderedMap.mem_of_mem_insert jobMember with rfl | old
    · exact ⟨item, rfl⟩
    · exact levels.visited job old
  case parent =>
    intro page pageMember differs
    rcases pages.mp pageMember with old | isNew
    · obtain ⟨above, aboveMember, rest⟩ := levels.parent page old differs
      exact ⟨above, recorded.mpr (.inr aboveMember), rest⟩
    · have link := visited.link page isNew
      exact ⟨item, recorded.mpr (.inl rfl), link.1, link.2, visited.deeper page isNew⟩
  case near =>
    intro page pageMember pending pendingMember
    have bound : page.depth ≤ item.depth + 1 := by
      rcases pages.mp pageMember with old | isNew
      · exact levels.near page old item member
      · exact le_of_eq (visited.deeper page isNew)
    rcases pendingPages pendingMember with old | isNew
    · exact le_trans bound (Nat.succ_le_succ (itemFirst pending old))
    · rw [visited.deeper pending isNew]
      omega
  case earlier =>
    intro page pageMember pending pendingMember
    have bound : page.depth ≤ item.depth := by
      rcases recorded.mp pageMember with rfl | old
      · exact le_refl _
      · exact levels.earlier page old item member
    rcases pendingPages pendingMember with old | isNew
    · exact le_trans bound (itemFirst pending old)
    · rw [visited.deeper pending isNew]
      omega
  case linked =>
    intro page pageMember captured deep link linkMember
    have seen : seenTexts (manifestPages next.manifest) =
        seenTexts (manifestPages state.manifest ++ new) :=
      toFinset_eq_of_perm _ _ (perm.map pageText)
    rw [seen, perm.length_eq]
    rcases recorded.mp pageMember with rfl | old
    · by_cases known : PageUrl.asStr link ∈ seenTexts (manifestPages state.manifest ++ new)
      · apply Or.inl
        obtain ⟨below, belowMember, same⟩ := mem_seenTexts.mp known
        refine ⟨below, perm.mem_iff.mpr belowMember, same, ?_⟩
        rcases mem_append.mp belowMember with oldBelow | newBelow
        · exact levels.near below oldBelow page member
        · exact le_of_eq (visited.deeper below newBelow)
      · exact .inr ⟨known, (visited.complete captured deep link linkMember).resolve_left known⟩
    · rcases levels.linked page old captured deep link linkMember with
        ⟨below, belowMember, same, close⟩ | ⟨unknown, full⟩
      · exact .inl ⟨below, pages.mpr (.inl belowMember), same, close⟩
      · -- A full crawl admits nothing more.
        have nothing : new = [] := by
          have limit := visited.admitted.limit
          rw [length_append] at limit
          exact eq_nil_of_length_eq_zero (by omega)
        rw [nothing, append_nil]
        exact .inr ⟨unknown, full⟩

end Visit

section Invariant

variable [LawfulPageUrl Url] {site : Site Url} {request : CrawlRequest Url}
  {Invariant : CrawlState Url → Prop}

/-- Visits of first pages keep the invariant. -/
def KeptByVisits (site : Site Url) (request : CrawlRequest Url)
    (Invariant : CrawlState Url → Prop) : Prop :=
  ∀ {state next : CrawlState Url} {item : CrawlFrontierItem Url}
    {others new : List (CrawlFrontierItem Url)}, Sound request state → Invariant state →
    state.manifest.frontier = item :: others → Visited site request state item new next →
    Invariant next

theorem drain_invariant (kept : KeptByVisits site request Invariant) {fuel : Nat}
    {state final : CrawlState Url} (sound : Sound request state) (invariant : Invariant state)
    (ended : (drain site request fuel state).2 = some (.ok final)) :
    Sound request final ∧ Invariant final ∧ final.manifest.frontier = [] := by
  induction fuel generalizing state with
  | zero => cases ended
  | succ fuel ih =>
    rcases drain_cases site sound fuel with
      ⟨frontier, step⟩ | ⟨_, _, -, step⟩ | ⟨_, _, _, _, frontier, visited, nextSound, step⟩ <;>
      rw [step] at ended
    · cases ended
      exact ⟨sound, invariant, frontier⟩
    · cases ended
    · exact ih nextSound (kept sound invariant frontier visited) ended

theorem drain_written (kept : KeptByVisits site request Invariant) {fuel : Nat}
    {state : CrawlState Url} (sound : Sound request state) (invariant : Invariant state)
    (written : manifest ∈ (drain site request fuel state).1) :
    ∃ middle, Sound request middle ∧ Invariant middle ∧ middle.manifest = manifest := by
  induction fuel generalizing state with
  | zero => cases written
  | succ fuel ih =>
    rcases drain_cases site sound fuel with
      ⟨-, step⟩ | ⟨_, _, -, step⟩ | ⟨_, _, _, next, frontier, visited, nextSound, step⟩ <;>
      rw [step] at written
    · cases written
    · cases written
    · have nextInvariant := kept sound invariant frontier visited
      rcases mem_cons.mp written with isNext | later
      · exact ⟨next, nextSound, nextInvariant, isNext.symm⟩
      · exact ih nextSound nextInvariant later

end Invariant

end Offprint.Scheduler
