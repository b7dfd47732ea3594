import Offprint.Scheduler.CrawlResume

/-!
# The pages of a crawl

Pages are admitted once, with the number of pages before them as ordinal, and
from then on stand either in the frontier or among the records.  `Admitted`
collects what holds of all of them together; it does not depend on their order,
so moving a page from the frontier to the records and sorting keep it.
-/

namespace Offprint.Scheduler

open Data Model LawfulPageUrl PageUrl List

variable {Url : Type} [PageUrl Url] {link : Url} {resolved : List Url} {request : CrawlRequest Url}

def crawlRoot (request : CrawlRequest Url) : Url :=
  PageUrl.withoutFragment request.seed.url

def pageText (item : CrawlFrontierItem Url) : String :=
  PageUrl.asStr item.url

def seenTexts (pages : List (CrawlFrontierItem Url)) : Finset String :=
  (pages.map pageText).toFinset

structure Visitable (request : CrawlRequest Url) (url : Url) : Prop where
  http : PageUrl.isHttp url = true
  noFragment : PageUrl.fragment url = none
  origin : request.sameOrigin = true → PageUrl.sameOrigin url request.seed.url = true

structure Admitted (request : CrawlRequest Url) (pages : List (CrawlFrontierItem Url)) :
    Prop where
  urls : (pages.map pageText).Nodup
  ordinals : (pages.map CrawlFrontierItem.ordinal).Perm (List.range pages.length)
  limit : pages.length ≤ request.maximumPages
  seed : (⟨crawlRoot request, 0, 0⟩ : CrawlFrontierItem Url) ∈ pages
  onlySeed : ∀ page ∈ pages, (page.depth = 0 ∨ page.ordinal = 0) →
    pageText page = PageUrl.asStr (crawlRoot request) ∧ page.depth = 0 ∧ page.ordinal = 0
  depth : ∀ page ∈ pages, page.depth ≤ request.maximumDepth
  visitable : ∀ page ∈ pages, Visitable request page.url

namespace Admitted

variable {request : CrawlRequest Url} {pages : List (CrawlFrontierItem Url)}
  {page : CrawlFrontierItem Url}

theorem of_perm {others : List (CrawlFrontierItem Url)} (admitted : Admitted request pages)
    (perm : pages.Perm others) : Admitted request others where
  urls := (perm.map pageText).nodup_iff.mp admitted.urls
  ordinals := by
    apply (perm.map _).symm.trans
    rw [← perm.length_eq]
    exact admitted.ordinals
  limit := perm.length_eq ▸ admitted.limit
  seed := perm.mem_iff.mp admitted.seed
  onlySeed := fun page member => admitted.onlySeed page (perm.mem_iff.mpr member)
  depth := fun page member => admitted.depth page (perm.mem_iff.mpr member)
  visitable := fun page member => admitted.visitable page (perm.mem_iff.mpr member)

theorem card_seenTexts (admitted : Admitted request pages) :
    (seenTexts pages).card = pages.length := by
  rw [seenTexts, toFinset_card_of_nodup admitted.urls, length_map]

section

variable (admitted : Admitted request pages)
include admitted

theorem ordinal_lt (member : page ∈ pages) : page.ordinal < pages.length := by
  have inRange := admitted.ordinals.mem_iff.mp (mem_map_of_mem member)
  exact mem_range.mp inRange

theorem eq_of_pageText {left right : CrawlFrontierItem Url} (leftMember : left ∈ pages)
    (rightMember : right ∈ pages) (same : pageText left = pageText right) : left = right :=
  inj_on_of_nodup_map admitted.urls leftMember rightMember same

theorem seed_of_pageText
    (member : page ∈ pages) (same : pageText page = asStr (crawlRoot request)) :
    page.depth = 0 ∧ page.ordinal = 0 := by
  rw [admitted.eq_of_pageText member admitted.seed same]
  exact ⟨rfl, rfl⟩

theorem append {url : Url} {depth : Nat}
    (visitable : Visitable request url) (new : asStr url ∉ seenTexts pages)
    (room : pages.length < request.maximumPages) (deep : depth + 1 ≤ request.maximumDepth) :
    Admitted request (pages ++ [⟨url, depth + 1, pages.length⟩]) where
  urls := by
    rw [map_append, nodup_append]
    refine ⟨admitted.urls, by simp, ?_⟩
    rintro left leftMember right rightMember rfl
    simp only [map_cons, map_nil, mem_singleton] at rightMember
    rw [rightMember] at leftMember
    exact new (mem_toFinset.mpr leftMember)
  ordinals := by
    rw [map_append, length_append, length_singleton, range_succ]
    exact admitted.ordinals.append (List.Perm.refl _)
  limit := by
    rw [length_append, length_singleton]
    exact room
  seed := mem_append_left _ admitted.seed
  onlySeed := by
    intro page member
    rcases mem_append.mp member with old | isNew
    · exact admitted.onlySeed page old
    · rw [mem_singleton.mp isNew]
      have nonempty := length_pos_of_mem admitted.seed
      rintro (zero | zero)
      · cases zero
      · exact absurd zero (by simp only; omega)
  depth := by
    intro page member
    rcases mem_append.mp member with old | isNew
    · exact admitted.depth page old
    · rw [mem_singleton.mp isNew]
      exact deep
  visitable := by
    intro page member
    rcases mem_append.mp member with old | isNew
    · exact admitted.visitable page old
    · rw [mem_singleton.mp isNew]
      exact visitable

end

end Admitted

theorem admitted_seed [LawfulPageUrl Url] (http : isHttp request.seed.url = true)
    (pages : 0 < request.maximumPages) :
    Admitted request [⟨crawlRoot request, 0, 0⟩] where
  urls := by simp
  ordinals := List.Perm.refl _
  limit := pages
  seed := mem_singleton_self _
  onlySeed := by
    intro page member _
    rw [mem_singleton.mp member]
    exact ⟨rfl, rfl, rfl⟩
  depth := by
    intro page member
    rw [mem_singleton.mp member]
    exact Nat.zero_le _
  visitable := by
    intro page member
    rw [mem_singleton.mp member]
    refine ⟨?_, fragment_withoutFragment _, fun _ =>
      sameOrigin_withoutFragment _ http⟩
    rw [isHttp, crawlRoot, scheme_withoutFragment]
    exact http

/-! ## Links -/

theorem mem_foldl_insert [LawfulPageUrl Url] (urls : List Url)
    {links : OrderedMap String Url} (texts : ∀ entry ∈ links, entry.1 = asStr entry.2) :
    link ∈ (urls.foldl (fun links link => OrderedMap.insert (asStr link) link links)
        links).map Prod.snd ↔
      link ∈ urls ∨ link ∈ links.map Prod.snd := by
  induction urls generalizing links with
  | nil => simp
  | cons first rest ih =>
    have inserted : ∀ entry ∈ OrderedMap.insert (asStr first) first links,
        entry.1 = asStr entry.2 := by
      intro entry member
      rcases OrderedMap.mem_of_mem_insert member with rfl | old
      · rfl
      · exact texts entry old
    rw [foldl_cons, ih inserted, mem_cons]
    simp only [mem_map]
    constructor
    · rintro (later | ⟨entry, member, rfl⟩)
      · exact .inl (.inr later)
      · rcases OrderedMap.mem_of_mem_insert member with rfl | old
        · exact .inl (.inl rfl)
        · exact .inr ⟨entry, old, rfl⟩
    · rintro ((rfl | later) | ⟨entry, old, rfl⟩)
      · exact .inr ⟨_, OrderedMap.mem_insert_self, rfl⟩
      · exact .inl later
      · apply Or.inr
        by_cases same : entry.1 = asStr first
        · -- The entry is replaced by itself.
          have equal : entry.2 = first :=
            asStr_injective ((texts entry old).symm.trans same)
          exact ⟨_, OrderedMap.mem_insert_self, equal.symm⟩
        · exact ⟨entry, OrderedMap.mem_insert_of_mem old same, rfl⟩

theorem mem_orderedUrls [LawfulPageUrl Url] {urls : List Url} :
    link ∈ orderedUrls urls ↔ link ∈ urls := by
  unfold orderedUrls
  rw [mem_foldl_insert urls (by simp)]
  simp

theorem followed_eq_some_iff {target : Url} :
    followed request target = some link ↔
      isHttp target = true ∧ withoutFragment target = link ∧
        (request.sameOrigin = true → sameOrigin link request.seed.url = true) := by
  unfold followed normalizedPageUrl
  by_cases http : isHttp target = true
  · simp only [http, if_true, true_and]
    split_ifs with outside
    · simp only [Bool.and_eq_true, Bool.not_eq_true'] at outside
      constructor
      · intro impossible
        cases impossible
      · rintro ⟨rfl, inside⟩
        rw [inside outside.1] at outside
        cases outside.2
    · rw [Option.some.injEq]
      constructor
      · rintro rfl
        refine ⟨rfl, ?_⟩
        intro restricted
        simpa [restricted] using outside
      · exact And.left
  · simp [http]

theorem mem_crawlLinks [LawfulPageUrl Url] :
    link ∈ crawlLinks request resolved ↔
      ∃ target ∈ resolved, isHttp target = true ∧
        withoutFragment target = link ∧
        (request.sameOrigin = true → sameOrigin link request.seed.url = true) := by
  rw [crawlLinks, mem_orderedUrls, mem_filterMap]
  simp only [followed_eq_some_iff]

theorem visitable_of_mem_crawlLinks [LawfulPageUrl Url]
    (member : link ∈ crawlLinks request resolved) : Visitable request link := by
  obtain ⟨target, -, http, rfl, origin⟩ := mem_crawlLinks.mp member
  refine ⟨?_, fragment_withoutFragment target, origin⟩
  rw [isHttp, scheme_withoutFragment]
  exact http

theorem seenTexts_append_singleton (pages : List (CrawlFrontierItem Url))
    (page : CrawlFrontierItem Url) :
    seenTexts (pages ++ [page]) = insert (pageText page) (seenTexts pages) := by
  ext text
  simp [seenTexts]

/-- What admitting links adds: pages one level deeper, whose URLs were new and
stand among the links, until the limit is reached. -/
structure Admits (request : CrawlRequest Url) (depth : Nat) (links : List Url)
    (pages new : List (CrawlFrontierItem Url)) : Prop where
  admitted : Admitted request (pages ++ new)
  depth : ∀ page ∈ new, page.depth = depth + 1
  link : ∀ page ∈ new, page.url ∈ links
  complete : ∀ link ∈ links, PageUrl.asStr link ∈ seenTexts (pages ++ new) ∨
    (pages ++ new).length = request.maximumPages

theorem admitLinks_spec {depth : Nat} (deep : depth < request.maximumDepth) {links : List Url}
    (visitable : ∀ link ∈ links, Visitable request link)
    {pages frontier : List (CrawlFrontierItem Url)} (admitted : Admitted request pages) :
    ∃ new, admitLinks request depth links frontier (seenTexts pages) =
        (frontier ++ new, seenTexts (pages ++ new)) ∧
      Admits request depth links pages new := by
  induction links generalizing pages frontier with
  | nil => exact ⟨[], by simp [admitLinks], by simpa using admitted, by simp, by simp, by simp⟩
  | cons link rest ih =>
    have restVisitable : ∀ link ∈ rest, Visitable request link :=
      fun other member => visitable other (mem_cons_of_mem _ member)
    unfold admitLinks
    rw [admitted.card_seenTexts]
    split_ifs with full known
    · refine ⟨[], by simp, by simpa using admitted, by simp, by simp, ?_⟩
      intro other _
      apply Or.inr
      rw [append_nil]
      exact le_antisymm admitted.limit full
    · obtain ⟨new, result, admits⟩ := @ih restVisitable pages frontier admitted
      refine ⟨new, result, admits.admitted, admits.depth, ?_, ?_⟩
      · exact fun page member => mem_cons_of_mem _ (admits.link page member)
      · intro other member
        rcases mem_cons.mp member with rfl | later
        · apply Or.inl
          simp only [seenTexts, mem_toFinset, map_append, mem_append] at known ⊢
          exact .inl known
        · exact admits.complete other later
    · have extended := admitted.append (visitable link mem_cons_self) known
        (Nat.lt_of_not_le full) deep
      have inserted : insert (asStr link) (seenTexts pages) =
          seenTexts (pages ++ [⟨link, depth + 1, pages.length⟩]) :=
        (seenTexts_append_singleton pages ⟨link, depth + 1, pages.length⟩).symm
      have ordinal : (insert (asStr link) (seenTexts pages)).card - 1 = pages.length := by
        rw [inserted, extended.card_seenTexts]
        simp
      simp only [ordinal]
      rw [inserted]
      obtain ⟨new, result, admits⟩ := @ih restVisitable _
        (frontier ++ [⟨link, depth + 1, pages.length⟩]) extended
      refine ⟨⟨link, depth + 1, pages.length⟩ :: new, ?_, ?_, ?_, ?_, ?_⟩
      · rw [result]
        simp
      · simpa using admits.admitted
      · intro page member
        rcases mem_cons.mp member with rfl | later
        · rfl
        · exact admits.depth page later
      · intro page member
        rcases mem_cons.mp member with rfl | later
        · exact mem_cons_self
        · exact mem_cons_of_mem _ (admits.link page later)
      · intro other member
        rcases mem_cons.mp member with rfl | later
        · apply Or.inl
          simp [seenTexts, pageText]
        · simpa using admits.complete other later

end Offprint.Scheduler
