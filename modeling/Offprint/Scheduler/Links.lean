import Offprint.Model.WebUrl
import Offprint.Scheduler.CrawlPages

/-!
# The links of a captured page

`crawlPageLinks` reads the links of a page back from its artifact.  The base
against which it resolves them is the final URL of the artifact's manifest, and
that one was redacted.  A link that stays at its base's origin takes over the
base's credentials, and an empty reference also its query, so the links are the
page's own exactly when redaction leaves the final URL as it is.
-/

namespace Offprint.Scheduler

open Model RedactionPolicy PageUrl RedactionPolicy EditableUrl LawfulPageUrl

/-- A URL type with the parser and its resolution of references. -/
class DocumentUrl (Url : Type) extends EditableUrl Url where
  parse : String → Option Url
  join : Url → String → Option Url

open DocumentUrl

structure Attribute where
  name : String
  value : String
  deriving Repr, DecidableEq

/-- An element of a parsed document; `name` is its local name. -/
structure Element where
  name : String
  attrs : List Attribute
  deriving Repr, DecidableEq

namespace Element

def attribute? (element : Element) (name : String) : Option String :=
  (element.attrs.find? fun entry => entry.name = name).map Attribute.value

def isAsciiWhitespace (character : Char) : Bool :=
  [' ', '\t', '\n', '\x0c', '\r'].contains character

def isNofollow (element : Element) : Bool :=
  match element.attribute? "rel" with
  | some value =>
    ((value.toList.splitOnP isAsciiWhitespace).map fun token => token.map Char.toLower).contains
      "nofollow".toList
  | none => false

/-- The reference a crawl may follow from the element. -/
def reference? (element : Element) : Option String :=
  if ["a", "area"].contains element.name && !element.isNofollow then
    element.attribute? "href"
  else
    none

end Element

/-- What a crawl reads of an artifact: the final URL in its manifest and its elements. -/
structure PageArtifact where
  finalUrl : String
  elements : List Element
  deriving Repr, DecidableEq

variable {Url : Type} [DocumentUrl Url]

def capturedPage (finalUrl : Url) (elements : List Element) : PageArtifact :=
  ⟨default.redact finalUrl, elements⟩

def crawlPageLinks (request : CrawlRequest Url) (requestedUrl : Url) (page : PageArtifact) :
    List Url :=
  let base := (parse page.finalUrl).getD requestedUrl
  crawlLinks request
    ((page.elements.filterMap Element.reference?).filterMap fun href => join base href)

/-- A link of the page at its final URL, as a crawl should follow it. -/
def PageLink (request : CrawlRequest Url) (finalUrl : Url) (elements : List Element) (link : Url) :
    Prop :=
  ∃ element ∈ elements, ∃ href ∈ element.reference?, ∃ target ∈ join finalUrl href,
    PageUrl.isHttp target = true ∧ PageUrl.withoutFragment target = link ∧
      (request.sameOrigin = true → PageUrl.sameOrigin link request.seed.url = true)

/-- An edit of a URL that keeps its scheme, its fragment and its origin. -/
structure Keeps (before after : Url) : Prop where
  scheme : PageUrl.scheme after = PageUrl.scheme before
  fragment : PageUrl.fragment after = PageUrl.fragment before
  origin : PageUrl.isHttp before = true → PageUrl.sameOrigin after before = true

/-- The URL library's contract: a URL parses back from its text; replacing
credentials or the query keeps the rest; an empty reference is the base itself;
and a reference to an HTTP URL outside the base's origin does not depend on the
base beyond its scheme. -/
class LawfulDocumentUrl (Url : Type) [DocumentUrl Url] : Prop extends LawfulPageUrl Url where
  parse_asStr (url : Url) : parse (PageUrl.asStr url) = some url
  parse_redactedData : ∃ url : Url, parse "data:[redacted]" = some url ∧
    PageUrl.scheme url = "data"
  withoutFragment_eq_self (url : Url) : PageUrl.fragment url = none →
    PageUrl.withoutFragment url = url
  eq_of_withoutFragment (left right : Url) :
    PageUrl.withoutFragment left = PageUrl.withoutFragment right →
      PageUrl.fragment left = PageUrl.fragment right → left = right
  keeps_setUsername (url edited : Url) (username : String) :
    setUsername url username = some edited → Keeps url edited
  keeps_setPassword (url edited : Url) (password : Option String) :
    setPassword url password = some edited → Keeps url edited
  keeps_setQueryPairs (url : Url) (pairs : List (String × String)) :
    Keeps url (setQueryPairs url pairs)
  sameOrigin_symm (left right : Url) :
    PageUrl.sameOrigin left right = true → PageUrl.sameOrigin right left = true
  sameOrigin_trans (first second third : Url) :
    PageUrl.sameOrigin first second = true → PageUrl.sameOrigin second third = true →
      PageUrl.sameOrigin first third = true
  join_empty (base : Url) : PageUrl.isHttp base = true →
    join base "" = some (PageUrl.withoutFragment base)
  join_elsewhere (base other link : Url) (href : String) :
    join base href = some link → PageUrl.isHttp link = true →
      (PageUrl.isHttp base = true → PageUrl.sameOrigin link base = false) →
        PageUrl.scheme other = PageUrl.scheme base → join other href = some link

open LawfulDocumentUrl

section Lawful

theorem scheme_ne_data {url : Url} (http : isHttp url = true) : PageUrl.scheme url ≠ "data" := by
  intro data
  simp [isHttp, data] at http

variable [LawfulDocumentUrl Url] {request : CrawlRequest Url} {base link : Url}
  {elements : List Element}

/-! ## The base -/

theorem Keeps.trans {first second third : Url} (one : Keeps first second)
    (two : Keeps second third) : Keeps first third := by
  refine ⟨two.scheme.trans one.scheme, two.fragment.trans one.fragment, ?_⟩
  intro http
  have http' : isHttp second = true := by
    rw [isHttp, one.scheme]
    exact http
  exact sameOrigin_trans _ _ _ (two.origin http') (one.origin http)

theorem sameOrigin_self {url : Url} (http : isHttp url = true) :
    PageUrl.sameOrigin url url = true := by
  have same := sameOrigin_withoutFragment url http
  exact sameOrigin_trans _ _ _
    (sameOrigin_symm _ _ same) same

theorem keeps_refl (url : Url) : Keeps url url :=
  ⟨rfl, rfl, sameOrigin_self⟩

theorem keeps_redactUsername (url : Url) : Keeps url (redactUsername url) := by
  unfold redactUsername
  split
  · exact keeps_refl url
  · cases edited : setUsername url redaction with
    | none => exact keeps_refl url
    | some after => exact keeps_setUsername url after redaction edited

theorem keeps_redactPassword (url : Url) : Keeps url (redactPassword url) := by
  unfold redactPassword
  split
  · cases edited : setPassword url (some redaction) with
    | none => exact keeps_refl url
    | some after => exact keeps_setPassword url after (some redaction) edited
  · exact keeps_refl url

section

variable (policy : RedactionPolicy) (url : Url)

theorem keeps_redactQuery : Keeps url (policy.redactQuery url) := by
  unfold redactQuery
  split
  · exact keeps_setQueryPairs url _
  · exact keeps_refl url

theorem keeps_redacted : Keeps url (policy.redacted url) :=
  ((keeps_redactUsername url).trans (keeps_redactPassword _)).trans (keeps_redactQuery policy _)

/-- The base that is read back has the scheme of the final URL; outside data
URLs it is the redacted final URL. -/
theorem parse_redact :
    ∃ base, parse (policy.redact url) = some base ∧
      PageUrl.scheme base = PageUrl.scheme url ∧
      (PageUrl.scheme url ≠ "data" → base = policy.redacted url) := by
  unfold redact
  split_ifs with data
  · have readable : ∃ base : Url, parse "data:[redacted]" = some base ∧
        PageUrl.scheme base = "data" := parse_redactedData
    obtain ⟨base, parsed, scheme⟩ := readable
    exact ⟨base, parsed, scheme.trans data.symm, fun other => absurd data other⟩
  · exact ⟨policy.redacted url, parse_asStr _, (keeps_redacted policy url).scheme,
      fun _ => rfl⟩

end

/-! ## The links -/

theorem mem_crawlPageLinks {requestedUrl finalUrl : Url}
    (parsed : parse (default.redact finalUrl) = some base) :
    link ∈ crawlPageLinks request requestedUrl (capturedPage finalUrl elements) ↔
      PageLink request base elements link := by
  unfold crawlPageLinks capturedPage PageLink
  simp only [parsed, Option.getD_some, mem_crawlLinks, List.mem_filterMap, Option.mem_def]
  constructor
  · rintro ⟨target, ⟨href, ⟨element, member, reference⟩, joined⟩, followed⟩
    exact ⟨element, member, href, reference, target, joined, followed⟩
  · rintro ⟨element, member, href, reference, target, joined, followed⟩
    exact ⟨target, ⟨href, ⟨element, member, reference⟩, joined⟩, followed⟩

/-- The crawl follows no link at the origin of the base. -/
def Foreign (request : CrawlRequest Url) (base : Url) : Prop :=
  ¬ (PageUrl.isHttp base = true ∧
    (request.sameOrigin = true → PageUrl.sameOrigin base request.seed.url = true))

theorem PageLink.of_elsewhere {other : Url} (scheme : PageUrl.scheme other = PageUrl.scheme base)
    (foreign : Foreign request base) (isLink : PageLink request base elements link) :
    PageLink request other elements link := by
  obtain ⟨element, member, href, reference, target, joined, http, rfl, inside⟩ := isLink
  refine ⟨element, member, href, reference, target, ?_, http, rfl, inside⟩
  apply join_elsewhere base other target href joined http _ scheme
  intro baseHttp
  by_contra same
  -- A link at the base's origin would bring the base inside the crawl.
  apply foreign
  refine ⟨baseHttp, ?_⟩
  intro restricted
  have toTarget : PageUrl.sameOrigin base target = true :=
    sameOrigin_symm _ _ (by simpa using same)
  have toLink := sameOrigin_symm _ _
    (sameOrigin_withoutFragment target http)
  exact sameOrigin_trans _ _ _ toTarget
    (sameOrigin_trans _ _ _ toLink (inside restricted))

theorem Foreign.of_keeps {other : Url} (foreign : Foreign request base) (keeps : Keeps base other) :
    Foreign request other := by
  rintro ⟨http, inside⟩
  have http' : isHttp base = true := by
    rw [isHttp, ← keeps.scheme]
    exact http
  apply foreign
  refine ⟨http', ?_⟩
  intro restricted
  have same := sameOrigin_symm _ _ (keeps.origin http')
  exact sameOrigin_trans _ _ _ same (inside restricted)

def selfReference : List Element :=
  [⟨"a", [⟨"href", ""⟩]⟩]

theorem pageLink_selfReference (http : isHttp base = true) :
    PageLink request base selfReference link ↔
      PageUrl.withoutFragment base = link ∧
        (request.sameOrigin = true → PageUrl.sameOrigin link request.seed.url = true) := by
  have reference : Element.reference? ⟨"a", [⟨"href", ""⟩]⟩ = some "" := by decide +kernel
  unfold PageLink selfReference
  simp only [List.mem_singleton, exists_eq_left, reference, Option.mem_def, Option.some.injEq,
    exists_eq_left', join_empty base http]
  have bare := withoutFragment_eq_self _
    (fragment_withoutFragment base)
  have stillHttp : isHttp (PageUrl.withoutFragment base) = true := by
    rw [isHttp, scheme_withoutFragment]
    exact http
  rw [bare, stillHttp]
  simp

/-- The crawled links of every page at a final URL are the page's own exactly
when redaction leaves the final URL as it is, or when the crawl follows no link
at the final URL's origin anyway. -/
theorem crawlPageLinks_iff (request : CrawlRequest Url) (requestedUrl finalUrl : Url) :
    (∀ elements link,
      link ∈ crawlPageLinks request requestedUrl (capturedPage finalUrl elements) ↔
        PageLink request finalUrl elements link) ↔
      (PageUrl.isHttp finalUrl = true →
        (request.sameOrigin = true → PageUrl.sameOrigin finalUrl request.seed.url = true) →
          default.redact finalUrl = PageUrl.asStr finalUrl) := by
  obtain ⟨base, parsed, scheme, isRedacted⟩ := parse_redact default finalUrl
  simp only [mem_crawlPageLinks parsed]
  constructor
  · intro agree http inside
    have isRedacted := isRedacted (scheme_ne_data http)
    have keeps := keeps_redacted default finalUrl
    rw [← isRedacted] at keeps
    have baseHttp : PageUrl.isHttp base = true := by
      rw [PageUrl.isHttp, scheme]
      exact http
    have own := (agree selfReference (PageUrl.withoutFragment finalUrl)).mpr
      ((pageLink_selfReference http).mpr ⟨rfl, fun restricted =>
        sameOrigin_trans _ _ _
          (sameOrigin_withoutFragment finalUrl http) (inside restricted)⟩)
    have same := ((pageLink_selfReference baseHttp).mp own).1
    have unchanged : base = finalUrl :=
      eq_of_withoutFragment _ _ same keeps.fragment
    rw [redact, if_neg (scheme_ne_data http), ← isRedacted, unchanged]
  · intro unchanged elements link
    by_cases foreign : Foreign request finalUrl
    · have baseForeign : Foreign request base := by
        by_cases data : PageUrl.scheme finalUrl = "data"
        · rintro ⟨http, -⟩
          exact scheme_ne_data http (scheme.trans data)
        · rw [isRedacted data]
          exact foreign.of_keeps (keeps_redacted _ _)
      exact ⟨PageLink.of_elsewhere scheme.symm baseForeign, PageLink.of_elsewhere scheme foreign⟩
    · obtain ⟨http, inside⟩ := not_not.mp foreign
      rw [unchanged http inside, parse_asStr] at parsed
      rw [Option.some.inj parsed]

end Lawful

/-! ## A page with a secret in its query -/

inductive TokenPage where
  | plain
  | secret
  | redacted
  | data
  deriving Repr, DecidableEq

namespace TokenPage

def text : TokenPage → String
  | .plain => "https://example.com/"
  | .secret => "https://example.com/?token=secret"
  | .redacted => "https://example.com/?token=%3Credacted%3E"
  | .data => "data:[redacted]"

def query : TokenPage → Option String
  | .secret => some "token=secret"
  | .redacted => some "token=%3Credacted%3E"
  | _ => none

def pairs : TokenPage → List (String × String)
  | .secret => [("token", "secret")]
  | .redacted => [("token", "<redacted>")]
  | _ => []

/-- The page with the given pairs in its query, if there is one. -/
def withPairs (page : TokenPage) (pairs : List (String × String)) : TokenPage :=
  match page with
  | .data => .data
  | page =>
    if pairs = [("token", "<redacted>")] then .redacted
    else if pairs = [("token", "secret")] then .secret
    else page

def isHttps (page : TokenPage) : Bool :=
  page != .data

theorem isHttps_withPairs (page : TokenPage) (pairs : List (String × String)) :
    (page.withPairs pairs).isHttps = page.isHttps := by
  cases page with
  | data => rfl
  | plain | secret | redacted => simp only [withPairs]; split_ifs <;> rfl

def parse (text : String) : Option TokenPage :=
  [plain, secret, redacted, data].find? fun page => page.text = text

end TokenPage

open TokenPage

instance : DocumentUrl TokenPage where
  asStr := text
  scheme page := if page.isHttps then "https" else "data"
  fragment _ := none
  withoutFragment page := page
  sameOrigin left right := left.isHttps && right.isHttps
  pathSegments _ := some [""]
  hostStr _ := some "example.com"
  username _ := ""
  password _ := none
  query := query
  queryPairs := pairs
  setUsername _ _ := none
  setPassword _ _ := none
  setQueryPairs := withPairs
  parse := parse
  join base href := if href = "" && base.isHttps then some base else parse href

instance : LawfulDocumentUrl TokenPage where
  asStr_injective := by
    intro left right same
    cases left <;> cases right <;> first | rfl | (revert same; decide +kernel)
  scheme_withoutFragment _ := rfl
  fragment_withoutFragment _ := rfl
  sameOrigin_withoutFragment := by
    intro page http
    cases page <;> revert http <;> decide +kernel
  parse_asStr := by
    intro page
    cases page <;> decide +kernel
  parse_redactedData := ⟨.data, by decide +kernel, rfl⟩
  withoutFragment_eq_self _ _ := rfl
  eq_of_withoutFragment _ _ same _ := same
  keeps_setUsername _ _ _ edited := by cases edited
  keeps_setPassword _ _ _ edited := by cases edited
  keeps_setQueryPairs := by
    intro page pairs
    have https : (setQueryPairs page pairs).isHttps = page.isHttps :=
      page.isHttps_withPairs pairs
    refine ⟨?_, rfl, ?_⟩
    · simp only [PageUrl.scheme, https]
    · intro http
      have isHttps : page.isHttps = true := by
        cases page <;> revert http <;> decide +kernel
      simp [PageUrl.sameOrigin, https, isHttps]
  sameOrigin_symm := by
    intro left right
    cases left <;> cases right <;> decide +kernel
  sameOrigin_trans := by
    intro first second third
    cases first <;> cases second <;> cases third <;> decide +kernel
  join_empty := by
    intro base http
    cases base <;> revert http <;> decide +kernel
  join_elsewhere := by
    intro base other link href joined http foreign scheme
    -- A reference from a page of the site stays at its origin.
    have data : base = .data := by
      by_contra https
      have same : PageUrl.sameOrigin link base = true := by
        cases link <;> cases base <;> revert http https <;> decide +kernel
      have baseHttp : PageUrl.isHttp base = true := by
        cases base <;> revert https <;> decide +kernel
      rw [foreign baseHttp] at same
      cases same
    subst data
    have data : other = .data := by
      cases other <;> revert scheme <;> decide +kernel
    rw [data]
    exact joined

/-- A crawl of one site, restricted to its origin. -/
def tokenRequest : CrawlRequest TokenPage where
  seed := ⟨.plain, .bytes⟩
  outputDirectory := "pages"
  maximumPages := 10
  maximumDepth := 1
  concurrency := 1
  sameOrigin := true
  resume := none

theorem crawlPageLinks_plain :
    default.redact plain = PageUrl.asStr plain ∧
    ∀ elements link,
      link ∈ crawlPageLinks tokenRequest .plain (capturedPage plain elements) ↔
        PageLink tokenRequest .plain elements link :=
  ⟨rfl, (crawlPageLinks_iff tokenRequest .plain .plain).mpr fun _ _ => rfl⟩

/-- The page links to itself, and the crawl follows the redacted URL instead. -/
theorem not_crawlPageLinks_secret :
    ¬ ∀ elements link,
      link ∈ crawlPageLinks tokenRequest .secret (capturedPage secret elements) ↔
        PageLink tokenRequest .secret elements link := by
  intro agree
  have crawled : crawlPageLinks tokenRequest .secret (capturedPage secret selfReference) =
      [.redacted] := by decide +kernel
  have own : PageLink tokenRequest .secret selfReference .secret :=
    (pageLink_selfReference rfl).mpr ⟨rfl, fun _ => rfl⟩
  have followed := (agree selfReference .secret).mpr own
  rw [crawled] at followed
  simp at followed

end Offprint.Scheduler
