import Offprint.Network.Destination

/-!
# Cookies of a capture

The cookies a page is given before it is navigated.  The domain of a cookie is
compared with the host of the initial URL.
-/

namespace Offprint.Chromium

open Data Effect Model Network Verdict

inductive CookieSameSite where
  | strict
  | lax
  | none
  deriving Repr, DecidableEq

def CookieSameSite.text : CookieSameSite → String
  | strict => "Strict"
  | lax => "Lax"
  | none => "None"

structure BrowserCookie where
  name : String
  value : String
  url : Option Url
  domain : Option String
  path : Option String
  secure : Option Bool
  httpOnly : Option Bool
  sameSite : Option CookieSameSite
  expires : Option Int

def numberOf : Int → JsonNumber
  | .ofNat value => .natural value
  | .negSucc value => .negative (value + 1)

def withoutLeadingDots (domain : String) : List Char :=
  domain.toList.dropWhile (· == '.')

def cookieDomainMatches (domain : String) (initialHost : Option String) : Bool :=
  let domain := withoutLeadingDots domain
  initialHost.any fun host =>
    eqIgnoreAsciiCase host (String.ofList domain) ||
      (host.toList.dropSuffix? domain).any fun before => before.getLast? == some '.'

section Apply

variable (asStr : Url → String)

def BrowserCookie.parameter (cookie : BrowserCookie) : Json :=
  .object <| [("name", .string cookie.name), ("value", .string cookie.value)] ++
    (cookie.url.map fun url => ("url", .string (asStr url))).toList ++
    (cookie.domain.map fun domain => ("domain", .string domain)).toList ++
    (cookie.path.map fun path => ("path", .string path)).toList ++
    (cookie.secure.map fun secure => ("secure", .bool secure)).toList ++
    (cookie.httpOnly.map fun httpOnly => ("httpOnly", .bool httpOnly)).toList ++
    (cookie.sameSite.map fun sameSite => ("sameSite", .string sameSite.text)).toList ++
    (cookie.expires.map fun expires => ("expires", .number (numberOf expires))).toList

def credentialsError : OffprintError :=
  .new "offprint.input.credentials" .validation "cookie domain is outside the initial capture host"

/-- The admission of a URL, where names are resolved as given. -/
def validateGuardDestination (guard : NetworkGuard) (resolver : Resolver) (url : Url) :
    Except OffprintError Unit :=
  ((validateNetworkUrl guard url).run.exec resolver).1

variable (guard : NetworkGuard) (resolver : Resolver) (initialUrl : Url)

def checkCookie (cookie : BrowserCookie) : Except OffprintError Unit := do
  match cookie.url with
  | some url => validateGuardDestination guard resolver url
  | none => pure ()
  if cookie.domain.any fun domain => !cookieDomainMatches domain initialUrl.hostStr then
    throw credentialsError

/-- The cookies the browser is told to set, or nothing where it is told nothing. -/
def applyCredentials (cookies : List BrowserCookie) : Except OffprintError (Option Json) :=
  if cookies.isEmpty then return none
  else do
    cookies.forM (checkCookie guard resolver initialUrl)
    return some (.object [("cookies", .array (cookies.map (BrowserCookie.parameter asStr)))])

end Apply

/-! ## Where cookies may go -/

section Allowed

/-- The text of an address, in brackets if a URL writes it so. -/
def isAddressLiteral (host : String) : Bool :=
  let inner :=
    if host.toList.head? = some '[' ∧ host.toList.getLast? = some ']' then
      String.ofList host.toList.tail.dropLast
    else host
  (parseIpAddr inner).isSome

def lower (text : List Char) : List Char :=
  text.map Char.toLower

/-- A domain covers the hosts below it, and no addresses but itself. -/
def DomainAllowed (domain host : String) : Prop :=
  let name := withoutLeadingDots domain
  name ≠ [] ∧ (lower host.toList = lower name ∨
    isAddressLiteral host = false ∧ '.' :: lower name <:+ lower host.toList)

/-- What a domain and a host must be like for their comparison to be exact. -/
structure PlainlyCompared (domain host : String) : Prop where
  named : withoutLeadingDots domain = [] → host.toList ≠ [] ∧ ¬ ['.'] <:+ host.toList
  address : isAddressLiteral host = true → ¬ '.' :: withoutLeadingDots domain <:+ host.toList
  cased : withoutLeadingDots domain ≠ [] → isAddressLiteral host = false →
    '.' :: lower (withoutLeadingDots domain) <:+ lower host.toList →
      '.' :: withoutLeadingDots domain <:+ host.toList

variable {domain host : String} {name text : List Char}

theorem lower_toList (text : String) : text.toLower.toList = lower text.toList :=
  String.toList_map

theorem cookieDomainMatches_iff :
    cookieDomainMatches domain (some host) = true ↔
      lower host.toList = lower (withoutLeadingDots domain) ∨
        '.' :: withoutLeadingDots domain <:+ host.toList := by
  have equal : eqIgnoreAsciiCase host (String.ofList (withoutLeadingDots domain)) = true ↔
      lower host.toList = lower (withoutLeadingDots domain) := by
    rw [eqIgnoreAsciiCase, beq_iff_eq, ← String.toList_inj, lower_toList, lower_toList,
      String.toList_ofList]
  have below : ((host.toList.dropSuffix? (withoutLeadingDots domain)).any
      fun before => before.getLast? == some '.') = true ↔
      '.' :: withoutLeadingDots domain <:+ host.toList := by
    simp only [Option.any_eq_true, List.dropSuffix?_eq_some_iff, beq_iff_eq, exists_eq_right]
    constructor
    · rintro ⟨before, split, dot⟩
      obtain ⟨front, rfl⟩ := List.getLast?_eq_some_iff.mp dot
      exact ⟨front, by simp [split]⟩
    · rintro ⟨front, split⟩
      exact ⟨front ++ ['.'], by simp [← split], by simp⟩
  simp only [cookieDomainMatches, Option.any_some, Bool.or_eq_true, equal, below]

/-- A host that equals a domain up to case does not end in a dot and the domain. -/
theorem not_below_of_equal (equal : lower text = lower name) :
    ¬ '.' :: lower name <:+ lower text := by
  intro below
  have longer := below.length_le
  rw [equal, List.length_cons] at longer
  omega

theorem lower_below (below : '.' :: name <:+ text) : '.' :: lower name <:+ lower text := by
  obtain ⟨front, rfl⟩ := below
  exact ⟨lower front, by simp [lower]⟩

theorem matches_exactly_iff :
    (cookieDomainMatches domain (some host) = true ↔ DomainAllowed domain host) ↔
      PlainlyCompared domain host := by
  rw [cookieDomainMatches_iff, DomainAllowed]
  constructor
  · intro exact
    refine ⟨fun empty => ?_, fun literal below => ?_,
      fun given name below => ?_⟩
    · constructor
      · intro nothing
        exact (exact.mp (.inl (by rw [nothing, empty]))).1 empty
      · intro dotted
        exact (exact.mp (.inr (by rwa [empty]))).1 empty
    · rcases (exact.mp (.inr below)).2 with equal | ⟨other, -⟩
      · exact not_below_of_equal equal (lower_below below)
      · exact absurd (literal.symm.trans other) (by decide)
    · exact (exact.mpr ⟨given, .inr ⟨name, below⟩⟩).resolve_left
        fun equal => not_below_of_equal equal below
  · intro plain
    constructor
    · intro accepted
      constructor
      · intro empty
        rw [empty] at accepted
        rcases accepted with equal | dotted
        · exact (plain.named empty).1 (List.map_eq_nil_iff.mp equal)
        · exact (plain.named empty).2 dotted
      · refine accepted.imp_right fun below => ?_
        cases literal : isAddressLiteral host with
        | true => exact absurd below (plain.address literal)
        | false => exact ⟨rfl, lower_below below⟩
    · rintro ⟨given, equal | ⟨literal, below⟩⟩
      · exact .inl equal
      · exact .inr (plain.cased given literal below)

end Allowed

/-! ## Applied cookies -/

section Applied

variable {asStr : Url → String} {guard : NetworkGuard} {resolver : Resolver} {initialUrl : Url}
  {cookies : List BrowserCookie}

/-- The guard lets the URLs of the cookies pass. -/
def UrlsPass (guard : NetworkGuard) (resolver : Resolver) (cookies : List BrowserCookie) : Prop :=
  ∀ cookie ∈ cookies, ∀ url ∈ cookie.url, validateGuardDestination guard resolver url = .ok ()

theorem checkCookie_eq_ok_iff {cookie : BrowserCookie}
    (passes : ∀ url ∈ cookie.url, validateGuardDestination guard resolver url = .ok ()) :
    checkCookie guard resolver initialUrl cookie = .ok () ↔
      ∀ domain ∈ cookie.domain, cookieDomainMatches domain initialUrl.hostStr = true := by
  have admitted : checkCookie guard resolver initialUrl cookie =
      if cookie.domain.any fun domain => !cookieDomainMatches domain initialUrl.hostStr then
        throw credentialsError else pure () := by
    unfold checkCookie
    cases given : cookie.url with
    | none => rfl
    | some url =>
      dsimp only
      rw [passes url given]
      rfl
  rw [admitted, ite_throw_eq_ok_iff, pure_eq_ok_iff]
  simp [Option.any_eq_false]

/-- The browser is told to set the cookies exactly where every domain is accepted. -/
structure DomainDecided (domain host : String) : Prop where
  compared : cookieDomainMatches domain (some host) = true ↔ DomainAllowed domain host
  applied (asStr : Url → String) (guard : NetworkGuard) (resolver : Resolver) (initialUrl : Url)
    (cookies : List BrowserCookie) : initialUrl.hostStr = some host →
    UrlsPass guard resolver cookies →
    (∀ cookie ∈ cookies, ∀ given ∈ cookie.domain, given = domain) →
    ((∃ sent, applyCredentials asStr guard resolver initialUrl cookies = .ok sent) ↔
      ∀ cookie ∈ cookies, cookie.domain.isSome → DomainAllowed domain host)

theorem applyCredentials_eq_ok_iff (passing : UrlsPass guard resolver cookies) :
    (∃ sent, applyCredentials asStr guard resolver initialUrl cookies = .ok sent) ↔
      ∀ cookie ∈ cookies, ∀ domain ∈ cookie.domain,
        cookieDomainMatches domain initialUrl.hostStr = true := by
  have checked : (∀ cookie ∈ cookies, checkCookie guard resolver initialUrl cookie = .ok ()) ↔
      ∀ cookie ∈ cookies, ∀ domain ∈ cookie.domain,
        cookieDomainMatches domain initialUrl.hostStr = true :=
    forall₂_congr fun cookie member => checkCookie_eq_ok_iff (passing cookie member)
  rw [← checked, applyCredentials]
  cases cookies with
  | nil => simp [pure, Except.pure]
  | cons =>
    simp only [List.isEmpty_cons, Bool.false_eq_true, if_false, bind_eq_ok_iff,
      forM_eq_ok_iff, pure_eq_ok_iff]
    exact ⟨fun ⟨_, _, passed, _⟩ => passed, fun passed => ⟨_, (), passed, rfl⟩⟩

theorem domainDecided_iff (domain host : String) :
    DomainDecided domain host ↔ PlainlyCompared domain host := by
  constructor
  · exact fun decided => matches_exactly_iff.mp decided.compared
  · intro plain
    have compared := matches_exactly_iff.mpr plain
    refine ⟨compared, fun asStr guard resolver initialUrl cookies hosted passing same => ?_⟩
    rw [applyCredentials_eq_ok_iff passing, hosted, ← compared]
    refine forall₂_congr fun cookie member => ?_
    cases given : cookie.domain with
    | none => simp
    | some other => simp [same cookie member other given]

/-- A subdomain is refused where the case of the letters differs. -/
theorem not_domainDecided_upper_case : ¬ DomainDecided "Example.com" "www.example.com" := by
  intro decided
  have below : DomainAllowed "Example.com" "www.example.com" := by
    refine ⟨by decide, .inr ⟨by decide, "www".toList, by decide⟩⟩
  exact absurd (cookieDomainMatches_iff.mp (decided.compared.mpr below)) (by decide)

end Applied

end Offprint.Chromium
