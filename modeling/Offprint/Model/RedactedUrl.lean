import Offprint.Model.WebUrl

/-!
# What a redacted URL shows

URLs that differ only in what is secret are redacted to one text.  Everything else is
kept, and the redacted text is a URL that redaction leaves alone.
-/

namespace Offprint.Model

open UrlParts Option

namespace RedactionPolicy

variable (policy : RedactionPolicy)

section Pairs

/-- Two query fields of one name, whose values differ only if they are secret. -/
def AgreeOnPair (first second : String × String) : Prop :=
  first.1 = second.1 ∧ (policy.isSecretQueryKey first.1 = false → first.2 = second.2)

def AgreeOnPairs (first second : List (String × String)) : Prop :=
  List.Forall₂ policy.AgreeOnPair first second

variable {policy}

theorem redactPair_eq_of_agree {first second : String × String}
    (agree : policy.AgreeOnPair first second) :
    policy.redactPair first = policy.redactPair second := by
  obtain ⟨name, value⟩ := agree
  cases secret : policy.isSecretQueryKey first.1 with
  | true => simp only [redactPair, ← name, secret, if_true]
  | false => simp only [redactPair, ← name, value secret]

theorem map_redactPair_eq_of_agree {first second : List (String × String)}
    (agree : policy.AgreeOnPairs first second) :
    first.map policy.redactPair = second.map policy.redactPair := by
  induction agree with
  | nil => rfl
  | cons head _ ih =>
    rw [List.map_cons, List.map_cons, redactPair_eq_of_agree head, ih]

variable (policy)

theorem redactPair_redactPair (pair : String × String) :
    policy.redactPair (policy.redactPair pair) = policy.redactPair pair := by
  by_cases secret : policy.isSecretQueryKey pair.1 = true <;> simp [redactPair, secret]

theorem map_redactPair_redactPair (pairs : List (String × String)) :
    (pairs.map policy.redactPair).map policy.redactPair = pairs.map policy.redactPair := by
  rw [List.map_map]
  exact List.map_congr_left fun pair _ => policy.redactPair_redactPair pair

theorem agreeOnPairs_map_redactPair (pairs : List (String × String)) :
    policy.AgreeOnPairs pairs (pairs.map policy.redactPair) := by
  induction pairs with
  | nil => exact .nil
  | cons pair pairs ih =>
    refine .cons ⟨rfl, fun shown => ?_⟩ ih
    rw [redactPair, shown]
    rfl

end Pairs

section Parts

def redactedUsername (username : List Char) : List Char :=
  if username = [] then [] else encodeUserinfo redaction

def redactedPassword (password : Option (List Char)) : Option (List Char) :=
  password.map fun _ => encodeUserinfo redaction

def redactedQuery (query : Option (List Char)) : Option (List Char) :=
  query.map fun query => serializeQuery ((queryPairs query).map policy.redactPair)

def redactedParts (parts : UrlParts) : UrlParts :=
  { parts with
    username := redactedUsername parts.username
    password := redactedPassword parts.password
    query := policy.redactedQuery parts.query }

/-- Queries that are both missing, or whose fields agree. -/
def AgreeOnQuery (first second : Option (List Char)) : Prop :=
  first.isSome = second.isSome ∧
    policy.AgreeOnPairs (first.elim [] queryPairs) (second.elim [] queryPairs)

/-- URLs that differ only in a user name or a password that both have, or in the values of
secret query fields. -/
structure AgreeOnParts (first second : UrlParts) : Prop where
  scheme : first.scheme = second.scheme
  username : first.username = [] ↔ second.username = []
  password : first.password.isSome = second.password.isSome
  host : first.host = second.host
  port : first.port = second.port
  path : first.path = second.path
  query : policy.AgreeOnQuery first.query second.query
  fragment : first.fragment = second.fragment

variable {policy}

theorem redactedQuery_eq_of_agree {first second : Option (List Char)}
    (agree : policy.AgreeOnQuery first second) :
    policy.redactedQuery first = policy.redactedQuery second := by
  obtain ⟨both, fields⟩ := agree
  match first, second with
  | none, none => rfl
  | some _, some _ =>
    exact congrArg (fun pairs => some (serializeQuery pairs)) (map_redactPair_eq_of_agree fields)

theorem redactedParts_eq_of_agree {first second : UrlParts}
    (agree : policy.AgreeOnParts first second) :
    policy.redactedParts first = policy.redactedParts second := by
  have username : redactedUsername first.username = redactedUsername second.username := by
    simp only [redactedUsername, agree.username]
  have password : redactedPassword first.password = redactedPassword second.password := by
    have both := agree.password
    cases one : first.password <;> cases other : second.password <;> simp_all [redactedPassword]
  simp only [redactedParts, agree.scheme, username, password, agree.host, agree.port,
    agree.path, redactedQuery_eq_of_agree agree.query, agree.fragment]

variable (policy)

theorem redactedUsername_redactedUsername (username : List Char) :
    redactedUsername (redactedUsername username) = redactedUsername username := by
  have filled : encodeUserinfo redaction ≠ [] := by decide
  by_cases empty : username = [] <;> simp [redactedUsername, empty, filled]

theorem queryPairs_redactedQuery (query : Option (List Char)) :
    (policy.redactedQuery query).elim [] queryPairs =
      (query.elim [] queryPairs).map policy.redactPair := by
  cases query with
  | none => rfl
  | some query => exact queryPairs_serializeQuery _

theorem redactedQuery_redactedQuery (query : Option (List Char)) :
    policy.redactedQuery (policy.redactedQuery query) = policy.redactedQuery query := by
  cases query with
  | none => rfl
  | some query =>
    simp only [redactedQuery, map_some, queryPairs_serializeQuery, map_redactPair_redactPair]

theorem redactedParts_redactedParts (parts : UrlParts) :
    policy.redactedParts (policy.redactedParts parts) = policy.redactedParts parts := by
  have password : redactedPassword (redactedPassword parts.password) =
      redactedPassword parts.password := by
    rw [redactedPassword, redactedPassword, map_map]
    rfl
  simp only [redactedParts, redactedUsername_redactedUsername, password,
    redactedQuery_redactedQuery]

end Parts

section Urls

/-- URLs that differ only in their secrets; the body of a `data` URL is one. -/
inductive AgreeUpToSecrets : SourceUrl → SourceUrl → Prop where
  | web {first second : WebUrl} (parts : policy.AgreeOnParts first.1 second.1) :
      AgreeUpToSecrets (.web first) (.web second)
  | data (first second : List Char) : AgreeUpToSecrets (.data first) (.data second)

section

variable (url : WebUrl)
include url

theorem redactUsername_web :
    ∃ result : WebUrl, redactUsername (SourceUrl.web url) = .web result ∧
      result.1 = { url.1 with username := redactedUsername url.1.username } := by
  by_cases empty : url.1.username = []
  · refine ⟨url, if_pos ?_, ?_⟩
    · exact String.ofList_eq_empty_iff.mpr empty
    · rw [redactedUsername, if_pos empty, ← empty]
  · refine ⟨_, if_neg ?_, ?_⟩
    · exact fun blank => empty (String.ofList_eq_empty_iff.mp blank)
    · rw [redactedUsername, if_neg empty]

theorem redactPassword_web :
    ∃ result : WebUrl, redactPassword (SourceUrl.web url) = .web result ∧
      result.1 = { url.1 with password := redactedPassword url.1.password } := by
  have filled : encodePassword (some redaction) = some (encodeUserinfo redaction) := by decide
  cases password : url.1.password with
  | none =>
    refine ⟨url, if_neg ?_, ?_⟩
    · change ¬(url.1.password.map String.ofList).isSome = true
      rw [password]
      decide
    · rw [redactedPassword, map_none, ← password]
  | some text =>
    refine ⟨_, if_pos ?_, ?_⟩
    · change (url.1.password.map String.ofList).isSome = true
      rw [password]
      rfl
    · rw [redactedPassword, map_some, ← filled]

theorem redactQuery_web :
    ∃ result : WebUrl, policy.redactQuery (SourceUrl.web url) = .web result ∧
      result.1 = { url.1 with query := policy.redactedQuery url.1.query } := by
  cases query : url.1.query with
  | none =>
    refine ⟨url, if_neg ?_, ?_⟩
    · change ¬(url.1.query.map String.ofList).isSome = true
      rw [query]
      decide
    · rw [redactedQuery, map_none, ← query]
  | some text =>
    refine ⟨_, if_pos ?_, ?_⟩
    · change (url.1.query.map String.ofList).isSome = true
      rw [query]
      rfl
    · have fields : EditableUrl.queryPairs (SourceUrl.web url) = queryPairs text := by
        change url.1.query.elim [] queryPairs = queryPairs text
        rw [query]
        rfl
      rw [fields]
      rfl

theorem redacted_web :
    ∃ result : WebUrl, policy.redacted (SourceUrl.web url) = .web result ∧
      result.1 = policy.redactedParts url.1 := by
  obtain ⟨named, username, namedParts⟩ := redactUsername_web url
  obtain ⟨closed, password, closedParts⟩ := redactPassword_web named
  obtain ⟨result, query, parts⟩ := policy.redactQuery_web closed
  refine ⟨result, ?_, ?_⟩
  · rw [redacted, username, password, query]
  · rw [parts, closedParts, namedParts, redactedParts]

theorem redact_web :
    policy.redact (SourceUrl.web url) = String.ofList (policy.redactedParts url.1).text := by
  obtain ⟨result, redacted, parts⟩ := policy.redacted_web url
  have other : Scheduler.PageUrl.scheme (SourceUrl.web url) ≠ "data" := by
    change url.1.scheme.text ≠ "data"
    cases url.1.scheme <;> decide
  rw [redact, if_neg other, redacted, ← parts]
  rfl

end

theorem redact_eq_of_agree {first second : SourceUrl}
    (agree : policy.AgreeUpToSecrets first second) :
    policy.redact first = policy.redact second := by
  cases agree with
  | web parts => rw [redact_web, redact_web, redactedParts_eq_of_agree parts]
  | data first second => rfl

theorem parse_redact_web (url : WebUrl) :
    ∃ result : WebUrl, SourceUrl.parse (policy.redact (SourceUrl.web url)).toList =
        some (.web result) ∧ result.1 = policy.redactedParts url.1 := by
  obtain ⟨result, -, parts⟩ := policy.redacted_web url
  refine ⟨result, ?_, parts⟩
  rw [redact_web, String.toList_ofList, ← parts]
  exact SourceUrl.parse_text (.web result)

/-- URLs that differ only in secrets are redacted to one text.  The redacted text of any URL
reads back as a URL that redaction leaves alone, with every query field in its place under its
name and with its value, unless that is secret. -/
theorem redact_hides_secrets :
    (∀ first second : SourceUrl, policy.AgreeUpToSecrets first second →
        policy.redact first = policy.redact second) ∧
      ∀ url : SourceUrl, ∃ result : SourceUrl,
        SourceUrl.parse (policy.redact url).toList = some result ∧
          policy.redact result = policy.redact url ∧
          (Scheduler.PageUrl.isHttp url = true →
            policy.AgreeOnPairs (EditableUrl.queryPairs url) (EditableUrl.queryPairs result)) := by
  refine ⟨fun first second => policy.redact_eq_of_agree, fun url => ?_⟩
  cases url with
  | web url =>
    obtain ⟨result, parsed, parts⟩ := policy.parse_redact_web url
    refine ⟨.web result, parsed, ?_, fun _ => ?_⟩
    · rw [redact_web, redact_web, parts, redactedParts_redactedParts]
    · have fields := policy.queryPairs_redactedQuery url.1.query
      have query : result.1.query = policy.redactedQuery url.1.query := by
        rw [parts]
        rfl
      change policy.AgreeOnPairs (url.1.query.elim [] queryPairs)
        (result.1.query.elim [] queryPairs)
      rw [query, fields]
      exact policy.agreeOnPairs_map_redactPair _
  | data body =>
    have text : ∀ body, policy.redact (SourceUrl.data body) = "data:[redacted]" :=
      fun _ => if_pos rfl
    refine ⟨.data "[redacted]".toList, ?_, ?_, ?_⟩
    · rw [text]
      decide
    · rw [text, text]
    · intro http
      cases http

def sampleParts (username query : String) : UrlParts :=
  ⟨.https, username.toList, none, "example.com".toList, none, "/a".toList, some query.toList, none⟩

/-- A link whose secret field has an encoded name. -/
def firstLink : WebUrl :=
  ⟨sampleParts "ann" "access%5Ftoken=one&view=full", by decide⟩

def secondLink : WebUrl :=
  ⟨sampleParts "bob" "access_token=two&view=full", by decide⟩

theorem redact_hides_secrets_links :
    firstLink ≠ secondLink ∧
      RedactionPolicy.default.redact (SourceUrl.web firstLink) =
        RedactionPolicy.default.redact (SourceUrl.web secondLink) := by
  have fields : queryPairs "access%5Ftoken=one&view=full".toList =
      [("access_token", "one"), ("view", "full")] := by decide +kernel
  have others : queryPairs "access_token=two&view=full".toList =
      [("access_token", "two"), ("view", "full")] := by decide +kernel
  have secret : RedactionPolicy.default.isSecretQueryKey "access_token" = true := by decide +kernel
  refine ⟨by decide, (redact_hides_secrets .default).1 _ _ (.web ?_)⟩
  refine ⟨rfl, by decide, rfl, rfl, rfl, rfl, ⟨rfl, ?_⟩, rfl⟩
  change AgreeOnPairs .default (queryPairs "access%5Ftoken=one&view=full".toList)
    (queryPairs "access_token=two&view=full".toList)
  rw [fields, others]
  refine .cons ⟨rfl, fun shown => ?_⟩ (.cons ⟨rfl, fun _ => rfl⟩ .nil)
  rw [secret] at shown
  cases shown

end Urls
end RedactionPolicy
end Offprint.Model
