import Offprint.Data.Percent
import Offprint.Scheduler.Manifest

/-!
# Web addresses and their redaction

The form in which URLs leave a capture: credentials and the values of secret
query fields are replaced.  The URL library's accessors and setters are
operations of a class.

A parsed `http` or `https` URL is the parts its text is put together from.  The parts of
a parsed URL are canonical: every delimiter that would end a part is percent-encoded in
it, so that the text comes apart again into the same parts.  A `data` URL is its body.
-/

namespace Offprint.Model

open Data List Option Percent
open Offprint.Scheduler (PageUrl)

/-- A URL whose credentials and query can be replaced.  `setUsername` and
`setPassword` fail where a URL cannot have credentials, and `setQueryPairs`
encodes the pairs into a new query. -/
class EditableUrl (Url : Type) extends PageUrl Url where
  username : Url → String
  password : Url → Option String
  query : Url → Option String
  queryPairs : Url → List (String × String)
  setUsername : Url → String → Option Url
  setPassword : Url → Option String → Option Url
  setQueryPairs : Url → List (String × String) → Url

structure RedactionPolicy where
  secretQueryKeys : List String
  deriving Repr, DecidableEq

def secretSuffixes : List String :=
  ["accesskeyid", "apikey", "authorization", "credential", "password", "secret", "signature",
    "token"]

/-- The text that stands for what was removed. -/
def redaction : String := "<redacted>"

namespace RedactionPolicy

def new (secretQueryKeys : List String) : RedactionPolicy :=
  ⟨secretQueryKeys.map String.toLower⟩

def default : RedactionPolicy :=
  new ["access_token", "api_key", "apikey", "auth", "authorization", "awsaccesskeyid",
    "credential", "key", "key-pair-id", "password", "policy", "secret", "signature", "sig",
    "token"]

def isSecretQueryKey (policy : RedactionPolicy) (key : String) : Bool :=
  let key := key.toLower
  policy.secretQueryKeys.contains key ||
    (key.toList.splitOnP fun character => !character.isAlphanum).any
      (fun part => policy.secretQueryKeys.contains (String.ofList part)) ||
    secretSuffixes.any fun suffix => suffix.toList.isSuffixOf key.toList

def redactPair (policy : RedactionPolicy) (pair : String × String) : String × String :=
  (pair.1, if policy.isSecretQueryKey pair.1 then redaction else pair.2)

section Urls

variable {Url : Type} [EditableUrl Url]

def redactUsername (url : Url) : Url :=
  if EditableUrl.username url = "" then url
  else (EditableUrl.setUsername url redaction).getD url

def redactPassword (url : Url) : Url :=
  if (EditableUrl.password url).isSome then
    (EditableUrl.setPassword url (some redaction)).getD url
  else
    url

def redactQuery (policy : RedactionPolicy) (url : Url) : Url :=
  if (EditableUrl.query url).isSome then
    EditableUrl.setQueryPairs url ((EditableUrl.queryPairs url).map policy.redactPair)
  else
    url

/-- A URL other than a data URL without its secrets. -/
def redacted (policy : RedactionPolicy) (url : Url) : Url :=
  policy.redactQuery (redactPassword (redactUsername url))

def redact (policy : RedactionPolicy) (url : Url) : String :=
  if PageUrl.scheme url = "data" then "data:[redacted]" else PageUrl.asStr (policy.redacted url)

end Urls
end RedactionPolicy

inductive WebScheme where
  | http
  | https
  deriving Repr, DecidableEq

namespace WebScheme

def text : WebScheme → String
  | http => "http"
  | https => "https"

def defaultPort : WebScheme → Nat
  | http => 80
  | https => 443

end WebScheme

/-- The parts of a URL, percent-encoded as they stand in its text. -/
structure UrlParts where
  scheme : WebScheme
  username : List Char
  password : Option (List Char)
  host : List Char
  port : Option Nat
  path : List Char
  query : Option (List Char)
  fragment : Option (List Char)
  deriving Repr, DecidableEq

namespace UrlParts

section Canonical

/-- The delimiters behind the authority of a URL. -/
def endsAuthority (char : Char) : Bool :=
  char == '/' || char == '?' || char == '#'

def endsPath (char : Char) : Bool :=
  char == '?' || char == '#'

def isUserinfoChar (char : Char) : Bool :=
  char != ':' && char != '@' && !endsAuthority char

/-- A host is an address in brackets or has no colon. -/
def isHost : List Char → Bool
  | '[' :: rest =>
    rest.getLast? == some ']' &&
      rest.dropLast.all fun char => char != ']' && char != '@' && !endsAuthority char
  | host => host != [] && host.all isUserinfoChar

structure Canonical (parts : UrlParts) : Prop where
  username : parts.username.all isUserinfoChar = true
  password : parts.password.all (fun text => text != [] && text.all isUserinfoChar) = true
  host : isHost parts.host = true
  path : parts.path.head? = some '/' ∧ parts.path.all (fun char => !endsPath char) = true
  query : parts.query.all (fun text => text.all fun char => char != '#') = true

instance (parts : UrlParts) : Decidable parts.Canonical :=
  decidable_of_iff
    (parts.username.all isUserinfoChar = true ∧
      parts.password.all (fun text => text != [] && text.all isUserinfoChar) = true ∧
      isHost parts.host = true ∧
      (parts.path.head? = some '/' ∧ parts.path.all (fun char => !endsPath char) = true) ∧
      parts.query.all (fun text => text.all fun char => char != '#') = true)
    ⟨fun ⟨username, password, host, path, query⟩ => ⟨username, password, host, path, query⟩,
      fun canonical => ⟨canonical.username, canonical.password, canonical.host, canonical.path,
        canonical.query⟩⟩

end Canonical

section Text

/-- A part that is missing takes its delimiter with it. -/
def delimited (delimiter : Char) : Option (List Char) → List Char
  | none => []
  | some text => delimiter :: text

def userinfo (parts : UrlParts) : List Char :=
  if parts.username = [] ∧ parts.password = none then []
  else parts.username ++ delimited ':' parts.password ++ ['@']

def authority (parts : UrlParts) : List Char :=
  parts.userinfo ++ parts.host ++ delimited ':' (parts.port.map (Nat.toDigits 10))

def text (parts : UrlParts) : List Char :=
  parts.scheme.text.toList ++ "://".toList ++ parts.authority ++ parts.path ++
    delimited '?' parts.query ++ delimited '#' parts.fragment

end Text

section Parse

def parseScheme (text : List Char) : Option (WebScheme × List Char) :=
  if "http://".toList.isPrefixOf text then some (.http, text.drop 7)
  else if "https://".toList.isPrefixOf text then some (.https, text.drop 8)
  else none

def behind (delimiter : Char) : List Char → Option (List Char)
  | [] => none
  | char :: rest => if char = delimiter then some rest else none

/-- The user information of an authority and what stands behind it. -/
def parseUserinfo (authority : List Char) : List Char × List Char :=
  match authority.dropWhile (· != '@') with
  | [] => ([], authority)
  | _ :: host => (authority.takeWhile (· != '@'), host)

/-- The end of a host: in front of a colon, or behind a bracket. -/
def parseHost (text : List Char) : List Char × List Char :=
  match text with
  | '[' :: _ => (text.takeWhile (· != ']') ++ [']'], (text.dropWhile (· != ']')).drop 1)
  | _ => (text.takeWhile (· != ':'), text.dropWhile (· != ':'))

def parse (text : List Char) : Option UrlParts := do
  let (scheme, rest) ← parseScheme text
  let authority := rest.takeWhile fun char => !endsAuthority char
  let rest := rest.dropWhile fun char => !endsAuthority char
  let (userinfo, hostPort) := parseUserinfo authority
  let (host, port) := parseHost hostPort
  let path := rest.takeWhile fun char => !endsPath char
  let rest := rest.dropWhile fun char => !endsPath char
  return {
    scheme := scheme
    username := userinfo.takeWhile (· != ':')
    password := behind ':' (userinfo.dropWhile (· != ':'))
    host := host
    port := (behind ':' port).map fun digits => Nat.ofDigitChars 10 digits 0
    path := path
    query := (behind '?' rest).map fun text => text.takeWhile (· != '#')
    fragment := behind '#' (rest.dropWhile (· != '#')) }

end Parse

section RoundTrip

theorem all_mono {test weaker : Char → Bool} {text : List Char} (all : text.all test = true)
    (implies : ∀ char, test char = true → weaker char = true) : text.all weaker = true :=
  all_eq_true.mpr fun char inside => implies char (all_eq_true.mp all char inside)

theorem isUserinfoChar_spec {char : Char} (plain : isUserinfoChar char = true) :
    (char != ':') = true ∧ (char != '@' && !endsAuthority char) = true := by
  simp_all [isUserinfoChar]

theorem span_append {test : Char → Bool} {front rest : List Char}
    (inside : front.all test = true) (stops : rest.head?.all (fun char => !test char) = true) :
    (front ++ rest).takeWhile test = front ∧ (front ++ rest).dropWhile test = rest := by
  have each : ∀ char ∈ front, test char = true := all_eq_true.mp inside
  rw [takeWhile_append_of_pos each, dropWhile_append_of_pos each]
  cases rest with
  | nil => simp
  | cons char rest =>
    have fails : test char = false := by simpa using stops
    simp [fails]

theorem behind_delimited (delimiter : Char) (text : Option (List Char)) :
    behind delimiter (delimited delimiter text) = text := by
  cases text <;> simp [delimited, behind]

theorem head?_delimited_all {test : Char → Bool} {delimiter : Char} (stops : test delimiter = true)
    (text : Option (List Char)) : (delimited delimiter text).head?.all test = true := by
  cases text <;> simp [delimited, stops]

variable {parts : UrlParts} {host : List Char}

theorem parseScheme_text (scheme : WebScheme) (rest : List Char) :
    parseScheme (scheme.text.toList ++ "://".toList ++ rest) = some (scheme, rest) := by
  cases scheme <;> simp [parseScheme, WebScheme.text]

theorem toDigits_all_isUserinfoChar (value : Nat) :
    (Nat.toDigits 10 value).all isUserinfoChar = true := by
  apply all_eq_true.mpr
  intro char inside
  have digit := Nat.isDigit_of_mem_toDigits (by decide) (by decide) inside
  have other : ∀ delimiter ∈ [':', '@', '/', '?', '#'], char ≠ delimiter := by
    have none : ∀ delimiter ∈ [':', '@', '/', '?', '#'], delimiter.isDigit = false := by simp
    rintro delimiter listed rfl
    rw [none char listed] at digit
    cases digit
  simp [isUserinfoChar, endsAuthority, other]

theorem isHost_cases (valid : isHost host = true) :
    (∃ inner, host = '[' :: (inner ++ [']']) ∧
        inner.all (fun char => char != ']' && char != '@' && !endsAuthority char) = true) ∨
      (host.head? ≠ some '[' ∧ host ≠ [] ∧ host.all isUserinfoChar = true) := by
  unfold isHost at valid
  split at valid
  · rename_i rest
    rw [Bool.and_eq_true, beq_iff_eq] at valid
    refine .inl ⟨rest.dropLast, ?_, valid.2⟩
    rw [dropLast_append_getLast? _ valid.1]
  · rename_i plain
    rw [Bool.and_eq_true, bne_iff_ne] at valid
    refine .inr ⟨?_, valid⟩
    intro bracket
    cases host with
    | nil => cases bracket
    | cons char rest =>
      obtain rfl : char = '[' := Option.some.inj bracket
      exact plain rest rfl

theorem isHost_all (valid : isHost host = true) :
    host.all (fun char => char != '@' && !endsAuthority char) = true := by
  rcases isHost_cases valid with ⟨inner, rfl, plain⟩ | ⟨-, -, plain⟩
  · have within : inner.all (fun char => char != '@' && !endsAuthority char) = true :=
      all_mono plain (by simp_all)
    simp only [all_cons, all_append, within, all_nil]
    decide
  · exact all_mono plain fun char each => (isUserinfoChar_spec each).2

theorem parseHost_eq (valid : isHost host = true) (port : Option (List Char)) :
    parseHost (host ++ delimited ':' port) = (host, delimited ':' port) := by
  rcases isHost_cases valid with ⟨inner, rfl, plain⟩ | ⟨bracket, filled, plain⟩
  · have inside : ('[' :: inner).all (· != ']') = true := by
      rw [all_cons, all_mono plain (by simp_all)]
      rfl
    have apart := @span_append _ _ (']' :: delimited ':' port) inside (by simp)
    have joined : '[' :: (inner ++ [']']) ++ delimited ':' port =
        '[' :: inner ++ ']' :: delimited ':' port := by simp
    rw [joined]
    simp only [cons_append] at apart ⊢
    simp only [parseHost, apart, drop_one, tail_cons, cons_append]
  · have inside : host.all (· != ':') = true :=
      all_mono plain fun char each => (isUserinfoChar_spec each).1
    have apart := span_append inside
      (@head?_delimited_all (fun char => !(char != ':')) ':' rfl port)
    have other : ∀ rest, host ++ delimited ':' port ≠ '[' :: rest := by
      intro rest same
      cases host with
      | nil => exact filled rfl
      | cons char others =>
        obtain ⟨rfl, -⟩ := List.cons.inj same
        exact bracket rfl
    unfold parseHost
    split
    · rename_i rest same
      exact absurd same (other rest)
    · rw [apart.1, apart.2]

section

variable (canonical : parts.Canonical)
include canonical

theorem hostPort_all : (parts.host ++ delimited ':' (parts.port.map (Nat.toDigits 10))).all
      (fun char => char != '@' && !endsAuthority char) = true := by
  rw [all_append, isHost_all canonical.host, Bool.true_and]
  cases parts.port with
  | none => rfl
  | some port =>
    rw [map_some, delimited, all_cons,
      all_mono (toDigits_all_isUserinfoChar port) fun char each => (isUserinfoChar_spec each).2]
    rfl

theorem credentials_all : (parts.username ++ delimited ':' parts.password).all
      (fun char => char != '@' && !endsAuthority char) = true := by
  have valid := canonical.password
  rw [all_append,
    all_mono canonical.username fun char each => (isUserinfoChar_spec each).2, Bool.true_and]
  cases password : parts.password with
  | none => rfl
  | some text =>
    rw [password, all_some, Bool.and_eq_true] at valid
    rw [delimited, all_cons, all_mono valid.2 fun char each => (isUserinfoChar_spec each).2]
    rfl

theorem parseUserinfo_authority :
    parseUserinfo parts.authority =
      (parts.username ++ delimited ':' parts.password,
        parts.host ++ delimited ':' (parts.port.map (Nat.toDigits 10))) := by
  have hostPort := hostPort_all canonical
  have credentials := credentials_all canonical
  rw [authority, append_assoc, userinfo]
  generalize parts.host ++ delimited ':' (parts.port.map (Nat.toDigits 10)) = rest at hostPort ⊢
  have noAt : ∀ char, (char != '@' && !endsAuthority char) = true → (char != '@') = true := by
    simp_all
  split
  · rename_i none
    have apart := @span_append _ _ [] (all_mono hostPort noAt) rfl
    rw [append_nil] at apart
    rw [none.1, none.2, nil_append, parseUserinfo, apart.2]
    rfl
  · have apart := @span_append _ _ ('@' :: rest) (all_mono credentials noAt) (by simp)
    rw [append_assoc, singleton_append, parseUserinfo, apart.1, apart.2]

theorem authority_all : parts.authority.all (fun char => !endsAuthority char) = true := by
  have inside : ∀ char, (char != '@' && !endsAuthority char) = true →
      (!endsAuthority char) = true := by simp_all
  rw [authority, append_assoc, all_append,
    all_mono (hostPort_all canonical) inside, Bool.and_true, userinfo]
  split
  · rfl
  · rw [all_append, all_mono (credentials_all canonical) inside]
    rfl

theorem queryTail_apart :
    ((behind '?' (delimited '?' parts.query ++ delimited '#' parts.fragment)).map
        fun text => text.takeWhile (· != '#')) = parts.query ∧
      behind '#' ((delimited '?' parts.query ++ delimited '#' parts.fragment).dropWhile
        (· != '#')) = parts.fragment := by
  have stops := @head?_delimited_all (fun char => !(char != '#')) '#' rfl parts.fragment
  have plain := canonical.query
  cases query : parts.query with
  | none =>
    have apart := @span_append (· != '#') [] _ rfl stops
    have fragment := behind_delimited '#' parts.fragment
    rw [nil_append] at apart
    constructor
    · cases parts.fragment <;> rfl
    · rwa [delimited, nil_append, apart.2]
  | some text =>
    rw [query, all_some] at plain
    have apart := span_append plain stops
    constructor
    · exact congrArg some apart.1
    · have skip : ('?' :: (text ++ delimited '#' parts.fragment)).dropWhile (· != '#') =
          (text ++ delimited '#' parts.fragment).dropWhile (· != '#') := rfl
      rw [delimited, cons_append, skip, apart.2, behind_delimited]

theorem parse_text : parse parts.text = some parts := by
  have queryTail := queryTail_apart canonical
  obtain ⟨rooted, plainPath⟩ := canonical.path
  have tailStops : (delimited '?' parts.query ++ delimited '#' parts.fragment).head?.all
      (fun char => !!endsPath char) = true := by
    cases parts.query with
    | none => exact head?_delimited_all rfl parts.fragment
    | some text => rfl
  have pathStops : (parts.path ++
      (delimited '?' parts.query ++ delimited '#' parts.fragment)).head?.all
        (fun char => !!endsAuthority char) = true := by
    rw [head?_append, rooted]
    rfl
  have authorityApart := span_append (authority_all canonical) pathStops
  have pathApart := span_append plainPath tailStops
  have username : parts.username.all (· != ':') = true :=
    all_mono canonical.username fun char each => (isUserinfoChar_spec each).1
  have userApart := span_append username
    (@head?_delimited_all (fun char => !(char != ':')) ':' rfl parts.password)
  have assemble : parts.text = parts.scheme.text.toList ++ "://".toList ++ (parts.authority ++
      (parts.path ++ (delimited '?' parts.query ++ delimited '#' parts.fragment))) := by
    simp only [text, append_assoc]
  have port : (parts.port.map (Nat.toDigits 10)).map (fun digits => Nat.ofDigitChars 10 digits 0) =
      parts.port := by
    cases parts.port with
    | none => rfl
    | some value => simp [Nat.ofDigitChars_ten_toDigits]
  rw [assemble, parse, parseScheme_text]
  simp only [bind_eq_bind, bind_some, authorityApart.1, authorityApart.2,
    pathApart.1, pathApart.2, parseUserinfo_authority canonical, parseHost_eq canonical.host,
    userApart.1, userApart.2, behind_delimited, port, queryTail.1, queryTail.2]
  rfl

end

end RoundTrip

section Edit

/-- The bytes of user information that are percent-encoded. -/
def isUserinfoEncoded (byte : UInt8) : Bool :=
  byte ≤ 0x20 || 0x7f ≤ byte || (Utf8.encode "\"#<>?`\x7b\x7d/:;=@[\\]^|".toList).contains byte

def encodeUserinfoByte (byte : UInt8) : List UInt8 :=
  if isUserinfoEncoded byte then percentEncode byte else [byte]

def encodeUserinfo (text : String) : List Char :=
  asciiText ((Utf8.encode text.toList).flatMap encodeUserinfoByte)

def queryPairs (query : List Char) : List (String × String) :=
  parsePairs (Utf8.encode query)

def serializeQuery (pairs : List (String × String)) : List Char :=
  asciiText (serializePairs pairs)

theorem encodeUserinfo_all (text : String) : (encodeUserinfo text).all isUserinfoChar = true := by
  have one : ∀ value < 256, (asciiText (encodeUserinfoByte (.ofNat value))).all
      isUserinfoChar = true := by
    decide +kernel
  have each : ∀ byte : UInt8, (asciiText (encodeUserinfoByte byte)).all
      isUserinfoChar = true := by
    intro byte
    have at_byte := one byte.toNat byte.toNat_lt
    rwa [UInt8.ofNat_toNat] at at_byte
  rw [encodeUserinfo]
  generalize Utf8.encode text.toList = bytes
  induction bytes with
  | nil => rfl
  | cons byte bytes ih =>
    rw [List.flatMap_cons, asciiText, List.map_append, all_append]
    exact Bool.and_eq_true_iff.mpr ⟨each byte, ih⟩

theorem queryPairs_serializeQuery (pairs : List (String × String)) :
    queryPairs (serializeQuery pairs) = pairs := by
  rw [queryPairs, serializeQuery,
    encode_asciiText fun byte inside => (serializePairs_query pairs byte inside).1,
    parsePairs_serializePairs]

theorem serializeQuery_all (pairs : List (String × String)) :
    (serializeQuery pairs).all (· != '#') = true := by
  apply all_eq_true.mpr
  intro char inside
  obtain ⟨byte, serialized, rfl⟩ := List.mem_map.mp inside
  obtain ⟨small, other⟩ := serializePairs_query pairs byte serialized
  have each : ∀ value < 128, UInt8.ofNat value ≠ 0x23 → (Char.ofNat value != '#') = true := by
    decide
  apply each byte.toNat small
  rwa [UInt8.ofNat_toNat]

variable {parts : UrlParts}

theorem Canonical.withUsername (canonical : parts.Canonical) (text : String) :
    { parts with username := encodeUserinfo text }.Canonical :=
  { canonical with username := encodeUserinfo_all text }

/-- An empty password is no password. -/
def encodePassword (password : Option String) : Option (List Char) :=
  (password.map encodeUserinfo).filter (· != [])

theorem Canonical.withPassword (canonical : parts.Canonical) (password : Option String) :
    { parts with password := encodePassword password }.Canonical := by
  refine { canonical with password := ?_ }
  cases password with
  | none => rfl
  | some text =>
    by_cases empty : encodeUserinfo text = []
    · simp [encodePassword, empty]
    · simp [encodePassword, encodeUserinfo_all]

theorem Canonical.withQuery (canonical : parts.Canonical) (pairs : List (String × String)) :
    { parts with query := some (serializeQuery pairs) }.Canonical :=
  { canonical with query := serializeQuery_all pairs }

theorem Canonical.withoutFragment (canonical : parts.Canonical) :
    { parts with fragment := none }.Canonical :=
  { canonical with }

end Edit
end UrlParts

/-- A parsed `http` or `https` URL. -/
abbrev WebUrl : Type := { parts : UrlParts // parts.Canonical }

/-- A URL a document can come from; everything behind the scheme of a `data` URL is its
body. -/
inductive SourceUrl where
  | web (url : WebUrl)
  | data (body : List Char)
  deriving DecidableEq

namespace SourceUrl

open UrlParts

def text : SourceUrl → List Char
  | web url => url.1.text
  | data body => "data:".toList ++ body

def parse (text : List Char) : Option SourceUrl :=
  match "data:".toList.isPrefixOf? text with
  | some body => some (data body)
  | none => do
      let parts ← UrlParts.parse text
      if canonical : parts.Canonical then return web ⟨parts, canonical⟩ else none

/-- The parts of the body of a `data` URL: path, query and fragment. -/
def splitBody (body : List Char) : List Char × Option (List Char) × Option (List Char) :=
  let front := body.takeWhile (· != '#')
  (front.takeWhile (· != '?'), behind '?' (front.dropWhile (· != '?')),
    behind '#' (body.dropWhile (· != '#')))

def joinBody (path : List Char) (query fragment : Option (List Char)) : List Char :=
  path ++ delimited '?' query ++ delimited '#' fragment

def fragment : SourceUrl → Option (List Char)
  | web url => url.1.fragment
  | data body => (splitBody body).2.2

def query : SourceUrl → Option (List Char)
  | web url => url.1.query
  | data body => (splitBody body).2.1

def withoutFragment : SourceUrl → SourceUrl
  | web url => web ⟨{ url.1 with fragment := none }, url.2.withoutFragment⟩
  | data body => data (joinBody (splitBody body).1 (splitBody body).2.1 none)

/-- The origin of a `data` URL is no other URL's. -/
def sameOrigin : SourceUrl → SourceUrl → Bool
  | web first, web second =>
    first.1.scheme == second.1.scheme && first.1.host == second.1.host &&
      first.1.port.getD first.1.scheme.defaultPort ==
        second.1.port.getD second.1.scheme.defaultPort
  | _, _ => false

def setQueryPairs (pairs : List (String × String)) : SourceUrl → SourceUrl
  | web url => web ⟨{ url.1 with query := some (serializeQuery pairs) }, url.2.withQuery pairs⟩
  | data body =>
    data (joinBody (splitBody body).1 (some (serializeQuery pairs)) (splitBody body).2.2)

instance : EditableUrl SourceUrl where
  asStr url := String.ofList url.text
  scheme
    | web url => url.1.scheme.text
    | data _ => "data"
  fragment url := url.fragment.map String.ofList
  withoutFragment := withoutFragment
  sameOrigin := sameOrigin
  pathSegments
    | web url => some (((url.1.path.drop 1).splitOn '/').map String.ofList)
    | data _ => none
  hostStr
    | web url => some (String.ofList url.1.host)
    | data _ => none
  username
    | web url => String.ofList url.1.username
    | data _ => ""
  password
    | web url => url.1.password.map String.ofList
    | data _ => none
  query url := url.query.map String.ofList
  queryPairs url := url.query.elim [] queryPairs
  setUsername
    | web url, text =>
      some (web ⟨{ url.1 with username := encodeUserinfo text }, url.2.withUsername text⟩)
    | data _, _ => none
  setPassword
    | web url, password =>
      some (web ⟨{ url.1 with password := encodePassword password },
        url.2.withPassword password⟩)
    | data _, _ => none
  setQueryPairs url pairs := url.setQueryPairs pairs

theorem parse_text (url : SourceUrl) : parse url.text = some url := by
  cases url with
  | web url =>
    obtain ⟨parts, canonical⟩ := url
    have other : "data:".toList.isPrefixOf? parts.text = none := by
      cases scheme : parts.scheme <;> simp [UrlParts.text, scheme, WebScheme.text, List.isPrefixOf?]
    simp only [parse, text, other, UrlParts.parse_text canonical, bind_eq_bind,
      bind_some, canonical, dite_true]
    rfl
  | data body => rfl

end SourceUrl
end Offprint.Model
