import Mathlib.Data.List.Destutter
import Mathlib.Data.List.TakeWhile
import Offprint.Effect.Wp
import Offprint.Network.Guard

/-!
# Destinations of requests

A request is admitted by the pipeline and by the validating proxy.  The pipeline
reads the host of a URL as text and asks for its addresses unless the text is an
address; the proxy takes the parsed host.
-/

namespace Offprint.Network

open Effect Model List Ipv4Addr BitVec

/-! ## Addresses as text -/

section AddressText

def digitValue (radix : Nat) (char : Char) : Option Nat :=
  let value :=
    if '0' ≤ char ∧ char ≤ '9' then some (char.toNat - '0'.toNat)
    else if 'a' ≤ char ∧ char ≤ 'f' then some (char.toNat - 'a'.toNat + 10)
    else if 'A' ≤ char ∧ char ≤ 'F' then some (char.toNat - 'A'.toNat + 10)
    else none
  value.filter (· < radix)

def isDigitOf (radix : Nat) (char : Char) : Bool :=
  (digitValue radix char).isSome

/-- A number below a bound, of a limited number of digits. -/
def readNumber (radix maximumDigits bound : Nat) (allowZeroFirst : Bool) (text : List Char) :
    Option (Nat × List Char) :=
  let digits := text.takeWhile (isDigitOf radix)
  let value := digits.foldl (fun value char => value * radix + (digitValue radix char).getD 0) 0
  if digits = [] ∨ digits.length > maximumDigits ∨
      (allowZeroFirst = false ∧ digits.head? = some '0' ∧ digits.length > 1) ∨ bound ≤ value then
    none
  else
    some (value, text.dropWhile (isDigitOf radix))

/-- What comes behind a separator, which stands before every item but the first. -/
def readSeparator {α : Type} (separator : Char) (index : Nat)
    (inner : List Char → Option (α × List Char)) (text : List Char) : Option (α × List Char) :=
  if index = 0 then inner text
  else
    match text with
    | [] => none
    | char :: rest => if char = separator then inner rest else none

def readOctet (index : Nat) (text : List Char) : Option (Nat × List Char) :=
  readSeparator '.' index (readNumber 10 3 256 false) text

def readIpv4Addr (text : List Char) : Option (Ipv4Addr × List Char) := do
  let (first, rest) ← readOctet 0 text
  let (second, rest) ← readOctet 1 rest
  let (third, rest) ← readOctet 2 rest
  let (fourth, rest) ← readOctet 3 rest
  return (.new (.ofNat 8 first) (.ofNat 8 second) (.ofNat 8 third) (.ofNat 8 fourth), rest)

/-- Up to so many groups of an IPv6 address, and whether the last two were read as an
IPv4 address. -/
def readGroups : Nat → Nat → List Char → List (BitVec 16) × Bool × List Char
  | 0, _, text => ([], false, text)
  | left + 1, index, text =>
    match if left = 0 then none else readSeparator ':' index readIpv4Addr text with
    | some (address, rest) =>
      ([address.bits.extractLsb' 16 16, address.bits.extractLsb' 0 16], true, rest)
    | none =>
      match readSeparator ':' index (readNumber 16 4 65536 true) text with
      | some (group, rest) =>
        let (groups, ipv4, rest) := readGroups left (index + 1) rest
        (.ofNat 16 group :: groups, ipv4, rest)
      | none => ([], false, text)

def Ipv6Addr.ofSegments (segments : List (BitVec 16)) : Ipv6Addr :=
  ⟨segments.foldl (fun bits segment => bits <<< 16 ||| segment.setWidth 128) 0⟩

def readIpv6Addr (text : List Char) : Option (Ipv6Addr × List Char) :=
  let (front, ipv4, rest) := readGroups 8 0 text
  if front.length = 8 then some (.ofSegments front, rest)
  else if ipv4 then none
  else
    match rest with
    | ':' :: ':' :: rest =>
      let (back, _, rest) := readGroups (8 - (front.length + 1)) 0 rest
      let zeroes := List.replicate (8 - front.length - back.length) 0
      some (.ofSegments (front ++ zeroes ++ back), rest)
    | _ => none

/-- An address, written out to the end of the text. -/
def parseIpAddr (text : String) : Option IpAddr :=
  let read : Option (IpAddr × List Char) :=
    match readIpv4Addr text.toList with
    | some (address, rest) => some (.v4 address, rest)
    | none => (readIpv6Addr text.toList).map fun (address, rest) => (.v6 address, rest)
  match read with
  | some (address, []) => some address
  | _ => none

example : parseIpAddr "64:ff9b::127.0.0.1" = some (.v6 (.new 0x64 0xff9b 0 0 0 0 0x7f00 1)) := by
  decide

example : parseIpAddr "::1" = some (.v6 (.new 0 0 0 0 0 0 0 1)) := by
  decide

theorem readNumber_append
    {radix maximumDigits bound value : Nat} {allowZeroFirst : Bool} {digits rest : List Char}
    (read : readNumber radix maximumDigits bound allowZeroFirst digits = some (value, []))
    (stops : ∀ char ∈ rest.head?, isDigitOf radix char = false) :
    readNumber radix maximumDigits bound allowZeroFirst (digits ++ rest) = some (value, rest) := by
  simp only [readNumber] at read ⊢
  split_ifs at read with refused
  obtain ⟨rfl, ended⟩ := Prod.mk.inj (Option.some.inj read)
  have whole : digits.takeWhile (isDigitOf radix) = digits := by
    have joined := takeWhile_append_dropWhile (p := isDigitOf radix) (l := digits)
    rwa [ended, append_nil] at joined
  have numeric : ∀ char ∈ digits, isDigitOf radix char = true := takeWhile_eq_self_iff.mp whole
  have none : rest.takeWhile (isDigitOf radix) = [] ∧ rest.dropWhile (isDigitOf radix) = rest := by
    cases rest with
    | nil => exact ⟨rfl, rfl⟩
    | cons char others =>
      have other := stops char rfl
      simp [other]
  rw [takeWhile_append_of_pos numeric, dropWhile_append_of_pos numeric, none.1, none.2,
    append_nil]
  rw [whole] at refused ⊢
  rw [if_neg refused]

theorem readNumber_octet :
    ∀ value < 256, readNumber 10 3 256 false (toString value).toList = some (value, []) := by
  decide +kernel

section

variable (address : Ipv4Addr)
include address

theorem octet_lt (index : Nat) : address.octet index < 256 :=
  (address.bits.extractLsb' (24 - 8 * index) 8).isLt

theorem new_octets :
    Ipv4Addr.new (.ofNat 8 (address.octet 0)) (.ofNat 8 (address.octet 1))
      (.ofNat 8 (address.octet 2)) (.ofNat 8 (address.octet 3)) = address := by
  obtain ⟨bits⟩ := address
  simp only [Ipv4Addr.new, octet, ofNat_toNat, setWidth_eq,
    mk.injEq]
  rw [extractLsb'_append_extractLsb'_eq_extractLsb' (by rfl),
    extractLsb'_append_extractLsb'_eq_extractLsb' (by rfl),
    extractLsb'_append_extractLsb'_eq_extractLsb' (by rfl)]
  exact extractLsb'_eq_self

theorem toList_display :
    address.display.toList =
      (toString (address.octet 0)).toList ++ ('.' :: ((toString (address.octet 1)).toList ++
        ('.' :: ((toString (address.octet 2)).toList ++
          ('.' :: ((toString (address.octet 3)).toList ++ [])))))) := by
  simp [display, List.range, List.range.loop]

theorem readNumber_octet_append (index : Nat) {rest : List Char}
    (stops : ∀ char ∈ rest.head?, char = '.') :
    readNumber 10 3 256 false ((toString (address.octet index)).toList ++ rest) =
      some (address.octet index, rest) := by
  apply readNumber_append (readNumber_octet _ (octet_lt address index))
  intro char first
  rw [stops char first]
  decide

end

theorem readOctet_first (text : List Char) : readOctet 0 text = readNumber 10 3 256 false text :=
  rfl

theorem readOctet_next (index : Nat) (text : List Char) :
    readOctet (index + 1) ('.' :: text) = readNumber 10 3 256 false text :=
  rfl

theorem parseIpAddr_display (address : Ipv4Addr) :
    parseIpAddr address.display = some (.v4 address) := by
  have read : readIpv4Addr address.display.toList = some (address, []) := by
    simp only [readIpv4Addr, toList_display, readOctet_first, readOctet_next,
      readNumber_octet_append address _ (by simp : ∀ char ∈
        ('.' :: _ : List Char).head?, char = '.'),
      readNumber_octet_append address 3 (by simp : ∀ char ∈ ([] : List Char).head?, char = '.'),
      Option.bind_eq_bind, Option.bind_some, Option.pure_def, new_octets]
  simp only [parseIpAddr, read]

theorem parseIpAddr_brackets (text : String) : parseIpAddr ("[" ++ text ++ "]") = none := by
  have start : ("[" ++ text ++ "]").toList = '[' :: (text.toList ++ [']']) := by simp
  simp [parseIpAddr, start, readIpv4Addr, readOctet, readSeparator, readNumber, readIpv6Addr,
    readGroups, isDigitOf, digitValue]

end AddressText

/-! ## Name resolution -/

section Resolution

structure SocketAddr where
  ip : IpAddr
  port : Nat
  deriving Repr, DecidableEq

/-- The question for the addresses of a host. -/
structure Lookup where
  host : String
  port : Nat
  deriving Repr, DecidableEq

/-- The answers of name resolution, an error being its text. -/
abbrev Resolver : Type := Lookup → Except String (List SocketAddr)

def resolution : Interface Resolver String where
  Op := Lookup
  Response _ := List SocketAddr
  run lookup resolver := (resolver lookup).map fun addresses => (addresses, resolver)
  interrupted _ _ resolver := resolver

/-- Fallible code that may ask for addresses. -/
abbrev Resolving (α : Type) : Type :=
  Action resolution OffprintError α

def settled {α : Type} (result : Except OffprintError α) : Resolving α :=
  ExceptT.mk (Program.pure result)

def lookupHost (host : String) (port : Nat) (message : String) : Resolving (List SocketAddr) :=
  ExceptT.mk (Program.perform ⟨host, port⟩ fun answer => Program.pure (answer.mapError fun error =>
    (networkError "offprint.navigation.dns" (message ++ ": " ++ error)).withRetryable true))

def portOrKnownDefault (url : Url) : Option Nat :=
  url.port.orElse fun _ =>
    match url.scheme with
    | "http" | "ws" => some 80
    | "https" | "wss" => some 443
    | "ftp" => some 21
    | _ => none

/-- The admission of a request by the pipeline. -/
def validateNetworkUrl (guard : NetworkGuard) (url : Url) : Resolving Unit := do
  settled (guard.validateUrl url)
  match url.hostStr with
  | none => throw (networkError "offprint.navigation.host" "network URL must contain a host")
  | some host =>
    match parseIpAddr host with
    | some address => settled (guard.validateResolved url [address])
    | none =>
      match portOrKnownDefault url with
      | none => throw (networkError "offprint.navigation.port" "network URL has no usable port")
      | some port =>
        let addresses ← lookupHost host port "failed to resolve navigation host"
        settled (guard.validateResolved url (addresses.map SocketAddr.ip))

end Resolution

section Proxy

def proxyError (message : String) : OffprintError :=
  networkError "offprint.navigation.proxy" message

/-- The order of socket addresses: IPv4 first, then by address and port. -/
def SocketAddr.key (address : SocketAddr) : Nat × Nat × Nat :=
  match address.ip with
  | .v4 ip => (0, ip.bits.toNat, address.port)
  | .v6 ip => (1, ip.bits.toNat, address.port)

def SocketAddr.le (first second : SocketAddr) : Bool :=
  let (family, bits, port) := first.key
  let (otherFamily, otherBits, otherPort) := second.key
  family < otherFamily ||
    family == otherFamily && (bits < otherBits || bits == otherBits && port ≤ otherPort)

def validateResolvedAddresses (guard : NetworkGuard) (destination : Url)
    (addresses : List SocketAddr) : Except OffprintError (List SocketAddr) := do
  let deduplicated := (addresses.insertionSort (SocketAddr.le · ·)).destutter (· ≠ ·)
  guard.validateResolved destination (deduplicated.map SocketAddr.ip)
  return deduplicated

/-- The admission of a request by the validating proxy, with the addresses it may
connect to. -/
def resolveValidatedAddresses (guard : NetworkGuard) (destination : Url) :
    Resolving (List SocketAddr) := do
  settled (guard.validateUrl destination)
  match portOrKnownDefault destination with
  | none => throw (proxyError "network destination has no usable port")
  | some port =>
    let addresses ←
      match destination.host with
      | some (.ipv4 address) => pure [⟨.v4 address, port⟩]
      | some (.ipv6 address) => pure [⟨.v6 address, port⟩]
      | some (.domain host) => lookupHost host port "failed to resolve guarded destination"
      | none => throw (proxyError "network destination omitted its host")
    settled (validateResolvedAddresses guard destination addresses)

end Proxy

/-- The pipeline settles a literal address itself, with the verdict of the guard, and
so decides as the proxy does. -/
structure NeedsNoLookup (guard : NetworkGuard) (url : Url) (address : IpAddr) : Prop where
  verdict : validateNetworkUrl guard url = settled (guard.validateResolved url [address])
  proxy : validateNetworkUrl guard url =
    (fun _ => ()) <$> resolveValidatedAddresses guard url

section Literal

variable {guard : NetworkGuard} {url : Url} {address : IpAddr}

theorem host_of_literal (literal : literalAddress url = some address) :
    url.host = some (match address with | .v4 ipv4 => .ipv4 ipv4 | .v6 ipv6 => .ipv6 ipv6) := by
  unfold literalAddress at literal
  split at literal
  · cases literal
    assumption
  · cases literal
    assumption
  · cases literal
  · cases literal

section

variable (web : url.scheme = "http" ∨ url.scheme = "https")
include web

theorem validateUrl_of_literal (literal : literalAddress url = some address) :
    guard.validateUrl url = guard.validateAddress url address := by
  have known : ["http", "https"].contains url.scheme = true := by
    rcases web with scheme | scheme <;> simp [scheme]
  simp only [NetworkGuard.validateUrl, known, literal, Bool.not_true, Bool.false_eq_true, if_false]

theorem validateResolved_of_literal (literal : literalAddress url = some address) :
    guard.validateResolved url [address] = guard.validateAddress url address := by
  rw [NetworkGuard.validateResolved, validateUrl_of_literal web literal]
  cases verdict : guard.validateAddress url address with
  | error failure => rfl
  | ok value =>
    show guard.validateAddress url address >>= (fun _ => pure ()) = _
    rw [verdict]
    rfl

theorem portOrKnownDefault_of_web : ∃ port, portOrKnownDefault url = some port := by
  unfold portOrKnownDefault
  cases url.port with
  | some port => exact ⟨port, rfl⟩
  | none =>
    rcases web with scheme | scheme
    · exact ⟨80, by simp [scheme]⟩
    · exact ⟨443, by simp [scheme]⟩

theorem resolveValidatedAddresses_of_literal (literal : literalAddress url = some address) :
    (fun _ => ()) <$> resolveValidatedAddresses guard url =
      settled (guard.validateAddress url address) := by
  obtain ⟨port, known⟩ := portOrKnownDefault_of_web web
  have admitted := @validateResolved_of_literal guard url address web literal
  unfold resolveValidatedAddresses
  rw [validateUrl_of_literal web literal, known]
  cases verdict : guard.validateAddress url address with
  | error failure => rfl
  | ok value =>
    rw [verdict] at admitted
    have single : validateResolvedAddresses guard url [⟨address, port⟩] =
        .ok [⟨address, port⟩] := by
      simp only [validateResolvedAddresses, insertionSort_cons, insertionSort_nil,
        orderedInsert_nil, destutter_singleton,
        map_cons, map_nil, admitted]
      rfl
    rw [host_of_literal literal]
    cases address with
    | v4 ipv4 =>
      show (fun _ => ()) <$> settled (validateResolvedAddresses guard url [⟨.v4 ipv4, port⟩]) = _
      rw [single]
      rfl
    | v6 ipv6 =>
      show (fun _ => ()) <$> settled (validateResolvedAddresses guard url [⟨.v6 ipv6, port⟩]) = _
      rw [single]
      rfl

theorem validateNetworkUrl_of_refused
    (literal : literalAddress url = some address) (refused : guard.allows url address = false) :
    validateNetworkUrl guard url = settled (guard.validateAddress url address) := by
  unfold validateNetworkUrl
  rw [validateUrl_of_literal web literal]
  cases verdict : guard.validateAddress url address with
  | error failure => rfl
  | ok value =>
    rw [(guard.validateAddress_eq_ok_iff url address).mp verdict] at refused
    cases refused

theorem validateNetworkUrl_of_ipv4 {ipv4 : Ipv4Addr}
    (literal : literalAddress url = some (.v4 ipv4)) :
    validateNetworkUrl guard url = settled (guard.validateAddress url (.v4 ipv4)) := by
  have named : url.hostStr = some ipv4.display := by
    rw [Url.hostStr, host_of_literal literal]
    rfl
  have admitted := @validateResolved_of_literal guard url (.v4 ipv4) web literal
  unfold validateNetworkUrl
  simp only [validateUrl_of_literal web literal, named, parseIpAddr_display, admitted]
  cases guard.validateAddress url (.v4 ipv4) with
  | error failure => rfl
  | ok value => rfl

theorem validateNetworkUrl_of_ipv6 {ipv6 : Ipv6Addr}
    (literal : literalAddress url = some (.v6 ipv6))
    (allowed : guard.allows url (.v6 ipv6) = true) (result : Except OffprintError Unit) :
    validateNetworkUrl guard url ≠ settled result := by
  obtain ⟨port, known⟩ := portOrKnownDefault_of_web web
  have verdict := (guard.validateAddress_eq_ok_iff url (.v6 ipv6)).mpr allowed
  have named : url.hostStr = some ("[" ++ ipv6.compressed ++ "]") := by
    rw [Url.hostStr, host_of_literal literal]
    rfl
  unfold validateNetworkUrl
  simp only [validateUrl_of_literal web literal, verdict, named, parseIpAddr_brackets, known]
  intro same
  cases same

end

end Literal

/-- The pipeline settles a literal address as it should exactly for IPv4 addresses and
for addresses the guard refuses. -/
theorem needsNoLookup_iff (guard : NetworkGuard) (url : Url) (address : IpAddr)
    (web : url.scheme = "http" ∨ url.scheme = "https")
    (literal : literalAddress url = some address) :
    NeedsNoLookup guard url address ↔
      (∃ ipv4, address = .v4 ipv4) ∨ guard.allows url address = false := by
  have settles (same : validateNetworkUrl guard url =
      settled (guard.validateAddress url address)) : NeedsNoLookup guard url address := by
    constructor
    · rw [validateResolved_of_literal web literal]
      exact same
    · rw [resolveValidatedAddresses_of_literal web literal]
      exact same
  constructor
  · intro needless
    cases address with
    | v4 ipv4 => exact .inl ⟨ipv4, rfl⟩
    | v6 ipv6 =>
      right
      by_contra allowed
      rw [Bool.not_eq_false] at allowed
      exact validateNetworkUrl_of_ipv6 web literal allowed _ needless.verdict
  · rintro (⟨ipv4, rfl⟩ | refused)
    · exact settles (validateNetworkUrl_of_ipv4 web literal)
    · exact settles (validateNetworkUrl_of_refused web literal refused)

def sampleGuard : NetworkGuard := ⟨.standard, none, false, []⟩

def sampleUrl (host : Host) : Url :=
  ⟨"https", "", none, some host, none, "/", none, none⟩

/-- A public IPv4 address is admitted without a question. -/
theorem needsNoLookup_ipv4 :
    NeedsNoLookup sampleGuard (sampleUrl (.ipv4 (.new 1 1 1 1))) (.v4 (.new 1 1 1 1)) :=
  (needsNoLookup_iff sampleGuard (sampleUrl (.ipv4 (.new 1 1 1 1))) (.v4 (.new 1 1 1 1))
    (.inr rfl) rfl).mpr (.inl ⟨_, rfl⟩)

/-- `https://[2606:4700::1111]/`: the guard and the proxy admit it, while the pipeline
asks for the addresses of a host in brackets and fails if nobody knows such a host. -/
theorem not_needsNoLookup_ipv6 : let address : Ipv6Addr := .new 0x2606 0x4700 0 0 0 0 0 0x1111
    let url := sampleUrl (.ipv6 address)
    let nobody : Resolver := fun _ => .error "Name or service not known"
    ¬NeedsNoLookup sampleGuard url (.v6 address) ∧
      sampleGuard.validateResolved url [.v6 address] = .ok () ∧
      (resolveValidatedAddresses sampleGuard url).run.exec nobody =
        (.ok [⟨.v6 address, 443⟩], nobody) ∧
      (validateNetworkUrl sampleGuard url).run.exec nobody =
        (.error ((networkError "offprint.navigation.dns"
          "failed to resolve navigation host: Name or service not known").withRetryable true),
          nobody) := by
  refine ⟨fun needless => ?_, rfl, ?_, rfl⟩
  · exact validateNetworkUrl_of_ipv6 (.inr rfl) rfl rfl _ needless.verdict
  · rfl

end Offprint.Network
