import Offprint.Effect.Checked
import Offprint.Model.Error
import Offprint.Model.Url

/-!
# The network guard

The guard that admits a URL and the addresses its host resolved to, and what
its two restricted policies admit of addresses that carry an IPv4 destination
inside an IPv6 address.

The four policies are compared through the guards they build for one initial
URL.  What a guard decides about a request is a conjunction over single
addresses, so it is enough to compare what the policies allow of one address.
-/

namespace Offprint.Network

open Offprint.Data (Json)
open Effect.Verdict Model AddressClass

structure NetworkRules where
  allowedHosts : List String
  allowedCidrs : List String
  allowLoopback : Bool
  allowPrivate : Bool
  allowLinkLocal : Bool
  deriving Repr, DecidableEq

inductive NetworkPolicy where
  | standard
  | server
  | unrestricted
  | custom (rules : NetworkRules)
  deriving Repr, DecidableEq

inductive IpNet where
  | v4 (network : Ipv4Addr) (prefixLength : Nat)
  | v6 (network : Ipv6Addr) (prefixLength : Nat)
  deriving Repr, DecidableEq

def IpNet.contains : IpNet → IpAddr → Bool
  | .v4 network prefixLength, .v4 address =>
    let mask := BitVec.allOnes 32 <<< (32 - prefixLength)
    address.bits &&& mask == network.bits &&& mask
  | .v6 network prefixLength, .v6 address => inV6Prefix address network prefixLength
  | _, _ => false

structure NetworkGuard where
  policy : NetworkPolicy
  initialHost : Option String
  initialLoopback : Bool
  customNetworks : List IpNet
  deriving Repr, DecidableEq

def networkError (code message : String) : OffprintError :=
  .new code .navigation message

def literalAddress (url : Url) : Option IpAddr :=
  match url.host with
  | some (.ipv4 address) => some (.v4 address)
  | some (.ipv6 address) => some (.v6 address)
  | some (.domain _) => none
  | none => none

def eqIgnoreAsciiCase (left right : String) : Bool :=
  left.toLower == right.toLower

def sameHost : Option String → Option String → Bool
  | some candidate, some initial => eqIgnoreAsciiCase candidate initial
  | _, _ => false

def customAllows (rules : NetworkRules) (networks : List IpNet) (url : Url) (address : IpAddr)
    (addressClass : AddressClass) : Bool :=
  let hostAllowed := url.hostStr.any fun host =>
    rules.allowedHosts.any fun allowed => eqIgnoreAsciiCase host allowed
  hostAllowed ||
  networks.any (fun network => network.contains address) ||
  (rules.allowLoopback && addressClass == .loopback) ||
  (rules.allowPrivate && addressClass == .privateAddress) ||
  (rules.allowLinkLocal && addressClass == .linkLocal) ||
  addressClass == .publicAddress

/-- The networks of a custom policy. `parse` is the prefix notation parser. -/
def parseCustomNetworks (parse : String → Except String IpNet) (rules : NetworkRules) :
    Except OffprintError (List IpNet) :=
  rules.allowedCidrs.mapM fun value =>
    (parse value).mapError fun error =>
      networkError "offprint.input.network_cidr" s!"invalid network CIDR `{value}`: {error}"

namespace NetworkGuard

def new (parse : String → Except String IpNet) (policy : NetworkPolicy) (initialUrl : Url) :
    Except OffprintError NetworkGuard := do
  let initialHost := initialUrl.hostStr.map String.toLower
  let initialLoopback :=
    (literalAddress initialUrl).any (fun address => classify address == .loopback) ||
    initialHost == some "localhost"
  let customNetworks ←
    match policy with
    | .custom rules => parseCustomNetworks parse rules
    | .standard | .server | .unrestricted => pure []
  return ⟨policy, initialHost, initialLoopback, customNetworks⟩

variable (guard : NetworkGuard)

def allows (url : Url) (address : IpAddr) : Bool :=
  let addressClass := classify address
  match guard.policy with
  | .unrestricted => true
  | .server => addressClass == .publicAddress
  | .standard =>
    addressClass == .publicAddress ||
    (addressClass == .loopback && guard.initialLoopback && sameHost url.hostStr guard.initialHost)
  | .custom rules => customAllows rules guard.customNetworks url address addressClass

def validateAddress (url : Url) (address : IpAddr) : Except OffprintError Unit :=
  if guard.allows url address then
    .ok ()
  else
    .error ((networkError "offprint.navigation.address_blocked"
      s!"network policy blocked address class {(AddressClass.classify address).text}").withDetail
        "address" (.string address.display))

def validateUrl (url : Url) : Except OffprintError Unit := do
  if !(["http", "https"].contains url.scheme) then
    throw (networkError "offprint.navigation.scheme"
      s!"network URL scheme `{url.scheme}` is blocked")
  match literalAddress url with
  | some address => guard.validateAddress url address
  | none =>
    if url.hostStr.isNone then
      throw (networkError "offprint.navigation.host" "network URL must contain a host")

def validateResolved (url : Url) (addresses : List IpAddr) : Except OffprintError Unit := do
  guard.validateUrl url
  if addresses.isEmpty then
    throw (networkError "offprint.navigation.dns" "network host resolved to no addresses")
  addresses.forM (guard.validateAddress url)

theorem validateAddress_eq_ok_iff (url : Url) (address : IpAddr) :
    guard.validateAddress url address = .ok () ↔ guard.allows url address = true := by
  unfold validateAddress
  split <;> simp_all

variable {guard : NetworkGuard} {url : Url} {addresses : List IpAddr}

theorem validateUrl_eq_ok_iff :
    guard.validateUrl url = .ok () ↔
      url.scheme ∈ ["http", "https"] ∧ url.host.isSome = true ∧
        ∀ address, literalAddress url = some address → guard.allows url address = true := by
  simp only [validateUrl, ite_throw_bind_eq_ok_iff, Bool.not_eq_true', Bool.not_eq_false,
    List.contains_iff_mem]
  refine and_congr_right fun _ => ?_
  unfold literalAddress Url.hostStr
  rcases url.host with - | ⟨- | address | address⟩
  all_goals simp [validateAddress_eq_ok_iff, pure_eq_ok_iff]

theorem validateResolved_eq_ok_iff :
    guard.validateResolved url addresses = .ok () ↔
      guard.validateUrl url = .ok () ∧ addresses ≠ [] ∧
        ∀ address ∈ addresses, guard.allows url address = true := by
  simp only [validateResolved, bind_eq_ok_iff, ite_throw_bind_eq_ok_iff, forM_eq_ok_iff,
    validateAddress_eq_ok_iff, List.isEmpty_iff, exists_and_right]
  exact and_congr_left fun _ => ⟨fun ⟨(), passed⟩ => passed, fun passed => ⟨(), passed⟩⟩

/-- The policies that keep captures on the public network. -/
def Restricted (guard : NetworkGuard) : Prop :=
  guard.policy = .server ∨ guard.policy = .standard

theorem public_or_loopback_of_allows (restricted : guard.Restricted) {address : IpAddr}
    (allowed : guard.allows url address = true) :
    classify address = .publicAddress ∨
      classify address = .loopback := by
  rcases restricted with policy | policy
  · simp [allows, policy] at allowed
    exact .inl allowed
  · simp [allows, policy] at allowed
    exact allowed.imp_right fun loopback => loopback.1.1

end NetworkGuard

/-! ## Addresses that carry an IPv4 destination -/

/-- A registered format that carries an IPv4 address inside IPv6 addresses. -/
structure Translation where
  network : Ipv6Addr
  prefixLength : Nat
  embedded : Ipv6Addr → Ipv4Addr

namespace Translation

def ipv4Mapped : Translation :=
  ⟨.new 0 0 0 0 0 0xffff 0 0, 96, fun address => address.ipv4At 0⟩

def wellKnownNat64 : Translation :=
  ⟨.new 0x64 0xff9b 0 0 0 0 0 0, 96, fun address => address.ipv4At 0⟩

/-- The local NAT64 block with the address in its last 32 bits. -/
def localNat64 : Translation :=
  ⟨.new 0x64 0xff9b 1 0 0 0 0 0, 48, fun address => address.ipv4At 0⟩

/-- The local NAT64 block as a 48-bit prefix: the address stands around the
reserved ninth octet. -/
def localNat64Split : Translation :=
  ⟨.new 0x64 0xff9b 1 0 0 0 0 0, 48,
    fun address => ⟨address.bits.extractLsb' 64 16 ++ address.bits.extractLsb' 40 16⟩⟩

def sixToFour : Translation :=
  ⟨.new 0x2002 0 0 0 0 0 0 0, 16, fun address => address.ipv4At 80⟩

def registered : List Translation :=
  [ipv4Mapped, wellKnownNat64, localNat64, localNat64Split, sixToFour]

end Translation

/-- The address stands in a registered format for the IPv4 destination. -/
def Carries (address : Ipv6Addr) (destination : Ipv4Addr) : Prop :=
  ∃ format ∈ Translation.registered,
    inV6Prefix address format.network format.prefixLength = true ∧
      format.embedded address = destination

variable {address : Ipv6Addr} {format : Translation}

theorem isGloballyRoutableV6_of_outside
    (notNat64 : inV6Prefix address (.new 0x64 0xff9b 0 0 0 0 0 0) 96 = false)
    (outside : inV6Prefix address (.new 0x2000 0 0 0 0 0 0 0) 3 = false) :
    isGloballyRoutableV6 address = false := by
  simp only [isGloballyRoutableV6, notNat64, outside, Bool.false_eq_true, ↓reduceIte,
    Bool.not_false]

theorem isGloballyRoutableV6_of_sixToFour
    (inside : inV6Prefix address (.new 0x2002 0 0 0 0 0 0 0) 16 = true) :
    isGloballyRoutableV6 address = false := by
  -- A longer prefix that held as well would have to contain `2002::` itself.
  have excluded (network : Ipv6Addr) {length : Nat} (long : 16 ≤ length)
      (apart : inV6Prefix network (.new 0x2002 0 0 0 0 0 0 0) 16 = false) :
      inV6Prefix address network length = false := by
    by_contra member
    rw [Bool.not_eq_false] at member
    rw [inV6Prefix_congr member _ long, apart] at inside
    cases inside
  have notNat64 := excluded (.new 0x64 0xff9b 0 0 0 0 0 0) (show 16 ≤ 96 by decide) (by decide)
  have notIetf := excluded (.new 0x2001 0 0 0 0 0 0 0) (show 16 ≤ 23 by decide) (by decide)
  simp only [isGloballyRoutableV6, notNat64, notIetf, inside, Bool.false_eq_true, ↓reduceIte,
    Bool.not_true, Bool.and_false, Bool.false_and, ite_self]

theorem isGloballyRoutableV6_of_registered (registered : format ∈ Translation.registered)
    (inside : inV6Prefix address format.network format.prefixLength = true)
    (notNat64 : inV6Prefix address (.new 0x64 0xff9b 0 0 0 0 0 0) 96 = false) :
    isGloballyRoutableV6 address = false := by
  have outside (short : 3 ≤ format.prefixLength)
      (apart : inV6Prefix format.network (.new 0x2000 0 0 0 0 0 0 0) 3 = false) :
      isGloballyRoutableV6 address = false := by
    apply isGloballyRoutableV6_of_outside notNat64
    rw [inV6Prefix_congr inside _ short, apart]
  simp only [Translation.registered, List.mem_cons, List.not_mem_nil, or_false] at registered
  rcases registered with rfl | rfl | rfl | rfl | rfl
  · exact outside (by decide) (by decide)
  · exact absurd (inside.symm.trans notNat64) (by decide)
  · exact outside (by decide) (by decide)
  · exact outside (by decide) (by decide)
  · exact isGloballyRoutableV6_of_sixToFour inside

theorem classifyV6_of_nat64 (inside : inV6Prefix address (.new 0x64 0xff9b 0 0 0 0 0 0) 96 = true) :
    classifyV6 address = .publicAddress := by
  have first : address.segment 0 = 0x64 :=
    (segment_zero_of_inV6Prefix inside (by decide)).trans (by decide)
  have notLoopback : address ≠ .new 0 0 0 0 0 0 0 1 := ne_of_inV6Prefix inside (by decide)
  apply (classifyV6_eq_publicAddress_iff address).mpr
  refine ⟨?_, ?_, ?_, ?_⟩
  · simpa [Ipv6Addr.isLoopback] using notLoopback
  · rw [Ipv6Addr.isUniqueLocal, first]
    decide
  · rw [Ipv6Addr.isUnicastLinkLocal, first]
    decide
  · simp only [isGloballyRoutableV6, inside, ↓reduceIte]

section

variable (registered : format ∈ Translation.registered)
  (inside : inV6Prefix address format.network format.prefixLength = true)
include registered inside

theorem embedded_of_nat64 (nat64 : inV6Prefix address (.new 0x64 0xff9b 0 0 0 0 0 0) 96 = true) :
    format.embedded address = address.ipv4At 0 := by
  have excluded (short : format.prefixLength ≤ 96)
      (apart : inV6Prefix (.new 0x64 0xff9b 0 0 0 0 0 0) format.network
        format.prefixLength = false) : False := by
    rw [inV6Prefix_congr nat64 _ short, apart] at inside
    cases inside
  simp only [Translation.registered, List.mem_cons, List.not_mem_nil, or_false] at registered
  rcases registered with rfl | rfl | rfl | rfl | rfl
  · rfl
  · rfl
  · rfl
  · exact (excluded (by decide) (by decide)).elim
  · exact (excluded (by decide) (by decide)).elim

theorem classifyV6_ne_loopback : classifyV6 address ≠ .loopback := by
  have apart : ∀ format ∈ Translation.registered,
      inV6Prefix (.new 0 0 0 0 0 0 0 1) format.network format.prefixLength = false := by
    decide
  have notLoopback : address.isLoopback = false := by
    simpa [Ipv6Addr.isLoopback] using ne_of_inV6Prefix inside (apart format registered)
  unfold classifyV6
  split_ifs <;> simp_all

end

/-- Neither the classification nor a restricted policy is led past itself by an
address that carries an IPv4 destination. -/
structure NeverTunnels (address : Ipv6Addr) : Prop where
  classified : ∀ destination, Carries address destination →
    classify (.v6 address) = .publicAddress →
      classify (.v4 destination) = .publicAddress
  resolved : ∀ destination, Carries address destination →
    ∀ (guard : NetworkGuard) (url : Url) (addresses : List IpAddr), guard.Restricted →
      guard.validateResolved url addresses = .ok () → .v6 address ∈ addresses →
        classify (.v4 destination) = .publicAddress
  literal : ∀ destination, Carries address destination →
    ∀ (guard : NetworkGuard) (url : Url), guard.Restricted →
      guard.validateUrl url = .ok () → literalAddress url = some (.v6 address) →
        classify (.v4 destination) = .publicAddress

theorem classify_of_allows {destination : Ipv4Addr} (carries : Carries address destination)
    {guard : NetworkGuard} (restricted : guard.Restricted) {url : Url}
    (allowed : guard.allows url (.v6 address) = true) :
    classify (.v6 address) = .publicAddress := by
  obtain ⟨format, registered, inside, -⟩ := carries
  rcases NetworkGuard.public_or_loopback_of_allows restricted allowed with isPublic | loopback
  · exact isPublic
  · exact absurd loopback (classifyV6_ne_loopback registered inside)

open NetworkGuard

/-- The request leads to the address, named by its host or found by resolving it. -/
def Targets (url : Url) (addresses : List IpAddr) (address : IpAddr) : Prop :=
  literalAddress url = some address ∨ address ∈ addresses

namespace NetworkGuard

variable {parse : String → Except String IpNet} {policy : NetworkPolicy} {initialUrl url : Url}
  {guard other : NetworkGuard} {addresses : List IpAddr} {address : IpAddr}

theorem policy_of_new (built : new parse policy initialUrl = .ok guard) :
    guard.policy = policy := by
  unfold new at built
  cases policy with
  | custom rules =>
    cases parsed : parseCustomNetworks parse rules with
    | error failure => simp [parsed, bind, Except.bind] at built
    | ok networks =>
      simp only [parsed, bind, Except.bind, pure, Except.pure, Except.ok.injEq] at built
      rw [← built]
  | standard | server | unrestricted =>
    simp only [bind, Except.bind, pure, Except.pure, Except.ok.injEq] at built
    rw [← built]

theorem allows_of_public (isPublic : classify address = .publicAddress) :
    guard.allows url address = true := by
  unfold allows
  cases guard.policy <;> simp [customAllows, isPublic]

theorem validateResolved_mono
    (more : ∀ address, Targets url addresses address →
      guard.allows url address = true → other.allows url address = true)
    (admitted : guard.validateResolved url addresses = .ok ()) :
    other.validateResolved url addresses = .ok () := by
  obtain ⟨urlAdmitted, filled, allowed⟩ := validateResolved_eq_ok_iff.mp admitted
  obtain ⟨scheme, hosted, literalAllowed⟩ := validateUrl_eq_ok_iff.mp urlAdmitted
  apply validateResolved_eq_ok_iff.mpr
  refine ⟨validateUrl_eq_ok_iff.mpr ⟨scheme, hosted, ?_⟩, filled, ?_⟩
  · exact fun address named => more address (.inl named) (literalAllowed address named)
  · exact fun address member => more address (.inr member) (allowed address member)

theorem public_of_server (isServer : guard.policy = .server)
    (allowed : guard.allows url address = true) :
    classify address = .publicAddress := by
  simpa [allows, isServer] using allowed

theorem allows_of_unrestricted (isUnrestricted : guard.policy = .unrestricted) :
    guard.allows url address = true := by
  simp [allows, isUnrestricted]

end NetworkGuard

/-- How the guards built for one initial URL compare on one request. -/
structure OrderedByStrictness (parse : String → Except String IpNet) (initialUrl url : Url)
    (addresses : List IpAddr) : Prop where
  standard_of_server : ∀ server standard,
    NetworkGuard.new parse .server initialUrl = .ok server →
    NetworkGuard.new parse .standard initialUrl = .ok standard →
      server.validateResolved url addresses = .ok () →
        standard.validateResolved url addresses = .ok ()
  custom_of_standard : ∀ standard custom rules,
    NetworkGuard.new parse .standard initialUrl = .ok standard →
    NetworkGuard.new parse (.custom rules) initialUrl = .ok custom →
      (∀ address, Targets url addresses address → classify address ≠ .loopback) →
        standard.validateResolved url addresses = .ok () →
          custom.validateResolved url addresses = .ok ()
  unrestricted_of_any : ∀ policy guard unrestricted,
    NetworkGuard.new parse policy initialUrl = .ok guard →
    NetworkGuard.new parse .unrestricted initialUrl = .ok unrestricted →
      guard.validateResolved url addresses = .ok () →
        unrestricted.validateResolved url addresses = .ok ()
  resolved_iff : ∀ policy guard, NetworkGuard.new parse policy initialUrl = .ok guard →
    (guard.validateResolved url addresses = .ok () ↔
      (url.scheme = "http" ∨ url.scheme = "https") ∧ addresses ≠ [] ∧
        (∀ address, literalAddress url = some address →
          guard.validateAddress url address = .ok ()) ∧
        ∀ address ∈ addresses, guard.validateAddress url address = .ok ())

/-- The policies admit ever more from `server` over `standard` and, away from
loopback addresses, every custom rule set to `unrestricted`. The URL parser
gives every web URL a host. -/
theorem policies_ordered_by_strictness (parse : String → Except String IpNet)
    (initialUrl url : Url) (addresses : List IpAddr)
    (hosted : url.scheme = "http" ∨ url.scheme = "https" → url.host.isSome = true) :
    OrderedByStrictness parse initialUrl url addresses where
  standard_of_server server standard built _ := by
    have isServer := policy_of_new built
    apply validateResolved_mono
    intro address _ allowed
    exact allows_of_public (public_of_server isServer allowed)
  custom_of_standard standard custom rules built _ elsewhere := by
    have restricted : standard.Restricted := .inr (policy_of_new built)
    apply validateResolved_mono
    intro address target allowed
    apply allows_of_public
    exact (public_or_loopback_of_allows restricted allowed).resolve_right
      (elsewhere address target)
  unrestricted_of_any policy guard unrestricted _ built := by
    apply validateResolved_mono
    intro address _ _
    exact allows_of_unrestricted (policy_of_new built)
  resolved_iff policy guard built := by
    simp only [validateResolved_eq_ok_iff, validateUrl_eq_ok_iff,
      validateAddress_eq_ok_iff, List.mem_cons, List.not_mem_nil, or_false]
    constructor
    · rintro ⟨⟨scheme, -, literal⟩, filled, resolved⟩
      exact ⟨scheme, filled, literal, resolved⟩
    · rintro ⟨scheme, filled, literal, resolved⟩
      exact ⟨⟨scheme, hosted scheme, literal⟩, filled, resolved⟩

/-- Every request for the first page compares so, whatever its host resolves to. -/
theorem policies_ordered_for_localhost : OrderedByStrictness (fun _ => .error "no networks")
      ⟨"http", "", none, some (.domain "localhost"), none, "/", none, none⟩
      ⟨"http", "", none, some (.domain "localhost"), none, "/", none, none⟩
      [.v4 (.new 127 0 0 1)] :=
  policies_ordered_by_strictness _ _ _ _ fun _ => rfl

end Offprint.Network
