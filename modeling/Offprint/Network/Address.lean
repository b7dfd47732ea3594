import Offprint.Data.Boundaries

/-!
# Address classes

IPv4 and IPv6 addresses as bit vectors, the standard library's predicates on
them, and the classification every network policy starts from.

A prefix test looks only at the leading bits, so inside one network every test
against a shorter prefix has the same answer, which `inV6Prefix_congr` reads off
the network itself.
-/

namespace Offprint.Network

open Data

/-- An IPv4 address, most significant octet first. -/
structure Ipv4Addr where
  bits : BitVec 32
  deriving Repr, DecidableEq

/-- An IPv6 address, most significant segment first. -/
structure Ipv6Addr where
  bits : BitVec 128
  deriving Repr, DecidableEq

inductive IpAddr where
  | v4 (address : Ipv4Addr)
  | v6 (address : Ipv6Addr)
  deriving Repr, DecidableEq

namespace Ipv4Addr

def new (first second third fourth : BitVec 8) : Ipv4Addr :=
  ⟨first ++ second ++ third ++ fourth⟩

variable (address : Ipv4Addr)

def octet (index : Nat) : Nat :=
  (address.bits.extractLsb' (24 - 8 * index) 8).toNat

def isLoopback : Bool :=
  address.octet 0 == 127

def isPrivate : Bool :=
  address.octet 0 == 10 ||
  (address.octet 0 == 172 && 16 ≤ address.octet 1 && address.octet 1 ≤ 31) ||
  (address.octet 0 == 192 && address.octet 1 == 168)

def isLinkLocal : Bool :=
  address.octet 0 == 169 && address.octet 1 == 254

def isDocumentation : Bool :=
  [[192, 0, 2], [198, 51, 100], [203, 0, 113]].contains
    [address.octet 0, address.octet 1, address.octet 2]

def isMulticast : Bool :=
  224 ≤ address.octet 0 && address.octet 0 ≤ 239

def display : String :=
  ".".intercalate ((List.range 4).map fun index => toString (address.octet index))

end Ipv4Addr

namespace Ipv6Addr

def new (s₀ s₁ s₂ s₃ s₄ s₅ s₆ s₇ : BitVec 16) : Ipv6Addr :=
  ⟨s₀ ++ s₁ ++ s₂ ++ s₃ ++ s₄ ++ s₅ ++ s₆ ++ s₇⟩

variable (address : Ipv6Addr)

def segment (index : Nat) : BitVec 16 :=
  address.bits.extractLsb' (112 - 16 * index) 16

def segments : List (BitVec 16) :=
  (List.range 8).map address.segment

def isLoopback : Bool :=
  address == new 0 0 0 0 0 0 0 1

def isUniqueLocal : Bool :=
  address.segment 0 &&& 0xfe00 == 0xfc00

def isUnicastLinkLocal : Bool :=
  address.segment 0 &&& 0xffc0 == 0xfe80

/-- The 32 bits that start `offset` bits above the least significant one. -/
def ipv4At (offset : Nat) : Ipv4Addr :=
  ⟨address.bits.extractLsb' offset 32⟩

/-- The first of the longest runs of zero segments, as its start and length. -/
def longestZeroes (segments : List (BitVec 16)) : Nat × Nat :=
  let scan (spans : (Nat × Nat) × (Nat × Nat)) (segment : BitVec 16 × Nat) :=
    if segment.1 = 0 then
      let current := (if spans.2.2 = 0 then segment.2 else spans.2.1, spans.2.2 + 1)
      (if spans.1.2 < current.2 then current else spans.1, current)
    else
      (spans.1, (0, 0))
  (segments.zipIdx.foldl scan ((0, 0), (0, 0))).1

def hexSegments (segments : List (BitVec 16)) : String :=
  ":".intercalate (segments.map fun segment =>
    String.ofList (Nat.toDigits 16 segment.toNat))

/-- Hexadecimal segments with the longest run of zeros left out. -/
def compressed : String :=
  let (start, length) := longestZeroes address.segments
  if 1 < length then
    hexSegments (address.segments.take start) ++ "::" ++
      hexSegments (address.segments.drop (start + length))
  else
    hexSegments address.segments

def display : String :=
  if address.segments.take 6 = [0, 0, 0, 0, 0, 0xffff] then
    "::ffff:" ++ (address.ipv4At 0).display
  else
    address.compressed

end Ipv6Addr

def IpAddr.display : IpAddr → String
  | .v4 address => address.display
  | .v6 address => address.display

/-! ## Classification -/

inductive AddressClass where
  | publicAddress
  | loopback
  | privateAddress
  | linkLocal
  | nonRoutable
  deriving Repr, DecidableEq

def AddressClass.text : AddressClass → String
  | .publicAddress => "Public"
  | .loopback => "Loopback"
  | .privateAddress => "Private"
  | .linkLocal => "LinkLocal"
  | .nonRoutable => "NonRoutable"

variable (address : Ipv4Addr)

def isCarrierGradeNat : Bool :=
  address.octet 0 == 100 && 64 ≤ address.octet 1 && address.octet 1 ≤ 127

def isBenchmarkV4 : Bool :=
  address.octet 0 == 198 && (address.octet 1 == 18 || address.octet 1 == 19)

def isGloballyRoutableV4 : Bool :=
  let first := address.octet 0
  let leading := [first, address.octet 1, address.octet 2]
  if leading == [192, 0, 0] && (address.octet 3 == 9 || address.octet 3 == 10) then
    true
  else
    first != 0 &&
    !address.isPrivate &&
    !isCarrierGradeNat address &&
    !address.isLoopback &&
    !address.isLinkLocal &&
    leading != [192, 0, 0] &&
    !address.isDocumentation &&
    leading != [192, 88, 99] &&
    !isBenchmarkV4 address &&
    !address.isMulticast &&
    first < 240

def inV6Prefix (address network : Ipv6Addr) (prefixLength : Nat) : Bool :=
  let mask := BitVec.allOnes 128 <<< (128 - prefixLength)
  address.bits &&& mask == network.bits &&& mask

def isGloballyRoutableIetfV6 (address : Ipv6Addr) : Bool :=
  address == .new 0x2001 1 0 0 0 0 0 1 ||
  address == .new 0x2001 1 0 0 0 0 0 2 ||
  address == .new 0x2001 1 0 0 0 0 0 3 ||
  inV6Prefix address (.new 0x2001 3 0 0 0 0 0 0) 32 ||
  inV6Prefix address (.new 0x2001 4 0x112 0 0 0 0 0) 48 ||
  inV6Prefix address (.new 0x2001 0x20 0 0 0 0 0 0) 28 ||
  inV6Prefix address (.new 0x2001 0x30 0 0 0 0 0 0) 28

def isGloballyRoutableV6 (address : Ipv6Addr) : Bool :=
  if inV6Prefix address (.new 0x64 0xff9b 0 0 0 0 0 0) 96 then
    true
  else if !inV6Prefix address (.new 0x2000 0 0 0 0 0 0 0) 3 then
    false
  else if inV6Prefix address (.new 0x2001 0 0 0 0 0 0 0) 23 then
    isGloballyRoutableIetfV6 address
  else
    !inV6Prefix address (.new 0x2001 0x0db8 0 0 0 0 0 0) 32 &&
    !inV6Prefix address (.new 0x2002 0 0 0 0 0 0 0) 16 &&
    !inV6Prefix address (.new 0x3fff 0 0 0 0 0 0 0) 20

def classifyV4 : AddressClass :=
  if address.isLoopback then
    .loopback
  else if address.isPrivate || isCarrierGradeNat address then
    .privateAddress
  else if address.isLinkLocal then
    .linkLocal
  else if isGloballyRoutableV4 address then
    .publicAddress
  else
    .nonRoutable

def classifyV6 (address : Ipv6Addr) : AddressClass :=
  if address.isLoopback then
    .loopback
  else if address.isUniqueLocal then
    .privateAddress
  else if address.isUnicastLinkLocal then
    .linkLocal
  else if isGloballyRoutableV6 address then
    .publicAddress
  else
    .nonRoutable

def AddressClass.classify : IpAddr → AddressClass
  | .v4 address => classifyV4 address
  | .v6 address => classifyV6 address

/-! ## Prefix tests -/

theorem inV6Prefix_iff (address network : Ipv6Addr) (prefixLength : Nat) :
    inV6Prefix address network prefixLength = true ↔
      ∀ index, 128 - prefixLength ≤ index →
        address.bits.getLsbD index = network.bits.getLsbD index := by
  simp only [inV6Prefix, beq_iff_eq]
  exact and_allOnes_shiftLeft_eq_iff address.bits network.bits (128 - prefixLength)

variable {address network : Ipv6Addr} {prefixLength : Nat}

/-- Inside a network every test against a shorter prefix is settled by the
network address. -/
theorem inV6Prefix_congr {longer : Nat} (inside : inV6Prefix address network longer = true)
    (other : Ipv6Addr) {shorter : Nat} (shorterLe : shorter ≤ longer) :
    inV6Prefix address other shorter = inV6Prefix network other shorter := by
  rw [inV6Prefix_iff] at inside
  rw [Bool.eq_iff_iff, inV6Prefix_iff, inV6Prefix_iff]
  have leading : ∀ index, 128 - shorter ≤ index →
      address.bits.getLsbD index = network.bits.getLsbD index :=
    fun index high => inside index (by omega)
  constructor
  · intro agree index high
    rw [← leading index high, agree index high]
  · intro agree index high
    rw [leading index high, agree index high]

section

variable (inside : inV6Prefix address network prefixLength = true)
include inside

theorem segment_zero_of_inV6Prefix (long : 16 ≤ prefixLength) :
    address.segment 0 = network.segment 0 := by
  rw [inV6Prefix_iff] at inside
  apply BitVec.eq_of_getLsbD_eq
  intro index indexLt
  simp only [Ipv6Addr.segment, BitVec.getLsbD_extractLsb', indexLt, decide_true, Bool.true_and]
  exact inside (112 + index) (by omega)

theorem ne_of_inV6Prefix {other : Ipv6Addr}
    (outside : inV6Prefix other network prefixLength = false) : address ≠ other := by
  rintro rfl
  simp [inside] at outside

end

theorem classifyV6_eq_publicAddress_iff (address : Ipv6Addr) :
    classifyV6 address = .publicAddress ↔
      address.isLoopback = false ∧ address.isUniqueLocal = false ∧
        address.isUnicastLinkLocal = false ∧ isGloballyRoutableV6 address = true := by
  unfold classifyV6
  split_ifs <;> simp_all

end Offprint.Network
