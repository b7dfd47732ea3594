import Mathlib.Data.List.MinMax
import Offprint.Network.Address

/-!
# The special-purpose address registry

The registered networks with the class of their addresses, and the class of an
address as that of the longest registered prefix it has. The classification asks
its questions in another order and in terms of octets and segments, but each of
them is a prefix test, so both sides change only where a network starts or ends.
-/

namespace Offprint.Network

open Data Ipv4Addr List

/-- A registered network and the class of its addresses. -/
structure Registration (width : Nat) where
  network : BitVec width
  prefixLength : Nat
  addressClass : AddressClass
  deriving Repr, DecidableEq

section Table

variable {width : Nat}

/-- The longest registered prefix of the address. -/
def longestMatch (table : List (Registration width)) (address : BitVec width) :
    Option (Registration width) :=
  (table.filter fun entry => inPrefix address entry.network entry.prefixLength).argmax
    Registration.prefixLength

/-- Where the table's networks and the given ones start and end. -/
def tableBounds (table : List (Registration width)) (others : List (BitVec width × Nat)) :
    List Nat :=
  0 :: (table.flatMap fun entry => prefixEnds entry.network entry.prefixLength) ++
    others.flatMap fun other => prefixEnds other.1 other.2

variable (table : List (Registration width)) (others : List (BitVec width × Nat))
  (address : BitVec width)

theorem longestMatch_floorBits :
    longestMatch table (floorBits (tableBounds table others) address) =
      longestMatch table address := by
  unfold longestMatch
  congr 1
  apply filter_congr
  intro entry member
  apply inPrefix_floorBits
  intro bound isEnd
  exact mem_append_left _ (mem_cons_of_mem _ (mem_flatMap.mpr ⟨_, member, isEnd⟩))

end Table

/-! ## The tables -/

def Registration.v4 (first second third fourth : BitVec 8) (prefixLength : Nat)
    (addressClass : AddressClass) : Registration 32 :=
  ⟨(Ipv4Addr.new first second third fourth).bits, prefixLength, addressClass⟩

def Registration.v6 (s₀ s₁ s₂ s₃ s₄ s₅ s₆ s₇ : BitVec 16) (prefixLength : Nat)
    (addressClass : AddressClass) : Registration 128 :=
  ⟨(Ipv6Addr.new s₀ s₁ s₂ s₃ s₄ s₅ s₆ s₇).bits, prefixLength, addressClass⟩

def registryV4 : List (Registration 32) :=
  [ .v4 0 0 0 0 8 .nonRoutable, .v4 0 0 0 0 32 .nonRoutable, .v4 10 0 0 0 8 .privateAddress,
    .v4 100 64 0 0 10 .privateAddress,
    .v4 127 0 0 0 8 .loopback,
    .v4 169 254 0 0 16 .linkLocal,
    .v4 172 16 0 0 12 .privateAddress,
    .v4 192 0 0 0 24 .nonRoutable,
    .v4 192 0 0 0 29 .nonRoutable,
    .v4 192 0 0 8 32 .nonRoutable,
    .v4 192 0 0 9 32 .publicAddress,
    .v4 192 0 0 10 32 .publicAddress,
    .v4 192 0 0 170 31 .nonRoutable,
    .v4 192 0 2 0 24 .nonRoutable,
    .v4 192 31 196 0 24 .publicAddress,
    .v4 192 52 193 0 24 .publicAddress,
    .v4 192 88 99 0 24 .nonRoutable,
    .v4 192 88 99 2 32 .nonRoutable,
    .v4 192 168 0 0 16 .privateAddress,
    .v4 192 175 48 0 24 .publicAddress,
    .v4 198 18 0 0 15 .nonRoutable,
    .v4 198 51 100 0 24 .nonRoutable,
    .v4 203 0 113 0 24 .nonRoutable,
    .v4 240 0 0 0 4 .nonRoutable,
    .v4 255 255 255 255 32 .nonRoutable ]

def registryV6 : List (Registration 128) :=
  [ .v6 0 0 0 0 0 0 0 1 128 .loopback, .v6 0 0 0 0 0 0 0 0 128 .nonRoutable,
    .v6 0 0 0 0 0 0xffff 0 0 96 .nonRoutable,
    .v6 0x64 0xff9b 0 0 0 0 0 0 96 .publicAddress,
    .v6 0x64 0xff9b 1 0 0 0 0 0 48 .nonRoutable,
    .v6 0x100 0 0 0 0 0 0 0 64 .nonRoutable,
    .v6 0x100 0 0 1 0 0 0 0 64 .nonRoutable,
    .v6 0x2001 0 0 0 0 0 0 0 23 .nonRoutable,
    .v6 0x2001 0 0 0 0 0 0 0 32 .nonRoutable,
    .v6 0x2001 1 0 0 0 0 0 1 128 .publicAddress,
    .v6 0x2001 1 0 0 0 0 0 2 128 .publicAddress,
    .v6 0x2001 1 0 0 0 0 0 3 128 .publicAddress,
    .v6 0x2001 2 0 0 0 0 0 0 32 .nonRoutable,
    .v6 0x2001 3 0 0 0 0 0 0 32 .publicAddress,
    .v6 0x2001 4 0x112 0 0 0 0 0 48 .publicAddress,
    .v6 0x2001 0x10 0 0 0 0 0 0 28 .nonRoutable,
    .v6 0x2001 0x20 0 0 0 0 0 0 28 .publicAddress,
    .v6 0x2001 0x30 0 0 0 0 0 0 28 .publicAddress,
    .v6 0x2001 0xdb8 0 0 0 0 0 0 32 .nonRoutable,
    .v6 0x2002 0 0 0 0 0 0 0 16 .nonRoutable,
    .v6 0x2620 0x4f 0x8000 0 0 0 0 0 48 .publicAddress,
    .v6 0x3fff 0 0 0 0 0 0 0 20 .nonRoutable,
    .v6 0x5f00 0 0 0 0 0 0 0 16 .nonRoutable,
    .v6 0xfc00 0 0 0 0 0 0 0 7 .privateAddress,
    .v6 0xfe80 0 0 0 0 0 0 0 10 .linkLocal ]

/-- The class of the longest registered prefix. Outside the tables IPv4 addresses
are public unless they are multicast addresses, and IPv6 addresses are public in
`2000::/3`. -/
def registryClass : IpAddr → AddressClass
  | .v4 address =>
    match longestMatch registryV4 address.bits with
    | some entry => entry.addressClass
    | none =>
      if inPrefix address.bits (Ipv4Addr.new 224 0 0 0).bits 4 then .nonRoutable
      else .publicAddress
  | .v6 address =>
    match longestMatch registryV6 address.bits with
    | some entry => entry.addressClass
    | none =>
      if inPrefix address.bits (Ipv6Addr.new 0x2000 0 0 0 0 0 0 0).bits 3 then .publicAddress
      else .nonRoutable

/-! ## The questions of the classification -/

section Questions

variable (address : Ipv4Addr)

theorem octet_eq (index : Nat) :
    address.octet index = address.bits.toNat / 2 ^ (24 - 8 * index) % 256 := by
  simp [octet, Nat.shiftRight_eq_div_pow]

theorem isLoopback_eq :
    address.isLoopback = inPrefix address.bits (Ipv4Addr.new 127 0 0 0).bits 8 := by
  have small := address.bits.isLt
  rw [Bool.eq_iff_iff]
  simp [inPrefix_iff_div_eq, isLoopback, octet_eq, Ipv4Addr.new]
  omega

theorem isPrivate_eq :
    address.isPrivate =
      (inPrefix address.bits (Ipv4Addr.new 10 0 0 0).bits 8 ||
        inPrefix address.bits (Ipv4Addr.new 172 16 0 0).bits 12 ||
        inPrefix address.bits (Ipv4Addr.new 192 168 0 0).bits 16) := by
  have small := address.bits.isLt
  rw [Bool.eq_iff_iff]
  simp [inPrefix_iff_div_eq, isPrivate, octet_eq, Ipv4Addr.new]
  omega

theorem isLinkLocal_eq :
    address.isLinkLocal = inPrefix address.bits (Ipv4Addr.new 169 254 0 0).bits 16 := by
  have small := address.bits.isLt
  rw [Bool.eq_iff_iff]
  simp [inPrefix_iff_div_eq, isLinkLocal, octet_eq, Ipv4Addr.new]
  omega

theorem isCarrierGradeNat_eq :
    isCarrierGradeNat address = inPrefix address.bits (Ipv4Addr.new 100 64 0 0).bits 10 := by
  have small := address.bits.isLt
  rw [Bool.eq_iff_iff]
  simp [inPrefix_iff_div_eq, isCarrierGradeNat, octet_eq, Ipv4Addr.new]
  omega

theorem isBenchmarkV4_eq :
    isBenchmarkV4 address = inPrefix address.bits (Ipv4Addr.new 198 18 0 0).bits 15 := by
  have small := address.bits.isLt
  rw [Bool.eq_iff_iff]
  simp [inPrefix_iff_div_eq, isBenchmarkV4, octet_eq, Ipv4Addr.new]
  omega

theorem isMulticast_eq :
    address.isMulticast = inPrefix address.bits (Ipv4Addr.new 224 0 0 0).bits 4 := by
  have small := address.bits.isLt
  rw [Bool.eq_iff_iff]
  simp [inPrefix_iff_div_eq, isMulticast, octet_eq, Ipv4Addr.new]
  omega

theorem leading_beq (network : Ipv4Addr) :
    ([address.octet 0, address.octet 1, address.octet 2] ==
      [network.octet 0, network.octet 1, network.octet 2]) =
      inPrefix address.bits network.bits 24 := by
  have small := address.bits.isLt
  have networkSmall := network.bits.isLt
  rw [Bool.eq_iff_iff]
  simp [inPrefix_iff_div_eq, octet_eq]
  omega

theorem isDocumentation_eq :
    address.isDocumentation =
      (inPrefix address.bits (Ipv4Addr.new 192 0 2 0).bits 24 ||
        (inPrefix address.bits (Ipv4Addr.new 198 51 100 0).bits 24 ||
          inPrefix address.bits (Ipv4Addr.new 203 0 113 0).bits 24)) := by
  simp only [← leading_beq, isDocumentation, contains_cons, contains_nil,
    Bool.or_false]
  rfl

theorem isGloballyRoutableV4_eq :
    isGloballyRoutableV4 address =
      if inPrefix address.bits (Ipv4Addr.new 192 0 0 9).bits 32 ||
          inPrefix address.bits (Ipv4Addr.new 192 0 0 10).bits 32 then
        true
      else
        !inPrefix address.bits (Ipv4Addr.new 0 0 0 0).bits 8 &&
        !address.isPrivate &&
        !isCarrierGradeNat address &&
        !address.isLoopback &&
        !address.isLinkLocal &&
        !inPrefix address.bits (Ipv4Addr.new 192 0 0 0).bits 24 &&
        !address.isDocumentation &&
        !inPrefix address.bits (Ipv4Addr.new 192 88 99 0).bits 24 &&
        !isBenchmarkV4 address &&
        !address.isMulticast &&
        !inPrefix address.bits (Ipv4Addr.new 240 0 0 0).bits 4 := by
  have small := address.bits.isLt
  have exceptions : ([address.octet 0, address.octet 1, address.octet 2] == [192, 0, 0] &&
      (address.octet 3 == 9 || address.octet 3 == 10)) =
      (inPrefix address.bits (Ipv4Addr.new 192 0 0 9).bits 32 ||
        inPrefix address.bits (Ipv4Addr.new 192 0 0 10).bits 32) := by
    rw [Bool.eq_iff_iff]
    simp [inPrefix_iff_div_eq, octet_eq, Ipv4Addr.new]
    omega
  have notZero : (address.octet 0 != 0) =
      !inPrefix address.bits (Ipv4Addr.new 0 0 0 0).bits 8 := by
    rw [Bool.eq_iff_iff]
    simp [← Bool.not_eq_true, inPrefix_iff_div_eq, octet_eq, Ipv4Addr.new]
    omega
  have low : decide (address.octet 0 < 240) =
      !inPrefix address.bits (Ipv4Addr.new 240 0 0 0).bits 4 := by
    rw [Bool.eq_iff_iff]
    simp [← Bool.not_eq_true, inPrefix_iff_div_eq, octet_eq, Ipv4Addr.new]
    omega
  have protocol := leading_beq address (.new 192 0 0 0)
  have relay := leading_beq address (.new 192 88 99 0)
  unfold isGloballyRoutableV4
  dsimp only
  rw [exceptions, notZero, low, ← protocol, ← relay]
  rfl

variable (ipv6 network : Ipv6Addr)

theorem inPrefix_segment {prefixLength : Nat} (short : prefixLength ≤ 16) :
    inPrefix (ipv6.segment 0) (network.segment 0) prefixLength =
      inPrefix ipv6.bits network.bits prefixLength := by
  have first (other : Ipv6Addr) : (other.segment 0).toNat / 2 ^ (16 - prefixLength) =
      other.bits.toNat / 2 ^ (128 - prefixLength) := by
    have small : other.bits.toNat / 2 ^ 112 < 2 ^ 16 := by
      have := other.bits.isLt
      omega
    rw [Ipv6Addr.segment, BitVec.extractLsb'_toNat, Nat.shiftRight_eq_div_pow,
      Nat.mod_eq_of_lt small, Nat.div_div_eq_div_mul, ← Nat.pow_add]
    congr 2
    omega
  rw [Bool.eq_iff_iff, inPrefix_iff_div_eq, inPrefix_iff_div_eq, first, first]

theorem isUniqueLocal_eq :
    ipv6.isUniqueLocal = inPrefix ipv6.bits (Ipv6Addr.new 0xfc00 0 0 0 0 0 0 0).bits 7 := by
  rw [← inPrefix_segment _ _ (by decide)]
  rfl

theorem isUnicastLinkLocal_eq :
    ipv6.isUnicastLinkLocal = inPrefix ipv6.bits (Ipv6Addr.new 0xfe80 0 0 0 0 0 0 0).bits 10 := by
  rw [← inPrefix_segment _ _ (by decide)]
  rfl

theorem beq_eq_inPrefix : (ipv6 == network) = inPrefix ipv6.bits network.bits 128 := by
  cases ipv6
  cases network
  rw [Bool.eq_iff_iff, inPrefix_iff_div_eq, beq_iff_eq]
  simp [BitVec.toNat_inj]

theorem inV6Prefix_eq (prefixLength : Nat) :
    inV6Prefix ipv6 network prefixLength = inPrefix ipv6.bits network.bits prefixLength :=
  rfl

end Questions

/-! ## Agreement -/

/-- Where the answers about IPv4 addresses can change. -/
def boundsV4 : List Nat :=
  tableBounds registryV4 [((Ipv4Addr.new 224 0 0 0).bits, 4)]

def boundsV6 : List Nat :=
  tableBounds registryV6 [((Ipv6Addr.new 0x2000 0 0 0 0 0 0 0).bits, 3)]

theorem classifyV4_floorBits (address : Ipv4Addr) :
    classifyV4 ⟨floorBits boundsV4 address.bits⟩ = classifyV4 address := by
  simp (disch := decide) only [classifyV4, isGloballyRoutableV4_eq, isLoopback_eq, isPrivate_eq,
    isLinkLocal_eq, isCarrierGradeNat_eq, isBenchmarkV4_eq, isMulticast_eq, isDocumentation_eq,
    inPrefix_floorBits]

theorem classifyV6_floorBits (address : Ipv6Addr) :
    classifyV6 ⟨floorBits boundsV6 address.bits⟩ = classifyV6 address := by
  simp (disch := decide) only [classifyV6, isGloballyRoutableV6, isGloballyRoutableIetfV6,
    Ipv6Addr.isLoopback, isUniqueLocal_eq, isUnicastLinkLocal_eq, beq_eq_inPrefix, inV6Prefix_eq,
    inPrefix_floorBits]

theorem registryClass_floorBits_v4 (address : Ipv4Addr) :
    registryClass (.v4 ⟨floorBits boundsV4 address.bits⟩) = registryClass (.v4 address) := by
  have multicast : inPrefix (floorBits boundsV4 address.bits) (Ipv4Addr.new 224 0 0 0).bits 4 =
      inPrefix address.bits (Ipv4Addr.new 224 0 0 0).bits 4 :=
    inPrefix_floorBits (by decide) _
  simp only [registryClass, multicast]
  rw [boundsV4, longestMatch_floorBits]

theorem registryClass_floorBits_v6 (address : Ipv6Addr) :
    registryClass (.v6 ⟨floorBits boundsV6 address.bits⟩) = registryClass (.v6 address) := by
  have unicast : inPrefix (floorBits boundsV6 address.bits)
      (Ipv6Addr.new 0x2000 0 0 0 0 0 0 0).bits 3 =
      inPrefix address.bits (Ipv6Addr.new 0x2000 0 0 0 0 0 0 0).bits 3 :=
    inPrefix_floorBits (by decide) _
  simp only [registryClass, unicast]
  rw [boundsV6, longestMatch_floorBits]

theorem classifyV4_of_mem_boundsV4 : ∀ bound ∈ boundsV4,
    classifyV4 ⟨BitVec.ofNat 32 bound⟩ = registryClass (.v4 ⟨BitVec.ofNat 32 bound⟩) := by
  decide +kernel

theorem classifyV6_of_mem_boundsV6 : ∀ bound ∈ boundsV6,
    classifyV6 ⟨BitVec.ofNat 128 bound⟩ = registryClass (.v6 ⟨BitVec.ofNat 128 bound⟩) := by
  decide +kernel

/-- The classification is the longest-prefix match in the registry. -/
theorem classify_eq_registryClass (address : IpAddr) :
    AddressClass.classify address = registryClass address := by
  cases address with
  | v4 address =>
    have start : 0 ∈ boundsV4 := List.mem_cons_self
    calc AddressClass.classify (.v4 address)
        = classifyV4 ⟨floorBits boundsV4 address.bits⟩ := (classifyV4_floorBits address).symm
      _ = registryClass (.v4 ⟨floorBits boundsV4 address.bits⟩) :=
          classifyV4_of_mem_boundsV4 _ (floorOf_mem start)
      _ = registryClass (.v4 address) := registryClass_floorBits_v4 address
  | v6 address =>
    have start : 0 ∈ boundsV6 := List.mem_cons_self
    calc AddressClass.classify (.v6 address)
        = classifyV6 ⟨floorBits boundsV6 address.bits⟩ := (classifyV6_floorBits address).symm
      _ = registryClass (.v6 ⟨floorBits boundsV6 address.bits⟩) :=
          classifyV6_of_mem_boundsV6 _ (floorOf_mem start)
      _ = registryClass (.v6 address) := registryClass_floorBits_v6 address

end Offprint.Network
