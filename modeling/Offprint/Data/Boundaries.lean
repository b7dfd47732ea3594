import Mathlib.Data.BitVec

/-!
# Comparing functions at boundaries

A test for an interval changes its answer only at the two ends of the interval.
Functions built from such tests therefore have one value from each end up to the
next one, and two of them that agree at all ends agree everywhere. Every value
is led to the last boundary at or below it.
-/

namespace Offprint.Data

open List Nat BitVec

/-- The last boundary at or below the value. -/
def floorOf (bounds : List Nat) (value : Nat) : Nat :=
  (bounds.filter fun bound => bound ≤ value).foldr max 0

variable {bounds : List Nat} {bound value width : Nat}

theorem foldr_max_mem (numbers : List Nat) : numbers.foldr max 0 ∈ 0 :: numbers := by
  induction numbers with
  | nil => simp
  | cons first rest ih =>
    rw [foldr_cons]
    rcases max_choice first (rest.foldr max 0) with chosen | chosen
    · simp [chosen]
    · rw [chosen]
      rcases mem_cons.mp ih with zero | member
      · simp [zero]
      · simp [member]

theorem le_foldr_max {numbers : List Nat} (member : bound ∈ numbers) :
    bound ≤ numbers.foldr max 0 := by
  induction numbers with
  | nil => cases member
  | cons first rest ih =>
    rw [foldr_cons]
    rcases mem_cons.mp member with rfl | later
    · exact le_max_left _ _
    · exact (ih later).trans (le_max_right _ _)

theorem floorOf_mem (start : 0 ∈ bounds) : floorOf bounds value ∈ bounds := by
  rcases mem_cons.mp (foldr_max_mem (bounds.filter fun bound => bound ≤ value)) with
    zero | member
  · rw [floorOf, zero]
    exact start
  · exact (mem_filter.mp member).1

theorem floorOf_le (bounds : List Nat) (value : Nat) : floorOf bounds value ≤ value := by
  rcases mem_cons.mp (foldr_max_mem (bounds.filter fun bound => bound ≤ value)) with
    zero | member
  · rw [floorOf, zero]
    exact zero_le value
  · exact of_decide_eq_true (mem_filter.mp member).2

theorem le_floorOf_iff (member : bound ∈ bounds) : bound ≤ floorOf bounds value ↔ bound ≤ value :=
  ⟨fun below => below.trans (floorOf_le bounds value),
    fun below => le_foldr_max (mem_filter.mpr ⟨member, decide_eq_true below⟩)⟩

/-! ## Prefixes of bit vectors -/

theorem and_allOnes_shiftLeft_eq_iff (left right : BitVec width) (shift : Nat) :
    left &&& (BitVec.allOnes width <<< shift) = right &&& (BitVec.allOnes width <<< shift) ↔
      ∀ index, shift ≤ index → left.getLsbD index = right.getLsbD index := by
  constructor
  · intro equal index high
    by_cases inside : index < width
    · have bit := congrArg (fun bits => bits.getLsbD index) equal
      simpa [inside, not_lt.mpr high, show index - shift < width by omega] using bit
    · simp [getLsbD_of_ge, Nat.le_of_not_lt inside]
  · intro agree
    apply eq_of_getLsbD_eq
    intro index inside
    by_cases high : shift ≤ index
    · simp [agree index high]
    · simp [show index < shift by omega]

/-- The leading bits of the address are those of the network. -/
def inPrefix (address network : BitVec width) (prefixLength : Nat) : Bool :=
  let mask := BitVec.allOnes width <<< (width - prefixLength)
  address &&& mask == network &&& mask

/-- The first number of a network and the first number behind it. -/
def prefixEnds (network : BitVec width) (prefixLength : Nat) : List Nat :=
  let size := 2 ^ (width - prefixLength)
  [network.toNat / size * size, (network.toNat / size + 1) * size]

theorem inPrefix_iff_div_eq (address network : BitVec width) (prefixLength : Nat) :
    inPrefix address network prefixLength = true ↔
      address.toNat / 2 ^ (width - prefixLength) = network.toNat / 2 ^ (width - prefixLength) := by
  have shifted (bits : BitVec width) :
      bits.toNat / 2 ^ (width - prefixLength) = (bits >>> (width - prefixLength)).toNat := by
    rw [toNat_ushiftRight, shiftRight_eq_div_pow]
  rw [shifted, shifted, toNat_inj, inPrefix, beq_iff_eq, and_allOnes_shiftLeft_eq_iff]
  constructor
  · intro agree
    apply eq_of_getLsbD_eq
    intro index _
    simp only [getLsbD_ushiftRight]
    exact agree _ (le_add_right _ _)
  · intro equal index high
    have bit := congrArg (fun bits => bits.getLsbD (index - (width - prefixLength))) equal
    simpa [getLsbD_ushiftRight, Nat.add_sub_cancel' high] using bit

/-- The boundary at or below an address, as an address. -/
def floorBits (bounds : List Nat) (address : BitVec width) : BitVec width :=
  BitVec.ofNat width (floorOf bounds address.toNat)

theorem toNat_floorBits (bounds : List Nat) (address : BitVec width) :
    (floorBits bounds address).toNat = floorOf bounds address.toNat := by
  rw [floorBits, toNat_ofNat, mod_eq_of_lt]
  exact (floorOf_le bounds _).trans_lt address.isLt

/-- A prefix test with both ends among the boundaries does not change on the way
down to the last boundary. -/
theorem inPrefix_floorBits {network : BitVec width} {prefixLength : Nat}
    (ends : prefixEnds network prefixLength ⊆ bounds) (address : BitVec width) :
    inPrefix (floorBits bounds address) network prefixLength =
      inPrefix address network prefixLength := by
  rw [Bool.eq_iff_iff, inPrefix_iff_div_eq, inPrefix_iff_div_eq, toNat_floorBits]
  have positive : 0 < 2 ^ (width - prefixLength) := Nat.two_pow_pos _
  have between (number quotient : Nat) : number / 2 ^ (width - prefixLength) = quotient ↔
      quotient * 2 ^ (width - prefixLength) ≤ number ∧
        ¬(quotient + 1) * 2 ^ (width - prefixLength) ≤ number := by
    rw [← le_div_iff_mul_le positive, ← le_div_iff_mul_le positive]
    omega
  rw [between, between, le_floorOf_iff (ends (by simp [prefixEnds])),
    le_floorOf_iff (ends (by simp [prefixEnds]))]

end Offprint.Data
