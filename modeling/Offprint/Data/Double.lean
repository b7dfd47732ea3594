import Mathlib.Data.Int.Log
import Mathlib.Data.Rat.Floor
import Mathlib.Tactic.Positivity

/-!
# Double precision

A number of a scripting language is a double: the result of an operation is the
exact result rounded to 53 significant bits, ties to even.  Numbers are kept as the
rationals they stand for; the range of exponents is not bounded.

Integers below `2 ^ 53` are doubles, and the quotient of two of them rounds up to
the same integer before and after rounding.

A text is read as the double it stands for.  A number too large for the format is
infinite; the sign of zero is not kept.
-/

namespace Offprint.Data

open Int

/-- The nearest integer, ties to even. -/
def roundHalfEven (value : ℚ) : ℤ :=
  let rest := value - ⌊value⌋
  if rest < 1 / 2 ∨ rest = 1 / 2 ∧ ⌊value⌋ % 2 = 0 then ⌊value⌋ else ⌊value⌋ + 1

def toDouble (value : ℚ) : ℚ :=
  let unit : ℚ := 2 ^ (log 2 value - 52)
  roundHalfEven (value / unit) * unit

section Round

variable {value : ℚ}

theorem roundHalfEven_cases (value : ℚ) :
    (roundHalfEven value = ⌊value⌋ ∧ value - ⌊value⌋ ≤ 1 / 2) ∨
      (roundHalfEven value = ⌊value⌋ + 1 ∧ 1 / 2 ≤ value - ⌊value⌋) := by
  unfold roundHalfEven
  dsimp only
  split_ifs with below
  · refine .inl ⟨rfl, ?_⟩
    rcases below with less | ⟨tie, -⟩
    · exact less.le
    · exact tie.le
  · rw [not_or] at below
    exact .inr ⟨rfl, not_lt.mp below.1⟩

theorem abs_roundHalfEven_sub_le (value : ℚ) : |(roundHalfEven value : ℚ) - value| ≤ 1 / 2 := by
  have low := floor_le value
  have high := lt_floor_add_one value
  rcases roundHalfEven_cases value with ⟨same, near⟩ | ⟨same, near⟩
  · rw [same, abs_le]
    constructor <;> linarith
  · rw [same, abs_le]
    push_cast
    constructor <;> linarith

theorem le_roundHalfEven {bound : ℤ} (le : (bound : ℚ) ≤ value) : bound ≤ roundHalfEven value := by
  have floor := le_floor.mpr le
  rcases roundHalfEven_cases value with ⟨same, -⟩ | ⟨same, -⟩ <;> omega

theorem roundHalfEven_le {bound : ℤ} (le : value ≤ (bound : ℚ)) : roundHalfEven value ≤ bound := by
  have low := floor_le value
  rcases roundHalfEven_cases value with ⟨same, -⟩ | ⟨same, far⟩
  · rw [same]
    exact_mod_cast low.trans le
  · have strict : (⌊value⌋ : ℚ) < bound := by linarith
    have order : ⌊value⌋ < bound := by exact_mod_cast strict
    omega

end Round

section Double

variable {value : ℚ}

section

variable (positive : 0 < value)
include positive

theorem unit_le : (2 : ℚ) ^ (log 2 value - 52) * 2 ^ 52 ≤ value := by
  have bound := zpow_log_le_self (b := 2) (by norm_num) positive
  rw [zpow_sub₀ (by norm_num)]
  norm_num at bound ⊢
  exact bound

theorem unit_of_small (small : value < 2 ^ 53) :
    ∃ places : ℕ, (2 : ℚ) ^ (log 2 value - 52) = 1 / 2 ^ places := by
  have bound : log 2 value < 53 := by
    rw [← lt_zpow_iff_log_lt (by norm_num) positive]
    exact_mod_cast small
  obtain ⟨places, sized⟩ : ∃ places : ℕ, log 2 value - 52 = -(places : ℤ) :=
    ⟨(52 - log 2 value).toNat, by omega⟩
  exact ⟨places, by rw [sized, zpow_neg, zpow_natCast, one_div]⟩

theorem abs_toDouble_sub_le : |toDouble value - value| ≤ value / 2 ^ 53 := by
  have units : (0 : ℚ) < 2 ^ (log 2 value - 52) := zpow_pos (by norm_num) _
  have near := abs_roundHalfEven_sub_le (value / 2 ^ (log 2 value - 52))
  have wide := unit_le positive
  unfold toDouble
  generalize (2 : ℚ) ^ (log 2 value - 52) = unit at units near wide ⊢
  have scaled : (roundHalfEven (value / unit) : ℚ) * unit - value =
      (roundHalfEven (value / unit) - value / unit) * unit := by
    field_simp
  rw [scaled, abs_mul, abs_of_pos units]
  calc |(roundHalfEven (value / unit) : ℚ) - value / unit| * unit
    _ ≤ 1 / 2 * unit := by gcongr
    _ ≤ value / 2 ^ 53 := by
      rw [le_div_iff₀ (by norm_num)]
      linarith

theorem le_toDouble {bound : ℕ} (small : bound ≤ 2 ^ 53)
    (le : (bound : ℚ) ≤ value) : (bound : ℚ) ≤ toDouble value := by
  unfold toDouble
  dsimp only
  rcases lt_or_ge value (2 ^ 53) with below | above
  · obtain ⟨places, unit⟩ := unit_of_small positive below
    rw [unit]
    have rounded : (bound : ℤ) * 2 ^ places ≤ roundHalfEven (value / (1 / 2 ^ places)) := by
      apply le_roundHalfEven
      rw [div_div_eq_mul_div, div_one]
      push_cast
      gcongr
    calc (bound : ℚ)
      _ = ((bound * 2 ^ places : ℤ) : ℚ) * (1 / 2 ^ places) := by
        push_cast
        field_simp
      _ ≤ _ := by
        gcongr
  · have units : (0 : ℚ) < 2 ^ (log 2 value - 52) := zpow_pos (by norm_num) _
    have wide : (2 : ℚ) ≤ 2 ^ (log 2 value - 52) := by
      have order : 53 ≤ log 2 value := by
        rw [← zpow_le_iff_le_log (by norm_num) positive]
        exact_mod_cast above
      calc (2 : ℚ) = 2 ^ (1 : ℤ) := by norm_num
        _ ≤ 2 ^ (log 2 value - 52) := zpow_le_zpow_right₀ (by norm_num) (by omega)
    have rounded : 2 ^ 52 ≤ roundHalfEven (value / 2 ^ (log 2 value - 52)) := by
      apply le_roundHalfEven
      rw [le_div_iff₀ units]
      push_cast
      linarith [unit_le positive]
    have cast : (2 : ℚ) ^ 52 ≤ roundHalfEven (value / 2 ^ (log 2 value - 52)) := by
      exact_mod_cast rounded
    calc (bound : ℚ) ≤ 2 ^ 53 := by exact_mod_cast small
      _ = 2 ^ 52 * 2 := by norm_num
      _ ≤ _ := by gcongr

theorem toDouble_le {bound : ℕ} (small : value < 2 ^ 53)
    (le : value ≤ (bound : ℚ)) : toDouble value ≤ bound := by
  unfold toDouble
  dsimp only
  obtain ⟨places, unit⟩ := unit_of_small positive small
  rw [unit]
  have rounded : roundHalfEven (value / (1 / 2 ^ places)) ≤ (bound : ℤ) * 2 ^ places := by
    apply roundHalfEven_le
    rw [div_div_eq_mul_div, div_one]
    push_cast
    gcongr
  calc (roundHalfEven (value / (1 / 2 ^ places)) : ℚ) * (1 / 2 ^ places)
    _ ≤ ((bound * 2 ^ places : ℤ) : ℚ) * (1 / 2 ^ places) := by
      gcongr
    _ = bound := by
      push_cast
      field_simp

end

theorem toDouble_zero : toDouble 0 = 0 := by
  simp [toDouble, roundHalfEven]

theorem toDouble_natCast {number : ℕ} (small : number < 2 ^ 53) :
    toDouble (number : ℚ) = number := by
  rcases Nat.eq_zero_or_pos number with rfl | positive
  · exact_mod_cast toDouble_zero
  · have real : (0 : ℚ) < number := by exact_mod_cast positive
    apply le_antisymm
    · exact toDouble_le real (by exact_mod_cast small) le_rfl
    · exact le_toDouble real small.le le_rfl

/-- Rounding a quotient of integers that are doubles does not change which integer it
rounds up to. -/
theorem ceil_toDouble_div {dividend divisor : ℕ} (small : dividend < 2 ^ 53)
    (positive : 0 < divisor) :
    ⌈toDouble (dividend / divisor : ℚ)⌉₊ = ⌈(dividend / divisor : ℚ)⌉₊ := by
  rcases Nat.eq_zero_or_pos dividend with rfl | some
  · simp [toDouble_zero]
  have top : (0 : ℚ) < dividend := by exact_mod_cast some
  have bottom : (1 : ℚ) ≤ divisor := by exact_mod_cast positive
  have quotient : (0 : ℚ) < dividend / divisor := by positivity
  have fits : (dividend / divisor : ℚ) < 2 ^ 53 := by
    rw [div_lt_iff₀ (by linarith)]
    have real : (dividend : ℚ) < 2 ^ 53 := by exact_mod_cast small
    nlinarith
  apply le_antisymm
  · exact Nat.ceil_le.mpr (toDouble_le quotient fits (Nat.le_ceil _))
  · -- The next integer below the quotient is further away than rounding reaches.
    apply Nat.ceil_le.mpr
    by_contra above
    rw [not_le, lt_div_iff₀ (by linarith)] at above
    generalize ceiling : ⌈toDouble (dividend / divisor : ℚ)⌉₊ = bound at above
    have reached : toDouble (dividend / divisor : ℚ) ≤ bound := ceiling ▸ Nat.le_ceil _
    have apart : (bound : ℚ) * divisor + 1 ≤ dividend := by
      have order : bound * divisor < dividend := by exact_mod_cast above
      exact_mod_cast order
    have near := (abs_le.mp (abs_toDouble_sub_le quotient)).1
    have tiny : (dividend / divisor : ℚ) / 2 ^ 53 < 1 / divisor := by
      rw [div_div, div_lt_div_iff₀ (by positivity) (by linarith)]
      have real : (dividend : ℚ) < 2 ^ 53 := by exact_mod_cast small
      nlinarith
    have step : (bound : ℚ) + 1 / divisor ≤ dividend / divisor := by
      rw [le_div_iff₀ (by linarith)]
      field_simp
      linarith
    linarith

end Double

inductive Float64 where
  | nan
  | infinite (negative : Bool)
  | finite (value : ℚ)
  deriving DecidableEq

namespace Float64

/-- The double nearest to a number that is not negative, ties to even. -/
def nearest (value : ℚ) : Float64 :=
  let unit : ℚ := 2 ^ max (log 2 value - 52) (-1074)
  let rounded := roundHalfEven (value / unit) * unit
  if rounded ≥ 2 ^ 1024 then infinite false else finite rounded

def negate : Float64 → Float64
  | nan => nan
  | infinite negative => infinite !negative
  | finite value => finite (-value)

/-- The digits behind the letter of an exponent, with an optional sign. -/
def parseExponent (text : List Char) : Option ℤ :=
  let (negative, digits) := match text with
    | '-' :: rest => (true, rest)
    | '+' :: rest => (false, rest)
    | _ => (false, text)
  if digits = [] ∨ digits.any (fun char => !char.isDigit) then none
  else
    let value : ℤ := Nat.ofDigitChars 10 digits 0
    some (if negative then -value else value)

def parseNumber (text : List Char) : Option ℚ := do
  let whole := text.takeWhile Char.isDigit
  let rest := text.dropWhile Char.isDigit
  let (fraction, rest) := match rest with
    | '.' :: after => (after.takeWhile Char.isDigit, after.dropWhile Char.isDigit)
    | _ => ([], rest)
  guard (whole ++ fraction ≠ [])
  let exponent ← match rest with
    | [] => some 0
    | 'e' :: after => parseExponent after
    | 'E' :: after => parseExponent after
    | _ => none
  return Nat.ofDigitChars 10 (whole ++ fraction) 0 * 10 ^ (exponent - fraction.length)

def parseUnsigned (text : List Char) : Option Float64 :=
  let name := String.ofList (text.map Char.toLower)
  if name = "nan" then some nan
  else if name = "inf" ∨ name = "infinity" then some (infinite false)
  else (parseNumber text).map nearest

/-- The double of a text, or why there is none. -/
def parse (text : List Char) : Except String Float64 :=
  let found := match text with
    | '-' :: rest => (parseUnsigned rest).map negate
    | '+' :: rest => parseUnsigned rest
    | _ => parseUnsigned text
  match found with
  | some value => .ok value
  | none =>
    .error (if text = [] then "cannot parse float from empty string" else "invalid float literal")

end Float64
end Offprint.Data
