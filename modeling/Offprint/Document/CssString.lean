import Offprint.Data.Css

/-!
# CSS strings

How a replacement is written between the quotes of a CSS string, and that the
tokenizer reads it back.
-/

namespace Offprint.Document

open Data Css List

def isControl (char : Char) : Bool :=
  char.toNat < 0x20 || (0x7f ≤ char.toNat && char.toNat < 0xa0)

def numericEscape (char : Char) : List Char :=
  '\\' :: Nat.toDigits 16 char.toNat ++ [' ']

/-- One character as it stands inside a quoted CSS string. -/
def escapeCssChar (char : Char) : List Char :=
  match char with
  | '\x00' => ['�']
  | '"' => ['\\', '"']
  | '\\' => ['\\', '\\']
  | '\n' => ['\\', 'a', ' ']
  | '\r' => ['\\', 'd', ' ']
  | '\x0c' => ['\\', 'c', ' ']
  | char => if isControl char then numericEscape char else [char]

def escapeCssString (value : List Char) : List Char :=
  value.flatMap escapeCssChar

theorem toDigits_of_control : ∀ value < 0xa0, value ≠ 0 →
    (Nat.toDigits 16 value).all isHexDigit = true ∧
      (Nat.toDigits 16 value).length ≤ 2 ∧ Nat.toDigits 16 value ≠ [] ∧
        codePoint (Nat.toDigits 16 value) = Char.ofNat value := by
  decide +kernel

section

variable (rest : List Char) {value : List Char}

theorem escape_digits {digits : List Char} (hexadecimal : digits.all isHexDigit = true)
    (short : digits.length ≤ 6) (filled : digits ≠ []) :
    escape (digits ++ ' ' :: rest) = (codePoint digits, rest) := by
  have each : ∀ digit ∈ digits, isHexDigit digit = true := all_eq_true.mp hexadecimal
  have ends : ((' ' :: rest).take (6 - digits.length)).takeWhile isHexDigit = [] := by
    cases 6 - digits.length with
    | zero => rfl
    | succ room => exact takeWhile_cons_of_neg (by decide)
  have read : ((digits ++ ' ' :: rest).take 6).takeWhile isHexDigit = digits := by
    rw [take_append, take_of_length_le short, takeWhile_append_of_pos each, ends,
      append_nil]
  obtain ⟨first, others, rfl⟩ := exists_cons_of_ne_nil filled
  rw [cons_append] at read ⊢
  rw [escape, if_pos (each first mem_cons_self)]
  simp only [read]
  rw [← cons_append, drop_left]
  rfl

theorem stringStep_escapeCssChar {char : Char} (noNull : char ≠ '\x00') :
    stringStep '"' (escapeCssChar char ++ rest) = some ([char], rest) := by
  fun_cases escapeCssChar char with
  | case1 => exact absurd rfl noNull
  | case2 => rfl
  | case3 => rfl
  | case4 => rfl
  | case5 => rfl
  | case6 => rfl
  | case7 char null quote backslash newline carriage feed control =>
    have small : char.toNat < 0xa0 := by
      simp only [isControl, Bool.or_eq_true, Bool.and_eq_true, decide_eq_true_eq] at control
      omega
    have positive : char.toNat ≠ 0 := fun zero => null (Char.toNat_inj.mp zero)
    obtain ⟨hexadecimal, short, filled, named⟩ := toDigits_of_control char.toNat small positive
    have read := escape_digits rest hexadecimal (short.trans (by decide)) filled
    rw [named, Char.ofNat_toNat] at read
    obtain ⟨first, others, digits⟩ := exists_cons_of_ne_nil filled
    have digit : isHexDigit first = true := by
      rw [digits] at hexadecimal
      exact (all_eq_true.mp hexadecimal) first mem_cons_self
    rw [digits, cons_append] at read
    have escaped := Css.stringStep_escape (others ++ ' ' :: rest) (by decide : '"' ≠ '\\')
      (isNewline_of_isHexDigit digit)
    rw [read] at escaped
    simpa [numericEscape, digits] using escaped
  | case8 char null quote backslash newline carriage feed control =>
    have printed : isNewline char = false := by
      simp only [isNewline, Bool.or_eq_false_iff, beq_eq_false_iff_ne]
      exact ⟨⟨newline, carriage⟩, feed⟩
    have read := stringStep_literal rest quote printed backslash
    rwa [literal, if_neg null] at read

theorem run_escapeCssString (noNull : '\x00' ∉ value) :
    (stringScanner '"').run (escapeCssString value ++ '"' :: rest) =
      (value.map fun char => [char], '"' :: rest) := by
  induction value with
  | nil => exact (stringScanner '"').run_of_none rfl
  | cons char value ih =>
    obtain ⟨first, others⟩ := not_or.mp (mt mem_cons.mpr noNull)
    have step : (stringScanner '"').step
        (escapeCssChar char ++ (escapeCssString value ++ '"' :: rest)) = _ :=
      stringStep_escapeCssChar _ (Ne.symm first)
    have ran := (stringScanner '"').run_of_some step
    rw [ih others, ← List.append_assoc] at ran
    exact ran

theorem consumeString_escapeCssString (noNull : '\x00' ∉ value) :
    Css.consumeString '"' (escapeCssString value ++ '"' :: rest) = (.string value, rest) := by
  have joined : (value.map fun char => [char]).flatten = value := by
    rw [← List.flatMap_def, List.flatMap_singleton']
  simp [Css.consumeString, run_escapeCssString rest noNull, joined]

end

/-- The quoted string that is written for a value is one string token of that value. -/
theorem tokens_escapeCssString (value : List Char) (noNull : '\x00' ∉ value) :
    (Css.tokens ('"' :: escapeCssString value ++ ['"'])).map Css.Piece.token = [.string value] := by
  have read : Css.consumeToken '"' (escapeCssString value ++ ['"']) = (.string value, []) :=
    consumeString_escapeCssString [] noNull
  have pieces := Css.tokens_of_consumeToken (List.append_nil _).symm read
  rw [List.cons_append, pieces]
  rfl

/-- A control character in front of a hexadecimal digit. -/
theorem tokens_escapeCssString_control :
    escapeCssString "\x01a\n".toList = "\\1 a\\a ".toList ∧
      (Css.tokens "\"\\1 a\\a \"".toList).map Css.Piece.token =
        [.string "\x01a\n".toList] :=
  ⟨rfl, tokens_escapeCssString "\x01a\n".toList (by decide)⟩

end Offprint.Document
