import Mathlib.Data.Option.Basic
import Mathlib.Data.List.DropRight
import Offprint.Data.Utf8

/-!
# Texts addressed by bytes

A text is a list of characters; the offsets into it count the bytes of its
encoding.  Only an offset between two characters splits a text.
-/

namespace Offprint.Data.Text

open Offprint.Data.Utf8 (encode)
open List Option

def size (text : List Char) : Nat :=
  (encode text).length

@[simp]
theorem encode_append (first second : List Char) :
    encode (first ++ second) = encode first ++ encode second :=
  flatMap_append

@[simp]
theorem size_nil : size [] = 0 := rfl

@[simp]
theorem size_cons (char : Char) (text : List Char) :
    size (char :: text) = char.utf8Size + size text := by
  simp [size, Utf8.encode_cons]

@[simp]
theorem size_append (first second : List Char) :
    size (first ++ second) = size first + size second := by
  simp [size]

variable {text part before after : List Char} {offset : Nat} {start stop : Nat}

theorem size_eq_zero_iff : size text = 0 ↔ text = [] := by
  cases text with
  | nil => simp
  | cons char text =>
    have positive := Char.utf8Size_pos char
    simp only [size_cons, reduceCtorEq, iff_false]
    omega

theorem size_pos_iff : 0 < size text ↔ text ≠ [] := by
  rw [Nat.pos_iff_ne_zero, Ne, size_eq_zero_iff]

theorem length_le_size (text : List Char) : text.length ≤ size text := by
  induction text with
  | nil => exact Nat.le_refl 0
  | cons char rest ih =>
    have wide := Char.utf8Size_pos char
    rw [length_cons, size_cons]
    omega

theorem size_le_of_suffix (suffix : part <:+ text) : size part ≤ size text := by
  obtain ⟨front, rfl⟩ := suffix
  rw [size_append]
  omega

/-- A text apart at a byte offset, where that is between two characters. -/
def split : Nat → List Char → Option (List Char × List Char)
  | 0, text => some ([], text)
  | _ + 1, [] => none
  | offset + 1, char :: rest =>
    if char.utf8Size ≤ offset + 1 then
      (split (offset + 1 - char.utf8Size) rest).map fun (before, after) => (char :: before, after)
    else
      none

theorem split_size_append (before after : List Char) :
    split (size before) (before ++ after) = some (before, after) := by
  induction before with
  | nil => simp [split]
  | cons char before ih =>
    obtain ⟨width, wide⟩ := Nat.exists_eq_succ_of_ne_zero (Char.utf8Size_pos char).ne'
    have offset : size (char :: before) = (width + size before) + 1 := by
      rw [size_cons]
      omega
    have left : (width + size before) + 1 - char.utf8Size = size before := by omega
    have fits : char.utf8Size ≤ (width + size before) + 1 := by omega
    rw [offset, cons_append, split, if_pos fits, left, ih]
    rfl

theorem append_of_split (parts : split offset text = some (before, after)) :
    text = before ++ after ∧ size before = offset := by
  induction text generalizing offset before with
  | nil =>
    cases offset with
    | zero =>
      obtain ⟨rfl, rfl⟩ := Prod.mk.inj (some.inj parts)
      exact ⟨rfl, rfl⟩
    | succ offset => cases parts
  | cons char rest ih =>
    cases offset with
    | zero =>
      obtain ⟨rfl, rfl⟩ := Prod.mk.inj (some.inj parts)
      exact ⟨rfl, rfl⟩
    | succ offset =>
      rw [split] at parts
      split at parts
      · rename_i fits
        obtain ⟨⟨front, back⟩, found, same⟩ := map_eq_some_iff.mp parts
        obtain ⟨rfl, rfl⟩ := Prod.mk.inj same
        obtain ⟨rfl, wide⟩ := ih found
        refine ⟨rfl, ?_⟩
        rw [size_cons, wide]
        omega
      · cases parts

theorem append_inj {first second : List Char} (same : first ++ second = before ++ after)
    (width : size first = size before) : first = before ∧ second = after := by
  have parts := split_size_append first second
  rw [same, width, split_size_append, some.injEq, Prod.mk.injEq] at parts
  exact ⟨parts.1.symm, parts.2.symm⟩

/-- An offset between two characters, or at an end. -/
def Boundary (text : List Char) (offset : Nat) : Prop :=
  ∃ before after, text = before ++ after ∧ size before = offset

theorem Boundary.le_size (boundary : Boundary text offset) : offset ≤ size text := by
  obtain ⟨before, after, rfl, rfl⟩ := boundary
  simp

/-- The part of a text between two byte offsets, where both are boundaries. -/
def slice (text : List Char) (start stop : Nat) : Option (List Char) := do
  guard (start ≤ stop)
  let (before, _) ← split stop text
  let (_, part) ← split start before
  return part

theorem slice_eq_some_iff :
    slice text start stop = some part ↔
      ∃ before after, text = before ++ part ++ after ∧ size before = start ∧
        size before + size part = stop := by
  constructor
  · intro found
    simp only [slice, bind, bind_eq_some_iff, pure, some.injEq, Prod.exists] at found
    obtain ⟨-, -, front, after, cut, before, middle, inner, rfl⟩ := found
    obtain ⟨rfl, wide⟩ := append_of_split cut
    obtain ⟨rfl, narrow⟩ := append_of_split inner
    exact ⟨before, after, rfl, narrow, by rw [← wide, size_append]⟩
  · rintro ⟨before, after, rfl, rfl, rfl⟩
    have whole := split_size_append (before ++ part) after
    rw [size_append] at whole
    simp only [slice, whole, bind, pure, bind_some, split_size_append]
    simp

theorem slice_isSome_iff :
    (slice text start stop).isSome = true ↔
      start ≤ stop ∧ Boundary text start ∧ Boundary text stop := by
  rw [isSome_iff_exists]
  constructor
  · rintro ⟨part, found⟩
    obtain ⟨before, after, rfl, rfl, rfl⟩ := slice_eq_some_iff.mp found
    refine ⟨by omega, ⟨before, part ++ after, by simp, rfl⟩, ⟨before ++ part, after, rfl, ?_⟩⟩
    exact size_append before part
  · rintro ⟨ordered, ⟨before, others, rfl, rfl⟩, ⟨longer, after, same, rfl⟩⟩
    have encoded : encode before ++ encode others = encode longer ++ encode after := by
      rw [← encode_append, same, encode_append]
    have cut : encode before <+: encode longer :=
      prefix_of_prefix_length_le ⟨encode others, rfl⟩ ⟨encode after, encoded.symm⟩ ordered
    obtain ⟨missing, rejoined⟩ := cut
    obtain ⟨part, rfl, -⟩ := Utf8.append_of_encode_append rejoined
    exact ⟨part, slice_eq_some_iff.mpr ⟨before, after, same, rfl, (size_append before part).symm⟩⟩

section Bytes

theorem encodeChar_cases (char : Char) :
    (char.toNat < 128 ∧ ∃ byte : UInt8, String.utf8EncodeChar char = [byte] ∧
        byte.toNat = char.toNat) ∨
      (128 ≤ char.toNat ∧ ∀ byte ∈ String.utf8EncodeChar char, 128 ≤ byte.toNat) := by
  have top : ∀ (byte mark : UInt8), 128 ≤ mark.toNat → 128 ≤ (byte ||| mark).toNat := by
    intro byte mark high
    rw [UInt8.toNat_or]
    exact high.trans Nat.right_le_or
  rcases Char.utf8Size_eq char with one | two | three | four
  · left
    have small := Char.utf8Size_eq_one_iff.mp one
    have bound : char.toNat < 128 := by
      have := UInt32.le_iff_toNat_le.mp small
      exact Nat.lt_succ_of_le this
    refine ⟨bound, char.val.toUInt8, String.utf8EncodeChar_eq_singleton one, ?_⟩
    rw [UInt32.toNat_toUInt8]
    exact Nat.mod_eq_of_lt (bound.trans (by decide))
  · right
    obtain ⟨large, -⟩ := Char.utf8Size_eq_two_iff.mp two
    refine ⟨UInt32.lt_iff_toNat_lt.mp large, ?_⟩
    rw [String.utf8EncodeChar_eq_cons_cons two]
    simp only [mem_cons, not_mem_nil, or_false]
    rintro byte (rfl | rfl) <;> exact top _ _ (by decide)
  · right
    obtain ⟨large, -⟩ := Char.utf8Size_eq_three_iff.mp three
    have bound := UInt32.lt_iff_toNat_lt.mp large
    refine ⟨(by decide : 128 ≤ 0x7ff).trans bound.le, ?_⟩
    rw [String.utf8EncodeChar_eq_cons_cons_cons three]
    simp only [mem_cons, not_mem_nil, or_false]
    rintro byte (rfl | rfl | rfl) <;> exact top _ _ (by decide)
  · right
    have large := Char.utf8Size_eq_four_iff.mp four
    have bound := UInt32.lt_iff_toNat_lt.mp large
    refine ⟨(by decide : 128 ≤ 0xffff).trans bound.le, ?_⟩
    rw [String.utf8EncodeChar_eq_cons_cons_cons_cons four]
    simp only [mem_cons, not_mem_nil, or_false]
    rintro byte (rfl | rfl | rfl | rfl) <;> exact top _ _ (by decide)

/-- A test of characters that a test of their bytes decides: all the bytes pass, or
the first one fails. -/
structure Decides (bytewise : UInt8 → Bool) (test : Char → Bool) : Prop where
  passes : ∀ char, test char = true → ∀ byte ∈ String.utf8EncodeChar char, bytewise byte = true
  fails : ∀ char, test char = false →
    ∃ byte others, String.utf8EncodeChar char = byte :: others ∧ bytewise byte = false

variable {bytewise : UInt8 → Bool} {test : Char → Bool} {byte other : UInt8} {char letter : Char}

theorem Decides.takeWhile_encode (decides : Decides bytewise test) (text : List Char) :
    (encode text).takeWhile bytewise = encode (text.takeWhile test) := by
  induction text with
  | nil => rfl
  | cons char text ih =>
    cases tested : test char with
    | true =>
      rw [Utf8.encode_cons, takeWhile_append_of_pos (decides.passes char tested),
        ih, takeWhile_cons_of_pos tested, Utf8.encode_cons]
    | false =>
      obtain ⟨byte, others, encoded, failed⟩ := decides.fails char tested
      rw [Utf8.encode_cons, encoded, cons_append,
        takeWhile_cons_of_neg (by simp [failed]),
        takeWhile_cons_of_neg (by simp [tested])]
      rfl

theorem Decides.length_takeWhile (decides : Decides bytewise test) (text : List Char) :
    ((encode text).takeWhile bytewise).length = size (text.takeWhile test) := by
  rw [decides.takeWhile_encode]
  rfl

theorem decides_of_ascii (others : Bool)
    (agrees : ∀ (byte : UInt8) (char : Char), byte.toNat = char.toNat → bytewise byte = test char)
    (highBytes : ∀ byte : UInt8, 128 ≤ byte.toNat → bytewise byte = others)
    (highChars : ∀ char : Char, 128 ≤ char.toNat → test char = others) : Decides bytewise test := by
  constructor
  · intro char passed
    rcases encodeChar_cases char with ⟨-, byte, encoded, same⟩ | ⟨high, each⟩
    · rw [encoded]
      simpa [agrees byte char same] using passed
    · intro byte member
      rw [highBytes byte (each byte member), ← highChars char high]
      exact passed
  · intro char failed
    rcases encodeChar_cases char with ⟨-, byte, encoded, same⟩ | ⟨high, each⟩
    · exact ⟨byte, [], encoded, by rw [agrees byte char same, failed]⟩
    · obtain ⟨byte, rest, encoded⟩ :=
        exists_cons_of_ne_nil (@String.utf8EncodeChar_ne_nil char)
      have inside : byte ∈ String.utf8EncodeChar char := by simp [encoded]
      exact ⟨byte, rest, encoded, by rw [highBytes byte (each byte inside), ← highChars char high,
        failed]⟩

theorem byte_beq_eq (same : byte.toNat = char.toNat)
    (named : other.toNat = letter.toNat) : (byte == other) = (char == letter) := by
  rw [Bool.eq_iff_iff, beq_iff_eq, beq_iff_eq, ← UInt8.toNat_inj, ← Char.toNat_inj, same, named]

theorem byte_beq_of_high (high : 128 ≤ byte.toNat) (low : other.toNat < 128) :
    (byte == other) = false := by
  rw [beq_eq_false_iff_ne]
  rintro rfl
  omega

theorem char_beq_of_high (high : 128 ≤ char.toNat) (low : letter.toNat < 128) :
    (char == letter) = false := by
  rw [beq_eq_false_iff_ne]
  rintro rfl
  omega

end Bytes

theorem drop_encode (before after : List Char) :
    (encode (before ++ after)).drop (size before) = encode after := by
  rw [encode_append, size, drop_left]

section Trim

/-- The characters with the property `White_Space`. -/
def isWhiteSpace (char : Char) : Bool :=
  let code := char.toNat
  (0x9 ≤ code && code ≤ 0xd) || code == 0x20 || code == 0x85 || code == 0xa0 || code == 0x1680 ||
    (0x2000 ≤ code && code ≤ 0x200a) || code == 0x2028 || code == 0x2029 || code == 0x202f ||
    code == 0x205f || code == 0x3000

def trim (text : List Char) : List Char :=
  (text.dropWhile isWhiteSpace).rdropWhile isWhiteSpace

end Trim

end Offprint.Data.Text
