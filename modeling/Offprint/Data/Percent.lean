import Offprint.Data.Text

/-!
# Percent-encoding and form data

The serialization `application/x-www-form-urlencoded`: pairs of texts, percent-encoded
byte by byte, with a plus sign for a space.  Reading takes any bytes and replaces what is
no text.  What was serialized reads back as the pairs it was made of.
-/

namespace Offprint.Data.Percent

open Offprint.Data.Utf8 (encode)
open List

section Lossy

def isContinuation (byte : UInt8) : Bool :=
  byte &&& 0xc0 == 0x80

/-- Whether a byte may come second in a sequence of three or four. -/
def secondFits (first second : UInt8) : Bool :=
  if first = 0xe0 then 0xa0 ≤ second && second ≤ 0xbf
  else if first = 0xed then 0x80 ≤ second && second ≤ 0x9f
  else if first = 0xf0 then 0x90 ≤ second && second ≤ 0xbf
  else if first = 0xf4 then 0x80 ≤ second && second ≤ 0x8f
  else 0x80 ≤ second && second ≤ 0xbf

/-- How many bytes one replacement character stands for: the longest start of a
character, or a single byte. -/
def invalidLength : List UInt8 → Nat
  | first :: second :: rest =>
    if 0xe0 ≤ first && first ≤ 0xef then
      if secondFits first second then 2 else 1
    else if 0xf0 ≤ first && first ≤ 0xf4 then
      if secondFits first second then (if rest.head?.any isContinuation then 3 else 2) else 1
    else 1
  | _ => 1

def lossyFor : Nat → List UInt8 → List Char
  | 0, _ => []
  | _ + 1, [] => []
  | fuel + 1, bytes =>
    match bytes.toByteArray.utf8DecodeChar? 0 with
    | some char => char :: lossyFor fuel (bytes.drop char.utf8Size)
    | none => '�' :: lossyFor fuel (bytes.drop (invalidLength bytes))

def lossy (bytes : List UInt8) : List Char :=
  lossyFor bytes.length bytes

theorem lossyFor_encode {fuel : Nat} {text : List Char} (enough : text.length ≤ fuel) :
    lossyFor fuel (encode text) = text := by
  induction text generalizing fuel with
  | nil =>
    cases fuel with
    | zero => rfl
    | succ fuel => rfl
  | cons char text ih =>
    obtain ⟨fuel, rfl⟩ : ∃ more, fuel = more + 1 := ⟨fuel - 1, by
      rw [length_cons] at enough
      omega⟩
    have read := @ByteArray.utf8DecodeChar?_utf8EncodeChar_append (encode text).toByteArray char
    rw [← toByteArray_append, ← Utf8.encode_cons] at read
    have filled : encode (char :: text) ≠ [] := by
      rw [Utf8.encode_cons]
      exact append_ne_nil_of_left_ne_nil String.utf8EncodeChar_ne_nil _
    have rest : (encode (char :: text)).drop char.utf8Size = encode text := by
      rw [Utf8.encode_cons]
      exact drop_left' (String.length_utf8EncodeChar char)
    have shorter : text.length ≤ fuel := by
      rw [length_cons] at enough
      omega
    cases bytes : encode (char :: text) with
    | nil => exact absurd bytes filled
    | cons first others =>
      rw [bytes] at read rest
      simp only [lossyFor, read, rest, ih shorter]

theorem lossy_encode (text : List Char) : lossy (encode text) = text :=
  lossyFor_encode (Text.length_le_size text)

end Lossy

section Bytes

def hexDigit (value : Nat) : UInt8 :=
  if value < 10 then .ofNat (0x30 + value) else .ofNat (0x37 + value)

def hexValue (byte : UInt8) : Option Nat :=
  if 0x30 ≤ byte ∧ byte ≤ 0x39 then some (byte.toNat - 0x30)
  else if 0x41 ≤ byte ∧ byte ≤ 0x46 then some (byte.toNat - 0x37)
  else if 0x61 ≤ byte ∧ byte ≤ 0x66 then some (byte.toNat - 0x57)
  else none

def percentEncode (byte : UInt8) : List UInt8 :=
  [0x25, hexDigit (byte.toNat / 16), hexDigit (byte.toNat % 16)]

/-- The byte two digits stand for. -/
def hexByte (high low : UInt8) : Option UInt8 := do
  let high ← hexValue high
  let low ← hexValue low
  return .ofNat (high * 16 + low)

/-- A percent sign that no two digits follow stands for itself. -/
def percentDecode : List UInt8 → List UInt8
  | byte :: high :: low :: rest =>
    match if byte = 0x25 then hexByte high low else none with
    | some decoded => decoded :: percentDecode rest
    | none => byte :: percentDecode (high :: low :: rest)
  | byte :: rest => byte :: percentDecode rest
  | [] => []

theorem hexValue_hexDigit : ∀ value < 16, hexValue (hexDigit value) = some value := by
  decide

theorem hexByte_hexDigit (byte : UInt8) :
    hexByte (hexDigit (byte.toNat / 16)) (hexDigit (byte.toNat % 16)) = some byte := by
  have small := byte.toNat_lt
  have high := hexValue_hexDigit (byte.toNat / 16) (by omega)
  have low := hexValue_hexDigit (byte.toNat % 16) (by omega)
  simp only [hexByte, high, low, Option.bind_eq_bind, Option.bind_some, Option.pure_def,
    Nat.div_add_mod', UInt8.ofNat_toNat]

theorem percentDecode_percentEncode (byte : UInt8) (rest : List UInt8) :
    percentDecode (percentEncode byte ++ rest) = byte :: percentDecode rest := by
  simp only [percentEncode, cons_append, nil_append, percentDecode, if_true,
    hexByte_hexDigit]

theorem percentDecode_cons {byte : UInt8} (plain : byte ≠ 0x25) (rest : List UInt8) :
    percentDecode (byte :: rest) = byte :: percentDecode rest := by
  match rest with
  | [] => rfl
  | [_] => rfl
  | _ :: _ :: _ => simp only [percentDecode, if_neg plain]

end Bytes

section Form

def isUnreserved (byte : UInt8) : Bool :=
  (0x30 ≤ byte && byte ≤ 0x39) || (0x41 ≤ byte && byte ≤ 0x5a) || (0x61 ≤ byte && byte ≤ 0x7a) ||
    byte == 0x2a || byte == 0x2d || byte == 0x2e || byte == 0x5f

def serializeByte (byte : UInt8) : List UInt8 :=
  if byte = 0x20 then [0x2b] else if isUnreserved byte then [byte] else percentEncode byte

def serializeText (text : String) : List UInt8 :=
  (encode text.toList).flatMap serializeByte

def plusToSpace (byte : UInt8) : UInt8 :=
  if byte = 0x2b then 0x20 else byte

def decodeText (bytes : List UInt8) : String :=
  String.ofList (lossy (percentDecode (bytes.map plusToSpace)))

/-- A name and a value; without an equals sign the value is empty. -/
def parsePair (bytes : List UInt8) : String × String :=
  (decodeText (bytes.takeWhile (· != 0x3d)), decodeText ((bytes.dropWhile (· != 0x3d)).drop 1))

def parsePairs (bytes : List UInt8) : List (String × String) :=
  ((bytes.splitOn 0x26).filter (· != [])).map parsePair

def serializePair (pair : String × String) : List UInt8 :=
  serializeText pair.1 ++ 0x3d :: serializeText pair.2

def serializePairs (pairs : List (String × String)) : List UInt8 :=
  [0x26].intercalate (pairs.map serializePair)

variable (pairs : List (String × String)) (byte : UInt8) (pair : String × String) (text : String)

/-- No byte of a serialized text is a separator, a plus sign only stands for a
space. -/
theorem serializeByte_spec :
    0x26 ∉ serializeByte byte ∧ 0x3d ∉ serializeByte byte ∧
      ((serializeByte byte).map plusToSpace = [byte] ∧ byte ≠ 0x25 ∨
        (serializeByte byte).map plusToSpace = percentEncode byte) := by
  have each : ∀ value < 256, 0x26 ∉ serializeByte (.ofNat value) ∧
      0x3d ∉ serializeByte (.ofNat value) ∧
      ((serializeByte (.ofNat value)).map plusToSpace = [.ofNat value] ∧
          UInt8.ofNat value ≠ 0x25 ∨
        (serializeByte (.ofNat value)).map plusToSpace = percentEncode (.ofNat value)) := by
    decide +kernel
  have one := each byte.toNat byte.toNat_lt
  rwa [UInt8.ofNat_toNat] at one

theorem percentDecode_serializeByte (rest : List UInt8) :
    percentDecode ((serializeByte byte).map plusToSpace ++ rest) = byte :: percentDecode rest := by
  rcases (serializeByte_spec byte).2.2 with ⟨same, plain⟩ | encoded
  · rw [same]
    exact percentDecode_cons plain rest
  · rw [encoded, percentDecode_percentEncode]

theorem percentDecode_serialized (bytes : List UInt8) :
    percentDecode ((bytes.flatMap serializeByte).map plusToSpace) = bytes := by
  induction bytes with
  | nil => rfl
  | cons byte bytes ih =>
    rw [flatMap_cons, map_append, percentDecode_serializeByte, ih]

theorem decodeText_serializeText : decodeText (serializeText text) = text := by
  rw [decodeText, serializeText, percentDecode_serialized, lossy_encode, String.ofList_toList]

theorem separator_not_mem_serializeText :
    0x26 ∉ serializeText text ∧ 0x3d ∉ serializeText text := by
  constructor <;>
  · intro inside
    obtain ⟨byte, -, separator⟩ := mem_flatMap.mp inside
    simp [serializeByte_spec byte] at separator

theorem parsePair_serializePair : parsePair (serializePair pair) = pair := by
  have plain : ∀ byte ∈ serializeText pair.1, (byte != 0x3d) = true := by
    intro byte inside
    apply bne_iff_ne.mpr
    rintro rfl
    exact (separator_not_mem_serializeText pair.1).2 inside
  have name : (serializePair pair).takeWhile (· != 0x3d) = serializeText pair.1 := by
    rw [serializePair, takeWhile_append_of_pos plain]
    simp
  have value : (serializePair pair).dropWhile (· != 0x3d) = 0x3d :: serializeText pair.2 := by
    rw [serializePair, dropWhile_append_of_pos plain]
    simp
  rw [parsePair, name, value, drop_one, tail_cons, decodeText_serializeText,
    decodeText_serializeText]

theorem parsePairs_serializePairs : parsePairs (serializePairs pairs) = pairs := by
  cases pairs with
  | nil => rfl
  | cons first rest =>
    have apart : ∀ bytes ∈ (first :: rest).map serializePair, (0x26 : UInt8) ∉ bytes := by
      intro bytes inside
      obtain ⟨pair, -, rfl⟩ := mem_map.mp inside
      simp [serializePair, separator_not_mem_serializeText]
    have filled : ∀ bytes ∈ (first :: rest).map serializePair, (bytes != []) = true := by
      intro bytes inside
      obtain ⟨pair, -, rfl⟩ := mem_map.mp inside
      simp [serializePair]
    rw [parsePairs, serializePairs, splitOn_intercalate 0x26 apart (by simp),
      filter_eq_self.mpr filled, map_map]
    exact map_id'' parsePair_serializePair _

theorem serializeByte_query : ∀ other ∈ serializeByte byte, other < 0x80 ∧ other ≠ 0x23 := by
  have each : ∀ value < 256, ((serializeByte (.ofNat value)).all fun other =>
      other < 0x80 && other != 0x23) = true := by
    decide +kernel
  have one := each byte.toNat byte.toNat_lt
  rw [UInt8.ofNat_toNat, all_eq_true] at one
  simpa using one

theorem serializePair_query : ∀ byte ∈ serializePair pair, byte < 0x80 ∧ byte ≠ 0x23 := by
  have text : ∀ text, ∀ byte ∈ serializeText text, byte < 0x80 ∧ byte ≠ 0x23 := by
    intro text byte inside
    obtain ⟨origin, -, serialized⟩ := mem_flatMap.mp inside
    exact serializeByte_query origin byte serialized
  intro byte inside
  rcases mem_append.mp inside with name | value
  · exact text _ byte name
  · rcases mem_cons.mp value with rfl | value
    · decide
    · exact text _ byte value

theorem serializePairs_query : ∀ byte ∈ serializePairs pairs, byte < 0x80 ∧ byte ≠ 0x23 := by
  induction pairs with
  | nil =>
    intro byte inside
    cases inside
  | cons pair rest ih =>
    intro byte inside
    cases rest with
    | nil =>
      rw [serializePairs, map_singleton, intercalate_singleton] at inside
      exact serializePair_query pair byte inside
    | cons second others =>
      rw [serializePairs, map_cons, map_cons, intercalate_cons_cons,
        ← map_cons, mem_append, mem_append] at inside
      rcases inside with (inside | inside) | inside
      · exact serializePair_query pair byte inside
      · rw [mem_singleton.mp inside]
        decide
      · exact ih byte inside

end Form

section Ascii

def asciiText (bytes : List UInt8) : List Char :=
  bytes.map fun byte => Char.ofNat byte.toNat

theorem encode_asciiText {bytes : List UInt8} (ascii : ∀ byte ∈ bytes, byte < 0x80) :
    encode (asciiText bytes) = bytes := by
  induction bytes with
  | nil => rfl
  | cons byte bytes ih =>
    have one : ∀ value < 128, String.utf8EncodeChar (Char.ofNat value) = [UInt8.ofNat value] := by
      decide
    have head := one byte.toNat (ascii byte mem_cons_self)
    rw [UInt8.ofNat_toNat] at head
    rw [asciiText, map_cons, Utf8.encode_cons, head, ← asciiText,
      ih fun other inside => ascii other (mem_cons_of_mem byte inside)]
    rfl

end Ascii
end Offprint.Data.Percent
