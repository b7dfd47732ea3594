import Mathlib.Data.List.Infix

/-!
# UTF-8 as lists of bytes

The bytes of a text, and the text of some bytes when they have one.  A part of
an encoded text from its start has a text only where a character ends.  Bytes
that are no text are told by where the text ends and what is wrong behind it.
-/

namespace Offprint.Data.Utf8

open List

def encode (text : List Char) : List UInt8 :=
  text.flatMap String.utf8EncodeChar

def decode (bytes : List UInt8) : Option (List Char) :=
  bytes.toByteArray.utf8Decode?.map Array.toList

theorem encode_cons (char : Char) (text : List Char) :
    encode (char :: text) = String.utf8EncodeChar char ++ encode text :=
  flatMap_cons

theorem length_encode_cons (char : Char) (text : List Char) :
    (encode (char :: text)).length = (String.utf8EncodeChar char).length +
      (encode text).length := by
  rw [encode_cons, length_append]

theorem length_encode_append (first second : List Char) :
    (encode (first ++ second)).length = (encode first).length + (encode second).length := by
  simp [encode]

theorem decode_encode (text : List Char) : decode (encode text) = some text := by
  have decoded := @utf8Decode?_utf8Encode text
  rw [List.utf8Encode] at decoded
  rw [decode, encode, decoded]
  rfl

variable {text whole : List Char} {missing : List UInt8}

theorem encode_of_decode {bytes : List UInt8} (decoded : decode bytes = some text) :
    encode text = bytes := by
  rw [decode, Option.map_eq_some_iff] at decoded
  obtain ⟨chars, found, rfl⟩ := decoded
  have some : bytes.toByteArray.utf8Decode?.isSome = true := by rw [found]; rfl
  have encoded := @ByteArray.utf8Encode_get_utf8Decode? bytes.toByteArray some
  rw [List.utf8Encode, toByteArray_inj] at encoded
  simpa only [encode, found, Option.get_some] using encoded

theorem head_eq_of_encode_append_eq {first second : Char} {rest other : List UInt8}
    (same : String.utf8EncodeChar first ++ rest = String.utf8EncodeChar second ++ other) :
    first = second := by
  have firstRead := @ByteArray.utf8DecodeChar?_utf8EncodeChar_append rest.toByteArray first
  have secondRead := @ByteArray.utf8DecodeChar?_utf8EncodeChar_append other.toByteArray second
  rw [← toByteArray_append] at firstRead secondRead
  rw [same, secondRead, Option.some.injEq] at firstRead
  exact firstRead.symm

theorem append_of_encode_append (parts : encode text ++ missing = encode whole) :
    ∃ rest, whole = text ++ rest ∧ missing = encode rest := by
  induction text generalizing whole with
  | nil => exact ⟨whole, rfl, parts⟩
  | cons char text ih =>
    cases whole with
    | nil =>
      rw [encode_cons] at parts
      have empty := (append_eq_nil_iff.mp parts).1
      exact absurd (append_eq_nil_iff.mp empty).1 String.utf8EncodeChar_ne_nil
    | cons first others =>
      rw [encode_cons, encode_cons, append_assoc] at parts
      obtain rfl := head_eq_of_encode_append_eq parts
      obtain ⟨rest, rfl, encoded⟩ := ih (append_cancel_left parts)
      exact ⟨rest, rfl, encoded⟩

theorem append_of_decode_cut {cut : List UInt8}
    (parts : cut ++ missing = encode whole) (decoded : decode cut = some text) :
    ∃ rest, whole = text ++ rest ∧ missing = encode rest := by
  rw [← encode_of_decode decoded] at parts
  exact append_of_encode_append parts

/-- The length of the longest part from the start that is a text. -/
def validUpTo (bytes : List UInt8) : Nat :=
  ((List.range (bytes.length + 1)).reverse.find? fun length =>
    (decode (bytes.take length)).isSome).getD 0

/-- The bytes a character can have behind its first byte. -/
def continuation (first : UInt8) : List (UInt8 × UInt8) :=
  if first < 0xc2 then []
  else if first < 0xe0 then [(0x80, 0xbf)]
  else if first = 0xe0 then [(0xa0, 0xbf), (0x80, 0xbf)]
  else if first = 0xed then [(0x80, 0x9f), (0x80, 0xbf)]
  else if first < 0xf0 then [(0x80, 0xbf), (0x80, 0xbf)]
  else if first = 0xf0 then [(0x90, 0xbf), (0x80, 0xbf), (0x80, 0xbf)]
  else if first < 0xf4 then [(0x80, 0xbf), (0x80, 0xbf), (0x80, 0xbf)]
  else if first = 0xf4 then [(0x80, 0x8f), (0x80, 0xbf), (0x80, 0xbf)]
  else []

/-- How many bytes fit a character before one does not; nothing if they only end too early. -/
def misfit : List (UInt8 × UInt8) → List UInt8 → Option Nat
  | [], _ => some 0
  | _ :: _, [] => none
  | (lowest, highest) :: expected, byte :: rest =>
    if lowest ≤ byte ∧ byte ≤ highest then (· + 1) <$> misfit expected rest else some 0

/-- The text of the error for bytes that are no text. -/
def errorText (bytes : List UInt8) : String :=
  let index := validUpTo bytes
  match bytes.drop index with
  | [] => ""
  | first :: rest =>
    match misfit (continuation first) rest with
    | some length =>
      "invalid utf-8 sequence of " ++ toString (length + 1) ++ " bytes from index " ++
        toString index
    | none => "incomplete utf-8 byte sequence from index " ++ toString index

end Offprint.Data.Utf8
