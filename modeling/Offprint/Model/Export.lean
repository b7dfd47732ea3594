import Offprint.Data.JsonRoundTrip
import Offprint.Data.Utf8

/-!
# Export records

The public types that name, digest and describe an exported artifact, and the
JSON forms that the transaction journal stores of them.
-/

namespace Offprint.Model

open Data

inductive ConflictPolicy where
  | fail
  | replace
  | uniquify
  deriving Repr, DecidableEq

inductive ArtifactFormat where
  | html
  | pdf
  | markdown
  | zip
  | selfExtractingHtml
  | mhtml
  deriving Repr, DecidableEq

namespace ArtifactFormat

def text : ArtifactFormat → String
  | html => "html"
  | pdf => "pdf"
  | markdown => "markdown"
  | zip => "zip"
  | selfExtractingHtml => "self-extracting-html"
  | mhtml => "mhtml"

def all : List ArtifactFormat :=
  [html, pdf, markdown, zip, selfExtractingHtml, mhtml]

def ofText? (text : String) : Option ArtifactFormat :=
  all.find? fun format => format.text = text

theorem ofText?_text (format : ArtifactFormat) : ofText? format.text = some format := by
  cases format <;> rfl

end ArtifactFormat

/-- A SHA-256 digest: thirty-two bytes. -/
structure ContentDigest where
  bytes : List UInt8
  length_eq : bytes.length = 32
  deriving Repr, DecidableEq

namespace ContentDigest

def zero : ContentDigest :=
  ⟨List.replicate 32 0, rfl⟩

def hexByte (byte : UInt8) : List Char :=
  [Json.hexDigit (byte.toNat / 16), Json.hexDigit (byte.toNat % 16)]

/-- Lower-case hexadecimal, two digits for each byte. -/
def toHex (digest : ContentDigest) : String :=
  String.ofList (digest.bytes.flatMap hexByte)

def decodeHex : List Char → Option (List UInt8)
  | [] => some []
  | high :: low :: rest => do
      let high ← Json.hexValue high
      let low ← Json.hexValue low
      let tail ← decodeHex rest
      return UInt8.ofNat (high * 16 + low) :: tail
  | [_] => none

def ofHex? (text : String) : Option ContentDigest :=
  match decodeHex text.toList with
  | some bytes => if length_eq : bytes.length = 32 then some ⟨bytes, length_eq⟩ else none
  | none => none

theorem decodeHex_hexByte (bytes : List UInt8) :
    decodeHex (bytes.flatMap hexByte) = some bytes := by
  induction bytes with
  | nil => rfl
  | cons byte bytes ih =>
    have small := byte.toNat_lt
    have high := Json.hexValue_hexDigit (byte.toNat / 16) (by omega)
    have low := Json.hexValue_hexDigit (byte.toNat % 16) (by omega)
    simp only [List.flatMap_cons, hexByte, List.cons_append, List.nil_append, decodeHex, high,
      low, ih, Option.bind_eq_bind, Option.bind_some, Option.pure_def,
      Nat.div_add_mod', UInt8.ofNat_toNat]

theorem ofHex?_toHex (digest : ContentDigest) : ofHex? digest.toHex = some digest := by
  rw [ofHex?, toHex, String.toList_ofList, decodeHex_hexByte]
  exact dif_pos digest.length_eq

end ContentDigest

/-- The SHA-256 function of the hashing library. -/
class Sha256 where
  digest : List UInt8 → ContentDigest

structure FormatVerification where
  format : ArtifactFormat
  bytes : UInt64
  sha256 : ContentDigest
  deriving Repr, DecidableEq

structure ExportedArtifact where
  format : ArtifactFormat
  path : String
  entrypoint : String
  bytes : UInt64
  sha256 : ContentDigest
  verification : FormatVerification
  deriving Repr, DecidableEq

end Offprint.Model
