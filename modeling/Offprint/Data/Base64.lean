import Mathlib.Data.List.Basic

/-!
# Base64

The standard alphabet, with padding.
-/

namespace Offprint.Data.Base64

def alphabet : List Char :=
  "ABCDEFGHIJKLMNOPQRSTUVWXYZabcdefghijklmnopqrstuvwxyz0123456789+/".toList

def digit (value : Nat) : Char :=
  alphabet.getD (value % 64) 'A'

/-- Three bytes make four digits; padding fills the last group. -/
def encode : List UInt8 → List Char
  | [] => []
  | [first] => [digit (first.toNat / 4), digit (first.toNat * 16), '=', '=']
  | [first, second] =>
    [digit (first.toNat / 4), digit (first.toNat * 16 + second.toNat / 16),
      digit (second.toNat * 4), '=']
  | first :: second :: third :: rest =>
    digit (first.toNat / 4) :: digit (first.toNat * 16 + second.toNat / 16) ::
      digit (second.toNat * 4 + third.toNat / 64) :: digit third.toNat :: encode rest

example : encode [0x4d, 0x61, 0x6e, 0x4d] = "TWFuTQ==".toList := by decide

end Offprint.Data.Base64
