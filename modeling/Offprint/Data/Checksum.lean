import Mathlib.Algebra.GroupWithZero.Nat
import Mathlib.Logic.Function.Iterate

/-!
# CRC-32 and SHA-256

The checksums as their standards define them: CRC-32 with the reflected polynomial
`0xedb88320`, and SHA-256 over the padded message, one block of sixteen words after
the other.
-/

namespace Offprint.Data

namespace Crc32

def polynomial : UInt32 := 0xedb88320

def shift (remainder : UInt32) : UInt32 :=
  if remainder &&& 1 = 1 then (remainder >>> 1) ^^^ polynomial else remainder >>> 1

def update (remainder : UInt32) (byte : UInt8) : UInt32 :=
  shift^[8] (remainder ^^^ byte.toUInt32)

def hash (bytes : List UInt8) : UInt32 :=
  ~~~(bytes.foldl update 0xffffffff)

example : hash [0x31, 0x32, 0x33, 0x34, 0x35, 0x36, 0x37, 0x38, 0x39] = 0xcbf43926 := by
  decide +kernel

end Crc32

namespace Sha2

def rotr (bits value : UInt32) : UInt32 :=
  (value >>> bits) ||| (value <<< (32 - bits))

def choose (x y z : UInt32) : UInt32 := (x &&& y) ^^^ (~~~x &&& z)

def majority (x y z : UInt32) : UInt32 := (x &&& y) ^^^ (x &&& z) ^^^ (y &&& z)

def bigSigma0 (x : UInt32) : UInt32 := rotr 2 x ^^^ rotr 13 x ^^^ rotr 22 x

def bigSigma1 (x : UInt32) : UInt32 := rotr 6 x ^^^ rotr 11 x ^^^ rotr 25 x

def smallSigma0 (x : UInt32) : UInt32 := rotr 7 x ^^^ rotr 18 x ^^^ (x >>> 3)

def smallSigma1 (x : UInt32) : UInt32 := rotr 17 x ^^^ rotr 19 x ^^^ (x >>> 10)

def constants : List UInt32 := [
  0x428a2f98, 0x71374491, 0xb5c0fbcf, 0xe9b5dba5, 0x3956c25b, 0x59f111f1, 0x923f82a4, 0xab1c5ed5,
  0xd807aa98, 0x12835b01, 0x243185be, 0x550c7dc3, 0x72be5d74, 0x80deb1fe, 0x9bdc06a7, 0xc19bf174,
  0xe49b69c1, 0xefbe4786, 0x0fc19dc6, 0x240ca1cc, 0x2de92c6f, 0x4a7484aa, 0x5cb0a9dc, 0x76f988da,
  0x983e5152, 0xa831c66d, 0xb00327c8, 0xbf597fc7, 0xc6e00bf3, 0xd5a79147, 0x06ca6351, 0x14292967,
  0x27b70a85, 0x2e1b2138, 0x4d2c6dfc, 0x53380d13, 0x650a7354, 0x766a0abb, 0x81c2c92e, 0x92722c85,
  0xa2bfe8a1, 0xa81a664b, 0xc24b8b70, 0xc76c51a3, 0xd192e819, 0xd6990624, 0xf40e3585, 0x106aa070,
  0x19a4c116, 0x1e376c08, 0x2748774c, 0x34b0bcb5, 0x391c0cb3, 0x4ed8aa4a, 0x5b9cca4f, 0x682e6ff3,
  0x748f82ee, 0x78a5636f, 0x84c87814, 0x8cc70208, 0x90befffa, 0xa4506ceb, 0xbef9a3f7, 0xc67178f2]

structure State where
  a : UInt32
  b : UInt32
  c : UInt32
  d : UInt32
  e : UInt32
  f : UInt32
  g : UInt32
  h : UInt32
  deriving Repr, DecidableEq

def initial : State :=
  ⟨0x6a09e667, 0xbb67ae85, 0x3c6ef372, 0xa54ff53a, 0x510e527f, 0x9b05688c, 0x1f83d9ab, 0x5be0cd19⟩

namespace State

def round (state : State) (constant word : UInt32) : State :=
  let first := state.h + bigSigma1 state.e + choose state.e state.f state.g + constant + word
  let second := bigSigma0 state.a + majority state.a state.b state.c
  ⟨first + second, state.a, state.b, state.c, state.d + first, state.e, state.f, state.g⟩

def add (state other : State) : State :=
  ⟨state.a + other.a, state.b + other.b, state.c + other.c, state.d + other.d,
    state.e + other.e, state.f + other.f, state.g + other.g, state.h + other.h⟩

def words (state : State) : List UInt32 :=
  [state.a, state.b, state.c, state.d, state.e, state.f, state.g, state.h]

end State

def nextWord (words : List UInt32) : UInt32 :=
  let place := words.length
  smallSigma1 (words.getD (place - 2) 0) + words.getD (place - 7) 0 +
    smallSigma0 (words.getD (place - 15) 0) + words.getD (place - 16) 0

def schedule (block : List UInt32) : List UInt32 :=
  (fun words => words ++ [nextWord words])^[48] block

def compress (state : State) (block : List UInt32) : State :=
  state.add ((constants.zip (schedule block)).foldl
    (fun state step => state.round step.1 step.2) state)

def bytesOfWord (word : UInt32) : List UInt8 :=
  [(word >>> 24).toUInt8, (word >>> 16).toUInt8, (word >>> 8).toUInt8, word.toUInt8]

def lengthBytes (count : Nat) : List UInt8 :=
  bytesOfWord (.ofNat (8 * count / 2 ^ 32)) ++ bytesOfWord (.ofNat (8 * count))

/-- The message, a one bit, zeros up to the last eight bytes of a block, and the
number of bits. -/
def pad (message : List UInt8) : List UInt8 :=
  message ++ 0x80 :: (List.replicate ((119 - message.length % 64) % 64) 0 ++
    lengthBytes message.length)

def word (padded : List UInt8) (start : Nat) : UInt32 :=
  ((padded.getD start 0).toUInt32 <<< 24) ||| ((padded.getD (start + 1) 0).toUInt32 <<< 16) |||
    ((padded.getD (start + 2) 0).toUInt32 <<< 8) ||| (padded.getD (start + 3) 0).toUInt32

def block (padded : List UInt8) (index : Nat) : List UInt32 :=
  (List.range 16).map fun place => word padded (64 * index + 4 * place)

def sha256 (message : List UInt8) : List UInt8 :=
  let padded := pad message
  let state := (List.range (padded.length / 64)).foldl
    (fun state index => compress state (block padded index)) initial
  state.words.flatMap bytesOfWord

example : sha256 [0x61, 0x62, 0x63] = [
    0xba, 0x78, 0x16, 0xbf, 0x8f, 0x01, 0xcf, 0xea, 0x41, 0x41, 0x40, 0xde, 0x5d, 0xae, 0x22, 0x23,
    0xb0, 0x03, 0x61, 0xa3, 0x96, 0x17, 0x7a, 0x9c, 0xb4, 0x10, 0xff, 0x61, 0xf2, 0x00, 0x15, 0xad]
    := by
  decide +kernel

theorem length_sha256 (message : List UInt8) : (sha256 message).length = 32 :=
  rfl

end Sha2
end Offprint.Data
