import Mathlib.Data.List.GetD
import Mathlib.Tactic.IntervalCases
import Offprint.Data.Checksum
import Offprint.Model.Export

/-!
# The checksums of the collector

The collector computes both checksums itself, with the bit operations of its language
on 32-bit numbers, and reads the padded message by position without building it.
They are the checksums of the standards.
-/

namespace Offprint.Collector

open Data Sha2 List List
open Offprint.Model (ContentDigest)

section Crc

def crc32Bit (crc : UInt32) : UInt32 :=
  (crc >>> 1) ^^^ (0xedb88320 &&& -(crc &&& 1))

def crc32Byte (crc : UInt32) (byte : UInt8) : UInt32 :=
  crc32Bit^[8] (crc ^^^ byte.toUInt32)

def crc32 (bytes : List UInt8) : UInt32 :=
  bytes.foldl crc32Byte 0xffffffff ^^^ 0xffffffff

theorem crc32Bit_eq_shift : crc32Bit = Crc32.shift := by
  funext crc
  unfold crc32Bit Crc32.shift
  have low : crc &&& 1 = 0 ∨ crc &&& 1 = 1 := by
    rw [← UInt32.toNat_inj, ← UInt32.toNat_inj, UInt32.toNat_and]
    simp only [UInt32.reduceToNat, Nat.and_one_is_mod]
    omega
  rcases low with zero | one
  · rw [zero, if_neg (by decide)]
    simp
  · rw [one, if_pos rfl]
    rfl

theorem crc32_eq (bytes : List UInt8) : crc32 bytes = Crc32.hash bytes := by
  have steps : crc32Byte = Crc32.update := by
    funext crc byte
    rw [crc32Byte, Crc32.update, crc32Bit_eq_shift]
  have flipped (crc : UInt32) : crc ^^^ 0xffffffff = ~~~crc := by
    rw [← UInt32.toBitVec_inj, UInt32.toBitVec_xor, UInt32.toBitVec_not]
    exact BitVec.xor_allOnes
  rw [crc32, Crc32.hash, steps, flipped]

end Crc

section Sha

def sha256RoundConstants : List UInt32 :=
  Sha2.constants

def rotateRight (value bits : UInt32) : UInt32 :=
  (value >>> bits) ||| (value <<< (32 - bits))

def paddedBytes (byteLength : Nat) : Nat :=
  (byteLength + 9 + 63) / 64 * 64

/-- A byte of the number of bits, written as two words. -/
def lengthByte (byteLength index : Nat) : UInt8 :=
  let bitLengthHigh := UInt32.ofNat (byteLength / 0x20000000)
  let bitLengthLow := UInt32.ofNat (byteLength * 8)
  match index with
  | 0 => (bitLengthHigh >>> 24).toUInt8
  | 1 => (bitLengthHigh >>> 16).toUInt8
  | 2 => (bitLengthHigh >>> 8).toUInt8
  | 3 => bitLengthHigh.toUInt8
  | 4 => (bitLengthLow >>> 24).toUInt8
  | 5 => (bitLengthLow >>> 16).toUInt8
  | 6 => (bitLengthLow >>> 8).toUInt8
  | 7 => bitLengthLow.toUInt8
  | _ => 0

def paddedByte (bytes : List UInt8) (position : Nat) : UInt8 :=
  let padded := paddedBytes bytes.length
  if position < bytes.length then bytes.getD position 0
  else if position = bytes.length then 0x80
  else if position ≥ padded - 8 then lengthByte bytes.length (position - (padded - 8))
  else 0

def messageWord (bytes : List UInt8) (start : Nat) : UInt32 :=
  (range 4).foldl
    (fun value offset => (value <<< 8) ||| (paddedByte bytes (start + offset)).toUInt32) 0

def extensionWord (words : List UInt32) (word : Nat) : UInt32 :=
  let before15 := rotateRight (words.getD (word - 15) 0) 7 ^^^
    rotateRight (words.getD (word - 15) 0) 18 ^^^ (words.getD (word - 15) 0 >>> 3)
  let before2 := rotateRight (words.getD (word - 2) 0) 17 ^^^
    rotateRight (words.getD (word - 2) 0) 19 ^^^ (words.getD (word - 2) 0 >>> 10)
  words.getD (word - 16) 0 + before15 + words.getD (word - 7) 0 + before2

/-- The words of a block, extended to all rounds. -/
def blockWords (bytes : List UInt8) (block : Nat) : List UInt32 :=
  let first := (range 16).map fun word => messageWord bytes (block + word * 4)
  (range' 16 48).foldl (fun words word => words ++ [extensionWord words word]) first

def sha256Round (words : List UInt32) (state : Sha2.State) (round : Nat) : Sha2.State :=
  let upper := rotateRight state.e 6 ^^^ rotateRight state.e 11 ^^^ rotateRight state.e 25
  let choice := (state.e &&& state.f) ^^^ (~~~state.e &&& state.g)
  let first := state.h + upper + choice + sha256RoundConstants.getD round 0 + words.getD round 0
  let lower := rotateRight state.a 2 ^^^ rotateRight state.a 13 ^^^ rotateRight state.a 22
  let majority := (state.a &&& state.b) ^^^ (state.a &&& state.c) ^^^ (state.b &&& state.c)
  let second := lower + majority
  ⟨first + second, state.a, state.b, state.c, state.d + first, state.e, state.f, state.g⟩

def sha256Block (bytes : List UInt8) (state : Sha2.State) (block : Nat) : Sha2.State :=
  let after := (range 64).foldl (sha256Round (blockWords bytes block)) state
  ⟨state.a + after.a, state.b + after.b, state.c + after.c, state.d + after.d,
    state.e + after.e, state.f + after.f, state.g + after.g, state.h + after.h⟩

/-- The digits of a number, the last one first found. -/
def hexadecimal (value : UInt32) : Nat → List Char
  | 0 => []
  | width + 1 => hexadecimal (value >>> 4) width ++ [Json.hexDigit (value &&& 0xf).toNat]

def sha256Fallback (bytes : List UInt8) : String :=
  let start : Sha2.State := ⟨0x6a09e667, 0xbb67ae85, 0x3c6ef372, 0xa54ff53a,
    0x510e527f, 0x9b05688c, 0x1f83d9ab, 0x5be0cd19⟩
  let state := (range (paddedBytes bytes.length / 64)).foldl
    (fun state block => sha256Block bytes state (64 * block)) start
  String.ofList (state.words.flatMap fun word => hexadecimal word 8)

/-- The digest of the hashing library, which computes SHA-256. -/
def sha256 (bytes : List UInt8) : ContentDigest :=
  ⟨Sha2.sha256 bytes, Sha2.length_sha256 bytes⟩

theorem length_pad (bytes : List UInt8) : (pad bytes).length = paddedBytes bytes.length := by
  have sized : ∀ word, (bytesOfWord word).length = 4 := fun _ => rfl
  simp only [pad, lengthBytes, paddedBytes, length_append, length_cons,
    length_replicate, sized]
  omega

theorem lengthByte_eq (byteLength : Nat) {index : Nat} (inside : index < 8) :
    lengthByte byteLength index = (lengthBytes byteLength).getD index 0 := by
  have high : byteLength / 0x20000000 = 8 * byteLength / 2 ^ 32 := by omega
  unfold lengthByte lengthBytes
  rw [high, Nat.mul_comm byteLength 8]
  interval_cases index <;> rfl

theorem paddedByte_eq (bytes : List UInt8) {position : Nat}
    (inside : position < paddedBytes bytes.length) :
    paddedByte bytes position = (pad bytes).getD position 0 := by
  unfold paddedByte pad
  dsimp only
  have sized : paddedBytes bytes.length = bytes.length + 1 +
    (119 - bytes.length % 64) % 64 + 8 := by
    unfold paddedBytes
    omega
  rw [sized] at inside ⊢
  generalize (119 - bytes.length % 64) % 64 = zeros at *
  rw [Nat.add_sub_cancel]
  split_ifs with message marker length
  · rw [getD_append _ _ _ _ message]
  · rw [marker, getD_append_right _ _ _ _ (le_refl _), Nat.sub_self, getD_cons_zero]
  · obtain ⟨index, rfl⟩ : ∃ index, position = bytes.length + (zeros + index + 1) :=
      ⟨position - (bytes.length + 1 + zeros), by omega⟩
    rw [getD_append_right _ _ _ _ (by omega), Nat.add_sub_cancel_left, getD_cons_succ,
      getD_append_right _ _ _ _ (by rw [length_replicate]; omega),
      length_replicate, Nat.add_sub_cancel_left, ← lengthByte_eq _ (by omega)]
    congr 1
    omega
  · obtain ⟨index, rfl⟩ : ∃ index, position = bytes.length + (index + 1) :=
      ⟨position - bytes.length - 1, by omega⟩
    rw [getD_append_right _ _ _ _ (by omega), Nat.add_sub_cancel_left, getD_cons_succ,
      getD_append _ _ _ _ (by rw [length_replicate]; omega)]
    simp

theorem messageWord_eq (bytes : List UInt8) {start : Nat}
    (inside : start + 3 < paddedBytes bytes.length) :
    messageWord bytes start = Sha2.word (pad bytes) start := by
  have zeroth := @paddedByte_eq bytes start (by omega)
  have first := @paddedByte_eq bytes (start + 1) (by omega)
  have second := @paddedByte_eq bytes (start + 2) (by omega)
  have third := @paddedByte_eq bytes (start + 3) (by omega)
  simp only [messageWord, Sha2.word, range, range.loop, foldl_cons, foldl_nil,
    Nat.add_zero, zeroth, first, second, third]
  rw [← UInt32.toBitVec_inj]
  simp [BitVec.shiftLeft_or_distrib, ← BitVec.shiftLeft_add]

section Extend

variable {α β : Type}

theorem foldl_range'_append {extend : List α → α} {place : List α → Nat → α}
    (same : ∀ items, place items items.length = extend items) (count : Nat) (items : List α) :
    (range' items.length count).foldl (fun items index => items ++ [place items index]) items =
      (fun items => items ++ [extend items])^[count] items := by
  induction count generalizing items with
  | zero => rfl
  | succ count ih =>
    have longer : items.length + 1 = (items ++ [extend items]).length := by simp
    rw [range'_succ, foldl_cons, Function.iterate_succ_apply, same, longer]
    exact ih _

theorem length_iterate_append (extend : List α → α) (count : Nat) (items : List α) :
    ((fun items => items ++ [extend items])^[count] items).length = items.length + count := by
  induction count generalizing items with
  | zero => rfl
  | succ count ih =>
    rw [Function.iterate_succ_apply, ih, length_append, length_singleton]
    omega

theorem zip_eq_map_range {first : List α} {second : List β} {length : Nat} (one : α) (other : β)
    (sized : first.length = length) (otherSized : second.length = length) :
    first.zip second =
      (range length).map fun index => (first.getD index one, second.getD index other) := by
  apply ext_getElem
  · simp [sized, otherSized]
  · intro index inside _
    simp only [length_zip, lt_min_iff] at inside
    simp [inside]

end Extend

variable (bytes : List UInt8) (words : List UInt32) (state : State) (block : Nat)

theorem extensionWord_eq : extensionWord words words.length = nextWord words := by
  have early (value : UInt32) : rotateRight value 7 ^^^ rotateRight value 18 ^^^ (value >>> 3) =
      smallSigma0 value := rfl
  have late (value : UInt32) : rotateRight value 17 ^^^ rotateRight value 19 ^^^ (value >>> 10) =
      smallSigma1 value := rfl
  simp only [extensionWord, nextWord, early, late]
  ac_rfl

theorem blockWords_eq :
    blockWords bytes block =
      schedule ((range 16).map fun word => messageWord bytes (block + word * 4)) := by
  have extended := foldl_range'_append extensionWord_eq 48
    ((range 16).map fun word => messageWord bytes (block + word * 4))
  rwa [length_map, length_range] at extended

theorem sha256Round_eq (round : Nat) :
    sha256Round words state round =
      state.round (Sha2.constants.getD round 0) (words.getD round 0) :=
  rfl

theorem foldl_sha256Round_eq {words : List UInt32} (sized : words.length = 64) (state : State) :
    (range 64).foldl (sha256Round words) state =
      (Sha2.constants.zip words).foldl (fun state step => state.round step.1 step.2) state := by
  have constants : Sha2.constants.length = 64 := by decide
  rw [zip_eq_map_range 0 0 constants sized, foldl_map]
  exact foldl_ext _ _ _ fun state round _ => sha256Round_eq words state round

theorem sha256Block_eq :
    sha256Block bytes state block =
      compress state
        ((range 16).map fun word => messageWord bytes (block + word * 4)) := by
  have sized : (schedule
      ((range 16).map fun word => messageWord bytes (block + word * 4))).length = 64 := by
    rw [schedule, length_iterate_append, length_map, length_range]
  simp only [sha256Block, blockWords_eq, foldl_sha256Round_eq sized, compress, State.add]

theorem hexadecimal_eq (word : UInt32) :
    hexadecimal word 8 = (bytesOfWord word).flatMap ContentDigest.hexByte := by
  have nibble (value : Nat) : value &&& 15 = value % 16 := Nat.and_two_pow_sub_one_eq_mod value 4
  have low (value : Nat) : value % 256 % 16 = value % 16 := by omega
  have high (value : Nat) : value % 256 / 16 = value / 16 % 16 := by omega
  simp only [hexadecimal, bytesOfWord, ContentDigest.hexByte, flatMap_cons,
    flatMap_nil, nil_append, cons_append, append_nil, UInt32.toNat_and,
    UInt32.toNat_shiftRight, UInt32.toNat_toUInt8, UInt32.reduceToNat, Nat.reduceMod,
    Nat.reducePow, nibble, low, high, Nat.shiftRight_eq_div_pow, Nat.div_div_eq_div_mul,
    Nat.reduceMul]

theorem sha256Fallback_eq : sha256Fallback bytes = (sha256 bytes).toHex := by
  have blocks : ∀ index ∈ range (paddedBytes bytes.length / 64), ∀ state,
      sha256Block bytes state (64 * index) =
        compress state (Sha2.block (pad bytes) index) := by
    intro index inside state
    rw [mem_range] at inside
    rw [sha256Block_eq, Sha2.block]
    congr 1
    apply map_congr_left
    intro place within
    rw [mem_range] at within
    rw [Nat.mul_comm place 4]
    apply messageWord_eq
    unfold paddedBytes at inside ⊢
    omega
  have states : (range (paddedBytes bytes.length / 64)).foldl
      (fun state block => sha256Block bytes state (64 * block)) initial =
      (range ((pad bytes).length / 64)).foldl
        (fun state index => compress state (Sha2.block (pad bytes) index))
        initial := by
    rw [length_pad]
    exact foldl_ext _ _ _ fun state index inside => blocks index inside state
  unfold sha256Fallback
  show String.ofList (flatMap _ (State.words (foldl _ initial _))) = _
  rw [states]
  simp only [ContentDigest.toHex, sha256, Sha2.sha256, hexadecimal_eq, flatMap_assoc]

end Sha
end Offprint.Collector
