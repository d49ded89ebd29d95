import Mathlib.Data.List.Basic
import Mathlib.Data.List.GetD
import Mathlib.Data.Nat.Bitwise

/-!
# Packed bit strings

A byte string stands for the bit string in which bit `i` is bit `i % 8` of
byte `i / 8`.  The lemmas relate the two usual ways of testing one bit of a
byte, and the little-endian word made of consecutive bytes, to that reading.
-/

namespace SigrokDecode.Foundation

/-- Bit `index` of a packed byte string; bytes beyond the end read as zero. -/
def packedBit (bytes : List UInt8) (index : Nat) : Bool :=
  (bytes.getD (index / 8) 0).toNat.testBit (index % 8)

/-- A Boolean as the byte `0` or `1`. -/
def bitByte (bit : Bool) : UInt8 :=
  if bit then 1 else 0

@[simp]
theorem bitByte_true : bitByte true = 1 := rfl

@[simp]
theorem bitByte_false : bitByte false = 0 := rfl

@[simp]
theorem bitByte_eq_zero {bit : Bool} : bitByte bit = 0 ↔ bit = false := by
  cases bit <;> simp [bitByte]

theorem byte_shift_and_one (byte : UInt8) {bit : Nat} (small : bit < 8) :
    (byte >>> UInt8.ofNat bit) &&& 1 = bitByte (byte.toNat.testBit bit) := by
  apply UInt8.toNat.inj
  have modulus : bit % 256 % 8 = bit := by omega
  rw [UInt8.toNat_and, UInt8.toNat_shiftRight, UInt8.toNat_ofNat']
  simp only [UInt8.toNat_one, Nat.and_one_is_mod, Nat.reducePow, modulus]
  rw [Nat.shiftRight_eq_div_pow, ← Nat.toNat_testBit]
  cases byte.toNat.testBit bit <;> rfl

theorem byte_and_mask_ne_zero (byte : UInt8) {bit : Nat} (small : bit < 8) :
    (byte &&& (1 <<< UInt8.ofNat bit) ≠ 0) ↔ byte.toNat.testBit bit = true := by
  have modulus : bit % 256 % 8 = bit := by omega
  have fits : 2 ^ bit < 256 := by
    calc 2 ^ bit < 2 ^ 8 := Nat.pow_lt_pow_right (by omega) small
      _ = 256 := rfl
  have value : (byte &&& (1 <<< UInt8.ofNat bit)).toNat = byte.toNat &&& 2 ^ bit := by
    rw [UInt8.toNat_and, UInt8.toNat_shiftLeft, UInt8.toNat_ofNat']
    simp only [UInt8.toNat_one, Nat.reducePow, modulus, Nat.one_shiftLeft, Nat.mod_eq_of_lt fits]
  rw [ne_eq, ← UInt8.toNat_inj, value, Nat.and_two_pow]
  cases byte.toNat.testBit bit <;> simp

def leWord : List UInt8 → Nat
  | [] => 0
  | byte :: rest => 2 ^ 8 * leWord rest + byte.toNat

/-- Bit `index` of a little-endian number is bit `index` of its bytes. -/
theorem testBit_leWord (bytes : List UInt8) (index : Nat) :
    (leWord bytes).testBit index = packedBit bytes index := by
  induction bytes generalizing index with
  | nil =>
      simp [leWord, packedBit]
  | cons byte rest ih =>
      rw [leWord, Nat.testBit_two_pow_mul_add _ byte.toNat_lt, ih]
      by_cases low : index < 8
      · have first : index / 8 = 0 := by omega
        have same : index % 8 = index := by omega
        simp [packedBit, low, first, same]
      · obtain ⟨later, rfl⟩ : ∃ later, index = later + 8 := ⟨index - 8, by omega⟩
        have next : (later + 8) / 8 = later / 8 + 1 := by omega
        have same : (later + 8) % 8 = later % 8 := by omega
        have notLow : ¬ later + 8 < 8 := by omega
        simp only [notLow, if_false, Nat.add_sub_cancel, packedBit, next, same, List.getD_cons_succ]

theorem packedBit_drop (bytes : List UInt8) (count index : Nat) :
    packedBit (bytes.drop count) index = packedBit bytes (8 * count + index) := by
  have quotient : (8 * count + index) / 8 = count + index / 8 := by omega
  have remainder : (8 * count + index) % 8 = index % 8 := by omega
  simp [packedBit, quotient, remainder, List.getD_eq_getElem?_getD, List.getElem?_drop]

theorem packedBit_take {count index : Nat} (bytes : List UInt8) (inside : index < 8 * count) :
    packedBit (bytes.take count) index = packedBit bytes index := by
  have small : index / 8 < count := by omega
  simp [packedBit, List.getD_eq_getElem?_getD, List.getElem?_take_of_lt small]

end SigrokDecode.Foundation
