import SigrokDecode.Foundation.BitFields

/-!
# Shift registers

Words of a fixed width that collect bits, from either end.
-/

namespace SigrokDecode.Foundation

open Nat BitVec

/-- The next bit comes in at the low end. -/
def shiftIn {width : Nat} (word : BitVec width) (bit : Bool) : BitVec width :=
  word <<< 1 ||| (BitVec.ofBool bit).setWidth width

variable {width : Nat}

theorem shiftIn_eq (word : BitVec width) (bit : Bool) :
    shiftIn word bit = BitVec.ofNat width (2 * word.toNat + bit.toNat) := by
  have digit : bit.toNat < 2 ^ 1 := Nat.lt_of_le_of_lt (Bool.toNat_le bit) (by decide)
  apply eq_of_toNat_eq
  have bitWord : ((ofBool bit).setWidth width).toNat = bit.toNat % 2 ^ width := by simp
  rw [shiftIn, toNat_or, toNat_shiftLeft, bitWord, ← or_mod_two_pow,
    ← shiftLeft_add_eq_or_of_lt digit, Nat.shiftLeft_eq, Nat.mul_comm, toNat_ofNat]

theorem foldl_shiftIn (width : Nat) (bits : List Bool) :
    bits.foldl shiftIn (0 : BitVec width) = BitVec.ofNat width (packMsb bits) := by
  induction bits using List.reverseRecOn with
  | nil => rfl
  | append_singleton bits bit ih =>
      rw [List.foldl_append, List.foldl_cons, List.foldl_nil, ih, shiftIn_eq, packMsb_concat]
      apply eq_of_toNat_eq
      simp [add_mod, mul_mod]

theorem foldl_shiftIn_msbBits (word : BitVec width) :
    (msbBits width word.toNat).foldl shiftIn 0 = word := by
  rw [foldl_shiftIn, packMsb_msbBits word.isLt, ofNat_toNat, setWidth_eq]

theorem foldl_shiftIn_mod (word : BitVec width) (bits : List Bool) (fits : bits.length ≤ width) :
    (bits.foldl shiftIn word).toNat % 2 ^ bits.length = packMsb bits := by
  induction bits using List.reverseRecOn with
  | nil => exact mod_one _
  | append_singleton bits bit ih =>
      rw [List.length_append, List.length_singleton] at fits ⊢
      have before := ih (le_of_succ_le fits)
      have digit : bit.toNat ≤ 1 := Bool.toNat_le bit
      rw [List.foldl_append, List.foldl_cons, List.foldl_nil, shiftIn_eq, packMsb_concat,
        toNat_ofNat, mod_mod_of_dvd _ (Nat.pow_dvd_pow 2 fits), Nat.pow_succ', ← before,
        mod_mul, show ∀ high, (2 * high + bit.toNat) / 2 = high by omega]
      omega

/-- A bit at the first free place behind the ones of lower value. -/
theorem ofNat_packLsb_concat {bits : List Bool} (room : bits.length < width) (bit : Bool) :
    BitVec.ofNat width (packLsb (bits ++ [bit])) = BitVec.ofNat width (packLsb bits) |||
        (ofBool bit).setWidth width <<< bits.length := by
  have low := packLsb_lt bits
  have high : 2 ^ (bits.length + 1) ≤ 2 ^ width := Nat.pow_le_pow_right (by decide) room
  rw [Nat.pow_succ] at high
  have digit : bit.toNat ≤ 1 := Bool.toNat_le bit
  have bitWord : ((ofBool bit).setWidth width).toNat = bit.toNat := by
    rw [toNat_setWidth, toNat_ofBool]
    exact mod_eq_of_lt (by omega)
  have place : bit.toNat * 2 ^ bits.length ≤ 2 ^ bits.length :=
    Nat.le_trans (Nat.mul_le_mul_right _ digit) (Nat.le_of_eq (Nat.one_mul _))
  have joined : packLsb (bits ++ [bit]) = bit.toNat * 2 ^ bits.length + packLsb bits := by
    rw [packLsb_concat, Nat.mul_comm, Nat.add_comm]
  apply eq_of_toNat_eq
  rw [toNat_or, toNat_shiftLeft, bitWord, toNat_ofNat, toNat_ofNat,
    Nat.shiftLeft_eq, joined, mod_eq_of_lt (by omega),
    mod_eq_of_lt (a := packLsb bits) (by omega),
    mod_eq_of_lt (a := bit.toNat * 2 ^ bits.length) (by omega), Nat.or_comm,
    ← Nat.shiftLeft_eq, shiftLeft_add_eq_or_of_lt low]

/-- A bit at the place `width - 1 - count` of a register of `size` bits. -/
def placeMsb {size : Nat} (width : Nat) (word : BitVec size) (count : Nat) (bit : Bool) :
    BitVec size :=
  word ||| (BitVec.ofBool bit).setWidth size <<< (width - 1 - count)

theorem placeMsb_shift {size width count : Nat} (early : count < width) (word : BitVec size)
    (bit : Bool) :
    placeMsb width (word <<< (width - count)) count bit =
      shiftIn word bit <<< (width - (count + 1)) := by
  have later : width - count = 1 + (width - (count + 1)) := by omega
  have place : width - 1 - count = width - (count + 1) := by omega
  rw [placeMsb, shiftIn, later, place, BitVec.shiftLeft_or_distrib, BitVec.shiftLeft_add]

end SigrokDecode.Foundation
