import Mathlib.Data.List.Induction
import Mathlib.Data.Nat.Bitwise
import Mathlib.Tactic.Ring

/-!
# Numbers as bit fields

A field of a frame is a number of fixed width, sent with its highest or with its
lowest bit first.
-/

namespace SigrokDecode.Foundation

open List Nat

def packMsb (bits : List Bool) : Nat :=
  bits.foldl (fun value bit => 2 * value + bit.toNat) 0

/-- The bits of a number of `width` bits, the highest one first. -/
def msbBits : Nat → Nat → List Bool
  | 0, _ => []
  | width + 1, value => msbBits width (value / 2) ++ [decide (value % 2 = 1)]

theorem packMsb_concat (bits : List Bool) (bit : Bool) :
    packMsb (bits ++ [bit]) = 2 * packMsb bits + bit.toNat := by
  simp [packMsb]

@[simp] theorem length_msbBits (width value : Nat) : (msbBits width value).length = width := by
  induction width generalizing value with
  | zero => rfl
  | succ width ih => simp [msbBits, ih]

theorem toNat_mod_two (value : Nat) : (decide (value % 2 = 1)).toNat = value % 2 := by
  rcases mod_two_eq_zero_or_one value with even | odd
  · simp [even]
  · simp [odd]

theorem packMsb_msbBits {width value : Nat} (fits : value < 2 ^ width) :
    packMsb (msbBits width value) = value := by
  induction width generalizing value with
  | zero =>
      have zero : value = 0 := by simpa using fits
      rw [zero]
      rfl
  | succ width ih =>
      have half : value / 2 < 2 ^ width := by
        rw [Nat.pow_succ] at fits
        omega
      rw [msbBits, packMsb_concat, ih half, toNat_mod_two]
      omega

theorem packMsb_concat_or (bits : List Bool) (bit : Bool) :
    packMsb (bits ++ [bit]) = packMsb bits <<< 1 ||| bit.toNat := by
  have digit : bit.toNat < 2 ^ 1 := Bool.toNat_lt bit
  rw [packMsb_concat, ← shiftLeft_add_eq_or_of_lt digit, shiftLeft_eq, Nat.pow_one, Nat.mul_comm]

theorem packMsb_append (front back : List Bool) :
    packMsb (front ++ back) = packMsb front <<< back.length ||| packMsb back := by
  induction back using reverseRecOn with
  | nil => rw [List.append_nil]; exact (or_zero _).symm
  | append_singleton back bit ih =>
      rw [← List.append_assoc, packMsb_concat_or, ih, packMsb_concat_or,
        shiftLeft_or_distrib, ← shiftLeft_add, Nat.or_assoc, length_append,
        length_singleton]

theorem packMsb_cons (bit : Bool) (bits : List Bool) :
    packMsb (bit :: bits) = bit.toNat <<< bits.length ||| packMsb bits := by
  have single : packMsb [bit] = bit.toNat := by
    rw [← nil_append [bit], packMsb_concat, packMsb, foldl_nil, Nat.mul_zero, Nat.zero_add]
  rw [← singleton_append, packMsb_append, single]

theorem packMsb_lt (bits : List Bool) : packMsb bits < 2 ^ bits.length := by
  induction bits using reverseRecOn with
  | nil => simp [packMsb]
  | append_singleton bits bit ih =>
      have digit : bit.toNat ≤ 1 := Bool.toNat_le bit
      rw [packMsb_concat, length_append, length_singleton, Nat.pow_succ]
      omega

theorem msbBits_packMsb (bits : List Bool) : msbBits bits.length (packMsb bits) = bits := by
  induction bits using reverseRecOn with
  | nil => rfl
  | append_singleton bits bit ih =>
      have digit : bit.toNat ≤ 1 := Bool.toNat_le bit
      have half : (2 * packMsb bits + bit.toNat) / 2 = packMsb bits := by omega
      have low : (2 * packMsb bits + bit.toNat) % 2 = bit.toNat := by omega
      rw [length_append, length_singleton, packMsb_concat, msbBits, half, low, ih]
      cases bit <;> rfl

theorem range_reverse_packMsb (bits : List Bool) :
    (range bits.length).reverse.map (packMsb bits).testBit = bits := by
  induction bits using reverseRecOn with
  | nil => rfl
  | append_singleton bits bit ih =>
      have low : (packMsb (bits ++ [bit])).testBit 0 = bit := by
        rw [packMsb_concat, testBit_zero]
        cases bit with
        | false => simp
        | true => simp [add_mod]
      have high : ∀ i, (packMsb (bits ++ [bit])).testBit (i + 1) = (packMsb bits).testBit i := by
        intro i
        have half : (2 * packMsb bits + bit.toNat) / 2 = packMsb bits := by
          have digit : bit.toNat ≤ 1 := Bool.toNat_le bit
          omega
        rw [packMsb_concat, testBit_succ, half]
      rw [length_append, length_singleton, range_succ_eq_map, reverse_cons,
        map_append, map_singleton, low, ← map_reverse, map_map]
      congr 1
      exact (map_congr_left fun i _ => high i).trans ih

/-- The number whose lowest bit comes first. -/
def packLsb : List Bool → Nat
  | [] => 0
  | bit :: bits => bit.toNat + 2 * packLsb bits

/-- The bits of a number of `width` bits, the lowest one first. -/
def lsbBits : Nat → Nat → List Bool
  | 0, _ => []
  | width + 1, value => decide (value % 2 = 1) :: lsbBits width (value / 2)

@[simp] theorem length_lsbBits (width value : Nat) : (lsbBits width value).length = width := by
  induction width generalizing value with
  | zero => rfl
  | succ width ih => simp [lsbBits, ih]

theorem lsbBits_mod (width value : Nat) :
    lsbBits width (value % 2 ^ width) = lsbBits width value := by
  induction width generalizing value with
  | zero => rfl
  | succ width ih =>
      have lowest : value % 2 ^ (width + 1) % 2 = value % 2 :=
        mod_mod_of_dvd value (Dvd.intro_left _ rfl)
      have half : value % 2 ^ (width + 1) / 2 = value / 2 % 2 ^ width := by
        rw [Nat.pow_succ', mod_mul_right_div_self]
      rw [lsbBits, lsbBits, lowest, half, ih]

theorem packLsb_lsbBits {width value : Nat} (fits : value < 2 ^ width) :
    packLsb (lsbBits width value) = value := by
  induction width generalizing value with
  | zero =>
      have zero : value = 0 := by simpa using fits
      rw [zero]
      rfl
  | succ width ih =>
      have half : value / 2 < 2 ^ width := by
        rw [Nat.pow_succ] at fits
        omega
      rw [lsbBits, packLsb, ih half, toNat_mod_two]
      omega

theorem lsbBits_packLsb (bits : List Bool) : lsbBits bits.length (packLsb bits) = bits := by
  induction bits with
  | nil => rfl
  | cons bit bits ih =>
      have lowest : decide ((bit.toNat + 2 * packLsb bits) % 2 = 1) = bit := by
        cases bit with
        | false => simp
        | true => simp
      have rest : (bit.toNat + 2 * packLsb bits) / 2 = packLsb bits := by
        have digit : bit.toNat ≤ 1 := Bool.toNat_le bit
        omega
      rw [length_cons, packLsb, lsbBits, lowest, rest, ih]

theorem packLsb_append (front back : List Bool) :
    packLsb (front ++ back) = packLsb front + 2 ^ front.length * packLsb back := by
  induction front with
  | nil => simp [packLsb]
  | cons bit front ih =>
      rw [cons_append, packLsb, packLsb, ih, length_cons,
        Nat.pow_succ, Nat.mul_comm (2 ^ front.length) 2, Nat.mul_assoc]
      omega

theorem packLsb_concat (bits : List Bool) (bit : Bool) :
    packLsb (bits ++ [bit]) = packLsb bits + 2 ^ bits.length * bit.toNat :=
  packLsb_append bits [bit]

theorem packLsb_lt (bits : List Bool) : packLsb bits < 2 ^ bits.length := by
  induction bits with
  | nil => simp [packLsb]
  | cons bit bits ih =>
      have digit : bit.toNat ≤ 1 := Bool.toNat_le bit
      rw [packLsb, length_cons, Nat.pow_succ]
      omega

theorem testBit_packLsb (bits : List Bool) (i : Nat) :
    (packLsb bits).testBit i = bits.getD i false := by
  induction bits generalizing i with
  | nil => simp [packLsb]
  | cons bit bits ih =>
      have digit := Bool.toNat_le bit
      cases i with
      | zero =>
          have low : (packLsb (bit :: bits)) % 2 = bit.toNat := by
            rw [packLsb]
            omega
          rw [testBit_zero, low]
          cases bit <;> rfl
      | succ i =>
          have high : packLsb (bit :: bits) / 2 = packLsb bits := by
            rw [packLsb]
            omega
          rw [testBit_succ, high, ih, getD_cons_succ]

end SigrokDecode.Foundation
