import SigrokDecode.Foundation.BitPolynomials
import Mathlib.Algebra.Ring.Parity

/-!
# The check sequence of the Multifunction Vehicle Bus

`mvb_c` compares the last eight bits of a frame with a remainder and a parity bit of the bits in
front of them, all inverted.
-/

namespace SigrokDecode

open Foundation Polynomial List

namespace Mvb

/-- `crc_poly` -/
def crcPoly : List Bool :=
  [true, true, true, false, false, true, false, true]

/-- The division in `check_check_sequence`: `tmp` begins with the first eight bits, and the loop
pulls down the others. -/
def remainder (data : List Bool) : List Bool :=
  let appended := data ++ List.replicate 7 false
  longDivision crcPoly.tail (appended.take crcPoly.length) (appended.drop crcPoly.length)

/-- `p`, over the data and the remainder. -/
def parity (bits : List Bool) : Bool :=
  bits.foldl xor false

/-- `calculated` -/
def calculated (data : List Bool) : List Bool :=
  (remainder data ++ [parity (data ++ remainder data)]).map not

/-- `check_check_sequence` on the first `total_bits` bits. -/
def checkCheckSequence (frameBits : List Bool) : Bool :=
  let dataLen := frameBits.length - 8
  if dataLen = 0 then
    false
  else
    calculated (frameBits.take dataLen) = frameBits.drop dataLen

noncomputable def poly : (ZMod 2)[X] :=
  X ^ 7 + X ^ 6 + X ^ 5 + X ^ 2 + 1

/-- What the standard puts behind the data. -/
def CheckBits (data check : List Bool) : Prop :=
  ∃ remainder : List Bool, ∃ parity : Bool,
    remainder.length = 7 ∧ bitsPoly remainder = (bitsPoly data * X ^ 7) %ₘ poly ∧
      Even ((data ++ remainder ++ [parity]).count true) ∧
      check = (remainder ++ [parity]).map not

theorem bitsPoly_crcPoly : bitsPoly crcPoly = poly := by
  simp only [crcPoly, bitsPoly_true_cons, bitsPoly_false_cons, bitsPoly_nil, length_cons,
    length_nil]
  rw [poly]
  ring

theorem degree_poly : poly.degree = 7 := by
  rw [← bitsPoly_crcPoly]
  exact degree_bitsPoly_true_cons crcPoly.tail

theorem poly_constant : poly.coeff 0 = 1 := by
  simp [poly]

variable {data : List Bool}

theorem window_whole (nonempty : data ≠ []) :
    ((data ++ replicate 7 false).take crcPoly.length).length = crcPoly.tail.length + 1 := by
  have some : 0 < data.length := length_pos_iff.mpr nonempty
  rw [length_take, length_append, length_replicate]
  change min 8 (data.length + 7) = 8
  omega

theorem length_remainder (nonempty : data ≠ []) : (remainder data).length = 7 :=
  length_longDivision (window_whole nonempty) _

theorem bitsPoly_remainder (nonempty : data ≠ []) :
    bitsPoly (remainder data) = (bitsPoly data * X ^ 7) %ₘ poly := by
  have divided := bitsPoly_longDivision (window_whole nonempty)
    ((data ++ replicate 7 false).drop crcPoly.length)
  rw [take_append_drop, bitsPoly_append, bitsPoly_zeros, add_zero, length_replicate] at divided
  rw [← bitsPoly_crcPoly]
  exact divided

theorem parity_concat (bits : List Bool) (bit : Bool) :
    parity (bits ++ [bit]) = (parity bits ^^ bit) := by
  rw [parity, foldl_append]
  rfl

theorem even_count_iff (bits : List Bool) : Even (bits.count true) ↔ parity bits = false := by
  induction bits using reverseRecOn with
  | nil => exact iff_of_true Even.zero rfl
  | append_singleton bits bit ih =>
      rw [parity_concat, count_append]
      cases bit with
      | false =>
          rw [Bool.xor_false]
          exact ih
      | true =>
          rw [Bool.xor_true, Bool.not_eq_false', count_singleton_self, Nat.even_add_one, ih,
            Bool.not_eq_false]

theorem even_concat_iff (bits : List Bool) (bit : Bool) :
    Even ((bits ++ [bit]).count true) ↔ parity bits = bit := by
  rw [even_count_iff, parity_concat, bne_eq_false_iff_eq]

theorem checkBits_iff (nonempty : data ≠ []) (check : List Bool) :
    CheckBits data check ↔ calculated data = check := by
  constructor
  · rintro ⟨rest, bit, seven, divided, even, rfl⟩
    have same : rest = remainder data := by
      apply eq_of_bitsPoly_eq (seven.trans (length_remainder nonempty).symm)
      rw [divided, bitsPoly_remainder nonempty]
    rw [even_concat_iff, same] at even
    rw [calculated, even, same]
  · rintro rfl
    exact ⟨remainder data, parity (data ++ remainder data), length_remainder nonempty,
      bitsPoly_remainder nonempty, (even_concat_iff _ _).mpr rfl, rfl⟩

theorem checkCheckSequence_append (nonempty : data ≠ []) {check : List Bool}
    (eight : check.length = 8) :
    checkCheckSequence (data ++ check) = decide (calculated data = check) := by
  have some : data.length ≠ 0 := fun none => nonempty (length_eq_zero_iff.mp none)
  have dataLen : (data ++ check).length - 8 = data.length := by
    rw [length_append, eight, Nat.add_sub_cancel]
  rw [checkCheckSequence]
  simp only [dataLen, if_neg some, take_left, drop_left]

/-- One wrong bit of the data changes the remainder. -/
theorem remainder_flipped_ne (front : List Bool) (bit : Bool) (back : List Bool) :
    remainder (front ++ (!bit) :: back) ≠ remainder (front ++ bit :: back) := by
  intro same
  have polys := congrArg bitsPoly same
  rw [bitsPoly_remainder (append_ne_nil_of_right_ne_nil _ (cons_ne_nil _ _)),
    bitsPoly_remainder (append_ne_nil_of_right_ne_nil _ (cons_ne_nil _ _)),
    bitsPoly_flipped, add_mul, add_modByMonic, add_eq_left, ← pow_add] at polys
  have monic : poly.Monic := by
    rw [← bitsPoly_crcPoly]
    exact monic_bitsPoly crcPoly.tail
  have proper : 0 < poly.degree := by
    rw [degree_poly]
    exact WithBot.coe_pos.mpr (by decide)
  exact not_dvd_X_pow proper poly_constant _ ((modByMonic_eq_zero_iff_dvd monic).mp polys)

theorem calculated_flipped_ne (front : List Bool) (bit : Bool) (back : List Bool) :
    calculated (front ++ (!bit) :: back) ≠ calculated (front ++ bit :: back) := by
  intro same
  have inverted := map_injective_iff.mpr Bool.involutive_not.injective same
  have sevens : (remainder (front ++ (!bit) :: back)).length =
      (remainder (front ++ bit :: back)).length := by
    rw [length_remainder (append_ne_nil_of_right_ne_nil _ (cons_ne_nil _ _)),
      length_remainder (append_ne_nil_of_right_ne_nil _ (cons_ne_nil _ _))]
  exact remainder_flipped_ne front bit back (append_inj_left inverted sevens)

/-- A frame with one wrong bit. -/
theorem checkCheckSequence_flipped (nonempty : data ≠ []) {check : List Bool}
    (eight : check.length = 8) (encoded : calculated data = check) {front back : List Bool}
    {bit : Bool} (frame : data ++ check = front ++ bit :: back) :
    checkCheckSequence (front ++ (!bit) :: back) = false := by
  rcases append_eq_append_iff.mp frame with
    ⟨before, rfl, shape⟩ | ⟨behind, shape, rest⟩
  · have flippedEight : (before ++ (!bit) :: back).length = 8 := by
      rw [← eight, shape, length_append, length_append, length_cons, length_cons]
    rw [List.append_assoc, checkCheckSequence_append nonempty flippedEight, decide_eq_false_iff_not,
      encoded, shape]
    intro same
    exact Bool.not_ne_self bit (List.cons.inj (append_cancel_left same)).1.symm
  · cases behind with
    | nil =>
        rw [List.append_nil] at shape
        rw [nil_append] at rest
        subst shape
        have flippedEight : ((!bit) :: back).length = 8 := by
          rw [← eight, ← rest, length_cons, length_cons]
        rw [checkCheckSequence_append nonempty flippedEight, decide_eq_false_iff_not, encoded,
          ← rest]
        intro same
        exact Bool.not_ne_self bit (List.cons.inj same).1.symm
    | cons first behind =>
        obtain ⟨rfl, rfl⟩ := List.cons.inj rest
        have filled : front ++ (!bit) :: behind ≠ [] :=
          append_ne_nil_of_right_ne_nil _ (cons_ne_nil _ _)
        have regrouped : front ++ (!bit) :: behind.append check =
            (front ++ (!bit) :: behind) ++ check := by
          rw [List.append_assoc]
          rfl
        rw [regrouped, checkCheckSequence_append filled eight, decide_eq_false_iff_not, ← encoded,
          shape]
        exact calculated_flipped_ne front bit behind

end Mvb

open Mvb in
theorem checkCheckSequence_iff (data check : List Bool) (nonempty : data ≠ [])
    (eight : check.length = 8) :
    (checkCheckSequence (data ++ check) = true ↔ CheckBits data check) ∧
      (CheckBits data check → ∀ front bit back, data ++ check = front ++ bit :: back →
        checkCheckSequence (front ++ (!bit) :: back) = false) := by
  constructor
  · rw [checkCheckSequence_append nonempty eight, decide_eq_true_eq, checkBits_iff nonempty]
  · intro encoded front bit back frame
    exact checkCheckSequence_flipped nonempty eight ((checkBits_iff nonempty check).mp encoded) frame

/-- A master frame that asks for the process data of the address 0x123. -/
def masterFrame : List Bool :=
  [false, false, false, true, false, false, false, true, false, false, true, false, false, false,
    true, true]

open Mvb in
theorem checkCheckSequence_iff_masterFrame :
    CheckBits masterFrame (calculated masterFrame) ∧
      checkCheckSequence ((!false) :: masterFrame.tail ++ calculated masterFrame) = false := by
  have encoded : CheckBits masterFrame (calculated masterFrame) :=
    (checkCheckSequence_iff masterFrame (calculated masterFrame) (by decide) (by decide)).1.mp
      (by decide)
  exact ⟨encoded, (checkCheckSequence_iff masterFrame (calculated masterFrame) (by decide)
    (by decide)).2 encoded [] false _ rfl⟩

end SigrokDecode
