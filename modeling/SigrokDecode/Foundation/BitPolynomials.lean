import Mathlib.Algebra.Polynomial.Div
import Mathlib.Algebra.CharP.Two
import Mathlib.Algebra.Field.ZMod
import Mathlib.Data.List.Induction
import Mathlib.RingTheory.Coprime.Lemmas
import Mathlib.Tactic.LinearCombination

/-!
# Bits as polynomials

A list of bits, the highest coefficient first, stands for a polynomial over the field with two
elements.  A long division keeps a window of the dividend that is as long as the divisor.
-/

namespace SigrokDecode.Foundation

open Polynomial List

def bitCoeff (bit : Bool) : ZMod 2 :=
  if bit then 1 else 0

theorem bitCoeff_xor (first second : Bool) :
    bitCoeff (first ^^ second) = bitCoeff first + bitCoeff second := by
  cases first <;> cases second <;> decide

theorem bitCoeff_injective : Function.Injective bitCoeff := by
  intro first second same
  cases first <;> cases second <;> first | rfl | exact absurd same (by decide)

noncomputable def bitsPoly (bits : List Bool) : (ZMod 2)[X] :=
  bits.foldl (fun poly bit => poly * X + C (bitCoeff bit)) 0

@[simp] theorem bitsPoly_nil : bitsPoly [] = 0 := rfl

theorem bitsPoly_concat (bits : List Bool) (bit : Bool) :
    bitsPoly (bits ++ [bit]) = bitsPoly bits * X + C (bitCoeff bit) := by
  rw [bitsPoly, foldl_append]
  rfl

theorem bitsPoly_append (front back : List Bool) :
    bitsPoly (front ++ back) = bitsPoly front * X ^ back.length + bitsPoly back := by
  induction back using reverseRecOn with
  | nil => simp
  | append_singleton back bit ih =>
      rw [← List.append_assoc, bitsPoly_concat, ih, bitsPoly_concat, length_append,
        length_singleton, pow_succ]
      ring

theorem bitsPoly_cons (bit : Bool) (bits : List Bool) :
    bitsPoly (bit :: bits) = C (bitCoeff bit) * X ^ bits.length + bitsPoly bits := by
  have single : bitsPoly [bit] = C (bitCoeff bit) := by
    rw [← nil_append [bit], bitsPoly_concat, bitsPoly_nil, zero_mul, zero_add]
  rw [← singleton_append, bitsPoly_append, single]

theorem bitsPoly_false_cons (bits : List Bool) : bitsPoly (false :: bits) = bitsPoly bits := by
  rw [bitsPoly_cons, show bitCoeff false = 0 from rfl, C_0, zero_mul, zero_add]

theorem bitsPoly_true_cons (bits : List Bool) :
    bitsPoly (true :: bits) = X ^ bits.length + bitsPoly bits := by
  rw [bitsPoly_cons, show bitCoeff true = 1 from rfl, C_1, one_mul]

theorem bitsPoly_flipped (front : List Bool) (bit : Bool) (back : List Bool) :
    bitsPoly (front ++ (!bit) :: back) = bitsPoly (front ++ bit :: back) + X ^ back.length := by
  have one : bitCoeff (!bit) = bitCoeff bit + 1 := by
    cases bit <;> decide
  rw [bitsPoly_append, bitsPoly_append, bitsPoly_cons, bitsPoly_cons, one, C_add, C_1,
    length_cons, length_cons]
  ring

theorem bitsPoly_zeros (count : Nat) : bitsPoly (replicate count false) = 0 := by
  induction count with
  | zero => rfl
  | succ count ih => rw [replicate_succ, bitsPoly_false_cons, ih]

theorem degree_bitsPoly_lt (bits : List Bool) : (bitsPoly bits).degree < bits.length := by
  induction bits with
  | nil =>
      rw [bitsPoly_nil, degree_zero]
      exact WithBot.bot_lt_coe _
  | cons bit bits ih =>
      have shorter : (bits.length : WithBot ℕ) < (bit :: bits).length :=
        WithBot.coe_lt_coe.mpr (Nat.lt_succ_self _)
      rw [bitsPoly_cons]
      refine lt_of_le_of_lt (degree_add_le _ _) (max_lt ?_ (ih.trans shorter))
      exact lt_of_le_of_lt (degree_C_mul_X_pow_le _ _) shorter

theorem coeff_bitsPoly_cons (bit : Bool) (bits : List Bool) :
    (bitsPoly (bit :: bits)).coeff bits.length = bitCoeff bit := by
  rw [bitsPoly_cons, coeff_add, coeff_C_mul_X_pow, if_pos rfl,
    coeff_eq_zero_of_degree_lt (degree_bitsPoly_lt bits), add_zero]

theorem eq_of_bitsPoly_eq {first second : List Bool} (lengths : first.length = second.length)
    (same : bitsPoly first = bitsPoly second) : first = second := by
  induction first generalizing second with
  | nil => exact (length_eq_zero_iff.mp lengths.symm).symm
  | cons bit bits ih =>
      cases second with
      | nil => cases lengths
      | cons other others =>
          have shorter : bits.length = others.length := Nat.succ.inj lengths
          have top : bitCoeff bit = bitCoeff other := by
            rw [← coeff_bitsPoly_cons bit bits, same, shorter, coeff_bitsPoly_cons]
          rw [bitsPoly_cons, bitsPoly_cons, top, shorter] at same
          rw [bitCoeff_injective top, ih shorter (add_left_cancel same)]

theorem bitsPoly_zipWith_xor {first second : List Bool} (lengths : first.length = second.length) :
    bitsPoly (zipWith xor first second) = bitsPoly first + bitsPoly second := by
  induction first generalizing second with
  | nil =>
      rw [length_eq_zero_iff.mp lengths.symm]
      exact (add_zero 0).symm
  | cons bit bits ih =>
      cases second with
      | nil => cases lengths
      | cons other others =>
          have shorter : bits.length = others.length := Nat.succ.inj lengths
          rw [zipWith_cons_cons, bitsPoly_cons, bitsPoly_cons, bitsPoly_cons, ih shorter,
            length_zipWith, ← shorter, Nat.min_self, bitCoeff_xor, C_add]
          ring

/-! ## Long division -/

section Division

variable {lower : List Bool}

theorem monic_bitsPoly (lower : List Bool) : (bitsPoly (true :: lower)).Monic := by
  rw [bitsPoly_true_cons]
  exact monic_X_pow_add (degree_bitsPoly_lt lower)

theorem degree_bitsPoly_true_cons (lower : List Bool) :
    (bitsPoly (true :: lower)).degree = lower.length := by
  have below : (bitsPoly lower).degree < (X ^ lower.length : (ZMod 2)[X]).degree := by
    rw [degree_X_pow]
    exact degree_bitsPoly_lt lower
  rw [bitsPoly_true_cons, degree_add_eq_left_of_degree_lt below, degree_X_pow]

/-- A window without its highest bit, which the divisor takes away where it is set; `lower` is
the divisor behind its leading coefficient. -/
def reduceWindow (lower : List Bool) : List Bool → List Bool
  | [] => []
  | true :: window => List.zipWith xor window lower
  | false :: window => window

theorem length_reduceWindow {window : List Bool} (whole : window.length = lower.length + 1) :
    (reduceWindow lower window).length = lower.length := by
  cases window with
  | nil => cases whole
  | cons top window =>
      have rest : window.length = lower.length := Nat.succ.inj whole
      cases top with
      | true => rw [reduceWindow, length_zipWith, rest, Nat.min_self]
      | false => exact rest

theorem dvd_bitsPoly_reduceWindow {window : List Bool} (whole : window.length = lower.length + 1) :
    bitsPoly (true :: lower) ∣ bitsPoly (reduceWindow lower window) - bitsPoly window := by
  cases window with
  | nil => cases whole
  | cons top window =>
      have rest : window.length = lower.length := Nat.succ.inj whole
      cases top with
      | true =>
          have difference : bitsPoly (reduceWindow lower (true :: window)) -
              bitsPoly (true :: window) = bitsPoly (true :: lower) := by
            rw [reduceWindow, bitsPoly_zipWith_xor rest, bitsPoly_true_cons, bitsPoly_true_cons,
              rest, CharTwo.sub_eq_add]
            linear_combination CharTwo.add_self_eq_zero (bitsPoly window)
          rw [difference]
      | false =>
          rw [reduceWindow, bitsPoly_false_cons, sub_self]
          exact dvd_zero _

/-- The division of a window with the further bits of the dividend behind it. -/
def longDivision (lower : List Bool) : List Bool → List Bool → List Bool
  | window, [] => reduceWindow lower window
  | window, bit :: bits => longDivision lower (reduceWindow lower window ++ [bit]) bits

theorem length_longDivision {window : List Bool} (whole : window.length = lower.length + 1)
    (bits : List Bool) : (longDivision lower window bits).length = lower.length := by
  induction bits generalizing window with
  | nil => exact length_reduceWindow whole
  | cons bit bits ih =>
      apply ih
      rw [length_append, length_reduceWindow whole, length_singleton]

theorem dvd_bitsPoly_longDivision {window : List Bool}
    (whole : window.length = lower.length + 1) (bits : List Bool) :
    bitsPoly (true :: lower) ∣
      bitsPoly (longDivision lower window bits) - bitsPoly (window ++ bits) := by
  induction bits generalizing window with
  | nil =>
      rw [List.append_nil]
      exact dvd_bitsPoly_reduceWindow whole
  | cons bit bits ih =>
      have next : (reduceWindow lower window ++ [bit]).length = lower.length + 1 := by
        rw [length_append, length_reduceWindow whole, length_singleton]
      have later := ih next
      have here := Dvd.dvd.mul_right (dvd_bitsPoly_reduceWindow whole) (X ^ (bits.length + 1))
      have step : bitsPoly (reduceWindow lower window ++ [bit] ++ bits) -
          bitsPoly (window ++ bit :: bits) =
            (bitsPoly (reduceWindow lower window) - bitsPoly window) * X ^ (bits.length + 1) := by
        rw [List.append_assoc, singleton_append, bitsPoly_append, bitsPoly_append window,
          length_cons]
        ring
      rw [← step] at here
      have sum := dvd_add later here
      rwa [sub_add_sub_cancel] at sum

/-- The bits that are left are the remainder. -/
theorem bitsPoly_longDivision {window : List Bool} (whole : window.length = lower.length + 1)
    (bits : List Bool) :
    bitsPoly (longDivision lower window bits) =
      bitsPoly (window ++ bits) %ₘ bitsPoly (true :: lower) := by
  have small : (bitsPoly (longDivision lower window bits)).degree <
      (bitsPoly (true :: lower)).degree := by
    rw [degree_bitsPoly_true_cons, ← length_longDivision whole bits]
    exact degree_bitsPoly_lt _
  rw [← modByMonic_eq_of_dvd_sub (monic_bitsPoly lower) (dvd_bitsPoly_longDivision whole bits)]
  exact ((modByMonic_eq_self_iff (monic_bitsPoly lower)).mpr small).symm

/-- No power of `X` is a multiple of a divisor with a constant term. -/
theorem not_dvd_X_pow {divisor : (ZMod 2)[X]} (proper : 0 < divisor.degree)
    (constant : divisor.coeff 0 = 1) (power : Nat) : ¬divisor ∣ X ^ power := by
  intro divides
  obtain ⟨factor, shape⟩ : X ∣ divisor - C (divisor.coeff 0) := X_dvd_sub_C
  have coprime : IsCoprime divisor X := by
    refine ⟨1, -factor, ?_⟩
    rw [constant, C_1] at shape
    linear_combination shape
  have unit : IsUnit divisor := coprime.pow_right.isUnit_of_dvd' dvd_rfl divides
  rw [degree_eq_zero_of_isUnit unit] at proper
  exact lt_irrefl _ proper

end Division

end SigrokDecode.Foundation
