import Mathlib.Algebra.Ring.Nat

/-!
# The first shift that reaches a bound

A word is shifted further and further until it is large enough.  A word that is not zero has its
highest digit in the highest place behind one of the shifts.
-/

namespace SigrokDecode.Foundation

open Nat

/-- The first number with a property, from `number` on, among the next `left` ones. -/
def searchUp (found : Nat → Bool) : Nat → Nat → Option Nat
  | 0, _ => none
  | left + 1, number => if found number then some number else searchUp found left (number + 1)

theorem searchUp_eq_some {found : Nat → Bool} {left number result : Nat}
    (search : searchUp found left number = some result) :
    found result = true ∧ number ≤ result ∧ result < number + left ∧
      ∀ earlier, number ≤ earlier → earlier < result → found earlier = false := by
  induction left generalizing number with
  | zero => cases search
  | succ left ih =>
      rw [searchUp] at search
      split at search
      · rename_i here
        cases search
        exact ⟨here, le_rfl, by omega, fun earlier least less => by omega⟩
      · rename_i notHere
        obtain ⟨last, least, inside, before⟩ := ih search
        refine ⟨last, by omega, by omega, fun earlier fromHere less => ?_⟩
        rcases Nat.eq_or_lt_of_le fromHere with rfl | later
        · exact Bool.not_eq_true _ ▸ notHere
        · exact before earlier later less

theorem searchUp_isSome {found : Nat → Bool} {left number result : Nat}
    (here : found result = true) (least : number ≤ result) (inside : result < number + left) :
    ∃ first, searchUp found left number = some first := by
  induction left generalizing number with
  | zero => omega
  | succ left ih =>
      rw [searchUp]
      split
      · exact ⟨number, rfl⟩
      · rename_i notHere
        have later : number ≠ result := by
          rintro rfl
          exact notHere here
        exact ih (by omega) (by omega)

theorem exists_shift_high {width word : Nat} (positive : word ≠ 0) (fits : word < 2 ^ (width + 1)) :
    ∃ shift ≤ width, 2 ^ width ≤ word * 2 ^ shift % 2 ^ (width + 1) := by
  have log : log2 word ≤ width := le_of_lt_succ ((log2_lt positive).mpr fits)
  have low : 2 ^ log2 word ≤ word := log2_self_le positive
  have high : word < 2 ^ (log2 word + 1) := lt_log2_self
  obtain ⟨shift, total⟩ : ∃ shift, log2 word + shift = width :=
    ⟨width - log2 word, by omega⟩
  have inside : word * 2 ^ shift < 2 ^ (width + 1) := by
    calc word * 2 ^ shift < 2 ^ (log2 word + 1) * 2 ^ shift :=
          Nat.mul_lt_mul_of_pos_right high (Nat.two_pow_pos shift)
      _ = 2 ^ (width + 1) := by rw [← Nat.pow_add, ← total, Nat.add_right_comm]
  refine ⟨shift, by omega, ?_⟩
  rw [mod_eq_of_lt inside]
  calc 2 ^ width = 2 ^ log2 word * 2 ^ shift := by rw [← Nat.pow_add, total]
    _ ≤ word * 2 ^ shift := Nat.mul_le_mul_right _ low

/-- Some shift of a word of `width + 1` digits reaches a bound, unless the word is zero or the
bound is beyond the highest place. -/
theorem exists_shift_reaches_iff {width word bound : Nat} (fits : word < 2 ^ (width + 1))
    (positive : bound ≠ 0) :
    (∃ shift ≤ width, bound ≤ word * 2 ^ shift % 2 ^ (width + 1)) ↔ word ≠ 0 ∧ (bound ≤ 2 ^ width ∨
        ∃ shift ≤ width, bound ≤ word * 2 ^ shift % 2 ^ (width + 1)) := by
  constructor
  · rintro ⟨shift, inside, reached⟩
    refine ⟨?_, Or.inr ⟨shift, inside, reached⟩⟩
    rintro rfl
    rw [Nat.zero_mul, zero_mod] at reached
    exact positive (le_zero.mp reached)
  · rintro ⟨notZero, small | reached⟩
    · obtain ⟨shift, inside, high⟩ := exists_shift_high notZero fits
      exact ⟨shift, inside, Nat.le_trans small high⟩
    · exact reached

end SigrokDecode.Foundation
