import Mathlib.Tactic.Ring

/-!
# Sums with end-around carry

The carries out of a word are added to it again, once or until none is left.
-/

namespace SigrokDecode.Foundation

open Nat

/-- The carries out of a word of `base` values, added to the word. -/
def addCarries (base sum : Nat) : Nat :=
  sum % base + sum / base

/-- The same as long as there are carries, and at most so many times. -/
def foldCarries (base : Nat) : Nat → Nat → Nat
  | 0, sum => sum
  | times + 1, sum =>
      if base ≤ sum then foldCarries base times (addCarries base sum) else sum

theorem addCarries_add (base sum : Nat) :
    addCarries (base + 1) sum + base * (sum / (base + 1)) = sum := by
  have division := mod_add_div sum (base + 1)
  rw [Nat.add_mul, Nat.one_mul] at division
  rw [addCarries]
  omega

theorem addCarries_mod (base sum : Nat) : addCarries (base + 1) sum % base = sum % base := by
  have split := addCarries_add base sum
  calc addCarries (base + 1) sum % base
      = (addCarries (base + 1) sum + base * (sum / (base + 1))) % base :=
        (add_mul_mod_self_left ..).symm
    _ = sum % base := by rw [split]

variable {base sum : Nat}

theorem addCarries_eq_zero : addCarries (base + 1) sum = 0 ↔ sum = 0 := by
  constructor
  · intro zero
    have parts := Nat.add_eq_zero_iff.mp zero
    have division := mod_add_div sum (base + 1)
    rw [parts.1, parts.2] at division
    omega
  · rintro rfl
    rw [addCarries, zero_mod, Nat.zero_div]

theorem addCarries_lt (some : 0 < base) (carries : base + 1 ≤ sum) :
    addCarries (base + 1) sum < sum := by
  have split := addCarries_add base sum
  have carry : 0 < sum / (base + 1) := Nat.div_pos carries (succ_pos base)
  have lost : 0 < base * (sum / (base + 1)) := Nat.mul_pos some carry
  omega

theorem foldCarries_mod (base times sum : Nat) :
    foldCarries (base + 1) times sum % base = sum % base := by
  induction times generalizing sum with
  | zero => rfl
  | succ times ih =>
      rw [foldCarries]
      split
      · rw [ih, addCarries_mod]
      · rfl

theorem foldCarries_eq_zero {times : Nat} : foldCarries (base + 1) times sum = 0 ↔ sum = 0 := by
  induction times generalizing sum with
  | zero => exact Iff.rfl
  | succ times ih =>
      rw [foldCarries]
      split
      · rw [ih, addCarries_eq_zero]
      · exact Iff.rfl

theorem foldCarries_lt {times : Nat} (some : 0 < base) (enough : sum ≤ base + times) :
    foldCarries (base + 1) times sum < base + 1 := by
  induction times generalizing sum with
  | zero => exact lt_succ_of_le enough
  | succ times ih =>
      rw [foldCarries]
      split
      next carries =>
        have less := addCarries_lt some carries
        exact ih (by omega)
      next none => exact Nat.lt_of_not_le none

theorem addCarries_eq_base (base : Nat) (few : sum / (base + 1) < base) :
    addCarries (base + 1) sum % (base + 1) = base ↔ sum ≠ 0 ∧ sum % base = 0 := by
  have word : sum % (base + 1) < base + 1 := mod_lt _ (succ_pos base)
  have total : addCarries (base + 1) sum = sum % (base + 1) + sum / (base + 1) := rfl
  have same := addCarries_mod base sum
  have zero : addCarries (base + 1) sum = 0 ↔ sum = 0 := addCarries_eq_zero
  constructor
  · intro ones
    have whole : addCarries (base + 1) sum = base := by
      rcases Nat.lt_or_ge (addCarries (base + 1) sum) (base + 1) with small | large
      · exact (mod_eq_of_lt small).symm.trans ones
      · rw [mod_eq_sub_mod large, mod_eq_of_lt (by omega)] at ones
        omega
    refine ⟨fun none => ?_, ?_⟩
    · have none := zero.mpr none
      omega
    · rw [← same, whole, mod_self]
  · rintro ⟨some, multiple⟩
    rw [multiple] at same
    obtain ⟨count, counted⟩ := dvd_of_mod_eq_zero same
    have whole : addCarries (base + 1) sum = base := by
      match count, counted with
      | 0, counted => exact absurd (zero.mp counted) some
      | 1, counted => rw [counted, Nat.mul_one]
      | count + 2, counted =>
          have large : base * 2 ≤ base * (count + 2) := Nat.mul_le_mul_left base (by omega)
          omega
    rw [whole, mod_eq_of_lt (lt_succ_self base)]

end SigrokDecode.Foundation
