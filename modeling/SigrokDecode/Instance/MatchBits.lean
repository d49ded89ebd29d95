import SigrokDecode.Instance.TermPasses
import SigrokDecode.Instance.WaitLoop

/-!
# Match bits

`find_match` sets a bit for each condition that is met at the sample it reports. The mask of
condition `j` comes from a shift of 32 bits whose result is sign-extended, so the bits from 31 on
are not those of one condition each.
-/

namespace SigrokDecode

open BitVec

theorem condBit_getLsbD (j : Nat) {bit : Nat} (inside : bit < 64) :
    (condBit j).getLsbD bit = decide (j % 32 = bit ∨ j % 32 = 31 ∧ 31 ≤ bit) := by
  have small : j % 32 < 32 := Nat.mod_lt _ (by decide)
  have masks : ∀ (k : Fin 32) (bit : Fin 64),
      (((1 : BitVec 32) <<< k.val).signExtend 64).getLsbD bit.val =
        decide (k.val = bit.val ∨ k.val = 31 ∧ 31 ≤ bit.val) := by
    decide +kernel
  exact masks ⟨j % 32, small⟩ ⟨bit, inside⟩

namespace SrdDecoderInst

theorem getLsbD_no_bits (bit : Nat) : ¬(0 : BitVec 64).getLsbD bit = true := by
  have clear : (0 : BitVec 64).getLsbD bit = false := getLsbD_zero
  rw [clear]
  exact Bool.false_ne_true

variable {verdicts : List Bool}

theorem marksFrom_getLsbD {j : Nat} {bit : Nat} : (marksFrom j verdicts).getLsbD bit = true ↔
      ∃ k, verdicts[k]? = some true ∧ (condBit (j + k)).getLsbD bit = true := by
  induction verdicts generalizing j with
  | nil =>
      exact iff_of_false (getLsbD_no_bits bit) fun ⟨k, found, _⟩ => nomatch found
  | cons verdict rest ih =>
      rw [marksFrom, getLsbD_or, Bool.or_eq_true, ih]
      constructor
      · rintro (own | ⟨k, found, set⟩)
        · cases verdict with
          | true => exact ⟨0, rfl, own⟩
          | false => exact absurd own (getLsbD_no_bits bit)
        · exact ⟨k + 1, found, by rwa [show j + (k + 1) = j + 1 + k by omega]⟩
      · rintro ⟨k, found, set⟩
        cases k with
        | zero =>
            left
            have holds : verdict = true := Option.some.inj found
            rw [holds, if_pos rfl]
            exact set
        | succ k =>
            right
            exact ⟨k, found, by rwa [show j + 1 + k = j + (k + 1) by omega]⟩

variable (di : SrdDecoderInst)

/-- Masks from 31 on set all bits from there, or a bit that is another condition's. -/
theorem marksFrom_tell_iff (short : verdicts.length ≤ 64) :
    (∀ j < 64, (marksFrom 0 verdicts).getLsbD j = true ↔ verdicts[j]? = some true) ↔
      (∀ j, verdicts[j]? = some true → j < 31) ∨ ∀ j < 64, verdicts[j]? = some true := by
  have inside : ∀ k, verdicts[k]? = some true → k < 64 := fun k found =>
    Nat.lt_of_lt_of_le (List.getElem?_eq_some_iff.mp found).1 short
  have bits : ∀ j < 64, (marksFrom 0 verdicts).getLsbD j = true ↔
      ∃ k, verdicts[k]? = some true ∧ (k % 32 = j ∨ k % 32 = 31 ∧ 31 ≤ j) := by
    intro j below
    refine marksFrom_getLsbD.trans (exists_congr fun k => and_congr_right fun _ => ?_)
    rw [Nat.zero_add, condBit_getLsbD k below, decide_eq_true_iff]
  constructor
  · intro tell
    by_cases high : ∃ k, verdicts[k]? = some true ∧ 31 ≤ k
    · right
      obtain ⟨k, found, least⟩ := high
      have below := inside k found
      -- One of the conditions that hold has the mask of all bits from 31 on.
      have wide : ∃ m, verdicts[m]? = some true ∧ m % 32 = 31 := by
        by_cases own : k % 32 = 31
        · exact ⟨k, found, own⟩
        · obtain ⟨m, holds, same | ⟨mask, -⟩⟩ := (bits k below).mp ((tell k below).mpr found)
          · omega
          · exact ⟨m, holds, mask⟩
      obtain ⟨m, holds, mask⟩ := wide
      have upper : ∀ j, 31 ≤ j → j < 64 → verdicts[j]? = some true := fun j from31 upto =>
        (tell j upto).mp ((bits j upto).mpr ⟨m, holds, Or.inr ⟨mask, from31⟩⟩)
      intro j upto
      by_cases from31 : 31 ≤ j
      · exact upper j from31 upto
      · have wrapped : verdicts[j + 32]? = some true := upper (j + 32) (by omega) (by omega)
        exact (tell j upto).mp ((bits j upto).mpr ⟨j + 32, wrapped, Or.inl (by omega)⟩)
    · left
      intro j found
      exact Nat.lt_of_not_le fun least => high ⟨j, found, least⟩
  · rintro (low | all)
    · intro j upto
      refine (bits j upto).trans ?_
      constructor
      · rintro ⟨k, found, same | ⟨mask, -⟩⟩
        · have own := low k found
          rw [show j = k by omega]
          exact found
        · have own := low k found
          omega
      · intro found
        have own := low j found
        exact ⟨j, found, Or.inl (by omega)⟩
    · intro j upto
      refine iff_of_true ((bits j upto).mpr ?_) (all j upto)
      by_cases low : j < 32
      · exact ⟨j, all j upto, Or.inl (by omega)⟩
      · exact ⟨31, all 31 (by decide), Or.inr ⟨rfl, by omega⟩⟩

theorem marksFrom_getLsbD_of_few (few : verdicts.length ≤ 31) (j : Nat) :
    (marksFrom 0 verdicts).getLsbD j = true ↔ verdicts[j]? = some true := by
  have low : ∀ k, verdicts[k]? = some true → k < 31 := fun k found =>
    Nat.lt_of_lt_of_le (List.getElem?_eq_some_iff.mp found).1 few
  by_cases inside : j < 64
  · exact (marksFrom_tell_iff (Nat.le_trans few (by decide))).mpr (Or.inl low) j inside
  · have above := Nat.le_of_not_lt inside
    refine iff_of_false (fun set => ?_) fun found => ?_
    · rw [getLsbD_of_ge _ _ above] at set
      cases set
    · have below := low j found
      omega

end SrdDecoderInst

end SigrokDecode
