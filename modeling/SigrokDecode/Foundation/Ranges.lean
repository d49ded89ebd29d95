import Mathlib.Data.List.Induction

/-!
# Consecutive ranges

A sequence that is divided into ranges one after another, each told by the place at its end.
-/

namespace SigrokDecode.Foundation

open List

/-- The ranges with these ends, the first one from `start` on. -/
def ranges : Nat → List Nat → List (Nat × Nat)
  | _, [] => []
  | start, last :: ends => (start, last) :: ranges (last + 1) ends

def behind (start : Nat) : List Nat → Nat
  | [] => start
  | last :: ends => behind (last + 1) ends

@[simp] theorem behind_concat (start : Nat) (ends : List Nat) (last : Nat) :
    behind start (ends ++ [last]) = last + 1 := by
  induction ends generalizing start with
  | nil => rfl
  | cons first ends ih =>
      rw [cons_append, behind, ih]

theorem ranges_concat (start : Nat) (ends : List Nat) (last : Nat) :
    ranges start (ends ++ [last]) = ranges start ends ++ [(behind start ends, last)] := by
  induction ends generalizing start with
  | nil => rfl
  | cons first ends ih =>
      rw [cons_append, ranges, ih, ranges, behind, cons_append]

variable {ends : List Nat}

theorem lt_behind (start : Nat) (increasing : ends.Pairwise (· < ·)) {last : Nat}
    (member : last ∈ ends) : last < behind start ends := by
  induction ends using reverseRecOn with
  | nil => cases member
  | append_singleton ends final _ =>
      rw [behind_concat]
      obtain ⟨-, -, above⟩ := pairwise_append.mp increasing
      obtain earlier | latest := mem_append.mp member
      · have below := above last earlier final mem_cons_self
        omega
      · rw [mem_singleton.mp latest]
        omega

theorem increasing_concat (increasing : ends.Pairwise (· < ·)) {last : Nat}
    (later : behind 0 ends ≤ last) : (ends ++ [last]).Pairwise (· < ·) := by
  refine pairwise_append.mpr ⟨increasing, pairwise_singleton _ _, ?_⟩
  intro first member final same
  rw [mem_singleton.mp same]
  exact Nat.lt_of_lt_of_le (lt_behind 0 increasing member) later

/-- Where some range ends, the last of them ends in front of `behind`. -/
theorem eq_concat_of_behind (last : Nat) (whole : behind 0 ends = last + 1) :
    ∃ front, ends = front ++ [last] := by
  induction ends using reverseRecOn with
  | nil => cases whole
  | append_singleton ends final _ =>
      rw [behind_concat] at whole
      exact ⟨ends, by rw [Nat.succ.inj whole]⟩

end SigrokDecode.Foundation
