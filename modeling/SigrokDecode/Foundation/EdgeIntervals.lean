import Mathlib.Data.Finset.Card
import Mathlib.Order.Interval.Finset.Nat

/-!
# Intervals between edges

A level over time cut at the points where it goes from low to high, and the
points of an interval at which a property holds.
-/

namespace SigrokDecode.Foundation

/-- The points behind `start` at which the level goes high. -/
def risingEdges (level : Nat → Bool) (start count : Nat) : List Nat :=
  (List.range' start count).filter fun n =>
    decide (start < n) && level n && !level (n - 1)

theorem risingEdges_succ (level : Nat → Bool) (start count : Nat) :
    risingEdges level start (count + 1) =
      if start < start + count ∧ level (start + count) = true ∧
          level (start + count - 1) = false then
        risingEdges level start count ++ [start + count]
      else
        risingEdges level start count := by
  simp only [risingEdges, List.range'_1_concat, List.filter_append,
    List.filter_cons, List.filter_nil]
  split
  · rename_i edge
    have here : start < start + count ∧ level (start + count) = true ∧
        level (start + count - 1) = false := by
      simpa [and_assoc] using edge
    rw [if_pos here]
  · rename_i noEdge
    have elsewhere : ¬ (start < start + count ∧ level (start + count) = true ∧
        level (start + count - 1) = false) := by
      simpa [and_assoc] using noEdge
    rw [if_neg elsewhere, List.append_nil]

theorem lt_of_mem_risingEdges {level : Nat → Bool} {start count edge : Nat}
    (member : edge ∈ risingEdges level start count) : edge < start + count := by
  have inside := List.mem_of_mem_filter member
  exact (List.mem_range'_1.mp inside).2

def consecutive (points : List Nat) : List (Nat × Nat) :=
  points.zip points.tail

/-- A new last point ends the interval that the old last point begins. -/
theorem consecutive_concat (points : List Nat) (last next : Nat) :
    consecutive (points ++ [last] ++ [next]) =
      consecutive (points ++ [last]) ++ [(last, next)] := by
  induction points with
  | nil => rfl
  | cons first points ih =>
      cases points with
      | nil => rfl
      | cons second points =>
          simp only [consecutive, List.cons_append, List.tail_cons, List.zip_cons_cons] at ih ⊢
          rw [ih]

/-- The number of points from `first` up to `stop` with a property. -/
def pointsIn (property : Nat → Bool) (first stop : Nat) : Nat :=
  ((Finset.Ico first stop).filter fun n => property n = true).card

theorem pointsIn_self (property : Nat → Bool) (first : Nat) :
    pointsIn property first first = 0 := by
  simp [pointsIn]

theorem pointsIn_succ (property : Nat → Bool) {first stop : Nat} (le : first ≤ stop) :
    pointsIn property first (stop + 1) =
      pointsIn property first stop + (property stop).toNat := by
  have insert : Finset.Ico first (stop + 1) = insert stop (Finset.Ico first stop) :=
    Nat.Ico_succ_right_eq_insert_Ico le
  simp only [pointsIn, insert, Finset.filter_insert]
  cases property stop with
  | true => simp
  | false => simp

end SigrokDecode.Foundation
