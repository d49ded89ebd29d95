import Mathlib.Algebra.BigOperators.Group.List.Basic
import Mathlib.Algebra.Group.Basic
import Mathlib.Logic.Function.Basic

/-!
# Sums over a sliding window

The last items of a sequence stand in the slots of a ring.  A new item takes the slot of the one
that leaves the window, and the sum over the window is kept by two corrections.
-/

namespace SigrokDecode.Foundation

open List

/-- The last `width` items, or all of them if there are fewer. -/
def lastItems {Item : Type} (width : Nat) (items : List Item) : List Item :=
  items.drop (items.length - width)

section Window

variable {Item : Type} {width : Nat} {items : List Item}

theorem length_lastItems : (lastItems width items).length = min items.length width := by
  unfold lastItems
  rw [length_drop]
  omega

theorem lastItems_all (few : items.length ≤ width) : lastItems width items = items := by
  unfold lastItems
  rw [Nat.sub_eq_zero_of_le few]
  rfl

theorem lastItems_one (item : Item) : lastItems 1 (items ++ [item]) = [item] := by
  unfold lastItems
  rw [length_append]
  exact drop_left

theorem lastItems_concat (some : 0 < width) (full : width ≤ items.length) (item : Item) :
    items[items.length - width] :: lastItems width (items ++ [item]) =
      lastItems width items ++ [item] := by
  unfold lastItems
  have later : (items ++ [item]).length - width = items.length - width + 1 := by
    rw [length_append, length_singleton]
    omega
  have inside : items.length - width < items.length := by omega
  rw [later, drop_append_of_le_length (by omega), ← cons_append,
    getElem_cons_drop inside]

end Window

def RingHolds {Item : Type} (width : Nat) (slot : Nat → Item) (items : List Item) : Prop :=
  ∀ i (inside : i < items.length), items.length ≤ i + width → slot (i % width) = items[i]

namespace RingHolds

variable {Item : Type} {width : Nat} {slot : Nat → Item} {items : List Item}

theorem nil (width : Nat) (slot : Nat → Item) : RingHolds width slot [] :=
  fun _ inside => absurd inside (Nat.not_lt_zero _)

theorem oldest (holds : RingHolds width slot items) (some : 0 < width)
    (full : width ≤ items.length) :
    slot (items.length % width) = items[items.length - width] := by
  rw [Nat.mod_eq_sub_mod full]
  exact holds _ _ (by omega)

theorem concat (holds : RingHolds width slot items) (item : Item) :
    RingHolds width (Function.update slot (items.length % width) item) (items ++ [item]) := by
  intro i inside recent
  rw [length_append, length_singleton] at inside recent
  rcases Nat.lt_or_eq_of_le (Nat.le_of_lt_succ inside) with before | rfl
  · have apart : i % width ≠ items.length % width := by
      intro same
      have gap := Nat.sub_mod_eq_zero_of_mod_eq same.symm
      rw [Nat.mod_eq_of_lt (by omega)] at gap
      omega
    rw [Function.update_of_ne apart, getElem_append_left before]
    exact holds i before (by omega)
  · rw [Function.update_self, getElem_concat_length rfl]

end RingHolds

theorem sum_lastItems_concat {Item : Type} [AddCommGroup Item] {width : Nat} {items : List Item}
    (some : 0 < width) (full : width ≤ items.length) (item : Item) :
    (lastItems width (items ++ [item])).sum =
      (lastItems width items).sum - items[items.length - width] + item := by
  have window := congrArg List.sum (lastItems_concat some full item)
  rw [sum_cons, sum_append, sum_singleton] at window
  rw [sub_add_eq_add_sub, ← window, add_sub_cancel_left]

end SigrokDecode.Foundation
