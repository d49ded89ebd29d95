import Mathlib.Data.List.Basic

/-!
# Items in groups

A list is cut into groups of one size; what is left over does not make a group.
-/

namespace SigrokDecode.Foundation

open List

variable {Item : Type}

/-- Group number `k` has the items from `k * size` on. -/
def completeGroups (size : Nat) (items : List Item) : List (List Item) :=
  (List.range (items.length / size)).map fun k => (items.drop (k * size)).take size

/-- What is left over. -/
def lastGroup (size : Nat) (items : List Item) : List Item :=
  items.drop (items.length / size * size)

theorem completeGroups_nil (size : Nat) : completeGroups size ([] : List Item) = [] := by
  unfold completeGroups
  rw [length_nil, Nat.zero_div]
  rfl

theorem lastGroup_nil (size : Nat) : lastGroup size ([] : List Item) = [] := drop_nil

theorem length_lastGroup (size : Nat) (items : List Item) :
    (lastGroup size items).length = items.length % size := by
  unfold lastGroup
  rw [length_drop, Nat.mod_eq_sub_div_mul]

theorem take_drop_append {size k : Nat} {front : List Item}
    (inside : k < front.length / size) (back : List Item) :
    ((front ++ back).drop (k * size)).take size = (front.drop (k * size)).take size := by
  have early : (k + 1) * size ≤ front.length :=
    Nat.le_trans (Nat.mul_le_mul_right size inside) (Nat.div_mul_le_self _ _)
  rw [Nat.succ_mul] at early
  rw [drop_append_of_le_length (by omega), take_append_of_le_length]
  rw [length_drop]
  omega

section Concat

variable {size : Nat} {items : List Item}

theorem div_concat_early (positive : 0 < size) (room : (lastGroup size items).length + 1 ≠ size) :
    (items.length + 1) / size = items.length / size := by
  rw [length_lastGroup] at room
  have less := Nat.mod_lt items.length positive
  have total := Nat.div_add_mod items.length size
  apply Nat.div_eq_of_lt_le
  · rw [Nat.mul_comm]
    omega
  · rw [Nat.succ_mul, Nat.mul_comm]
    omega

theorem div_concat_full (full : (lastGroup size items).length + 1 = size) :
    (items.length + 1) / size = items.length / size + 1 ∧
      (items.length + 1) = (items.length / size + 1) * size := by
  rw [length_lastGroup] at full
  have total := Nat.div_add_mod items.length size
  have whole : items.length + 1 = (items.length / size + 1) * size := by
    rw [Nat.succ_mul, Nat.mul_comm]
    omega
  exact ⟨Nat.div_eq_of_eq_mul_left (by omega) whole, whole⟩

theorem groups_concat_early (positive : 0 < size)
    (room : (lastGroup size items).length + 1 ≠ size) (item : Item) :
    completeGroups size (items ++ [item]) = completeGroups size items ∧
      lastGroup size (items ++ [item]) = lastGroup size items ++ [item] := by
  have count : (items ++ [item]).length / size = items.length / size := by
    rw [length_append, length_singleton]
    exact div_concat_early positive room
  constructor
  · unfold completeGroups
    rw [count]
    exact map_congr_left fun k inside => take_drop_append (mem_range.mp inside) _
  · unfold lastGroup
    rw [count, drop_append_of_le_length (Nat.div_mul_le_self _ _)]

theorem groups_concat_full (full : (lastGroup size items).length + 1 = size) (item : Item) :
    completeGroups size (items ++ [item]) =
        completeGroups size items ++ [lastGroup size items ++ [item]] ∧
      lastGroup size (items ++ [item]) = [] := by
  obtain ⟨count, whole⟩ := div_concat_full full
  have length : (items ++ [item]).length = items.length + 1 := length_append
  constructor
  · unfold completeGroups
    rw [length, count, range_succ, map_append, map_singleton]
    congr 1
    · exact map_congr_left fun k inside => take_drop_append (mem_range.mp inside) _
    · have last : (lastGroup size items ++ [item]).length = size := by
        rw [length_append, length_singleton, full]
      rw [drop_append_of_le_length (Nat.div_mul_le_self _ _)]
      exact congrArg (fun group => [group]) (take_of_length_le (Nat.le_of_eq last))
  · unfold lastGroup
    rw [length, count, ← whole, ← length, drop_length]

end Concat

end SigrokDecode.Foundation
