import Mathlib.Data.List.Range
import Mathlib.Logic.Function.Basic

/-!
# Buffers that are filled and handed over

An array is filled from its first slot on; what its first `count` slots hold is
handed over at once, and the array is filled again.
-/

namespace SigrokDecode.Foundation

open List

/-- An array and the number of its slots that are in use. -/
structure FillBuffer (Item : Type) where
  slot : Nat → Item
  count : Nat

namespace FillBuffer

variable {Item : Type}

def contents (buffer : FillBuffer Item) : List Item :=
  (List.range buffer.count).map buffer.slot

def push (buffer : FillBuffer Item) (item : Item) : FillBuffer Item :=
  { slot := Function.update buffer.slot buffer.count item
    count := buffer.count + 1 }

def clear (buffer : FillBuffer Item) : FillBuffer Item :=
  { buffer with count := 0 }

@[simp]
theorem contents_clear (buffer : FillBuffer Item) : buffer.clear.contents = [] := rfl

variable {buffer : FillBuffer Item}

theorem contents_empty (empty : buffer.count = 0) : buffer.contents = [] := by
  unfold contents
  rw [empty]
  rfl

theorem contents_push (buffer : FillBuffer Item) (item : Item) :
    (buffer.push item).contents = buffer.contents ++ [item] := by
  have before : (range buffer.count).map (buffer.push item).slot = buffer.contents := by
    apply map_congr_left
    intro i inside
    exact Function.update_of_ne (mem_range.mp inside).ne _ _
  have here : (buffer.push item).slot buffer.count = item := Function.update_self _ _ _
  have more : (buffer.push item).contents =
      (range (buffer.count + 1)).map (buffer.push item).slot := rfl
  rw [more, range_succ, map_append, before, map_singleton, here]

theorem head?_contents (used : 0 < buffer.count) :
    buffer.contents.head? = some (buffer.slot 0) := by
  obtain ⟨more, count⟩ : ∃ more, buffer.count = more + 1 := ⟨buffer.count - 1, by omega⟩
  unfold contents
  rw [count, range_succ_eq_map]
  rfl

theorem getLast?_contents (used : 0 < buffer.count) :
    buffer.contents.getLast? = some (buffer.slot (buffer.count - 1)) := by
  obtain ⟨more, count⟩ : ∃ more, buffer.count = more + 1 := ⟨buffer.count - 1, by omega⟩
  unfold contents
  rw [count, range_succ, map_append]
  exact getLast?_concat

end FillBuffer

theorem pairwise_bounds {Item : Type} {before : Item → Item → Prop}
    (reflexive : ∀ item, before item item) {items : List Item} (ordered : items.Pairwise before)
    {first last : Item} (head : items.head? = some first) (final : items.getLast? = some last) :
    ∀ item ∈ items, before first item ∧ before item last := by
  obtain ⟨later, rfl⟩ := head?_eq_some_iff.mp head
  intro item member
  constructor
  · rcases mem_cons.mp member with rfl | behind
    · exact reflexive _
    · exact (pairwise_cons.mp ordered).1 item behind
  · obtain ⟨earlier, shape⟩ := getLast?_eq_some_iff.mp final
    rw [shape] at member ordered
    rcases mem_append.mp member with front | same
    · exact (pairwise_append.mp ordered).2.2 item front last mem_cons_self
    · rw [mem_singleton.mp same]
      exact reflexive _

end SigrokDecode.Foundation
