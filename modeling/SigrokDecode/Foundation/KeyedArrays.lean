import Mathlib.Data.List.Nodup
import Mathlib.Data.Finset.Card

/-!
# Arrays searched by a key

An array of entries is searched from the front, extended at its end and closed up where an entry
is taken out. With every key in it once, it is a table.
-/

namespace SigrokDecode.Foundation

open List

universe u v

section KeyedArrays

variable {Entry : Type u} {Key : Type v} (key : Entry → Key)

/-- `index` is the place of the only entry with this key. -/
def EntryAt (entries : List Entry) (wanted : Key) (index : Nat) (entry : Entry) : Prop :=
  ∃ before after, entries = before ++ entry :: after ∧ before.length = index ∧
    key entry = wanted ∧ (∀ other ∈ before, key other ≠ wanted) ∧
    ∀ other ∈ after, key other ≠ wanted

variable {key} {entries : List Entry} {wanted : Key} {index : Nat} {entry : Entry}

theorem entryAt_append (others : ∀ entry ∈ entries, key entry ≠ wanted)
    (here : key entry = wanted) :
    EntryAt key (entries ++ [entry]) wanted entries.length entry :=
  ⟨entries, [], rfl, rfl, here, others, fun _ member => absurd member not_mem_nil⟩

namespace EntryAt

section

variable (place : EntryAt key entries wanted index entry)
include place

theorem key_eq : key entry = wanted := by
  obtain ⟨-, -, -, -, here, -⟩ := place
  exact here

theorem getElem? : entries[index]? = some entry := by
  obtain ⟨before, after, rfl, rfl, -⟩ := place
  simp

theorem set {changed : Entry} (same : key changed = wanted) :
    EntryAt key (entries.set index changed) wanted index changed := by
  obtain ⟨before, after, rfl, rfl, -, first, last⟩ := place
  refine ⟨before, after, ?_, rfl, same, first, last⟩
  simp

theorem map_set {changed : Entry} (same : key changed = wanted) :
    (entries.set index changed).map key = entries.map key := by
  obtain ⟨before, after, rfl, rfl, here, -⟩ := place
  simp [same, here]

end

end EntryAt

variable [DecidableEq Key]

def lookup (key : Entry → Key) (entries : List Entry) (wanted : Key) : Option Entry :=
  entries.find? fun entry => key entry = wanted

theorem lookup_eq_none :
    lookup key entries wanted = none ↔ ∀ entry ∈ entries, key entry ≠ wanted := by
  simp [lookup]

theorem lookup_append_of_ne {before : List Entry} (after : List Entry)
    (others : ∀ entry ∈ before, key entry ≠ wanted) :
    lookup key (before ++ after) wanted = lookup key after wanted := by
  have missing : lookup key before wanted = none := lookup_eq_none.mpr others
  unfold lookup at missing ⊢
  rw [find?_append, missing, Option.none_or]

theorem lookup_cons_self (entry : Entry) (after : List Entry) :
    lookup key (entry :: after) (key entry) = some entry := by
  unfold lookup
  rw [find?_cons_of_pos]
  exact decide_eq_true rfl

theorem lookup_insert_of_ne (before after : List Entry) (other : key entry ≠ wanted) :
    lookup key (before ++ entry :: after) wanted = lookup key (before ++ after) wanted := by
  unfold lookup
  rw [find?_append, find?_append, find?_cons_of_neg]
  rw [decide_eq_true_eq]
  exact other

theorem entryAt_of_findIdx? (distinct : (entries.map key).Nodup)
    (found : entries.findIdx? (fun entry => key entry = wanted) = some index) :
    ∃ entry, EntryAt key entries wanted index entry := by
  obtain ⟨inside, here, before⟩ := findIdx?_eq_some_iff_getElem.mp found
  have cut : entries = entries.take index ++ entries[index] :: entries.drop (index + 1) := by
    rw [cons_getElem_drop_succ, take_append_drop]
  rw [decide_eq_true_eq] at here
  refine ⟨entries[index], entries.take index, entries.drop (index + 1), cut,
    length_take_of_le inside.le, here, ?_, ?_⟩
  · intro other member
    obtain ⟨i, small, rfl⟩ := mem_take_iff_getElem.mp member
    have missed := before i (by omega)
    rw [decide_eq_true_eq] at missed
    exact missed
  · intro other member same
    rw [cut, map_append, map_cons] at distinct
    have once := (nodup_cons.mp (nodup_append.mp distinct).2.1).1
    exact once (here.trans same.symm ▸ mem_map_of_mem member)

namespace EntryAt

theorem lookup (place : EntryAt key entries wanted index entry) :
    lookup key entries wanted = some entry := by
  obtain ⟨before, after, rfl, -, rfl, others, -⟩ := place
  rw [lookup_append_of_ne _ others, lookup_cons_self]

theorem lookup_set_of_ne (place : EntryAt key entries wanted index entry) {changed : Entry}
    (same : key changed = wanted) {other : Key} (differs : other ≠ wanted) :
    Foundation.lookup key (entries.set index changed) other =
      Foundation.lookup key entries other := by
  obtain ⟨before, after, rfl, rfl, here, -⟩ := place
  have changedEntry : key changed ≠ other := fun equal => differs (equal.symm.trans same)
  have oldEntry : key entry ≠ other := fun equal => differs (equal.symm.trans here)
  have stored : (before ++ entry :: after).set before.length changed =
      before ++ changed :: after := by
    simp
  rw [stored, lookup_insert_of_ne _ _ changedEntry, lookup_insert_of_ne _ _ oldEntry]

theorem eraseP (place : EntryAt key entries wanted index entry) :
    Foundation.lookup key (entries.eraseP fun entry => key entry = wanted) wanted = none ∧
      ∀ other ≠ wanted,
        Foundation.lookup key (entries.eraseP fun entry => key entry = wanted) other =
          Foundation.lookup key entries other := by
  obtain ⟨before, after, rfl, rfl, here, first, last⟩ := place
  have closed : (before ++ entry :: after).eraseP (fun entry => key entry = wanted) =
      before ++ after := by
    rw [eraseP_append_right, eraseP_cons_of_pos]
    · exact decide_eq_true here
    · intro other member
      rw [decide_eq_true_eq]
      exact first other member
  rw [closed]
  refine ⟨?_, ?_⟩
  · rw [lookup_eq_none]
    intro other member
    rcases mem_append.mp member with inBefore | inAfter
    · exact first other inBefore
    · exact last other inAfter
  · intro other differs
    rw [lookup_insert_of_ne]
    exact fun equal => differs (equal.symm.trans here)

end EntryAt

theorem length_lt_of_keys {keys : Finset Key} (distinct : (entries.map key).Nodup)
    (known : ∀ entry ∈ entries, key entry ∈ keys) (fresh : wanted ∈ keys)
    (others : ∀ entry ∈ entries, key entry ≠ wanted) : entries.length < keys.card := by
  have longer : (wanted :: entries.map key).Nodup := by
    refine nodup_cons.mpr ⟨?_, distinct⟩
    intro member
    obtain ⟨entry, inside, same⟩ := mem_map.mp member
    exact others entry inside same
  have counted := toFinset_card_of_nodup longer
  have contained : (wanted :: entries.map key).toFinset ⊆ keys := by
    intro candidate member
    rcases mem_cons.mp (mem_toFinset.mp member) with rfl | inside
    · exact fresh
    · obtain ⟨entry, stored, rfl⟩ := mem_map.mp inside
      exact known entry stored
  have bounded := Finset.card_le_card contained
  rw [counted, length_cons, length_map] at bounded
  exact bounded

end KeyedArrays

end SigrokDecode.Foundation
