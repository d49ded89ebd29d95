import SigrokDecode.AnnBatch.LegacyAgreement

/-!
# The array of texts

The strings of an annotation's list are first put into an array with room for ten pointers,
then the converted ones into an array of their own with a null pointer behind the last.
-/

namespace SigrokDecode

open Foundation List

/-- A write at an index of an array; `kept` entries behind it are for the terminator. -/
structure ArrayWrite where
  index : Nat
  capacity : Nat
  kept : Nat
  deriving DecidableEq

def ArrayWrite.InBounds (write : ArrayWrite) : Prop :=
  write.index + write.kept < write.capacity

instance (write : ArrayWrite) : Decidable write.InBounds :=
  inferInstanceAs (Decidable (_ < _))

/-- `text_items[text_num] = py_tmp`, in the loop over the elements of the list. -/
def textItemWrites (textNum : Nat) : List PyObject → List ArrayWrite
  | [] => []
  | .str _ :: rest => ⟨textNum, 10, 0⟩ :: textItemWrites (textNum + 1) rest
  | _ :: rest => textItemWrites textNum rest

/-- `strv[i] = str`, in the loop over the texts; one that has no bytes ends it. -/
def strvWrites (textNum i : Nat) : List (Option (List UInt8)) → List ArrayWrite
  | [] => []
  | none :: _ => []
  | some _ :: rest => ⟨i, textNum + 1, 1⟩ :: strvWrites textNum (i + 1) rest

/-- All writes of `py_parse_ann_data`. -/
def pyParseAnnDataWrites (listObj : List PyObject) : List ArrayWrite :=
  textItemWrites 0 listObj ++
    match collectItems ⟨[], none⟩ listObj with
    | none => []
    | some items => strvWrites items.texts.length 0 items.texts

/-- All writes of `py_put_ann_batch`, which stores the terminator itself. -/
def pyPutAnnBatchWrites (listObj : List PyObject) : List ArrayWrite :=
  textItemWrites 0 listObj ++
    match collectItems ⟨[], none⟩ listObj with
    | none => []
    | some items =>
        strvWrites items.texts.length 0 items.texts ++
          if 0 < items.texts.length ∧ items.texts.all Option.isSome then
            [⟨items.texts.length, items.texts.length + 1, 0⟩]
          else []

/-- All writes behind a call of `convert_annotation`. -/
def convertAnnotationWrites (di : PythonInst) (put : PythonPut) : List ArrayWrite :=
  (put.checkedItems di).elim [] pyParseAnnDataWrites

/-- All writes behind a call of `py_put_ann_batch`. -/
def putAnnBatchWrites (di : PythonInst) (put : PythonPut) : List ArrayWrite :=
  (put.checkedItems di).elim [] pyPutAnnBatchWrites

theorem textItemWrites_inBounds {textNum : Nat} (start : textNum ≤ 10) (objs : List PyObject) :
    (∀ write ∈ textItemWrites textNum objs, write.InBounds) ↔
      textNum + objs.countP PyObject.isStr ≤ 10 := by
  induction objs generalizing textNum with
  | nil => exact iff_of_true (fun write member => absurd member not_mem_nil) start
  | cons obj objs ih =>
      cases obj with
      | str utf8 =>
          rw [countP_cons_of_pos rfl, textItemWrites, forall_mem_cons]
          by_cases room : textNum < 10
          · rw [ih room]
            have inside : ArrayWrite.InBounds ⟨textNum, 10, 0⟩ := room
            constructor
            · rintro ⟨-, few⟩
              omega
            · intro few
              exact ⟨inside, by omega⟩
          · refine iff_of_false (fun both => room both.1) ?_
            omega
      | _ =>
          rw [countP_cons_of_neg Bool.false_ne_true]
          exact ih start

theorem isSome_collectItems (items : AnnItems) (objs : List PyObject) :
    (collectItems items objs).isSome ↔
      ∀ write ∈ textItemWrites items.texts.length objs, write.InBounds := by
  induction objs generalizing items with
  | nil => exact iff_of_true rfl fun write member => absurd member not_mem_nil
  | cons obj objs ih =>
      cases obj with
      | str utf8 =>
          rw [collectItems, textItemWrites, forall_mem_cons]
          by_cases room : items.texts.length < 10
          · rw [if_pos room, ih, length_append, length_singleton]
            exact (and_iff_right room).symm
          · rw [if_neg room]
            exact iff_of_false Bool.false_ne_true fun both => room both.1
      | _ => exact ih _

theorem strvWrites_inBounds {textNum i : Nat} {texts : List (Option (List UInt8))}
    (room : i + texts.length ≤ textNum) :
    ∀ write ∈ strvWrites textNum i texts, write.InBounds := by
  induction texts generalizing i with
  | nil => exact fun write member => absurd member not_mem_nil
  | cons text texts ih =>
      rw [length_cons] at room
      cases text with
      | none => exact fun write member => absurd member not_mem_nil
      | some utf8 =>
          rw [strvWrites, forall_mem_cons]
          refine ⟨?_, ih (by omega)⟩
          show i + 1 < textNum + 1
          omega

theorem pyParseAnnDataWrites_inBounds (objs : List PyObject) :
    (∀ write ∈ pyParseAnnDataWrites objs, write.InBounds) ↔
      objs.countP PyObject.isStr ≤ 10 := by
  rw [pyParseAnnDataWrites, forall_mem_append, textItemWrites_inBounds (Nat.zero_le 10),
    Nat.zero_add, and_iff_left]
  cases collectItems ⟨[], none⟩ objs with
  | none => exact fun write member => absurd member not_mem_nil
  | some items => exact strvWrites_inBounds (Nat.zero_add _).le

theorem pyPutAnnBatchWrites_inBounds (objs : List PyObject) :
    (∀ write ∈ pyPutAnnBatchWrites objs, write.InBounds) ↔
      objs.countP PyObject.isStr ≤ 10 := by
  rw [pyPutAnnBatchWrites, forall_mem_append, textItemWrites_inBounds (Nat.zero_le 10),
    Nat.zero_add, and_iff_left]
  cases collectItems ⟨[], none⟩ objs with
  | none => exact fun write member => absurd member not_mem_nil
  | some items =>
      rw [forall_mem_append]
      refine ⟨strvWrites_inBounds (Nat.zero_add _).le, ?_⟩
      split
      · rw [forall_mem_singleton]
        exact Nat.lt_succ_self _
      · exact fun write member => absurd member not_mem_nil

/-- On either path all writes stay in their arrays exactly for lists of at most ten strings. -/
theorem textItems_inBounds_iff (di : PythonInst) (put : PythonPut) {items : List PyObject}
    (checked : put.checkedItems di = some items) :
    ((∀ write ∈ convertAnnotationWrites di put, write.InBounds) ↔
        items.countP PyObject.isStr ≤ 10) ∧
      ((∀ write ∈ putAnnBatchWrites di put, write.InBounds) ↔
        items.countP PyObject.isStr ≤ 10) := by
  rw [convertAnnotationWrites, putAnnBatchWrites, checked, Option.elim_some, Option.elim_some]
  exact ⟨pyParseAnnDataWrites_inBounds items, pyPutAnnBatchWrites_inBounds items⟩

/-- A list of `count` strings for the first class of annotations. -/
def putOfTexts (count : Nat) : PythonPut where
  startSample := 0
  endSample := 1
  obj := .list [.int 0, .list (List.replicate count (.str (some [65])))]
  pdaStack := Vector.replicate _ 0
  batchStack := Vector.replicate _ 0

theorem textItems_inBounds_iff_two :
    ((∀ write ∈ convertAnnotationWrites ⟨0, [0]⟩ (putOfTexts 2), write.InBounds) ↔
        (List.replicate 2 (PyObject.str (some [65]))).countP PyObject.isStr ≤ 10) ∧
      ((∀ write ∈ putAnnBatchWrites ⟨0, [0]⟩ (putOfTexts 2), write.InBounds) ↔
        (List.replicate 2 (PyObject.str (some [65]))).countP PyObject.isStr ≤ 10) :=
  textItems_inBounds_iff ⟨0, [0]⟩ (putOfTexts 2) rfl

/-- The list of eleven strings passes the checks, and the eleventh is written behind the end. -/
theorem textItems_eleventh : (PythonPut.checkedItems ⟨0, [0]⟩ (putOfTexts 11)).isSome ∧
      ⟨10, 10, 0⟩ ∈ convertAnnotationWrites ⟨0, [0]⟩ (putOfTexts 11) ∧
      ⟨10, 10, 0⟩ ∈ putAnnBatchWrites ⟨0, [0]⟩ (putOfTexts 11) ∧
      ¬ArrayWrite.InBounds ⟨10, 10, 0⟩ := by
  have checked : PythonPut.checkedItems ⟨0, [0]⟩ (putOfTexts 11) =
      some (replicate 11 (.str (some [65]))) := rfl
  refine ⟨rfl, ?_, ?_, by decide⟩
  · rw [convertAnnotationWrites, checked, Option.elim_some]
    decide
  · rw [putAnnBatchWrites, checked, Option.elim_some]
    decide

end SigrokDecode
