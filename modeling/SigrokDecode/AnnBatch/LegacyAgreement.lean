import Mathlib.Data.List.GetD
import SigrokDecode.AnnBatch.PythonPut

/-!
# Both paths deliver the same

Whatever a Python decoder puts, `py_put_ann_batch` accepts it when `convert_annotation` does, and
the host reads from the batch what the callback of the session would have been given.
-/

set_option linter.dupNamespace false

namespace SigrokDecode

open Foundation List Option

theorem cString_append_zero (text behind : List UInt8) :
    cString (text ++ 0 :: behind) = cString text := by
  induction text with
  | nil => rfl
  | cons c text ih =>
      rw [cString] at ih
      rw [cString, cString, cons_append, takeWhile_cons, takeWhile_cons, ih]
      rfl

variable {size : Nat}

theorem getElem?_strcpy (buffer) (text : List UInt8) {i : Nat} (inside : i < size) :
    (@strcpy size buffer text).toList[i]? =
      some (if i < text.length then text.getD i 0
        else if i = text.length then 0 else buffer[i]) := by
  have bound : i < (strcpy buffer text).toList.length := by
    rw [Vector.length_toList]
    exact inside
  rw [getElem?_eq_getElem bound, Vector.getElem_toList]
  unfold strcpy
  rw [Vector.getElem_ofFn]
  rfl

theorem bufferString_strcpy (buffer) (text : List UInt8) :
    bufferString (@strcpy size buffer text) = cString (text.take size) := by
  by_cases short : text.length < size
  · have shape : (strcpy buffer text).toList =
        text ++ 0 :: buffer.toList.drop (text.length + 1) := by
      apply ext_getElem?
      intro i
      by_cases inside : i < size
      · rw [getElem?_strcpy buffer text inside, getElem?_append]
        by_cases before : i < text.length
        · rw [if_pos before, if_pos before, getElem?_eq_getElem before, getD_eq_getElem _ _ before]
        · rw [if_neg before, if_neg before, getElem?_cons]
          by_cases last : i = text.length
          · rw [if_pos last, if_pos (by omega)]
          · rw [if_neg last, if_neg (by omega), getElem?_drop,
              show text.length + 1 + (i - text.length - 1) = i by omega,
              getElem?_eq_getElem (by rw [Vector.length_toList]; exact inside),
              Vector.getElem_toList]
      · rw [getElem?_eq_none (by rw [Vector.length_toList]; omega),
          getElem?_eq_none (by
            rw [length_append, length_cons, length_drop, Vector.length_toList]
            omega)]
    rw [bufferString, shape, cString_append_zero, take_of_length_le (Nat.le_of_lt short)]
  · have shape : (strcpy buffer text).toList = text.take size := by
      apply ext_getElem?
      intro i
      by_cases inside : i < size
      · have before : i < text.length := by omega
        rw [getElem?_strcpy buffer text inside, if_pos before, getElem?_take_of_lt inside,
          getElem?_eq_getElem before, getD_eq_getElem _ _ before]
      · rw [getElem?_eq_none (by rw [Vector.length_toList]; omega),
          getElem?_eq_none (by rw [length_take]; omega)]
    rw [bufferString, shape]

theorem bufferString_strcpy_congr (first second) (text : List UInt8) :
    bufferString (@strcpy size first text) = bufferString (@strcpy size second text) := by
  rw [bufferString_strcpy, bufferString_strcpy]

namespace AnnArena

variable {arena : AnnArena}

theorem Duplicated.shorten
    {copied : AnnArena} {str : Ptr} {bytes shorter : List UInt8}
    (duplicated : Duplicated arena copied str bytes) (fits : shorter.length ≤ bytes.length) :
    Duplicated arena (copied.write str (stringCells shorter)) str shorter := by
  obtain ⟨size, granted, short, -⟩ := duplicated.region
  have member : ⟨str.block, str.offset, size⟩ ∈ copied.granted := by
    rw [granted]
    exact mem_cons_self
  have inside : ∀ i, i < (stringCells shorter).length →
      Region.Contains ⟨str.block, str.offset, size⟩ (str.add i) := by
    intro i bound
    rw [stringCells_length] at bound
    exact Region.contains_add (by omega)
  have apart := duplicated.inv.disjoint
  rw [granted] at apart
  refine ⟨write_inv duplicated.inv _ _, ⟨duplicated.grows.granted, ?_⟩, size, granted, by omega,
    write_holds duplicated.inv member inside⟩
  intro region older ptr inRegion
  refine Eq.trans ?_ (duplicated.grows.view region older ptr inRegion)
  apply write_view_outside inside
  intro inNew
  exact (pairwise_cons.mp apart).1 region older ptr inNew inRegion

theorem putText_spec (inv : arena.Inv) (hex : HexBuffer) (text : CText) :
    Duplicated arena (putText arena hex text).2.1 (putText arena hex text).1
        (takeText hex text).1.bytes ∧
      (putText arena hex text).2.2 = (takeText hex text).2 := by
  have duplicated := srdAnnArenaStrdup_duplicated inv text.bytes
  unfold putText takeText
  generalize arena.srdAnnArenaStrdup text.bytes = copied at *
  obtain ⟨str, copied⟩ := copied
  simp only at duplicated ⊢
  by_cases marked : text.bytes.head? = some 64
  · rw [if_pos marked, if_pos marked]
    by_cases taken : 0 < text.bytes.length - 1 ∧ text.bytes.length - 1 < 256
    · rw [if_pos taken, if_pos taken]
      refine ⟨duplicated.shorten ?_, rfl⟩
      have one : [(10 : UInt8)].length ≤ text.bytes.length - 1 := taken.1
      omega
    · rw [if_neg taken, if_neg taken]
      by_cases long : 0 < text.bytes.length - 1
      · rw [if_pos long, if_pos long]
        refine ⟨duplicated.shorten ?_, rfl⟩
        exact (length_tail (l := text.bytes)).trans_le (Nat.sub_le _ _)
      · rw [if_neg long, if_neg long]
        exact ⟨duplicated, rfl⟩
  · rw [if_neg marked, if_neg marked]
    exact ⟨duplicated, rfl⟩

/-- What the loop leaves in the arena, and what is behind it where all texts can be encoded. -/
structure TextsPut (arena after : AnnArena) (strv : Ptr) (length i : Nat)
    (hex : Option HexBuffer) (taken : Option (List CText × HexBuffer)) : Prop where
  filled : ArrayFilled arena after strv length i
  hex : hex = taken.map Prod.snd
  stored : ∀ texts buffer, taken = some (texts, buffer) → ∃ strs,
    MemoryView.Holds after.view (strv.add (8 * i)) (pointersCells strs) ∧
      List.Forall₂ (fun str (text : CText) => StoredString after str text.bytes) strs texts

theorem putTexts_put {strv : Ptr} {length i : Nat} {texts : List (Option (List UInt8))}
    (inv : arena.Inv) (member : ⟨strv.block, strv.offset, length⟩ ∈ arena.granted)
    (room : 8 * (i + texts.length + 1) ≤ length) (hex : HexBuffer) :
    TextsPut arena (putTexts arena strv hex i texts).1 strv length i
      (putTexts arena strv hex i texts).2 (takeTexts hex texts) := by
  induction texts generalizing arena i hex with
  | nil =>
      refine ⟨ArrayFilled.last inv room, rfl, fun texts buffer taken => ?_⟩
      obtain ⟨rfl, rfl⟩ := Prod.mk.inj (Option.some.inj taken)
      exact ⟨[], write_holds inv member (array_contains_entry room none), .nil⟩
  | cons text texts ih =>
      rw [length_cons] at room
      cases text with
      | none =>
          refine ⟨⟨inv, fun _ granted => granted, fun _ _ _ _ _ => rfl, fun _ _ => rfl⟩, rfl, nofun⟩
      | some utf8 =>
          obtain ⟨duplicated, buffer⟩ := putText_spec inv hex (utf8Text utf8)
          rw [putTexts, takeTexts]
          generalize putText arena hex (utf8Text utf8) = copied at *
          obtain ⟨str, copied, copiedHex⟩ := copied
          simp only at duplicated buffer ⊢
          have rest := ih (write_inv duplicated.inv (strv.add (8 * i)) (pointerCells (some str)))
            (duplicated.grows.granted _ member) (i := i + 1) (by omega) copiedHex
          rw [buffer] at rest ⊢
          obtain ⟨filled, stored, entry⟩ := ArrayFilled.entry member (by omega) duplicated
            rest.filled
          refine ⟨filled, ?_, ?_⟩
          · rw [rest.hex, Option.map_map]
            rfl
          · intro all last taken
            obtain ⟨⟨strs, lastHex⟩, behind, same⟩ := map_eq_some_iff.mp taken
            obtain ⟨rfl, rfl⟩ := Prod.mk.inj same
            obtain ⟨ptrs, holds, strings⟩ := rest.stored strs lastHex behind
            refine ⟨str :: ptrs, ?_, .cons stored strings⟩
            rw [pointersCells_cons, MemoryView.holds_append, pointerCells_length, Ptr.add_add]
            exact ⟨entry, holds⟩

end AnnArena

/-- What a callback sees of an annotation. -/
structure AnnotationContent where
  startSample : UInt64
  endSample : UInt64
  decoder : Option Nat
  annClass : Int32
  annType : Int32
  texts : List (List UInt8)
  strNumberHex : List UInt8
  numbericValue : Int64

def Annotation.content ( annotation : Annotation) : AnnotationContent :=
  { startSample := annotation.startSample
    endSample := annotation.endSample
    decoder := annotation.decoder
    annClass := annotation.annClass
    annType := annotation.annType
    texts := annotation.texts
    strNumberHex := bufferString annotation.strNumberHex
    numbericValue := annotation.numbericValue }

/-- The contents of what `convert_annotation` hands to the callback. -/
def ProtoDataAnnotation.content (di : PythonInst) (put : PythonPut)
    (pda : ProtoDataAnnotation) : AnnotationContent :=
  { startSample := put.startSample
    endSample := put.endSample
    decoder := some di.decoder
    annClass := pda.annClass
    annType := pda.annType
    texts := (pda.annText.getD []).map CText.bytes
    strNumberHex := bufferString pda.strNumberHex
    numbericValue := pda.numbericValue }

def SrdAnnBatchState.contents (state : SrdAnnBatchState) : List (Option AnnotationContent) :=
  (state.delivered.flatten ++ state.pending).map (Option.map Annotation.content)

def PythonPut.textCount (put : PythonPut) : Nat :=
  match put.obj with
  | .list [_, .list items] => items.countP PyObject.isStr
  | _ => 0

/-- The second element of the list that `put` is given, where it passes the checks that
`convert_annotation` and `py_put_ann_batch` make. -/
def PythonPut.checkedItems (di : PythonInst) (put : PythonPut) : Option (List PyObject) :=
  match put.obj with
  | .list [.int value, .list items] =>
      let annClass := (pyLongAsLong value).toInt32
      if annClass.toInt ≥ di.annTypes.length ∨ annClass.toInt < 0 then none
      else if items.length = 0 then none
      else some items
  | _ => none

def runBatch (di : PythonInst) (state : SrdAnnBatchState) : List PythonPut → Option SrdAnnBatchState
  | [] => some state
  | put :: puts => (pyPutAnnBatch di put state).bind fun (state, _) => runBatch di state puts

def runWrapper (di : PythonInst) (state : SrdAnnBatchState) :
    List PythonPut → Option SrdAnnBatchState
  | [] => some state
  | put :: puts =>
      ( convertAnnotation di put).bind fun converted =>
        match converted with
        | none => runWrapper di state puts
        | some pda =>
            (srdAnnBatchCallbackWrapper di put pda state).bind fun state =>
              runWrapper di state puts

def legacyContents (di : PythonInst) (puts : List PythonPut) : List AnnotationContent :=
  puts.filterMap fun put => ( convertAnnotation di put).join.map ( ProtoDataAnnotation.content di put)

theorem takeTexts_congr {first second : HexBuffer}
    (same : bufferString first = bufferString second) (texts : List (Option (List UInt8))) :
    (takeTexts first texts).map (fun taken => (taken.1, bufferString taken.2)) =
      (takeTexts second texts).map fun taken => (taken.1, bufferString taken.2) := by
  induction texts generalizing first second with
  | nil => exact congrArg (fun string => some ([], string)) same
  | cons text texts ih =>
      cases text with
      | none => rfl
      | some utf8 =>
          have step : (takeText first (utf8Text utf8)).1 = (takeText second (utf8Text utf8)).1 ∧
              bufferString (takeText first (utf8Text utf8)).2 =
                bufferString (takeText second (utf8Text utf8)).2 := by
            unfold takeText
            split
            · dsimp only
              split
              · exact ⟨rfl, bufferString_strcpy_congr _ _ _⟩
              · split <;> exact ⟨rfl, same⟩
            · exact ⟨rfl, same⟩
          have rest := ih step.2
          rw [takeTexts, takeTexts]
          dsimp only
          rw [Option.map_map, Option.map_map]
          have cons := congrArg (Option.map fun taken : List CText × List UInt8 =>
            ((takeText second (utf8Text utf8)).1 :: taken.1, taken.2)) rest
          rw [Option.map_map, Option.map_map] at cons
          rw [step.1]
          exact cons

theorem length_takeTexts {hex buffer : HexBuffer} {texts : List (Option (List UInt8))}
    {strv : List CText} (taken : takeTexts hex texts = some (strv, buffer)) :
    strv.length = texts.length := by
  induction texts generalizing hex strv with
  | nil =>
      obtain ⟨rfl, -⟩ := Prod.mk.inj (Option.some.inj taken)
      rfl
  | cons text texts ih =>
      cases text with
      | none => exact absurd taken nofun
      | some utf8 =>
          obtain ⟨⟨rest, last⟩, behind, same⟩ := map_eq_some_iff.mp taken
          obtain ⟨rfl, rfl⟩ := Prod.mk.inj same
          rw [length_cons, length_cons, ih behind]

theorem collectItems_isSome {objs : List PyObject} {items : AnnItems}
    (few : items.texts.length + objs.countP PyObject.isStr ≤ 10) :
    (collectItems items objs).isSome := by
  induction objs generalizing items with
  | nil => rfl
  | cons obj objs ih =>
      cases obj with
      | str utf8 =>
          rw [countP_cons_of_pos rfl] at few
          rw [collectItems, if_pos (by omega)]
          apply ih
          rw [length_append, length_singleton]
          omega
      | int value =>
          rw [countP_cons_of_neg Bool.false_ne_true] at few
          exact ih few
      | list inner =>
          rw [countP_cons_of_neg Bool.false_ne_true] at few
          exact ih few
      | tuple inner =>
          rw [countP_cons_of_neg Bool.false_ne_true] at few
          exact ih few
      | other =>
          rw [countP_cons_of_neg Bool.false_ne_true] at few
          exact ih few

theorem takeNumber_congr (first second : HexBuffer) (number : Option Int) :
    bufferString (takeNumber (emptyHex first) 0 number).1 =
        bufferString (takeNumber (emptyHex second) 0 number).1 ∧
      (takeNumber (emptyHex first) 0 number).2 = (takeNumber (emptyHex second) 0 number).2 := by
  cases number with
  | none =>
      rw [takeNumber, takeNumber, emptyHex, emptyHex]
      exact ⟨bufferString_strcpy_congr first second [], rfl⟩
  | some value =>
      rw [takeNumber, takeNumber]
      exact ⟨bufferString_strcpy_congr _ _ _, rfl⟩

open SrdAnnBatchState AnnArena

variable {done : List AnnotationFields} {state : SrdAnnBatchState}

/-- What `py_put_ann_batch` accepts, the other path accepts with the same contents. -/
theorem putItems_spec
    (inv : SrdAnnBatchState.Inv srdAnnBatchMax state done) (di : PythonInst) (put : PythonPut)
    (annClass annType : Int32) (items : AnnItems) :
    ∃ added, SrdAnnBatchState.Inv srdAnnBatchMax
        (putItems di put annClass annType items state).1 (done ++ added) ∧
      added.map (fun fields => fields.annotation.content) =
        (((parseItems (emptyHex put.pdaStack) 0 items).map
          ( ParsedAnnData.annotation annClass annType)).map
            ( ProtoDataAnnotation.content di put)).toList := by
  unfold putItems parseItems
  by_cases empty : items.number = none ∧ items.texts.length = 0
  · rw [if_pos empty, if_pos empty]
    exact ⟨[], (List.append_nil done).symm ▸ inv, rfl⟩
  · rw [if_neg empty, if_neg empty]
    obtain ⟨sameHex, sameNumber⟩ := takeNumber_congr put.batchStack put.pdaStack items.number
    generalize takeNumber (emptyHex put.batchStack) 0 items.number = number at *
    generalize takeNumber (emptyHex put.pdaStack) 0 items.number = other at *
    obtain ⟨hex, numbericValue⟩ := number
    obtain ⟨otherHex, otherValue⟩ := other
    dsimp only at sameHex sameNumber ⊢
    subst sameNumber
    by_cases textless : items.texts.length = 0
    · rw [if_neg (by omega), if_pos textless]
      refine ⟨[⟨put.startSample, put.endSample, annClass, annType, some di.decoder, none,
        some hex, numbericValue⟩], appendItem_inv inv ⟨rfl, rfl⟩, ?_⟩
      exact congrArg (fun string => [AnnotationContent.mk _ _ _ _ _ [] string _]) sameHex
    · rw [if_pos (Nat.pos_of_ne_zero textless), if_neg textless]
      have enough := alignedSize_ge ((items.texts.length + 1) * 8)
      have member := alloc_member inv.arena ((items.texts.length + 1) * 8)
      have texts := putTexts_put
        (srdAnnArenaAlloc_inv inv.arena ((items.texts.length + 1) * 8)) member
        (show 8 * (0 + items.texts.length + 1) ≤ _ by omega) hex
      have grows := ArrayFilled.grows inv.arena texts.filled
      have taken := takeTexts_congr sameHex items.texts
      obtain ⟨arena, found⟩ : ∃ arena, arena =
        putTexts (state.arena.srdAnnArenaAlloc ((items.texts.length + 1) * 8)).2
          (state.arena.srdAnnArenaAlloc ((items.texts.length + 1) * 8)).1 hex 0 items.texts :=
        ⟨_, rfl⟩
      rw [← found] at texts grows ⊢
      obtain ⟨after, last⟩ := arena
      dsimp only at texts grows ⊢
      -- The items that are still pending keep their texts, whatever becomes of this one.
      have kept : SrdAnnBatchState.Inv srdAnnBatchMax { state with arena := after } done := by
        obtain ⟨before, pending, shape, delivered, stored⟩ := inv.split
        refine { inv with
            arena := texts.filled.inv
            split := ⟨before, pending, shape, delivered, ?_⟩ }
        apply stored.imp
        intro item fields stored
        exact stored.grows grows
      cases parsed : takeTexts hex items.texts with
      | none =>
          rw [parsed] at taken
          have rejected : takeTexts otherHex items.texts = none := by
            cases other : takeTexts otherHex items.texts with
            | none => rfl
            | some strv =>
                rw [other] at taken
                exact absurd taken.symm nofun
          have error : last = none := by
            rw [texts.hex, parsed]
            rfl
          rw [error, rejected]
          exact ⟨[], (List.append_nil done).symm ▸ kept, rfl⟩
      | some result =>
          obtain ⟨strv, buffer⟩ := result
          rw [parsed] at taken
          obtain ⟨⟨otherStrv, otherBuffer⟩, accepted, same⟩ := map_eq_some_iff.mp taken.symm
          obtain ⟨sameStrv, sameBuffer⟩ := Prod.mk.inj same
          have ok : last = some buffer := by
            rw [texts.hex, parsed]
            rfl
          obtain ⟨strs, holds, strings⟩ := texts.stored strv buffer parsed
          have length := strings.length_eq.trans (length_takeTexts parsed)
          have stored : StoredTexts after
              (state.arena.srdAnnArenaAlloc ((items.texts.length + 1) * 8)).1 strv :=
            ⟨_, strs, texts.filled.granted _ member, by omega, holds, strings⟩
          rw [ok, accepted]
          refine ⟨[⟨put.startSample, put.endSample, annClass, annType, some di.decoder,
            some strv, some buffer, numbericValue⟩], appendItem_inv kept ⟨rfl, stored⟩, ?_⟩
          have texts : otherStrv = strv := sameStrv
          have string : bufferString buffer = bufferString otherBuffer := sameBuffer.symm
          simp only [map_cons, map_nil, map_some, toList_some,
            AnnotationFields.annotation, AnnotationFields.texts, Annotation.content,
            ParsedAnnData.annotation, ProtoDataAnnotation.content, getD_some, texts, string]

/-- Either both paths go on with the same elements, or both reject the object. -/
theorem put_cases (di : PythonInst) (put : PythonPut) :
    (∃ objs annClass annType, put.checkedItems di = some objs ∧
      convertAnnotation di put = (pyParseAnnData objs (emptyHex put.pdaStack) 0).map
        (Option.map ( ParsedAnnData.annotation annClass annType)) ∧
      (∀ state, pyPutAnnBatch di put state = (collectItems ⟨[], none⟩ objs).map fun items =>
        putItems di put annClass annType items state) ∧
      put.textCount = objs.countP PyObject.isStr) ∨
    (put.checkedItems di = none ∧ convertAnnotation di put = some none ∧
      ∀ state, pyPutAnnBatch di put state = some (state, false)) := by
  unfold convertAnnotation pyPutAnnBatch PythonPut.textCount PythonPut.checkedItems
  generalize put.obj = obj
  cases obj with
  | list parts =>
      match parts with
      | [] => exact Or.inr ⟨rfl, rfl, fun _ => rfl⟩
      | [first] =>
          cases first <;> exact Or.inr ⟨rfl, rfl, fun _ => rfl⟩
      | first :: second :: third :: rest =>
          cases first <;> cases second <;> exact Or.inr ⟨rfl, rfl, fun _ => rfl⟩
      | [first, second] =>
          cases first with
          | int value =>
              dsimp only
              by_cases unregistered : (pyLongAsLong value).toInt32.toInt ≥ di.annTypes.length ∨
                  (pyLongAsLong value).toInt32.toInt < 0
              · rw [if_pos unregistered]
                refine Or.inr ⟨?_, rfl, fun _ => if_pos unregistered⟩
                cases second with
                | list objs => exact if_pos unregistered
                | _ => rfl
              · rw [if_neg unregistered]
                cases second with
                | list objs =>
                    dsimp only
                    rw [if_neg unregistered]
                    by_cases empty : objs.length = 0
                    · rw [if_pos empty, if_pos empty]
                      refine Or.inr ⟨rfl, rfl, fun _ => ?_⟩
                      rw [if_neg unregistered, if_pos empty]
                    · rw [if_neg empty, if_neg empty]
                      refine Or.inl ⟨objs, _, _, rfl, rfl, fun _ => ?_, rfl⟩
                      rw [if_neg unregistered, if_neg empty]
                | _ => exact Or.inr ⟨rfl, rfl, fun _ => if_neg unregistered⟩
          | _ => exact Or.inr ⟨rfl, rfl, fun _ => rfl⟩
  | _ => exact Or.inr ⟨rfl, rfl, fun _ => rfl⟩

theorem isSome_takeTexts (hex : HexBuffer) (texts : List (Option (List UInt8))) :
    (takeTexts hex texts).isSome = texts.all isSome := by
  induction texts generalizing hex with
  | nil => rfl
  | cons text texts ih =>
      cases text with
      | none => rfl
      | some utf8 =>
          rw [takeTexts]
          dsimp only
          rw [isSome_map, ih, all_cons, isSome_some, Bool.true_and]

theorem isSome_putTexts (arena : AnnArena) (strv : Ptr) (hex : HexBuffer) (i : Nat)
    (texts : List (Option (List UInt8))) :
    (putTexts arena strv hex i texts).2.isSome = texts.all isSome := by
  induction texts generalizing arena hex i with
  | nil => rfl
  | cons text texts ih =>
      cases text with
      | none => rfl
      | some utf8 =>
          rw [putTexts]
          dsimp only
          rw [ih, all_cons, isSome_some, Bool.true_and]

theorem putItems_accepts (di : PythonInst) (put : PythonPut) (annClass annType : Int32)
    (items : AnnItems) (state : SrdAnnBatchState) :
    (putItems di put annClass annType items state).2 =
      (parseItems (emptyHex put.pdaStack) 0 items).isSome := by
  unfold putItems parseItems
  by_cases empty : items.number = none ∧ items.texts.length = 0
  · rw [if_pos empty, if_pos empty]
    rfl
  · rw [if_neg empty, if_neg empty]
    by_cases textless : items.texts.length = 0
    · dsimp only
      rw [if_neg (by omega), if_pos textless]
      rfl
    · dsimp only
      rw [if_pos (Nat.pos_of_ne_zero textless), if_neg textless, isSome_map,
        isSome_takeTexts, ← isSome_putTexts
          (state.arena.srdAnnArenaAlloc ((items.texts.length + 1) * 8)).2
          (state.arena.srdAnnArenaAlloc ((items.texts.length + 1) * 8)).1
          (takeNumber (emptyHex put.batchStack) 0 items.number).1 0 items.texts]
      split
      next rejected =>
        rw [rejected]
        rfl
      next accepted =>
        rw [accepted]
        rfl

theorem pyPutAnnBatch_accepts (di : PythonInst) (put : PythonPut) (state : SrdAnnBatchState) :
    (pyPutAnnBatch di put state).map Prod.snd = ( convertAnnotation di put).map isSome := by
  rcases put_cases di put with ⟨objs, annClass, annType, -, converted, batched, -⟩ |
    ⟨-, converted, batched⟩
  · rw [converted, batched, pyParseAnnData, Option.map_map, Option.map_map, Option.map_map]
    cases collectItems ⟨[], none⟩ objs with
    | none => rfl
    | some items =>
        rw [map_some, map_some]
        refine congrArg some ((putItems_accepts di put annClass annType items state).trans ?_)
        exact isSome_map.symm
  · rw [converted, batched]
    rfl

theorem convertAnnotation_isSome (di : PythonInst) {put : PythonPut}
    (few : put.textCount ≤ 10) : ( convertAnnotation di put).isSome := by
  rcases put_cases di put with ⟨objs, annClass, annType, -, converted, -, count⟩ | ⟨-, converted, -⟩
  · rw [converted, isSome_map, pyParseAnnData, isSome_map]
    refine collectItems_isSome ?_
    rw [count] at few
    exact (Nat.zero_add _).trans_le few
  · rw [converted]
    rfl

theorem pyPutAnnBatch_inv
    (inv : SrdAnnBatchState.Inv srdAnnBatchMax state done) (di : PythonInst) {put : PythonPut}
    (few : put.textCount ≤ 10) :
    ∃ after ok added, pyPutAnnBatch di put state = some (after, ok) ∧
      SrdAnnBatchState.Inv srdAnnBatchMax after (done ++ added) ∧
      added.map (fun fields => fields.annotation.content) = legacyContents di [put] := by
  rcases put_cases di put with ⟨objs, annClass, annType, -, converted, batched, count⟩ |
    ⟨-, converted, batched⟩
  · have room : (collectItems ⟨[], none⟩ objs).isSome := by
      refine collectItems_isSome ?_
      rw [count] at few
      exact (Nat.zero_add _).trans_le few
    obtain ⟨items, collected⟩ := isSome_iff_exists.mp room
    obtain ⟨added, after, contents⟩ := putItems_spec inv di put annClass annType items
    refine ⟨_, _, added, by rw [batched, collected]; rfl, after, ?_⟩
    rw [contents, legacyContents, filterMap_cons, converted, pyParseAnnData, collected,
      map_some, map_some, join_some]
    cases parseItems (emptyHex put.pdaStack) 0 items <;> rfl
  · refine ⟨state, false, [], batched state, (List.append_nil done).symm ▸ inv, ?_⟩
    rw [legacyContents, filterMap_cons, converted]
    rfl

theorem legacyContents_cons (di : PythonInst) (put : PythonPut) (puts : List PythonPut) :
    legacyContents di (put :: puts) = legacyContents di [put] ++ legacyContents di puts := by
  rw [legacyContents, ← singleton_append, filterMap_append]
  rfl

section

variable (inv : SrdAnnBatchState.Inv srdAnnBatchMax state done)
include inv

theorem runBatch_inv (di : PythonInst)
    {puts : List PythonPut} (few : ∀ put ∈ puts, put.textCount ≤ 10) :
    ∃ after added, runBatch di state puts = some after ∧
      SrdAnnBatchState.Inv srdAnnBatchMax after (done ++ added) ∧
      added.map (fun fields => fields.annotation.content) = legacyContents di puts := by
  induction puts generalizing state done with
  | nil => exact ⟨state, [], rfl, (List.append_nil done).symm ▸ inv, rfl⟩
  | cons put puts ih =>
      obtain ⟨next, ok, added, step, nextInv, contents⟩ :=
        pyPutAnnBatch_inv inv di (few put mem_cons_self)
      obtain ⟨after, later, runs, afterInv, laterContents⟩ :=
        ih nextInv fun other member => few other (mem_cons_of_mem put member)
      rw [List.append_assoc] at afterInv
      refine ⟨after, added ++ later, ?_, afterInv, ?_⟩
      · rw [runBatch, step]
        exact runs
      · rw [map_append, contents, laterContents, legacyContents_cons di put puts]

theorem wrapper_inv (heap : state.heap = true)
    (di : PythonInst) (put : PythonPut) (pda : ProtoDataAnnotation) :
    ∃ after fields, srdAnnBatchCallbackWrapper di put pda state = some after ∧
      after.heap = true ∧ SrdAnnBatchState.Inv srdAnnBatchMax after (done ++ [fields]) ∧
      fields.annotation.content = pda.content di put := by
  obtain ⟨fields, built⟩ : ∃ fields : AnnotationFields, fields =
    { start := put.startSample
      stop := put.endSample
      annClass := pda.annClass
      annType := pda.annType
      decoder := some di.decoder
      annText := pda.annText
      hex := some pda.strNumberHex
      numeric := pda.numbericValue } := ⟨_, rfl⟩
  have appends : srdAnnBatchCallbackWrapper di put pda state =
      some ({ state with arena := (state.arena.copyTexts fields.texts).2 }.srdAnnBatchAppendItem
        (itemOf fields (some (state.arena.copyTexts fields.texts).1))) := by
    rw [srdAnnBatchCallbackWrapper, ← built, srdAnnBatchAppendFields, if_pos heap]
  refine ⟨_, fields, appends, (appendItem_heap _ _).trans heap, ?_, ?_⟩
  · rw [srdAnnBatchCallbackWrapper, ← built] at appends
    exact appendFields_inv inv appends
  · rw [built]
    rfl

theorem runWrapper_inv (heap : state.heap = true)
    (di : PythonInst) {puts : List PythonPut} (few : ∀ put ∈ puts, put.textCount ≤ 10) :
    ∃ after added, runWrapper di state puts = some after ∧
      SrdAnnBatchState.Inv srdAnnBatchMax after (done ++ added) ∧
      added.map (fun fields => fields.annotation.content) = legacyContents di puts := by
  induction puts generalizing state done with
  | nil => exact ⟨state, [], rfl, (List.append_nil done).symm ▸ inv, rfl⟩
  | cons put puts ih =>
      obtain ⟨converted, converts⟩ :=
        isSome_iff_exists.mp ( convertAnnotation_isSome di (few put mem_cons_self))
      have fewLater : ∀ other ∈ puts, other.textCount ≤ 10 := fun other member =>
        few other (mem_cons_of_mem put member)
      rw [runWrapper, converts, legacyContents_cons]
      cases converted with
      | none =>
          obtain ⟨after, added, runs, afterInv, contents⟩ := ih inv heap fewLater
          refine ⟨after, added, runs, afterInv, ?_⟩
          rw [contents, legacyContents.eq_1 di [put], filterMap_cons, converts]
          rfl
      | some pda =>
          obtain ⟨next, fields, step, nextHeap, nextInv, content⟩ := wrapper_inv inv heap di put pda
          obtain ⟨after, added, runs, afterInv, contents⟩ := ih nextInv nextHeap fewLater
          rw [List.append_assoc] at afterInv
          refine ⟨after, [fields] ++ added, ?_, afterInv, ?_⟩
          · dsimp only [Option.bind_some]
            rw [step]
            exact runs
          · rw [map_append, contents, map_singleton, content, legacyContents.eq_1 di [put],
              filterMap_cons, converts]
            rfl

theorem contents_of_inv :
    state.contents = done.map fun fields => some fields.annotation.content := by
  obtain ⟨before, pending, shape, delivered, items⟩ := inv.split
  have read : state.pending = _ := map_readItem_eq inv.arena items
  rw [SrdAnnBatchState.contents, delivered, read, ← map_append, shape, List.map_map]
  rfl

end

/-- Whatever is put, with at most ten texts each: the batch delivers what the callback of the
session is given, directly or through the wrapper, and both paths reject the same. -/
theorem batch_agrees_with_legacy (di : PythonInst) (puts : List PythonPut)
    (few : ∀ put ∈ puts, put.textCount ≤ 10) :
    ∃ batch wrapped, runBatch di (srdAnnBatchInit true) puts = some batch ∧
      runWrapper di (srdAnnBatchInit true) puts = some wrapped ∧
      batch.contents = (legacyContents di puts).map some ∧
      wrapped.contents = (legacyContents di puts).map some ∧
      ∀ put ∈ puts, ∀ state, (pyPutAnnBatch di put state).map Prod.snd =
        ( convertAnnotation di put).map Option.isSome := by
  obtain ⟨batch, added, runs, inv, contents⟩ := runBatch_inv init_inv di few
  obtain ⟨wrapped, other, wraps, wrappedInv, otherContents⟩ :=
    runWrapper_inv init_inv rfl di few
  refine ⟨batch, wrapped, runs, wraps, ?_, ?_, fun put _ => pyPutAnnBatch_accepts di put⟩
  · rw [contents_of_inv inv, ← contents, List.map_map]
    rfl
  · rw [contents_of_inv wrappedInv, ← otherContents, List.map_map]
    rfl

def numberAndEmpty : List PythonPut :=
  [⟨10, 20, .list [.int 1, .list [.str (some [68, 58]), .str (some [64, 49, 97])]],
      Vector.replicate 256 7, Vector.replicate 256 9⟩,
    ⟨20, 30, .list [.int 0, .list []], Vector.replicate 256 7, Vector.replicate 256 9⟩]

theorem batch_agrees_numberAndEmpty :
    ∃ batch wrapped, runBatch ⟨0, [7, 8]⟩ (srdAnnBatchInit true) numberAndEmpty = some batch ∧
      runWrapper ⟨0, [7, 8]⟩ (srdAnnBatchInit true) numberAndEmpty = some wrapped ∧
      batch.contents = (legacyContents ⟨0, [7, 8]⟩ numberAndEmpty).map some ∧
      wrapped.contents = (legacyContents ⟨0, [7, 8]⟩ numberAndEmpty).map some ∧
      ∀ put ∈ numberAndEmpty, ∀ state, (pyPutAnnBatch ⟨0, [7, 8]⟩ put state).map Prod.snd =
        ( convertAnnotation ⟨0, [7, 8]⟩ put).map Option.isSome :=
  batch_agrees_with_legacy ⟨0, [7, 8]⟩ numberAndEmpty (by decide)

end SigrokDecode
