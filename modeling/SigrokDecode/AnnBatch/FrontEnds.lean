import SigrokDecode.AnnBatch.TextItems
import SigrokDecode.Instance.Types

/-!
# Annotations of C and of Python decoders

`c_decoder_put` hands over what the macros `C_ANN_PUT` and `C_ANN_PUT_VAL` have written, while
`put` looks into the texts and prints the number itself.
-/

set_option linter.dupNamespace false

namespace SigrokDecode

open Foundation List

inductive SrdOutputType
  | outputAnn
  | outputProto
  | outputBinary
  | outputMeta
  | outputLogic
  | outputAnalog
  deriving DecidableEq

structure SrdCAnnotation where
  annClass : Int32
  annType : Int32
  annText : List CText
  strNumberHex : HexBuffer
  numbericValue : Int64

structure CInst where
  inst : PythonInst
  pdOutput : List SrdOutputType
  findCallback : SrdOutputType → Bool

/-- The data that a callback is given. -/
inductive SrdProtoData where
  | ann (pda : ProtoDataAnnotation)
  | metaData (ann : SrdCAnnotation)

def zeroHex : HexBuffer :=
  Vector.replicate 256 0

/-- The format `0x%X`, for the lower 32 bits. -/
def prefixedHexText (value : Int) : List UInt8 :=
  [48, 120] ++ (Nat.toDigits 16 (value % 2 ^ 32).toNat).map fun c => UInt8.ofNat c.toUpper.toNat

theorem bufferString_zeroHex : bufferString zeroHex = [] := by
  rw [bufferString, zeroHex, Vector.toList_replicate, replicate_succ]
  rfl

def cAnnPut (cls : Int32) (txts : List CText) : SrdCAnnotation where
  annClass := cls
  annType := 0
  annText := txts
  strNumberHex := zeroHex
  numbericValue := 0

def cAnnPutVal (cls : Int32) (val : Int) (txts : List CText) : SrdCAnnotation where
  annClass := cls
  annType := 0
  annText := txts
  strNumberHex := strcpy zeroHex ((prefixedHexText val).take 255)
  numbericValue := Int64.ofInt val

/-- The type that `c_decoder_put` gives an annotation of a class. -/
def CInst.annType (di : CInst) (annClass : Int32) : Int32 :=
  if annClass.toInt ≥ 0 ∧ annClass.toInt < di.inst.annTypes.length then
    di.inst.annTypes.getD annClass.toInt.toNat 0
  else annClass

/-- `c_decoder_put`, with what the callback is given. -/
def cDecoderPut (di : CInst) (outputId : Int32) (ann : SrdCAnnotation) :
    SrdStatus × Option SrdProtoData :=
  match di.pdOutput[outputId.toUInt32.toNat]? with
  | none => (.errArg, none)
  | some .outputAnn =>
      if di.findCallback .outputAnn then
        (.ok, some (.ann
          { annClass := ann.annClass
            annType := di.annType ann.annClass
            annText := some ann.annText
            strNumberHex := strcpy zeroHex ((bufferString ann.strNumberHex).take 255)
            numbericValue := ann.numbericValue }))
      else (.ok, none)
  | some .outputMeta =>
      if di.findCallback .outputMeta then (.ok, some (.metaData ann)) else (.ok, none)
  | some .outputProto | some .outputBinary | some .outputLogic | some .outputAnalog =>
      (.errArg, none)

/-- What a decoder puts out, in either language. -/
structure FrontEndPut where
  startSample : UInt64
  endSample : UInt64
  cls : Int32
  texts : List CText
  value : Option Int

namespace FrontEndPut

/-- The annotation of a C decoder, with `C_ANN_PUT_VAL` where there is a value. -/
def cAnnotation (put : FrontEndPut) : SrdCAnnotation :=
  match put.value with
  | none => cAnnPut put.cls put.texts
  | some value => cAnnPutVal put.cls value put.texts

def items (put : FrontEndPut) : List PyObject :=
  (put.texts.map fun text => .str (some text.bytes)) ++ put.value.toList.map .int

/-- The call of `put` of a Python decoder; the buffers are what the stack holds. -/
def pythonPut (put : FrontEndPut) (pdaStack batchStack : HexBuffer) : PythonPut where
  startSample := put.startSample
  endSample := put.endSample
  obj := .list [.int put.cls.toInt, .list put.items]
  pdaStack := pdaStack
  batchStack := batchStack

/-- The callback is given the same by both. -/
def DeliversAlike (put : FrontEndPut) (di : CInst) (outputId : Int32)
    (pdaStack batchStack : HexBuffer) : Prop :=
  ∃ c python : ProtoDataAnnotation, cDecoderPut di outputId put.cAnnotation = (.ok, some (.ann c)) ∧
      convertAnnotation di.inst (put.pythonPut pdaStack batchStack) = some (some python) ∧
      c.content di.inst (put.pythonPut pdaStack batchStack) =
        python.content di.inst (put.pythonPut pdaStack batchStack)

/-- A class of the decoder. -/
def Registered (put : FrontEndPut) (di : PythonInst) : Prop :=
  0 ≤ put.cls.toInt ∧ put.cls.toInt < di.annTypes.length

instance (put : FrontEndPut) (di : PythonInst) : Decidable (put.Registered di) :=
  inferInstanceAs (Decidable (_ ∧ _))

end FrontEndPut

/-- A text that `put` takes for a number, or without its first letter. -/
def CText.Marked (text : CText) : Prop :=
  text.bytes.head? = some 64 ∧ 2 ≤ text.bytes.length

theorem mem_toDigits_sixteen {n : Nat} {c : Char} (member : c ∈ Nat.toDigits 16 n) :
    ∃ d < 16, c = Nat.digitChar d := by
  induction n using Nat.strongRecOn with
  | ind n ih =>
      rw [Nat.toDigits_eq_if (by decide)] at member
      by_cases small : n < 16
      · rw [if_pos small, mem_singleton] at member
        exact ⟨n, small, member⟩
      · rw [if_neg small, mem_append, mem_singleton] at member
        rcases member with earlier | last
        · exact ih (n / 16) (by omega) earlier
        · exact ⟨n % 16, Nat.mod_lt n (by decide), last⟩

theorem letterX_notMem_hexText (value : Int64) : 120 ∉ hexText value := by
  have digits : ∀ d < 16, UInt8.ofNat (Nat.digitChar d).toUpper.toNat ≠ 120 := by decide
  have none : (120 : UInt8) ∉ (Nat.toDigits 16 value.toUInt64.toNat).map fun c =>
      UInt8.ofNat c.toUpper.toNat := by
    intro member
    obtain ⟨c, digit, same⟩ := mem_map.mp member
    obtain ⟨d, small, rfl⟩ := mem_toDigits_sixteen digit
    exact digits d small same
  unfold hexText
  dsimp only
  split
  · rw [mem_cons, not_or]
    exact ⟨by decide, none⟩
  · exact none

theorem cString_subset (bytes : List UInt8) : cString bytes ⊆ bytes := (takeWhile_sublist _).subset

theorem letterX_notMem_takeNumber (value : Int) (buffer : HexBuffer) (numbericValue : Int64) :
    120 ∉ bufferString (takeNumber buffer numbericValue (some value)).1 := by
  intro member
  rw [takeNumber, bufferString_strcpy] at member
  exact letterX_notMem_hexText _ (mem_of_mem_take (cString_subset _ member))

theorem letterX_mem_prefixed (value : Int) : 120 ∈ bufferString (strcpy zeroHex
      ((bufferString (strcpy zeroHex ((prefixedHexText value).take 255))).take 255)) := by
  have starts : ∀ rest : List UInt8, cString (48 :: 120 :: rest) = 48 :: 120 :: cString rest :=
    fun rest => rfl
  rw [bufferString_strcpy, bufferString_strcpy, prefixedHexText, cons_append,
    cons_append, take_succ_cons, take_succ_cons, take_succ_cons,
    take_succ_cons, starts, take_succ_cons, take_succ_cons, take_succ_cons,
    take_succ_cons, starts]
  exact mem_cons_of_mem _ mem_cons_self

/-- What `put` makes of a text. -/
def CText.shown (text : CText) : CText :=
  (takeText zeroHex text).1

theorem takeText_fst (hex : HexBuffer) (text : CText) : (takeText hex text).1 = text.shown := by
  unfold CText.shown takeText
  split
  · dsimp only
    split
    · rfl
    · split <;> rfl
  · rfl

theorem takeText_unmarked (hex : HexBuffer) {text : CText} (plain : ¬text.Marked) :
    takeText hex text = (text, hex) := by
  unfold takeText
  by_cases first : text.bytes.head? = some 64
  · have alone : ¬0 < text.bytes.length - 1 := fun longer => plain ⟨first, by omega⟩
    rw [if_pos first, if_neg fun taken => alone taken.1, if_neg alone]
  · rw [if_neg first]

theorem CText.shown_bytes (text : CText) : text.shown.bytes = text.bytes ↔ ¬text.Marked := by
  constructor
  · rintro same ⟨first, long⟩
    have positive : 0 < text.bytes.length - 1 := by omega
    unfold CText.shown takeText at same
    rw [if_pos first] at same
    dsimp only at same
    split at same
    · have one : 1 = text.bytes.length := congrArg List.length same
      omega
    · have fewer : text.bytes.tail.length = text.bytes.length := congrArg List.length same
      rw [length_tail] at fewer
      omega
  · intro plain
    rw [CText.shown, takeText_unmarked zeroHex plain]

theorem utf8Text_bytes (text : CText) : utf8Text text.bytes = text := by
  have same : cString text.bytes = text.bytes := by
    refine takeWhile_eq_self_iff.mpr fun c member => ?_
    exact decide_eq_true fun zero => text.noZero (zero ▸ member)
  obtain ⟨bytes, noZero⟩ := text
  unfold utf8Text
  congr

theorem takeTexts_shown (hex : HexBuffer) (texts : List CText) :
    ∃ last, takeTexts hex (texts.map fun text => some text.bytes) =
        some (texts.map CText.shown, last) ∧
      ((∀ text ∈ texts, ¬text.Marked) → last = hex) := by
  induction texts generalizing hex with
  | nil => exact ⟨hex, rfl, fun _ => rfl⟩
  | cons text texts ih =>
      obtain ⟨last, taken, same⟩ := ih (takeText hex text).2
      refine ⟨last, ?_, fun plain => ?_⟩
      · rw [map_cons, takeTexts, utf8Text_bytes]
        dsimp only
        rw [taken, takeText_fst]
        rfl
      · rw [same fun other member => plain other (mem_cons_of_mem _ member),
          takeText_unmarked hex (plain text mem_cons_self)]

theorem collectItems_texts (items : AnnItems) (texts : List CText) (rest : List PyObject)
    (room : items.texts.length + texts.length ≤ 10) :
    collectItems items ((texts.map fun text => .str (some text.bytes)) ++ rest) =
      collectItems { items with
        texts := items.texts ++ texts.map fun text => some text.bytes } rest := by
  induction texts generalizing items with
  | nil =>
      rw [map_nil, map_nil, List.append_nil]
      rfl
  | cons text texts ih =>
      rw [length_cons] at room
      rw [map_cons, cons_append, collectItems, if_pos (by omega), ih]
      · rw [List.append_assoc]
        rfl
      · rw [length_append, length_singleton]
        omega

namespace FrontEndPut

theorem countP_items (put : FrontEndPut) : put.items.countP PyObject.isStr = put.texts.length := by
  have texts : (put.texts.map fun text => PyObject.str (some text.bytes)).countP PyObject.isStr =
      put.texts.length := by
    rw [countP_map]
    exact countP_eq_length.mpr fun text member => rfl
  have value : (put.value.toList.map PyObject.int).countP PyObject.isStr = 0 := by
    cases put.value <;> rfl
  rw [items, countP_append, texts, value, Nat.add_zero]

theorem collectItems_items (put : FrontEndPut) (few : put.texts.length ≤ 10) :
    collectItems ⟨[], none⟩ put.items =
      some ⟨put.texts.map fun text => some text.bytes, put.value⟩ := by
  have room : ([] : List (Option (List UInt8))).length + put.texts.length ≤ 10 :=
    (Nat.zero_add _).trans_le few
  rw [items, collectItems_texts ⟨[], none⟩ put.texts _ room]
  cases put.value <;> rfl

theorem toInt32_pyLongAsLong (cls : Int32) : (pyLongAsLong cls.toInt).toInt32 = cls := by
  have low := cls.le_toInt
  have high := cls.toInt_lt
  rw [pyLongAsLong, if_pos (by omega)]
  simp

theorem convertAnnotation_pythonPut (put : FrontEndPut) (di : PythonInst)
    (pdaStack batchStack : HexBuffer) :
    convertAnnotation di (put.pythonPut pdaStack batchStack) =
      if put.Registered di ∧ put.items.length ≠ 0 then
        (pyParseAnnData put.items (emptyHex pdaStack) 0).map
          (Option.map ( ParsedAnnData.annotation put.cls (di.annTypes.getD put.cls.toInt.toNat 0)))
      else some none := by
  unfold convertAnnotation pythonPut
  dsimp only
  rw [toInt32_pyLongAsLong]
  by_cases registered : put.Registered di
  · have known : ¬(put.cls.toInt ≥ di.annTypes.length ∨ put.cls.toInt < 0) := by
      have low := registered.1
      have high := registered.2
      omega
    rw [if_neg known]
    by_cases empty : put.items.length = 0
    · rw [if_pos empty, if_neg fun both => both.2 empty]
    · rw [if_neg empty, if_pos ⟨registered, empty⟩]
  · have unknown : put.cls.toInt ≥ di.annTypes.length ∨ put.cls.toInt < 0 := by
      by_contra known
      exact registered ⟨by omega, by omega⟩
    rw [if_pos unknown, if_neg fun both => registered both.1]

theorem items_nonempty {put : FrontEndPut} :
    put.items.length ≠ 0 ↔ put.texts ≠ [] ∨ put.value ≠ none := by
  rw [items, length_append, length_map, length_map, Ne, Nat.add_eq_zero_iff,
    length_eq_zero_iff, not_and_or, length_eq_zero_iff]
  cases put.value <;> simp

theorem convertAnnotation_some {put : FrontEndPut} {di : PythonInst} (pdaStack : HexBuffer)
    (batchStack : HexBuffer) (registered : put.Registered di) (few : put.texts.length ≤ 10)
    (given : put.texts ≠ [] ∨ put.value ≠ none) :
    ∃ python, convertAnnotation di (put.pythonPut pdaStack batchStack) = some (some python) ∧
      python.annClass = put.cls ∧
      python.annType = di.annTypes.getD put.cls.toInt.toNat 0 ∧
      python.annText.getD [] = put.texts.map CText.shown ∧
      ((∀ text ∈ put.texts, ¬text.Marked) → (python.strNumberHex, python.numbericValue) =
          takeNumber (emptyHex pdaStack) 0 put.value) := by
  have something : ¬(put.value = none ∧
      (put.texts.map fun text => some text.bytes).length = 0) := by
    rintro ⟨without, empty⟩
    rw [length_map, length_eq_zero_iff] at empty
    rcases given with texts | value
    · exact texts empty
    · exact value without
  rw [convertAnnotation_pythonPut, if_pos ⟨registered, items_nonempty.mpr given⟩, pyParseAnnData,
    collectItems_items put few, Option.map_some, Option.map_some, parseItems, if_neg something]
  dsimp only
  by_cases textless : put.texts = []
  · have none : (put.texts.map fun text => some text.bytes).length = 0 := by
      rw [textless]
      rfl
    rw [if_pos none, textless]
    exact ⟨_, rfl, rfl, rfl, rfl, fun _ => rfl⟩
  · rw [if_neg (by rwa [length_map, length_eq_zero_iff])]
    obtain ⟨last, taken, same⟩ :=
      takeTexts_shown (takeNumber (emptyHex pdaStack) 0 put.value).1 put.texts
    rw [taken]
    refine ⟨_, rfl, rfl, rfl, rfl, fun plain => ?_⟩
    exact Prod.ext (same plain) rfl

/-- Where `put` is accepted, the class is known, there are at most ten texts, and the list is not
empty. -/
theorem accepted {put : FrontEndPut} {di : PythonInst} {pdaStack batchStack : HexBuffer}
    {python : ProtoDataAnnotation}
    (converted : convertAnnotation di (put.pythonPut pdaStack batchStack) = some (some python)) :
    put.Registered di ∧ put.texts.length ≤ 10 ∧ (put.texts ≠ [] ∨ put.value ≠ none) := by
  rw [convertAnnotation_pythonPut] at converted
  split at converted
  · next both =>
      refine ⟨both.1, ?_, items_nonempty.mp both.2⟩
      have defined := congrArg Option.isSome converted
      rw [Option.isSome_map, pyParseAnnData, Option.isSome_map] at defined
      have inBounds := (isSome_collectItems ⟨[], none⟩ put.items).mp defined
      have few := (textItemWrites_inBounds (Nat.zero_le 10) put.items).mp inBounds
      rwa [Nat.zero_add, countP_items] at few
  · cases converted

def cDelivered (put : FrontEndPut) (di : CInst) : ProtoDataAnnotation where
  annClass := put.cls
  annType := di.annType put.cls
  annText := some put.texts
  strNumberHex :=
    strcpy zeroHex ((bufferString put.cAnnotation.strNumberHex).take 255)
  numbericValue := put.cAnnotation.numbericValue

theorem cDecoderPut_cAnnotation (put : FrontEndPut) {di : CInst} {outputId : Int32}
    (output : di.pdOutput[outputId.toUInt32.toNat]? = some .outputAnn)
    (callback : di.findCallback .outputAnn = true) :
    cDecoderPut di outputId put.cAnnotation = (.ok, some (.ann (put.cDelivered di))) := by
  rw [cDecoderPut, output]
  refine (if_pos callback).trans ?_
  unfold cDelivered cAnnotation
  cases put.value <;> rfl

theorem cDelivered_value {put : FrontEndPut} (di : CInst) {number : Int}
    (value : put.value = some number) :
    120 ∈ bufferString (put.cDelivered di).strNumberHex := by
  rw [cDelivered, cAnnotation, value]
  exact letterX_mem_prefixed number

theorem cDelivered_plain {put : FrontEndPut} (di : CInst) (without : put.value = none) :
    bufferString (put.cDelivered di).strNumberHex = [] ∧
      (put.cDelivered di).numbericValue = 0 := by
  rw [cDelivered, cAnnotation, without]
  dsimp only [cAnnPut]
  rw [bufferString_zeroHex]
  exact ⟨bufferString_strcpy zeroHex [], rfl⟩

theorem shown_texts {texts : List CText} :
    (texts.map CText.shown).map CText.bytes = texts.map CText.bytes ↔
      ∀ text ∈ texts, ¬text.Marked := by
  rw [map_map, map_inj_left]
  exact forall₂_congr fun text _ => text.shown_bytes

variable {put : FrontEndPut} {di : CInst} {outputId : Int32} {pdaStack batchStack : HexBuffer}

theorem DeliversAlike.plain (alike : put.DeliversAlike di outputId pdaStack batchStack)
    (output : di.pdOutput[outputId.toUInt32.toNat]? = some .outputAnn)
    (callback : di.findCallback .outputAnn = true) :
    put.value = none ∧ (∀ text ∈ put.texts, ¬text.Marked) ∧ put.Registered di.inst ∧
      put.texts ≠ [] ∧ put.texts.length ≤ 10 := by
  obtain ⟨c, python, delivered, converted, same⟩ := alike
  obtain ⟨registered, few, given⟩ := accepted converted
  obtain ⟨other, converts, -, -, texts, number⟩ :=
    convertAnnotation_some pdaStack batchStack registered few given
  obtain rfl : other = python := Option.some.inj (Option.some.inj (converts.symm.trans converted))
  rw [put.cDecoderPut_cAnnotation output callback] at delivered
  obtain rfl : put.cDelivered di = c :=
    SrdProtoData.ann.inj (Option.some.inj (congrArg Prod.snd delivered))
  have plain : ∀ text ∈ put.texts, ¬text.Marked := by
    have sameTexts : put.texts.map CText.bytes = (other.annText.getD []).map CText.bytes :=
      congrArg AnnotationContent.texts same
    rw [texts] at sameTexts
    exact shown_texts.mp sameTexts.symm
  have without : put.value = none := by
    cases value : put.value with
    | none => rfl
    | some number' =>
        exfalso
        have sameHex := congrArg AnnotationContent.strNumberHex same
        unfold ProtoDataAnnotation.content at sameHex
        dsimp only at sameHex
        have written : other.strNumberHex = (takeNumber (emptyHex pdaStack) 0 put.value).1 :=
          congrArg Prod.fst (number plain)
        have prefixed := cDelivered_value di value
        rw [sameHex, written, value] at prefixed
        exact letterX_notMem_takeNumber number' _ _ prefixed
  refine ⟨without, plain, registered, ?_, few⟩
  exact given.resolve_right fun some => some without

theorem deliversAlike_plain (without : put.value = none)
    (plain : ∀ text ∈ put.texts, ¬text.Marked) (registered : put.Registered di.inst)
    (texts : put.texts ≠ []) (few : put.texts.length ≤ 10)
    (output : di.pdOutput[outputId.toUInt32.toNat]? = some .outputAnn)
    (callback : di.findCallback .outputAnn = true) :
    put.DeliversAlike di outputId pdaStack batchStack := by
  obtain ⟨python, converts, sameClass, type, shown, number⟩ :=
    convertAnnotation_some pdaStack batchStack registered few (Or.inl texts)
  refine ⟨_, python, put.cDecoderPut_cAnnotation output callback, converts, ?_⟩
  have written := number plain
  rw [without] at written
  obtain ⟨hex, numeric⟩ := Prod.mk.inj written
  have known : di.annType put.cls = di.inst.annTypes.getD put.cls.toInt.toNat 0 :=
    if_pos registered
  obtain ⟨blank, zero⟩ := cDelivered_plain di without
  have empty : bufferString (emptyHex pdaStack) = [] := bufferString_strcpy pdaStack []
  unfold ProtoDataAnnotation.content
  rw [blank, zero, sameClass, type, shown, hex, numeric, empty, shown_texts.mpr plain, ← known]
  rfl

/-- The callback is given the same exactly for annotations of a known class without a value, with
one to ten texts, none of which is marked. -/
theorem deliversAlike_iff (put : FrontEndPut) (di : CInst) (outputId : Int32)
    (pdaStack batchStack : HexBuffer)
    (output : di.pdOutput[outputId.toUInt32.toNat]? = some .outputAnn)
    (callback : di.findCallback .outputAnn = true) :
    put.DeliversAlike di outputId pdaStack batchStack ↔
      put.value = none ∧ (∀ text ∈ put.texts, ¬text.Marked) ∧ put.Registered di.inst ∧
        put.texts ≠ [] ∧ put.texts.length ≤ 10 := by
  constructor
  · intro alike
    exact alike.plain output callback
  · rintro ⟨without, plain, registered, texts, few⟩
    exact deliversAlike_plain without plain registered texts few output callback

def oneClass : CInst where
  inst := ⟨0, [3]⟩
  pdOutput := [.outputAnn]
  findCallback _ := true

def letterA : CText :=
  ⟨[65], by decide⟩

/-- The text `@1F`. -/
def markedText : CText :=
  ⟨[64, 49, 70], by decide⟩

theorem deliversAlike_iff_letter :
    DeliversAlike ⟨0, 1, 0, [letterA], none⟩ oneClass 0 zeroHex zeroHex ↔
      (none : Option Int) = none ∧ (∀ text ∈ [letterA], ¬text.Marked) ∧
        Registered ⟨0, 1, 0, [letterA], none⟩ oneClass.inst ∧ [letterA] ≠ [] ∧
        [letterA].length ≤ 10 :=
  deliversAlike_iff ⟨0, 1, 0, [letterA], none⟩ oneClass 0 zeroHex zeroHex rfl rfl

/-- The prefix, the upper half of a value, and the mark of a text: each makes a difference. -/
theorem deliversAlike_fails :
    (¬DeliversAlike ⟨0, 1, 0, [letterA], some 31⟩ oneClass 0 zeroHex zeroHex) ∧
      prefixedHexText 0x123456789 = [48, 120, 50, 51, 52, 53, 54, 55, 56, 57] ∧
      hexText 0x123456789 = [49, 50, 51, 52, 53, 54, 55, 56, 57] ∧
      (¬DeliversAlike ⟨0, 1, 0, [letterA], some 0x123456789⟩ oneClass 0 zeroHex zeroHex) ∧
      ¬DeliversAlike ⟨0, 1, 0, [markedText], none⟩ oneClass 0 zeroHex zeroHex := by
  refine ⟨fun alike => ?_, by decide, by decide, fun alike => ?_, fun alike => ?_⟩
  · exact absurd (alike.plain rfl rfl).1 nofun
  · exact absurd (alike.plain rfl rfl).1 nofun
  · exact (alike.plain rfl rfl).2.1 markedText mem_cons_self ⟨rfl, by decide⟩

end FrontEndPut

end SigrokDecode
