import SigrokDecode.AnnBatch.Delivery
import SigrokDecode.Foundation.PythonObjects

/-!
# Annotations of Python decoders

`put` hands an annotation either to the callback of the session, parsed by `convert_annotation`,
or to the batch, parsed by `py_put_ann_batch`.
-/

namespace SigrokDecode

open Foundation

/-- `strcpy` into a buffer; what is behind the terminating zero stays. -/
def strcpy {size : Nat} (buffer : Vector UInt8 size) (text : List UInt8) : Vector UInt8 size :=
  Vector.ofFn fun i =>
    if i < text.length then text.getD i 0 else if i = text.length then 0 else buffer[i]

def bufferString {size : Nat} (buffer : Vector UInt8 size) : List UInt8 :=
  cString buffer.toList

def emptyHex (buffer : HexBuffer) : HexBuffer :=
  strcpy buffer []

/-- The loop that turns the letters of a hexadecimal number upper case. -/
def upperHexText (text : List UInt8) : List UInt8 :=
  text.map fun c => if 97 ≤ c ∧ c ≤ 102 then c - 32 else c

/-- The format `%02llX`. -/
def hexText (value : Int64) : List UInt8 :=
  let digits := (Nat.toDigits 16 value.toUInt64.toNat).map fun c => UInt8.ofNat c.toUpper.toNat
  if digits.length < 2 then 48 :: digits else digits

/-- The text that is not shown, since it has been taken as a number. -/
def ignoredText : CText :=
  ⟨[10], by decide⟩

/-- A string with its first byte removed. -/
def CText.tail (text : CText) : CText :=
  ⟨text.bytes.tail, fun member => text.noZero (List.mem_of_mem_tail member)⟩

def utf8Text (utf8 : List UInt8) : CText :=
  ⟨cString utf8, zero_notMem_cString utf8⟩

/-- `text_items` and `py_numobj`. -/
structure AnnItems where
  texts : List (Option (List UInt8))
  number : Option Int

/-- The loop over the elements; `text_items` has room for ten, and there is no defined behaviour
beyond. -/
def collectItems (items : AnnItems) : List PyObject → Option AnnItems
  | [] => some items
  | .str utf8 :: rest =>
      if items.texts.length < 10 then
        collectItems { items with texts := items.texts ++ [utf8] } rest
      else none
  | .int value :: rest => collectItems { items with number := some value } rest
  | _ :: rest => collectItems items rest

structure ProtoDataAnnotation where
  annClass : Int32
  annType : Int32
  annText : Option (List CText)
  strNumberHex : HexBuffer
  numbericValue : Int64

/-- The check for a numerical field in `py_parse_ann_data`. -/
def takeText (hex : HexBuffer) (str : CText) : CText × HexBuffer :=
  if str.bytes.head? = some 64 then
    let nstr := str.bytes.length - 1
    if 0 < nstr ∧ nstr < 256 then (ignoredText, strcpy hex (upperHexText str.bytes.tail))
    else if 0 < nstr then (str.tail, hex)
    else (str, hex)
  else (str, hex)

/-- The loop of `py_parse_ann_data` over the texts. -/
def takeTexts (hex : HexBuffer) : List (Option (List UInt8)) → Option (List CText × HexBuffer)
  | [] => some ([], hex)
  | none :: _ => none
  | some utf8 :: rest =>
      let (str, hex) := takeText hex (utf8Text utf8)
      (takeTexts hex rest).map fun (strv, hex) => (str :: strv, hex)

/-- Where there is a number, it is stored, and its digits are. -/
def takeNumber (hex : HexBuffer) (numbericValue : Int64) : Option Int → HexBuffer × Int64
  | some value => (strcpy hex (hexText (pyLongAsLong value)), pyLongAsLong value)
  | none => (hex, numbericValue)

/-- What `py_parse_ann_data` stores. -/
structure ParsedAnnData where
  strv : Option (List CText)
  hex : HexBuffer
  numbericValue : Int64

/-- `py_parse_ann_data` behind the loop over the elements. -/
def parseItems (hex : HexBuffer) (numbericValue : Int64) (items : AnnItems) :
    Option ParsedAnnData :=
  if items.number = none ∧ items.texts.length = 0 then none
  else
    let (hex, numbericValue) := takeNumber hex numbericValue items.number
    if items.texts.length = 0 then some ⟨none, hex, numbericValue⟩
    else (takeTexts hex items.texts).map fun taken => ⟨some taken.1, taken.2, numbericValue⟩

/-- `py_parse_ann_data`; the outer `none` is no defined behaviour, the inner one an error. -/
def pyParseAnnData (listObj : List PyObject) (hex : HexBuffer) (numbericValue : Int64) :
    Option (Option ParsedAnnData) :=
  (collectItems ⟨[], none⟩ listObj).map (parseItems hex numbericValue)

def ParsedAnnData.annotation (annClass annType : Int32) (parsed : ParsedAnnData) :
    ProtoDataAnnotation :=
  { annClass
    annType
    annText := parsed.strv
    strNumberHex := parsed.hex
    numbericValue := parsed.numbericValue }

/-- A call of `put`, and what the buffer for the number holds before, on either path. -/
structure PythonPut where
  startSample : UInt64
  endSample : UInt64
  obj : PyObject
  pdaStack : HexBuffer
  batchStack : HexBuffer

/-- What both paths read of the instance: its decoder and the types of its annotations. -/
structure PythonInst where
  decoder : Nat
  annTypes : List Int32

def convertAnnotation (di : PythonInst) (put : PythonPut) : Option (Option ProtoDataAnnotation) :=
  match put.obj with
  | .list [.int value, second] =>
      let annClass := (pyLongAsLong value).toInt32
      if annClass.toInt ≥ di.annTypes.length ∨ annClass.toInt < 0 then some none
      else
        let annType := di.annTypes.getD annClass.toInt.toNat 0
        match second with
        | .list items =>
            if items.length = 0 then some none
            else
              (pyParseAnnData items (emptyHex put.pdaStack) 0).map
                (Option.map ( ParsedAnnData.annotation annClass annType))
        | _ => some none
  | _ => some none

/-- A round of the loop of `py_put_ann_batch`: the string is changed where it lies in the
arena. -/
def putText (arena : AnnArena) (hex : HexBuffer) (text : CText) : Ptr × AnnArena × HexBuffer :=
  let (str, arena) := arena.srdAnnArenaStrdup text.bytes
  if text.bytes.head? = some 64 then
    let nstr := text.bytes.length - 1
    if 0 < nstr ∧ nstr < 256 then
      (str, arena.write str (stringCells [10]), strcpy hex (upperHexText text.bytes.tail))
    else if 0 < nstr then (str, arena.write str (stringCells text.bytes.tail), hex)
    else (str, arena, hex)
  else (str, arena, hex)

/-- The loop of `py_put_ann_batch` from text `i` on, and the null pointer behind the last one. -/
def putTexts (arena : AnnArena) (strv : Ptr) (hex : HexBuffer) :
    Nat → List (Option (List UInt8)) → AnnArena × Option HexBuffer
  | i, [] => (arena.write (strv.add (8 * i)) (pointerCells none), some hex)
  | _, none :: _ => (arena, none)
  | i, some utf8 :: rest =>
      let (str, arena, hex) := putText arena hex (utf8Text utf8)
      putTexts (arena.write (strv.add (8 * i)) (pointerCells (some str))) strv hex (i + 1) rest

/-- `py_put_ann_batch` behind the loop over the elements: the state, and whether the annotation
was accepted. -/
def putItems (di : PythonInst) (put : PythonPut) (annClass annType : Int32) (items : AnnItems)
    (state : SrdAnnBatchState) : SrdAnnBatchState × Bool :=
  if items.number = none ∧ items.texts.length = 0 then (state, false)
  else
    let (hex, numbericValue) := takeNumber (emptyHex put.batchStack) 0 items.number
    let item := fun annText hex =>
      { startSample := put.startSample
        endSample := put.endSample
        annClass
        annType
        annText
        strNumberHex := hex
        numbericValue
        decoder := some di.decoder }
    if 0 < items.texts.length then
      let (strv, arena) := state.arena.srdAnnArenaAlloc ((items.texts.length + 1) * 8)
      match putTexts arena strv hex 0 items.texts with
      | (arena, none) => ({ state with arena }, false)
      | (arena, some hex) =>
          ({ state with arena }.srdAnnBatchAppendItem (item (some strv) hex), true)
    else (state.srdAnnBatchAppendItem (item none hex), true)

def pyPutAnnBatch (di : PythonInst) (put : PythonPut) (state : SrdAnnBatchState) :
    Option (SrdAnnBatchState × Bool) :=
  match put.obj with
  | .list [.int value, second] =>
      let annClass := (pyLongAsLong value).toInt32
      if annClass.toInt ≥ di.annTypes.length ∨ annClass.toInt < 0 then some (state, false)
      else
        let annType := di.annTypes.getD annClass.toInt.toNat 0
        match second with
        | .list items =>
            if items.length = 0 then some (state, false)
            else
              (collectItems ⟨[], none⟩ items).map fun items =>
                putItems di put annClass annType items state
        | _ => some (state, false)
  | _ => some (state, false)

/-- `srd_ann_batch_callback_wrapper` on what `convert_annotation` has stored. -/
def srdAnnBatchCallbackWrapper (di : PythonInst) (put : PythonPut) (pda : ProtoDataAnnotation)
    (state : SrdAnnBatchState) : Option SrdAnnBatchState :=
  state.srdAnnBatchAppendFields
    { start := put.startSample
      stop := put.endSample
      annClass := pda.annClass
      annType := pda.annType
      decoder := some di.decoder
      annText := pda.annText
      hex := some pda.strNumberHex
      numeric := pda.numbericValue }

end SigrokDecode
