import Mathlib.Algebra.GroupWithZero.Nat
import SigrokDecode.AnnBatch.Arena

/-!
# The annotation batch

Annotations are collected in an array of items whose texts lie in the arena.
A full array, and every flush, delivers the items to the callback of the host,
which reads the texts through the pointers of the items.
-/

namespace SigrokDecode

open Foundation

def srdAnnBatchMax : Nat := 1024

structure CText where
  bytes : List UInt8
  noZero : 0 ∉ bytes

/-- The contents of `str_number_hex`, `DECODE_NUM_HEX_MAX_LEN` bytes. -/
abbrev HexBuffer := Vector UInt8 256

/-- `struct srd_ann_item`; `ann_text` may be `NULL`. -/
structure SrdAnnItem where
  startSample : UInt64
  endSample : UInt64
  annClass : Int32
  annType : Int32
  annText : Option Ptr
  strNumberHex : HexBuffer
  numbericValue : Int64
  /-- Which decoder has produced the annotation. -/
  decoder : Option Nat

/-- The arguments of `srd_ann_batch_append_fields`; `ann_text` and `hex` may be
`NULL`. -/
structure AnnotationFields where
  start : UInt64
  stop : UInt64
  annClass : Int32
  annType : Int32
  decoder : Option Nat
  annText : Option (List CText)
  hex : Option HexBuffer
  numeric : Int64

/-- What the host reads of an item. -/
structure Annotation where
  startSample : UInt64
  endSample : UInt64
  annClass : Int32
  annType : Int32
  texts : List (List UInt8)
  strNumberHex : HexBuffer
  numbericValue : Int64
  decoder : Option Nat

namespace AnnotationFields

/-- The strings of `ann_text`. -/
def texts (fields : AnnotationFields) : List CText :=
  fields.annText.getD []

/-- The contents of the annotation when it is appended. -/
def annotation (fields : AnnotationFields) : Annotation :=
  { startSample := fields.start
    endSample := fields.stop
    annClass := fields.annClass
    annType := fields.annType
    texts := fields.texts.map CText.bytes
    strNumberHex := fields.hex.getD (Vector.replicate 256 0)
    numbericValue := fields.numeric
    decoder := fields.decoder }

end AnnotationFields

namespace AnnArena

def readLimit (arena : AnnArena) : Nat :=
  ((arena.arena ++ arena.pool).map Block.cap).sum + 1

/-- The strings of a null-terminated array. -/
def readTexts (arena : AnnArena) (strv : Ptr) : Option (List (List UInt8)) :=
  (arena.view.readPointers arena.readLimit strv).bind fun strs =>
    strs.mapM (arena.view.readString arena.readLimit)

def readAnnText (arena : AnnArena) : Option Ptr → Option (List (List UInt8))
  | some strv => arena.readTexts strv
  | none => some []

/-- The loop of `srd_ann_batch_append_fields` from text `i` on, and the store of
the null pointer behind it. -/
def storeTexts (arena : AnnArena) (strv : Ptr) : Nat → List CText → AnnArena
  | i, [] => arena.write (strv.add (8 * i)) (pointerCells none)
  | i, text :: texts =>
      let (str, copied) := arena.srdAnnArenaStrdup text.bytes
      (copied.write (strv.add (8 * i)) (pointerCells (some str))).storeTexts strv (i + 1) texts

def copyTexts (arena : AnnArena) (texts : List CText) : Ptr × AnnArena :=
  let (strv, arena) := arena.srdAnnArenaAlloc ((texts.length + 1) * 8)
  (strv, arena.storeTexts strv 0 texts)

end AnnArena

/-- `struct srd_ann_batch_state`, and what has been delivered. -/
structure SrdAnnBatchState where
  arena : AnnArena
  /-- The first `n` entries of the item array. -/
  items : List SrdAnnItem
  /-- The heap has not been destroyed. -/
  heap : Bool
  /-- A callback is registered. -/
  cb : Bool
  /-- History: what the callback has read from each batch. -/
  delivered : List (List (Option Annotation))

namespace SrdAnnBatchState

/-- `srd_ann_batch_init`, and the registration of a callback behind it. -/
def srdAnnBatchInit (cb : Bool) : SrdAnnBatchState :=
  { arena :=
      { arena := []
        pool := []
        nextId := 0
        granted := []
        past := [] }
    items := []
    heap := true
    cb
    delivered := [] }

def readItem (arena : AnnArena) (item : SrdAnnItem) : Option Annotation :=
  (arena.readAnnText item.annText).map fun texts =>
    { startSample := item.startSample
      endSample := item.endSample
      annClass := item.annClass
      annType := item.annType
      texts
      strNumberHex := item.strNumberHex
      numbericValue := item.numbericValue
      decoder := item.decoder }

def pending (state : SrdAnnBatchState) : List (Option Annotation) :=
  state.items.map (readItem state.arena)

/-- `srd_ann_batch_flush_state`: the callback comes before the blocks are
recycled. -/
def srdAnnBatchFlushState (state : SrdAnnBatchState) : SrdAnnBatchState :=
  if state.items.length = 0 then
    state
  else
    { state with
      delivered :=
        if state.cb then state.delivered ++ [state.pending] else state.delivered
      arena := state.arena.recycle
      items := [] }

def srdAnnBatchAppendItem (state : SrdAnnBatchState) (item : SrdAnnItem) : SrdAnnBatchState :=
  let state :=
    if state.items.length ≥ srdAnnBatchMax then state.srdAnnBatchFlushState else state
  let state := { state with items := state.items ++ [item] }
  if state.items.length ≥ srdAnnBatchMax then state.srdAnnBatchFlushState else state

/-- The item that `srd_ann_batch_append_fields` builds. -/
def itemOf (fields : AnnotationFields) (strv : Option Ptr) : SrdAnnItem :=
  { startSample := fields.start
    endSample := fields.stop
    annClass := fields.annClass
    annType := fields.annType
    annText := strv
    strNumberHex := fields.hex.getD (Vector.replicate 256 0)
    numbericValue := fields.numeric
    decoder := fields.decoder }

/-- `srd_ann_batch_append_fields`; it has no defined behaviour on a destroyed
heap. -/
def srdAnnBatchAppendFields (state : SrdAnnBatchState) (fields : AnnotationFields) :
    Option SrdAnnBatchState :=
  if state.heap then
    let (strv, arena) := state.arena.copyTexts fields.texts
    some ({ state with arena }.srdAnnBatchAppendItem (itemOf fields (some strv)))
  else
    none

/-- `srd_ann_batch_destroy`; `mi_heap_destroy` frees all blocks at once. -/
def srdAnnBatchDestroy (state : SrdAnnBatchState) : SrdAnnBatchState :=
  let state :=
    if state.items.length > 0 then state.srdAnnBatchFlushState else state
  { state with
    arena := { state.arena with arena := [], pool := [], granted := [] }
    items := []
    heap := false }

end SrdAnnBatchState

inductive BatchOp where
  | append (fields : AnnotationFields)
  | flush
  | destroy

namespace BatchOp

def apply (state : SrdAnnBatchState) : BatchOp → Option SrdAnnBatchState
  | .append fields => state.srdAnnBatchAppendFields fields
  | .flush => some state.srdAnnBatchFlushState
  | .destroy => some state.srdAnnBatchDestroy

/-- A sequence of operations. -/
def run : SrdAnnBatchState → List BatchOp → Option SrdAnnBatchState
  | state, [] => some state
  | state, op :: ops => (apply state op).bind fun next => run next ops

def appended : List BatchOp → List AnnotationFields
  | [] => []
  | .append fields :: ops => fields :: appended ops
  | _ :: ops => appended ops

/-- Nothing is appended behind a `destroy`. -/
def Ordered : List BatchOp → Prop
  | [] => True
  | .destroy :: ops => appended ops = []
  | _ :: ops => Ordered ops

end BatchOp

end SigrokDecode
