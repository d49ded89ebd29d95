import Mathlib.Data.List.Forall2
import SigrokDecode.Foundation.PythonObjects

/-!
# The annotation tables of a decoder

`get_annotations` and `srd_c_decoder_register` fill the lists `annotations` and `ann_types` of a
decoder.
-/

set_option linter.dupNamespace false

namespace SigrokDecode

open Foundation List

/-- The two lists of `struct srd_decoder`. -/
structure AnnotationTables where
  annotations : List (List (List UInt8))
  annTypes : List Int32

/-- One round of the loop of `py_strseq_to_char`. -/
def pyItemToChar : PyObject → Option (List UInt8)
  | .str (some utf8) => some (cString utf8)
  | .int value => some (decimalText (pyLongAsLong value).toInt32.toInt)
  | _ => none

/-- `py_strseq_to_char` on a tuple. -/
def pyStrseqToChar (items : List PyObject) : Option (List (List UInt8)) :=
  items.mapM pyItemToChar

/-- The type number of the first string of a tuple with three; `char` is signed. -/
def labelNumber (label : List UInt8) : Int32 :=
  label.foldl (fun annType c => annType * 10 + (c.toInt8.toInt32 - 48)) 0

/-- The loop of `get_annotations`. -/
def readAnnotations (annotations : List (List (List UInt8))) (annTypes : List Int32)
    (annType : Int32) : List PyObject → Option AnnotationTables
  | [] => some ⟨annotations, annTypes⟩
  | .tuple items :: rest =>
      if items.length = 3 ∨ items.length = 2 then
        (pyStrseqToChar items).bind fun annpair =>
          if items.length = 3 then
            let annType := labelNumber (annpair.headD [])
            readAnnotations (annpair :: annotations) (annTypes ++ [annType]) annType rest
          else
            readAnnotations (annpair :: annotations) (annTypes ++ [annType]) (annType + 1) rest
      else none
  | _ :: _ => none

/-- `get_annotations`; the class may have no attribute `annotations`. -/
def getAnnotations : Option PyObject → Option AnnotationTables
  | none => some ⟨[], []⟩
  | some (.tuple entries) => readAnnotations [] [] 7 entries
  | some _ => none

/-- An entry of `ann_labels`; each of the three may be `NULL`. -/
structure AnnLabels where
  label : Option (List UInt8)
  id : Option (List UInt8)
  desc : Option (List UInt8)

/-- The type number of entry `i`. -/
def AnnLabels.annType (labels : AnnLabels) (i : Nat) : Int32 :=
  match labels.label with
  | some (c :: rest) =>
      if 0 < atoi (c :: rest) then atoi (c :: rest) else Int32.ofNat i + 7
  | _ => Int32.ofNat i + 7

/-- The strings of `pair`. -/
def AnnLabels.pair (labels : AnnLabels) : List (List UInt8) :=
  cStrv [labels.id, labels.desc]

/-- The loop over the annotations in `srd_c_decoder_register`. -/
def registerAnnotations (tables : AnnotationTables) (i : Nat) : List AnnLabels → AnnotationTables
  | [] => tables
  | labels :: rest =>
      registerAnnotations
        { annotations := tables.annotations ++ [labels.pair]
          annTypes := tables.annTypes ++ [labels.annType i] }
        (i + 1) rest

/-- The annotations of `srd_c_decoder_register`; `ann_labels` may be `NULL`. -/
def cDecoderAnnotations (annLabels : Option (List AnnLabels)) : AnnotationTables :=
  registerAnnotations ⟨[], []⟩ 0 (annLabels.getD [])

/-- An annotation class as a decoder declares it; a tuple with two elements has no label. -/
structure AnnDecl where
  label : Option (List UInt8)
  id : List UInt8
  desc : List UInt8

namespace AnnDecl

def texts (decl : AnnDecl) : List (List UInt8) :=
  decl.label.toList ++ [decl.id, decl.desc]

def InPython (entry : PyObject) (decl : AnnDecl) : Prop :=
  ∃ items, entry = .tuple items ∧ pyStrseqToChar items = some decl.texts

/-- An entry of a C decoder; without a label it is empty or `NULL`. -/
def InC (labels : AnnLabels) (decl : AnnDecl) : Prop :=
  labels.label.getD [] = decl.label.getD [] ∧ labels.id = some decl.id ∧
    labels.desc = some decl.desc

/-- The number that `get_annotations` gives to the next tuple with two elements. -/
def nextType (annType : Int32) (decl : AnnDecl) : Int32 :=
  match decl.label with
  | some label => labelNumber label
  | none => annType + 1

def typeNumber (annType : Int32) (decl : AnnDecl) : Int32 :=
  match decl.label with
  | some label => labelNumber label
  | none => annType

end AnnDecl

/-- Position `k` of both lists is about class `k`. -/
structure PythonAligned (decls : List AnnDecl) (tables : AnnotationTables) : Prop where
  annotations : ∀ k : Nat, tables.annotations[k]? = decls[k]?.map AnnDecl.texts
  annTypes : ∀ k : Nat, tables.annTypes[k]? =
    decls[k]?.map (AnnDecl.typeNumber ((decls.take k).foldl AnnDecl.nextType 7))

structure CAligned (annLabels : List AnnLabels) (tables : AnnotationTables) : Prop where
  annotations : ∀ k : Nat, tables.annotations[k]? = annLabels[k]?.map AnnLabels.pair
  annTypes : ∀ k : Nat, tables.annTypes[k]? = annLabels[k]?.map (AnnLabels.annType · k)

/-- Both loaders align their lists, and agree on the types. -/
structure AnnotationsAligned (entries : List PyObject) (annLabels : List AnnLabels)
    (decls : List AnnDecl) : Prop where
  python : ∃ tables, getAnnotations (some (.tuple entries)) = some tables ∧
    PythonAligned decls tables ∧
    tables.annTypes = (cDecoderAnnotations (some annLabels)).annTypes
  c : CAligned annLabels (cDecoderAnnotations (some annLabels))

structure Alignable (decls : List AnnDecl) : Prop where
  /-- They read the same from both ends. -/
  symmetric : decls.reverse.map AnnDecl.texts = decls.map AnnDecl.texts
  /-- The loop over the digits reads a label as `atoi` does, or as the default. -/
  labels : ∀ (k : Nat) (decl : AnnDecl) (label : List UInt8), decls[k]? = some decl →
    decl.label = some label →
    labelNumber label = if 0 < atoi label then atoi label else Int32.ofNat k + 7
  /-- A label in front of a tuple with two elements counts on to the default. -/
  defaults : ∀ (k : Nat) (decl next : AnnDecl) (label : List UInt8), decls[k]? = some decl →
    decl.label = some label → decls[k + 1]? = some next → next.label = none →
    labelNumber label = Int32.ofNat k + 8

def pythonTypes (annType : Int32) : List AnnDecl → List Int32
  | [] => []
  | decl :: decls => decl.typeNumber annType :: pythonTypes (decl.nextType annType) decls

/-- The type numbers of these entries, from entry `i` on. -/
def cTypes (i : Nat) : List AnnLabels → List Int32
  | [] => []
  | labels :: rest => labels.annType i :: cTypes (i + 1) rest

theorem length_pyStrseqToChar {items : List PyObject} {strv : List (List UInt8)}
    (read : pyStrseqToChar items = some strv) : items.length = strv.length := by
  induction items generalizing strv with
  | nil =>
      obtain rfl : [] = strv := Option.some.inj read
      rfl
  | cons item items ih =>
      rw [pyStrseqToChar, mapM_cons] at read
      obtain ⟨str, -, read⟩ := Option.bind_eq_some_iff.mp read
      obtain ⟨rest, tail, read⟩ := Option.bind_eq_some_iff.mp read
      obtain rfl : str :: rest = strv := Option.some.inj read
      rw [length_cons, length_cons, ih tail]

theorem length_of_texts {items : List PyObject} {decl : AnnDecl}
    (read : pyStrseqToChar items = some decl.texts) :
    items.length = if decl.label.isSome then 3 else 2 := by
  rw [length_pyStrseqToChar read, AnnDecl.texts]
  cases decl.label <;> rfl

theorem readAnnotations_eq {entries : List PyObject} {decls : List AnnDecl}
    (declared : Forall₂ AnnDecl.InPython entries decls)
    (annotations : List (List (List UInt8))) (annTypes : List Int32) (annType : Int32) :
    readAnnotations annotations annTypes annType entries =
      some ⟨decls.reverse.map AnnDecl.texts ++ annotations,
        annTypes ++ pythonTypes annType decls⟩ := by
  induction declared generalizing annotations annTypes annType with
  | nil => rw [readAnnotations, pythonTypes, List.append_nil, reverse_nil, map_nil,
      nil_append]
  | @cons entry decl entries decls first rest ih =>
      obtain ⟨items, rfl, read⟩ := first
      have length := length_of_texts read
      rw [readAnnotations, read, Option.bind_some, reverse_cons, map_append,
        List.append_assoc, map_singleton, singleton_append, pythonTypes,
        AnnDecl.typeNumber, AnnDecl.nextType]
      cases labelled : decl.label with
      | none =>
          have two : items.length = 2 := by
            rw [length, labelled]
            rfl
          rw [if_pos (Or.inr two), if_neg (by rw [two]; decide), ih,
            List.append_assoc, singleton_append]
      | some label =>
          have three : items.length = 3 := by
            rw [length, labelled]
            rfl
          have head : decl.texts.headD [] = label := by
            rw [AnnDecl.texts, labelled]
            rfl
          rw [if_pos (Or.inl three), if_pos three, head, ih, List.append_assoc, singleton_append]

theorem registerAnnotations_eq (tables : AnnotationTables) (i : Nat) (annLabels : List AnnLabels) :
    registerAnnotations tables i annLabels =
      ⟨tables.annotations ++ annLabels.map AnnLabels.pair, tables.annTypes ++ cTypes i annLabels⟩ := by
  induction annLabels generalizing tables i with
  | nil => rw [registerAnnotations, cTypes, map_nil, List.append_nil, List.append_nil]
  | cons labels rest ih =>
      rw [registerAnnotations, ih, cTypes, map_cons, List.append_assoc,
        List.append_assoc, singleton_append, singleton_append]

theorem getElem?_pythonTypes (annType : Int32) (decls : List AnnDecl) (k : Nat) :
    (pythonTypes annType decls)[k]? =
      decls[k]?.map (AnnDecl.typeNumber ((decls.take k).foldl AnnDecl.nextType annType)) := by
  induction decls generalizing annType k with
  | nil => rfl
  | cons decl decls ih =>
      cases k with
      | zero => rfl
      | succ k => exact ih (decl.nextType annType) k

theorem getElem?_cTypes (i : Nat) (annLabels : List AnnLabels) (k : Nat) :
    (cTypes i annLabels)[k]? = annLabels[k]?.map (AnnLabels.annType · (i + k)) := by
  induction annLabels generalizing i k with
  | nil => rfl
  | cons labels rest ih =>
      cases k with
      | zero => rfl
      | succ k =>
          have tail := ih (i + 1) k
          rw [Nat.add_right_comm] at tail
          exact tail

theorem cAligned (annLabels : List AnnLabels) :
    CAligned annLabels (cDecoderAnnotations (some annLabels)) := by
  have built := registerAnnotations_eq ⟨[], []⟩ 0 annLabels
  constructor
  case annotations =>
      intro k
      rw [cDecoderAnnotations, Option.getD_some, built]
      exact getElem?_map
  case annTypes =>
      intro k
      rw [cDecoderAnnotations, Option.getD_some, built]
      have listed := getElem?_cTypes 0 annLabels k
      rw [Nat.zero_add] at listed
      exact listed

/-- `Alignable` for declarations that begin at position `i`, without the texts. -/
structure CountsAlike (i : Nat) (decls : List AnnDecl) : Prop where
  labels : ∀ (k : Nat) (decl : AnnDecl) (label : List UInt8), decls[k]? = some decl →
    decl.label = some label →
    labelNumber label = if 0 < atoi label then atoi label else Int32.ofNat (i + k) + 7
  defaults : ∀ (k : Nat) (decl next : AnnDecl) (label : List UInt8), decls[k]? = some decl →
    decl.label = some label → decls[k + 1]? = some next → next.label = none →
    labelNumber label = Int32.ofNat (i + k) + 8

theorem countsAlike_cons (i : Nat) (decl : AnnDecl) (decls : List AnnDecl) :
    CountsAlike i (decl :: decls) ↔ (∀ label, decl.label = some label →
        labelNumber label = if 0 < atoi label then atoi label else Int32.ofNat i + 7) ∧
      (∀ label next, decl.label = some label → decls.head? = some next → next.label = none →
        labelNumber label = Int32.ofNat i + 8) ∧
      CountsAlike (i + 1) decls := by
  constructor
  · intro counts
    refine ⟨fun label => counts.labels 0 decl label rfl, ?_, ?_, ?_⟩
    · intro label next labelled head
      exact counts.defaults 0 decl next label rfl labelled (by rw [← head]; exact
        head?_eq_getElem?.symm)
    · intro k other label found labelled
      rw [Nat.add_right_comm]
      exact counts.labels (k + 1) other label found labelled
    · intro k other next label found labelled follows
      rw [Nat.add_right_comm]
      exact counts.defaults (k + 1) other next label found labelled follows
  · rintro ⟨first, behind, rest⟩
    constructor
    case labels =>
        intro k other label found labelled
        cases k with
        | zero =>
            obtain rfl : decl = other := Option.some.inj found
            exact first label labelled
        | succ k =>
            have later := rest.labels k other label found labelled
            rw [Nat.add_right_comm] at later
            exact later
    case defaults =>
        intro k other next label found labelled follows
        cases k with
        | zero =>
            obtain rfl : decl = other := Option.some.inj found
            exact behind label next labelled (head?_eq_getElem?.trans follows)
        | succ k =>
            have later := rest.defaults k other next label found labelled follows
            rw [Nat.add_right_comm] at later
            exact later

theorem annType_unlabelled {labels : AnnLabels} (unlabelled : labels.label.getD [] = [])
    (i : Nat) : labels.annType i = Int32.ofNat i + 7 := by
  rw [AnnLabels.annType]
  cases shape : labels.label with
  | none => rfl
  | some label =>
      rw [shape, Option.getD_some] at unlabelled
      rw [unlabelled]

theorem annType_labelled {labels : AnnLabels} {label : List UInt8}
    (labelled : labels.label.getD [] = label) (i : Nat) :
    labels.annType i = if 0 < atoi label then atoi label else Int32.ofNat i + 7 := by
  cases label with
  | nil => exact annType_unlabelled labelled i
  | cons c rest =>
      cases shape : labels.label with
      | none =>
          rw [shape] at labelled
          exact absurd labelled (cons_ne_nil c rest).symm
      | some text =>
          rw [shape, Option.getD_some] at labelled
          rw [AnnLabels.annType, shape, labelled]

theorem ofNat_succ_add_seven (i : Nat) : Int32.ofNat (i + 1) + 7 = Int32.ofNat i + 7 + 1 := by
  rw [Int32.ofNat_add, Int32.add_assoc, Int32.add_assoc]
  exact congrArg (Int32.ofNat i + ·) (Int32.add_comm _ _)

theorem pythonTypes_eq_cTypes_iff {annLabels : List AnnLabels} {decls : List AnnDecl}
    (declared : Forall₂ AnnDecl.InC annLabels decls) (annType : Int32) (i : Nat) :
    pythonTypes annType decls = cTypes i annLabels ↔
      (∀ decl, decls.head? = some decl → decl.label = none → annType = Int32.ofNat i + 7) ∧
        CountsAlike i decls := by
  induction declared generalizing annType i with
  | nil => exact ⟨fun _ => ⟨nofun, ⟨nofun, nofun⟩⟩, fun _ => rfl⟩
  | @cons labels decl annLabels decls first rest ih =>
      obtain ⟨label, -⟩ := first
      rw [pythonTypes, cTypes, List.cons.injEq, ih, countsAlike_cons,
        AnnDecl.typeNumber, AnnDecl.nextType]
      cases labelled : decl.label with
      | none =>
          rw [labelled] at label
          rw [annType_unlabelled label]
          constructor
          · rintro ⟨same, -, counts⟩
            exact ⟨fun _ _ _ => same, nofun, nofun, counts⟩
          · rintro ⟨same, -, -, counts⟩
            have start := same decl rfl labelled
            refine ⟨start, fun _ _ _ => ?_, counts⟩
            rw [ofNat_succ_add_seven, ← start]
      | some text =>
          rw [labelled] at label
          rw [annType_labelled label]
          have next : Int32.ofNat (i + 1) + 7 = Int32.ofNat i + 8 := by
            rw [ofNat_succ_add_seven, Int32.add_assoc]
            rfl
          rw [next]
          constructor
          · rintro ⟨same, follows, counts⟩
            refine ⟨fun other head none => ?_, ?_, ?_, counts⟩
            · obtain rfl : decl = other := Option.some.inj head
              exact absurd (labelled.symm.trans none) nofun
            · intro other isText
              obtain rfl : text = other := Option.some.inj isText
              exact same
            · intro other behind isText
              obtain rfl : text = other := Option.some.inj isText
              exact follows behind
          · rintro ⟨-, same, follows, counts⟩
            exact ⟨same text rfl, fun other head => follows text other rfl head, counts⟩

theorem countsAlike_zero_iff (decls : List AnnDecl) : Alignable decls ↔
      decls.reverse.map AnnDecl.texts = decls.map AnnDecl.texts ∧ CountsAlike 0 decls := by
  constructor
  · intro alignable
    refine ⟨alignable.symmetric, ?_, ?_⟩
    · simp only [Nat.zero_add]
      exact alignable.labels
    · simp only [Nat.zero_add]
      exact alignable.defaults
  · rintro ⟨symmetric, counts⟩
    have labels := counts.labels
    have defaults := counts.defaults
    simp only [Nat.zero_add] at labels defaults
    exact ⟨symmetric, labels, defaults⟩

/-- The lists of a Python decoder are aligned only where their texts are symmetric, since
`get_annotations` prepends to one and appends to the other. -/
theorem annotationsAligned_iff {entries : List PyObject} {annLabels : List AnnLabels}
    {decls : List AnnDecl} (inPython : List.Forall₂ AnnDecl.InPython entries decls)
    (inC : List.Forall₂ AnnDecl.InC annLabels decls) :
    AnnotationsAligned entries annLabels decls ↔ Alignable decls := by
  have loaded : getAnnotations (some (.tuple entries)) =
      some ⟨decls.reverse.map AnnDecl.texts, pythonTypes 7 decls⟩ := by
    rw [getAnnotations, readAnnotations_eq inPython, List.append_nil, nil_append]
  have registered : (cDecoderAnnotations (some annLabels)).annTypes = cTypes 0 annLabels := by
    rw [cDecoderAnnotations, Option.getD_some, registerAnnotations_eq]
    rfl
  have types := pythonTypes_eq_cTypes_iff inC 7 0
  rw [countsAlike_zero_iff]
  constructor
  · rintro ⟨⟨tables, built, aligned, same⟩, -⟩
    obtain rfl := Option.some.inj (loaded.symm.trans built)
    refine ⟨ext_getElem? fun k => ?_, (types.mp (same.trans registered)).2⟩
    rw [getElem?_map (l := decls)]
    exact aligned.annotations k
  · rintro ⟨symmetric, counts⟩
    have same : pythonTypes 7 decls = cTypes 0 annLabels := types.mpr ⟨fun _ _ _ => rfl, counts⟩
    refine ⟨⟨_, loaded, ⟨fun k => ?_, getElem?_pythonTypes 7 decls⟩,
      same.trans registered.symm⟩, cAligned annLabels⟩
    rw [← getElem?_map, ← symmetric]

/-- Two classes `rx` and `tx`, without labels. -/
def rxTxEntries : List PyObject :=
  [.tuple [.str (some [114, 120]), .str (some [82, 88])],
    .tuple [.str (some [116, 120]), .str (some [84, 88])]]

def rxTxLabels : List AnnLabels :=
  [⟨some [], some [114, 120], some [82, 88]⟩, ⟨some [], some [116, 120], some [84, 88]⟩]

def rxTxDecls : List AnnDecl :=
  [⟨none, [114, 120], [82, 88]⟩, ⟨none, [116, 120], [84, 88]⟩]

/-- The texts of `tx` come first, the type of `rx` does. -/
theorem rxTx_misaligned : List.Forall₂ AnnDecl.InPython rxTxEntries rxTxDecls ∧
      List.Forall₂ AnnDecl.InC rxTxLabels rxTxDecls ∧
      ¬ AnnotationsAligned rxTxEntries rxTxLabels rxTxDecls := by
  refine ⟨.cons ⟨_, rfl, by decide⟩ (.cons ⟨_, rfl, by decide⟩ .nil),
    .cons ⟨rfl, rfl, rfl⟩ (.cons ⟨rfl, rfl, rfl⟩ .nil), ?_⟩
  rintro ⟨⟨tables, built, aligned, -⟩, -⟩
  have first := aligned.annotations 0
  obtain rfl := Option.some.inj built
  exact absurd first (by decide)

/-- One class `rx` with the label `12`. -/
theorem annotationsAligned_iff_labelled : AnnotationsAligned
        [.tuple [.str (some [49, 50]), .str (some [114, 120]), .str (some [82, 88])]]
        [⟨some [49, 50], some [114, 120], some [82, 88]⟩]
        [⟨some [49, 50], [114, 120], [82, 88]⟩] ↔
      Alignable [⟨some [49, 50], [114, 120], [82, 88]⟩] :=
  annotationsAligned_iff (.cons ⟨_, rfl, by decide⟩ .nil) (.cons ⟨rfl, rfl, rfl⟩ .nil)

end SigrokDecode
