import Mathlib.Data.List.Nodup
import Mathlib.Data.List.TakeWhile
import SigrokDecode.Loader.Decoders

/-!
# Option setup

`srd_inst_option_set` fills the table of a C decoder's instance, or gives a Python decoder's
instance a new dictionary first and then checks and converts one value after the other.
-/

set_option linter.dupNamespace false

namespace SigrokDecode

open List Option

/-- A `GVariant` of the types that options have; a double is its bits. -/
inductive GVariant
  | string (bytes : List UInt8)
  | int64 (value : Int64)
  | double (bits : UInt64)

/-- `g_variant_type_equal` -/
def GVariant.sameType : GVariant → GVariant → Bool
  | .string _, .string _ => true
  | .int64 _, .int64 _ => true
  | .double _, .double _ => true
  | _, _ => false

inductive OptionValue
  | str (utf8 : List UInt8)
  | int (value : Int)
  | float (bits : UInt64)
  deriving DecidableEq

def GVariant.optionValue : GVariant → OptionValue
  | .string bytes => .str bytes
  | .int64 value => .int value.toInt
  | .double bits => .float bits

/-- `PyUnicode_FromString`, `PyLong_FromLongLong` and `PyFloat_FromDouble`. -/
def GVariant.pyOptval : GVariant → Option OptionValue
  | .string bytes =>
      if (ByteArray.mk bytes.toArray).validateUTF8 then some (.str bytes) else none
  | .int64 value => some (.int value.toInt)
  | .double bits => some (.float bits)

/-- `struct srd_decoder_option`, with its identifier and its default. -/
structure DecoderOption where
  id : String
  defaultValue : GVariant

abbrev OptionTable := List (String × GVariant)

/-- `g_hash_table_lookup` -/
def OptionTable.value (options : OptionTable) (id : String) : Option GVariant :=
  options.lookup id

def OptionTable.remove (options : OptionTable) (id : String) : OptionTable :=
  options.filter fun entry => entry.1 ≠ id

/-- An instance of a Python decoder: whether the class has an attribute `options`, the options of
the decoder, and the dictionary that the instance has been given. -/
structure PyOptionInst where
  classHasOptions : Bool
  decoderOptions : List DecoderOption
  options : String → Option OptionValue
  /-- `get_options` finds none where there is no attribute. -/
  withoutAttribute : classHasOptions = false → decoderOptions = []
  /-- "Validate decoder metadata for duplicates" -/
  distinct : (decoderOptions.map DecoderOption.id).Nodup

/-- An instance of a C decoder, with `c_options`. -/
structure COptionInst where
  cOptions : Option (String → Option GVariant)

/-- The loop of `py_option_set` over the options of the decoder: what has been inserted into the
dictionary, and whether no value has been refused. -/
def pySetOptions (pyDiOptions : String → Option OptionValue) (options : OptionTable) :
    List DecoderOption → (String → Option OptionValue) × Bool
  | [] => (pyDiOptions, true)
  | sdo :: rest =>
      match options.value sdo.id with
      | some value =>
          if value.sameType sdo.defaultValue then
            match value.pyOptval with
            | some optval =>
                pySetOptions (fun id => if id = sdo.id then some optval else pyDiOptions id)
                  (options.remove sdo.id) rest
            | none => (pyDiOptions, false)
          else (pyDiOptions, false)
      | none =>
          match sdo.defaultValue.pyOptval with
          | some optval =>
              pySetOptions (fun id => if id = sdo.id then some optval else pyDiOptions id)
                (options.remove sdo.id) rest
          | none => (pyDiOptions, false)

def PyOptionInst.pyOptionSet (di : PyOptionInst) (options : Option OptionTable) :
    PyOptionInst × LoaderCode :=
  if di.classHasOptions then
    let (pyDiOptions, ok) := pySetOptions (fun _ => none) (options.getD []) di.decoderOptions
    ({ di with options := pyDiOptions }, if ok then .ok else .errPython)
  else
    match options with
    | some [] => (di, .ok)
    | _ => (di, .errArg)

def COptionInst.cOptionSet (di : COptionInst) (options : OptionTable) : COptionInst × LoaderCode :=
  let cOptions := options.foldl
    (fun cOptions entry id => if id = entry.1 then some entry.2 else cOptions id)
    (di.cOptions.getD fun _ => none)
  ({ di with cOptions := some cOptions }, .ok)

/-- An instance of either kind. -/
inductive OptionInst
  | python (di : PyOptionInst)
  | c (di : COptionInst)

namespace OptionInst

/-- `srd_inst_option_set`; for a C decoder a null pointer instead of a table is no defined
behaviour. -/
def srdInstOptionSet : OptionInst → Option OptionTable → Option (OptionInst × LoaderCode)
  | .python di, options =>
      let (after, code) := di.pyOptionSet options
      some (.python after, code)
  | .c di, some options =>
      let (after, code) := di.cOptionSet options
      some (.c after, code)
  | .c _, none => none

def value : OptionInst → String → Option OptionValue
  | .python di, id => di.options id
  | .c di, id => (di.cOptions.getD fun _ => none) id |>.map GVariant.optionValue

def defaultOf : OptionInst → String → Option OptionValue
  | .python di, id =>
      (di.decoderOptions.find? fun sdo => sdo.id = id).map fun sdo =>
        sdo.defaultValue.optionValue
  | .c _, _ => none

def HasOption : OptionInst → String → Prop
  | .python di, id => id ∈ di.decoderOptions.map DecoderOption.id
  | .c _, _ => True

structure SetsOptions (di : OptionInst) (options : OptionTable)
    (result : OptionInst × LoaderCode) : Prop where
  failed : result.2 ≠ .ok → ∀ id, result.1.value id = di.value id
  given : result.2 = .ok → ∀ id value, options.value id = some value → di.HasOption id →
    result.1.value id = some value.optionValue
  others : result.2 = .ok → ∀ id, options.value id = none → di.HasOption id →
    result.1.value id = di.value id ∨ result.1.value id = di.defaultOf id

end OptionInst

namespace OptionTable

theorem value_remove {options : OptionTable} {id other : String} (different : other ≠ id) :
    (options.remove id).value other = options.value other := by
  induction options with
  | nil => rfl
  | cons entry rest ih =>
      obtain ⟨key, variant⟩ := entry
      unfold remove value at ih ⊢
      by_cases removed : key = id
      · have apart : (other == key) = false := beq_eq_false_iff_ne.mpr (removed ▸ different)
        rw [filter_cons_of_neg (by simpa using removed), ih,
          lookup_cons, apart]
      · rw [filter_cons_of_pos (by simpa using removed), lookup_cons, lookup_cons,
          ih]

def chosen (options : OptionTable) (sdo : DecoderOption) : GVariant :=
  (options.value sdo.id).getD sdo.defaultValue

def Accepts (options : OptionTable) (sdo : DecoderOption) : Bool :=
  (options.chosen sdo).sameType sdo.defaultValue && (options.chosen sdo).pyOptval.isSome

/-- What the options in front of the first refused one are given. -/
def insertedBefore (options : OptionTable) (decoderOptions : List DecoderOption) (id : String) :
    Option OptionValue :=
  ((decoderOptions.takeWhile options.Accepts).find? fun sdo => sdo.id = id).map fun sdo =>
    (options.chosen sdo).optionValue

end OptionTable

theorem GVariant.sameType_self (variant : GVariant) : variant.sameType variant = true := by
  cases variant <;> rfl

theorem GVariant.pyOptval_eq {variant : GVariant} {optval : OptionValue}
    (converted : variant.pyOptval = some optval) : variant.optionValue = optval := by
  cases variant with
  | string bytes =>
      by_cases valid : (ByteArray.mk bytes.toArray).validateUTF8 = true
      · exact Option.some.inj ((if_pos valid).symm.trans converted)
      · exact absurd ((if_neg valid).symm.trans converted) nofun
  | int64 value => exact Option.some.inj converted
  | double bits => exact Option.some.inj converted

variable {options : OptionTable}

theorem pySetOptions_accepted (pyDiOptions : String → Option OptionValue) {sdo : DecoderOption} (accepted : options.Accepts sdo = true)
    (rest : List DecoderOption) :
    pySetOptions pyDiOptions options (sdo :: rest) = pySetOptions
        (fun id => if id = sdo.id then some (options.chosen sdo).optionValue else pyDiOptions id)
        (options.remove sdo.id) rest := by
  obtain ⟨sameType, converts⟩ := Bool.and_eq_true_iff.mp accepted
  obtain ⟨optval, converted⟩ := isSome_iff_exists.mp converts
  rw [GVariant.pyOptval_eq converted, pySetOptions]
  unfold OptionTable.chosen at sameType converted
  cases given : options.value sdo.id with
  | some value =>
      rw [given] at sameType converted
      exact (if_pos sameType).trans (by rw [getD_some] at converted; rw [converted])
  | none =>
      rw [given] at converted
      rw [getD_none] at converted
      dsimp only
      rw [converted]

theorem pySetOptions_refused (pyDiOptions : String → Option OptionValue) {sdo : DecoderOption} (refused : options.Accepts sdo = false)
    (rest : List DecoderOption) :
    pySetOptions pyDiOptions options (sdo :: rest) = (pyDiOptions, false) := by
  rw [pySetOptions]
  unfold OptionTable.Accepts OptionTable.chosen at refused
  cases given : options.value sdo.id with
  | some value =>
      rw [given, getD_some, Bool.and_eq_false_iff] at refused
      dsimp only
      split
      · next sameType =>
          have converted := refused.resolve_left fun other =>
            Bool.false_ne_true (other.symm.trans sameType)
          rw [isSome_eq_false_iff, isNone_iff_eq_none] at converted
          rw [converted]
      · rfl
  | none =>
      rw [given, getD_none, GVariant.sameType_self, Bool.true_and,
        isSome_eq_false_iff, isNone_iff_eq_none] at refused
      dsimp only
      rw [refused]

theorem pySetOptions_eq {decoderOptions : List DecoderOption}
    (distinct : (decoderOptions.map DecoderOption.id).Nodup) {current : OptionTable}
    (left : ∀ sdo ∈ decoderOptions, current.value sdo.id = options.value sdo.id)
    (pyDiOptions : String → Option OptionValue) :
    pySetOptions pyDiOptions current decoderOptions =
      (fun id => (options.insertedBefore decoderOptions id).or (pyDiOptions id),
        decoderOptions.all options.Accepts) := by
  induction decoderOptions generalizing current pyDiOptions with
  | nil => rfl
  | cons sdo rest ih =>
      rw [map_cons, nodup_cons] at distinct
      obtain ⟨others, distinctRest⟩ := distinct
      have here := left sdo mem_cons_self
      have chosen : current.chosen sdo = options.chosen sdo := by
        rw [OptionTable.chosen, OptionTable.chosen, here]
      have accepts : current.Accepts sdo = options.Accepts sdo := by
        rw [OptionTable.Accepts, OptionTable.Accepts, chosen]
      cases accepted : options.Accepts sdo with
      | false =>
          rw [pySetOptions_refused _ (accepts.trans accepted), all_cons, accepted]
          unfold OptionTable.insertedBefore
          rw [takeWhile_cons_of_neg (by rw [accepted]; exact Bool.false_ne_true)]
          rfl
      | true =>
          have leftRest : ∀ other ∈ rest,
              (current.remove sdo.id).value other.id = options.value other.id := by
            intro other member
            have different : other.id ≠ sdo.id := fun same =>
              others (same ▸ List.mem_map_of_mem member)
            rw [OptionTable.value_remove different]
            exact left other (mem_cons_of_mem _ member)
          rw [pySetOptions_accepted _ (accepts.trans accepted), chosen,
            ih distinctRest leftRest, all_cons, accepted, Bool.true_and]
          refine Prod.ext (funext fun id => ?_) rfl
          dsimp only
          unfold OptionTable.insertedBefore
          rw [takeWhile_cons_of_pos accepted, find?_cons]
          by_cases same : sdo.id = id
          · have none : (rest.takeWhile options.Accepts).find? (fun other => other.id = id) =
                none := by
              refine find?_eq_none.mpr fun other member found => others ?_
              rw [same, ← of_decide_eq_true found]
              exact List.mem_map_of_mem ((takeWhile_sublist _).subset member)
            simp only [same, none, decide_true, map_none, map_some, none_or, if_true, some_or]
          · simp only [same, decide_false, if_neg (Ne.symm same)]

theorem foldl_insert (distinct : (options.map Prod.fst).Nodup)
    (cOptions : String → Option GVariant) (id : String) :
    options.foldl (fun cOptions entry id => if id = entry.1 then some entry.2 else cOptions id)
      cOptions id = (options.value id).or (cOptions id) := by
  induction options generalizing cOptions with
  | nil => rfl
  | cons entry rest ih =>
      obtain ⟨key, variant⟩ := entry
      rw [map_cons, nodup_cons] at distinct
      rw [foldl_cons, ih distinct.2]
      unfold OptionTable.value
      rw [lookup_cons]
      by_cases same : id = key
      · have none : rest.lookup id = none := by
          rw [lookup_eq_none_iff]
          intro other member
          refine bne_iff_ne.mpr fun again => distinct.1 ?_
          have inside : other.1 ∈ rest.map Prod.fst := List.mem_map_of_mem member
          rwa [← again, same] at inside
        have found : (id == key) = true := beq_iff_eq.mpr same
        rw [none, if_pos same, found]
        rfl
      · have other : (id == key) = false := beq_eq_false_iff_ne.mpr same
        rw [if_neg same, other]

namespace OptionInst

/-- Nothing is refused, or the dictionary has been the one that the loop leaves behind. -/
def Unharmed : OptionInst → OptionTable → Prop
  | .python di, options =>
      di.classHasOptions = false ∨ (∀ sdo ∈ di.decoderOptions, options.Accepts sdo = true) ∨
        ∀ id, di.options id = options.insertedBefore di.decoderOptions id
  | .c _, _ => True

theorem cOptionSet_sets (di : COptionInst) {options : OptionTable}
    (distinct : (options.map Prod.fst).Nodup) :
    SetsOptions (.c di) options (.c (di.cOptionSet options).1, (di.cOptionSet options).2) := by
  constructor
  · exact fun failed => absurd rfl failed
  · intro _ id variant given _
    unfold value COptionInst.cOptionSet
    dsimp only [getD_some]
    rw [foldl_insert distinct, given]
    rfl
  · intro _ id missing _
    left
    unfold value COptionInst.cOptionSet
    dsimp only [getD_some]
    rw [foldl_insert distinct, missing]
    rfl

end OptionInst

namespace PyOptionInst

open OptionInst

variable {di : PyOptionInst} {options : OptionTable}

theorem pyOptionSet_eq (options : OptionTable) (declared : di.classHasOptions = true) :
    di.pyOptionSet (some options) =
      ({ di with options := options.insertedBefore di.decoderOptions },
        if di.decoderOptions.all options.Accepts then .ok else .errPython) := by
  have loop : pySetOptions (fun _ => none) options di.decoderOptions =
      (fun id => (options.insertedBefore di.decoderOptions id).or none,
        di.decoderOptions.all options.Accepts) :=
    pySetOptions_eq di.distinct (fun sdo _ => rfl) fun _ => none
  unfold pyOptionSet
  rw [if_pos declared, getD_some, loop]
  simp only [or_none]

theorem find?_of_mem {id : String} (member : id ∈ di.decoderOptions.map DecoderOption.id) :
    ∃ sdo ∈ di.decoderOptions, sdo.id = id ∧
      di.decoderOptions.find? (fun sdo => sdo.id = id) = some sdo := by
  obtain ⟨first, inside, same⟩ := List.mem_map.mp member
  have found : (di.decoderOptions.find? fun sdo => sdo.id = id).isSome :=
    find?_isSome.mpr ⟨first, inside, decide_eq_true same⟩
  obtain ⟨sdo, here⟩ := isSome_iff_exists.mp found
  have same : decide (sdo.id = id) = true :=
    find?_some (p := fun sdo : DecoderOption => decide (sdo.id = id)) here
  exact ⟨sdo, mem_of_find?_eq_some here, of_decide_eq_true same, here⟩

theorem sets_of_accepted (accepted : ∀ sdo ∈ di.decoderOptions, options.Accepts sdo = true)
    (declared : di.classHasOptions = true) :
    SetsOptions (.python di) options
      (.python (di.pyOptionSet (some options)).1, (di.pyOptionSet (some options)).2) := by
  have all : di.decoderOptions.takeWhile options.Accepts = di.decoderOptions :=
    takeWhile_eq_self_iff.mpr accepted
  rw [pyOptionSet_eq options declared, if_pos (List.all_eq_true.mpr accepted)]
  refine ⟨fun failed => absurd rfl failed, ?_, ?_⟩
  · intro _ id variant given known
    obtain ⟨sdo, -, same, found⟩ := find?_of_mem known
    unfold value OptionTable.insertedBefore
    dsimp only
    rw [all, found, map_some, OptionTable.chosen, same, given]
    rfl
  · intro _ id missing known
    obtain ⟨sdo, -, same, found⟩ := find?_of_mem known
    right
    unfold value defaultOf OptionTable.insertedBefore
    dsimp only
    rw [all, found, map_some, map_some, OptionTable.chosen, same, missing]
    rfl

theorem sets_iff_of_refused (refused : ¬∀ sdo ∈ di.decoderOptions, options.Accepts sdo = true)
    (declared : di.classHasOptions = true) :
    SetsOptions (.python di) options
        (.python (di.pyOptionSet (some options)).1, (di.pyOptionSet (some options)).2) ↔
      ∀ id, di.options id = options.insertedBefore di.decoderOptions id := by
  rw [pyOptionSet_eq options declared, if_neg fun all => refused (List.all_eq_true.mp all)]
  constructor
  · intro sets id
    exact (sets.failed nofun id).symm
  · intro same
    exact ⟨fun _ id => (same id).symm, nofun, nofun⟩

theorem sets_without_attribute (declared : di.classHasOptions = false) :
    SetsOptions (.python di) options
      (.python (di.pyOptionSet (some options)).1, (di.pyOptionSet (some options)).2) := by
  have kept : (di.pyOptionSet (some options)).1 = di := by
    unfold pyOptionSet
    rw [if_neg (ne_of_eq_of_ne declared Bool.false_ne_true)]
    cases options <;> rfl
  have unknown : ∀ id, ¬HasOption (.python di) id := by
    intro id known
    rw [HasOption, di.withoutAttribute declared] at known
    exact not_mem_nil known
  rw [kept]
  exact ⟨fun _ id => rfl, fun _ id _ _ known => absurd known (unknown id),
    fun _ id _ known => absurd known (unknown id)⟩

end PyOptionInst

/-- Options are set as they are given, or none is changed, exactly where no value is refused or
the dictionary has been the one that is left. -/
theorem OptionInst.optionSet_iff (di : OptionInst) (options : OptionTable)
    (distinct : (options.map Prod.fst).Nodup) :
    ∃ result, di.srdInstOptionSet (some options) = some result ∧
      (di.SetsOptions options result ↔ di.Unharmed options) := by
  cases di with
  | c di => exact ⟨_, rfl, iff_of_true (cOptionSet_sets di distinct) trivial⟩
  | python di =>
      refine ⟨(.python (di.pyOptionSet (some options)).1, (di.pyOptionSet (some options)).2), rfl,
        ?_⟩
      by_cases declared : di.classHasOptions = true
      · by_cases accepted : ∀ sdo ∈ di.decoderOptions, options.Accepts sdo = true
        · exact iff_of_true (PyOptionInst.sets_of_accepted accepted declared)
            (Or.inr (Or.inl accepted))
        · refine (PyOptionInst.sets_iff_of_refused accepted declared).trans ?_
          constructor
          · exact fun same => Or.inr (Or.inr same)
          · rintro (missing | all | same)
            · exact absurd (declared.symm.trans missing) nofun
            · exact absurd all accepted
            · exact same
      · have missing := Bool.eq_false_iff.mpr declared
        exact iff_of_true (PyOptionInst.sets_without_attribute missing) (Or.inl missing)

/-- `bitrate` is a number, `format` a text; the instance has the defaults of both. -/
def bitrateAndFormat : PyOptionInst where
  classHasOptions := true
  decoderOptions := [⟨"bitrate", .int64 9600⟩, ⟨"format", .string [104, 101, 120]⟩]
  options id :=
    if id = "bitrate" then some (.int 9600)
    else if id = "format" then some (.str [104, 101, 120])
    else none
  withoutAttribute := nofun
  distinct := by decide

theorem optionSet_iff_bitrate : ∃ result, OptionInst.srdInstOptionSet (.python bitrateAndFormat)
        (some [("bitrate", .int64 115200)]) = some result ∧
      (OptionInst.SetsOptions (.python bitrateAndFormat) [("bitrate", .int64 115200)] result ↔
        OptionInst.Unharmed (.python bitrateAndFormat) [("bitrate", .int64 115200)]) :=
  OptionInst.optionSet_iff (.python bitrateAndFormat) [("bitrate", .int64 115200)] (by decide)

/-- The number is changed although the text is refused, and the text is gone. -/
theorem optionSet_changes_bitrate : ∃ after, OptionInst.srdInstOptionSet (.python bitrateAndFormat)
        (some [("bitrate", .int64 115200), ("format", .int64 1)]) = some (after, .errPython) ∧
      OptionInst.value (.python bitrateAndFormat) "bitrate" = some (.int 9600) ∧
      after.value "bitrate" = some (.int 115200) ∧ after.value "format" = none ∧
      ¬OptionInst.SetsOptions (.python bitrateAndFormat)
        [("bitrate", .int64 115200), ("format", .int64 1)] (after, .errPython) := by
  refine ⟨_, rfl, rfl, rfl, rfl, fun sets => ?_⟩
  have kept := sets.failed nofun "bitrate"
  exact absurd kept (by decide)

end SigrokDecode
