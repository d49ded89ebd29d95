import Mathlib.Data.List.TakeDrop
import SigrokDecode.Foundation.PythonObjects

/-!
# From Python decoders to C decoders

`Decoder_put` calls `decode_upper` of the C decoders that are stacked on a Python decoder. The
types of the Python objects decide which fields they become.
-/

set_option linter.dupNamespace false

namespace SigrokDecode

open Foundation

inductive CFieldType
  | u8
  | u16
  | u32
  | u64
  | i8
  | i16
  | i32
  | i64
  | f64
  | str
  | bytes
  deriving DecidableEq

/-- A pointer to a string; `freed` is one to memory that has been given back. -/
inductive TextPointer
  | live (text : List UInt8)
  | freed
  deriving DecidableEq

/-- `c_field`; a `double` is given by its bits. -/
inductive ProtoField
  | u8 (value : UInt8)
  | u16 (value : UInt16)
  | u32 (value : UInt32)
  | u64 (value : UInt64)
  | i8 (value : Int8)
  | i16 (value : Int16)
  | i32 (value : Int32)
  | i64 (value : Int64)
  | f64 (bits : UInt64)
  | str (pointer : TextPointer)
  | bytes (data : List UInt8)
  deriving DecidableEq

def ProtoField.type : ProtoField → CFieldType
  | .u8 _ => .u8
  | .u16 _ => .u16
  | .u32 _ => .u32
  | .u64 _ => .u64
  | .i8 _ => .i8
  | .i16 _ => .i16
  | .i32 _ => .i32
  | .i64 _ => .i64
  | .f64 _ => .f64
  | .str _ => .str
  | .bytes _ => .bytes

def ProtoField.intValue : ProtoField → Option Int
  | .u8 value => some value.toNat
  | .u16 value => some value.toNat
  | .u32 value => some value.toNat
  | .u64 value => some value.toNat
  | .i8 value => some value.toInt
  | .i16 value => some value.toInt
  | .i32 value => some value.toInt
  | .i64 value => some value.toInt
  | _ => none

/-- The arguments of `decode_upper` behind the sample numbers. -/
structure UpperCall where
  cmd : TextPointer
  fields : List ProtoField

/-- What `Decoder_put` can find out about an element; `other` has none of the types that it asks
for. -/
inductive PyItem
  | none
  | str (utf8 : Option (List UInt8))
  | int (value : Int)
  | float (bits : UInt64)
  | bytes (data : List UInt8)
  | list
  | other

inductive PySequence
  | list
  | tuple
  deriving DecidableEq

/-- The last argument of `put`: a command and its values. -/
structure PyOutput where
  sequence : PySequence
  cmd : PyItem
  values : List PyItem

section Bridge

-- `keeps` says of which texts the interpreter itself holds on to the bytes object.
variable (keeps : List UInt8 → Bool)

/-- `PyUnicode_AsUTF8String`, `PyBytes_AsString` and `Py_DECREF`, in this order. -/
def encodedText (utf8 : List UInt8) : TextPointer :=
  if keeps utf8 then .live (cString utf8) else .freed

/-- The field that a value becomes. -/
def bridgeItem : PyItem → Option ProtoField
  | .none => .none
  | .str utf8 => utf8.map fun utf8 => .str (encodedText keeps utf8)
  | .int value => some (.i64 (pyLongAsLong value))
  | .float bits => some (.f64 bits)
  | .bytes data => some (.bytes (data.take (data.length % 2 ^ 32)))
  | .list => .none
  | .other => .none

/-- The loop over the values, with `count` fields so far. -/
def bridgeItems (count : Nat) : List PyItem → List ProtoField
  | [] => []
  | item :: items =>
      if count < 64 then
        match bridgeItem keeps item with
        | none => bridgeItems count items
        | some field => field :: bridgeItems (count + 1) items
      else
        []

/-- The command; where there is none, it is a literal. -/
def bridgeCmd : PyItem → TextPointer
  | .str (some utf8) => encodedText keeps utf8
  | _ => .live []

/-- What `Decoder_put` calls `decode_upper` with. `PyList_Size` of a tuple is negative. -/
def bridgeOutput (output : PyOutput) : UpperCall :=
  match output.sequence with
  | .list => ⟨bridgeCmd keeps output.cmd, bridgeItems keeps 0 output.values⟩
  | .tuple => ⟨.live [], []⟩

end Bridge

def Carries : PyItem → ProtoField → Prop
  | .str (some utf8), field => field = .str (.live utf8)
  | .int value, field => field.intValue = some value
  | .float bits, field => field = .f64 bits
  | .bytes data, field => field = .bytes data
  | _, _ => False

structure Arrives (types : Nat → CFieldType) (output : PyOutput) (call : UpperCall) : Prop where
  cmd : ∃ utf8, output.cmd = .str (some utf8) ∧ call.cmd = .live utf8
  count : call.fields.length = output.values.length
  each : ∀ i item field, output.values[i]? = some item → call.fields[i]? = some field →
    field.type = types i ∧ Carries item field

def Survives (keeps : List UInt8 → Bool) (type : CFieldType) : PyItem → Prop
  | .str (some utf8) => type = .str ∧ keeps utf8 = true ∧ 0 ∉ utf8
  | .int value => type = .i64 ∧ -2 ^ 63 ≤ value ∧ value < 2 ^ 63
  | .float _ => type = .f64
  | .bytes data => type = .bytes ∧ data.length < 2 ^ 32
  | _ => False

/-- The condition on an output and the types of the C lower decoder. A tuple arrives if there is
nothing in it. -/
structure Bridgeable (keeps : List UInt8 → Bool) (types : Nat → CFieldType) (output : PyOutput) :
    Prop where
  cmd : ∃ utf8, output.cmd = .str (some utf8) ∧
    (output.sequence = .list ∧ keeps utf8 = true ∧ 0 ∉ utf8 ∨
      output.sequence = .tuple ∧ utf8 = [] ∧ output.values = [])
  few : output.values.length ≤ 64
  each : ∀ i item, output.values[i]? = some item → Survives keeps (types i) item

variable {keeps : List UInt8 → Bool}

theorem bridgeItems_length_le (items : List PyItem) (count : Nat) :
    (bridgeItems keeps count items).length ≤ items.length := by
  induction items generalizing count with
  | nil => exact Nat.le_refl 0
  | cons item items ih =>
      unfold bridgeItems
      split
      · split
        · exact Nat.le_succ_of_le (ih count)
        · exact Nat.succ_le_succ (ih (count + 1))
      · exact Nat.zero_le _

/-- There are as many fields as values exactly if no value is passed over. -/
theorem bridgeItems_length_eq_iff (items : List PyItem) {count : Nat} (room : count ≤ 64) :
    (bridgeItems keeps count items).length = items.length ↔
      count + items.length ≤ 64 ∧ ∀ item ∈ items, bridgeItem keeps item ≠ none := by
  induction items generalizing count with
  | nil => exact iff_of_true rfl ⟨room, fun item member => absurd member List.not_mem_nil⟩
  | cons item items ih =>
      unfold bridgeItems
      rw [List.forall_mem_cons, List.length_cons]
      split
      · rename_i more
        split
        · rename_i passed
          have fewer := @bridgeItems_length_le keeps items count
          refine iff_of_false (fun same => ?_) fun both => both.2.1 passed
          omega
        · rename_i field made
          have place : count + 1 + items.length = count + (items.length + 1) := by omega
          rw [List.length_cons, Nat.succ_inj, ih more, place]
          refine and_congr_right fun _ => (and_iff_right ?_).symm
          rw [made]
          exact Option.some_ne_none field
      · refine iff_of_false (fun same => ?_) fun both => ?_
        · exact Nat.succ_ne_zero _ same.symm
        · omega

theorem bridgeItems_getElem? {items : List PyItem} {count : Nat}
    (whole : (bridgeItems keeps count items).length = items.length) (i : Nat) :
    (bridgeItems keeps count items)[i]? = items[i]?.bind (bridgeItem keeps) := by
  induction items generalizing count i with
  | nil => rfl
  | cons item items ih =>
      unfold bridgeItems at whole ⊢
      split at whole
      · rename_i more
        rw [if_pos more]
        split at whole
        · have fewer := @bridgeItems_length_le keeps items count
          rw [List.length_cons] at whole
          omega
        · rename_i field made
          cases i with
          | zero => exact made.symm
          | succ i => exact ih (Nat.succ.inj whole) i
      · exact absurd whole.symm (Nat.succ_ne_zero _)

theorem pyLongAsLong_eq_iff (value : Int) :
    (pyLongAsLong value).toInt = value ↔ -2 ^ 63 ≤ value ∧ value < 2 ^ 63 := by
  unfold pyLongAsLong
  split
  · rename_i range
    refine iff_of_true ?_ range
    exact Int64.toInt_ofInt_of_le range.1 range.2
  · rename_i beyond
    refine iff_of_false (fun same => beyond ?_) beyond
    have minusOne : (-1 : Int64).toInt = -1 := by decide
    rw [minusOne] at same
    omega

theorem cString_eq_self_iff (utf8 : List UInt8) : cString utf8 = utf8 ↔ 0 ∉ utf8 := by
  constructor
  · intro whole
    rw [← whole]
    exact zero_notMem_cString utf8
  · intro noZero
    refine List.takeWhile_eq_self_iff.mpr fun byte member => ?_
    refine decide_eq_true fun zero => noZero ?_
    exact zero ▸ member

theorem encodedText_eq_iff (utf8 : List UInt8) :
    encodedText keeps utf8 = .live utf8 ↔ keeps utf8 = true ∧ 0 ∉ utf8 := by
  unfold encodedText
  split
  · rename_i kept
    rw [and_iff_right kept, ← cString_eq_self_iff]
    exact ⟨TextPointer.live.inj, congrArg TextPointer.live⟩
  · rename_i given
    exact iff_of_false nofun fun both => given both.1

theorem take_length_mod_eq_iff (data : List UInt8) (limit : Nat) (some : 0 < limit) :
    data.take (data.length % limit) = data ↔ data.length < limit := by
  rw [List.take_eq_self_iff]
  constructor
  · intro whole
    exact Nat.lt_of_le_of_lt whole (Nat.mod_lt _ some)
  · intro small
    exact Nat.le_of_eq (Nat.mod_eq_of_lt small).symm

theorem survives_iff (type : CFieldType) (item : PyItem) : Survives keeps type item ↔
      ∃ field, bridgeItem keeps item = some field ∧ field.type = type ∧ Carries item field := by
  cases item with
  | none => exact iff_of_false id nofun
  | list => exact iff_of_false id nofun
  | other => exact iff_of_false id nofun
  | str utf8 =>
      cases utf8 with
      | none => exact iff_of_false id nofun
      | some utf8 =>
          constructor
          · rintro ⟨rfl, live⟩
            exact ⟨_, rfl, rfl, congrArg ProtoField.str ((encodedText_eq_iff utf8).mpr live)⟩
          · rintro ⟨field, made, rfl, same⟩
            cases made
            exact ⟨rfl, (encodedText_eq_iff utf8).mp (ProtoField.str.inj same)⟩
  | int value =>
      constructor
      · rintro ⟨rfl, range⟩
        exact ⟨_, rfl, rfl, congrArg some ((pyLongAsLong_eq_iff value).mpr range)⟩
      · rintro ⟨field, made, rfl, same⟩
        cases made
        exact ⟨rfl, (pyLongAsLong_eq_iff value).mp (Option.some.inj same)⟩
  | float bits =>
      constructor
      · rintro rfl
        exact ⟨_, rfl, rfl, rfl⟩
      · rintro ⟨field, made, rfl, -⟩
        cases made
        rfl
  | bytes data =>
      constructor
      · rintro ⟨rfl, short⟩
        refine ⟨_, rfl, rfl, congrArg ProtoField.bytes ?_⟩
        exact (take_length_mod_eq_iff data _ (by decide)).mpr short
      · rintro ⟨field, made, rfl, same⟩
        cases made
        refine ⟨rfl, ?_⟩
        exact (take_length_mod_eq_iff data _ (by decide)).mp (ProtoField.bytes.inj same)

theorem bridgeItem_ne_none_of_survives {type : CFieldType} {item : PyItem}
    (survives : Survives keeps type item) : bridgeItem keeps item ≠ none := by
  obtain ⟨field, made, -⟩ := (survives_iff type item).mp survives
  rw [made]
  exact Option.some_ne_none field

theorem values_arrive_iff (types : Nat → CFieldType) (values : List PyItem) :
    ((bridgeItems keeps 0 values).length = values.length ∧
        ∀ i item field, values[i]? = some item → (bridgeItems keeps 0 values)[i]? = some field →
          field.type = types i ∧ Carries item field) ↔
      values.length ≤ 64 ∧ ∀ i item, values[i]? = some item → Survives keeps (types i) item := by
  constructor
  · rintro ⟨whole, each⟩
    obtain ⟨few, made⟩ := (bridgeItems_length_eq_iff values (Nat.zero_le 64)).mp whole
    rw [Nat.zero_add] at few
    refine ⟨few, fun i item found => (survives_iff _ item).mpr ?_⟩
    obtain ⟨field, here⟩ := Option.ne_none_iff_exists'.mp (made item (List.mem_of_getElem? found))
    have place := bridgeItems_getElem? whole i
    rw [found, Option.bind_some, here] at place
    exact ⟨field, here, each i item field found place⟩
  · rintro ⟨few, survives⟩
    have whole : (bridgeItems keeps 0 values).length = values.length := by
      refine (bridgeItems_length_eq_iff values (Nat.zero_le 64)).mpr ⟨by omega, ?_⟩
      intro item member
      obtain ⟨i, found⟩ := List.getElem?_of_mem member
      exact bridgeItem_ne_none_of_survives (survives i item found)
    refine ⟨whole, fun i item field found place => ?_⟩
    rw [bridgeItems_getElem? whole i, found, Option.bind_some] at place
    obtain ⟨other, made, right⟩ := (survives_iff _ item).mp (survives i item found)
    obtain rfl := Option.some.inj (place.symm.trans made)
    exact right

theorem bridgeCmd_eq_iff (cmd : PyItem) :
    (∃ utf8, cmd = .str (some utf8) ∧ bridgeCmd keeps cmd = .live utf8) ↔
      ∃ utf8, cmd = .str (some utf8) ∧ keeps utf8 = true ∧ 0 ∉ utf8 := by
  refine exists_congr fun utf8 => and_congr_right fun text => ?_
  rw [text]
  exact encodedText_eq_iff utf8

theorem arrives_iff (types : Nat → CFieldType) (output : PyOutput) :
    Arrives types output (bridgeOutput keeps output) ↔ Bridgeable keeps types output := by
  obtain ⟨sequence, cmd, values⟩ := output
  cases sequence with
  | list =>
      constructor
      · rintro ⟨command, count, each⟩
        obtain ⟨utf8, text, live⟩ := (bridgeCmd_eq_iff cmd).mp command
        obtain ⟨few, survives⟩ := (values_arrive_iff types values).mp ⟨count, each⟩
        exact ⟨⟨utf8, text, Or.inl ⟨rfl, live⟩⟩, few, survives⟩
      · rintro ⟨⟨utf8, text, ⟨-, live⟩ | ⟨tuple, -⟩⟩, few, survives⟩
        · obtain ⟨count, each⟩ := (values_arrive_iff types values).mpr ⟨few, survives⟩
          exact ⟨(bridgeCmd_eq_iff cmd).mpr ⟨utf8, text, live⟩, count, each⟩
        · cases tuple
  | tuple =>
      constructor
      · rintro ⟨⟨utf8, text, empty⟩, count, each⟩
        have none : values = [] := List.length_eq_zero_iff.mp count.symm
        subst none
        cases empty
        exact ⟨⟨[], text, Or.inr ⟨rfl, rfl, rfl⟩⟩, Nat.zero_le 64, nofun⟩
      · rintro ⟨⟨utf8, text, ⟨list, -⟩ | ⟨-, rfl, none⟩⟩, -, -⟩
        · cases list
        · cases none
          exact ⟨⟨[], text, rfl⟩, rfl, nofun⟩

end SigrokDecode
