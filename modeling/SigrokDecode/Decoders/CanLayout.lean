import SigrokDecode.Decoders.CanSteps

/-!
# What CAN and CAN FD frames share

Both decoders read an identifier, flags, a data length code and a data field; the
flags and what comes behind the data field depend on the kind of frame.
-/

namespace SigrokDecode

open Foundation List

/-- A frame without stuff bits. -/
structure CanLayout where
  baseId : BitVec 11
  /-- The bit in front of the identifier extension. -/
  bit12 : Bool
  extension : Option (BitVec 18)
  flags : List Bool
  dlc : Nat
  bytes : List (BitVec 8)
  /-- The bits behind the data field. -/
  back : List Bool
  /-- The annotations that go out with each flag. -/
  flagFields : Nat → List CanField
  /-- The annotations that go out with each bit behind the data field. -/
  backFields : Nat → List CanField
  fourBits : dlc < 16
  length : bytes.length = dlc2len dlc

namespace CanLayout

variable (layout : CanLayout)

def frameType : CanFrameType :=
  if layout.extension.isSome then .extended else .standard

def fullid : Nat :=
  match layout.extension with
  | none => layout.baseId.toNat
  | some extension => layout.baseId.toNat * 2 ^ 18 + extension.toNat

def extensionBits : List Bool :=
  match layout.extension with
  | none => []
  | some extension => msbBits 18 extension.toNat

def ident : List Bool :=
  [false] ++ msbBits 11 layout.baseId.toNat ++
    ([layout.bit12, layout.extension.isSome] ++ layout.extensionBits)

def data : List Bool :=
  layout.bytes.flatMap fun byte => msbBits 8 byte.toNat

def front : List Bool :=
  layout.ident ++ layout.flags ++ msbBits 4 layout.dlc ++ layout.data

def plain : List Bool :=
  layout.front ++ layout.back

def flagsStart : Nat :=
  if layout.extension.isSome then 32 else 14

def dlcStart : Nat :=
  layout.flagsStart + layout.flags.length

def lastDatabit : Nat :=
  layout.dlcStart + 3 + 8 * layout.bytes.length

/-- The number of bits with the whole identifier. -/
def fullidEnd : Nat :=
  if layout.extension.isSome then 32 else 12

theorem flagsStart_cases : layout.flagsStart = 14 ∧ layout.fullidEnd = 12 ∨
    layout.flagsStart = 32 ∧ layout.fullidEnd = 32 := by
  rw [flagsStart, fullidEnd]
  cases layout.extension with
  | none => exact Or.inl ⟨rfl, rfl⟩
  | some extension => exact Or.inr ⟨rfl, rfl⟩

def baseFields : List CanField :=
  .ident layout.baseId.toNat ::
    if layout.baseId.toNat &&& 0x7f0 = 0x7f0 then [.warning .identRecessive] else []

/-- The annotations of the extended identifier. -/
def extensionFields : List CanField :=
  match layout.extension with
  | none => []
  | some extension =>
      [.extIdent extension.toNat, .fullIdent layout.fullid, .srr layout.bit12]

def dataFields : List CanField :=
  layout.bytes.zipIdx.map fun byte => .data byte.2 byte.1.toNat

/-- The annotations at the positions in front of the flags. -/
def identFieldsAt (k : Nat) : List CanField :=
  if k = 0 then
    [.sof]
  else if k = 11 then
    layout.baseFields
  else if k = 13 then
    [.ide layout.frameType]
  else if k = 31 then
    layout.extensionFields
  else
    []

/-- The annotations that go out with a bit. -/
def fieldsAt (k : Nat) : List CanField :=
  if k < layout.flagsStart then
    layout.identFieldsAt k
  else if k < layout.dlcStart then
    layout.flagFields (k - layout.flagsStart)
  else if k = layout.dlcStart + 3 then
    [.dlc layout.dlc]
  else if k = layout.lastDatabit then
    layout.dataFields
  else if k < layout.lastDatabit then
    []
  else
    layout.backFields (k - layout.lastDatabit - 1)

def fieldsBefore (k : Nat) : List CanField :=
  (List.range k).flatMap layout.fieldsAt

theorem fieldsBefore_succ (k : Nat) :
    layout.fieldsBefore (k + 1) = layout.fieldsBefore k ++ layout.fieldsAt k := by
  simp [fieldsBefore, range_succ]

theorem fieldsBefore_add (k count : Nat) : layout.fieldsBefore (k + count) =
      layout.fieldsBefore k ++
        (range count).flatMap fun i => layout.fieldsAt (k + i) := by
  rw [fieldsBefore, range_add, flatMap_append, flatMap_map]
  rfl

theorem fieldsBefore_silent {start stop : Nat} (le : start ≤ stop)
    (silent : ∀ k, start ≤ k → k < stop → layout.fieldsAt k = []) :
    layout.fieldsBefore stop = layout.fieldsBefore start := by
  induction le with
  | refl => rfl
  | step le ih =>
      rename_i stop
      rw [fieldsBefore_succ, silent stop le (Nat.lt_succ_self stop), List.append_nil]
      exact ih fun k above below => silent k above (by omega)

section FieldsAt

variable {layout} {k : Nat}

theorem fieldsAt_ident (inside : k < layout.flagsStart) :
    layout.fieldsAt k = layout.identFieldsAt k :=
  if_pos inside

theorem fieldsAt_flag {i : Nat} (inside : i < layout.flags.length) :
    layout.fieldsAt (layout.flagsStart + i) = layout.flagFields i := by
  have position : layout.flagsStart + i < layout.dlcStart := by
    rw [dlcStart]
    omega
  rw [fieldsAt, if_neg (by omega), if_pos position, Nat.add_sub_cancel_left]

theorem fieldsAt_dlc : layout.fieldsAt (layout.dlcStart + 3) = [.dlc layout.dlc] := by
  have behind : layout.flagsStart ≤ layout.dlcStart := Nat.le_add_right _ _
  rw [fieldsAt, if_neg (by omega), if_neg (by omega), if_pos rfl]

theorem fieldsAt_inside (behind : layout.dlcStart ≤ k) (notDlc : k ≠ layout.dlcStart + 3)
    (inside : k < layout.lastDatabit) : layout.fieldsAt k = [] := by
  have flags : layout.flagsStart ≤ layout.dlcStart := Nat.le_add_right _ _
  rw [fieldsAt, if_neg (by omega), if_neg (by omega), if_neg notDlc, if_neg (by omega),
    if_pos inside]

theorem fieldsAt_data (some : 0 < layout.bytes.length) :
    layout.fieldsAt layout.lastDatabit = layout.dataFields := by
  have flags : layout.flagsStart ≤ layout.dlcStart := Nat.le_add_right _ _
  have last : layout.lastDatabit = layout.dlcStart + 3 + 8 * layout.bytes.length := rfl
  rw [fieldsAt, if_neg (by omega), if_neg (by omega), if_neg (by omega), if_pos rfl]

theorem fieldsAt_back (i : Nat) :
    layout.fieldsAt (layout.lastDatabit + 1 + i) = layout.backFields i := by
  have flags : layout.flagsStart ≤ layout.dlcStart := Nat.le_add_right _ _
  have last : layout.lastDatabit = layout.dlcStart + 3 + 8 * layout.bytes.length := rfl
  have position : layout.lastDatabit + 1 + i - layout.lastDatabit - 1 = i := by omega
  rw [fieldsAt, if_neg (by omega), if_neg (by omega), if_neg (by omega), if_neg (by omega),
    if_neg (by omega), position]

end FieldsAt

def identFields : List CanField :=
  .sof :: layout.baseFields ++ .ide layout.frameType :: layout.extensionFields

theorem fieldsBefore_flags : layout.fieldsBefore layout.flagsStart = layout.identFields := by
  have silent : ∀ k, k < layout.flagsStart → k ≠ 0 → k ≠ 11 → k ≠ 13 → k ≠ 31 →
      layout.fieldsAt k = [] := by
    intro k inside no0 no11 no13 no31
    rw [fieldsAt_ident inside, identFieldsAt, if_neg no0, if_neg no11, if_neg no13, if_neg no31]
  have late : 14 ≤ layout.flagsStart := by
    rcases layout.flagsStart_cases with ⟨start, _⟩ | ⟨start, _⟩
    · omega
    · omega
  have early : layout.fieldsBefore 14 =
      .sof :: layout.baseFields ++ [CanField.ide layout.frameType] := by
    have base : layout.fieldsBefore 11 = [.sof] := by
      rw [layout.fieldsBefore_silent (by omega : 1 ≤ 11) fun k above below =>
        silent k (by omega) (by omega) (by omega) (by omega) (by omega),
        layout.fieldsBefore_succ 0, fieldsAt_ident (by omega)]
      rfl
    rw [layout.fieldsBefore_succ 13, layout.fieldsBefore_succ 12,
      layout.fieldsBefore_succ 11, base, fieldsAt_ident (by omega : 11 < layout.flagsStart),
      silent 12 (by omega) (by omega) (by omega) (by omega) (by omega),
      fieldsAt_ident (by omega : 13 < layout.flagsStart)]
    simp [identFieldsAt]
  cases extension : layout.extension with
  | none =>
      have start : layout.flagsStart = 14 := by simp [flagsStart, extension]
      rw [start, early]
      simp [identFields, extensionFields, extension]
  | some value =>
      have start : layout.flagsStart = 32 := by simp [flagsStart, extension]
      rw [start, layout.fieldsBefore_succ 31,
        layout.fieldsBefore_silent (by omega : 14 ≤ 31) fun k above below =>
          silent k (by omega) (by omega) (by omega) (by omega) (by omega),
        early, fieldsAt_ident (by omega)]
      simp [identFields, identFieldsAt]

theorem fieldsBefore_back (count : Nat) : layout.fieldsBefore (layout.lastDatabit + 1 + count) =
      layout.identFields ++ (range layout.flags.length).flatMap layout.flagFields ++
        [CanField.dlc layout.dlc] ++ layout.dataFields ++
        (range count).flatMap layout.backFields := by
  have flags : layout.fieldsBefore layout.dlcStart = layout.identFields ++
      (range layout.flags.length).flatMap layout.flagFields := by
    rw [dlcStart, fieldsBefore_add, fieldsBefore_flags]
    congr 1
    refine flatMap_congr fun i inside => ?_
    exact fieldsAt_flag (mem_range.mp inside)
  have control : layout.fieldsBefore (layout.dlcStart + 4) = layout.identFields ++
      (range layout.flags.length).flatMap layout.flagFields ++ [CanField.dlc layout.dlc] := by
    rw [layout.fieldsBefore_succ (layout.dlcStart + 3), fieldsAt_dlc,
      layout.fieldsBefore_silent (Nat.le_add_right layout.dlcStart 3) ?_, flags]
    intro k behind inside
    exact fieldsAt_inside behind (by omega) (Nat.lt_of_lt_of_le inside (Nat.le_add_right _ _))
  have last : layout.lastDatabit = layout.dlcStart + 3 + 8 * layout.bytes.length := rfl
  have data : layout.fieldsBefore (layout.lastDatabit + 1) = layout.identFields ++
      (range layout.flags.length).flatMap layout.flagFields ++ [CanField.dlc layout.dlc] ++
      layout.dataFields := by
    rcases Nat.eq_zero_or_pos layout.bytes.length with zero | positive
    · have empty : layout.bytes = [] := length_eq_zero_iff.mp zero
      have here : layout.lastDatabit + 1 = layout.dlcStart + 4 := by omega
      rw [here, control]
      simp [dataFields, empty]
    · rw [fieldsBefore_succ, fieldsAt_data positive,
        layout.fieldsBefore_silent (by omega : layout.dlcStart + 4 ≤ layout.lastDatabit) ?_,
        control]
      intro k behind inside
      exact fieldsAt_inside (by omega) (by omega) inside
  rw [fieldsBefore_add, data]
  congr 1
  refine flatMap_congr fun i _ => ?_
  exact fieldsAt_back i

theorem length_ident : layout.ident.length = layout.flagsStart := by
  cases extension : layout.extension with
  | none => simp [ident, extensionBits, flagsStart, extension]
  | some extension => simp [ident, extensionBits, flagsStart, extension]

theorem length_data : layout.data.length = 8 * layout.bytes.length := by
  simp [data, length_flatMap, Nat.mul_comm]

theorem length_front : layout.front.length = layout.lastDatabit + 1 := by
  simp [front, length_ident, length_data, lastDatabit, dlcStart]
  omega

theorem length_plain : layout.plain.length = layout.lastDatabit + 1 + layout.back.length := by
  rw [plain, length_append, length_front]

section Bits

variable {k : Nat}

theorem plain_start : layout.plain = [false] ++ msbBits 11 layout.baseId.toNat ++
      ([layout.bit12, layout.extension.isSome] ++ (layout.extensionBits ++ layout.flags ++
        msbBits 4 layout.dlc ++ layout.data ++ layout.back)) := by
  simp only [plain, front, ident, List.append_assoc]

theorem plain_sof : layout.plain[0]? = some false := by
  rw [plain_start]
  rfl

theorem plain_ident (read : 12 ≤ k) :
    bitpackMsb (layout.plain.take k) 1 11 = layout.baseId.toNat := by
  have packed : bitpackMsb (layout.plain.take k) 1 11 = packMsb (msbBits 11 layout.baseId.toNat) :=
    bitpackMsb_field layout.plain_start rfl (length_msbBits 11 _) (by omega) read
  rw [packed, packMsb_msbBits layout.baseId.isLt]

theorem plain_bit12 : layout.plain[12]? = some layout.bit12 := by
  rw [plain_start, getElem?_append_right (by simp)]
  simp

theorem plain_ide : layout.plain[13]? = some layout.extension.isSome := by
  rw [plain_start, getElem?_append_right (by simp)]
  simp

theorem plain_extension {extension : BitVec 18} (extended : layout.extension = some extension) :
    bitpackMsb (layout.plain.take 32) 14 18 = extension.toNat := by
  have split : layout.plain = ([false] ++ msbBits 11 layout.baseId.toNat ++ [layout.bit12, true]) ++
        msbBits 18 extension.toNat ++ (layout.flags ++
          msbBits 4 layout.dlc ++ layout.data ++ layout.back) := by
    simp [plain_start, extensionBits, extended]
  have packed := bitpackMsb_field split (by simp) (length_msbBits 18 _) (by omega)
    (Nat.le_refl 32)
  rw [packed, packMsb_msbBits extension.isLt]

theorem plain_flag {i : Nat} (inside : i < layout.flags.length) :
    layout.plain[layout.flagsStart + i]? = layout.flags[i]? := by
  have split : layout.plain =
      layout.ident ++ (layout.flags ++ (msbBits 4 layout.dlc ++ layout.data ++ layout.back)) := by
    simp [plain, front]
  rw [split, getElem?_append_right (by rw [length_ident]; omega), length_ident,
    Nat.add_sub_cancel_left, getElem?_append_left inside]

theorem plain_dlc (read : layout.dlcStart + 4 ≤ k) :
    bitpackMsb (layout.plain.take k) layout.dlcStart 4 = layout.dlc := by
  have split : layout.plain = (layout.ident ++ layout.flags) ++ msbBits 4 layout.dlc ++
      (layout.data ++ layout.back) := by
    simp [plain, front]
  have begins : (layout.ident ++ layout.flags).length = layout.dlcStart := by
    rw [length_append, length_ident, dlcStart]
  have packed := bitpackMsb_field split begins (length_msbBits 4 _) (by omega) read
  rw [packed, packMsb_msbBits layout.fourBits]

theorem plain_byte {i : Nat} (inside : i < layout.bytes.length)
    (read : layout.lastDatabit + 1 ≤ k) :
    bitpackMsb (layout.plain.take k) (layout.dlcStart + 4 + 8 * i) 8 =
      (layout.bytes.get ⟨i, inside⟩).toNat := by
  have split : layout.plain = (layout.ident ++ layout.flags ++ msbBits 4 layout.dlc) ++
      (layout.bytes.flatMap fun byte => msbBits 8 byte.toNat) ++ layout.back := rfl
  have begins : (layout.ident ++ layout.flags ++ msbBits 4 layout.dlc).length =
      layout.dlcStart + 4 := by
    simp [length_ident, dlcStart, Nat.add_assoc]
  simp only [lastDatabit] at read
  exact bitpackMsb_byte split begins inside (by omega)

theorem plain_back (i : Nat) : layout.plain[layout.lastDatabit + 1 + i]? = layout.back[i]? := by
  rw [plain, getElem?_append_right (by rw [length_front]; omega), length_front,
    Nat.add_sub_cancel_left]

theorem plain_field {before field after : List Bool} {first count : Nat}
    (split : layout.back = before ++ field ++ after) (begins : before.length = first)
    (ends : field.length = count) (fits : count ≤ 32)
    (read : layout.lastDatabit + 1 + first + count ≤ k) :
    bitpackMsb (layout.plain.take k) (layout.lastDatabit + 1 + first) count =
      packMsb field := by
  have whole : layout.plain = (layout.front ++ before) ++ field ++ after := by simp [plain, split]
  have here : (layout.front ++ before).length = layout.lastDatabit + 1 + first := by
    rw [length_append, length_front, begins]
  exact bitpackMsb_field whole here ends fits (by omega)

end Bits

end CanLayout

end SigrokDecode
