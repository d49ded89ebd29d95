import SigrokDecode.Decoders.ModbusFields

/-!
# Parsing Modbus frames again and again

Each run of a parser of `modbus_c` over the bytes so far shows only fields of the whole frame,
and the check as soon as its bytes are there.
-/

set_option linter.dupNamespace false

namespace SigrokDecode

open Foundation ModbusFrame List ModbusAdu

namespace ModbusAdu

/-- `modbus_adu_puti` does nothing for bytes that are not there, adds an annotation for bytes that
have none, and only marks an error for others. -/
theorem puti_cases (adu : ModbusAdu) (direction : ModbusDirection) (place : Nat)
    (kind : ModbusKind) (text : ModbusText) :
    ((adu.bytes.length ≤ place ∨ modbusMaxFrame ≤ place) ∧
      adu.puti direction place kind text = adu) ∨
    (place < adu.bytes.length ∧ adu.put ≤ place ∧ adu.puti direction place kind text =
        { (adu.flag kind).puta (startOf adu.bytes adu.put) (endOf adu.bytes place)
            (.field direction kind) text with put := place + 1 }) ∨
    (place < adu.bytes.length ∧ place < adu.put ∧
      adu.puti direction place kind text = adu.flag kind) := by
  rw [puti]
  by_cases away : adu.bytes.length ≤ place ∨ modbusMaxFrame ≤ place
  · exact Or.inl ⟨away, if_pos away⟩
  · rw [if_neg away]
    by_cases later : adu.put ≤ place
    · exact Or.inr (Or.inl ⟨by omega, later, if_pos later⟩)
    · exact Or.inr (Or.inr ⟨by omega, by omega, if_neg later⟩)

/-- What has come in. -/
def input (adu : ModbusAdu) : List ModbusByte × BitVec 64 :=
  (adu.bytes, adu.lastRead)

variable (adu : ModbusAdu)

@[simp] theorem require_input (length : Nat) : (adu.require length).input = adu.input := rfl

variable (direction : ModbusDirection)

@[simp] theorem puti_input (place : Nat)
    (kind : ModbusKind) (text : ModbusText) :
    (adu.puti direction place kind text).input = adu.input := by
  obtain ⟨-, same⟩ | ⟨-, -, same⟩ | ⟨-, -, same⟩ := adu.puti_cases direction place kind text
  · rw [same]
  · rw [same]
    rfl
  · rw [same]
    rfl

@[simp] theorem putData_input (places : List Nat)
    (text : Nat → ModbusText) : (adu.putData direction places text).input = adu.input := by
  induction places generalizing adu with
  | nil => rfl
  | cons place places ih =>
      rw [putData, foldl_cons]
      refine (ih _).trans ?_
      split
      · exact adu.puti_input _ _ _ _
      · rfl

@[simp] theorem puti_bytes (place : Nat)
    (kind : ModbusKind) (text : ModbusText) :
    (adu.puti direction place kind text).bytes = adu.bytes :=
  congrArg Prod.fst (adu.puti_input direction place kind text)

@[simp] theorem putData_bytes (places : List Nat)
    (text : Nat → ModbusText) : (adu.putData direction places text).bytes = adu.bytes :=
  congrArg Prod.fst (adu.putData_input direction places text)

@[simp] theorem data_puti (place : Nat)
    (kind : ModbusKind) (text : ModbusText) (i : Nat) :
    (adu.puti direction place kind text).data i = adu.data i := by
  rw [data, puti_bytes, data]

@[simp] theorem halfWord_puti (place : Nat)
    (kind : ModbusKind) (text : ModbusText) (i : Nat) :
    (adu.puti direction place kind text).halfWord i = adu.halfWord i := by
  rw [halfWord, puti_bytes, data_puti, data_puti, halfWord]

@[simp] theorem require_bytes (length : Nat) : (adu.require length).bytes = adu.bytes := rfl

@[simp] theorem data_require (length i : Nat) : (adu.require length).data i = adu.data i := rfl

@[simp] theorem halfWord_require (length i : Nat) :
    (adu.require length).halfWord i = adu.halfWord i := rfl

variable (direction : ModbusDirection)

theorem puti_ite (place : Nat) (condition : Prop)
    [Decidable condition] (kind other : ModbusKind) (text otherText : ModbusText) :
    (if condition then adu.puti direction place kind text
      else adu.puti direction place other otherText) =
    adu.puti direction place (if condition then (kind, text) else (other, otherText)).1
      (if condition then (kind, text) else (other, otherText)).2 := by
  split <;> rfl

theorem puti_arrived (place : Nat)
    (kind : ModbusKind) (text : ModbusText) :
    (if place < adu.bytes.length then adu.puti direction place kind text else adu) =
      adu.puti direction place kind text := by
  split
  · rfl
  · rename_i missing
    rw [puti, if_pos (Or.inl (Nat.le_of_not_lt missing))]

theorem put_le_puti (place : Nat)
    (kind : ModbusKind) (text : ModbusText) :
    adu.put ≤ (adu.puti direction place kind text).put := by
  obtain ⟨-, same⟩ | ⟨-, later, same⟩ | ⟨-, -, same⟩ := adu.puti_cases direction place kind text
  · rw [same]
  · rw [same]
    exact Nat.le_succ_of_le later
  · rw [same]
    exact le_refl _

theorem lt_puti_put {adu : ModbusAdu} {place : Nat}
    (kind : ModbusKind) (text : ModbusText) (there : place < adu.bytes.length)
    (room : adu.bytes.length ≤ modbusMaxFrame) :
    place < (adu.puti direction place kind text).put := by
  obtain ⟨away, -⟩ | ⟨-, -, same⟩ | ⟨-, shown, same⟩ := adu.puti_cases direction place kind text
  · omega
  · rw [same]
    exact Nat.lt_succ_self place
  · rw [same]
    exact shown

end ModbusAdu

/-! ## The bytes of a frame so far -/

variable {received frame : List ModbusByte} {i : Nat}

theorem modbusData_received (part : received <+: frame)
    (there : i < received.length) : modbusData received i = modbusData frame i := by
  obtain ⟨later, rfl⟩ := part
  rw [modbusData, modbusData, getElem?_append_left there]

theorem startOf_received (part : received <+: frame)
    (there : i < received.length) : ModbusAdu.startOf received i = ModbusAdu.startOf frame i := by
  obtain ⟨later, rfl⟩ := part
  rw [ModbusAdu.startOf, ModbusAdu.startOf, getElem?_append_left there]

theorem endOf_received (part : received <+: frame)
    (there : i < received.length) : ModbusAdu.endOf received i = ModbusAdu.endOf frame i := by
  obtain ⟨later, rfl⟩ := part
  rw [ModbusAdu.endOf, ModbusAdu.endOf, getElem?_append_left there]

theorem take_received (part : received <+: frame) {n : Nat} (there : n ≤ received.length) :
    (received.map ModbusByte.byte).take n = (frame.map ModbusByte.byte).take n := by
  obtain ⟨later, rfl⟩ := part
  rw [map_append, take_append_of_le_length (by simpa using there)]

/-- The decoder in a frame: fields of the whole frame have been shown for the bytes in front of
`put`, and the check has been where its last byte is not the newest. -/
structure ModbusPending (direction : ModbusDirection) (frame : List ModbusByte)
    (base : List ModbusAnn) (adu : ModbusAdu) : Prop where
  part : adu.bytes <+: frame
  room : adu.bytes.length ≤ modbusMaxFrame
  there : adu.put ≤ adu.bytes.length
  cut : ∃ ends : List Nat, ends.Pairwise (· < ·) ∧ behind 0 ends = adu.put ∧
    adu.anns = base ++ fieldAnns frame direction ends
  checked : ∀ last, lastByte frame direction = some last → last + 1 < adu.bytes.length →
    last < adu.put

/-- Behind a run of the parser the check has been shown, too, where its last byte is the
newest. -/
structure ModbusParsed (direction : ModbusDirection) (frame : List ModbusByte)
    (base : List ModbusAnn) (adu : ModbusAdu) : Prop
    extends ModbusPending direction frame base adu where
  whole : ∀ last, lastByte frame direction = some last → last < adu.bytes.length → last < adu.put

namespace ModbusPending

variable {direction : ModbusDirection} {frame : List ModbusByte} {base : List ModbusAnn}
  {adu : ModbusAdu}

theorem data_eq (pending : ModbusPending direction frame base adu) {i : Nat}
    (there : i < adu.bytes.length) : adu.data i = modbusData frame i :=
  modbusData_received pending.part there

theorem halfWord_eq (pending : ModbusPending direction frame base adu) {i : Nat}
    (there : i + 1 < adu.bytes.length) : adu.halfWord i = word frame i := by
  rw [ModbusAdu.halfWord, if_neg (by omega), pending.data_eq (by omega), pending.data_eq there, word]

theorem require (pending : ModbusPending direction frame base adu) (length : Nat) :
    ModbusPending direction frame base (adu.require length) :=
  { pending with }

variable {place : Nat} {kind : ModbusKind}

theorem puti (pending : ModbusPending direction frame base adu)
    {text : ModbusText}
    (right : place < adu.bytes.length → adu.put ≤ place →
      fieldAt frame direction place = (kind, text)) :
    ModbusPending direction frame base (adu.puti direction place kind text) := by
  have grows := adu.put_le_puti direction place kind text
  have bytes := adu.puti_bytes direction place kind text
  have checked : ∀ last, lastByte frame direction = some last →
      last + 1 < (adu.puti direction place kind text).bytes.length →
        last < (adu.puti direction place kind text).put := by
    intro last final more
    rw [bytes] at more
    exact Nat.lt_of_lt_of_le (pending.checked last final more) grows
  obtain ⟨ends, increasing, first, anns⟩ := pending.cut
  refine ⟨bytes ▸ pending.part, bytes ▸ pending.room, ?_, ?_, checked⟩
  · rw [bytes]
    obtain ⟨-, same⟩ | ⟨arrived, -, same⟩ | ⟨-, -, same⟩ := adu.puti_cases direction place kind text
    · rw [same]
      exact pending.there
    · rw [same]
      exact arrived
    · rw [same]
      exact pending.there
  · obtain ⟨-, same⟩ | ⟨arrived, later, same⟩ | ⟨-, -, same⟩ :=
      adu.puti_cases direction place kind text
    · rw [same]
      exact ⟨ends, increasing, first, anns⟩
    · rw [same]
      refine ⟨ends ++ [place], increasing_concat increasing (first ▸ later), behind_concat _ _ _, ?_⟩
      rw [fieldAnns, ranges_concat, map_append, ← List.append_assoc, first, ← fieldAnns, ← anns]
      simp only [map_cons, map_nil, right arrived later,
        ← startOf_received pending.part (Nat.lt_of_le_of_lt later arrived),
        ← endOf_received pending.part arrived]
      rfl
    · rw [same]
      exact ⟨ends, increasing, first, anns⟩

theorem putData {text : Nat → ModbusText} : ∀ {places : List Nat} {adu : ModbusAdu},
    ModbusPending direction frame base adu →
    (∀ place ∈ places, place + 2 < adu.bytes.length →
      fieldAt frame direction place = (.data, text place)) →
    ModbusPending direction frame base (adu.putData direction places text) := by
  intro places
  induction places with
  | nil => exact fun pending _ => pending
  | cons place places ih =>
      intro adu pending right
      rw [ModbusAdu.putData, foldl_cons]
      have later : ∀ place ∈ places, place + 2 < adu.bytes.length →
          fieldAt frame direction place = (.data, text place) :=
        fun place member => right place (mem_cons_of_mem _ member)
      split
      · rename_i arrived
        refine ih ?_ ?_
        · exact pending.puti fun _ _ => right place mem_cons_self (by omega)
        · simpa only [puti_bytes] using later
      · exact ih pending later

variable {last : Nat}

theorem fieldAt_lastByte (final : lastByte frame direction = some last)
    (high : 3 ≤ last) : fieldAt frame direction last = crcField frame last := by
  unfold fieldAt
  rw [if_neg (by omega), if_pos final]

/-- The verdict of `modbus_adu_check_crc`, by the last two bytes that are there. -/
def verdict (adu : ModbusAdu) (place : Nat) : ModbusKind × ModbusText :=
  if adu.data (adu.bytes.length - 2) = checkLow adu.bytes place ∧
      adu.data (adu.bytes.length - 1) = checkHigh adu.bytes place then
    (.crc, .crcCorrect)
  else
    (.error, .crcShouldBe (checkLow adu.bytes place) (checkHigh adu.bytes place))

theorem modbusCrc_eq (data : List (BitVec 8)) :
    modbusCrc data = (crcRegister 0x8005#16 (BitVec.allOnes 16) (byteBits data)).reverse := by
  have poly : (0x8005#16).reverse = 0xA001#16 := by decide +kernel
  have start : (0xFFFF#16) = (BitVec.allOnes 16).reverse := by decide +kernel
  rw [modbusCrc, start, ← poly, crcLoop_eq _ _ _ (by decide)]

theorem checkCrc_eq (high : 3 ≤ place) (arrived : place < adu.bytes.length) :
    adu.checkCrc direction place =
      adu.puti direction place (verdict adu place).1 (verdict adu place).2 := by
  rw [ModbusAdu.checkCrc, if_neg (by omega), verdict, modbusCrc_eq]
  by_cases right : adu.data (adu.bytes.length - 2) = checkLow adu.bytes place ∧
      adu.data (adu.bytes.length - 1) = checkHigh adu.bytes place
  · rw [if_pos right]
    exact if_pos right
  · rw [if_neg right]
    exact if_neg right

section

variable (pending : ModbusPending direction frame base adu)
include pending

theorem verdict_newest (high : 3 ≤ place) (newest : place + 1 = adu.bytes.length) :
    verdict adu place = crcField frame place := by
  have taken : (adu.bytes.map ModbusByte.byte).take (place - 1) =
      (frame.map ModbusByte.byte).take (place - 1) := take_received pending.part (by omega)
  rw [verdict, pending.data_eq (by omega), pending.data_eq (by omega),
    show adu.bytes.length - 2 = place - 1 by omega, show adu.bytes.length - 1 = place by omega,
    checkLow, checkHigh, check, taken]
  rfl

theorem checkCrc (high : 3 ≤ place)
    (final : place < adu.bytes.length → lastByte frame direction = some place)
    (only : ∀ last, lastByte frame direction = some last → last < adu.bytes.length → last = place) :
    ModbusParsed direction frame base (adu.checkCrc direction place) := by
  rcases Nat.lt_or_ge place adu.bytes.length with arrived | early
  · rw [checkCrc_eq high arrived]
    refine ⟨pending.puti ?_, ?_⟩
    · intro _ later
      have newest : place + 1 = adu.bytes.length := by
        by_contra more
        have shown := pending.checked place (final arrived) (by omega)
        omega
      rw [fieldAt_lastByte (final arrived) high, pending.verdict_newest high newest]
    · intro last same there
      rw [puti_bytes] at there
      rw [only last same there]
      exact lt_puti_put direction _ _ arrived pending.room
  · rw [ModbusAdu.checkCrc, if_pos (Or.inr early)]
    refine ⟨pending, ?_⟩
    intro last same there
    rw [only last same there] at there
    omega

theorem checkCrc_fixed (high : 3 ≤ place) (final : lastByte frame direction = some place) :
    ModbusParsed direction frame base (adu.checkCrc direction place) := by
  refine pending.checkCrc high (fun _ => final) ?_
  intro last same _
  rw [final] at same
  exact (Option.some.inj same).symm

theorem checkCrc_counted {i behindCount n : Nat} (high : 3 ≤ behindCount) (before : i < behindCount)
    (final : lastByte frame direction = some (modbusData frame i + behindCount))
    (count : i < adu.bytes.length → n = modbusData frame i) :
    ModbusParsed direction frame base (adu.checkCrc direction (n + behindCount)) := by
  refine pending.checkCrc (by omega) ?_ ?_
  · intro arrived
    rw [final, count (by omega)]
  · intro last same arrived
    rw [final] at same
    have place := Option.some.inj same
    rw [count (by omega), place]

theorem putByte (text : Nat → ModbusText)
    (right : fieldAt frame direction place = (kind, text (modbusData frame place))) :
    ModbusPending direction frame base (adu.puti direction place kind (text (adu.data place))) := by
  refine pending.puti fun arrived _ => ?_
  rw [right, pending.data_eq arrived]

theorem putWord (text : Nat → ModbusText)
    (right : fieldAt frame direction (place + 1) = (kind, text (word frame place))) :
    ModbusPending direction frame base
      (adu.puti direction (place + 1) kind (text (adu.halfWord place))) := by
  refine pending.puti fun arrived _ => ?_
  rw [right, pending.halfWord_eq arrived]

theorem putFunction {function : Nat} (known : modbusData frame 1 = function)
    (right : fieldAt frame direction 1 = functionField frame) :
    ModbusPending direction frame base
      (adu.puti direction 1 .function (.function function)) := by
  refine pending.puti fun _ _ => ?_
  rw [right, functionField, known]

end

/-- The fields between the server id and the check, which ends at `last`. -/
structure Fields (frame : List ModbusByte) (direction : ModbusDirection) (last : Nat)
    (shown : Nat → ModbusKind × ModbusText) : Prop where
  final : lastByte frame direction = some last
  field : ∀ place, place ≠ 0 → place ≠ last → fieldAt frame direction place = shown place

theorem fieldAt_response (inner : place ≠ 0) (before : lastByte frame .sc ≠ some place) :
    fieldAt frame .sc place = responseField frame place := by
  unfold fieldAt
  rw [if_neg inner, if_neg before]

theorem fieldAt_request (inner : place ≠ 0) (before : lastByte frame .cs ≠ some place) :
    fieldAt frame .cs place = requestField frame place := by
  unfold fieldAt
  rw [if_neg inner, if_neg before]

theorem Fields.response {shown : Nat → ModbusKind × ModbusText}
    (final : lastByte frame .sc = some last)
    (same : ∀ place, responseField frame place = shown place) :
    Fields frame .sc last shown := by
  refine ⟨final, fun place inner before => ?_⟩
  rw [fieldAt_response inner (by rw [final, ne_eq, Option.some.injEq]; omega), same]

theorem Fields.request {shown : Nat → ModbusKind × ModbusText}
    (final : lastByte frame .cs = some last)
    (same : ∀ place, requestField frame place = shown place) :
    Fields frame .cs last shown := by
  refine ⟨final, fun place inner before => ?_⟩
  rw [fieldAt_request inner (by rw [final, ne_eq, Option.some.injEq]; omega), same]

theorem scParseReadBits (pending : ModbusPending .sc frame base adu)
    (known : modbusData frame 1 = 1 ∨ modbusData frame 1 = 2) :
    ModbusParsed .sc frame base adu.scParseReadBits := by
  have fields : Fields frame .sc (modbusData frame 2 + 4) (readBitsField frame) :=
    .response (if_pos (by omega)) fun _ => if_pos known
  have function := pending.putByte .function (fields.field 1 (by omega) (by omega))
  have count := (function.require (5 + adu.data 2)).putByte .byteCount
    (fields.field 2 (by omega) (by omega))
  simp only [data_require, data_puti] at count
  simp only [ModbusAdu.scParseReadBits, data_puti]
  refine checkCrc_counted (i := 2) (count.putData ?_) (by omega) (by omega) fields.final ?_
  · intro place member arrived
    simp only [require_bytes, puti_bytes] at arrived
    obtain ⟨k, small, rfl⟩ := mem_map.mp member
    rw [mem_range, pending.data_eq (by omega)] at small
    simp only [data_require, data_puti]
    rw [fields.field _ (by omega) (by omega), pending.data_eq (by omega), readBitsField,
      if_neg (by omega), if_neg (by omega)]
  · intro arrived
    simp only [putData_bytes, require_bytes, puti_bytes] at arrived
    exact pending.data_eq arrived

theorem scParseReadRegisters (pending : ModbusPending .sc frame base adu)
    (known : modbusData frame 1 = 3 ∨ modbusData frame 1 = 4 ∨ modbusData frame 1 = 23) :
    ModbusParsed .sc frame base adu.scParseReadRegisters := by
  have fields : Fields frame .sc (modbusData frame 2 + 4) (readRegistersField frame) :=
    .response (if_pos (by omega)) fun _ => (if_neg (by omega)).trans (if_pos known)
  have function := pending.putByte .function (fields.field 1 (by omega) (by omega))
  simp only [ModbusAdu.scParseReadRegisters, data_puti, puti_ite]
  refine checkCrc_counted (i := 2) ((function.require _ |>.puti ?_).putData ?_)
    (by omega) (by omega) fields.final ?_
  · intro arrived _
    simp only [require_bytes, puti_bytes] at arrived
    rw [fields.field 2 (by omega) (by omega), pending.data_eq arrived]
    rfl
  · intro place member arrived
    simp only [require_bytes, puti_bytes] at arrived
    obtain ⟨k, small, rfl⟩ := mem_map.mp member
    rw [mem_range, pending.data_eq (by omega)] at small
    simp only [halfWord_require, halfWord_puti]
    rw [fields.field _ (by omega) (by omega), pending.halfWord_eq (by omega), readRegistersField,
      if_neg (by omega), if_neg (by omega)]
  · intro arrived
    simp only [putData_bytes, require_bytes, puti_bytes] at arrived
    exact pending.data_eq arrived

theorem parseWriteSingleCoil (pending : ModbusPending direction frame base adu)
    (known : modbusData frame 1 = 5) (fields : Fields frame direction 7 (singleCoilField frame)) :
    ModbusParsed direction frame base (adu.parseWriteSingleCoil direction) := by
  have function := (pending.require 8).putFunction known
    (fields.field 1 (by omega) (by omega))
  have address := function.putWord (fun address => .address address (address + 10000))
    (fields.field 3 (by omega) (by omega))
  have value := address.putWord coilText (fields.field 5 (by omega) (by omega))
  exact value.checkCrc_fixed (by omega) fields.final

theorem parseWriteSingleRegister (pending : ModbusPending direction frame base adu)
    (known : modbusData frame 1 = 6)
    (fields : Fields frame direction 7 (singleRegisterField frame)) :
    ModbusParsed direction frame base (adu.parseWriteSingleRegister direction) := by
  have function := (pending.require 8).putFunction known
    (fields.field 1 (by omega) (by omega))
  have address := function.putWord (fun address => .address address (address + 30000))
    (fields.field 3 (by omega) (by omega))
  have value := address.putWord .registerValue (fields.field 5 (by omega) (by omega))
  exact value.checkCrc_fixed (by omega) fields.final

theorem scParseWriteMultiple (pending : ModbusPending .sc frame base adu)
    (known : modbusData frame 1 = 15 ∨ modbusData frame 1 = 16) (long : 1 < adu.bytes.length) :
    ModbusParsed .sc frame base adu.scParseWriteMultiple := by
  have fields : Fields frame .sc 7 (writtenField frame) :=
    .response ((if_neg (by omega)).trans (if_pos (by omega))) fun _ =>
      (if_neg (by omega)).trans ((if_neg (by omega)).trans ((if_neg (by omega)).trans
        ((if_neg (by omega)).trans (if_pos known))))
  simp only [ModbusAdu.scParseWriteMultiple, pending.data_eq long]
  have function := (pending.require 8).putFunction rfl
    (fields.field 1 (by omega) (by omega))
  have address := function.putWord
    (fun address => .startAddress address (longOffset (modbusData frame 1) + address))
    (fields.field 3 (by omega) (by omega))
  have written := address.putWord (fun count => .write count (dataUnit (modbusData frame 1)))
    (fields.field 5 (by omega) (by omega))
  exact written.checkCrc_fixed (by omega) fields.final

theorem scParseError (pending : ModbusPending .sc frame base adu)
    (known : 0x80 < modbusData frame 1) (long : 1 < adu.bytes.length) :
    ModbusParsed .sc frame base adu.scParseError := by
  have fields : Fields frame .sc 4 (exceptionField frame) :=
    .response ((if_neg (by omega)).trans ((if_neg (by omega)).trans (if_pos known))) fun _ =>
      (if_neg (by omega)).trans ((if_neg (by omega)).trans ((if_neg (by omega)).trans
        ((if_neg (by omega)).trans ((if_neg (by omega)).trans (if_pos known)))))
  simp only [ModbusAdu.scParseError, pending.data_eq long]
  have function : ModbusPending .sc frame base ((adu.require 5).puti .sc 1 .function
      (.errorFunction (modbusData frame 1 - 0x80))) :=
    (pending.require 5).puti fun _ _ => fields.field 1 (by omega) (by omega)
  have exception := function.putByte .error (fields.field 2 (by omega) (by omega))
  exact exception.checkCrc_fixed (by omega) fields.final

theorem parseUnknown (pending : ModbusPending direction frame base adu)
    (final : lastByte frame direction = none) (long : 1 < adu.bytes.length)
    (field : ∀ place, place ≠ 0 → fieldAt frame direction place = unknownField frame place) :
    ModbusParsed direction frame base (adu.parseUnknown direction) := by
  simp only [ModbusAdu.parseUnknown, puti_bytes]
  refine ⟨(pending.putByte .unknownFunctionNumber (field 1 (by omega))).puti ?_, ?_⟩
  · intro _ later
    have shown := lt_puti_put direction .error
      (.unknownFunctionNumber (adu.data 1)) long pending.room
    rw [field _ (by omega), unknownField, if_neg (by omega)]
  · intro last same
    rw [final] at same
    cases same

theorem csParseReadDataCommand (pending : ModbusPending .cs frame base adu)
    (known : 1 ≤ modbusData frame 1 ∧ modbusData frame 1 ≤ 4) (long : 1 < adu.bytes.length) :
    ModbusParsed .cs frame base adu.csParseReadDataCommand := by
  have fields : Fields frame .cs 7 (readCommandField frame) :=
    .request (if_pos (by omega)) fun _ => if_pos known
  simp only [ModbusAdu.csParseReadDataCommand, pending.data_eq long]
  have function := (pending.require 8).putFunction rfl
    (fields.field 1 (by omega) (by omega))
  have address := function.putWord
    (fun address => .startAddress address (10000 * modbusData frame 1 + 1 + address))
    (fields.field 3 (by omega) (by omega))
  have count := address.putWord .read (fields.field 5 (by omega) (by omega))
  exact count.checkCrc_fixed (by omega) fields.final

theorem csParseSingleByteRequest (pending : ModbusPending .cs frame base adu)
    (known : modbusData frame 1 = 7 ∨ modbusData frame 1 = 11 ∨ modbusData frame 1 = 12 ∨
      modbusData frame 1 = 17) :
    ModbusParsed .cs frame base adu.csParseSingleByteRequest := by
  have fields : Fields frame .cs 3 fun _ => functionField frame :=
    .request ((if_neg (by omega)).trans (if_pos known)) fun _ =>
      (if_neg (by omega)).trans ((if_neg (by omega)).trans ((if_neg (by omega)).trans
        (if_pos known)))
  have function := pending.putByte .function (fields.field 1 (by omega) (by omega))
  exact function.checkCrc_fixed (by omega) fields.final

theorem uncounted (pending : ModbusPending direction frame base adu) {i behindCount : Nat}
    (before : i < behindCount)
    (final : lastByte frame direction = some (modbusData frame i + behindCount))
    (missing : ¬ i < adu.bytes.length) : ModbusParsed direction frame base adu := by
  refine ⟨pending, ?_⟩
  intro last same arrived
  rw [final, Option.some.injEq] at same
  omega

theorem csParseWriteMultiple (pending : ModbusPending .cs frame base adu)
    (known : modbusData frame 1 = 15 ∨ modbusData frame 1 = 16) (long : 1 < adu.bytes.length) :
    ModbusParsed .cs frame base adu.csParseWriteMultiple := by
  have fields : Fields frame .cs (modbusData frame 6 + 8) (writeMultipleField frame) :=
    .request ((if_neg (by omega)).trans ((if_neg (by omega)).trans (if_pos known))) fun _ =>
      (if_neg (by omega)).trans ((if_neg (by omega)).trans ((if_neg (by omega)).trans
        ((if_neg (by omega)).trans (if_pos known))))
  simp only [ModbusAdu.csParseWriteMultiple, pending.data_eq long]
  have function := (pending.require 9).putFunction rfl
    (fields.field 1 (by omega) (by omega))
  have address := function.putWord
    (fun address => .startAddress address (longOffset (modbusData frame 1) + address))
    (fields.field 3 (by omega) (by omega))
  have written := address.putWord (fun count => .write count (dataUnit (modbusData frame 1)))
    (fields.field 5 (by omega) (by omega))
  split
  · rename_i counted
    have bytecount := written.data_eq counted
    simp only [puti_bytes, require_bytes] at counted
    rw [bytecount]
    refine checkCrc_counted (i := 6) ((putData (written.puti ?_) ?_).require _) (by omega)
      (by omega) fields.final (fun _ => rfl)
    · exact fun _ _ => fields.field 6 (by omega) (by omega)
    · intro place member arrived
      simp only [data_puti, data_require]
      simp only [require_bytes, puti_bytes] at arrived
      obtain ⟨k, small, rfl⟩ := mem_map.mp member
      rw [mem_range] at small
      rw [fields.field _ (by omega) (by omega), pending.data_eq (by omega), writeMultipleField,
        if_neg (by omega), if_neg (by omega), if_neg (by omega), if_neg (by omega)]
  · exact written.uncounted (by omega) fields.final ‹_›

theorem csParseMaskWriteRegister (pending : ModbusPending .cs frame base adu)
    (known : modbusData frame 1 = 22) :
    ModbusParsed .cs frame base adu.csParseMaskWriteRegister := by
  have fields : Fields frame .cs 9 (maskField frame) :=
    .request ((if_neg (by omega)).trans ((if_neg (by omega)).trans ((if_neg (by omega)).trans
        (if_pos known)))) fun _ =>
      (if_neg (by omega)).trans ((if_neg (by omega)).trans ((if_neg (by omega)).trans
        ((if_neg (by omega)).trans ((if_neg (by omega)).trans (if_pos known)))))
  have function := (pending.require 10).putFunction known
    (fields.field 1 (by omega) (by omega))
  have address := function.putWord (fun address => .address address (address + 30001))
    (fields.field 3 (by omega) (by omega))
  simp only [ModbusAdu.csParseMaskWriteRegister, puti_arrived]
  refine checkCrc_fixed ((address.puti ?_).puti ?_) (by omega) fields.final
  · intro arrived _
    rw [fields.field 5 (by omega) (by omega), address.data_eq (by omega), address.data_eq arrived]
    rfl
  · intro arrived _
    simp only [puti_bytes, require_bytes] at arrived
    simp only [data_puti, data_require]
    rw [fields.field 7 (by omega) (by omega), pending.data_eq (by omega), pending.data_eq arrived]
    rfl

theorem csParseReadWriteRegisters (pending : ModbusPending .cs frame base adu)
    (known : modbusData frame 1 = 23) :
    ModbusParsed .cs frame base adu.csParseReadWriteRegisters := by
  have fields : Fields frame .cs (modbusData frame 10 + 12) (readWriteField frame) :=
    .request ((if_neg (by omega)).trans ((if_neg (by omega)).trans ((if_neg (by omega)).trans
        ((if_neg (by omega)).trans (if_pos known))))) fun _ =>
      (if_neg (by omega)).trans ((if_neg (by omega)).trans ((if_neg (by omega)).trans
        ((if_neg (by omega)).trans ((if_neg (by omega)).trans ((if_neg (by omega)).trans
          (if_pos known))))))
  have function := (pending.require 13).putFunction known
    (fields.field 1 (by omega) (by omega))
  have readAddress := function.putWord (fun address => .readAddress address (30001 + address))
    (fields.field 3 (by omega) (by omega))
  have read := readAddress.putWord .read (fields.field 5 (by omega) (by omega))
  have writeAddress := read.putWord (fun address => .writeAddress address (30001 + address))
    (fields.field 7 (by omega) (by omega))
  have written := writeAddress.putWord .writeRegisters (fields.field 9 (by omega) (by omega))
  simp only [ModbusAdu.csParseReadWriteRegisters]
  split
  · rename_i counted
    have bytecount := written.data_eq counted
    simp only [puti_bytes, require_bytes] at counted
    rw [bytecount]
    refine checkCrc_counted (i := 10) ((written.puti ?_).require _) (by omega) (by omega)
      fields.final (fun _ => rfl)
    exact fun _ _ => fields.field 10 (by omega) (by omega)
  · exact written.uncounted (by omega) fields.final ‹_›

theorem three_le_lastByte (final : lastByte frame direction = some last) : 3 ≤ last := by
  cases direction with
  | sc =>
      simp only [lastByte] at final
      split at final
      · have place := Option.some.inj final
        omega
      · split at final
        · have place := Option.some.inj final
          omega
        · split at final
          · have place := Option.some.inj final
            omega
          · cases final
  | cs =>
      simp only [lastByte] at final
      split at final
      · have place := Option.some.inj final
        omega
      · split at final
        · have place := Option.some.inj final
          omega
        · split at final
          · have place := Option.some.inj final
            omega
          · split at final
            · have place := Option.some.inj final
              omega
            · split at final
              · have place := Option.some.inj final
                omega
              · cases final

theorem parsed_short (pending : ModbusPending direction frame base adu)
    (short : adu.bytes.length < 2) : ModbusParsed direction frame base adu := by
  refine ⟨pending, ?_⟩
  intro last final arrived
  have high := three_le_lastByte final
  omega

theorem serverId (pending : ModbusPending direction frame base adu)
    (text : ModbusText) (right : 0 < adu.bytes.length →
      serverIdText (adu.data 0) direction = text) :
    ModbusPending direction frame base (adu.puti direction 0 .serverId text) := by
  refine pending.puti ?_
  intro arrived _
  unfold fieldAt
  rw [if_pos rfl, ← pending.data_eq arrived, right arrived]

theorem scParseWriteSingleCoil (pending : ModbusPending .sc frame base adu)
    (known : modbusData frame 1 = 5) :
    ModbusParsed .sc frame base adu.scParseWriteSingleCoil :=
  pending.parseWriteSingleCoil known (.response ((if_neg (by omega)).trans (if_pos (by omega)))
    fun _ => (if_neg (by omega)).trans ((if_neg (by omega)).trans (if_pos known)))

theorem scParseWriteSingleRegister (pending : ModbusPending .sc frame base adu)
    (known : modbusData frame 1 = 6) :
    ModbusParsed .sc frame base adu.scParseWriteSingleRegister :=
  pending.parseWriteSingleRegister known
    (.response ((if_neg (by omega)).trans (if_pos (by omega))) fun _ =>
      (if_neg (by omega)).trans ((if_neg (by omega)).trans ((if_neg (by omega)).trans
        (if_pos known))))

theorem csParseWriteSingleCoil (pending : ModbusPending .cs frame base adu)
    (known : modbusData frame 1 = 5) :
    ModbusParsed .cs frame base adu.csParseWriteSingleCoil :=
  pending.parseWriteSingleCoil known (.request (if_pos (by omega)) fun _ =>
    (if_neg (by omega)).trans (if_pos known))

theorem csParseWriteSingleRegister (pending : ModbusPending .cs frame base adu)
    (known : modbusData frame 1 = 6) :
    ModbusParsed .cs frame base adu.csParseWriteSingleRegister :=
  pending.parseWriteSingleRegister known (.request (if_pos (by omega)) fun _ =>
    (if_neg (by omega)).trans ((if_neg (by omega)).trans (if_pos known)))

theorem scParseFunction (pending : ModbusPending .sc frame base adu)
    (long : 1 < adu.bytes.length) : ModbusParsed .sc frame base adu.scParseFunction := by
  simp only [ModbusAdu.scParseFunction, pending.data_eq long]
  split
  · rename_i known
    exact pending.scParseReadBits known
  · split
    · rename_i known
      exact pending.scParseReadRegisters known
    · split
      · rename_i known
        exact pending.scParseWriteSingleCoil known
      · split
        · rename_i known
          exact pending.scParseWriteSingleRegister known
        · split
          · rename_i known
            exact pending.scParseWriteMultiple known long
          · split
            · rename_i known
              exact pending.scParseError known long
            · rename_i bits registers coil register multiple exception
              have none : lastByte frame .sc = none := by
                simp only [lastByte]
                rw [if_neg (by omega), if_neg (by omega), if_neg exception]
              refine pending.parseUnknown none long ?_
              intro place inner
              rw [fieldAt_response inner (by rw [none]; simp)]
              simp only [responseField]
              rw [if_neg bits, if_neg registers, if_neg coil, if_neg register,
                if_neg multiple, if_neg exception]

theorem scParse (pending : ModbusPending .sc frame base adu) :
    ModbusParsed .sc frame base adu.scParse := by
  rw [ModbusAdu.scParse]
  by_cases empty : adu.bytes.length < 1
  · rw [if_pos empty]
    exact pending.parsed_short (by omega)
  · rw [if_neg empty]
    have named := pending.serverId (scServerIdText (adu.data 0)) fun _ => rfl
    by_cases short : adu.bytes.length < 2
    · simp only [puti_bytes, if_pos short]
      exact named.parsed_short (by simpa using short)
    · simp only [puti_bytes, if_neg short]
      refine named.scParseFunction ?_
      rw [puti_bytes]
      omega

theorem csParseFunction (pending : ModbusPending .cs frame base adu)
    (long : 1 < adu.bytes.length) : ModbusParsed .cs frame base adu.csParseFunction := by
  simp only [ModbusAdu.csParseFunction, pending.data_eq long]
  split
  · rename_i known
    exact pending.csParseReadDataCommand known long
  · split
    · rename_i known
      exact pending.csParseWriteSingleCoil known
    · split
      · rename_i known
        exact pending.csParseWriteSingleRegister known
      · split
        · rename_i known
          exact pending.csParseSingleByteRequest known
        · split
          · rename_i known
            exact pending.csParseWriteMultiple known long
          · split
            · rename_i known
              exact pending.csParseMaskWriteRegister known
            · split
              · rename_i known
                exact pending.csParseReadWriteRegisters known
              · rename_i command coil register request multiple mask both
                have none : lastByte frame .cs = none := by
                  simp only [lastByte]
                  rw [if_neg (by omega), if_neg request, if_neg multiple, if_neg mask,
                    if_neg both]
                refine pending.parseUnknown none long ?_
                intro place inner
                rw [fieldAt_request inner (by rw [none]; simp)]
                simp only [requestField]
                rw [if_neg command, if_neg coil, if_neg register, if_neg request,
                  if_neg multiple, if_neg mask, if_neg both]

theorem csParse (pending : ModbusPending .cs frame base adu) :
    ModbusParsed .cs frame base adu.csParse := by
  rw [ModbusAdu.csParse]
  by_cases empty : adu.bytes.length < 1
  · rw [if_pos empty]
    exact pending.parsed_short (by omega)
  · rw [if_neg empty]
    have named := pending.serverId (csServerIdText (adu.data 0)) fun _ => rfl
    by_cases short : adu.bytes.length < 2
    · simp only [puti_bytes, if_pos short]
      exact named.parsed_short (by simpa using short)
    · simp only [puti_bytes, if_neg short]
      refine named.csParseFunction ?_
      rw [puti_bytes]
      omega

theorem parse (pending : ModbusPending direction frame base adu) :
    ModbusParsed direction frame base (adu.parse direction) := by
  cases direction with
  | sc => exact pending.scParse
  | cs => exact pending.csParse


end ModbusPending

end SigrokDecode
