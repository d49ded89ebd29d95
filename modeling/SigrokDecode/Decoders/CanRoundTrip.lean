import SigrokDecode.Decoders.CanBus
import SigrokDecode.Decoders.CanFrame
import SigrokDecode.Decoders.CanPositions

/-!
# Round trip of a CAN frame

What `can_c` knows behind each bit of a frame, and what it reports in the end.
-/

namespace SigrokDecode

open Foundation List CanLayout CanFrame

namespace CanFrame

variable (frame : CanFrame)

/-- The bits between the identifiers and the data length code. -/
def flags : List Bool :=
  match frame.extension with
  | none => [frame.reserved0]
  | some _ => [frame.remote, frame.reserved1, frame.reserved0]

def flagFields (i : Nat) : List CanField :=
  match frame.extension with
  | none => [.reservedBit .reserved0 frame.reserved0, .rtr frame.remote]
  | some _ =>
      if i = 0 then
        [.rtr frame.remote]
      else if i = 1 then
        [.reservedBit .reserved1 frame.reserved1]
      else
        [.reservedBit .reserved0 frame.reserved0]

def backFields (i : Nat) : List CanField :=
  if i = 14 then
    [.crcSequence 15 frame.crc.toNat]
  else if i = 15 then
    [.crcDelimiter true]
  else if i = 16 then
    [.ackSlot frame.ack]
  else if i = 17 then
    [.ackDelimiter true]
  else if i = 24 then
    [.endOfFrame]
  else
    []

def layout : CanLayout :=
  { baseId := frame.baseId
    bit12 := if frame.extension.isSome then frame.substituteRemote else frame.remote
    extension := frame.extension
    flags := frame.flags
    dlc := frame.bytes.length
    bytes := frame.bytes
    back := msbBits 15 frame.crc.toNat ++ frame.tail
    flagFields := frame.flagFields
    backFields := frame.backFields
    fourBits := Nat.lt_of_le_of_lt frame.fewBytes (by omega)
    length := (CanState.dlc2len_small frame.fewBytes).symm }

/-- The number of bits behind which `rtr_type` is set. -/
def rtrEnd : Nat :=
  if frame.extension.isSome then 33 else 15

theorem layout_cases : frame.extension.isSome = false ∧ frame.layout.flagsStart = 14 ∧
        frame.layout.dlcStart = 15 ∧ frame.layout.fullidEnd = 12 ∧ frame.rtrEnd = 15 ∨
      frame.extension.isSome = true ∧ frame.layout.flagsStart = 32 ∧
        frame.layout.dlcStart = 35 ∧ frame.layout.fullidEnd = 32 ∧ frame.rtrEnd = 33 := by
  cases extension : frame.extension with
  | none =>
      exact Or.inl (by simp [CanLayout.flagsStart, CanLayout.dlcStart, fullidEnd,
        layout, flags, rtrEnd, extension])
  | some value =>
      exact Or.inr (by simp [CanLayout.flagsStart, CanLayout.dlcStart, fullidEnd,
        layout, flags, rtrEnd, extension])

theorem lastDatabit_le : frame.layout.lastDatabit ≤ 102 := by
  have few : frame.layout.bytes.length ≤ 8 := frame.fewBytes
  rw [CanLayout.lastDatabit]
  rcases frame.layout_cases with ⟨_, _, start, _⟩ | ⟨_, _, start, _⟩
  · omega
  · omega

theorem length_back : frame.layout.back.length = 25 := by
  simp [layout, tail]

theorem length_plain : frame.layout.plain.length = frame.layout.lastDatabit + 26 := by
  rw [CanLayout.length_plain, length_back]

theorem layout_plain : frame.layout.plain = frame.body ++ frame.tail := by
  cases extension : frame.extension with
  | none =>
      simp [CanLayout.plain, CanLayout.front, CanLayout.ident, extensionBits,
        CanLayout.data, layout, body, header, control, data, flags, extension]
  | some value =>
      simp [CanLayout.plain, CanLayout.front, CanLayout.ident, extensionBits,
        CanLayout.data, layout, body, header, control, data, flags, extension]

theorem length_body : frame.body.length = frame.layout.lastDatabit + 16 := by
  have whole := congrArg List.length frame.layout_plain
  rw [length_plain, length_append] at whole
  simp only [tail, length_append, length_replicate, length_cons, length_nil] at whole
  omega

theorem fieldsBefore_all :
    frame.layout.fieldsBefore (frame.layout.lastDatabit + 26) = frame.fields := by
  have base : frame.layout.baseFields = [.ident frame.baseId.toNat] := by
    rw [baseFields]
    exact congrArg _ (if_neg frame.dominantIdent)
  have behind : (range 25).flatMap frame.layout.backFields =
      [.crcSequence 15 frame.crc.toNat, .crcDelimiter true, .ackSlot frame.ack,
        .ackDelimiter true, .endOfFrame] := rfl
  have header : frame.layout.identFields ++
      (range frame.layout.flags.length).flatMap frame.layout.flagFields =
        frame.headerFields := by
    rw [identFields, base]
    cases extension : frame.extension with
    | none =>
        simp [extensionFields, CanLayout.frameType, layout, flags, flagFields,
          headerFields, frameType, extension]
    | some value =>
        simp [extensionFields, CanLayout.frameType, CanLayout.fullid, layout,
          flags, flagFields, headerFields, frameType, fullid, extension, range_succ]
  rw [show frame.layout.lastDatabit + 26 = frame.layout.lastDatabit + 1 + 25 by omega,
    fieldsBefore_back, behind, header]
  rfl

theorem no_warning (warning : CanWarning) : .warning warning ∉ frame.fields := by
  cases extension : frame.extension with
  | none => simp [fields, headerFields, dataFields, extension]
  | some value => simp [fields, headerFields, dataFields, extension]

theorem back_eq : frame.layout.back = msbBits 15 frame.crc.toNat ++ frame.tail := rfl

theorem plain_crc {k : Nat} (read : frame.layout.lastDatabit + 16 ≤ k) :
    bitpackMsb (frame.layout.plain.take k) (frame.layout.lastDatabit + 1) 15 =
      frame.crc.toNat := by
  have split : frame.layout.back = [] ++ msbBits 15 frame.crc.toNat ++ frame.tail := by
    rw [nil_append, back_eq]
  have packed := frame.layout.plain_field split rfl (length_msbBits 15 _) (by omega)
    (by omega : frame.layout.lastDatabit + 1 + 0 + 15 ≤ k)
  exact packed.trans (packMsb_msbBits frame.crc.isLt)

theorem plain_tail (i : Nat) :
    frame.layout.plain[frame.layout.lastDatabit + 16 + i]? = frame.tail[i]? := by
  have position : frame.layout.lastDatabit + 16 + i =
      frame.layout.lastDatabit + 1 + (15 + i) := by omega
  rw [position, plain_back, back_eq, getElem?_append_right (by simp),
    length_msbBits, Nat.add_sub_cancel_left]

end CanFrame

/-! ## What is known behind a bit -/

namespace CanState

/-- The decoder behind `k` bits of a frame, apart from the buffers. -/
structure CanDecoding (frame : CanFrame) (before : List CanField) (k : Nat)
    (s : CanState) : Prop extends Decoding frame.layout before k s where
  rtrType : frame.rtrEnd ≤ k → s.rtrType = frame.remote
  dlcStart : 15 ≤ k → s.dlcStart = frame.layout.dlcStart
  crcLen : s.crcLen = 15

section Step

variable {frame : CanFrame} {before : List CanField} {k : Nat} {s t : CanState}
  {bit : Bool} {samplenum : Nat}

theorem CanDecoding.congr (known : CanDecoding frame before k s)
    (decoding : Decoding frame.layout before k t)
    (same : t.rtrType = s.rtrType ∧ t.dlcStart = s.dlcStart ∧ t.crcLen = s.crcLen) :
    CanDecoding frame before k t :=
  ⟨decoding, fun read => same.1.trans (known.rtrType read),
    fun read => same.2.1.trans (known.dlcStart read), same.2.2.trans known.crcLen⟩

theorem CanDecoding.putBit (known : CanDecoding frame before k s) :
    CanDecoding frame before k (s.putx samplenum (.bit bit)) :=
  known.congr (known.toDecoding.congr rfl (fields_putg_raw s samplenum samplenum rfl))
    ⟨rfl, rfl, rfl⟩

theorem CanDecoding.next (known : CanDecoding frame before k s)
    (decoding : Decoding frame.layout before (k + 1) t)
    (same : t.rtrType = s.rtrType ∧ t.dlcStart = s.dlcStart ∧ t.crcLen = s.crcLen)
    (inner : k + 1 ≠ frame.rtrEnd ∧ k ≠ 14) : CanDecoding frame before (k + 1) t :=
  ⟨decoding, fun read => same.1.trans (known.rtrType (by omega)),
    fun read => same.2.1.trans (known.dlcStart (by omega)), same.2.2.trans known.crcLen⟩

theorem CanDecoding.standardControl (known : CanDecoding frame before 14 s)
    (bits : s.bits = frame.layout.plain.take 15)
    (here : frame.layout.plain[14]? = some bit) (standard : frame.extension = none) :
    CanDecoding frame before 15 (s.standardControl bit 14 samplenum) := by
  have start : frame.layout.dlcStart = 15 ∧ frame.layout.flagsStart = 14 ∧
      frame.layout.fullidEnd = 12 := by
    rcases frame.layout_cases with ⟨_, flags, start, idEnd, _⟩ | ⟨extended, _⟩
    · exact ⟨start, flags, idEnd⟩
    · simp [standard] at extended
  have flags : frame.layout.flags = [frame.reserved0] := by
    simp [CanFrame.layout, CanFrame.flags, standard]
  have emitted : frame.layout.fieldsAt 14 =
      [CanField.reservedBit .reserved0 frame.reserved0] ++ [CanField.rtr frame.remote] := by
    have inside : 0 < frame.layout.flags.length := by rw [flags]; exact Nat.one_pos
    have at14 := fieldsAt_flag inside
    rw [start.2.1] at at14
    rw [at14]
    simp [CanFrame.layout, CanFrame.flagFields, standard]
  obtain rfl : frame.reserved0 = bit := by
    have inside : 0 < frame.layout.flags.length := by rw [flags]; exact Nat.one_pos
    have reserved := frame.layout.plain_flag inside
    rw [start.2.1, flags] at reserved
    exact Option.some.inj (reserved.symm.trans here)
  have rtr : s.bits.getD 12 false = frame.remote := by
    rw [bits]
    refine getD_take ?_ (by omega)
    rw [plain_bit12]
    simp [CanFrame.layout, standard]
  rw [standardControl_start, rtr]
  refine ⟨known.toDecoding.next rfl ?_ (by omega), fun _ => rfl, fun _ => start.1.symm,
    known.crcLen⟩
  refine (fields_putg _ _ _ rfl).trans ?_
  rw [putx, fields_putg _ _ _ rfl, emitted, List.append_assoc]

theorem CanDecoding.extendedControl {extension : BitVec 18} (known : CanDecoding frame before k s)
    (bits : s.bits = frame.layout.plain.take (k + 1))
    (here : frame.layout.plain[k]? = some bit)
    (extended : frame.extension = some extension) (inner : 14 ≤ k ∧ k < 35) :
    CanDecoding frame before (k + 1) (s.extendedControl bit samplenum k) := by
  obtain ⟨flagsStart, start, idEnd, rtrEnd⟩ : frame.layout.flagsStart = 32 ∧
      frame.layout.dlcStart = 35 ∧ frame.layout.fullidEnd = 32 ∧ frame.rtrEnd = 33 := by
    rcases frame.layout_cases with ⟨standard, _⟩ | ⟨_, positions⟩
    · simp [extended] at standard
    · exact positions
  have flags : frame.layout.flags = [frame.remote, frame.reserved1, frame.reserved0] := by
    simp [CanFrame.layout, CanFrame.flags, extended]
  by_cases early : k < 32
  · rw [extendedControl_ident _ _ _ early]
    have decoding : Decoding frame.layout before (k + 1)
        ((s.extendedStart k samplenum).extendedIdent k samplenum) :=
      known.toDecoding.extendedIdent bits extended ⟨inner.1, early⟩
    have registers := @extendedIdent_registers s samplenum k
    obtain ⟨⟨_, crcLen, _⟩, dlcStart⟩ := registers
    refine ⟨decoding, by omega, fun _ => ?_, crcLen.trans known.crcLen⟩
    rw [dlcStart]
    split
    · exact start.symm
    · exact known.dlcStart (by omega)
  · obtain ⟨i, rfl⟩ : ∃ i, k = 32 + i := ⟨k - 32, by omega⟩
    have inside : i < frame.layout.flags.length := by
      rw [flags]
      simp only [length_cons, length_nil]
      omega
    have flag := frame.layout.plain_flag inside
    have fieldsAt := fieldsAt_flag inside
    rw [flagsStart] at flag fieldsAt
    have shown : frame.layout.flagFields i = frame.flagFields i := rfl
    rw [here, flags] at flag
    rw [shown, CanFrame.flagFields, extended] at fieldsAt
    have position : i = 0 ∨ i = 1 ∨ i = 2 := by omega
    rcases position with rfl | rfl | rfl
    · obtain rfl : bit = frame.remote := Option.some.inj flag
      rw [extendedControl_rtr]
      refine ⟨known.toDecoding.next rfl ?_ (by omega), fun _ => rfl,
        fun _ => known.dlcStart (by omega), known.crcLen⟩
      rw [fieldsAt]
      exact fields_putg { s with ssBit32 := samplenum } samplenum samplenum rfl
    · obtain rfl : bit = frame.reserved1 := Option.some.inj flag
      rw [extendedControl_reserved1]
      refine known.next (known.toDecoding.next rfl ?_ (by omega)) ⟨rfl, rfl, rfl⟩ (by omega)
      rw [fieldsAt]
      exact fields_putg s samplenum samplenum rfl
    · obtain rfl : bit = frame.reserved0 := Option.some.inj flag
      rw [extendedControl_reserved0]
      refine known.next (known.toDecoding.next rfl ?_ (by omega)) ⟨rfl, rfl, rfl⟩ (by omega)
      rw [fieldsAt]
      exact fields_putg s samplenum samplenum rfl

theorem CanDecoding.controlBefore (known : CanDecoding frame before (k + 1) s)
    (reports : Bool) (inner : 14 ≤ k ∧ k < frame.layout.dlcStart) :
    let last := ((s.dlcFirst k samplenum).dlcLast k samplenum reports).decodeRest bit k
      samplenum
    last.2 = false ∧ CanDecoding frame before (k + 1) last.1 := by
  have start : s.dlcStart = frame.layout.dlcStart := known.dlcStart (by omega)
  have early := (known.headerOpen (by omega)).1
  have short : frame.layout.dlcStart ≤ 35 := by
    rcases frame.layout_cases with ⟨_, _, position, _⟩ | ⟨_, _, position, _⟩
    · omega
    · omega
  have inHeader : k < s.dlcStart + 3 := by omega
  have notFirst : k ≠ s.dlcStart := by omega
  rw [control_open s bit samplenum reports inHeader early (by omega),
    dlcFirst_other s samplenum notFirst]
  exact ⟨rfl, known⟩

theorem CanDecoding.controlInside (known : CanDecoding frame before k s) (reports : Bool)
    (bits : s.bits = frame.layout.plain.take (k + 1))
    (inner : frame.layout.dlcStart ≤ k ∧ k ≤ frame.layout.dlcStart + 3) :
    let last := ((s.dlcFirst k samplenum).dlcLast k samplenum reports).decodeRest bit k
      samplenum
    last.2 = false ∧ CanDecoding frame before (k + 1) last.1 := by
  obtain ⟨bounds, idEnd, rtrEnd⟩ : (15 ≤ frame.layout.dlcStart ∧ frame.layout.dlcStart ≤ 35) ∧
      frame.layout.fullidEnd ≤ frame.layout.dlcStart ∧
      frame.rtrEnd ≤ frame.layout.dlcStart := by
    rcases frame.layout_cases with ⟨_, positions⟩ | ⟨_, positions⟩
    · omega
    · omega
  have start : s.dlcStart = frame.layout.dlcStart := known.dlcStart (by omega)
  have early := (known.headerOpen inner.2).1
  by_cases last : k = frame.layout.dlcStart + 3
  · subst last
    have read : s.readDlc = frame.bytes.length := Decoding.readDlc bits start
    have data : s.readDlc ≠ 0 → s.rtrType = false := by
      intro some
      rw [known.rtrType (by omega)]
      refine Bool.eq_false_iff.mpr fun remote => some ?_
      rw [read, frame.remoteEmpty remote]
      rfl
    have here : frame.layout.dlcStart + 3 = s.dlcStart + 3 := by omega
    have length : s.dlcStart + 3 + 8 * s.readDlc = frame.layout.lastDatabit := by
      rw [start, read]
      rfl
    rw [control_read s bit samplenum reports here (read ▸ frame.fewBytes) data, length]
    exact ⟨rfl, known.next (known.toDecoding.putDlc read) ⟨rfl, rfl, rfl⟩ (by omega)⟩
  · have inHeader : k < s.dlcStart + 3 := by omega
    have inside : k < frame.layout.lastDatabit := by
      rw [CanLayout.lastDatabit]
      omega
    have silent := fieldsAt_inside inner.1 last inside
    rw [control_open s bit samplenum reports inHeader early (by omega), dlcFirst]
    split
    · exact ⟨rfl, known.next (known.toDecoding.quiet rfl rfl silent (by omega))
        ⟨rfl, rfl, rfl⟩ (by omega)⟩
    · exact ⟨rfl, known.next (known.toDecoding.quiet rfl rfl silent (by omega))
        ⟨rfl, rfl, rfl⟩ (by omega)⟩

theorem CanDecoding.decodeHeader (known : CanDecoding frame before k s)
    (bits : s.bits = frame.layout.plain.take (k + 1))
    (here : frame.layout.plain[k]? = some bit)
    (inner : 14 ≤ k ∧ k ≤ frame.layout.dlcStart + 3) :
    (s.decodeTyped bit k samplenum).2 = false ∧
      CanDecoding frame before (k + 1) (s.decodeTyped bit k samplenum).1 := by
  have type := known.frameType inner.1
  rw [CanLayout.frameType] at type
  rcases frame.layout_cases with ⟨kind, _, start, _⟩ | ⟨kind, _, start, _⟩
  · have standard : frame.layout.extension.isSome = false := kind
    rw [standard] at type
    rw [decodeTyped_standard s _ _ type]
    rcases Nat.eq_or_lt_of_le inner.1 with rfl | later
    · have none : frame.extension = none := by simpa using kind
      exact (known.standardControl bits here none).controlBefore true (by omega)
    · rw [standardControl_other _ _ _ (by omega)]
      exact known.controlInside true bits (by omega)
  · have extended : frame.layout.extension.isSome = true := kind
    rw [extended] at type
    obtain ⟨extension, value⟩ := Option.isSome_iff_exists.mp kind
    rw [decodeTyped_extended s _ _ type]
    by_cases flags : k < 35
    · exact (known.extendedControl bits here value (by omega)).controlBefore false
        (by omega)
    · rw [extendedControl_other _ _ _ (by omega)]
      exact known.controlInside false bits (by omega)

/-- Behind the header only the data field and the end of the frame are left. -/
theorem CanDecoding.decodeTyped (known : CanDecoding frame before k s)
    (beyond : frame.layout.dlcStart + 3 < k) :
    s.decodeTyped bit k samplenum = s.decodeRest bit k samplenum := by
  rcases frame.layout_cases with ⟨kind, _, start, _⟩ | ⟨kind, _, start, _⟩
  · have type := known.frameType (by omega)
    have standard : frame.layout.extension.isSome = false := kind
    have first := known.dlcStart (by omega)
    rw [CanLayout.frameType, standard] at type
    rw [decodeTyped_standard s _ _ type, standardControl_other s bit samplenum (by omega)]
    exact control_over s bit samplenum true (by omega)
  · have type := known.frameType (by omega)
    have extended : frame.layout.extension.isSome = true := kind
    have first := known.dlcStart (by omega)
    rw [CanLayout.frameType, extended] at type
    rw [decodeTyped_extended s _ _ type, extendedControl_other s bit samplenum (by omega)]
    exact control_over s bit samplenum false (by omega)

theorem CanDecoding.dataField (known : CanDecoding frame before k s)
    (bits : s.bits = frame.layout.plain.take (k + 1))
    (inner : frame.layout.dlcStart + 3 < k ∧ k ≤ frame.layout.lastDatabit) :
    (s.decodeRest bit k samplenum).2 = false ∧
      CanDecoding frame before (k + 1) (s.decodeRest bit k samplenum).1 := by
  have few : frame.layout.bytes.length ≤ 8 := frame.fewBytes
  obtain ⟨bounds, rtrEnd⟩ : 15 ≤ frame.layout.dlcStart ∧ frame.rtrEnd ≤ frame.layout.dlcStart := by
    rcases frame.layout_cases with ⟨_, positions⟩ | ⟨_, positions⟩
    · omega
    · omega
  have decoding : Decoding frame.layout before (k + 1) (s.dataField k samplenum 64 8) :=
    known.toDecoding.dataField bits (known.dlcStart (by omega)) inner ⟨by omega, few⟩
  obtain ⟨databits, frameBytes, anns, field⟩ := dataField_registers s samplenum 64 8 k
  have lastDatabit : s.lastDatabit = frame.layout.lastDatabit := (known.headerRead inner.1).1
  rw [field] at decoding
  have rest : s.decodeRest bit k samplenum =
      ({ s with ssDatabytebits := databits, frameBytes, anns }, false) := by
    have inside : ¬ k > s.lastDatabit := by omega
    rw [decodeRest, decodeDataField, field]
    exact if_neg inside
  rw [rest]
  exact ⟨rfl, known.next decoding ⟨rfl, rfl, rfl⟩ (by omega)⟩

theorem CanDecoding.behindData {i : Nat}
    (known : CanDecoding frame before (frame.layout.lastDatabit + 1 + i) s)
    (same : (t.state, t.frameType, t.ident, t.fullid, t.lastDatabit, t.dlc, t.ssDatabytebits) =
      (s.state, s.frameType, s.ident, s.fullid, s.lastDatabit, s.dlc, s.ssDatabytebits))
    (kept : t.rtrType = s.rtrType ∧ t.dlcStart = s.dlcStart ∧ t.crcLen = s.crcLen)
    (fields : t.fields = s.fields ++ frame.backFields i) :
    CanDecoding frame before (frame.layout.lastDatabit + 1 + i + 1) t := by
  have header : frame.layout.dlcStart + 3 ≤ frame.layout.lastDatabit := Nat.le_add_right _ _
  refine known.next (known.toDecoding.behindData same fields) kept ?_
  rcases frame.layout_cases with ⟨_, positions⟩ | ⟨_, positions⟩
  · omega
  · omega

theorem CanDecoding.frameEnd (known : CanDecoding frame before k s)
    (bits : s.bits = frame.layout.plain.take (k + 1))
    (here : frame.layout.plain[k]? = some bit)
    (inner : frame.layout.lastDatabit < k ∧ k < frame.layout.lastDatabit + 25) :
    (s.decodeRest bit k samplenum).2 = false ∧
      CanDecoding frame before (k + 1) (s.decodeRest bit k samplenum).1 := by
  have header : frame.layout.dlcStart + 3 ≤ frame.layout.lastDatabit := Nat.le_add_right _ _
  obtain ⟨i, rfl⟩ : ∃ i, k = frame.layout.lastDatabit + 1 + i :=
    ⟨k - (frame.layout.lastDatabit + 1), by omega⟩
  have lastDatabit := (known.headerRead (by omega)).1
  have crcLen := known.crcLen
  rw [decodeRest_over s bit samplenum (by omega)]
  -- A step that puts one annotation out.
  have emit : ∀ (t : CanState) ss (field : CanField), field.isRawBit = false →
      t.fields = s.fields → frame.backFields i = [field] →
      (t.putg ss samplenum field).fields = s.fields ++ frame.backFields i := by
    intro t ss field shown same emitted
    rw [fields_putg _ _ _ shown, same, emitted]
  have silent : frame.backFields i = [] → s.fields = s.fields ++ frame.backFields i := by
    intro none
    rw [none, List.append_nil]
  have tail : ∀ j, i = 15 + j → frame.tail[j]? = some bit := by
    intro j split
    rw [← frame.plain_tail j, ← here]
    congr 1
    omega
  have there : frame.layout.lastDatabit + 1 + i = s.lastDatabit + (i + 1) := by omega
  have reached : s.decodeFrameEnd bit (frame.layout.lastDatabit + 1 + i) samplenum =
      s.decodeFrameEnd bit (s.lastDatabit + (i + 1)) samplenum := by
    rw [there]
  rw [reached]
  have position : i = 0 ∨ i = 14 ∨ i = 15 ∨ i = 16 ∨ i = 17 ∨ i = 18 ∨
      (1 < i + 1 ∧ i + 1 < 15 ∨ 19 < i + 1 ∧ i + 1 < 25) := by
    omega
  rcases position with rfl | rfl | rfl | rfl | rfl | rfl | other
  · rw [decodeFrameEnd_start]
    exact ⟨rfl, known.behindData rfl ⟨rfl, rfl, crcLen.symm⟩ (silent rfl)⟩
  · have room : s.lastDatabit + 16 ≤ s.bits.length := by
      rw [lastDatabit, bits, length_take, frame.length_plain]
      omega
    have crc : bitpackMsb s.bits (s.lastDatabit + 1) 15 = frame.crc.toNat := by
      rw [bits, lastDatabit]
      exact frame.plain_crc (by omega)
    rw [decodeFrameEnd_crc s samplenum crcLen room, crc]
    exact ⟨rfl, known.behindData rfl ⟨rfl, rfl, rfl⟩
      (emit { s with crc := frame.crc.toNat } s.ssBlock _ rfl rfl rfl)⟩
  · obtain rfl : true = bit := Option.some.inj (tail 0 rfl)
    rw [decodeFrameEnd_delimiter s samplenum crcLen]
    exact ⟨rfl, known.behindData rfl ⟨rfl, rfl, rfl⟩ (emit s samplenum _ rfl rfl rfl)⟩
  · obtain rfl : frame.ack = bit := Option.some.inj (tail 1 rfl)
    rw [decodeFrameEnd_ackSlot s samplenum crcLen]
    exact ⟨rfl, known.behindData rfl ⟨rfl, rfl, rfl⟩ (emit s samplenum _ rfl rfl rfl)⟩
  · obtain rfl : true = bit := Option.some.inj (tail 2 rfl)
    rw [decodeFrameEnd_ackDelimiter s samplenum crcLen]
    exact ⟨rfl, known.behindData rfl ⟨rfl, rfl, rfl⟩ (emit s samplenum _ rfl rfl rfl)⟩
  · rw [decodeFrameEnd_eof s samplenum crcLen]
    exact ⟨rfl, known.behindData rfl ⟨rfl, rfl, rfl⟩ (silent rfl)⟩
  · rw [decodeFrameEnd_other s samplenum crcLen other]
    refine ⟨rfl, known.behindData rfl ⟨rfl, rfl, rfl⟩ (silent ?_)⟩
    rw [CanFrame.backFields, if_neg (by omega), if_neg (by omega), if_neg (by omega),
      if_neg (by omega), if_neg (by omega)]

theorem CanDecoding.typedBit (known : CanDecoding frame before k s)
    (bits : s.bits = frame.layout.plain.take (k + 1)) (here : frame.layout.plain[k]? = some bit)
    (inner : 14 ≤ k ∧ k < frame.layout.lastDatabit + 25) :
    (s.decodeTyped bit k samplenum).2 = false ∧
      CanDecoding frame before (k + 1) (s.decodeTyped bit k samplenum).1 := by
  by_cases header : k ≤ frame.layout.dlcStart + 3
  · exact known.decodeHeader bits here ⟨inner.1, header⟩
  · rw [known.decodeTyped (by omega)]
    by_cases data : k ≤ frame.layout.lastDatabit
    · exact known.dataField bits (by omega)
    · exact known.frameEnd bits here (by omega)

theorem frameBit_ident (length : s.bits.length = k + 1) (early : k < 14) :
    s.frameBit bit samplenum =
      let t := (s.putx samplenum (.bit bit)).decodeIdent bit k samplenum
      { t with curbit := t.curbit + 1 } := by
  have bitnum : (s.putx samplenum (.bit bit)).bits.length - 1 = k := by
    rw [putx, putg]
    simp only [length, Nat.add_sub_cancel]
  have later : ¬ k ≥ 14 := by omega
  simp only [frameBit, bitnum, if_neg later, Bool.false_eq_true, if_false]

theorem frameBit_typed (length : s.bits.length = k + 1) (late : 14 ≤ k) : s.frameBit bit samplenum =
      let last := (s.putx samplenum (.bit bit)).decodeTyped bit k samplenum
      if last.2 then last.1 else { last.1 with curbit := last.1.curbit + 1 } := by
  have bitnum : (s.putx samplenum (.bit bit)).bits.length - 1 = k := by
    rw [putx, putg]
    simp only [length, Nat.add_sub_cancel]
  simp only [frameBit, bitnum, decodeIdent_other _ _ _ (Or.inr late), ge_iff_le, if_pos late]

theorem CanDecoding.frameBit (known : CanDecoding frame before k s) (samplenum : Nat)
    (bits : s.bits = frame.layout.plain.take (k + 1)) (here : frame.layout.plain[k]? = some bit)
    (inner : k < frame.layout.lastDatabit + 25) :
    CanDecoding frame before (k + 1) (s.frameBit bit samplenum) ∧
      (s.frameBit bit samplenum).rawbits = s.rawbits ∧
      (s.frameBit bit samplenum).bits = s.bits ∧
      (s.frameBit bit samplenum).packets = s.packets ∧
      (s.frameBit bit samplenum).rawBits = s.rawBits ++ [CanAnn.mk samplenum samplenum (.bit bit)] ∧
      (s.frameBit bit samplenum).ssPacket = if k = 0 then samplenum else s.ssPacket := by
  have length : s.bits.length = k + 1 := by
    rw [bits, length_take, frame.length_plain]
    omega
  have put : (s.putx samplenum (.bit bit)).rawBits =
      s.rawBits ++ [CanAnn.mk samplenum samplenum (.bit bit)] :=
    rawBits_putg_raw s samplenum samplenum rfl
  -- The position of the bit counts on with every bit.
  have counted : ∀ {t : CanState}, CanDecoding frame before (k + 1) t →
      CanDecoding frame before (k + 1) { t with curbit := t.curbit + 1 } :=
    fun known => known.congr (known.toDecoding.congr rfl rfl) ⟨rfl, rfl, rfl⟩
  have known : CanDecoding frame before k (s.putx samplenum (.bit bit)) := known.putBit
  by_cases early : k < 14
  · rw [frameBit_ident length early]
    have decoding : CanDecoding frame before (k + 1)
        ((s.putx samplenum (.bit bit)).decodeIdent bit k samplenum) := by
      obtain ⟨⟨rtrType, crcLen, _⟩, dlcStart⟩ :=
        @decodeIdent_registers (s.putx samplenum (.bit bit)) bit samplenum k
      refine known.next (known.toDecoding.decodeIdent bits here early)
        ⟨rtrType, dlcStart, crcLen⟩ ?_
      rcases frame.layout_cases with ⟨_, positions⟩ | ⟨_, positions⟩
      · omega
      · omega
    refine ⟨counted decoding, ?_⟩
    rcases Nat.eq_zero_or_pos k with rfl | later
    · obtain rfl : false = bit := by
        rw [frame.layout.plain_sof] at here
        exact Option.some.inj here
      rw [decodeIdent_start]
      refine ⟨rfl, rfl, rfl, ?_, rfl⟩
      exact (rawBits_putg { s.putx samplenum (.bit false) with ssPacket := samplenum }
        samplenum samplenum rfl).trans put
    · have kept := kept_decodeIdent (s.putx samplenum (.bit bit)) bit k samplenum
        (by omega)
      rw [if_neg (by omega)]
      exact ⟨kept.rawbits, kept.bits, kept.packets, kept.rawBits.trans put, kept.ssPacket⟩
  · have late : 14 ≤ k := by omega
    obtain ⟨going, decoded⟩ := known.typedBit bits here ⟨late, inner⟩
    have kept := kept_decodeTyped (s.putx samplenum (.bit bit)) bit samplenum k going
    rw [frameBit_typed length late]
    simp only [going, Bool.false_eq_true, if_false]
    rw [if_neg (by omega)]
    exact ⟨counted decoded, kept.rawbits, kept.bits, kept.packets,
      kept.rawBits.trans put, kept.ssPacket⟩

theorem CanDecoding.lastBit (known : CanDecoding frame before (frame.layout.lastDatabit + 25) s)
    (samplenum : Nat) (bits : s.bits = frame.layout.plain) (recessive : s.eofRecessive = true) :
    let last := s.frameBit bit samplenum
    last.state = .idle ∧
      last.fields = before ++ frame.layout.fieldsBefore (frame.layout.lastDatabit + 26) ∧
      last.packets = s.packets ++ [frame.packet s.ssPacket samplenum] ∧
      last.rawBits = s.rawBits ++ [CanAnn.mk samplenum samplenum (.bit bit)] := by
  have length : s.bits.length = frame.layout.lastDatabit + 25 + 1 := by
    rw [bits, frame.length_plain]
  obtain ⟨bounds, header⟩ :
      (14 ≤ frame.layout.dlcStart ∧ frame.layout.fullidEnd ≤ frame.layout.dlcStart ∧
        frame.rtrEnd ≤ frame.layout.dlcStart) ∧
      frame.layout.dlcStart + 3 ≤ frame.layout.lastDatabit := by
    refine ⟨?_, Nat.le_add_right _ _⟩
    rcases frame.layout_cases with ⟨_, positions⟩ | ⟨_, positions⟩
    · omega
    · omega
  have put : CanDecoding frame before (frame.layout.lastDatabit + 25)
      (s.putx samplenum (.bit bit)) := known.putBit
  obtain ⟨lastDatabit, dlc⟩ := put.headerRead (by omega)
  have there : (s.putx samplenum (.bit bit)).decodeFrameEnd bit (frame.layout.lastDatabit + 25)
      samplenum =
        (((s.putx samplenum (.bit bit)).endOfFrame samplenum).resetVariables, true) := by
    rw [← lastDatabit, decodeFrameEnd_last _ _ put.crcLen]
  have fieldsAt : frame.layout.fieldsAt (frame.layout.lastDatabit + 25) = [.endOfFrame] :=
    frame.layout.fieldsAt_back 24
  have ended : s.frameBit bit samplenum =
      ((s.putx samplenum (.bit bit)).endOfFrame samplenum).resetVariables := by
    rw [frameBit_typed length (by omega), put.decodeTyped (by omega),
      decodeRest_over _ _ _ (by omega), there]
    rfl
  have type : (if s.frameType = some .standard then CanFrameType.standard else .extended) =
      frame.frameType := known.packetType (by omega)
  have fullid : s.fullid = frame.fullid := known.fullid (by omega)
  have remote : s.rtrType = frame.remote := known.rtrType (by omega)
  have bytes : s.dlc = frame.bytes.length := dlc
  have seen : (s.putx samplenum (.bit bit)).eofRecessive = true := recessive
  rw [ended, endOfFrame_recessive _ _ seen]
  refine ⟨rfl, ?_, ?_, ?_⟩
  · rw [frame.layout.fieldsBefore_succ, fieldsAt, ← List.append_assoc, ← put.fields]
    exact fields_putg (s.putx samplenum (.bit bit)) s.ssBlock samplenum rfl
  · rw [packet, ← type, ← fullid, ← remote, ← bytes]
    rfl
  · refine (rawBits_putg (s.putx samplenum (.bit bit)) s.ssBlock samplenum rfl).trans ?_
    exact rawBits_putg_raw s samplenum samplenum rfl

end Step

/-- The decoder behind `k` bits of a frame; `read` are the bits on the bus, with
the stuff bits marked. -/
structure Receiving (frame : CanFrame) (first : CanState) (k : Nat)
    (read : List ((Bool × Nat) × Bool)) (s : CanState) : Prop
    extends Reading frame.layout.plain first k read s where
  decoding : CanDecoding frame first.fields k s

section Bus

variable {frame : CanFrame} {first s : CanState} {k : Nat}
  {read : List ((Bool × Nat) × Bool)} {bit : Bool} {samplenum : Nat}

theorem Receiving.pushed (receiving : Receiving frame first k read s) (bit : Bool)
    (room : read.length < 512) (inner : k ≤ frame.layout.lastDatabit + 26) :
    s.push bit 512 =
      { s with rawbits := s.rawbits ++ [bit], bits := s.bits ++ [bit] } := by
  have short := frame.lastDatabit_le
  exact receiving.toReading.pushed bit room (by omega)

theorem Receiving.plainBit (receiving : Receiving frame first k read s) (samplenum : Nat)
    (room : read.length < 512) (inner : k < frame.layout.lastDatabit + 25)
    (here : frame.layout.plain[k]? = some bit)
    (notStuffed : (s.push bit 512).isStuffBit = false) :
    Receiving frame first (k + 1) (read ++ [((bit, samplenum), false)])
      (s.handleBit bit samplenum) := by
  have pushed := receiving.pushed bit room (by omega)
  have known := receiving.decoding
  have decoding : CanDecoding frame first.fields k (s.push bit 512) := by
    rw [pushed]
    exact known.congr (known.toDecoding.congr rfl rfl) ⟨rfl, rfl, rfl⟩
  have bits : (s.push bit 512).bits = frame.layout.plain.take (k + 1) := by
    rw [pushed]
    exact receiving.bits_concat here
  obtain ⟨next, keptRaw, keptBits, packets, rawBits, ssPacket⟩ :=
    decoding.frameBit samplenum bits here inner
  have handled : s.handleBit bit samplenum =
      (s.push bit 512).frameBit bit samplenum := by
    simp only [handleBit, notStuffed, Bool.false_eq_true, if_false]
  rw [handled]
  refine ⟨receiving.toReading.plainBit (keptBits.trans bits) ?_ ?_ ?_ ?_, next⟩
  · rw [keptRaw, pushed]
  · rw [packets, pushed]
  · rw [rawBits, pushed]
    rfl
  · rw [ssPacket, pushed]

theorem Receiving.extraBit (receiving : Receiving frame first k read s) (samplenum : Nat)
    (room : read.length < 512) (inner : k ≤ frame.layout.lastDatabit + 26) (some : k ≠ 0)
    (stuffed : (s.push bit 512).isStuffBit = true) :
    Receiving frame first k (read ++ [((bit, samplenum), true)])
      (s.handleBit bit samplenum) := by
  have pushed := receiving.pushed bit room inner
  have known := receiving.decoding
  have handled : s.handleBit bit samplenum =
      { (s.push bit 512).putx samplenum (.stuffBit bit) with
        bits := s.bits
        curbit := s.curbit + 1 } := by
    simp only [handleBit, stuffed, if_true]
    rw [pushed]
    simp [putx, putg]
  rw [handled, pushed]
  refine ⟨receiving.toReading.extraBit some rfl rfl rfl ?_ rfl, ?_⟩
  · exact rawBits_putg_raw s samplenum samplenum rfl
  · exact known.congr (known.toDecoding.congr rfl (fields_putg_raw s samplenum samplenum rfl))
      ⟨rfl, rfl, rfl⟩

/-- The receiver and the sender of the stuffed part of a frame. -/
structure Following (frame : CanFrame) (first : CanState) (run : BitRun)
    (rest : List Bool) (read : List ((Bool × Nat) × Bool)) (s : CanState) : Prop where
  receiving : ∃ k, k + rest.length = frame.layout.lastDatabit + 16 ∧
    rest ++ frame.tail = frame.layout.plain.drop k ∧ Receiving frame first k read s ∧
    Spaced run k read.length
  ends : run.EndsWire s.rawbits
  short : run.length ≤ 5

theorem isStuffBit_of_window {t : CanState} (window : stuffWindow t.rawbits = false) :
    t.isStuffBit = false := by
  rw [isStuffBit]
  split
  · rfl
  · split
    · rfl
    · exact window

theorem Following.plainBit {run : BitRun} {rest : List Bool} (input : Bool × Nat)
    (following : Following frame first run (input.1 :: rest) read s)
    (due : (runRule 5).due run = none) :
    Following frame first ((runRule 5).next run input.1) rest (read ++ [(input, false)])
      (s.handleBit input.1 input.2) := by
  have bounds := frame.lastDatabit_le
  obtain ⟨bit, samplenum⟩ := input
  obtain ⟨⟨k, length, drop, receiving, extra, wire, spaced⟩, ends, short⟩ := following
  simp only [length_cons] at length
  have room : read.length < 512 := by omega
  have here : frame.layout.plain[k]? = some bit := by
    have front := congrArg (fun bits => bits[0]?) drop
    simpa using front.symm
  have pushed := receiving.pushed bit room (by omega)
  have notStuffed : (s.push bit 512).isStuffBit = false := by
    apply isStuffBit_of_window
    rw [pushed, ← window_eq ends short bit, due]
  have next := receiving.plainBit samplenum room (by omega) here notStuffed
  have rawbits : (s.handleBit bit samplenum).rawbits = s.rawbits ++ [bit] := by
    rw [next.rawbits, map_append, ← receiving.rawbits]
    rfl
  refine ⟨⟨k + 1, by omega, ?_, next, extra, ?_, ?_⟩, ?_, ?_⟩
  · have behind := congrArg List.tail drop
    rw [tail_drop] at behind
    exact behind
  · simp only [length_append, length_singleton]
    omega
  · exact (runRule_spacing run bit (by omega)).1 due spaced
  · rw [rawbits]
    exact ends.next 5 bit
  · exact runRule_bounded run bit (by omega) short (Or.inl due)

theorem Following.extraBit {run : BitRun} {rest : List Bool} (input : Bool × Nat)
    (following : Following frame first run rest read s)
    (due : (runRule 5).due run = some input.1) :
    Following frame first ((runRule 5).next run input.1) rest (read ++ [(input, true)])
      (s.handleBit input.1 input.2) := by
  have bounds := frame.lastDatabit_le
  obtain ⟨bit, samplenum⟩ := input
  obtain ⟨⟨k, length, drop, receiving, extra, wire, spaced⟩, ends, short⟩ := following
  have room : read.length < 512 := by omega
  have pushed := receiving.pushed bit room (by omega)
  obtain ⟨some, raw⟩ := receiving.some_of_due ends due
  have early : k ≤ s.lastDatabit + 16 := by
    by_cases header : k ≤ frame.layout.dlcStart + 3
    · rw [(receiving.decoding.headerOpen header).1]
      omega
    · rw [(receiving.decoding.headerRead (by omega)).1]
      omega
  have stuffed : (s.push bit 512).isStuffBit = true := by
    have window : stuffWindow (s.rawbits ++ [bit]) = true := by
      rw [← window_eq ends short bit, due]
      simp
    have plain : s.bits.length ≤ k := by
      rw [receiving.bits, length_take]
      exact Nat.min_le_left _ _
    rw [pushed, isStuffBit, if_neg (by simp; omega), if_neg (by simp; omega)]
    exact window
  have next := receiving.extraBit samplenum room (by omega) some stuffed
  have rawbits : (s.handleBit bit samplenum).rawbits = s.rawbits ++ [bit] := by
    rw [next.rawbits, map_append, ← receiving.rawbits]
    rfl
  refine ⟨⟨k, length, drop, next, extra + 1, ?_, ?_⟩, ?_, ?_⟩
  · simp only [length_append, length_singleton]
    omega
  · exact (runRule_spacing run bit (by omega)).2 due spaced
  · rw [rawbits]
    exact ends.next 5 bit
  · exact runRule_bounded run bit (by omega) short (Or.inr due)

theorem following_tracks (frame : CanFrame) (first : CanState) :
    StuffRule.Tracks (runRule 5) Prod.fst
      (fun s (input : Bool × Nat) => s.handleBit input.1 input.2)
      (Following frame first) :=
  ⟨Following.plainBit, Following.extraBit⟩

theorem Receiving.tail_notStuffed (receiving : Receiving frame first k read s)
    (room : read.length < 512) (late : frame.layout.lastDatabit + 17 ≤ k)
    (inner : k < frame.layout.lastDatabit + 26) (bit : Bool) :
    (s.push bit 512).isStuffBit = false := by
  have header : frame.layout.dlcStart + 3 ≤ frame.layout.lastDatabit := Nat.le_add_right _ _
  have pushed := receiving.pushed bit room (by omega)
  have lastDatabit := (receiving.decoding.headerRead (by omega)).1
  have length : s.bits.length = k := by
    rw [receiving.bits, length_take, frame.length_plain]
    omega
  rw [pushed, isStuffBit, if_pos]
  simp only [length_append, length_singleton]
  omega

theorem Receiving.tailBits (receiving : Receiving frame first k read s)
    (inputs : List (Bool × Nat)) (late : frame.layout.lastDatabit + 17 ≤ k)
    (inside : k + inputs.length ≤ frame.layout.lastDatabit + 25)
    (room : read.length + inputs.length ≤ 512)
    (here : ∀ i, i < inputs.length → frame.layout.plain[k + i]? = (inputs.map Prod.fst)[i]?) :
    Receiving frame first (k + inputs.length) (read ++ inputs.map fun input => (input, false))
      (inputs.foldl (fun s input => s.handleBit input.1 input.2) s) := by
  induction inputs generalizing k read s with
  | nil => simpa using receiving
  | cons input inputs ih =>
      simp only [length_cons] at inside room here
      have notStuffed := receiving.tail_notStuffed (by omega) late (by omega) input.1
      have next := receiving.plainBit input.2 (by omega) (by omega)
        (by simpa using here 0 (by omega)) notStuffed
      have rest := ih next (by omega) (by omega)
        (by simp only [length_append, length_singleton]; omega)
        (by
          intro i inner
          have later := here (i + 1) (by omega)
          simpa [Nat.add_assoc, Nat.add_comm 1 i] using later)
      have count : k + 1 + inputs.length = k + (input :: inputs).length := by
        simp only [length_cons]
        omega
      rw [count] at rest
      simpa using rest

theorem Receiving.last (receiving : Receiving frame first (frame.layout.lastDatabit + 25) read s)
    (room : read.length < 512) {front : List Bool}
    (ending : s.rawbits = front ++ replicate 6 true) (samplenum : Nat) :
    let last := s.handleBit true samplenum
    last.state = .idle ∧ last.fields = first.fields ++ frame.fields ∧
      last.packets = first.packets ++ [frame.packet s.ssPacket samplenum] ∧
      last.rawBits = first.rawBits ++
        (read ++ [((true, samplenum), false)]).map showBit := by
  have pushed := receiving.pushed true room (by omega)
  have notStuffed := receiving.tail_notStuffed room (by omega) (by omega) true
  have here : frame.layout.plain[frame.layout.lastDatabit + 25]? = some true := frame.plain_tail 9
  have bits : s.bits ++ [true] = frame.layout.plain := by
    rw [receiving.bits_concat here, take_of_length_le]
    rw [frame.length_plain]
  have known := receiving.decoding
  have decoding : CanDecoding frame first.fields (frame.layout.lastDatabit + 25)
      { s with rawbits := s.rawbits ++ [true], bits := s.bits ++ [true] } :=
    known.congr (known.toDecoding.congr rfl rfl) ⟨rfl, rfl, rfl⟩
  have recessive :
      { s with rawbits := s.rawbits ++ [true], bits := s.bits ++ [true] }.eofRecessive =
        true := by
    have seven : s.rawbits ++ [true] = front ++ replicate 7 true := by
      rw [ending, List.append_assoc]
      rfl
    exact eofRecessive_concat seven
  have handled : s.handleBit true samplenum =
      { s with rawbits := s.rawbits ++ [true], bits := s.bits ++ [true] }.frameBit true
        samplenum := by
    rw [← pushed]
    simp only [handleBit, notStuffed, Bool.false_eq_true, if_false]
  obtain ⟨state, fields, packets, rawBits⟩ := decoding.lastBit samplenum bits recessive
  rw [handled]
  refine ⟨state, ?_, ?_, ?_⟩
  · rw [fields, frame.fieldsBefore_all]
  · rw [packets, ← receiving.packets]
  · rw [rawBits, map_append, ← List.append_assoc, ← receiving.rawBits]
    rfl

end Bus

theorem Following.begin (frame : CanFrame) (s : CanState) :
    Following frame s startRun frame.body [] s.startOfFrame := by
  have start : CanDecoding frame s.fields 0 s.startOfFrame := by
    have known : Decoding frame.layout s.startOfFrame.fields 0 s.startOfFrame :=
      Decoding.begin rfl ⟨rfl, rfl⟩
    refine ⟨known, ?_, by omega, rfl⟩
    rcases frame.layout_cases with ⟨_, positions⟩ | ⟨_, positions⟩
    · omega
    · omega
  refine ⟨⟨0, ?_, frame.layout_plain.symm, ?_, 0, rfl, ?_⟩, ?_, ?_⟩
  · rw [frame.length_body, Nat.zero_add]
  · exact ⟨Reading.begin ⟨rfl, rfl⟩ rfl rfl, start⟩
  · simp [startRun]
  · exact ⟨[], rfl, by simp, fun _ => rfl⟩
  · simp [startRun]

theorem Following.body (frame : CanFrame) (s : CanState) (inputs : List (Bool × Nat))
    (bus : inputs.map Prod.fst = frame.stuffedBody.map Prod.fst) :
    ∃ run, (runRule 5).due run = none ∧
      Following frame s run [] (StuffRule.marked inputs frame.stuffedBody)
        (inputs.foldl (fun s input => s.handleBit input.1 input.2) s.startOfFrame) := by
  have single : ∀ run extra, (runRule 5).due run = some extra →
      (runRule 5).due ((runRule 5).next run extra) = none :=
    runRule_single (by omega)
  rw [stuffedBody, map_append] at bus
  obtain ⟨front, back, rfl, wire, trailing⟩ := map_eq_append_iff.mp bus
  have begin : Following frame s startRun (frame.body ++ []) [] s.startOfFrame := by
    rw [List.append_nil]
    exact Following.begin frame s
  have body := (following_tracks frame s).run single begin wire
  have whole := StuffRule.known_trailing (fun s (input : Bool × Nat) => s.handleBit input.1 input.2)
    (fun input due => body.extraBit input due) body trailing
  have length : front.length = ((runRule 5).stuff startRun frame.body).length := by
    simpa using congrArg List.length wire
  have due := StuffRule.due_trailing single ((runRule 5).stateAfter startRun
      ((runRule 5).stuff startRun frame.body))
  rw [stuffedBody, StuffRule.marked_append length, foldl_append]
  exact ⟨_, due, whole⟩

theorem Following.tail {run : BitRun} {read : List ((Bool × Nat) × Bool)}
    (following : Following frame first run [] read s) (due : (runRule 5).due run = none)
    (inputs : List (Bool × Nat))
    (bus : inputs.map Prod.fst = [true, frame.ack, true] ++ replicate 6 true) :
    Receiving frame first (frame.layout.lastDatabit + 25)
        (read ++ inputs.map fun input => (input, false))
        (inputs.foldl (fun s input => s.handleBit input.1 input.2) s) ∧
      read.length + 10 ≤ 512 := by
  obtain ⟨⟨k, length, drop, receiving, extra, wire, spaced⟩, ends, short⟩ := following
  have bounds := frame.lastDatabit_le
  obtain rfl : k = frame.layout.lastDatabit + 16 := by simpa using length
  obtain ⟨delimiter, inputs, rfl, high, later⟩ := map_eq_cons_iff.mp bus
  have here : frame.layout.plain[frame.layout.lastDatabit + 16]? = some delimiter.1 := by
    rw [high]
    exact frame.plain_tail 0
  have notStuffed : (s.push delimiter.1 512).isStuffBit = false := by
    apply isStuffBit_of_window
    rw [receiving.pushed delimiter.1 (by omega) (by omega),
      ← window_eq ends short delimiter.1, due]
  have next := receiving.plainBit delimiter.2 (by omega) (by omega) here notStuffed
  have count : inputs.length = 8 := by simpa using congrArg List.length later
  have rest := next.tailBits inputs (by omega) (by omega)
    (by simp only [length_append, length_singleton]; omega)
    (by
      intro i inner
      have behind := frame.plain_tail (i + 1)
      have tail : frame.tail = true :: ([frame.ack, true] ++ replicate 6 true ++ [true]) := rfl
      rw [Nat.add_assoc, Nat.add_comm 1 i, behind, later, tail, getElem?_cons_succ]
      exact getElem?_append_left (by simp; omega))
  refine ⟨?_, by omega⟩
  rw [count] at rest
  simpa using rest

end CanState

/-- Every frame on the bus is reported as it was sent, with its stuff bits marked and
without a warning. -/
theorem canHandleBit_roundTrip (frame : CanFrame) (s : CanState)
    (inputs : List (Bool × Nat)) (bus : inputs.map Prod.fst = frame.wire.map Prod.fst) :
    let last := inputs.foldl (fun s input => s.handleBit input.1 input.2) s.startOfFrame
    last.state = .idle ∧ last.fields = s.fields ++ frame.fields ∧
      (∀ warning, .warning warning ∉ frame.fields) ∧
      last.rawBits = s.rawBits ++ (StuffRule.marked inputs frame.wire).map CanState.showBit ∧
      ∀ begins ∈ inputs.head?, ∀ ends ∈ inputs.getLast?,
        last.packets = s.packets ++ [frame.packet begins.2 ends.2] := by
  have tail : frame.tail = ([true, frame.ack, true] ++ replicate 6 true) ++ [true] := by
    rw [CanFrame.tail, List.append_assoc, ← replicate_succ']
  have split : frame.wire.map Prod.fst = frame.stuffedBody.map Prod.fst ++
        ([true, frame.ack, true] ++ replicate 6 true) ++ [true] := by
    have unmarked : (frame.tail.map fun bit => (bit, false)).map Prod.fst = frame.tail := by
      rw [map_map]
      exact map_id _
    rw [CanFrame.wire, map_append, List.append_assoc, ← tail, unmarked]
  rw [split] at bus
  obtain ⟨most, final, rfl, early, single⟩ := map_eq_append_iff.mp bus
  obtain ⟨front, back, rfl, stuffed, inner⟩ := map_eq_append_iff.mp early
  obtain ⟨⟨bit, es⟩, none, rfl, high, nothing⟩ := map_eq_cons_iff.mp single
  obtain rfl : none = [] := map_eq_nil_iff.mp nothing
  obtain rfl : bit = true := high
  obtain ⟨run, due, following⟩ := CanState.Following.body frame s front stuffed
  obtain ⟨receiving, room⟩ := following.tail due back inner
  have count : back.length = 9 := by simpa using congrArg List.length inner
  have length : front.length = frame.stuffedBody.length := by
    simpa using congrArg List.length stuffed
  -- Behind the ACK delimiter six recessive bits have been read.
  have ending : ∃ before, (StuffRule.marked front frame.stuffedBody ++
      back.map fun input => (input, false)).map (fun input => input.1.1) =
        before ++ replicate 6 true := by
    have bits : (back.map fun input => (input, false)).map
        (fun input : (Bool × Nat) × Bool => input.1.1) = back.map Prod.fst := by
      simp
    rw [map_append, bits, inner, ← List.append_assoc]
    exact ⟨_, rfl⟩
  obtain ⟨before, ending⟩ := ending
  obtain ⟨state, fields, packets, rawBits⟩ :=
    receiving.last (by simp only [length_append, length_map]; omega)
      (receiving.rawbits.trans ending) es
  have marks : StuffRule.marked (front ++ back ++ [(true, es)]) frame.wire =
      StuffRule.marked front frame.stuffedBody ++
        (back.map fun input => (input, false)) ++ [((true, es), false)] := by
    have behind : (back ++ [(true, es)]).length = frame.tail.length := by
      rw [tail]
      simp [count]
    rw [CanFrame.wire, List.append_assoc, StuffRule.marked_append length,
      StuffRule.marked_plain behind]
    simp
  rw [foldl_append, foldl_append, marks]
  refine ⟨state, fields, frame.no_warning, rawBits, ?_⟩
  intro begins first ends last
  obtain rfl : (true, es) = ends := by simpa using last
  have reads : (StuffRule.marked front frame.stuffedBody ++
      back.map fun input => (input, false)).map Prod.fst = front ++ back := by
    rw [map_append, StuffRule.marked, map_fst_zip (by rw [length, length_map]),
      map_map]
    congr 1
    exact map_id _
  have here : begins ∈ (front ++ back).head? := by
    have some : front ++ back ≠ [] := by
      intro empty
      have none := congrArg List.length empty
      simp [count] at none
    rw [head?_append_of_ne_nil _ some] at first
    exact first
  rw [← receiving.begins reads here]
  exact packets

/-- A standard frame with two bytes and eight stuff bits. -/
def canShortFrame : CanFrame :=
  { baseId := 0x07c#11
    extension := none
    substituteRemote := true
    remote := false
    reserved1 := false
    reserved0 := false
    bytes := [0xff#8, 0x01#8]
    crc := 0x001f#15
    ack := false
    fewBytes := by decide
    remoteEmpty := by decide
    dominantIdent := by decide }

theorem canHandleBit_roundTrip_short :
    let inputs := (canShortFrame.wire.map Prod.fst).zipIdx 100
    let last := inputs.foldl (fun s input => s.handleBit input.1 input.2)
      (CanState.fresh 10).startOfFrame
    last.state = .idle ∧ last.fields =
        [.sof, .ident 0x07c, .ide .standard, .reservedBit .reserved0 false, .rtr false,
          .dlc 2, .data 0 0xff, .data 1 0x01, .crcSequence 15 0x1f, .crcDelimiter true,
          .ackSlot false, .ackDelimiter true, .endOfFrame] := by
  have bus := zipIdx_map_fst 100 (canShortFrame.wire.map Prod.fst)
  obtain ⟨state, fields, _⟩ := canHandleBit_roundTrip canShortFrame (CanState.fresh 10) _ bus
  exact ⟨state, fields⟩

end SigrokDecode
