import SigrokDecode.Decoders.CanCommon

/-!
# The shared steps of the CAN decoders, position by position
-/

namespace SigrokDecode

open Foundation List

section Fields

variable {bits front field back : List Bool} {first count k : Nat}

theorem bitpackMsb_field (split : bits = front ++ field ++ back)
    (begins : front.length = first) (ends : field.length = count) (fits : count ≤ 32)
    (read : first + count ≤ k) : bitpackMsb (bits.take k) first count = packMsb field := by
  obtain ⟨more, rfl⟩ : ∃ more, k = (first + count) + more := ⟨k - (first + count), by omega⟩
  subst begins ends split
  have whole : min field.length 32 = field.length := by omega
  simp only [bitpackMsb, whole]
  rw [← length_append, take_add, take_left, List.append_assoc,
    List.append_assoc, drop_left, take_left]

theorem bitpackMsb_byte {bytes : List (BitVec 8)} {i : Nat}
    (split : bits = front ++ (bytes.flatMap fun byte => msbBits 8 byte.toNat) ++ back)
    (begins : front.length = first) (inside : i < bytes.length)
    (read : first + 8 * bytes.length ≤ k) :
    bitpackMsb (bits.take k) (first + 8 * i) 8 = (bytes.get ⟨i, inside⟩).toNat := by
  obtain ⟨before, byte, after, rfl, length⟩ :
      ∃ before byte after, bytes = before ++ byte :: after ∧ before.length = i :=
    ⟨bytes.take i, bytes.get ⟨i, inside⟩, bytes.drop (i + 1), by simp,
      by simp [Nat.le_of_lt inside]⟩
  have here : ((before ++ byte :: after).get ⟨i, inside⟩) = byte := by simp [← length]
  have regroup : bits = (front ++ before.flatMap fun byte => msbBits 8 byte.toNat) ++
        msbBits 8 byte.toNat ++
        ((after.flatMap fun byte => msbBits 8 byte.toNat) ++ back) := by
    simp [split]
  have starts : (front ++ before.flatMap fun byte => msbBits 8 byte.toNat).length =
        first + 8 * i := by
    simp [begins, length_flatMap, length, Nat.mul_comm]
  simp only [length_append, length_cons] at inside read
  rw [here, bitpackMsb_field regroup starts (length_msbBits 8 _) (by omega) (by omega),
    packMsb_msbBits byte.isLt]

theorem getD_take {position : Nat} {bit : Bool} (here : bits[position]? = some bit)
    (read : position < k) : (bits.take k).getD position false = bit := by
  rw [getD_eq_getElem?_getD, getElem?_take_of_lt read, here]
  rfl

end Fields

namespace CanState

def fields (s : CanState) : List CanField :=
  (s.anns.map CanAnn.field).filter fun field => !field.isRawBit

def rawBits (s : CanState) : List CanAnn :=
  s.anns.filter fun ann => ann.field.isRawBit

section Output

variable (s : CanState) (ss es samplenum : Nat) {field : CanField}

theorem fields_putg (shown : field.isRawBit = false) :
    (s.putg ss es field).fields = s.fields ++ [field] := by
  simp [fields, putg, shown]

theorem fields_putg_raw (raw : field.isRawBit = true) : (s.putg ss es field).fields = s.fields := by
  simp [fields, putg, raw]

theorem rawBits_putg (shown : field.isRawBit = false) :
    (s.putg ss es field).rawBits = s.rawBits := by
  simp [rawBits, putg, shown]

theorem rawBits_putg_raw (raw : field.isRawBit = true) :
    (s.putg ss es field).rawBits = s.rawBits ++ [CanAnn.mk ss es field] := by
  simp [rawBits, putg, raw]

end Output

theorem dlc2len_small {dlc : Nat} (small : dlc ≤ 8) : dlc2len dlc = dlc := by
  have all : ∀ dlc, dlc < 9 → dlc2len dlc = dlc := by decide
  exact all dlc (by omega)

def showBit (input : (Bool × Nat) × Bool) : CanAnn :=
  { ss := input.1.2
    es := input.1.2
    field := if input.2 then .stuffBit input.1.1 else .bit input.1.1 }

theorem push_room (s : CanState) (canRx : Bool) {room : Nat}
    (raw : s.rawbits.length < room) (plain : s.bits.length < room) :
    s.push canRx room =
      { s with rawbits := s.rawbits ++ [canRx], bits := s.bits ++ [canRx] } := by
  have rawPushed :
      (if s.rawbits.length < room then { s with rawbits := s.rawbits ++ [canRx] } else s) =
        { s with rawbits := s.rawbits ++ [canRx] } := if_pos raw
  simp only [push, rawPushed]
  exact if_pos plain

section Ident

variable (s : CanState) (canRx : Bool) (samplenum : Nat) {bitnum : Nat}

theorem decodeIdent_start : s.decodeIdent false 0 samplenum =
      { s with ssPacket := samplenum }.putx samplenum .sof := by
  simp [decodeIdent, startBit, identFirst, identLast, bit12, identExtension]

theorem decodeIdent_first : s.decodeIdent canRx 1 samplenum = { s with ssBlock := samplenum } := by
  simp [decodeIdent, startBit, identFirst, identLast, bit12, identExtension]

theorem decodeIdent_ident : s.decodeIdent canRx 11 samplenum =
      let ident := bitpackMsb s.bits 1 11
      let s := { s with ident, fullid := ident }.putb samplenum (.ident ident)
      if ident &&& 0x7f0 = 0x7f0 then
        s.putb samplenum (.warning .identRecessive)
      else
        s := by
  simp only [decodeIdent, startBit, identFirst, identLast, bit12, identExtension]
  simp

theorem decodeIdent_twelve :
    s.decodeIdent canRx 12 samplenum = { s with ssBit12 := samplenum } := by
  simp [decodeIdent, startBit, identFirst, identLast, bit12, identExtension]

theorem decodeIdent_extension : s.decodeIdent canRx 13 samplenum =
      let type : CanFrameType := if canRx = false then .standard else .extended
      { s with frameType := some type }.putx samplenum (.ide type) := by
  simp [decodeIdent, startBit, identFirst, identLast, bit12, identExtension]

theorem decodeIdent_other (other : 2 ≤ bitnum ∧ bitnum ≤ 10 ∨ 14 ≤ bitnum) :
    s.decodeIdent canRx bitnum samplenum = s := by
  have zero : bitnum ≠ 0 := by omega
  have one : bitnum ≠ 1 := by omega
  have eleven : bitnum ≠ 11 := by omega
  have twelve : bitnum ≠ 12 := by omega
  have thirteen : bitnum ≠ 13 := by omega
  simp [decodeIdent, startBit, identFirst, identLast, bit12, identExtension, zero, one,
    eleven, twelve, thirteen]

theorem extendedIdent_read (long : 14 < s.bits.length) : s.extendedIdent 31 samplenum =
      let eid := bitpackMsb s.bits 14 (s.bits.length - 14)
      let fullid := s.ident <<< 18 ||| eid
      (({ s with eid, fullid }.putb samplenum (.extIdent eid)).putb samplenum
        (.fullIdent fullid)).putg s.ssBit12 s.ssBit12 (.srr (s.bits.getD 12 false)) := by
  rw [extendedIdent, if_pos rfl, if_pos long]
  rfl

theorem decodeIdent_registers : let t := s.decodeIdent canRx bitnum samplenum
    (t.rtrType = s.rtrType ∧ t.crcLen = s.crcLen ∧ t.fd = s.fd ∧
        t.stuffCount = s.stuffCount ∧ t.crcData = s.crcData) ∧
      t.dlcStart = s.dlcStart := by
  by_cases other : 2 ≤ bitnum ∧ bitnum ≤ 10 ∨ 14 ≤ bitnum
  · rw [decodeIdent_other s canRx samplenum other]
    exact ⟨⟨rfl, rfl, rfl, rfl, rfl⟩, rfl⟩
  · have position : bitnum = 0 ∨ bitnum = 1 ∨ bitnum = 11 ∨ bitnum = 12 ∨ bitnum = 13 := by
      omega
    rcases position with rfl | rfl | rfl | rfl | rfl
    · cases canRx with
      | false => exact ⟨⟨rfl, rfl, rfl, rfl, rfl⟩, rfl⟩
      | true => exact ⟨⟨rfl, rfl, rfl, rfl, rfl⟩, rfl⟩
    · exact ⟨⟨rfl, rfl, rfl, rfl, rfl⟩, rfl⟩
    · rw [decodeIdent_ident]
      simp only
      split
      · exact ⟨⟨rfl, rfl, rfl, rfl, rfl⟩, rfl⟩
      · exact ⟨⟨rfl, rfl, rfl, rfl, rfl⟩, rfl⟩
    · exact ⟨⟨rfl, rfl, rfl, rfl, rfl⟩, rfl⟩
    · exact ⟨⟨rfl, rfl, rfl, rfl, rfl⟩, rfl⟩

theorem extendedIdent_registers :
    let t := (s.extendedStart bitnum samplenum).extendedIdent bitnum samplenum
    (t.rtrType = s.rtrType ∧ t.crcLen = s.crcLen ∧ t.fd = s.fd ∧
        t.stuffCount = s.stuffCount ∧ t.crcData = s.crcData) ∧
      t.dlcStart = if bitnum = 14 then 35 else s.dlcStart := by
  by_cases first : bitnum = 14
  · subst first
    exact ⟨⟨rfl, rfl, rfl, rfl, rfl⟩, rfl⟩
  · have start : s.extendedStart bitnum samplenum = s := if_neg first
    rw [start, if_neg first]
    simp only [extendedIdent]
    split
    · exact ⟨⟨rfl, rfl, rfl, rfl, rfl⟩, rfl⟩
    · exact ⟨⟨rfl, rfl, rfl, rfl, rfl⟩, rfl⟩

end Ident

section Data

variable (s : CanState) (samplenum : Nat) {bitnum : Nat} (room most : Nat)

theorem dataField_outside (outside : bitnum ≤ s.dlcStart + 3 ∨ s.lastDatabit < bitnum)
    (notLast : s.dlc = 0 ∨ bitnum ≠ s.lastDatabit) :
    s.dataField bitnum samplenum room most = s := by
  have inner : ¬ (bitnum > s.dlcStart + 3 ∧ bitnum < s.lastDatabit) := by omega
  have last : ¬ (bitnum = s.lastDatabit ∧ s.dlc > 0) := by omega
  simp [dataField, inner, last]

theorem dataField_inside (behind : s.dlcStart + 3 < bitnum) (inside : bitnum < s.lastDatabit) :
    s.dataField bitnum samplenum room most = s.dataBit samplenum room := by
  have last : bitnum ≠ s.lastDatabit := by omega
  have kept : (s.dataBit samplenum room).lastDatabit = s.lastDatabit := by
    simp only [dataBit]
    split
    · rfl
    · rfl
  simp [dataField, behind, inside, last, kept]

def byteAt (i : Nat) : Nat :=
  if s.dlcStart + 4 + 8 * i + 8 ≤ s.bits.length then
    bitpackMsb s.bits (s.dlcStart + 4 + 8 * i) 8
  else
    0

theorem foldl_dataByte (count : Nat) (noted : 8 * count ≤ s.ssDatabytebits.length) : ∃ anns bytes,
      (range count).foldl dataByte s =
          { s with frameBytes := bytes, anns := s.anns ++ anns } ∧
        anns.map CanAnn.field =
          (range count).map fun i => CanField.data i (s.byteAt i) := by
  induction count with
  | zero => exact ⟨[], s.frameBytes, by simp, rfl⟩
  | succ count ih =>
      obtain ⟨anns, bytes, loop, reported⟩ := ih (by omega)
      have first : count * 8 < s.ssDatabytebits.length := by omega
      have last : (count + 1) * 8 - 1 < s.ssDatabytebits.length := by omega
      rw [range_succ, foldl_append, loop]
      refine ⟨anns ++ [{
        ss := s.ssDatabytebits.getD (count * 8) 0
        es := s.ssDatabytebits.getD ((count + 1) * 8 - 1) 0
        field := .data count (s.byteAt count) }], bytes ++ [s.byteAt count], ?_, ?_⟩
      · simp [dataByte, first, last, putg, byteAt]
      · simp [reported]

theorem dataField_last (positive : 0 < s.dlc)
    (noted : s.ssDatabytebits.length + 1 = 8 * min (dlc2len s.dlc) most)
    (fits : s.ssDatabytebits.length < room) :
    ∃ anns bytes, s.dataField s.lastDatabit samplenum room most =
          { s with ssDatabytebits := [], frameBytes := bytes, anns := s.anns ++ anns } ∧
        anns.map CanAnn.field = (range (min (dlc2len s.dlc) most)).map fun i =>
            CanField.data i (s.byteAt i) := by
  have pushed : s.dataBit samplenum room =
      { s with ssDatabytebits := s.ssDatabytebits ++ [samplenum] } := if_pos fits
  obtain ⟨anns, bytes, loop, reported⟩ := foldl_dataByte
    { s with ssDatabytebits := s.ssDatabytebits ++ [samplenum], frameBytes := [] }
    (min (dlc2len s.dlc) most) (by simp only [length_append, length_singleton]; omega)
  refine ⟨anns, bytes, ?_, reported⟩
  have inner : ¬ (s.lastDatabit > s.dlcStart + 3 ∧ s.lastDatabit < s.lastDatabit) := by omega
  rw [dataField, if_neg inner, if_pos ⟨rfl, positive⟩, pushed]
  simp only [reportBytes, loop]

theorem dataField_registers (bitnum : Nat) : ∃ databits frameBytes anns,
      s.dataField bitnum samplenum room most =
        { s with ssDatabytebits := databits, frameBytes, anns } := by
  have bit : ∀ t : CanState, ∃ databits, t.dataBit samplenum room =
      { t with ssDatabytebits := databits } := by
    intro t
    rw [dataBit]
    split
    · exact ⟨_, rfl⟩
    · exact ⟨t.ssDatabytebits, rfl⟩
  have loop : ∀ (t : CanState) count, ∃ frameBytes anns,
      (range count).foldl dataByte t = { t with frameBytes, anns } := by
    intro t count
    induction count with
    | zero => exact ⟨t.frameBytes, t.anns, rfl⟩
    | succ count ih =>
        obtain ⟨frameBytes, anns, before⟩ := ih
        rw [range_succ, foldl_append, before, foldl_cons, foldl_nil]
        simp only [dataByte]
        split
        · exact ⟨_, _, rfl⟩
        · exact ⟨_, _, rfl⟩
  obtain ⟨first, inner⟩ : ∃ databits,
      (if bitnum > s.dlcStart + 3 ∧ bitnum < s.lastDatabit then
        s.dataBit samplenum room
      else
        s) = { s with ssDatabytebits := databits } := by
    split
    · exact bit s
    · exact ⟨s.ssDatabytebits, rfl⟩
  simp only [dataField, inner]
  split
  · obtain ⟨databits, last⟩ := bit { s with ssDatabytebits := first }
    rw [last, reportBytes]
    obtain ⟨frameBytes, anns, all⟩ := loop
      { s with ssDatabytebits := databits, frameBytes := [] }
      (min (dlc2len s.dlc) most)
    exact ⟨[], frameBytes, anns, congrArg (fun t : CanState => { t with ssDatabytebits := [] }) all⟩
  · exact ⟨first, s.frameBytes, s.anns, rfl⟩

end Data

theorem fields_append (s : CanState) {anns : List CanAnn}
    (shown : ∀ field ∈ anns.map CanAnn.field, CanField.isRawBit field = false) :
    { s with anns := s.anns ++ anns }.fields = s.fields ++ anns.map CanAnn.field := by
  have kept : (anns.map CanAnn.field).filter (fun field => !field.isRawBit) =
      anns.map CanAnn.field := by
    refine filter_eq_self.mpr ?_
    intro field member
    simp [shown field member]
  simp only [fields, map_append, filter_append, kept]

theorem endOfFrame_recessive (s : CanState) (samplenum : Nat) (recessive : s.eofRecessive = true) :
    s.endOfFrame samplenum =
      { s.putb samplenum .endOfFrame with
        esPacket := samplenum
        packets := s.packets ++
          [{ ss := s.ssPacket
             es := samplenum
             frameType := if s.frameType = some .standard then .standard else .extended
             fullid := s.fullid
             remote := s.rtrType
             dlc := s.dlc }] } := by
  have seen : (s.putb samplenum .endOfFrame).eofRecessive = true := recessive
  simp only [endOfFrame, if_pos seen]
  rfl

/-- The buffers, the packets, the annotations of single bits and the beginning of
the frame are the same. -/
structure Kept (s t : CanState) : Prop where
  rawbits : t.rawbits = s.rawbits
  bits : t.bits = s.bits
  packets : t.packets = s.packets
  rawBits : t.rawBits = s.rawBits
  ssPacket : t.ssPacket = s.ssPacket

theorem Kept.refl (s : CanState) : Kept s s := ⟨rfl, rfl, rfl, rfl, rfl⟩

variable {s t : CanState}

theorem Kept.trans {u : CanState} (first : Kept s t) (second : Kept t u) : Kept s u :=
  ⟨second.rawbits.trans first.rawbits, second.bits.trans first.bits,
    second.packets.trans first.packets, second.rawBits.trans first.rawBits,
    second.ssPacket.trans first.ssPacket⟩

theorem Kept.ite {u : CanState} {condition : Prop} [Decidable condition]
    (first : Kept s t) (second : Kept s u) : Kept s (if condition then t else u) := by
  split
  · exact first
  · exact second

theorem Kept.putg (kept : Kept s t) (ss es : Nat) {field : CanField}
    (shown : field.isRawBit = false) : Kept s (t.putg ss es field) :=
  kept.trans ⟨rfl, rfl, rfl, rawBits_putg t ss es shown, rfl⟩

section Kept

variable (s : CanState) (canRx : Bool) (bitnum samplenum : Nat)

theorem kept_decodeIdent (later : bitnum ≠ 0) : Kept s (s.decodeIdent canRx bitnum samplenum) := by
  have start : s.startBit canRx bitnum samplenum = s := if_neg later
  have first : ∀ t : CanState, Kept t (t.identFirst bitnum samplenum) :=
    fun t => .ite ⟨rfl, rfl, rfl, rfl, rfl⟩ (.refl t)
  have ident : ∀ t : CanState, Kept t (t.identLast bitnum samplenum) := by
    intro t
    have update : ∀ ident, Kept t { t with ident, fullid := ident } :=
      fun ident => ⟨rfl, rfl, rfl, rfl, rfl⟩
    exact .ite (.ite (((update _).putg _ _ rfl).putg _ _ rfl) ((update _).putg _ _ rfl)) (.refl t)
  have twelve : ∀ t : CanState, Kept t (t.bit12 bitnum samplenum) :=
    fun t => .ite ⟨rfl, rfl, rfl, rfl, rfl⟩ (.refl t)
  have extension : ∀ t : CanState, Kept t (t.identExtension canRx bitnum samplenum) := by
    intro t
    have update : ∀ type, Kept t { t with frameType := some type } :=
      fun type => ⟨rfl, rfl, rfl, rfl, rfl⟩
    exact .ite ((update _).putg _ _ rfl) (.refl t)
  rw [decodeIdent, start]
  exact (((first s).trans (ident _)).trans (twelve _)).trans (extension _)

theorem kept_extendedStart : Kept s (s.extendedStart bitnum samplenum) :=
  .ite ⟨rfl, rfl, rfl, rfl, rfl⟩ (.refl s)

theorem kept_extendedIdent : Kept s (s.extendedIdent bitnum samplenum) := by
  have update : ∀ eid fullid, Kept s { s with eid, fullid } :=
    fun eid fullid => ⟨rfl, rfl, rfl, rfl, rfl⟩
  exact .ite ((((update _ _).putg _ _ rfl).putg _ _ rfl).putg _ _ rfl) (.refl s)

theorem kept_flagBit (position : Nat) (flag : CanFlag) :
    Kept s (s.flagBit canRx bitnum samplenum position flag) :=
  .ite ((Kept.refl s).putg _ _ rfl) (.refl s)

theorem kept_dlcFirst : Kept s (s.dlcFirst bitnum samplenum) :=
  .ite ⟨rfl, rfl, rfl, rfl, rfl⟩ (.refl s)

theorem kept_putDlc : Kept s (s.putDlc samplenum) := by
  have update : Kept s { s with dlc := s.readDlc } := ⟨rfl, rfl, rfl, rfl, rfl⟩
  exact update.putg _ _ rfl

theorem kept_dataByte (i : Nat) : Kept s (s.dataByte i) := by
  have update : ∀ bytes, Kept s { s with frameBytes := bytes } :=
    fun bytes => ⟨rfl, rfl, rfl, rfl, rfl⟩
  exact .ite ((update _).putg _ _ rfl) (update _)

theorem kept_dataField (room most : Nat) : Kept s (s.dataField bitnum samplenum room most) := by
  have bit : ∀ t : CanState, Kept t (t.dataBit samplenum room) :=
    fun t => .ite ⟨rfl, rfl, rfl, rfl, rfl⟩ (.refl t)
  have loop : ∀ (t : CanState) count,
      Kept t ((range count).foldl dataByte t) := by
    intro t count
    induction count with
    | zero => exact .refl t
    | succ count ih =>
        rw [range_succ, foldl_append]
        exact ih.trans (kept_dataByte _ _)
  have report : ∀ t : CanState, Kept t (t.reportBytes most) := by
    intro t
    have emptied : Kept t { t with frameBytes := [] } := ⟨rfl, rfl, rfl, rfl, rfl⟩
    exact (emptied.trans (loop _ _)).trans ⟨rfl, rfl, rfl, rfl, rfl⟩
  have first : Kept s
      (if bitnum > s.dlcStart + 3 ∧ bitnum < s.lastDatabit then
        s.dataBit samplenum room
      else
        s) := .ite (bit s) (.refl s)
  exact .ite ((first.trans (bit _)).trans (report _)) first

end Kept

end CanState

end SigrokDecode
