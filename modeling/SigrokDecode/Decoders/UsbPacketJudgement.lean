import Mathlib.Data.List.Range
import SigrokDecode.Decoders.UsbPacketMessage

/-!
# Which USB packets are judged rightly

`usb_packet_c` asks for 40 bits of a token, knows no fields of a `PING`, and takes its
checks over the packet identifier too.
-/

namespace SigrokDecode

open Foundation List UsbMessage UsbPktState

@[simp] theorem length_pidBits (pid : UsbPid) : pid.bits.length = 8 :=
  length_msbBits 8 pid.bitstr.toNat

theorem findPid_bits (pid : UsbPid) (rest : List Bool) :
    usbPktFindPid (pid.bits ++ rest) = some pid := by
  unfold usbPktFindPid
  rw [take_left' (length_pidBits pid)]
  cases pid <;> rfl

theorem byteBits_window (bytes : List (BitVec 8)) (rest : List Bool) (i : Nat)
    (inside : i < bytes.length) :
    ((byteBits bytes ++ rest).drop (i * 8)).take 8 = lsbBits 8 (bytes[i]).toNat := by
  induction bytes generalizing i with
  | nil => exact absurd inside (Nat.not_lt_zero i)
  | cons byte bytes ih =>
      have front : byteBits (byte :: bytes) ++ rest =
          lsbBits 8 byte.toNat ++ (byteBits bytes ++ rest) := by
        rw [← List.append_assoc]
        congr 1
      rw [front]
      cases i with
      | zero => exact take_left' (length_lsbBits 8 byte.toNat)
      | succ i =>
          have shifted : (i + 1) * 8 = 8 + i * 8 := by omega
          rw [shifted, ← drop_drop, drop_left' (length_lsbBits 8 byte.toNat)]
          exact ih i (Nat.lt_of_succ_lt_succ inside)

namespace UsbPktState

/-- The annotations without their places. -/
def fields (s : UsbPktState) : List UsbPktField :=
  s.anns.map fun ann => ann.field

variable (s : UsbPktState)

@[simp] theorem fields_put (ss es : Nat) (field : UsbPktField) :
    (s.put ss es field).fields = s.fields ++ [field] := by
  simp [fields, put]

@[simp] theorem fields_putBits (first last : Nat) (field : UsbPktField) :
    (s.putBits first last field).fields = s.fields ++ [field] :=
  fields_put s _ _ field

@[simp] theorem fields_putPacket (field : UsbPktField) :
    (s.putPacket field).fields = s.fields ++ [field] :=
  fields_put s _ _ field

@[simp] theorem fields_proto (category : UsbPidCategory) (name : UsbPid)
    (fields : UsbPktFields) : (s.proto category name fields).fields = s.fields := rfl

@[simp] theorem bits_putBits (first last : Nat) (field : UsbPktField) :
    (s.putBits first last field).bits = s.bits := rfl

theorem dataByte_putBits (first last : Nat) (field : UsbPktField) :
    (s.putBits first last field).dataByte = s.dataByte := rfl

theorem foldl_putDataByte (indices : List Nat) :
    (indices.foldl putDataByte s).bits = s.bits ∧ (indices.foldl putDataByte s).fields =
        s.fields ++ indices.map fun i => UsbPktField.data (s.dataByte i) := by
  induction indices generalizing s with
  | nil => exact ⟨rfl, (List.append_nil _).symm⟩
  | cons i indices ih =>
      obtain ⟨bits, fields⟩ := ih (s.putDataByte i)
      refine ⟨bits, ?_⟩
      have step : (s.putDataByte i).fields = s.fields ++ [.data (s.dataByte i)] :=
        fields_putBits s _ _ _
      rw [foldl_cons, fields, step, List.append_assoc]
      rfl

variable {s : UsbPktState}

theorem handlePacket_pid (pid : UsbPid) (rest : List Bool)
    (bits : s.bits = syncBits ++ (pid.bits ++ rest)) :
    s.handlePacket = (s.putBits 0 7 .syncOk).handlePid pid := by
  have length : s.bits.length = 16 + rest.length := by
    rw [bits, length_append, length_append, length_pidBits]
    simp only [syncBits, length_cons, length_nil]
    omega
  have sync : s.bits.take 8 = syncBits := by
    rw [bits]
    exact take_left' rfl
  have behind : s.bits.drop 8 = pid.bits ++ rest := by
    rw [bits]
    exact drop_left' rfl
  have eight : ¬s.bits.length < 8 := by omega
  have sixteen : ¬s.bits.length < 16 := by omega
  unfold handlePacket
  rw [if_neg eight]
  simp only [sync, bits_putBits, if_neg sixteen, behind, findPid_bits]
  simp

theorem handlePacket_token (name : UsbTokenPid) (addr : BitVec 7)
    (ep : BitVec 4) (crc : BitVec 5) (bits : s.bits = UsbMessage.bits (.token name addr ep) crc) :
    s.handlePacket.fields = s.fields ++ [UsbPktField.syncOk, .pid name.pid,
      if name = .ping then .plainPacket .ping else .invalid .plain] := by
  have length : s.bits.length = 32 := by
    rw [bits]
    simp [UsbMessage.bits, payload, UsbMessage.pid, syncBits, crcWidth]
  rw [handlePacket_pid name.pid _ bits]
  cases name <;> simp [handlePid, UsbTokenPid.pid, UsbPid.category, handleToken, length]

theorem handlePacket_sof (framenum : BitVec 11) (crc : BitVec 5)
    (bits : s.bits = UsbMessage.bits (.sof framenum) crc) :
    s.handlePacket.fields = s.fields ++ [UsbPktField.syncOk, .pid .sof, .invalid .plain] := by
  have length : s.bits.length = 32 := by
    rw [bits]
    simp [UsbMessage.bits, payload, UsbMessage.pid, syncBits, crcWidth]
  rw [handlePacket_pid .sof _ bits]
  simp [handlePid, UsbPid.category, handleToken, length]

section Data

variable {s : UsbPktState} {name : UsbDataPid} {bytes : List (BitVec 8)} {crc : BitVec 16}
  (bits : s.bits = UsbMessage.bits (.data name bytes) crc)

include bits

theorem length_data : s.bits.length = 32 + 8 * bytes.length := by
  rw [bits]
  simp only [UsbMessage.bits, payload, crcWidth, syncBits,
    length_append, length_pidBits, length_byteBits, length_lsbBits, length_cons,
    length_nil]
  omega

theorem data_split : s.bits =
    syncBits ++ (name.pid.bits ++ (byteBits bytes ++ lsbBits 16 crc.toNat)) :=
  bits

theorem dataByte_data {i : Nat} (inside : i < bytes.length) : s.dataByte i = (bytes[i]).toNat := by
  have behind : s.bits.drop 16 = byteBits bytes ++ lsbBits 16 crc.toNat := by
    have front : (syncBits ++ name.pid.bits).length = 16 := by
      rw [length_append, length_pidBits]
      rfl
    rw [data_split bits, ← List.append_assoc]
    exact drop_left' front
  unfold dataByte usbPktBitsToByte
  rw [← drop_drop, behind, Nat.min_self, byteBits_window bytes _ i inside,
    packLsb_lsbBits (bytes[i]).isLt]

theorem dataBytes_data :
    (range bytes.length).map s.dataByte = bytes.map fun byte => byte.toNat := by
  apply ext_getElem
  · simp
  · intro i first second
    have inside : i < bytes.length := by simpa using second
    rw [getElem_map, getElem_map, getElem_range, dataByte_data bits inside]

theorem received_data : usbPktBitsToInt s.bits (s.bits.length - 16) 16 % 2 ^ 16 = crc.toNat := by
  have front : (syncBits ++ (name.pid.bits ++ byteBits bytes)).length = s.bits.length - 16 := by
    rw [length_data bits]
    simp only [syncBits, length_append, length_pidBits, length_byteBits, length_cons, length_nil]
    omega
  have whole : s.bits = syncBits ++ (name.pid.bits ++ byteBits bytes) ++ lsbBits 16 crc.toNat := by
    rw [data_split bits]
    simp only [List.append_assoc]
  have behind : s.bits.drop (s.bits.length - 16) = lsbBits 16 crc.toNat := by
    rw [← front]
    conv_lhs => rw [whole]
    exact drop_left
  unfold usbPktBitsToInt
  rw [behind, Nat.min_eq_left (by decide), take_of_length_le (by simp),
    packLsb_lsbBits crc.isLt, Nat.mod_eq_of_lt crc.isLt]

theorem calculated_data : usbPktCalcCrc16 ((s.bits.drop 8).take (s.bits.length - 16 - 8)) =
      (crcCheck usbPoly16 (name.pid.bits ++ byteBits bytes)).toNat := by
  have behind : s.bits.drop 8 = name.pid.bits ++ byteBits bytes ++ lsbBits 16 crc.toNat := by
    rw [data_split bits, List.append_assoc]
    exact drop_left' rfl
  have covered : (name.pid.bits ++ byteBits bytes).length = s.bits.length - 16 - 8 := by
    rw [length_data bits, length_append, length_pidBits, length_byteBits]
    omega
  rw [behind, take_left' covered, usbPktCalcCrc16_eq]

theorem handleData_fields : (s.handleData name.pid).fields = s.fields ++
      (bytes.map (fun byte => UsbPktField.data byte.toNat) ++
        [if crc = crcCheck usbPoly16 (name.pid.bits ++ byteBits bytes) then
            UsbPktField.crc16Ok crc.toNat
            else .crc16Err crc.toNat,
          if bytes.length ≤ 8 then .dataPacket name.pid (bytes.map fun byte => byte.toNat)
            else .longPacket name.pid bytes.length]) := by
  have length := length_data bits
  have whole : ¬(s.bits.length < 32 ∨ (s.bits.length - 32) % 8 ≠ 0) := by omega
  have count : (s.bits.length - 32) / 8 = bytes.length := by omega
  obtain ⟨sameBits, fields⟩ := foldl_putDataByte s (range bytes.length)
  have shown : (range bytes.length).map (fun i => UsbPktField.data (s.dataByte i)) =
      bytes.map fun byte => .data byte.toNat := by
    have bytesShown := congrArg (List.map UsbPktField.data) (dataBytes_data bits)
    rw [map_map, map_map] at bytesShown
    exact bytesShown
  have sameBytes : (range bytes.length).map ((range bytes.length).foldl putDataByte s).dataByte =
        bytes.map fun byte => byte.toNat := by
    rw [← dataBytes_data bits]
    apply map_congr_left
    intro i member
    rw [dataByte, dataByte, sameBits]
  unfold handleData
  simp only [if_neg whole, count, received_data bits, calculated_data bits, fields_proto,
    fields_putPacket, handleCrc16, fields_putBits, fields, shown, dataByte_putBits, sameBytes,
    BitVec.toNat_inj, List.append_assoc, cons_append, nil_append]

end Data

def dataReport (name : UsbDataPid) (bytes : List (BitVec 8)) (crc : BitVec 16) : List UsbPktField :=
  .syncOk :: .pid name.pid :: (bytes.map (fun byte => UsbPktField.data byte.toNat) ++
      [if crc = crcCheck usbPoly16 (name.pid.bits ++ byteBits bytes) then
          UsbPktField.crc16Ok crc.toNat
          else .crc16Err crc.toNat,
        if bytes.length ≤ 8 then .dataPacket name.pid (bytes.map fun byte => byte.toNat)
          else .longPacket name.pid bytes.length])

theorem handlePacket_data (name : UsbDataPid) (bytes : List (BitVec 8))
    (crc : BitVec 16) (bits : s.bits = UsbMessage.bits (.data name bytes) crc) :
    s.handlePacket.fields = s.fields ++ dataReport name bytes crc := by
  have data : name.pid.category = .data := by
    cases name <;> rfl
  rw [handlePacket_pid name.pid _ bits]
  unfold handlePid
  simp only [data]
  rw [handleData_fields (s := (s.putBits 0 7 .syncOk).putBits 8 15 (.pid name.pid)) bits,
    fields_putBits, fields_putBits]
  simp only [dataReport, List.append_assoc, cons_append, nil_append]

theorem crc16Ok_mem_dataReport {name : UsbDataPid} {bytes : List (BitVec 8)} {crc : BitVec 16} :
    .crc16Ok crc.toNat ∈ dataReport name bytes crc ↔
      crc = crcCheck usbPoly16 (name.pid.bits ++ byteBits bytes) := by
  by_cases expected : crc = crcCheck usbPoly16 (name.pid.bits ++ byteBits bytes)
  · simp [dataReport, ← expected]
  · simp only [dataReport, if_neg expected]
    split <;> simp [expected]

theorem crc16Err_mem_dataReport {name : UsbDataPid} {bytes : List (BitVec 8)} {crc : BitVec 16} :
    .crc16Err crc.toNat ∈ dataReport name bytes crc ↔
      crc ≠ crcCheck usbPoly16 (name.pid.bits ++ byteBits bytes) := by
  by_cases expected : crc = crcCheck usbPoly16 (name.pid.bits ++ byteBits bytes)
  · simp only [dataReport, if_pos expected]
    split <;> simp [expected]
  · simp [dataReport, expected]

/-- `BIT` commands with the samples of each bit. -/
def feedBits (s : UsbPktState) (events : List (Nat × Nat × Bool)) : UsbPktState :=
  events.foldl (fun s event =>
      s.decodeUpper event.1 event.2.1 (.bit (some (if event.2.2 then 1#8 else 0#8)))) s

def everySample (bits : List Bool) : List (Nat × Nat × Bool) :=
  bits.zipIdx.map fun sampled => (sampled.2, sampled.2 + 1, sampled.1)

def feedPacket (s : UsbPktState) (sop eop : Nat × Nat) (events : List (Nat × Nat × Bool)) :
    UsbPktState :=
  ((s.decodeUpper sop.1 sop.2 .sop).feedBits events).decodeUpper eop.1 eop.2 .eop

theorem feedBits_fields (events : List (Nat × Nat × Bool))
    (reading : s.state = .getBit) (room : s.bits.length + events.length ≤ usbPktMaxBits) :
    (s.feedBits events).state = .getBit ∧
      (s.feedBits events).bits = s.bits ++ events.map (fun event => event.2.2) ∧
      (s.feedBits events).fields = s.fields := by
  induction events generalizing s with
  | nil => exact ⟨reading, (List.append_nil _).symm, rfl⟩
  | cons event events ih =>
      obtain ⟨ss, es, bit⟩ := event
      rw [length_cons] at room
      have free : s.bits.length < usbPktMaxBits := by omega
      have value : decide ((if bit then 1#8 else 0#8) = 1#8) = bit := by
        cases bit <;> rfl
      have step : s.decodeUpper ss es (.bit (some (if bit then 1#8 else 0#8))) =
          { s with
            bits := s.bits ++ [bit]
            bitSs := s.bitSs ++ [ss]
            bitEs := s.bitEs ++ [es] } := by
        unfold decodeUpper
        simp only [reading, Option.getD_some, value, pushBit, if_pos free]
      have next := ih
        (s := s.decodeUpper ss es (.bit (some (if bit then 1#8 else 0#8))))
      rw [step] at next
      obtain ⟨state, bits, fields⟩ := next reading (by
        rw [length_append, length_singleton]
        omega)
      unfold feedBits at state bits fields ⊢
      rw [foldl_cons, step]
      refine ⟨state, ?_, fields⟩
      rw [bits, map_cons, List.append_assoc]
      rfl

theorem feedPacket_fields (waiting : s.state = .waitSop) (sop eop : Nat × Nat)
    (events : List (Nat × Nat × Bool)) (room : events.length ≤ usbPktMaxBits) :
    ∃ u : UsbPktState, u.bits = events.map (fun event => event.2.2) ∧ u.fields = s.fields ∧
      (s.feedPacket sop eop events).fields = u.handlePacket.fields := by
  have started : s.decodeUpper sop.1 sop.2 .sop = s.startPacket sop.1 := by
    unfold decodeUpper
    rw [waiting]
  obtain ⟨state, bits, fields⟩ :=
    feedBits_fields events (s := s.startPacket sop.1) rfl (by
      rw [startPacket, length_nil, Nat.zero_add]
      exact room)
  refine ⟨{ (s.startPacket sop.1).feedBits events with esPacket := eop.2 }, bits, fields, ?_⟩
  unfold feedPacket
  rw [started]
  unfold decodeUpper
  simp only [state, endPacket]
  rfl

end UsbPktState

/-- Between `s` and `t` the packet is judged as its check says. -/
def UsbMessage.JudgedRightly (message : UsbMessage) (crc : BitVec message.crcWidth)
    (s t : UsbPktState) : Prop :=
  ∃ fields, t.fields = s.fields ++ fields ∧
    (crc = message.check → (message.report crc).Sublist fields) ∧
    (crc ≠ message.check → message.crcError crc ∈ fields)

/-- The check is wrong, and it is not the one over the packet identifier and the data
either. -/
def UsbMessage.Refused : (message : UsbMessage) → BitVec message.crcWidth → Prop
  | .token _ _ _, _ => False
  | .sof _, _ => False
  | .data name bytes, crc =>
      crc ≠ crcCheck usbPoly16 (byteBits bytes) ∧
        crc ≠ crcCheck usbPoly16 (name.pid.bits ++ byteBits bytes)

/-- The packet identifier moves the register, so the right check is never the one that the
decoder expects. -/
theorem crcCheck_pid_ne (name : UsbDataPid) (bits : List Bool) :
    crcCheck usbPoly16 (name.pid.bits ++ bits) ≠ crcCheck usbPoly16 bits := by
  apply crcCheck_append_ne (by decide)
  cases name <;> decide

theorem dataReport_judged (name : UsbDataPid) (bytes : List (BitVec 8)) (crc : BitVec 16) :
    ((crc = crcCheck usbPoly16 (byteBits bytes) → (report (.data name bytes) crc).Sublist
            (UsbPktState.dataReport name bytes crc)) ∧
        (crc ≠ crcCheck usbPoly16 (byteBits bytes) →
          .crc16Err crc.toNat ∈ UsbPktState.dataReport name bytes crc)) ↔
      crc ≠ crcCheck usbPoly16 (byteBits bytes) ∧
        crc ≠ crcCheck usbPoly16 (name.pid.bits ++ byteBits bytes) := by
  constructor
  · rintro ⟨accepted, refused⟩
    have wrong : crc ≠ crcCheck usbPoly16 (byteBits bytes) := by
      intro right
      have reported : .crc16Ok crc.toNat ∈ UsbPktState.dataReport name bytes crc :=
        (accepted right).subset (mem_append_right _ (mem_singleton.mpr rfl))
      rw [crc16Ok_mem_dataReport, right] at reported
      exact crcCheck_pid_ne name (byteBits bytes) reported.symm
    exact ⟨wrong, crc16Err_mem_dataReport.mp (refused wrong)⟩
  · rintro ⟨wrong, other⟩
    exact ⟨fun right => absurd right wrong, fun _ => crc16Err_mem_dataReport.mpr other⟩

/-- Data packets with a wrong check are the only ones that are judged rightly. -/
theorem feedPacket_judgedRightly_iff (message : UsbMessage) (crc : BitVec message.crcWidth)
    (s : UsbPktState) (waiting : s.state = .waitSop) (sop eop : Nat × Nat)
    (events : List (Nat × Nat × Bool))
    (sent : events.map (fun event => event.2.2) = message.bits crc)
    (room : events.length ≤ usbPktMaxBits) :
    message.JudgedRightly crc s (s.feedPacket sop eop events) ↔ message.Refused crc := by
  obtain ⟨u, bits, same, handled⟩ := feedPacket_fields waiting sop eop events room
  rw [sent] at bits
  unfold JudgedRightly
  rw [handled, ← same]
  cases message with
  | token name addr ep =>
      simp only [handlePacket_token name addr ep crc bits,
        append_cancel_left_eq, exists_eq_left', Refused, iff_false]
      rintro ⟨accepted, refused⟩
      by_cases right : crc = check (.token name addr ep)
      · have reported : UsbPktField.crc5Ok crc.toNat ∈ _ :=
          (accepted right).subset (by simp [report])
        cases name <;> simp at reported
      · have reported := refused right
        cases name <;> simp [crcError] at reported
  | sof framenum =>
      simp only [handlePacket_sof framenum crc bits, append_cancel_left_eq,
        exists_eq_left', Refused, iff_false]
      rintro ⟨accepted, refused⟩
      by_cases right : crc = check (.sof framenum)
      · have reported : UsbPktField.crc5Ok crc.toNat ∈ _ :=
          (accepted right).subset (by simp [report])
        simp at reported
      · have reported := refused right
        simp [crcError] at reported
  | data name bytes =>
      simp only [handlePacket_data name bytes crc bits, append_cancel_left_eq,
        exists_eq_left']
      exact dataReport_judged name bytes crc

/-- A data packet with no check at all. -/
theorem feedPacket_judgedRightly_iff_data0 :
    (UsbMessage.data .data0 [0x55#8]).JudgedRightly 0#16 UsbPktState.idle
      (UsbPktState.idle.feedPacket (0, 1) (40, 41)
        (UsbPktState.everySample (UsbMessage.bits (.data .data0 [0x55#8]) 0#16))) := by
  have wrong : 0#16 ≠ crcCheck usbPoly16 (byteBits [0x55#8]) := by decide +kernel
  have other : 0#16 ≠ crcCheck usbPoly16 (UsbDataPid.data0.pid.bits ++ byteBits [0x55#8]) := by
    decide +kernel
  exact (feedPacket_judgedRightly_iff (.data .data0 [0x55#8]) 0#16 idle rfl (0, 1)
    (40, 41) _ (by decide) (by decide)).mpr ⟨wrong, other⟩

/-- With the right check a token is called invalid, a `PING` has no fields, and a data packet
has a wrong check. -/
theorem feedPacket_misjudged : (UsbPktState.idle.feedPacket (0, 1) (32, 33) (UsbPktState.everySample
          (UsbMessage.bits (.token .in 5#7 1#4) (UsbMessage.check (.token .in 5#7 1#4))))).fields =
        [.syncOk, .pid .in, .invalid .plain] ∧
      (UsbPktState.idle.feedPacket (0, 1) (32, 33) (UsbPktState.everySample
          (UsbMessage.bits (.token .ping 5#7 1#4)
            (UsbMessage.check (.token .ping 5#7 1#4))))).fields =
        [.syncOk, .pid .ping, .plainPacket .ping] ∧
      (UsbPktState.idle.feedPacket (0, 1) (40, 41) (UsbPktState.everySample
          (UsbMessage.bits (.data .data0 [0x55#8])
            (UsbMessage.check (.data .data0 [0x55#8]))))).fields =
        [.syncOk, .pid .data0, .data 0x55, .crc16Err 0x8080, .dataPacket .data0 [0x55]] ∧
      ¬(UsbMessage.token .in 5#7 1#4).JudgedRightly (UsbMessage.check (.token .in 5#7 1#4))
        UsbPktState.idle (UsbPktState.idle.feedPacket (0, 1) (32, 33) (UsbPktState.everySample
          (UsbMessage.bits (.token .in 5#7 1#4)
            (UsbMessage.check (.token .in 5#7 1#4))))) := by
  have token : (idle.feedPacket (0, 1) (32, 33) (UsbPktState.everySample
      (UsbMessage.bits (.token .in 5#7 1#4) (check (.token .in 5#7 1#4))))).fields =
        [.syncOk, .pid .in, .invalid .plain] := by
    decide +kernel
  refine ⟨token, by decide +kernel, by decide +kernel, ?_⟩
  rintro ⟨fields, same, accepted, -⟩
  rw [token] at same
  have shown : [.syncOk, .pid .in, .invalid .plain] = fields := same
  have reported : UsbPktField.addr 5 ∈ fields := (accepted rfl).subset (by decide)
  rw [← shown] at reported
  revert reported
  decide

end SigrokDecode
