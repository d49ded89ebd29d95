import SigrokDecode.Decoders.Udp
import SigrokDecode.Foundation.Crc

/-!
# Frames of Ethernet

The check of a frame is the register that its bytes leave behind, the check itself included.  A
field of the header goes into `frame` when it is complete.
-/

namespace SigrokDecode

open Foundation List BitVec

theorem ethernetPoly_reverse : ethernetPoly.reverse = 0xEDB88320#32 := by decide +kernel

theorem crc32Table_eq (index : BitVec 32) : crc32Table index =
      (fun shifted => crcStepLsb ethernetPoly.reverse shifted false)^[8] index := by
  have step : (fun shifted => crcStepLsb ethernetPoly.reverse shifted false) =
      fun crc : BitVec 32 =>
        (crc >>> 1) ^^^ (if crc.getLsbD 0 then 0xEDB88320#32 else 0#32) := by
    funext crc
    rw [crcStepLsb, Bool.xor_false, ethernetPoly_reverse]
    split
    · rfl
    · exact xor_zero.symm
  rw [step]
  rfl

/-- One turn of the loop of `crc32_calc`: the table has what the byte does to the register. -/
theorem crc32Table_step (crc : BitVec 32) (byte : UInt8) :
    (crc >>> 8) ^^^ crc32Table ((crc ^^^ BitVec.ofNat 32 byte.toNat) &&& 0xFF#32) =
      (lsbBits 8 byte.toBitVec.toNat).foldl (crcStepLsb ethernetPoly.reverse) crc := by
  generalize value_eq : BitVec.ofNat 32 byte.toNat = value
  have small : value.toNat = byte.toBitVec.toNat := by
    rw [← value_eq, toNat_ofNat]
    exact Nat.mod_eq_of_lt (Nat.lt_trans byte.toNat_lt (by decide))
  have gone : ∀ low : BitVec 32, low.toNat < 256 → low >>> 8 = 0#32 := by
    intro low below
    apply eq_of_toNat_eq
    rw [toNat_ushiftRight, Nat.shiftRight_eq_div_pow]
    exact Nat.div_eq_of_lt below
  have low_toNat : ((crc ^^^ value) &&& 0xFF#32).toNat = (crc ^^^ value).toNat % 2 ^ 8 := by
    rw [toNat_and]
    exact Nat.and_two_pow_sub_one_eq_mod _ 8
  have low_gone := gone _ (low_toNat ▸ Nat.mod_lt _ (by decide))
  have value_gone := gone value (small ▸ byte.toNat_lt)
  have whole := foldl_lsbBits ethernetPoly.reverse 0 (crc ^^^ value) 8
  have low := foldl_lsbBits ethernetPoly.reverse 0 ((crc ^^^ value) &&& 0xFF#32) 8
  have fed := foldl_lsbBits ethernetPoly.reverse crc value 8
  rw [low_toNat, lsbBits_mod, low_gone, xor_zero] at low
  rw [value_gone, xor_zero, small] at fed
  rw [low, ushiftRight_xor_distrib, value_gone, xor_zero] at whole
  have zero : ∀ register : BitVec 32, 0 ^^^ register = register := fun _ => BitVec.zero_xor
  rw [zero, zero] at whole
  rw [fed, ← whole, crc32Table_eq, BitVec.xor_comm]

theorem crc32Calc_eq (bytes : List UInt8) : crc32Calc bytes =
      (byteBits (bytes.map (·.toBitVec))).foldl (crcStepLsb ethernetPoly.reverse)
        (allOnes 32) ^^^ allOnes 32 := by
  rw [crc32Calc]
  congr 1
  change _ = List.foldl _ 0xFFFFFFFF#32 _
  generalize 0xFFFFFFFF#32 = crc
  induction bytes generalizing crc with
  | nil => rfl
  | cons byte bytes ih =>
      rw [foldl_cons, map_cons, byteBits_cons, foldl_append, ← crc32Table_step]
      exact ih _

/-- The number that bytes make, the least significant one first. -/
def littleEndian : List UInt8 → Nat
  | [] => 0
  | byte :: bytes => byte.toNat + 256 * littleEndian bytes

theorem packLsb_byteBits (bytes : List UInt8) :
    packLsb (byteBits (bytes.map (·.toBitVec))) = littleEndian bytes := by
  induction bytes with
  | nil => rfl
  | cons byte bytes ih =>
      rw [map_cons, byteBits_cons, packLsb_append, packLsb_lsbBits byte.toBitVec.isLt, ih,
        length_lsbBits]
      rfl

/-- The last four bytes are the check of the bytes before, the least significant one first. -/
def FcsRight (bytes : List UInt8) : Prop :=
  littleEndian (bytes.drop (bytes.length - 4)) =
    (ethernetCrc ((bytes.take (bytes.length - 4)).map (·.toBitVec))).toNat

instance (bytes : List UInt8) : Decidable (FcsRight bytes) :=
  inferInstanceAs (Decidable (_ = _))

theorem crc32Calc_residue {bytes : List UInt8} (enough : 4 ≤ bytes.length) :
    crc32Calc bytes = 0x2144DF1C#32 ↔ FcsRight bytes := by
  rw [FcsRight]
  generalize front_eq : bytes.take (bytes.length - 4) = front
  generalize check_eq : bytes.drop (bytes.length - 4) = check
  have split : bytes = front ++ check := by rw [← front_eq, ← check_eq, take_append_drop]
  have four : (byteBits (check.map (·.toBitVec))).length = 32 := by
    rw [length_byteBits, length_map, ← check_eq, length_drop]
    omega
  generalize number_eq : BitVec.ofNat 32 (littleEndian check) = number
  have value : number.toNat = littleEndian check := by
    rw [← number_eq, toNat_ofNat, Nat.mod_eq_of_lt]
    rw [← packLsb_byteBits, ← four]
    exact packLsb_lt _
  have bits : byteBits (check.map (·.toBitVec)) = lsbBits 32 number.toNat := by
    rw [value, ← packLsb_byteBits, ← four, lsbBits_packLsb]
  have residue : 0x2144DF1C#32 ^^^ allOnes 32 =
      (fun shifted => crcStepLsb ethernetPoly.reverse shifted false)^[32] (allOnes 32) := by
    decide +kernel
  have poly : ethernetPoly.getLsbD 0 = true := by decide
  have ones := foldl_crcStepLsb ethernetPoly (allOnes 32) (byteBits (front.map (·.toBitVec)))
  rw [reverse_allOnes] at ones
  rw [split, crc32Calc_eq, map_append, byteBits_append, foldl_append, bits, ones,
    ← xor_left_inj (allOnes 32), xor_assoc, BitVec.xor_self, xor_zero,
    residue, foldl_check_eq_iff poly, ← value, ethernetCrc, crcCheck, toNat_inj]
  generalize (crcRegister ethernetPoly (allOnes 32)
    (byteBits (front.map (·.toBitVec)))).reverse = register
  rw [← xor_right_inj register (x := number), ← xor_allOnes, ← xor_assoc,
    BitVec.xor_self, BitVec.zero_xor]

/-- The verdict on a frame, or the message to the decoders above. -/
def EthernetOut.reported : EthernetOut → Bool
  | .frameCheckSequence _ => true
  | .payload _ => true
  | _ => false

namespace Ethernet

def symbol (byte : EthernetByte) : EthernetSymbol :=
  .data byte.val byte.ss byte.es

/-- Nothing of the payload has come yet, and nothing has been reported. -/
structure Ahead (base : Ethernet) (state : EthernetState) (frame : List UInt8) (s : Ethernet) :
    Prop where
  state : s.state = state
  buffer : s.buffer = []
  frame : s.frame = frame
  payload : s.payload = []
  blocks : s.blocks = []
  payloadAddress : s.payloadAddress = base.payloadAddress
  blocksAddress : s.blocksAddress = base.blocksAddress
  reports : s.outs.filter EthernetOut.reported = base.outs.filter EthernetOut.reported

/-- The bytes behind the delimiter have come, and nothing has been reported. -/
structure Received (base : Ethernet) (bytes : List EthernetByte) (s : Ethernet) : Prop where
  frame : s.frame ++ s.payload = bytes.map (·.val)
  payload : s.payload = (bytes.drop 14).map (·.val)
  blocks : s.blocks = (bytes.drop 14).map fun byte => (byte.ss, byte.es)
  payloadAddress : s.payloadAddress = base.payloadAddress
  blocksAddress : s.blocksAddress = base.blocksAddress
  reports : s.outs.filter EthernetOut.reported = base.outs.filter EthernetOut.reported

/-- The message about a frame. -/
def forwarded (base : Ethernet) (bytes : List EthernetByte) : List EthernetOut :=
  if 18 ≤ bytes.length then
    [.payload [.bytes base.payloadAddress (((bytes.drop 14).take (bytes.length - 18)).map (·.val)),
        .bytes base.blocksAddress
          (blocksData ((bytes.drop 14).map fun byte => (byte.ss, byte.es)))]]
  else []

section Frame

variable {base s : Ethernet} {frame : List UInt8}

theorem filter_reported_append (outs : List EthernetOut) {out : EthernetOut}
    (quiet : out.reported = false) :
    (outs ++ [out]).filter EthernetOut.reported = outs.filter EthernetOut.reported := by
  rw [filter_append, filter_cons_of_neg (by rw [quiet]; exact Bool.false_ne_true)]
  exact List.append_nil _

theorem foldl_preamble (state : s.state = .waitSfd) (bytes : List EthernetByte)
    (plain : ∀ byte ∈ bytes, byte.val ≠ 0xD5) :
    ∃ buffer, (bytes.map symbol).foldl decodeUpper s = { s with buffer } := by
  induction bytes generalizing s with
  | nil => exact ⟨s.buffer, rfl⟩
  | cons byte bytes ih =>
      have step : s.decodeUpper (symbol byte) = { s with buffer := s.buffer ++ [byte.val] } := by
        rw [symbol, decodeUpper, handleDataByte, state]
        exact if_neg (plain byte (mem_cons_self ..))
      obtain ⟨buffer, rest⟩ := ih (s := { s with buffer := s.buffer ++ [byte.val] }) state
        fun byte member => plain byte (mem_cons_of_mem _ member)
      refine ⟨buffer, ?_⟩
      rw [map_cons, foldl_cons, step, rest]

theorem delimiter (buffer : List UInt8) (ahead : Ahead base .waitSfd frame s)
    {byte : EthernetByte} (sfd : byte.val = 0xD5) :
    Ahead base .dstMac frame (({ s with buffer } : Ethernet).decodeUpper (symbol byte)) := by
  rw [symbol, decodeUpper, handleDataByte, ahead.state]
  dsimp only
  rw [if_pos sfd]
  refine { ahead with state := rfl, buffer := rfl, reports := ?_ }
  rw [← ahead.reports]
  show (s.outs ++ ([_] ++ [_])).filter _ = _
  rw [← List.append_assoc, filter_reported_append _ rfl, filter_reported_append _ rfl]

variable {bytes : List EthernetByte}

theorem foldl_header {state : EthernetState} (next : EthernetState) {length : Nat}
    (out : List UInt8 → EthernetOut)
    (handles : ∀ (s : Ethernet) (byte : UInt8) (ss es : Nat), s.state = state →
      s.handleDataByte byte ss es = s.headerByte byte length out next)
    (quiet : ∀ bytes, (out bytes).reported = false) (ahead : Ahead base state frame s) (whole : bytes.length = length) (positive : 0 < length) :
    Ahead base next (frame ++ bytes.map (·.val)) ((bytes.map symbol).foldl decodeUpper s) := by
  have go : ∀ (bytes : List EthernetByte) (got : List UInt8), bytes ≠ [] →
      got.length + bytes.length = length →
      Ahead base next (frame ++ (got ++ bytes.map (·.val)))
        ((bytes.map symbol).foldl decodeUpper { s with buffer := got }) := by
    intro bytes
    induction bytes with
    | nil => exact fun _ none => absurd rfl none
    | cons byte bytes ih =>
        intro got _ count
        rw [length_cons] at count
        have step := handles { s with buffer := got } byte.val byte.ss byte.es ahead.state
        rw [map_cons, map_cons, foldl_cons, symbol, decodeUpper, step, headerByte]
        dsimp only
        cases bytes with
        | nil =>
            rw [if_pos (by rw [length_append, length_singleton]; exact count)]
            refine ⟨rfl, rfl, ?_, ahead.payload, ahead.blocks, ahead.payloadAddress,
              ahead.blocksAddress, ?_⟩
            · rw [← ahead.frame]
              rfl
            · rw [← ahead.reports]
              exact filter_reported_append _ (quiet _)
        | cons other rest =>
            rw [length_cons] at count
            rw [if_neg (by rw [length_append, length_singleton]; omega)]
            have later := ih (got ++ [byte.val]) (cons_ne_nil _ _)
              (by rw [length_append, length_singleton, length_cons]; omega)
            rw [List.append_assoc] at later
            exact later
  have start : ({ s with buffer := [] } : Ethernet) = s := by rw [← ahead.buffer]
  have done := go bytes [] (ne_nil_of_length_pos (by rw [whole]; exact positive))
    (by rw [length_nil, Nat.zero_add]; exact whole)
  rwa [start] at done

theorem foldl_payload (received : Received base bytes s)
    (state : s.state = .payload) (header : 14 ≤ bytes.length) (rest : List EthernetByte)
    (room : bytes.length + rest.length ≤ 2048) :
    Received base (bytes ++ rest) ((rest.map symbol).foldl decodeUpper s) := by
  induction rest generalizing bytes s with
  | nil => rwa [List.append_nil]
  | cons byte rest ih =>
      rw [length_cons] at room
      have few : s.blocks.length < 2048 := by
        rw [received.blocks, length_map, length_drop]
        omega
      have step : s.decodeUpper (symbol byte) = ({ s with
          payload := s.payload ++ [byte.val], blocks := s.blocks ++ [(byte.ss, byte.es)] } :
          Ethernet).put [.data byte.val] := by
        rw [symbol, decodeUpper, handleDataByte, state]
        dsimp only
        rw [if_pos few]
      rw [append_cons, map_cons, foldl_cons, step]
      refine ih ⟨?_, ?_, ?_, received.payloadAddress, received.blocksAddress, ?_⟩ state
        (by rw [length_append]; omega)
        (by rw [length_append, length_singleton]; omega)
      · show s.frame ++ (s.payload ++ [byte.val]) = _
        rw [← List.append_assoc, received.frame, map_append]
        rfl
      · rw [drop_append_of_le_length header, map_append, ← received.payload]
        rfl
      · rw [drop_append_of_le_length header, map_append, ← received.blocks]
        rfl
      · rw [← received.reports]
        exact filter_reported_append _ rfl

theorem Ahead.received {state : EthernetState}
    (ahead : Ahead base state (bytes.map (·.val)) s) (short : bytes.length ≤ 14) :
    Received base bytes s := by
  have none : bytes.drop 14 = [] := drop_eq_nil_of_le short
  refine ⟨?_, ?_, ?_, ahead.payloadAddress, ahead.blocksAddress, ahead.reports⟩
  · rw [ahead.payload, ahead.frame, List.append_nil]
  · rw [ahead.payload, none]
    rfl
  · rw [ahead.blocks, none]
    rfl

theorem foldl_frame (ahead : Ahead base .dstMac [] s) (fits : bytes.length ≤ 2048)
    (whole : bytes.length = 6 ∨ bytes.length = 12 ∨ 14 ≤ bytes.length) :
    Received base bytes ((bytes.map symbol).foldl decodeUpper s) := by
  have split : ∀ (bytes : List EthernetByte) {count : Nat}, count ≤ bytes.length →
      ∃ front back, bytes = front ++ back ∧ front.length = count := by
    intro bytes count enough
    exact ⟨bytes.take count, bytes.drop count, (take_append_drop ..).symm, length_take_of_le enough⟩
  obtain ⟨dst, rest, rfl, dst_length⟩ := split bytes (show 6 ≤ bytes.length by omega)
  have at_src := foldl_header .srcMac .destinationMac
    (fun s byte ss es state => by rw [handleDataByte, state]) (fun _ => rfl) ahead dst_length
    (by decide)
  rw [nil_append] at at_src
  rw [length_append, dst_length] at fits whole
  rw [map_append, foldl_append]
  by_cases six : rest = []
  · rw [six, List.append_nil]
    exact at_src.received (by omega)
  have some := length_pos_iff.mpr six
  obtain ⟨src, rest, rfl, src_length⟩ := split rest (show 6 ≤ rest.length by omega)
  have at_type := foldl_header .ethType .sourceMac
    (fun s byte ss es state => by rw [handleDataByte, state]) (fun _ => rfl) at_src src_length
    (by decide)
  rw [← map_append] at at_type
  rw [length_append, src_length] at fits whole
  rw [map_append, foldl_append, ← List.append_assoc]
  by_cases twelve : rest = []
  · rw [twelve, List.append_nil]
    exact at_type.received (by rw [length_append]; omega)
  have more := length_pos_iff.mpr twelve
  obtain ⟨type, body, rfl, type_length⟩ := split rest (show 2 ≤ rest.length by omega)
  have at_payload := foldl_header .payload _
    (fun s byte ss es state => by rw [handleDataByte, state]) (fun _ => rfl) at_type type_length
    (by decide)
  rw [← map_append] at at_payload
  rw [length_append, type_length] at fits
  rw [map_append, foldl_append, ← List.append_assoc]
  have header : (dst ++ src ++ type).length = 14 := by
    rw [length_append, length_append, dst_length, src_length, type_length]
  exact foldl_payload (at_payload.received (by omega)) at_payload.state (by omega) body (by omega)

theorem endFrame_reports (received : Received base bytes s) :
    s.endFrame.outs.filter EthernetOut.reported = base.outs.filter EthernetOut.reported ++
        .frameCheckSequence (crc32Calc (bytes.map (·.val)) == 0x2144DF1C#32) ::
          forwarded base bytes := by
  have length : s.payload.length = bytes.length - 14 := by
    rw [received.payload, length_map, length_drop]
  have fields (verdict : EthernetOut) :
      ((s.put [verdict, .packet (bytes.map (·.val))]).payload = s.payload) := rfl
  rw [endFrame, received.frame, fields, forwarded]
  by_cases enough : 18 ≤ bytes.length
  · rw [if_pos enough, if_pos (by omega)]
    show ((s.outs ++ [_, _]) ++ [EthernetOut.payload [.bytes s.payloadAddress (s.payload.take _),
      .bytes s.blocksAddress (blocksData s.blocks)]]).filter _ = _
    rw [filter_append, filter_append, received.reports, received.payloadAddress,
      received.blocksAddress, received.blocks, length, received.payload, ← map_take,
      Nat.sub_sub, List.append_assoc]
    rfl
  · rw [if_neg enough, if_neg (by omega)]
    show (s.outs ++ [_, _]).filter _ = _
    rw [filter_append, received.reports]
    rfl

theorem frame_reports (base : Ethernet) {preamble : List EthernetByte} {sfd : EthernetByte}
    (plain : ∀ byte ∈ preamble, byte.val ≠ 0xD5) (delimit : sfd.val = 0xD5)
    (fits : bytes.length ≤ 2048)
    (whole : bytes.length = 6 ∨ bytes.length = 12 ∨ 14 ≤ bytes.length) :
    ((ethernetSymbols (preamble ++ sfd :: bytes)).foldl decodeUpper
        base.resetVars).outs.filter EthernetOut.reported =
      base.outs.filter EthernetOut.reported ++
        .frameCheckSequence (crc32Calc (bytes.map (·.val)) == 0x2144DF1C#32) ::
          forwarded base bytes := by
  have ahead : Ahead base .waitSfd [] { base.resetVars with jkSeenJ := true, state := .waitSfd } :=
    ⟨rfl, rfl, rfl, rfl, rfl, rfl, rfl, rfl⟩
  obtain ⟨buffer, run⟩ := foldl_preamble ahead.state preamble plain
  have received := foldl_frame (delimiter buffer ahead delimit) fits whole
  rw [← endFrame_reports received, ← run]
  have mapped : ethernetSymbols (preamble ++ sfd :: bytes) =
      [EthernetSymbol.j, .k] ++ (preamble.map symbol ++ symbol sfd :: bytes.map symbol) ++
        [EthernetSymbol.t, .r] := by
    rw [ethernetSymbols, map_append, map_cons]
    rfl
  rw [mapped, foldl_append, foldl_append, foldl_append]
  rfl

/-- A frame that does not end inside a field of its header is judged by its last four bytes, and
its payload goes up without them. -/
theorem fcsVerdict (base : Ethernet) {preamble bytes : List EthernetByte} {sfd : EthernetByte}
    (plain : ∀ byte ∈ preamble, byte.val ≠ 0xD5) (delimit : sfd.val = 0xD5)
    (enough : 4 ≤ bytes.length) (fits : bytes.length ≤ 2048)
    (whole : bytes.length = 6 ∨ bytes.length = 12 ∨ 14 ≤ bytes.length) :
    ((ethernetSymbols (preamble ++ sfd :: bytes)).foldl decodeUpper
        base.resetVars).outs.filter EthernetOut.reported =
      base.outs.filter EthernetOut.reported ++
        .frameCheckSequence (FcsRight (bytes.map (·.val))) :: forwarded base bytes := by
  rw [frame_reports base plain delimit fits whole]
  congr 3
  rw [Bool.eq_iff_iff, beq_iff_eq, decide_eq_true_eq]
  exact crc32Calc_residue (by rw [length_map]; exact enough)

end Frame

theorem fcsVerdict_eighteen :
    ((ethernetSymbols ([⟨0x55, 0, 1⟩] ++ ⟨0xD5, 1, 2⟩ :: List.replicate 18 ⟨0, 2, 3⟩)).foldl
        decodeUpper (start 0 4096).resetVars).outs.filter EthernetOut.reported =
      (start 0 4096).outs.filter EthernetOut.reported ++
        .frameCheckSequence (FcsRight ((List.replicate 18 (⟨0, 2, 3⟩ : EthernetByte)).map (·.val))) ::
          forwarded (start 0 4096) (List.replicate 18 ⟨0, 2, 3⟩) :=
  fcsVerdict (start 0 4096) (by decide) rfl (by decide) (by decide) (by decide)

/-- The check of no bytes is 0, but the bytes of a destination address that is not complete are
not in the frame. -/
theorem fcsVerdict_fourBytes : FcsRight [0, 0, 0, 0] ∧
      ((ethernetSymbols (⟨0xD5, 0, 1⟩ :: List.replicate 4 ⟨0, 1, 2⟩)).foldl decodeUpper
        (start 0 4096)).outs.filter EthernetOut.reported = [.frameCheckSequence false] := by
  constructor
  · decide +kernel
  · decide +kernel

end Ethernet

end SigrokDecode
