import SigrokDecode.Decoders.EthernetFrames

/-!
# What reaches `udp_c`

A frame goes up as its payload and the sample numbers of its bytes, and the packet as four fields,
of which `udp_c` takes the second one for the datagram.
-/

namespace SigrokDecode

open Foundation List

namespace Ethernet

theorem flatMap_ipv4_filter (outs : List EthernetOut) :
    (outs.filter EthernetOut.reported).flatMap EthernetOut.ipv4 = outs.flatMap EthernetOut.ipv4 := by
  induction outs with
  | nil => rfl
  | cons out outs ih =>
      rw [filter_cons, flatMap_cons, ← ih]
      cases out <;> rfl

theorem length_packet (frame : UdpFrame) : frame.packet.length = 28 + frame.payload.length := by
  rw [UdpFrame.packet, UdpFrame.datagram]
  simp only [be16, length_append, length_cons, length_nil,
    frame.length_identAndFlags, frame.length_headerChecksum, frame.length_source,
    frame.length_destination]
  omega

theorem length_padded (frame : UdpFrame) :
    frame.packet.length ≤ frame.padded.length ∧ frame.padded.length ≤ 1500 := by
  have fits := frame.fits
  rw [UdpFrame.padded, length_append, length_replicate, length_packet]
  omega

theorem frame_message (frame : UdpFrame) {bytes : List EthernetByte}
    (vals : bytes.map (·.val) = frame.bytes) (payloadAddress blocksAddress : Nat) :
    ∃ body : List EthernetByte, body = bytes.drop (frame.preamble + 15) ∧
      body.map (·.val) = frame.padded ++ frame.frameCheckSequence ∧
      ((ethernetSymbols bytes).foldl decodeUpper
          (start payloadAddress blocksAddress)).outs.flatMap EthernetOut.ipv4 =
        ipv4DecodeUpper [.bytes payloadAddress frame.padded,
          .bytes blocksAddress (blocksData (body.map fun byte => (byte.ss, byte.es)))] := by
  have sent : frame.bytes = replicate frame.preamble 0x55 ++ (0xD5 ::
      (frame.macs ++ [8, 0] ++ (frame.padded ++ frame.frameCheckSequence))) := by
    simp only [UdpFrame.bytes, List.append_assoc, cons_append, nil_append]
  rw [sent] at vals
  obtain ⟨preamble, rest, rfl, preamble_vals, vals⟩ := map_eq_append_iff.mp vals
  obtain ⟨sfd, rest, rfl, sfd_val, vals⟩ := map_eq_cons_iff.mp vals
  obtain ⟨header, body, rfl, header_vals, body_vals⟩ := map_eq_append_iff.mp vals
  have preamble_length : preamble.length = frame.preamble := by
    rw [← length_map (·.val), preamble_vals, length_replicate]
  have header_length : header.length = 14 := by
    rw [← length_map (·.val), header_vals, length_append, frame.length_macs]
    rfl
  have body_length : body.length = frame.padded.length + 4 := by
    rw [← length_map (·.val), body_vals, length_append, frame.length_frameCheckSequence]
  have length : (header ++ body).length = 14 + body.length := by rw [length_append, header_length]
  have most := (length_padded frame).2
  have plain : ∀ byte ∈ preamble, byte.val ≠ 0xD5 := by
    intro byte member
    have same := mem_map_of_mem (f := (·.val)) member
    rw [preamble_vals] at same
    rw [eq_of_mem_replicate same]
    decide
  have behind : body = (preamble ++ sfd :: (header ++ body)).drop (frame.preamble + 15) := by
    rw [append_cons, ← List.append_assoc, drop_left']
    rw [length_append, length_append, length_singleton, preamble_length, header_length]
  have padded : (body.take ((header ++ body).length - 18)).map (·.val) = frame.padded := by
    rw [length, body_length, map_take, body_vals]
    exact take_left' (by omega)
  have reports := frame_reports (start payloadAddress blocksAddress) plain sfd_val
    (by rw [length]; omega) (.inr (.inr (by rw [length]; omega)))
  refine ⟨body, behind, body_vals, ?_⟩
  rw [forwarded, if_pos (by rw [length]; omega), drop_left' header_length, padded] at reports
  have message := congrArg (·.flatMap EthernetOut.ipv4) reports
  rw [flatMap_ipv4_filter] at message
  exact message.trans (List.append_nil _)

end Ethernet

theorem length_le64 (value : Nat) : (le64 value).length = 8 := by
  rw [le64, length_map, length_range]

theorem length_blocksData (blocks : List (Nat × Nat)) :
    (Ethernet.blocksData blocks).length = 16 * blocks.length := by
  induction blocks with
  | nil => rfl
  | cons block blocks ih =>
      have parts : Ethernet.blocksData (block :: blocks) =
          le64 block.1 ++ le64 block.2 ++ Ethernet.blocksData blocks := flatMap_cons
      rw [parts, length_append, length_append, length_le64, length_le64, ih, length_cons]
      omega

/-- What the sample numbers behind the header of a packet are in memory. -/
def recordsBehind (blocks : List (Nat × Nat)) : List UInt8 :=
  (Ethernet.blocksData blocks).drop 320

theorem packet_message (frame : UdpFrame) {blocks : List (Nat × Nat)}
    (all : blocks.length = frame.padded.length + 4) (payloadAddress blocksAddress : Nat) :
    (ipv4DecodeUpper [.bytes payloadAddress frame.padded,
        .bytes blocksAddress (Ethernet.blocksData blocks)]).flatMap Ipv4Out.udp =
      udpRecvProto [.bytes (payloadAddress + 20) (frame.padded.drop 20),
          .bytes (blocksAddress + 320) (recordsBehind blocks),
          .bytes (payloadAddress + 12) ((frame.padded.drop 12).take 4),
          .bytes (payloadAddress + 16) ((frame.padded.drop 16).take 4)] := by
  have long := (Ethernet.length_padded frame).1
  rw [Ethernet.length_packet] at long
  have count : (Ethernet.blocksData blocks).length / 16 = frame.padded.length + 4 := by
    rw [length_blocksData, all, Nat.mul_div_cancel_left _ (by decide)]
  have ihl : (frame.padded.getD 0 0).toNat % 16 * 4 = 20 := by
    obtain ⟨rest, head⟩ : ∃ rest, frame.padded = 0x45 :: rest := ⟨_, rfl⟩
    rw [head, getD_cons_zero]
    rfl
  rw [ipv4DecodeUpper]
  dsimp only
  rw [count, ihl, if_neg (by omega), if_pos (by omega)]
  have quiet : ∀ bytes : List UInt8, (bytes.map Ipv4Out.data).flatMap Ipv4Out.udp = [] := by
    intro bytes
    induction bytes with
    | nil => rfl
    | cons byte bytes ih => exact ih
  rw [flatMap_append, flatMap_append, quiet]
  exact List.append_nil _

/-- What `udp_c` reads of the four fields: the low halves of two pointers for the lengths, the sample
numbers for the datagram, and no addresses. -/
theorem udpRecvProto_four (address blocksAddress source destination : Nat)
    (payload records sourceIp destinationIp : List UInt8) :
    udpRecvProto [.bytes address payload, .bytes blocksAddress records, .bytes source sourceIp,
          .bytes destination destinationIp] =
      udpDatagram records (min (address % 65536) records.length) (source % 65536)
        (replicate 8 0) := rfl

theorem udpPayload_inj {bytes other : List UInt8} :
    udpPayload bytes = udpPayload other ↔ bytes = other := by
  refine ⟨fun same => ?_, congrArg udpPayload⟩
  have read : ∀ bytes : List UInt8, (udpPayload bytes).filterMap
      (fun out => match out with | .data byte => some byte | _ => none) = bytes := by
    intro bytes
    rw [udpPayload, filterMap_append, filterMap_map]
    have tail : ∀ rest : List UInt8, (if rest.isEmpty then [] else
        [UdpOut.payload rest, .binary rest]).filterMap
          (fun out => match out with | .data byte => some byte | _ => none) = [] := by
      intro rest
      cases rest <;> rfl
    rw [tail, List.append_nil]
    exact filterMap_some
  rw [← read bytes, same, read]

/-- The sample numbers are what the datagram should be: they spell its ports, its length and its
payload, the two pointers leave room for it, and its checksum is right with them and without the
addresses if it is right at all. -/
structure UdpFrame.Spelled (frame : UdpFrame) (payloadAddress : Nat) (records : List UInt8) :
    Prop where
  payloadLen : frame.udpLength ≤ (payloadAddress + 20) % 65536
  blockCount : frame.udpLength ≤ (payloadAddress + 12) % 65536
  sourcePort : word16 records 0 = frame.sourcePort
  destinationPort : word16 records 2 = frame.destinationPort
  length : word16 records 4 = frame.udpLength
  payload : (records.take frame.udpLength).drop 8 = frame.payload
  checksum : checksumOk (17 + frame.udpLength + wordSum (records.take frame.udpLength)) =
    frame.checksumRight

theorem udpDatagram_expected (frame : UdpFrame) {payloadAddress : Nat} {records : List UInt8}
    (long : frame.udpLength ≤ records.length) :
    udpDatagram records (min ((payloadAddress + 20) % 65536) records.length)
        ((payloadAddress + 12) % 65536) (replicate 8 0) = frame.expected ↔
      frame.Spelled payloadAddress records := by
  have eight : 8 ≤ frame.udpLength := Nat.le_add_right 8 _
  have zeros : wordSum (replicate 8 0) + 17 = 17 := rfl
  rw [udpDatagram]
  split
  next short =>
    refine iff_of_false (cons_ne_nil _ _).symm fun spelled => ?_
    have payloadLen := spelled.payloadLen
    have blockCount := spelled.blockCount
    omega
  next enough =>
    rw [zeros, UdpFrame.expected]
    simp only [cons_append, nil_append, List.cons.injEq, UdpOut.sourcePort.injEq,
      UdpOut.destinationPort.injEq, UdpOut.length.injEq, UdpOut.checksum.injEq, udpPayload_inj]
    constructor
    · rintro ⟨sourcePort, destinationPort, length, checksum, payload⟩
      rw [length] at checksum payload
      have count := congrArg List.length payload
      rw [length_drop, length_take] at count
      have whole : frame.udpLength = 8 + frame.payload.length := rfl
      have payloadLen : frame.udpLength ≤ (payloadAddress + 20) % 65536 := by omega
      have blockCount : frame.udpLength ≤ (payloadAddress + 12) % 65536 := by omega
      rw [Nat.min_eq_left (by omega)] at checksum payload
      exact ⟨payloadLen, blockCount, sourcePort, destinationPort, length, payload, checksum⟩
    · intro spelled
      have payloadLen := spelled.payloadLen
      have blockCount := spelled.blockCount
      rw [spelled.length, Nat.min_eq_left (by omega), Nat.min_eq_left (by omega)]
      exact ⟨spelled.sourcePort, spelled.destinationPort, rfl, spelled.checksum, spelled.payload⟩

def UdpFrame.records (frame : UdpFrame) (bytes : List EthernetByte) : List UInt8 :=
  recordsBehind ((bytes.drop (frame.preamble + 15)).map fun byte => (byte.ss, byte.es))

/-- The datagram is reported only where the sample numbers happen to spell it. -/
theorem udpStack_reports (frame : UdpFrame) (bytes : List EthernetByte)
    (vals : bytes.map (·.val) = frame.bytes) (payloadAddress blocksAddress : Nat) :
    udpStack payloadAddress blocksAddress (ethernetSymbols bytes) = frame.expected ↔
      frame.Spelled payloadAddress (frame.records bytes) := by
  obtain ⟨body, behind, body_vals, message⟩ :=
    Ethernet.frame_message frame vals payloadAddress blocksAddress
  have count : (body.map fun byte => (byte.ss, byte.es)).length = frame.padded.length + 4 := by
    rw [length_map, ← length_map (·.val), body_vals, length_append, frame.length_frameCheckSequence]
  have long : frame.udpLength ≤
      (recordsBehind (body.map fun byte => (byte.ss, byte.es))).length := by
    have padded := (Ethernet.length_padded frame).1
    rw [Ethernet.length_packet] at padded
    rw [recordsBehind, length_drop, length_blocksData, count, UdpFrame.udpLength]
    omega
  rw [udpStack, message, packet_message frame count, udpRecvProto_four, UdpFrame.records, ← behind]
  exact udpDatagram_expected frame long

def twoBytes : UdpFrame :=
  { preamble := 6
    macs := [0x02, 0, 0, 0, 0, 0x01, 0x02, 0, 0, 0, 0, 0x02]
    typeOfService := 0
    identAndFlags := [0, 1, 0, 0]
    timeToLive := 64
    headerChecksum := [0x66, 0xCC]
    source := [10, 0, 0, 1]
    destination := [10, 0, 0, 2]
    sourcePort := 1000
    destinationPort := 2000
    checksum := 0xDF1D
    payload := [0x01, 0x02]
    frameCheckSequence := [0, 0, 0, 0]
    length_macs := rfl
    length_identAndFlags := rfl
    length_headerChecksum := rfl
    length_source := rfl
    length_destination := rfl
    sourcePort_lt := by decide
    destinationPort_lt := by decide
    checksum_lt := by decide
    fits := by decide
    length_frameCheckSequence := rfl }

def twoBytesOnWire : List EthernetByte :=
  twoBytes.bytes.mapIdx fun i byte => ⟨byte, 80 * i, 80 * (i + 1)⟩

theorem udpStack_reports_twoBytes :
    udpStack 0x5000 0x6000 (ethernetSymbols twoBytesOnWire) = twoBytes.expected ↔
      twoBytes.Spelled 0x5000 (twoBytes.records twoBytesOnWire) :=
  udpStack_reports twoBytes twoBytesOnWire (by decide +kernel) 0x5000 0x6000

/-- What is reported is sample numbers. -/
theorem twoBytes_misreported :
    udpStack 0x5000 0x6000 (ethernetSymbols twoBytesOnWire) ≠ twoBytes.expected ∧
      (udpStack 0x5000 0x6000 (ethernetSymbols twoBytesOnWire)).take 3 =
        [.sourcePort 53260, .destinationPort 0, .length 0] := by
  decide +kernel

end SigrokDecode
