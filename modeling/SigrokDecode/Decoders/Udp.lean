import SigrokDecode.Foundation.OnesComplement

/-!
# UDP over IPv4 over Ethernet

`ethernet_c`, `ipv4_c` and `udp_c` hand each other the fields of a message without names.  Where
the annotations stand is left out, but for the sample numbers that go up the stack themselves.
-/

namespace SigrokDecode

open Foundation

/-- `c_field`; what is given as bytes is a pointer and a length. -/
inductive CField
  | u8 (value : UInt8)
  | u16 (value : Nat)
  | bytes (address : Nat) (data : List UInt8)
  deriving DecidableEq

namespace CField

/-- The member `u16` of the union; a pointer has its low half there. -/
def readU16 : CField → Nat
  | u8 value => value.toNat
  | u16 value => value
  | bytes address _ => address % 65536

/-- The member `bytes`, of a field that has it. -/
def readBytes : CField → List UInt8
  | bytes _ data => data
  | _ => []

end CField

/-- The `i`-th field. -/
def field (fields : List CField) (i : Nat) : CField :=
  fields.getD i (.u8 0)

/-- Two bytes of a number, the high one first. -/
def be16 (value : Nat) : List UInt8 :=
  [UInt8.ofNat (value / 256), UInt8.ofNat value]

def word16 (bytes : List UInt8) (i : Nat) : Nat :=
  (bytes.getD i 0).toNat * 256 + (bytes.getD (i + 1) 0).toNat

/-- A `uint64_t` in memory. -/
def le64 (value : Nat) : List UInt8 :=
  (List.range 8).map fun i => UInt8.ofNat (value / 256 ^ i)

def wordSum : List UInt8 → Nat
  | high :: low :: rest => high.toNat * 256 + low.toNat + wordSum rest
  | [high] => high.toNat * 256
  | [] => 0

/-! ## Ethernet -/

/-- A symbol of the 4B5B decoder. -/
inductive EthernetSymbol
  | j
  | k
  | t
  | r
  | data (val : UInt8) (ss es : Nat)
  | other

inductive EthernetState
  | idle
  | waitSfd
  | dstMac
  | srcMac
  | ethType
  | payload
  deriving DecidableEq

inductive EthernetOut
  | preamble
  | startFrameDelimiter
  | destinationMac (mac : List UInt8)
  | sourceMac (mac : List UInt8)
  | etherType (type : Nat)
  | data (byte : UInt8)
  | frameCheckSequence (ok : Bool)
  /-- The frame that goes into the capture file. -/
  | packet (frame : List UInt8)
  /-- The message `PAYLOAD` to the decoders above. -/
  | payload (fields : List CField)
  deriving DecidableEq

/-- `ethernet_s`, and where its `payload` and its `blocks` stand in memory. -/
structure Ethernet where
  state : EthernetState
  jkSeenJ : Bool
  buffer : List UInt8
  frame : List UInt8
  payload : List UInt8
  blocks : List (Nat × Nat)
  payloadAddress : Nat
  blocksAddress : Nat
  outs : List EthernetOut

def crc32Table (i : BitVec 32) : BitVec 32 :=
  (List.range 8).foldl
    (fun (crc : BitVec 32) _ => (crc >>> 1) ^^^ (if crc.getLsbD 0 then 0xEDB88320#32 else 0#32)) i

def crc32Calc (bytes : List UInt8) : BitVec 32 :=
  let crc := bytes.foldl
    (fun (crc : BitVec 32) byte =>
      (crc >>> 8) ^^^ crc32Table ((crc ^^^ BitVec.ofNat 32 byte.toNat) &&& 0xFF#32))
    0xFFFFFFFF#32
  crc ^^^ 0xFFFFFFFF#32

namespace Ethernet

def start (payloadAddress blocksAddress : Nat) : Ethernet :=
  { state := .idle
    jkSeenJ := false
    buffer := []
    frame := []
    payload := []
    blocks := []
    payloadAddress
    blocksAddress
    outs := [] }

def put (s : Ethernet) (outs : List EthernetOut) : Ethernet :=
  { s with outs := s.outs ++ outs }

def resetVars (s : Ethernet) : Ethernet :=
  { s with
    state := .idle, jkSeenJ := false, buffer := [], frame := [], payload := [], blocks := [] }

def headerByte (s : Ethernet) (byte : UInt8) (length : Nat) (out : List UInt8 → EthernetOut)
    (next : EthernetState) : Ethernet :=
  let buffer := s.buffer ++ [byte]
  if buffer.length = length then
    { s with frame := s.frame ++ buffer, buffer := [], state := next }.put [out buffer]
  else { s with buffer }

def handleDataByte (s : Ethernet) (byte : UInt8) (ss es : Nat) : Ethernet :=
  match s.state with
  | .idle => s
  | .waitSfd =>
      if byte = 0xD5 then
        { s with buffer := [], state := .dstMac }.put [.preamble, .startFrameDelimiter]
      else { s with buffer := s.buffer ++ [byte] }
  | .dstMac => s.headerByte byte 6 .destinationMac .srcMac
  | .srcMac => s.headerByte byte 6 .sourceMac .ethType
  | .ethType => s.headerByte byte 2 (fun bytes => .etherType (word16 bytes 0)) .payload
  | .payload =>
      { s with
        payload := s.payload ++ [byte]
        blocks := if s.blocks.length < 2048 then s.blocks ++ [(ss, es)] else s.blocks }.put
        [.data byte]

/-- `blocks` in memory. -/
def blocksData (blocks : List (Nat × Nat)) : List UInt8 :=
  blocks.flatMap fun block => le64 block.1 ++ le64 block.2

/-- The end of a frame: its check, and the message to the decoders above. -/
def endFrame (s : Ethernet) : Ethernet :=
  let frame := s.frame ++ s.payload
  let s := s.put [.frameCheckSequence (crc32Calc frame == 0x2144DF1C#32), .packet frame]
  (if 4 ≤ s.payload.length then
    s.put [.payload [.bytes s.payloadAddress (s.payload.take (s.payload.length - 4)),
        .bytes s.blocksAddress (blocksData s.blocks)]]
  else s).resetVars

def decodeUpper (s : Ethernet) : EthernetSymbol → Ethernet
  | .j => { s with jkSeenJ := true }
  | .k => if s.jkSeenJ then { s with state := .waitSfd } else s.resetVars
  | .t => s.endFrame
  | .r => s.resetVars
  | .data byte ss es => s.handleDataByte byte ss es
  | .other => s

end Ethernet

inductive Ipv4Out
  | versionAndHeaderLength (bytes : Nat)
  | dscpAndEcn
  | packetLength (bytes : Nat)
  | identification (ident : Nat)
  | flags (df mf : Bool)
  | fragmentOffset (bytes : Nat)
  | timeToLive (ttl : UInt8)
  | protocol (protocol : UInt8)
  | headerChecksum (ok : Bool)
  | sourceIp (address : List UInt8)
  | destinationIp (address : List UInt8)
  | data (byte : UInt8)
  /-- The message `IP_PAYLOAD` to the decoders above. -/
  | payload (fields : List CField)

/-- What `(sum + (sum >> 16)) & 0xFFFF` is compared with. -/
def checksumOk (sum : Nat) : Bool :=
  (sum + sum / 65536) % 65536 == 65535

/-- `ipv4_decode_upper`, of the fields of the message `PAYLOAD`. -/
def ipv4DecodeUpper (fields : List CField) : List Ipv4Out :=
  match fields with
  | .bytes address payload :: .bytes blocksAddress blocks :: _ =>
      let blockCount := blocks.length / 16
      let ihl := (payload.getD 0 0).toNat % 16 * 4
      if payload.length < 20 ∨ blockCount < 20 ∨ ihl ≠ 20 then []
      else
        let flags := (payload.getD 6 0).toNat
        [Ipv4Out.versionAndHeaderLength ihl, .dscpAndEcn, .packetLength (word16 payload 2),
          .identification (word16 payload 4), .flags (flags.testBit 6) (flags.testBit 5),
          .fragmentOffset (word16 payload 6 % 8192 * 8), .timeToLive (payload.getD 8 0),
          .protocol (payload.getD 9 0), .headerChecksum (checksumOk (wordSum (payload.take 20))),
          .sourceIp ((payload.drop 12).take 4), .destinationIp ((payload.drop 16).take 4)] ++
          ((payload.take blockCount).drop 20).map .data ++
          (if 20 < payload.length ∧ 20 < blockCount then
            [.payload [.bytes (address + 20) (payload.drop 20),
                .bytes (blocksAddress + 320) (blocks.drop 320),
                .bytes (address + 12) ((payload.drop 12).take 4),
                .bytes (address + 16) ((payload.drop 16).take 4)]]
          else [])
  | _ => []

inductive UdpOut
  | sourcePort (port : Nat)
  | destinationPort (port : Nat)
  | length (bytes : Nat)
  | checksum (ok : Bool)
  | data (byte : UInt8)
  /-- The payload of the message `UDP_PAYLOAD` to the decoders above. -/
  | payload (bytes : List UInt8)
  /-- The same as binary output. -/
  | binary (bytes : List UInt8)
  deriving DecidableEq

def udpPayload (bytes : List UInt8) : List UdpOut :=
  bytes.map .data ++ (if bytes.isEmpty then [] else [.payload bytes, .binary bytes])

/-- What `udp_recv_proto` puts out of the bytes of a datagram and the addresses of its packet. -/
def udpDatagram (payload : List UInt8) (payloadLen blockCount : Nat) (addresses : List UInt8) :
    List UdpOut :=
  if payloadLen < 8 ∨ blockCount < 8 then []
  else
    let udpLength := word16 payload 4
    let sum := wordSum addresses + 17 + udpLength +
      wordSum (payload.take (min udpLength payloadLen))
    [UdpOut.sourcePort (word16 payload 0), .destinationPort (word16 payload 2), .length udpLength,
      .checksum (checksumOk sum)] ++
      udpPayload ((payload.take (min udpLength (min payloadLen blockCount))).drop 8)

/-- `src_ip` and `dst_ip`. -/
def udpAddresses (fields : List CField) : List UInt8 :=
  if 6 ≤ fields.length ∧ 4 ≤ (field fields 4).readBytes.length ∧
      4 ≤ (field fields 5).readBytes.length then
    (field fields 4).readBytes.take 4 ++ (field fields 5).readBytes.take 4
  else List.replicate 8 0

/-- `udp_recv_proto`, of the fields of the message `IP_PAYLOAD`. -/
def udpRecvProto (fields : List CField) : List UdpOut :=
  if fields.length < 4 then []
  else
    let payload := (field fields 1).readBytes
    udpDatagram payload (min (field fields 0).readU16 payload.length) (field fields 2).readU16
      (udpAddresses fields)

def EthernetOut.ipv4 : EthernetOut → List Ipv4Out
  | .payload fields => ipv4DecodeUpper fields
  | _ => []

def Ipv4Out.udp : Ipv4Out → List UdpOut
  | .payload fields => udpRecvProto fields
  | _ => []

/-- What `udp_c` puts out on top of the other two decoders. -/
def udpStack (payloadAddress blocksAddress : Nat) (symbols : List EthernetSymbol) : List UdpOut :=
  ((symbols.foldl Ethernet.decodeUpper (.start payloadAddress blocksAddress)).outs.flatMap
    EthernetOut.ipv4).flatMap Ipv4Out.udp

/-- A datagram in a packet in a frame, with whatever else they hold. -/
structure UdpFrame where
  preamble : Nat
  macs : List UInt8
  typeOfService : UInt8
  identAndFlags : List UInt8
  timeToLive : UInt8
  headerChecksum : List UInt8
  source : List UInt8
  destination : List UInt8
  sourcePort : Nat
  destinationPort : Nat
  checksum : Nat
  payload : List UInt8
  frameCheckSequence : List UInt8
  length_macs : macs.length = 12
  length_identAndFlags : identAndFlags.length = 4
  length_headerChecksum : headerChecksum.length = 2
  length_source : source.length = 4
  length_destination : destination.length = 4
  sourcePort_lt : sourcePort < 65536
  destinationPort_lt : destinationPort < 65536
  checksum_lt : checksum < 65536
  fits : payload.length + 28 ≤ 1500
  length_frameCheckSequence : frameCheckSequence.length = 4

namespace UdpFrame

variable (frame : UdpFrame)

def udpLength : Nat := 8 + frame.payload.length

def datagram : List UInt8 :=
  be16 frame.sourcePort ++ be16 frame.destinationPort ++ be16 frame.udpLength ++
    be16 frame.checksum ++ frame.payload

def packet : List UInt8 :=
  [0x45, frame.typeOfService] ++ be16 (20 + frame.udpLength) ++ frame.identAndFlags ++
    [frame.timeToLive, 17] ++ frame.headerChecksum ++ frame.source ++ frame.destination ++
    frame.datagram

def padded : List UInt8 :=
  frame.packet ++ List.replicate (46 - frame.packet.length) 0

def bytes : List UInt8 :=
  List.replicate frame.preamble 0x55 ++ [0xD5] ++ frame.macs ++ [8, 0] ++ frame.padded ++
    frame.frameCheckSequence

/-- The checksum is the one over the datagram and the pseudo header of its packet: with it the
sum in one's complement has all its bits set. -/
def checksumRight : Bool :=
  let sum := wordSum (frame.source ++ frame.destination) + 17 + frame.udpLength +
    wordSum frame.datagram
  foldCarries 65536 sum sum == 65535

/-- What is to be reported, and passed on. -/
def expected : List UdpOut :=
  [UdpOut.sourcePort frame.sourcePort, .destinationPort frame.destinationPort,
    .length frame.udpLength, .checksum frame.checksumRight] ++ udpPayload frame.payload

end UdpFrame

structure EthernetByte where
  val : UInt8
  ss : Nat
  es : Nat

/-- A frame as the 4B5B decoder reports it. -/
def ethernetSymbols (bytes : List EthernetByte) : List EthernetSymbol :=
  [EthernetSymbol.j, .k] ++ bytes.map (fun byte => EthernetSymbol.data byte.val byte.ss byte.es) ++
    [EthernetSymbol.t, .r]

end SigrokDecode
