import Mathlib.Data.BitVec

/-!
# The ARM ITM decoder

`arm_itm_c` builds up a packet byte by byte, and handles it as soon as it is complete.
-/

namespace SigrokDecode

inductive ItmAnnClass
  | trace
  | timestamp
  | software
  | dwtEvent
  | dwtWatchpoint
  | dwtExc
  | dwtPc
  | modeThread
  | modeIrq
  | modeExc
  deriving DecidableEq

/-- The packet types of `get_packet_type`. -/
inductive ItmPacketType
  | sync
  | overflow
  | timestamp
  | swExtension
  | hwExtension
  | reserved
  | software
  | hardware
  deriving DecidableEq

/-- The text of an annotation; a mode without a name has none. -/
inductive ItmField
  | overflow
  | unhandled (type : ItmPacketType) (bytes : List (BitVec 8))
  | timestamp (timestamp : BitVec 64) (tc : Nat)
  | software (pid : Nat) (payload : List (BitVec 8))
  | dwtEvents (events : BitVec 8)
  | exception (event : Nat) (name : String)
  | pc (pc : BitVec 32)
  | watchpoint (comp : Nat) (write : Bool) (data : List (BitVec 8))
  | mode (name : Option String)

structure ItmAnn where
  ss : BitVec 64
  es : BitVec 64
  cls : ItmAnnClass
  field : ItmField

/-- A byte of the "DATA" packets of the UART. -/
structure ItmByte where
  ss : BitVec 64
  es : BitVec 64
  byte : BitVec 8

/-- `arm_itm_state`; the buffers have their lengths. -/
structure ItmState where
  buf : List (BitVec 8)
  syncbuf : List (BitVec 8)
  ss : BitVec 64
  es : BitVec 64
  ssPacket : BitVec 64
  prevSample : BitVec 64
  byteLen : BitVec 64
  dwtTimestamp : BitVec 64
  currentMode : Bool
  modeSs : BitVec 64
  modeAnnIdx : ItmAnnClass

def armExceptions : List (Option String) :=
  [some "Thread", some "Reset", some "NMI", some "HardFault", some "MemManage", some "BusFault",
    some "UsageFault", none, none, none, none, some "SVCall", some "Debug Monitor", none,
    some "PendSV", some "SysTick"]

def getExceptionName (excnum : Nat) : String :=
  match (armExceptions[excnum]?).join with
  | some name => name
  | none => "IRQ " ++ toString ((excnum : Int) - 16)

/-- `get_packet_type` -/
def itmPacketType (byte : BitVec 8) : ItmPacketType :=
  if byte &&& 0x7F = 0 then .sync
  else if byte = 0x70 then .overflow
  else if byte &&& 0x0F = 0 ∧ byte &&& 0xF0 ≠ 0 then .timestamp
  else if byte &&& 0x0F = 0x08 then .swExtension
  else if byte &&& 0x0F = 0x0C then .hwExtension
  else if byte &&& 0x0F = 0x04 then .reserved
  else if byte &&& 0x04 = 0 then .software
  else .hardware

/-- `get_payload_len` -/
def itmPayloadLen (byte : BitVec 8) : Nat :=
  [0, 1, 2, 4].getD (byte.toNat % 4) 0

namespace ItmState

def reset : ItmState :=
  { buf := []
    syncbuf := []
    ss := 0
    es := 0
    ssPacket := 0
    prevSample := 0
    byteLen := 0
    dwtTimestamp := 0
    currentMode := false
    modeSs := 0
    modeAnnIdx := .trace }

def bufByte (s : ItmState) (i : Nat) : BitVec 8 :=
  s.buf.getD i 0

def put (s : ItmState) (cls : ItmAnnClass) (field : ItmField) : ItmAnn :=
  ⟨s.ssPacket, s.es, cls, field⟩

def modeChange (s : ItmState) (mode : Option String) (annIdx : ItmAnnClass) :
    ItmState × List ItmAnn :=
  (match mode with
    | some _ => { s with currentMode := true, modeSs := s.ss, modeAnnIdx := annIdx }
    | none => { s with currentMode := false },
    if s.currentMode then [⟨s.modeSs, s.ss, s.modeAnnIdx, .mode mode⟩] else [])

def handleException (s : ItmState) : ItmState × List ItmAnn :=
  let excnum := 256 * ((s.bufByte 2).toNat % 2) + (s.bufByte 1).toNat
  let event := (s.bufByte 2).toNat / 16
  let excstr := getExceptionName excnum
  let changed :=
    if event = 1 then s.modeChange (some excstr) .modeExc
    else if event = 2 then s.modeChange none .trace
    else if event = 3 then s.modeChange (some excstr) .modeExc
    else (s, [])
  (changed.1, changed.2 ++ [s.put .dwtExc (.exception event excstr)])

def payloadWord (s : ItmState) : BitVec 32 :=
  (s.bufByte 1).setWidth 32 ||| (s.bufByte 2).setWidth 32 <<< 8 |||
    (s.bufByte 3).setWidth 32 <<< 16 ||| (s.bufByte 4).setWidth 32 <<< 24

def unhandled (s : ItmState) : ItmState × List ItmAnn :=
  (s, [s.put .trace (.unhandled (itmPacketType (s.bufByte 0)) s.buf)])

def handleHardware (s : ItmState) : ItmState × List ItmAnn :=
  let header := s.bufByte 0
  let plen := itmPayloadLen header
  let pid := header.toNat / 8
  if s.buf.length ≠ plen + 1 then (s, [])
  else if pid = 0 ∧ 1 ≤ plen then (s, [s.put .dwtEvent (.dwtEvents (s.bufByte 1))])
  else if pid = 1 ∧ 2 ≤ plen then s.handleException
  else if pid = 2 ∧ plen = 4 then (s, [s.put .dwtPc (.pc s.payloadWord)])
  else if header &&& 0xC4 = 0x84 then
    (s, [s.put .dwtWatchpoint
      (.watchpoint (header.toNat / 16 % 4) (header &&& 0x08 ≠ 0) (s.buf.drop 1))])
  else s.unhandled

def handleSoftware (s : ItmState) : ItmState × List ItmAnn :=
  if s.buf.length ≠ itmPayloadLen (s.bufByte 0) + 1 then (s, [])
  else (s, [s.put .software (.software ((s.bufByte 0).toNat / 8) (s.buf.drop 1))])

/-- Byte number `i` of a timestamp, if it is there. -/
def timestampPart (s : ItmState) (i : Nat) : BitVec 32 :=
  if i < s.buf.length then (s.bufByte i &&& 0x7F).setWidth 32 <<< (7 * (i - 1)) else 0

def handleTimestamp (s : ItmState) : ItmState × List ItmAnn :=
  let header := s.bufByte 0
  if s.bufByte (s.buf.length - 1) &&& 0x80 ≠ 0 then (s, [])
  else
    let tc := if header &&& 0x80 = 0 then 0 else header.toNat / 16 % 4
    let ts : BitVec 32 :=
      if header &&& 0x80 = 0 then (header >>> 4).setWidth 32
      else s.timestampPart 1 ||| s.timestampPart 2 ||| s.timestampPart 3 ||| s.timestampPart 4
    let s := { s with dwtTimestamp := s.dwtTimestamp + ts.setWidth 64 }
    (s, [s.put .timestamp (.timestamp s.dwtTimestamp tc)])

def handlePacket (s : ItmState) : ItmState × List ItmAnn :=
  match itmPacketType (s.bufByte 0) with
  | .overflow => (s, [s.put .trace .overflow])
  | .timestamp => s.handleTimestamp
  | .software => s.handleSoftware
  | .hardware => s.handleHardware
  | _ => s.unhandled

def packetComplete (s : ItmState) : Bool :=
  match itmPacketType (s.bufByte 0) with
  | .timestamp =>
      (s.buf.drop 1).any (fun byte => byte &&& 0x80 = 0) ||
        if s.bufByte 0 &&& 0x80 ≠ 0 then s.bufByte (s.buf.length - 1) &&& 0x80 = 0 else true
  | .software => itmPayloadLen (s.bufByte 0) + 1 ≤ s.buf.length
  | .hardware => itmPayloadLen (s.bufByte 0) + 1 ≤ s.buf.length
  | _ => true

def itmSyncPattern : List (BitVec 8) :=
  [0x00, 0x00, 0x00, 0x00, 0x00, 0x80]

def storeByte (s : ItmState) (input : ItmByte) : ItmState :=
  let byteLen := input.es - input.ss
  let buf := if 16 * byteLen < input.ss - s.prevSample then [] else s.buf
  let buf := if buf.length < 8 then buf ++ [input.byte] else buf
  { s with
    byteLen
    prevSample := input.es
    buf
    ssPacket := if buf.length = 1 then input.ss else s.ssPacket
    ss := input.ss
    es := input.es
    syncbuf := (if s.syncbuf.length < 6 then s.syncbuf else s.syncbuf.drop 1) ++ [input.byte] }

/-- `arm_itm_recv_proto` for a "DATA" packet. -/
def recvProto (s : ItmState) (input : ItmByte) : ItmState × List ItmAnn :=
  let s := s.storeByte input
  if s.syncbuf = itmSyncPattern then
    let handled := { s with buf := itmSyncPattern }.handlePacket
    ({ handled.1 with buf := [] }, handled.2)
  else if s.packetComplete then
    let handled := s.handlePacket
    ({ handled.1 with buf := [] }, handled.2)
  else
    (s, [])

def behind : ItmState → List ItmByte → ItmState
  | s, [] => s
  | s, input :: inputs => behind (s.recvProto input).1 inputs

def decode : ItmState → List ItmByte → List ItmAnn
  | _, [] => []
  | s, input :: inputs => (s.recvProto input).2 ++ decode (s.recvProto input).1 inputs

end ItmState

end SigrokDecode
