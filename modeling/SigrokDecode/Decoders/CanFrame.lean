import SigrokDecode.Decoders.CanCommon

/-!
# Frames on a CAN bus

The bits of a frame as a sender puts them on the bus, and what `can_c` is to say
about each of them.
-/

namespace SigrokDecode

open Foundation

/-- A data frame with up to eight bytes, or a remote frame without data.  The
reserved bits, the CRC sequence and the ACK slot may have any value. -/
structure CanFrame where
  baseId : BitVec 11
  extension : Option (BitVec 18)
  substituteRemote : Bool
  remote : Bool
  reserved1 : Bool
  reserved0 : Bool
  bytes : List (BitVec 8)
  crc : BitVec 15
  ack : Bool
  fewBytes : bytes.length ≤ 8
  remoteEmpty : remote = true → bytes = []
  dominantIdent : baseId.toNat &&& 0x7f0 ≠ 0x7f0

namespace CanFrame

variable (frame : CanFrame)

/-- The identifiers and the flags in front of the data length code. -/
def header : List Bool :=
  match frame.extension with
  | none =>
      [false] ++ msbBits 11 frame.baseId.toNat ++ [frame.remote, false, frame.reserved0]
  | some extension =>
      [false] ++ msbBits 11 frame.baseId.toNat ++ [frame.substituteRemote, true] ++
        msbBits 18 extension.toNat ++ [frame.remote, frame.reserved1, frame.reserved0]

def control : List Bool :=
  msbBits 4 frame.bytes.length

def data : List Bool :=
  frame.bytes.flatMap fun byte => msbBits 8 byte.toNat

def body : List Bool :=
  frame.header ++ frame.control ++ frame.data ++ msbBits 15 frame.crc.toNat

def tail : List Bool :=
  [true, frame.ack, true] ++ List.replicate 7 true

def startRun : BitRun :=
  { last := true, length := 0 }

/-- The body with a stuff bit behind every five equal bits. -/
def stuffedBody : List (Bool × Bool) :=
  let wire := (runRule 5).stuff startRun frame.body
  wire ++ (runRule 5).trailing ((runRule 5).stateAfter startRun wire)

def wire : List (Bool × Bool) :=
  frame.stuffedBody ++ frame.tail.map fun bit => (bit, false)

def frameType : CanFrameType :=
  if frame.extension.isSome then .extended else .standard

def fullid : Nat :=
  match frame.extension with
  | none => frame.baseId.toNat
  | some extension => frame.baseId.toNat * 2 ^ 18 + extension.toNat

def headerFields : List CanField :=
  [CanField.sof, .ident frame.baseId.toNat, .ide frame.frameType] ++
    match frame.extension with
    | none => [.reservedBit .reserved0 frame.reserved0, .rtr frame.remote]
    | some extension =>
        [.extIdent extension.toNat, .fullIdent frame.fullid,
          .srr frame.substituteRemote, .rtr frame.remote,
          .reservedBit .reserved1 frame.reserved1,
          .reservedBit .reserved0 frame.reserved0]

def dataFields : List CanField :=
  frame.bytes.zipIdx.map fun byte => .data byte.2 byte.1.toNat

/-- The annotations of a frame, apart from those of single bits. -/
def fields : List CanField :=
  frame.headerFields ++ [CanField.dlc frame.bytes.length] ++ frame.dataFields ++
    [CanField.crcSequence 15 frame.crc.toNat, .crcDelimiter true, .ackSlot frame.ack,
      .ackDelimiter true, .endOfFrame]

def packet (ss es : Nat) : CanPacket :=
  { ss
    es
    frameType := frame.frameType
    fullid := frame.fullid
    remote := frame.remote
    dlc := frame.bytes.length }

end CanFrame

end SigrokDecode
