import SigrokDecode.Decoders.DpAux
import SigrokDecode.Foundation.Crc
import SigrokDecode.Foundation.CStrings

/-!
# The Thunderbolt sideband channel

`sb_channel_c` reads bits from the distances of the edges, and packets between sync bytes.
-/

namespace SigrokDecode

open Foundation

abbrev SbByte := BitVec 8

inductive SbAnnClass
  | sync
  | transaction
  | payload
  | error
  | warning
  deriving DecidableEq

structure SbAnn where
  cls : SbAnnClass
  startSample : Nat
  endSample : Nat
  texts : List String

/-- An edge of the sideband, with the level behind it. -/
structure SbEdge where
  samplenum : Nat
  pin : Bool

/-- `payload` holds the first `payload_len` bytes of the array; it goes on where the array of 256
bytes ends. -/
structure SbChannelState where
  state : Nat
  prevPin : Bool
  currPin : Bool
  lastEdge : Nat
  bitStartEdge : Nat
  packetStartEdge : Nat
  isHalfBit : Bool
  shiftReg : BitVec 32
  bitCount : Nat
  payload : List SbByte
  crc : BitVec 16
  samplerate : Nat

def updateCrc (crc : BitVec 16) (byte : SbByte) : BitVec 16 :=
  (fun crc => if crc &&& 1#16 ≠ 0#16 then (crc >>> 1) ^^^ 0xA001#16 else crc >>> 1)^[8]
    (crc ^^^ byte.setWidth 16)

/-- `(byte >> shift) & mask`, for a mask of `width` bits. -/
def sbField (byte : SbByte) (shift width : Nat) : Nat :=
  byte.toNat / 2 ^ shift % 2 ^ width

/-- `%d` of a field. -/
def sbDecimal (byte : SbByte) (shift width : Nat) : String :=
  toString (sbField byte shift width)

def sbResyncText (b0 : SbByte) : String :=
  "Scrambler Re-Sync | ESRS G4:" ++ sbDecimal b0 6 2 ++ " ESRS G2/3:" ++ sbDecimal b0 4 2 ++
    " | SRS G4:" ++ sbDecimal b0 2 2 ++ " SRS G2/3:" ++ sbDecimal b0 0 2

def sbLinkConfigText (b0 b1 b2 : SbByte) : String :=
  "Link Config | EnL0:" ++ sbDecimal b0 0 1 ++ " EnL1:" ++ sbDecimal b0 1 1 ++
    " | EnReqL0:" ++ sbDecimal b1 0 1 ++ " EnReqL1:" ++ sbDecimal b1 1 1 ++
    " Bond:" ++ sbDecimal b1 4 1 ++ " Gen3:" ++ sbDecimal b1 5 1 ++
    " RS-FEC(G2):" ++ sbDecimal b1 6 1 ++ " RS-FEC(G3):" ++ sbDecimal b1 7 1 ++
    " | USB4:" ++ sbDecimal b2 0 1 ++ " TBT3:" ++ sbDecimal b2 1 1

/-- One lane of `Gen2/3 TxFFE`. -/
def sbGen3LaneText (req set : SbByte) : String :=
  " Req:0x" ++ upperHexDigits 1 (sbField req 0 4) ++ " RxLck:" ++ sbDecimal req 4 1 ++
    " RxAct:" ++ sbDecimal req 5 1 ++ " ClkSw:" ++ sbDecimal req 6 1 ++
    " New:" ++ sbDecimal req 7 1 ++ " Set:0x" ++ upperHexDigits 1 (sbField set 0 4) ++
    " ReqDn:" ++ sbDecimal set 6 1 ++ " TxAct:" ++ sbDecimal set 7 1

def sbGen3Text (b0 b1 b2 b3 : SbByte) : String :=
  "Gen2/3 TxFFE | L0" ++ sbGen3LaneText b0 b2 ++ " | L1" ++ sbGen3LaneText b1 b3

/-- One lane of `Gen4 TxFFE`. -/
def sbGen4LaneText (lane : String) (req set : SbByte) : String :=
  lane ++ " Req: 0x" ++ upperHexDigits 2 (sbField req 0 6) ++ "(New:" ++ sbDecimal req 7 1 ++
    ") " ++ lane ++ " Set: 0x" ++ upperHexDigits 2 (sbField set 0 6) ++
    "(Done:" ++ sbDecimal set 6 1 ++ ")"

def sbGen4Text (b0 b1 b2 b3 : SbByte) : String :=
  "Gen4 TxFFE | " ++ sbGen4LaneText "L0" b0 b1 ++ " | " ++ sbGen4LaneText "L1" b2 b3

def sbVersionText (subVer minorVer low high : SbByte) : String :=
  "SB Version: " ++ toString (low.toNat + 256 * high.toNat) ++ "." ++ toString minorVer.toNat ++
    "." ++ toString subVer.toNat

/-- `parse_sb_payload` for an AT or RT packet; `payload` begins behind the opcode and the length. -/
def parseSbCommand (opcode : Nat) (payload : List SbByte) : List (List String) :=
  let b (i : Nat) := payload.getD i 0
  if opcode = 5 ∧ 1 ≤ payload.length then
    [[sbResyncText (b 0), "Scrambler Re-Sync", "SRS"]]
  else if opcode = 12 ∧ 3 ≤ payload.length then
    [[sbLinkConfigText (b 0) (b 1) (b 2), "Link Config", "LC"]]
  else if opcode = 13 ∧ 4 ≤ payload.length then
    [[sbGen3Text (b 0) (b 1) (b 2) (b 3), "Gen2/3 TxFFE", "TxFFE"]]
  else if opcode = 14 ∧ 4 ≤ payload.length then
    [[sbGen4Text (b 0) (b 1) (b 2) (b 3), "Gen4 TxFFE", "TxFFE"]]
  else if opcode = 15 ∧ 4 ≤ payload.length then
    [[sbVersionText (b 0) (b 1) (b 2) (b 3), "SB Version", "Ver"]]
  else []

/-- The texts of `parse_sb_payload`. -/
def parseSbPayload (payload : List SbByte) : List (List String) :=
  if payload.length < 3 then []
  else
    let type := payload.getD 0 0
    let data := (payload.drop 1).take (payload.length - 3)
    if type &&& 0xC0 = 0x80 then
      if 1 ≤ data.length then
        [["LT Cmd: 0x" ++ upperHexDigits 2 (data.getD 0 0).toNat, "LT Cmd", "LT"]]
      else []
    else if type &&& 0xE0 = 0x40 ∨ type &&& 0xC0 = 0x00 then
      if 2 ≤ data.length then parseSbCommand (data.getD 0 0).toNat (data.drop 2) else []
    else []

def sbTransactionText (byte : SbByte) : String :=
  if byte &&& 0xC0 = 0x80 then
    "LT Transaction (" ++ (if byte &&& 0x80 ≠ 0 then "Read" else "Write") ++ ")"
  else if byte &&& 0xE0 = 0x60 then "NVM Data"
  else if byte &&& 0xE1 = 0x41 then "AT Command"
  else if byte &&& 0xE1 = 0x40 then "AT Response"
  else if byte &&& 0xC1 = 0x01 then "RT Command"
  else if byte &&& 0xC1 = 0x00 then "RT Response"
  else "Unknown (0x" ++ upperHexDigits 2 byte.toNat ++ ")"

namespace SbChannelState

/-- `sb_channel_c_reset` and `sb_channel_c_start` -/
def sbChannelStart (samplerate : Nat) (initialPin : Bool) : SbChannelState :=
  { state := 0
    prevPin := initialPin
    currPin := initialPin
    lastEdge := 0
    bitStartEdge := 0
    packetStartEdge := 0
    isHalfBit := false
    shiftReg := 0
    bitCount := 0
    payload := []
    crc := 0xFFFF
    samplerate }

def verdictAnns (s : SbChannelState) (samplenum : Nat) : List SbAnn :=
  if s.state = 2 ∧ 2 ≤ s.payload.length then
    if s.crc = 0 then
      ⟨.transaction, s.bitStartEdge, samplenum, ["Valid CRC", "CRC OK", "CRC"]⟩ ::
        (parseSbPayload s.payload).map fun texts =>
          ⟨.payload, s.packetStartEdge, samplenum, texts⟩
    else
      [⟨.error, s.bitStartEdge, samplenum, ["CRC Error", "CRC Err", "CE"]⟩]
  else []

def receiveByte (s : SbChannelState) (byte : SbByte) (samplenum : Nat) :
    SbChannelState × List SbAnn :=
  if byte = 0xFE then
    ({ s with state := 1, packetStartEdge := s.bitStartEdge, payload := [], crc := 0xFFFF },
      s.verdictAnns samplenum ++ [⟨.sync, s.bitStartEdge, samplenum, ["Sync (0xFE)", "S", "S"]⟩])
  else if s.state = 1 then
    ({ s with
        payload := s.payload ++ [byte]
        crc := updateCrc s.crc byte
        state := if byte &&& 0xC0 = 0x80 then 3 else 2 },
      [⟨.transaction, s.bitStartEdge, samplenum, [sbTransactionText byte, "T", "Trans"]⟩])
  else if s.state = 3 then
    let payload := s.payload ++ [byte]
    ({ s with payload := payload, state := 1 },
      if byte = ~~~(payload.getD 0 0) then
        ⟨.payload, s.bitStartEdge, samplenum, ["~Cmd", "D", "Data"]⟩ ::
          (parseSbPayload payload).map fun texts =>
            ⟨.payload, s.packetStartEdge, samplenum, texts⟩
      else
        [⟨.error, s.bitStartEdge, samplenum, ["LT Inv", "LT", "E"]⟩])
  else if s.state = 2 then
    ({ s with payload := s.payload ++ [byte], crc := updateCrc s.crc byte },
      [⟨.payload, s.bitStartEdge, samplenum, [upperHexDigits 2 byte.toNat, "D", "Data"]⟩])
  else
    (s, [])

/-- `shift_reg` behind a bit. -/
def shiftBit (shiftReg : BitVec 32) (bit : Bool) : BitVec 32 :=
  (shiftReg >>> 1) ||| (if bit then 0x80 else 0)

/-- A completed bit. -/
def completeBit (s : SbChannelState) (bit : Bool) (samplenum : Nat) : SbChannelState × List SbAnn :=
  let s := { s with
    bitStartEdge := if s.bitCount = 0 then s.lastEdge else s.bitStartEdge
    shiftReg := shiftBit s.shiftReg bit
    bitCount := s.bitCount + 1 }
  if s.bitCount = 8 then
    let received := s.receiveByte (s.shiftReg.setWidth 8) samplenum
    ({ received.1 with bitCount := 0 }, received.2)
  else
    (s, [])

section Timing

variable (D : Type) [CDouble D]

def diffUi (s : SbChannelState) (samplenum : Nat) : D :=
  (subU64 samplenum s.lastEdge : D) / ((s.samplerate : D) / 1000000.0)

/-- A long pause. -/
def isGap (s : SbChannelState) (samplenum : Nat) : Bool :=
  CDouble.lt 2.5 (s.diffUi D samplenum)

def isHalf (s : SbChannelState) (samplenum : Nat) : Bool :=
  CDouble.lt 0.25 (s.diffUi D samplenum) && CDouble.le (s.diffUi D samplenum) 0.75

def isFull (s : SbChannelState) (samplenum : Nat) : Bool :=
  CDouble.lt 0.75 (s.diffUi D samplenum) && CDouble.le (s.diffUi D samplenum) 1.25

def dropPacket (s : SbChannelState) : SbChannelState :=
  { s with state := 0, isHalfBit := false, bitCount := 0, shiftReg := 0 }

/-- The edge behind the test for a pause; `half` and `full` say how far the last one is away. -/
def takeEdge (s : SbChannelState) (half full : Bool) (samplenum : Nat) :
    SbChannelState × List SbAnn :=
  if half then
    if s.isHalfBit then
      { s with isHalfBit := false }.completeBit true samplenum
    else
      ({ s with isHalfBit := true }, [])
  else if full then
    if s.isHalfBit then
      ({ s with isHalfBit := false }, [⟨.error, s.lastEdge, samplenum, ["Error", "E", "E"]⟩])
    else
      s.completeBit false samplenum
  else
    (s, [])

/-- One round of the loop of `sb_channel_c_decode`. -/
def step (s : SbChannelState) (edge : SbEdge) : SbChannelState × List SbAnn :=
  let s := { s with currPin := edge.pin }
  if s.lastEdge = 0 then
    ({ s with lastEdge := edge.samplenum, prevPin := edge.pin }, [])
  else
    let half := s.isHalf D edge.samplenum
    let full := s.isFull D edge.samplenum
    let taken :=
      (if s.isGap D edge.samplenum then s.dropPacket else s).takeEdge half full edge.samplenum
    ({ taken.1 with lastEdge := edge.samplenum, prevPin := edge.pin }, taken.2)

def behind : SbChannelState → List SbEdge → SbChannelState
  | s, [] => s
  | s, edge :: edges => behind (s.step D edge).1 edges

/-- The annotations of a run. -/
def decode : SbChannelState → List SbEdge → List SbAnn
  | _, [] => []
  | s, edge :: edges => (s.step D edge).2 ++ decode (s.step D edge).1 edges

end Timing

end SbChannelState

end SigrokDecode
