import SigrokDecode.Decoders.CanSteps
import SigrokDecode.Foundation.ShiftRegister

/-!
# The FlexRay decoder

`flexray_c` behind its sample points: `handle_bit` gets one bit of the bus after the other,
from the end of the transmission start sequence on.
-/

set_option linter.dupNamespace false

namespace SigrokDecode

open Foundation

/-- `STATE_IDLE` and `STATE_GET_BITS`. -/
inductive FlexrayPhase
  | idle
  | getBits
  deriving DecidableEq

/-- `channel_type`. -/
inductive FlexrayChannel
  | a
  | b
  deriving DecidableEq

/-- The channel, and the whole samples of a bit in front of its sample point and behind it. -/
structure FlexrayConfig where
  channelType : FlexrayChannel
  left : Nat
  right : Nat

/-- A CRC is reported with its verdict. -/
inductive FlexrayField
  | tss
  | fss
  | reservedBit (value : Bool)
  | ppi (value : Bool)
  | nullFrame (value : Bool)
  | syncFrame (value : Bool)
  | startupFrame (value : Bool)
  | id (value : Nat)
  | length (value : Nat)
  | headerCrc (value : Nat) (ok : Bool)
  | cycle (value : Nat)
  | dataByte (index byte : Nat)
  | frameCrc (value : Nat) (ok : Bool)
  | fes
  | bss (value : Bool)
  | bit (value : Bool)
  | cid
  | dts
  | cas

structure FlexrayAnn where
  ss : Nat
  es : Nat
  field : FlexrayField

def cChannelIdleDelimiter : Nat := 11

def cCrcPolynomial : BitVec 32 := 0x5D6DCB#32

def cCrcSize : Nat := 24

def cHCrcInit : BitVec 32 := 0x01A#32

def cHCrcPolynomial : BitVec 32 := 0x385#32

def cHCrcSize : Nat := 11

/-- `cCrcInitA` and `cCrcInitB`. -/
def FlexrayChannel.cCrcInit : FlexrayChannel → BitVec 32
  | .a => 0xFEDCBA#32
  | .b => 0xABCDEF#32

/-- The body of the loop in `flexray_crc`. -/
def flexrayCrcStep (polynom : BitVec 32) (crcLenBits : Nat) (reg : BitVec 32) (bit : Bool) :
    BitVec 32 :=
  if reg.getLsbD (crcLenBits - 1) ^^ bit then (reg <<< 1) ^^^ polynom else reg <<< 1

/-- `flexray_crc`; a bit of `data` behind the highest one is 0. -/
def flexrayCrc (data : BitVec 32) (dataLenBits : Nat) (polynom : BitVec 32)
    (crcLenBits : Nat) (iv xorVal : BitVec 32) : BitVec 32 :=
  let reg := (List.range dataLenBits).reverse.foldl
    (fun reg i => flexrayCrcStep polynom crcLenBits reg (data.getLsbD i)) (iv ^^^ xorVal)
  (reg &&& ((1#32 <<< crcLenBits) - 1)) ^^^ xorVal

/-- `flexray_state` without the edge that the sample points are counted from. -/
structure FlexrayState where
  state : FlexrayPhase
  rawbits : List Bool
  bits : List Bool
  tssStart : Nat
  tssEnd : Nat
  ssBlock : Nat
  ssBit0 : Nat
  ssBit1 : Nat
  ssBit2 : Nat
  ssDatabytebits : List Nat
  lastDatabit : Nat
  lastXmitBit : Nat
  endOfFrame : Bool
  dynamicFrame : Bool
  frameId : Nat
  payloadLength : Nat
  headerCrc : Nat
  frameCrc : Nat
  cycle : Nat
  /-- History: what went out. -/
  anns : List FlexrayAnn

namespace FlexrayState

def resetVariables (s : FlexrayState) : FlexrayState :=
  { s with
    state := .idle
    rawbits := []
    bits := []
    lastDatabit := 999
    lastXmitBit := 999
    endOfFrame := false
    dynamicFrame := false
    frameId := 0
    payloadLength := 0
    headerCrc := 0
    frameCrc := 0
    cycle := 0
    ssBlock := 0
    ssBit0 := 0
    ssBit1 := 0
    ssBit2 := 0
    ssDatabytebits := [] }

def reset : FlexrayState :=
  { state := .idle
    rawbits := []
    bits := []
    tssStart := 0
    tssEnd := 0
    ssBlock := 0
    ssBit0 := 0
    ssBit1 := 0
    ssBit2 := 0
    ssDatabytebits := []
    lastDatabit := 999
    lastXmitBit := 999
    endOfFrame := false
    dynamicFrame := false
    frameId := 0
    payloadLength := 0
    headerCrc := 0
    frameCrc := 0
    cycle := 0
    anns := [] }

/-- `flexray_decode` has seen the bus low from `tssStart` to `tssEnd`. -/
def seeTss (s : FlexrayState) (tssStart tssEnd : Nat) : FlexrayState :=
  { s with state := .getBits, tssStart, tssEnd }

section HandleBit

variable (config : FlexrayConfig)

def putg (s : FlexrayState) (ss es : Nat) (field : FlexrayField) : FlexrayState :=
  { s with
    anns := s.anns ++
      [⟨if config.left < ss then ss - config.left else 0, es + config.right, field⟩] }

def putx (s : FlexrayState) (samplenum : Nat) (field : FlexrayField) : FlexrayState :=
  s.putg config samplenum samplenum field

/-- `flexray_putb` from the start of the block on. -/
def putb (s : FlexrayState) (samplenum : Nat) (field : FlexrayField) : FlexrayState :=
  s.putg config s.ssBlock samplenum field

/-- A bit enters both buffers. -/
def push (s : FlexrayState) (frRx : Bool) : FlexrayState :=
  { s with
    rawbits := if s.rawbits.length < 4096 then s.rawbits ++ [frRx] else s.rawbits
    bits := if s.bits.length < 4096 then s.bits ++ [frRx] else s.bits }

def isBssSequence (s : FlexrayState) : Bool :=
  !s.endOfFrame && (s.rawbits.length % 10 == 2 || s.rawbits.length % 10 == 3)

/-- A bit of a byte start sequence leaves the plain bits. -/
def bssBit (s : FlexrayState) (frRx : Bool) (bitnum samplenum : Nat) : FlexrayState :=
  let s := { s with bits := s.bits.dropLast }
  if bitnum > 1 then s.putx config samplenum (.bss frRx)
  else if s.rawbits.length = 2 then { s with ssBit1 := samplenum }
  else if s.rawbits.length = 3 then { s with ssBit2 := samplenum }
  else s

def headerStart (s : FlexrayState) (frRx : Bool) (samplenum : Nat) : FlexrayState :=
  if s.rawbits.take 3 = [true, true, false] then
    let s := s.putg config s.tssStart s.tssEnd .tss
    let s := s.putg config s.ssBit0 s.ssBit0 (.bit true)
    let s := s.putg config s.ssBit0 s.ssBit0 .fss
    let s := s.putg config s.ssBit1 s.ssBit1 (.bss true)
    let s := s.putg config s.ssBit2 s.ssBit2 (.bss false)
    s.putx config samplenum (.reservedBit frRx)
  else if s.rawbits.take 3 = [true, true, true] then
    (s.putg config s.tssStart s.tssEnd .cas).resetVariables
  else
    s

def putId (s : FlexrayState) (samplenum : Nat) : FlexrayState :=
  let frameId := bitpackMsb s.bits 6 10
  { s with frameId }.putb config samplenum (.id frameId)

def putLength (s : FlexrayState) (samplenum : Nat) : FlexrayState :=
  let payloadLength := bitpackMsb s.bits 17 7
  { s with payloadLength }.putb config samplenum (.length payloadLength)

def putHeaderCrc (s : FlexrayState) (samplenum : Nat) : FlexrayState :=
  let headerToCheck := BitVec.ofNat 32 (bitpackMsb s.bits 4 20)
  let expectedCrc := flexrayCrc headerToCheck 20 cHCrcPolynomial cHCrcSize cHCrcInit 0
  let headerCrc := bitpackMsb s.bits 24 11
  { s with headerCrc }.putb config samplenum
    (.headerCrc headerCrc (decide (headerCrc = expectedCrc.toNat)))

/-- The end of the data field is known from here on. -/
def putCycle (s : FlexrayState) (samplenum : Nat) : FlexrayState :=
  let cycle := bitpackMsb s.bits 35 6
  { { s with cycle }.putb config samplenum (.cycle cycle) with
    lastDatabit := 41 + 2 * s.payloadLength * 8 }

/-- The branches of `handle_bit` for the header. -/
def headerField (s : FlexrayState) (frRx : Bool) (bitnum samplenum : Nat) : Option FlexrayState :=
  match bitnum with
  | 0 => some { s with ssBit0 := samplenum }
  | 1 => some (s.headerStart config frRx samplenum)
  | 2 => some (s.putx config samplenum (.ppi frRx))
  | 3 => some (s.putx config samplenum (.nullFrame frRx))
  | 4 => some (s.putx config samplenum (.syncFrame frRx))
  | 5 => some (s.putx config samplenum (.startupFrame frRx))
  | 6 => some { s with ssBlock := samplenum }
  | 16 => some (s.putId config samplenum)
  | 17 => some { s with ssBlock := samplenum }
  | 23 => some (s.putLength config samplenum)
  | 24 => some { s with ssBlock := samplenum }
  | 34 => some (s.putHeaderCrc config samplenum)
  | 35 => some { s with ssBlock := samplenum }
  | 40 => some (s.putCycle config samplenum)
  | _ => none

def dataBit (s : FlexrayState) (samplenum : Nat) : FlexrayState :=
  if s.ssDatabytebits.length < 2048 then
    { s with ssDatabytebits := s.ssDatabytebits ++ [samplenum] }
  else
    s

def putDataByte (s : FlexrayState) (i : Nat) : FlexrayState :=
  let x := 40 + 8 * i + 1
  let b := if x + 8 ≤ s.bits.length then bitpackMsb s.bits x 8 else 0
  if i * 8 < s.ssDatabytebits.length ∧ (i + 1) * 8 - 1 < s.ssDatabytebits.length then
    s.putg config (s.ssDatabytebits.getD (i * 8) 0) (s.ssDatabytebits.getD ((i + 1) * 8 - 1) 0)
      (.dataByte i b)
  else
    s

def putData (s : FlexrayState) (samplenum : Nat) : FlexrayState :=
  { (List.range (2 * s.payloadLength)).foldl (putDataByte config) (s.dataBit samplenum) with
    ssDatabytebits := []
    ssBlock := samplenum }

def putFrameCrc (s : FlexrayState) (samplenum : Nat) : FlexrayState :=
  let frameBitsCount := s.bits.length - 1 - 24
  let frameToCheck :=
    if frameBitsCount > 0 ∧ frameBitsCount ≤ 32 then
      BitVec.ofNat 32 (bitpackMsb s.bits 1 frameBitsCount)
    else
      0#32
  let expectedCrc := flexrayCrc frameToCheck frameBitsCount cCrcPolynomial cCrcSize
    config.channelType.cCrcInit 0
  let frameCrc := bitpackMsb s.bits s.lastDatabit 24
  { { s with frameCrc }.putb config samplenum
      (.frameCrc frameCrc (decide (frameCrc = expectedCrc.toNat))) with
    endOfFrame := true }

def frameKind (s : FlexrayState) (frRx : Bool) (bitnum samplenum : Nat) : FlexrayState :=
  let s := if !frRx then { s with dynamicFrame := true } else { s with lastXmitBit := bitnum }
  { s with ssBlock := samplenum }

def trailingSequence (s : FlexrayState) (frRx : Bool) (bitnum samplenum : Nat) : FlexrayState :=
  if s.dynamicFrame && frRx && s.lastXmitBit == 999 then
    { s.putb config samplenum .dts with lastXmitBit := bitnum + 1, ssBlock := samplenum }
  else
    s

/-- The branches of `handle_bit` behind the header. -/
def restField (s : FlexrayState) (frRx : Bool) (bitnum samplenum : Nat) : FlexrayState :=
  if bitnum ≥ 41 ∧ bitnum < s.lastDatabit then s.dataBit samplenum
  else if bitnum = s.lastDatabit then s.putData config samplenum
  else if bitnum = s.lastDatabit + 23 then s.putFrameCrc config samplenum
  else if bitnum = s.lastDatabit + 24 then { s with ssBlock := samplenum }
  else if bitnum = s.lastDatabit + 25 then s.putb config samplenum .fes
  else if bitnum = s.lastDatabit + 26 then s.frameKind frRx bitnum samplenum
  else if bitnum = s.lastXmitBit then { s with ssBlock := samplenum }
  else if bitnum = s.lastXmitBit + cChannelIdleDelimiter - 1 then
    (s.putb config samplenum .cid).resetVariables
  else if bitnum > s.lastDatabit + 27 then s.trailingSequence config frRx bitnum samplenum
  else s

def plainBit (s : FlexrayState) (frRx : Bool) (bitnum samplenum : Nat) : FlexrayState :=
  let s := if bitnum > 1 then s.putx config samplenum (.bit frRx) else s
  match s.headerField config frRx bitnum samplenum with
  | some s => s
  | none => s.restField config frRx bitnum samplenum

def handleBit (s : FlexrayState) (frRx : Bool) (samplenum : Nat) : FlexrayState :=
  let s := s.push frRx
  let bitnum := s.bits.length - 1
  if s.isBssSequence then s.bssBit config frRx bitnum samplenum
  else s.plainBit config frRx bitnum samplenum

/-- The bits that `flexray_decode` samples; in the idle state it waits for another transmission
start sequence instead. -/
def sample (s : FlexrayState) (frRx : Bool) (samplenum : Nat) : FlexrayState :=
  match s.state with
  | .idle => s
  | .getBits => s.handleBit config frRx samplenum

/-- The bits from number `number` on; `place` are their samples. -/
def feed (place : Nat → Nat) : FlexrayState → Nat → List Bool → FlexrayState
  | s, _, [] => s
  | s, number, frRx :: bits =>
      feed place (s.sample config frRx (place number)) (number + 1) bits

end HandleBit

end FlexrayState

end SigrokDecode
