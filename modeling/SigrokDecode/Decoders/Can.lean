import SigrokDecode.Decoders.CanCommon

/-!
# The CAN decoder

`handle_bit` of `can_c`: destuffing, the header of both frame types, the data
field and the end of a frame.
-/

namespace SigrokDecode

namespace CanState

/-- `reset_variables` of `can_c`. -/
def resetVariables (s : CanState) : CanState :=
  s.resetCommon

/-- What `can_decode` does at the start of a frame. -/
def startOfFrame (s : CanState) : CanState :=
  s.startCommon

def isStuffBit (s : CanState) : Bool :=
  if s.bits.length > s.lastDatabit + 17 then
    false
  else if s.rawbits.length < 6 then
    false
  else
    stuffWindow s.rawbits

section Blocks

variable (s : CanState) (canRx : Bool) (bitnum samplenum : Nat)

def crcStart : CanState :=
  if bitnum = s.lastDatabit + 1 then
    { s with ssBlock := samplenum, crcLen := 15 }
  else
    s

def crcSequence : CanState :=
  if bitnum = s.lastDatabit + s.crcLen then
    let x := s.lastDatabit + 1
    let crc := if x + s.crcLen ≤ s.bits.length then bitpackMsb s.bits x s.crcLen else s.crc
    { s with crc }.putb samplenum (.crcSequence 15 crc)
  else
    s

def crcDelimiter : CanState :=
  if bitnum = s.lastDatabit + s.crcLen + 1 then
    let s := s.putx samplenum (.crcDelimiter canRx)
    if canRx ≠ true then s.putx samplenum (.warning .crcDelimiter) else s
  else
    s

def ackSlot : CanState :=
  if bitnum = s.lastDatabit + s.crcLen + 2 then
    s.putx samplenum (.ackSlot canRx)
  else
    s

def ackDelimiter : CanState :=
  if bitnum = s.lastDatabit + s.crcLen + 3 then
    let s := s.putx samplenum (.ackDelimiter canRx)
    if canRx ≠ true then s.putx samplenum (.warning .ackDelimiter) else s
  else
    s

def eofStart : CanState :=
  if bitnum = s.lastDatabit + s.crcLen + 4 then
    { s with ssBlock := samplenum }
  else
    s

/-- `decode_frame_end`; the flag is its return value. -/
def decodeFrameEnd : CanState × Bool :=
  let s := s.crcStart bitnum samplenum
  let s := s.crcSequence bitnum samplenum
  let s := s.crcDelimiter canRx bitnum samplenum
  let s := s.ackSlot canRx bitnum samplenum
  let s := s.ackDelimiter canRx bitnum samplenum
  let s := s.eofStart bitnum samplenum
  if bitnum = s.lastDatabit + s.crcLen + 10 then
    ((s.endOfFrame samplenum).resetVariables, true)
  else
    (s, false)

def decodeDataField : CanState :=
  s.dataField bitnum samplenum 64 8

def decodeRest : CanState × Bool :=
  let s := s.decodeDataField bitnum samplenum
  if bitnum > s.lastDatabit then
    s.decodeFrameEnd canRx bitnum samplenum
  else
    (s, false)

/-- A data length code that a frame must not have; an extended frame is corrected
without a warning. -/
def correctDlc (reports : Bool) : CanState :=
  if s.dlc ≠ 0 ∧ s.rtrType = true then
    let s := if reports then s.putb samplenum (.warning .dlcOfRemote) else s
    { s with dlc := 0 }
  else if s.dlc > 8 then
    let s := if reports then s.putb samplenum (.warning .dlcTooLarge) else s
    { s with dlc := 8 }
  else
    s

def dlcLast (reports : Bool) : CanState :=
  if bitnum = s.dlcStart + 3 then
    let s := (s.putDlc samplenum).correctDlc samplenum reports
    { s with lastDatabit := s.dlcStart + 3 + dlc2len s.dlc * 8 }
  else
    s

def standardControl : CanState :=
  if bitnum = 14 then
    let s := s.putx samplenum (.reservedBit .reserved0 canRx)
    let remote := s.bits.getD 12 false
    let s := s.putg s.ssBit12 s.ssBit12 (.rtr remote)
    { s with rtrType := remote, dlcStart := 15 }
  else
    s

def decodeStandardFrame : CanState × Bool :=
  let s := s.standardControl canRx bitnum samplenum
  let s := s.dlcFirst bitnum samplenum
  let s := s.dlcLast bitnum samplenum true
  s.decodeRest canRx bitnum samplenum

def extendedRtr : CanState :=
  if bitnum = 32 then
    let s := { s with ssBit32 := samplenum }
    { s.putx samplenum (.rtr canRx) with rtrType := canRx }
  else
    s

def decodeExtendedFrame : CanState × Bool :=
  let s := s.extendedStart bitnum samplenum
  let s := s.extendedIdent bitnum samplenum
  let s := s.extendedRtr canRx bitnum samplenum
  let s := s.flagBit canRx bitnum samplenum 33 .reserved1
  let s := s.flagBit canRx bitnum samplenum 34 .reserved0
  let s := s.dlcFirst bitnum samplenum
  let s := s.dlcLast bitnum samplenum false
  s.decodeRest canRx bitnum samplenum

def decodeTyped : CanState × Bool :=
  match s.frameType with
  | some .standard => s.decodeStandardFrame canRx bitnum samplenum
  | some .extended => s.decodeExtendedFrame canRx bitnum samplenum
  | none => (s, false)

/-- `handle_bit` behind the look at the stuff bits. -/
def frameBit : CanState :=
  let s := s.putx samplenum (.bit canRx)
  let bitnum := s.bits.length - 1
  let s := s.decodeIdent canRx bitnum samplenum
  let last :=
    if bitnum ≥ 14 then s.decodeTyped canRx bitnum samplenum else (s, false)
  if last.2 then last.1 else { last.1 with curbit := last.1.curbit + 1 }

def handleBit : CanState :=
  let s := s.push canRx 512
  if s.isStuffBit then
    let s := s.putx samplenum (.stuffBit canRx)
    { s with bits := s.bits.dropLast, curbit := s.curbit + 1 }
  else
    s.frameBit canRx samplenum

end Blocks

end CanState

end SigrokDecode
