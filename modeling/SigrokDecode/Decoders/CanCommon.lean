import SigrokDecode.Foundation.BitFields
import SigrokDecode.Foundation.BitStuffing

/-!
# What both CAN decoders share

The state, the annotations and the packets of `can_c` and `can_fd_c`, the steps
that both take, and their look at the last six raw bits.
-/

namespace SigrokDecode

open Foundation

/-- `FRAME_STANDARD` and `FRAME_EXTENDED`. -/
inductive CanFrameType
  | standard
  | extended
  deriving DecidableEq

/-- The texts that go out under `ANN_WARNING`. -/
inductive CanWarning
  | sofDominant
  | identRecessive
  | crcDelimiter
  | ackDelimiter
  | endOfFrame
  | dlcOfRemote
  | dlcTooLarge
  | canDlcTooLarge
  | grayCode
  | parity
  deriving DecidableEq

def CanWarning.text : CanWarning → String
  | .sofDominant => "Start of frame (SOF) must be a dominant bit"
  | .identRecessive => "Identifier bits 10..4 must not be all recessive"
  | .crcDelimiter => "CRC delimiter must be a recessive bit"
  | .ackDelimiter => "ACK delimiter must be a recessive bit"
  | .endOfFrame => "End of frame (EOF) must be 7 recessive bits"
  | .dlcOfRemote => "Data length code (DLC) != 0 is not allowed"
  | .dlcTooLarge => "Data length code (DLC) > 8 is not allowed"
  | .canDlcTooLarge => "CAN Data length code (DLC) > 8 is not allowed"
  | .grayCode => "Gray Code Error"
  | .parity => "Parity Check Error"

/-- The bits of a frame that have an annotation of their own. -/
inductive CanFlag
  | reserved0
  | reserved1
  | flexibleDataFormat
  | remoteRequestSubstitution
  | bitRateSwitch
  | errorStateIndicator
  deriving DecidableEq

/-- The annotation classes with the values that their texts show. -/
inductive CanField
  | data (index byte : Nat)
  | sof
  | endOfFrame
  | ident (value : Nat)
  | extIdent (value : Nat)
  | fullIdent (value : Nat)
  | ide (type : CanFrameType)
  | reservedBit (flag : CanFlag) (value : Bool)
  | rtr (remote : Bool)
  | remoteSubstitution
  | srr (value : Bool)
  | dlc (value : Nat)
  | crcSequence (bits value : Nat)
  | stuffCount (bits : List Bool)
  | parityBit (value : Bool)
  | crcDelimiter (value : Bool)
  | ackSlot (value : Bool)
  | ackDelimiter (value : Bool)
  | fixedStuffBit (value : Bool)
  | warning (warning : CanWarning)
  | stuffBit (value : Bool)
  | bit (value : Bool)

def CanField.isRawBit : CanField → Bool
  | .stuffBit _ => true
  | .bit _ => true
  | _ => false

/-- An annotation; `putg` moves both ends by a part of the bit width. -/
structure CanAnn where
  ss : Nat
  es : Nat
  field : CanField

/-- The `FRAME` packet for stacked decoders. -/
structure CanPacket where
  ss : Nat
  es : Nat
  frameType : CanFrameType
  fullid : Nat
  remote : Bool
  dlc : Nat

def dlc2len (dlc : Nat) : Nat :=
  [0, 1, 2, 3, 4, 5, 6, 7, 8, 12, 16, 20, 24, 32, 48, 64].getD dlc 0

/-- `STATE_IDLE` and `STATE_GET_BITS`. -/
inductive CanPhase
  | idle
  | getBits
  deriving DecidableEq

/-- `canfd_s` without the edge that the sample points are counted from.  `can_s`
ends in front of `fd`, and `can_c` never looks at the fields from there on. -/
structure CanState where
  state : CanPhase
  rawbits : List Bool
  bits : List Bool
  curbit : Nat
  frameType : Option CanFrameType
  ident : Nat
  eid : Nat
  fullid : Nat
  rtrType : Bool
  dlc : Nat
  lastDatabit : Nat
  dlcStart : Nat
  frameBytes : List Nat
  crcLen : Nat
  crc : Nat
  ssBlock : Nat
  ssBit12 : Nat
  ssBit32 : Nat
  ssPacket : Nat
  esPacket : Nat
  ssDatabytebits : List Nat
  fd : Bool
  rtr : Bool
  stuffCount : Nat
  stuffCountStart : Nat
  crcData : List Bool
  /-- The whole samples of a bit. -/
  bitWidth : Nat
  /-- History: what went out as annotations and as packets. -/
  anns : List CanAnn
  packets : List CanPacket

/-- `bitpack_msb(&bits[first], count)` into 32 bits. -/
def bitpackMsb (bits : List Bool) (first count : Nat) : Nat :=
  packMsb ((bits.drop first).take (min count 32))

namespace CanState

def putg (s : CanState) (ss es : Nat) (field : CanField) : CanState :=
  { s with anns := s.anns ++ [{ ss, es, field }] }

def putx (s : CanState) (samplenum : Nat) (field : CanField) : CanState :=
  s.putg samplenum samplenum field

def putb (s : CanState) (samplenum : Nat) (field : CanField) : CanState :=
  s.putg s.ssBlock samplenum field

def fresh (bitWidth : Nat) : CanState :=
  { state := .idle
    rawbits := []
    bits := []
    curbit := 0
    frameType := none
    ident := 0
    eid := 0
    fullid := 0
    rtrType := false
    dlc := 0
    lastDatabit := 999
    dlcStart := 0
    frameBytes := []
    crcLen := 15
    crc := 0
    ssBlock := 0
    ssBit12 := 0
    ssBit32 := 0
    ssPacket := 0
    esPacket := 0
    ssDatabytebits := []
    fd := false
    rtr := false
    stuffCount := 0
    stuffCountStart := 0
    crcData := []
    bitWidth
    anns := []
    packets := [] }

/-- What both versions of `reset_variables` reset. -/
def resetCommon (s : CanState) : CanState :=
  { s with
    state := .idle
    rawbits := []
    bits := []
    curbit := 0
    frameType := none
    ident := 0
    eid := 0
    fullid := 0
    rtrType := false
    dlc := 0
    lastDatabit := 999
    dlcStart := 0
    crcLen := 15
    crc := 0
    frameBytes := []
    ssBlock := 0
    ssBit12 := 0
    ssBit32 := 0
    ssPacket := 0
    esPacket := 0
    ssDatabytebits := [] }

/-- What both decode functions do at the falling edge that they wait for in the
idle state. -/
def startCommon (s : CanState) : CanState :=
  { s with
    state := .getBits
    curbit := 0
    rawbits := []
    bits := []
    ssDatabytebits := []
    frameType := none
    lastDatabit := 999
    crcLen := 15
    dlc := 0
    rtrType := false
    frameBytes := [] }

section Blocks

variable (s : CanState) (canRx : Bool) (bitnum samplenum : Nat)

def push (room : Nat) : CanState :=
  let s := if s.rawbits.length < room then { s with rawbits := s.rawbits ++ [canRx] } else s
  if s.bits.length < room then { s with bits := s.bits ++ [canRx] } else s

def startBit : CanState :=
  if bitnum = 0 then
    let s := { s with ssPacket := samplenum }.putx samplenum .sof
    if canRx ≠ false then s.putx samplenum (.warning .sofDominant) else s
  else
    s

def identFirst : CanState :=
  if bitnum = 1 then
    { s with ssBlock := samplenum }
  else
    s

def identLast : CanState :=
  if bitnum = 11 then
    let ident := bitpackMsb s.bits 1 11
    let s := { s with ident, fullid := ident }.putb samplenum (.ident ident)
    if ident &&& 0x7f0 = 0x7f0 then
      s.putb samplenum (.warning .identRecessive)
    else
      s
  else
    s

def bit12 : CanState :=
  if bitnum = 12 then
    { s with ssBit12 := samplenum }
  else
    s

def identExtension : CanState :=
  if bitnum = 13 then
    let type : CanFrameType := if canRx = false then .standard else .extended
    { s with frameType := some type }.putx samplenum (.ide type)
  else
    s

def decodeIdent : CanState :=
  let s := s.startBit canRx bitnum samplenum
  let s := s.identFirst bitnum samplenum
  let s := s.identLast bitnum samplenum
  let s := s.bit12 bitnum samplenum
  s.identExtension canRx bitnum samplenum

def extendedStart : CanState :=
  if bitnum = 14 then
    { s with ssBlock := samplenum, dlcStart := 35 }
  else
    s

def extendedIdent : CanState :=
  if bitnum = 31 then
    let eid := if 14 < s.bits.length then bitpackMsb s.bits 14 (s.bits.length - 14) else s.eid
    let fullid := s.ident <<< 18 ||| eid
    let s := { s with eid, fullid }
    let s := s.putb samplenum (.extIdent eid)
    let s := s.putb samplenum (.fullIdent fullid)
    s.putg s.ssBit12 s.ssBit12 (.srr (s.bits.getD 12 false))
  else
    s

def flagBit (position : Nat) (flag : CanFlag) : CanState :=
  if bitnum = position then
    s.putx samplenum (.reservedBit flag canRx)
  else
    s

def dlcFirst : CanState :=
  if bitnum = s.dlcStart then
    { s with ssBlock := samplenum }
  else
    s

def readDlc : Nat :=
  if s.dlcStart + 4 ≤ s.bits.length then bitpackMsb s.bits s.dlcStart 4 else s.dlc

def putDlc : CanState :=
  { s with dlc := s.readDlc }.putb samplenum (.dlc s.readDlc)

def dataBit (room : Nat) : CanState :=
  if s.ssDatabytebits.length < room then
    { s with ssDatabytebits := s.ssDatabytebits ++ [samplenum] }
  else
    s

def dataByte (i : Nat) : CanState :=
  let x := s.dlcStart + 4 + 8 * i
  let b := if x + 8 ≤ s.bits.length then bitpackMsb s.bits x 8 else 0
  let s := { s with frameBytes := s.frameBytes ++ [b] }
  if i * 8 < s.ssDatabytebits.length ∧ (i + 1) * 8 - 1 < s.ssDatabytebits.length then
    s.putg (s.ssDatabytebits.getD (i * 8) 0) (s.ssDatabytebits.getD ((i + 1) * 8 - 1) 0) (.data i b)
  else
    s

def reportBytes (most : Nat) : CanState :=
  let count := min (dlc2len s.dlc) most
  { (List.range count).foldl dataByte { s with frameBytes := [] } with
    ssDatabytebits := [] }

/-- `decode_data_field` with room for `room` bits and at most `most` bytes. -/
def dataField (room most : Nat) : CanState :=
  let s :=
    if bitnum > s.dlcStart + 3 ∧ bitnum < s.lastDatabit then
      s.dataBit samplenum room
    else
      s
  if bitnum = s.lastDatabit ∧ s.dlc > 0 then
    (s.dataBit samplenum room).reportBytes most
  else
    s

/-- The last seven raw bits are recessive, or there are not seven of them. -/
def eofRecessive : Bool :=
  s.rawbits.length < 7 || (s.rawbits.drop (s.rawbits.length - 7)).all (· == true)

/-- The end of a frame up to `reset_variables`. -/
def endOfFrame : CanState :=
  let s := s.putb samplenum .endOfFrame
  let s := if s.eofRecessive then s else s.putb samplenum (.warning .endOfFrame)
  let packet : CanPacket :=
    { ss := s.ssPacket
      es := samplenum
      frameType := if s.frameType = some .standard then .standard else .extended
      fullid := s.fullid
      remote := s.rtrType
      dlc := s.dlc }
  { s with esPacket := samplenum, packets := s.packets ++ [packet] }

end Blocks

end CanState

/-- Five equal bits and another one behind them. -/
def stuffWindow (rawbits : List Bool) : Bool :=
  match rawbits.drop (rawbits.length - 6) with
  | [a, b, c, d, e, f] => a == b && a == c && a == d && a == e && f != a
  | _ => false

theorem stuffWindow_append (front : List Bool) {six : List Bool}
    (length : six.length = 6) : stuffWindow (front ++ six) = stuffWindow six := by
  have whole : (front ++ six).length - 6 = front.length := by simp [length]
  simp only [stuffWindow]
  rw [whole, List.drop_left, length]
  rfl

theorem stuffWindow_short {rawbits : List Bool} (short : rawbits.length < 6) :
    stuffWindow rawbits = false := by
  have whole : rawbits.length - 6 = 0 := by omega
  simp only [stuffWindow]
  rw [whole, List.drop_zero]
  split
  · simp at short
  · rfl

theorem equal_of_stuffWindow {a b c d e f : Bool} (window : stuffWindow [a, b, c, d, e, f] = true) :
    a = b ∧ a = c ∧ a = d ∧ a = e := by
  simp [stuffWindow] at window
  exact ⟨window.1.1.1.1, window.1.1.1.2, window.1.1.2, window.1.2⟩

theorem stuffWindow_concat {run : BitRun} {rawbits : List Bool}
    (ends : run.EndsWire rawbits) (short : run.length ≤ 5) (bit : Bool) :
    stuffWindow (rawbits ++ [bit]) = (decide (run.length = 5) && bit != run.last) := by
  obtain ⟨last, length⟩ := run
  obtain ⟨front, rfl, before, empty⟩ := ends
  simp only at short before empty ⊢
  by_cases full : length = 5
  · subst full
    rw [List.append_assoc, stuffWindow_append _ (by simp)]
    simp [stuffWindow, List.replicate]
  · have fewer : length ≤ 4 := by omega
    simp only [full, decide_false, Bool.false_and]
    rcases List.eq_nil_or_concat front with rfl | ⟨front, other, rfl⟩
    · exact stuffWindow_short (by simp; omega)
    · have positive : 0 < length := by
        rcases Nat.eq_zero_or_pos length with zero | positive
        · simpa using empty zero
        · exact positive
      have differs : other ≠ last := by simpa using before
      by_cases long : front.length < 4 - length
      · exact stuffWindow_short (by simp; omega)
      · obtain ⟨early, late, rfl, lateLength⟩ :
            ∃ early late, front = early ++ late ∧ late.length = 4 - length := by
          refine ⟨front.take (front.length - (4 - length)),
            front.drop (front.length - (4 - length)), ?_, ?_⟩
          · exact (List.take_append_drop _ _).symm
          · simp
            omega
        have regroup : early ++ late ++ [other] ++ List.replicate length last ++ [bit] =
            early ++ (late ++ [other] ++ List.replicate length last ++ [bit]) := by
          simp
        rw [List.concat_eq_append, regroup, stuffWindow_append _ (by simp; omega)]
        -- `other` and one `last` stand among the first five bits.
        refine Bool.eq_false_iff.mpr fun window => differs ?_
        rcases late with _ | ⟨a, _ | ⟨b, _ | ⟨c, late⟩⟩⟩
        · obtain rfl : length = 4 := by
            simp at lateLength
            omega
          exact (equal_of_stuffWindow window).1
        · obtain rfl : length = 3 := by
            simp at lateLength
            omega
          obtain ⟨first, second, _⟩ := equal_of_stuffWindow window
          exact first.symm.trans second
        · obtain rfl : length = 2 := by
            simp at lateLength
            omega
          obtain ⟨_, first, second, _⟩ := equal_of_stuffWindow window
          exact first.symm.trans second
        · obtain rfl : length = 1 := by
            simp at lateLength
            omega
          obtain rfl : late = [] := by simpa using lateLength
          obtain ⟨_, _, first, second⟩ := equal_of_stuffWindow window
          exact first.symm.trans second

end SigrokDecode
