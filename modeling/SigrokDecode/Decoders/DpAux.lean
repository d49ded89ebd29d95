import Mathlib.Algebra.Order.Floor.Ring
import Mathlib.Data.Rat.Floor

/-!
# DisplayPort AUX

`dp_aux_c` learns the width of a half unit interval from the synchronisation pulses, and counts
half unit intervals from the sync end on.
-/

namespace SigrokDecode

/-- The operations of `double` that the decoder uses. -/
class CDouble (D : Type) extends Add D, Sub D, Mul D, Div D, NatCast D, OfScientific D where
  lt : D → D → Bool
  le : D → D → Bool
  fabs : D → D
  toUInt64 : D → Nat
  zero_le_zero : le 0.0 0.0 = true

/-- Pulses of one polarity: `temp_v111`, `sync_duration`, `sync_zero_count` and `half_ui_samples`
for high ones, `temp_v112`, `sync_pulse_count`, `sync_glitch_count` and `timing_err_accum` for low
ones. -/
structure SyncTable (D : Type) where
  entries : Nat → Nat
  used : Nat
  count : Nat
  mean : D

/-- What an AUX transaction says, as far as it has been read. -/
structure AuxFields where
  cmdByte : Nat
  addressVal : Nat
  lenMinus1 : Nat
  dataBuf : Nat → Nat

inductive DpAuxAnnClass
  | command
  | address
  | length
  | data
  | error
  | stop
  deriving DecidableEq

/-- The texts of an annotation are functions of its value. -/
structure DpAuxAnn where
  cls : DpAuxAnnClass
  startSample : Nat
  endSample : Nat
  value : Nat
  deriving DecidableEq

/-- An edge of the line, with the level behind it. -/
structure AuxEdge where
  samplenum : Nat
  pin : Bool

/-- `is_valid` is a local variable of `dp_aux_c_decode` that lives through its loop. -/
structure DpAuxState (D : Type) where
  state : Nat
  prevPinVal : Bool
  currPinVal : Bool
  high : SyncTable D
  low : SyncTable D
  isAltFormat : Bool
  syncEndValid : Bool
  addrPhaseStart : Bool
  abortFlag : Bool
  dataByteIdx : Nat
  syncEdgeCount : Bool
  isRequest : Bool
  edgeType : Bool
  byteCounter : Nat
  halfUiAccum : Nat
  lastEdgeSamp : Nat
  fields : AuxFields
  annStartSamps : Nat → Nat
  isValid : Bool
  samplerate : Nat

def setEntry (entries : Nat → Nat) (i value : Nat) (j : Nat) : Nat :=
  if j = i then value else entries j

namespace SyncTable

variable {D : Type} [CDouble D]

def clear (t : SyncTable D) : SyncTable D :=
  { t with used := 0, count := 0 }

def total (t : SyncTable D) : D :=
  (List.range t.used).foldl (fun sum i => sum + (t.entries i : D)) 0.0

def average (t : SyncTable D) : D :=
  if 0 < t.count then t.total / (t.count : D) else 0.0

/-- The width goes behind the entries of which `average` takes the sum. -/
def push (t : SyncTable D) (width : Nat) : SyncTable D :=
  { t with
    entries := setEntry t.entries (t.used + 1) width
    used := t.used + 1
    count := t.count + 1 }

def restart (t : SyncTable D) (width : Nat) : SyncTable D :=
  { t with
    entries := setEntry t.entries 0 width
    used := 1
    count := 1 }

end SyncTable

inductive PulseVerdict
  | fits
  | off
  | syncEnd
  deriving DecidableEq

def SyncTable.judge {D : Type} [CDouble D] (t : SyncTable D) (deltaSamp : D) : PulseVerdict :=
  if CDouble.le t.mean 0.0 then .fits
  else if 8 ≤ t.count then
    if CDouble.le (t.mean * 1.5) deltaSamp then .syncEnd else .fits
  else if CDouble.lt deltaSamp (t.mean * 1.5) && CDouble.le (t.mean * 0.5) deltaSamp then .fits
  else .off

/-- A pulse of the polarity of `own`; the last component says that it is the sync end. -/
def syncPulse {D : Type} [CDouble D] (own other : SyncTable D) (deltaSamp : D) (width : Nat) :
    SyncTable D × SyncTable D × Bool :=
  let own := { own with mean := own.average }
  match own.judge deltaSamp with
  | .fits => (own.push width, other, false)
  | .off => (own.restart width, other.clear, false)
  | .syncEnd => (own.clear, other.clear, true)

section Phase

variable {D : Type} [CDouble D]

/-- One of the candidates for the number of half unit intervals. -/
def nearerPhase (phaseErr candidate : D) (phaseDiff : Nat) (best : D × Nat) : D × Nat :=
  let distance := CDouble.fabs (candidate - phaseErr)
  if CDouble.lt distance best.1 then (distance, phaseDiff) else best

def edgeHalfUis (phaseErr : D) : Nat :=
  if CDouble.le 6.0 phaseErr then
    CDouble.toUInt64 (phaseErr + 0.5)
  else
    (nearerPhase phaseErr 5.0 5 (nearerPhase phaseErr 4.0 4 (nearerPhase phaseErr 3.0 3
          (nearerPhase phaseErr 2.0 2 (CDouble.fabs (1.0 - phaseErr), 1))))).2

/-- `((x >> 63) ^ (x & 1)) - (x >> 63) == 1` -/
def oddHalfUis (halfUis : Nat) : Bool :=
  halfUis < 2 ^ 63 && halfUis % 2 == 1

def subU64 (left right : Nat) : Nat :=
  (left + 2 ^ 64 - right) % 2 ^ 64

end Phase

namespace DpAuxState

variable {D : Type} [CDouble D]

def pulseStep (s : DpAuxState D) (deltaSamp : D) (width : Nat) : DpAuxState D :=
  if s.prevPinVal = true ∧ s.currPinVal = false then
    let pulse := syncPulse s.high s.low deltaSamp width
    { s with
      high := pulse.1
      low := pulse.2.1
      state := if pulse.2.2 then 4 else s.state }
  else if s.prevPinVal = false ∧ s.currPinVal = true then
    let pulse := syncPulse s.low s.high deltaSamp width
    { s with
      high := pulse.2.1
      low := pulse.1
      state := if pulse.2.2 then 4 else s.state }
  else s

def syncStep (s : DpAuxState D) (deltaSamp : D) (width : Nat) : DpAuxState D :=
  let s :=
    if CDouble.lt ((s.samplerate : D) * 400000.0 / 1000000000.0) deltaSamp then
      { s with isRequest := true }
    else s
  let s :=
    if s.low.count < 50 ∧ s.high.count < 50 then s
    else { s with high := s.high.clear, low := s.low.clear }
  s.pulseStep deltaSamp width

def syncEndFirst (s : DpAuxState D) : DpAuxState D :=
  { s with
    fields := ⟨0, 0, 0, fun _ => 0⟩
    isValid := if s.isRequest then s.halfUiAccum = 2 else s.halfUiAccum = 5
    halfUiAccum := 0
    edgeType :=
      if s.prevPinVal = true ∧ s.currPinVal = false then false
      else if s.prevPinVal = false ∧ s.currPinVal = true then true
      else s.edgeType
    isRequest := if s.syncEdgeCount then true else s.isRequest
    syncEdgeCount := false
    state := 5 }

def syncEndSecond (s : DpAuxState D) (currentSamp : Nat) : DpAuxState D :=
  let accum := subU64 s.halfUiAccum 4
  { s with
    halfUiAccum := accum
    state := 6
    annStartSamps := setEntry s.annStartSamps 0 currentSamp
    syncEndValid := s.isValid && accum == 0
    isAltFormat :=
      if s.isRequest then
        if accum = 0 then false else if accum = 1 then true else s.isAltFormat
      else s.isAltFormat }

def firstBit (halfUis : Nat) (bit : Bool) (shift : Nat) : Nat :=
  if halfUis = 1 then bit.toNat <<< shift else 0

def enterData (s : DpAuxState D) (currentSamp : Nat) (bit : Bool) (shift : Nat) : DpAuxState D :=
  let accum := subU64 s.halfUiAccum 16
  { s with
    halfUiAccum := accum
    byteCounter := 0
    dataByteIdx := 0
    state := 9
    annStartSamps := setEntry s.annStartSamps 9 currentSamp
    fields :=
      { s.fields with
        dataBuf := setEntry s.fields.dataBuf 0
          (s.fields.dataBuf 0 ||| firstBit accum bit shift) } }

def commandStep (s : DpAuxState D) (currentSamp : Nat) (bit : Bool) :
    DpAuxState D × List DpAuxAnn :=
  let ann : DpAuxAnn := ⟨.command, s.annStartSamps 0, currentSamp, s.fields.cmdByte⟩
  let shiftIn (bitsToRead : Nat) : DpAuxState D :=
    { s with
      fields :=
        { s.fields with
          cmdByte := s.fields.cmdByte |||
            (if oddHalfUis s.halfUiAccum then bit.toNat <<< ((bitsToRead - s.halfUiAccum) / 2)
              else 0) } }
  if s.isRequest then
    if s.syncEndValid ∧ s.halfUiAccum = 2 then
      ({ s with addrPhaseStart := true, halfUiAccum := 0, state := 7 }, [])
    else if s.halfUiAccum < 8 ∨ s.isAltFormat then
      if s.halfUiAccum < 16 ∨ s.isAltFormat = false then
        ({ shiftIn (if s.isAltFormat then 16 else 8) with addrPhaseStart := false }, [])
      else
        ({ s.enterData currentSamp bit 19 with addrPhaseStart := false }, [ann])
    else
      let accum := subU64 s.halfUiAccum 8
      ({ s with
          addrPhaseStart := false
          halfUiAccum := accum
          state := 7
          annStartSamps := setEntry s.annStartSamps 0 currentSamp
          fields :=
            { s.fields with addressVal := s.fields.addressVal ||| firstBit accum bit 19 } }, [ann])
  else if 16 ≤ s.halfUiAccum then
    (s.enterData currentSamp bit 7, [ann])
  else
    (shiftIn 16, [])

def addressStep (s : DpAuxState D) (currentSamp : Nat) (bit : Bool) :
    DpAuxState D × List DpAuxAnn :=
  if s.addrPhaseStart ∧ s.halfUiAccum = 4 then
    ({ s with abortFlag := true, state := 5 }, [])
  else if s.halfUiAccum < 40 then
    ({ s with
        abortFlag := false
        fields :=
          { s.fields with
            addressVal := s.fields.addressVal |||
              (if oddHalfUis s.halfUiAccum then bit.toNat <<< ((40 - s.halfUiAccum) / 2)
                else 0) } }, [])
  else
    let accum := subU64 s.halfUiAccum 40
    ({ s with
        abortFlag := false
        halfUiAccum := accum
        state := 8
        annStartSamps := setEntry s.annStartSamps 0 currentSamp
        fields := { s.fields with lenMinus1 := s.fields.lenMinus1 ||| firstBit accum bit 7 } },
      [⟨.address, s.annStartSamps 0, currentSamp, s.fields.addressVal⟩])

def lengthStep (s : DpAuxState D) (currentSamp : Nat) (bit : Bool) : DpAuxState D × List DpAuxAnn :=
  if 16 ≤ s.halfUiAccum then
    (s.enterData currentSamp bit 7, [⟨.length, s.annStartSamps 0, currentSamp, s.fields.lenMinus1⟩])
  else
    ({ s with
        fields :=
          { s.fields with
            lenMinus1 := s.fields.lenMinus1 |||
              (if oddHalfUis s.halfUiAccum then bit.toNat <<< ((16 - s.halfUiAccum) / 2)
                else 0) } }, [])

def dataStep (s : DpAuxState D) (currentSamp : Nat) (bit : Bool) : DpAuxState D × List DpAuxAnn :=
  let byte := s.fields.dataBuf (16 * s.byteCounter)
  if s.state = 16 * s.byteCounter + 9 then
    if s.halfUiAccum < 16 then
      ({ s with
          fields :=
            { s.fields with
              dataBuf := setEntry s.fields.dataBuf (16 * s.byteCounter) (byte |||
                  (if oddHalfUis s.halfUiAccum then bit.toNat <<< ((16 - s.halfUiAccum) / 2)
                    else 0)) } }, [])
    else
      let accum := subU64 s.halfUiAccum 16
      let next := 16 * (s.dataByteIdx + 1)
      ({ s with
          halfUiAccum := accum
          byteCounter := s.byteCounter + 1
          dataByteIdx := s.dataByteIdx + 1
          state := 16 * (s.byteCounter + 1) + 9
          annStartSamps := setEntry s.annStartSamps (9 + (s.byteCounter + 1)) currentSamp
          fields :=
            { s.fields with
              dataBuf := setEntry s.fields.dataBuf next
                (s.fields.dataBuf next ||| firstBit accum bit 7) } },
        [⟨.data, s.annStartSamps (9 + s.byteCounter), currentSamp, byte⟩])
  else
    (s, [])

/-- The `switch` over the state. -/
def frameStep (s : DpAuxState D) (currentSamp : Nat) (bit : Bool) : DpAuxState D × List DpAuxAnn :=
  match s.state with
  | 4 => (s.syncEndFirst, [])
  | 5 => (s.syncEndSecond currentSamp, [])
  | 6 => s.commandStep currentSamp bit
  | 7 => s.addressStep currentSamp bit
  | 8 => s.lengthStep currentSamp bit
  | _ => s.dataStep currentSamp bit

/-- The verdict of the validation behind the `switch`. -/
def mustAbort (s : DpAuxState D) (halfUis : Nat) : Bool :=
  if s.abortFlag then true
  else if s.state = 0 then false
  else
    (if s.state = 4 ∨ s.state = 5 then decide (8 < halfUis)
      else if s.state = 6 then decide (41 < halfUis ∨ (2 < halfUis ∧ 1 < s.halfUiAccum))
      else decide (2 < halfUis)) || decide (255 < s.byteCounter)

/-- `state = 5` where the flag is set. -/
def flagState (s : DpAuxState D) : DpAuxState D :=
  if s.abortFlag then { s with state := 5 } else s

/-- The annotation with which the decoder gives up. -/
def abortAnns (s : DpAuxState D) (currentSamp : Nat) : List DpAuxAnn :=
  if s.isRequest ∧ s.state = 6 then [⟨.error, s.annStartSamps 0, currentSamp, 0⟩]
  else if 4 < s.state then [⟨.stop, s.lastEdgeSamp, currentSamp, 0⟩]
  else []

/-- The validation, and the end of a round. -/
def finishStep (s : DpAuxState D) (currentSamp halfUis : Nat) : DpAuxState D × List DpAuxAnn :=
  if s.mustAbort halfUis then
    ({ s.flagState with state := 0, lastEdgeSamp := currentSamp },
      s.flagState.abortAnns currentSamp)
  else
    ({ s with lastEdgeSamp := currentSamp }, [])

def takeEdge (s : DpAuxState D) (edge : AuxEdge) : DpAuxState D :=
  let deltaSamp := subU64 edge.samplenum s.lastEdgeSamp
  let s := { s with prevPinVal := s.currPinVal, currPinVal := edge.pin }
  if s.state ≤ 3 then s.syncStep (deltaSamp : D) (deltaSamp % 2 ^ 32) else s

def halfUisAt (s : DpAuxState D) (currentSamp : Nat) : Nat :=
  edgeHalfUis (((currentSamp : D) - (s.lastEdgeSamp : D)) / ((s.low.mean + s.high.mean) * 0.5))

/-- The counter of half unit intervals, before the `switch`. -/
def countHalfUis (s : DpAuxState D) (halfUis : Nat) : DpAuxState D :=
  { s with
    state := if 4096 ≤ s.state then 0 else s.state
    halfUiAccum := ((if s.state = 4 then 0 else s.halfUiAccum) + halfUis) % 2 ^ 64 }

def frameRound (s : DpAuxState D) (currentSamp : Nat) (bit : Bool) : DpAuxState D × List DpAuxAnn :=
  let halfUis := s.halfUisAt currentSamp
  let framed := (s.countHalfUis halfUis).frameStep currentSamp bit
  let finished := framed.1.finishStep currentSamp halfUis
  (finished.1, framed.2 ++ finished.2)

/-- One round of the loop of `dp_aux_c_decode`. -/
def step (s : DpAuxState D) (edge : AuxEdge) : DpAuxState D × List DpAuxAnn :=
  let bit := if s.edgeType then edge.pin else !edge.pin
  let s := s.takeEdge edge
  if s.state ≤ 3 then
    ({ s with lastEdgeSamp := edge.samplenum }, [])
  else
    s.frameRound edge.samplenum bit

/-- The annotations of a run. -/
def decode : DpAuxState D → List AuxEdge → List DpAuxAnn
  | _, [] => []
  | s, edge :: edges => (s.step edge).2 ++ decode (s.step edge).1 edges

def behind : DpAuxState D → List AuxEdge → DpAuxState D
  | s, [] => s
  | s, edge :: edges => behind (s.step edge).1 edges

end DpAuxState

end SigrokDecode
