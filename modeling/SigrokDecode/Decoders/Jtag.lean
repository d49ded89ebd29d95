import SigrokDecode.Foundation.BitFields
import SigrokDecode.Foundation.CShifts

/-!
# JTAG

`jtag_c` and `decoders/jtag` follow the TAP through its states at the rising edges of TCK and put
out the bits that are shifted when the TAP leaves Exit1.
-/

namespace SigrokDecode

open Foundation

inductive JtagState
  | testLogicReset
  | runTestIdle
  | selectDrScan
  | captureDr
  | updateDr
  | pauseDr
  | shiftDr
  | exit1Dr
  | exit2Dr
  | selectIrScan
  | captureIr
  | updateIr
  | pauseIr
  | shiftIr
  | exit1Ir
  | exit2Ir
  deriving DecidableEq

namespace JtagState

/-- `advance_state_machine`, the TAP of IEEE 1149.1. -/
def advance (state : JtagState) (tms : Bool) : JtagState :=
  match state with
  | testLogicReset => if tms then testLogicReset else runTestIdle
  | runTestIdle => if tms then selectDrScan else runTestIdle
  | selectDrScan => if tms then selectIrScan else captureDr
  | captureDr => if tms then exit1Dr else shiftDr
  | shiftDr => if tms then exit1Dr else shiftDr
  | exit1Dr => if tms then updateDr else pauseDr
  | pauseDr => if tms then exit2Dr else pauseDr
  | exit2Dr => if tms then updateDr else shiftDr
  | updateDr => if tms then selectDrScan else runTestIdle
  | selectIrScan => if tms then testLogicReset else captureIr
  | captureIr => if tms then exit1Ir else shiftIr
  | shiftIr => if tms then exit1Ir else shiftIr
  | exit1Ir => if tms then updateIr else pauseIr
  | pauseIr => if tms then exit2Ir else pauseIr
  | exit2Ir => if tms then updateIr else shiftIr
  | updateIr => if tms then selectDrScan else runTestIdle

def all : List JtagState :=
  [testLogicReset, runTestIdle, selectDrScan, captureDr, updateDr, pauseDr, shiftDr, exit1Dr,
    exit2Dr, selectIrScan, captureIr, updateIr, pauseIr, shiftIr, exit1Ir, exit2Ir]

/-- `next_state`. -/
def nextStateTable : List (Nat × Nat) :=
  [(1, 0), (1, 2), (3, 9), (6, 7), (1, 2), (5, 8), (6, 7), (5, 4), (6, 4), (10, 0), (13, 14),
    (1, 2), (12, 15), (13, 14), (12, 11), (13, 11)]

/-- `next_state[state][tms]`. -/
def nextState (state : JtagState) (tms : Bool) : JtagState :=
  let row := nextStateTable.getD (all.idxOf state) (0, 0)
  all.getD (if tms then row.2 else row.1) testLogicReset

theorem nextState_eq (state : JtagState) (tms : Bool) : state.nextState tms = state.advance tms := by
  cases state <;> cases tms <;> rfl

def isShift (state : JtagState) : Bool :=
  state == shiftDr || state == shiftIr

def isExit1 (state : JtagState) : Bool :=
  state == exit1Dr || state == exit1Ir

def isExit (state : JtagState) : Bool :=
  state == exit1Dr || state == exit2Dr || state == exit1Ir || state == exit2Ir

def isIr (state : JtagState) : Bool :=
  state == captureIr || state == updateIr || state == pauseIr || state == shiftIr ||
    state == exit1Ir || state == exit2Ir

end JtagState

/-- The pins at a rising edge of TCK. -/
structure JtagEdge where
  samplenum : Nat
  tms : Bool
  tdi : Bool
  tdo : Bool

/-- Which of the two data lines. -/
inductive JtagLine
  | tdi
  | tdo
  deriving DecidableEq

inductive JtagOut
  /-- The annotation of a state. -/
  | state (ss es : Nat) (state : JtagState)
  | newState (ss es : Nat) (state : JtagState)
  | bit (ss es : Nat) (line : JtagLine) (value : Bool)
  /-- The annotation of a bit string, with its hexadecimal value and length. -/
  | bitstring (ss es : Nat) (line : JtagLine) (ir : Bool) (value count : Nat)
  /-- The packet of a bit string: the bits, the last one first, with where they are. -/
  | packet (ss es : Nat) (line : JtagLine) (ir : Bool) (bits : List Bool)
      (samples : List (Nat × Option Nat))

/-- `jtag_s`, without the items that are only written. -/
structure JtagC where
  state : JtagState
  bitsTdi : List Bool
  bitsTdo : List Bool
  bitsSs : List Nat
  bitsCnt : Nat
  ssBitstring : Nat
  ssItem : Nat
  first : Bool
  firstShiftBit : Bool
  dataReady : Bool
  ssState : Nat
  lastBitTdi : Bool
  lastBitTdo : Bool
  lastBitSs : Nat
  outs : List JtagOut

namespace JtagC

/-- `jtag_reset` and `jtag_start`. -/
def start : JtagC :=
  { state := .runTestIdle
    bitsTdi := List.replicate 256 false
    bitsTdo := List.replicate 256 false
    bitsSs := List.replicate 256 0
    bitsCnt := 0
    ssBitstring := 0
    ssItem := 0
    first := true
    firstShiftBit := false
    dataReady := false
    ssState := 0
    lastBitTdi := false
    lastBitTdo := false
    lastBitSs := 0
    outs := [] }

def put (s : JtagC) (outs : List JtagOut) : JtagC :=
  { s with outs := s.outs ++ outs }

def enterShift (s : JtagC) (newstate : JtagState) : JtagC :=
  if newstate.isShift ∧ ¬s.state.isShift then { s with firstShiftBit := true } else s

def collect (s : JtagC) (newstate : JtagState) (edge : JtagEdge) : JtagC :=
  if s.firstShiftBit then
    { s with
      firstShiftBit := false
      ssBitstring := edge.samplenum
      ssItem := edge.samplenum }
  else
    let s :=
      if s.bitsCnt < 256 then
        { s with
          bitsTdi := s.bitsTdi.set s.bitsCnt edge.tdi
          bitsTdo := s.bitsTdo.set s.bitsCnt edge.tdo
          bitsSs := s.bitsSs.set s.bitsCnt edge.samplenum }
      else s
    let s :=
      if newstate.isExit1 then
        { s with
          lastBitTdi := edge.tdi
          lastBitTdo := edge.tdo
          lastBitSs := edge.samplenum }
      else
        s.put [.bit s.ssItem edge.samplenum .tdi edge.tdi, .bit s.ssItem edge.samplenum .tdo edge.tdo]
    { s with ssItem := edge.samplenum, bitsCnt := s.bitsCnt + 1, dataReady := true }

/-- The number that `cnt` collected bits are displayed as. -/
def hexValue (shifts : CShifts) (bits : List Bool) (cnt : Nat) : BitVec 64 :=
  (List.range cnt).foldl
    (fun value i => value ||| shifts.long ((BitVec.ofBool (bits.getD i false)).setWidth 64) i) 0

def bitSamples (bitsSs : List Nat) (cnt samplenum : Nat) : List (Nat × Option Nat) :=
  (List.range cnt).map fun i =>
    let bitIdx := cnt - 1 - i
    (bitsSs.getD bitIdx 0,
      some (if bitIdx = cnt - 1 then samplenum else bitsSs.getD (bitIdx + 1) 0))

/-- The bit string of a line, as a string of `cnt` characters. -/
def bitstring (bits : List Bool) (cnt : Nat) : List Bool :=
  (List.range cnt).map fun i => bits.getD (cnt - 1 - i) false

/-- The bit strings go out. -/
def putStrings (shifts : CShifts) (s : JtagC) (ir : Bool) (samplenum : Nat) : JtagC :=
  let cnt := if s.bitsCnt > 256 then 256 else s.bitsCnt
  let samples := bitSamples s.bitsSs cnt samplenum
  { s.put
      [.bitstring s.ssBitstring samplenum .tdi ir (hexValue shifts s.bitsTdi cnt).toNat cnt,
        .bitstring s.ssBitstring samplenum .tdo ir (hexValue shifts s.bitsTdo cnt).toNat cnt,
        .packet s.ssBitstring samplenum .tdi ir (bitstring s.bitsTdi cnt) samples,
        .packet s.ssBitstring samplenum .tdo ir (bitstring s.bitsTdo cnt) samples,
        .bit s.lastBitSs samplenum .tdi s.lastBitTdi,
        .bit s.lastBitSs samplenum .tdo s.lastBitTdo] with
    bitsCnt := 0
    first := true
    dataReady := false }

def leaveExit (shifts : CShifts) (s : JtagC) (samplenum : Nat) : JtagC :=
  if s.dataReady ∧ 0 < s.bitsCnt then s.putStrings shifts s.state.isIr samplenum else s

def putState (s : JtagC) (newstate : JtagState) (samplenum : Nat) : JtagC :=
  if s.first then { s with first := false }
  else s.put [.state s.ssState samplenum s.state, .newState s.ssState samplenum newstate]

def shiftEdge (s : JtagC) (newstate : JtagState) (edge : JtagEdge) : JtagC :=
  if s.state.isShift then s.collect newstate edge else s

def exitEdge (shifts : CShifts) (s : JtagC) (newstate : JtagState) (samplenum : Nat) : JtagC :=
  if s.state.isExit ∧ newstate ≠ s.state then s.leaveExit shifts samplenum else s

def enterState (s : JtagC) (newstate : JtagState) (samplenum : Nat) : JtagC :=
  { s with ssState := samplenum, state := newstate }

/-- The body of the loop of `jtag_decode`. -/
def decodeEdge (shifts : CShifts) (s : JtagC) (edge : JtagEdge) : JtagC :=
  let newstate := s.state.nextState edge.tms
  let s := (s.enterShift newstate).shiftEdge newstate edge
  ((s.exitEdge shifts newstate edge.samplenum).putState newstate edge.samplenum).enterState newstate
    edge.samplenum

end JtagC

structure JtagPy where
  state : JtagState
  oldstate : JtagState
  bitsTdi : List Bool
  bitsTdo : List Bool
  bitsSamplenumsTdi : List (Nat × Option Nat)
  bitsSamplenumsTdo : List (Nat × Option Nat)
  ssItem : Nat
  esItem : Nat
  ssBitstring : Nat
  esBitstring : Nat
  first : Bool
  bitsCnt : Nat
  dataReady : Bool
  outs : List JtagOut

namespace JtagPy

def reset : JtagPy :=
  { state := .runTestIdle
    oldstate := .runTestIdle
    bitsTdi := []
    bitsTdo := []
    bitsSamplenumsTdi := []
    bitsSamplenumsTdo := []
    ssItem := 0
    esItem := 0
    ssBitstring := 0
    esBitstring := 0
    first := true
    bitsCnt := 0
    dataReady := false
    outs := [] }

def put (s : JtagPy) (outs : List JtagOut) : JtagPy :=
  { s with outs := s.outs ++ outs }

/-- The bits of the last edge go out. -/
def putBits (s : JtagPy) : JtagPy :=
  s.put [.bit s.ssItem s.esItem .tdi (s.bitsTdi.headD false),
    .bit s.ssItem s.esItem .tdo (s.bitsTdo.headD false)]

/-- The newest entry of a list ends at `samplenum`. -/
def endNewest (samples : List (Nat × Option Nat)) (samplenum : Nat) : List (Nat × Option Nat) :=
  samples.modifyHead fun sample => (sample.1, some samplenum)

def insertBits (s : JtagPy) (edge : JtagEdge) : JtagPy :=
  { s with bitsTdi := edge.tdi :: s.bitsTdi, bitsTdo := edge.tdo :: s.bitsTdo }

def insertSamples (s : JtagPy) (samplenum : Nat) : JtagPy :=
  { s with
    bitsSamplenumsTdi := (samplenum, none) :: s.bitsSamplenumsTdi
    bitsSamplenumsTdo := (samplenum, none) :: s.bitsSamplenumsTdo }

def endSamples (s : JtagPy) (samplenum : Nat) : JtagPy :=
  { s with
    bitsSamplenumsTdi := endNewest s.bitsSamplenumsTdi samplenum
    bitsSamplenumsTdo := endNewest s.bitsSamplenumsTdo samplenum }

def inShift (s : JtagPy) (edge : JtagEdge) : JtagPy :=
  let s :=
    if 0 < s.bitsCnt then
      let s := if s.bitsCnt = 1 then { s with ssBitstring := edge.samplenum } else s
      let s := if 1 < s.bitsCnt then s.putBits.endSamples edge.samplenum else s
      s.insertBits edge
    else s
  let s := s.insertSamples edge.samplenum
  { s with bitsCnt := s.bitsCnt + 1 }

/-- The TAP has just left Shift-DR or Shift-IR for Exit1. -/
def leaveShift (s : JtagPy) (edge : JtagEdge) : JtagPy :=
  let s :=
    if 0 < s.bitsCnt then
      let s :=
        if s.bitsCnt = 1 then { s with ssBitstring := edge.samplenum }
        else s.putBits.endSamples edge.samplenum
      { (s.insertBits edge).insertSamples edge.samplenum with dataReady := true }
    else s
  { s with bitsCnt := 0 }

/-- `int('0b' + b, 2)`. -/
def binary (bits : List Bool) : Nat :=
  packMsb bits

/-- What was shifted goes out; the name is that of the state the TAP is in now. -/
def putStrings (s : JtagPy) (samplenum : Nat) : JtagPy :=
  let s := { s with dataReady := false, esBitstring := samplenum }
  let ir := s.state.isIr
  let s := s.put [.bitstring s.ssBitstring s.esBitstring .tdi ir (binary s.bitsTdi)
    s.bitsTdi.length]
  let s := { s with bitsSamplenumsTdi := endNewest s.bitsSamplenumsTdi samplenum }
  let s := s.put [.packet s.ssBitstring s.esBitstring .tdi ir s.bitsTdi s.bitsSamplenumsTdi,
    .bit s.ssItem s.esItem .tdi (s.bitsTdi.headD false)]
  let s := { s with bitsTdi := [], bitsSamplenumsTdi := [] }
  let s := s.put [.bitstring s.ssBitstring s.esBitstring .tdo ir (binary s.bitsTdo)
    s.bitsTdo.length]
  let s := { s with bitsSamplenumsTdo := endNewest s.bitsSamplenumsTdo samplenum }
  let s := s.put [.packet s.ssBitstring s.esBitstring .tdo ir s.bitsTdo s.bitsSamplenumsTdo,
    .bit s.ssItem s.esItem .tdo (s.bitsTdo.headD false)]
  { s with bitsTdo := [], bitsSamplenumsTdo := [] }

def putState (s : JtagPy) (samplenum : Nat) : JtagPy :=
  if s.first then { s with ssItem := samplenum, first := false }
  else
    { s.put [.state s.ssItem samplenum s.oldstate, .newState s.ssItem samplenum s.state] with
      esItem := samplenum }

def advanceStateMachine (s : JtagPy) (tms : Bool) : JtagPy :=
  { s with oldstate := s.state, state := s.state.advance tms }

def collect (s : JtagPy) (edge : JtagEdge) : JtagPy :=
  if s.state.isShift then s.inShift edge else s

def endShift (s : JtagPy) (edge : JtagEdge) : JtagPy :=
  if s.oldstate.isShift ∧ s.state.isExit1 then s.leaveShift edge else s

def endExit (s : JtagPy) (samplenum : Nat) : JtagPy :=
  if s.oldstate.isExit ∧ s.dataReady then s.putStrings samplenum else s

def saveItem (s : JtagPy) (samplenum : Nat) : JtagPy :=
  { s with ssItem := samplenum }

def handleRisingTckEdge (s : JtagPy) (edge : JtagEdge) : JtagPy :=
  ((((s.advanceStateMachine edge.tms).putState edge.samplenum).collect edge).endShift edge).endExit
    edge.samplenum |>.saveItem edge.samplenum

end JtagPy

/-- The bits of a visit to a shift state, and where the TAP leaves Exit1 behind it. -/
structure JtagScan where
  es : Nat
  ir : Bool
  bits : List (Bool × Bool)
  deriving DecidableEq

def jtagScans : JtagState → List (Bool × Bool) → List JtagEdge → List JtagScan
  | _, _, [] => []
  | state, bits, edge :: edges =>
      if state.isShift then
        jtagScans (state.advance edge.tms) (bits ++ [(edge.tdi, edge.tdo)]) edges
      else if state.isExit1 ∧ bits ≠ [] then
        ⟨edge.samplenum, state.isIr, bits⟩ :: jtagScans (state.advance edge.tms) [] edges
      else jtagScans (state.advance edge.tms) bits edges

/-- The states of the TAP: where each begins and what it was before. -/
def jtagStates : JtagState → List JtagEdge → List (Nat × JtagState × JtagState)
  | _, [] => []
  | state, edge :: edges =>
      (edge.samplenum, state, state.advance edge.tms) :: jtagStates (state.advance edge.tms) edges

def JtagScan.displayed (scan : JtagScan) : List (Nat × JtagLine × Bool × Nat × Nat) :=
  [(scan.es, .tdi, scan.ir, packLsb (scan.bits.map Prod.fst), scan.bits.length),
    (scan.es, .tdo, scan.ir, packLsb (scan.bits.map Prod.snd), scan.bits.length)]

def JtagScan.strings (scan : JtagScan) : List (Nat × JtagLine × Bool × List Bool) :=
  [(scan.es, .tdi, scan.ir, (scan.bits.map Prod.fst).reverse),
    (scan.es, .tdo, scan.ir, (scan.bits.map Prod.snd).reverse)]

def JtagOut.stateAt : JtagOut → Option (Nat × JtagState)
  | .state _ es old => some (es, old)
  | _ => none

def JtagOut.newStateAt : JtagOut → Option (Nat × JtagState)
  | .newState _ es next => some (es, next)
  | _ => none

def JtagOut.displayedAt : JtagOut → Option (Nat × JtagLine × Bool × Nat × Nat)
  | .bitstring _ es line ir value count => some (es, line, ir, value, count)
  | _ => none

def JtagOut.stringAt : JtagOut → Option (Nat × JtagLine × Bool × List Bool)
  | .packet _ es line ir bits _ => some (es, line, ir, bits)
  | _ => none

/-- The states and the bit strings among some outputs. -/
@[ext] structure JtagView where
  states : List (Nat × JtagState)
  newStates : List (Nat × JtagState)
  displayed : List (Nat × JtagLine × Bool × Nat × Nat)
  strings : List (Nat × JtagLine × Bool × List Bool)
  deriving DecidableEq

def jtagView (outs : List JtagOut) : JtagView :=
  ⟨outs.filterMap JtagOut.stateAt, outs.filterMap JtagOut.newStateAt,
    outs.filterMap JtagOut.displayedAt, outs.filterMap JtagOut.stringAt⟩

def jtagExpected (edges : List JtagEdge) : JtagView :=
  let states := (jtagStates .runTestIdle edges).drop 1
  let scans := jtagScans .runTestIdle [] edges
  ⟨states.map fun state => (state.1, state.2.1), states.map fun state => (state.1, state.2.2),
    scans.flatMap JtagScan.displayed, scans.flatMap JtagScan.strings⟩

end SigrokDecode
