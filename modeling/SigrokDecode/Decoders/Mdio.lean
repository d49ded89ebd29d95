import SigrokDecode.Foundation.BitFields
import SigrokDecode.Foundation.SampleScan

/-!
# The MDIO decoder

`mdio_c` takes the bits of a frame at the rising edges of MDC, and the data that a PHY sends
at the falling edges if the option says so.
-/

set_option linter.dupNamespace false

namespace SigrokDecode

open Foundation

inductive MdioPhase where
  | pre
  | st
  | op
  | prtad
  | devad
  | ta
  | data
  deriving DecidableEq

/-- The operations as they are printed. -/
inductive MdioOp where
  | addr
  | write
  | readInc
  | read
  deriving DecidableEq

inductive MdioError where
  | illegalBus
  | shortPreamble
  | opInvalid
  | taInvalid (bits : Nat)

/-- The annotation with everything that a frame says; the protocol output holds the same. -/
structure MdioDecoded where
  clause45 : Bool
  clause45Addr : Option Nat
  isRead : Bool
  portad : Nat
  devad : Nat
  data : Nat
  error : Bool

/-- What the decoder puts out between two samples. -/
inductive MdioOut where
  | bitVal (ss es : Nat) (bit : Bool)
  | bitNum (ss es : Nat) (num : Int)
  | idle (ss es count : Nat)
  | pre (ss es len : Nat)
  | st (ss es : Nat) (clause45 : Bool)
  | op (ss es : Nat) (op : MdioOp)
  | portad (ss es : Nat) (clause45 : Bool) (portad : Nat)
  | devad (ss es : Nat) (clause45 : Bool) (devad : Nat)
  | ta (ss es : Nat)
  | data (ss es data : Nat)
  | error (ss es : Nat) (error : MdioError)
  | decode (ss es : Nat) (decoded : MdioDecoded)
  | proto (ss es : Nat) (decoded : MdioDecoded)

/-- The options `show_debug_bits` and `read_edge`. -/
structure MdioOptions where
  showDebugBits : Bool
  readEdgeFalling : Bool

/-- What has been read of a frame; `none` is the -1 of the source. -/
structure MdioFields where
  state : MdioPhase
  opcode : Option Nat
  clause45 : Bool
  portad : Option Nat
  portadBits : Nat
  devad : Option Nat
  devadBits : Nat
  data : Option Nat
  dataBits : Nat
  taInvalid : Nat
  taFirstBit : Bool
  opInvalid : Bool
  isRead : Bool
  preambleLen : Nat

/-- Where the parts of a frame begin. -/
structure MdioTimes where
  bitcount : Int
  ssFrame : Nat
  ssFrameField : Nat
  headMdio : Bool
  headSs : Nat
  cycleLengths : List Nat
  ssPreambleFirst : Nat
  /-- The newest one first. -/
  sampleHist : List Nat
  prevSamplenum : Nat
  ssIllegal : Nat

structure MdioState where
  fields : MdioFields
  times : MdioTimes
  clause45Addr : Option Nat
  illegalBus : Bool
  outs : List MdioOut

/-- `(uint64_t)-1` -/
def noSample : Nat := 2 ^ 64 - 1

def mdioResetFields : MdioFields :=
  { state := .pre
    opcode := none
    clause45 := false
    portad := none
    portadBits := 5
    devad := none
    devadBits := 5
    data := none
    dataBits := 16
    taInvalid := 0
    taFirstBit := true
    opInvalid := false
    isRead := true
    preambleLen := 0 }

def mdioGetSampleHist (t : MdioTimes) (back : Nat) : Nat :=
  t.sampleHist.getD back 0

def mdioQuartileCycleLength (t : MdioTimes) : Nat :=
  if t.cycleLengths = [] then
    1
  else
    max 1 ((t.cycleLengths.mergeSort (· ≤ ·)).getD (t.cycleLengths.length / 4) 1)

namespace MdioState

def put (s : MdioState) (out : MdioOut) : MdioState :=
  { s with outs := s.outs ++ [out] }

def mdioResetState (s : MdioState) : MdioState :=
  { s with
    fields := mdioResetFields
    times := { s.times with
      bitcount := -1
      ssFrame := noSample
      ssFrameField := noSample
      cycleLengths := []
      ssPreambleFirst := 0
      sampleHist := [] } }

def start : MdioState :=
  { fields := mdioResetFields
    times :=
      { bitcount := -1
        ssFrame := noSample
        ssFrameField := noSample
        headMdio := false
        headSs := 0
        cycleLengths := []
        ssPreambleFirst := 0
        sampleHist := []
        prevSamplenum := 0
        ssIllegal := 0 }
    clause45Addr := none
    illegalBus := false
    outs := [] }

def mdioPutbit (options : MdioOptions) (s : MdioState) (bit : Bool) (ss es : Nat) : MdioState :=
  if options.showDebugBits then
    (s.put (.bitVal ss es bit)).put (.bitNum ss es (s.times.bitcount - 1))
  else
    s.put (.bitVal ss es bit)

def putField (s : MdioState) (out : Nat → Nat → MdioOut) : MdioState :=
  s.put (out s.times.ssFrameField s.times.prevSamplenum)

def beginField (s : MdioState) (samplenum : Nat) : MdioState :=
  { s with times := { s.times with ssFrameField := samplenum } }

/-- The annotation and the protocol output of a frame. -/
def decoded (s : MdioState) (data : Nat) : MdioDecoded :=
  { clause45 := s.fields.clause45
    clause45Addr := s.clause45Addr
    isRead := if s.fields.clause45 then 1 < s.fields.opcode.getD 0 else s.fields.opcode.getD 0 ≠ 0
    portad := s.fields.portad.getD 0
    devad := s.fields.devad.getD 0
    data
    error := s.fields.taInvalid ≠ 0 ∨ s.fields.opInvalid }

def keepAddr (s : MdioState) (data : Nat) : MdioState :=
  if s.fields.clause45 ∧ s.fields.opcode = some 0 then
    { s with clause45Addr := some data }
  else
    s

def putDecoded (s : MdioState) (data es : Nat) : MdioState :=
  if 0 < s.fields.opcode.getD 0 ∨ s.fields.clause45 = false then
    (s.put (.decode s.times.ssFrame es (s.decoded data))).put
      (.proto s.times.ssFrame es (s.decoded data))
  else
    s

def incrementAddr (s : MdioState) : MdioState :=
  if s.fields.clause45 ∧ s.fields.opcode = some 2 then
    { s with clause45Addr := s.clause45Addr.map (· + 1) }
  else
    s

def mdioPutdata (s : MdioState) (data es : Nat) : MdioState :=
  (((s.put (.data s.times.ssFrameField es data)).keepAddr data).putDecoded data es).incrementAddr

def leaveIllegalBus (s : MdioState) (samplenum : Nat) : MdioState :=
  if s.illegalBus then
    { s.put (.error s.times.ssIllegal samplenum .illegalBus) with
      illegalBus := false
      times := { s.times with ssFrame := samplenum } }
  else
    s

def beginFrame (s : MdioState) (samplenum : Nat) : MdioState :=
  if s.times.ssFrame = noSample then
    { s with times := { s.times with ssFrame := samplenum } }
  else
    s

def countPreamble (s : MdioState) (samplenum : Nat) : MdioState :=
  { s with
    fields := { s.fields with preambleLen := s.fields.preambleLen + 1 }
    times := if s.fields.preambleLen = 0 then { s.times with ssPreambleFirst := samplenum }
      else s.times }

def cutIdle (s : MdioState) : MdioState :=
  if 10000 + 32 ≤ s.fields.preambleLen then
    { s.put (.idle s.times.ssFrame (mdioGetSampleHist s.times 32) (s.fields.preambleLen - 32)) with
      fields := { s.fields with preambleLen := 32 }
      times := { s.times with ssFrame := mdioGetSampleHist s.times 32 } }
  else
    s

/-- Where the preamble began, and what is wrong with it or was in front of it. -/
def judgePreamble (s : MdioState) (samplenum : Nat) : MdioState :=
  if s.fields.preambleLen < 32 then
    { s.put (.error s.times.ssPreambleFirst samplenum .shortPreamble) with
      times := { s.times with ssFrame := s.times.ssPreambleFirst } }
  else if 32 < s.fields.preambleLen then
    { s.put (.idle s.times.ssPreambleFirst (mdioGetSampleHist s.times 32)
        (s.fields.preambleLen - 32)) with
      fields := { s.fields with preambleLen := 32 }
      times := { s.times with ssFrame := mdioGetSampleHist s.times 32 } }
  else
    { s with times := { s.times with ssFrame := mdioGetSampleHist s.times 32 } }

def endPreamble (s : MdioState) (samplenum : Nat) : MdioState :=
  let s := s.judgePreamble samplenum
  let s := s.put (.pre s.times.ssFrame samplenum s.fields.preambleLen)
  { s.beginField samplenum with fields := { s.fields with state := .st } }

def enterIllegalBus (s : MdioState) : MdioState :=
  { s with
    illegalBus := true
    times := { s.times with ssIllegal := s.times.ssFrame } }

def mdioStatePre (s : MdioState) (bit : Bool) (samplenum : Nat) : MdioState :=
  if s.illegalBus ∧ bit = false then
    s
  else
    let s := (s.leaveIllegalBus samplenum).beginFrame samplenum
    let s := if bit then s.countPreamble samplenum else s
    if 16 < s.fields.preambleLen then
      if bit then s.cutIdle else s.cutIdle.endPreamble samplenum
    else
      if bit then s else s.enterIllegalBus

def mdioStateSt (s : MdioState) (bit : Bool) : MdioState :=
  { s with fields := { s.fields with
    clause45 := if bit then s.fields.clause45 else true
    state := .op } }

def mdioStateOp (s : MdioState) (bit : Bool) (samplenum : Nat) : MdioState :=
  match s.fields.opcode with
  | none =>
      let s := s.putField fun ss es => .st ss es s.fields.clause45
      { s.beginField samplenum with fields := { s.fields with
        opcode := some (if bit then 2 else 0) } }
  | some opcode =>
      if s.fields.clause45 then
        { s with fields := { s.fields with
          opcode := some (opcode + bit.toNat)
          state := .prtad } }
      else
        { s with fields := { s.fields with
          opInvalid := s.fields.opInvalid || bit.toNat == opcode
          state := .prtad } }

/-- The name of an operation, and whether the PHY sends the data; an address leaves that as it
was. -/
def operation (s : MdioState) : MdioOp × Bool :=
  if s.fields.clause45 then
    match s.fields.opcode.getD 0 with
    | 0 => (.addr, s.fields.isRead)
    | 1 => (.write, false)
    | 2 => (.readInc, true)
    | _ => (.read, true)
  else if s.fields.opcode.getD 0 ≠ 0 then
    (.read, true)
  else
    (.write, false)

def putOperation (s : MdioState) (samplenum : Nat) : MdioState :=
  let t := s.putField fun ss es => .op ss es s.operation.1
  let t := if s.fields.opInvalid then t.putField fun ss es => .error ss es .opInvalid else t
  { t.beginField samplenum with fields := { s.fields with
    portad := some 0
    isRead := s.operation.2 } }

def mdioStatePrtad (s : MdioState) (bit : Bool) (samplenum : Nat) : MdioState :=
  let s := if s.fields.portad = none then s.putOperation samplenum else s
  { s with fields := { s.fields with
    portad := s.fields.portad.map (· ||| bit.toNat <<< (s.fields.portadBits - 1))
    portadBits := s.fields.portadBits - 1
    state := if s.fields.portadBits - 1 = 0 then .devad else s.fields.state } }

def putPortad (s : MdioState) (samplenum : Nat) : MdioState :=
  let t := s.putField fun ss es => .portad ss es s.fields.clause45 (s.fields.portad.getD 0)
  { t.beginField samplenum with fields := { s.fields with devad := some 0 } }

def mdioStateDevad (s : MdioState) (bit : Bool) (samplenum : Nat) : MdioState :=
  let s := if s.fields.devad = none then s.putPortad samplenum else s
  { s with fields := { s.fields with
    devad := s.fields.devad.map (· ||| bit.toNat <<< (s.fields.devadBits - 1))
    devadBits := s.fields.devadBits - 1
    state := if s.fields.devadBits - 1 = 0 then .ta else s.fields.state } }

/-- The station drives the first turnaround bit, unless the PHY sends the data. -/
def stationTurns (s : MdioState) : Bool :=
  if s.fields.clause45 then s.fields.opcode.getD 0 < 2 else s.fields.opcode.getD 0 = 0

def mdioStateTa (s : MdioState) (bit : Bool) (samplenum : Nat) : MdioState :=
  if s.fields.taFirstBit then
    let t := s.putField fun ss es => .devad ss es s.fields.clause45 (s.fields.devad.getD 0)
    { t.beginField samplenum with fields := { s.fields with
      taFirstBit := false
      taInvalid := if bit = false ∧ s.stationTurns then 1 else s.fields.taInvalid } }
  else
    { s with fields := { s.fields with
      taInvalid :=
        if bit then (if s.fields.taInvalid ≠ 0 then 3 else 2) else s.fields.taInvalid
      state := .data } }

def putTurnaround (s : MdioState) (samplenum : Nat) : MdioState :=
  let t := s.putField fun ss es => .ta ss es
  let t := if s.fields.taInvalid ≠ 0 then
    t.putField fun ss es => .error ss es (.taInvalid s.fields.taInvalid) else t
  { t.beginField samplenum with fields := { s.fields with data := some 0 } }

def endFrame (options : MdioOptions) (s : MdioState) : MdioState :=
  let es := s.times.headSs + mdioQuartileCycleLength s.times
  let s := { s with times := { s.times with bitcount := s.times.bitcount + 1 } }
  ((s.mdioPutbit options s.times.headMdio s.times.headSs es).mdioPutdata
    (s.fields.data.getD 0) es).mdioResetState

def mdioStateData (options : MdioOptions) (s : MdioState) (bit : Bool) (samplenum : Nat) :
    MdioState :=
  let s := if s.fields.data = none then s.putTurnaround samplenum else s
  let s := { s with fields := { s.fields with
    data := s.fields.data.map (· ||| bit.toNat <<< (s.fields.dataBits - 1))
    dataBits := s.fields.dataBits - 1 } }
  if s.fields.dataBits = 0 then s.endFrame options else s

def noteBit (options : MdioOptions) (s : MdioState) (bit : Bool) (samplenum : Nat) : MdioState :=
  let t := if 0 ≤ s.times.bitcount then
    s.mdioPutbit options s.times.headMdio s.times.headSs samplenum else s
  { t with times := { s.times with
    sampleHist := (samplenum :: s.times.sampleHist).take 33
    cycleLengths := if 0 < s.times.bitcount ∧ s.times.cycleLengths.length < 48 then
      s.times.cycleLengths ++ [samplenum - s.times.headSs] else s.times.cycleLengths
    headMdio := bit
    headSs := samplenum
    bitcount := s.times.bitcount + 1
    prevSamplenum := samplenum } }

def dispatch (options : MdioOptions) (s : MdioState) (bit : Bool) (samplenum : Nat) : MdioState :=
  match s.fields.state with
  | .pre => s.mdioStatePre bit samplenum
  | .st => s.mdioStateSt bit
  | .op => s.mdioStateOp bit samplenum
  | .prtad => s.mdioStatePrtad bit samplenum
  | .devad => s.mdioStateDevad bit samplenum
  | .ta => s.mdioStateTa bit samplenum
  | .data => s.mdioStateData options bit samplenum

def mdioHandleBit (options : MdioOptions) (s : MdioState) (bit : Bool) (samplenum : Nat) :
    MdioState :=
  (s.noteBit options bit samplenum).dispatch options bit samplenum

/-- The edge that the loop of `mdio_decode` waits for behind a bit. -/
def useFalling (options : MdioOptions) (s : MdioState) : Bool :=
  s.fields.state == .data && s.fields.isRead && options.readEdgeFalling

end MdioState

/-- The two lines. -/
structure MdioPins where
  mdc : Bool
  mdio : Bool

def mdioDecode (options : MdioOptions) : SampleDecoder MdioState MdioPins where
  wakes s old new :=
    if s.useFalling options then old.mdc && !new.mdc else !old.mdc && new.mdc
  handle s _ new samplenum := s.mdioHandleBit options new.mdio samplenum

end SigrokDecode
