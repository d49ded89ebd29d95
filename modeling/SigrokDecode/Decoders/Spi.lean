import SigrokDecode.Foundation.SampleScan
import SigrokDecode.Foundation.ShiftRegister

/-!
# The two SPI decoders

`spi_c` waits for both edges of the clock, `spi_fast_c` for the sampling edge alone.
-/

set_option linter.dupNamespace false

namespace SigrokDecode

open Foundation

structure SpiPins where
  clk : Bool
  miso : Bool
  mosi : Bool
  cs : Bool

/-- The options and the channels; both decoders replace other word sizes. -/
structure SpiConfig where
  cpol : Bool
  cpha : Bool
  wordsize : Nat
  msbFirst : Bool
  csActiveHigh : Bool
  haveMiso : Bool
  haveMosi : Bool
  haveCs : Bool
  valid : 1 ≤ wordsize ∧ wordsize ≤ 64

structure SpiBit where
  value : Bool
  ss : Nat
  es : Nat

/-- The register of a data line and its bits.  The array of the bits is not cleared between two
words. -/
structure SpiLine where
  data : BitVec 64
  bits : List SpiBit

inductive SpiProto
  | csChange (old new : Option Bool)
  | bits (mosi miso : Option (List SpiBit))
  | data (mosi miso : Option (BitVec 64))
  | transfer (mosi miso : List (BitVec 64))

inductive SpiField
  | misoData (word : BitVec 64)
  | mosiData (word : BitVec 64)
  | misoBit (value : Bool)
  | mosiBit (value : Bool)
  | warning
  | misoTransfer (words : List (BitVec 64))
  | mosiTransfer (words : List (BitVec 64))

/-- A report with its samples. -/
structure SpiOut (Content : Type) where
  ss : Nat
  es : Nat
  content : Content

abbrev SpiBinary := Nat × List (BitVec 8)

def spiMaxTransferBytes : Nat := 256

namespace SpiConfig

/-- `spi_cs_asserted` and `spi_fast_cs_asserted`. -/
def csAsserted (config : SpiConfig) (cs : Bool) : Bool :=
  cs == config.csActiveHigh

def mode (config : SpiConfig) : Nat :=
  match config.cpol, config.cpha with
  | false, false => 0
  | false, true => 1
  | true, false => 2
  | true, true => 3

def sampleEdgeRise (config : SpiConfig) : Bool :=
  decide (config.mode = 0) || decide (config.mode = 3)

def correctEdge (config : SpiConfig) (clk : Bool) : Bool :=
  ((decide (config.mode = 0) || decide (config.mode = 3)) && clk) ||
    ((decide (config.mode = 1) || decide (config.mode = 2)) && !clk)

def clkEdge (old new : SpiPins) : Bool :=
  old.clk != new.clk

def csEdge (config : SpiConfig) (old new : SpiPins) : Bool :=
  config.haveCs && (old.cs != new.cs)

/-- The edge that `spi_fast_decode` waits for. -/
def sampleEdge (config : SpiConfig) (old new : SpiPins) : Bool :=
  if config.sampleEdgeRise then !old.clk && new.clk else old.clk && !new.clk

/-- Is the device selected? -/
def selected (config : SpiConfig) (pins : SpiPins) : Bool :=
  !config.haveCs || config.csAsserted pins.cs

/-- `bw` bytes, the highest one first. -/
def wordBytes (config : SpiConfig) (data : BitVec 64) : List (BitVec 8) :=
  (List.range ((config.wordsize + 7) / 8)).map fun i =>
    (data >>> (8 * ((config.wordsize + 7) / 8 - 1 - i))).setWidth 8

end SpiConfig

namespace SpiLine

def reset : SpiLine :=
  { data := 0
    bits := List.replicate 64 ⟨false, 0, 0⟩ }

/-- The bit before ends here, the new one begins. -/
def storeBit (line : SpiLine) (bitcount samplenum : Nat) (value : Bool) : List SpiBit :=
  (if 0 < bitcount then
    line.bits.modify (bitcount - 1) fun bit => { bit with es := samplenum }
  else
    line.bits).set bitcount ⟨value, samplenum, samplenum⟩

/-- `spi_c` puts a bit at its place. -/
def receive (config : SpiConfig) (line : SpiLine) (bitcount samplenum : Nat) (value : Bool) :
    SpiLine :=
  { data :=
      if config.msbFirst then placeMsb config.wordsize line.data bitcount value
      else line.data ||| (BitVec.ofBool value).setWidth 64 <<< bitcount
    bits := line.storeBit bitcount samplenum value }

/-- `spi_fast_c` shifts the most significant bits in. -/
def receiveFast (config : SpiConfig) (line : SpiLine) (bitcount samplenum : Nat) (value : Bool) :
    SpiLine :=
  { data :=
      if config.msbFirst then shiftIn line.data value
      else line.data ||| (BitVec.ofBool value).setWidth 64 <<< bitcount
    bits := line.storeBit bitcount samplenum value }

def wordBits (config : SpiConfig) (line : SpiLine) : List SpiBit :=
  line.bits.take config.wordsize

def span (config : SpiConfig) (line : SpiLine) : Nat × Nat :=
  ((line.bits[0]?).elim 0 SpiBit.ss, (line.bits[config.wordsize - 1]?).elim 0 SpiBit.es)

end SpiLine

namespace SpiConfig

def wordSpan (config : SpiConfig) (ss es : Nat) (mosi miso : SpiLine) : Nat × Nat :=
  if config.haveMosi then mosi.span config
  else if config.haveMiso then miso.span config
  else (ss, es)

def wordProtos (config : SpiConfig) (span : Nat × Nat) (mosi miso : SpiLine) :
    List (SpiOut SpiProto) :=
  [⟨span.1, span.2, .bits (if config.haveMosi then some (mosi.wordBits config) else none)
      (if config.haveMiso then some (miso.wordBits config) else none)⟩,
    ⟨span.1, span.2, .data (if config.haveMosi then some mosi.data else none)
      (if config.haveMiso then some miso.data else none)⟩]

def wordBinary (config : SpiConfig) (mosi miso : SpiLine) : List (SpiOut SpiBinary) :=
  (if config.haveMiso then
    [⟨(miso.span config).1, (miso.span config).2, (0, config.wordBytes miso.data)⟩]
  else
    []) ++
  (if config.haveMosi then
    [⟨(mosi.span config).1, (mosi.span config).2, (1, config.wordBytes mosi.data)⟩]
  else
    [])

/-- The bits, which `spi_c` alone reports. -/
def bitFields (config : SpiConfig) (mosi miso : SpiLine) : List (SpiOut SpiField) :=
  (if config.haveMiso then
    (miso.wordBits config).map fun bit => ⟨bit.ss, bit.es, .misoBit bit.value⟩
  else
    []) ++
  (if config.haveMosi then
    (mosi.wordBits config).map fun bit => ⟨bit.ss, bit.es, .mosiBit bit.value⟩
  else
    [])

def wordFields (config : SpiConfig) (span : Nat × Nat) (mosi miso : SpiLine) :
    List (SpiOut SpiField) :=
  (if config.haveMiso then [⟨span.1, span.2, .misoData miso.data⟩] else []) ++
    (if config.haveMosi then [⟨span.1, span.2, .mosiData mosi.data⟩] else [])

def addTransfer (present : Bool) (words : List (BitVec 64)) (data : BitVec 64) : List (BitVec 64) :=
  if present && decide (words.length < spiMaxTransferBytes) then words ++ [data] else words

end SpiConfig

/-- The state of `spi_c`; without CS it first waits for a clock edge. -/
structure SpiState where
  firstWait : Bool
  bitcount : Nat
  mosi : SpiLine
  miso : SpiLine
  ssBlock : Nat
  ssTransfer : Option Nat
  csWasDeasserted : Bool
  misobytes : List (BitVec 64)
  mosibytes : List (BitVec 64)
  /-- History: what went out. -/
  protos : List (SpiOut SpiProto)
  fields : List (SpiOut SpiField)
  binary : List (SpiOut SpiBinary)

namespace SpiState

variable (config : SpiConfig)

def reset : SpiState :=
  { firstWait := false
    bitcount := 0
    mosi := SpiLine.reset
    miso := SpiLine.reset
    ssBlock := 0
    ssTransfer := none
    csWasDeasserted := false
    misobytes := []
    mosibytes := []
    protos := []
    fields := []
    binary := [] }

def proto (s : SpiState) (ss es : Nat) (proto : SpiProto) : SpiState :=
  { s with protos := s.protos ++ [⟨ss, es, proto⟩] }

def resetWord (s : SpiState) : SpiState :=
  { s with
    bitcount := 0
    mosi := { s.mosi with data := 0 }
    miso := { s.miso with data := 0 } }

def startTransfer (s : SpiState) (samplenum : Nat) : SpiState :=
  { s with
    ssTransfer := some samplenum
    misobytes := []
    mosibytes := [] }

def putTransfer (s : SpiState) (ss samplenum : Nat) : SpiState :=
  { s with
    fields := s.fields ++
      (if config.haveMiso then [⟨ss, samplenum, .misoTransfer s.misobytes⟩] else []) ++
      (if config.haveMosi then [⟨ss, samplenum, .mosiTransfer s.mosibytes⟩] else [])
    protos := s.protos ++
      [⟨ss, samplenum, .transfer (if config.haveMosi then s.mosibytes else [])
        (if config.haveMiso then s.misobytes else [])⟩] }

/-- What `spi_decode` does in front of its loop; `pins` are those of sample 0. -/
def start (pins : SpiPins) : SpiState :=
  if config.haveCs then
    let s := reset.proto 0 0 (.csChange none (some pins.cs))
    (if config.csAsserted pins.cs then s.startTransfer 0 else s).resetWord
  else
    { reset.proto 0 0 (.csChange none none) with firstWait := true }

def csChange (s : SpiState) (cs : Bool) (samplenum : Nat) : SpiState :=
  let s := s.proto samplenum samplenum (.csChange (some !cs) (some cs))
  (if config.csAsserted cs then
    s.startTransfer samplenum
  else
    match s.ssTransfer with
    | some ss => s.putTransfer config ss samplenum
    | none => s).resetWord

/-- `spi_put_data`; the end is 0 when there is no data line. -/
def putData (s : SpiState) : SpiState :=
  let span := config.wordSpan s.ssBlock 0 s.mosi s.miso
  { s with
    binary := s.binary ++ config.wordBinary s.mosi s.miso
    protos := s.protos ++ config.wordProtos span s.mosi s.miso
    misobytes := SpiConfig.addTransfer config.haveMiso s.misobytes s.miso.data
    mosibytes := SpiConfig.addTransfer config.haveMosi s.mosibytes s.mosi.data
    fields := s.fields ++ config.bitFields s.mosi s.miso ++
      config.wordFields span s.mosi s.miso }

def putWarning (s : SpiState) (samplenum : Nat) : SpiState :=
  if config.haveCs && s.csWasDeasserted then
    { s with fields := s.fields ++ [⟨s.ssBlock, samplenum, .warning⟩] }
  else
    s

def receiveBit (s : SpiState) (pins : SpiPins) (samplenum : Nat) : SpiState :=
  { s with
    ssBlock := if s.bitcount = 0 then samplenum else s.ssBlock
    csWasDeasserted :=
      if s.bitcount = 0 then config.haveCs && !config.csAsserted pins.cs else s.csWasDeasserted
    miso :=
      if config.haveMiso then s.miso.receive config s.bitcount samplenum pins.miso else s.miso
    mosi :=
      if config.haveMosi then s.mosi.receive config s.bitcount samplenum pins.mosi else s.mosi
    bitcount := s.bitcount + 1 }

def handleBit (s : SpiState) (pins : SpiPins) (samplenum : Nat) : SpiState :=
  let s := s.receiveBit config pins samplenum
  if s.bitcount ≠ config.wordsize then s
  else (putWarning config (s.putData config) samplenum).resetWord

/-- The loop of `spi_decode`. -/
def handle (s : SpiState) (old new : SpiPins) (samplenum : Nat) : SpiState :=
  let s := if config.csEdge old new then s.csChange config new.cs samplenum else s
  if config.selected new && SpiConfig.clkEdge old new && config.correctEdge new.clk then
    s.handleBit config new samplenum
  else
    s

end SpiState

def spiDecode (config : SpiConfig) : SampleDecoder SpiState SpiPins :=
  { wakes := fun s old new =>
      SpiConfig.clkEdge old new || (!s.firstWait && config.csEdge old new)
    handle := fun s old new samplenum =>
      if s.firstWait then { s with firstWait := false } else s.handle config old new samplenum }

structure SpiFastState where
  csActive : Bool
  bitCount : Nat
  mosi : SpiLine
  miso : SpiLine
  startSample : Nat
  lastBitSample : Nat
  transferStart : Option Nat
  csWasDeasserted : Bool
  misobytes : List (BitVec 64)
  mosibytes : List (BitVec 64)
  /-- History: what went out. -/
  protos : List (SpiOut SpiProto)
  fields : List (SpiOut SpiField)
  binary : List (SpiOut SpiBinary)

namespace SpiFastState

variable (config : SpiConfig)

def reset : SpiFastState :=
  { csActive := false
    bitCount := 0
    mosi := SpiLine.reset
    miso := SpiLine.reset
    startSample := 0
    lastBitSample := 0
    transferStart := none
    csWasDeasserted := false
    misobytes := []
    mosibytes := []
    protos := []
    fields := []
    binary := [] }

def proto (s : SpiFastState) (ss es : Nat) (proto : SpiProto) : SpiFastState :=
  { s with protos := s.protos ++ [⟨ss, es, proto⟩] }

def resetWord (s : SpiFastState) : SpiFastState :=
  { s with
    bitCount := 0
    mosi := { s.mosi with data := 0 }
    miso := { s.miso with data := 0 } }

def startTransfer (s : SpiFastState) (samplenum : Nat) : SpiFastState :=
  { s with
    transferStart := some samplenum
    misobytes := []
    mosibytes := [] }

def putTransfer (s : SpiFastState) (ss samplenum : Nat) : SpiFastState :=
  { s with
    fields := s.fields ++
      (if config.haveMiso then [⟨ss, samplenum, .misoTransfer s.misobytes⟩] else []) ++
      (if config.haveMosi then [⟨ss, samplenum, .mosiTransfer s.mosibytes⟩] else [])
    protos := s.protos ++ [⟨ss, samplenum, .transfer [] []⟩] }

/-- What `spi_fast_decode` does in front of its loop; `pins` are those of sample 0. -/
def start (pins : SpiPins) : SpiFastState :=
  if config.haveCs then
    let s := { reset with csActive := config.csAsserted pins.cs }
    let s := s.proto 0 0 (.csChange none (some pins.cs))
    if s.csActive then s.startTransfer 0 else s
  else
    reset.proto 0 0 (.csChange none none)

def csChange (s : SpiFastState) (cs : Bool) (samplenum : Nat) : SpiFastState :=
  let s := s.proto samplenum samplenum (.csChange (some !cs) (some cs))
  (if s.csActive then
    s.startTransfer samplenum
  else
    match s.transferStart with
    | some ss => s.putTransfer config ss samplenum
    | none => s).resetWord

def putData (s : SpiFastState) : SpiFastState :=
  let span := config.wordSpan s.startSample s.lastBitSample s.mosi s.miso
  { s with
    binary := s.binary ++ config.wordBinary s.mosi s.miso
    protos := s.protos ++ config.wordProtos span s.mosi s.miso
    misobytes := SpiConfig.addTransfer config.haveMiso s.misobytes s.miso.data
    mosibytes := SpiConfig.addTransfer config.haveMosi s.mosibytes s.mosi.data
    fields := s.fields ++ config.wordFields span s.mosi s.miso }

def receiveBit (s : SpiFastState) (pins : SpiPins) (samplenum : Nat) : SpiFastState :=
  { s with
    startSample := if s.bitCount = 0 then samplenum else s.startSample
    csWasDeasserted :=
      if s.bitCount = 0 then config.haveCs && !config.csAsserted pins.cs else s.csWasDeasserted
    lastBitSample := samplenum
    mosi :=
      if config.haveMosi then s.mosi.receiveFast config s.bitCount samplenum pins.mosi
      else s.mosi
    miso :=
      if config.haveMiso then s.miso.receiveFast config s.bitCount samplenum pins.miso
      else s.miso
    bitCount := s.bitCount + 1 }

def handleBit (s : SpiFastState) (pins : SpiPins) (samplenum : Nat) : SpiFastState :=
  let s := s.receiveBit config pins samplenum
  if s.bitCount ≠ config.wordsize then s else (s.putData config).resetWord

/-- The loop of `spi_fast_decode`. -/
def handle (s : SpiFastState) (old new : SpiPins) (samplenum : Nat) : SpiFastState :=
  let s := { s with csActive := config.selected new }
  let s := if config.csEdge old new then s.csChange config new.cs samplenum else s
  if s.csActive && config.sampleEdge old new && config.correctEdge new.clk then
    s.handleBit config new samplenum
  else
    s

end SpiFastState

def spiFastDecode (config : SpiConfig) : SampleDecoder SpiFastState SpiPins :=
  { wakes := fun _ old new => config.sampleEdge old new || config.csEdge old new
    handle := fun s old new samplenum => s.handle config old new samplenum }

end SigrokDecode
