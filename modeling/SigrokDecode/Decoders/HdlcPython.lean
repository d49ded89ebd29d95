import SigrokDecode.Decoders.Hdlc

/-!
# The Python HDLC decoder

`decoders/hdlc`, with numbers as Python has them.
-/

namespace SigrokDecode

/-- An entry of `rxbytes`. -/
structure HdlcPyByte where
  ss : Nat
  es : Nat
  val : Nat

/-- What goes out under `TRANSFER`. -/
structure HdlcPyTransfer where
  ss : Nat
  es : Nat
  transData : List HdlcPyByte

structure HdlcPyBinary where
  ss : Nat
  es : Nat
  byte : Nat

/-- The attributes of `Decoder`. -/
structure HdlcPyState where
  config : HdlcConfig
  bitcount : Nat
  rxdata : Nat
  rxbits : List (Bool × Nat)
  rxbytes : List HdlcPyByte
  prevBit : Option Bool
  ssPrevClock : Int
  ssPrevFalse : Int
  flagFound : Bool
  oneCount : Nat
  prevOneCount : Nat
  abort : Option (Int × Nat)
  flag : Option (Int × Nat)
  /-- History: what went out. -/
  anns : List (HdlcAnn Nat)
  transfers : List HdlcPyTransfer
  binary : List HdlcPyBinary

namespace HdlcPyState

def reset (config : HdlcConfig) : HdlcPyState :=
  { config
    bitcount := 0
    rxdata := 0
    rxbits := []
    rxbytes := []
    prevBit := none
    ssPrevClock := -1
    ssPrevFalse := -1
    flagFound := false
    oneCount := 0
    prevOneCount := 0
    abort := none
    flag := none
    anns := []
    transfers := []
    binary := [] }

def resetState (s : HdlcPyState) : HdlcPyState :=
  { s with
    bitcount := 0
    rxdata := 0
    rxbits := []
    rxbytes := []
    prevBit := none
    ssPrevClock := -1
    ssPrevFalse := -1
    flagFound := false
    oneCount := 0
    abort := none
    flag := none }

def put (s : HdlcPyState) (ss es : Int) (field : HdlcField Nat) : HdlcPyState :=
  { s with anns := s.anns ++ [{ ss, es, field }] }

def crc16 (data : List HdlcPyByte) : Nat :=
  let crc := (data.take (data.length - 2)).foldl
    (fun crc byte =>
      (fun crc => if crc &&& 1 > 0 then (crc >>> 1) ^^^ 0x8408 else crc >>> 1)^[8]
        (crc ^^^ byte.val))
    0xFFFF
  (crc &&& 0xFFFF) ^^^ 0xFFFF

/-- The entry at a negative index. -/
def fromEnd (s : HdlcPyState) (back : Nat) : HdlcPyByte :=
  s.rxbytes.getD (s.rxbytes.length - back) ⟨0, 0, 0⟩

def firstSs (s : HdlcPyState) : Nat :=
  (s.rxbytes.head?.map HdlcPyByte.ss).getD 0

def transData (s : HdlcPyState) : List HdlcPyByte :=
  s.rxbytes.take (s.rxbytes.length - 2)

def rxCrc (s : HdlcPyState) : Nat :=
  ((s.fromEnd 1).val &&& 0xFF) <<< 8 ||| ((s.fromEnd 2).val &&& 0xFF)

def send (s : HdlcPyState) : HdlcPyState :=
  { s with
    transfers := s.transfers ++
      [{ ss := s.firstSs, es := (s.fromEnd 2).ss, transData := s.transData }]
    binary := s.binary ++ s.transData.map fun byte =>
      { ss := byte.ss, es := byte.ss, byte := byte.val } }

def judge (s : HdlcPyState) : HdlcPyState :=
  if crc16 s.rxbytes ≠ s.rxCrc then s.put s.firstSs (s.fromEnd 1).es .badCrc else s.send

def putt (s : HdlcPyState) : HdlcPyState :=
  if 4 < s.rxbytes.length then
    let s := s.put s.firstSs (s.fromEnd 2).ss .transferType
    let s := s.put (s.fromEnd 2).ss (s.fromEnd 1).es .crcType
    let s := s.judge
    s.put s.firstSs (s.fromEnd 1).es (.transfer (s.transData.map HdlcPyByte.val))
  else
    s

def showBit (s : HdlcPyState) (data : Bool) (samplenum : Nat) : HdlcPyState :=
  let s :=
    if s.ssPrevClock ≠ -1 then
      s.put s.ssPrevClock samplenum (.rxBit (s.prevBit.getD false))
    else
      s
  { s with
    ssPrevClock := samplenum
    prevBit := some data }

def ssByte (s : HdlcPyState) : Nat :=
  (s.rxbits.head?.map Prod.snd).getD 0

def finishByte (s : HdlcPyState) (samplenum : Nat) : HdlcPyState :=
  if s.bitcount = 8 then
    { s.put s.ssByte samplenum (.data s.rxdata) with
      rxbytes := s.rxbytes ++ [{ ss := s.ssByte, es := samplenum, val := s.rxdata }]
      rxdata := 0
      bitcount := 0
      rxbits := [] }
  else
    s

def showAbort (s : HdlcPyState) (samplenum : Nat) : HdlcPyState :=
  match s.abort with
  | none => s
  | some abort => { s.put abort.1 samplenum .abort with abort := none }

def showFlag (s : HdlcPyState) (samplenum : Nat) : HdlcPyState :=
  match s.flag with
  | none => s
  | some flag =>
      { ({ s.put flag.1 samplenum .flag with flag := none } : HdlcPyState).putt with
        rxbytes := [] }

def shiftBit (s : HdlcPyState) (data : Bool) (samplenum : Nat) : HdlcPyState :=
  if s.flagFound then
    { s with
      rxdata := s.rxdata ||| data.toNat <<< s.bitcount
      rxbits := s.rxbits ++ [(data, samplenum)]
      bitcount := s.bitcount + 1 }
  else
    s

def foundFlag (s : HdlcPyState) (samplenum : Nat) : HdlcPyState :=
  { s with
    flagFound := true
    flag := some (s.ssPrevFalse, samplenum)
    rxdata := 0
    bitcount := 0
    rxbits := [] }

/-- The bytes stay. -/
def foundAbort (s : HdlcPyState) (samplenum : Nat) : HdlcPyState :=
  { s with
    abort := some (s.ssPrevFalse, samplenum)
    flagFound := false
    rxdata := 0
    bitcount := 0
    rxbits := [] }

def countOne (s : HdlcPyState) (samplenum : Nat) : HdlcPyState :=
  let s := if s.oneCount < 5 then s.shiftBit true samplenum else s
  { s with oneCount := s.oneCount + 1 }

def countZero (s : HdlcPyState) (samplenum : Nat) : HdlcPyState :=
  let s :=
    if s.oneCount = 6 then
      s.foundFlag samplenum
    else if 6 < s.oneCount then
      s.foundAbort samplenum
    else if s.oneCount < 5 then
      s.shiftBit false samplenum
    else
      s
  { s with
    prevOneCount := s.oneCount
    oneCount := 0
    ssPrevFalse := samplenum }

def handleBit (s : HdlcPyState) (data : Bool) (samplenum : Nat) : HdlcPyState :=
  let s := s.showBit data samplenum
  let s := s.finishByte samplenum
  let s := s.showAbort samplenum
  let s := s.showFlag samplenum
  if data then s.countOne samplenum else s.countZero samplenum

def findClkEdge (s : HdlcPyState) (clkMatched : Bool) (current : HdlcSample) (samplenum : Nat)
    (first : Bool) : HdlcPyState :=
  if s.config.haveEn ∧ HdlcState.enAsserted s.config current.en = false then
    s.resetState
  else if first ∨ clkMatched = false then
    s
  else if s.config.cpol ≠ current.clk then
    s
  else
    s.handleBit current.data samplenum

/-- One sample: `wait` comes back at an edge of the clock, and of the enable signal if there is
one. -/
def sample (s : HdlcPyState) (previous current : HdlcSample) (samplenum : Nat) : HdlcPyState :=
  let clkEdge : Bool := previous.clk ≠ current.clk
  let enEdge : Bool := previous.en ≠ current.en
  if ¬(clkEdge ∨ s.config.haveEn ∧ enEdge) then
    s
  else
    s.findClkEdge clkEdge current samplenum false

def decode (config : HdlcConfig) (samples : List HdlcSample) : HdlcPyState :=
  match samples with
  | [] => reset config
  | first :: samples =>
      foldSamples sample ((reset config).findClkEdge false first 0 true) first 1 samples

end HdlcPyState

end SigrokDecode
