import SigrokDecode.Foundation.Crc

/-!
# The HDLC decoder

`hdlc_c`: flags, aborts and bytes from the bits at one edge of a clock.
-/

namespace SigrokDecode

open Foundation

structure HdlcSample where
  clk : Bool
  data : Bool
  en : Bool

/-- The options, and whether there is an enable signal. -/
structure HdlcConfig where
  haveEn : Bool
  enActiveHigh : Bool
  cpol : Bool

/-- A byte with its first and its last sample. -/
structure HdlcByte where
  ss : Nat
  es : Nat
  val : BitVec 8

/-- The annotations with the values that their texts show. -/
inductive HdlcField (Byte : Type)
  | rxBit (value : Bool)
  | data (byte : Byte)
  | abort
  | flag
  | transferType
  | crcType
  | badCrc
  | transfer (bytes : List Byte)
  deriving DecidableEq

/-- The Python decoder begins some annotations at `-1`. -/
structure HdlcAnn (Byte : Type) where
  ss : Int
  es : Int
  field : HdlcField Byte

/-- What goes out under `TRANSFER`. -/
structure HdlcTransfer where
  ss : Nat
  es : Nat
  bytes : List HdlcByte

/-- A byte for `c_put_bin`. -/
structure HdlcBinary where
  ss : Nat
  es : Nat
  byte : BitVec 8

def hdlcCrc16 (data : List (BitVec 8)) : BitVec 16 :=
  crcLoop 0x8408#16 0xFFFF#16 data ^^^ 0xFFFF#16

/-- The two bytes of a received check, the lower one first. -/
def hdlcRxCrc (low high : BitVec 8) : BitVec 16 :=
  high.setWidth 16 <<< 8 ||| low.setWidth 16

/-- `hdlc_s`; of `ss_bits` only the first entry is read, and `rxbytes_cnt` is the length of
the list. -/
structure HdlcState where
  config : HdlcConfig
  bitcount : Nat
  rxdata : BitVec 8
  ssByte : Nat
  oneCount : Nat
  flagFound : Bool
  rxbytes : List HdlcByte
  /-- `none` for `-1`. -/
  ssPrevClock : Option Nat
  prevBit : Bool
  ssFlagStart : Nat
  pendingFlag : Bool
  pendingAbort : Bool
  ssPendingStart : Nat
  /-- History: what went out. -/
  anns : List (HdlcAnn (BitVec 8))
  transfers : List HdlcTransfer
  binary : List HdlcBinary

def hdlcMaxBytes : Nat := 1024

namespace HdlcState

/-- `hdlc_reset`: every field is zero, the clock position too. -/
def reset (config : HdlcConfig) : HdlcState :=
  { config
    bitcount := 0
    rxdata := 0
    ssByte := 0
    oneCount := 0
    flagFound := false
    rxbytes := []
    ssPrevClock := some 0
    prevBit := false
    ssFlagStart := 0
    pendingFlag := false
    pendingAbort := false
    ssPendingStart := 0
    anns := []
    transfers := []
    binary := [] }

def resetState (s : HdlcState) : HdlcState :=
  { s with
    bitcount := 0
    rxdata := 0
    oneCount := 0
    flagFound := false
    ssPrevClock := none
    prevBit := false
    ssFlagStart := 0
    rxbytes := []
    pendingFlag := false
    pendingAbort := false
    ssPendingStart := 0 }

def put (s : HdlcState) (ss es : Nat) (field : HdlcField (BitVec 8)) : HdlcState :=
  { s with anns := s.anns ++ [{ ss, es, field }] }

def firstSs (s : HdlcState) : Nat :=
  (s.rxbytes.head?.map HdlcByte.ss).getD 0

/-- The byte `back` places in front of the end. -/
def fromEnd (s : HdlcState) (back : Nat) : HdlcByte :=
  s.rxbytes.getD (s.rxbytes.length - back) ⟨0, 0, 0⟩

def received (s : HdlcState) : List HdlcByte :=
  s.rxbytes.take (s.rxbytes.length - 2)

/-- The check in `hdlc_putt`. -/
def crcGood (s : HdlcState) : Bool :=
  hdlcCrc16 (s.received.map HdlcByte.val) = hdlcRxCrc (s.fromEnd 2).val (s.fromEnd 1).val

def send (s : HdlcState) : HdlcState :=
  { s with
    transfers := s.transfers ++ [{ ss := s.firstSs, es := (s.fromEnd 2).es, bytes := s.received }]
    binary := s.binary ++ s.received.map fun byte =>
      { ss := byte.ss, es := byte.ss, byte := byte.val } }

def judge (s : HdlcState) : HdlcState :=
  if s.crcGood then s.send else s.put s.firstSs (s.fromEnd 1).es .badCrc

/-- `hdlc_putt`; the text of the last annotation has room for every byte that the buffer can
hold. -/
def putt (s : HdlcState) : HdlcState :=
  if s.rxbytes.length ≤ 4 then
    s
  else
    let s := s.put s.firstSs (s.fromEnd 2).ss .transferType
    let s := s.put (s.fromEnd 2).ss (s.fromEnd 1).es .crcType
    let s := s.judge
    s.put s.firstSs (s.fromEnd 1).es (.transfer (s.received.map HdlcByte.val))

def showBit (s : HdlcState) (data : Bool) (samplenum : Nat) : HdlcState :=
  let s := match s.ssPrevClock with
    | none => s
    | some ss => s.put ss samplenum (.rxBit s.prevBit)
  { s with
    ssPrevClock := some samplenum
    prevBit := data }

def pushByte (s : HdlcState) (samplenum : Nat) : HdlcState :=
  if s.rxbytes.length < hdlcMaxBytes then
    { s with rxbytes := s.rxbytes ++ [{ ss := s.ssByte, es := samplenum, val := s.rxdata }] }
  else
    s

def finishByte (s : HdlcState) (samplenum : Nat) : HdlcState :=
  if s.bitcount = 8 then
    { (s.put s.ssByte samplenum (.data s.rxdata)).pushByte samplenum with
      rxdata := 0
      bitcount := 0 }
  else
    s

def showAbort (s : HdlcState) (samplenum : Nat) : HdlcState :=
  if s.pendingAbort then
    { s.put s.ssPendingStart samplenum .abort with pendingAbort := false }
  else
    s

def showFlag (s : HdlcState) (samplenum : Nat) : HdlcState :=
  if s.pendingFlag then
    { ({ s.put s.ssPendingStart samplenum .flag with
        pendingFlag := false } : HdlcState).putt with rxbytes := [] }
  else
    s

def shiftBit (s : HdlcState) (data : Bool) (samplenum : Nat) : HdlcState :=
  if s.flagFound then
    { s with
      ssByte := if s.bitcount = 0 then samplenum else s.ssByte
      rxdata := s.rxdata ||| (BitVec.ofBool data).setWidth 8 <<< s.bitcount
      bitcount := s.bitcount + 1 }
  else
    s

def foundFlag (s : HdlcState) : HdlcState :=
  { s with
    flagFound := true
    pendingFlag := true
    ssPendingStart := s.ssFlagStart
    rxdata := 0
    bitcount := 0 }

def foundAbort (s : HdlcState) : HdlcState :=
  { s with
    pendingAbort := true
    ssPendingStart := s.ssFlagStart
    flagFound := false
    rxdata := 0
    bitcount := 0
    rxbytes := [] }

def countOne (s : HdlcState) (samplenum : Nat) : HdlcState :=
  let s := if s.oneCount < 5 then s.shiftBit true samplenum else s
  { s with oneCount := s.oneCount + 1 }

def countZero (s : HdlcState) (samplenum : Nat) : HdlcState :=
  let s :=
    if s.oneCount = 6 then
      s.foundFlag
    else if 6 < s.oneCount then
      s.foundAbort
    else if s.oneCount < 5 then
      s.shiftBit false samplenum
    else
      s
  { s with
    oneCount := 0
    ssFlagStart := samplenum }

def handleBit (s : HdlcState) (data : Bool) (samplenum : Nat) : HdlcState :=
  let s := s.showBit data samplenum
  let s := s.finishByte samplenum
  let s := s.showAbort samplenum
  let s := s.showFlag samplenum
  if data then s.countOne samplenum else s.countZero samplenum

def enAsserted (config : HdlcConfig) (en : Bool) : Bool :=
  if config.enActiveHigh then en else !en

/-- One sample: `c_wait` comes back at an edge of the clock, and of the enable signal if there
is one. -/
def sample (s : HdlcState) (previous current : HdlcSample) (samplenum : Nat) : HdlcState :=
  let clkEdge : Bool := previous.clk ≠ current.clk
  let enEdge : Bool := previous.en ≠ current.en
  if ¬(clkEdge ∨ s.config.haveEn ∧ enEdge) then
    s
  else if s.config.haveEn ∧ enAsserted s.config current.en = false then
    s.resetState
  else if s.config.haveEn ∧ clkEdge = false then
    s
  else if s.config.cpol ≠ current.clk then
    s
  else
    s.handleBit current.data samplenum

end HdlcState

/-- A loop over the samples behind the first one, each with the sample before it. -/
def foldSamples {State : Type} (step : State → HdlcSample → HdlcSample → Nat → State) :
    State → HdlcSample → Nat → List HdlcSample → State
  | s, _, _, [] => s
  | s, previous, samplenum, current :: samples =>
      foldSamples step (step s previous current samplenum) current (samplenum + 1) samples

theorem foldSamples_related {First Second : Type} (related : First → Second → Prop)
    {firstStep : First → HdlcSample → HdlcSample → Nat → First}
    {secondStep : Second → HdlcSample → HdlcSample → Nat → Second}
    (steps : ∀ {first second}, related first second → ∀ previous current samplenum,
      related (firstStep first previous current samplenum)
        (secondStep second previous current samplenum))
    {first : First} {second : Second} (start : related first second) (previous : HdlcSample)
    (samplenum : Nat) (samples : List HdlcSample) :
    related (foldSamples firstStep first previous samplenum samples)
      (foldSamples secondStep second previous samplenum samples) := by
  induction samples generalizing first second previous samplenum with
  | nil => exact start
  | cons current samples ih =>
      exact ih (steps start previous current samplenum) current (samplenum + 1)

theorem foldSamples_keeps {State : Type} (invariant : State → Prop)
    {step : State → HdlcSample → HdlcSample → Nat → State}
    (steps : ∀ {s}, invariant s → ∀ previous current samplenum,
      invariant (step s previous current samplenum))
    {s : State} (start : invariant s) (previous : HdlcSample) (samplenum : Nat)
    (samples : List HdlcSample) : invariant (foldSamples step s previous samplenum samples) :=
  @foldSamples_related State State (fun s _ => invariant s) step step
    (fun {_ _} holds previous current samplenum => steps holds previous current samplenum)
    s s start previous samplenum samples

/-- `hdlc_decode`; the first sample is only there to compare the second with. -/
def HdlcState.decode (config : HdlcConfig) (samples : List HdlcSample) : HdlcState :=
  match samples with
  | [] => reset config
  | first :: samples => foldSamples HdlcState.sample (reset config) first 1 samples

end SigrokDecode
