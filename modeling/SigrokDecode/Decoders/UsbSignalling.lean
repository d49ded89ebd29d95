import Mathlib.Data.List.Basic

/-!
# The USB signalling decoder

`usb_signalling_c`: symbols from the two lines, bits from the symbols.  Where the
decoder looks at the lines follows from bit widths in floating point; the sample
numbers that it computes from them come with each wake-up.
-/

namespace SigrokDecode

inductive UsbSym
  | j
  | k
  | se0
  | se1
  | fsJ
  | lsJ
  deriving DecidableEq

/-- `enum usb_state`. -/
inductive UsbSigPhase
  | idle
  | getBit
  | getEop
  | waitIdle
  deriving DecidableEq

/-- `enum usb_signalling_mode`. -/
inductive UsbSignalling
  | auto
  | fullSpeed
  | lowSpeed
  | lowSpeedRp
  deriving DecidableEq

/-- What goes out to stacked decoders. -/
inductive UsbSigProto
  | sop
  | bit (value : Bool)
  | stuffBit
  | sym (symbol : UsbSym)
  | eop
  | err
  | reset
  | keepAlive
  deriving DecidableEq

/-- The annotation classes with the values that their texts show. -/
inductive UsbSigField
  | sym (symbol : UsbSym)
  | sop
  | eop
  | bit (value : Bool)
  | stuffBit
  | bitStuffError
  | eopError
  | keepAlive
  | reset

structure UsbSigAnn where
  ss : Nat
  es : Nat
  field : UsbSigField

structure UsbSigOut where
  ss : Nat
  es : Nat
  proto : UsbSigProto

/-- `usb_s` without the numbers in floating point. -/
structure UsbSigState where
  /-- The option `signalling`. -/
  option : UsbSignalling
  state : UsbSigPhase
  signalling : UsbSignalling
  oldsym : UsbSym
  samplenumEdge : Nat
  samplenumLastedge : Nat
  consecutiveOnes : Nat
  bits : List Bool
  ssBlock : Nat
  /-- History: what went out. -/
  anns : List UsbSigAnn
  outs : List UsbSigOut

/-- What the decoder has at a wake-up: where it is, the two lines, and what
`set_new_target` makes of `samplenum_edge`. -/
structure UsbWake where
  samplenum : Nat
  nextEdge : Nat
  dp : Bool
  dm : Bool

def getSymbol (mode : UsbSignalling) (dp dm : Bool) : UsbSym :=
  if dp = false ∧ dm = false then
    .se0
  else if dp = true ∧ dm = true then
    .se1
  else
    match mode with
    | .lowSpeed => if dp then .k else .j
    | .lowSpeedRp => if dp then .k else .j
    | .fullSpeed => if dp then .j else .k
    | .auto => if dp then .fsJ else .lsJ

def symIsJ (symbol : UsbSym) (mode : UsbSignalling) : Bool :=
  symbol = .j ∧ mode ≠ .auto

def symIsK (symbol : UsbSym) (mode : UsbSignalling) : Bool :=
  symbol = .k ∧ mode ≠ .auto

/-- `get_sym_name`, as a symbol. -/
def getSymName : UsbSym → UsbSym
  | .fsJ => .j
  | .lsJ => .j
  | symbol => symbol

/-- The sixteen bits of a synchronisation and a `PRE`. -/
def preambleSeen : List Bool :=
  [false, false, false, false, false, false, false, true,
    false, false, true, true, true, true, false, false]

namespace UsbSigState

def put (s : UsbSigState) (ss es : Nat) (field : UsbSigField) : UsbSigState :=
  { s with anns := s.anns ++ [{ ss, es, field }] }

def proto (s : UsbSigState) (ss es : Nat) (proto : UsbSigProto) : UsbSigState :=
  { s with outs := s.outs ++ [{ ss, es, proto }] }

/-- An annotation and an output over the same samples. -/
def report (s : UsbSigState) (ss es : Nat) (field : UsbSigField) (proto : UsbSigProto) :
    UsbSigState :=
  (s.put ss es field).proto ss es proto

def putSym (s : UsbSigState) (symbol : UsbSym) : UsbSigState :=
  s.report s.samplenumLastedge s.samplenumEdge (.sym (getSymName symbol)) (.sym (getSymName symbol))

def setNewTarget (s : UsbSigState) (nextEdge : Nat) : UsbSigState :=
  { s with
    samplenumLastedge := s.samplenumEdge
    samplenumEdge := nextEdge }

def waitForSop (s : UsbSigState) (symbol : UsbSym) (nextEdge : Nat) : UsbSigState :=
  if symIsK symbol s.signalling = false ∨ symIsJ s.oldsym s.signalling = false then
    s
  else
    let s := { s with
      consecutiveOnes := 0
      bits := [] }
    let s := s.setNewTarget nextEdge
    { s.report s.samplenumEdge s.samplenumEdge .sop .sop with state := .getBit }

def handleBit (s : UsbSigState) (b : Bool) : UsbSigState :=
  if s.consecutiveOnes = 6 then
    if b = false then
      { s.report s.samplenumLastedge s.samplenumEdge .stuffBit .stuffBit with
        consecutiveOnes := 0 }
    else
      { s.report s.samplenumLastedge s.samplenumEdge .bitStuffError .err with state := .idle }
  else
    { s.report s.samplenumLastedge s.samplenumEdge (.bit b) (.bit b) with
      consecutiveOnes := if b then s.consecutiveOnes + 1 else 0 }

/-- The part of `usb_get_bit` that looks for a `PRE`. -/
def seePreamble (s : UsbSigState) (b : Bool) : UsbSigState :=
  let s := if s.bits.length < 16 then { s with bits := s.bits ++ [b] } else s
  if s.bits = preambleSeen then
    { s.proto s.samplenumEdge s.samplenumEdge .eop with
      signalling := .lowSpeedRp
      oldsym := .j
      state := .idle }
  else
    s

def getBit (s : UsbSigState) (symbol : UsbSym) (nextEdge : Nat) : UsbSigState :=
  let s := s.setNewTarget nextEdge
  let b : Bool := s.oldsym = symbol
  let s := { s with oldsym := symbol }
  if symbol = .se0 then
    ({ s with
      state := .getEop
      ssBlock := s.samplenumLastedge } : UsbSigState).putSym symbol
  else
    let s := (s.handleBit b).putSym symbol
    if s.state = .idle then s else s.seePreamble b

def getEop (s : UsbSigState) (symbol : UsbSym) (nextEdge : Nat) : UsbSigState :=
  let s := (s.setNewTarget nextEdge).putSym symbol
  let s := { s with oldsym := symbol }
  if symbol = .se0 then
    s
  else if symIsJ symbol s.signalling then
    { s.report s.ssBlock s.samplenumEdge .eop .eop with state := .waitIdle }
  else
    { s.report s.ssBlock s.samplenumEdge .eopError .err with state := .idle }

/-- `usb_handle_idle`; the two tests of the length of an `SE0` are in floating point. -/
def handleIdle (s : UsbSigState) (samplenum : Nat) (symbol : UsbSym)
    (isReset isKeepAlive : Nat → Bool) : UsbSigState :=
  let s := { s with samplenumEdge := samplenum }
  let low := samplenum - s.samplenumLastedge
  let s :=
    if isReset low then
      { s.report s.samplenumLastedge s.samplenumEdge .reset .reset with signalling := s.option }
    else if isKeepAlive low ∧ s.signalling = .lowSpeed then
      s.report s.samplenumLastedge s.samplenumEdge .keepAlive .keepAlive
    else
      s
  { s with
    signalling :=
      if s.option = .auto then
        if symbol = .fsJ then .fullSpeed else if symbol = .lsJ then .lowSpeed else .auto
      else
        s.option
    oldsym := .j
    state := .idle }

/-- The state `STATE_IDLE` behind an edge. -/
def idleEdge (s : UsbSigState) (wake : UsbWake) : UsbSigState :=
  let symbol := getSymbol s.signalling wake.dp wake.dm
  if symbol = .se0 then
    { s with
      samplenumLastedge := wake.samplenum
      state := .waitIdle }
  else
    s.waitForSop symbol wake.nextEdge

/-- The state `STATE_WAIT_IDLE` when one of the lines is high. -/
def leaveLow (s : UsbSigState) (wake : UsbWake) (isReset isKeepAlive : Nat → Bool) : UsbSigState :=
  if 1 < wake.samplenum - s.samplenumLastedge then
    s.handleIdle wake.samplenum (getSymbol .auto wake.dp wake.dm) isReset isKeepAlive
  else
    s.waitForSop (getSymbol s.signalling wake.dp wake.dm) wake.nextEdge

/-- One turn of the loop in `usb_decode`. -/
def wake (isReset isKeepAlive : Nat → Bool) (s : UsbSigState) (wake : UsbWake) : UsbSigState :=
  match s.state with
  | .idle => s.idleEdge wake
  | .getBit => s.getBit (getSymbol s.signalling wake.dp wake.dm) wake.nextEdge
  | .getEop => s.getEop (getSymbol s.signalling wake.dp wake.dm) wake.nextEdge
  | .waitIdle =>
      if wake.dp = false ∧ wake.dm = false then s else s.leaveLow wake isReset isKeepAlive

end UsbSigState

end SigrokDecode
