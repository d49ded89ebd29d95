import SigrokDecode.Foundation.SampleScan
import SigrokDecode.Foundation.ShiftRegister

/-!
# SpaceWire

`spacewire_c` sees a bit at each edge of the data or the strobe line, and looks at the bits in
front of it before it shifts the new one in.
-/

set_option linter.dupNamespace false

namespace SigrokDecode

open Foundation

structure SpacewirePins where
  data : Bool
  strobe : Bool

inductive SpacewirePhase
  | idle
  | sync
  deriving DecidableEq

/-- The texts of the annotations; a data character is its value. -/
inductive SpacewireText
  | data (bit : Bool)
  | parity (bit : Bool)
  | dcf (bit : Bool)
  | ctrlChar (text : String)
  | dataChar (value : Nat)
  | null
  | time
  | parityError
  deriving DecidableEq

def SpacewireText.isCharacter : SpacewireText → Bool
  | .ctrlChar _ | .dataChar _ | .null | .time => true
  | _ => false

structure SpacewireAnn where
  ss : Nat
  es : Nat
  text : SpacewireText

/-- `spacewire_state`; the sample numbers are the last ones first, at most fifteen of them. -/
structure SpacewireState where
  state : SpacewirePhase
  index : Nat
  charLen : Nat
  lastLen : Nat
  dataVal : BitVec 32
  lastDataVal : BitVec 32
  lastSamplenums : List Nat
  anns : List SpacewireAnn

def charLenControl : Nat := 3

def charLenData : Nat := 9

def fctCode : Nat := 0x1

def eopCode : Nat := 0x5

def eepCode : Nat := 0x3

def escCode : Nat := 0x7

def reverse3 (value : Nat) : Nat :=
  [0, 4, 2, 6, 1, 5, 3, 7].getD value 0

/-- `reverse3[val & PACKET_MASK_CONTROL]` -/
def controlCharOf (val : BitVec 32) : Nat :=
  reverse3 (val &&& 0b111).toNat

def controlCharText (controlChar value : Nat) : String :=
  if controlChar = fctCode then "FCT"
  else if controlChar = escCode then "ESC"
  else if controlChar = eepCode then "EEP"
  else if controlChar = eopCode then "EOP"
  else toString controlChar ++ " " ++ toString value

namespace SpacewireState

def reverseBits (val n : Nat) : Nat :=
  (List.range n).foldl (fun result i => result ||| ((val >>> i) &&& 1) <<< (n - 1 - i)) 0

def reset : SpacewireState :=
  { state := .idle
    index := 0
    charLen := charLenControl
    lastLen := 0
    dataVal := 0
    lastDataVal := 0
    lastSamplenums := []
    anns := [] }

def snInsert (s : SpacewireState) (samplenum : Nat) : SpacewireState :=
  { s with lastSamplenums := (samplenum :: s.lastSamplenums).take 15 }

def snGet (s : SpacewireState) (idx : Nat) : Nat :=
  s.lastSamplenums.getD idx 0

/-- `spacewire_put` from one of the last sample numbers to another. -/
def put (s : SpacewireState) (first last : Nat) (text : SpacewireText) : SpacewireState :=
  { s with anns := s.anns ++ [⟨s.snGet first, s.snGet last, text⟩] }

/-- The annotations of the data bits, from this one down. -/
def putBits (s : SpacewireState) (count : Nat) : SpacewireState :=
  (List.range count).reverse.foldl (fun s i => s.put (i + 1) i (.data (s.dataVal.getLsbD i))) s

/-- What `spacewire_decode` does in `STATE_IDLE`. -/
def searchNull (s : SpacewireState) : SpacewireState :=
  if s.dataVal &&& 0b1111111 = 0b1110100 then
    let s := s.put (7 + 1) 7 (.parity (s.dataVal.getLsbD 7))
    let s := s.putBits 7
    let s := s.put (7 + 1) 0 .null
    { s with
      state := .sync
      lastLen := charLenControl
      index := 0 }
  else
    s

/-- The odd parity of the character in front of the control flag, and of the flag. -/
def parity (s : SpacewireState) : Bool :=
  let parity := (List.range (s.lastLen - 1)).foldl
    (fun parity i => parity ^^ s.lastDataVal.getLsbD i) false
  let parity := parity ^^ s.dataVal.getLsbD 0
  parity ^^ true

def checkParity (s : SpacewireState) : SpacewireState :=
  let s := s.put 2 1 (.parity (s.dataVal.getLsbD 1))
  if s.parity ≠ s.dataVal.getLsbD 1 then s.put 2 1 .parityError else s

def readFlag (s : SpacewireState) : SpacewireState :=
  let s := { s with
    charLen := if s.dataVal.getLsbD 0 then charLenControl else charLenData }
  let s := s.put 1 0 (.dcf (s.dataVal.getLsbD 0))
  let s := s.checkParity
  { s with index := s.index + 1 }

def putControl (s : SpacewireState) : SpacewireState :=
  let controlChar := controlCharOf s.dataVal
  let s := s.put (s.charLen + 1) 0
    (.ctrlChar (controlCharText controlChar (s.dataVal &&& 0b111).toNat))
  if s.lastLen = charLenControl then
    if controlCharOf s.lastDataVal = escCode ∧ controlChar = fctCode then
      s.put (charLenControl * 2 + 2) 0 .null
    else
      s
  else
    s

def putData (s : SpacewireState) : SpacewireState :=
  let s := s.put (s.charLen + 1) 0
    (.dataChar (reverseBits (s.dataVal &&& 0xff).toNat 8))
  if s.lastLen = charLenControl then
    if controlCharOf s.lastDataVal = escCode then
      s.put (charLenControl + s.charLen + 2) 0 .time
    else
      s
  else
    s

def complete (s : SpacewireState) : SpacewireState :=
  let s := s.putBits (s.charLen - 1)
  let s :=
    if s.charLen = charLenControl then s.putControl
    else if s.charLen = charLenData then s.putData
    else s
  { s with
    lastLen := s.charLen
    lastDataVal := s.dataVal
    index := 0 }

/-- What `spacewire_decode` does in `STATE_SYNC`. -/
def followChar (s : SpacewireState) : SpacewireState :=
  if s.index = 1 then s.readFlag
  else if s.index = s.charLen then s.complete
  else { s with index := s.index + 1 }

def examine (s : SpacewireState) : SpacewireState :=
  match s.state with
  | .idle => s.searchNull
  | .sync => s.followChar

/-- The body of the loop of `spacewire_decode`. -/
def handleEdge (s : SpacewireState) (samplenum : Nat) (data : Bool) : SpacewireState :=
  let s := (s.snInsert samplenum).examine
  { s with dataVal := shiftIn s.dataVal data }

def texts (s : SpacewireState) : List SpacewireText :=
  s.anns.map SpacewireAnn.text

end SpacewireState

def spacewireDecode : SampleDecoder SpacewireState SpacewirePins :=
  { wakes := fun _ old new => old.data != new.data || old.strobe != new.strobe
    handle := fun s _ new samplenum => s.handleEdge samplenum new.data }

/-- A null is an escape and a flow control token, a time code an escape and a data character. -/
inductive SpacewireChar
  | data (byte : BitVec 8)
  | fct
  | eop
  | eep
  | esc
  deriving DecidableEq

namespace SpacewireChar

def flag : SpacewireChar → Bool
  | .data _ => false
  | _ => true

/-- The bits behind the flag, in the order in which they are sent. -/
def payload : SpacewireChar → List Bool
  | .data byte => lsbBits 8 byte.toNat
  | .fct => [false, false]
  | .eop => [false, true]
  | .eep => [true, false]
  | .esc => [true, true]

def parityBit (before char : SpacewireChar) : Bool :=
  !(before.payload.foldr (fun bit parity => parity ^^ bit) false ^^ char.flag)

/-- The bits of characters behind `before`; those that are marked have a wrong parity bit. -/
def sentBits : SpacewireChar → List (SpacewireChar × Bool) → List Bool
  | _, [] => []
  | before, (char, wrong) :: chars =>
      (before.parityBit char ^^ wrong) :: char.flag :: char.payload ++ sentBits char chars

def text : SpacewireChar → SpacewireText
  | .data byte => .dataChar byte.toNat
  | .fct => .ctrlChar "FCT"
  | .eop => .ctrlChar "EOP"
  | .eep => .ctrlChar "EEP"
  | .esc => .ctrlChar "ESC"

def code (before char : SpacewireChar) : List SpacewireText :=
  if before = .esc then
    match char with
    | .fct => [.null]
    | .data _ => [.time]
    | _ => []
  else
    []

def report (before char : SpacewireChar) (parity : Bool) : List SpacewireText :=
  [SpacewireText.dcf char.flag, .parity parity] ++
    (if parity = before.parityBit char then [] else [SpacewireText.parityError]) ++
    char.payload.map SpacewireText.data ++ char.text :: before.code char

def expected : SpacewireChar → List (SpacewireChar × Bool) → List SpacewireText
  | _, [] => []
  | before, (char, wrong) :: chars =>
      before.report char (before.parityBit char ^^ wrong) ++ expected char chars

end SpacewireChar

/-- A null; nothing is in front of the first one that its first parity bit could cover. -/
def nullBits (parity : Bool) : List Bool :=
  parity :: SpacewireChar.esc.flag :: SpacewireChar.esc.payload ++
    SpacewireChar.sentBits .esc [(.fct, false)]

def nullTexts (parity : Bool) : List SpacewireText :=
  .parity parity :: ((nullBits parity).drop 1).map .data ++ [SpacewireText.null]

namespace SpacewirePins

/-- Exactly one of the lines changes. -/
def send (pins : SpacewirePins) (bit : Bool) : SpacewirePins :=
  ⟨bit, if bit = pins.data then !pins.strobe else pins.strobe⟩

end SpacewirePins

inductive SpacewireLine : SpacewirePins → List Bool → List SpacewirePins → Prop
  | done (pins : SpacewirePins) : SpacewireLine pins [] []
  | still {pins : SpacewirePins} {bits : List Bool} {samples : List SpacewirePins}
      (behind : SpacewireLine pins bits samples) : SpacewireLine pins bits (pins :: samples)
  | bit {pins : SpacewirePins} (bit : Bool) {bits : List Bool} {samples : List SpacewirePins}
      (behind : SpacewireLine (pins.send bit) bits samples) :
      SpacewireLine pins (bit :: bits) (pins.send bit :: samples)

end SigrokDecode
