import SigrokDecode.Foundation.BitFields

/-!
# The 4B5B decoder

`4b5b_c` takes bits in groups of five: control symbols, and behind a start delimiter
the two halves of bytes.
-/

namespace SigrokDecode

open Foundation

/-- `data_sym`; `none` for `-1`. -/
def dataSym : List (Option (BitVec 4)) :=
  [none, none, none, none, none, none, none, none, none, some 0x1, some 0x4, some 0x5,
    none, none, some 0x6, some 0x7,
    none, none, some 0x8, some 0x9,
    some 0x2, some 0x3, some 0xA, some 0xB,
    none, none, some 0xC, some 0xD,
    some 0xE, some 0xF, some 0x0, none]

/-- The control symbols, with `ctrl_long` for names. -/
inductive FourB5BCtrl
  | quiet
  | halt
  | l
  | reset
  | terminate
  | k
  | j
  | set
  | idle
  deriving DecidableEq

/-- `ctrl_long` and `ctrl_short`. -/
def ctrlSym : List (Option FourB5BCtrl) :=
  [some .quiet, none, none, none, some .halt, none, some .l, some .reset, none, none, none, none,
    none, some .terminate, none, none,
    none, some .k, none, none,
    none, none, none, none,
    some .j, some .set, none, none,
    none, none, none, some .idle]

/-- What goes out to stacked decoders. -/
inductive FourB5BProto
  | ctrl (symbol : FourB5BCtrl)
  | data (byte : BitVec 8)
  deriving DecidableEq

inductive FourB5BField
  | dataSymbol (symbol : Nat)
  | ctrlSymbol (symbol : FourB5BCtrl)
  | bits (nibble : BitVec 4)
  | byte (byte : BitVec 8)

structure FourB5BAnn where
  ss : Nat
  es : Nat
  field : FourB5BField

structure FourB5BOut where
  ss : Nat
  es : Nat
  proto : FourB5BProto

/-- A `BIT` from the NRZI decoder. -/
structure FourB5BBit where
  ss : Nat
  es : Nat
  value : Bool

/-- `fourb5b_s`; `lastNibble` is `none` as long as `has_last_nibble` is not set. -/
structure FourB5BState where
  jkSeenJ : Bool
  jkSeenK : Bool
  symStart : Nat
  dataStart : Nat
  symbol : Nat
  bitCount : Nat
  lastNibble : Option (BitVec 4)
  bitOffset : Nat
  /-- History: what went out. -/
  anns : List FourB5BAnn
  outs : List FourB5BOut

namespace FourB5BState

def start (bitOffset : Nat) : FourB5BState :=
  { jkSeenJ := false
    jkSeenK := false
    symStart := 0
    dataStart := 0
    symbol := 0
    bitCount := 0
    lastNibble := none
    bitOffset
    anns := []
    outs := [] }

def put (s : FourB5BState) (ss es : Nat) (field : FourB5BField) : FourB5BState :=
  { s with anns := s.anns ++ [{ ss, es, field }] }

def proto (s : FourB5BState) (ss es : Nat) (proto : FourB5BProto) : FourB5BState :=
  { s with outs := s.outs ++ [{ ss, es, proto }] }

def control (s : FourB5BState) (symbol : FourB5BCtrl) (endSample : Nat) : FourB5BState :=
  let s := { s with
    jkSeenJ := decide (s.symbol = 24) || s.jkSeenJ
    jkSeenK := decide (s.symbol = 17) || s.jkSeenK }
  (s.put s.symStart endSample (.ctrlSymbol symbol)).proto s.symStart endSample (.ctrl symbol)

/-- The second half of a byte goes out with the first one, which has come before. -/
def halfByte (s : FourB5BState) (nibble : BitVec 4) (endSample : Nat) : FourB5BState :=
  match s.lastNibble with
  | some low =>
      let dataByte := nibble ++ low
      let s := s.put s.dataStart endSample (.byte dataByte)
      let s := s.proto s.dataStart endSample (.data dataByte)
      { s with
        dataStart := endSample
        lastNibble := none }
  | none => { s with lastNibble := some nibble }

def dataSymbol (s : FourB5BState) (nibble : BitVec 4) (endSample : Nat) : FourB5BState :=
  let s := s.put s.symStart endSample (.dataSymbol s.symbol)
  let s := s.put s.symStart endSample (.bits nibble)
  s.halfByte nibble endSample

def handleSymbol (s : FourB5BState) (endSample : Nat) : FourB5BState :=
  match ctrlSym.getD s.symbol none with
  | some symbol => s.control symbol endSample
  | none =>
      match dataSym.getD s.symbol none with
      | none => s
      | some nibble => if s.jkSeenJ && s.jkSeenK then s.dataSymbol nibble endSample else s

def beginSymbol (s : FourB5BState) (startSample : Nat) : FourB5BState :=
  if s.bitCount = 0 then
    { s with
      symStart := startSample
      dataStart := if s.lastNibble.isNone then startSample else s.dataStart }
  else
    s

def shift (s : FourB5BState) (value : Bool) : FourB5BState :=
  { s with
    symbol := s.symbol <<< 1 ||| value.toNat
    bitCount := s.bitCount + 1 }

def endSymbol (s : FourB5BState) (endSample : Nat) : FourB5BState :=
  if s.bitCount = 5 then
    { s.handleSymbol endSample with
      symStart := endSample
      symbol := 0
      bitCount := 0 }
  else
    s

def recvProto (s : FourB5BState) (bit : FourB5BBit) : FourB5BState :=
  if 0 < s.bitOffset then
    { s with bitOffset := s.bitOffset - 1 }
  else
    ((s.beginSymbol bit.ss).shift bit.value).endSymbol bit.es

end FourB5BState

end SigrokDecode
