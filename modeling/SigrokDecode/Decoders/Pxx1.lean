import SigrokDecode.Foundation.BitFields

/-!
# The PXX1 decoder

`pxx1_c` takes the bits of a frame one at a time, drops the stuffed ones and reads
the fields one behind the other.
-/

namespace SigrokDecode

open Foundation

/-- The `state` of the decoder: the field that it is reading. -/
inductive Pxx1Phase
  | waitHeader
  | modelId
  | type
  | rangeCheck
  | failSafe
  | countryCode
  | bind
  | flag2
  | channels
  | rsrv2
  | euPlus
  | disableSport
  | powerLevel
  | highChan
  | telemetryOff
  | externalAntena
  | crc
  | stop
  | error
  deriving DecidableEq

namespace Pxx1Phase

/-- The bits of a field. -/
def width : Pxx1Phase → Nat
  | waitHeader => 8
  | modelId => 8
  | type => 2
  | rangeCheck => 1
  | failSafe => 1
  | countryCode => 3
  | bind => 1
  | flag2 => 8
  | channels => 96
  | rsrv2 => 1
  | euPlus => 1
  | disableSport => 1
  | powerLevel => 2
  | highChan => 1
  | telemetryOff => 1
  | externalAntena => 1
  | crc => 16
  | stop => 8
  | error => 0

/-- The field behind a field. -/
def next : Pxx1Phase → Pxx1Phase
  | waitHeader => modelId
  | modelId => type
  | type => rangeCheck
  | rangeCheck => failSafe
  | failSafe => countryCode
  | countryCode => bind
  | bind => flag2
  | flag2 => channels
  | channels => rsrv2
  | rsrv2 => euPlus
  | euPlus => disableSport
  | disableSport => powerLevel
  | powerLevel => highChan
  | highChan => telemetryOff
  | telemetryOff => externalAntena
  | externalAntena => crc
  | crc => stop
  | stop => waitHeader
  | error => waitHeader

end Pxx1Phase

/-- The annotations. The texts of `value` are those of the field for the word; for the type it is
the index into `transmit_type`. -/
inductive Pxx1Field
  | byte (value : BitVec 8)
  | bit (value : Bool)
  | bitStuff
  | startHeader
  | stopHeader
  | headerError
  | value (phase : Pxx1Phase) (word : BitVec 32)
  | channels (upper : Bool) (values : List Nat)
  deriving DecidableEq

structure Pxx1Ann where
  ss : Nat
  es : Nat
  field : Pxx1Field

/-- A byte for `c_put_bin`. -/
structure Pxx1Binary where
  ss : Nat
  es : Nat
  byte : BitVec 8

/-- A bit with the samples that `pxx1_decode` has found for it. -/
structure Pxx1Bit where
  ss : Nat
  es : Nat
  value : Bool

/-- `pxx1_priv`; `nibble_cnt` is the length of the list. -/
structure Pxx1State where
  byteVal : BitVec 8
  byteCnt : Nat
  curBit : Nat
  bitOneCnt : Nat
  byteStart : Nat
  bitStuffing : Bool
  stateWord : BitVec 32
  stateWordStart : Nat
  stateBit : Nat
  state : Pxx1Phase
  nibbles : List (BitVec 8)
  nibbleVal : BitVec 32
  ssBlock : Nat
  esBlock : Nat
  /-- History: what went out. -/
  anns : List Pxx1Ann
  binary : List Pxx1Binary

def pxxHeader : BitVec 32 := 0x7E

namespace Pxx1State

def reset : Pxx1State :=
  { byteVal := 0
    byteCnt := 0
    curBit := 0
    bitOneCnt := 0
    byteStart := 0
    bitStuffing := true
    stateWord := 0
    stateWordStart := 0
    stateBit := 0
    state := .waitHeader
    nibbles := []
    nibbleVal := 0
    ssBlock := 0
    esBlock := 0
    anns := []
    binary := [] }

/-- `pxx1_reset_state`, which is also `pxx1_break_rx`. -/
def resetState (s : Pxx1State) : Pxx1State :=
  { s with
    state := .waitHeader
    byteVal := 0
    byteCnt := 0
    curBit := 0
    bitOneCnt := 0
    byteStart := 0
    bitStuffing := true
    stateWord := 0
    stateWordStart := 0
    stateBit := 0
    nibbles := []
    nibbleVal := 0 }

def put (s : Pxx1State) (ss es : Nat) (field : Pxx1Field) : Pxx1State :=
  { s with anns := s.anns ++ [{ ss, es, field }] }

def addByte (s : Pxx1State) (byte : BitVec 8) : Pxx1State :=
  let s := s.put s.byteStart s.esBlock (.byte byte)
  { s with
    binary := s.binary ++ [{ ss := s.byteStart, es := s.esBlock, byte }]
    byteCnt := s.byteCnt + 1
    bitStuffing := if 18 < s.byteCnt + 1 then false else s.bitStuffing }

def putWord (s : Pxx1State) (field : Pxx1Field) : Pxx1State :=
  s.put s.stateWordStart s.esBlock field

def advance (s : Pxx1State) : Pxx1State :=
  { s with
    stateBit := 0
    stateWord := 0
    state := s.state.next }

def waitHeader (s : Pxx1State) : Pxx1State :=
  if s.stateBit = 8 then
    if s.stateWord = pxxHeader then
      (s.putWord .startHeader).advance
    else
      (s.putWord .headerError).resetState
  else
    s

def fieldWord (s : Pxx1State) : BitVec 32 :=
  if s.state = .type ∧ 3 < s.stateWord then 3 else s.stateWord

def field (s : Pxx1State) : Pxx1State :=
  if s.stateBit = s.state.width then (s.putWord (.value s.state s.fieldWord)).advance else s

def channelPairs : List (BitVec 8) → List Nat
  | n0 :: n1 :: n2 :: n3 :: n4 :: n5 :: nibbles =>
      (n3.toNat <<< 8 ||| n1.toNat <<< 4 ||| n0.toNat) ::
        (n4.toNat <<< 8 ||| n5.toNat <<< 4 ||| n2.toNat) :: channelPairs nibbles
  | _ => []

def upperChannels : List Nat → Bool
  | ch1 :: _ :: channels => decide (2048 < ch1) || upperChannels channels
  | _ => false

def collectNibble (s : Pxx1State) : Pxx1State :=
  let s :=
    if 0 < s.stateBit ∧ s.stateBit % 4 = 0 then
      { s with
        nibbles :=
          if s.nibbles.length < 24 then s.nibbles ++ [s.nibbleVal.setWidth 8] else s.nibbles
        nibbleVal := 0 }
    else
      s
  { s with nibbleVal := s.nibbleVal <<< 1 ||| (s.stateWord &&& 1) }

def channels (s : Pxx1State) (bstuff : Bool) : Pxx1State :=
  let s := if bstuff then s else s.collectNibble
  if s.stateBit = 96 then
    let values := channelPairs s.nibbles
    { (s.putWord (.channels (upperChannels values) values)).advance with
      nibbles := []
      nibbleVal := 0 }
  else
    s

def stop (s : Pxx1State) : Pxx1State :=
  if s.stateBit = 8 then
    (s.putWord (if s.stateWord = pxxHeader then .stopHeader else .headerError)).resetState
  else
    s

def processState (s : Pxx1State) (bstuff : Bool) : Pxx1State :=
  match s.state with
  | .waitHeader => s.waitHeader
  | .channels => s.channels bstuff
  | .stop => s.stop
  | .error => s.resetState
  | _ => s.field

def beginBit (s : Pxx1State) (bit : Pxx1Bit) : Pxx1State :=
  { s with
    ssBlock := bit.ss
    esBlock := bit.es
    byteStart := if s.curBit = 0 then bit.ss else s.byteStart
    stateWordStart := if s.stateBit = 0 then bit.ss else s.stateWordStart
    bitOneCnt := s.bitOneCnt + 1 }

def stuffed (s : Pxx1State) : Bool :=
  s.bitStuffing && decide (6 ≤ s.bitOneCnt)

def shiftBit (s : Pxx1State) (value : Bool) : Pxx1State :=
  let s := { s with
    byteVal := s.byteVal <<< 1 ||| (BitVec.ofBool value).setWidth 8
    curBit := s.curBit + 1 }
  let s := s.put s.ssBlock s.esBlock (.bit value)
  { s with
    stateWord := s.stateWord <<< 1 ||| (BitVec.ofBool value).setWidth 32
    stateBit := s.stateBit + 1 }

def takeBit (s : Pxx1State) (value : Bool) : Pxx1State :=
  let s := if s.stuffed then s.put s.ssBlock s.esBlock .bitStuff else s.shiftBit value
  { s with bitOneCnt := if value then s.bitOneCnt else 0 }

def endByte (s : Pxx1State) : Pxx1State :=
  if s.curBit = 8 then
    { s.addByte s.byteVal with
      curBit := 0
      byteVal := 0 }
  else
    s

def addBit (s : Pxx1State) (bit : Pxx1Bit) : Pxx1State :=
  let s := s.beginBit bit
  ((s.takeBit bit.value).endByte).processState s.stuffed

end Pxx1State

end SigrokDecode
