import SigrokDecode.Foundation.BitFields
import SigrokDecode.Foundation.CShifts

/-!
# The 1-Wire network layer

`onewire_network_c` and `decoders/onewire_network` collect the bits of the link layer into ROM
commands, ROM codes and data bytes.  The one keeps all of them in a `uint8_t` and shifts `int`s, the
other has numbers without bound.
-/

namespace SigrokDecode

open Foundation

inductive OwNetState
  | command
  | getRom
  | searchRom
  | transport
  | commandError
  deriving DecidableEq

/-- What comes next in a search: the address bit, its complement or the direction. -/
inductive OwSearch
  | p
  | n
  | d
  deriving DecidableEq

/-- A BIT packet of the link layer. -/
structure OwBit where
  ss : Nat
  es : Nat
  value : Bool

/-- The packets of the link layer. -/
inductive OwEvent
  | presence (ss es : Nat) (value : Bool)
  | bit (bit : OwBit)
  | other

inductive OwText
  | resetPresence (value : Bool)
  | romCommand (code : Nat) (name : String)
  | rom (code : Nat)
  | data (byte : Nat)
  | romErrorData (byte : Nat)
  deriving DecidableEq

/-- The packets for the transport layer; a ROM code is a number in Python and bytes in C. -/
inductive OwPacket
  | resetPresence (value : Bool)
  | romCode (code : Nat)
  | romBytes (bytes : List Nat)
  | data (byte : Nat)
  deriving DecidableEq

inductive OwOut
  | text (ss es : Nat) (text : OwText)
  | packet (ss es : Nat) (packet : OwPacket)
  deriving DecidableEq

def romCommands : List (Nat × String × OwNetState) :=
  [(0x33, "Read ROM", .getRom), (0x0f, "Conditional read ROM", .getRom),
    (0xcc, "Skip ROM", .transport),
    (0x55, "Match ROM", .getRom),
    (0xf0, "Search ROM", .searchRom),
    (0xec, "Conditional search ROM", .searchRom),
    (0x3c, "Overdrive skip ROM", .transport),
    (0x69, "Overdrive match ROM", .getRom),
    (0xa5, "Resume", .transport),
    (0x96, "DS2408: Disable Test Mode", .getRom)]

/-- `find_rom_command`, with what is done for other codes. -/
def findRomCommand (code : Nat) : String × OwNetState :=
  (romCommands.lookup code).getD ("unrecognized", .commandError)

def romData (rom : Nat) : List Nat :=
  (List.range 8).map fun i => (rom >>> (i * 8)) &&& 0xff

/-! ## The C decoder -/

/-- `ownet_s`. -/
structure OwnetState where
  state : OwNetState
  bitCnt : Nat
  data : BitVec 8
  ssBlock : Nat
  esBlock : Nat
  searchPhase : OwSearch
  dataP : BitVec 64
  dataN : BitVec 64
  outs : List OwOut

namespace OwnetState

/-- `ownet_reset` and `ownet_start`. -/
def start : OwnetState :=
  ⟨.command, 0, 0, 0, 0, .p, 0, 0, []⟩

def text (s : OwnetState) (text : OwText) : OwnetState :=
  { s with outs := s.outs ++ [OwOut.text s.ssBlock s.esBlock text] }

def packet (s : OwnetState) (packet : OwPacket) : OwnetState :=
  { s with outs := s.outs ++ [OwOut.packet s.ssBlock s.esBlock packet] }

/-- `(data & ~(1 << n)) | (val << n)`, kept in a `uint8_t`. -/
def setData (shifts : CShifts) (data : BitVec 8) (n : Nat) (value : Bool) : BitVec 8 :=
  ((data.setWidth 32 &&& ~~~shifts.int 1 n) |||
    shifts.int ((BitVec.ofBool value).setWidth 32) n).setWidth 8

/-- `data & ((1 << length) - 1)`. -/
def maskData (shifts : CShifts) (data : BitVec 8) (length : Nat) : BitVec 8 :=
  (data.setWidth 32 &&& (shifts.int 1 length - 1)).setWidth 8

/-- The same for the words of a search. -/
def setWord (shifts : CShifts) (word : BitVec 64) (n : Nat) (value : Bool) : BitVec 64 :=
  (word &&& ~~~shifts.long 1 n) ||| shifts.long ((BitVec.ofBool value).setWidth 64) n

def maskWord (shifts : CShifts) (word : BitVec 64) (length : Nat) : BitVec 64 :=
  word &&& (shifts.long 1 length - 1)

/-- `onewire_collect`, with its result. -/
def collect (shifts : CShifts) (s : OwnetState) (length : Nat) (bit : OwBit) : OwnetState × Bool :=
  let s := { s with ssBlock := if s.bitCnt = 0 then bit.ss else s.ssBlock }
  let s := { s with data := setData shifts s.data s.bitCnt bit.value, bitCnt := s.bitCnt + 1 }
  if s.bitCnt = length then
    ({ s with esBlock := bit.es, data := maskData shifts s.data length, bitCnt := 0 }, true)
  else (s, false)

/-- `onewire_search`, with its result. -/
def search (shifts : CShifts) (s : OwnetState) (length : Nat) (bit : OwBit) : OwnetState × Bool :=
  let s :=
    { s with ssBlock := if s.bitCnt = 0 ∧ s.searchPhase = OwSearch.p then bit.ss else s.ssBlock }
  let s :=
    if s.searchPhase = .p then
      { s with dataP := setWord shifts s.dataP s.bitCnt bit.value, searchPhase := .n }
    else if s.searchPhase = .n then
      { s with dataN := setWord shifts s.dataN s.bitCnt bit.value, searchPhase := .d }
    else
      { s with
        data := setData shifts s.data s.bitCnt bit.value
        searchPhase := .p
        bitCnt := s.bitCnt + 1 }
  if s.bitCnt = length then
    ({ s with
      esBlock := bit.es
      dataP := maskWord shifts s.dataP length
      dataN := maskWord shifts s.dataN length
      data := maskData shifts s.data length
      searchPhase := .p
      bitCnt := 0 }, true)
  else (s, false)

def putCommand (s : OwnetState) : OwnetState :=
  let command := findRomCommand s.data.toNat
  { s.text (.romCommand s.data.toNat command.1) with state := command.2, bitCnt := 0, data := 0 }

def putRom (s : OwnetState) : OwnetState :=
  let rom := s.data.toNat
  { (s.text (.rom rom)).packet (.romBytes (romData rom)) with
    state := .transport, bitCnt := 0, data := 0 }

def putData (s : OwnetState) : OwnetState :=
  { (s.text (.data s.data.toNat)).packet (.data s.data.toNat) with bitCnt := 0, data := 0 }

def putErrorData (s : OwnetState) : OwnetState :=
  { s.text (.romErrorData s.data.toNat) with bitCnt := 0, data := 0 }

def decodeBit (shifts : CShifts) (s : OwnetState) (bit : OwBit) : OwnetState :=
  match s.state with
  | .command =>
      let next := s.collect shifts 8 bit
      if next.2 then next.1.putCommand else next.1
  | .getRom =>
      let next := s.collect shifts 64 bit
      if next.2 then next.1.putRom else next.1
  | .searchRom =>
      let next := s.search shifts 64 bit
      if next.2 then next.1.putRom else next.1
  | .transport =>
      let next := s.collect shifts 8 bit
      if next.2 then next.1.putData else next.1
  | .commandError =>
      let next := s.collect shifts 8 bit
      if next.2 then next.1.putErrorData else next.1

def decodeUpper (shifts : CShifts) (s : OwnetState) : OwEvent → OwnetState
  | .presence ss es value =>
      { s with
        outs := s.outs ++ [.text ss es (.resetPresence value), .packet ss es (.resetPresence value)]
        state := .command
        bitCnt := 0
        data := 0
        searchPhase := .p }
  | .bit bit => s.decodeBit shifts bit
  | .other => s

end OwnetState

structure OwPyState where
  state : OwNetState
  bitCnt : Nat
  search : OwSearch
  dataP : Nat
  dataN : Nat
  data : Nat
  rom : Nat
  ssBlock : Nat
  esBlock : Nat
  outs : List OwOut

namespace OwPyState

def reset : OwPyState :=
  ⟨.command, 0, .p, 0, 0, 0, 0, 0, 0, []⟩

def putx (s : OwPyState) (text : OwText) : OwPyState :=
  { s with outs := s.outs ++ [OwOut.text s.ssBlock s.esBlock text] }

def puty (s : OwPyState) (packet : OwPacket) : OwPyState :=
  { s with outs := s.outs ++ [OwOut.packet s.ssBlock s.esBlock packet] }

/-- `data & ~(1 << n) | (val << n)`. -/
def setBit (data n : Nat) (value : Bool) : Nat :=
  data.ldiff (1 <<< n) ||| value.toNat <<< n

/-- `data & ((1 << length) - 1)`. -/
def mask (data length : Nat) : Nat :=
  data &&& (1 <<< length - 1)

def onewireCollect (s : OwPyState) (length : Nat) (bit : OwBit) : OwPyState × Bool :=
  let s := { s with ssBlock := if s.bitCnt = 0 then bit.ss else s.ssBlock }
  let s := { s with data := setBit s.data s.bitCnt bit.value, bitCnt := s.bitCnt + 1 }
  if s.bitCnt = length then
    ({ s with esBlock := bit.es, data := mask s.data length, bitCnt := 0 }, true)
  else (s, false)

def onewireSearch (s : OwPyState) (length : Nat) (bit : OwBit) : OwPyState × Bool :=
  let s := { s with ssBlock := if s.bitCnt = 0 ∧ s.search = OwSearch.p then bit.ss else s.ssBlock }
  let s :=
    if s.search = .p then
      { s with dataP := setBit s.dataP s.bitCnt bit.value, search := .n }
    else if s.search = .n then
      { s with dataN := setBit s.dataN s.bitCnt bit.value, search := .d }
    else
      { s with
        data := setBit s.data s.bitCnt bit.value
        search := .p
        bitCnt := s.bitCnt + 1 }
  if s.bitCnt = length then
    ({ s with
      esBlock := bit.es
      dataP := mask s.dataP length
      dataN := mask s.dataN length
      data := mask s.data length
      search := .p
      bitCnt := 0 }, true)
  else (s, false)

def putCommand (s : OwPyState) : OwPyState :=
  let command := findRomCommand s.data
  { s.putx (.romCommand s.data command.1) with state := command.2 }

def putRom (s : OwPyState) : OwPyState :=
  let s := { s with rom := s.data &&& 0xffffffffffffffff }
  { (s.putx (.rom s.rom)).puty (.romCode s.rom) with state := .transport }

def putData (s : OwPyState) : OwPyState :=
  (s.putx (.data s.data)).puty (.data s.data)

def putErrorData (s : OwPyState) : OwPyState :=
  s.putx (.romErrorData s.data)

def decodeBit (s : OwPyState) (bit : OwBit) : OwPyState :=
  match s.state with
  | .command =>
      let next := s.onewireCollect 8 bit
      if next.2 then next.1.putCommand else next.1
  | .getRom =>
      let next := s.onewireCollect 64 bit
      if next.2 then next.1.putRom else next.1
  | .searchRom =>
      let next := s.onewireSearch 64 bit
      if next.2 then next.1.putRom else next.1
  | .transport =>
      let next := s.onewireCollect 8 bit
      if next.2 then next.1.putData else next.1
  | .commandError =>
      let next := s.onewireCollect 8 bit
      if next.2 then next.1.putErrorData else next.1

def decode (s : OwPyState) : OwEvent → OwPyState
  | .presence ss es value =>
      { s with
        search := .p
        bitCnt := 0
        outs := s.outs ++ [.text ss es (.resetPresence value), .packet ss es (.resetPresence value)]
        state := .command }
  | .bit bit => s.decodeBit bit
  | .other => s

end OwPyState

/-- A reset and the bits behind it. -/
structure OwTransaction where
  ss : Nat
  es : Nat
  present : Bool
  bits : List OwBit

def OwTransaction.events (transaction : OwTransaction) : List OwEvent :=
  .presence transaction.ss transaction.es transaction.present :: transaction.bits.map .bit

def owValue (bits : List OwBit) : Nat :=
  packLsb (bits.map OwBit.value)

def owSs (bits : List OwBit) : Nat :=
  (bits.head?.map OwBit.ss).getD 0

def owEs (bits : List OwBit) : Nat :=
  (bits.getLast?.map OwBit.es).getD 0

def owDirections : List OwBit → List OwBit
  | _ :: _ :: direction :: bits => direction :: owDirections bits
  | _ => []

def owBytes (bits : List OwBit) : List (List OwBit) :=
  (List.range (bits.length / 8)).map fun i => (bits.drop (8 * i)).take 8

def owCommandOuts (bits : List OwBit) : List OwOut :=
  [.text (owSs bits) (owEs bits) (.romCommand (owValue bits) (findRomCommand (owValue bits)).1)]

/-- The outputs for the ROM code `rom`, which the bits brought. -/
def owRomOuts (bits : List OwBit) (rom : Nat) : List OwOut :=
  [.text (owSs bits) (owEs bits) (.rom rom), .packet (owSs bits) (owEs bits) (.romCode rom)]

def owDataOuts (bits : List OwBit) : List OwOut :=
  (owBytes bits).flatMap fun byte =>
    [.text (owSs byte) (owEs byte) (.data (owValue byte)),
      .packet (owSs byte) (owEs byte) (.data (owValue byte))]

def owErrorOuts (bits : List OwBit) : List OwOut :=
  (owBytes bits).map fun byte => .text (owSs byte) (owEs byte) (.romErrorData (owValue byte))

def owBehindCommand (bits : List OwBit) : OwNetState → List OwOut
  | .command => []
  | .getRom =>
      if 64 ≤ bits.length then
        owRomOuts (bits.take 64) (owValue (bits.take 64)) ++ owDataOuts (bits.drop 64)
      else []
  | .searchRom =>
      if 192 ≤ bits.length then
        owRomOuts (bits.take 192) (owValue (owDirections (bits.take 192))) ++
          owDataOuts (bits.drop 192)
      else []
  | .transport => owDataOuts bits
  | .commandError => owErrorOuts bits

def OwTransaction.outs (transaction : OwTransaction) : List OwOut :=
  [OwOut.text transaction.ss transaction.es (.resetPresence transaction.present),
    .packet transaction.ss transaction.es (.resetPresence transaction.present)] ++
  if 8 ≤ transaction.bits.length then
    owCommandOuts (transaction.bits.take 8) ++ owBehindCommand (transaction.bits.drop 8)
        (findRomCommand (owValue (transaction.bits.take 8))).2
  else []

def OwTransaction.HasRom (transaction : OwTransaction) : Prop :=
  let next := (findRomCommand (owValue (transaction.bits.take 8))).2
  next = .getRom ∧ 8 + 64 ≤ transaction.bits.length ∨
    next = .searchRom ∧ 8 + 192 ≤ transaction.bits.length

/-- C has a packet with eight bytes where Python has one with a number. -/
def OwOut.inBytes : OwOut → OwOut
  | .packet ss es (.romCode code) => .packet ss es (.romBytes (romData code))
  | out => out

end SigrokDecode
