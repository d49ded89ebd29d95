import SigrokDecode.Decoders.I2c
import SigrokDecode.Foundation.CStrings

/-!
# The 24xx EEPROM decoder

`eeprom24xx_c` gathers the bytes of an I2C transaction and tells the operation that they form.
-/

set_option linter.dupNamespace false

namespace SigrokDecode

open Foundation

structure EepromChip where
  key : String
  pageSize : Nat
  addrBytes : Nat
  addrPins : Nat
  deriving DecidableEq

def chipTable : List EepromChip :=
  [⟨"generic", 8, 1, 3⟩, ⟨"microchip_24aa65", 64, 2, 3⟩, ⟨"microchip_24lc65", 64, 2, 3⟩,
    ⟨"microchip_24c65", 64, 2, 3⟩, ⟨"microchip_24aa64", 32, 2, 3⟩,
    ⟨"microchip_24lc64", 32, 2, 3⟩, ⟨"microchip_24aa02uid", 8, 1, 0⟩,
    ⟨"microchip_24aa025uid", 16, 1, 3⟩, ⟨"microchip_24aa025uid_sot23", 16, 1, 2⟩,
    ⟨"onsemi_cat24c256", 64, 2, 3⟩, ⟨"onsemi_cat24m01", 256, 2, 2⟩,
    ⟨"siemens_slx_24c01", 8, 1, 0⟩, ⟨"siemens_slx_24c02", 8, 1, 0⟩, ⟨"st_m24c01", 16, 1, 3⟩,
    ⟨"st_m24c02", 16, 1, 3⟩, ⟨"xicor_x24c02", 4, 1, 3⟩]

inductive EepromPhase where
  | waitForStart
  | getControlWord
  | rGetAckNackAfterCw
  | rGetWordAddrOrByte
  | rGetAckNackAfterWordAddrOrByte
  | rGetRestart
  | rReadByte
  | rGetAckNackAfterByteRead
  | wGetAckNackAfterCw
  | wGetWordAddr
  | wGetAckAfterWordAddr
  | wDetermineReadOrWrite
  | wWriteByte
  | wGetAckNackAfterByteWritten
  | r2GetControlWord
  | r2GetAckAfterAddrRead
  | r2ReadByte
  | r2GetAckNackAfterByteRead
  | getStopAfterLastByte
  deriving DecidableEq

inductive EepromClass where
  | warnings
  | controlCode
  | addressPin
  | rwBit
  | wordAddrByte
  | dataByte
  | controlWord
  | wordAddr
  | data
  | byteWrite
  | pageWrite
  | curAddrRead
  | randomRead
  | seqRandomRead
  deriving DecidableEq

inductive EepromOut where
  | ann (ss es : Nat) (cls : EepromClass) (texts : List String)
  | binary (ss es : Nat) (data : List (BitVec 8))

structure EepromPacket where
  ss : Nat
  es : Nat
  databyte : BitVec 8

structure EepromFlags where
  isCurAddrRead : Bool
  isRandomAccessRead : Bool
  isSeqRandomRead : Bool
  isByteWrite : Bool
  isPageWrite : Bool

structure EepromState where
  state : EepromPhase
  packets : List EepromPacket
  bytebuf : List (BitVec 8)
  flags : EepromFlags
  addrCounter : Int
  ssBlock : Nat
  esBlock : Nat
  ss : Nat
  es : Nat
  /-- The lowest bit first. -/
  bits : List I2cBit
  outs : List EepromOut

def EepromFlags.none : EepromFlags :=
  { isCurAddrRead := false
    isRandomAccessRead := false
    isSeqRandomRead := false
    isByteWrite := false
    isPageWrite := false }

/-- `EEPROM24XX_MAX_PACKETS` -/
def eepromMaxPackets : Nat := 1024

def byteHex (byte : BitVec 8) : String :=
  upperHexDigits 2 byte.toNat

/-- The bytes of an operation, as far as they fit behind the `pos` characters in front of
them. -/
def operationBytes (pos : Nat) : List (BitVec 8) → String
  | [] => ""
  | byte :: bytes =>
      if pos < 502 then byteHex byte ++ " " ++ operationBytes (pos + 3) bytes else ""

def operationText (name : String) (word data : List (BitVec 8)) : String :=
  let plural := if data.length ≠ 1 then "s" else ""
  let front := name ++ " (addr=" ++ String.join (word.map byteHex) ++ ", " ++
    toString data.length ++ " byte" ++ plural ++ "): "
  front ++ operationBytes front.length data

def curAddrReadText (byte : BitVec 8) : String :=
  "Current address read: " ++ byteHex byte

namespace EepromState

/-- `eeprom24xx_reset` and `eeprom24xx_start`. -/
def start (addrCounter : Int) : EepromState :=
  { state := .waitForStart
    packets := []
    bytebuf := []
    flags := .none
    addrCounter
    ssBlock := 0
    esBlock := 0
    ss := 0
    es := 0
    bits := []
    outs := [] }

def resetVariables (s : EepromState) : EepromState :=
  { s with
    state := .waitForStart
    packets := []
    bytebuf := []
    flags := .none
    bits := [] }

/-- `eeprom24xx_packet_append`; there is no room for a byte behind the last one of `bytebuf`. -/
def packetAppend (s : EepromState) (databyte : BitVec 8) : Option EepromState :=
  if s.bytebuf.length < eepromMaxPackets then
    some { s with
      packets := if s.packets.length < eepromMaxPackets then
        s.packets ++ [⟨s.ss, s.es, databyte⟩] else s.packets
      bytebuf := s.bytebuf ++ [databyte] }
  else
    none

def put (s : EepromState) (ss es : Nat) (cls : EepromClass) (texts : List String) : EepromState :=
  { s with outs := s.outs ++ [EepromOut.ann ss es cls texts] }

def putb (s : EepromState) (cls : EepromClass) (text : String) : EepromState :=
  s.put s.ssBlock s.esBlock cls [text]

def putWarning (s : EepromState) (msg : String) : EepromState :=
  s.putb .warnings ("Warning: " ++ msg)

def putBin (s : EepromState) (data : List (BitVec 8)) : EepromState :=
  { s with outs := s.outs ++ [EepromOut.binary s.ssBlock s.esBlock data] }

def bit (s : EepromState) (index : Nat) : I2cBit :=
  s.bits.getD index ⟨false, 0, 0⟩

def bitText (s : EepromState) (index : Nat) : String :=
  toString (s.bit index).sda.toNat

def putAddressPins (s : EepromState) : Nat → EepromState
  | 0 => s
  | pin + 1 =>
      (s.put (s.bit (pin + 1)).ss (s.bit (pin + 1)).es .addressPin
        [s!"Address bit {pin}: " ++ s.bitText (pin + 1), s!"Addr bit {pin}", s!"A{pin}",
          "A"]).putAddressPins pin

def putControlWord (chip : EepromChip) (s : EepromState) : EepromState :=
  if s.bits.length < 8 then
    s
  else
    let code := s.bitText 7 ++ s.bitText 6 ++ s.bitText 5 ++ s.bitText 4
    let s := s.put (s.bit 7).ss (s.bit 4).es .controlCode
      ["Control code bits: " ++ code, "Control code: " ++ code, "Ctrl code: " ++ code,
        "Ctrl code", "Ctrl", "C"]
    let s := s.putAddressPins chip.addrPins
    let read := (s.bit 0).sda
    let s := s.put (s.bit 0).ss (s.bit 0).es .rwBit
      ["R/W bit: " ++ if read then "read" else "write", "R/W", "RW", if read then "R" else "W"]
    s.put (s.bit 7).ss (s.bit 0).es .controlWord ["Control word", "Control", "CW", "C"]

def putWordAddr (chip : EepromChip) (s : EepromState) : EepromState :=
  if chip.addrBytes = 1 then
    match s.packets with
    | _ :: a :: _ =>
        { (s.put a.ss a.es .wordAddrByte ["Word address byte: " ++ byteHex a.databyte]).put a.ss
            a.es .wordAddr ["Word address", "Word addr", "Addr", "A"] with
          addrCounter := a.databyte.toNat }
    | _ => s
  else
    match s.packets with
    | _ :: ah :: al :: _ =>
        { ((s.put ah.ss ah.es .wordAddrByte
              ["Word address high byte: " ++ byteHex ah.databyte]).put al.ss al.es .wordAddrByte
              ["Word address low byte: " ++ byteHex al.databyte]).put ah.ss al.es .wordAddr
              ["Word address", "Word addr", "Addr", "A"] with
          addrCounter := ah.databyte.toNat <<< 8 ||| al.databyte.toNat }
    | _ => s

def putDataByte (chip : EepromChip) (s : EepromState) (p : EepromPacket) : EepromState :=
  let addr := upperHexDigits (if chip.addrBytes = 1 then 2 else 4)
    (BitVec.ofInt 32 s.addrCounter).toNat
  s.put p.ss p.es .dataByte ["Data byte " ++ addr ++ ": " ++ byteHex p.databyte]

def putEachByte (chip : EepromChip) (s : EepromState) : List EepromPacket → EepromState
  | [] => s
  | p :: packets =>
      putEachByte chip { s.putDataByte chip p with addrCounter := s.addrCounter + 1 } packets

def putDataField (s : EepromState) (packets : List EepromPacket) : EepromState :=
  match packets.head?, packets.getLast? with
  | some first, some last => s.put first.ss last.es .data ["Data", "D"]
  | _, _ => s

def putDataBytes (chip : EepromChip) (s : EepromState) (idx : Nat) (cls : EepromClass)
    (opName : String) : EepromState :=
  let s := s.putEachByte chip (s.packets.drop idx)
  let s := s.putDataField (s.packets.drop idx)
  let word := s.bytebuf.take (if chip.addrBytes = 1 then 1 else 2)
  let data := s.bytebuf.drop chip.addrBytes
  let s := s.putb cls (operationText opName word data)
  if data = [] then s else s.putBin data

def decideOnSeqOrRndRead (s : EepromState) : EepromState :=
  if s.bytebuf.length < 2 then
    s.resetVariables
  else if s.bytebuf.length = 2 then
    { s with flags := { s.flags with isRandomAccessRead := true } }
  else
    { s with flags := { s.flags with isSeqRandomRead := true } }

def warnPage (chip : EepromChip) (s : EepromState) (written : Int) (initialAddr : Int) :
    EepromState :=
  let s := if (chip.pageSize : Int) < written then
    s.putWarning s!"Wrote {written} bytes but page size is only {chip.pageSize} bytes!" else s
  let page1 := initialAddr.tdiv chip.pageSize
  let page2 := (s.addrCounter - 1).tdiv chip.pageSize
  if page1 ≠ page2 then
    s.putWarning s!"Page write crossed page boundary from page {page1} to {page2}!"
  else
    s

def putCurAddrRead (chip : EepromChip) (s : EepromState) : EepromState :=
  match s.packets, s.bytebuf with
  | first :: p :: more, byte :: _ =>
      let last := (first :: p :: more).getLast (List.cons_ne_nil _ _)
      let s := (s.putDataByte chip p).put p.ss last.es .data ["Data", "D"]
      let s := (s.putb .curAddrRead (curAddrReadText byte)).putBin [byte]
      { s with addrCounter := s.addrCounter + 1 }
  | _, _ => s

def putOperation (chip : EepromChip) (s : EepromState) : EepromState :=
  let idx := 1 + chip.addrBytes
  if s.flags.isByteWrite then
    (s.putWordAddr chip).putDataBytes chip idx .byteWrite "Byte write"
  else if s.flags.isPageWrite then
    let t := s.putWordAddr chip
    (t.putDataBytes chip idx .pageWrite "Page write").warnPage chip
      (s.packets.length - idx : Int) t.addrCounter
  else if s.flags.isCurAddrRead then
    s.putCurAddrRead chip
  else if s.flags.isRandomAccessRead then
    (s.putWordAddr chip).putDataBytes chip (idx + 1) .randomRead "Random access read"
  else if s.flags.isSeqRandomRead then
    (s.putWordAddr chip).putDataBytes chip (idx + 1) .seqRandomRead "Sequential random read"
  else
    s

def goto (s : EepromState) (state : EepromPhase) : EepromState :=
  { s with state }

/-- A byte is kept, and another state follows. -/
def keep (s : EepromState) (databyte : BitVec 8) (state : EepromPhase) : Option EepromState :=
  (s.packetAppend databyte).map (goto · state)

/-- The transaction ends with a warning. -/
def abort (s : EepromState) (es : Nat) (msg : String) : EepromState :=
  ({ s with esBlock := es }.putWarning msg).resetVariables

def controlWordKept (chip : EepromChip) (write : Bool) (s : EepromState) : EepromState :=
  (s.putControlWord chip).goto (if write then .wGetAckNackAfterCw else .rGetAckNackAfterCw)

def stopWrite (chip : EepromChip) (s : EepromState) (es : Nat) : EepromState :=
  if s.bytebuf.length < 2 then
    s.resetVariables
  else
    (putOperation chip { s with
      esBlock := es
      flags := if s.bytebuf.length = 2 then { s.flags with isByteWrite := true }
        else { s.flags with isPageWrite := true } }).resetVariables

/-- The states of `eeprom24xx_recv_proto`. -/
def dispatch (chip : EepromChip) (s : EepromState) (ss es : Nat) (cmd : I2cProto) :
    Option EepromState :=
  match s.state, cmd with
  | .waitForStart, .start | .waitForStart, .startRepeat =>
      some ({ s with ssBlock := ss }.goto .getControlWord)
  | .waitForStart, _ => some s
  | .getControlWord, .address write databyte =>
      (s.packetAppend databyte).map (controlWordKept chip write)
  | .rGetAckNackAfterCw, .ack => some (s.goto .rGetWordAddrOrByte)
  | .rGetAckNackAfterCw, .nack => some (s.abort es "No reply from slave!")
  | .rGetWordAddrOrByte, .stop => some (s.abort es "Slave replied, but master aborted!")
  | .rGetWordAddrOrByte, .data false databyte =>
      s.keep databyte .rGetAckNackAfterWordAddrOrByte
  | .rGetAckNackAfterWordAddrOrByte, .ack => some (s.goto .rGetRestart)
  | .rGetAckNackAfterWordAddrOrByte, .nack =>
      some ({ s with flags := { s.flags with isCurAddrRead := true } }.goto .getStopAfterLastByte)
  | .rGetRestart, .startRepeat => some (s.goto .rReadByte)
  | .rReadByte, .data false databyte => s.keep databyte .rGetAckNackAfterByteRead
  | .rGetAckNackAfterByteRead, .ack => some (s.goto .rReadByte)
  | .rGetAckNackAfterByteRead, .nack => some (s.goto .getStopAfterLastByte)
  | .wGetAckNackAfterCw, .ack => some (s.goto .wGetWordAddr)
  | .wGetAckNackAfterCw, .nack => some (s.abort es "No reply from slave!")
  | .wGetWordAddr, .stop => some (s.abort es "Slave replied, but master aborted!")
  | .wGetWordAddr, .data true databyte => s.keep databyte .wGetAckAfterWordAddr
  | .wGetAckAfterWordAddr, .ack => some (s.goto .wDetermineReadOrWrite)
  | .wDetermineReadOrWrite, .startRepeat => some (s.goto .r2GetControlWord)
  | .wDetermineReadOrWrite, .data true databyte => s.keep databyte .wGetAckNackAfterByteWritten
  | .wWriteByte, .data true databyte => s.keep databyte .wGetAckNackAfterByteWritten
  | .wWriteByte, .stop => some (s.stopWrite chip es)
  | .wWriteByte, .startRepeat => some (s.goto .r2GetControlWord)
  | .wGetAckNackAfterByteWritten, .ack => some (s.goto .wWriteByte)
  | .r2GetControlWord, .address false databyte => s.keep databyte .r2GetAckAfterAddrRead
  | .r2GetAckAfterAddrRead, .ack => some (s.goto .r2ReadByte)
  | .r2ReadByte, .data false databyte => s.keep databyte .r2GetAckNackAfterByteRead
  | .r2ReadByte, .stop =>
      some (putOperation chip ({ s.decideOnSeqOrRndRead with esBlock := es }.putWarning
        "STOP expected after a NACK (not ACK)")).resetVariables
  | .r2GetAckNackAfterByteRead, .ack => some (s.goto .r2ReadByte)
  | .r2GetAckNackAfterByteRead, .nack =>
      some (s.decideOnSeqOrRndRead.goto .getStopAfterLastByte)
  | .getStopAfterLastByte, .stop =>
      some (putOperation chip { s with esBlock := es }).resetVariables
  | .getStopAfterLastByte, .startRepeat =>
      some ({ (putOperation chip ({ s with esBlock := es }.putWarning
        "STOP expected (not RESTART)")).resetVariables with ssBlock := ss }.goto .getControlWord)
  | _, _ => some s.resetVariables

/-- `eeprom24xx_recv_proto`; `none` is a write behind the end of `bytebuf`. -/
def recvProto (chip : EepromChip) (s : EepromState) (ss es : Nat) (cmd : I2cProto) :
    Option EepromState :=
  match cmd with
  | .bits bits => some { s with ss, es, bits := bits.reverse }
  | .stop =>
      (dispatch chip { s with ss, es } ss es cmd).map fun s =>
        if s.state ≠ .waitForStart then s.resetVariables else s
  | cmd => dispatch chip { s with ss, es } ss es cmd

def run (chip : EepromChip) (s : EepromState) (events : List (Nat × Nat × I2cProto)) :
    Option EepromState :=
  events.foldlM (fun s event => s.recvProto chip event.1 event.2.1 event.2.2) s

end EepromState

end SigrokDecode
