import SigrokDecode.Foundation.Crc

/-!
# The Modbus decoder

`modbus_c` parses the bytes of a frame anew whenever one more of them is there.
-/

namespace SigrokDecode

open Foundation

inductive ModbusDirection
  | sc
  | cs
  deriving DecidableEq

/-- The annotation classes of a direction. -/
inductive ModbusKind
  | serverId
  | function
  | crc
  | address
  | data
  | length
  | error
  deriving DecidableEq

inductive ModbusClass
  | field (direction : ModbusDirection) (kind : ModbusKind)
  | errorIndication

inductive ModbusUnit
  | coils
  | registers
  deriving DecidableEq

/-- The texts; the names of functions and of exceptions go with their numbers. -/
inductive ModbusText
  | slaveId (id : Nat)
  | invalidSlaveId
  | reservedSlaveId (id : Nat)
  | broadcast
  | function (number : Nat)
  | errorFunction (number : Nat)
  | unknownFunctionNumber (number : Nat)
  | unknownFunction
  | byteCount (count : Nat)
  | oddByteCount (count : Nat)
  | bits (byte : Nat)
  | register (value : Nat)
  | address (address name : Nat)
  | startAddress (address name : Nat)
  | readAddress (address name : Nat)
  | writeAddress (address name : Nat)
  | coilOff
  | coilOn
  | invalidCoil
  | registerValue (value : Nat)
  | write (quantity : Nat) (unit : ModbusUnit)
  | writeRegisters (quantity : Nat)
  | read (quantity : Nat)
  | value (byte : Nat)
  | andMask (first second : Nat)
  | orMask (first second : Nat)
  | error (code : Nat)
  | crcCorrect
  | crcShouldBe (byte1 byte2 : Nat)
  | tooShort
  | containsError
  | tooLong
  deriving DecidableEq

structure ModbusAnn where
  ss : BitVec 64
  es : BitVec 64
  cls : ModbusClass
  text : ModbusText

/-- An entry of the buffers of a frame. -/
structure ModbusByte where
  ss : BitVec 64
  es : BitVec 64
  byte : BitVec 8

def modbusMaxFrame : Nat := 256

def modbusCrc (data : List (BitVec 8)) : BitVec 16 :=
  crcLoop 0xA001#16 0xFFFF#16 data

/-- A byte of a buffer that is filled up with zeros. -/
def modbusData (bytes : List ModbusByte) (i : Nat) : Nat :=
  bytes[i]?.elim 0 fun entry => entry.byte.toNat

structure ModbusAdu where
  bytes : List ModbusByte
  lastRead : BitVec 64
  hasError : Bool
  /-- `last_byte_put + 1`. -/
  put : Nat
  minimumLength : Nat
  /-- History: what went out for this direction. -/
  anns : List ModbusAnn

namespace ModbusAdu

def reset (adu : ModbusAdu) (start : BitVec 64) : ModbusAdu :=
  { bytes := [], lastRead := start, hasError := false, put := 0, minimumLength := 4,
    anns := adu.anns }

def data (adu : ModbusAdu) (i : Nat) : Nat :=
  modbusData adu.bytes i

def startOf (bytes : List ModbusByte) (i : Nat) : BitVec 64 :=
  bytes[i]?.elim 0 ModbusByte.ss

def endOf (bytes : List ModbusByte) (i : Nat) : BitVec 64 :=
  bytes[i]?.elim 0 ModbusByte.es

def puta (adu : ModbusAdu) (start stop : BitVec 64) (cls : ModbusClass) (text : ModbusText) :
    ModbusAdu :=
  { adu with anns := adu.anns ++ [⟨start, stop, cls, text⟩] }

def flag (adu : ModbusAdu) (kind : ModbusKind) : ModbusAdu :=
  { adu with hasError := adu.hasError || decide (kind = .error) }

def puti (adu : ModbusAdu) (direction : ModbusDirection) (byteToPut : Nat) (kind : ModbusKind)
    (text : ModbusText) : ModbusAdu :=
  if adu.bytes.length ≤ byteToPut ∨ modbusMaxFrame ≤ byteToPut then adu
  else
    let adu := adu.flag kind
    if adu.put ≤ byteToPut then
      { adu.puta (startOf adu.bytes adu.put) (endOf adu.bytes byteToPut)
          (.field direction kind) text with put := byteToPut + 1 }
    else
      adu

def halfWord (adu : ModbusAdu) (start : Nat) : Nat :=
  if adu.bytes.length ≤ start + 1 then 0 else adu.data start * 0x100 + adu.data (start + 1)

/-- `modbus_adu_check_crc`: it compares the last two bytes that are there. -/
def checkCrc (adu : ModbusAdu) (direction : ModbusDirection) (byteToPut : Nat) : ModbusAdu :=
  if byteToPut < 3 ∨ adu.bytes.length ≤ byteToPut then adu
  else
    let crc := modbusCrc ((adu.bytes.map ModbusByte.byte).take (byteToPut - 1))
    let byte1 := (crc &&& 0xFF).toNat
    let byte2 := (crc >>> 8 &&& 0xFF).toNat
    if adu.data (adu.bytes.length - 2) = byte1 ∧ adu.data (adu.bytes.length - 1) = byte2 then
      adu.puti direction byteToPut .crc .crcCorrect
    else
      adu.puti direction byteToPut .error (.crcShouldBe byte1 byte2)

/-- A new `minimum_length`. -/
def require (adu : ModbusAdu) (length : Nat) : ModbusAdu :=
  { adu with minimumLength := length }

/-- The loops over data: at each of these places a field ends, shown only when two more bytes
are there. -/
def putData (adu : ModbusAdu) (direction : ModbusDirection) (places : List Nat)
    (text : Nat → ModbusText) : ModbusAdu :=
  places.foldl (fun adu place =>
      if place < adu.bytes.length - 2 then adu.puti direction place .data (text place) else adu)
    adu

def close (adu : ModbusAdu) (sameChannel : Bool) (direction : ModbusDirection)
    (overflowEs : BitVec 64) : ModbusAdu :=
  if adu.bytes.length < adu.minimumLength ∧ adu.bytes = [] then adu
  else
    let adu :=
      if adu.bytes.length < adu.minimumLength then
        (if 0 < adu.put ∧ adu.put ≤ adu.bytes.length then
          adu.puta (endOf adu.bytes (adu.put - 1)) overflowEs (.field direction .error) .tooShort
        else adu).flag .error
      else adu
    let adu :=
      if adu.hasError ∧ !sameChannel then
        adu.puta (startOf adu.bytes 0) (endOf adu.bytes (adu.bytes.length - 1)) .errorIndication
          .containsError
      else adu
    if 256 < adu.bytes.length then
      adu.puti direction (adu.bytes.length - 1) .error .tooLong
    else
      adu

def coilText (value : Nat) : ModbusText :=
  if value = 0x0000 then .coilOff else if value = 0xFF00 then .coilOn else .invalidCoil

def parseWriteSingleCoil (direction : ModbusDirection) (adu : ModbusAdu) : ModbusAdu :=
  let adu := (adu.require 8).puti direction 1 .function (.function 5)
  let address := adu.halfWord 2
  let adu := adu.puti direction 3 .address (.address address (address + 10000))
  let adu := adu.puti direction 5 .data (coilText (adu.halfWord 4))
  adu.checkCrc direction 7

def parseWriteSingleRegister (direction : ModbusDirection) (adu : ModbusAdu) : ModbusAdu :=
  let adu := (adu.require 8).puti direction 1 .function (.function 6)
  let address := adu.halfWord 2
  let adu := adu.puti direction 3 .address (.address address (address + 30000))
  let adu := adu.puti direction 5 .data (.registerValue (adu.halfWord 4))
  adu.checkCrc direction 7

def parseUnknown (direction : ModbusDirection) (adu : ModbusAdu) : ModbusAdu :=
  let adu := adu.puti direction 1 .error (.unknownFunctionNumber (adu.data 1))
  adu.puti direction (adu.bytes.length - 1) .error .unknownFunction

/-- `data_unit` of functions 15 and 16. -/
def dataUnit (function : Nat) : ModbusUnit :=
  if function = 15 then .coils else .registers

def longOffset (function : Nat) : Nat :=
  if function = 15 then 10001 else 30001

def scParseReadBits (adu : ModbusAdu) : ModbusAdu :=
  let adu := adu.puti .sc 1 .function (.function (adu.data 1))
  let bytecount := adu.data 2
  let adu := (adu.require (5 + bytecount)).puti .sc 2 .length (.byteCount bytecount)
  let adu := adu.putData .sc ((List.range bytecount).map (3 + ·)) fun i => .bits (adu.data i)
  adu.checkCrc .sc (bytecount + 4)

def scParseReadRegisters (adu : ModbusAdu) : ModbusAdu :=
  let adu := adu.puti .sc 1 .function (.function (adu.data 1))
  let bytecount := adu.data 2
  let adu := adu.require (5 + bytecount)
  let adu :=
    if bytecount % 2 = 0 then adu.puti .sc 2 .length (.byteCount bytecount)
    else adu.puti .sc 2 .error (.oddByteCount bytecount)
  let adu := adu.putData .sc ((List.range ((bytecount + 1) / 2)).map (4 + 2 * ·)) fun i =>
    .register (adu.halfWord (i - 1))
  adu.checkCrc .sc (bytecount + 4)

def scParseWriteSingleCoil : ModbusAdu → ModbusAdu :=
  parseWriteSingleCoil .sc

def scParseWriteSingleRegister : ModbusAdu → ModbusAdu :=
  parseWriteSingleRegister .sc

def scParseWriteMultiple (adu : ModbusAdu) : ModbusAdu :=
  let function := adu.data 1
  let adu := (adu.require 8).puti .sc 1 .function (.function function)
  let address := adu.halfWord 2
  let adu := adu.puti .sc 3 .address (.startAddress address (longOffset function + address))
  let adu := adu.puti .sc 5 .data (.write (adu.halfWord 4) (dataUnit function))
  adu.checkCrc .sc 7

def scParseError (adu : ModbusAdu) : ModbusAdu :=
  let adu := (adu.require 5).puti .sc 1 .function (.errorFunction (adu.data 1 - 0x80))
  let adu := adu.puti .sc 2 .data (.error (adu.data 2))
  adu.checkCrc .sc 4

/-- The branches of `modbus_sc_parse`, by the function. -/
def scParseFunction (adu : ModbusAdu) : ModbusAdu :=
  let function := adu.data 1
  if function = 1 ∨ function = 2 then adu.scParseReadBits
  else if function = 3 ∨ function = 4 ∨ function = 23 then adu.scParseReadRegisters
  else if function = 5 then adu.scParseWriteSingleCoil
  else if function = 6 then adu.scParseWriteSingleRegister
  else if function = 15 ∨ function = 16 then adu.scParseWriteMultiple
  else if 0x80 < function then adu.scParseError
  else adu.parseUnknown .sc

def scServerIdText (serverId : Nat) : ModbusText :=
  if 1 ≤ serverId ∧ serverId ≤ 247 then .slaveId serverId else .invalidSlaveId

def scParse (adu : ModbusAdu) : ModbusAdu :=
  if adu.bytes.length < 1 then adu
  else
    let adu := adu.puti .sc 0 .serverId (scServerIdText (adu.data 0))
    if adu.bytes.length < 2 then adu else adu.scParseFunction

def csParseReadDataCommand (adu : ModbusAdu) : ModbusAdu :=
  let function := adu.data 1
  let adu := (adu.require 8).puti .cs 1 .function (.function function)
  let address := adu.halfWord 2
  let adu := adu.puti .cs 3 .address (.startAddress address (10000 * function + 1 + address))
  let adu := adu.puti .cs 5 .length (.read (adu.halfWord 4))
  adu.checkCrc .cs 7

def csParseWriteSingleCoil : ModbusAdu → ModbusAdu :=
  parseWriteSingleCoil .cs

def csParseWriteSingleRegister : ModbusAdu → ModbusAdu :=
  parseWriteSingleRegister .cs

def csParseSingleByteRequest (adu : ModbusAdu) : ModbusAdu :=
  let adu := adu.puti .cs 1 .function (.function (adu.data 1))
  adu.checkCrc .cs 3

def csParseWriteMultiple (adu : ModbusAdu) : ModbusAdu :=
  let function := adu.data 1
  let adu := (adu.require 9).puti .cs 1 .function (.function function)
  let address := adu.halfWord 2
  let adu := adu.puti .cs 3 .address (.startAddress address (longOffset function + address))
  let adu := adu.puti .cs 5 .length (.write (adu.halfWord 4) (dataUnit function))
  if 6 < adu.bytes.length then
    let bytecount := adu.data 6
    let adu := adu.puti .cs 6 .length (.byteCount bytecount)
    let adu := adu.putData .cs ((List.range bytecount).map (7 + ·)) fun i => .value (adu.data i)
    (adu.require (bytecount + 9)).checkCrc .cs (bytecount + 8)
  else
    adu

def csParseMaskWriteRegister (adu : ModbusAdu) : ModbusAdu :=
  let adu := (adu.require 10).puti .cs 1 .function (.function 22)
  let address := adu.halfWord 2
  let adu := adu.puti .cs 3 .address (.address address (address + 30001))
  let adu :=
    if 5 < adu.bytes.length then adu.puti .cs 5 .data (.andMask (adu.data 4) (adu.data 5)) else adu
  let adu :=
    if 7 < adu.bytes.length then adu.puti .cs 7 .data (.orMask (adu.data 6) (adu.data 7)) else adu
  adu.checkCrc .cs 9

def csParseReadWriteRegisters (adu : ModbusAdu) : ModbusAdu :=
  let adu := (adu.require 13).puti .cs 1 .function (.function 23)
  let rAddress := adu.halfWord 2
  let adu := adu.puti .cs 3 .address (.readAddress rAddress (30001 + rAddress))
  let adu := adu.puti .cs 5 .length (.read (adu.halfWord 4))
  let wAddress := adu.halfWord 6
  let adu := adu.puti .cs 7 .address (.writeAddress wAddress (30001 + wAddress))
  let adu := adu.puti .cs 9 .length (.writeRegisters (adu.halfWord 8))
  if 10 < adu.bytes.length then
    let bytecount := adu.data 10
    let adu := adu.puti .cs 10 .length (.byteCount bytecount)
    (adu.require (bytecount + 13)).checkCrc .cs (bytecount + 12)
  else
    adu

/-- The branches of `modbus_cs_parse`, by the function. -/
def csParseFunction (adu : ModbusAdu) : ModbusAdu :=
  let function := adu.data 1
  if 1 ≤ function ∧ function ≤ 4 then adu.csParseReadDataCommand
  else if function = 5 then adu.csParseWriteSingleCoil
  else if function = 6 then adu.csParseWriteSingleRegister
  else if function = 7 ∨ function = 11 ∨ function = 12 ∨ function = 17 then
    adu.csParseSingleByteRequest
  else if function = 15 ∨ function = 16 then adu.csParseWriteMultiple
  else if function = 22 then adu.csParseMaskWriteRegister
  else if function = 23 then adu.csParseReadWriteRegisters
  else adu.parseUnknown .cs

def csServerIdText (serverId : Nat) : ModbusText :=
  if serverId = 0 then .broadcast
  else if 1 ≤ serverId ∧ serverId ≤ 247 then .slaveId serverId
  else .reservedSlaveId serverId

def csParse (adu : ModbusAdu) : ModbusAdu :=
  if adu.bytes.length < 1 then adu
  else
    let adu := adu.puti .cs 0 .serverId (csServerIdText (adu.data 0))
    if adu.bytes.length < 2 then adu else adu.csParseFunction

def parse (direction : ModbusDirection) (adu : ModbusAdu) : ModbusAdu :=
  match direction with
  | .sc => adu.scParse
  | .cs => adu.csParse

def addByte (adu : ModbusAdu) (input : ModbusByte) : ModbusAdu :=
  { adu with
    bytes := if adu.bytes.length < modbusMaxFrame then adu.bytes ++ [input] else adu.bytes
    lastRead := input.es }

end ModbusAdu

/-- The options, and what depends on doubles: whether a distance in samples makes more bits than
`framegap`, and `(uint64_t)(s->bitlength * 3)`. -/
structure ModbusConfig where
  scChannel : BitVec 8
  csChannel : BitVec 8
  longGap : BitVec 64 → BitVec 64 → Bool
  threeBits : BitVec 64 → BitVec 64

/-- A packet of the UART: its ends and what it is. -/
inductive ModbusPacket
  | startBit (ss es : BitVec 64)
  | stopBit (ss es : BitVec 64)
  | data (input : ModbusByte) (rxtx : BitVec 8)
  | other

structure ModbusState where
  aduSc : ModbusAdu
  aduCs : ModbusAdu
  bitlength : BitVec 64

namespace ModbusConfig

variable (config : ModbusConfig)

def channel : ModbusDirection → BitVec 8
  | .sc => config.scChannel
  | .cs => config.csChannel

def gap (bitlength : BitVec 64) (adu : ModbusAdu) (input : ModbusByte) : Bool :=
  decide (0 < adu.bytes.length ∧ 0 < adu.lastRead ∧ 0 < bitlength) &&
    config.longGap bitlength (input.ss - adu.lastRead)

def openFrame (bitlength : BitVec 64) (direction : ModbusDirection) (adu : ModbusAdu)
    (input : ModbusByte) : ModbusAdu :=
  if config.gap bitlength adu input then
    (adu.close (decide (config.scChannel = config.csChannel)) direction
      (ModbusAdu.endOf adu.bytes (adu.bytes.length - 1) + config.threeBits bitlength)).reset input.ss
  else
    adu

def decodeAdu (bitlength : BitVec 64) (direction : ModbusDirection) (adu : ModbusAdu)
    (input : ModbusByte) : ModbusAdu :=
  ((config.openFrame bitlength direction adu input).addByte input).parse direction

/-- A "DATA" packet on the channel of the direction; `start_new_frame` is never set. -/
def receive (bitlength : BitVec 64) (direction : ModbusDirection) (adu : ModbusAdu)
    (input : ModbusByte) : ModbusAdu :=
  config.decodeAdu bitlength direction
    (if adu.bytes.length = 0 then adu.reset input.ss else adu) input

end ModbusConfig

namespace ModbusState

def reset : ModbusState :=
  { aduSc := ⟨[], 0, false, 0, 0, []⟩, aduCs := ⟨[], 0, false, 0, 0, []⟩, bitlength := 0 }

def adu (s : ModbusState) : ModbusDirection → ModbusAdu
  | .sc => s.aduSc
  | .cs => s.aduCs

def learnBit (s : ModbusState) : ModbusPacket → ModbusState
  | .startBit ss es | .stopBit ss es =>
      if s.bitlength = 0 then { s with bitlength := es - ss } else s
  | _ => s

def recvProto (config : ModbusConfig) (s : ModbusState) (packet : ModbusPacket) : ModbusState :=
  match packet with
  | .data input rxtx =>
      if s.bitlength = 0 then s
      else
        { s with
          aduSc := if rxtx = config.scChannel then
            config.receive s.bitlength .sc s.aduSc input else s.aduSc
          aduCs := if rxtx = config.csChannel then
            config.receive s.bitlength .cs s.aduCs input else s.aduCs }
  | packet => s.learnBit packet

end ModbusState

end SigrokDecode
