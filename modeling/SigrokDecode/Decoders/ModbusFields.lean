import SigrokDecode.Decoders.Modbus
import SigrokDecode.Foundation.Ranges

/-!
# The fields of Modbus frames

What the bytes of a whole frame mean, wherever its fields end.
-/

namespace SigrokDecode

open Foundation

namespace ModbusFrame

variable (frame : List ModbusByte)

def word (i : Nat) : Nat :=
  modbusData frame i * 0x100 + modbusData frame (i + 1)

def check (place : Nat) : BitVec 16 :=
  (crcRegister 0x8005#16 (BitVec.allOnes 16)
    (byteBits ((frame.map ModbusByte.byte).take (place - 1)))).reverse

def checkLow (place : Nat) : Nat :=
  (check frame place &&& 0xFF).toNat

def checkHigh (place : Nat) : Nat :=
  (check frame place >>> 8 &&& 0xFF).toNat

def lastByte : ModbusDirection → Option Nat
  | .sc =>
      let function := modbusData frame 1
      if function = 1 ∨ function = 2 ∨ function = 3 ∨ function = 4 ∨ function = 23 then
        some (modbusData frame 2 + 4)
      else if function = 5 ∨ function = 6 ∨ function = 15 ∨ function = 16 then some 7
      else if 0x80 < function then some 4
      else none
  | .cs =>
      let function := modbusData frame 1
      if 1 ≤ function ∧ function ≤ 6 then some 7
      else if function = 7 ∨ function = 11 ∨ function = 12 ∨ function = 17 then some 3
      else if function = 15 ∨ function = 16 then some (modbusData frame 6 + 8)
      else if function = 22 then some 9
      else if function = 23 then some (modbusData frame 10 + 12)
      else none

def crcField (place : Nat) : ModbusKind × ModbusText :=
  if modbusData frame (place - 1) = checkLow frame place ∧
      modbusData frame place = checkHigh frame place then
    (.crc, .crcCorrect)
  else
    (.error, .crcShouldBe (checkLow frame place) (checkHigh frame place))

def serverIdText (id : Nat) : ModbusDirection → ModbusText
  | .sc => ModbusAdu.scServerIdText id
  | .cs => ModbusAdu.csServerIdText id

def functionField : ModbusKind × ModbusText :=
  (.function, .function (modbusData frame 1))

def addressField (offset : Nat) : ModbusKind × ModbusText :=
  (.address, .address (word frame 2) (word frame 2 + offset))

def startField (offset : Nat) : ModbusKind × ModbusText :=
  (.address, .startAddress (word frame 2) (offset + word frame 2))

def unknownField (place : Nat) : ModbusKind × ModbusText :=
  if place = 1 then (.error, .unknownFunctionNumber (modbusData frame 1))
  else (.error, .unknownFunction)

def readBitsField (place : Nat) : ModbusKind × ModbusText :=
  if place = 1 then functionField frame
  else if place = 2 then (.length, .byteCount (modbusData frame 2))
  else (.data, .bits (modbusData frame place))

def readRegistersField (place : Nat) : ModbusKind × ModbusText :=
  if place = 1 then functionField frame
  else if place = 2 then
    if modbusData frame 2 % 2 = 0 then (.length, .byteCount (modbusData frame 2))
    else (.error, .oddByteCount (modbusData frame 2))
  else (.data, .register (word frame (place - 1)))

def singleCoilField (place : Nat) : ModbusKind × ModbusText :=
  if place = 1 then functionField frame
  else if place = 3 then addressField frame 10000
  else (.data, ModbusAdu.coilText (word frame 4))

def singleRegisterField (place : Nat) : ModbusKind × ModbusText :=
  if place = 1 then functionField frame
  else if place = 3 then addressField frame 30000
  else (.data, .registerValue (word frame 4))

def writtenField (place : Nat) : ModbusKind × ModbusText :=
  if place = 1 then functionField frame
  else if place = 3 then startField frame (ModbusAdu.longOffset (modbusData frame 1))
  else (.data, .write (word frame 4) (ModbusAdu.dataUnit (modbusData frame 1)))

def exceptionField (place : Nat) : ModbusKind × ModbusText :=
  if place = 1 then (.function, .errorFunction (modbusData frame 1 - 0x80))
  else (.data, .error (modbusData frame 2))

def readCommandField (place : Nat) : ModbusKind × ModbusText :=
  if place = 1 then functionField frame
  else if place = 3 then startField frame (10000 * modbusData frame 1 + 1)
  else (.length, .read (word frame 4))

def writeMultipleField (place : Nat) : ModbusKind × ModbusText :=
  if place = 1 then functionField frame
  else if place = 3 then startField frame (ModbusAdu.longOffset (modbusData frame 1))
  else if place = 5 then
    (.length, .write (word frame 4) (ModbusAdu.dataUnit (modbusData frame 1)))
  else if place = 6 then (.length, .byteCount (modbusData frame 6))
  else (.data, .value (modbusData frame place))

def maskField (place : Nat) : ModbusKind × ModbusText :=
  if place = 1 then functionField frame
  else if place = 3 then addressField frame 30001
  else if place = 5 then (.data, .andMask (modbusData frame 4) (modbusData frame 5))
  else (.data, .orMask (modbusData frame 6) (modbusData frame 7))

def readWriteField (place : Nat) : ModbusKind × ModbusText :=
  if place = 1 then functionField frame
  else if place = 3 then (.address, .readAddress (word frame 2) (30001 + word frame 2))
  else if place = 5 then (.length, .read (word frame 4))
  else if place = 7 then (.address, .writeAddress (word frame 6) (30001 + word frame 6))
  else if place = 9 then (.length, .writeRegisters (word frame 8))
  else (.length, .byteCount (modbusData frame 10))

def responseField (place : Nat) : ModbusKind × ModbusText :=
  let function := modbusData frame 1
  if function = 1 ∨ function = 2 then readBitsField frame place
  else if function = 3 ∨ function = 4 ∨ function = 23 then readRegistersField frame place
  else if function = 5 then singleCoilField frame place
  else if function = 6 then singleRegisterField frame place
  else if function = 15 ∨ function = 16 then writtenField frame place
  else if 0x80 < function then exceptionField frame place
  else unknownField frame place

def requestField (place : Nat) : ModbusKind × ModbusText :=
  let function := modbusData frame 1
  if 1 ≤ function ∧ function ≤ 4 then readCommandField frame place
  else if function = 5 then singleCoilField frame place
  else if function = 6 then singleRegisterField frame place
  else if function = 7 ∨ function = 11 ∨ function = 12 ∨ function = 17 then functionField frame
  else if function = 15 ∨ function = 16 then writeMultipleField frame place
  else if function = 22 then maskField frame place
  else if function = 23 then readWriteField frame place
  else unknownField frame place

/-- The field of the frame that ends at `place`. -/
def fieldAt (direction : ModbusDirection) (place : Nat) : ModbusKind × ModbusText :=
  if place = 0 then (.serverId, serverIdText (modbusData frame 0) direction)
  else if lastByte frame direction = some place then crcField frame place
  else
    match direction with
    | .sc => responseField frame place
    | .cs => requestField frame place

def fieldAnns (direction : ModbusDirection) (ends : List Nat) : List ModbusAnn :=
  (ranges 0 ends).map fun range =>
    ⟨ModbusAdu.startOf frame range.1, ModbusAdu.endOf frame range.2,
      .field direction (fieldAt frame direction range.2).1, (fieldAt frame direction range.2).2⟩

def WellFormed (direction : ModbusDirection) : Prop :=
  lastByte frame direction = some (frame.length - 1) ∧ frame.length ≤ modbusMaxFrame

end ModbusFrame

end SigrokDecode
