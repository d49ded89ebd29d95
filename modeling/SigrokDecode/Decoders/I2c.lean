import SigrokDecode.Foundation.BitFields
import SigrokDecode.Foundation.SampleScan

/-!
# The I2C decoder

`i2c_c` finds the start conditions, the bits at the rising clock edges and the
stop conditions.
-/

namespace SigrokDecode

open Foundation

structure I2cPins where
  scl : Bool
  sda : Bool

/-- `i2c_state`. -/
inductive I2cPhase
  | findStart
  | findAddress
  | findData
  | findAck
  deriving DecidableEq

/-- `i2c_bit_entry`. -/
structure I2cBit where
  sda : Bool
  ss : Nat
  es : Nat
  deriving DecidableEq

inductive I2cProto
  | start
  | startRepeat
  | stop
  | ack
  | nack
  /-- In the order of the wire. -/
  | bits (bits : List I2cBit)
  | address (write : Bool) (byte : BitVec 8)
  | data (write : Bool) (byte : BitVec 8)
  deriving DecidableEq

/-- The part of a packet between two start conditions. -/
structure I2cPart where
  address : BitVec 8
  read : Bool
  data : List (BitVec 8)

inductive I2cField
  | start
  | startRepeat
  | stop
  | ack
  | nack
  | bit (value : Bool)
  | direction (write : Bool)
  | address (write : Bool) (byte : BitVec 8)
  | data (write : Bool) (byte : BitVec 8)
  | packet (parts : List I2cPart)
  | atkData
  | atkRise

structure I2cOut (Content : Type) where
  ss : Nat
  es : Nat
  content : Content

/-- The options; `packets` is false for the packet format "none". -/
structure I2cConfig where
  addressShifted : Bool
  showDataPoint : Bool
  packets : Bool

/-- The state of the decoder.  `packetStr` has the parts of the string. -/
structure I2cState where
  state : I2cPhase
  bitcount : Nat
  databyte : BitVec 8
  ssByte : Nat
  wr : Int
  isRepeatStart : Bool
  bitwidth : Nat
  packetSs : Nat
  packetEs : Nat
  address : BitVec 8
  packetData : List (BitVec 8)
  packetStr : List I2cPart
  /-- The last bit comes first. -/
  bits : List I2cBit
  /-- History: what went out. -/
  anns : List (I2cOut I2cField)
  protos : List (I2cOut I2cProto)
  /-- The class and the byte. -/
  binary : List (I2cOut (Nat × BitVec 8))

namespace I2cState

/-- `i2c_reset_impl` and `i2c_start`. -/
def reset : I2cState :=
  { state := .findStart
    bitcount := 0
    databyte := 0
    ssByte := 0
    wr := -1
    isRepeatStart := false
    bitwidth := 0
    packetSs := 0
    packetEs := 0
    address := 0
    packetData := []
    packetStr := []
    bits := List.replicate 8 ⟨false, 0, 0⟩
    anns := []
    protos := []
    binary := [] }

def put (s : I2cState) (ss es : Nat) (field : I2cField) : I2cState :=
  { s with anns := s.anns ++ [⟨ss, es, field⟩] }

def proto (s : I2cState) (ss es : Nat) (proto : I2cProto) : I2cState :=
  { s with protos := s.protos ++ [⟨ss, es, proto⟩] }

def resetPacket (s : I2cState) : I2cState :=
  { s with
    packetData := []
    packetStr := []
    packetSs := 0
    packetEs := 0
    address := 0 }

def formatPacket (s : I2cState) : List I2cPart :=
  s.packetStr ++ [{ address := s.address, read := decide (s.wr = 0), data := s.packetData }]

def handlePacket (config : I2cConfig) (s : I2cState) (isStartRepeat : Bool) : I2cState :=
  if config.packets then
    if s.packetData.isEmpty then
      if isStartRepeat then s else s.resetPacket
    else if isStartRepeat then
      { s with
        packetData := []
        packetStr := s.formatPacket }
    else
      (s.put s.packetSs s.packetEs (.packet s.formatPacket)).resetPacket
  else
    s

def handleStart (config : I2cConfig) (s : I2cState) (samplenum : Nat) : I2cState :=
  let s :=
    if s.isRepeatStart then
      ((s.put samplenum samplenum .startRepeat).proto samplenum samplenum .startRepeat).handlePacket
        config true
    else
      { ((s.put samplenum samplenum .start).proto samplenum samplenum .start).handlePacket
          config false with
        packetSs := samplenum }
  { s with
    state := .findAddress
    bitcount := 0
    databyte := 0
    isRepeatStart := true
    wr := -1 }

/-- The bit before ends where the new one starts. -/
def closeBit (samplenum : Nat) : List I2cBit → List I2cBit
  | [] => []
  | bit :: bits => { bit with es := samplenum } :: bits

def storeBit (s : I2cState) (samplenum : Nat) (sda : Bool) : I2cState :=
  { s with
    databyte := s.databyte <<< 1 ||| (BitVec.ofBool sda).setWidth 8
    ssByte := if s.bitcount = 0 then samplenum else s.ssByte
    bits := ⟨sda, samplenum, samplenum⟩ ::
      if 0 < s.bitcount then closeBit samplenum (s.bits.take 7) else s.bits.take 7 }

def bitEnd (s : I2cState) (i : Nat) : Nat :=
  (s.bits[i]?).elim 0 I2cBit.es

/-- The last bit of a byte is as wide as the one in front of it. -/
def measureBit (s : I2cState) : I2cState :=
  if s.bitcount = 7 then
    { s with
      bitwidth := s.bitEnd 1 - s.bitEnd 2
      bits := s.bits.modify 0 fun bit => { bit with es := bit.es + (s.bitEnd 1 - s.bitEnd 2) } }
  else
    s

def reportedByte (config : I2cConfig) (s : I2cState) : BitVec 8 :=
  if s.state = .findAddress ∧ config.addressShifted then s.databyte >>> 1 else s.databyte

def directionOf (s : I2cState) : Int :=
  if s.state = .findAddress then if s.databyte &&& 1 ≠ 0 then 0 else 1 else s.wr

def putDataPoint (config : I2cConfig) (s : I2cState) (samplenum : Nat) : I2cState :=
  if config.showDataPoint then
    (s.put samplenum samplenum .atkData).put samplenum samplenum .atkRise
  else
    s

def putBits (config : I2cConfig) (s : I2cState) : I2cState :=
  s.bits.foldl (fun s bit => putDataPoint config (s.put bit.ss bit.es (.bit bit.sda)) bit.ss) s

def finishAddress (config : I2cConfig) (s : I2cState) (samplenum byteEnd : Nat)
    (byte : BitVec 8) : I2cState :=
  let s := s.proto s.ssByte byteEnd (.bits s.bits.reverse)
  let s := s.proto s.ssByte byteEnd (.address (decide (s.wr ≠ 0)) byte)
  let s := { s with
    binary := s.binary ++ [⟨s.ssByte, byteEnd, (if s.wr = 1 then 1 else 0, byte)⟩] }
  let s := putBits config s
  let s := s.put samplenum byteEnd (.direction (decide (s.wr ≠ 0)))
  let s := putDataPoint config s samplenum
  let s := s.put s.ssByte samplenum (.address (decide (s.wr = 1)) byte)
  { s with address := byte }

def finishData (config : I2cConfig) (s : I2cState) (byteEnd : Nat) (byte : BitVec 8) : I2cState :=
  let s := { s with packetData := s.packetData ++ [byte] }
  let s := s.proto s.ssByte byteEnd (.bits s.bits.reverse)
  let s := s.proto s.ssByte byteEnd (.data (decide (s.wr ≠ 0)) byte)
  let s := { s with
    binary := s.binary ++ [⟨s.ssByte, byteEnd, (if s.wr = 1 then 3 else 2, byte)⟩] }
  let s := putBits config s
  s.put s.ssByte byteEnd (.data (decide (s.wr = 1)) byte)

def takeDirection (s : I2cState) (byteEnd : Nat) : I2cState :=
  { s with
    wr := s.directionOf
    packetEs := byteEnd }

def awaitAck (s : I2cState) : I2cState :=
  { s with
    bitcount := 0
    databyte := 0
    state := .findAck }

def finishByte (config : I2cConfig) (s : I2cState) (samplenum : Nat) : I2cState :=
  let byte := s.reportedByte config
  let byteEnd := samplenum + s.bitwidth
  if s.state = .findAddress then
    ((s.takeDirection byteEnd).finishAddress config samplenum byteEnd byte).awaitAck
  else
    ((s.takeDirection byteEnd).finishData config byteEnd byte).awaitAck

def handleAddressOrData (config : I2cConfig) (s : I2cState) (samplenum : Nat) (sda : Bool) :
    I2cState :=
  let s := (s.storeBit samplenum sda).measureBit
  if s.bitcount < 7 then { s with bitcount := s.bitcount + 1 } else s.finishByte config samplenum

def getAck (s : I2cState) (samplenum : Nat) (sda : Bool) : I2cState :=
  let ackEnd := samplenum + s.bitwidth
  let s := { s with packetEs := ackEnd }
  let s :=
    if sda then (s.put samplenum ackEnd .nack).proto samplenum ackEnd .nack
    else (s.put samplenum ackEnd .ack).proto samplenum ackEnd .ack
  { s with state := .findData }

def handleStop (config : I2cConfig) (s : I2cState) (samplenum : Nat) : I2cState :=
  let s := { s with packetEs := samplenum }
  let s := s.handlePacket config false
  let s := (s.put samplenum samplenum .stop).proto samplenum samplenum .stop
  { s with
    state := .findStart
    isRepeatStart := false
    wr := -1 }

def sclRises (old new : I2cPins) : Bool :=
  !old.scl && new.scl

def startSeen (old new : I2cPins) : Bool :=
  new.scl && (old.sda && !new.sda)

def stopSeen (old new : I2cPins) : Bool :=
  new.scl && (!old.sda && new.sda)

def wakes (s : I2cState) (old new : I2cPins) : Bool :=
  match s.state with
  | .findStart => startSeen old new
  | .findAddress => sclRises old new
  | .findData => sclRises old new || startSeen old new || stopSeen old new
  | .findAck => sclRises old new

def handle (config : I2cConfig) (s : I2cState) (old new : I2cPins) (samplenum : Nat) : I2cState :=
  match s.state with
  | .findStart => s.handleStart config samplenum
  | .findAddress => s.handleAddressOrData config samplenum new.sda
  | .findData =>
      if sclRises old new then s.handleAddressOrData config samplenum new.sda
      else if startSeen old new then s.handleStart config samplenum
      else if stopSeen old new then s.handleStop config samplenum
      else s
  | .findAck => s.getAck samplenum new.sda

end I2cState

def i2cDecode (config : I2cConfig) : SampleDecoder I2cState I2cPins :=
  { wakes := I2cState.wakes
    handle := I2cState.handle config }

end SigrokDecode
