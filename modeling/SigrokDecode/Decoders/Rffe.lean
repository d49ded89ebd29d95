import SigrokDecode.Foundation.SampleScan
import SigrokDecode.Foundation.ShiftRegister

/-!
# The RF front-end control interface

`mipi_rffe_c` samples SDATA at the falling edges of SCLK.  The place of the `c_wait` in which it
sleeps is a part of the state.
-/

set_option linter.dupNamespace false

namespace SigrokDecode

open Foundation

structure RffePins where
  sclk : Bool
  sdata : Bool

inductive RffePhase
  | findSsc
  | findSlaveAddress
  | findCommand
  | findByteCount
  | findAddress
  | findData
  | findParity
  | findBusPark
  deriving DecidableEq

inductive RffeCmd
  | none
  | erw
  | err
  | erwl
  | errl
  | rw
  | rr
  | r0w
  deriving DecidableEq

/-- The fields that `rffe_handle` reads, in the order of `proto_map`. -/
inductive RffeField
  | slaveAddress
  | byteCount
  | parity
  | address
  | data
  deriving DecidableEq

/-- The texts of the annotations; a field is `NAME[key:key0]: VALUE`. -/
inductive RffeText
  | ssc
  | command (cmd : RffeCmd)
  | field (field : RffeField) (key key0 : Int) (value : Nat)
  | parity (bit : Nat)
  | busPark
  | commandWarning
  | byteCountWarning
  | illegalEdge
  | parityWarning
  deriving DecidableEq

structure RffeAnn where
  ss : Nat
  es : Nat
  text : RffeText

/-- The calls of `c_wait`. -/
inductive RffeWait
  | sscStart
  | sscPulse
  | sscClock
  | bitFall
  | bitFallAgain
  | bitRise
  | commandFirst
  | commandFirstRise
  | commandFall
  | commandFallAgain
  | commandRise
  | busPark
  deriving DecidableEq

/-- `mipi_rffe_state`; `latched` is the local variable `sdata` of `rffe_handle`. -/
structure RffeState where
  wait : RffeWait
  latched : Bool
  bitcount : Nat
  databyte : BitVec 32
  state : RffePhase
  extended : Int
  cmdkey : RffeCmd
  byteCount : Int
  bits : Int
  parityCount : Nat
  busParkCount : Nat
  addCount : Nat
  busParkStart : Nat
  parityEnd : Nat
  ss : Nat
  es : Nat
  sdata : Bool
  parityData : BitVec 32
  parityKey : Int
  parity : Bool
  isWrite : Bool
  display : Bool
  dataStart : Nat
  anns : List RffeAnn

/-- The arguments of `rffe_handle`. -/
structure RffeArgs where
  field : RffeField
  next : RffePhase
  key : Int
  key0 : Int

def RffeCmd.parityBits : RffeCmd → Nat
  | .none => 0
  | .erw => 0
  | .err => 2
  | .erwl => 6
  | .errl => 7
  | .rw => 2
  | .rr => 3
  | .r0w => 1

namespace RffeState

def init (s : RffeState) : RffeState :=
  { s with
    cmdkey := .none
    addCount := 0
    parityCount := 0
    busParkCount := 0
    byteCount := 0
    bitcount := 0
    databyte := 0
    parityEnd := 0
    state := .findSsc
    extended := -1
    parity := false
    parityData := 0
    parityKey := 0 }

/-- `mipi_rffe_reset` and `mipi_rffe_start`. -/
def reset (display : Bool) : RffeState :=
  { wait := .sscStart
    latched := false
    bitcount := 0
    databyte := 0
    state := .findSsc
    extended := -1
    cmdkey := .none
    byteCount := 0
    bits := 0
    parityCount := 0
    busParkCount := 0
    addCount := 0
    busParkStart := 0
    parityEnd := 0
    ss := 0
    es := 0
    sdata := false
    parityData := 0
    parityKey := 0
    parity := false
    isWrite := false
    display := display
    dataStart := 0
    anns := [] }

/-- `rffe_put` between `ss` and `es`. -/
def put (s : RffeState) (text : RffeText) : RffeState :=
  { s with anns := s.anns ++ [⟨s.ss, s.es, text⟩] }

/-- The loop of `rffe_Parity`; a word has at most 32 ones. -/
def clearOnes : Nat → BitVec 32 → Bool → Bool
  | 0, _, parity => parity
  | ones + 1, word, parity =>
      if word = 0 then parity else clearOnes ones (word &&& (word - 1)) !parity

/-- `rffe_Parity` -/
def findParity (s : RffeState) : RffeState :=
  let word :=
    if s.parityCount = 1 then
      s.parityData + BitVec.ofNat 32 (s.cmdkey.parityBits * 2 ^ (s.parityKey + 1).toNat)
    else
      s.parityData
  { s with
    parity := clearOnes 32 word true
    parityData := 0
    parityKey := 0 }

/-! ## `rffe_handle` -/

/-- What `mipi_rffe_decode` hands to `rffe_handle`; the other states do not call it. -/
def args (s : RffeState) : RffeArgs :=
  match s.state with
  | .findSlaveAddress => ⟨.slaveAddress, .findCommand, 3, 0⟩
  | .findByteCount =>
      if s.cmdkey = .erw ∨ s.cmdkey = .err then ⟨.byteCount, .findParity, 3, 0⟩
      else ⟨.byteCount, .findParity, 2, 0⟩
  | .findAddress =>
      if s.cmdkey = .rw ∨ s.cmdkey = .rr then ⟨.address, .findParity, 4, 0⟩
      else if s.cmdkey = .err ∨ s.cmdkey = .erw then ⟨.address, .findParity, 7, 0⟩
      else if s.parityCount = 1 then ⟨.address, .findParity, 15, 8⟩
      else ⟨.address, .findParity, 7, 0⟩
  | .findData =>
      if s.cmdkey = .r0w then ⟨.data, .findParity, 6, 0⟩
      else if s.cmdkey = .rw ∨ s.cmdkey = .rr then ⟨.data, .findParity, 7, 0⟩
      else ⟨.data, .findParity, s.bits - 1, s.bits - 8⟩
  | _ => ⟨.parity, .findParity, 0, 0⟩

def lastBit (args : RffeArgs) : Int :=
  if 7 < args.key then 7 else args.key

def checkParity (s : RffeState) : RffeState :=
  if s.display then
    let bit := s.databyte
    let s := s.findParity
    if BitVec.ofNat 32 s.parity.toNat ≠ bit then s.put .parityWarning else s
  else
    s

def putParity (s : RffeState) (next : RffePhase) : RffeState :=
  let bit := s.databyte.toNat
  let s := { s with parityEnd := s.busParkStart }.checkParity
  let s := s.put (.parity bit)
  { s with
    bitcount := 0
    databyte := 0
    state := next }

def putField (s : RffeState) (args : RffeArgs) : RffeState :=
  let s := s.put (.field args.field args.key args.key0 s.databyte.toNat)
  { s with
    bitcount := 0
    databyte := 0
    bits := if args.field = .data then s.bits - 8 else s.bits
    state := args.next }

def maxByteCount (cmdkey : RffeCmd) : Int :=
  if cmdkey = .erw ∨ cmdkey = .err then 16 else 8

def putByteCount (s : RffeState) (args : RffeArgs) : RffeState :=
  let s := { s with byteCount := (s.databyte + 1).toInt }
  if s.byteCount < 1 ∨ maxByteCount s.cmdkey < s.byteCount then
    (s.put .byteCountWarning).init
  else
    s.putField args

/-- What `rffe_handle` does behind the last bit. -/
def finishField (s : RffeState) (args : RffeArgs) (samplenum : Nat) : RffeState :=
  let s := { s with
    ss := s.dataStart
    es := samplenum }
  if args.field = .parity then s.putParity args.next
  else
    let s := { s with
      parityData := s.databyte
      parityKey := lastBit args }
    if args.field = .byteCount then s.putByteCount args else s.putField args

/-- What `rffe_handle` does behind a bit. -/
def handle (s : RffeState) (samplenum : Nat) : RffeState :=
  let args := s.args
  let more := decide ((s.bitcount : Int) < lastBit args)
  let s := { s with databyte := shiftIn s.databyte s.latched }
  if more then { s with bitcount := s.bitcount + 1 } else s.finishField args samplenum

/-- What `STATE_FIND_PARITY` does behind `rffe_handle`. -/
def afterParity (s : RffeState) : RffeState :=
  match s.cmdkey with
  | .none => s
  | .r0w => { s with state := .findBusPark }
  | .erw =>
      if s.parityCount = 1 then
        { s with
          addCount := 1
          state := .findAddress }
      else if s.parityCount = 2 then { s with state := .findData }
      else if (s.parityCount : Int) = s.byteCount + 2 then { s with state := .findBusPark }
      else if 2 < s.parityCount then { s with state := .findData }
      else s
  | .err =>
      if s.parityCount = 1 then
        { s with
          addCount := 1
          state := .findAddress }
      else if s.parityCount = 2 then
        { s with
          busParkCount := 1
          state := .findBusPark }
      else if (s.parityCount : Int) = s.byteCount + 2 then
        { s with
          busParkCount := 2
          state := .findBusPark }
      else if 2 < s.parityCount then { s with state := .findData }
      else s
  | .erwl =>
      if s.parityCount = 1 then
        { s with
          addCount := 2
          state := .findAddress }
      else if s.parityCount = 2 then
        { s with
          addCount := 1
          state := .findAddress }
      else if s.parityCount = 3 then { s with state := .findData }
      else if (s.parityCount : Int) = s.byteCount + 3 then { s with state := .findBusPark }
      else if 3 < s.parityCount then { s with state := .findData }
      else s
  | .errl =>
      if s.parityCount = 1 then
        { s with
          addCount := 2
          state := .findAddress }
      else if s.parityCount = 2 then
        { s with
          addCount := 1
          state := .findAddress }
      else if s.parityCount = 3 then
        { s with
          busParkCount := 1
          state := .findBusPark }
      else if (s.parityCount : Int) = s.byteCount + 3 then
        { s with
          busParkCount := 2
          state := .findBusPark }
      else if 3 < s.parityCount then { s with state := .findData }
      else s
  | .rw =>
      if s.parityCount = 1 then { s with state := .findData }
      else if s.parityCount = 2 then
        { s with
          busParkCount := 1
          state := .findBusPark }
      else s
  | .rr =>
      { s with
        state := .findBusPark
        busParkCount := if s.parityCount = 1 then 1 else 2 }

/-- What `mipi_rffe_decode` does behind `rffe_handle` in this state. -/
def afterHandle (s : RffeState) : RffePhase → RffeState
  | .findByteCount => { s with bits := s.byteCount * 8 }
  | .findParity => s.afterParity
  | _ => s

def cmdset (s : RffeState) (cmd : RffeCmd) (state : RffePhase) (samplenum : Nat) : RffeState :=
  let s := { s with
    ss := s.dataStart
    es := samplenum }
  let s := s.put (.command cmd)
  { s with
    state := state
    bitcount := 0
    extended := -1
    cmdkey := cmd }

/-- `rffe_handle` up to its first `c_wait`. -/
def startField (s : RffeState) (samplenum : Nat) : RffeState :=
  { s with
    busParkStart := samplenum
    dataStart := if s.bitcount = 0 then samplenum else s.dataStart
    wait := .bitFall }

def warnCommand (s : RffeState) : RffeState :=
  let s := { s with
    ss := s.dataStart
    es := s.busParkStart }
  { (s.put .commandWarning).init with wait := .sscStart }

/-- `rffe_handle_CMD` behind a bit, and the loop up to the next `c_wait`. -/
def readCommand (s : RffeState) (samplenum : Nat) : RffeState :=
  if s.bitcount = 1 then
    { s with
      extended := if s.sdata then 0 else 1
      wait := .commandFall }
  else if s.bitcount = 2 then
    if s.extended = 0 then
      (s.cmdset (if s.sdata then .rr else .rw) .findAddress samplenum).startField samplenum
    else
      { s with
        isWrite := !s.sdata
        wait := .commandFall }
  else if s.bitcount = 3 then
    if s.extended ≠ 0 then
      if s.sdata then { s with wait := .commandFall }
      else (s.cmdset (if s.isWrite then .erw else .err) .findByteCount samplenum).startField
        samplenum
    else s.warnCommand
  else if s.bitcount = 4 then
    (s.cmdset (if s.sdata then .errl else .erwl) .findByteCount samplenum).startField samplenum
  else
    -- not reached: no command has a fifth bit
    { s with wait := .commandFall }

def startCommand (s : RffeState) (samplenum : Nat) : RffeState :=
  let s := { s with busParkStart := samplenum }
  if s.bitcount = 0 then
    { s with
      dataStart := samplenum
      wait := .commandFirst }
  else s.readCommand samplenum

/-- The loop of `mipi_rffe_decode` up to the next `c_wait`. -/
def resume (s : RffeState) (samplenum : Nat) : RffeState :=
  match s.state with
  | .findSsc => { s with wait := .sscStart }
  | .findCommand => s.startCommand samplenum
  | .findParity => { s with parityCount := s.parityCount + 1 }.startField samplenum
  | .findBusPark => { s with wait := .busPark }
  | _ => s.startField samplenum

def endBit (s : RffeState) (samplenum : Nat) : RffeState :=
  ((s.handle samplenum).afterHandle s.state).resume samplenum

def leaveBusPark (s : RffeState) : RffeState :=
  if s.cmdkey = .err ∨ s.cmdkey = .errl ∨ s.cmdkey = .rr then
    if s.busParkCount = 1 then { s with state := .findData } else s.init
  else s.init

def endBusPark (s : RffeState) (samplenum : Nat) : RffeState :=
  let s := { s with
    ss := samplenum
    es := samplenum }
  (s.put .busPark).leaveBusPark.resume samplenum

def foundSsc (s : RffeState) (samplenum : Nat) : RffeState :=
  let s := { s with
    ss := s.busParkStart
    es := samplenum }
  { s.put .ssc with state := .findSlaveAddress }.resume samplenum

def illegalEdge (s : RffeState) (samplenum : Nat) : RffeState :=
  { s with es := samplenum }.put .illegalEdge

end RffeState

namespace RffePins

def falls (old new : RffePins) : Bool :=
  old.sclk && !new.sclk

def rises (old new : RffePins) : Bool :=
  !old.sclk && new.sclk

def jumps (old new : RffePins) : Bool :=
  !new.sclk && (old.sdata != new.sdata)

end RffePins

namespace RffeState

def wakes (s : RffeState) (old new : RffePins) : Bool :=
  match s.wait with
  | .sscStart => !new.sclk && !old.sdata && new.sdata
  | .sscPulse => new.sclk || (!new.sclk && old.sdata && !new.sdata)
  | .sscClock => old.jumps new || old.rises new
  | .bitFall | .commandFall => old.falls new || (s.display && old.jumps new)
  | .bitFallAgain | .commandFallAgain => old.falls new || old.jumps new
  | .commandFirst => old.falls new
  | .bitRise | .commandFirstRise | .commandRise => old.rises new
  | .busPark => !new.sclk && !new.sdata

def wake (s : RffeState) (old new : RffePins) (samplenum : Nat) : RffeState :=
  match s.wait with
  | .sscStart =>
      { s with
        busParkStart := samplenum
        wait := .sscPulse }
  | .sscPulse => if new.sclk then { s with wait := .sscStart } else { s with wait := .sscClock }
  | .sscClock => if old.jumps new then { s with wait := .sscStart } else s.foundSsc samplenum
  | .bitFall =>
      if old.falls new then
        { s with
          latched := new.sdata
          wait := .bitRise }
      else
        { s with
          ss := samplenum
          wait := .bitFallAgain }
  | .bitFallAgain =>
      let s := s.illegalEdge samplenum
      if old.falls new then
        { s with
          latched := new.sdata
          wait := .bitRise }
      else { s with wait := .bitFall }
  | .bitRise => s.endBit samplenum
  | .commandFirst =>
      if new.sdata then { s with wait := .commandFirstRise } else { s with wait := .commandFall }
  | .commandFirstRise => (s.cmdset .r0w .findData samplenum).resume samplenum
  | .commandFall =>
      let s := if old.falls new then { s with sdata := new.sdata } else s
      if s.display && old.jumps new then
        { s with
          ss := samplenum
          wait := .commandFallAgain }
      else { s with wait := .commandRise }
  | .commandFallAgain =>
      let s := if old.falls new then { s.illegalEdge samplenum with sdata := new.sdata } else s
      let s := if old.jumps new then s.illegalEdge samplenum else s
      { s with wait := .commandRise }
  | .commandRise => { s with bitcount := s.bitcount + 1 }.resume samplenum
  | .busPark => s.endBusPark samplenum

def texts (s : RffeState) : List RffeText :=
  (s.anns.map RffeAnn.text).filter fun text => decide (text ≠ .parityWarning)

end RffeState

def rffeDecode : SampleDecoder RffeState RffePins :=
  { wakes := RffeState.wakes
    handle := RffeState.wake }

/-- What happens on the two lines; a fall of SCLK samples SDATA. -/
inductive RffeEvent
  | rise
  | fall (sdata : Bool)
  | sdata (level : Bool)

/-- Samples of the lines while these things happen; SDATA may change at any time while SCLK is
high. -/
inductive RffeLine : RffePins → List RffeEvent → List RffePins → Prop
  | done (pins : RffePins) : RffeLine pins [] []
  | still {pins : RffePins} {events : List RffeEvent} {samples : List RffePins}
      (behind : RffeLine pins events samples) : RffeLine pins events (pins :: samples)
  | change {before level : Bool} {events : List RffeEvent} {samples : List RffePins}
      (behind : RffeLine ⟨true, level⟩ events samples) :
      RffeLine ⟨true, before⟩ events (⟨true, level⟩ :: samples)
  | rise {before level : Bool} {events : List RffeEvent} {samples : List RffePins}
      (behind : RffeLine ⟨true, level⟩ events samples) :
      RffeLine ⟨false, before⟩ (.rise :: events) (⟨true, level⟩ :: samples)
  | fall {level : Bool} {events : List RffeEvent} {samples : List RffePins}
      (behind : RffeLine ⟨false, level⟩ events samples) :
      RffeLine ⟨true, level⟩ (.fall level :: events) (⟨false, level⟩ :: samples)
  | sdata {level : Bool} {events : List RffeEvent} {samples : List RffePins}
      (behind : RffeLine ⟨false, level⟩ events samples) :
      RffeLine ⟨false, !level⟩ (.sdata level :: events) (⟨false, level⟩ :: samples)

structure RffeByte where
  value : BitVec 8
  parity : Bool

/-- The commands; the parity bit behind the command itself is `parity`. -/
inductive RffeRequest
  | register0 (data : BitVec 7) (parity : Bool)
  | register (read : Bool) (address : BitVec 5) (parity : Bool) (data : RffeByte)
  | extended (read parity : Bool) (address : RffeByte) (data : List RffeByte)
      (some : 0 < data.length) (few : data.length ≤ 16)
  | extendedLong (read parity : Bool) (high low : RffeByte) (data : List RffeByte)
      (some : 0 < data.length) (few : data.length ≤ 8)

structure RffeFrame where
  slave : BitVec 4
  request : RffeRequest

def RffeByte.bits (byte : RffeByte) : List Bool :=
  msbBits 8 byte.value.toNat ++ [byte.parity]

namespace RffeRequest

def handover (read : Bool) : List Bool :=
  if read then [false] else []

/-- The bits behind the slave address, up to the last bus park cycle. -/
def bits : RffeRequest → List Bool
  | .register0 data parity => [true] ++ (msbBits 7 data.toNat ++ [parity])
  | .register read address parity data =>
      [false, true, read] ++ (msbBits 5 address.toNat ++ [parity] ++ handover read ++ data.bits)
  | .extended read parity address data _ _ =>
      [false, false, read, false] ++ (msbBits 4 (data.length - 1) ++ [parity] ++ address.bits ++
        handover read ++ data.flatMap RffeByte.bits)
  | .extendedLong read parity high low data _ _ =>
      [false, false, true, true, read] ++ (msbBits 3 (data.length - 1) ++ [parity] ++ high.bits ++
        low.bits ++ handover read ++ data.flatMap RffeByte.bits)

def cmd : RffeRequest → RffeCmd
  | .register0 _ _ => .r0w
  | .register read _ _ _ => if read then .rr else .rw
  | .extended read _ _ _ _ _ => if read then .err else .erw
  | .extendedLong read _ _ _ _ _ _ => if read then .errl else .erwl

def handoverText (read : Bool) : List RffeText :=
  if read then [.busPark] else []

end RffeRequest

def RffeByte.texts (field : RffeField) (key key0 : Int) (byte : RffeByte) : List RffeText :=
  [.field field key key0 byte.value.toNat, .parity byte.parity.toNat]

def rffeDataTexts : List RffeByte → List RffeText
  | [] => []
  | byte :: bytes =>
      byte.texts .data (8 * (bytes.length + 1) - 1) (8 * (bytes.length + 1) - 8) ++
        rffeDataTexts bytes

namespace RffeRequest

def texts : RffeRequest → List RffeText
  | .register0 data parity => [.field .data 6 0 data.toNat, .parity parity.toNat]
  | .register read address parity data =>
      [RffeText.field .address 4 0 address.toNat, .parity parity.toNat] ++ handoverText read ++
        data.texts .data 7 0
  | .extended read parity address data _ _ =>
      [RffeText.field .byteCount 3 0 (data.length - 1), .parity parity.toNat] ++
        address.texts .address 7 0 ++ handoverText read ++ rffeDataTexts data
  | .extendedLong read parity high low data _ _ =>
      [RffeText.field .byteCount 2 0 (data.length - 1), .parity parity.toNat] ++
        high.texts .address 15 8 ++ low.texts .address 7 0 ++ handoverText read ++
        rffeDataTexts data

end RffeRequest

def rffeBits (bits : List Bool) : List RffeEvent :=
  bits.flatMap fun bit => [.fall bit, .rise]

namespace RffeFrame

/-- The start condition, the bits, and the last bus park cycle. -/
def events (frame : RffeFrame) : List RffeEvent :=
  [RffeEvent.sdata true, .sdata false, .rise] ++
    rffeBits (msbBits 4 frame.slave.toNat ++ frame.request.bits) ++ [RffeEvent.fall false]

def texts (frame : RffeFrame) : List RffeText :=
  [RffeText.ssc, .field .slaveAddress 3 0 frame.slave.toNat, .command frame.request.cmd] ++
    frame.request.texts ++ [.busPark]

end RffeFrame

end SigrokDecode
