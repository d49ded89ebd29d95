import SigrokDecode.Foundation.BitFields

/-!
# The USB packet decoder

`usb_packet_c`: bits collected between `SOP` and `EOP`, and `usb_pkt_handle_packet`
over them.
-/

namespace SigrokDecode

open Foundation

/-- The names in `pid_table`. -/
inductive UsbPid
  | out
  | in
  | sof
  | setup
  | data0
  | data1
  | data2
  | mdata
  | ack
  | nak
  | stall
  | nyet
  | pre
  | split
  | ping
  | reserved
  deriving DecidableEq

/-- `enum pid_category`. -/
inductive UsbPidCategory
  | token
  | data
  | handshake
  | special
  deriving DecidableEq

namespace UsbPid

def all : List UsbPid :=
  [.out, .in, .sof, .setup, .data0, .data1, .data2, .mdata, .ack, .nak, .stall, .nyet, .pre,
    .split, .ping, .reserved]

/-- `bitstr` of a row, as the number that it spells with its first bit on top. -/
def bitstr : UsbPid → BitVec 8
  | .out => 0b10000111#8
  | .in => 0b10010110#8
  | .sof => 0b10100101#8
  | .setup => 0b10110100#8
  | .data0 => 0b11000011#8
  | .data1 => 0b11010010#8
  | .data2 => 0b11100001#8
  | .mdata => 0b11110000#8
  | .ack => 0b01001011#8
  | .nak => 0b01011010#8
  | .stall => 0b01111000#8
  | .nyet => 0b01101001#8
  | .pre => 0b00111100#8
  | .split => 0b00011110#8
  | .ping => 0b00101101#8
  | .reserved => 0b00001111#8

def bits (pid : UsbPid) : List Bool :=
  msbBits 8 pid.bitstr.toNat

def category : UsbPid → UsbPidCategory
  | .out => .token
  | .in => .token
  | .sof => .token
  | .setup => .token
  | .data0 => .data
  | .data1 => .data
  | .data2 => .data
  | .mdata => .data
  | .ack => .handshake
  | .nak => .handshake
  | .stall => .handshake
  | .nyet => .handshake
  | .pre => .special
  | .split => .special
  | .ping => .special
  | .reserved => .special

end UsbPid

/-- The texts that go out under `ANN_PKT_INVALID`. -/
inductive UsbInvalid
  | shorterThan16
  | syncError
  | plain
  deriving DecidableEq

def UsbInvalid.text : UsbInvalid → String
  | .shorterThan16 => "Invalid packet (shorter than 16 bits)"
  | .syncError => "Invalid packet (SYNC error)"
  | .plain => "Invalid"

/-- The annotation classes with the values that their texts show. -/
inductive UsbPktField
  | syncOk
  | syncErr (bits : List Bool)
  | pid (name : UsbPid)
  | unknownPid (bits : List Bool)
  | framenum (value : Nat)
  | addr (value : Nat)
  | ep (value : Nat)
  | crc5Ok (value : Nat)
  | crc5Err (value : Nat)
  | data (byte : Nat)
  | crc16Ok (value : Nat)
  | crc16Err (value : Nat)
  | sofPacket (framenum : Nat)
  | tokenPacket (name : UsbPid) (addr ep : Nat)
  | dataPacket (name : UsbPid) (bytes : List Nat)
  | longPacket (name : UsbPid) (count : Nat)
  | plainPacket (name : UsbPid)
  | invalid (reason : UsbInvalid)
  deriving DecidableEq

structure UsbPktAnn where
  ss : Nat
  es : Nat
  field : UsbPktField

/-- What follows the category and the name in a `PACKET`. -/
inductive UsbPktFields
  | sof (framenum : Nat)
  | token (addr ep : Nat)
  | data (bytes : List Nat)
  | none

structure UsbPktProto where
  ss : Nat
  es : Nat
  category : UsbPidCategory
  name : UsbPid
  fields : UsbPktFields

/-- The commands of `usb_signalling` that the decoder looks at; a `BIT` may come without a
byte. -/
inductive UsbCommand
  | sop
  | bit (value : Option (BitVec 8))
  | eop
  | err
  | other

inductive UsbPktPhase
  | waitSop
  | getBit
  deriving DecidableEq

/-- `usb_pkt_s`; `bits_len` is the length of the three lists. -/
structure UsbPktState where
  state : UsbPktPhase
  bits : List Bool
  bitSs : List Nat
  bitEs : List Nat
  ssPacket : Nat
  esPacket : Nat
  /-- History: what went out. -/
  anns : List UsbPktAnn
  protos : List UsbPktProto

def usbPktMaxBits : Nat := 4096

/-- The loop of both check functions: `polynomial` has the bit above the register, which
`ones` cuts off again. -/
def usbPktShift (width polynomial ones : Nat) (crc : Nat) (bit : Bool) : Nat :=
  let crc := crc <<< 1
  (if bit.toNat ≠ crc >>> width then crc ^^^ polynomial else crc) &&& ones

/-- The loop at their end. -/
def reverseBits (width value : Nat) : Nat :=
  (List.range width).foldl
    (fun out i => if value >>> i &&& 1 ≠ 0 then out ||| 1 <<< (width - 1 - i) else out) 0

def usbPktCalcCrc (width polynomial ones : Nat) (bits : List Bool) : Nat :=
  reverseBits width (bits.foldl (usbPktShift width polynomial ones) ones ^^^ ones)

def usbPktCalcCrc5 (bits : List Bool) : Nat :=
  usbPktCalcCrc 5 0x25 0x1f bits

def usbPktCalcCrc16 (bits : List Bool) : Nat :=
  usbPktCalcCrc 16 0x18005 0xffff bits

def usbPktBitsToByte (bits : List Bool) (start len : Nat) : Nat :=
  packLsb ((bits.drop start).take (min len 8))

def usbPktBitsToInt (bits : List Bool) (start len : Nat) : Nat :=
  packLsb ((bits.drop start).take (min len 32))

/-- `usb_pkt_find_pid` at the head of `bits`. -/
def usbPktFindPid (bits : List Bool) : Option UsbPid :=
  UsbPid.all.find? fun pid => pid.bits == bits.take 8

namespace UsbPktState

/-- What `usb_pkt_start` leaves. -/
def idle : UsbPktState :=
  { state := .waitSop
    bits := []
    bitSs := []
    bitEs := []
    ssPacket := 0
    esPacket := 0
    anns := []
    protos := [] }

def put (s : UsbPktState) (ss es : Nat) (field : UsbPktField) : UsbPktState :=
  { s with anns := s.anns ++ [{ ss, es, field }] }

/-- An annotation from bit `first` to bit `last`. -/
def putBits (s : UsbPktState) (first last : Nat) (field : UsbPktField) : UsbPktState :=
  s.put (s.bitSs.getD first 0) (s.bitEs.getD last 0) field

def putPacket (s : UsbPktState) (field : UsbPktField) : UsbPktState :=
  s.put s.ssPacket s.esPacket field

def proto (s : UsbPktState) (category : UsbPidCategory) (name : UsbPid) (fields : UsbPktFields) :
    UsbPktState :=
  { s with
    protos := s.protos ++ [{ ss := s.ssPacket, es := s.esPacket, category, name, fields }] }

/-- The check of a token is taken over the 19 bits behind the synchronisation. -/
def handleCrc5 (s : UsbPktState) : UsbPktState :=
  let received := usbPktBitsToInt s.bits 27 5
  s.putBits 27 31
    (if received = usbPktCalcCrc5 ((s.bits.drop 8).take 19) then .crc5Ok received
      else .crc5Err received)

def handleSof (s : UsbPktState) : UsbPktState :=
  let framenum := usbPktBitsToInt s.bits 16 11
  let s := (s.putBits 16 26 (.framenum framenum)).handleCrc5
  (s.putPacket (.sofPacket framenum)).proto .token .sof (.sof framenum)

def handleToken (s : UsbPktState) (pid : UsbPid) : UsbPktState :=
  if s.bits.length < 40 then
    s.putPacket (.invalid .plain)
  else if pid = .sof then
    s.handleSof
  else
    let addr := usbPktBitsToInt s.bits 16 7
    let ep := usbPktBitsToInt s.bits 23 4
    let s := ((s.putBits 16 22 (.addr addr)).putBits 23 26 (.ep ep)).handleCrc5
    (s.putPacket (.tokenPacket pid addr ep)).proto .token pid (.token addr ep)

def dataByte (s : UsbPktState) (i : Nat) : Nat :=
  usbPktBitsToByte s.bits (16 + i * 8) 8

def putDataByte (s : UsbPktState) (i : Nat) : UsbPktState :=
  s.putBits (16 + i * 8) (16 + i * 8 + 7) (.data (s.dataByte i))

def handleCrc16 (s : UsbPktState) (received calculated : Nat) : UsbPktState :=
  s.putBits (s.bits.length - 16) (s.bits.length - 1)
    (if received = calculated then .crc16Ok received else .crc16Err received)

def handleData (s : UsbPktState) (pid : UsbPid) : UsbPktState :=
  if s.bits.length < 32 ∨ (s.bits.length - 32) % 8 ≠ 0 then
    s.putPacket (.invalid .plain)
  else
    let count := (s.bits.length - 32) / 8
    let received := usbPktBitsToInt s.bits (s.bits.length - 16) 16 % 2 ^ 16
    let calculated := usbPktCalcCrc16 ((s.bits.drop 8).take (s.bits.length - 16 - 8))
    let s := (List.range count).foldl putDataByte s
    let s := s.handleCrc16 received calculated
    let bytes := (List.range count).map s.dataByte
    let s := s.putPacket (if count ≤ 8 then .dataPacket pid bytes else .longPacket pid count)
    s.proto .data pid (.data (bytes.take 1024))

def handlePid (s : UsbPktState) (pid : UsbPid) : UsbPktState :=
  let s := s.putBits 8 15 (.pid pid)
  match pid.category with
  | .token => s.handleToken pid
  | .data => s.handleData pid
  | .handshake => (s.putPacket (.plainPacket pid)).proto .handshake pid .none
  | .special => (s.putPacket (.plainPacket pid)).proto .special pid .none

def syncBits : List Bool :=
  [false, false, false, false, false, false, false, true]

def handlePacket (s : UsbPktState) : UsbPktState :=
  if s.bits.length < 8 then
    s
  else
    let sync := s.bits.take 8
    let s := s.putBits 0 7 (if sync = syncBits then .syncOk else .syncErr sync)
    if s.bits.length < 16 then
      s.putPacket (.invalid .shorterThan16)
    else if sync ≠ syncBits then
      s.putPacket (.invalid .syncError)
    else
      match usbPktFindPid (s.bits.drop 8) with
      | none =>
          (s.putBits 8 15 (.unknownPid ((s.bits.drop 8).take 8))).putPacket (.invalid .plain)
      | some pid => s.handlePid pid

def pushBit (s : UsbPktState) (ss es : Nat) (bit : Bool) : UsbPktState :=
  if s.bits.length < usbPktMaxBits then
    { s with
      bits := s.bits ++ [bit]
      bitSs := s.bitSs ++ [ss]
      bitEs := s.bitEs ++ [es] }
  else
    s

def endPacket (s : UsbPktState) (es : Nat) : UsbPktState :=
  { ({ s with esPacket := es } : UsbPktState).handlePacket with
    bits := []
    bitSs := []
    bitEs := []
    state := .waitSop }

def startPacket (s : UsbPktState) (ss : Nat) : UsbPktState :=
  { s with
    ssPacket := ss
    bits := []
    bitSs := []
    bitEs := []
    state := .getBit }

def decodeUpper (s : UsbPktState) (ss es : Nat) (command : UsbCommand) : UsbPktState :=
  match s.state, command with
  | .waitSop, .sop => s.startPacket ss
  | .getBit, .bit value => s.pushBit ss es (value.getD 0 = 1#8)
  | .getBit, .eop => s.endPacket es
  | .getBit, .err => s.endPacket es
  | _, _ => s

end UsbPktState

end SigrokDecode
