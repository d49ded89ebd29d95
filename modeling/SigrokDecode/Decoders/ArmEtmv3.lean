import Mathlib.Data.BitVec

/-!
# The ARM ETMv3 decoder

`arm_etmv3_c` collects the bytes of a trace in a buffer and handles the packet in it as soon as
its last byte is there.
-/

namespace SigrokDecode

/-- `cpu_state`. -/
inductive EtmCpu
  | arm
  | thumb
  | jazelle
  deriving DecidableEq

/-- The packet types of `get_packet_type`. -/
inductive EtmPacketType
  | branch
  | aSync
  | cyclecount
  | iSync
  | trigger
  | oooData
  | storeFailed
  | oooPlace
  | vmid
  | data
  | timestamp
  | dataSuppressed
  | ignore
  | valueNotTraced
  | contextId
  | exceptionExit
  | exceptionEntry
  | pHeader
  | unknown
  deriving DecidableEq

inductive EtmField
  | synchronization
  | exceptionExit
  | exceptionEntry
  | trigger
  | iSync (reason : Nat) (pc : BitVec 32) (cpu : EtmCpu) (cyclecount : Option (BitVec 32))
  | branch (address : BitVec 32)
  | exception (address : BitVec 32) (exception : BitVec 32)
  | pc (pc : BitVec 32)
  | execution (executed skipped : Nat)
  | twoInstructions (skipped1 skipped2 : Bool)
  | ignore
  | dataSuppressed
  | storeFailed
  | contextId (id : BitVec 32)
  | vmid (id : BitVec 32)
  | timestamp
  | cyclecount (count : BitVec 32)
  | valueNotTraced
  | unhandled (type : EtmPacketType) (bytes : List (BitVec 8))
  deriving DecidableEq

structure EtmAnn where
  ss : BitVec 64
  es : BitVec 64
  field : EtmField
  deriving DecidableEq

/-- A byte of the "DATA" packets of the UART. -/
structure EtmByte where
  ss : BitVec 64
  es : BitVec 64
  byte : BitVec 8

/-- The branch encoding, and what the machine makes of a shift by 32 places or more, which C
leaves undefined. -/
structure EtmConfig where
  branchEncAlt : Bool
  oversized : BitVec 32 → Nat → BitVec 32

namespace EtmConfig

variable (config : EtmConfig)

/-- `value << places`. -/
def shiftLeft (value : BitVec 32) (places : Nat) : BitVec 32 :=
  if places < 32 then value <<< places else config.oversized value places

/-- The loop of `parse_varint` from number `i` on: the value and `parsed_len`. -/
def parseVarintFrom : Nat → BitVec 32 → List (BitVec 8) → BitVec 32 × Nat
  | i, v, [] => (v, i)
  | i, v, byte :: bytes =>
      let v := v ||| config.shiftLeft ((byte &&& 0x7F).setWidth 32) (i * 7)
      if byte &&& 0x80 = 0 then (v, i + 1) else parseVarintFrom (i + 1) v bytes

def parseVarint (bytes : List (BitVec 8)) : BitVec 32 × Nat :=
  config.parseVarintFrom 0 0 bytes

def parseUint (bytes : List (BitVec 8)) : BitVec 32 :=
  (bytes.foldl (fun (v : BitVec 32 × Nat) byte =>
      (v.1 ||| config.shiftLeft (byte.setWidth 32) (v.2 * 8), v.2 + 1)) (0, 0)).1

end EtmConfig

def getPacketType (byte : BitVec 8) : EtmPacketType :=
  if byte &&& 0x01 ≠ 0 then .branch
  else if byte = 0x00 then .aSync
  else if byte = 0x04 then .cyclecount
  else if byte = 0x08 then .iSync
  else if byte = 0x0C then .trigger
  else if byte &&& 0xF3 = 0x20 ∨ byte &&& 0xF3 = 0x40 ∨ byte &&& 0xF3 = 0x60 then .oooData
  else if byte = 0x50 then .storeFailed
  else if byte = 0x70 then .iSync
  else if byte &&& 0xDF = 0x54 ∨ byte &&& 0xDF = 0x58 ∨ byte &&& 0xDF = 0x5C then .oooPlace
  else if byte = 0x3C then .vmid
  else if byte &&& 0xD3 = 0x02 then .data
  else if byte &&& 0xFB = 0x42 then .timestamp
  else if byte = 0x62 then .dataSuppressed
  else if byte = 0x66 then .ignore
  else if byte &&& 0xEF = 0x6A then .valueNotTraced
  else if byte = 0x6E then .contextId
  else if byte = 0x76 then .exceptionExit
  else if byte = 0x7E then .exceptionEntry
  else if byte &&& 0x81 = 0x80 then .pHeader
  else .unknown

/-- `etmv3_priv`; the buffers have their lengths. -/
structure EtmState where
  buf : List (BitVec 8)
  syncbuf : List (BitVec 8)
  prevsample : BitVec 64
  startsample : BitVec 64
  byteLen : BitVec 64
  lastBranch : BitVec 32
  cpuState : EtmCpu
  currentPc : BitVec 32
  /-- History: what went out. -/
  anns : List EtmAnn

namespace EtmState

def reset : EtmState :=
  { buf := []
    syncbuf := []
    prevsample := 0
    startsample := 0
    byteLen := 0
    lastBranch := 0
    cpuState := .arm
    currentPc := 0
    anns := [] }

def putAnn (s : EtmState) (ss es : BitVec 64) (field : EtmField) : EtmState :=
  { s with anns := s.anns ++ [⟨ss, es, field⟩] }

/-- A packet that is shown and done with. -/
def report (s : EtmState) (ss es : BitVec 64) (field : EtmField) : EtmState :=
  { s.putAnn ss es field with buf := [] }

/-- The byte `i` of the buffer. -/
def bufByte (s : EtmState) (i : Nat) : BitVec 8 :=
  s.buf.getD i 0

def handleASync (s : EtmState) (ss es : BitVec 64) : EtmState :=
  if s.bufByte (s.buf.length - 1) = 0x80 then s.report ss es .synchronization else s

section Branch

variable (config : EtmConfig)

def exceptionFlag (s : EtmState) (addr : BitVec 32) (addrlen : Nat) : Bool :=
  if config.branchEncAlt then
    decide (2 ≤ addrlen) && decide (addr &&& config.shiftLeft 1 (7 * addrlen - 1) ≠ 0)
  else
    decide (addrlen = 5) && decide (s.bufByte 4 &&& 0x40 ≠ 0)

/-- `addr_bits` in front of the shift. -/
def branchAddrBits (addrlen : Nat) : Nat :=
  if config.branchEncAlt then 7 * addrlen - 1 else 7 * addrlen

/-- The CPU state behind the fifth byte of a branch. -/
def branchCpu (s : EtmState) (addrlen : Nat) : EtmCpu :=
  if addrlen = 5 then
    if s.bufByte 4 &&& 0xB8 = 0x08 then .arm
    else if s.bufByte 4 &&& 0xB0 = 0x10 then .thumb
    else if s.bufByte 4 &&& 0xA0 = 0x20 then .jazelle
    else s.cpuState
  else
    s.cpuState

/-- The address and `addr_bits`, shifted for the CPU state. -/
def shiftAddress (cpu : EtmCpu) (addr : BitVec 32) (addrBits : Nat) : BitVec 32 × Nat :=
  match cpu with
  | .arm => ((addr &&& 0xFFFFFFFE) <<< 1, addrBits + 1)
  | .thumb => (addr &&& 0xFFFFFFFE, addrBits)
  | .jazelle => ((addr &&& 0xFFFFFFFE) >>> 1, addrBits - 1)

def branchException (s : EtmState) (addrlen : Nat) : BitVec 32 :=
  if addrlen < s.buf.length then
    let excv := (config.parseVarint (s.buf.drop addrlen)).1
    (excv >>> 1 &&& 0x0F) ||| (excv >>> 7 &&& 0x1F0)
  else
    0

def handleBranch (s : EtmState) (ss es : BitVec 64) : EtmState :=
  if s.bufByte (s.buf.length - 1) &&& 0x80 ≠ 0 then s
  else
    let parsed := config.parseVarint s.buf
    let haveExcInfo := s.exceptionFlag config parsed.1 parsed.2
    let addr :=
      if config.branchEncAlt && haveExcInfo then
        parsed.1 &&& ~~~(config.shiftLeft 1 (7 * parsed.2 - 1))
      else
        parsed.1
    let cpuState := s.branchCpu parsed.2
    let shifted := shiftAddress cpuState addr (branchAddrBits config parsed.2)
    let target :=
      if parsed.2 < 5 then
        shifted.1 ||| (s.lastBranch &&& config.shiftLeft 0xFFFFFFFF shifted.2)
      else
        shifted.1
    { s with cpuState, lastBranch := target, currentPc := target }.report ss es
      (if haveExcInfo then .exception target (s.branchException config parsed.2)
      else .branch target)

end Branch

/-- The address of an instruction synchronisation packet with `idx` bytes in front of its
information byte. -/
def putISync (config : EtmConfig) (s : EtmState) (ss es : BitVec 64) (idx : Nat)
    (cyclecount : Option (BitVec 32)) : EtmState :=
  if s.buf.length ≤ idx + 4 then s
  else
    let infobyte := s.bufByte idx
    let addr := config.parseUint ((s.buf.drop (idx + 1)).take 4)
    let cpuState := if addr &&& 1 ≠ 0 then EtmCpu.thumb else .arm
    let pc := addr &&& 0xFFFFFFFE
    { s with lastBranch := pc, currentPc := pc, cpuState }.report ss es
      (.iSync (infobyte >>> 5 &&& 3).toNat pc cpuState cyclecount)

def handleISync (config : EtmConfig) (s : EtmState) (ss es : BitVec 64) : EtmState :=
  if s.buf.length < 6 then s
  else if s.bufByte 0 = 0x08 then s.putISync config ss es 1 none
  else if s.bufByte 0 = 0x70 then
    let parsed := config.parseVarint (s.buf.drop 1)
    s.putISync config ss es (1 + parsed.2) (some parsed.1)
  else
    s

def advancePc (s : EtmState) : EtmState :=
  { s with currentPc := s.currentPc + if s.cpuState = .thumb then 2 else 4 }

def executeOne (ss tdelta : BitVec 64) (s : EtmState) (i : Nat) : EtmState :=
  (s.putAnn (ss + tdelta * BitVec.ofNat 64 i) (ss + tdelta * BitVec.ofNat 64 (i + 1))
    (.pc s.currentPc)).advancePc

def handlePHeader (s : EtmState) (ss es : BitVec 64) : EtmState :=
  let header := s.bufByte 0
  if header &&& 0x83 = 0x80 then
    let n := (header >>> 6 &&& 1).toNat
    let e := (header >>> 2 &&& 15).toNat
    let tdelta := if e + n > 0 then (es - ss) / BitVec.ofNat 64 (e + n) else 1
    let s := (List.range e).foldl (executeOne ss tdelta) s
    let s := (List.range n).foldl (fun s _ => s.advancePc) s
    s.report ss es (.execution e n)
  else if header &&& 0xF3 = 0x82 then
    let i1 := header.getLsbD 3
    let i2 := header.getLsbD 2
    let s := s.putAnn ss es (.twoInstructions i1 i2)
    let s := if !i1 then s.advancePc else s
    let s := if !i2 then s.advancePc else s
    { s with buf := [] }
  else
    { s with buf := [] }

def processBuffer (config : EtmConfig) (s : EtmState) (ss es : BitVec 64) : EtmState :=
  match s.buf with
  | [] => s
  | first :: rest =>
      match getPacketType first with
      | .aSync => s.handleASync ss es
      | .exceptionExit => s.report ss es .exceptionExit
      | .exceptionEntry => s.report ss es .exceptionEntry
      | .trigger => s.report ss es .trigger
      | .ignore => s.report ss es .ignore
      | .dataSuppressed => s.report ss es .dataSuppressed
      | .storeFailed => s.report ss es .storeFailed
      | .pHeader => s.handlePHeader ss es
      | .branch => s.handleBranch config ss es
      | .iSync => s.handleISync config ss es
      | .contextId => s.report ss es (.contextId (config.parseUint rest))
      | .vmid => s.report ss es (.vmid (config.parseUint rest))
      | .timestamp => s.report ss es .timestamp
      | .cyclecount => s.report ss es (.cyclecount (config.parseVarint rest).1)
      | .valueNotTraced => s.report ss es .valueNotTraced
      | type => s.report ss es (.unhandled type s.buf)

/-- A long pause drops the buffer; then the byte is stored. -/
def storeByte (s : EtmState) (input : EtmByte) : EtmState :=
  let byteLen := input.es - input.ss
  let buf :=
    if 16 * byteLen < input.ss - s.prevsample ∧ s.prevsample ≠ 0 then [] else s.buf
  let buf := if buf.length < 64 then buf ++ [input.byte] else buf
  { s with
    byteLen
    prevsample := input.es
    buf
    startsample := if buf.length = 1 then input.ss else s.startsample }

def syncPattern : List (BitVec 8) :=
  [0x00, 0x00, 0x00, 0x00, 0x80]

def pushSync (s : EtmState) (byte : BitVec 8) : EtmState :=
  { s with
    syncbuf := (if s.syncbuf.length < 5 then s.syncbuf else s.syncbuf.drop 1) ++ [byte] }

/-- `arm_etmv3_recv_proto`, which ignores all but "DATA" packets. -/
def recvProto (config : EtmConfig) (s : EtmState) (input : EtmByte) : EtmState :=
  let s := (s.storeByte input).pushSync input.byte
  let s := if s.syncbuf = syncPattern then { s with buf := syncPattern } else s
  s.processBuffer config s.startsample input.es

end EtmState

end SigrokDecode
