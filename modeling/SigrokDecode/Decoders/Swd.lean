import SigrokDecode.Foundation.BitFields

/-!
# Serial Wire Debug

`swd_c` and `decoders/swd` look for requests in the bits they have sampled.  The one keeps 128 of
them, the other all.
-/

namespace SigrokDecode

open Foundation

inductive SwdPhase
  | unknown
  | req
  | ack
  | data
  | dparity
  deriving DecidableEq

inductive SwdAck
  | ok
  | fault
  | wait
  | noReply
  | error
  deriving DecidableEq

structure SwdEdge where
  samplenum : Nat
  clk : Bool
  dio : Bool

/-- An entry of `bits` and of `samplenums`. -/
structure SwdBit where
  dio : Bool
  samplenum : Nat

inductive SwdText
  | lineReset
  | jtagToSwd
  | request (read : Bool) (description : String)
  | ack (ack : SwdAck)
  | data (value : Nat)
  | parity (calculated received : Bool)
  deriving DecidableEq

inductive SwdOut
  | text (ss es : Nat) (text : SwdText)
  | lineReset (ss es : Nat)
  | transfer (ss es : Nat) (ap read : Bool) (addr data : Nat) (ack : SwdAck)

/-- The debug port, and the transfer that is under way; Python has no values for the transfer before
the first request, when nothing reads them. -/
structure SwdPort where
  read : Bool
  ap : Bool
  addr : Nat
  data : Nat
  dparity : Bool
  ack : SwdAck
  ctrlsel : Nat
  orundetect : Nat

def SwdPort.initial : SwdPort :=
  ⟨false, false, 0, 0, false, .ok, 0, 0⟩

/-- `get_address_description`; the address is one of 0, 4, 8 and 12. -/
def SwdPort.addressDescription (port : SwdPort) : String :=
  if port.ap then
    (if port.read then "R AP" else "W AP") ++ String.ofList (Nat.toDigits 16 port.addr)
  else if port.read then
    if port.addr = 0x0 then "IDCODE"
    else if port.addr = 0x4 then if port.ctrlsel = 0 then "R CTRL/STAT" else "R DLCR"
    else if port.addr = 0x8 then "RESEND"
    else "RDBUFF"
  else
    if port.addr = 0x0 then "W ABORT"
    else if port.addr = 0x4 then if port.ctrlsel = 0 then "W CTRL/STAT" else "W DLCR"
    else if port.addr = 0x8 then "W SELECT"
    else "W RESERVED"

def SwdPort.handleCompletedWrite (port : SwdPort) : SwdPort :=
  if port.ap then port
  else if port.addr = 0x8 then { port with ctrlsel := port.data % 2 }
  else if port.addr = 0x4 ∧ port.ctrlsel = 0 then { port with orundetect := port.data % 2 }
  else port

/-- The last `count` bits. -/
def lastBits (count : Nat) (bits : List SwdBit) : List SwdBit :=
  bits.drop (bits.length - count)

/-- `jtag_swd_pat` and `RE_SWDSWITCH`. -/
def swdSwitch : List Bool :=
  [false, true, true, true, true, false, false, true, true, true, true, false, false, true, true,
    true]

def isSwdSwitch (bits : List SwdBit) : Bool :=
  (lastBits 16 bits).map SwdBit.dio == swdSwitch

structure SwdRequest where
  ap : Bool
  read : Bool
  addr0 : Bool
  addr1 : Bool

/-- The request in the last eight bits, `RE_SWDREQ` in Python; the parity is not looked at. -/
def swdRequest (bits : List SwdBit) : Option SwdRequest :=
  match (lastBits 8 bits).map SwdBit.dio with
  | [true, ap, read, addr0, addr1, _, false, true] => some ⟨ap, read, addr0, addr1⟩
  | _ => none

def SwdRequest.addr (request : SwdRequest) : Nat :=
  (2 * request.addr1.toNat + request.addr0.toNat) * 4

def swdParity (bits : List SwdBit) : Bool :=
  bits.countP SwdBit.dio % 2 = 1

def swdAck (bits : List SwdBit) : SwdAck :=
  if bits.map SwdBit.dio = [true, false, false] then .ok
  else if bits.map SwdBit.dio = [false, false, true] then .fault
  else if bits.map SwdBit.dio = [false, true, false] then .wait
  else if bits.map SwdBit.dio = [true, true, true] then .noReply
  else .error

/-- `swd_s`; `bits` is what `bits[]` and `samplenums[]` hold up to `bits_len`. -/
structure SwdC where
  state : SwdPhase
  sampleEdge : Bool
  turnaround : Nat
  ssReq : Nat
  bits : List SwdBit
  lineresetCount : Nat
  ssLinereset : Nat
  port : SwdPort
  outs : List SwdOut

namespace SwdC

/-- `swd_reset` and `swd_start`. -/
def start (strictStart : Bool) : SwdC :=
  { state := if strictStart then .unknown else .req
    sampleEdge := true
    turnaround := 0
    ssReq := 0
    bits := []
    lineresetCount := 0
    ssLinereset := 0
    port := .initial
    outs := [] }

def put (s : SwdC) (ss es : Nat) (text : SwdText) : SwdC :=
  { s with outs := s.outs ++ [SwdOut.text ss es text] }

def packet (s : SwdC) (packet : SwdOut) : SwdC :=
  { s with outs := s.outs ++ [packet] }

def resetState (s : SwdC) : SwdC :=
  { s with bits := [], lineresetCount := 0, turnaround := 0, sampleEdge := true, state := .req }

def nextState (s : SwdC) : SwdC :=
  let s := { s with bits := [], lineresetCount := 0 }
  match s.state with
  | .unknown => { s with state := .req, sampleEdge := true, turnaround := 0 }
  | .req => { s with state := .ack, sampleEdge := false, turnaround := 1 }
  | .ack =>
      if s.port.read then { s with state := .data, sampleEdge := false, turnaround := 0 }
      else { s with state := .data, sampleEdge := true, turnaround := 2 }
  | .data => { s with state := .dparity }
  | .dparity =>
      { s with state := .req, sampleEdge := true, turnaround := if s.port.read then 1 else 0 }

def countLinereset (s : SwdC) (edge : SwdEdge) : SwdC :=
  if edge.clk then
    if edge.dio then
      { s with
        ssLinereset := if s.lineresetCount = 0 then edge.samplenum else s.ssLinereset
        lineresetCount := s.lineresetCount + 1 }
    else
      let s :=
        if 50 ≤ s.lineresetCount then
          let s := s.put s.ssLinereset edge.samplenum .lineReset
          (s.packet (.lineReset s.ssLinereset edge.samplenum)).resetState
        else s
      { s with lineresetCount := 0 }
  else s

def firstSample (bits : List SwdBit) : Nat :=
  (bits.map SwdBit.samplenum).headD 0

/-- `case REQ`. -/
def handleReq (s : SwdC) (samplenum : Nat) : SwdC :=
  if isSwdSwitch s.bits then
    let ss := firstSample (lastBits 16 s.bits)
    ({ s with ssReq := ss }.put ss samplenum .jtagToSwd).resetState
  else
    match swdRequest s.bits with
    | some request =>
        let ss := firstSample (lastBits 8 s.bits)
        let port :=
          { s.port with read := request.read, ap := request.ap, addr := request.addr }
        ({ s with port, ssReq := ss }.put ss samplenum
          (.request port.read port.addressDescription)).nextState
    | none => s

/-- What follows an acknowledge. -/
def afterAck (s : SwdC) : SwdAck → SwdC
  | .ok => s.nextState
  | .fault =>
      { (if s.port.orundetect = 1 then s.nextState else s.resetState) with turnaround := 1 }
  | .wait =>
      { (if s.port.orundetect = 1 then s.nextState else s.resetState) with turnaround := 1 }
  | .noReply => s.resetState
  | .error => s.resetState

/-- `case ACK`. -/
def handleAck (s : SwdC) (samplenum : Nat) : SwdC :=
  if s.bits.length < 3 then s
  else
    let ack := swdAck (lastBits 3 s.bits)
    let s := s.put (firstSample (lastBits 3 s.bits)) samplenum (.ack ack)
    { s with port := { s.port with ack } }.afterAck ack

/-- `case DATA`. -/
def handleData (s : SwdC) (samplenum : Nat) : SwdC :=
  if s.bits.length < 32 then s
  else
    let word := lastBits 32 s.bits
    let data := packLsb (word.map SwdBit.dio)
    let s := { s with port := { s.port with data, dparity := swdParity word } }
    (s.put (firstSample word) samplenum (.data data)).nextState

/-- `case DPARITY`. -/
def handleDparity (s : SwdC) (samplenum : Nat) : SwdC :=
  let received := (lastBits 1 s.bits).any SwdBit.dio
  let s :=
    if s.port.dparity ≠ received then
      s.put (firstSample (lastBits 1 s.bits)) samplenum (.parity s.port.dparity received)
    else
      let s := s.packet
        (.transfer s.ssReq samplenum s.port.ap s.port.read s.port.addr s.port.data s.port.ack)
      if s.port.read then s else { s with port := s.port.handleCompletedWrite }
  s.nextState

def handle (s : SwdC) (samplenum : Nat) : SwdC :=
  match s.state with
  | .unknown => s
  | .req => s.handleReq samplenum
  | .ack => s.handleAck samplenum
  | .data => s.handleData samplenum
  | .dparity => s.handleDparity samplenum

def append (s : SwdC) (edge : SwdEdge) : SwdC :=
  if s.bits.length < 128 then { s with bits := s.bits ++ [⟨edge.dio, edge.samplenum⟩] } else s

/-- The rest of the loop, behind the line reset. -/
def sample (s : SwdC) (edge : SwdEdge) : SwdC :=
  if edge.clk ≠ s.sampleEdge then s
  else if 0 < s.turnaround then { s with turnaround := s.turnaround - 1 }
  else (s.append edge).handle edge.samplenum

/-- The body of the loop of `swd_decode`. -/
def decodeEdge (s : SwdC) (edge : SwdEdge) : SwdC :=
  (s.countLinereset edge).sample edge

end SwdC

structure SwdPy where
  state : SwdPhase
  sampleEdge : Bool
  turnaround : Nat
  ssReq : Nat
  bits : List SwdBit
  lineresetCount : Nat
  port : SwdPort
  outs : List SwdOut

namespace SwdPy

/-- `reset` and `start`. -/
def start (strictStart : Bool) : SwdPy :=
  { state := if strictStart then .unknown else .req
    sampleEdge := true
    turnaround := 0
    ssReq := 0
    bits := []
    lineresetCount := 0
    port := .initial
    outs := [] }

/-- `samplenums[-length]`, or the first one. -/
def startSample (s : SwdPy) (length : Nat) : Nat :=
  ((lastBits length s.bits).map SwdBit.samplenum).headD 0

def putx (s : SwdPy) (length samplenum : Nat) (text : SwdText) : SwdPy :=
  let ss := s.startSample length
  { s with
    ssReq := if s.state = .req then ss else s.ssReq
    outs := s.outs ++ [SwdOut.text ss samplenum text] }

def putp (s : SwdPy) (packet : SwdOut) : SwdPy :=
  { s with outs := s.outs ++ [packet] }

/-- `reset_state`; what it forgets of the transfer is not read again. -/
def resetState (s : SwdPy) : SwdPy :=
  { s with bits := [], lineresetCount := 0, turnaround := 0, sampleEdge := true, state := .req }

def nextState (s : SwdPy) : SwdPy :=
  let s := { s with bits := [], lineresetCount := 0 }
  match s.state with
  | .unknown => { s with state := .req, sampleEdge := true, turnaround := 0 }
  | .req => { s with state := .ack, sampleEdge := false, turnaround := 1 }
  | .ack =>
      { s with
        state := .data
        sampleEdge := !s.port.read
        turnaround := if s.port.read then 0 else 2 }
  | .data => { s with state := .dparity }
  | .dparity =>
      { s with state := .req, sampleEdge := true, turnaround := if s.port.read then 1 else 0 }

def countLinereset (s : SwdPy) (edge : SwdEdge) : SwdPy :=
  if edge.clk then
    if edge.dio then { s with lineresetCount := s.lineresetCount + 1 }
    else
      let s :=
        if 50 ≤ s.lineresetCount then
          let s := s.putx s.lineresetCount edge.samplenum .lineReset
          (s.putp (.lineReset s.ssReq edge.samplenum)).resetState
        else s
      { s with lineresetCount := 0 }
  else s

def handleReqEdge (s : SwdPy) (samplenum : Nat) : SwdPy :=
  if isSwdSwitch s.bits then (s.putx 16 samplenum .jtagToSwd).resetState
  else
    match swdRequest s.bits with
    | some request =>
        let port :=
          { s.port with read := request.read, ap := request.ap, addr := request.addr }
        ({ s with port }.putx 8 samplenum (.request port.read port.addressDescription)).nextState
    | none => s

/-- What follows an acknowledge. -/
def afterAck (s : SwdPy) : SwdAck → SwdPy
  | .ok => s.nextState
  | .fault =>
      { (if s.port.orundetect = 1 then s.nextState else s.resetState) with turnaround := 1 }
  | .wait =>
      { (if s.port.orundetect = 1 then s.nextState else s.resetState) with turnaround := 1 }
  | .noReply => s.resetState
  | .error => s.resetState

def handleAckEdge (s : SwdPy) (samplenum : Nat) : SwdPy :=
  if s.bits.length < 3 then s
  else
    let ack := swdAck s.bits
    let s := s.putx 3 samplenum (.ack ack)
    { s with port := { s.port with ack } }.afterAck ack

def handleDataEdge (s : SwdPy) (samplenum : Nat) : SwdPy :=
  if s.bits.length < 32 then s
  else
    let word := s.bits.take 32
    let data := packLsb (word.map SwdBit.dio)
    let s := { s with port := { s.port with data, dparity := swdParity word } }
    (s.putx 32 samplenum (.data data)).nextState

def handleDparityEdge (s : SwdPy) (samplenum : Nat) : SwdPy :=
  let s :=
    if [s.port.dparity] ≠ s.bits.map SwdBit.dio then
      s.putx 1 samplenum (.parity s.port.dparity (s.bits.any SwdBit.dio))
    else if s.port.read then s
    else { s with port := s.port.handleCompletedWrite }
  s.nextState

def handle (s : SwdPy) (samplenum : Nat) : SwdPy :=
  match s.state with
  | .unknown => s
  | .req => s.handleReqEdge samplenum
  | .ack => s.handleAckEdge samplenum
  | .data => s.handleDataEdge samplenum
  | .dparity => s.handleDparityEdge samplenum

def append (s : SwdPy) (edge : SwdEdge) : SwdPy :=
  { s with bits := s.bits ++ [⟨edge.dio, edge.samplenum⟩] }

/-- The rest of the loop, behind the line reset. -/
def sample (s : SwdPy) (edge : SwdEdge) : SwdPy :=
  if edge.clk ≠ s.sampleEdge then s
  else if 0 < s.turnaround then { s with turnaround := s.turnaround - 1 }
  else (s.append edge).handle edge.samplenum

/-- The body of the loop of `decode`. -/
def decodeEdge (s : SwdPy) (edge : SwdEdge) : SwdPy :=
  (s.countLinereset edge).sample edge

/-- A request or a switch sequence ends with the edge, and more than 128 bits have been sampled
since the last one, or the last reset. -/
def EndsLate (s : SwdPy) (edge : SwdEdge) : Prop :=
  let s := s.countLinereset edge
  s.state = .req ∧ edge.clk = s.sampleEdge ∧ s.turnaround = 0 ∧ 128 ≤ s.bits.length ∧
    (isSwdSwitch (s.append edge).bits = true ∨ (swdRequest (s.append edge).bits).isSome = true)

end SwdPy

def SwdOut.annotation : SwdOut → Option (Nat × SwdText)
  | .text _ es said => some (es, said)
  | _ => none

def swdAnnotations (outs : List SwdOut) : List (Nat × SwdText) :=
  outs.filterMap SwdOut.annotation

end SigrokDecode
