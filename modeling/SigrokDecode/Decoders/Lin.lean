import SigrokDecode.Foundation.OnesComplement

/-!
# Local Interconnect Network

`lin_c` and `decoders/lin` over what the UART decoder delivers.  The one takes the length of a
response from the identifier, the other waits for the next break.
-/

namespace SigrokDecode

open Foundation

structure LinByte where
  ss : Nat
  es : Nat
  val : UInt8
  deriving DecidableEq

/-- A packet of the UART decoder. -/
inductive LinPacket
  | data (byte : LinByte)
  | break (ss es : Nat)
  | other

/-- What is said of a frame: the sync byte, the identifier and its parity, the data bytes, and the
checksum, where there are data bytes. -/
structure LinReport where
  sync : LinByte
  syncValid : Bool
  pid : LinByte
  id : Nat
  parity : Nat
  expectedParity : Nat
  data : List LinByte
  checksum : Option (LinByte × Bool)
  deriving DecidableEq

inductive LinOut
  | break (ss es : Nat)
  | frame (report : LinReport)
  | error (ss es : Nat)

def linId (pid : UInt8) : Nat :=
  pid.toNat % 64

/-- `calc_parity`. -/
def linParity (pid : UInt8) : Nat :=
  let id := (linId pid).testBit
  let p0 := ((id 0 ^^ id 1) ^^ id 2) ^^ id 4
  let p1 := !(((id 1 ^^ id 3) ^^ id 4) ^^ id 5)
  p0.toNat + 2 * p1.toNat

def linEnhanced (version : Nat) (pid : UInt8) : Bool :=
  2 ≤ version && linId pid != 60 && linId pid != 61

def linSum (version : Nat) (pid : UInt8) (data : List LinByte) : Nat :=
  data.foldl (fun sum byte => sum + byte.val.toNat)
    (if linEnhanced version pid then pid.toNat else 0)

inductive LinState
  | findBreak
  | sync
  | pid
  | data
  | checksum
  deriving DecidableEq

/-- `lin_priv`; `header` and `rsp` are what `header[]` and `rsp[]` hold up to their counts. -/
structure LinC where
  state : LinState
  version : Nat
  header : List LinByte
  rsp : List LinByte
  doneBreak : Bool
  outs : List LinOut

def pidToDataLen (pid : UInt8) : Nat :=
  if 48 ≤ linId pid then 8 else if 32 ≤ linId pid then 4 else 2

namespace LinC

/-- `lin_reset` and `lin_start`. -/
def start (version : Nat) : LinC :=
  { state := .findBreak
    version
    header := []
    rsp := []
    doneBreak := false
    outs := [] }

/-- `lin_checksum_compute`; ten bytes do not overflow the sum. -/
def checksumCompute (version : Nat) (pid : UInt8) (data : List LinByte) : Nat :=
  let sum := linSum version pid data
  255 - foldCarries 256 sum sum

/-- `lin_output_checksum`. -/
def report (version : Nat) (header rsp : List LinByte) : Option LinReport :=
  match header, rsp.getLast? with
  | sync :: pid :: _, some checksum =>
      let data := rsp.dropLast
      some
        { sync
          syncValid := sync.val == 0x55
          pid
          id := linId pid.val
          parity := pid.val.toNat / 64
          expectedParity := linParity pid.val
          data
          checksum :=
            if data.isEmpty then none
            else
              some (checksum,
                checksum.val.toNat == checksumCompute version pid.val data) }
  | _, _ => none

def outputChecksum (s : LinC) : LinC :=
  { s with outs := s.outs ++ (report s.version s.header s.rsp).toList.map .frame }

def resetState (s : LinC) : LinC :=
  { s with state := .findBreak, header := [], rsp := [] }

def endFrame (s : LinC) : LinC :=
  if s.state = .findBreak then s
  else if s.rsp ≠ [] then { s with rsp := s.rsp.dropLast }.outputChecksum
  else { s with header := s.header.dropLast }.outputChecksum

def startFrame (s : LinC) (ss es : Nat) : LinC :=
  { s with
    outs := if s.doneBreak then s.outs else s.outs ++ [.break ss es]
    state := .sync
    doneBreak := true }

def handleBreak (s : LinC) (ss es : Nat) : LinC :=
  s.endFrame.resetState.startFrame ss es

def handleData (s : LinC) (byte : LinByte) : LinC :=
  match s.state with
  | .findBreak => s
  | .sync => { s with header := s.header ++ [byte], state := .pid }
  | .pid => { s with header := s.header ++ [byte], state := .data }
  | .data =>
      let s := { s with rsp := s.rsp ++ [byte] }
      let pid := (s.header.map LinByte.val).getD 1 0
      if pidToDataLen pid ≤ s.rsp.length then { s with state := .checksum } else s
  | .checksum => { s with rsp := s.rsp ++ [byte] }.outputChecksum.resetState

def recvProto (s : LinC) : LinPacket → LinC
  | .break ss es => s.handleBreak ss es
  | .data byte => s.handleData byte
  | .other => s

/-- `lin_end`. -/
def finish (s : LinC) : LinC :=
  if s.doneBreak ∧ s.rsp ≠ [] then s.outputChecksum else s

end LinC

inductive LinFsmState
  | waitForBreak
  | sync
  | pid
  | data
  | checksum
  | error
  deriving DecidableEq

def LinFsmState.transit (state target : LinFsmState) : LinFsmState :=
  match state, target with
  | _, .error => .error
  | .waitForBreak, .sync => .sync
  | .sync, .pid => .pid
  | .pid, .data => .data
  | .data, .data => .data
  | .data, .checksum => .checksum
  | .checksum, .waitForBreak => .waitForBreak
  | .error, .sync => .sync
  | state, _ => state

structure LinPy where
  fsm : LinFsmState
  version : Nat
  header : List LinByte
  rsp : List LinByte
  doneBreak : Bool
  outs : List LinOut

namespace LinPy

def start (version : Nat) : LinPy :=
  { fsm := .waitForBreak
    version
    header := []
    rsp := []
    doneBreak := false
    outs := [] }

def checksumIsValid (version : Nat) (pid : UInt8) (data : List LinByte) (checksum : UInt8) : Bool :=
  let start :=
    if version = 2 ∧ linId pid ≠ 60 ∧ linId pid ≠ 61 then checksum.toNat + pid.toNat
    else checksum.toNat
  let checksum := data.foldl (fun sum byte => sum + byte.val.toNat) start
  (checksum + checksum / 256) % 256 == 255

/-- `handle_checksum` puts out; without a sync byte or an identifier it fails. -/
def report (version : Nat) (header rsp : List LinByte) : Option LinReport :=
  match header with
  | sync :: pid :: _ =>
      let data := rsp.dropLast
      some
        { sync
          syncValid := sync.val == 0x55
          pid
          id := linId pid.val
          parity := pid.val.toNat / 64
          expectedParity := linParity pid.val
          data
          checksum :=
            rsp.getLast?.bind fun checksum =>
              if data.isEmpty then none
              else some (checksum, checksumIsValid version pid.val data checksum.val) }
  | _ => none

/-- `handle_checksum`; `none` where Python raises an exception, or has no identifier. -/
def handleChecksum (s : LinPy) : Option LinPy :=
  (report s.version s.header s.rsp).map fun report =>
    { s with outs := s.outs ++ [LinOut.frame report], header := [], rsp := [] }

/-- `handle_error`, and the state of it. -/
def fail (s : LinPy) (ss es : Nat) : LinPy :=
  { s with fsm := s.fsm.transit .error, outs := s.outs ++ [.error ss es] }

/-- `wipe_break_null_byte` of the value 0, and whether it was one that was wiped. -/
def wipeBreakNullByte (s : LinPy) (ss es : Nat) : Option (LinPy × Bool) :=
  match s.rsp.getLast? with
  | some null =>
      let s := { s with rsp := s.rsp.dropLast }
      if null.val = 0 then some (s, true) else some (s.fail ss es, false)
  | none => if s.header = [] then none else some ({ s with header := s.header.dropLast }, true)

/-- What `handle_break` does within a frame. -/
def endFrame (s : LinPy) (ss es : Nat) : Option LinPy :=
  if s.fsm = .waitForBreak ∨ s.fsm = .error then some s
  else
    (s.wipeBreakNullByte ss es).bind fun
      | (s, true) => { s with fsm := s.fsm.transit .checksum }.handleChecksum
      | (s, false) => some s

def handleBreak (s : LinPy) (ss es : Nat) : Option LinPy :=
  (s.endFrame ss es).map fun s =>
    { s with
      fsm := LinFsmState.waitForBreak.transit .sync
      doneBreak := true
      outs := s.outs ++ [.break ss es] }

def handleData (s : LinPy) (byte : LinByte) : Option LinPy :=
  match s.fsm with
  | .waitForBreak => some (if byte.val = 0 then s else s.fail byte.ss byte.es)
  | .sync => some { s with fsm := s.fsm.transit .pid, header := s.header ++ [byte] }
  | .pid => some { s with fsm := s.fsm.transit .data, header := s.header ++ [byte] }
  | .data => some { s with rsp := s.rsp ++ [byte] }
  | .checksum => none
  | .error => some { s with outs := s.outs ++ [.error byte.ss byte.es] }

def decode (s : LinPy) : LinPacket → Option LinPy
  | .break ss es => s.handleBreak ss es
  | .data byte => s.handleData byte
  | .other => some s

/-- `end`. -/
def finish (s : LinPy) : Option LinPy :=
  if s.doneBreak ∧ s.rsp ≠ [] then s.handleChecksum else some s

end LinPy

/-- A frame: the null byte of the break, the break, the header, and a response of up to eight data
bytes and a checksum, or none at all. -/
structure LinFrame where
  null : LinByte
  breakSs : Nat
  breakEs : Nat
  sync : LinByte
  pid : LinByte
  rsp : List LinByte
  null_val : null.val = 0
  length_rsp : rsp.length ≤ 9

/-- What the UART decoder delivers. -/
def LinFrame.packets (frame : LinFrame) : List LinPacket :=
  .data frame.null :: .break frame.breakSs frame.breakEs :: .data frame.sync :: .data frame.pid ::
    frame.rsp.map .data

def LinOut.report : LinOut → Option LinReport
  | .frame report => some report
  | _ => none

/-- What is said of the frames. -/
def linReports (outs : List LinOut) : List LinReport :=
  outs.filterMap LinOut.report

/-- The reports of a whole capture. -/
def LinC.reports (version : Nat) (frames : List LinFrame) : List LinReport :=
  linReports ((frames.flatMap LinFrame.packets).foldl recvProto (start version)).finish.outs

/-- The same of Python, if it raises no exception. -/
def LinPy.reports (version : Nat) (frames : List LinFrame) : Option (List LinReport) :=
  (((frames.flatMap LinFrame.packets).foldlM decode (start version)).bind finish).map fun s =>
    linReports s.outs

end SigrokDecode
