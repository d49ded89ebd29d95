import SigrokDecode.Decoders.UsbPacket
import SigrokDecode.Foundation.CStrings
import SigrokDecode.Foundation.KeyedArrays

/-!
# The USB request decoder

`usb_request_c`: the packets of `usb_packet_c` make transactions, and the transactions of one
endpoint make requests.
-/

namespace SigrokDecode

open Foundation

/-- `transaction_type`. -/
inductive UsbReqToken
  | in
  | out
  | setup
  deriving DecidableEq

inductive UsbReqTransactionState
  | idle
  | tokenReceived
  | dataReceived
  deriving DecidableEq

inductive UsbReqType
  | none
  | bulkIn
  | bulkOut
  | setupIn
  | setupOut
  deriving DecidableEq

/-- The numbers of `handshake`. -/
inductive UsbReqHandshake
  | none
  | ack
  | nak
  | stall
  | nyet
  | timeout
  deriving DecidableEq

def UsbReqHandshake.name : UsbReqHandshake → List Char
  | .none => "none".toList
  | .ack => "ACK".toList
  | .nak => "NAK".toList
  | .stall => "STALL".toList
  | .nyet => "NYET".toList
  | .timeout => "timeout".toList

/-- `request_end` -/
def UsbReqHandshake.ends (handshake : UsbReqHandshake) : Bool :=
  handshake = .ack ∨ handshake = .stall ∨ handshake = .timeout

/-- `usb_req_request`; `setup_data_len` and `data_len` are the lengths of the two lists. -/
structure UsbReqRequest where
  type : UsbReqType
  setupData : List Nat
  data : List Nat
  wLength : Nat
  handshake : UsbReqHandshake
  ss : Nat
  es : Nat
  ssData : Nat
  id : Nat
  addr : Nat
  ep : Nat

/-- What the entries of the array are told apart by. -/
def UsbReqRequest.key (r : UsbReqRequest) : Nat × Nat :=
  (r.addr, r.ep)

/-- The annotation classes of a request. -/
inductive UsbReqClass
  | setupRead
  | setupWrite
  | bulkRead
  | bulkWrite
  deriving DecidableEq

/-- What goes out. The annotation of a request has no address in its text; `key` is the entry
that it was made for. -/
inductive UsbReqOut
  | pcapHeader
  | request (key : Nat × Nat) (ss es : Nat) (ann : UsbReqClass) (text : List Char)
  | error (ss es : Nat) (name : UsbPid) (state : UsbReqTransactionState)

/-- `usb_req_state`; `num_requests` is the length of `requests`. -/
structure UsbReqState where
  transactionState : UsbReqTransactionState
  transactionType : UsbReqToken
  transactionEp : Nat
  transactionAddr : Nat
  transactionData : List Nat
  handshake : UsbReqHandshake
  ssTransaction : Nat
  esTransaction : Nat
  requestId : Nat
  wrotePcapHeader : Bool
  /-- `in_request_start`: whether the option has the value `first-ack`. -/
  firstAck : Bool
  requests : List UsbReqRequest
  /-- History: what went out. -/
  outs : List UsbReqOut

def usbReqMaxData : Nat := 2048

def usbReqMaxPending : Nat := 64

/-- The format `" %02X"`. -/
def usbReqByteText (byte : Nat) : List Char :=
  ' ' :: (upperHexDigits 2 byte).toList

/-- `sizeof(summary)` -/
def usbReqSummarySize : Nat := 512

/-- One of the two loops; it leaves ten places at the end. -/
def usbReqSummaryBytes (buffer : TextBuffer) : List Nat → TextBuffer
  | [] => buffer
  | byte :: bytes =>
      if buffer.pos < usbReqSummarySize - 10 then
        usbReqSummaryBytes (buffer.print usbReqSummarySize (usbReqByteText byte)) bytes
      else
        buffer

def UsbReqRequest.append (r : UsbReqRequest) (bytes : List Nat) : UsbReqRequest :=
  if r.data.length + bytes.length ≤ usbReqMaxData then
    { r with data := r.data ++ bytes }
  else
    r

def UsbReqRequest.isSetup (r : UsbReqRequest) : Bool :=
  r.type = .setupIn ∨ r.type = .setupOut

def usbReqSummary (r : UsbReqRequest) : List Char :=
  let buffer := TextBuffer.empty.print usbReqSummarySize ['[']
  let buffer :=
    if r.isSetup then
      (usbReqSummaryBytes buffer r.setupData).print usbReqSummarySize [' ', ']', '[']
    else
      buffer
  let buffer := usbReqSummaryBytes buffer r.data
  (buffer.print usbReqSummarySize ([' ', ']', ' ', ':', ' '] ++ r.handshake.name)).text

namespace UsbReqState

/-- The state after `usb_req_reset` and `usb_req_start`. -/
def start (firstAck : Bool) : UsbReqState where
  transactionState := .idle
  transactionType := .in
  transactionEp := 0
  transactionAddr := 0
  transactionData := []
  handshake := .none
  ssTransaction := 0
  esTransaction := 0
  requestId := 0
  wrotePcapHeader := false
  firstAck := firstAck
  requests := []
  outs := []

def put (s : UsbReqState) (out : UsbReqOut) : UsbReqState :=
  { s with outs := s.outs ++ [out] }

/-- An entry as `memset` and the assignments behind it leave it. -/
def newRequest (s : UsbReqState) (addr ep : Nat) : UsbReqRequest where
  type := .none
  setupData := []
  data := []
  wLength := 0
  handshake := .none
  ss := 0
  es := 0
  ssData := 0
  id := s.requestId
  addr := addr
  ep := ep

/-- `usb_req_find_or_create`; the pointer is the place in the array. -/
def findOrCreate (s : UsbReqState) (addr ep : Nat) : UsbReqState × Option Nat :=
  match s.requests.findIdx? fun r => r.key = (addr, ep) with
  | some i => (s, some i)
  | none =>
      if usbReqMaxPending ≤ s.requests.length then
        (s, none)
      else
        ({ s with
            requests := s.requests ++ [s.newRequest addr ep]
            requestId := s.requestId + 1 },
          some s.requests.length)

def remove (s : UsbReqState) (addr ep : Nat) : UsbReqState :=
  { s with requests := s.requests.eraseP fun r => r.key = (addr, ep) }

/-- What a pointer into the array points to. -/
def requestAt (s : UsbReqState) (i : Nat) : UsbReqRequest :=
  s.requests.getD i (s.newRequest 0 0)

def store (s : UsbReqState) (i : Nat) (r : UsbReqRequest) : UsbReqState :=
  { s with requests := s.requests.set i r }

def writePcapHeader (s : UsbReqState) : UsbReqState :=
  if s.wrotePcapHeader then s else { s.put .pcapHeader with wrotePcapHeader := true }

/-- The annotation; both buffers are longer than what they take. -/
def putRequest (s : UsbReqState) (r : UsbReqRequest) : UsbReqState :=
  let summary := usbReqSummary r
  let ssData := if s.firstAck then r.ssData else r.ss
  match r.type with
  | .none => s
  | .setupIn => s.put (.request r.key r.ss r.es .setupRead ("SETUP in: ".toList ++ summary))
  | .setupOut => s.put (.request r.key r.ss r.es .setupWrite ("SETUP out: ".toList ++ summary))
  | .bulkIn => s.put (.request r.key ssData r.es .bulkRead ("BULK in: ".toList ++ summary))
  | .bulkOut => s.put (.request r.key r.ss r.es .bulkWrite ("BULK out: ".toList ++ summary))

def handleRequest (s : UsbReqState) (i : Nat) (requestStart requestEnd : Bool) : UsbReqState :=
  if !requestStart && !requestEnd then
    s
  else
    let s := s.writePcapHeader
    if requestEnd then
      let r := s.requestAt i
      (s.putRequest r).remove r.addr r.ep
    else
      s

/-- A pending control request ends where a SETUP begins. -/
def closeSetup (s : UsbReqState) : UsbReqState :=
  match s.findOrCreate s.transactionAddr s.transactionEp with
  | (s, none) => s
  | (s, some i) =>
      if (s.requestAt i).isSetup then
        (s.store i { s.requestAt i with es := s.ssTransaction }).handleRequest i false true
      else
        s

def stamp (s : UsbReqState) (i : Nat) (requestStarted requestEnd : Bool) : UsbReqState :=
  let r := s.requestAt i
  let r := if requestStarted then { r with ss := s.ssTransaction } else r
  let r := if requestEnd then { r with es := s.esTransaction, handshake := s.handshake } else r
  s.store i r

/-- The SETUP stage; the number in the last two of the bytes needs all eight. -/
def setupStage (s : UsbReqState) (i : Nat) : UsbReqState :=
  let r := s.requestAt i
  let setupData := s.transactionData.take 8
  let wLength :=
    if 8 ≤ setupData.length then setupData.getD 6 0 ||| setupData.getD 7 0 <<< 8 else r.wLength
  let r := { r with setupData, wLength }
  if setupData.getD 0 0 &&& 0x80 ≠ 0 then
    (s.store i { r with type := .setupIn }).handleRequest i true false
  else
    (s.store i { r with type := .setupOut }).handleRequest i (wLength = 0) false

def transferStage (s : UsbReqState) (i : Nat) (requestStarted requestEnd : Bool) : UsbReqState :=
  let r := s.requestAt i
  match r.type, s.transactionType with
  | .none, .in | .bulkIn, .in =>
      let ssData :=
        if r.data = [] ∧ s.transactionData ≠ [] then s.ssTransaction else r.ssData
      let r := { r with type := .bulkIn, ssData }
      (s.store i (r.append s.transactionData)).handleRequest i requestStarted requestEnd
  | .none, .out | .bulkOut, .out =>
      let r := { r with type := .bulkOut }
      let r := if s.handshake = .ack then r.append s.transactionData else r
      (s.store i r).handleRequest i requestStarted requestEnd
  | .none, .setup => s.setupStage i
  | .setupIn, .in => s.store i (r.append s.transactionData)
  | .setupOut, .out =>
      let r := if s.handshake = .ack then r.append s.transactionData else r
      let s := s.store i r
      if r.wLength = r.data.length then s.handleRequest i true false else s
  | .setupIn, .out => s.handleRequest i false requestEnd
  | .setupOut, .in => s.handleRequest i false requestEnd
  | _, _ => s

def handleTransfer (s : UsbReqState) : UsbReqState :=
  let requestEnd := s.handshake.ends
  let s := if s.transactionType = .setup then s.closeSetup else s
  match s.findOrCreate s.transactionAddr s.transactionEp with
  | (s, none) => s
  | (s, some i) =>
      let requestStarted : Bool := (s.requestAt i).type = .none
      (s.stamp i requestStarted requestEnd).transferStage i requestStarted requestEnd

def putError (s : UsbReqState) (packet : UsbPktProto) : UsbReqState :=
  s.put (.error packet.ss packet.es packet.name s.transactionState)

/-- A token that is too late for an answer closes the transaction in front of it. -/
def checkTimeout (s : UsbReqState) (ss : Nat) : UsbReqState :=
  let timeout := s.esTransaction + (s.esTransaction - s.ssTransaction) / 2
  if s.transactionState = .tokenReceived ∧ timeout < ss then
    { handleTransfer { s with esTransaction := timeout, handshake := .timeout } with
      transactionState := .idle }
  else
    s

def recvToken (s : UsbReqState) (packet : UsbPktProto) : UsbReqState :=
  if packet.name = .sof then
    s
  else
    let s := s.checkTimeout packet.ss
    if s.transactionState ≠ .idle then
      s.putError packet
    else
      let (addr, ep) :=
        match packet.fields with
        | .token addr ep => (addr, ep)
        | _ => (0, 0)
      let s :=
        { s with
          transactionData := []
          ssTransaction := packet.ss
          esTransaction := packet.es
          transactionState := .tokenReceived
          transactionEp := ep
          transactionAddr := addr }
      match packet.name with
      | .in => { s with transactionType := .in, transactionEp := if 0 < ep then ep + 0x80 else ep }
      | .out => { s with transactionType := .out }
      | .setup => { s with transactionType := .setup }
      | _ => s

def recvData (s : UsbReqState) (packet : UsbPktProto) : UsbReqState :=
  if s.transactionState ≠ .tokenReceived then
    s.putError packet
  else
    let transactionData :=
      match packet.fields with
      | .data bytes => bytes.take usbReqMaxData
      | _ => s.transactionData
    { s with transactionData, transactionState := .dataReceived }

def recvHandshake (s : UsbReqState) (packet : UsbPktProto) : UsbReqState :=
  if s.transactionState ≠ .tokenReceived ∧ s.transactionState ≠ .dataReceived then
    s.putError packet
  else
    let handshake : UsbReqHandshake :=
      match packet.name with
      | .ack => .ack
      | .nak => .nak
      | .stall => .stall
      | .nyet => .nyet
      | _ => .none
    handleTransfer
      { s with handshake, transactionState := .idle, esTransaction := packet.es }

def recvProto (s : UsbReqState) (packet : UsbPktProto) : UsbReqState :=
  match packet.category with
  | .token => s.recvToken packet
  | .data => s.recvData packet
  | .handshake => s.recvHandshake packet
  | .special => s

end UsbReqState

end SigrokDecode
