import SigrokDecode.Foundation.BitFields

/-!
# SD cards in SD mode

`sdcard_sd_c` reads CMD at the rising edges of CLK.  Where the annotations stand is left out.
-/

namespace SigrokDecode

open Foundation

inductive SdFormat
  | r1
  | r1b
  | r2
  | r3
  | r6
  | r7
  deriving DecidableEq

inductive SdRegister
  | status
  | cid
  | csd
  deriving DecidableEq

/-- What is said of a command; `cmdStr` is `cmd_str`. -/
inductive SdDescription
  | text (text : String)
  | cmdStr

inductive SdOut
  /-- What `handle_common_token_fields` puts out. -/
  | commonFields (token : List Bool) (isAcmd : Bool) (cmd arg crc : Nat)
  /-- The same fields where a response has no command and no CRC. -/
  | plainFields (token : List Bool)
  | decoded (first last : Nat) (text : String)
  | command (isAcmd : Bool) (cmd : Nat) (description : SdDescription)
  | response (format : SdFormat)
  | register (register : SdRegister)

/-- `sdcard_sd_priv`, with `enum sdcard_sd_state` as numbers; `token` is what `token[]` holds up to
`token_len`. -/
structure SdcardSd where
  state : Nat
  token : List Bool
  isAcmd : Bool
  cmd : Nat
  arg : Nat
  crc : Nat
  lastCmd : Nat
  outs : List SdOut

namespace SdcardSd

def stateGetCommandToken : Nat := 0
def stateHandleCmd0 : Nat := 1
def stateHandleCmd999 : Nat := 64
def stateHandleAcmd0 : Nat := 65
def stateHandleAcmd999 : Nat := 128

/-- `STATE_GET_RESPONSE_R1` and those behind it. -/
def stateGetResponse : SdFormat → Nat
  | .r1 => 131
  | .r1b => 132
  | .r2 => 133
  | .r3 => 134
  | .r6 => 135
  | .r7 => 136

def reset : SdcardSd :=
  { state := stateGetCommandToken
    token := []
    isAcmd := false
    cmd := 0
    arg := 0
    crc := 0
    lastCmd := 0
    outs := [] }

def put (s : SdcardSd) (out : SdOut) : SdcardSd :=
  { s with outs := s.outs ++ [out] }

/-- `sdcard_sd_puta`, for each of some fields. -/
def puta (s : SdcardSd) (fields : List (Nat × Nat × String)) : SdcardSd :=
  { s with outs := s.outs ++ fields.map fun field => .decoded field.1 field.2.1 field.2.2 }

def putc (s : SdcardSd) (description : SdDescription) : SdcardSd :=
  { s.put (.command s.isAcmd s.cmd description) with
    lastCmd := if s.isAcmd then 64 + s.cmd else s.cmd }

/-- `get_token_bits` appends a bit; the token is whole when `n` are there. -/
def pushBit (s : SdcardSd) (cmdPin : Bool) : SdcardSd :=
  if s.token.length < 136 then { s with token := s.token ++ [cmdPin] } else s

def isFromHost (s : SdcardSd) : Bool := s.token.getD 1 false

def isFromCard (s : SdcardSd) : Bool := decide (1 < s.token.length) && !s.token.getD 1 false

def number (s : SdcardSd) (first count : Nat) : Nat :=
  packMsb ((s.token.drop first).take count)

def handleCommonTokenFields (s : SdcardSd) : SdcardSd :=
  { s with cmd := s.number 2 6, arg := s.number 8 32, crc := s.number 40 7 }.put
    (.commonFields s.token s.isAcmd (s.number 2 6) (s.number 8 32) (s.number 40 7))

/-- The switch at the end of `handle_cmd`. -/
def enterHandler (s : SdcardSd) : SdcardSd :=
  if s.cmd ∈ [0, 2, 3, 6, 7, 8, 9, 10, 13, 16, 55] then { s with state := stateHandleCmd0 + s.cmd }
  else if s.isAcmd then
    if s.cmd ∈ [6, 13, 41, 51] then { s with state := stateHandleAcmd0 + s.cmd }
    else { s with state := stateHandleAcmd999 }.putc .cmdStr
  else { s with state := stateHandleCmd999 }.putc .cmdStr

def handleCmd (s : SdcardSd) : SdcardSd :=
  s.handleCommonTokenFields.enterHandler

def await (s : SdcardSd) (state : Nat) : SdcardSd :=
  { s with token := [], state }

def handler (fields : List (Nat × Nat × String)) (text : String) (next : Nat) (s : SdcardSd) :
    SdcardSd :=
  ((s.puta fields).putc (.text text)).await next

def handleCmd0 : SdcardSd → SdcardSd :=
  handler [(0, 31, "Stuff bits")] "Reset all SD cards" stateGetCommandToken

def handleCmd2 : SdcardSd → SdcardSd :=
  handler [(0, 31, "Stuff bits")] "Ask card for CID number" (stateGetResponse .r2)

def handleCmd3 : SdcardSd → SdcardSd :=
  handler [(0, 31, "Stuff bits")] "Ask card for new relative card address (RCA)" (stateGetResponse .r6)

def handleCmd6 : SdcardSd → SdcardSd :=
  handler [] "Switch/check card function" (stateGetResponse .r1)

def handleCmd7 : SdcardSd → SdcardSd :=
  handler [] "Select / deselect card" (stateGetResponse .r6)

def handleCmd8 : SdcardSd → SdcardSd :=
  handler [(12, 31, "Reserved"), (8, 11, "Supply voltage"), (0, 7, "Check pattern")]
    "Send interface condition to card" (stateGetResponse .r7)

def handleCmd9 : SdcardSd → SdcardSd :=
  handler [(16, 31, "RCA"), (0, 15, "Stuff bits")] "Send card-specific data (CSD)"
    (stateGetResponse .r2)

def handleCmd10 : SdcardSd → SdcardSd :=
  handler [(16, 31, "RCA"), (0, 15, "Stuff bits")] "Send card identification data (CID)"
    (stateGetResponse .r2)

def handleCmd13 : SdcardSd → SdcardSd :=
  handler [(16, 31, "RCA"), (0, 15, "Stuff bits")] "Send card status register" (stateGetResponse .r1)

def handleCmd16 (s : SdcardSd) : SdcardSd :=
  s.handler [(0, 31, "Block length")] ("Set the block length to " ++ toString s.arg ++ " bytes")
    (stateGetResponse .r1)

def handleCmd55 (s : SdcardSd) : SdcardSd :=
  { s.handler [(16, 31, "RCA"), (0, 15, "Stuff bits")]
      "Next command is an application-specific command" (stateGetResponse .r1) with isAcmd := true }

def handleAcmd6 : SdcardSd → SdcardSd :=
  handler [] "Set bus width" (stateGetResponse .r1)

def handleAcmd13 : SdcardSd → SdcardSd :=
  handler [(0, 31, "Stuff bits")] "Set SD status" (stateGetResponse .r1)

def handleAcmd41 : SdcardSd → SdcardSd :=
  handler [(0, 23, "VDD voltage window"), (24, 24, "S18R"), (25, 27, "Reserved"), (28, 28, "XPC"),
      (29, 29, "Reserved for eSD"), (30, 30, "Host capacity support info"), (31, 31, "Reserved")]
    "Send HCS info and activate the card init process" (stateGetResponse .r3)

def handleAcmd51 : SdcardSd → SdcardSd :=
  handler [] "Read SD config register (SCR)" (stateGetResponse .r1)

def handleCmd999 (s : SdcardSd) : SdcardSd :=
  s.await (stateGetResponse .r1)

def handleAcmd999 (s : SdcardSd) : SdcardSd :=
  s.await (stateGetResponse .r1)

def handleCmdState (s : SdcardSd) (cmdidx : Nat) : SdcardSd :=
  match cmdidx with
  | 0 => s.handleCmd0
  | 2 => s.handleCmd2
  | 3 => s.handleCmd3
  | 6 => s.handleCmd6
  | 7 => s.handleCmd7
  | 8 => s.handleCmd8
  | 9 => s.handleCmd9
  | 10 => s.handleCmd10
  | 13 => s.handleCmd13
  | 16 => s.handleCmd16
  | 55 => s.handleCmd55
  | _ => s.handleCmd999

def handleAcmdState (s : SdcardSd) (acmdidx : Nat) : SdcardSd :=
  match acmdidx with
  | 6 => s.handleAcmd6
  | 13 => s.handleAcmd13
  | 41 => s.handleAcmd41
  | 51 => s.handleAcmd51
  | _ => s.handleAcmd999

def leaveAcmd (s : SdcardSd) (index : Nat) : SdcardSd :=
  if index ≠ 55 ∧ index ≠ 63 then { s with isAcmd := false } else s

def getCommandToken (s : SdcardSd) (cmdPin : Bool) : SdcardSd :=
  let s := s.pushBit cmdPin
  if s.token.length < 48 then s
  else if s.isFromHost then s.handleCmd
  else s.await stateGetCommandToken

def handleResponse (annotate : SdcardSd → SdcardSd) (s : SdcardSd) (cmdPin : Bool) : SdcardSd :=
  let s := s.pushBit cmdPin
  if s.token.length < 48 then s
  else if s.isFromCard then (annotate s.handleCommonTokenFields).await stateGetCommandToken
  else s.handleCmd

def handleResponseR1 : SdcardSd → Bool → SdcardSd :=
  handleResponse fun s =>
    ((s.put (.response .r1)).puta [(0, 31, "Card status")]).put (.register .status)

def handleResponseR1b : SdcardSd → Bool → SdcardSd :=
  handleResponse fun s => (s.puta [(0, 31, "Card status")]).put (.response .r1b)

def putRegister (s : SdcardSd) : SdcardSd :=
  if s.lastCmd = 2 ∨ s.lastCmd = 10 then s.put (.register .cid)
  else if s.lastCmd = 9 then s.put (.register .csd)
  else s

def handleResponseR2 (s : SdcardSd) (cmdPin : Bool) : SdcardSd :=
  let s := s.pushBit cmdPin
  if s.token.length < 136 then s
  else
    (((s.put (.plainFields s.token)).put (.decoded 8 134 "CID/CSD register")).put
      (.response .r2)).putRegister.await stateGetCommandToken

/-- Nor here. -/
def handleResponseR3 (s : SdcardSd) (cmdPin : Bool) : SdcardSd :=
  let s := s.pushBit cmdPin
  if s.token.length < 48 then s
  else
    (((s.put (.response .r3)).put (.plainFields s.token)).puta [(0, 31, "OCR register")]).await
      stateGetCommandToken

def handleResponseR6 : SdcardSd → Bool → SdcardSd :=
  handleResponse fun s =>
    (s.puta [(0, 15, "Card status bits"), (16, 31, "Relative card address")]).put (.response .r6)

/-- `accepted_voltages`. -/
def acceptedVoltage (v : Nat) : String :=
  if v = 1 then "2.7-3.6V"
  else if v = 2 then "reserved for low voltage range"
  else if v = 4 ∨ v = 8 then "reserved"
  else "not defined"

def handleResponseR7 : SdcardSd → Bool → SdcardSd :=
  handleResponse fun s =>
    (s.put (.response .r7)).puta
      [(12, 31, "Reserved"), (8, 11, "Voltage accepted: " ++ acceptedVoltage (s.number 28 4)),
        (0, 7, "Echo-back of check pattern")]

def awaitsStart (s : SdcardSd) : Bool :=
  (s.state = stateGetCommandToken || (stateGetResponse .r1 ≤ s.state && s.state ≤ stateGetResponse .r7)) &&
    s.token.isEmpty

/-- What the loop of `sdcard_sd_decode` does in a state. -/
def handleState (s : SdcardSd) (cmdPin : Bool) : SdcardSd :=
  if s.state = stateGetCommandToken then s.getCommandToken cmdPin
  else if stateHandleCmd0 ≤ s.state ∧ s.state ≤ stateHandleCmd0 + 63 then
    let cmdidx := s.state - stateHandleCmd0
    let s := s.handleCmdState cmdidx
    if s.isAcmd then s.leaveAcmd cmdidx else s
  else if stateHandleAcmd0 ≤ s.state ∧ s.state ≤ stateHandleAcmd0 + 63 then
    let acmdidx := s.state - stateHandleAcmd0
    (s.handleAcmdState acmdidx).leaveAcmd acmdidx
  else if s.state = stateHandleCmd999 then s.handleCmd999
  else if s.state = stateHandleAcmd999 then s.handleAcmd999
  else if s.state = stateGetResponse .r1 then s.handleResponseR1 cmdPin
  else if s.state = stateGetResponse .r1b then s.handleResponseR1b cmdPin
  else if s.state = stateGetResponse .r2 then s.handleResponseR2 cmdPin
  else if s.state = stateGetResponse .r3 then s.handleResponseR3 cmdPin
  else if s.state = stateGetResponse .r6 then s.handleResponseR6 cmdPin
  else if s.state = stateGetResponse .r7 then s.handleResponseR7 cmdPin
  else s

/-- A rising edge of CLK. -/
def clock (s : SdcardSd) (cmdPin : Bool) : SdcardSd :=
  if s.awaitsStart && cmdPin then s else s.handleState cmdPin

end SdcardSd

/-- A token of the host. -/
structure SdCommand where
  index : Nat
  arg : Nat
  crc : Nat
  endBit : Bool
  index_lt : index < 2 ^ 6
  arg_lt : arg < 2 ^ 32
  crc_lt : crc < 2 ^ 7

def SdCommand.bits (command : SdCommand) : List Bool :=
  false :: true :: (msbBits 6 command.index ++ msbBits 32 command.arg ++ msbBits 7 command.crc ++
    [command.endBit])

def sdIdle (more : Nat) : List Bool :=
  List.replicate (2 + more) true

/-- A token of the card: what follows the start bit and the transmission bit, and idle clocks. -/
structure SdResponse where
  rest : List Bool
  idle : Nat

structure SdExchange where
  command : SdCommand
  idle : Nat
  response : Option SdResponse

def SdResponse.clocks (response : SdResponse) : List Bool :=
  false :: false :: response.rest ++ sdIdle response.idle

def SdExchange.clocks (exchange : SdExchange) : List Bool :=
  exchange.command.bits ++ sdIdle exchange.idle ++ exchange.response.elim [] SdResponse.clocks

/-- The response that `decoders/sdcard_sd` waits for behind a command. -/
def sdFormat (isAcmd : Bool) (index : Nat) : Option SdFormat :=
  if isAcmd then if index = 41 then some .r3 else some .r1
  else if index = 0 then none
  else if index ∈ [2, 9, 10] then some .r2
  else if index ∈ [3, 7] then some .r6
  else if index = 8 then some .r7
  else some .r1

/-- How many bits a response has. -/
def SdFormat.length : SdFormat → Nat
  | .r2 => 136
  | _ => 48

def sdNext (isAcmd : Bool) (index : Nat) : Bool :=
  !isAcmd && index == 55

/-- Every response is one of the format that belongs to its command. -/
def SdValid : Bool → List SdExchange → Prop
  | _, [] => True
  | isAcmd, exchange :: rest =>
      (∀ response, exchange.response = some response →
        ∃ format, sdFormat isAcmd exchange.command.index = some format ∧
          response.rest.length + 2 = format.length) ∧
      SdValid (sdNext isAcmd exchange.command.index) rest

inductive SdItem
  | token (isAcmd : Bool) (index arg crc : Nat)
  | command (isAcmd : Bool) (index : Nat)
  | response (format : SdFormat)
  deriving DecidableEq

def SdOut.item : SdOut → Option SdItem
  | .commonFields token isAcmd cmd arg crc =>
      if token.getD 1 false then some (.token isAcmd cmd arg crc) else none
  | .command isAcmd cmd _ => some (.command isAcmd cmd)
  | .response format => some (.response format)
  | _ => none

def sdItems (outs : List SdOut) : List SdItem :=
  outs.filterMap SdOut.item

def SdExchange.expected (isAcmd : Bool) (exchange : SdExchange) : List SdItem :=
  .token isAcmd exchange.command.index exchange.command.arg exchange.command.crc ::
    .command isAcmd exchange.command.index ::
    (if exchange.response.isSome then
      (sdFormat isAcmd exchange.command.index).toList.map SdItem.response else [])

/-- What the traffic is. -/
def sdExpected : Bool → List SdExchange → List SdItem
  | _, [] => []
  | isAcmd, exchange :: rest =>
      exchange.expected isAcmd ++ sdExpected (sdNext isAcmd exchange.command.index) rest

end SigrokDecode
