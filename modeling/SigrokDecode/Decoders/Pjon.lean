import SigrokDecode.Foundation.CStrings
import SigrokDecode.Foundation.Crc

/-!
# PJON frames

`pjon_c` on the events of the link layer.  A table of the fields to come is built from the second
byte of a frame, and the third field fills in how long the payload is.
-/

namespace SigrokDecode

open Foundation

inductive PjonClass where
  | rxInfo
  | hdrCfg
  | pktLen
  | metaCrc
  | txInfo
  | svcId
  | pktId
  | anonData
  | payload
  | endCrc
  | synRsp
  | relation
  | warn
  deriving DecidableEq

structure PjonAnn where
  ss : Nat
  es : Nat
  cls : PjonClass
  text : String

structure PjonConfig where
  shared : Bool
  txInfo : Bool
  syncAck : Bool
  asyncAck : Bool
  port : Bool
  crc32 : Bool
  len16 : Bool
  pktId : Bool

namespace PjonConfig

def ofByte (b : UInt8) : PjonConfig where
  shared := b.toBitVec.getLsbD 0
  txInfo := b.toBitVec.getLsbD 1
  syncAck := b.toBitVec.getLsbD 2
  asyncAck := b.toBitVec.getLsbD 3
  port := b.toBitVec.getLsbD 4
  crc32 := b.toBitVec.getLsbD 5
  len16 := b.toBitVec.getLsbD 6
  pktId := b.toBitVec.getLsbD 7

variable (cfg : PjonConfig)

def lenSize : Nat :=
  if cfg.len16 then 2 else 1

def crcSize : Nat :=
  if cfg.crc32 then 4 else 1

/-- The widths of the fields between the first check and the payload: the bus of the receiver, bus
and number of the sender, the service and the packet. -/
def optionalWidths : List Nat :=
  (if cfg.shared then [4] else []) ++
    (if cfg.txInfo then (if cfg.shared then [4] else []) ++ [1] else []) ++
    (if cfg.port then [2] else []) ++ (if cfg.pktId then [2] else [])

def overhead : Nat :=
  1 + 1 + cfg.lenSize + 1 + cfg.optionalWidths.sum + cfg.crcSize

def laterFields : List (Nat × PjonClass) :=
  (cfg.lenSize, .pktLen) :: (1, .metaCrc) ::
    (cfg.optionalWidths.map (·, .anonData) ++ [(0, .payload), (cfg.crcSize, .endCrc)])

def flagsText : String :=
  let flag (set : Bool) (name : String) := if set then name else "-"
  " ".intercalate ["CFG", flag cfg.pktId "pkt_id", flag cfg.len16 "len16",
    flag cfg.crc32 "crc32", flag cfg.port "svc_id", flag cfg.asyncAck "ack_mode",
    flag cfg.syncAck "ack", flag cfg.txInfo "tx_info", flag cfg.shared "bus_id"]

end PjonConfig

inductive PjonPhase where
  | idle
  | collecting
  | ack
  deriving DecidableEq

structure PjonState where
  frameBytes : List UInt8
  frameByteCap : Nat
  frameSs : Nat
  frameEs : Nat
  cfg : PjonConfig
  cfgOverhead : Nat
  fieldIdx : Nat
  fieldGot : Nat
  /-- `field_widths` and `field_ann_classes`, as far as they are filled. -/
  fields : List (Nat × PjonClass)
  annSs : Nat
  annEs : Nat
  ackBytes : List UInt8
  frameRxId : Option UInt8
  frameRxIdText : String
  frameTxId : Option UInt8
  frameTxIdText : String
  framePayloadText : Option String
  frameHasAck : Option UInt8
  state : PjonPhase
  anns : List PjonAnn

inductive PjonEvent where
  | frameInit (ss es : Nat)
  | dataByte (ss es : Nat) (b : UInt8)
  | syncRespWait
  | frameData
  | idle

def pjonCrc {width : Nat} (poly start : BitVec width) (data : List UInt8) : BitVec width :=
  data.foldl (fun crc b => (crcStepLsb poly · false)^[8] (crc ^^^ b.toBitVec.setWidth width)) start

def calcCrc8 (data : List UInt8) : Nat :=
  (pjonCrc 0x97#8 0 data).toNat

def calcCrc32 (data : List UInt8) : Nat :=
  (pjonCrc 0xedb88320#32 0xffffffff#32 data ^^^ 0xffffffff#32).toNat

def bytesValue (raw : List UInt8) : Nat :=
  raw.foldl (fun value b => value * 256 + b.toNat) 0

def hexBytes (raw : List UInt8) : String :=
  " ".intercalate (raw.map fun b => lowerHexDigits 2 b.toNat)

def rxIdText (b : UInt8) : String :=
  if b = 255 then "NA" else if b = 0 then "BC" else toString b.toNat

def pktLenText (pktLen plLen : Nat) : String :=
  "LENGTH " ++ toString pktLen ++ " (PAYLOAD " ++ toString plLen ++ ")"

namespace PjonState

def start : PjonState where
  frameBytes := []
  frameByteCap := 0
  frameSs := 0
  frameEs := 0
  cfg := PjonConfig.ofByte 0
  cfgOverhead := 0
  fieldIdx := 0
  fieldGot := 0
  fields := []
  annSs := 0
  annEs := 0
  ackBytes := []
  frameRxId := none
  frameRxIdText := ""
  frameTxId := none
  frameTxIdText := ""
  framePayloadText := none
  frameHasAck := none
  state := .idle
  anns := []

/-- `snprintf` into `text`, with a separator in front where something has been printed. -/
def appendPiece (text : TextBuffer) (piece : String) : TextBuffer :=
  text.print 512 (((if 0 < text.pos then " - " else "") ++ piece).toList)

def relationPieces (s : PjonState) : List String :=
  (s.frameRxId.map fun _ => "RX " ++ s.frameRxIdText).toList ++
    (s.frameTxId.map fun _ => "TX " ++ s.frameTxIdText).toList ++
    (s.framePayloadText.map ("DATA " ++ ·)).toList ++
    (s.frameHasAck.map fun b => "ACK " ++ lowerHexDigits 2 b.toNat).toList

def frameFlush (s : PjonState) : PjonState :=
  if s.frameBytes = [] ∨ s.frameSs = 0 ∨ s.frameEs = 0 then s
  else
    let text := s.relationPieces.foldl appendPiece .empty
    if 0 < text.pos then
      { s with anns := s.anns ++ [⟨s.frameSs, s.frameEs, .relation, String.ofList text.text⟩] }
    else s

def resetFrame (s : PjonState) : PjonState :=
  { s with
    frameBytes := []
    frameSs := 0
    frameEs := 0
    frameRxId := none
    frameRxIdText := ""
    frameTxId := none
    frameTxIdText := ""
    framePayloadText := none
    frameHasAck := none
    ackBytes := []
    annSs := 0
    annEs := 0 }

def seedFields (s : PjonState) : PjonState :=
  { s with
    fields := [(1, .rxInfo), (1, .hdrCfg)]
    fieldIdx := 0
    fieldGot := 0 }

def put (s : PjonState) (cls : PjonClass) (text : String) : PjonState :=
  { s with anns := s.anns ++ [⟨s.annSs, s.annEs, cls, text⟩] }

def putWarnings (s : PjonState) (checks : List (Bool × String)) : PjonState :=
  match (checks.filter Prod.fst).map Prod.snd with
  | [] => s
  | texts => s.put .warn (", ".intercalate texts)

def putCrc (s : PjonState) (cls : PjonClass) (name : String) (digits want found : Nat) :
    PjonState :=
  let hex := lowerHexDigits digits
  let warned :=
    if want = found then s
    else s.put .warn (name ++ " mismatch - want " ++ hex want ++ " have " ++ hex found)
  warned.put cls (name ++ " " ++ hex found)

def handleFieldRxId (s : PjonState) (raw : List UInt8) : PjonState :=
  let b := raw.headD 0
  { s with
    frameRxIdText := if b = 255 ∨ b = 0 then s.frameRxIdText else rxIdText b
    frameRxId := some b }.put .rxInfo ("RX_ID " ++ rxIdText b)

def handleFieldConfig (s : PjonState) (raw : List UInt8) : PjonState :=
  let cfg := PjonConfig.ofByte (raw.headD 0)
  let wantsAck := cfg.syncAck || cfg.asyncAck
  let configured := { s with
    cfg := cfg
    cfgOverhead := cfg.overhead
    fields := s.fields ++ cfg.laterFields }
  (configured.put .hdrCfg cfg.flagsText).putWarnings
    [(wantsAck && !cfg.txInfo, "ACK request without TX info"),
      (wantsAck && s.frameRxId == some 0, "ACK request for broadcast"),
      (cfg.syncAck && cfg.asyncAck, "sync and async ACK request"),
      (cfg.len16 && !cfg.crc32, "extended length needs CRC32")]

/-- The width of the payload goes to the last but one field of the table. -/
def handleFieldPktLen (s : PjonState) (raw : List UInt8) : PjonState :=
  let pktLen := if raw.length = 2 then bytesValue raw else (raw.headD 0).toNat
  let plLen := pktLen - s.cfgOverhead
  let warned := s.putWarnings
    [(pktLen < s.cfgOverhead || 65536 ≤ pktLen, "suspicious packet length"),
      (15 < pktLen && !s.cfg.crc32, "length above 15 needs CRC32"),
      (plLen < 1, "suspicious payload length")]
  { warned with
    fields :=
      if 2 ≤ s.fields.length then
        s.fields.modify (s.fields.length - 2) fun field => (plLen, field.2)
      else s.fields }.put .pktLen (pktLenText pktLen plLen)

def handleFieldMetaCrc (s : PjonState) (raw : List UInt8) : PjonState :=
  s.putCrc .metaCrc "META_CRC" 2 (calcCrc8 s.frameBytes.dropLast) (raw.headD 0).toNat

def handleFieldEndCrc (s : PjonState) (raw : List UInt8) : PjonState :=
  if raw.length = 4 then
    s.putCrc .endCrc "END_CRC" 8 (calcCrc32 (s.frameBytes.take (s.frameBytes.length - 4)))
      (bytesValue raw)
  else s.putCrc .endCrc "END_CRC" 2 (calcCrc8 s.frameBytes.dropLast) (raw.headD 0).toNat

def handleFieldPayload (s : PjonState) (raw : List UInt8) : PjonState :=
  { s with framePayloadText := some (hexBytes raw) }.put .payload
    (String.ofList (("PAYLOAD " ++ hexBytes raw).toList.take 511))

/-- The loop stops in front of the last four places of its buffer. -/
def handleFieldAnon (s : PjonState) (raw : List UInt8) (fieldIndex : Nat) : PjonState :=
  let told := s.put .anonData (hexBytes (raw.take 85))
  if s.cfg.txInfo ∧ s.cfg.shared = false ∧ raw.length = 1 ∧ 4 ≤ fieldIndex then
    { told with
      frameTxId := some (raw.headD 0)
      frameTxIdText := toString (raw.headD 0).toNat }
  else told

def handleField (s : PjonState) (raw : List UInt8) : PjonState :=
  match s.fieldIdx with
  | 0 => s.handleFieldRxId raw
  | 1 => s.handleFieldConfig raw
  | 2 => s.handleFieldPktLen raw
  | 3 => s.handleFieldMetaCrc raw
  | index =>
      if index + 1 = s.fields.length then s.handleFieldEndCrc raw
      else if index + 2 = s.fields.length then s.handleFieldPayload raw
      else s.handleFieldAnon raw index

def processField (s : PjonState) : PjonState :=
  match s.fields[s.fieldIdx]? with
  | none => s
  | some (w, _) =>
      if w = 0 ∨ s.frameBytes.length < w then s
      else
        { s.handleField (s.frameBytes.drop (s.frameBytes.length - w)) with
          fieldIdx := s.fieldIdx + 1
          fieldGot := 0 }

/-- `ACK` bytes are annotated one by one. -/
def ackByte (s : PjonState) (ss es : Nat) (b : UInt8) : PjonState :=
  { s with
    ackBytes := s.ackBytes ++ [b]
    frameHasAck := some b
    anns := s.anns ++ [⟨ss, es, .synRsp, "ACK " ++ lowerHexDigits 2 b.toNat⟩] }

def storeByte (s : PjonState) (ss es : Nat) (b : UInt8) : PjonState :=
  { s with
    annSs := if s.annSs = 0 then ss else s.annSs
    frameByteCap :=
      if s.frameByteCap ≤ s.frameBytes.length then
        if s.frameByteCap = 0 then 64 else s.frameByteCap * 2
      else s.frameByteCap
    frameBytes := s.frameBytes ++ [b]
    frameEs := es
    annEs := es }

def collectByte (s : PjonState) : PjonState :=
  match s.fields[s.fieldIdx]? with
  | none => s
  | some (w, _) =>
      let counted := { s with fieldGot := s.fieldGot + 1 }
      if counted.fieldGot = w then counted.processField else counted

/-- `pjon_recv_proto` -/
def recvProto (s : PjonState) : PjonEvent → PjonState
  | .frameInit ss es =>
      { s.frameFlush.resetFrame.seedFields with
        state := .collecting
        frameSs := ss
        frameEs := es }
  | .dataByte ss es b =>
      match s.state with
      | .ack => s.ackByte ss es b
      | .collecting => (s.storeByte ss es b).collectByte
      | .idle => s
  | .syncRespWait => { s with state := .ack, ackBytes := [], annSs := 0, annEs := 0 }
  | .idle | .frameData => { s.frameFlush.resetFrame with state := .idle }

end PjonState

end SigrokDecode
