import SigrokDecode.Foundation.Crc

/-!
# The USB Power Delivery decoder

`usb_power_delivery_c`: the bits of a packet from the edges of the line, and
`decode_packet` over them.  The numbers in physical units and the running text of a
packet are left out.
-/

set_option linter.dupNamespace false

namespace SigrokDecode

open Foundation

def dec4b5b : List Nat :=
  [0x10, 0x10, 0x10, 0x10, 0x10, 0x10, 0x13, 0x14, 0x10, 0x01, 0x04, 0x05, 0x10, 0x16, 0x06, 0x07,
    0x10, 0x12, 0x08, 0x09, 0x02, 0x03, 0x0A, 0x0B,
    0x11, 0x15, 0x0C, 0x0D, 0x0E, 0x0F, 0x00, 0x10]

namespace PdSym

def symErr : Nat := 0x10

def sync1 : Nat := 0x11

def sync2 : Nat := 0x12

def sync3 : Nat := 0x13

def rst1 : Nat := 0x14

def rst2 : Nat := 0x15

def eop : Nat := 0x16

end PdSym

/-- `SOP_NAMES`. -/
inductive PdSop
  | sop
  | sopPrime
  | sopDoublePrime
  | sopPrimeDebug
  | sopDoublePrimeDebug
  | cableReset
  | hardReset
  deriving DecidableEq

open PdSym in
/-- A row of `SOP_SEQUENCES`. -/
def PdSop.sequence : PdSop → List Nat
  | .sop => [sync1, sync1, sync1, sync2]
  | .sopPrime => [sync1, sync1, sync3, sync3]
  | .sopDoublePrime => [sync1, sync3, sync1, sync3]
  | .sopPrimeDebug => [sync1, rst2, rst2, sync3]
  | .sopDoublePrimeDebug => [sync1, rst2, sync3, sync2]
  | .cableReset => [rst1, sync1, rst1, sync3]
  | .hardReset => [rst1, rst1, rst1, rst2]

def PdSop.all : List PdSop :=
  [.sop, .sopPrime, .sopDoublePrime, .sopPrimeDebug, .sopDoublePrimeDebug, .cableReset, .hardReset]

/-- The ordered sets that no message follows. -/
def PdSop.isReset : PdSop → Bool
  | .cableReset => true
  | .hardReset => true
  | _ => false

/-- The texts that go out under `ANN_WARNINGS`. -/
inductive PdWarning
  | truncated
  | noStart
  | badCrc (received computed : BitVec 32)
  | noEop
  deriving DecidableEq

/-- The annotation classes with the values that their texts show. -/
inductive PdField
  | preamble
  | junk
  | sop (name : PdSop)
  | header (head : BitVec 16)
  | extHeader (extHead : BitVec 16)
  | data (index : Nat) (word : BitVec 32)
  | crc (value : BitVec 32)
  | eop
  | sym (symbol : Nat)
  | warning (warning : PdWarning)
  | src (head : BitVec 16)
  | snk (head : BitVec 16)
  | payload (index : Nat) (word : BitVec 32)
  | extPayload (chunked chunkNum reqChunk dataSize : Nat)
  | text
  deriving DecidableEq

/-- `usb_pd_ann_rows`. -/
inductive PdRow
  | symbols
  | phase
  | payload
  | type
  | warnings
  | text
  deriving DecidableEq

def PdField.row : PdField → PdRow
  | .preamble => .phase
  | .junk => .phase
  | .sop _ => .phase
  | .header _ => .phase
  | .extHeader _ => .phase
  | .data _ _ => .phase
  | .crc _ => .phase
  | .eop => .phase
  | .sym _ => .symbols
  | .warning _ => .warnings
  | .src _ => .type
  | .snk _ => .type
  | .payload _ _ => .payload
  | .extPayload _ _ _ _ => .payload
  | .text => .text

structure PdAnn where
  ss : Nat
  es : Nat
  field : PdField
  deriving DecidableEq

/-- What `c_put_bin` receives. -/
structure PdBinary where
  ss : Nat
  es : Nat
  bits : List Bool

/-- `usb_pd_state`; `num_bits` and `num_edges` are the lengths of the lists. -/
structure PdState where
  maxbit : Nat
  threshold : Nat
  previous : Nat
  startsample : Nat
  bits : List Bool
  edges : List Nat
  halfOne : Bool
  startOne : Nat
  idx : Nat
  packetSeq : Nat
  head : BitVec 16
  extHead : BitVec 16
  data : Nat → BitVec 32
  numData : Nat
  chunked : Nat
  chunkNum : Nat
  reqChunk : Nat
  dataSize : Nat
  fulltext : Bool
  /-- History: what went out. -/
  anns : List PdAnn
  binary : List PdBinary

def computeCrc32 (data : List (BitVec 8)) : BitVec 32 :=
  crcLoop 0xEDB88320#32 0xFFFFFFFF#32 data ^^^ 0xFFFFFFFF#32

namespace PdState

/-- What `usb_pd_reset` and `usb_pd_start` leave, with the two limits in samples. -/
def reset (maxbit threshold : Nat) (fulltext : Bool) : PdState :=
  { maxbit
    threshold
    previous := 0
    startsample := 0
    bits := []
    edges := []
    halfOne := false
    startOne := 0
    idx := 0
    packetSeq := 0
    head := 0
    extHead := 0
    data := fun _ => 0
    numData := 0
    chunked := 0
    chunkNum := 0
    reqChunk := 0
    dataSize := 0
    fulltext
    anns := []
    binary := [] }

def put (s : PdState) (ss es : Nat) (field : PdField) : PdState :=
  { s with anns := s.anns ++ [{ ss, es, field }] }

/-- `pd_putx`: the positions are indices into `edges`, and a negative end is the last
edge. -/
def putx (s : PdState) (s0 s1 : Int) (field : PdField) : PdState :=
  if 0 ≤ s0 ∧ s0 < s.edges.length then
    let last := s.edges.length - 1
    let e1 := if s1 < 0 then last else if s1 < s.edges.length then s1.toNat else last
    s.put (s.edges.getD s0.toNat 0) (s.edges.getD e1 0) field
  else
    s

def putwarn (s : PdState) (warning : PdWarning) : PdState :=
  s.putx 0 (-1) (.warning warning)

def recSym (s : PdState) (i symbol : Nat) : PdState :=
  if symbol < 23 then
    s.putx i (i + 5) (.sym symbol)
  else
    s

/-- `get_sym` without its annotation. -/
def getSym (bits : List Bool) (i : Nat) : Nat :=
  if bits.length ≤ i + 4 then
    PdSym.symErr
  else
    dec4b5b.getD (packLsb ((bits.drop i).take 5)) PdSym.symErr

def getSyms (bits : List Bool) (i : Nat) : List Nat :=
  [getSym bits i, getSym bits (i + 5), getSym bits (i + 10), getSym bits (i + 15)]

def recSyms (s : PdState) (i : Nat) (symbols : List Nat) : PdState :=
  (((s.recSym i (symbols.getD 0 0)).recSym (i + 5) (symbols.getD 1 0)).recSym (i + 10)
    (symbols.getD 2 0)).recSym (i + 15) (symbols.getD 3 0)

/-- The value that `get_short` makes of four symbols. -/
def shortOf (symbols : List Nat) : BitVec 16 :=
  BitVec.ofNat 16 (symbols.getD 0 0 ||| symbols.getD 1 0 <<< 4 ||| symbols.getD 2 0 <<< 8 |||
    symbols.getD 3 0 <<< 12)

def getShort (s : PdState) : BitVec 16 × PdState :=
  if s.bits.length ≤ s.idx + 20 then
    (0x0BAD#16, s.putwarn .truncated)
  else
    let symbols := getSyms s.bits s.idx
    (shortOf symbols, { s.recSyms s.idx symbols with idx := s.idx + 20 })

def getWord (s : PdState) : BitVec 32 × PdState :=
  let lo := s.getShort
  let hi := lo.2.getShort
  (lo.1.setWidth 32 ||| hi.1.setWidth 32 <<< 16, hi.2)

def headExt (s : PdState) : Bool :=
  s.head.getLsbD 15

def headCount (s : PdState) : Nat :=
  (s.head >>> 12 &&& 7#16).toNat

def headPowerRole (s : PdState) : Bool :=
  s.head.getLsbD 8

def matches4 (symbols : List Nat) (name : PdSop) : Nat :=
  ((symbols.zip name.sequence).filter fun pair => pair.1 == pair.2).length

def findCorruptedSop (symbols : List Nat) : Option PdSop :=
  PdSop.all.find? fun name => 3 ≤ matches4 symbols name

/-- The body of the loop in `scan_eop`. -/
def startAt (bits : List Bool) (i : Nat) : Option PdSop :=
  (PdSop.all.find? fun name => getSyms bits i == name.sequence).or
    (findCorruptedSop (getSyms bits i))

/-- The first offset at which the loop in `scan_eop` stops. -/
def findStart (bits : List Bool) : Option (Nat × PdSop) :=
  (List.range (bits.length - 19)).findSome? fun i => (startAt bits i).map fun name => (i, name)

/-- `scan_eop`; its result `-1` is `none`, and `idx` is not read before it is set again. -/
def scanEop (s : PdState) : Option Nat × PdState :=
  match findStart s.bits with
  | some (i, name) =>
      let s := s.putx 0 i .preamble
      let s := s.recSyms i (getSyms s.bits i)
      if name.isReset then
        (none, s)
      else
        (some (i + 20), s.putx i (i + 20) (.sop name))
  | none =>
      let s := s.putx 0 (s.bits.length - 1) .junk
      (none, s.putwarn .noStart)

def puthead (s : PdState) : PdState :=
  s.putx 0 (-1) (if s.headPowerRole then .src s.head else .snk s.head)

def readHead (s : PdState) : PdState :=
  let short := s.getShort
  let s := { short.2 with head := short.1 }
  (s.putx (s.idx - 20) s.idx (.header s.head)).puthead

def readExtHead (s : PdState) : PdState :=
  let short := s.getShort
  let s :=
    { short.2 with
      extHead := short.1
      chunked := (short.1 >>> 15 &&& 0x01#16).toNat
      chunkNum := (short.1 >>> 11 &&& 0x0F#16).toNat
      reqChunk := (short.1 >>> 10 &&& 0x01#16).toNat
      dataSize := (short.1 &&& 0x01FF#16).toNat }
  let s := s.putx (s.idx - 20) s.idx (.extHeader s.extHead)
  s.putx (s.idx - 20) s.idx (.extPayload s.chunked s.chunkNum s.reqChunk s.dataSize)

def readObject (s : PdState) (i : Nat) : PdState :=
  let word := s.getWord
  let s := { word.2 with data := Function.update word.2.data i word.1 }
  s.putx (s.idx - 40) s.idx (.data i word.1)

def putpayload (s : PdState) (i : Nat) : PdState :=
  s.putx (s.idx - 40) s.idx (.payload i (s.data i))

/-- A loop over the objects, `n` turns from index `i` on. -/
def readLoop (turn : PdState → Nat → PdState) : Nat → Nat → PdState → PdState
  | 0, _, s => s
  | n + 1, i, s => readLoop turn n (i + 1) (turn s i)

def readPayload (s : PdState) : PdState :=
  if s.headExt then
    let s := s.readExtHead
    readLoop readObject s.headCount 0 s
  else
    readLoop (fun s i => (s.readObject i).putpayload i) s.headCount 0 s

def wordBytes (word : BitVec 32) : List (BitVec 8) :=
  [word.setWidth 8, (word >>> 8).setWidth 8, (word >>> 16).setWidth 8, (word >>> 24).setWidth 8]

def headBytes (head : BitVec 16) : List (BitVec 8) :=
  [head.setWidth 8, (head >>> 8).setWidth 8]

def crcBuf (s : PdState) : List (BitVec 8) :=
  headBytes s.head ++ ((List.range s.numData).map s.data).flatMap wordBytes

def checkCrc (s : PdState) : PdState :=
  let s := { s with numData := s.headCount }
  let word := s.getWord
  let ccrc := computeCrc32 word.2.crcBuf
  let s := if word.1 ≠ ccrc then word.2.putwarn (.badCrc word.1 ccrc) else word.2
  s.putx (s.idx - 40) s.idx (.crc word.1)

def checkEop (s : PdState) : PdState :=
  if s.idx + 5 ≤ s.bits.length ∧ getSym s.bits s.idx = PdSym.eop then
    { s.putx s.idx (s.idx + 5) .eop with idx := s.idx + 5 }
  else
    s.putwarn .noEop

def finish (s : PdState) : PdState :=
  let s := if s.fulltext then s.putx 0 s.idx .text else s
  if 2 ≤ s.edges.length then
    let ss := s.edges.getD 0 0
    let es := s.edges.getD (s.edges.length - 1) 0
    { s with binary := s.binary ++ [{ ss := es, es := ss, bits := s.bits }] }
  else
    s

def readBody (s : PdState) (idx : Nat) : PdState :=
  { s with idx }.readHead.readPayload

/-- `decode_packet` up to `scan_eop`. -/
def beginPacket (s : PdState) : PdState :=
  { s with
    numData := 0
    idx := 0
    packetSeq := s.packetSeq + 1 }

def decodePacket (s : PdState) : PdState :=
  if s.edges.length < 50 then
    { s with
      numData := 0
      idx := 0 }
  else
    let start := s.beginPacket.scanEop
    match start.1 with
    | none => start.2.putx 0 (-1) .text
    | some idx => (start.2.readBody idx).checkCrc.checkEop.finish

/-- Both buffers have room for 4096 entries. -/
def pushEdge (s : PdState) (edge : Nat) : PdState :=
  if s.edges.length < 4096 then { s with edges := s.edges ++ [edge] } else s

def pushBit (s : PdState) (bit : Bool) (edge : Nat) : PdState :=
  (if s.bits.length < 4096 then { s with bits := s.bits ++ [bit] } else s).pushEdge edge

/-- `usb_pd_decode` at an edge inside a packet, `diff` samples behind the one before. -/
def bmcEdge (s : PdState) (diff : Nat) : PdState :=
  if s.threshold < diff then
    { s.pushBit false s.previous with halfOne := false }
  else if s.halfOne then
    { s.pushBit true s.startOne with halfOne := false }
  else
    { s with
      halfOne := true
      startOne := s.previous }

def endPacket (s : PdState) (samplenum : Nat) : PdState :=
  { (s.pushEdge s.previous).decodePacket with
    startsample := samplenum
    bits := []
    edges := []
    halfOne := false
    startOne := 0 }

/-- `usb_pd_decode` behind one return of `c_wait`. -/
def wake (s : PdState) (samplenum : Nat) : PdState :=
  if s.startsample = 0 then
    { s with
      startsample := samplenum
      previous := samplenum }
  else if s.maxbit < samplenum - s.previous then
    { s.endPacket samplenum with previous := samplenum }
  else
    { s.bmcEdge (samplenum - s.previous) with previous := samplenum }

end PdState

end SigrokDecode
