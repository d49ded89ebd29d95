import SigrokDecode.Foundation.Stopping
import Mathlib.Data.BitVec

/-!
# The smart card decoder

`iso7816_c` on the bytes that `read_byte_no_wait` puts together from the bits of the line; its
warning about their parity and the headers around a pcap record are left out.
-/

set_option linter.dupNamespace false

namespace SigrokDecode

open Foundation

/-! ## States and outputs -/

inductive Iso7816Class where
  | warn
  | byte
  | atr
  | pps
  | t0
  | t1
  | t1Iblock
  | t1Rblock
  | t1Sblock
  | apdu
  deriving DecidableEq

/-- What a pcap record is about. -/
inductive Iso7816Record where
  | atr
  | apdu
  | rblock
  | sblock
  deriving DecidableEq

inductive Iso7816Out where
  | ann (ss es : Nat) (cls : Iso7816Class) (texts : List String)
  | pcapHeader
  | pcapRecord (ss es : Nat) (about : Iso7816Record) (data : List (BitVec 8))
  | atrProto (ss es : Nat) (atr : List (BitVec 8))

structure Iso7816Byte where
  ss : Nat
  es : Nat
  byte : BitVec 8

inductive Iso7816Protocol where
  | auto
  | t0
  | t1
  deriving DecidableEq

structure Iso7816Options where
  /-- The clock is not native. -/
  calculatedClock : Bool
  protocol : Iso7816Protocol

structure Iso7816State where
  findStart : Bool
  hasT0 : Bool
  hasT1 : Bool
  hasT15 : Bool
  clockSkip : Nat
  detectedClockSkip : Nat
  fi : Nat
  di : Nat
  peeked : Option (BitVec 8)
  peekedSamplenum : Nat
  atrBytes : List (BitVec 8)
  wrotePcapHeader : Bool
  t1ChainBuf : List (BitVec 8)
  t1ChainSs : Nat
  t1ISeq : Bool
  samplenum : Nat
  /-- What is left of the line. -/
  input : List Iso7816Byte
  outs : List Iso7816Out

abbrev Iso7816M : Type → Type :=
  Stopping Iso7816State

def lowerHexByte (byte : BitVec 8) : String :=
  let digits := Nat.toDigits 16 byte.toNat
  String.ofList (List.replicate (2 - digits.length) '0' ++ digits)

def prefixedHex (byte : BitVec 8) : String :=
  "0x" ++ lowerHexByte byte

/-- `iso7816_reset` and `iso7816_start`, with an ATR in front of everything. -/
def Iso7816State.start (input : List Iso7816Byte) : Iso7816State :=
  { findStart := true
    hasT0 := true
    hasT1 := false
    hasT15 := false
    clockSkip := 372
    detectedClockSkip := 0
    fi := 372
    di := 1
    peeked := none
    peekedSamplenum := 0
    atrBytes := []
    wrotePcapHeader := false
    t1ChainBuf := []
    t1ChainSs := 0
    t1ISeq := false
    samplenum := 0
    input
    outs := [] }

namespace Iso7816

open Stopping

def putHere (ss : Nat) (cls : Iso7816Class) (texts : List String) : Iso7816M Unit :=
  modify fun s => { s with outs := s.outs ++ [Iso7816Out.ann ss s.samplenum cls texts] }

def writePcapHeader : Iso7816M Unit :=
  modify fun s =>
    if s.wrotePcapHeader then s else
      { s with
        outs := s.outs ++ [Iso7816Out.pcapHeader]
        wrotePcapHeader := true }

/-- `write_pcap_packet` for a record that ends here. -/
def writePcapPacket (ss : Nat) (about : Iso7816Record) (data : List (BitVec 8)) :
    Iso7816M Unit := do
  writePcapHeader
  modify fun s => { s with outs := s.outs ++ [Iso7816Out.pcapRecord ss s.samplenum about data] }

/-- The byte that the line goes on with; the decoder stops behind the end of the line. -/
def nextByte : Iso7816M Iso7816Byte := fun s =>
  match s.input with
  | [] => (none, s)
  | byte :: input =>
      (some byte, { s with
        samplenum := byte.es
        input
        outs := s.outs ++ [Iso7816Out.ann byte.ss byte.es .byte [prefixedHex byte.byte]] })

def readByte : Iso7816M (BitVec 8) := fun s =>
  match s.peeked with
  | some byte => (some byte, { s with peeked := none })
  | none => (nextByte >>= fun byte => pure byte.byte) s

def peekByte : Iso7816M (BitVec 8) := do
  let byte ← nextByte
  modify fun s => { s with
    peeked := some byte.byte
    peekedSamplenum := byte.ss }
  return byte.byte

def readBytes : Nat → Iso7816M (List (BitVec 8))
  | 0 => return []
  | count + 1 => do
      let byte ← readByte
      let bytes ← readBytes count
      return byte :: bytes

def readByteIf (there : Bool) : Iso7816M (Option (BitVec 8)) := do
  if there then
    let byte ← readByte
    return some byte
  else
    return none

def xorBytes (bytes : List (BitVec 8)) : BitVec 8 :=
  bytes.foldl (· ^^^ ·) 0

def warnIf (wrong : Bool) (ss : Nat) (text : String) : Iso7816M Unit := do
  if wrong then putHere ss .warn [text]

/-- The interface bytes of the ATR behind `td`; a chain of them ends with a byte without its
highest bit. -/
def readInterface (ss : Nat) : Nat → BitVec 8 → Iso7816M (List (BitVec 8))
  | 0, _ => return []
  | count + 1, td => do
      if td &&& 0xF0 = 0 then
        return []
      else
        let ta ← readByteIf (td.getLsbD 4)
        let tb ← readByteIf (td.getLsbD 5)
        let tc ← readByteIf (td.getLsbD 6)
        let front := ta.toList ++ tb.toList ++ tc.toList
        if td.getLsbD 7 then
          let next ← readByte
          let proto := next &&& 0x0F
          if proto = 0 then
            modify fun s => { s with hasT0 := true }
          else if proto = 1 then
            modify fun s => { s with hasT1 := true }
          else if proto = 15 then
            modify fun s => { s with hasT15 := true }
          else
            putHere ss .warn [s!"Invalid Protocol in ATR T={proto.toNat}"]
          let back ← readInterface ss count next
          return front ++ next :: back
        else
          return front

def readTck (ss : Nat) (atr : List (BitVec 8)) : Iso7816M (List (BitVec 8)) := do
  let s ← get
  if s.hasT1 || s.hasT15 then
    let tck ← readByte
    let xor := xorBytes (atr.tail ++ [tck])
    warnIf (xor ≠ 0) ss
      ("Invalid TCK in ATR, got=" ++ prefixedHex tck ++ " expected=" ++ prefixedHex xor)
    return atr ++ [tck]
  else
    return atr

def chooseProtocol (options : Iso7816Options) : Iso7816M Unit :=
  modify fun s =>
    match options.protocol with
    | .auto => s
    | .t0 => { s with hasT0 := true, hasT1 := false }
    | .t1 => { s with hasT0 := false, hasT1 := true }

/-- `handle_atr`; there is room for 64 bytes. -/
def handleAtr (options : Iso7816Options) : Iso7816M Unit := do
  let begun ← get
  let ss := if begun.peeked.isSome then begun.peekedSamplenum else begun.samplenum
  let ts ← readByte
  let t0 ← readByte
  modify fun s => { s with hasT0 := false, hasT1 := false, hasT15 := false }
  let interface ← readInterface ss 64 t0
  let historical ← readBytes (t0 &&& 0x0F).toNat
  modify fun s => { s with hasT0 := s.hasT0 || !s.hasT1 }
  let atr ← readTck ss ([ts, t0] ++ interface ++ historical)
  putHere ss .atr ["ATR", String.join (atr.map lowerHexByte)]
  modify fun s => { s with outs := s.outs ++ [Iso7816Out.atrProto ss s.samplenum atr] }
  writePcapPacket ss .atr atr
  modify fun s => { s with findStart := false, atrBytes := atr }
  chooseProtocol options

def getClockRate (idx : Nat) : Nat :=
  match [372, 372, 558, 744, 1116, 1488, 1860, 0, 0, 512, 768, 1024, 1536, 2048][idx]? with
  | some 0 | none => 372
  | some rate => rate

def getBaudRate (idx : Nat) : Nat :=
  [1, 1, 2, 4, 8, 16, 32, 64, 12, 20].getD idx 1

/-- A request or a response, with its first two bytes, its parameters and its check byte. -/
structure Pps where
  pps : BitVec 8
  pps0 : BitVec 8
  pps1 : BitVec 8
  pps2 : BitVec 8
  pps3 : BitVec 8
  pck : BitVec 8

def readPpsRest (pps : BitVec 8) : Iso7816M Pps := do
  let pps0 ← readByte
  let pps1 ← readByteIf (pps0.getLsbD 4)
  let pps2 ← readByteIf (pps0.getLsbD 5)
  let pps3 ← readByteIf (pps0.getLsbD 6)
  let pck ← readByte
  return {
    pps
    pps0
    pps1 := pps1.getD 0
    pps2 := pps2.getD 0
    pps3 := pps3.getD 0
    pck }

def Pps.lrc (p : Pps) : BitVec 8 :=
  p.pps1 ^^^ p.pps2 ^^^ p.pps3 ^^^ p.pps ^^^ p.pps0 ^^^ p.pck

def checkPps (ss : Nat) (name : String) (p : Pps) : Iso7816M Unit :=
  warnIf (p.lrc ≠ 0) ss
    ("INVALID Checksum on PPS " ++ name ++ ", got=" ++ prefixedHex p.pck ++ " expected=" ++
      prefixedHex (p.lrc ^^^ p.pps ^^^ p.pps0))

/-- The parameters that a request and its response agree on. -/
def applyPps (options : Iso7816Options) (pps1 : BitVec 8) : Iso7816M Unit :=
  modify fun s =>
    let fi := getClockRate (pps1 >>> 4).toNat
    let di := getBaudRate (pps1 &&& 0x0F).toNat
    { s with
      fi
      di
      clockSkip := if options.calculatedClock then fi / di * s.detectedClockSkip / 372
        else fi / di }

def handlePps (options : Iso7816Options) : Iso7816M Unit := do
  let begun ← get
  let ss := begun.peekedSamplenum
  let pps ← readByte
  let request ← readPpsRest pps
  checkPps ss "Request" request
  let rPps ← readByte
  warnIf (rPps ≠ 0xFF) ss "PPS Request not confirmed"
  let response ← readPpsRest rPps
  checkPps ss "Response" response
  if request.pps0 = response.pps0 ∧ request.pps1 = response.pps1 ∧
      request.pps2 = response.pps2 ∧ request.pps3 = response.pps3 then
    applyPps options request.pps1
  else
    putHere ss .warn ["INVALID PPS. Request & Response not matching"]
  let s ← get
  putHere ss .pps ["PPS", s!"PPS DI={s.di} FI={s.fi} clock_skip={s.clockSkip}"]

def apduTexts (apdu : List (BitVec 8)) : List String :=
  let byte := fun index => apdu.getD index 0
  let front := "APDU cls=" ++ prefixedHex (byte 0) ++ " ins=" ++ prefixedHex (byte 1)
  ["APDU", front, front ++ " p1=" ++ prefixedHex (byte 2) ++ " p2=" ++ prefixedHex (byte 3) ++ " p3=" ++
    prefixedHex (byte 4) ++ s!" len={apdu.length - 7} status=" ++
    prefixedHex (byte (apdu.length - 2)) ++ lowerHexByte (byte (apdu.length - 1))]

def putApdu (ss : Nat) (apdu : List (BitVec 8)) : Iso7816M Unit := do
  if 8 ≤ apdu.length then putHere ss .apdu (apduTexts apdu)
  writePcapPacket ss .apdu apdu

def readT0Status (ss : Nat) (bIns p3 procByte : BitVec 8) :
    Iso7816M (List (BitVec 8) × BitVec 8 × BitVec 8) := do
  if procByte = bIns then
    let data ← readBytes p3.toNat
    let sw1 ← readByte
    let sw2 ← readByte
    return (data ++ [sw1, sw2], sw1, sw2)
  else if procByte &&& 0xF0 = 0x60 ∨ procByte &&& 0xF0 = 0x90 then
    let sw2 ← readByte
    return ([procByte, sw2], procByte, sw2)
  else
    putHere ss .warn ["INVALID Procedure Byte"]
    return ([], 0, 0)

def handleT0Packet (ss : Nat) : Iso7816M Unit := do
  let bClass ← readByte
  let bIns ← readByte
  let p1 ← readByte
  let p2 ← readByte
  let p3 ← readByte
  let procByte ← readByte
  let (rest, sw1, sw2) ← readT0Status ss bIns p3 procByte
  putHere ss .t0 ["T=0"]
  let front := "APDU cls=" ++ prefixedHex bClass ++ " ins=" ++ prefixedHex bIns
  putHere ss .apdu ["APDU", front, front ++ " p1=" ++ prefixedHex p1 ++ " p2=" ++ prefixedHex p2 ++
    " p3=" ++ prefixedHex p3 ++ s!" len={p3.toNat} status=" ++ prefixedHex sw1 ++ lowerHexByte sw2]
  writePcapPacket ss .apdu ([bClass, bIns, p1, p2, p3] ++ rest)

/-- `sizeof(t1_chain_buf)` -/
def t1ChainRoom : Nat := 4096

/-- What fits behind a chain. -/
def chainWith (chain data : List (BitVec 8)) : List (BitVec 8) :=
  chain ++ data.take (t1ChainRoom - chain.length)

def chainBlock (ss : Nat) (seq : Bool) (data : List (BitVec 8)) : Iso7816M Unit :=
  modify fun s => { s with
    t1ChainSs := if s.t1ChainBuf = [] then ss else s.t1ChainSs
    t1ChainBuf := chainWith s.t1ChainBuf data
    t1ISeq := seq }

/-- The last information block of a chain, or the only one. -/
def endChain (ss : Nat) (data : List (BitVec 8)) : Iso7816M Unit := do
  let s ← get
  let (ss, apdu) := if s.t1ChainBuf = [] then (ss, data) else
    (s.t1ChainSs, chainWith s.t1ChainBuf data)
  putHere ss .t1 ["T=1", "T=1 (reassembled)"]
  putApdu ss apdu
  modify fun s => { s with t1ChainBuf := [] }

def putT1Block (ss : Nat) (nad pcb bLen : BitVec 8) (data : List (BitVec 8)) :
    Iso7816M (Option (List (BitVec 8))) := do
  if pcb &&& 0xC0 = 0xC0 then
    putHere ss .t1Sblock
      ["S-Block", "S-Block flag=" ++ prefixedHex (pcb &&& 0x3F) ++ s!" len={bLen.toNat}"]
    putHere ss .t1 ["T=1"]
    writePcapPacket ss .sblock ([nad, pcb, bLen] ++ data)
    return none
  else if pcb.getLsbD 7 then
    putHere ss .t1Rblock
      ["R-Block", s!"R-Block seq={(pcb.getLsbD 4).toNat} flag=" ++ prefixedHex (pcb &&& 0x0F)]
    putHere ss .t1 ["T=1"]
    writePcapPacket ss .rblock [nad, pcb, bLen]
    return none
  else
    let chaining := pcb.getLsbD 5
    let seq := pcb.getLsbD 6
    putHere ss .t1Iblock ["I-Block", s!"I-Block seq={seq.toNat} len={bLen.toNat} chaining=" ++
      toString chaining.toNat]
    if chaining then chainBlock ss seq data else endChain ss data
    return some data

def handleT1Block (ss : Nat) : Iso7816M (Option (List (BitVec 8))) := do
  let nad ← readByte
  let pcb ← readByte
  let bLen ← readByte
  let data ← readBytes bLen.toNat
  let bLrc ← readByte
  let lrc := xorBytes ([nad, pcb, bLen] ++ data ++ [bLrc])
  warnIf (lrc ≠ 0) ss
    ("Invalid checksum on T=1 block, got=" ++ prefixedHex lrc ++ " expected=" ++ prefixedHex bLrc)
  putT1Block ss nad pcb bLen data

/-- Two information blocks, one behind the other. -/
def putPair (ss : Nat) (packet : List (BitVec 8)) (second : Option (List (BitVec 8))) :
    Iso7816M Unit :=
  match second with
  | some (byte :: packet2) => putApdu ss (packet ++ byte :: packet2)
  | _ => return ()

def pairBlocks (ss : Nat) (packet : List (BitVec 8)) : Iso7816M Unit := do
  let _ ← peekByte
  let behind ← get
  let second ← handleT1Block behind.peekedSamplenum
  putPair ss packet second

def handleT1Packet (ss : Nat) : Iso7816M Unit := do
  let packet ← handleT1Block ss
  match packet with
  | some (byte :: data) => pairBlocks ss (byte :: data)
  | _ => return ()

def waitForFall : Iso7816M Unit := fun s =>
  match s.input with
  | [] => (none, s)
  | byte :: _ => (some (), { s with samplenum := byte.ss })

/-- The loop of `iso7816_decode`, once. -/
def decodeStep (options : Iso7816Options) : Iso7816M Unit := do
  let s ← get
  if s.findStart then
    waitForFall
    handleAtr options
  else
    let firstByte ← peekByte
    if firstByte = 0xFF then
      handlePps options
    else if firstByte = 0x3B then
      modify fun s => { s with peeked := none }
      handleAtr options
    else
      let t ← get
      if t.hasT0 then
        handleT0Packet t.peekedSamplenum
      else if t.hasT1 then
        handleT1Packet t.peekedSamplenum

def decodeLoop (options : Iso7816Options) : Nat → Iso7816M Unit
  | 0 => return ()
  | count + 1 => do
      decodeStep options
      decodeLoop options count

/-- `iso7816_decode`; every turn takes at least one byte from the line. -/
def iso7816Decode (options : Iso7816Options) (s : Iso7816State) : Iso7816State :=
  ((do
    writePcapHeader
    decodeLoop options (s.input.length + 1)) s).2

end Iso7816

end SigrokDecode
