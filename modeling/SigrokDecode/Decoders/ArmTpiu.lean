import Mathlib.Data.BitVec

/-!
# The ARM TPIU decoder

`arm_tpiu_c` takes the bytes of one stream out of the frames of a trace port.
-/

namespace SigrokDecode

/-- A byte with its samples, as `arm_tpiu_recv_proto` gets it. -/
structure TpiuByte where
  ss : BitVec 64
  es : BitVec 64
  byte : BitVec 8

inductive TpiuField
  | stream (stream : Nat)
  | data (byte : BitVec 8)

structure TpiuAnn where
  ss : BitVec 64
  es : BitVec 64
  field : TpiuField

/-- The options. -/
structure TpiuConfig where
  stream : Int
  syncOffset : Int

/-- `arm_tpiu_state`; the buffers have their lengths. -/
structure TpiuState where
  stream : Nat
  ssStream : BitVec 64
  bytenum : Int
  prevSample : BitVec 64
  byteLen : BitVec 64
  frame : List TpiuByte
  syncbuf : List (BitVec 8)
  /-- History: what went out. -/
  anns : List TpiuAnn
  /-- The "DATA" packets. -/
  protos : List TpiuByte

namespace TpiuState

def reset : TpiuState :=
  { stream := 0
    ssStream := 0
    bytenum := 0
    prevSample := 0
    byteLen := 0
    frame := []
    syncbuf := []
    anns := []
    protos := [] }

def streamChanged (s : TpiuState) (ss : BitVec 64) (stream : Nat) : TpiuState :=
  if s.stream ≠ stream then
    { s with
      anns :=
        if s.stream ≠ 0 then s.anns ++ [{ ss := s.ssStream, es := ss, field := .stream s.stream }]
        else s.anns
      stream
      ssStream := ss }
  else
    s

def emitByte (config : TpiuConfig) (s : TpiuState) (ss es : BitVec 64) (byte : BitVec 8) :
    TpiuState :=
  if (s.stream : Int) = config.stream then
    { s with
      anns := s.anns ++ [{ ss, es, field := .data byte }]
      protos := s.protos ++ [{ ss, es, byte }] }
  else
    s

def frameByte (s : TpiuState) (i : Nat) : TpiuByte :=
  s.frame.getD i { ss := 0, es := 0, byte := 0 }

def evenByte (config : TpiuConfig) (s : TpiuState) (i : Nat) (lowbit : Bool) : TpiuState :=
  let even := s.frameByte i
  if even.byte.getLsbD 0 then
    if lowbit then s else s.streamChanged even.ss (even.byte >>> 1).toNat
  else
    s.emitByte config even.ss even.es (even.byte ||| (BitVec.ofBool lowbit).setWidth 8)

def oddByte (config : TpiuConfig) (s : TpiuState) (i : Nat) : TpiuState :=
  if i < 14 then
    let odd := s.frameByte (i + 1)
    s.emitByte config odd.ss odd.es odd.byte
  else
    s

def delayedChange (s : TpiuState) (i : Nat) (lowbit : Bool) : TpiuState :=
  let even := s.frameByte i
  if even.byte.getLsbD 0 && lowbit then
    s.streamChanged (s.frameByte (i + 1)).es (even.byte >>> 1).toNat
  else
    s

/-- One turn of the loop of `arm_tpiu_process_frame`. -/
def processPair (config : TpiuConfig) (lowbits : BitVec 8) (s : TpiuState) (pair : Nat) :
    TpiuState :=
  let lowbit := lowbits.getLsbD pair
  ((s.evenByte config (2 * pair) lowbit).oddByte config (2 * pair)).delayedChange (2 * pair) lowbit

def processFrame (config : TpiuConfig) (s : TpiuState) : TpiuState :=
  (List.range 8).foldl (processPair config (s.frameByte 15).byte) s

def syncPattern : List (BitVec 8) :=
  [0xFF, 0xFF, 0xFF, 0x7F]

def storeByte (s : TpiuState) (input : TpiuByte) : TpiuState :=
  let byteLen := input.es - input.ss
  let frame := if byteLen < input.ss - s.prevSample then [] else s.frame
  { s with
    byteLen
    prevSample := input.es
    frame := if frame.length < 16 then frame ++ [input] else frame
    bytenum := s.bytenum + 1 }

def pushSync (s : TpiuState) (byte : BitVec 8) : TpiuState :=
  { s with
    syncbuf := (if s.syncbuf.length < 4 then s.syncbuf else s.syncbuf.drop 1) ++ [byte] }

/-- `arm_tpiu_recv_proto` for a "DATA" packet. -/
def recvProto (config : TpiuConfig) (s : TpiuState) (input : TpiuByte) : TpiuState :=
  let s := s.storeByte input
  if s.bytenum < config.syncOffset then
    { s with frame := [] }
  else
    let s := s.pushSync input.byte
    if s.syncbuf = syncPattern then
      { s with
        frame := []
        syncbuf := [] }
    else if s.frame.length = 16 then
      { s.processFrame config with frame := [] }
    else
      s

end TpiuState

end SigrokDecode
