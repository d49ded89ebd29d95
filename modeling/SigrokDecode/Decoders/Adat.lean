import SigrokDecode.Foundation.SampleScan
import SigrokDecode.Foundation.ShiftRegister

/-!
# The ADAT decoder

`adat_c` gets the bits of an NRZI signal from the distances of its edges and reads
the groups of a frame from a buffer.  The bit time is a whole number of samples.
-/

namespace SigrokDecode

open Foundation

/-- The decoder's `state`. -/
inductive AdatPhase
  | sync
  | userBits
  | channelData
  deriving DecidableEq

/-- `annotations_mode`. -/
inductive AdatAnnotations
  | intraFrame
  | perFrame
  | both
  deriving DecidableEq

inductive AdatDisplay
  | decimal (value : Int)
  | hexadecimal (word : BitVec 32)

inductive AdatField
  | bit (value : Bool)
  | sync
  | user (bits : List Bool)
  | nibble (value : BitVec 32)
  | error
  | channel (no : Nat) (data : BitVec 32)
  | sample (no : Nat) (display : AdatDisplay)
  | userData (bits : List Bool)

structure AdatAnn where
  ss : Nat
  es : Nat
  field : AdatField

/-- An entry of `signal` and `times`. -/
structure AdatBit where
  value : Bool
  time : Nat

structure AdatConfig where
  bitTime : Nat
  sampleDisplayHex : Bool
  annotations : AdatAnnotations

/-- `adat_priv` and the `last_time` of `adat_decode`. -/
structure AdatState where
  signal : List AdatBit
  state : AdatPhase
  channelNo : Nat
  nibbleNo : Nat
  channelData : BitVec 32
  channelStartTime : Nat
  allChannelsData : List (BitVec 32)
  frameStartTime : Nat
  frameUserData : BitVec 32
  lastTime : Nat
  /-- History: what went out. -/
  anns : List AdatAnn

namespace AdatConfig

def intraFrame (config : AdatConfig) : Bool :=
  decide (config.annotations ≠ .perFrame)

def perFrame (config : AdatConfig) : Bool :=
  decide (config.annotations ≠ .intraFrame)

end AdatConfig

def signExtend24bit (x : BitVec 32) : Int :=
  if x &&& 0x800000 ≠ 0 then -(0x800000 - (x &&& 0x7fffff)).toInt else x.toInt

def bitsToInt (bits : List Bool) : BitVec 32 :=
  bits.foldl shiftIn 0

namespace AdatState

def reset : AdatState :=
  { signal := []
    state := .sync
    channelNo := 0
    nibbleNo := 0
    channelData := 0
    channelStartTime := 0
    allChannelsData := List.replicate 8 0
    frameStartTime := 0
    frameUserData := 0
    lastTime := 0
    anns := [] }

def put (s : AdatState) (ss es : Nat) (field : AdatField) : AdatState :=
  { s with anns := s.anns ++ [{ ss, es, field }] }

/-- A report that one of the modes leaves out. -/
def putWhen (shown : Bool) (s : AdatState) (ss es : Nat) (field : AdatField) : AdatState :=
  if shown then s.put ss es field else s

def timeAt (s : AdatState) (i : Nat) : Nat :=
  (s.signal[i]?).elim 0 AdatBit.time

def dropBits (s : AdatState) (count : Nat) : AdatState :=
  { s with signal := s.signal.drop count }

def syncPad : List Bool :=
  true :: List.replicate 10 false

def lookForSyncPad (config : AdatConfig) (s : AdatState) : AdatState :=
  if s.signal.length < 11 then
    s
  else if (s.signal.take 11).map AdatBit.value = syncPad then
    { (putWhen config.intraFrame s (s.timeAt 0) (s.timeAt 9 + 2 * config.bitTime) .sync).dropBits
        11 with
      frameStartTime := s.timeAt 0
      state := .userBits }
  else
    s.dropBits 1

/-- The loop around `look_for_sync_pad`; every turn drops a bit. -/
def searchSync (config : AdatConfig) (s : AdatState) : Nat → AdatState
  | 0 => s
  | turns + 1 =>
      if s.state = .sync ∧ 11 ≤ s.signal.length then
        searchSync config (s.lookForSyncPad config) turns
      else
        s

def dataBits (s : AdatState) : List Bool :=
  ((s.signal.drop 1).take 4).map AdatBit.value

def firstBit (s : AdatState) : Bool :=
  (s.signal[0]?).elim false AdatBit.value

def decodeUserBits (config : AdatConfig) (s : AdatState) : AdatState :=
  if s.signal.length < 5 then
    s
  else if s.firstBit then
    let end4 := s.timeAt 4 + config.bitTime
    let shown := putWhen config.intraFrame
      (putWhen config.intraFrame s (s.timeAt 0) end4 (.user s.dataBits))
      (s.timeAt 1) end4 (.nibble (bitsToInt s.dataBits))
    { shown.dropBits 5 with
      frameUserData := bitsToInt s.dataBits
      state := .channelData }
  else
    { (s.put (s.timeAt 0) (s.timeAt 1) .error).dropBits 1 with state := .sync }

def endChannel (config : AdatConfig) (s : AdatState) (samplenum : Nat) : AdatState :=
  if s.nibbleNo = 6 then
    { putWhen config.intraFrame s s.channelStartTime (samplenum + config.bitTime)
        (.channel s.channelNo s.channelData) with
      allChannelsData := s.allChannelsData.set s.channelNo s.channelData
      channelNo := s.channelNo + 1
      channelData := 0
      nibbleNo := 0 }
  else
    s

def display (config : AdatConfig) (word : BitVec 32) : AdatDisplay :=
  if config.sampleDisplayHex then .hexadecimal word else .decimal (signExtend24bit word)

def putSample (config : AdatConfig) (samplenum : Nat) (s : AdatState) (no : Nat) : AdatState :=
  putWhen config.perFrame s s.frameStartTime (samplenum + config.bitTime)
    (.sample no (display config (s.allChannelsData.getD no 0)))

def userDataBits (s : AdatState) : List Bool :=
  [s.frameUserData.getLsbD 3, s.frameUserData.getLsbD 2, s.frameUserData.getLsbD 1,
    s.frameUserData.getLsbD 0]

def endFrame (config : AdatConfig) (s : AdatState) (samplenum : Nat) : AdatState :=
  if s.channelNo = 8 then
    let s := (List.range 8).foldl (putSample config samplenum) s
    { putWhen config.perFrame s s.frameStartTime (samplenum + config.bitTime)
        (.userData s.userDataBits) with
      channelNo := 0
      state := .sync }
  else
    s

def takeNibble (config : AdatConfig) (s : AdatState) : AdatState :=
  let shown := putWhen config.intraFrame s (s.timeAt 1) (s.timeAt 4 + config.bitTime)
    (.nibble (bitsToInt s.dataBits))
  { shown.dropBits 5 with
    channelStartTime := if s.nibbleNo = 0 then s.timeAt 0 else s.channelStartTime
    channelData := s.channelData ||| bitsToInt s.dataBits <<< (20 - s.nibbleNo * 4)
    nibbleNo := s.nibbleNo + 1 }

def decodeChannelData (config : AdatConfig) (s : AdatState) (samplenum : Nat) : AdatState :=
  if s.signal.length < 5 then
    s
  else if s.firstBit then
    ((s.takeNibble config).endChannel config samplenum).endFrame config samplenum
  else
    { (s.put (s.timeAt 0) (s.timeAt 1) .error).dropBits 1 with
      channelNo := 0
      channelData := 0
      nibbleNo := 0
      state := .sync }

def numBits (bitTime diff : Nat) : Nat :=
  (2 * diff + bitTime) / (2 * bitTime)

/-- The first bit of an interval is a one; the buffer has 512 entries. -/
def pushBit (config : AdatConfig) (s : AdatState) (i : Nat) : AdatState :=
  if s.signal.length < 512 then
    let time := s.lastTime + config.bitTime * i
    putWhen config.intraFrame
      { s with signal := s.signal ++ [⟨decide (i = 0), time⟩] }
      time (time + config.bitTime) (.bit (decide (i = 0)))
  else
    s

def fillSignal (config : AdatConfig) (s : AdatState) (samplenum : Nat) : AdatState :=
  (List.range (numBits config.bitTime (samplenum - s.lastTime))).foldl (pushBit config) s

def process (config : AdatConfig) (s : AdatState) (samplenum : Nat) : AdatState :=
  match s.state with
  | .sync => s.searchSync config s.signal.length
  | .userBits => s.decodeUserBits config
  | .channelData => s.decodeChannelData config samplenum

def handleEdge (config : AdatConfig) (s : AdatState) (samplenum : Nat) : AdatState :=
  { (s.fillSignal config samplenum).process config samplenum with lastTime := samplenum }

end AdatState

end SigrokDecode
