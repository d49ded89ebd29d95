import Mathlib.Algebra.Ring.Nat

/-!
# The S/PDIF decoder

`spdif_c` measures pulses until it has seen three kinds of them.  The pulses it saw in the
meantime are replayed by a second copy of its state machine.
-/

namespace SigrokDecode

inductive SpdifPhase
  | getFirstPulse
  | getSecondPulse
  | getThirdPulse
  | decodeStream
  | decodePreamble
  deriving DecidableEq

/-- `struct subframe_entry`. -/
structure SpdifEntry where
  pulseType : Int
  ss : Nat
  es : Nat

/-- `temp_pulse_width` and `temp_samplenum`: a pulse in front of the edge at `samplenum`. -/
structure SpdifPulse where
  width : Nat
  samplenum : Nat

def SpdifPulse.start (pulse : SpdifPulse) : Nat :=
  pulse.samplenum - pulse.width - 1

inductive SpdifPreamble
  | w
  | m
  | b
  | unknown
  deriving DecidableEq

inductive SpdifField
  | bitrate
  | preamble (name : SpdifPreamble)
  | bit (value : Bool)
  | aux (value : Nat)
  | sample (value : Nat)
  | audio (value : Nat)
  | validity (ok : Bool)
  | subcode (bit : Bool)
  | channelStatus (bit : Bool)
  | parity (bit : Bool)
  deriving DecidableEq

structure SpdifAnn where
  ss : Nat
  es : Nat
  field : SpdifField

/-- `struct spdif_priv`; `range1` and `range2` are twice those of the source, which are halves of
whole numbers, and `preamble` has its length. -/
structure SpdifState where
  state : SpdifPhase
  ssEdge : Nat
  clocks : List Nat
  range1 : Nat
  range2 : Nat
  preamble : List Int
  seenPreamble : Bool
  firstOne : Bool
  subframe : List SpdifEntry
  bitcount : Nat
  buffer : List SpdifPulse
  /-- History: what went out. -/
  anns : List SpdifAnn

/-- `MAX_SUBFRAME`. -/
def spdifMaxSubframe : Nat := 28

/-- `MAX_PULSE_BUF`. -/
def spdifMaxPulseBuf : Nat := 64

/-- `get_pulse_type` and `get_pulse_type_for_width`. -/
def spdifPulseType (range1 range2 width : Nat) : Int :=
  if range1 = 0 ∨ range2 = 0 then -1
  else if range2 ≤ 2 * width then 2
  else if range1 ≤ 2 * width then 0
  else 1

/-- The name of four pulses. -/
def spdifPreamble (preamble : List Int) : SpdifPreamble :=
  if preamble = [2, 0, 1, 0] then .w
  else if preamble = [2, 2, 1, 1] then .m
  else if preamble = [2, 1, 1, 2] then .b
  else .unknown

namespace SpdifState

def reset : SpdifState :=
  { state := .getFirstPulse
    ssEdge := 0
    clocks := []
    range1 := 0
    range2 := 0
    preamble := []
    seenPreamble := false
    firstOne := true
    subframe := List.replicate spdifMaxSubframe ⟨0, 0, 0⟩
    bitcount := 0
    buffer := []
    anns := [] }

def pulseType (s : SpdifState) (width : Nat) : Int :=
  spdifPulseType s.range1 s.range2 width

def put (s : SpdifState) (ss es : Nat) (field : SpdifField) : SpdifState :=
  { s with anns := s.anns ++ [⟨ss, es, field⟩] }

/-- The annotation of a preamble, and whether a subframe follows. -/
def putPreamble (s : SpdifState) (preamble : List Int) (samplenum : Nat) : SpdifState :=
  { s.put s.ssEdge samplenum (.preamble (spdifPreamble preamble)) with
    seenPreamble := s.seenPreamble || decide (spdifPreamble preamble ≠ .unknown) }

/-- A number of the bits from `first` on, the first one the highest. -/
def value (subframe : List SpdifEntry) (first count : Nat) : Nat :=
  ((subframe.drop first).take count).foldl
    (fun value entry => 2 * value + if entry.pulseType = 1 then 1 else 0) 0

/-- The bits from `first` on, the last one the highest. -/
def valueRot (subframe : List SpdifEntry) (first count : Nat) : Nat :=
  value ((subframe.drop first).take count).reverse 0 count

def entry (subframe : List SpdifEntry) (i : Nat) : SpdifEntry :=
  subframe.getD i ⟨0, 0, 0⟩

def emitSubframe (s : SpdifState) : SpdifState :=
  let sf := entry s.subframe
  let isOne := fun i => decide ((sf i).pulseType = 1)
  { s with
    anns := s.anns ++ [⟨(sf 0).ss, (sf 3).es, .aux (value s.subframe 0 4)⟩,
        ⟨(sf 4).ss, (sf 23).es, .sample (value s.subframe 0 4 * 2 ^ 20 + value s.subframe 4 20)⟩,
        ⟨(sf 0).ss, (sf 23).es,
          .audio (valueRot s.subframe 0 4 * 2 ^ 20 + valueRot s.subframe 4 20)⟩,
        ⟨(sf 24).ss, (sf 24).es, .validity (decide ((sf 24).pulseType = 0))⟩,
        ⟨(sf 25).ss, (sf 25).es, .subcode (isOne 25)⟩,
        ⟨(sf 26).ss, (sf 26).es, .channelStatus (isOne 26)⟩,
        ⟨(sf 27).ss, (sf 27).es, .parity (isOne 27)⟩] }

/-- The loop of `decode_recheck_preamble`; `preamble_state` is one less than the number of pulses
in `temp_preamble`.  The flag says whether more data remains. -/
def recheckPreambleLoop : SpdifState → List Int → List SpdifPulse → SpdifState × Bool
  | s, temp, [] => ({ s with state := .decodePreamble, preamble := temp, buffer := [] }, false)
  | s, temp, pulse :: rest =>
      let type := s.pulseType pulse.width
      if temp = [] then
        if type = 2 then recheckPreambleLoop { s with ssEdge := pulse.start } [type] rest
        else recheckPreambleLoop s temp rest
      else if temp.length < 3 then recheckPreambleLoop s (temp ++ [type]) rest
      else
        let s :=
          { s.putPreamble (temp ++ [type]) pulse.samplenum with
            bitcount := 0
            firstOne := true
            buffer := rest }
        if rest = [] then ({ s with state := .decodeStream }, false) else (s, true)

def recheckPreamble (s : SpdifState) : SpdifState × Bool :=
  recheckPreambleLoop s [] s.buffer

/-- The loop of `decode_recheck_stream` with its `temp_subframe`, `temp_bitcount` and
`temp_first_one`. -/
def recheckStreamLoop : SpdifState → List SpdifEntry → Nat → Bool → List SpdifPulse →
    SpdifState × Bool
  | s, temp, bitcount, firstOne, [] =>
      ({ s with
        state := .decodeStream
        subframe := temp.take bitcount ++ s.subframe.drop bitcount
        bitcount
        firstOne
        buffer := [] }, false)
  | s, temp, bitcount, firstOne, pulse :: rest =>
      let type := s.pulseType pulse.width
      if type = 1 ∧ firstOne then
        recheckStreamLoop s (temp.set bitcount ⟨type, pulse.start, pulse.samplenum⟩) bitcount false
          rest
      else
        let one := type = 1
        let temp :=
          if one then temp.set bitcount { entry temp bitcount with es := pulse.samplenum }
          else temp.set bitcount ⟨type, pulse.start, pulse.samplenum⟩
        let s := s.put (if one then (entry temp bitcount).ss else pulse.start) pulse.samplenum
          (.bit (decide one))
        let firstOne := firstOne || decide one
        if bitcount + 1 = spdifMaxSubframe then
          let s :=
            { { s with subframe := temp, bitcount := 28 }.emitSubframe with
              seenPreamble := false
              buffer := rest }
          if rest = [] then ({ s with state := .decodeStream }, false) else (s, true)
        else
          recheckStreamLoop s temp (bitcount + 1) firstOne rest

/-- `decode_recheck_stream`; its `temp_subframe` begins with what the stack holds. -/
def recheckStream (stack : List SpdifEntry) (s : SpdifState) : SpdifState × Bool :=
  recheckStreamLoop s stack 0 true s.buffer

/-- The loop over the buffered pulses, which takes from them on every turn; `stack` has what
`decode_recheck_stream` finds on the stack when these pulses are left. -/
def replayLoop (stack : List SpdifPulse → List SpdifEntry) : Nat → Bool → SpdifState → SpdifState
  | 0, _, s => s
  | turns + 1, isPreamble, s =>
      if s.buffer = [] then s
      else
        let next := if isPreamble then s.recheckPreamble else s.recheckStream (stack s.buffer)
        if next.2 then replayLoop stack turns (!isPreamble) next.1 else next.1

def replay (stack : List SpdifPulse → List SpdifEntry) (s : SpdifState) : SpdifState :=
  { replayLoop stack s.buffer.length true s with state := .decodeStream }

def streamBit (s : SpdifState) (pulse : SpdifPulse) : SpdifState :=
  let type := s.pulseType pulse.width
  if type = 1 ∧ s.firstOne then
    { s with
      firstOne := false
      subframe := s.subframe.set s.bitcount ⟨type, pulse.start, pulse.samplenum⟩ }
  else if type = 1 then
    let subframe :=
      s.subframe.set s.bitcount { entry s.subframe s.bitcount with es := pulse.samplenum }
    { s.put (entry s.subframe s.bitcount).ss pulse.samplenum (.bit true) with
      subframe
      bitcount := s.bitcount + 1
      firstOne := true }
  else
    { s.put pulse.start pulse.samplenum (.bit false) with
      subframe := s.subframe.set s.bitcount ⟨type, pulse.start, pulse.samplenum⟩
      bitcount := s.bitcount + 1 }

def decodeStream (s : SpdifState) (pulse : SpdifPulse) : SpdifState :=
  if s.seenPreamble then
    let s := s.streamBit pulse
    if s.bitcount = 28 then
      { s.emitSubframe with bitcount := 0, seenPreamble := false, firstOne := true }
    else s
  else if s.pulseType pulse.width = 2 then
    { s with
      preamble := [s.pulseType pulse.width]
      state := .decodePreamble
      ssEdge := pulse.start }
  else
    s

def decodePreamble (s : SpdifState) (pulse : SpdifPulse) : SpdifState :=
  let s := { s with preamble := s.preamble ++ [s.pulseType pulse.width] }
  if s.preamble.length = 4 then
    { s.putPreamble s.preamble pulse.samplenum with
      bitcount := 0
      firstOne := true
      state := .decodeStream }
  else s

def live (s : SpdifState) (pulse : SpdifPulse) : SpdifState :=
  if s.state = .decodePreamble then s.decodePreamble pulse else s.decodeStream pulse

def bufferPulse (s : SpdifState) (pulse : SpdifPulse) : SpdifState :=
  { s with
    buffer := if s.buffer.length < spdifMaxPulseBuf then s.buffer ++ [pulse] else s.buffer }

def near (clock width : Nat) : Bool :=
  decide (width ≤ clock * 13 / 10 ∧ clock * 7 / 10 ≤ width)

def sortClocks (a b c : Nat) : Nat × Nat × Nat :=
  let (a, b) := if b < a then (b, a) else (a, b)
  let (b, c) := if c < b then (c, b) else (b, c)
  let (a, b) := if b < a then (b, a) else (a, b)
  (a, b, c)

/-- The three kinds of pulses are known, and the ranges between them. -/
def thresholds (s : SpdifState) (a b c : Nat) : SpdifState :=
  let (a, b, c) := sortClocks a b c
  let s :=
    { s with clocks := [a, b, c], range1 := a + b, range2 := b + c }.put 0
      (((s.buffer.map SpdifPulse.samplenum).headD 0) - 24) .bitrate
  { s with ssEdge := 0 }

def learned (stack : List SpdifPulse → List SpdifEntry) (s : SpdifState) (a b c : Nat) :
    SpdifState :=
  (s.thresholds a b c).replay stack

/-- The body of the loop of `spdif_decode`. -/
def decodePulse (stack : List SpdifPulse → List SpdifEntry) (s : SpdifState) (pulse : SpdifPulse) :
    SpdifState :=
  match s.state with
  | .getFirstPulse =>
      let s := s.bufferPulse pulse
      if pulse.width ≠ 0 then { s with clocks := [pulse.width], state := .getSecondPulse } else s
  | .getSecondPulse =>
      let s := s.bufferPulse pulse
      let first := s.clocks.getD 0 0
      if first * 13 / 10 < pulse.width ∨ pulse.width < first * 7 / 10 then
        { s with clocks := [first, pulse.width], state := .getThirdPulse }
      else s
  | .getThirdPulse =>
      let s := s.bufferPulse pulse
      let first := s.clocks.getD 0 0
      let second := s.clocks.getD 1 0
      if near first pulse.width ∨ near second pulse.width then s
      else s.learned stack first second pulse.width
  | _ => s.live pulse

end SpdifState

end SigrokDecode
