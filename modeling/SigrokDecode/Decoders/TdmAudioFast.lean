import SigrokDecode.Decoders.PackedInput

/-!
# The fast TDM decoder

`tdm_audio_fast` looks for bit clock edges in packed words and hands each edge
to the per-bit state machine.
-/

set_option linter.dupNamespace false

namespace SigrokDecode

open Foundation SrdDecoderInst SrdDecoderInst.PackedBlock

/-- A call of `handle_bit`. -/
structure TdmBit where
  absSample : Nat
  frame : Bool
  data : Bool

/-- What `output_sample` puts out: the annotation texts, and the PCM value before
it is divided by the full scale. -/
structure TdmSample where
  channel : Nat
  startSample : Nat
  endSample : Nat
  texts : Option (List String)
  analog : Option Int
  deriving DecidableEq

/-- `tdm_audio_fast_state` without the buffering of the analog output. -/
structure TdmAudioFastState where
  channels : Nat
  bitdepth : Nat
  /-- `false` for rising, `true` for falling. -/
  edge : Bool
  fa : Bool
  fi : Bool
  /-- `false` for left-justified, `true` for I2S. -/
  align : Bool
  isSigned : Bool
  emitAnnotations : Bool
  emitAnalog : Bool
  i2sBckCnt : Nat
  lastframe : Bool
  channel : Nat
  bitcount : Nat
  data : UInt64
  ssBlock : Nat
  haveSsBlock : Bool
  samplecount : Nat
  edgePrevClk : Bool
  havePrevClk : Bool
  processedSamples : Nat
  /-- History: the calls of `handle_bit` and of `output_sample`. -/
  bits : List TdmBit
  samples : List TdmSample

/-- `%0*llX`. -/
def upperHex (width : Nat) (value : UInt64) : String :=
  let digits := (Nat.toDigits 16 value.toNat).map Char.toUpper
  String.ofList (List.replicate (width - digits.length) '0' ++ digits)

def pcmValue (isSigned : Bool) (bitdepth : Nat) (data : UInt64) : Int :=
  let mask := BitVec.ofNat 32 (2 ^ bitdepth - 1)
  if isSigned then
    let val :=
      if bitdepth ≤ 16 then
        BitVec.ofNat 32 (data &&& 0xFFFF).toNat
      else
        BitVec.ofNat 32 data.toNat &&& mask
    (if val.getLsbD (bitdepth - 1) then val ||| ~~~mask else val).toInt
  else
    (BitVec.ofNat 32 data.toNat &&& mask).toNat - 2 ^ (bitdepth - 1)

namespace TdmAudioFastState

def outputSample (s : TdmAudioFastState) (ch endAbs : Nat) : TdmAudioFastState :=
  let width := if s.bitdepth ≤ 8 then 2 else if s.bitdepth ≤ 16 then 4 else 8
  let v := upperHex width s.data
  let sample :=
    { channel := ch
      startSample := s.ssBlock
      endSample := endAbs
      texts :=
        if s.emitAnnotations then
          some ["Ch" ++ toString ch ++ ": " ++ v, "C" ++ toString ch ++ ": " ++ v,
            toString ch ++ ":" ++ v]
        else
          none
      analog :=
        if s.emitAnalog then some (pcmValue s.isSigned s.bitdepth s.data) else none }
  { s with samples := s.samples ++ [sample] }

def resetCh0 (s : TdmAudioFastState) (absSample : Nat) : TdmAudioFastState :=
  { s with
    channel := 0
    bitcount := 0
    data := 0
    ssBlock := absSample
    haveSsBlock := true }

/-- `handle_bit`, up to the new `lastframe`. -/
def countBck (s : TdmAudioFastState) (frame : Bool) : TdmAudioFastState :=
  { s with
    i2sBckCnt := if s.lastframe = s.fi ∧ frame = s.fa then 0 else s.i2sBckCnt + 1
    lastframe := frame }

/-- `handle_bit`: the first bit of channel 0, one clock later with I2S. -/
def startFrame (s : TdmAudioFastState) (absSample : Nat) : TdmAudioFastState :=
  if s.align then
    if s.i2sBckCnt = 1 then s.resetCh0 absSample else s
  else
    if s.i2sBckCnt = 0 then s.resetCh0 absSample else s

/-- `handle_bit`: the new bit. -/
def shiftIn (s : TdmAudioFastState) (data : Bool) : TdmAudioFastState :=
  { s with
    data := (s.data <<< 1) ||| (if data then 1 else 0)
    bitcount := s.bitcount + 1 }

/-- `handle_bit`: the last bit of a word. -/
def finishWord (s : TdmAudioFastState) (absSample : Nat) : TdmAudioFastState :=
  if s.haveSsBlock ∧ s.bitdepth ≤ s.bitcount then
    let s := { s with bitcount := 0 }
    let s := s.outputSample (s.channel % s.channels) absSample
    { s with
      data := 0
      ssBlock := absSample
      samplecount := s.samplecount + 1
      channel := s.channel + 1 }
  else
    s

def handleBit (s : TdmAudioFastState) (absSample : Nat) (frame data : Bool) : TdmAudioFastState :=
  let s := { s with bits := s.bits ++ [TdmBit.mk absSample frame data] }
  (((s.countBck frame).startFrame absSample).shiftIn data).finishWord absSample

def wantedEdge (wantEdge prevClk clk : Bool) : Bool :=
  if wantEdge then !clk && prevClk else clk && !prevClk

/-- `tdm_process_word`; the second component is `prev_clk`. -/
def tdmProcessWord (s : TdmAudioFastState) (clk frame data : BitVec 64)
    (width baseAbs : Nat) (wantEdge prevClk : Bool) : TdmAudioFastState × Bool :=
  let valid := lowMask64 width
  let clk := clk &&& valid
  let edges := if wantEdge then fallingBits clk prevClk else risingBits clk prevClk
  (forEachBit (fun bit s =>
        s.handleBit (baseAbs + bit) (frame.getLsbD bit) (data.getLsbD bit))
      (edges &&& valid) s,
    (clk >>> (width - 1)).getLsbD 0)

structure TdmBlock where
  clk : PackedChannel
  frame : PackedChannel
  data : PackedChannel
  baseAbs : Nat
  bitOffset : Nat

/-- The body of the head loop of `process_packed`. -/
def headSample (block : TdmBlock) (wantEdge : Bool) (i : Nat)
    (state : TdmAudioFastState × Bool) : TdmAudioFastState × Bool :=
  let bi := block.bitOffset + i
  let clk := block.clk.packedBit bi
  (if wantedEdge wantEdge state.2 clk then
      state.1.handleBit (block.baseAbs + i) (block.frame.packedBit bi) (block.data.packedBit bi)
    else
      state.1,
    clk)

def wordAt (block : TdmBlock) (wantEdge : Bool) (pos width : Nat)
    (state : TdmAudioFastState × Bool) : TdmAudioFastState × Bool :=
  let packedBit := block.bitOffset + pos
  tdmProcessWord state.1 (block.clk.loadPackedWord packedBit width)
    (block.frame.loadPackedWord packedBit width)
    (block.data.loadPackedWord packedBit width) width (block.baseAbs + pos) wantEdge
    state.2

def processPacked (s : TdmAudioFastState) (block : TdmBlock) (count : Nat)
    (wantEdge : Bool) : TdmAudioFastState :=
  let last :=
    processPackedBlock (headSample block wantEdge) (wordAt block wantEdge)
      block.bitOffset count (s, s.edgePrevClk)
  { last.1 with edgePrevClk := last.2 }

/-- The start of `tdm_audio_fast_decode`. -/
def initPrevClk (s : TdmAudioFastState) : TdmAudioFastState :=
  if s.havePrevClk then s else { s with edgePrevClk := s.edge, havePrevClk := true }

/-- One round of the loop of `tdm_audio_fast_decode`. -/
def decodeBlock (s : TdmAudioFastState) (block : PackedBlock) : TdmAudioFastState :=
  let fetched :=
    { clk := block.channel 0
      frame := block.channel 1
      data := block.channel 2
      baseAbs := block.startSample
      bitOffset := block.bitOffset }
  let s := s.processPacked fetched block.count s.edge
  { s with processedSamples := s.processedSamples + block.count }

/-- `tdm_audio_fast_decode` on the blocks it fetches. -/
def tdmAudioFastDecode (s : TdmAudioFastState) (blocks : List PackedBlock) : TdmAudioFastState :=
  blocks.foldl decodeBlock s.initPrevClk

/-- One sample of a stream with the clock, the frame sync and the data. -/
def plainSample (stream : SampleStream) (samplenum : Nat) (s : TdmAudioFastState) :
    TdmAudioFastState :=
  let clk := stream 0 samplenum
  let s :=
    if wantedEdge s.edge s.edgePrevClk clk then
      s.handleBit samplenum (stream 1 samplenum) (stream 2 samplenum)
    else
      s
  { s with edgePrevClk := clk, processedSamples := s.processedSamples + 1 }

/-- A loop over the samples from `start` to `stop`. -/
def plainDecode (s : TdmAudioFastState) (stream : SampleStream) (start stop : Nat) :
    TdmAudioFastState :=
  sampleLoop (plainSample stream) start (stop - start) s.initPrevClk

theorem getLsbD_edges {clk : BitVec 64} {wantEdge prevClk : Bool} {width i : Nat}
    (fits : width ≤ 64) :
    ((if wantEdge then
          fallingBits (clk &&& lowMask64 width) prevClk
        else
          risingBits (clk &&& lowMask64 width) prevClk) &&&
        lowMask64 width).getLsbD i =
      (decide (i < width) &&
        wantedEdge wantEdge (bitBefore clk.getLsbD prevClk i) (clk.getLsbD i)) := by
  by_cases inside : i < width
  · have low : i < 64 := by omega
    have level : (clk &&& lowMask64 width).getLsbD i = clk.getLsbD i := by
      simp [getLsbD_lowMask64, low, inside]
    have before : bitBefore (clk &&& lowMask64 width).getLsbD prevClk i =
          bitBefore clk.getLsbD prevClk i := by
      cases i with
      | zero => rfl
      | succ i =>
          have lower : i < 64 := by omega
          have inner : i < width := by omega
          simp [bitBefore, getLsbD_lowMask64, lower, inner]
    rw [BitVec.getLsbD_and, getLsbD_lowMask64]
    cases wantEdge with
    | true =>
        rw [if_pos rfl, getLsbD_fallingBits low, level, before]
        simp [wantedEdge, low, inside]
    | false =>
        rw [if_neg (by decide), getLsbD_risingBits low, level, before]
        simp [wantedEdge, low, inside]
  · rw [BitVec.getLsbD_and, getLsbD_lowMask64]
    simp [inside]

theorem tdmProcessWord_eq (s : TdmAudioFastState) (clk frame data : BitVec 64)
    {width : Nat} (baseAbs : Nat) (wantEdge prevClk : Bool) (some : 0 < width)
    (fits : width ≤ 64) :
    tdmProcessWord s clk frame data width baseAbs wantEdge prevClk = sampleLoop
        (edgeStep (wantedEdge wantEdge) clk.getLsbD fun bit s =>
          s.handleBit (baseAbs + bit) (frame.getLsbD bit) (data.getLsbD bit))
        0 width (s, prevClk) := by
  rw [sampleLoop_edgeStep]
  simp only [tdmProcessWord]
  refine Prod.ext ?_ ?_
  · rw [forEachBit_eq, visitMarked_width fits]
    · apply visitMarked_congr
      intro i inside
      rw [getLsbD_edges fits]
      simp [inside]
    · intro i beyond
      rw [getLsbD_edges fits]
      simp [Nat.not_lt.mpr beyond]
  · obtain ⟨last, rfl⟩ : ∃ last, width = last + 1 := ⟨width - 1, by omega⟩
    have low : last < 64 := by omega
    simp [bitBefore, getLsbD_lowMask64, low]

theorem wordAt_isLoop (block : TdmBlock) (wantEdge : Bool) (count : Nat) :
    WordIsLoop (headSample block wantEdge) (wordAt block wantEdge) block.bitOffset
      count := by
  rintro pos width ⟨s, prevClk⟩ aligned some fits _
  simp only [wordAt]
  rw [tdmProcessWord_eq _ _ _ _ _ _ _ some fits]
  apply sampleLoop_congr
  intro i state inside
  have clk := block.clk.getLsbD_loadPackedWord (i := i) aligned fits
  have frame := block.frame.getLsbD_loadPackedWord (i := i) aligned fits
  have data := block.data.getLsbD_loadPackedWord (i := i) aligned fits
  simp only [inside, decide_true, Bool.true_and, Nat.add_assoc] at clk frame data
  simp only [edgeStep, headSample, Nat.zero_add, clk, frame, data, Nat.add_assoc]

theorem processPacked_eq (s : TdmAudioFastState) (block : TdmBlock) (count : Nat)
    (wantEdge : Bool) (small : block.bitOffset < 8) :
    s.processPacked block count wantEdge =
      let last := sampleLoop (headSample block wantEdge) 0 count (s, s.edgePrevClk)
      { last.1 with edgePrevClk := last.2 } := by
  simp only [processPacked]
  rw [processPackedBlock_eq small (wordAt_isLoop block wantEdge count)]

/-- The state with another carried clock level and sample position. -/
def carry (s : TdmAudioFastState) (prevClk : Bool) (processed : Nat) : TdmAudioFastState :=
  { s with edgePrevClk := prevClk, processedSamples := processed }

section Carry

variable (s : TdmAudioFastState) (prevClk : Bool) (processed absSample : Nat)

theorem startFrame_carry : (s.carry prevClk processed).startFrame absSample =
      (s.startFrame absSample).carry prevClk processed := by
  simp only [startFrame, apply_ite (fun s => carry s prevClk processed)]
  rfl

theorem finishWord_carry : (s.carry prevClk processed).finishWord absSample =
      (s.finishWord absSample).carry prevClk processed := by
  simp only [finishWord, apply_ite (fun s => carry s prevClk processed)]
  rfl

theorem handleBit_carry (frame data : Bool) :
    (s.carry prevClk processed).handleBit absSample frame data =
      (s.handleBit absSample frame data).carry prevClk processed := by
  have framed :=
    startFrame_carry ({ s with bits := s.bits ++ [TdmBit.mk absSample frame data] }.countBck frame)
      prevClk processed absSample
  simp only [handleBit]
  rw [← finishWord_carry]
  exact congrArg (fun s => (s.shiftIn data).finishWord absSample) framed

theorem startFrame_edge : (s.startFrame absSample).edge = s.edge := by
  simp only [startFrame, apply_ite edge, resetCh0, ite_self]

theorem handleBit_edge (frame data : Bool) : (s.handleBit absSample frame data).edge = s.edge := by
  have frameKept :=
    startFrame_edge ({ s with bits := s.bits ++ [TdmBit.mk absSample frame data] }.countBck frame)
      absSample
  simp only [handleBit, finishWord]
  split
  · exact frameKept
  · exact frameKept

theorem handleBit_processedSamples (frame data : Bool) :
    (s.handleBit absSample frame data).processedSamples = s.processedSamples := by
  have same := handleBit_carry s s.edgePrevClk s.processedSamples absSample frame data
  exact congrArg (fun s => s.processedSamples) same

theorem plainSample_carry (stream : SampleStream) (samplenum : Nat) :
    plainSample stream samplenum (s.carry prevClk processed) =
      (if wantedEdge s.edge prevClk (stream 0 samplenum) then
          s.handleBit samplenum (stream 1 samplenum) (stream 2 samplenum)
        else
          s).carry (stream 0 samplenum) (processed + 1) := by
  have edge : (s.carry prevClk processed).edge = s.edge := rfl
  have level : (s.carry prevClk processed).edgePrevClk = prevClk := rfl
  simp only [plainSample, edge, level]
  split
  · rw [handleBit_carry]
    rfl
  · rfl

end Carry

theorem plainSample_loop (stream : SampleStream) (block : TdmBlock)
    (s : TdmAudioFastState) (count : Nat)
    (clk : ∀ i, i < count →
      block.clk.packedBit (block.bitOffset + i) = stream 0 (block.baseAbs + i))
    (frame : ∀ i, i < count →
      block.frame.packedBit (block.bitOffset + i) = stream 1 (block.baseAbs + i))
    (data : ∀ i, i < count →
      block.data.packedBit (block.bitOffset + i) = stream 2 (block.baseAbs + i)) :
    let last := sampleLoop (headSample block s.edge) 0 count (s, s.edgePrevClk)
    sampleLoop (plainSample stream) block.baseAbs count s =
        last.1.carry last.2 (s.processedSamples + count) ∧
      last.1.edge = s.edge ∧ last.1.processedSamples = s.processedSamples := by
  induction count with
  | zero => exact ⟨rfl, rfl, rfl⟩
  | succ count ih =>
      obtain ⟨loop, edge, processed⟩ :=
        ih (fun i below => clk i (Nat.lt_succ_of_lt below))
          (fun i below => frame i (Nat.lt_succ_of_lt below))
          (fun i below => data i (Nat.lt_succ_of_lt below))
      have here := Nat.lt_succ_self count
      simp only [sampleLoop]
      rw [loop]
      generalize sampleLoop (headSample block s.edge) 0 count (s, s.edgePrevClk) = last at *
      obtain ⟨before, prevClk⟩ := last
      simp only at edge processed
      rw [plainSample_carry, edge]
      simp only [headSample, Nat.zero_add, clk count here, frame count here, data count here]
      refine ⟨rfl, ?_⟩
      split
      · rw [handleBit_edge, handleBit_processedSamples]
        exact ⟨edge, processed⟩
      · exact ⟨edge, processed⟩

theorem decodeBlock_eq (s : TdmAudioFastState) {stream : SampleStream}
    {block : PackedBlock} (shows : block.Shows 3 stream) :
    s.decodeBlock block =
      sampleLoop (plainSample stream) block.startSample block.count s := by
  simp only [decodeBlock]
  rw [processPacked_eq _ _ _ _ shows.bitOffset]
  obtain ⟨loop, _, processed⟩ := plainSample_loop stream
    { clk := block.channel 0
      frame := block.channel 1
      data := block.channel 2
      baseAbs := block.startSample
      bitOffset := block.bitOffset } s block.count
    (shows.levels 0 (by omega)) (shows.levels 1 (by omega))
    (shows.levels 2 (by omega))
  simp only at loop processed
  rw [loop, processed]
  rfl

theorem foldl_decodeBlock_eq {stream : SampleStream} {start stop : Nat}
    {blocks : List PackedBlock} (cuts : Cuts 3 stream start stop blocks)
    (s : TdmAudioFastState) :
    blocks.foldl decodeBlock s =
      sampleLoop (plainSample stream) start (stop - start) s := by
  induction blocks generalizing start s with
  | nil =>
      obtain rfl : start = stop := cuts
      rw [Nat.sub_self]
      rfl
  | cons block blocks ih =>
      obtain ⟨begins, shows, rest⟩ := cuts
      have later := rest.le
      have length : stop - start = block.count + (stop - (start + block.count)) := by omega
      rw [List.foldl_cons, ih rest, decodeBlock_eq s shows, begins, length, sampleLoop_add]

end TdmAudioFastState

open TdmAudioFastState in
/-- The packed scan of a capture makes the same calls of `handle_bit` as a loop
over its samples, and it leaves the same state. -/
theorem tdmAudioFastDecode_eq_plainDecode
    (s : TdmAudioFastState) {stream : SampleStream} {start stop : Nat}
    {blocks : List PackedBlock} (cuts : Cuts 3 stream start stop blocks) :
    tdmAudioFastDecode s blocks = plainDecode s stream start stop :=
  foldl_decodeBlock_eq cuts s.initPrevClk

def twoBitTdm : TdmAudioFastState :=
  { channels := 2
    bitdepth := 2
    edge := false
    fa := true
    fi := false
    align := false
    isSigned := true
    emitAnnotations := true
    emitAnalog := true
    i2sBckCnt := 0
    lastframe := false
    channel := 0
    bitcount := 0
    data := 0
    ssBlock := 0
    haveSsBlock := false
    samplecount := 0
    edgePrevClk := false
    havePrevClk := false
    processedSamples := 0
    bits := []
    samples := [] }

def clockStream : SampleStream :=
  fun ch samplenum => if ch = 0 then samplenum % 2 = 1 else true

/-- Three samples that start in the middle of a byte, and two more. -/
def clockBlocks : List PackedBlock :=
  [{ count := 3
     startSample := 0
     bitOffset := 5
     buffers := [some [0x40], none, none]
     constValues := [0, 1, 1] },
   { count := 2
     startSample := 3
     bitOffset := 0
     buffers := [some [0x01], none, none]
     constValues := [0, 1, 1] }]

theorem tdmAudioFastDecode_eq_plainDecode_clock : twoBitTdm.tdmAudioFastDecode clockBlocks =
      twoBitTdm.plainDecode clockStream 0 5 := by
  apply tdmAudioFastDecode_eq_plainDecode
  refine ⟨rfl, ⟨by decide, by decide⟩, rfl, ⟨by decide, by decide⟩, rfl⟩

end SigrokDecode
