import Mathlib.Logic.Relation
import SigrokDecode.Decoders.TdmAudioSync
import SigrokDecode.Foundation.FillBuffer

/-!
# The analog batches of TDM audio

`tdm_audio_fast` collects the PCM values of each channel and hands them over a batch at a time:
when a batch is full, and at the end of the run.
-/

set_option linter.dupNamespace false

namespace SigrokDecode

open Foundation SrdDecoderInst List TdmAudioFastState

/-- A slot of `analog_buf`, `analog_start_buf` and `analog_end_buf`; the PCM value is not yet
divided by the full scale. -/
structure AnalogEntry where
  value : Int
  startSample : Nat
  endSample : Nat
  deriving DecidableEq

/-- What a call of `c_put_analog_timed` hands over. -/
structure AnalogBatch where
  channel : Nat
  numChannels : Nat
  startSample : Nat
  endSample : Nat
  entries : List AnalogEntry

/-- The arrays of the state with an element for each channel. -/
structure AnalogChannel where
  buffer : FillBuffer AnalogEntry
  prevStart : UInt64
  nominalDelta : UInt64
  havePrev : Bool
  gapLogs : Nat

/-- A line of the log about a strong discontinuity. -/
structure AnalogGap where
  channel : Nat
  prevStart : UInt64
  start : UInt64
  delta : UInt64
  nominal : UInt64

/-- `tdm_audio_fast_state`. -/
structure TdmAnalogState where
  audio : TdmAudioFastState
  samplerate : Nat
  captureSamples : Nat
  fetchBlock : Nat
  analogBatch : Nat
  analog : Nat → AnalogChannel
  /-- History: the lines of the log, and the batches that were handed over. -/
  gaps : List AnalogGap
  delivered : List AnalogBatch

/-- The keys of `tdm_audio_fast_metadata`. -/
inductive TdmMetadata
  | samplerate
  | captureSamples
  | other
  deriving DecidableEq

def channelEntries (samples : List TdmSample) (ch : Nat) : List AnalogEntry :=
  (samples.filter (·.channel = ch)).filterMap fun sample =>
    sample.analog.map fun value => ⟨value, sample.startSample, sample.endSample⟩

namespace AnalogChannel

/-- A channel behind `memset`. -/
def fresh : AnalogChannel :=
  { buffer := { slot := fun _ => ⟨0, 0, 0⟩, count := 0 }
    prevStart := 0
    nominalDelta := 0
    havePrev := false
    gapLogs := 0 }

/-- The timing diagnostics of `output_sample`. -/
def noteStart (channel : AnalogChannel) (ch : Nat) (start : UInt64) :
    AnalogChannel × List AnalogGap :=
  let noted := { channel with prevStart := start, havePrev := true }
  let delta := start - channel.prevStart
  let nominal := channel.nominalDelta
  if channel.havePrev then
    if nominal = 0 ∧ delta ≠ 0 then
      ({ noted with nominalDelta := delta }, [])
    else if nominal ≠ 0 ∧ delta ≠ 0 then
      if nominal + nominal / 2 < delta ∨ delta + delta / 2 < nominal then
        if channel.gapLogs < 4 then
          ({ noted with gapLogs := channel.gapLogs + 1 },
            [⟨ch, channel.prevStart, start, delta, nominal⟩])
        else
          (noted, [])
      else
        ({ noted with nominalDelta := (nominal * 7 + delta + 4) / 8 }, [])
    else
      (noted, [])
  else
    (noted, [])

theorem noteStart_buffer (channel : AnalogChannel) (ch : Nat) (start : UInt64) :
    (channel.noteStart ch start).1.buffer = channel.buffer := by
  unfold noteStart
  dsimp only
  split_ifs
  all_goals rfl

end AnalogChannel

namespace TdmAnalogState

def updateAdaptiveBatches (s : TdmAnalogState) : TdmAnalogState :=
  let samples := max s.captureSamples s.audio.processedSamples
  let seconds := samples / s.samplerate
  let fetchBlock :=
    if 10000000 ≤ samples ∨ 10 ≤ seconds then 65536
    else if 1000000 ≤ samples ∨ 1 ≤ seconds then 32768
    else 16384
  let analogBatch :=
    if 60 ≤ seconds then 4096
    else if 10 ≤ seconds then 2048
    else if 1 ≤ seconds then 512
    else 256
  { s with
    fetchBlock := max s.fetchBlock fetchBlock
    analogBatch := max s.analogBatch analogBatch }

def metadata (s : TdmAnalogState) (key : TdmMetadata) (value : Nat) : TdmAnalogState :=
  match key with
  | .samplerate => { s with samplerate := value }
  | .captureSamples => { s with captureSamples := value }
  | .other => s

/-- `flush_analog_channel`, with `c_decoder_put_analog_timed`. -/
def flushAnalogChannel (s : TdmAnalogState) (ch : Nat) : TdmAnalogState :=
  let channel := s.analog ch
  let count := channel.buffer.count
  if count = 0 then
    s
  else
    let batch :=
      { channel := ch
        numChannels := s.audio.channels
        startSample := (channel.buffer.slot 0).startSample
        endSample := (channel.buffer.slot (count - 1)).endSample
        entries := channel.buffer.contents }
    { s with
      delivered := s.delivered ++ [batch]
      analog := Function.update s.analog ch { channel with buffer := channel.buffer.clear } }

def flushAnalogAll (s : TdmAnalogState) : TdmAnalogState :=
  (List.range s.audio.channels).foldl flushAnalogChannel s

/-- `output_sample` from the new value on. -/
def storeAnalog (s : TdmAnalogState) (ch : Nat) (value : Int) (start endAbs : Nat) :
    TdmAnalogState :=
  let noted := (s.analog ch).noteStart ch (UInt64.ofNat start)
  let channel : AnalogChannel :=
    { noted.1 with buffer := noted.1.buffer.push ⟨value, start, endAbs⟩ }
  let s := { s with analog := Function.update s.analog ch channel, gaps := s.gaps ++ noted.2 }
  if s.analogBatch ≤ channel.buffer.count then s.flushAnalogChannel ch else s

def outputSample (s : TdmAnalogState) (ch endAbs : Nat) : TdmAnalogState :=
  let start := s.audio.ssBlock
  let value := pcmValue s.audio.isSigned s.audio.bitdepth s.audio.data
  let emitAnalog := s.audio.emitAnalog
  let s := { s with audio := s.audio.outputSample ch endAbs }
  if emitAnalog then s.storeAnalog ch value start endAbs else s

/-- `handle_bit`: the last bit of a word. -/
def finishWord (s : TdmAnalogState) (absSample : Nat) : TdmAnalogState :=
  if s.audio.haveSsBlock ∧ s.audio.bitdepth ≤ s.audio.bitcount then
    let s := { s with audio := { s.audio with bitcount := 0 } }
    let s := s.outputSample (s.audio.channel % s.audio.channels) absSample
    { s with
      audio :=
        { s.audio with
          data := 0
          ssBlock := absSample
          samplecount := s.audio.samplecount + 1
          channel := s.audio.channel + 1 } }
  else
    s

def handleBit (s : TdmAnalogState) (absSample : Nat) (frame data : Bool) : TdmAnalogState :=
  let audio := { s.audio with bits := s.audio.bits ++ [TdmBit.mk absSample frame data] }
  ({ s with audio := ((audio.countBck frame).startFrame absSample).shiftIn data }).finishWord
    absSample

def tdmProcessWord (s : TdmAnalogState) (clk frame data : BitVec 64) (width baseAbs : Nat)
    (wantEdge prevClk : Bool) : TdmAnalogState × Bool :=
  let valid := lowMask64 width
  let clk := clk &&& valid
  let edges := if wantEdge then fallingBits clk prevClk else risingBits clk prevClk
  (forEachBit (fun bit s =>
        s.handleBit (baseAbs + bit) (frame.getLsbD bit) (data.getLsbD bit))
      (edges &&& valid) s,
    (clk >>> (width - 1)).getLsbD 0)

/-- The body of the head loop of `process_packed`. -/
def headSample (block : TdmAudioFastState.TdmBlock) (wantEdge : Bool) (i : Nat)
    (state : TdmAnalogState × Bool) : TdmAnalogState × Bool :=
  let bi := block.bitOffset + i
  let clk := block.clk.packedBit bi
  (if TdmAudioFastState.wantedEdge wantEdge state.2 clk then
      state.1.handleBit (block.baseAbs + i) (block.frame.packedBit bi) (block.data.packedBit bi)
    else
      state.1,
    clk)

def wordAt (block : TdmAudioFastState.TdmBlock) (wantEdge : Bool) (pos width : Nat)
    (state : TdmAnalogState × Bool) : TdmAnalogState × Bool :=
  let packedBit := block.bitOffset + pos
  tdmProcessWord state.1 (block.clk.loadPackedWord packedBit width)
    (block.frame.loadPackedWord packedBit width)
    (block.data.loadPackedWord packedBit width) width (block.baseAbs + pos) wantEdge
    state.2

/-- `s->edge_prev_clk = prev_clk` -/
def storePrevClk (s : TdmAnalogState) (prevClk : Bool) : TdmAnalogState :=
  { s with audio := { s.audio with edgePrevClk := prevClk } }

def processPacked (s : TdmAnalogState) (block : TdmAudioFastState.TdmBlock) (count : Nat)
    (wantEdge : Bool) : TdmAnalogState :=
  let last :=
    processPackedBlock (headSample block wantEdge) (wordAt block wantEdge) block.bitOffset
      count (s, s.audio.edgePrevClk)
  last.1.storePrevClk last.2

/-- The start of `tdm_audio_fast_decode`. -/
def initPrevClk (s : TdmAnalogState) : TdmAnalogState :=
  { s with audio := s.audio.initPrevClk }

/-- The loop of `tdm_audio_fast_decode` up to `c_consume_samples`. -/
def scanBlock (s : TdmAnalogState) (block : PackedBlock) : TdmAnalogState :=
  s.processPacked
    { clk := block.channel 0
      frame := block.channel 1
      data := block.channel 2
      baseAbs := block.startSample
      bitOffset := block.bitOffset }
    block.count s.audio.edge

/-- The loop behind `c_consume_samples`. -/
def consumed (s : TdmAnalogState) (count : Nat) : TdmAnalogState :=
  { s with
    audio := { s.audio with processedSamples := s.audio.processedSamples + count }
  }.updateAdaptiveBatches

/-- One round of the loop. -/
def decodeBlock (s : TdmAnalogState) (block : PackedBlock) : TdmAnalogState :=
  (s.scanBlock block).consumed block.count

/-- `tdm_audio_fast_decode` on the blocks that it fetches; the last one may be a block that
cannot be consumed. -/
def tdmAudioFastDecode (s : TdmAnalogState) (blocks : List PackedBlock)
    (unconsumed : Option PackedBlock) : TdmAnalogState :=
  let s := blocks.foldl decodeBlock s.initPrevClk
  (unconsumed.toList.foldl scanBlock s).flushAnalogAll

section Audio

variable (s : TdmAnalogState)

@[simp]
theorem flushAnalogChannel_audio (ch : Nat) : (s.flushAnalogChannel ch).audio = s.audio := by
  unfold flushAnalogChannel
  dsimp only
  split
  · rfl
  · rfl

@[simp]
theorem storeAnalog_audio (ch : Nat) (value : Int) (start endAbs : Nat) :
    (s.storeAnalog ch value start endAbs).audio = s.audio := by
  unfold storeAnalog
  dsimp only
  split
  · exact flushAnalogChannel_audio _ ch
  · rfl

@[simp]
theorem outputSample_audio (ch endAbs : Nat) :
    (s.outputSample ch endAbs).audio = s.audio.outputSample ch endAbs := by
  unfold outputSample
  dsimp only
  split
  · exact storeAnalog_audio _ _ _ _ _
  · rfl

theorem finishWord_audio (absSample : Nat) :
    (s.finishWord absSample).audio = s.audio.finishWord absSample := by
  unfold finishWord TdmAudioFastState.finishWord
  split
  · dsimp only
    rw [outputSample_audio]
  · rfl

theorem handleBit_audio (absSample : Nat) (frame data : Bool) :
    (s.handleBit absSample frame data).audio = s.audio.handleBit absSample frame data :=
  finishWord_audio _ absSample

theorem flushAnalogAll_audio : s.flushAnalogAll.audio = s.audio := by
  unfold flushAnalogAll
  generalize range s.audio.channels = chs
  induction chs generalizing s with
  | nil => rfl
  | cons ch chs ih =>
      rw [foldl_cons, ih, flushAnalogChannel_audio]

end Audio

/-- What can happen between two points of a run. -/
inductive Operation : TdmAnalogState → TdmAnalogState → Prop
  | initPrevClk (s) : Operation s s.initPrevClk
  | handleBit (s) (absSample : Nat) (frame data : Bool) :
      Operation s (s.handleBit absSample frame data)
  | storePrevClk (s) (prevClk : Bool) : Operation s (s.storePrevClk prevClk)
  | consumed (s) (count : Nat) : Operation s (s.consumed count)
  | metadata (s) (key : TdmMetadata) (value : Nat) : Operation s (s.metadata key value)
  | flush (s) (ch : Nat) : Operation s (s.flushAnalogChannel ch)

abbrev Reaches : TdmAnalogState → TdmAnalogState → Prop :=
  Relation.ReflTransGen Operation

/-- A state that operations reach, and the state machine as it is without the batches. -/
structure Follows (start s : TdmAnalogState) (plain : TdmAudioFastState) : Prop where
  audio : s.audio = plain
  reaches : Reaches start s

variable {start : TdmAnalogState}

variable {plain : TdmAudioFastState}

variable {s : TdmAnalogState}

theorem Follows.handleBit (follows : Follows start s plain) (absSample : Nat) (frame data : Bool) :
    Follows start (s.handleBit absSample frame data) (plain.handleBit absSample frame data) where
  audio := by rw [handleBit_audio, follows.audio]
  reaches := follows.reaches.tail (.handleBit _ _ _ _)

/-- Both scans are at the same level of the clock. -/
def FollowsAt (start : TdmAnalogState) (state : TdmAnalogState × Bool)
    (plain : TdmAudioFastState × Bool) : Prop :=
  Follows start state.1 plain.1 ∧ state.2 = plain.2

theorem FollowsAt.headSample {block : TdmBlock} {wantEdge : Bool} (i : Nat)
    (state : TdmAnalogState × Bool) (plain : TdmAudioFastState × Bool)
    (follows : FollowsAt start state plain) :
    FollowsAt start (headSample block wantEdge i state)
      (TdmAudioFastState.headSample block wantEdge i plain) := by
  unfold TdmAnalogState.headSample TdmAudioFastState.headSample
  dsimp only
  rw [follows.2]
  refine ⟨?_, rfl⟩
  split
  · exact follows.1.handleBit _ _ _
  · exact follows.1

theorem FollowsAt.wordAt {block : TdmBlock} {wantEdge : Bool}
    (pos width : Nat) (state : TdmAnalogState × Bool) (plain : TdmAudioFastState × Bool)
    (follows : FollowsAt start state plain) :
    FollowsAt start (wordAt block wantEdge pos width state)
      (TdmAudioFastState.wordAt block wantEdge pos width plain) := by
  have visited (frame data edges : BitVec 64) : Follows start
        (forEachBit (fun bit s => s.handleBit (block.baseAbs + pos + bit) (frame.getLsbD bit)
          (data.getLsbD bit)) edges state.1)
        (forEachBit (fun bit s => s.handleBit (block.baseAbs + pos + bit) (frame.getLsbD bit)
          (data.getLsbD bit)) edges plain.1) := by
    refine forEachBit_related (fun bit s plain follows => ?_) edges follows.1
    exact Follows.handleBit follows _ _ _
  unfold TdmAnalogState.wordAt TdmAudioFastState.wordAt tdmProcessWord
    TdmAudioFastState.tdmProcessWord
  dsimp only
  rw [follows.2]
  exact ⟨visited _ _ _, rfl⟩

theorem Follows.processPacked (follows : Follows start s plain) (block : TdmBlock) (count : Nat)
    (wantEdge : Bool) :
    Follows start (s.processPacked block count wantEdge)
      (plain.processPacked block count wantEdge) := by
  have first : FollowsAt start (s, s.audio.edgePrevClk) (plain, plain.edgePrevClk) :=
    ⟨follows, by rw [follows.audio]⟩
  obtain ⟨scanned, level⟩ :=
    processPackedBlock_related (@FollowsAt.headSample start block wantEdge)
      (@FollowsAt.wordAt start block wantEdge) block.bitOffset count first
  unfold TdmAnalogState.processPacked TdmAudioFastState.processPacked
  dsimp only
  rw [← level, ← scanned.audio]
  exact ⟨rfl, scanned.reaches.tail (.storePrevClk _ _)⟩

theorem Follows.scanBlock (follows : Follows start s plain) (block : PackedBlock) :
    Follows start (s.scanBlock block) (plain.processPacked
        { clk := block.channel 0
          frame := block.channel 1
          data := block.channel 2
          baseAbs := block.startSample
          bitOffset := block.bitOffset } block.count plain.edge) := by
  have edge : s.audio.edge = plain.edge := by rw [follows.audio]
  unfold TdmAnalogState.scanBlock
  rw [edge]
  exact follows.processPacked _ _ _

theorem Follows.decodeBlock (follows : Follows start s plain) (block : PackedBlock) :
    Follows start (s.decodeBlock block) (plain.decodeBlock block) := by
  have scanned := follows.scanBlock block
  unfold TdmAnalogState.decodeBlock TdmAudioFastState.decodeBlock
  dsimp only
  rw [← scanned.audio]
  exact ⟨rfl, scanned.reaches.tail (.consumed _ _)⟩

theorem Follows.blocks (follows : Follows start s plain) (blocks : List PackedBlock) :
    Follows start (blocks.foldl TdmAnalogState.decodeBlock s)
      (blocks.foldl TdmAudioFastState.decodeBlock plain) := by
  induction blocks generalizing s plain with
  | nil => exact follows
  | cons block blocks ih => exact ih (follows.decodeBlock block)

theorem Reaches.flushAnalogAll (reaches : Reaches start s) : Reaches start s.flushAnalogAll := by
  unfold TdmAnalogState.flushAnalogAll
  generalize range s.audio.channels = chs
  induction chs generalizing s with
  | nil => exact reaches
  | cons ch chs ih => exact ih (reaches.tail (.flush _ ch))

theorem tdmAudioFastDecode_follows (s : TdmAnalogState) (blocks : List PackedBlock)
    (unconsumed : Option PackedBlock) :
    ∃ unflushed, Reaches s unflushed ∧
      s.tdmAudioFastDecode blocks unconsumed = unflushed.flushAnalogAll ∧
      unflushed.audio.samples =
        (s.audio.tdmAudioFastDecode (blocks ++ unconsumed.toList)).samples := by
  have first : Follows s s.initPrevClk s.audio.initPrevClk := ⟨rfl, .single (.initPrevClk s)⟩
  have scanned := first.blocks blocks
  unfold tdmAudioFastDecode TdmAudioFastState.tdmAudioFastDecode
  rw [foldl_append]
  cases unconsumed with
  | none => exact ⟨_, scanned.reaches, rfl, congrArg (fun s => s.samples) scanned.audio⟩
  | some block =>
      have last := scanned.scanBlock block
      exact ⟨_, last.reaches, rfl, congrArg (fun s => s.samples) last.audio⟩

/-! ## Nothing is lost -/

def decodedOn (s : TdmAnalogState) (ch : Nat) : List AnalogEntry :=
  channelEntries s.audio.samples ch

def deliveredOn (s : TdmAnalogState) (ch : Nat) : List AnalogEntry :=
  (s.delivered.filter (·.channel = ch)).flatMap AnalogBatch.entries

def pendingOn (s : TdmAnalogState) (ch : Nat) : List AnalogEntry :=
  (s.analog ch).buffer.contents

end TdmAnalogState

def AnalogBatch.Spans (batch : AnalogBatch) : Prop :=
  batch.entries.head?.map AnalogEntry.startSample = some batch.startSample ∧
    batch.entries.getLast?.map AnalogEntry.endSample = some batch.endSample

namespace TdmAnalogState

theorem flushAnalogChannel_entries (s : TdmAnalogState) (ch other : Nat) :
    (s.flushAnalogChannel ch).deliveredOn other ++ (s.flushAnalogChannel ch).pendingOn other =
      s.deliveredOn other ++ s.pendingOn other := by
  unfold flushAnalogChannel
  dsimp only
  split
  · rfl
  · unfold deliveredOn pendingOn
    dsimp only
    rw [filter_append, flatMap_append]
    by_cases same : other = ch
    · rw [same, Function.update_self]
      simp
    · have apart : ch ≠ other := Ne.symm same
      rw [Function.update_of_ne same]
      simp [apart]

theorem flushAnalogChannel_count (s : TdmAnalogState) (ch other : Nat) :
    ((s.flushAnalogChannel ch).analog other).buffer.count =
      if other = ch then 0 else (s.analog other).buffer.count := by
  unfold flushAnalogChannel
  dsimp only
  split
  · rename_i empty
    split
    · rename_i same
      rw [same, empty]
    · rfl
  · dsimp only
    by_cases same : other = ch
    · rw [same, Function.update_self, if_pos rfl]
      rfl
    · rw [Function.update_of_ne same, if_neg same]

variable {s : TdmAnalogState}

theorem flushAnalogChannel_spans (spans : ∀ batch ∈ s.delivered, batch.Spans)
    (ch : Nat) : ∀ batch ∈ (s.flushAnalogChannel ch).delivered, batch.Spans := by
  unfold flushAnalogChannel
  dsimp only
  split
  · exact spans
  · rename_i some
    have used := Nat.pos_of_ne_zero some
    intro batch member
    rcases mem_append.mp member with before | new
    · exact spans batch before
    · rw [mem_singleton.mp new]
      unfold AnalogBatch.Spans
      dsimp only
      rw [FillBuffer.head?_contents used, FillBuffer.getLast?_contents used]
      exact ⟨rfl, rfl⟩

theorem flushAnalogChannel_analogBatch (s : TdmAnalogState) (ch : Nat) :
    (s.flushAnalogChannel ch).analogBatch = s.analogBatch := by
  unfold flushAnalogChannel
  dsimp only
  split
  · rfl
  · rfl

/-- The batches and the buffers hold the decoded samples. -/
structure Kept (s : TdmAnalogState) : Prop where
  batch : 0 < s.analogBatch ∧ s.analogBatch ≤ 4096
  channels : 0 < s.audio.channels
  unused : ∀ ch, s.audio.channels ≤ ch → (s.analog ch).buffer.count = 0
  order : ∀ ch, s.deliveredOn ch ++ s.pendingOn ch = s.decodedOn ch
  spans : ∀ batch ∈ s.delivered, batch.Spans

/-- What holds between two operations. -/
structure Batched (s : TdmAnalogState) : Prop extends Kept s where
  room : ∀ ch, (s.analog ch).buffer.count < s.analogBatch

theorem Kept.flush (kept : Kept s) (ch : Nat) : Kept (s.flushAnalogChannel ch) := by
  obtain ⟨batch, channels, unused, order, spans⟩ := kept
  constructor
  case batch => exact (flushAnalogChannel_analogBatch s ch).symm ▸ batch
  case channels => exact (flushAnalogChannel_audio s ch).symm ▸ channels
  case unused =>
    intro other beyond
    rw [flushAnalogChannel_audio] at beyond
    rw [flushAnalogChannel_count, unused other beyond, ite_self]
  case order =>
    intro other
    rw [flushAnalogChannel_entries, order]
    unfold decodedOn
    rw [flushAnalogChannel_audio]
  case spans => exact flushAnalogChannel_spans spans ch

variable {ch : Nat}

theorem Kept.flush_room (kept : Kept s)
    (room : ∀ other, other ≠ ch → (s.analog other).buffer.count < s.analogBatch) :
    Batched (s.flushAnalogChannel ch) where
  toKept := kept.flush ch
  room := by
    intro other
    rw [flushAnalogChannel_count, flushAnalogChannel_analogBatch]
    split
    · exact kept.batch.1
    · rename_i apart
      exact room other apart

variable {audio : TdmAudioFastState}

theorem Batched.put (batched : Batched s) (inside : ch < s.audio.channels) {entry : AnalogEntry}
    (channels : audio.channels = s.audio.channels)
    (decoded : ∀ other, ({ s with audio := audio } : TdmAnalogState).decodedOn other =
      s.decodedOn other ++ if other = ch then [entry] else [])
    {channel : AnalogChannel} (buffer : channel.buffer = (s.analog ch).buffer.push entry)
    (gaps : List AnalogGap) :
    let t : TdmAnalogState := { s with
      audio := audio
      analog := Function.update s.analog ch channel
      gaps := gaps }
    Batched (if s.analogBatch ≤ channel.buffer.count then t.flushAnalogChannel ch else t) := by
  intro t
  obtain ⟨⟨batch, some, unused, order, spans⟩, room⟩ := batched
  have contents : channel.buffer.contents = s.pendingOn ch ++ [entry] := by
    rw [buffer]
    exact FillBuffer.contents_push _ _
  have kept : Kept t := by
    constructor
    case batch => exact batch
    case channels => exact channels.symm ▸ some
    case unused =>
      intro other beyond
      have beyond : s.audio.channels ≤ other := channels ▸ beyond
      have apart : other ≠ ch := by omega
      exact (congrArg (·.buffer.count) (Function.update_of_ne apart channel s.analog)).trans
        (unused other beyond)
    case order =>
      intro other
      refine Eq.trans ?_ (decoded other).symm
      rw [← order other, List.append_assoc]
      refine congrArg (s.deliveredOn other ++ ·) ?_
      change (Function.update s.analog ch channel other).buffer.contents = _
      split
      · rename_i same
        rw [same, Function.update_self]
        exact contents
      · rename_i apart
        rw [Function.update_of_ne apart, List.append_nil]
        rfl
    case spans => exact spans
  have others : ∀ other, other ≠ ch →
      (Function.update s.analog ch channel other).buffer.count < s.analogBatch := by
    intro other apart
    rw [Function.update_of_ne apart]
    exact room other
  split
  · exact kept.flush_room others
  · rename_i notFull
    refine ⟨kept, fun other => ?_⟩
    by_cases same : other = ch
    · subst same
      exact (congrArg (·.buffer.count) (Function.update_self other channel s.analog)).trans_lt
        (Nat.lt_of_not_le notFull)
    · exact others other same

theorem Batched.storeAnalog (batched : Batched s) {ch start endAbs : Nat}
    {value : Int} (inside : ch < s.audio.channels)
    (channels : audio.channels = s.audio.channels)
    (decoded : ∀ other, ({ s with audio := audio } : TdmAnalogState).decodedOn other =
      s.decodedOn other ++ if other = ch then [⟨value, start, endAbs⟩] else []) :
    Batched (({ s with audio := audio } : TdmAnalogState).storeAnalog ch value start endAbs) := by
  have buffer := AnalogChannel.noteStart_buffer (s.analog ch) ch (UInt64.ofNat start)
  exact batched.put inside channels decoded
    (congrArg (FillBuffer.push · ⟨value, start, endAbs⟩) buffer) _

theorem Batched.withAudio (batched : Batched s)
    (channels : audio.channels = s.audio.channels) (samples : audio.samples = s.audio.samples) :
    Batched { s with audio := audio } := by
  obtain ⟨⟨batch, some, unused, order, spans⟩, room⟩ := batched
  refine ⟨⟨batch, channels.symm ▸ some, fun ch beyond => unused ch (channels ▸ beyond),
    fun ch => (order ch).trans ?_, spans⟩, room⟩
  unfold decodedOn
  dsimp only
  rw [samples]

theorem decodedOn_outputSample (s : TdmAnalogState) (ch endAbs other : Nat) :
    ({ s with audio := s.audio.outputSample ch endAbs } : TdmAnalogState).decodedOn other =
      s.decodedOn other ++
        if other = ch ∧ s.audio.emitAnalog = true then
          [⟨pcmValue s.audio.isSigned s.audio.bitdepth s.audio.data, s.audio.ssBlock, endAbs⟩]
        else [] := by
  unfold decodedOn channelEntries TdmAudioFastState.outputSample
  dsimp only
  rw [filter_append, filterMap_append]
  by_cases same : other = ch
  · cases s.audio.emitAnalog
    · simp [same]
    · simp [same]
  · have apart : ch ≠ other := Ne.symm same
    simp [same, apart]

theorem Batched.outputSample (batched : Batched s)
    (inside : ch < s.audio.channels) (endAbs : Nat) : Batched (s.outputSample ch endAbs) := by
  have decoded := s.decodedOn_outputSample ch endAbs
  unfold TdmAnalogState.outputSample
  dsimp only
  split
  · rename_i emits
    refine batched.storeAnalog inside rfl fun other => ?_
    rw [decoded, emits]
    simp only [and_true]
  · rename_i silent
    obtain ⟨⟨batch, some, unused, order, spans⟩, room⟩ := batched
    refine ⟨⟨batch, some, unused, fun other => ?_, spans⟩, room⟩
    rw [decoded, if_neg fun both => silent both.2, List.append_nil]
    exact order other

theorem Batched.finishWord (batched : Batched s) (absSample : Nat) :
    Batched (s.finishWord absSample) := by
  unfold TdmAnalogState.finishWord
  split
  · have cleared : Batched { s with audio := { s.audio with bitcount := 0 } } :=
      batched.withAudio rfl rfl
    have inside := Nat.mod_lt s.audio.channel batched.channels
    exact (cleared.outputSample inside absSample).withAudio rfl rfl
  · exact batched

theorem Batched.handleBit (batched : Batched s) (absSample : Nat)
    (frame data : Bool) : Batched (s.handleBit absSample frame data) := by
  unfold TdmAnalogState.handleBit
  apply Batched.finishWord
  apply batched.withAudio
  · unfold TdmAudioFastState.shiftIn TdmAudioFastState.startFrame
    simp only [apply_ite TdmAudioFastState.channels, resetCh0, ite_self]
    rfl
  · unfold TdmAudioFastState.shiftIn TdmAudioFastState.startFrame
    simp only [apply_ite TdmAudioFastState.samples, resetCh0, ite_self]
    rfl

theorem Batched.consumed (batched : Batched s) (count : Nat) : Batched (s.consumed count) := by
  obtain ⟨⟨⟨some, full⟩, channels, unused, order, spans⟩, room⟩ := batched
  have grown : s.analogBatch ≤ (s.consumed count).analogBatch := Nat.le_max_left _ _
  constructor
  case toKept =>
    refine ⟨⟨some.trans_le grown, ?_⟩, channels, unused, order, spans⟩
    unfold TdmAnalogState.consumed updateAdaptiveBatches
    dsimp only
    refine max_le full ?_
    split_ifs
    all_goals decide
  case room => exact fun ch => (room ch).trans_le grown

theorem Operation.batched {s t : TdmAnalogState} (operation : Operation s t)
    (batched : Batched s) : Batched t := by
  cases operation with
  | initPrevClk =>
      apply batched.withAudio
      · unfold TdmAudioFastState.initPrevClk
        split
        · rfl
        · rfl
      · unfold TdmAudioFastState.initPrevClk
        split
        · rfl
        · rfl
  | handleBit absSample frame data => exact batched.handleBit absSample frame data
  | storePrevClk prevClk => exact batched.withAudio rfl rfl
  | consumed count => exact batched.consumed count
  | metadata key value =>
      obtain ⟨⟨batch, channels, unused, order, spans⟩, room⟩ := batched
      cases key
      all_goals exact ⟨⟨batch, channels, unused, order, spans⟩, room⟩
  | flush ch => exact batched.toKept.flush_room fun other _ => batched.room other

theorem Reaches.batched {s t : TdmAnalogState} (reaches : Reaches s t) (batched : Batched s) :
    Batched t := by
  induction reaches with
  | refl => exact batched
  | tail _ operation ih => exact operation.batched ih

theorem Batched.flushAnalogAll (batched : Batched s) (ch : Nat) :
    s.flushAnalogAll.pendingOn ch = [] := by
  have flushed (chs : List Nat) (s : TdmAnalogState) :
      ((chs.foldl flushAnalogChannel s).analog ch).buffer.count =
        if ch ∈ chs then 0 else (s.analog ch).buffer.count := by
    induction chs generalizing s with
    | nil => rfl
    | cons first chs ih =>
        rw [foldl_cons, ih, flushAnalogChannel_count]
        by_cases same : ch = first
        · rw [if_pos same, ite_self, if_pos (same ▸ mem_cons_self)]
        · rw [if_neg same]
          simp only [mem_cons, same, false_or]
  apply FillBuffer.contents_empty
  unfold TdmAnalogState.flushAnalogAll
  rw [flushed]
  split
  · rfl
  · rename_i outside
    apply batched.unused
    simpa using outside

end TdmAnalogState

namespace TdmAudioFastState

/-- The samples stand one behind the other, in front of the block that is filled. -/
structure Placed (s : TdmAudioFastState) : Prop where
  ordered : s.samples.Pairwise fun before behind => before.endSample ≤ behind.startSample
  spans : ∀ sample ∈ s.samples, sample.startSample ≤ sample.endSample ∧ sample.endSample ≤ s.ssBlock

variable {s : TdmAudioFastState}

theorem Placed.openBit (placed : Placed s) {bit : TdmBit} (later : s.ssBlock ≤ bit.absSample) :
    Placed (s.openBit bit) ∧ (s.openBit bit).ssBlock ≤ bit.absSample := by
  have moved {block : Nat} (upto : s.ssBlock ≤ block) : ∀ sample ∈ s.samples,
      sample.startSample ≤ sample.endSample ∧ sample.endSample ≤ block :=
    fun sample member => (placed.spans sample member).imp_right fun inside => inside.trans upto
  unfold TdmAudioFastState.openBit startFrame
  split_ifs
  · exact ⟨⟨placed.ordered, moved later⟩, le_rfl⟩
  · exact ⟨⟨placed.ordered, placed.spans⟩, later⟩
  · exact ⟨⟨placed.ordered, moved later⟩, le_rfl⟩
  · exact ⟨⟨placed.ordered, placed.spans⟩, later⟩

theorem Placed.handleBit (placed : Placed s) {bit : TdmBit} (later : s.ssBlock ≤ bit.absSample) :
    Placed (s.handleBit bit.absSample bit.frame bit.data) ∧
      (s.handleBit bit.absSample bit.frame bit.data).ssBlock ≤ bit.absSample := by
  obtain ⟨⟨ordered, spans⟩, upto⟩ := placed.openBit later
  rw [handleBit_openBit]
  generalize s.openBit bit = t at *
  unfold finishWord shiftIn outputSample
  dsimp only
  split
  · refine ⟨⟨?_, fun sample member => ?_⟩, le_rfl⟩
    · refine pairwise_append.mpr ⟨ordered, pairwise_singleton _ _, ?_⟩
      intro sample member new here
      rw [mem_singleton.mp here]
      exact (spans sample member).2
    · rcases mem_append.mp member with before | new
      · exact (spans sample before).imp_right fun inside => inside.trans upto
      · rw [mem_singleton.mp new]
        exact ⟨upto, le_rfl⟩
  · exact ⟨⟨ordered, spans⟩, upto⟩

theorem Placed.handleBits (placed : Placed s) {bits : List TdmBit}
    (ordered : bits.Pairwise fun before behind => before.absSample < behind.absSample)
    (later : ∀ bit ∈ bits, s.ssBlock ≤ bit.absSample) : Placed (s.handleBits bits) := by
  induction bits generalizing s with
  | nil => exact placed
  | cons bit bits ih =>
      obtain ⟨above, rest⟩ := pairwise_cons.mp ordered
      obtain ⟨handled, upto⟩ := placed.handleBit (later bit mem_cons_self)
      rw [handleBits_cons]
      exact ih handled rest fun next member =>
        upto.trans (above next member).le

end TdmAudioFastState

def AnalogBatch.Covers (batch : AnalogBatch) : Prop :=
  ∀ entry ∈ batch.entries, batch.startSample ≤ entry.startSample ∧
    entry.startSample ≤ entry.endSample ∧ entry.endSample ≤ batch.endSample

def AnalogEntry.NotBehind (before behind : AnalogEntry) : Prop :=
  before.startSample ≤ behind.startSample ∧ before.endSample ≤ behind.endSample

theorem channelEntries_placed {s : TdmAudioFastState} (placed : s.Placed) (ch : Nat) :
    (channelEntries s.samples ch).Pairwise AnalogEntry.NotBehind ∧
      ∀ entry ∈ channelEntries s.samples ch, entry.startSample ≤ entry.endSample := by
  obtain ⟨ordered, spans⟩ := placed
  constructor
  · refine pairwise_filterMap.mpr (List.Pairwise.filter _ ?_)
    refine ordered.imp_of_mem fun {before behind} front back apart entry first later second => ?_
    obtain ⟨_, -, rfl⟩ := Option.map_eq_some_iff.mp first
    obtain ⟨_, -, rfl⟩ := Option.map_eq_some_iff.mp second
    exact ⟨(spans before front).1.trans apart, apart.trans (spans behind back).1⟩
  · intro entry member
    obtain ⟨sample, kept, same⟩ := mem_filterMap.mp member
    obtain ⟨_, -, rfl⟩ := Option.map_eq_some_iff.mp same
    exact (spans sample (mem_filter.mp kept).1).1

theorem AnalogBatch.Spans.covers {batch : AnalogBatch} (spans : batch.Spans)
    (ordered : batch.entries.Pairwise AnalogEntry.NotBehind)
    (inside : ∀ entry ∈ batch.entries, entry.startSample ≤ entry.endSample) : batch.Covers := by
  obtain ⟨head, final⟩ := spans
  obtain ⟨first, isFirst, start⟩ := Option.map_eq_some_iff.mp head
  obtain ⟨last, isLast, stop⟩ := Option.map_eq_some_iff.mp final
  have bounds := pairwise_bounds (fun entry => ⟨le_rfl, le_rfl⟩) ordered isFirst isLast
  intro entry member
  obtain ⟨above, below⟩ := bounds entry member
  exact ⟨start ▸ above.1, inside entry member, stop ▸ below.2⟩

namespace TdmAnalogState

theorem Batched.covers {s : TdmAnalogState} (batched : Batched s) {plain : TdmAudioFastState}
    (placed : plain.Placed) (samples : s.audio.samples = plain.samples) :
    ∀ batch ∈ s.delivered, batch.Covers := by
  intro batch member
  obtain ⟨ordered, inside⟩ := channelEntries_placed placed batch.channel
  have part : batch.entries.Sublist (channelEntries plain.samples batch.channel) := by
    have sent : batch ∈ s.delivered.filter (·.channel = batch.channel) :=
      mem_filter.mpr ⟨member, decide_eq_true rfl⟩
    have order := batched.order batch.channel
    unfold decodedOn deliveredOn at order
    rw [← samples, ← order]
    exact (sublist_flatten_of_mem (mem_map_of_mem sent)).trans (sublist_append_left _ _)
  exact (batched.spans batch member).covers (ordered.sublist part) fun entry here =>
    inside entry (part.subset here)

end TdmAnalogState

/-- `tdm_audio_fast_reset` and `tdm_audio_fast_start`, which begins with batches of 256 values. -/
def tdmAnalogStart (options : TdmAudioOptions) (analogBatch samplerate captureSamples : Nat) :
    TdmAnalogState :=
  { audio := tdmAudioFastStart options
    samplerate := samplerate
    captureSamples := captureSamples
    fetchBlock := 16384
    analogBatch := analogBatch
    analog := fun _ => .fresh
    gaps := []
    delivered := [] : TdmAnalogState }.updateAdaptiveBatches

variable (options : TdmAudioOptions)

theorem TdmAudioOptions.channelCount_pos :
    0 < options.channelCount := by
  unfold channelCount
  split_ifs
  · decide
  · decide
  · omega

theorem batched_start {analogBatch : Nat}
    (some : 0 < analogBatch) (full : analogBatch ≤ 4096) (samplerate captureSamples : Nat) :
    (tdmAnalogStart options analogBatch samplerate captureSamples).Batched := by
  have initial : TdmAnalogState.Batched
      { audio := tdmAudioFastStart options
        samplerate := samplerate
        captureSamples := captureSamples
        fetchBlock := 16384
        analogBatch := analogBatch
        analog := fun _ => .fresh
        gaps := []
        delivered := [] } := by
    refine ⟨⟨⟨some, full⟩, options.channelCount_pos, fun _ _ => rfl, fun _ => rfl, ?_⟩,
      fun _ => some⟩
    intro batch member
    cases member
  exact initial.consumed 0

theorem placed_handleBits (stream : SampleStream)
    (edge prev : Bool) (first count : Nat) :
    ((tdmAudioFastStart options).initPrevClk.handleBits
      (sampledBits stream edge prev first count)).Placed := by
  have fresh : (tdmAudioFastStart options).initPrevClk.Placed := by
    constructor
    · exact List.Pairwise.nil
    · intro sample member
      cases member
  exact fresh.handleBits (sampledBits_ordered stream edge prev first count)
    fun bit _ => Nat.zero_le bit.absSample

open TdmAnalogState in
/-- The batches of a run hold the samples of each channel in order, and at every point of the run
only what is in the buffers is missing. -/
theorem delivered_samples (options : TdmAudioOptions) {analogBatch : Nat}
    (some : 1 ≤ analogBatch) (full : analogBatch ≤ 4096) (samplerate captureSamples : Nat)
    {stream : SampleStream} {start stop : Nat} {blocks : List PackedBlock}
    {unconsumed : Option PackedBlock}
    (cuts : SrdDecoderInst.PackedBlock.Cuts 3 stream start stop (blocks ++ unconsumed.toList)) :
    let first := tdmAnalogStart options analogBatch samplerate captureSamples
    let last := first.tdmAudioFastDecode blocks unconsumed
    (∀ ch, last.deliveredOn ch = channelEntries
      ((tdmAudioFastStart options).tdmAudioFastDecode (blocks ++ unconsumed.toList)).samples ch) ∧
      (∀ batch ∈ last.delivered, batch.Covers) ∧ Reaches first last ∧ ∀ s, Reaches first s → ∀ ch,
          (s.analog ch).buffer.count < s.analogBatch ∧ s.analogBatch ≤ 4096 ∧
            s.deliveredOn ch ++ s.pendingOn ch = s.decodedOn ch := by
  intro first last
  have begins : first.Batched := batched_start options some full samplerate captureSamples
  obtain ⟨unflushed, reaches, flushed, samples⟩ :=
    first.tdmAudioFastDecode_follows blocks unconsumed
  have before := Reaches.batched reaches begins
  have reaches : Reaches first last := by
    change Reaches first (first.tdmAudioFastDecode blocks unconsumed)
    rw [flushed]
    exact reaches.flushAnalogAll
  have ends := Reaches.batched reaches begins
  have samples : last.audio.samples =
      ((tdmAudioFastStart options).tdmAudioFastDecode (blocks ++ unconsumed.toList)).samples := by
    have audio : last.audio = unflushed.audio :=
      (congrArg audio flushed).trans (flushAnalogAll_audio unflushed)
    rw [audio]
    exact samples
  refine ⟨fun ch => ?_, ?_, reaches, fun s reached ch => ?_⟩
  · have order := ends.order ch
    have empty : last.pendingOn ch = [] := by
      change (first.tdmAudioFastDecode blocks unconsumed).pendingOn ch = []
      rw [flushed]
      exact before.flushAnalogAll ch
    rw [empty, List.append_nil] at order
    rw [order, ← samples]
    rfl
  · have placed := placed_handleBits options stream (tdmAudioFastStart options).initPrevClk.edge
      (tdmAudioFastStart options).initPrevClk.edgePrevClk start (stop - start)
    apply ends.covers placed
    rw [samples]
    exact tdmAudioFastDecode_samples _ cuts
  · have here := Reaches.batched reached begins
    exact ⟨here.room ch, here.batch.2, here.order ch⟩

/-- Batches of one value: the first word is handed over as it comes. -/
theorem delivered_samples_clock :
    ((tdmAnalogStart twoBitI2s 1 1000000 5).tdmAudioFastDecode clockBlocks none).deliveredOn 0 =
        [⟨-1, 1, 3⟩] ∧
      ∀ batch ∈
          ((tdmAnalogStart twoBitI2s 1 1000000 5).tdmAudioFastDecode clockBlocks none).delivered,
        batch.Covers := by
  have cuts : SrdDecoderInst.PackedBlock.Cuts 3 clockStream 0 5
      (clockBlocks ++ (none : Option PackedBlock).toList) := clockBlocks_cut
  have delivered := delivered_samples twoBitI2s (le_refl 1) (by decide) 1000000 5 cuts
  refine ⟨(delivered.1 0).trans ?_, delivered.2.1⟩
  decide +kernel

end SigrokDecode
