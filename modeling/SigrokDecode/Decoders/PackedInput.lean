import SigrokDecode.Foundation.WordBits
import SigrokDecode.Instance.Pins

/-!
# Packed input of the fast decoders

The fast decoders borrow a block of packed samples, take single samples up to
the next byte boundary, then words of 64 samples, and the rest as one partial
word.  They differ in what they do with a sample and with a word.
-/

namespace SigrokDecode

open Foundation SrdDecoderInst

/-- A channel of a fetched block: a pointer to packed samples, or `NULL` and a
constant. -/
structure PackedChannel where
  buffer : Option (List UInt8)
  constValue : UInt8

namespace PackedChannel

/-- `tdm_packed_bit` and `pwm_packed_bit`. -/
def packedBit (channel : PackedChannel) (bitIndex : Nat) : Bool :=
  match channel.buffer with
  | none => channel.constValue ≠ 0
  | some buffer =>
      (buffer.getD (bitIndex / 8) 0 >>> UInt8.ofNat (bitIndex % 8)) &&& 1 ≠ 0

/-- `tdm_load_packed_word` and `pwm_load_packed_word`. -/
def loadPackedWord (channel : PackedChannel) (bitIndex width : Nat) : BitVec 64 :=
  match channel.buffer with
  | none => if channel.constValue ≠ 0 then lowMask64 width else 0#64
  | some buffer =>
      let bytes := (buffer.drop (bitIndex / 8)).take ((width + 7) / 8)
      BitVec.ofNat 64 (leWord bytes) &&& lowMask64 width

theorem packedBit_some (buffer : List UInt8) (constValue : UInt8) (bitIndex : Nat) :
    packedBit ⟨some buffer, constValue⟩ bitIndex =
      Foundation.packedBit buffer bitIndex := by
  simp only [packedBit, Foundation.packedBit]
  rw [byte_shift_and_one _ (Nat.mod_lt _ (by decide))]
  simp

/-- From a byte boundary on a word holds the same samples as single reads. -/
theorem getLsbD_loadPackedWord (channel : PackedChannel) {bitIndex width i : Nat}
    (aligned : bitIndex % 8 = 0) (fits : width ≤ 64) :
    (channel.loadPackedWord bitIndex width).getLsbD i =
      (decide (i < width) && channel.packedBit (bitIndex + i)) := by
  obtain ⟨buffer, constValue⟩ := channel
  by_cases inside : i < width
  · have low : i < 64 := by omega
    cases buffer with
    | none =>
        simp only [loadPackedWord, packedBit]
        by_cases set : constValue ≠ 0
        · simp [set, getLsbD_lowMask64, low, inside]
        · simp [set]
    | some buffer =>
        rw [packedBit_some]
        simp only [loadPackedWord]
        rw [BitVec.getLsbD_and, BitVec.getLsbD_ofNat, testBit_leWord,
          packedBit_take _ (by omega), packedBit_drop, getLsbD_lowMask64]
        have whole : 8 * (bitIndex / 8) = bitIndex := by omega
        simp [low, inside, whole]
  · cases buffer with
    | none =>
        simp only [loadPackedWord]
        split
        · simp [getLsbD_lowMask64, inside]
        · simp [inside]
    | some buffer =>
        simp [loadPackedWord, getLsbD_lowMask64, inside]

end PackedChannel

namespace SrdDecoderInst.PackedBlock

def channel (block : PackedBlock) (i : Nat) : PackedChannel :=
  { buffer := block.buffers.getD i none
    constValue := block.constValues.getD i 0 }

/-- The block shows the first `channels` channels of the stream. -/
structure Shows (block : PackedBlock) (channels : Nat) (stream : SampleStream) : Prop where
  bitOffset : block.bitOffset < 8
  levels : ∀ ch, ch < channels → ∀ i, i < block.count →
    (block.channel ch).packedBit (block.bitOffset + i) = stream ch (block.startSample + i)

/-- The blocks cut the samples from `start` to `stop` of the stream. -/
def Cuts (channels : Nat) (stream : SampleStream) : Nat → Nat → List PackedBlock → Prop
  | start, stop, [] => start = stop
  | start, stop, block :: blocks =>
      block.startSample = start ∧ block.Shows channels stream ∧
        Cuts channels stream (start + block.count) stop blocks

theorem Cuts.le {channels : Nat} {stream : SampleStream} {start stop : Nat}
    {blocks : List PackedBlock} (cuts : Cuts channels stream start stop blocks) :
    start ≤ stop := by
  induction blocks generalizing start with
  | nil => exact Nat.le_of_eq cuts
  | cons block blocks ih =>
      obtain ⟨_, _, rest⟩ := cuts
      have later := ih rest
      omega

end SrdDecoderInst.PackedBlock

section Driver

variable {State : Type}

/-- The loop over whole words from `pos` on, and the partial word behind it. -/
def packedWords (word : Nat → Nat → State → State) (count pos : Nat) (state : State) : State :=
  if count - pos ≥ 64 then
    packedWords word count (pos + 64) (word pos 64 state)
  else if pos < count then
    word pos (count - pos) state
  else
    state
termination_by count - pos

/-- The number of samples in front of the first byte boundary. -/
def packedHead (bitOffset count : Nat) : Nat :=
  if bitOffset ≠ 0 ∧ count ≠ 0 then min (8 - bitOffset) count else 0

/-- `process_packed` and `pwm_process_packed`. -/
def processPackedBlock (one : Nat → State → State)
    (word : Nat → Nat → State → State) (bitOffset count : Nat) (state : State) :
    State :=
  let head := packedHead bitOffset count
  packedWords word count head (sampleLoop one 0 head state)

def WordIsLoop (one : Nat → State → State) (word : Nat → Nat → State → State)
    (bitOffset count : Nat) : Prop :=
  ∀ pos width state, (bitOffset + pos) % 8 = 0 → 0 < width → width ≤ 64 →
    pos + width ≤ count → word pos width state = sampleLoop one pos width state

variable {one : Nat → State → State} {word : Nat → Nat → State → State}

variable {state : State}

theorem packedWords_eq
    {bitOffset count pos : Nat}
    (exact : WordIsLoop one word bitOffset count)
    (aligned : pos < count → (bitOffset + pos) % 8 = 0) :
    packedWords word count pos state = sampleLoop one pos (count - pos) state := by
  induction pos, state using packedWords.induct word count with
  | case1 pos state whole ih =>
      have start := aligned (by omega)
      have split : count - pos = 64 + (count - (pos + 64)) := by omega
      rw [packedWords, if_pos whole, ih (fun _ => by omega),
        exact pos 64 state start (by omega) (Nat.le_refl 64) (by omega), split,
        sampleLoop_add]
  | case2 pos state notWhole rest =>
      rw [packedWords, if_neg notWhole, if_pos rest]
      exact exact pos (count - pos) state (aligned rest) (by omega) (by omega) (by omega)
  | case3 pos state notWhole done =>
      have none : count - pos = 0 := by omega
      rw [packedWords, if_neg notWhole, if_neg done, none]
      rfl

theorem processPackedBlock_eq
    {bitOffset count : Nat}
    (small : bitOffset < 8) (exact : WordIsLoop one word bitOffset count) :
    processPackedBlock one word bitOffset count state =
      sampleLoop one 0 count state := by
  have head : packedHead bitOffset count ≤ count := by
    simp only [packedHead]
    split
    · exact Nat.min_le_right _ _
    · exact Nat.zero_le _
  have aligned : packedHead bitOffset count < count →
      (bitOffset + packedHead bitOffset count) % 8 = 0 := by
    simp only [packedHead]
    split
    · omega
    · omega
  have whole : count = packedHead bitOffset count + (count - packedHead bitOffset count) := by omega
  simp only [processPackedBlock]
  rw [packedWords_eq exact aligned]
  conv_rhs => rw [whole, sampleLoop_add, Nat.zero_add]

theorem processPackedBlock_related {Other : Type} {related : State → Other → Prop}
    {otherOne : Nat → Other → Other}
    {otherWord : Nat → Nat → Other → Other}
    (oneKeeps : ∀ i state other, related state other → related (one i state) (otherOne i other))
    (wordKeeps : ∀ pos width state other, related state other →
      related (word pos width state) (otherWord pos width other))
    (bitOffset count : Nat) {other : Other} (start : related state other) :
    related (processPackedBlock one word bitOffset count state)
      (processPackedBlock otherOne otherWord bitOffset count other) := by
  have head := sampleLoop_related oneKeeps 0 (packedHead bitOffset count) start
  unfold processPackedBlock
  dsimp only
  generalize sampleLoop one 0 (packedHead bitOffset count) state = state at *
  generalize sampleLoop otherOne 0 (packedHead bitOffset count) other = other at *
  generalize packedHead bitOffset count = pos
  induction pos, state using packedWords.induct word count generalizing other with
  | case1 pos state whole ih =>
      rw [packedWords, if_pos whole]
      conv => arg 2; rw [packedWords, if_pos whole]
      exact ih _ (wordKeeps _ _ _ _ head)
  | case2 pos state notWhole rest =>
      rw [packedWords, if_neg notWhole, if_pos rest, packedWords, if_neg notWhole, if_pos rest]
      exact wordKeeps _ _ _ _ head
  | case3 pos state notWhole done =>
      rw [packedWords, if_neg notWhole, if_neg done, packedWords, if_neg notWhole, if_neg done]
      exact head

end Driver

end SigrokDecode
