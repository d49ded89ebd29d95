import SigrokDecode.Decoders.PackedInput

/-!
# The fast PWM decoder

`pwm_waveform_c` cuts channel A into cycles at its active edges and counts the
active samples of each cycle, in packed words by population counts.
-/

set_option linter.dupNamespace false

namespace SigrokDecode

open Foundation SrdDecoderInst SrdDecoderInst.PackedBlock

/-- What `pwm_output_cycle` makes its duty cycles and times of. -/
structure PwmCycle where
  cycleStart : Nat
  cycleEnd : Nat
  countAActive : Nat
  countBActive : Nat
  countBothInactive : Nat
  countBothActive : Nat
  deriving DecidableEq

/-- The part of `pwm_waveform_state` that finds the cycles. -/
structure PwmWaveformState where
  hasB : Bool
  activeLevelA : Bool
  activeLevelB : Bool
  previousActiveA : Bool
  havePreviousA : Bool
  cycleStarted : Bool
  cycleStart : Nat
  countAActive : Nat
  countBActive : Nat
  countBothInactive : Nat
  countBothActive : Nat
  processedSamples : Nat
  /-- History: the cycles that have been put out. -/
  cycles : List PwmCycle

namespace PwmWaveformState

def pwmOutputCycle (s : PwmWaveformState) (cycleEnd : Nat) : PwmWaveformState :=
  if ¬ s.cycleStarted ∨ cycleEnd ≤ s.cycleStart then
    s
  else
    let cycle :=
      { cycleStart := s.cycleStart
        cycleEnd
        countAActive := s.countAActive
        countBActive := s.countBActive
        countBothInactive := s.countBothInactive
        countBothActive := s.countBothActive }
    { s with cycles := s.cycles ++ [cycle] }

def resetCycleCounts (s : PwmWaveformState) : PwmWaveformState :=
  { s with
    countAActive := 0
    countBActive := 0
    countBothInactive := 0
    countBothActive := 0 }

def activeEdge (s : PwmWaveformState) (sampleAbs : Nat) : PwmWaveformState :=
  let s := if s.cycleStarted then s.pwmOutputCycle sampleAbs else s
  { s with cycleStarted := true, cycleStart := sampleAbs }.resetCycleCounts

/-- The first sample has no edge. -/
def initPrevious (s : PwmWaveformState) (activeA : Bool) : PwmWaveformState :=
  if s.havePreviousA then
    s
  else
    { s with previousActiveA := activeA, havePreviousA := true }

def countSample (s : PwmWaveformState) (activeA activeB : Bool) : PwmWaveformState :=
  if s.cycleStarted then
    { s with
      countAActive := s.countAActive + activeA.toNat
      countBActive := s.countBActive + (s.hasB && activeB).toNat
      countBothInactive :=
        s.countBothInactive + (s.hasB && (!activeA && !activeB)).toNat
      countBothActive := s.countBothActive + (s.hasB && (activeA && activeB)).toNat }
  else
    s

/-- `pwm_process_one` behind the polarities. -/
def processActive (s : PwmWaveformState) (activeA activeB : Bool) (sampleAbs : Nat) :
    PwmWaveformState :=
  let s := s.initPrevious activeA
  let s := if activeA && !s.previousActiveA then s.activeEdge sampleAbs else s
  { s.countSample activeA activeB with previousActiveA := activeA }

def pwmProcessOne (s : PwmWaveformState) (rawA rawB : Bool) (sampleAbs : Nat) : PwmWaveformState :=
  s.processActive (rawA == s.activeLevelA) (s.hasB && rawB == s.activeLevelB) sampleAbs

def pwmAccumulateMaskRange64 (s : PwmWaveformState) (activeA activeB : BitVec 64)
    (first stop : Nat) : PwmWaveformState :=
  if ¬ s.cycleStarted ∨ stop ≤ first then
    s
  else
    let s := { s with countAActive := s.countAActive + countRange activeA first stop }
    if s.hasB then
      { s with
        countBActive := s.countBActive + countRange activeB first stop
        countBothActive :=
          s.countBothActive + countRange (activeA &&& activeB) first stop
        countBothInactive :=
          s.countBothInactive + countRange (~~~(activeA ||| activeB)) first stop }
    else
      s

/-- The body of the loop over the edges in `pwm_process_masks64`. -/
def visitEdge (activeA activeB : BitVec 64) (baseAbs bit : Nat)
    (state : PwmWaveformState × Nat) : PwmWaveformState × Nat :=
  ((state.1.pwmAccumulateMaskRange64 activeA activeB state.2 bit).activeEdge (baseAbs + bit), bit)

/-- `pwm_process_masks64`; the loop carries `segment_begin` along. -/
def pwmProcessMasks64 (s : PwmWaveformState) (activeA activeB : BitVec 64)
    (width baseAbs : Nat) : PwmWaveformState :=
  let valid := lowMask64 width
  let activeA := activeA &&& valid
  let activeB := activeB &&& valid
  let prevActive :=
    if s.havePreviousA then s.previousActiveA else activeA.getLsbD 0
  let s := s.initPrevious (activeA.getLsbD 0)
  let last :=
    forEachBit (visitEdge activeA activeB baseAbs) (risingBits activeA prevActive &&& valid) (s, 0)
  let s := last.1.pwmAccumulateMaskRange64 activeA activeB last.2 width
  { s with previousActiveA := (activeA >>> (width - 1)).getLsbD 0 }

structure PwmBlock where
  dataA : PackedChannel
  dataB : PackedChannel
  baseAbs : Nat
  bitOffset : Nat

/-- The body of the head loop of `pwm_process_packed`. -/
def headSample (block : PwmBlock) (i : Nat) (s : PwmWaveformState) : PwmWaveformState :=
  let bi := block.bitOffset + i
  s.pwmProcessOne (block.dataA.packedBit bi) (s.hasB && block.dataB.packedBit bi)
    (block.baseAbs + i)

/-- The active samples of a word; for a whole word `valid` changes nothing. -/
def activeMask (activeLevel : Bool) (raw : BitVec 64) (width : Nat) : BitVec 64 :=
  if activeLevel then raw else ~~~raw &&& lowMask64 width

/-- The body of its word loop, and the partial word. -/
def wordAt (block : PwmBlock) (pos width : Nat) (s : PwmWaveformState) : PwmWaveformState :=
  let packedBit := block.bitOffset + pos
  let rawA := block.dataA.loadPackedWord packedBit width
  let rawB := if s.hasB then block.dataB.loadPackedWord packedBit width else 0#64
  let activeA := activeMask s.activeLevelA rawA width
  let activeB := if s.hasB then activeMask s.activeLevelB rawB width else 0#64
  s.pwmProcessMasks64 activeA activeB width (block.baseAbs + pos)

def pwmProcessPacked (s : PwmWaveformState) (block : PwmBlock) (count : Nat) : PwmWaveformState :=
  processPackedBlock (headSample block) (wordAt block) block.bitOffset count s

/-- One round of the loop of `pwm_waveform_decode`. -/
def decodeBlock (s : PwmWaveformState) (block : PackedBlock) : PwmWaveformState :=
  let fetched :=
    { dataA := block.channel 0
      dataB := if s.hasB then block.channel 1 else { buffer := none, constValue := 0 }
      baseAbs := block.startSample
      bitOffset := block.bitOffset }
  let s := s.pwmProcessPacked fetched block.count
  { s with processedSamples := s.processedSamples + block.count }

/-- `pwm_waveform_decode` on the blocks it fetches. -/
def pwmWaveformDecode (s : PwmWaveformState) (blocks : List PackedBlock) : PwmWaveformState :=
  blocks.foldl decodeBlock s

/-- The state with another carried level and sample position; the functions on
cycles look at neither. -/
def carry (s : PwmWaveformState) (previous : Bool) (processed : Nat) : PwmWaveformState :=
  { s with previousActiveA := previous, processedSamples := processed }

section Carry

variable (s : PwmWaveformState) (previous : Bool) (processed : Nat)

theorem pwmOutputCycle_carry (cycleEnd : Nat) :
    (s.carry previous processed).pwmOutputCycle cycleEnd =
      (s.pwmOutputCycle cycleEnd).carry previous processed := by
  simp only [pwmOutputCycle, apply_ite (fun s => carry s previous processed)]
  rfl

theorem activeEdge_carry (sampleAbs : Nat) : (s.carry previous processed).activeEdge sampleAbs =
      (s.activeEdge sampleAbs).carry previous processed := by
  have started : (s.carry previous processed).cycleStarted = s.cycleStarted := rfl
  simp only [activeEdge, started, pwmOutputCycle_carry]
  split
  · rfl
  · rfl

theorem countSample_carry (activeA activeB : Bool) :
    (s.carry previous processed).countSample activeA activeB =
      (s.countSample activeA activeB).carry previous processed := by
  simp only [countSample, apply_ite (fun s => carry s previous processed)]
  rfl

def setPrevious : PwmWaveformState :=
  s.carry previous s.processedSamples

theorem activeEdge_setPrevious (sampleAbs : Nat) : (s.setPrevious previous).activeEdge sampleAbs =
      (s.activeEdge sampleAbs).setPrevious previous := by
  have kept := activeEdge_carry s s.previousActiveA s.processedSamples sampleAbs
  have position := congrArg (fun s => s.processedSamples) kept
  rw [setPrevious, activeEdge_carry]
  exact congrArg ((s.activeEdge sampleAbs).carry previous) position.symm

theorem countSample_setPrevious (activeA activeB : Bool) :
    (s.setPrevious previous).countSample activeA activeB =
      (s.countSample activeA activeB).setPrevious previous := by
  have kept := countSample_carry s s.previousActiveA s.processedSamples activeA activeB
  have position := congrArg (fun s => s.processedSamples) kept
  rw [setPrevious, countSample_carry]
  exact congrArg ((s.countSample activeA activeB).carry previous) position.symm

end Carry

theorem initPrevious_of_have {s : PwmWaveformState} (known : s.havePreviousA = true)
    (activeA : Bool) : s.initPrevious activeA = s :=
  if_pos known

variable (s : PwmWaveformState)

theorem initPrevious_have (activeA : Bool) : (s.initPrevious activeA).havePreviousA = true := by
  simp only [initPrevious]
  split
  · assumption
  · rfl

theorem processActive_initPrevious (activeA activeB : Bool) (sampleAbs : Nat) :
    (s.initPrevious activeA).processActive activeA activeB sampleAbs =
      s.processActive activeA activeB sampleAbs := by
  simp only [processActive]
  rw [initPrevious_of_have (initPrevious_have s activeA)]

theorem pwmAccumulateMaskRange64_self (activeA activeB : BitVec 64) (stop : Nat) :
    s.pwmAccumulateMaskRange64 activeA activeB stop stop = s :=
  if_pos (Or.inr (Nat.le_refl stop))

theorem pwmAccumulateMaskRange64_started
    (activeA activeB : BitVec 64) {first stop : Nat} (started : s.cycleStarted = true)
    (le : first ≤ stop) (fits : stop ≤ 64) :
    s.pwmAccumulateMaskRange64 activeA activeB first stop =
      { s with
        countAActive := s.countAActive + countRange activeA first stop
        countBActive := s.countBActive + if s.hasB then countRange activeB first stop else 0
        countBothInactive := s.countBothInactive +
          if s.hasB then countRange (~~~(activeA ||| activeB)) first stop else 0
        countBothActive := s.countBothActive +
          if s.hasB then countRange (activeA &&& activeB) first stop else 0 } := by
  rcases Nat.lt_or_eq_of_le le with less | rfl
  · rw [pwmAccumulateMaskRange64, if_neg (by simp [started, less])]
    by_cases hasB : s.hasB = true
    · simp only [hasB, if_true]
    · simp only [hasB, Bool.false_eq_true, if_false, Nat.add_zero]
  · rw [pwmAccumulateMaskRange64_self]
    simp [countRange_self _ fits]

theorem pwmAccumulateMaskRange64_succ
    (activeA activeB : BitVec 64) {first stop : Nat} (le : first ≤ stop)
    (fits : stop < 64) :
    s.pwmAccumulateMaskRange64 activeA activeB first (stop + 1) =
      (s.pwmAccumulateMaskRange64 activeA activeB first stop).countSample
        (activeA.getLsbD stop) (activeB.getLsbD stop) := by
  by_cases started : s.cycleStarted = true
  · rw [pwmAccumulateMaskRange64_started s _ _ started (Nat.le_succ_of_le le)
        (Nat.succ_le_of_lt fits),
      pwmAccumulateMaskRange64_started s _ _ started le (Nat.le_of_lt fits)]
    have both : (activeA &&& activeB).getLsbD stop =
        (activeA.getLsbD stop && activeB.getLsbD stop) := BitVec.getLsbD_and
    have neither : (~~~(activeA ||| activeB)).getLsbD stop =
        (!activeA.getLsbD stop && !activeB.getLsbD stop) := by
      simp [fits]
    simp only [countSample, started, if_true, countRange_succ _ le fits, both, neither]
    cases s.hasB with
    | true => simp [Nat.add_assoc]
    | false => simp [Nat.add_assoc]
  · have idle : s.cycleStarted = false := by simpa using started
    simp [pwmAccumulateMaskRange64, countSample, idle]

/-- The state of the sample loop behind `count` samples: the samples from the
beginning of the segment on are counted, and the level is carried along. -/
def closeSegment (activeA activeB : BitVec 64) (previous : Bool) (count : Nat)
    (state : PwmWaveformState × Nat) : PwmWaveformState :=
  (state.1.pwmAccumulateMaskRange64 activeA activeB state.2 count).setPrevious
    (bitBefore activeA.getLsbD previous count)

variable (s : PwmWaveformState)

theorem pwmAccumulateMaskRange64_have (activeA activeB : BitVec 64) (first stop : Nat) :
    (s.pwmAccumulateMaskRange64 activeA activeB first stop).havePreviousA =
      s.havePreviousA := by
  simp only [pwmAccumulateMaskRange64]
  split
  · rfl
  · split
    · rfl
    · rfl

theorem activeEdge_have (sampleAbs : Nat) :
    (s.activeEdge sampleAbs).havePreviousA = s.havePreviousA := by
  simp only [activeEdge, pwmOutputCycle, resetCycleCounts]
  split
  · split
    · rfl
    · rfl
  · rfl

theorem sampleLoop_eq_closeSegment (activeA activeB : BitVec 64)
    (baseAbs : Nat) {count : Nat} (fits : count ≤ 64)
    (known : s.havePreviousA = true) :
    let last :=
      visitMarked (visitEdge activeA activeB baseAbs)
        (fun i => activeA.getLsbD i && !bitBefore activeA.getLsbD s.previousActiveA i)
        count (s, 0)
    last.2 ≤ count ∧ last.1.havePreviousA = true ∧ sampleLoop (fun i s =>
            s.processActive (activeA.getLsbD i) (activeB.getLsbD i) (baseAbs + i))
          0 count s =
        closeSegment activeA activeB s.previousActiveA count last := by
  induction count with
  | zero =>
      refine ⟨Nat.le_refl 0, known, ?_⟩
      simp only [visitMarked, closeSegment, pwmAccumulateMaskRange64_self]
      rfl
  | succ count ih =>
      obtain ⟨le, last, loop⟩ := ih (Nat.le_of_succ_le fits)
      simp only [sampleLoop, visitMarked]
      rw [loop]
      generalize visitMarked (visitEdge activeA activeB baseAbs) _ count (s, 0) = state at *
      obtain ⟨before, first⟩ := state
      simp only at le last
      have counted : (closeSegment activeA activeB s.previousActiveA count
          (before, first)).havePreviousA = true :=
        (pwmAccumulateMaskRange64_have before activeA activeB first count).trans last
      have level : (closeSegment activeA activeB s.previousActiveA count
          (before, first)).previousActiveA =
            bitBefore activeA.getLsbD s.previousActiveA count := rfl
      simp only [Nat.zero_add, processActive, initPrevious_of_have counted, level]
      by_cases edge : (activeA.getLsbD count &&
          !bitBefore activeA.getLsbD s.previousActiveA count) = true
      · simp only [if_pos edge]
        refine ⟨Nat.le_succ count, ?_, ?_⟩
        · rw [visitEdge, activeEdge_have, pwmAccumulateMaskRange64_have]
          exact last
        · simp only [closeSegment, visitEdge, activeEdge_setPrevious, countSample_setPrevious]
          rw [pwmAccumulateMaskRange64_succ _ _ _ (Nat.le_refl count) fits,
            pwmAccumulateMaskRange64_self]
          rfl
      · simp only [if_neg edge]
        refine ⟨Nat.le_succ_of_le le, last, ?_⟩
        simp only [closeSegment, countSample_setPrevious]
        rw [pwmAccumulateMaskRange64_succ _ _ _ le fits]
        rfl

theorem sampleLoop_initPrevious (activeA activeB : Nat → Bool)
    (baseAbs : Nat) {count : Nat} (some : 0 < count) :
    sampleLoop (fun i s => s.processActive (activeA i) (activeB i) (baseAbs + i)) 0
        count (s.initPrevious (activeA 0)) =
      sampleLoop (fun i s => s.processActive (activeA i) (activeB i) (baseAbs + i)) 0
        count s := by
  obtain ⟨rest, rfl⟩ : ∃ rest, count = 1 + rest := ⟨count - 1, by omega⟩
  rw [sampleLoop_add, sampleLoop_add]
  refine congrArg _ ?_
  exact processActive_initPrevious s (activeA 0) (activeB 0) baseAbs

theorem pwmProcessMasks64_eq (activeA activeB : BitVec 64)
    {width : Nat} (baseAbs : Nat) (some : 0 < width) (fits : width ≤ 64) :
    s.pwmProcessMasks64 activeA activeB width baseAbs = sampleLoop (fun i s =>
          s.processActive (activeA.getLsbD i) (activeB.getLsbD i) (baseAbs + i))
        0 width s := by
  have masked : ∀ (active : BitVec 64) i, i < width →
      (active &&& lowMask64 width).getLsbD i = active.getLsbD i := by
    intro active i inside
    have low : i < 64 := by omega
    simp [getLsbD_lowMask64, low, inside]
  have sameA := masked activeA
  have sameB := masked activeB
  simp only [pwmProcessMasks64]
  generalize activeA &&& lowMask64 width = maskedA at *
  generalize activeB &&& lowMask64 width = maskedB at *
  have level : (if s.havePreviousA then s.previousActiveA else maskedA.getLsbD 0) =
        (s.initPrevious (maskedA.getLsbD 0)).previousActiveA := by
    simp only [initPrevious]
    split
    · rfl
    · rfl
  obtain ⟨_, _, loop⟩ := sampleLoop_eq_closeSegment
    (s.initPrevious (maskedA.getLsbD 0)) maskedA maskedB baseAbs fits
    (initPrevious_have s _)
  rw [sampleLoop_initPrevious s maskedA.getLsbD maskedB.getLsbD baseAbs some] at loop
  rw [level]
  generalize s.initPrevious (maskedA.getLsbD 0) = known at *
  have edges : ∀ i, i < width →
      (risingBits maskedA known.previousActiveA &&& lowMask64 width).getLsbD i =
        (maskedA.getLsbD i && !bitBefore maskedA.getLsbD known.previousActiveA i) := by
    intro i inside
    have low : i < 64 := by omega
    rw [BitVec.getLsbD_and, getLsbD_risingBits low, getLsbD_lowMask64]
    simp [low, inside]
  have beyond : ∀ i, width ≤ i →
      (risingBits maskedA known.previousActiveA &&& lowMask64 width).getLsbD i =
        false := by
    intro i above
    rw [BitVec.getLsbD_and, getLsbD_lowMask64]
    simp [Nat.not_lt.mpr above]
  rw [forEachBit_eq, visitMarked_width fits beyond, visitMarked_congr edges]
  calc _ = closeSegment maskedA maskedB known.previousActiveA width _ := by
        obtain ⟨last, rfl⟩ : ∃ last, width = last + 1 := ⟨width - 1, by omega⟩
        simp [closeSegment, setPrevious, carry, bitBefore]
    _ = _ := loop.symm
    _ = _ := by
        apply sampleLoop_congr
        intro i state inside
        rw [Nat.zero_add, sameA i inside, sameB i inside]

def options (s : PwmWaveformState) : Bool × Bool × Bool :=
  (s.hasB, s.activeLevelA, s.activeLevelB)

theorem activeEdge_options (s : PwmWaveformState) (sampleAbs : Nat) :
    (s.activeEdge sampleAbs).options = s.options := by
  simp only [activeEdge, pwmOutputCycle, resetCycleCounts]
  split
  · split
    · rfl
    · rfl
  · rfl

theorem processActive_options (s : PwmWaveformState) (activeA activeB : Bool) (sampleAbs : Nat) :
    (s.processActive activeA activeB sampleAbs).options = s.options := by
  have counted : ∀ s : PwmWaveformState,
      (s.countSample activeA activeB).options = s.options := by
    intro s
    simp only [countSample]
    split
    · rfl
    · rfl
  have begun : (s.initPrevious activeA).options = s.options := by
    simp only [initPrevious]
    split
    · rfl
    · rfl
  simp only [processActive]
  refine (counted _).trans ?_
  split
  · rw [activeEdge_options]
    exact begun
  · exact begun

theorem processActive_carry (s : PwmWaveformState) (activeA activeB : Bool)
    (sampleAbs processed : Nat) :
    (s.carry s.previousActiveA processed).processActive activeA activeB sampleAbs =
      (s.processActive activeA activeB sampleAbs).carry activeA processed := by
  have begun : (s.carry s.previousActiveA processed).initPrevious activeA =
        (s.initPrevious activeA).carry (s.initPrevious activeA).previousActiveA
          processed := by
    cases known : s.havePreviousA with
    | true => simp [initPrevious, carry, known]
    | false => simp [initPrevious, carry, known]
  simp only [processActive, begun]
  have level : ((s.initPrevious activeA).carry (s.initPrevious activeA).previousActiveA
        processed).previousActiveA = (s.initPrevious activeA).previousActiveA := rfl
  rw [level]
  split
  · rw [activeEdge_carry, countSample_carry]
    rfl
  · rw [countSample_carry]
    rfl

theorem processActive_processedSamples (s : PwmWaveformState)
    (activeA activeB : Bool) (sampleAbs : Nat) :
    (s.processActive activeA activeB sampleAbs).processedSamples =
      s.processedSamples := by
  have same := processActive_carry s activeA activeB sampleAbs s.processedSamples
  exact congrArg (fun s => s.processedSamples) same

theorem getLsbD_activeMask (activeLevel : Bool) (raw : BitVec 64) {width i : Nat}
    (inside : i < width) (fits : width ≤ 64) :
    (activeMask activeLevel raw width).getLsbD i = (raw.getLsbD i == activeLevel) := by
  have low : i < 64 := by omega
  cases activeLevel with
  | true => simp [activeMask]
  | false => simp [activeMask, getLsbD_lowMask64, low, inside]

theorem wordAt_isLoop (block : PwmBlock) (count : Nat) :
    WordIsLoop (headSample block) (wordAt block) block.bitOffset count := by
  intro pos width s aligned some fits _
  simp only [wordAt]
  rw [pwmProcessMasks64_eq _ _ _ _ some fits]
  refine @sampleLoop_congr_of _ _ _ _ _ _ _ (fun t => t.options = s.options) rfl ?_ ?_
  · intro i t same
    rw [processActive_options]
    exact same
  · intro i t inside same
    simp only [options, Prod.mk.injEq] at same
    obtain ⟨hasB, levelA, levelB⟩ := same
    have rawA := block.dataA.getLsbD_loadPackedWord (i := i) aligned fits
    have rawB := block.dataB.getLsbD_loadPackedWord (i := i) aligned fits
    simp only [inside, decide_true, Bool.true_and, Nat.add_assoc] at rawA rawB
    simp only [headSample, pwmProcessOne, hasB, levelA, levelB, Nat.zero_add,
      getLsbD_activeMask _ _ inside fits, rawA, Nat.add_assoc]
    cases present : s.hasB with
    | true => simp [getLsbD_activeMask _ _ inside fits, rawB]
    | false => simp

def plainSample (stream : SampleStream) (samplenum : Nat) (s : PwmWaveformState) :
    PwmWaveformState :=
  let s :=
    s.pwmProcessOne (stream 0 samplenum) (s.hasB && stream 1 samplenum) samplenum
  { s with processedSamples := s.processedSamples + 1 }

/-- `pwm_process_one` on the samples from `start` to `stop`, one by one. -/
def plainDecode (s : PwmWaveformState) (stream : SampleStream) (start stop : Nat) :
    PwmWaveformState :=
  sampleLoop (plainSample stream) start (stop - start) s

theorem plainSample_loop (stream : SampleStream) (block : PwmBlock)
    (s : PwmWaveformState) (count : Nat)
    (levelA : ∀ i, i < count →
      block.dataA.packedBit (block.bitOffset + i) = stream 0 (block.baseAbs + i))
    (levelB : s.hasB = true → ∀ i, i < count →
      block.dataB.packedBit (block.bitOffset + i) = stream 1 (block.baseAbs + i)) :
    let last := sampleLoop (headSample block) 0 count s
    sampleLoop (plainSample stream) block.baseAbs count s =
        last.carry last.previousActiveA (s.processedSamples + count) ∧
      last.hasB = s.hasB ∧ last.processedSamples = s.processedSamples := by
  induction count with
  | zero => exact ⟨rfl, rfl, rfl⟩
  | succ count ih =>
      obtain ⟨loop, hasB, processed⟩ :=
        ih (fun i below => levelA i (Nat.lt_succ_of_lt below))
          (fun present i below => levelB present i (Nat.lt_succ_of_lt below))
      have here := Nat.lt_succ_self count
      simp only [sampleLoop]
      rw [loop]
      generalize sampleLoop (headSample block) 0 count s = before at *
      have rawB : (before.hasB && block.dataB.packedBit (block.bitOffset + count)) =
            (before.hasB && stream 1 (block.baseAbs + count)) := by
        cases present : before.hasB with
        | true => rw [levelB (hasB ▸ present) count here]
        | false => rfl
      have sample : headSample block (0 + count) before =
            before.pwmProcessOne (stream 0 (block.baseAbs + count))
              (before.hasB && stream 1 (block.baseAbs + count))
              (block.baseAbs + count) := by
        simp only [headSample, Nat.zero_add]
        rw [levelA count here, rawB]
      rw [sample]
      refine ⟨?_, ?_, ?_⟩
      · have carried := processActive_carry before
          (stream 0 (block.baseAbs + count) == before.activeLevelA)
          (before.hasB && (before.hasB && stream 1 (block.baseAbs + count)) == before.activeLevelB)
          (block.baseAbs + count) (s.processedSamples + count)
        have sampled := congrArg
          (fun s => { s with processedSamples := s.processedSamples + 1 }) carried
        exact sampled
      · have kept := processActive_options before
          (stream 0 (block.baseAbs + count) == before.activeLevelA)
          (before.hasB && (before.hasB && stream 1 (block.baseAbs + count)) == before.activeLevelB)
          (block.baseAbs + count)
        exact (congrArg Prod.fst kept).trans hasB
      · rw [pwmProcessOne, processActive_processedSamples]
        exact processed

def fetchedChannels (s : PwmWaveformState) : Nat :=
  if s.hasB then 2 else 1

theorem decodeBlock_eq (s : PwmWaveformState) {stream : SampleStream}
    {block : PackedBlock} (shows : block.Shows s.fetchedChannels stream) :
    s.decodeBlock block = sampleLoop (plainSample stream) block.startSample block.count s ∧
      (s.decodeBlock block).hasB = s.hasB := by
  have one : 0 < s.fetchedChannels := by
    simp only [fetchedChannels]
    split
    · omega
    · omega
  obtain ⟨loop, hasB, processed⟩ := plainSample_loop stream
    { dataA := block.channel 0
      dataB := if s.hasB then block.channel 1 else { buffer := none, constValue := 0 }
      baseAbs := block.startSample
      bitOffset := block.bitOffset } s block.count
    (shows.levels 0 one)
    (by
      intro present i below
      simp only [present, if_true]
      exact shows.levels 1 (by simp [fetchedChannels, present]) i below)
  simp only [decodeBlock, pwmProcessPacked]
  rw [processPackedBlock_eq shows.bitOffset (wordAt_isLoop _ _)]
  simp only at loop hasB processed
  rw [loop, processed]
  exact ⟨rfl, hasB⟩

theorem pwmWaveformDecode_eq_plainDecode {stream : SampleStream} {start stop : Nat}
    {blocks : List PackedBlock} (s : PwmWaveformState)
    (cuts : Cuts s.fetchedChannels stream start stop blocks) :
    s.pwmWaveformDecode blocks = s.plainDecode stream start stop := by
  simp only [pwmWaveformDecode, plainDecode]
  induction blocks generalizing start s with
  | nil =>
      obtain rfl : start = stop := cuts
      rw [Nat.sub_self]
      rfl
  | cons block blocks ih =>
      obtain ⟨begins, shows, rest⟩ := cuts
      obtain ⟨loop, hasB⟩ := decodeBlock_eq s shows
      have later := rest.le
      have length : stop - start = block.count + (stop - (start + block.count)) := by omega
      have channels : (s.decodeBlock block).fetchedChannels = s.fetchedChannels := by
        simp only [fetchedChannels, hasB]
      rw [List.foldl_cons, ih _ (channels.symm ▸ rest), loop, begins, length, sampleLoop_add]

end PwmWaveformState

end SigrokDecode
