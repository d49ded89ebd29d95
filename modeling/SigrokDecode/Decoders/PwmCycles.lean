import SigrokDecode.Foundation.EdgeIntervals
import SigrokDecode.Decoders.PwmWaveform

/-!
# The cycles of a PWM capture

What the cycles of `pwm_waveform_c` stand for: the intervals between consecutive
active edges of channel A, with the active samples in each of them.
-/

set_option linter.dupNamespace false

namespace SigrokDecode

open Foundation SrdDecoderInst SrdDecoderInst.PackedBlock

namespace PwmWaveformState

/-- The state that `pwm_waveform_reset` and the options of `pwm_waveform_start`
leave. -/
def pwmWaveformStart (hasB activeLevelA activeLevelB : Bool) : PwmWaveformState :=
  { hasB
    activeLevelA
    activeLevelB
    previousActiveA := false
    havePreviousA := false
    cycleStarted := false
    cycleStart := 0
    countAActive := 0
    countBActive := 0
    countBothInactive := 0
    countBothActive := 0
    processedSamples := 0
    cycles := [] }

section Stream

variable (s : PwmWaveformState) (stream : SampleStream)

def activeA (n : Nat) : Bool :=
  stream 0 n == s.activeLevelA

def activeB (n : Nat) : Bool :=
  stream 1 n == s.activeLevelB

def bothIn (property : Bool → Bool → Bool) (first stop : Nat) : Nat :=
  if s.hasB then
    pointsIn (fun n => property (s.activeA stream n) (s.activeB stream n)) first stop
  else
    0

/-- The interval from an active edge up to the next one. -/
def cycleBetween (first stop : Nat) : PwmCycle :=
  { cycleStart := first
    cycleEnd := stop
    countAActive := pointsIn (s.activeA stream) first stop
    countBActive := s.bothIn stream (fun _ b => b) first stop
    countBothInactive := s.bothIn stream (fun a b => !a && !b) first stop
    countBothActive := s.bothIn stream (fun a b => a && b) first stop }

def activeEdges (start count : Nat) : List Nat :=
  risingEdges (s.activeA stream) start count

def captureCycles (start count : Nat) : List PwmCycle :=
  (consecutive (s.activeEdges stream start count)).map fun interval =>
    s.cycleBetween stream interval.1 interval.2

theorem bothIn_self (property : Bool → Bool → Bool) (first : Nat) :
    s.bothIn stream property first first = 0 := by
  simp [bothIn, pointsIn_self]

theorem bothIn_succ (property : Bool → Bool → Bool) {first stop : Nat} (le : first ≤ stop) :
    s.bothIn stream property first (stop + 1) = s.bothIn stream property first stop +
        (s.hasB && property (s.activeA stream stop) (s.activeB stream stop)).toNat := by
  simp only [bothIn]
  cases s.hasB with
  | true => simp [pointsIn_succ _ le]
  | false => simp

end Stream

/-- The cycle as `pwm_output_cycle` would put it out. -/
def openCycle (s : PwmWaveformState) (cycleEnd : Nat) : PwmCycle :=
  { cycleStart := s.cycleStart
    cycleEnd
    countAActive := s.countAActive
    countBActive := s.countBActive
    countBothInactive := s.countBothInactive
    countBothActive := s.countBothActive }

variable {s : PwmWaveformState}

theorem activeEdge_idle (idle : s.cycleStarted = false)
    (sampleAbs : Nat) : (s.activeEdge sampleAbs).cycles = s.cycles := by
  simp [activeEdge, resetCycleCounts, idle]

theorem activeEdge_started {sampleAbs : Nat}
    (started : s.cycleStarted = true) (later : s.cycleStart < sampleAbs) :
    (s.activeEdge sampleAbs).cycles = s.cycles ++ [s.openCycle sampleAbs] := by
  have inside : ¬ sampleAbs ≤ s.cycleStart := Nat.not_le.mpr later
  simp [activeEdge, resetCycleCounts, pwmOutputCycle, openCycle, started, inside]

theorem activeEdge_openCycle (s known : PwmWaveformState) (stream : SampleStream)
    (sampleAbs : Nat) :
    (s.activeEdge sampleAbs).openCycle sampleAbs =
      known.cycleBetween stream sampleAbs sampleAbs := by
  simp [activeEdge, resetCycleCounts, openCycle, cycleBetween, pointsIn_self, bothIn_self]

theorem countSample_openCycle {known : PwmWaveformState} {stream : SampleStream}
    {first stop : Nat} (started : s.cycleStarted = true) (le : first ≤ stop)
    (hasB : s.hasB = known.hasB)
    (counted : s.openCycle stop = known.cycleBetween stream first stop) :
    (s.countSample (known.activeA stream stop)
        (known.hasB && known.activeB stream stop)).openCycle (stop + 1) =
      known.cycleBetween stream first (stop + 1) := by
  simp only [openCycle, cycleBetween, PwmCycle.mk.injEq] at counted
  obtain ⟨begins, -, countA, countB, neither, both⟩ := counted
  simp only [countSample, started, if_true, openCycle, cycleBetween, begins, countA,
    countB, neither, both, hasB, pointsIn_succ _ le, bothIn_succ _ _ _ le]
  cases known.hasB with
  | true => simp
  | false => simp

def CountsOpen (s known : PwmWaveformState) (stream : SampleStream)
    (edges : List Nat) (stop : Nat) : Prop :=
  s.cycleStarted = false ∧ edges = [] ∨ s.cycleStarted = true ∧ ∃ earlier last,
      edges = earlier ++ [last] ∧
      s.openCycle stop = known.cycleBetween stream last stop

theorem CountsOpen.countSample {known : PwmWaveformState} {stream : SampleStream}
    {edges : List Nat} {stop : Nat} (counts : s.CountsOpen known stream edges stop)
    (hasB : s.hasB = known.hasB) (past : ∀ edge ∈ edges, edge ≤ stop) :
    (s.countSample (known.activeA stream stop)
        (known.hasB && known.activeB stream stop)).CountsOpen known stream edges
      (stop + 1) := by
  rcases counts with ⟨idle, none⟩ | ⟨running, earlier, last, split, counted⟩
  · have same : ∀ a b, s.countSample a b = s := by
      intro a b
      simp [PwmWaveformState.countSample, idle]
    rw [same]
    exact Or.inl ⟨idle, none⟩
  · have le := past last (by simp [split])
    refine Or.inr ⟨?_, earlier, last, split, ?_⟩
    · simp [PwmWaveformState.countSample, running]
    · exact countSample_openCycle running le hasB counted

/-- What is known behind `count` samples of a capture from `start` on. -/
structure CyclesBehind (known : PwmWaveformState) (stream : SampleStream)
    (start count : Nat) (s : PwmWaveformState) : Prop where
  options : s.options = known.options
  first : count = 0 → s.havePreviousA = false
  level : 0 < count → s.havePreviousA = true ∧
    s.previousActiveA = known.activeA stream (start + count - 1)
  cycles : s.cycles = known.captureCycles stream start count
  counts : s.CountsOpen known stream (known.activeEdges stream start count) (start + count)

section Step

variable {known s : PwmWaveformState} {stream : SampleStream} {start count : Nat}

theorem CyclesBehind.initPrevious
    (behind : CyclesBehind known stream start count s) (active : Bool) :
    (s.initPrevious active).cycles = known.captureCycles stream start count ∧
      (s.initPrevious active).CountsOpen known stream
        (known.activeEdges stream start count) (start + count) := by
  simp only [PwmWaveformState.initPrevious]
  split
  · exact ⟨behind.cycles, behind.counts⟩
  · exact ⟨behind.cycles, behind.counts⟩

theorem CyclesBehind.edge_iff (behind : CyclesBehind known stream start count s) :
    (known.activeA stream (start + count) &&
        !(s.initPrevious (known.activeA stream (start + count))).previousActiveA) =
        true ↔
      start < start + count ∧ known.activeA stream (start + count) = true ∧
        known.activeA stream (start + count - 1) = false := by
  rcases Nat.eq_zero_or_pos count with rfl | some
  · simp [PwmWaveformState.initPrevious, behind.first rfl]
  · obtain ⟨levelKnown, level⟩ := behind.level some
    rw [initPrevious_of_have levelKnown, level]
    simp [some]

theorem CountsOpen.activeEdge (known : PwmWaveformState)
    (cycles : s.cycles = known.captureCycles stream start count)
    (counts : s.CountsOpen known stream (known.activeEdges stream start count) (start + count))
    (edge : known.activeEdges stream start (count + 1) =
      known.activeEdges stream start count ++ [start + count]) :
    (s.activeEdge (start + count)).cycles = known.captureCycles stream start (count + 1) ∧
      (s.activeEdge (start + count)).CountsOpen known stream
        (known.activeEdges stream start (count + 1)) (start + count) := by
  refine ⟨?_, Or.inr ⟨rfl, _, _, edge, activeEdge_openCycle s known stream _⟩⟩
  rcases counts with ⟨idle, none⟩ | ⟨running, earlier, last, split, counted⟩
  · rw [activeEdge_idle idle, cycles]
    simp only [captureCycles, edge, none]
    rfl
  · have later : s.cycleStart < start + count := by
      have begins : s.cycleStart = last := congrArg PwmCycle.cycleStart counted
      have member : last ∈ known.activeEdges stream start count := by simp [split]
      rw [begins]
      exact lt_of_mem_risingEdges member
    rw [activeEdge_started running later, cycles, counted]
    simp only [captureCycles, edge, split, consecutive_concat, List.map_append]
    rfl

theorem CyclesBehind.processActive (behind : CyclesBehind known stream start count s) :
    CyclesBehind known stream start (count + 1)
      (s.processActive (known.activeA stream (start + count))
        (known.hasB && known.activeB stream (start + count)) (start + count)) := by
  have keptOptions := processActive_options s (known.activeA stream (start + count))
    (known.hasB && known.activeB stream (start + count)) (start + count)
  have countKeeps : ∀ (t : PwmWaveformState) a b,
      (t.countSample a b).havePreviousA = t.havePreviousA ∧ (t.countSample a b).cycles = t.cycles ∧
        (t.countSample a b).hasB = t.hasB := by
    intro t a b
    simp only [PwmWaveformState.countSample]
    split
    · exact ⟨rfl, rfl, rfl⟩
    · exact ⟨rfl, rfl, rfl⟩
  have past : ∀ edge ∈ known.activeEdges stream start (count + 1),
      edge ≤ start + count := by
    intro edge member
    exact Nat.le_of_lt_succ (lt_of_mem_risingEdges member)
  obtain ⟨cycles, counts⟩ := behind.initPrevious (known.activeA stream (start + count))
  have edgeIff := behind.edge_iff
  have edges := risingEdges_succ (known.activeA stream) start count
  have levelKnown := initPrevious_have s (known.activeA stream (start + count))
  simp only [PwmWaveformState.processActive] at keptOptions ⊢
  generalize s.initPrevious (known.activeA stream (start + count)) = begun at *
  -- `turned` is the state behind the edge, if there is one.
  obtain ⟨turned, isTurned, turnedLevel, turnedCycles, turnedCounts⟩ : ∃ turned : PwmWaveformState,
        turned = (if (known.activeA stream (start + count) && !begun.previousActiveA) =
            true then begun.activeEdge (start + count) else begun) ∧
          turned.havePreviousA = true ∧
          turned.cycles = known.captureCycles stream start (count + 1) ∧
          turned.CountsOpen known stream (known.activeEdges stream start (count + 1))
            (start + count) := by
    refine ⟨_, rfl, ?_⟩
    split
    · rename_i edge
      rw [if_pos (edgeIff.mp edge)] at edges
      refine ⟨?_, CountsOpen.activeEdge known cycles counts edges⟩
      rw [activeEdge_have]
      exact levelKnown
    · rename_i noEdge
      rw [if_neg (fun edge => noEdge (edgeIff.mpr edge))] at edges
      have same : known.activeEdges stream start (count + 1) =
          known.activeEdges stream start count := edges
      refine ⟨levelKnown, ?_, ?_⟩
      · rw [captureCycles, same]
        exact cycles
      · rw [same]
        exact counts
  rw [← isTurned] at keptOptions ⊢
  obtain ⟨keptLevel, keptCycles, keptB⟩ := countKeeps turned (known.activeA stream (start + count))
    (known.hasB && known.activeB stream (start + count))
  refine ⟨keptOptions.trans behind.options, ?_, ?_, ?_, ?_⟩
  · intro zero
    omega
  · intro _
    exact ⟨keptLevel.trans turnedLevel, rfl⟩
  · exact keptCycles.trans turnedCycles
  · have hasB : turned.hasB = known.hasB :=
      keptB.symm.trans (congrArg Prod.fst (keptOptions.trans behind.options))
    exact turnedCounts.countSample hasB past

theorem CyclesBehind.plainSample (behind : CyclesBehind known stream start count s) :
    CyclesBehind known stream start (count + 1)
      (PwmWaveformState.plainSample stream (start + count) s) := by
  have options := behind.options
  simp only [PwmWaveformState.options, Prod.mk.injEq] at options
  obtain ⟨hasB, levelA, levelB⟩ := options
  have raw : s.pwmProcessOne (stream 0 (start + count)) (s.hasB && stream 1 (start + count))
          (start + count) =
        s.processActive (known.activeA stream (start + count))
          (known.hasB && known.activeB stream (start + count)) (start + count) := by
    simp only [pwmProcessOne, activeA, activeB, hasB, levelA, levelB]
    cases known.hasB with
    | true => simp
    | false => simp
  have sampled := behind.processActive
  rw [← raw] at sampled
  exact { sampled with }

end Step

theorem plainSample_loop_cycles (hasB activeLevelA activeLevelB : Bool)
    (stream : SampleStream) (start count : Nat) :
    let started := pwmWaveformStart hasB activeLevelA activeLevelB
    CyclesBehind started stream start count
      (sampleLoop (plainSample stream) start count started) := by
  induction count with
  | zero =>
      refine ⟨rfl, fun _ => rfl, fun some => absurd some (Nat.lt_irrefl 0), rfl, ?_⟩
      exact Or.inl ⟨rfl, rfl⟩
  | succ count ih => exact ih.plainSample

end PwmWaveformState

open PwmWaveformState in
/-- Decoding the blocks of any cutting is `pwm_process_one` sample by sample, and
from a started decoder it puts out the cycles of the capture. -/
theorem pwmWaveformDecode_exact (s : PwmWaveformState) {stream : SampleStream}
    {start stop : Nat} {blocks : List PackedBlock}
    (cuts : Cuts s.fetchedChannels stream start stop blocks) :
    s.pwmWaveformDecode blocks = s.plainDecode stream start stop ∧
      (s = pwmWaveformStart s.hasB s.activeLevelA s.activeLevelB →
        (s.pwmWaveformDecode blocks).cycles =
          s.captureCycles stream start (stop - start)) := by
  have plain := pwmWaveformDecode_eq_plainDecode s cuts
  refine ⟨plain, ?_⟩
  intro fresh
  have behind := plainSample_loop_cycles s.hasB s.activeLevelA s.activeLevelB stream
    start (stop - start)
  simp only at behind
  rw [← fresh] at behind
  rw [plain]
  exact behind.cycles

/-- Channel A is active-low, channel B is active-high. -/
def pulsePwm : PwmWaveformState :=
  PwmWaveformState.pwmWaveformStart true false true

/-- Edges at the samples 2, 6 and 10. -/
def pulseStream : SampleStream :=
  fun ch samplenum => if ch = 0 then samplenum % 4 < 2 else samplenum % 3 = 0

/-- Three samples that start in the middle of a byte, and nine more. -/
def pulseBlocks : List PackedBlock :=
  [{ count := 3
     startSample := 0
     bitOffset := 5
     buffers := [some [0x60], some [0x20]]
     constValues := [0, 0] },
   { count := 9
     startSample := 3
     bitOffset := 0
     buffers := [some [0x66, 0x00], some [0x49, 0x00]]
     constValues := [0, 0] }]

theorem pwmWaveformDecode_exact_pulses :
    pulsePwm.pwmWaveformDecode pulseBlocks = pulsePwm.plainDecode pulseStream 0 12 ∧
      (pulsePwm.pwmWaveformDecode pulseBlocks).cycles =
        [{ cycleStart := 2
           cycleEnd := 6
           countAActive := 2
           countBActive := 1
           countBothInactive := 2
           countBothActive := 1 },
         { cycleStart := 6
           cycleEnd := 10
           countAActive := 2
           countBActive := 2
           countBothInactive := 1
           countBothActive := 1 }] := by
  have cuts : Cuts pulsePwm.fetchedChannels pulseStream 0 12 pulseBlocks :=
    ⟨rfl, ⟨by decide, by decide⟩, rfl, ⟨by decide, by decide⟩, rfl⟩
  obtain ⟨plain, cycles⟩ := pwmWaveformDecode_exact pulsePwm cuts
  exact ⟨plain, (cycles rfl).trans (by decide)⟩

end SigrokDecode
