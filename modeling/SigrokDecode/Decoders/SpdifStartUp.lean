import SigrokDecode.Decoders.SpdifLosses

/-!
# The start of S/PDIF decoding

While it learns the kinds of pulses the decoder only buffers, so the replay begins in a state of
which all but the buffer and the ranges is known.
-/

namespace SigrokDecode

open SpdifState List

def spdifPulses : Nat → List Nat → List SpdifPulse
  | _, [] => []
  | edge, width :: widths => ⟨width, edge + width + 1⟩ :: spdifPulses (edge + width + 1) widths

theorem spdifPulses_increasing (edge : Nat) (widths : List Nat) :
    (spdifPulses edge widths).Pairwise (fun before after => before.samplenum < after.samplenum) ∧
      ∀ pulse ∈ spdifPulses edge widths, edge < pulse.samplenum := by
  induction widths generalizing edge with
  | nil => exact ⟨List.Pairwise.nil, fun _ member => absurd member not_mem_nil⟩
  | cons width widths ih =>
      obtain ⟨increasing, behind⟩ := ih (edge + width + 1)
      refine ⟨pairwise_cons.mpr ⟨behind, increasing⟩, forall_mem_cons.mpr ⟨?_, ?_⟩⟩
      · show edge < edge + width + 1
        omega
      · intro pulse member
        have later := behind pulse member
        omega

def SpdifState.Learning (s : SpdifState) : Prop :=
  s.state = .getFirstPulse ∨ s.state = .getSecondPulse ∨ s.state = .getThirdPulse

/-- Up to sample `now` the decoder has only buffered pulses. -/
structure SpdifLearning (s : SpdifState) (now : Nat) : Prop where
  unseen : s.seenPreamble = false
  firstOne : s.firstOne = true
  bitcount : s.bitcount = 0
  subframe : s.subframe = List.replicate 28 ⟨0, 0, 0⟩
  increasing : s.buffer.Pairwise fun before after => before.samplenum < after.samplenum
  recent : ∀ pulse ∈ s.buffer, 0 < pulse.samplenum ∧ pulse.samplenum ≤ now

section StartUp

variable {stack : List SpdifPulse → List SpdifEntry} {s : SpdifState} {pulse : SpdifPulse}
  {now : Nat}

theorem SpdifLearning.bufferPulse (learning : SpdifLearning s now) (later : now < pulse.samplenum) :
    SpdifLearning (s.bufferPulse pulse) pulse.samplenum := by
  have recent : ∀ other ∈ s.buffer, 0 < other.samplenum ∧ other.samplenum ≤ pulse.samplenum :=
    fun other member => ⟨(learning.recent other member).1,
      Nat.le_trans (learning.recent other member).2 (Nat.le_of_lt later)⟩
  refine ⟨learning.unseen, learning.firstOne, learning.bitcount, learning.subframe, ?_, ?_⟩
  · rw [SpdifState.bufferPulse]
    dsimp only
    split
    · refine pairwise_append.mpr ⟨learning.increasing, pairwise_singleton .., ?_⟩
      intro before member after last
      rw [mem_singleton.mp last]
      exact Nat.lt_of_le_of_lt (learning.recent before member).2 later
    · exact learning.increasing
  · rw [SpdifState.bufferPulse]
    dsimp only
    split
    · intro other member
      rcases mem_append.mp member with before | last
      · exact recent other before
      · rw [mem_singleton.mp last]
        exact ⟨Nat.zero_lt_of_lt later, Nat.le_refl _⟩
    · exact recent

theorem live_not_learning (live : s.state = .decodeStream ∨ s.state = .decodePreamble) :
    ¬(s.decodePulse stack pulse).Learning := by
  have after : (s.live pulse).state = .decodeStream ∨ (s.live pulse).state = .decodePreamble := by
    rw [SpdifState.live]
    split
    · rw [decodePreamble]
      dsimp only
      split
      · exact Or.inl rfl
      · exact live
    · rw [decodeStream]
      have bit : (s.streamBit pulse).state = s.state := by
        rw [streamBit]
        split
        · rfl
        · split
          · rfl
          · rfl
      split
      · dsimp only
        split
        · show (s.streamBit pulse).state = _ ∨ (s.streamBit pulse).state = _
          rw [bit]
          exact live
        · rw [bit]
          exact live
      · split
        · exact Or.inr rfl
        · exact live
  have step : s.decodePulse stack pulse = s.live pulse := by
    rcases live with stream | preamble
    · rw [decodePulse, stream]
    · rw [decodePulse, preamble]
  rw [step, SpdifState.Learning]
  rcases after with stream | preamble
  · rw [stream]
    decide
  · rw [preamble]
    decide

variable (stack pulse) in
theorem SpdifLearning.decodePulse (learning : s.Learning → SpdifLearning s now)
    (later : now < pulse.samplenum) (still : (s.decodePulse stack pulse).Learning) :
    SpdifLearning (s.decodePulse stack pulse) pulse.samplenum := by
  cases state : s.state with
  | getFirstPulse =>
      have buffered := (learning (Or.inl state)).bufferPulse later
      rw [SpdifState.decodePulse, state]
      dsimp only
      split
      · exact { buffered with }
      · exact buffered
  | getSecondPulse =>
      have buffered := (learning (Or.inr (Or.inl state))).bufferPulse later
      rw [SpdifState.decodePulse, state]
      dsimp only
      split
      · exact { buffered with }
      · exact buffered
  | getThirdPulse =>
      have buffered := (learning (Or.inr (Or.inr state))).bufferPulse later
      rw [SpdifState.decodePulse, state] at still ⊢
      dsimp only at still ⊢
      split at still
      next near => rw [if_pos near]; exact buffered
      next =>
        rcases still with first | second | third
        · cases first
        · cases second
        · cases third
  | decodeStream => exact absurd still (live_not_learning (Or.inl state))
  | decodePreamble => exact absurd still (live_not_learning (Or.inr state))

theorem decodePulse_third (third : s.state = .getThirdPulse) : s.decodePulse stack pulse =
      if near (s.clocks.getD 0 0) pulse.width ∨ near (s.clocks.getD 1 0) pulse.width then
        s.bufferPulse pulse
      else (s.bufferPulse pulse).learned stack (s.clocks.getD 0 0) (s.clocks.getD 1 0)
        pulse.width := by
  rw [SpdifState.decodePulse, third]
  rfl

variable (stack) in
theorem learning_run (widths : List Nat) (edge : Nat)
    (learning : s.Learning → SpdifLearning s edge) {front back : List SpdifPulse}
    (parts : spdifPulses edge widths = front ++ back)
    (still : (front.foldl (SpdifState.decodePulse stack) s).Learning) :
    ∃ last, SpdifLearning (front.foldl (SpdifState.decodePulse stack) s) last ∧
      ∀ pulse ∈ back, last < pulse.samplenum := by
  induction widths generalizing edge s front with
  | nil =>
      obtain ⟨rfl, rfl⟩ := append_eq_nil_iff.mp parts.symm
      exact ⟨edge, learning still, fun _ member => absurd member not_mem_nil⟩
  | cons width widths ih =>
      cases front with
      | nil =>
          have behind := (spdifPulses_increasing edge (width :: widths)).2
          rw [parts] at behind
          exact ⟨edge, learning still, behind⟩
      | cons pulse front =>
          rw [spdifPulses, cons_append] at parts
          obtain ⟨rfl, rest⟩ := List.cons.inj parts
          have later : edge < edge + width + 1 := by omega
          have learned := SpdifLearning.decodePulse stack ⟨width, edge + width + 1⟩ learning later
          exact ih (edge + width + 1) learned rest still

end StartUp

namespace SpdifState

/-- The replay hands over what live decoding knows exactly when the buffered pulses are settled. -/
theorem replay_handover (earlier : List SpdifPulse → List SpdifEntry) (edge : Nat)
    (widths : List Nat) (before : List SpdifPulse) (pulse : SpdifPulse) (s start : SpdifState)
    (pulses : spdifPulses edge widths = before ++ [pulse])
    (run : s = before.foldl (decodePulse earlier) reset)
    (third : s.state = .getThirdPulse)
    (known : (s.decodePulse earlier pulse).state = .decodeStream)
    (thresholds : start =
      (s.bufferPulse pulse).thresholds (s.clocks.getD 0 0) (s.clocks.getD 1 0) pulse.width) :
    (∀ stack : List SpdifPulse → List SpdifEntry, (∀ left, (stack left).length = 28) → ∀ later,
      SpdifSame (later.foldl live (s.decodePulse stack pulse))
        ((start.buffer ++ later).foldl live { start with state := .decodeStream })) ↔
      SpdifSettled (fun pulse => start.pulseType (SpdifPulse.width pulse)) true start.buffer := by
  have initial : SpdifLearning reset edge :=
    ⟨rfl, rfl, rfl, rfl, List.Pairwise.nil, fun _ member => absurd member not_mem_nil⟩
  obtain ⟨last, learning, behind⟩ := learning_run earlier widths edge
    (fun _ => initial) pulses (by rw [← run]; exact Or.inr (Or.inr third))
  rw [← run] at learning
  have buffered := learning.bufferPulse (behind pulse (mem_singleton.mpr rfl))
  have new : ¬(near (s.clocks.getD 0 0) pulse.width = true ∨
      near (s.clocks.getD 1 0) pulse.width = true) := by
    intro near
    rw [decodePulse_third third, if_pos near] at known
    have same : s.state = .decodeStream := known
    rw [third] at same
    cases same
  have step : ∀ stack, s.decodePulse stack pulse =
      (replayLoop stack start.buffer.length true start).handed := by
    intro stack
    rw [decodePulse_third third, if_neg new, thresholds]
    rfl
  have apart : SpdifApart true start { start with state := .decodeStream } := by
    rw [thresholds]
    exact ⟨rfl, rfl, rfl, buffered.unseen, buffered.unseen, buffered.firstOne, buffered.firstOne,
      buffered.bitcount, buffered.bitcount, rfl,
      (congrArg List.length buffered.subframe).trans length_replicate, rfl⟩
  have ordered : SpdifOrdered { start with state := .decodeStream } start.buffer := by
    rw [thresholds]
    refine ⟨buffered.increasing, fun entry member pulse inside => ?_⟩
    have zero : entry = ⟨0, 0, 0⟩ := eq_of_mem_replicate (buffered.subframe ▸ member)
    rw [zero]
    exact (buffered.recent pulse inside).1
  constructor
  · intro same
    rcases settled_or_unsettled (fun pulse => start.pulseType (SpdifPulse.width pulse))
      start.buffer.length (Nat.le_refl _) true with settled | unsettled
    · exact settled
    · obtain ⟨ss, differs⟩ := SpdifUnsettled.differs unsettled ordered
      have alike := same (staleStack ss) (fun _ => length_replicate) []
      rw [step, List.append_nil] at alike
      exact absurd alike (differs apart rfl rfl rfl (Nat.le_refl _))
  · intro settled stack size later
    rw [step, foldl_append]
    exact (SpdifSettled.same settled apart rfl rfl rfl (Nat.le_refl _) size).foldl_live later

/-- A preamble and the first bit behind it. -/
theorem replay_handover_bit :
    let s := (spdifPulses 0 [30, 30, 10, 10]).foldl (decodePulse (staleStack 0)) reset
    let start := (s.bufferPulse ⟨20, 105⟩).thresholds 30 10 20
    SpdifSame ([(⟨20, 126⟩ : SpdifPulse)].foldl live (s.decodePulse (staleStack 7) ⟨20, 105⟩))
      ((start.buffer ++ [(⟨20, 126⟩ : SpdifPulse)]).foldl live
        { start with state := .decodeStream }) := by
  have settled : SpdifSettled (fun pulse : SpdifPulse => spdifPulseType 30 50 pulse.width) true
      [⟨30, 31⟩, ⟨30, 62⟩, ⟨10, 73⟩, ⟨10, 84⟩, ⟨20, 105⟩] := by
    have start : SpdifStart (fun pulse : SpdifPulse => spdifPulseType 30 50 pulse.width) .m
      ⟨30, 31⟩ ⟨30, 62⟩ ⟨10, 73⟩ ⟨10, 84⟩ := ⟨by decide, by decide⟩
    have bits : SpdifBits (fun pulse : SpdifPulse => spdifPulseType 30 50 pulse.width) false 1
      [⟨20, 105⟩] := .zero (by decide) .nil
    exact .stream (fun _ member => absurd member not_mem_nil) start (by decide) bits
      (by decide)
  exact (replay_handover (staleStack 0) 0 [30, 30, 10, 10, 20] (spdifPulses 0 [30, 30, 10, 10])
    ⟨20, 105⟩ _ _ rfl rfl (by decide +kernel) (by decide +kernel) rfl).mpr settled (staleStack 7)
    (fun _ => length_replicate) [⟨20, 126⟩]

/-- The long pulse of a preamble comes third and is the last one in the buffer: the replay drops
the preamble. -/
theorem replay_drops_preamble :
    let s := (spdifPulses 0 [10, 5]).foldl (decodePulse (staleStack 0)) reset
    let start := (s.bufferPulse ⟨15, 33⟩).thresholds 10 5 15
    ¬SpdifSame (s.decodePulse (staleStack 0) ⟨15, 33⟩)
      (start.buffer.foldl live { start with state := .decodeStream }) := by
  intro s start same
  have state := same.state
  revert state
  decide +kernel

end SpdifState

end SigrokDecode
