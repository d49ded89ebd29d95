import SigrokDecode.Decoders.SpdifReplay

/-!
# What the S/PDIF replay hands over

Live decoding goes on as if it had seen the buffered pulses itself exactly when they are settled.
-/

namespace SigrokDecode

open SpdifState

section Handover

variable {stack : List SpdifPulse → List SpdifEntry} {s u : SpdifState} {turns : Nat}
  {first : Bool} {name : SpdifPreamble} {quiet rest : List SpdifPulse} {a b c d : SpdifPulse}

def SpdifState.handed (s : SpdifState) : SpdifState :=
  { s with state := .decodeStream }

theorem SpdifAligned.same {named : Bool} (aligned : SpdifAligned named s u) :
    SpdifSame s.handed u where
  range1 := aligned.range1
  range2 := aligned.range2
  state := aligned.stream.symm
  preamble inPreamble := by
    rw [aligned.stream] at inPreamble
    exact SpdifPhase.noConfusion inPreamble
  seenPreamble := aligned.seen.trans aligned.seen_live.symm
  bitcount := aligned.bitcount.trans aligned.bitcount_live.symm
  firstOne := aligned.firstOne.trans aligned.firstOne_live.symm
  subframe := aligned.subframe
  anns := aligned.anns

theorem SpdifApart.same (apart : SpdifApart true s u) : SpdifSame s.handed u where
  range1 := apart.range1
  range2 := apart.range2
  state := apart.stream.symm
  preamble inPreamble := by
    rw [apart.stream] at inPreamble
    exact SpdifPhase.noConfusion inPreamble
  seenPreamble := apart.unseen.trans apart.unseen_live.symm
  bitcount := apart.bitcount.trans apart.bitcount_live.symm
  firstOne := apart.firstOne.trans apart.firstOne_live.symm
  subframe := apart.subframe
  anns := apart.anns

theorem replayLoop_nil {isPreamble : Bool} (empty : s.buffer = []) :
    replayLoop stack turns isPreamble s = s := by
  cases turns with
  | zero => rfl
  | succ turns => rw [replayLoop, if_pos empty]

theorem replayLoop_cons {isPreamble : Bool} (some : s.buffer ≠ []) (room : s.buffer.length ≤ turns) :
    replayLoop stack turns isPreamble s =
      let next := if isPreamble then s.recheckPreamble else s.recheckStream (stack s.buffer)
      if next.2 then replayLoop stack (turns - 1) (!isPreamble) next.1 else next.1 := by
  cases turns with
  | zero => exact absurd (List.eq_nil_of_length_eq_zero (Nat.le_zero.mp room)) some
  | succ turns =>
      rw [replayLoop, if_neg some]
      rfl

variable (stack) in
theorem replayLoop_quiet (none : ∀ pulse ∈ s.buffer, s.pulseType pulse.width ≠ 2)
    (room : s.buffer.length ≤ turns) :
    ∃ types, (replayLoop stack turns true s).handed =
      ({ s with preamble := types, buffer := [] } : SpdifState).handed := by
  by_cases empty : s.buffer = []
  · rw [replayLoop_nil empty]
    exact ⟨s.preamble, by rw [← empty]⟩
  · rw [replayLoop_cons empty room]
    simp only [if_true, recheckPreamble, recheckPreambleLoop_quiet none]
    exact ⟨[], rfl⟩

variable (stack) in
theorem replayLoop_preamble (apart : SpdifApart first s u)
    (none : ∀ pulse ∈ quiet, s.pulseType pulse.width ≠ 2)
    (start : SpdifStart (fun pulse => s.pulseType (SpdifPulse.width pulse)) name a b c d)
    (buffer : s.buffer = quiet ++ a :: b :: c :: d :: rest) (room : s.buffer.length ≤ turns) :
    ∃ after fewer, SpdifAligned (decide (name ≠ .unknown)) after
        ((quiet ++ [a, b, c, d]).foldl SpdifState.live u) ∧
      after.buffer = rest ∧ rest.length ≤ fewer ∧ after.range1 = s.range1 ∧
      after.range2 = s.range2 ∧
      (replayLoop stack turns true s).handed = (replayLoop stack fewer false after).handed := by
  obtain ⟨after, aligned, left, range1, range2, run⟩ := apart.preamble rest none start
  have some : s.buffer ≠ [] := by
    rw [buffer]
    exact List.append_ne_nil_of_right_ne_nil _ (List.cons_ne_nil _ _)
  have length : s.buffer.length = quiet.length + (rest.length + 4) := by
    rw [buffer, List.length_append]
    rfl
  refine ⟨after, turns - 1, aligned, left, by omega, range1, range2, ?_⟩
  rw [replayLoop_cons some room]
  simp only [if_true, recheckPreamble]
  rw [buffer, run]
  split
  next empty =>
    rw [replayLoop_nil (left.trans empty)]
    rfl
  next => rfl

variable (stack) in
theorem replayLoop_subframe {range1 range2 : Nat} {lone : Bool} {bits : List SpdifPulse}
    (apart : SpdifApart first s u) (same1 : s.range1 = range1) (same2 : s.range2 = range2)
    (none : SpdifQuiet (fun pulse => spdifPulseType range1 range2 (SpdifPulse.width pulse)) quiet)
    (start : SpdifStart (fun pulse => spdifPulseType range1 range2 (SpdifPulse.width pulse)) name
      a b c d)
    (named : name ≠ .unknown)
    (whole : SpdifBits (fun pulse => spdifPulseType range1 range2 (SpdifPulse.width pulse)) lone 28
      bits)
    (buffer : s.buffer = quiet ++ a :: b :: c :: d :: (bits ++ rest))
    (room : s.buffer.length ≤ turns) (size : ∀ left, (stack left).length = 28) :
    ∃ next fewer, SpdifApart false next
        ((quiet ++ a :: b :: c :: d :: bits).foldl SpdifState.live u) ∧
      next.buffer = rest ∧ rest.length ≤ fewer ∧ next.range1 = range1 ∧ next.range2 = range2 ∧
      (replayLoop stack turns true s).handed = (replayLoop stack fewer true next).handed := by
  subst same1 same2
  obtain ⟨after, fewer, aligned, left, enough, range1, range2, run⟩ :=
    replayLoop_preamble stack apart none start buffer room
  rw [decide_eq_true named] at aligned
  have replays := whole.replays range1 range2 (aligned.tracks (size (bits ++ rest))) (by omega)
    (by omega)
  obtain ⟨next, further, kept, same1, same2, stream⟩ := replays.full rfl rest
  have some : after.buffer ≠ [] := by
    rw [left]
    exact List.append_ne_nil_of_left_ne_nil (whole.ne_nil (by omega)) _
  have length : (bits ++ rest).length = bits.length + rest.length := List.length_append
  have few : rest.length ≤ fewer - 1 := by
    have one : 0 < bits.length := List.length_pos_iff.mpr (whole.ne_nil (by omega))
    omega
  refine ⟨next, fewer - 1, ?_, kept, few, same1.trans range1, same2.trans range2, ?_⟩
  · rw [← List.foldl_append, List.append_assoc] at further
    exact further
  · rw [run, replayLoop_cons some (by rw [left]; exact enough)]
    simp only [Bool.false_eq_true, if_false, recheckStream]
    rw [left, stream]
    split
    next empty =>
      rw [replayLoop_nil (kept.trans empty)]
      rfl
    next => rfl

theorem SpdifTracks.same {temp : List SpdifEntry} {bitcount : Nat} {whole : Bool}
    (tracks : SpdifTracks s temp bitcount bitcount whole u) :
    SpdifSame (recheckStreamLoop s temp bitcount whole []).1.handed u where
  range1 := tracks.range1
  range2 := tracks.range2
  state := tracks.stream.symm
  preamble inPreamble := by
    rw [tracks.stream] at inPreamble
    exact SpdifPhase.noConfusion inPreamble
  seenPreamble := tracks.seen.trans tracks.seen_live.symm
  bitcount := tracks.bitcount_live.symm
  firstOne := tracks.firstOne_live.symm
  subframe := tracks.subframe.symm
  anns := tracks.anns

theorem SpdifSettled.same {range1 range2 : Nat} {pulses : List SpdifPulse}
    (settled : SpdifSettled (fun pulse => spdifPulseType range1 range2 (SpdifPulse.width pulse))
      first pulses)
    (apart : SpdifApart first s u) (same1 : s.range1 = range1) (same2 : s.range2 = range2)
    (buffer : s.buffer = pulses) (room : pulses.length ≤ turns)
    (size : ∀ left, (stack left).length = 28) :
    SpdifSame (replayLoop stack turns true s).handed (pulses.foldl SpdifState.live u) := by
  induction settled generalizing s u turns with
  | quiet none =>
      subst same1 same2 buffer
      obtain ⟨types, left⟩ := replayLoop_quiet stack none room
      have none_live : ∀ pulse ∈ s.buffer, u.pulseType pulse.width ≠ 2 := fun pulse member => by
        rw [← pulseType_congr apart.range1 apart.range2]
        exact none pulse member
      rw [left, foldl_live_quiet apart.stream apart.unseen_live none_live]
      obtain ⟨range1, range2, state, preamble, seenPreamble, bitcount, firstOne, subframe, anns⟩ :=
        apart.same
      refine ⟨range1, range2, state, fun inPreamble => ?_, seenPreamble, bitcount, firstOne,
        subframe, anns⟩
      rw [apart.stream] at inPreamble
      exact SpdifPhase.noConfusion inPreamble
  | @unknown first quiet a b c d none start =>
      subst same1 same2
      have fits : s.buffer.length ≤ turns := by
        rw [buffer]
        exact room
      obtain ⟨after, fewer, aligned, left, -, -, -, run⟩ :=
        replayLoop_preamble stack apart none start buffer fits
      rw [run, replayLoop_nil left]
      exact aligned.same
  | @stream first lone quiet bits a b c d name count none start named within few =>
      subst same1 same2
      have fits : s.buffer.length ≤ turns := by
        rw [buffer]
        exact room
      obtain ⟨after, fewer, aligned, left, enough, range1, range2, run⟩ :=
        replayLoop_preamble stack apart none start buffer fits
      have split : (quiet ++ a :: b :: c :: d :: bits).foldl SpdifState.live u =
          bits.foldl SpdifState.live ((quiet ++ [a, b, c, d]).foldl SpdifState.live u) := by
        rw [← List.foldl_append, List.append_assoc]
        rfl
      rw [run, split]
      by_cases empty : bits = []
      · rw [replayLoop_nil (left.trans empty), empty]
        exact aligned.same
      · rw [decide_eq_true named] at aligned
        have replays := within.replays range1 range2 (aligned.tracks (size bits)) (by omega)
          (by omega)
        obtain ⟨next, entries, tracks, -, -, -, stream⟩ := replays.part (by omega)
        have ended := stream []
        rw [List.append_nil] at ended
        have ready : after.buffer.length ≤ fewer := by
          rw [left]
          exact enough
        rw [replayLoop_cons (by rw [left]; exact empty) ready]
        simp only [Bool.false_eq_true, if_false, recheckStream]
        rw [left, ended]
        exact tracks.same
  | @subframe first lone quiet bits rest a b c d name none start named whole settled
      ih =>
      have fits : s.buffer.length ≤ turns := by
        rw [buffer]
        exact room
      obtain ⟨next, fewer, further, kept, few, range1, range2, run⟩ :=
        replayLoop_subframe stack apart same1 same2 none start named whole buffer fits size
      have split : (quiet ++ a :: b :: c :: d :: (bits ++ rest)).foldl SpdifState.live u =
          rest.foldl SpdifState.live
            ((quiet ++ a :: b :: c :: d :: bits).foldl SpdifState.live u) := by
        rw [← List.foldl_append, List.append_assoc]
        rfl
      rw [run, split]
      exact ih further range1 range2 kept few

end Handover

end SigrokDecode
