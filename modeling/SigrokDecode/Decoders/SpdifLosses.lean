import SigrokDecode.Decoders.SpdifHandover

/-!
# What the S/PDIF replay loses

Where the buffered pulses are not settled, live decoding goes on differently from the replay.
-/

namespace SigrokDecode

open SpdifState List

section Growth

variable {stack : List SpdifPulse → List SpdifEntry} {s u : SpdifState}
  {temp : List SpdifEntry} {bitcount : Nat} {whole : Bool} {pulse : SpdifPulse}
  {rest : List SpdifPulse}

theorem emitSubframe_anns : s.anns <+: s.emitSubframe.anns := prefix_append _ _

theorem streamBit_anns : u.anns <+: (u.streamBit pulse).anns := by
  rw [streamBit]
  split
  · exact prefix_refl _
  · split
    · exact prefix_append _ _
    · exact prefix_append _ _

theorem live_anns : u.anns <+: (u.live pulse).anns := by
  rw [live]
  split
  · rw [decodePreamble]
    dsimp only
    split
    · exact prefix_append _ _
    · exact prefix_refl _
  · rw [decodeStream]
    split
    · dsimp only
      split
      · exact streamBit_anns.trans emitSubframe_anns
      · exact streamBit_anns
    · split
      · exact prefix_refl _
      · exact prefix_refl _

variable (rest) in
theorem foldl_live_anns : u.anns <+: (rest.foldl live u).anns := by
  induction rest generalizing u with
  | nil => exact prefix_refl _
  | cons pulse rest ih => exact live_anns.trans ih

theorem recheckPreambleLoop_anns (types : List Int) :
    s.anns <+: (recheckPreambleLoop s types rest).1.anns := by
  induction rest generalizing s types with
  | nil => exact prefix_refl _
  | cons pulse rest ih =>
      rw [recheckPreambleLoop]
      dsimp only
      split
      · split
        · exact ih (s := { s with ssEdge := pulse.start }) _
        · exact ih _
      · split
        · exact ih _
        · split
          · exact prefix_append _ _
          · exact prefix_append _ _

variable (rest) in
theorem replayed_anns : s.anns <+: (s.replayed temp rest).anns :=
  emitSubframe_anns (s := { s with subframe := temp, bitcount := 28 })

theorem recheckStreamLoop_anns : s.anns <+: (recheckStreamLoop s temp bitcount whole rest).1.anns := by
  induction rest generalizing s temp bitcount whole with
  | nil => exact prefix_refl _
  | cons pulse rest ih =>
      by_cases ends : s.pulseType pulse.width = 1 ∧ whole = true
      · rw [ends.2, recheckStreamLoop_half ends.1]
        exact ih
      · rw [recheckStreamLoop_bit _ _ _ ends]
        have bit : s.anns <+: (s.putBit temp bitcount pulse).anns := prefix_append _ _
        dsimp only
        split
        · split
          · exact bit.trans (replayed_anns rest)
          · exact bit.trans (replayed_anns rest)
        · exact bit.trans ih

theorem replayLoop_anns {turns : Nat} {isPreamble : Bool} :
    s.anns <+: (replayLoop stack turns isPreamble s).anns := by
  induction turns generalizing s isPreamble with
  | zero => exact prefix_refl _
  | succ turns ih =>
      rw [replayLoop]
      split
      · exact prefix_refl _
      · have once : s.anns <+: (if isPreamble = true then s.recheckPreamble
            else s.recheckStream (stack s.buffer)).1.anns := by
          split
          · exact recheckPreambleLoop_anns _
          · exact recheckStreamLoop_anns
        generalize (if isPreamble = true then s.recheckPreamble
          else s.recheckStream (stack s.buffer)) = next at once
        show _ <+: (if next.2 = true then replayLoop stack turns (!isPreamble) next.1
          else next.1).anns
        split
        · exact once.trans ih
        · exact once

variable (whole pulse rest) in
theorem recheckStreamLoop_puts (ends : ¬(s.pulseType pulse.width = 1 ∧ whole = true)) :
    s.anns ++ [⟨(s.bitEntry temp bitcount pulse).ss, pulse.samplenum,
      .bit (decide (s.pulseType pulse.width = 1))⟩] <+:
      (recheckStreamLoop s temp bitcount whole (pulse :: rest)).1.anns := by
  have bit : (s.putBit temp bitcount pulse).anns =
    s.anns ++ [⟨(s.bitEntry temp bitcount pulse).ss, pulse.samplenum,
      .bit (decide (s.pulseType pulse.width = 1))⟩] := rfl
  rw [← bit, recheckStreamLoop_bit _ _ _ ends]
  dsimp only
  split
  · split
    · exact replayed_anns rest
    · exact replayed_anns rest
  · exact recheckStreamLoop_anns

variable (pulse) in
theorem live_puts (stream : u.state = .decodeStream) (seen : u.seenPreamble = true)
    (ends : ¬(u.pulseType pulse.width = 1 ∧ u.firstOne = true)) :
    u.anns ++ [⟨(u.bitEntry u.subframe u.bitcount pulse).ss, pulse.samplenum,
      .bit (decide (u.pulseType pulse.width = 1))⟩] <+: (u.live pulse).anns := by
  have bit : (u.streamBit pulse).anns = u.anns ++
      [⟨(u.bitEntry u.subframe u.bitcount pulse).ss, pulse.samplenum,
        .bit (decide (u.pulseType pulse.width = 1))⟩] := by
    rw [streamBit_bit ends]
    rfl
  rw [← bit, live_bit stream seen]
  split
  · exact emitSubframe_anns
  · exact prefix_refl _

variable (stack) in
theorem replayLoop_stream_anns {turns : Nat} (some : s.buffer ≠ [])
    (room : s.buffer.length ≤ turns) :
    (recheckStreamLoop s (stack s.buffer) 0 true s.buffer).1.anns <+:
      (replayLoop stack turns false s).handed.anns := by
  rw [replayLoop_cons some room]
  simp only [Bool.false_eq_true, if_false, recheckStream]
  show _ <+: (if _ then _ else _ : SpdifState).anns
  split
  · exact replayLoop_anns
  · exact prefix_refl _

theorem foldl_live_unseen (pulses : List SpdifPulse) (unseen : u.seenPreamble = false)
    (state : u.state = .decodeStream ∨ u.state = .decodePreamble) (ann : SpdifAnn)
    (next : (pulses.foldl live u).anns[u.anns.length]? = some ann) (value : Bool) :
    ann.field ≠ .bit value := by
  induction pulses generalizing u with
  | nil =>
      rw [foldl_nil, getElem?_eq_none (Nat.le_refl _)] at next
      cases next
  | cons pulse pulses ih =>
      rw [foldl_cons] at next
      rcases state with stream | preamble
      · by_cases long : u.pulseType pulse.width = 2
        · have step := live_long pulse stream unseen long
          rw [step] at next
          exact ih (u := u.inPreamble [2] pulse.start) unseen (Or.inr rfl) next
        · rw [live_quiet stream unseen long] at next
          exact ih unseen (Or.inl stream) next
      · by_cases three : u.preamble.length = 3
        · have step := live_last pulse preamble three
          have shown : u.anns ++ [⟨u.ssEdge, pulse.samplenum,
              .preamble (spdifPreamble (u.preamble ++ [u.pulseType pulse.width]))⟩] <+:
              (pulses.foldl live (u.live pulse)).anns := by
            refine IsPrefix.trans ?_ (foldl_live_anns _)
            rw [step]
            exact prefix_refl _
          obtain ⟨after, anns⟩ := shown
          rw [← anns, List.append_assoc, getElem?_append_right (Nat.le_refl _),
            Nat.sub_self] at next
          cases next
          exact SpdifField.noConfusion
        · rw [live_more preamble three] at next
          exact ih (u := { u with
            preamble := u.preamble ++ [u.pulseType pulse.width] }) unseen (Or.inr preamble) next

end Growth

section Losses

variable {range1 range2 : Nat} {first : Bool} {pulses : List SpdifPulse} {s u : SpdifState}

theorem live_entries {pulse : SpdifPulse} {entry : SpdifEntry}
    (member : entry ∈ (u.live pulse).subframe) :
    entry ∈ u.subframe ∨ entry.es = pulse.samplenum := by
  have bit : entry ∈ (u.streamBit pulse).subframe →
      entry ∈ u.subframe ∨ entry.es = pulse.samplenum := by
    intro member
    rw [streamBit] at member
    split at member
    · rcases mem_or_eq_of_mem_set member with before | here
      · exact Or.inl before
      · exact Or.inr (by rw [here])
    · split at member
      · rcases mem_or_eq_of_mem_set member with before | here
        · exact Or.inl before
        · exact Or.inr (by rw [here])
      · rcases mem_or_eq_of_mem_set member with before | here
        · exact Or.inl before
        · exact Or.inr (by rw [here])
  rw [live] at member
  split at member
  · rw [decodePreamble] at member
    dsimp only at member
    split at member
    · exact Or.inl member
    · exact Or.inl member
  · rw [decodeStream] at member
    split at member
    · dsimp only at member
      split at member
      · exact bit member
      · exact bit member
    · split at member
      · exact Or.inl member
      · exact Or.inl member

structure SpdifOrdered (u : SpdifState) (pulses : List SpdifPulse) : Prop where
  increasing : pulses.Pairwise fun before after => before.samplenum < after.samplenum
  behind : ∀ entry ∈ u.subframe, ∀ pulse ∈ pulses, entry.es < pulse.samplenum

theorem SpdifOrdered.live {pulse : SpdifPulse} (ordered : SpdifOrdered u (pulse :: pulses)) :
    SpdifOrdered (u.live pulse) pulses where
  increasing := (pairwise_cons.mp ordered.increasing).2
  behind entry member later inside := by
    rcases live_entries member with before | here
    · exact ordered.behind entry before later (mem_cons_of_mem _ inside)
    · rw [here]
      exact (pairwise_cons.mp ordered.increasing).1 later inside

theorem SpdifOrdered.foldl_live {front : List SpdifPulse}
    (ordered : SpdifOrdered u (front ++ pulses)) :
    SpdifOrdered (front.foldl SpdifState.live u) pulses := by
  induction front generalizing u with
  | nil => exact ordered
  | cons pulse front ih => exact ih ordered.live

/-- A stack that holds entries which begin at `ss`. -/
def staleStack (ss : Nat) : List SpdifPulse → List SpdifEntry :=
  fun _ => List.replicate 28 ⟨0, ss, 0⟩

theorem getElem_of_isPrefix {anns more : List SpdifAnn} {ann : SpdifAnn}
    (shown : anns ++ [ann] <+: more) : more[anns.length]? = some ann := by
  obtain ⟨after, rfl⟩ := shown
  rw [List.append_assoc, getElem?_append_right (Nat.le_refl _), Nat.sub_self]
  rfl

variable {rest : List SpdifPulse}

theorem foldl_live_split {quiet : List SpdifPulse} {a b c d : SpdifPulse} :
    (quiet ++ a :: b :: c :: d :: rest).foldl SpdifState.live u =
      rest.foldl SpdifState.live ((quiet ++ [a, b, c, d]).foldl SpdifState.live u) := by
  rw [← foldl_append, List.append_assoc]
  rfl

theorem foldl_live_cut {quiet : List SpdifPulse} {a : SpdifPulse}
    (stream : u.state = .decodeStream) (unseen : u.seenPreamble = false)
    (none : ∀ pulse ∈ quiet, u.pulseType pulse.width ≠ 2) (long : u.pulseType a.width = 2)
    (few : rest.length < 3) :
    ((quiet ++ a :: rest).foldl SpdifState.live u).state = .decodePreamble := by
  rw [foldl_append, foldl_live_quiet stream unseen none, foldl_cons, live_long _ stream unseen long]
  have more : ∀ (rest : List SpdifPulse) (types : List Int), types.length + rest.length < 4 →
      (rest.foldl SpdifState.live (u.inPreamble types a.start)).state = .decodePreamble := by
    intro rest
    induction rest with
    | nil => exact fun _ _ => rfl
    | cons pulse rest ih =>
        intro types room
        rw [length_cons] at room
        rw [foldl_cons, live_inPreamble _ _ (by omega)]
        exact ih _ (by rw [length_append, length_singleton]; omega)
  exact more rest [2] (by rw [length_singleton]; omega)

theorem SpdifAligned.differs_unknown {after live : SpdifState}
    {stack : List SpdifPulse → List SpdifEntry} {turns : Nat}
    (aligned : SpdifAligned false after live) (buffer : after.buffer = rest) (some : rest ≠ [])
    (room : rest.length ≤ turns) :
    ¬SpdifSame (replayLoop stack turns false after).handed (rest.foldl SpdifState.live live) := by
  obtain ⟨pulse, more, rfl⟩ := exists_cons_of_ne_nil some
  have pending : after.buffer ≠ [] := by
    rw [buffer]
    exact some
  have fits : after.buffer.length ≤ turns := by
    rw [buffer]
    exact room
  have shown := replayLoop_stream_anns stack pending fits
  rw [buffer] at shown
  have unseen := fun ann => foldl_live_unseen (pulse :: more) aligned.seen_live
    (Or.inl aligned.stream) ann
  rw [← aligned.anns] at unseen
  intro same
  rw [← same.anns] at unseen
  by_cases short : after.pulseType pulse.width = 1
  · match more with
    | [] =>
        have half : (replayLoop stack turns false after).handed.firstOne = false := by
          rw [replayLoop_cons pending fits]
          simp only [Bool.false_eq_true, if_false, recheckStream]
          rw [buffer, recheckStreamLoop_half short]
          rfl
        have quiet : live.pulseType pulse.width ≠ 2 := by
          rw [← pulseType_congr aligned.range1 aligned.range2, short]
          decide
        rw [same.firstOne, foldl_cons, live_quiet aligned.stream aligned.seen_live quiet,
          foldl_nil, aligned.firstOne_live] at half
        cases half
    | second :: others =>
        rw [recheckStreamLoop_half short] at shown
        have bit := (recheckStreamLoop_puts (s := after) false second others
          (fun both => Bool.noConfusion both.2)).trans shown
        exact unseen _ (getElem_of_isPrefix bit) _ rfl
  · have bit := (recheckStreamLoop_puts (s := after) true _ more
      (fun both => short both.1)).trans shown
    exact unseen _ (getElem_of_isPrefix bit) _ rfl

theorem SpdifTracks.differs_half {next live : SpdifState} {entries : List SpdifEntry}
    {bitcount : Nat} {short : SpdifPulse}
    (tracks : SpdifTracks next entries bitcount bitcount true live) (inside : bitcount < 28)
    (half : next.pulseType short.width = 1) (ordered : SpdifOrdered live [short]) :
    ¬SpdifSame (recheckStreamLoop next entries bitcount true [short]).1.handed
      (live.live short) := by
  intro same
  have half_live : live.pulseType short.width = 1 :=
    (pulseType_congr tracks.range1 tracks.range2 _).symm.trans half
  have entries_eq := same.subframe
  rw [recheckStreamLoop_half half, live_half tracks.stream tracks.seen_live
    (by rw [tracks.bitcount_live]; exact inside) half_live tracks.firstOne_live] at entries_eq
  have kept : live.subframe = live.subframe.set bitcount ⟨1, short.start, short.samplenum⟩ := by
    have left : (entries.set bitcount ⟨1, short.start, short.samplenum⟩).take bitcount ++
        next.subframe.drop bitcount = live.subframe := by
      rw [take_set_of_le (Nat.le_refl _), tracks.subframe]
    rw [← tracks.bitcount_live] at entries_eq left ⊢
    exact left.symm.trans entries_eq
  have length : bitcount < live.subframe.length := by
    have size := tracks.size
    have size_temp := tracks.size_temp
    rw [tracks.subframe, length_append, length_take, length_drop]
    omega
  have member : (⟨1, short.start, short.samplenum⟩ : SpdifEntry) ∈ live.subframe := by
    rw [kept]
    exact mem_set length _
  exact Nat.lt_irrefl _ (ordered.behind _ member short (mem_singleton.mpr rfl))

/-- The replay takes the start of a one from its stack, live decoding from the last subframe. -/
theorem SpdifTracks.differs_stale {next live t : SpdifState} {entries : List SpdifEntry}
    {bitcount : Nat} {short : SpdifPulse}
    (tracks : SpdifTracks next entries bitcount bitcount false live)
    (half : next.pulseType short.width = 1)
    (other : (entry entries bitcount).ss ≠ (entry live.subframe bitcount).ss)
    (shown : (recheckStreamLoop next entries bitcount false (short :: rest)).1.anns <+: t.anns) :
    ¬SpdifSame t (rest.foldl SpdifState.live (live.live short)) := by
  intro same
  have half_live : live.pulseType short.width = 1 :=
    (pulseType_congr tracks.range1 tracks.range2 _).symm.trans half
  have bit := (recheckStreamLoop_puts _ _ _ (fun both => Bool.noConfusion both.2)).trans shown
  have bit_live := (live_puts short tracks.stream tracks.seen_live (fun both => by
    rw [tracks.firstOne_live] at both
    exact Bool.noConfusion both.2)).trans (foldl_live_anns rest)
  have replayed := getElem_of_isPrefix bit
  have lived := getElem_of_isPrefix bit_live
  rw [← same.anns, ← tracks.anns, replayed] at lived
  have ss_eq := congrArg SpdifAnn.ss (Option.some.inj lived)
  simp only [SpdifState.bitEntry, half, half_live, if_true, tracks.bitcount_live] at ss_eq
  exact other ss_eq

/-- By induction on the pulses: whatever state the replay begins in, what it finds on the stack
may be such that the states differ. -/
theorem SpdifUnsettled.differs (unsettled : SpdifUnsettled
      (fun pulse => spdifPulseType range1 range2 (SpdifPulse.width pulse)) first pulses)
    (ordered : SpdifOrdered u pulses) :
    ∃ ss, ∀ {s : SpdifState} {turns : Nat}, SpdifApart first s u → s.range1 = range1 →
      s.range2 = range2 → s.buffer = pulses → pulses.length ≤ turns →
      ¬SpdifSame (replayLoop (staleStack ss) turns true s).handed
        (pulses.foldl SpdifState.live u) := by
  have size : ∀ ss left, (staleStack ss left).length = 28 := fun _ _ => length_replicate
  induction unsettled generalizing u with
  | @behind pulses none =>
      refine ⟨0, fun {s turns} apart same1 same2 buffer room same => ?_⟩
      subst same1 same2 buffer
      have none_live : ∀ pulse ∈ s.buffer, u.pulseType pulse.width ≠ 2 := fun pulse member => by
        rw [← pulseType_congr apart.range1 apart.range2]
        exact none pulse member
      obtain ⟨types, left⟩ := replayLoop_quiet (staleStack 0) none room
      have count := same.bitcount
      rw [left, foldl_live_quiet apart.stream apart.unseen_live none_live, apart.bitcount_live]
        at count
      have behind : s.bitcount = 28 := apart.bitcount
      have zero : s.bitcount = 0 := count
      omega
  | @preamble first quiet rest a none long few =>
      refine ⟨0, fun {s turns} apart same1 same2 buffer room same => ?_⟩
      subst same1 same2
      have type := pulseType_congr apart.range1 apart.range2
      have none_live : ∀ pulse ∈ quiet, u.pulseType pulse.width ≠ 2 := fun pulse member => by
        rw [← type]
        exact none pulse member
      have state := same.state
      rw [foldl_live_cut apart.stream apart.unseen_live none_live ((type _).symm.trans long) few]
        at state
      cases state
  | @unknown first quiet rest a b c d none start some =>
      refine ⟨0, fun {s turns} apart same1 same2 buffer room => ?_⟩
      subst same1 same2
      have fits : s.buffer.length ≤ turns := by
        rw [buffer]
        exact room
      obtain ⟨after, fewer, aligned, left, enough, -, -, run⟩ :=
        replayLoop_preamble (staleStack 0) apart none start buffer fits
      rw [run, foldl_live_split]
      exact aligned.differs_unknown left some enough
  | @half first quiet bits a b c d short name count none start named within few last =>
      refine ⟨0, fun {s turns} apart same1 same2 buffer room => ?_⟩
      subst same1 same2
      have fits : s.buffer.length ≤ turns := by
        rw [buffer]
        exact room
      obtain ⟨after, fewer, aligned, left, enough, range1, range2, run⟩ :=
        replayLoop_preamble (staleStack 0) apart none start buffer fits
      have ready : after.buffer.length ≤ fewer := by
        rw [left]
        exact enough
      rw [decide_eq_true named] at aligned
      have replays := within.replays range1 range2 (aligned.tracks (size 0 (bits ++ [short])))
        (by omega) (by omega)
      obtain ⟨next, entries, tracks, next1, next2, -, stream⟩ := replays.part (by omega)
      simp only [Bool.not_false, Nat.zero_add] at tracks stream
      have some : after.buffer ≠ [] := by
        rw [left]
        exact append_ne_nil_of_right_ne_nil _ (cons_ne_nil _ _)
      have short_next : next.pulseType short.width = 1 :=
        (pulseType_congr (next1.trans range1) (next2.trans range2) _).trans last
      have tail : SpdifOrdered (bits.foldl SpdifState.live
          ((quiet ++ [a, b, c, d]).foldl SpdifState.live u)) [short] := by
        rw [← foldl_live_split]
        refine SpdifOrdered.foldl_live ?_
        rw [List.append_assoc]
        exact ordered
      rw [run, foldl_live_split, foldl_append, foldl_cons, foldl_nil, replayLoop_cons some ready]
      simp only [Bool.false_eq_true, if_false, recheckStream]
      rw [left, stream, if_neg (by rw [recheckStreamLoop_half short_next]; exact Bool.false_ne_true)]
      exact tracks.differs_half few short_next tail
  | @stale first quiet bits rest a b c d short name count none start named within few last =>
      refine ⟨(entry (bits.foldl SpdifState.live
        ((quiet ++ [a, b, c, d]).foldl SpdifState.live u)).subframe count).ss + 1,
        fun {s turns} apart same1 same2 buffer room => ?_⟩
      subst same1 same2
      generalize other : (entry (bits.foldl SpdifState.live
        ((quiet ++ [a, b, c, d]).foldl SpdifState.live u)).subframe count).ss + 1 = ss
      have fits : s.buffer.length ≤ turns := by
        rw [buffer]
        exact room
      obtain ⟨after, fewer, aligned, left, enough, range1, range2, run⟩ :=
        replayLoop_preamble (staleStack ss) apart none start buffer fits
      have ready : after.buffer.length ≤ fewer := by
        rw [left]
        exact enough
      rw [decide_eq_true named] at aligned
      have replays := within.replays range1 range2
        (aligned.tracks (size ss (bits ++ short :: rest))) (by omega) (by omega)
      obtain ⟨next, entries, tracks, next1, next2, below, stream⟩ := replays.part (by omega)
      simp only [Bool.not_true, Nat.zero_add] at tracks below stream
      have some : after.buffer ≠ [] := by
        rw [left]
        exact append_ne_nil_of_right_ne_nil _ (cons_ne_nil _ _)
      have short_next : next.pulseType short.width = 1 :=
        (pulseType_congr (next1.trans range1) (next2.trans range2) _).trans last
      have shown := replayLoop_stream_anns (staleStack ss) some ready
      rw [left, stream] at shown
      rw [run, foldl_live_split, foldl_append, foldl_cons]
      refine tracks.differs_stale short_next ?_ shown
      have garbage : entry entries count = ⟨0, ss, 0⟩ := by
        have at_ : (entries.drop count)[0]? =
            ((staleStack ss (bits ++ short :: rest)).drop count)[0]? := by
          rw [below]
        rw [getElem?_drop, getElem?_drop, Nat.add_zero, staleStack,
          getElem?_replicate_of_lt few] at at_
        rw [entry, getD_eq_getElem?_getD, at_]
        rfl
      rw [garbage]
      exact fun same => Nat.succ_ne_self _ (other.trans same)
  | @subframe first lone quiet bits rest a b c d name none start named whole unsettled
      ih =>
      have split : (quiet ++ a :: b :: c :: d :: (bits ++ rest)) =
          (quiet ++ a :: b :: c :: d :: bits) ++ rest := by
        rw [List.append_assoc]
        rfl
      rw [split] at ordered
      obtain ⟨ss, differs⟩ := ih ordered.foldl_live
      refine ⟨ss, fun {s turns} apart same1 same2 buffer room => ?_⟩
      have fits : s.buffer.length ≤ turns := by
        rw [buffer]
        exact room
      obtain ⟨next, fewer, further, kept, few, range1, range2, run⟩ :=
        replayLoop_subframe (staleStack ss) apart same1 same2 none start named whole buffer fits
          (size ss)
      rw [run, split, foldl_append]
      exact differs further range1 range2 kept few

end Losses

end SigrokDecode
