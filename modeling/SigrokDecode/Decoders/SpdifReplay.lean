import SigrokDecode.Decoders.SpdifPulses

/-!
# The S/PDIF replay beside live decoding

The replay keeps the bits of a subframe in variables of its own, while live decoding writes each
pulse into the state at once.
-/

namespace SigrokDecode

open SpdifState List

/-- The decoder goes on from both states alike. -/
structure SpdifSame (t u : SpdifState) : Prop where
  range1 : t.range1 = u.range1
  range2 : t.range2 = u.range2
  state : t.state = u.state
  preamble : u.state = .decodePreamble → t.preamble = u.preamble ∧ t.ssEdge = u.ssEdge
  seenPreamble : t.seenPreamble = u.seenPreamble
  bitcount : t.bitcount = u.bitcount
  firstOne : t.firstOne = u.firstOne
  subframe : t.subframe = u.subframe
  anns : t.anns = u.anns

/-- What both have of each other when the replay looks for a preamble; `first` says that no
subframe has been yet, since the replay leaves the bit count of one behind. -/
structure SpdifApart (first : Bool) (s u : SpdifState) : Prop where
  range1 : s.range1 = u.range1
  range2 : s.range2 = u.range2
  stream : u.state = .decodeStream
  unseen : s.seenPreamble = false
  unseen_live : u.seenPreamble = false
  firstOne : s.firstOne = true
  firstOne_live : u.firstOne = true
  bitcount : s.bitcount = if first then 0 else 28
  bitcount_live : u.bitcount = 0
  subframe : s.subframe = u.subframe
  size : s.subframe.length = 28
  anns : s.anns = u.anns

/-- Behind a preamble. -/
structure SpdifAligned (named : Bool) (s u : SpdifState) : Prop where
  range1 : s.range1 = u.range1
  range2 : s.range2 = u.range2
  stream : u.state = .decodeStream
  seen : s.seenPreamble = named
  seen_live : u.seenPreamble = named
  firstOne : s.firstOne = true
  firstOne_live : u.firstOne = true
  bitcount : s.bitcount = 0
  bitcount_live : u.bitcount = 0
  subframe : s.subframe = u.subframe
  size : s.subframe.length = 28
  anns : s.anns = u.anns

/-- Inside a subframe: live decoding has overwritten `known` entries with those of the replay. -/
structure SpdifTracks (s : SpdifState) (temp : List SpdifEntry) (bitcount known : Nat)
    (whole : Bool) (u : SpdifState) : Prop where
  range1 : s.range1 = u.range1
  range2 : s.range2 = u.range2
  stream : u.state = .decodeStream
  seen : s.seenPreamble = true
  seen_live : u.seenPreamble = true
  firstOne : s.firstOne = true
  firstOne_live : u.firstOne = whole
  bitcount_live : u.bitcount = bitcount
  begun : bitcount ≤ known
  small : known ≤ 28
  size : s.subframe.length = 28
  size_temp : temp.length = 28
  subframe : u.subframe = temp.take known ++ s.subframe.drop known
  anns : s.anns = u.anns

theorem SpdifState.pulseType_congr {s u : SpdifState} (range1 : s.range1 = u.range1)
    (range2 : s.range2 = u.range2) (width : Nat) : s.pulseType width = u.pulseType width := by
  rw [pulseType, pulseType, range1, range2]

namespace SpdifState

variable {s : SpdifState} {pulse : SpdifPulse}

theorem live_quiet (stream : s.state = .decodeStream) (unseen : s.seenPreamble = false)
    (quiet : s.pulseType pulse.width ≠ 2) : s.live pulse = s := by
  rw [live, if_neg (by rw [stream]; decide), decodeStream, unseen]
  simp only [Bool.false_eq_true, if_false, if_neg quiet]

variable (pulse) in
theorem live_long (stream : s.state = .decodeStream) (unseen : s.seenPreamble = false)
    (long : s.pulseType pulse.width = 2) : s.live pulse =
      { s with preamble := [2], state := .decodePreamble, ssEdge := pulse.start } := by
  rw [live, if_neg (by rw [stream]; decide), decodeStream, unseen]
  simp only [Bool.false_eq_true, if_false, long, if_true]

theorem live_more (preamble : s.state = .decodePreamble) (few : s.preamble.length ≠ 3) :
    s.live pulse = { s with preamble := s.preamble ++ [s.pulseType pulse.width] } := by
  rw [live, if_pos preamble, decodePreamble]
  have short : ¬(s.preamble ++ [s.pulseType pulse.width]).length = 4 := by
    rw [length_append, length_singleton]
    omega
  simp only [if_neg short]

variable (pulse) in
theorem live_last (preamble : s.state = .decodePreamble) (three : s.preamble.length = 3) :
    s.live pulse =
      { ({ s with preamble := s.preamble ++ [s.pulseType pulse.width] } : SpdifState).putPreamble
          (s.preamble ++ [s.pulseType pulse.width]) pulse.samplenum with
        bitcount := 0
        firstOne := true
        state := .decodeStream } := by
  rw [live, if_pos preamble, decodePreamble]
  have four : (s.preamble ++ [s.pulseType pulse.width]).length = 4 := by
    rw [length_append, length_singleton, three]
  simp only [if_pos four]

theorem live_bit (stream : s.state = .decodeStream) (seen : s.seenPreamble = true) :
    s.live pulse = if (s.streamBit pulse).bitcount = 28 then
      { (s.streamBit pulse).emitSubframe with
        bitcount := 0, seenPreamble := false, firstOne := true }
    else s.streamBit pulse := by
  rw [live, if_neg (by rw [stream]; decide), decodeStream, if_pos seen]

end SpdifState

theorem SpdifSame.live {t u : SpdifState} (same : SpdifSame t u) (pulse : SpdifPulse) :
    SpdifSame (t.live pulse) (u.live pulse) := by
  obtain ⟨range1, range2, state, preamble, seenPreamble, bitcount, firstOne, subframe, anns⟩ := same
  have type := pulseType_congr range1 range2 pulse.width
  by_cases inPreamble : u.state = .decodePreamble
  · obtain ⟨pulses, ssEdge⟩ := preamble inPreamble
    rw [SpdifState.live, SpdifState.live, if_pos inPreamble, if_pos (state.trans inPreamble),
      decodePreamble, decodePreamble, pulses, type]
    split
    · constructor <;> simp [putPreamble, put, *]
    · constructor <;> simp [*]
  · rw [SpdifState.live, SpdifState.live, if_neg inPreamble, if_neg (by rw [state]; exact inPreamble),
      decodeStream, decodeStream, seenPreamble, type]
    by_cases seen : u.seenPreamble = true
    · have bit : SpdifSame (t.streamBit pulse) (u.streamBit pulse) := by
        rw [streamBit, streamBit, type, firstOne, subframe, bitcount]
        split
        · constructor <;> simp [*]
        · split
          · constructor <;> simp [put, *]
          · constructor <;> simp [put, *]
      rw [if_pos seen, if_pos seen]
      simp only [bit.bitcount]
      have still : (u.streamBit pulse).state = u.state := by
        rw [streamBit]
        split
        · rfl
        · split
          · rfl
          · rfl
      split
      · constructor <;> simp [emitSubframe, bit.range1, bit.range2, bit.state, bit.subframe,
          bit.anns, still, inPreamble]
      · exact bit
    · rw [if_neg seen, if_neg seen]
      split
      · constructor <;> simp [*]
      · exact ⟨range1, range2, state, preamble, seenPreamble, bitcount, firstOne, subframe, anns⟩

theorem SpdifSame.foldl_live {t u : SpdifState} (same : SpdifSame t u) (pulses : List SpdifPulse) :
    SpdifSame (pulses.foldl SpdifState.live t) (pulses.foldl SpdifState.live u) := by
  induction pulses generalizing t u with
  | nil => exact same
  | cons pulse pulses ih => exact ih (same.live pulse)

section Preamble

variable {s u : SpdifState} {quiet rest : List SpdifPulse} {a b c d : SpdifPulse}

theorem recheckPreambleLoop_quiet (none : ∀ pulse ∈ quiet, s.pulseType pulse.width ≠ 2) :
    recheckPreambleLoop s [] quiet =
      ({ s with state := .decodePreamble, preamble := [], buffer := [] }, false) := by
  induction quiet with
  | nil => rfl
  | cons pulse quiet ih =>
      obtain ⟨here, later⟩ := forall_mem_cons.mp none
      rw [recheckPreambleLoop]
      simp only [if_neg here, if_true]
      exact ih later

theorem recheckPreambleLoop_long (none : ∀ pulse ∈ quiet, s.pulseType pulse.width ≠ 2)
    (long : s.pulseType a.width = 2) :
    recheckPreambleLoop s [] (quiet ++ a :: rest) =
      recheckPreambleLoop { s with ssEdge := a.start } [2] rest := by
  induction quiet with
  | nil =>
      rw [nil_append, recheckPreambleLoop]
      simp only [long, if_true]
  | cons pulse quiet ih =>
      obtain ⟨here, later⟩ := forall_mem_cons.mp none
      rw [cons_append, recheckPreambleLoop]
      simp only [if_neg here, if_true]
      exact ih later

def SpdifState.behindPreamble (s : SpdifState) (ssEdge : Nat) (types : List Int)
    (samplenum : Nat) (rest : List SpdifPulse) : SpdifState :=
  { ({ s with ssEdge } : SpdifState).putPreamble types samplenum with
    bitcount := 0, firstOne := true, buffer := rest }

theorem recheckPreambleLoop_whole {ssEdge : Nat} :
    recheckPreambleLoop { s with ssEdge } [2] (b :: c :: d :: rest) =
      let after := s.behindPreamble ssEdge
        [2, s.pulseType b.width, s.pulseType c.width, s.pulseType d.width] d.samplenum rest
      if rest = [] then ({ after with state := .decodeStream }, false) else (after, true) := by
  rfl

theorem foldl_live_quiet (stream : u.state = .decodeStream) (unseen : u.seenPreamble = false)
    (none : ∀ pulse ∈ quiet, u.pulseType pulse.width ≠ 2) :
    quiet.foldl SpdifState.live u = u := by
  induction quiet with
  | nil => rfl
  | cons pulse quiet ih =>
      obtain ⟨here, later⟩ := forall_mem_cons.mp none
      rw [foldl_cons, live_quiet stream unseen here]
      exact ih later

def SpdifState.inPreamble (u : SpdifState) (types : List Int) (ssEdge : Nat) : SpdifState :=
  { u with preamble := types, state := .decodePreamble, ssEdge }

theorem live_inPreamble (types : List Int) (ssEdge : Nat) (few : types.length ≠ 3) :
    (u.inPreamble types ssEdge).live b = u.inPreamble (types ++ [u.pulseType b.width]) ssEdge :=
  live_more rfl few

theorem live_preamble (stream : u.state = .decodeStream) (unseen : u.seenPreamble = false)
    (long : u.pulseType a.width = 2) :
    (((u.live a).live b).live c).live d =
      let types := [2, u.pulseType b.width, u.pulseType c.width, u.pulseType d.width]
      { (u.inPreamble types a.start).putPreamble types d.samplenum with
        bitcount := 0, firstOne := true, state := .decodeStream } := by
  have first : u.live a = u.inPreamble [2] a.start := live_long _ stream unseen long
  have second := live_inPreamble (u := u) (b := b) [2] a.start (by decide)
  have third := live_inPreamble (u := u) (b := c) [2, u.pulseType b.width] a.start (by simp)
  rw [first, second]
  simp only [cons_append, nil_append]
  rw [third]
  simp only [cons_append, nil_append]
  exact live_last _ rfl rfl

variable (rest) in
theorem SpdifApart.preamble {first : Bool} {name : SpdifPreamble} (apart : SpdifApart first s u)
    (none : ∀ pulse ∈ quiet, s.pulseType pulse.width ≠ 2)
    (start : SpdifStart (fun pulse => s.pulseType (SpdifPulse.width pulse)) name a b c d) :
    ∃ after, SpdifAligned (decide (name ≠ .unknown)) after
        ((quiet ++ [a, b, c, d]).foldl SpdifState.live u) ∧ after.buffer = rest ∧
      after.range1 = s.range1 ∧ after.range2 = s.range2 ∧
      recheckPreambleLoop s [] (quiet ++ a :: b :: c :: d :: rest) =
        if rest = [] then ({ after with state := .decodeStream }, false) else (after, true) := by
  have type := fun width => pulseType_congr apart.range1 apart.range2 width
  have long : s.pulseType a.width = 2 := start.long
  have named : spdifPreamble [2, s.pulseType b.width, s.pulseType c.width, s.pulseType d.width] =
      name := by
    rw [← long]
    exact start.name
  have none_live : ∀ pulse ∈ quiet, u.pulseType pulse.width ≠ 2 := fun pulse member => by
    rw [← type]
    exact none pulse member
  rw [foldl_append, foldl_live_quiet apart.stream apart.unseen_live none_live]
  simp only [foldl_cons, foldl_nil]
  rw [live_preamble apart.stream apart.unseen_live (by rw [← type]; exact long),
    recheckPreambleLoop_long none long, recheckPreambleLoop_whole]
  simp only [← type]
  refine ⟨s.behindPreamble _ _ _ _, ⟨apart.range1, apart.range2, rfl, ?_, ?_, rfl, rfl, rfl, rfl,
    apart.subframe, apart.size, ?_⟩, rfl, rfl, rfl, rfl⟩
  · show (s.seenPreamble || decide (spdifPreamble _ ≠ .unknown)) = _
    rw [apart.unseen, Bool.false_or, named]
  · show (u.seenPreamble || decide (spdifPreamble _ ≠ .unknown)) = _
    rw [apart.unseen_live, Bool.false_or, named]
  · show s.anns ++ [_] = u.anns ++ [_]
    rw [apart.anns]
    rfl

end Preamble

/-! ## Subframes -/

section Subframe

variable {stack : List SpdifPulse → List SpdifEntry} {s u : SpdifState} {temp : List SpdifEntry}
  {bitcount known : Nat} {whole : Bool} {pulse : SpdifPulse} {rest : List SpdifPulse}

def SpdifState.replayed (s : SpdifState) (temp : List SpdifEntry) (rest : List SpdifPulse) :
    SpdifState :=
  { ({ s with subframe := temp, bitcount := 28 } : SpdifState).emitSubframe with
    seenPreamble := false
    buffer := rest }

theorem SpdifAligned.tracks (aligned : SpdifAligned true s u) (size_temp : temp.length = 28) :
    SpdifTracks s temp 0 0 true u :=
  { aligned with
      begun := Nat.le_refl 0
      small := by omega
      size_temp := size_temp
      subframe := aligned.subframe.symm }

theorem written (front : List SpdifEntry) (size_temp : temp.length = 28)
    (size : s.subframe.length = 28) (begun : bitcount ≤ known) (near : known ≤ bitcount + 1)
    (inside : bitcount < 28) (entry : SpdifEntry)
    (parts : front = temp.take known ++ s.subframe.drop known) :
    front.set bitcount entry =
      (temp.set bitcount entry).take (bitcount + 1) ++ s.subframe.drop (bitcount + 1) := by
  rw [parts]
  apply ext_getElem
  · simp only [length_set, length_append, length_take, length_drop]
    omega
  · intro i inLeft inRight
    simp only [getElem_set, getElem_append, getElem_take, getElem_drop, length_take, length_set]
    split
    · rw [dif_pos (by omega)]
    · split
      · rw [dif_pos (by omega)]
      · rw [dif_neg (by omega)]
        congr 1
        omega

/-- The entry of a bit that ends with `pulse`. -/
def SpdifState.bitEntry (s : SpdifState) (entries : List SpdifEntry) (bitcount : Nat)
    (pulse : SpdifPulse) : SpdifEntry :=
  if s.pulseType pulse.width = 1 then { entry entries bitcount with es := pulse.samplenum }
  else ⟨s.pulseType pulse.width, pulse.start, pulse.samplenum⟩

def SpdifState.putBit (s : SpdifState) (entries : List SpdifEntry) (bitcount : Nat)
    (pulse : SpdifPulse) : SpdifState :=
  s.put (s.bitEntry entries bitcount pulse).ss pulse.samplenum
    (.bit (decide (s.pulseType pulse.width = 1)))

theorem entry_set_ss (entries : List SpdifEntry) (i es : Nat) :
    (entry (entries.set i { entry entries i with es }) i).ss = (entry entries i).ss := by
  rcases Nat.lt_or_ge i entries.length with inside | outside
  · rw [entry, getD_eq_getElem?_getD, getElem?_set_self inside]
    rfl
  · rw [set_eq_of_length_le outside]

theorem recheckStreamLoop_half (short : s.pulseType pulse.width = 1) :
    recheckStreamLoop s temp bitcount true (pulse :: rest) =
      recheckStreamLoop s (temp.set bitcount ⟨1, pulse.start, pulse.samplenum⟩) bitcount false
        rest := by
  rw [recheckStreamLoop]
  simp only [short, and_self, if_true]

variable (temp bitcount rest) in
theorem recheckStreamLoop_bit (ends : ¬(s.pulseType pulse.width = 1 ∧ whole = true)) :
    recheckStreamLoop s temp bitcount whole (pulse :: rest) =
      let entries := temp.set bitcount (s.bitEntry temp bitcount pulse)
      let next := s.putBit temp bitcount pulse
      if bitcount + 1 = 28 then
        if rest = [] then ({ next.replayed entries rest with state := .decodeStream }, false)
        else (next.replayed entries rest, true)
      else
        recheckStreamLoop next entries (bitcount + 1)
          (whole || decide (s.pulseType pulse.width = 1)) rest := by
  rw [recheckStreamLoop]
  simp only [if_neg ends]
  by_cases one : s.pulseType pulse.width = 1
  · simp only [SpdifState.bitEntry, putBit, replayed, one, if_true, entry_set_ss]
    rfl
  · simp only [SpdifState.bitEntry, putBit, replayed, one, if_false]
    rfl

theorem streamBit_half (short : u.pulseType pulse.width = 1) (first : u.firstOne = true) :
    u.streamBit pulse =
      { u with
        firstOne := false
        subframe := u.subframe.set u.bitcount ⟨1, pulse.start, pulse.samplenum⟩ } := by
  rw [streamBit]
  simp only [short, first, and_self, if_true]

theorem streamBit_bit (ends : ¬(u.pulseType pulse.width = 1 ∧ u.firstOne = true)) :
    u.streamBit pulse =
      { u.putBit u.subframe u.bitcount pulse with
        subframe := u.subframe.set u.bitcount (u.bitEntry u.subframe u.bitcount pulse)
        bitcount := u.bitcount + 1
        firstOne := u.firstOne || decide (u.pulseType pulse.width = 1) } := by
  rw [streamBit]
  simp only [if_neg ends]
  by_cases one : u.pulseType pulse.width = 1
  · simp only [putBit, SpdifState.bitEntry, one, if_true, decide_true, Bool.or_true]
  · simp only [putBit, SpdifState.bitEntry, one, if_false, decide_false, Bool.or_false]
    rfl

theorem live_half (stream : u.state = .decodeStream) (seen : u.seenPreamble = true)
    (few : u.bitcount < 28) (short : u.pulseType pulse.width = 1) (first : u.firstOne = true) :
    u.live pulse =
      { u with
        firstOne := false
        subframe := u.subframe.set u.bitcount ⟨1, pulse.start, pulse.samplenum⟩ } := by
  rw [live_bit stream seen, streamBit_half short first]
  exact if_neg (Nat.ne_of_lt few)

theorem SpdifTracks.half (tracks : SpdifTracks s temp bitcount known true u)
    (near : known ≤ bitcount + 1) (inside : bitcount < 28) (short : s.pulseType pulse.width = 1) :
    SpdifTracks s (temp.set bitcount ⟨1, pulse.start, pulse.samplenum⟩) bitcount (bitcount + 1)
      false (u.live pulse) := by
  have short_live : u.pulseType pulse.width = 1 :=
    (pulseType_congr tracks.range1 tracks.range2 _).symm.trans short
  rw [live_half tracks.stream tracks.seen_live (by rw [tracks.bitcount_live]; exact inside)
    short_live tracks.firstOne_live]
  refine { tracks with
      firstOne_live := rfl
      begun := Nat.le_succ _
      small := inside
      size_temp := (length_set ..).trans tracks.size_temp
      subframe := ?_ }
  show u.subframe.set u.bitcount _ = _
  rw [tracks.bitcount_live]
  exact written _ tracks.size_temp tracks.size tracks.begun near inside _ tracks.subframe

theorem SpdifTracks.bitEntry (tracks : SpdifTracks s temp bitcount known whole u)
    (begun : s.pulseType pulse.width = 1 → bitcount < known) :
    u.bitEntry u.subframe bitcount pulse = s.bitEntry temp bitcount pulse := by
  rw [SpdifState.bitEntry, SpdifState.bitEntry, pulseType_congr tracks.range1 tracks.range2]
  split
  next one =>
    have inside := begun ((pulseType_congr tracks.range1 tracks.range2 _).trans one)
    have same : entry u.subframe bitcount = entry temp bitcount := by
      have small := tracks.small
      have size := tracks.size_temp
      have within : bitcount < (temp.take known).length := by
        rw [length_take]
        omega
      rw [entry, entry, tracks.subframe, getD_eq_getElem?_getD,
        getElem?_append_left within, getElem?_take_of_lt inside,
        getD_eq_getElem?_getD]
    rw [same]
  next => rfl

theorem SpdifTracks.streamBit (tracks : SpdifTracks s temp bitcount known whole u)
    (near : known ≤ bitcount + 1) (inside : bitcount < 28)
    (ends : ¬(s.pulseType pulse.width = 1 ∧ whole = true))
    (begun : s.pulseType pulse.width = 1 → bitcount < known) :
    SpdifTracks (s.putBit temp bitcount pulse)
      (temp.set bitcount (s.bitEntry temp bitcount pulse)) (bitcount + 1) (bitcount + 1)
      (whole || decide (s.pulseType pulse.width = 1)) (u.streamBit pulse) := by
  have type := pulseType_congr tracks.range1 tracks.range2 pulse.width
  have same := tracks.bitEntry begun
  rw [streamBit_bit (by rw [← type, tracks.firstOne_live]; exact ends)]
  refine ⟨tracks.range1, tracks.range2, tracks.stream, tracks.seen, tracks.seen_live,
    tracks.firstOne, ?_, ?_, Nat.le_refl _, inside, tracks.size,
    (length_set ..).trans tracks.size_temp, ?_, ?_⟩
  · show (u.firstOne || decide (u.pulseType pulse.width = 1)) = _
    rw [tracks.firstOne_live, type]
  · show u.bitcount + 1 = bitcount + 1
    rw [tracks.bitcount_live]
  · show u.subframe.set u.bitcount (u.bitEntry u.subframe u.bitcount pulse) = _
    rw [tracks.bitcount_live, same]
    exact written _ tracks.size_temp tracks.size tracks.begun near inside _ tracks.subframe
  · show s.anns ++ [_] = u.anns ++ [_]
    rw [tracks.anns, tracks.bitcount_live, same, type]

theorem SpdifTracks.bit (tracks : SpdifTracks s temp bitcount known whole u)
    (near : known ≤ bitcount + 1) (inside : bitcount + 1 < 28)
    (ends : ¬(s.pulseType pulse.width = 1 ∧ whole = true))
    (begun : s.pulseType pulse.width = 1 → bitcount < known) :
    SpdifTracks (s.putBit temp bitcount pulse)
      (temp.set bitcount (s.bitEntry temp bitcount pulse)) (bitcount + 1) (bitcount + 1)
      (whole || decide (s.pulseType pulse.width = 1)) (u.live pulse) := by
  have bit := tracks.streamBit near (by omega) ends begun
  rw [live_bit tracks.stream tracks.seen_live, if_neg (by rw [bit.bitcount_live]; omega)]
  exact bit

theorem SpdifTracks.last (tracks : SpdifTracks s temp bitcount known whole u)
    (near : known ≤ bitcount + 1) (full : bitcount + 1 = 28)
    (ends : ¬(s.pulseType pulse.width = 1 ∧ whole = true))
    (begun : s.pulseType pulse.width = 1 → bitcount < known) (rest : List SpdifPulse) :
    SpdifApart false ((s.putBit temp bitcount pulse).replayed
      (temp.set bitcount (s.bitEntry temp bitcount pulse)) rest) (u.live pulse) := by
  have bit := tracks.streamBit near (by omega) ends begun
  rw [live_bit tracks.stream tracks.seen_live, if_pos (by rw [bit.bitcount_live]; exact full)]
  have whole : (u.streamBit pulse).subframe = temp.set bitcount (s.bitEntry temp bitcount pulse) := by
    have size := tracks.size
    have size_temp := bit.size_temp
    rw [bit.subframe, full, take_of_length_le (by omega),
      drop_of_length_le (by show s.subframe.length ≤ 28; omega), List.append_nil]
  refine ⟨bit.range1, bit.range2, bit.stream, rfl, rfl, bit.firstOne, rfl, rfl, rfl, whole.symm,
    bit.size_temp, ?_⟩
  rw [replayed, emitSubframe, emitSubframe]
  simp only [whole, bit.anns]

/-- What the pulses of some bits do: the subframe goes on, or it has all its bits. -/
structure SpdifReplays (s : SpdifState) (temp : List SpdifEntry) (bitcount : Nat) (whole : Bool)
    (pulses : List SpdifPulse) (live : SpdifState) (total : Nat) (last : Bool) : Prop where
  part : total < 28 → ∃ next entries, SpdifTracks next entries total total last live ∧
    next.range1 = s.range1 ∧ next.range2 = s.range2 ∧ entries.drop total = temp.drop total ∧
    ∀ rest, recheckStreamLoop s temp bitcount whole (pulses ++ rest) =
      recheckStreamLoop next entries total last rest
  full : total = 28 → ∀ rest, ∃ next, SpdifApart false next live ∧ next.buffer = rest ∧
    next.range1 = s.range1 ∧ next.range2 = s.range2 ∧
    recheckStreamLoop s temp bitcount whole (pulses ++ rest) =
      if rest = [] then ({ next with state := .decodeStream }, false) else (next, true)

variable {pulses : List SpdifPulse}

theorem SpdifReplays.cons {t live : SpdifState} {entries : List SpdifEntry}
    {count total : Nat} {kept last : Bool}
    (replays : SpdifReplays t entries count kept pulses live total last)
    (range1 : t.range1 = s.range1) (range2 : t.range2 = s.range2)
    (below : entries.drop total = temp.drop total)
    (step : ∀ rest, recheckStreamLoop s temp bitcount whole (pulse :: rest) =
      recheckStreamLoop t entries count kept rest) :
    SpdifReplays s temp bitcount whole (pulse :: pulses) live total last where
  part more := by
    obtain ⟨next, after, tracks, same1, same2, kept, run⟩ := replays.part more
    exact ⟨next, after, tracks, same1.trans range1, same2.trans range2, kept.trans below,
      fun rest => (step _).trans (run rest)⟩
  full whole rest := by
    obtain ⟨next, apart, buffer, same1, same2, run⟩ := replays.full whole rest
    exact ⟨next, apart, buffer, same1.trans range1, same2.trans range2, (step _).trans run⟩

theorem SpdifTracks.replays_nil (tracks : SpdifTracks s temp bitcount bitcount whole u)
    (inside : bitcount < 28) : SpdifReplays s temp bitcount whole [] u bitcount whole where
  part _ := ⟨s, temp, tracks, rfl, rfl, rfl, fun _ => rfl⟩
  full full := by omega

theorem SpdifTracks.replays_cons {total : Nat} {last : Bool}
    (tracks : SpdifTracks s temp bitcount known whole u) (near : known ≤ bitcount + 1)
    (inside : bitcount < 28) (ends : ¬(s.pulseType pulse.width = 1 ∧ whole = true))
    (begun : s.pulseType pulse.width = 1 → bitcount < known)
    (more : bitcount + 1 ≤ total) (bound : total ≤ 28)
    (none : total = bitcount + 1 → pulses = [] ∧
      last = (whole || decide (s.pulseType pulse.width = 1)))
    (replays : bitcount + 1 < total → ∀ next entries live, next.range1 = s.range1 →
      next.range2 = s.range2 →
      SpdifTracks next entries (bitcount + 1) (bitcount + 1)
        (whole || decide (s.pulseType pulse.width = 1)) live →
      SpdifReplays next entries (bitcount + 1) (whole || decide (s.pulseType pulse.width = 1))
        pulses (pulses.foldl SpdifState.live live) total last) :
    SpdifReplays s temp bitcount whole (pulse :: pulses)
      ((pulse :: pulses).foldl SpdifState.live u) total last := by
  have step := fun rest => recheckStreamLoop_bit temp bitcount rest ends
  rcases Nat.lt_or_ge (bitcount + 1) 28 with less | enough
  · simp only [if_neg (show ¬bitcount + 1 = 28 by omega)] at step
    have bit := tracks.bit near less ends begun
    have after : SpdifReplays (s.putBit temp bitcount pulse)
        (temp.set bitcount (s.bitEntry temp bitcount pulse)) (bitcount + 1)
        (whole || decide (s.pulseType pulse.width = 1)) pulses
        (pulses.foldl SpdifState.live (u.live pulse)) total last := by
      rcases Nat.lt_or_ge (bitcount + 1) total with further | here
      · exact replays further _ _ _ rfl rfl bit
      · obtain ⟨empty, same⟩ := none (by omega)
        have total_eq : total = bitcount + 1 := by omega
        rw [empty, same, total_eq]
        exact bit.replays_nil less
    refine after.cons rfl rfl ?_ step
    rw [drop_set_of_lt (by omega)]
  · have full : bitcount + 1 = 28 := by omega
    have total_eq : total = bitcount + 1 := by omega
    obtain ⟨empty, -⟩ := none total_eq
    simp only [if_pos full] at step
    refine ⟨fun few => by omega, fun _ rest => ?_⟩
    rw [empty]
    exact ⟨_, tracks.last near full ends begun rest, rfl, rfl, rfl, step rest⟩

theorem SpdifTracks.replays_long
    (tracks : SpdifTracks s temp bitcount known whole u) (near : known ≤ bitcount + 1)
    (inside : bitcount < 28) (long : ∀ pulse ∈ pulses, s.pulseType pulse.width ≠ 1)
    (some : pulses ≠ []) (bound : bitcount + pulses.length ≤ 28) :
    SpdifReplays s temp bitcount whole pulses (pulses.foldl SpdifState.live u)
      (bitcount + pulses.length) whole := by
  induction pulses generalizing s temp bitcount known u with
  | nil => exact absurd rfl some
  | cons pulse pulses ih =>
      obtain ⟨here, later⟩ := forall_mem_cons.mp long
      have length : (pulse :: pulses).length = pulses.length + 1 := rfl
      have whole_eq : (whole || decide (s.pulseType pulse.width = 1)) = whole := by
        rw [decide_eq_false here, Bool.or_false]
      rw [length] at bound ⊢
      refine tracks.replays_cons near inside (fun both => here both.1) (fun one => absurd one here)
        (by omega) bound (fun end_ => ⟨eq_nil_of_length_eq_zero (by omega), whole_eq.symm⟩) ?_
      intro further next entries live range1 range2 bit
      rw [whole_eq] at bit ⊢
      have later_next : ∀ pulse ∈ pulses, next.pulseType pulse.width ≠ 1 := fun pulse member => by
        rw [pulseType_congr range1 range2]
        exact later pulse member
      have after := ih bit (Nat.le_succ _) (by omega) later_next
        (fun empty => by rw [empty] at further; simp at further) (by omega)
      rw [show bitcount + 1 + pulses.length = bitcount + (pulses.length + 1) by omega] at after
      exact after

theorem SpdifBits.replays {range1 range2 : Nat} {lone : Bool} {count : Nat}
    (bits : SpdifBits (fun pulse => spdifPulseType range1 range2 (SpdifPulse.width pulse)) lone
      count pulses)
    (same1 : s.range1 = range1) (same2 : s.range2 = range2)
    (tracks : SpdifTracks s temp bitcount bitcount true u) (inside : bitcount < 28)
    (bound : bitcount + count ≤ 28) :
    SpdifReplays s temp bitcount true pulses (pulses.foldl SpdifState.live u) (bitcount + count)
      (!lone) := by
  induction bits generalizing s temp bitcount u with
  | nil => exact tracks.replays_nil inside
  | @zero lone count pulse pulses long bits ih =>
      have long : s.pulseType pulse.width ≠ 1 := by
        rw [SpdifState.pulseType, same1, same2]
        exact long
      refine tracks.replays_cons (Nat.le_succ _) inside (fun both => long both.1)
        (fun one => absurd one long) (by omega) bound (fun end_ => ?_) ?_
      · have zero : count = 0 := by omega
        subst zero
        cases bits
        exact ⟨rfl, rfl⟩
      · intro further next entries live next1 next2 bit
        rw [Bool.true_or] at bit ⊢
        have after := ih (next1.trans same1) (next2.trans same2) bit (by omega)
          (by omega)
        rw [show bitcount + 1 + count = bitcount + (count + 1) by omega] at after
        exact after
  | @one lone count first second pulses short pair bits ih =>
      have short : s.pulseType first.width = 1 := by
        rw [SpdifState.pulseType, same1, same2]
        exact short
      have pair : s.pulseType second.width = 1 := by
        rw [SpdifState.pulseType, same1, same2]
        exact pair
      have half := tracks.half (Nat.le_succ _) inside short
      refine SpdifReplays.cons ?_ rfl rfl ?_ fun rest => recheckStreamLoop_half short
      · refine half.replays_cons (Nat.le_refl _) inside (fun both => Bool.noConfusion both.2)
          (fun _ => Nat.lt_succ_self _) (by omega) bound (fun end_ => ?_) ?_
        · have zero : count = 0 := by omega
          subst zero
          cases bits
          rw [decide_eq_true pair]
          exact ⟨rfl, rfl⟩
        · intro further next entries live next1 next2 bit
          rw [decide_eq_true pair] at bit ⊢
          have after := ih (next1.trans same1) (next2.trans same2) bit (by omega)
            (by omega)
          rw [show bitcount + 1 + count = bitcount + (count + 1) by omega] at after
          exact after
      · rw [drop_set_of_lt (by omega)]
  | @alone short pulse pulses first long others =>
      have first : s.pulseType short.width = 1 := by
        rw [SpdifState.pulseType, same1, same2]
        exact first
      have half := tracks.half (Nat.le_succ _) inside first
      have long : ∀ other ∈ pulse :: pulses, s.pulseType other.width ≠ 1 := by
        intro other member
        rw [SpdifState.pulseType, same1, same2]
        rcases mem_cons.mp member with here | later
        · rw [here]
          exact long
        · exact others other later
      refine SpdifReplays.cons ?_ rfl rfl ?_ fun rest => recheckStreamLoop_half first
      · exact half.replays_long (Nat.le_refl _) inside long (cons_ne_nil _ _) bound
      · rw [drop_set_of_lt (by omega)]

end Subframe

end SigrokDecode
