import SigrokDecode.Instance.ZeroSkips

/-!
# Runs with zero skips

Where zero skips do no harm in any call of `find_match`, the samples that a run reports never go
back, and every bit is that of a condition that holds at the reported sample.
-/

set_option linter.dupNamespace false

namespace SigrokDecode

namespace SrdDecoderInst

variable {kind : WorkerKind} {stream : SampleStream} {start stop : Nat} {initial : Nat → UInt8}
variable {call samplenum : Nat} {chunks : List SampleChunk} {waits : List (List Condition)}
variable {conds : List Condition} {di after : SrdDecoderInst}

/-- The conditions of the wait that is under way, apart from the counters. -/
def Listed (conds : List Condition) (waits : List (List Condition)) (di : SrdDecoderInst) : Prop :=
  ∀ wait rest, waits = wait :: rest →
    condShapes di.conditionList = condShapes (waitConds conds wait)

/-- The waits as the front ends build them. -/
structure Sound (count : Nat) (waits : List (List Condition)) : Prop where
  fresh : ∀ wait ∈ waits, Fresh wait
  channels : ∀ wait ∈ waits, ChannelsIn count wait

theorem Sound.rest {count : Nat} {wait : List Condition} (sound : Sound count (wait :: waits)) :
    Sound count waits where
  fresh other member := sound.fresh other (List.mem_cons_of_mem _ member)
  channels other member := sound.channels other (List.mem_cons_of_mem _ member)

theorem Fresh.bounded (fresh : Fresh conds) : ∀ cond ∈ conds, Bounded cond := by
  intro cond member term inCond _
  rw [fresh cond member term inCond]
  exact Nat.zero_le _

theorem Fresh.counts (fresh : Fresh conds) : Counts samplenum samplenum conds := by
  intro cond member term inCond _
  rw [fresh cond member term inCond]
  exact Nat.le_refl _

theorem counts_of_null (none : di.haveNonNullConds = false) :
    Counts call samplenum di.conditionList := by
  intro cond member term inCond
  unfold haveNonNullConds at none
  have null := List.any_eq_false.mp none cond member
  rw [bne_iff_ne, ne_eq, not_not] at null
  rw [null] at inCond
  cases inCond

theorem nextWait_list (di : SrdDecoderInst) (waits : List (List Condition)) :
    (di.nextWait waits).conditionList =
      match waits with
      | [] => di.conditionList
      | wait :: _ => waitConds di.conditionList wait := by
  cases waits with
  | nil => rfl
  | cons wait rest =>
      unfold nextWait startWait waitConds
      dsimp only
      split
      · rfl
      · rfl

theorem nextWait_eq (di : SrdDecoderInst) (waits : List (List Condition)) :
    di.nextWait waits = di.withConds (di.nextWait waits).conditionList := by
  cases waits with
  | nil => rfl
  | cons wait rest =>
      unfold nextWait startWait
      dsimp only
      split
      · rfl
      · rfl

theorem nextWait_listed (list : condShapes di.conditionList = condShapes conds) :
    Listed conds waits (di.nextWait waits) := by
  rintro wait rest rfl
  rw [nextWait_list]
  dsimp only
  unfold waitConds
  split
  · exact list
  · rfl

theorem afterMatch_state (kind : WorkerKind) (di : SrdDecoderInst) :
    (afterMatch kind di).absCurSamplenum = di.absCurSamplenum ∧
      (afterMatch kind di).absCurMatched = di.absCurMatched ∧
      (afterMatch kind di).skipZero = di.skipZero ∧
      (afterMatch kind di).conditionList = di.conditionList := by
  have state := afterMatch_scan kind di
  have position := congrArg ScanState.absCurSamplenum state
  have matched := congrArg ScanState.absCurMatched state
  have mark := congrArg ScanState.skipZero state
  have list := congrArg ScanState.conditionList state
  cases kind with
  | cDecoder => exact ⟨position, matched, mark, list⟩
  | pythonDecoder => exact ⟨rfl, rfl, rfl, rfl⟩

theorem nextWait_sound {count : Nat} (bounded : ∀ cond ∈ di.conditionList, Bounded cond)
    (counts : di.absCurMatched = false → Counts samplenum samplenum di.conditionList)
    (channels : ChannelsIn count di.conditionList) (sound : Sound count waits) :
    (∀ cond ∈ (di.nextWait waits).conditionList, Bounded cond) ∧ (di.absCurMatched = false →
        Counts samplenum samplenum (di.nextWait waits).conditionList) ∧
      ChannelsIn count (di.nextWait waits).conditionList := by
  rw [nextWait_list]
  cases waits with
  | nil => exact ⟨bounded, counts, channels⟩
  | cons wait rest =>
      have fresh := sound.fresh wait List.mem_cons_self
      dsimp only
      unfold waitConds
      split
      · exact ⟨bounded, counts, channels⟩
      · exact ⟨fresh.bounded, fun _ => fresh.counts, sound.channels wait List.mem_cons_self⟩

theorem Told.asked (told : Told stream start initial call di (true, after))
    (asked : Asked stream start call di) (frame : after.frame = di.frame)
    (sound : Sound di.decNumChannels waits) (kind : WorkerKind) :
    Asked stream start after.absCurSamplenum ((afterMatch kind after).nextWait waits) := by
  obtain ⟨position, matched, mark, list⟩ := afterMatch_state kind after
  have same : SameChunk ((afterMatch kind after).nextWait waits) di :=
    ((nextWait_sameChunk _ waits).trans (afterMatch_sameChunk kind after)).trans
      (sameChunk_of_frame frame)
  have channelCount : ((afterMatch kind after).nextWait waits).decNumChannels = di.decNumChannels :=
    congrArg List.length same.decChannelmap
  obtain ⟨-, inside, -⟩ := told.found rfl
  obtain ⟨bounded, counts, channels⟩ :=
    @nextWait_sound after.absCurSamplenum waits (afterMatch kind after) di.decNumChannels
      (by rw [list]; exact told.bounded)
      (fun unmatched => by
        rw [list]
        exact counts_of_null (told.again rfl (matched.symm.trans unmatched)))
      (by rw [list]; exact channelsIn_of_shapes told.shapes.symm asked.channels) sound
  have here : ((afterMatch kind after).nextWait waits).absCurSamplenum =
      after.absCurSamplenum := (nextWait_position _ waits).trans position
  constructor
  case holds =>
      intro other within ch
      rw [same.inChunk_eq] at within
      rw [same.sampleAt_eq]
      exact asked.holds other within ch
  case begun =>
      rw [same.absStartSamplenum]
      exact asked.begun
  case atSample =>
      constructor
      · rw [same.inChunk_eq, here]
        exact inside
      · rw [same.absEndSamplenum]
        exact asked.atSample.fits
  case called => exact Nat.le_of_eq here.symm
  case idle =>
      rw [nextWait_eq]
      exact mark.trans told.idle
  case bounded => exact bounded
  case counts =>
      intro unmatched
      rw [here]
      rw [nextWait_eq] at unmatched
      exact counts unmatched
  case channels =>
      rw [channelCount]
      exact channels

def resumesAt (start : Nat) (di : SrdDecoderInst) : Nat :=
  if di.firstPos then start else di.absCurSamplenum

/-- A wait was called at a sample, and goes on with the next chunk. -/
structure Rested (start call : Nat) (di : SrdDecoderInst) : Prop where
  called : call ≤ di.resumesAt start
  idle : di.skipZero = false
  bounded : ∀ cond ∈ di.conditionList, Bounded cond
  counts : di.absCurMatched = false → Counts call (di.resumesAt start) di.conditionList
  channels : ChannelsIn di.decNumChannels di.conditionList

theorem Told.rested (told : Told stream start initial call di (false, after))
    (asked : Asked stream start call di) (begun : after.firstPos = false)
    (frame : after.frame = di.frame) : Rested start call after.releaseChunk := by
  obtain ⟨position, counts⟩ := told.usedUp rfl
  have resumes : after.releaseChunk.resumesAt start = di.absEndSamplenum := by
    unfold resumesAt
    rw [if_neg (by
      change ¬after.firstPos = true
      rw [begun]
      exact Bool.false_ne_true)]
    exact position
  constructor
  case called =>
      rw [resumes]
      exact Nat.le_trans asked.called (Nat.le_of_lt asked.atSample.inChunk.2)
  case idle => exact told.idle
  case bounded => exact told.bounded
  case counts =>
      rw [resumes]
      exact counts
  case channels =>
      have channels := channelsIn_of_shapes told.shapes.symm asked.channels
      rwa [← decNumChannels_of_frame frame] at channels

theorem Rested.asked {chunk : SampleChunk} {held : SrdDecoderInst}
    (rested : Rested start call di) (fits : stop < 2 ^ 64)
    (waiting : Waiting stream start stop (chunk :: chunks) di)
    (accepted : di.srdInstDecodeHandOver chunk = (.ok, held)) :
    Loaded stream start stop chunks held ∧ Asked stream start call held ∧
      held.conditionList = di.conditionList ∧ held.decNumChannels = di.decNumChannels := by
  obtain ⟨loaded, -⟩ := waiting.handOver accepted
  obtain ⟨inside, mark, list⟩ := waiting.handOver_inside accepted
  obtain ⟨result, first⟩ := handOver_accepted accepted
  have resumes : held.absCurSamplenum = di.resumesAt start := by
    obtain ⟨boundary, -, atStart, begins, -⟩ := waiting.rest
    rw [result]
    change (di.seekFirst chunk).absCurSamplenum = _
    unfold seekFirst resumesAt
    split
    · rename_i before
      exact begins.trans (atStart before)
    · rfl
  have kept : held.absCurMatched = di.absCurMatched ∧ held.decNumChannels = di.decNumChannels := by
    rw [result, seekFirst_eq_seek]
    exact ⟨rfl, rfl⟩
  refine ⟨loaded, ?_, list, kept.2⟩
  constructor
  case holds => exact loaded.holds
  case begun => exact loaded.lower
  case atSample => exact ⟨inside, Nat.lt_of_le_of_lt (consecutive_le loaded.rest) fits⟩
  case called =>
      rw [resumes]
      exact rested.called
  case idle => exact mark.trans rested.idle
  case bounded =>
      rw [list]
      exact rested.bounded
  case counts =>
      rw [resumes, list, kept.1]
      exact rested.counts
  case channels =>
      rw [list, kept.2]
      exact rested.channels

theorem reportsHold_nil : ReportsHold stream start initial call conds waits [] := by
  cases waits with
  | nil => trivial
  | cons wait rest => trivial

structure ServedTo (kind : WorkerKind) (stream : SampleStream) (start stop : Nat)
    (initial : Nat → UInt8) (chunks : List SampleChunk) (call : Nat) (conds : List Condition)
    (waits : List (List Condition)) (di : SrdDecoderInst) : Prop where
  apart : ServesAll MarksApart kind call waits di
  count : (serveWaits kind waits di).2.2.decNumChannels = di.decNumChannels
  sound : Sound di.decNumChannels (serveWaits kind waits di).2.1
  goesOn : ∃ later : List Condition,
    Listed later (serveWaits kind waits di).2.1 (serveWaits kind waits di).2.2 ∧ ∀ reports,
        ReportsHold stream start initial (lastCall call (serveWaits kind waits di).1) later
            (serveWaits kind waits di).2.1 reports →
          ReportsHold stream start initial call conds waits
            ((serveWaits kind waits di).1 ++ reports)
  rested : (serveWaits kind waits di).2.1 ≠ [] →
    Waiting stream start stop chunks (serveWaits kind waits di).2.2 ∧
      Rested start (lastCall call (serveWaits kind waits di).1) (serveWaits kind waits di).2.2

theorem serveWaits_to (loaded : Loaded stream start stop chunks di)
    (asked : Asked stream start call di) (list : Listed conds waits di)
    (sound : Sound di.decNumChannels waits)
    (harmless : ServesAll (ZeroSkipsHarmless stream start initial) kind call waits di) :
    ServedTo kind stream start stop initial chunks call conds waits di := by
  induction waits generalizing di call conds with
  | nil =>
      exact ⟨trivial, rfl, sound, ⟨conds, list, fun _ held => held⟩, fun some => absurd rfl some⟩
  | cons wait rest ih =>
      have frame := findMatch_frame di
      have region := waitRegion_eq kind loaded.running loaded.samples
      obtain ⟨told, apart⟩ := asked.findMatch (harmless.1 loaded.running)
      have harmlessLater := harmless.2
      cases found : di.findMatch.1 with
      | true =>
          have result : di.findMatch = (true, di.findMatch.2) := Prod.ext found rfl
          rw [found, if_pos rfl] at region
          rw [region] at harmlessLater
          rw [result] at told
          obtain ⟨later, -, bits⟩ := told.found rfl
          have same : SameChunk ((afterMatch kind di.findMatch.2).nextWait rest) di :=
            ((nextWait_sameChunk _ rest).trans (afterMatch_sameChunk kind _)).trans
              (sameChunk_of_frame frame)
          have count : ((afterMatch kind di.findMatch.2).nextWait rest).decNumChannels =
              di.decNumChannels := congrArg List.length same.decChannelmap
          have shapes : condShapes (afterMatch kind di.findMatch.2).conditionList =
              condShapes (waitConds conds wait) := by
            rw [(afterMatch_state kind di.findMatch.2).2.2.2]
            exact told.shapes.trans (list wait rest rfl)
          obtain ⟨apartLater, countLater, soundLater, ⟨others, listLater, heldLater⟩, rested⟩ :=
            ih (loaded.congr same) (told.asked asked frame sound.rest kind)
              (nextWait_listed shapes) (count ▸ sound.rest) harmlessLater
          have step : serveWaits kind (wait :: rest) di =
              ((di.findMatch.2.absCurSamplenum, di.findMatch.2.matchArray) ::
                  (serveWaits kind rest ((afterMatch kind di.findMatch.2).nextWait rest)).1,
                (serveWaits kind rest ((afterMatch kind di.findMatch.2).nextWait rest)).2) := by
            rw [serveWaits, region]
          have holds := bits.of_shapes (list wait rest rfl)
          constructor
          case apart =>
              refine ⟨fun _ => apart, ?_⟩
              rw [region]
              exact apartLater
          case count =>
              rw [step]
              exact countLater.trans count
          case sound =>
              rw [step, ← count]
              exact soundLater
          case goesOn =>
              rw [step]
              exact ⟨others, listLater, fun reports held =>
                ⟨later, holds, heldLater reports held⟩⟩
          case rested =>
              rw [step]
              exact rested
      | false =>
          have result : di.findMatch = (false, di.findMatch.2) := Prod.ext found rfl
          rw [found, if_neg Bool.false_ne_true] at region
          rw [result] at told
          have step : serveWaits kind (wait :: rest) di =
              ([], wait :: rest, di.findMatch.2.releaseChunk) := by
            rw [serveWaits, region]
          have count : di.findMatch.2.decNumChannels = di.decNumChannels :=
            decNumChannels_of_frame frame
          have shapes : Listed conds (wait :: rest) di.findMatch.2.releaseChunk := by
            rintro _ _ same
            exact told.shapes.trans (list _ _ same)
          constructor
          case apart =>
              refine ⟨fun _ => apart, ?_⟩
              rw [region]
              trivial
          case count =>
              rw [step]
              exact count
          case sound =>
              rw [step]
              exact sound
          case goesOn =>
              rw [step]
              exact ⟨conds, shapes, fun _ held => held⟩
          case rested =>
              rw [step]
              exact fun _ => ⟨loaded.usedUp found,
                told.rested asked (findMatch_usedUp_firstPos found) frame⟩

theorem decodeChunks_to (fits : stop < 2 ^ 64) (waiting : Waiting stream start stop chunks di)
    (rested : Rested start call di) (list : Listed conds waits di)
    (sound : Sound di.decNumChannels waits)
    (harmless : DecodesAll (ZeroSkipsHarmless stream start initial) kind chunks call waits di) :
    ReportsHold stream start initial call conds waits (decodeChunks kind chunks waits di) ∧
      DecodesAll MarksApart kind chunks call waits di := by
  induction chunks generalizing di call conds waits with
  | nil => exact ⟨reportsHold_nil, trivial⟩
  | cons chunk chunks ih =>
      unfold decodeChunks
      unfold DecodesAll at harmless ⊢
      cases outcome : di.srdInstDecodeHandOver chunk with
      | mk status held =>
          rw [outcome] at harmless
          cases status with
          | errArg => exact ⟨reportsHold_nil, trivial⟩
          | errTermReq => exact ⟨reportsHold_nil, trivial⟩
          | ok =>
              dsimp only at harmless ⊢
              obtain ⟨loaded, asked, kept, count⟩ := rested.asked fits waiting outcome
              have listHeld : Listed conds waits held := fun wait rest same => by
                rw [kept]
                exact list wait rest same
              have served := serveWaits_to loaded asked listHeld (count ▸ sound) harmless.1
              obtain ⟨others, listLater, heldLater⟩ := served.goesOn
              by_cases done : (serveWaits kind waits held).2.1 = []
              · rw [if_pos done]
                refine ⟨?_, served.apart, fun pending => absurd done pending⟩
                have whole := heldLater [] reportsHold_nil
                rwa [List.append_nil] at whole
              · rw [if_neg done]
                obtain ⟨waitingLater, restedLater⟩ := served.rested done
                obtain ⟨holds, apart⟩ := ih waitingLater restedLater listLater
                  (by rw [served.count]; exact served.sound) (harmless.2 done)
                exact ⟨heldLater _ holds, served.apart, fun _ => apart⟩

/-- Where zero skips do no harm, the samples that are reported never go back, every bit is that of a
condition that holds, and no mark changes the verdict on another condition or is left for a later
wait. -/
theorem runReports_zeroSkips (fits : stop < 2 ^ 64) (cuts : Cuts stream start stop chunks)
    (noSamples : di.gotNewSamples = false) (running : di.wantWaitTerminate = false)
    (reader : di.readSample = none) (sound : Sound di.decNumChannels (di.conditionList :: waits))
    (harmless : RunsAll
      (ZeroSkipsHarmless stream start (di.srdInstStart.rememberedPins (pinsAt stream start)))
      kind start chunks waits di) :
    ReportsHold stream start (di.srdInstStart.rememberedPins (pinsAt stream start)) start
        di.conditionList waits (runReports kind chunks waits di) ∧
      RunsAll MarksApart kind start chunks waits di := by
  have fresh := sound.fresh di.conditionList List.mem_cons_self
  have channels := sound.channels di.conditionList List.mem_cons_self
  obtain ⟨bounded, counts, channelsNext⟩ :=
    @nextWait_sound start waits di.srdInstStart di.decNumChannels fresh.bounded
      (fun _ => fresh.counts) channels sound.rest
  have begun : (di.srdInstStart.nextWait waits).resumesAt start = start := by
    rw [nextWait_eq]
    exact if_pos rfl
  have same : SameChunk (di.srdInstStart.nextWait waits) di :=
    (nextWait_sameChunk _ waits).trans ⟨rfl, rfl, rfl, rfl, rfl, rfl, rfl, rfl, rfl⟩
  have count : (di.srdInstStart.nextWait waits).decNumChannels = di.decNumChannels :=
    congrArg List.length same.decChannelmap
  have waiting : Waiting stream start stop chunks (di.srdInstStart.nextWait waits) := by
    refine ⟨same.gotNewSamples.trans noSamples, same.wantWaitTerminate.trans running,
      same.readSample.trans reader, ⟨start, Nat.le_refl start, fun _ => rfl, cuts.consecutive⟩,
      cuts.delivers⟩
  have rested : Rested start start (di.srdInstStart.nextWait waits) := by
    constructor
    case called => exact Nat.le_of_eq begun.symm
    case idle =>
        rw [nextWait_eq]
        rfl
    case bounded => exact bounded
    case counts =>
        intro _
        rw [begun]
        exact counts rfl
    case channels =>
        rw [count]
        exact channelsNext
  exact decodeChunks_to fits waiting rested (nextWait_listed rfl) (count ▸ sound.rest) harmless

instance (samplenum : Nat) (cond : Condition) :
    Decidable (PinsHold stream start initial samplenum cond) :=
  inferInstanceAs (Decidable (∀ term ∈ cond, term.type ≠ .skip →
    termHolds (pinsBefore stream start initial samplenum) (pinsAt stream samplenum) term = true))

instance (samplenum : Nat) (cond : Condition) :
    Decidable (WaitHolds stream start initial call samplenum cond) :=
  inferInstanceAs (Decidable (PinsHold stream start initial samplenum cond ∧
    ∀ term ∈ cond, term.type = .skip → call + term.numSamplesToSkip ≤ samplenum))

instance (count : Nat) (conds : List Condition) : Decidable (ChannelsIn count conds) :=
  inferInstanceAs (Decidable (∀ cond ∈ conds, ∀ term ∈ cond,
    term.type ≠ .skip → term.channel < count))

/-- A zero skip behind a match reports the sample of the match again. -/
theorem runReports_zeroSkips_again :
    ReportsHold oneRise 0 (freshInstance.srdInstStart.rememberedPins (pinsAt oneRise 0)) 0 []
      [[[.onChannel .high 0]], [[.skipping 0]]] [(1, 1), (1, 1)] := by
  have harmless : RunsAll
      (ZeroSkipsHarmless oneRise 0 (freshInstance.srdInstStart.rememberedPins (pinsAt oneRise 0)))
      .cDecoder 0 [byteChunk 0 8 0xFE] [[[.onChannel .high 0]], [[.skipping 0]]]
      freshInstance := by
    refine ⟨⟨fun _ => ⟨nofun, fun _ _ => Or.inl ⟨nofun, ?first⟩⟩, ⟨fun _ =>
      ⟨nofun, fun _ _ => Or.inr ⟨?matched, [], [.skipping 0], [], ?once⟩⟩, trivial⟩⟩, ?rest⟩
    case first => decide
    case matched => decide
    case once => exact ⟨by decide, nofun, by decide, by decide, nofun, by decide⟩
    case rest => exact fun pending => absurd (by decide) pending
  have sound : Sound freshInstance.decNumChannels
      [[], [[.onChannel .high 0]], [[.skipping 0]]] := ⟨by decide, by decide⟩
  exact (runReports_zeroSkips (by decide) oneRise_cut rfl rfl rfl sound harmless).1

/-- Two zero skips behind a match at sample 1 go back to sample 0; a level that is met behind the
match is reported at the match, where it is not; and a condition that is not met leaves its mark. -/
theorem runReports_zeroSkips_back : Cuts oneRise 0 8 [byteChunk 0 8 0xFE] ∧
      ¬ReportsHold oneRise 0 (freshInstance.srdInstStart.rememberedPins (pinsAt oneRise 0)) 0 []
        [[[.onChannel .high 0]], [[.skipping 0], [.skipping 0]]]
        (runReports .cDecoder [byteChunk 0 8 0xFE]
          [[[.onChannel .high 0]], [[.skipping 0], [.skipping 0]]] freshInstance) ∧
      ¬ReportsHold oneRise 0 (freshInstance.srdInstStart.rememberedPins (pinsAt oneRise 0)) 0 []
        [[[.onChannel .low 0]], [[.skipping 0, .onChannel .high 0]]]
        (runReports .cDecoder [byteChunk 0 8 0xFE]
          [[[.onChannel .low 0]], [[.skipping 0, .onChannel .high 0]]] freshInstance) ∧
      ¬RunsAll MarksApart .cDecoder 0 [byteChunk 0 8 0xFE]
        [[[.onChannel .low 0]], [[.skipping 0, .onChannel .low 0]]] freshInstance := by
  have twice : runReports .cDecoder [byteChunk 0 8 0xFE]
      [[[.onChannel .high 0]], [[.skipping 0], [.skipping 0]]] freshInstance =
        [(1, 1), (0, 3)] := by decide
  have early : runReports .cDecoder [byteChunk 0 8 0xFE]
      [[[.onChannel .low 0]], [[.skipping 0, .onChannel .high 0]]] freshInstance =
        [(0, 1), (0, 1)] := by decide
  refine ⟨oneRise_cut, ?_, ?_, ?_⟩
  · rw [twice]
    rintro ⟨-, -, back, -⟩
    exact absurd back (by decide)
  · rw [early]
    rintro ⟨-, -, -, bits, -⟩
    obtain ⟨j, cond, found, -, -, holds⟩ := bits 0 (by decide)
    cases j with
    | zero =>
        cases found
        exact absurd holds (by decide)
    | succ j => cases found
  · rintro ⟨⟨-, later⟩, -⟩
    obtain ⟨here, -⟩ := later
    exact absurd (here rfl).2 (by decide)

end SrdDecoderInst

end SigrokDecode
