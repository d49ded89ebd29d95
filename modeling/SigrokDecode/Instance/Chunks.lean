import SigrokDecode.Instance.WaitLoop

/-!
# Chunk independence

A run hands the chunks of a sample range over one after the other while the
worker makes its waits.  Compared here is what the waits report with a scan of
the whole range by an instance that reads the sample stream directly; two
cuttings of the range then report the same whenever no step of their runs takes
one of the branches that look at a chunk boundary.
-/

set_option linter.dupNamespace false

namespace SigrokDecode

open Foundation

abbrev WaitReport := Nat × BitVec 64

namespace SrdDecoderInst

def nextWait (di : SrdDecoderInst) : List (List Condition) → SrdDecoderInst
  | [] => di
  | wait :: _ => di.startWait wait

/-- The worker makes its waits until the chunk is used up: the reports, the
waits still to be made (the first of them is under way), and the instance. -/
def serveWaits (kind : WorkerKind) : List (List Condition) → SrdDecoderInst →
      List WaitReport × List (List Condition) × SrdDecoderInst
  | [], di => ([], [], di)
  | wait :: rest, di =>
      match di.waitRegion kind with
      | (.matched samplenum matchArray, after) =>
          let served := serveWaits kind rest (after.nextWait rest)
          ((samplenum, matchArray) :: served.1, served.2)
      | (_, after) => ([], wait :: rest, after)

def decodeChunks (kind : WorkerKind) :
    List SampleChunk → List (List Condition) → SrdDecoderInst → List WaitReport
  | [], _, _ => []
  | chunk :: chunks, waits, di =>
      match di.srdInstDecodeHandOver chunk with
      | (.ok, held) =>
          let served := serveWaits kind waits held
          if served.2.1 = [] then
            served.1
          else
            served.1 ++ decodeChunks kind chunks served.2.1 served.2.2
      | (_, _) => []

def runReports (kind : WorkerKind) (chunks : List SampleChunk)
    (waits : List (List Condition)) (di : SrdDecoderInst) : List WaitReport :=
  decodeChunks kind chunks waits (di.srdInstStart.nextWait waits)

/-- The chunks follow each other without gaps from `start` to `stop`. -/
def Consecutive : Nat → Nat → List SampleChunk → Prop
  | start, stop, [] => start = stop
  | start, stop, chunk :: chunks =>
      chunk.absStartSamplenum = start ∧ chunk.absStartSamplenum < chunk.absEndSamplenum ∧
        Consecutive chunk.absEndSamplenum stop chunks

end SrdDecoderInst

open SrdDecoderInst

namespace SampleChunk

def levelAt (chunk : SampleChunk) (ch samplenum : Nat) : Bool :=
  match chunk.inbuf.bind fun buffers => buffers.getD ch none with
  | none =>
      match chunk.inbufConst with
      | none => false
      | some constants => constants.getD ch 0 != 0
  | some buffer => packedBit buffer (samplenum - chunk.absStartSamplenum)

/-- The chunk is well formed and holds its part of the stream. -/
structure Delivers (chunk : SampleChunk) (stream : SampleStream) : Prop where
  inbuf : chunk.inbuf ≠ none
  inbuflen : chunk.inbuflen ≠ 0
  levels : ∀ ch samplenum, chunk.absStartSamplenum ≤ samplenum → samplenum < chunk.absEndSamplenum →
        chunk.levelAt ch samplenum = stream ch samplenum

end SampleChunk

/-- The chunks cut the samples from `start` to `stop` of the stream. -/
structure Cuts (stream : SampleStream) (start stop : Nat) (chunks : List SampleChunk) : Prop where
  consecutive : Consecutive start stop chunks
  delivers : ∀ chunk ∈ chunks, chunk.Delivers stream

namespace SrdDecoderInst

/-- This call of `find_match` does not look at the chunk boundary: its first
sample does not take the jump to the end of the chunk, and zero skips do not
leave the chunk. -/
def CleanCall (di : SrdDecoderInst) : Prop :=
  di.haveNonNullConds = true → di.firstTested < di.absEndSamplenum →
    di.FirstPassStays ∧ di.firstPass.allSkipAllow = false

instance (di : SrdDecoderInst) : Decidable di.CleanCall :=
  inferInstanceAs (Decidable (di.haveNonNullConds = true → di.firstTested < di.absEndSamplenum →
        di.FirstPassStays ∧ di.firstPass.allSkipAllow = false))

/-- Every call of `find_match` on the chunk at hand is clean. -/
def ServesCleanly (kind : WorkerKind) : List (List Condition) → SrdDecoderInst → Prop
  | [], _ => True
  | _ :: rest, di =>
      di.CleanCall ∧
        match di.waitRegion kind with
        | (.matched _ _, after) => ServesCleanly kind rest (after.nextWait rest)
        | (_, _) => True

/-- Every call of `find_match` in the run is clean, and no chunk but the first
is handed over while the flag of the last match is still set. -/
def DecodesCleanly (kind : WorkerKind) :
    List SampleChunk → List (List Condition) → SrdDecoderInst → Prop
  | [], _, _ => True
  | chunk :: chunks, waits, di =>
      match di.srdInstDecodeHandOver chunk with
      | (.ok, held) =>
          let served := serveWaits kind waits held
          ServesCleanly kind waits held ∧ (served.2.1 ≠ [] → chunks ≠ [] →
              served.2.2.absCurMatched = false ∧ DecodesCleanly kind chunks served.2.1 served.2.2)
      | (_, _) => True

def RunsCleanly (kind : WorkerKind) (chunks : List SampleChunk)
    (waits : List (List Condition)) (di : SrdDecoderInst) : Prop :=
  DecodesCleanly kind chunks waits (di.srdInstStart.nextWait waits)

/-- The reports of the waits on an instance that reads the stream directly, up
to sample `stop`. -/
def streamReports (kind : WorkerKind) (stop : Nat) :
    List (List Condition) → SrdDecoderInst → List WaitReport
  | [], _ => []
  | _ :: rest, di =>
      if di.haveNonNullConds then
        let result := di.entered.scanSamples (stop - di.firstTested)
        if result.1 then
          (result.2.absCurSamplenum, result.2.matchArray) ::
            streamReports kind stop rest ((afterMatch kind result.2).nextWait rest)
        else
          []
      else
        (di.absCurSamplenum, di.matchArray) ::
          streamReports kind stop rest ((afterMatch kind di).nextWait rest)

def ReadsStream (di : SrdDecoderInst) (stream : SampleStream) : Prop :=
  ∀ samplenum ch, di.sampleAt samplenum ch = some (bitByte (stream ch samplenum))

def HoldsStream (di : SrdDecoderInst) (stream : SampleStream) : Prop :=
  ∀ samplenum, di.InChunk samplenum → ∀ ch,
    di.sampleAt samplenum ch = some (bitByte (stream ch samplenum))

variable {di : SrdDecoderInst} {stop : Nat} {chunk : SampleChunk} {chunks : List SampleChunk}

/-- Without a jump one call of `find_match` reads the rest of the chunk sample by
sample. -/
theorem findMatch_eq_scanSamples (conds : di.haveNonNullConds = true) (clean : di.CleanCall) :
    di.findMatch = di.entered.scanSamples (di.absEndSamplenum - di.firstTested) :=
  findMatch_eq_scanSamples_of_noJump conds fun inside _ =>
    (clean conds inside).2

section Simulation

variable {kind : WorkerKind} {stream : SampleStream}
variable {held ref : SrdDecoderInst}

/-- `held` holds a part of the stream that `ref` reads, and both are in the same
scan state. -/
structure Follows (stream : SampleStream) (held ref : SrdDecoderInst) : Prop where
  scan : held.scan = ref.scan
  decChannelmap : held.decChannelmap = ref.decChannelmap
  reads : ref.ReadsStream stream

theorem Follows.samples (follows : Follows stream held ref) (holds : held.HoldsStream stream)
    {samplenum : Nat} (inside : held.InChunk samplenum) (ch : Nat) :
    held.sampleAt samplenum ch = ref.sampleAt samplenum ch :=
  (holds samplenum inside ch).trans (follows.reads samplenum ch).symm

theorem scanSamples_found_inside
    {inside : Nat → Prop} {di : SrdDecoderInst} {count : Nat}
    (stays : 0 < count → PassStays inside di false false 0 di.conditionList)
    (range : ∀ samplenum, di.absCurSamplenum ≤ samplenum →
        samplenum < di.absCurSamplenum + count → inside samplenum)
    (found : (di.scanSamples count).1 = true) :
    inside (di.scanSamples count).2.absCurSamplenum := by
  induction count generalizing di with
  | zero => cases found
  | succ count ih =>
      simp only [scanSamples] at found ⊢
      split at found
      · rename_i matched
        rw [if_pos matched]
        have last := (stays (Nat.succ_pos count)).last
        simp only [matchSample, updateOldPinsArray_eq]
        exact last
      · rename_i notMatched
        rw [if_neg notMatched]
        have calm : (di.matchSample false false).di.absCurMatched = false := by
          simpa using notMatched
        have here := (matchSample_no_match calm).2.1
        apply ih _ _ found
        · intro positive
          have later :=
            @passStays_of_not_matched ((di.matchSample false false).di.seek
                ((di.matchSample false false).di.absCurSamplenum + 1))
              false false 0 (di.matchSample false false).di.conditionList
              calm (by simp)
          apply later.mono
          intro samplenum near
          rw [seek_absCurSamplenum, here] at near
          exact range samplenum (by omega) (by omega)
        · intro samplenum lower upper
          rw [seek_absCurSamplenum, here] at lower upper
          exact range samplenum (by omega) (by omega)

theorem Follows.haveNonNullConds_eq (follows : Follows stream held ref) :
    held.haveNonNullConds = ref.haveNonNullConds := by
  have conds : held.conditionList = ref.conditionList :=
    congrArg ScanState.conditionList follows.scan
  simp only [haveNonNullConds, conds]

theorem Follows.firstTested_eq (follows : Follows stream held ref) :
    held.firstTested = ref.firstTested := by
  have matched : held.absCurMatched = ref.absCurMatched :=
    congrArg ScanState.absCurMatched follows.scan
  have position : held.absCurSamplenum = ref.absCurSamplenum :=
    congrArg ScanState.absCurSamplenum follows.scan
  simp only [firstTested, matched, position]

theorem Follows.entered_scan (follows : Follows stream held ref) (holds : held.HoldsStream stream)
    (atSample : held.AtSample) :
    held.entered.scan = ref.entered.scan :=
  leaveMatch_congr (primeScan_congr follows.scan follows.decChannelmap
      (follows.samples holds atSample.inChunk))

/-- A clean call of `find_match` does what the scan of the stream does up to the
end of the chunk. -/
theorem Follows.findMatch (follows : Follows stream held ref) (holds : held.HoldsStream stream)
    (atSample : held.AtSample) (conds : held.haveNonNullConds = true)
    (clean : held.CleanCall) :
    held.findMatch.1 = (ref.entered.scanSamples (held.absEndSamplenum - held.firstTested)).1 ∧
      held.findMatch.2.scan = (ref.entered.scanSamples
          (held.absEndSamplenum - held.firstTested)).2.scan ∧
      (held.findMatch.1 = true →
        held.InChunk held.findMatch.2.absCurSamplenum) := by
  have heldFrame := entered_frame held
  have refFrame := entered_frame ref
  have channels : held.entered.decChannelmap = ref.entered.decChannelmap :=
    (congrArg InstFrame.decChannelmap heldFrame).trans (follows.decChannelmap.trans
        (congrArg InstFrame.decChannelmap refFrame).symm)
  have samples : ∀ samplenum, held.InChunk samplenum → ∀ ch,
        held.entered.sampleAt samplenum ch = ref.entered.sampleAt samplenum ch := by
    intro samplenum inside ch
    rw [sampleAt_eq_of_frame heldFrame, sampleAt_eq_of_frame refFrame]
    exact follows.samples holds inside ch
  have stays (positive : 0 < held.absEndSamplenum - held.firstTested) :
      PassStays held.InChunk held.entered false false 0
        held.entered.conditionList := by
    have first := (clean conds (by omega)).1
    exact (condPass_congr rfl (fun _ _ _ => rfl) false false first).2
  have range : ∀ samplenum, held.entered.absCurSamplenum ≤ samplenum → samplenum <
            held.entered.absCurSamplenum + (held.absEndSamplenum - held.firstTested) →
          held.InChunk samplenum := by
    intro samplenum lower upper
    rw [entered_position] at lower upper
    obtain ⟨least, _⟩ := firstTested_bounds atSample
    exact ⟨by omega, by omega⟩
  have scans := scanSamples_congr (follows.entered_scan holds atSample) channels samples stays range
  rw [findMatch_eq_scanSamples conds clean]
  exact ⟨scans.1, scans.2, scanSamples_found_inside stays range⟩

theorem entered_of_scanned (later : di.firstPos = false)
    (calm : di.absCurMatched = false) (cleared : di.matchArray = 0) :
    di.entered = di := by
  have primed : di.primeScan = di := by
    rcases di with ⟨_, _, _, _, _, _, _, _, _, _, _, _, _, _, _, _, _, _, _⟩
    simp only at later cleared
    subst later cleared
    rfl
  rw [entered, primed, leaveMatch, if_neg (by rw [calm]; decide)]

theorem streamReports_interrupted
    {stop cut : Nat} {wait : List Condition} {rest : List (List Condition)}
    (conds : ref.haveNonNullConds = true)
    (before : ref.firstTested ≤ cut) (upto : cut ≤ stop)
    (none : (ref.entered.scanSamples (cut - ref.firstTested)).1 = false)
    (calm : (ref.entered.scanSamples (cut - ref.firstTested)).2.absCurMatched = false) :
    streamReports kind stop (wait :: rest) ref = streamReports kind stop (wait :: rest)
        (ref.entered.scanSamples (cut - ref.firstTested)).2 := by
  generalize reached : ref.entered.scanSamples (cut - ref.firstTested) = scanned at *
  have last : scanned.2.absCurSamplenum = cut := by
    have position := (scanSamples_not_found (reached ▸ none)).1
    rw [reached, entered_position] at position
    omega
  have cleared : scanned.2.matchArray = 0 := by
    by_cases some : 0 < cut - ref.firstTested
    · have scannedMarks := ((scanSamples_not_found (reached ▸ none)).2 some).2
      rw [reached] at scannedMarks
      exact scannedMarks
    · have count : cut - ref.firstTested = 0 := by omega
      rw [count] at reached
      rw [← reached]
      exact entered_matchArray ref
  have later : scanned.2.firstPos = false := by
    rw [← reached, scanSamples_firstPos]
    exact entered_firstPos ref
  have resumed := entered_of_scanned later calm cleared
  have stillConds : scanned.2.haveNonNullConds = true := by
    rw [← conds]
    apply haveNonNullConds_eq_of_shapes
    rw [← reached, scanSamples_shapes]
    exact entered_shapes ref
  have tested : scanned.2.firstTested = cut := by
    rw [firstTested, if_neg (by rw [calm]; decide), last]
  have split : ref.entered.scanSamples (stop - ref.firstTested) =
        scanned.2.scanSamples (stop - cut) := by
    have count : stop - ref.firstTested =
          (cut - ref.firstTested) + (stop - cut) := by omega
    rw [count, scanSamples_add, reached, if_neg (by rw [none]; decide)]
  simp only [streamReports, if_pos conds, if_pos stillConds, resumed, tested, split]

/-- The worker is about to make a wait on a chunk of the stream. -/
structure Serving (stream : SampleStream) (held ref : SrdDecoderInst) : Prop where
  follows : Follows stream held ref
  holds : held.HoldsStream stream
  atSample : held.AtSample
  gotNewSamples : held.gotNewSamples = true
  running : held.wantWaitTerminate = false

theorem nextWait_sameChunk (di : SrdDecoderInst) (waits : List (List Condition)) :
    SameChunk (di.nextWait waits) di := by
  cases waits with
  | nil => exact sameChunk_of_frame rfl
  | cons wait rest => exact startWait_sameChunk di wait

theorem nextWait_scan_congr (same : held.scan = ref.scan) (waits : List (List Condition)) :
    (held.nextWait waits).scan = (ref.nextWait waits).scan := by
  cases waits with
  | nil => exact same
  | cons wait rest =>
      rw [nextWait, nextWait, startWait_scan, startWait_scan, same]

theorem nextWait_position (di : SrdDecoderInst) (waits : List (List Condition)) :
    (di.nextWait waits).absCurSamplenum = di.absCurSamplenum := by
  cases waits with
  | nil => rfl
  | cons wait rest =>
      simp only [nextWait, startWait]
      split
      · rfl
      · rfl

theorem afterMatch_scan_congr (same : held.scan = ref.scan) :
    (afterMatch kind held).scan = (afterMatch kind ref).scan := by
  rw [afterMatch_scan, afterMatch_scan, same]

theorem Serving.afterMatch
    {found refFound : SrdDecoderInst} (kind : WorkerKind)
    (serving : Serving stream held ref)
    (same : found.scan = refFound.scan)
    (sameChunk : SameChunk found held) (sameRef : SameChunk refFound ref)
    (inside : held.InChunk found.absCurSamplenum)
    (rest : List (List Condition)) :
    Serving stream ((afterMatch kind found).nextWait rest)
      ((afterMatch kind refFound).nextWait rest) := by
  have heldChunk : SameChunk ((SrdDecoderInst.afterMatch kind found).nextWait rest) held :=
    ((nextWait_sameChunk _ rest).trans (afterMatch_sameChunk kind found)).trans sameChunk
  have refChunk : SameChunk ((SrdDecoderInst.afterMatch kind refFound).nextWait rest) ref :=
    ((nextWait_sameChunk _ rest).trans (afterMatch_sameChunk kind refFound)).trans sameRef
  have position : ((SrdDecoderInst.afterMatch kind found).nextWait rest).absCurSamplenum =
        found.absCurSamplenum := by
    rw [nextWait_position]
    have kept := congrArg ScanState.absCurSamplenum (afterMatch_scan kind found)
    cases kind with
    | cDecoder => exact kept
    | pythonDecoder => exact kept
  constructor
  case follows =>
      constructor
      · exact nextWait_scan_congr (afterMatch_scan_congr same) rest
      · exact heldChunk.decChannelmap.trans
          (serving.follows.decChannelmap.trans refChunk.decChannelmap.symm)
      · intro samplenum ch
        rw [refChunk.sampleAt_eq]
        exact serving.follows.reads samplenum ch
  case holds =>
      intro samplenum within ch
      rw [heldChunk.inChunk_eq] at within
      rw [heldChunk.sampleAt_eq]
      exact serving.holds samplenum within ch
  case atSample =>
      constructor
      · rw [heldChunk.inChunk_eq, position]
        exact inside
      · rw [heldChunk.absEndSamplenum]
        exact serving.atSample.fits
  case gotNewSamples => exact heldChunk.gotNewSamples.trans serving.gotNewSamples
  case running => exact heldChunk.wantWaitTerminate.trans serving.running

/-- What serving a chunk leaves for the rest of the run. -/
structure Served (kind : WorkerKind) (stream : SampleStream) (stop : Nat)
    (waits : List (List Condition)) (held ref : SrdDecoderInst) : Prop where
  done : (serveWaits kind waits held).2.1 = [] ∨ held.absEndSamplenum = stop →
      streamReports kind stop waits ref = (serveWaits kind waits held).1
  released : (serveWaits kind waits held).2.1 ≠ [] →
      (serveWaits kind waits held).2.2.absCurSamplenum = held.absEndSamplenum ∧
        (serveWaits kind waits held).2.2.firstPos = false ∧
        (serveWaits kind waits held).2.2.wantWaitTerminate = false ∧
        (serveWaits kind waits held).2.2.readSample = held.readSample ∧
        (serveWaits kind waits held).2.2.decChannelmap = held.decChannelmap
  resumes : (serveWaits kind waits held).2.1 ≠ [] →
      (serveWaits kind waits held).2.2.absCurMatched = false →
        ∃ later, (serveWaits kind waits held).2.2.scan = later.scan ∧
          later.decChannelmap = ref.decChannelmap ∧ later.ReadsStream stream ∧
          streamReports kind stop waits ref = (serveWaits kind waits held).1 ++
              streamReports kind stop (serveWaits kind waits held).2.1 later

theorem Served.report
    {wait : List Condition} {rest : List (List Condition)}
    {report : WaitReport} {after refAfter : SrdDecoderInst}
    (served : Served kind stream stop rest after refAfter)
    (sameEnd : after.absEndSamplenum = held.absEndSamplenum)
    (sameReader : after.readSample = held.readSample)
    (sameChannels : after.decChannelmap = held.decChannelmap)
    (sameRef : refAfter.decChannelmap = ref.decChannelmap)
    (step : serveWaits kind (wait :: rest) held = (report :: (serveWaits kind rest after).1,
          (serveWaits kind rest after).2))
    (refStep : streamReports kind stop (wait :: rest) ref =
        report :: streamReports kind stop rest refAfter) :
    Served kind stream stop (wait :: rest) held ref := by
  constructor
  · rw [step, refStep]
    intro finished
    rw [← sameEnd] at finished
    rw [served.done finished]
  · rw [step, ← sameEnd, ← sameReader, ← sameChannels]
    exact served.released
  · rw [step, refStep]
    intro pending calm
    obtain ⟨later, state, channels, reads, reports⟩ := served.resumes pending calm
    exact ⟨later, state, channels.trans sameRef, reads, by rw [reports]; rfl⟩

theorem serveWaits_served
    {waits : List (List Condition)}
    (serving : Serving stream held ref)
    (clean : ServesCleanly kind waits held)
    (upto : held.absEndSamplenum ≤ stop) :
    Served kind stream stop waits held ref := by
  induction waits generalizing held ref with
  | nil =>
      constructor
      · intro _
        rfl
      · intro pending
        exact absurd rfl pending
      · intro pending
        exact absurd rfl pending
  | cons wait rest ih =>
      obtain ⟨cleanCall, cleanRest⟩ := clean
      have region := waitRegion_eq kind serving.running serving.gotNewSamples
      have position : held.absCurSamplenum = ref.absCurSamplenum :=
        congrArg ScanState.absCurSamplenum serving.follows.scan
      have marks : held.matchArray = ref.matchArray :=
        congrArg ScanState.matchArray serving.follows.scan
      by_cases conds : held.haveNonNullConds = true
      · have refConds := serving.follows.haveNonNullConds_eq.symm.trans conds
        obtain ⟨sameFound, state, inside⟩ :=
          serving.follows.findMatch serving.holds serving.atSample conds cleanCall
        have tested := serving.follows.firstTested_eq
        obtain ⟨least, before⟩ := firstTested_bounds serving.atSample
        have count : stop - ref.firstTested = (held.absEndSamplenum - held.firstTested) +
                (stop - held.absEndSamplenum) := by omega
        have heldFrame := findMatch_frame held
        have refFrame : (ref.entered.scanSamples
              (held.absEndSamplenum - held.firstTested)).2.frame = ref.frame :=
          (scanSamples_frame _ _).trans (entered_frame ref)
        by_cases found : held.findMatch.1 = true
        · -- The match lies in this chunk, and the stream has the same match.
          have refFound := sameFound.symm.trans found
          have whole : ref.entered.scanSamples (stop - ref.firstTested) = ref.entered.scanSamples
                  (held.absEndSamplenum - held.firstTested) := by
            rw [count, scanSamples_add, if_pos refFound]
          rw [region, if_pos found] at cleanRest
          have next :=
            serving.afterMatch kind state (sameChunk_of_frame heldFrame)
              (sameChunk_of_frame refFrame) (inside found) rest
          have nextChunk : SameChunk ((afterMatch kind held.findMatch.2).nextWait rest) held :=
            ((nextWait_sameChunk _ rest).trans
              (afterMatch_sameChunk kind _)).trans (sameChunk_of_frame heldFrame)
          have nextRef :=
            ((nextWait_sameChunk (afterMatch kind (ref.entered.scanSamples
                (held.absEndSamplenum - held.firstTested)).2) rest).trans
              (afterMatch_sameChunk kind _)).trans (sameChunk_of_frame refFrame)
          have reportSamplenum := congrArg ScanState.absCurSamplenum state
          have reportMarks := congrArg ScanState.matchArray state
          apply (ih next cleanRest
              (by rw [nextChunk.absEndSamplenum]; exact upto)).report
            nextChunk.absEndSamplenum nextChunk.readSample
            nextChunk.decChannelmap nextRef.decChannelmap
          · rw [serveWaits, region, if_pos found]
          · simp only [streamReports, if_pos refConds, whole, if_pos refFound]
            simp only [scan] at reportSamplenum reportMarks
            rw [reportSamplenum, reportMarks]
        · have notFound : held.findMatch.1 = false := by simpa using found
          have refNotFound := sameFound.symm.trans notFound
          have refLast := (scanSamples_not_found refNotFound).1
          rw [entered_position] at refLast
          have last := congrArg ScanState.absCurSamplenum state
          have later := congrArg ScanState.firstPos state
          have calm := congrArg ScanState.absCurMatched state
          simp only [scan] at last later calm
          have step : serveWaits kind (wait :: rest) held =
                ([], wait :: rest, held.findMatch.2.releaseChunk) := by
            rw [serveWaits, region, if_neg found]
          constructor
          · rw [step]
            rintro (finished | atStop)
            · cases finished
            · have all : stop - ref.firstTested =
                    held.absEndSamplenum - held.firstTested := by omega
              simp only [streamReports, if_pos refConds, all, refNotFound]
              rfl
          · rw [step]
            intro _
            refine ⟨?_, ?_, ?_, ?_, ?_⟩
            · change held.findMatch.2.absCurSamplenum = held.absEndSamplenum
              rw [last, refLast]
              omega
            · change held.findMatch.2.firstPos = false
              rw [later, scanSamples_firstPos]
              exact entered_firstPos ref
            · exact (congrArg InstFrame.wantWaitTerminate heldFrame).trans serving.running
            · exact congrArg InstFrame.readSample heldFrame
            · exact congrArg InstFrame.decChannelmap heldFrame
          · rw [step]
            intro _ released
            have refCalm := calm.symm.trans released
            refine ⟨(ref.entered.scanSamples (held.absEndSamplenum - held.firstTested)).2, state,
                congrArg InstFrame.decChannelmap refFrame, ?_, ?_⟩
            · intro samplenum ch
              rw [sampleAt_eq_of_frame refFrame]
              exact serving.follows.reads samplenum ch
            · rw [tested] at refNotFound refCalm before ⊢
              exact streamReports_interrupted refConds before upto refNotFound refCalm
      · have result : held.findMatch = (true, held) := if_neg conds
        have refConds : ¬ ref.haveNonNullConds = true := by
          rw [← serving.follows.haveNonNullConds_eq]
          exact conds
        rw [region, result] at cleanRest
        have next :=
          serving.afterMatch kind serving.follows.scan (sameChunk_of_frame rfl)
            (sameChunk_of_frame rfl) serving.atSample.inChunk rest
        have nextChunk :=
          (nextWait_sameChunk (afterMatch kind held) rest).trans (afterMatch_sameChunk kind held)
        have nextRef :=
          (nextWait_sameChunk (afterMatch kind ref) rest).trans (afterMatch_sameChunk kind ref)
        apply (ih next cleanRest
            (by rw [nextChunk.absEndSamplenum]; exact upto)).report
          nextChunk.absEndSamplenum nextChunk.readSample
          nextChunk.decChannelmap nextRef.decChannelmap
        · rw [serveWaits, region, result]
          rfl
        · simp only [streamReports, if_neg refConds]
          rw [position, marks]

theorem storeChunk_holdsStream (delivers : chunk.Delivers stream) (reader : di.readSample = none) :
    (di.storeChunk chunk).HoldsStream stream := by
  intro samplenum inside ch
  have level := delivers.levels ch samplenum inside.1 inside.2
  have noReader : (di.storeChunk chunk).readSample = none := reader
  rw [sampleAt, termSample_seek inside, ← level]
  simp only [storedPin, noReader]
  rfl

theorem consecutive_le {start stop : Nat}
    (consecutive : Consecutive start stop chunks) : start ≤ stop := by
  induction chunks generalizing start with
  | nil => exact Nat.le_of_eq consecutive
  | cons chunk chunks ih =>
      obtain ⟨first, nonempty, rest⟩ := consecutive
      have later := ih rest
      omega

/-- A chunk that follows the ones before is accepted, and the worker finds it. -/
theorem handOver_serving (fits : stop < 2 ^ 64)
    (consecutive : Consecutive ref.absCurSamplenum stop (chunk :: chunks))
    (delivers : chunk.Delivers stream)
    (running : di.wantWaitTerminate = false) (reader : di.readSample = none)
    (state : (di.seekFirst chunk).scan = ref.scan)
    (channels : di.decChannelmap = ref.decChannelmap)
    (reads : ref.ReadsStream stream) :
    di.srdInstDecodeHandOver chunk = (.ok, (di.seekFirst chunk).storeChunk chunk) ∧
      Serving stream ((di.seekFirst chunk).storeChunk chunk) ref := by
  obtain ⟨first, nonempty, rest⟩ := consecutive
  have upto := consecutive_le rest
  have position : (di.seekFirst chunk).absCurSamplenum = ref.absCurSamplenum :=
    congrArg ScanState.absCurSamplenum state
  have kept : SameChunk (di.seekFirst chunk) di := by
    simp only [seekFirst]
    split
    · exact sameChunk_of_frame rfl
    · exact sameChunk_of_frame rfl
  constructor
  · have usable : ¬ (chunk.inbuf = none ∨ chunk.inbuflen = 0) := by
      rintro (absent | empty)
      · exact delivers.inbuf absent
      · exact delivers.inbuflen empty
    have inOrder : ¬ (chunk.absStartSamplenum ≠ (di.seekFirst chunk).absCurSamplenum ∨
          chunk.absEndSamplenum < chunk.absStartSamplenum) := by omega
    rw [srdInstDecodeHandOver, if_neg usable, if_neg inOrder]
  · constructor
    case follows =>
        exact ⟨state, kept.decChannelmap.trans channels, reads⟩
    case holds =>
        exact storeChunk_holdsStream delivers (kept.readSample.trans reader)
    case atSample =>
        constructor
        · change chunk.absStartSamplenum ≤ (di.seekFirst chunk).absCurSamplenum ∧
            (di.seekFirst chunk).absCurSamplenum < chunk.absEndSamplenum
          omega
        · exact Nat.lt_of_le_of_lt upto fits
    case gotNewSamples => rfl
    case running => exact kept.wantWaitTerminate.trans running

theorem decodeChunks_eq_streamReports (fits : stop < 2 ^ 64)
    {waits : List (List Condition)}
    (consecutive : Consecutive ref.absCurSamplenum stop (chunk :: chunks))
    (delivers : ∀ part ∈ chunk :: chunks, part.Delivers stream)
    (running : di.wantWaitTerminate = false) (reader : di.readSample = none)
    (state : (di.seekFirst chunk).scan = ref.scan)
    (channels : di.decChannelmap = ref.decChannelmap)
    (reads : ref.ReadsStream stream)
    (clean : DecodesCleanly kind (chunk :: chunks) waits di) :
    decodeChunks kind (chunk :: chunks) waits di =
      streamReports kind stop waits ref := by
  induction chunks generalizing chunk waits di ref with
  | nil =>
      obtain ⟨accepted, serving⟩ :=
        handOver_serving fits consecutive (delivers chunk List.mem_cons_self)
          running reader state channels reads
      have last : chunk.absEndSamplenum = stop := consecutive.2.2
      simp only [DecodesCleanly, accepted] at clean
      have served := serveWaits_served serving clean.1 (Nat.le_of_eq last)
      rw [served.done (Or.inr last)]
      simp only [decodeChunks, accepted, List.append_nil, ite_self]
  | cons next later ih =>
      obtain ⟨accepted, serving⟩ :=
        handOver_serving fits consecutive (delivers chunk List.mem_cons_self)
          running reader state channels reads
      have rest := consecutive.2.2
      simp only [DecodesCleanly, accepted] at clean
      obtain ⟨cleanHere, cleanLater⟩ := clean
      have served := serveWaits_served serving cleanHere (consecutive_le rest)
      simp only [decodeChunks, accepted]
      by_cases finished : (serveWaits kind waits ((di.seekFirst chunk).storeChunk chunk)).2.1 = []
      · rw [if_pos finished, served.done (Or.inl finished)]
      · rw [if_neg finished]
        obtain ⟨position, notFirst, stillRunning, sameReader, sameChannels⟩ :=
          served.released finished
        obtain ⟨calm, cleanRest⟩ := cleanLater finished (by simp)
        obtain ⟨resumed, resumedState, resumedChannels, resumedReads, reports⟩ :=
          served.resumes finished calm
        have stays : (serveWaits kind waits
                ((di.seekFirst chunk).storeChunk chunk)).2.2.seekFirst next =
              (serveWaits kind waits ((di.seekFirst chunk).storeChunk chunk)).2.2 :=
          if_neg (by rw [notFirst]; decide)
        have resumedAt : resumed.absCurSamplenum = chunk.absEndSamplenum :=
          (congrArg ScanState.absCurSamplenum resumedState).symm.trans position
        have kept : ((di.seekFirst chunk).storeChunk chunk).readSample = none ∧
              ((di.seekFirst chunk).storeChunk chunk).decChannelmap =
                di.decChannelmap := by
          simp only [seekFirst]
          split
          · exact ⟨reader, rfl⟩
          · exact ⟨reader, rfl⟩
        rw [reports]
        congr 1
        apply ih
        · rw [resumedAt]
          exact rest
        · intro part member
          exact delivers part (List.mem_cons_of_mem _ member)
        · exact stillRunning
        · exact sameReader.trans kept.1
        · rw [stays]
          exact resumedState
        · exact sameChannels.trans (kept.2.trans (channels.trans resumedChannels.symm))
        · exact resumedReads
        · exact cleanRest

end Simulation

def onStream (di : SrdDecoderInst) (stream : SampleStream) (start : Nat) : SrdDecoderInst :=
  { di with
    absCurSamplenum := start
    readSample := some fun ch samplenum => bitByte (stream ch samplenum) }

theorem nextWait_seekFirst
    (di : SrdDecoderInst) (waits : List (List Condition)) (stream : SampleStream)
    (chunk : SampleChunk) :
    ((di.srdInstStart.nextWait waits).seekFirst chunk).scan =
      ((di.srdInstStart.nextWait waits).onStream stream
        chunk.absStartSamplenum).scan := by
  have first : (di.srdInstStart.nextWait waits).firstPos = true := by
    cases waits with
    | nil => rfl
    | cons wait rest =>
        simp only [nextWait, startWait]
        split
        · rfl
        · rfl
  rw [seekFirst, if_pos first]
  rfl

/-- Two clean runs over the same samples report the same, however the samples
are cut into chunks. -/
theorem runReports_chunk_independent (kind : WorkerKind) (stream : SampleStream) (start stop : Nat)
    (firstCut secondCut : List SampleChunk) (waits : List (List Condition))
    (di : SrdDecoderInst)
    (fits : stop < 2 ^ 64)
    (running : di.wantWaitTerminate = false) (reader : di.readSample = none)
    (first : Cuts stream start stop firstCut)
    (second : Cuts stream start stop secondCut)
    (firstClean : RunsCleanly kind firstCut waits di)
    (secondClean : RunsCleanly kind secondCut waits di) :
    runReports kind firstCut waits di = runReports kind secondCut waits di := by
  have kept : SameChunk (di.srdInstStart.nextWait waits) di :=
    (nextWait_sameChunk _ waits).trans (sameChunk_of_frame rfl)
  have onTheStream
      {chunk : SampleChunk} {chunks : List SampleChunk}
      (cut : Cuts stream start stop (chunk :: chunks))
      (clean : RunsCleanly kind (chunk :: chunks) waits di) :
      runReports kind (chunk :: chunks) waits di = streamReports kind stop waits
          ((di.srdInstStart.nextWait waits).onStream stream start) := by
    obtain ⟨begins, _, _⟩ := cut.consecutive
    apply decodeChunks_eq_streamReports fits cut.consecutive cut.delivers
    · exact kept.wantWaitTerminate.trans running
    · exact kept.readSample.trans reader
    · rw [← begins]
      exact nextWait_seekFirst di waits stream chunk
    · rfl
    · intro samplenum ch
      rfl
    · exact clean
  cases firstCut with
  | nil =>
      cases secondCut with
      | nil => rfl
      | cons chunk chunks =>
          have empty : start = stop := first.consecutive
          obtain ⟨begins, nonempty, rest⟩ := second.consecutive
          have later := consecutive_le rest
          omega
  | cons chunk chunks =>
      cases secondCut with
      | nil =>
          have empty : start = stop := second.consecutive
          obtain ⟨begins, nonempty, rest⟩ := first.consecutive
          have later := consecutive_le rest
          omega
      | cons other others =>
          rw [onTheStream first firstClean, onTheStream second secondClean]

theorem byteChunk_delivers
    {start stop : Nat} {byte : UInt8} {stream : SampleStream}
    (levels : ∀ samplenum, start ≤ samplenum → samplenum < stop →
        packedBit [byte] (samplenum - start) = stream 0 samplenum)
    (silent : ∀ ch samplenum, stream (ch + 1) samplenum = false) :
    (byteChunk start stop byte).Delivers stream where
  inbuf := Option.some_ne_none _
  inbuflen := Nat.one_ne_zero
  levels := by
    intro ch samplenum lower upper
    cases ch with
    | zero => exact levels samplenum lower upper
    | succ ch => exact (silent ch samplenum).symm

def highStream : SampleStream :=
  fun ch _ => ch == 0

theorem highStream_byteChunk {start stop : Nat} (short : stop ≤ start + 8) :
    (byteChunk start stop 0xFF).Delivers highStream := by
  apply byteChunk_delivers
  · intro samplenum lower upper
    have bits : ∀ offset, offset < 8 → packedBit [0xFF] offset = true := by decide
    exact bits (samplenum - start) (by omega)
  · intro ch samplenum
    rfl

theorem highStream_whole : Cuts highStream 0 2 [byteChunk 0 2 0xFF] := by
  refine ⟨⟨rfl, by decide, rfl⟩, ?_⟩
  intro chunk member
  rw [List.mem_singleton.mp member]
  exact highStream_byteChunk (by decide)

theorem highStream_halves : Cuts highStream 0 2 [byteChunk 0 1 0xFF, byteChunk 1 2 0xFF] := by
  refine ⟨⟨rfl, by decide, rfl, by decide, rfl⟩, ?_⟩
  intro chunk member
  rcases List.mem_cons.mp member with rfl | later
  · exact highStream_byteChunk (by decide)
  · rw [List.mem_singleton.mp later]
    exact highStream_byteChunk (by decide)

/-- Two waits for a high level report samples 0 and 1 of one chunk.  Cut behind
sample 0, the flag of the first match makes the second wait pass over sample 1,
and it reports nothing. -/
theorem highStream_cut_loses_match :
    let waits : List (List Condition) :=
      [[[.onChannel .high 0]], [[.onChannel .high 0]]]
    Cuts highStream 0 2 [byteChunk 0 2 0xFF] ∧
      Cuts highStream 0 2 [byteChunk 0 1 0xFF, byteChunk 1 2 0xFF] ∧
      runReports .cDecoder [byteChunk 0 2 0xFF] waits freshInstance = [(0, 1), (1, 1)] ∧
      runReports .cDecoder [byteChunk 0 1 0xFF, byteChunk 1 2 0xFF] waits
        freshInstance = [(0, 1)] :=
  ⟨highStream_whole, highStream_halves, by decide, by decide⟩

/-- A wait that skips one sample goes over the cut without trouble. -/
theorem runReports_chunk_independent_skip :
    runReports .cDecoder [byteChunk 0 2 0xFF] [[[.skipping 1]]] freshInstance =
      runReports .cDecoder [byteChunk 0 1 0xFF, byteChunk 1 2 0xFF]
        [[[.skipping 1]]] freshInstance := by
  apply runReports_chunk_independent .cDecoder highStream 0 2 _ _ _ _
    (by decide) rfl rfl highStream_whole highStream_halves
  · refine ⟨⟨by decide, trivial⟩, ?_⟩
    intro pending
    exact absurd (by decide) pending
  · refine ⟨⟨by decide, trivial⟩, ?_⟩
    intro _ _
    refine ⟨by decide, ⟨by decide, trivial⟩, ?_⟩
    intro pending
    exact absurd (by decide) pending

end SrdDecoderInst

end SigrokDecode
