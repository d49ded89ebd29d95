import SigrokDecode.Instance.ConstantBlocks

/-!
# The critical sections of the hand-off

`srd_inst_decode` hands a chunk over to the worker thread and waits until it has
been handled; the wait loop of the worker scans the chunk until a condition
matches, or gives it back.  Everything either side does to the shared fields
happens in a few critical sections under `data_mutex`.  Each of them is one
function here.
-/

set_option linter.dupNamespace false

namespace SigrokDecode

/-- The arguments of `srd_inst_decode` that describe a chunk. -/
structure SampleChunk where
  absStartSamplenum : Nat
  absEndSamplenum : Nat
  inbuf : Option (List (Option (List UInt8)))
  inbufConst : Option (List UInt8)
  inbuflen : Nat

/-- The two kinds of decoders; their wait loops differ slightly. -/
inductive WorkerKind where
  | cDecoder
  | pythonDecoder
  deriving DecidableEq

namespace SrdDecoderInst

/-- The flags `srd_inst_start` sets. -/
def srdInstStart (di : SrdDecoderInst) : SrdDecoderInst :=
  { di with
    firstPos := true
    absCurMatched := false
    skipZero := false }

def storeChunk (di : SrdDecoderInst) (chunk : SampleChunk) : SrdDecoderInst :=
  { di with
    absStartSamplenum := chunk.absStartSamplenum
    absEndSamplenum := chunk.absEndSamplenum
    inbuf := chunk.inbuf
    inbufConst := chunk.inbufConst
    inbuflen := chunk.inbuflen
    gotNewSamples := true
    handledAllSamples := false }

def seekFirst (di : SrdDecoderInst) (chunk : SampleChunk) : SrdDecoderInst :=
  if di.firstPos then di.seek chunk.absStartSamplenum else di

/-- `srd_inst_decode` up to the end of its first critical section. -/
def srdInstDecodeHandOver
    (di : SrdDecoderInst) (chunk : SampleChunk) : SrdStatus × SrdDecoderInst :=
  if chunk.inbuf = none ∨ chunk.inbuflen = 0 then
    (.errArg, di)
  else
    let di := di.seekFirst chunk
    if chunk.absStartSamplenum ≠ di.absCurSamplenum ∨
        chunk.absEndSamplenum < chunk.absStartSamplenum then
      (.errArg, di)
    else
      (.ok, di.storeChunk chunk)

/-- The condition on which `srd_inst_decode` stops waiting. -/
def decodeMayReturn (di : SrdDecoderInst) : Bool :=
  di.handledAllSamples || di.wantWaitTerminate

def startWait (di : SrdDecoderInst) (conds : List Condition) : SrdDecoderInst :=
  if conds = [] then di else { di with conditionList := conds }

/-- What a critical section of the wait loop ends with. -/
inductive WaitResult where
  /-- No samples yet; the worker sleeps on the condition variable. -/
  | blocked
  /-- Termination was requested. -/
  | terminated
  /-- A condition matched; `wait` returns the sample number and match bits. -/
  | matched (samplenum : Nat) (matchArray : BitVec 64)
  /-- The chunk is used up and has been given back. -/
  | released

/-- The wait loop gives the chunk back.  The pointer to the constants stays. -/
def releaseChunk (di : SrdDecoderInst) : SrdDecoderInst :=
  { di with
    gotNewSamples := false
    handledAllSamples := true
    absStartSamplenum := 0
    absEndSamplenum := 0
    inbuf := none
    inbuflen := 0 }

/-- The critical section of the loop in `c_decoder_wait_impl`. -/
def cDecoderWaitRegion (di : SrdDecoderInst) : WaitResult × SrdDecoderInst :=
  if ¬ di.gotNewSamples ∧ ¬ di.wantWaitTerminate then
    (.blocked, di)
  else if di.wantWaitTerminate then
    (.terminated, di)
  else
    let (foundMatch, after) := di.processSamplesUntilConditionMatch
    if foundMatch then
      (.matched after.absCurSamplenum after.matchArray,
        { after with firstPos := false }.fillPinCache)
    else if after.wantWaitTerminate then
      (.terminated, after.releaseChunk)
    else
      (.released, after.releaseChunk)

/-- The critical section of the loop in `Decoder_wait`. -/
def decoderWaitRegion (di : SrdDecoderInst) : WaitResult × SrdDecoderInst :=
  if ¬ di.gotNewSamples ∧ ¬ di.wantWaitTerminate then
    (.blocked, di)
  else
    let (foundMatch, after) := di.processSamplesUntilConditionMatch
    if foundMatch then
      (.matched after.absCurSamplenum after.matchArray, after)
    else if after.wantWaitTerminate then
      (.terminated, after.releaseChunk)
    else
      (.released, after.releaseChunk)

def waitRegion (kind : WorkerKind) (di : SrdDecoderInst) : WaitResult × SrdDecoderInst :=
  match kind with
  | .cDecoder => di.cDecoderWaitRegion
  | .pythonDecoder => di.decoderWaitRegion

section Running

variable {di : SrdDecoderInst}

theorem fillPinCache_scan (di : SrdDecoderInst) : di.fillPinCache.scan = di.scan := by
  simp only [fillPinCache]
  split
  · rfl
  · rfl

theorem waitRegion_blocked (kind : WorkerKind) (running : di.wantWaitTerminate = false)
    (noSamples : di.gotNewSamples = false) :
    di.waitRegion kind = (.blocked, di) := by
  cases kind with
  | cDecoder =>
      simp [waitRegion, cDecoderWaitRegion, running, noSamples]
  | pythonDecoder =>
      simp [waitRegion, decoderWaitRegion, running, noSamples]

theorem processSamples_eq_findMatch (running : di.wantWaitTerminate = false) :
    di.processSamplesUntilConditionMatch = di.findMatch := by
  simp [processSamplesUntilConditionMatch, running, processSamplesLoop_eq_findMatch]

def afterMatch (kind : WorkerKind) (di : SrdDecoderInst) : SrdDecoderInst :=
  match kind with
  | .cDecoder => { di with firstPos := false }.fillPinCache
  | .pythonDecoder => di

/-- With samples at hand a critical section is one call of `find_match`. -/
theorem waitRegion_eq (kind : WorkerKind) (running : di.wantWaitTerminate = false)
    (samples : di.gotNewSamples = true) :
    di.waitRegion kind =
      if di.findMatch.1 then
        (.matched di.findMatch.2.absCurSamplenum di.findMatch.2.matchArray,
          afterMatch kind di.findMatch.2)
      else
        (.released, di.findMatch.2.releaseChunk) := by
  have stillRunning : di.findMatch.2.wantWaitTerminate = false :=
    (congrArg InstFrame.wantWaitTerminate (findMatch_frame di)).trans running
  cases kind with
  | cDecoder =>
      simp [waitRegion, cDecoderWaitRegion, running, samples,
        processSamples_eq_findMatch running, stillRunning, afterMatch]
  | pythonDecoder =>
      simp [waitRegion, decoderWaitRegion, running, samples,
        processSamples_eq_findMatch running, stillRunning, afterMatch]

/-- Both instances hold the same chunk and the same flags of the hand-off. -/
structure SameChunk (left right : SrdDecoderInst) : Prop where
  decChannelmap : left.decChannelmap = right.decChannelmap
  absStartSamplenum : left.absStartSamplenum = right.absStartSamplenum
  absEndSamplenum : left.absEndSamplenum = right.absEndSamplenum
  inbuf : left.inbuf = right.inbuf
  inbufConst : left.inbufConst = right.inbufConst
  readSample : left.readSample = right.readSample
  gotNewSamples : left.gotNewSamples = right.gotNewSamples
  handledAllSamples : left.handledAllSamples = right.handledAllSamples
  wantWaitTerminate : left.wantWaitTerminate = right.wantWaitTerminate

theorem SameChunk.trans {first second third : SrdDecoderInst}
    (left : SameChunk first second) (right : SameChunk second third) :
    SameChunk first third where
  decChannelmap := left.decChannelmap.trans right.decChannelmap
  absStartSamplenum := left.absStartSamplenum.trans right.absStartSamplenum
  absEndSamplenum := left.absEndSamplenum.trans right.absEndSamplenum
  inbuf := left.inbuf.trans right.inbuf
  inbufConst := left.inbufConst.trans right.inbufConst
  readSample := left.readSample.trans right.readSample
  gotNewSamples := left.gotNewSamples.trans right.gotNewSamples
  handledAllSamples := left.handledAllSamples.trans right.handledAllSamples
  wantWaitTerminate := left.wantWaitTerminate.trans right.wantWaitTerminate

variable {left right : SrdDecoderInst}

theorem sameChunk_of_frame (same : left.frame = right.frame) : SameChunk left right where
  decChannelmap := congrArg InstFrame.decChannelmap same
  absStartSamplenum := congrArg InstFrame.absStartSamplenum same
  absEndSamplenum := congrArg InstFrame.absEndSamplenum same
  inbuf := congrArg InstFrame.inbuf same
  inbufConst := congrArg InstFrame.inbufConst same
  readSample := congrArg InstFrame.readSample same
  gotNewSamples := congrArg InstFrame.gotNewSamples same
  handledAllSamples := congrArg InstFrame.handledAllSamples same
  wantWaitTerminate := congrArg InstFrame.wantWaitTerminate same

theorem fillPinCache_sameChunk (di : SrdDecoderInst) : SameChunk di.fillPinCache di := by
  simp only [fillPinCache]
  split
  · exact sameChunk_of_frame rfl
  · exact ⟨rfl, rfl, rfl, rfl, rfl, rfl, rfl, rfl, rfl⟩

theorem afterMatch_sameChunk (kind : WorkerKind) (di : SrdDecoderInst) :
    SameChunk (afterMatch kind di) di := by
  cases kind with
  | cDecoder =>
      exact (fillPinCache_sameChunk _).trans (sameChunk_of_frame rfl)
  | pythonDecoder => exact sameChunk_of_frame rfl

theorem startWait_sameChunk (di : SrdDecoderInst) (conds : List Condition) :
    SameChunk (di.startWait conds) di := by
  simp only [startWait]
  split
  · exact sameChunk_of_frame rfl
  · exact sameChunk_of_frame rfl

theorem afterMatch_scan (kind : WorkerKind) (di : SrdDecoderInst) : (afterMatch kind di).scan =
      match kind with
      | .cDecoder => { di.scan with firstPos := false }
      | .pythonDecoder => di.scan := by
  cases kind with
  | cDecoder => exact fillPinCache_scan _
  | pythonDecoder => rfl

theorem startWait_scan (di : SrdDecoderInst) (conds : List Condition) : (di.startWait conds).scan =
      if conds = [] then di.scan else { di.scan with conditionList := conds } := by
  simp only [startWait]
  split
  · rfl
  · rfl

theorem SameChunk.sampleAt_eq
    (same : SameChunk left right) : left.sampleAt = right.sampleAt := by
  funext samplenum ch
  simp only [sampleAt, termSample, seek, inbufAt, inbufConstAt,
    same.absStartSamplenum, same.absEndSamplenum, same.inbuf, same.inbufConst,
    same.readSample]
  rfl

theorem SameChunk.inChunk_eq
    (same : SameChunk left right) : left.InChunk = right.InChunk := by
  funext samplenum
  simp only [InChunk, same.absStartSamplenum, same.absEndSamplenum]

theorem waitRegion_wantWaitTerminate (kind : WorkerKind) (di : SrdDecoderInst) :
    (di.waitRegion kind).2.wantWaitTerminate = di.wantWaitTerminate := by
  by_cases running : di.wantWaitTerminate = false
  · by_cases samples : di.gotNewSamples = true
    · have kept :=
        (sameChunk_of_frame (findMatch_frame di)).wantWaitTerminate
      rw [waitRegion_eq kind running samples]
      split
      · exact ((afterMatch_sameChunk kind _).wantWaitTerminate).trans kept
      · exact kept
    · rw [waitRegion_blocked kind running (by simpa using samples)]
  · have terminating : di.wantWaitTerminate = true := by simpa using running
    have none : di.processSamplesUntilConditionMatch = (false, di) := by
      simp [processSamplesUntilConditionMatch, terminating]
    cases kind with
    | cDecoder =>
        have region : di.waitRegion .cDecoder = (.terminated, di) := by
          simp [waitRegion, cDecoderWaitRegion, terminating]
        rw [region]
    | pythonDecoder =>
        have region : di.waitRegion .pythonDecoder = (.terminated, di.releaseChunk) := by
          simp [waitRegion, decoderWaitRegion, terminating, none]
        rw [region]
        rfl

end Running

def freshInstance : SrdDecoderInst :=
  { decChannelmap := [0]
    conditionList := []
    matchArray := 0
    absStartSamplenum := 0
    absEndSamplenum := 0
    inbuf := none
    inbufConst := none
    inbuflen := 0
    absCurSamplenum := 0
    absCurMatched := false
    oldPinsArray := none
    gotNewSamples := false
    handledAllSamples := false
    wantWaitTerminate := false
    firstPos := true
    skipZero := false
    cPinCache := none
    cPinCacheSamplenum := 0
    readSample := none }

def byteChunk (start stop : Nat) (byte : UInt8) : SampleChunk :=
  { absStartSamplenum := start
    absEndSamplenum := stop
    inbuf := some [some [byte]]
    inbufConst := none
    inbuflen := 1 }

end SrdDecoderInst

end SigrokDecode
