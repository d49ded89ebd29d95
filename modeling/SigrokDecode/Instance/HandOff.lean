import SigrokDecode.Foundation.StepSystem
import SigrokDecode.Instance.WaitLoop

/-!
# Host and worker as a step system

The steps are the critical sections of `srd_inst_decode`, of the wait loop, of
the end of the worker thread and of `srd_inst_terminate_reset`, in any order the
two threads allow.  Either side may wake up at any time; it goes back to sleep
when its condition does not hold.
-/

set_option linter.dupNamespace false

namespace SigrokDecode

open Foundation SrdDecoderInst

/-- How the decode function of the worker has ended. -/
inductive DecodeResult where
  /-- A C decoder returned. -/
  | cReturned
  /-- `decode()` of a Python decoder raised an exception. -/
  | pyRaised
  /-- It returned a string, which may have no UTF-8 form. -/
  | pyString (encodable : Bool)
  /-- It returned any other object; without a `return` this is `None`. -/
  | pyOther
  deriving DecidableEq

/-- Whether `di_thread` or `c_di_thread` stores an error string. -/
def DecodeResult.storesError (isTaskStopSignal : Bool) : DecodeResult → Bool
  | .cReturned => false
  | .pyRaised => !isTaskStopSignal
  | .pyString encodable => encodable
  | .pyOther => true

def DecodeResult.OfKind : WorkerKind → DecodeResult → Prop
  | .cDecoder, result => result = .cReturned
  | .pythonDecoder, result => result ≠ .cReturned

inductive WorkerPhase where
  /-- No thread exists; `thread_handle` is `NULL`. -/
  | notStarted
  /-- In the code of the decoder, between two waits. -/
  | decoding
  | inWait
  /-- The decode function has returned. -/
  | returned (result : DecodeResult)
  /-- The error string, if there is one, has been stored. -/
  | reported
  /-- The last critical section of the thread is over. -/
  | ended
  deriving DecidableEq

/-- A worker that a call can hand samples to; without a thread the call creates
one. -/
def WorkerPhase.live : WorkerPhase → Bool
  | .notStarted | .decoding | .inWait => true
  | .returned _ | .reported | .ended => false

/-- A call of `srd_inst_decode`, with what held when it was made. -/
structure DecodeCall where
  di : SrdDecoderInst
  chunk : SampleChunk
  live : Bool
  /-- An error string is stored, or the worker that has returned will store
  one. -/
  errorDue : Bool

inductive HostPhase where
  | idle
  /-- In the wait of `srd_inst_decode`. -/
  | waiting (call : DecodeCall)
  /-- Behind that wait, before the error string is taken. -/
  | extracting (call : DecodeCall)
  /-- Waiting in `srd_inst_terminate_reset` for the thread to end. -/
  | joining

/-- Both threads, with the history of the run. -/
structure HandOffState where
  di : SrdDecoderInst
  /-- There is an error string: `error_message` or `python_proc_error`. -/
  error : Bool
  isTaskStopSignal : Bool
  host : HostPhase
  worker : WorkerPhase
  /-- How many chunks have been handed over, and how many given back. -/
  handed : Nat
  released : Nat
  /-- The end of the last chunk. -/
  chunkEnd : Nat
  /-- The first sample no scan has tested yet. -/
  untested : Nat
  /-- The finished calls with their return codes. -/
  calls : List (DecodeCall × SrdStatus)

/-- The steps of the two threads. -/
inductive HandOffLabel where
  | decodeCall (chunk : SampleChunk) (status : SrdStatus)
  | hostWakes
  | decodeReturns (status : SrdStatus)
  | terminate
  | reset
  | callRaises
  | start
  | waitCall (conds : List Condition)
  | waitRegion (result : WaitResult)
  | pinRead
  | decodeEnds (result : DecodeResult)
  | errorStored
  | threadEnds

/-- What the environment of the two threads does. -/
structure HandOffPolicy where
  chunk : HandOffState → SampleChunk → Prop
  conds : List Condition → Prop
  resets : Prop

namespace SrdDecoderInst

/-- The last critical section of the worker thread. -/
def endThread (di : SrdDecoderInst) : SrdDecoderInst :=
  { di with
    wantWaitTerminate := true
    handledAllSamples := true }

def srdInstResetState (di : SrdDecoderInst) : SrdDecoderInst :=
  { di with
    conditionList := []
    absStartSamplenum := 0
    absEndSamplenum := 0
    inbuf := none
    inbuflen := 0
    absCurSamplenum := 0
    oldPinsArray := none
    gotNewSamples := false
    handledAllSamples := false
    wantWaitTerminate := false }

end SrdDecoderInst

namespace HandOffState

def errorDue (state : HandOffState) : Bool :=
  state.error ||
    match state.worker with
    | .returned result => result.storesError state.isTaskStopSignal
    | _ => false

def callOf (state : HandOffState) (chunk : SampleChunk) : DecodeCall :=
  { di := state.di
    chunk
    live := state.worker.live
    errorDue := state.errorDue }

/-- The first critical section of `srd_inst_decode`. -/
def decodeCall (state : HandOffState) (chunk : SampleChunk) : SrdStatus × HandOffState :=
  match state.di.srdInstDecodeHandOver chunk with
  | (.ok, di) =>
      (.ok,
        { state with
          di
          host := .waiting (state.callOf chunk)
          worker :=
            if state.worker = .notStarted then .decoding else state.worker
          handed := state.handed + 1
          chunkEnd := chunk.absEndSamplenum })
  | (status, di) =>
      (status,
        { state with
          di
          calls := state.calls ++ [(state.callOf chunk, status)] })

/-- What makes `srd_inst_decode` refuse a chunk. -/
def Refused (di : SrdDecoderInst) (chunk : SampleChunk) : Prop :=
  chunk.inbuf = none ∨ chunk.inbuflen = 0 ∨
    (di.firstPos = false ∧ chunk.absStartSamplenum ≠ di.absCurSamplenum) ∨
    chunk.absEndSamplenum < chunk.absStartSamplenum

/-- `srd_inst_decode` takes the error string and returns. -/
def decodeReturn (state : HandOffState) (call : DecodeCall) : SrdStatus × HandOffState :=
  let status := if state.error then .errTermReq else .ok
  (status,
    { state with
      error := false
      host := .idle
      calls := state.calls ++ [(call, status)] })

def waitRegion (state : HandOffState) (kind : WorkerKind) : WaitResult × HandOffState :=
  match state.di.waitRegion kind with
  | (.blocked, di) => (.blocked, { state with di })
  | (.terminated, di) => (.terminated, { state with di, worker := .decoding })
  | (.matched samplenum matchArray, di) =>
      (.matched samplenum matchArray,
        { state with
          di
          worker := .decoding
          untested :=
            if state.di.haveNonNullConds then samplenum + 1 else state.untested })
  | (.released, di) =>
      (.released,
        { state with
          di
          released := state.released + 1
          untested := di.absCurSamplenum })

theorem seekFirst_wantWaitTerminate (di : SrdDecoderInst) (chunk : SampleChunk) :
    (di.seekFirst chunk).wantWaitTerminate = di.wantWaitTerminate := by
  simp only [seekFirst]
  split
  · rfl
  · rfl

/-- A call is refused, and only `first_pos` may have moved the position, or the
host waits and the worker has the chunk. -/
theorem decodeCall_cases (state : HandOffState) (chunk : SampleChunk) : (Refused state.di chunk ∧
      ∃ di, di.wantWaitTerminate = state.di.wantWaitTerminate ∧ state.decodeCall chunk = (.errArg,
            { state with
              di
              calls := state.calls ++ [(state.callOf chunk, .errArg)] })) ∨
    (¬ Refused state.di chunk ∧ state.decodeCall chunk = (.ok,
          { state with
            di := (state.di.seekFirst chunk).storeChunk chunk
            host := .waiting (state.callOf chunk)
            worker :=
              if state.worker = .notStarted then .decoding else state.worker
            handed := state.handed + 1
            chunkEnd := chunk.absEndSamplenum })) := by
  have sought : (chunk.absStartSamplenum ≠ (state.di.seekFirst chunk).absCurSamplenum ∨
          chunk.absEndSamplenum < chunk.absStartSamplenum) ↔
        (state.di.firstPos = false ∧ chunk.absStartSamplenum ≠ state.di.absCurSamplenum) ∨
          chunk.absEndSamplenum < chunk.absStartSamplenum := by
    by_cases first : state.di.firstPos = true
    · simp [seekFirst, first]
    · simp [seekFirst, first]
  by_cases unusable : chunk.inbuf = none ∨ chunk.inbuflen = 0
  · refine Or.inl ⟨?_, state.di, rfl, ?_⟩
    · rcases unusable with absent | empty
      · exact Or.inl absent
      · exact Or.inr (Or.inl empty)
    · simp only [decodeCall, srdInstDecodeHandOver, if_pos unusable]
  · by_cases outOfOrder : chunk.absStartSamplenum ≠ (state.di.seekFirst chunk).absCurSamplenum ∨
          chunk.absEndSamplenum < chunk.absStartSamplenum
    · refine Or.inl ⟨Or.inr (Or.inr (sought.mp outOfOrder)), _,
        seekFirst_wantWaitTerminate state.di chunk, ?_⟩
      simp only [decodeCall, srdInstDecodeHandOver, if_neg unusable, if_pos outOfOrder]
    · refine Or.inr ⟨?_, ?_⟩
      · rintro (absent | empty | order)
        · exact unusable (Or.inl absent)
        · exact unusable (Or.inr empty)
        · exact outOfOrder (sought.mpr order)
      · simp only [decodeCall, srdInstDecodeHandOver, if_neg unusable, if_neg outOfOrder]

theorem decodeCall_wantWaitTerminate (state : HandOffState) (chunk : SampleChunk) :
    (state.decodeCall chunk).2.di.wantWaitTerminate =
      state.di.wantWaitTerminate := by
  rcases state.decodeCall_cases chunk with ⟨_, di, kept, result⟩ | ⟨_, result⟩
  · rw [result]
    exact kept
  · rw [result]
    exact seekFirst_wantWaitTerminate state.di chunk

theorem waitRegion_keeps (kind : WorkerKind) (state : HandOffState) :
    (state.waitRegion kind).2.host = state.host ∧ (state.waitRegion kind).2.calls = state.calls ∧
      (state.waitRegion kind).2.error = state.error ∧
      (state.waitRegion kind).2.di.wantWaitTerminate = state.di.wantWaitTerminate ∧
      ((state.waitRegion kind).2.worker = state.worker ∨
        (state.waitRegion kind).2.worker = .decoding) := by
  have kept := waitRegion_wantWaitTerminate kind state.di
  simp only [waitRegion]
  split
  all_goals
    rename_i region
    rw [region] at kept
  · exact ⟨rfl, rfl, rfl, kept, Or.inl rfl⟩
  · exact ⟨rfl, rfl, rfl, kept, Or.inr rfl⟩
  · exact ⟨rfl, rfl, rfl, kept, Or.inr rfl⟩
  · exact ⟨rfl, rfl, rfl, kept, Or.inl rfl⟩

end HandOffState

inductive HandOffStep (kind : WorkerKind) (policy : HandOffPolicy) :
    HandOffState → HandOffLabel → HandOffState → Prop where
  | decodeCall {state : HandOffState} {chunk : SampleChunk}
      (idle : state.host = .idle) (allowed : policy.chunk state chunk) :
      HandOffStep kind policy state (.decodeCall chunk (state.decodeCall chunk).1)
        (state.decodeCall chunk).2
  | hostWakes {state : HandOffState} {call : DecodeCall}
      (waiting : state.host = .waiting call) :
      HandOffStep kind policy state .hostWakes
        (if state.di.decodeMayReturn then
          { state with host := .extracting call }
        else
          state)
  | decodeReturns {state : HandOffState} {call : DecodeCall}
      (extracting : state.host = .extracting call) :
      HandOffStep kind policy state (.decodeReturns (state.decodeReturn call).1)
        (state.decodeReturn call).2
  | terminate {state : HandOffState}
      (idle : state.host = .idle) (thread : state.worker ≠ .notStarted) :
      HandOffStep kind policy state .terminate
        { state with
          di := { state.di with wantWaitTerminate := true }
          isTaskStopSignal := true
          host := .joining }
  | resetJoined {state : HandOffState} (allowed : policy.resets)
      (joining : state.host = .joining) (ended : state.worker = .ended) :
      HandOffStep kind policy state .reset
        { state with
          di := state.di.srdInstResetState
          host := .idle
          worker := .notStarted }
  | resetIdle {state : HandOffState} (allowed : policy.resets)
      (idle : state.host = .idle) (noThread : state.worker = .notStarted) :
      HandOffStep kind policy state .reset
        { state with di := state.di.srdInstResetState }
  /-- `metadata()` or `reset()` of a Python decoder raises an exception. -/
  | callRaises {state : HandOffState}
      (idle : state.host = .idle) (python : kind = .pythonDecoder) :
      HandOffStep kind policy state .callRaises { state with error := true }
  | start {state : HandOffState} (allowed : policy.resets)
      (idle : state.host = .idle) (noThread : state.worker = .notStarted) :
      HandOffStep kind policy state .start
        { state with di := state.di.srdInstStart }
  | waitCall {state : HandOffState} {conds : List Condition}
      (decoding : state.worker = .decoding) (allowed : policy.conds conds)
      (accepted : kind = .cDecoder ∨ state.di.wantWaitTerminate = false) :
      HandOffStep kind policy state (.waitCall conds)
        { state with
          di := state.di.startWait conds
          worker := .inWait }
  | waitRegion {state : HandOffState} (waiting : state.worker = .inWait) :
      HandOffStep kind policy state (.waitRegion (state.waitRegion kind).1)
        (state.waitRegion kind).2
  | pinRead {state : HandOffState} (decoding : state.worker = .decoding) :
      HandOffStep kind policy state .pinRead state
  | decodeEnds {state : HandOffState} {result : DecodeResult}
      (decoding : state.worker = .decoding) (possible : result.OfKind kind) :
      HandOffStep kind policy state (.decodeEnds result)
        { state with worker := .returned result }
  | errorStored {state : HandOffState} {result : DecodeResult}
      (returned : state.worker = .returned result) :
      HandOffStep kind policy state .errorStored
        { state with
          error := state.error || result.storesError state.isTaskStopSignal
          worker := .reported }
  | threadEnds {state : HandOffState} (reported : state.worker = .reported) :
      HandOffStep kind policy state .threadEnds
        { state with
          di := state.di.endThread
          worker := .ended }

/-- An instance that has been started and has no thread yet. -/
structure HandOffInit (state : HandOffState) : Prop where
  started : state.di.firstPos = true
  conditionList : state.di.conditionList = []
  skipZero : state.di.skipZero = false
  gotNewSamples : state.di.gotNewSamples = false
  handledAllSamples : state.di.handledAllSamples = false
  wantWaitTerminate : state.di.wantWaitTerminate = false
  inbuf : state.di.inbuf = none
  error : state.error = false
  host : state.host = .idle
  worker : state.worker = .notStarted
  handed : state.handed = 0
  released : state.released = 0
  untested : state.untested = 0
  calls : state.calls = []

def handOff (kind : WorkerKind) (policy : HandOffPolicy) :
    StepSystem HandOffState HandOffLabel where
  Init := HandOffInit
  Step := HandOffStep kind policy

def freshHandOff : HandOffState :=
  { di := freshInstance
    error := false
    isTaskStopSignal := false
    host := .idle
    worker := .notStarted
    handed := 0
    released := 0
    chunkEnd := 0
    untested := 0
    calls := [] }

theorem freshHandOff_init : HandOffInit freshHandOff :=
  ⟨rfl, rfl, rfl, rfl, rfl, rfl, rfl, rfl, rfl, rfl, rfl, rfl, rfl, rfl⟩

theorem HandOffInit.reachable
    {kind : WorkerKind} {policy : HandOffPolicy} {state : HandOffState}
    (starts : HandOffInit state) : (handOff kind policy).Reachable state :=
  .init starts

theorem HandOffStep.reachable
    {kind : WorkerKind} {policy : HandOffPolicy} {state next : HandOffState}
    {label : HandOffLabel} (move : HandOffStep kind policy state label next)
    (before : (handOff kind policy).Reachable state) :
    (handOff kind policy).Reachable next :=
  .step before move

end SigrokDecode
