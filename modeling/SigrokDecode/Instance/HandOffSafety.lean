import SigrokDecode.Instance.HandOff

/-!
# The hand-off is safe

While termination has not been requested, the chunk is either with the worker,
and the host waits for it, or it has been given back, and the position is at its
end.  Everything else follows from this invariant.
-/

set_option linter.dupNamespace false

namespace SigrokDecode

open Foundation SrdDecoderInst

/-- The host hands over consecutive non-empty chunks, and the decoder waits for
non-empty condition lists without zero skips. -/
def consecutivePolicy : HandOffPolicy where
  chunk state chunk :=
    chunk.inbuf ≠ none ∧ chunk.inbuflen ≠ 0 ∧ chunk.absStartSamplenum < chunk.absEndSamplenum ∧
      chunk.absEndSamplenum < 2 ^ 64 ∧
      (state.handed ≠ 0 → chunk.absStartSamplenum = state.chunkEnd)
  conds conds := conds ≠ [] ∧ ZeroSkipFree conds
  resets := False

namespace HandOffState

/-- The last chunk has been given back. -/
structure Settled (state : HandOffState) : Prop where
  gotNewSamples : state.di.gotNewSamples = false
  inbuf : state.di.inbuf = none
  released : state.released = state.handed
  untested : state.untested ≤ state.di.absCurSamplenum
  first : state.handed = 0 → state.di.firstPos = true ∧ state.untested = 0
  later : state.handed ≠ 0 → state.di.absCurSamplenum = state.chunkEnd ∧
      state.di.handledAllSamples = true
  host : state.host ≠ .idle → state.handed ≠ 0

/-- The worker has a chunk. -/
structure Busy (state : HandOffState) : Prop where
  gotNewSamples : state.di.gotNewSamples = true
  handledAllSamples : state.di.handledAllSamples = false
  inbuf : state.di.inbuf ≠ none
  released : state.released + 1 = state.handed
  atSample : state.di.AtSample
  chunkEnd : state.di.absEndSamplenum = state.chunkEnd
  untested : state.untested ≤ state.di.firstTested
  host : ∃ call, state.host = .waiting call

/-- What holds in every reachable state without a request to terminate. -/
structure HandOffInv (state : HandOffState) : Prop where
  steady : state.di.Steady
  phase : state.Settled ∨ state.Busy

variable {state : HandOffState} {di : SrdDecoderInst} {kind : WorkerKind} {label : HandOffLabel}

theorem handOffInv_init (starts : HandOffInit state) : state.HandOffInv := by
  have free : ZeroSkipFree state.di.conditionList := by
    rw [starts.conditionList]
    intro cond member
    cases member
  refine ⟨⟨starts.skipZero, free⟩, Or.inl ?_⟩
  constructor
  case gotNewSamples => exact starts.gotNewSamples
  case inbuf => exact starts.inbuf
  case released => rw [starts.released, starts.handed]
  case untested => rw [starts.untested]; exact Nat.zero_le _
  case first =>
      intro _
      exact ⟨starts.started, starts.untested⟩
  case later =>
      intro some
      exact absurd starts.handed some
  case host =>
      intro notIdle
      exact absurd starts.host notIdle

/-! ## The steps -/

theorem Busy.not_idle (busy : state.Busy) : state.host ≠ .idle := by
  obtain ⟨call, waiting⟩ := busy.host
  rw [waiting]
  intro idle
  cases idle

theorem decodeCall_busy
    {chunk : SampleChunk}
    (steady : state.di.Steady) (settled : state.Settled)
    (allowed : consecutivePolicy.chunk state chunk) :
    (state.decodeCall chunk).1 = .ok ∧ (state.decodeCall chunk).2.di.Steady ∧
      (state.decodeCall chunk).2.Busy := by
  obtain ⟨buffer, length, nonempty, fits, consecutive⟩ := allowed
  have position : (state.di.seekFirst chunk).absCurSamplenum = chunk.absStartSamplenum := by
    simp only [seekFirst]
    split
    · rfl
    · rename_i notFirst
      have later : state.handed ≠ 0 := by
        intro none
        exact notFirst (settled.first none).1
      exact (settled.later later).1.trans (consecutive later).symm
  have untested : state.untested ≤ chunk.absStartSamplenum := by
    by_cases none : state.handed = 0
    · rw [(settled.first none).2]
      exact Nat.zero_le _
    · rw [consecutive none, ← (settled.later none).1]
      exact settled.untested
  have kept : (state.di.seekFirst chunk).Steady := by
    simp only [seekFirst]
    split
    · exact steady.seek _
    · exact steady
  obtain ⟨refused, _⟩ | ⟨_, accepted⟩ := state.decodeCall_cases chunk
  · rcases refused with absent | empty | ⟨notFirst, gap⟩ | reversed
    · exact absurd absent buffer
    · exact absurd empty length
    · simp only [seekFirst, notFirst] at position
      exact absurd position.symm gap
    · omega
  rw [accepted]
  refine ⟨rfl, ⟨kept.idle, kept.free⟩, ?_⟩
  constructor
  case gotNewSamples => rfl
  case handledAllSamples => rfl
  case inbuf => exact buffer
  case released => exact congrArg (· + 1) settled.released
  case atSample =>
      refine ⟨?_, fits⟩
      change chunk.absStartSamplenum ≤ (state.di.seekFirst chunk).absCurSamplenum ∧
        (state.di.seekFirst chunk).absCurSamplenum < chunk.absEndSamplenum
      omega
  case chunkEnd => rfl
  case untested =>
      change state.untested ≤
        if (state.di.seekFirst chunk).absCurMatched then
          incSamplenum (state.di.seekFirst chunk).absCurSamplenum
        else
          (state.di.seekFirst chunk).absCurSamplenum
      have next : incSamplenum (state.di.seekFirst chunk).absCurSamplenum =
            (state.di.seekFirst chunk).absCurSamplenum + 1 :=
        if_neg (by omega)
      split
      · omega
      · omega
  case host => exact ⟨_, rfl⟩

/-- The parts of the invariant that depend on the instance only through its
chunk, its position and its flags. -/
theorem Settled.of_sameChunk
    {host : HostPhase}
    {worker : WorkerPhase} {error isTaskStopSignal : Bool}
    {calls : List (DecodeCall × SrdStatus)}
    (settled : state.Settled) (same : SameChunk di state.di)
    (position : di.absCurSamplenum = state.di.absCurSamplenum)
    (first : di.firstPos = state.di.firstPos)
    (leaves : host ≠ .idle → state.host ≠ .idle) :
    { state with di, host, worker, error, isTaskStopSignal, calls }.Settled where
  gotNewSamples := same.gotNewSamples.trans settled.gotNewSamples
  inbuf := same.inbuf.trans settled.inbuf
  released := settled.released
  untested := by
    rw [position]
    exact settled.untested
  first := by
    intro none
    exact ⟨first.trans (settled.first none).1, (settled.first none).2⟩
  later := by
    intro some
    obtain ⟨last, handled⟩ := settled.later some
    exact ⟨position.trans last, same.handledAllSamples.trans handled⟩
  host := by
    intro notIdle
    exact settled.host (leaves notIdle)

theorem Busy.of_sameChunk
    {host : HostPhase}
    {worker : WorkerPhase} {error isTaskStopSignal : Bool}
    {calls : List (DecodeCall × SrdStatus)}
    (busy : state.Busy) (same : SameChunk di state.di)
    (position : di.absCurSamplenum = state.di.absCurSamplenum)
    (matched : di.absCurMatched = state.di.absCurMatched)
    (stays : host = state.host) :
    { state with di, host, worker, error, isTaskStopSignal, calls }.Busy where
  gotNewSamples := same.gotNewSamples.trans busy.gotNewSamples
  handledAllSamples := same.handledAllSamples.trans busy.handledAllSamples
  inbuf := by
    rw [same.inbuf]
    exact busy.inbuf
  released := busy.released
  atSample := by
    constructor
    · rw [same.inChunk_eq, position]
      exact busy.atSample.inChunk
    · rw [same.absEndSamplenum]
      exact busy.atSample.fits
  chunkEnd := same.absEndSamplenum.trans busy.chunkEnd
  untested := by
    simp only [firstTested, position, matched]
    exact busy.untested
  host := by
    rw [stays]
    exact busy.host

theorem startWait_steady
    {conds : List Condition} (steady : di.Steady)
    (free : ZeroSkipFree conds) : (di.startWait conds).Steady := by
  simp only [startWait]
  split
  · exact steady
  · exact ⟨steady.idle, free⟩

theorem afterMatch_steady (kind : WorkerKind) (steady : di.Steady) :
    (afterMatch kind di).Steady := by
  have state := afterMatch_scan kind di
  have idle := congrArg ScanState.skipZero state
  have conds := congrArg ScanState.conditionList state
  cases kind with
  | cDecoder =>
      refine ⟨idle.trans steady.idle, ?_⟩
      rw [show (afterMatch .cDecoder di).conditionList = di.conditionList from conds]
      exact steady.free
  | pythonDecoder => exact steady

theorem waitRegion_inv (kind : WorkerKind) (running : state.di.wantWaitTerminate = false)
    (steady : state.di.Steady) (busy : state.Busy) :
    (state.waitRegion kind).2.HandOffInv := by
  have region := waitRegion_eq kind running busy.gotNewSamples
  have ends := findMatch_ends steady busy.atSample
  have sameChunk := sameChunk_of_frame (findMatch_frame state.di)
  obtain ⟨call, waiting⟩ := busy.host
  by_cases found : state.di.findMatch.1 = true
  · have inside := ends.found found
    rw [if_pos found] at region
    have after := (afterMatch_sameChunk kind state.di.findMatch.2).trans sameChunk
    have scanned := afterMatch_scan kind state.di.findMatch.2
    have position : (afterMatch kind state.di.findMatch.2).absCurSamplenum =
          state.di.findMatch.2.absCurSamplenum := by
      have kept := congrArg ScanState.absCurSamplenum scanned
      cases kind with
      | cDecoder => exact kept
      | pythonDecoder => exact kept
    have matched : (afterMatch kind state.di.findMatch.2).absCurMatched =
          state.di.findMatch.2.absCurMatched := by
      have kept := congrArg ScanState.absCurMatched scanned
      cases kind with
      | cDecoder => exact kept
      | pythonDecoder => exact kept
    simp only [HandOffState.waitRegion, region]
    refine ⟨afterMatch_steady kind ends.steady, Or.inr ?_⟩
    constructor
    case gotNewSamples => exact after.gotNewSamples.trans busy.gotNewSamples
    case handledAllSamples =>
        exact after.handledAllSamples.trans busy.handledAllSamples
    case inbuf =>
        change (afterMatch kind state.di.findMatch.2).inbuf ≠ none
        rw [after.inbuf]
        exact busy.inbuf
    case released => exact busy.released
    case atSample =>
        constructor
        · change (afterMatch kind state.di.findMatch.2).InChunk
            (afterMatch kind state.di.findMatch.2).absCurSamplenum
          rw [after.inChunk_eq, position]
          exact inside
        · change (afterMatch kind state.di.findMatch.2).absEndSamplenum < 2 ^ 64
          rw [after.absEndSamplenum]
          exact busy.atSample.fits
    case chunkEnd => exact after.absEndSamplenum.trans busy.chunkEnd
    case untested =>
        have fits := busy.atSample.fits
        obtain ⟨_, upper⟩ := inside
        have next : incSamplenum state.di.findMatch.2.absCurSamplenum =
              state.di.findMatch.2.absCurSamplenum + 1 := if_neg (by omega)
        simp only [firstTested, position, matched]
        by_cases conds : state.di.haveNonNullConds = true
        · rw [if_pos conds, if_pos (ends.tested found conds).2, next]
        · have result := ends.untouched (by simpa using conds)
          rw [if_neg conds, result]
          exact busy.untested
    case host => exact ⟨call, waiting⟩
  · have none : state.di.findMatch.1 = false := by simpa using found
    rw [if_neg found] at region
    obtain ⟨last, later⟩ := ends.usedUp none
    simp only [HandOffState.waitRegion, region]
    refine ⟨⟨ends.steady.idle, ends.steady.free⟩, Or.inl ?_⟩
    constructor
    case gotNewSamples => rfl
    case inbuf => rfl
    case released => exact busy.released
    case untested => exact Nat.le_refl _
    case first =>
        intro empty
        have some := busy.released
        change state.handed = 0 at empty
        omega
    case later =>
        intro _
        exact ⟨last.trans busy.chunkEnd, rfl⟩
    case host =>
        intro _
        have some := busy.released
        change state.handed ≠ 0
        omega

theorem running_before
    {state next : HandOffState}
    (move : HandOffStep kind consecutivePolicy state label next)
    (running : next.di.wantWaitTerminate = false) :
    state.di.wantWaitTerminate = false := by
  cases move with
  | @decodeCall chunk idle allowed =>
      rw [decodeCall_wantWaitTerminate] at running
      exact running
  | @hostWakes call waiting =>
      by_cases returns : state.di.decodeMayReturn = true
      · rw [if_pos returns] at running
        exact running
      · rw [if_neg returns] at running
        exact running
  | decodeReturns extracting => exact running
  | terminate idle thread => cases running
  | resetJoined allowed => exact allowed.elim
  | resetIdle allowed => exact allowed.elim
  | callRaises => exact running
  | start allowed => exact allowed.elim
  | @waitCall conds decoding allowed accepted =>
      exact (startWait_sameChunk state.di conds).wantWaitTerminate.symm.trans running
  | waitRegion waiting =>
      obtain ⟨_, _, _, kept, _⟩ := waitRegion_keeps kind state
      exact kept.symm.trans running
  | pinRead decoding => exact running
  | decodeEnds decoding possible => exact running
  | errorStored returned => exact running
  | threadEnds reported => cases running

theorem handOffInv_step
    {state next : HandOffState}
    (move : HandOffStep kind consecutivePolicy state label next)
    (before : state.di.wantWaitTerminate = false → state.HandOffInv)
    (running : next.di.wantWaitTerminate = false) :
    next.HandOffInv := by
  have stillRunning := running_before move running
  obtain ⟨steady, phase⟩ := before stillRunning
  cases move with
  | @decodeCall chunk idle allowed =>
      rcases phase with settled | busy
      · obtain ⟨_, after, handed⟩ := decodeCall_busy steady settled allowed
        exact ⟨after, Or.inr handed⟩
      · exact absurd idle busy.not_idle
  | @hostWakes call waiting =>
      by_cases returns : state.di.decodeMayReturn = true
      · rw [if_pos returns]
        rcases phase with settled | busy
        · refine ⟨steady, Or.inl ?_⟩
          apply settled.of_sameChunk (sameChunk_of_frame rfl) rfl rfl
          intro _ idle
          rw [waiting] at idle
          cases idle
        · have unhandled := busy.handledAllSamples
          simp only [decodeMayReturn, unhandled, Bool.false_or] at returns
          exact absurd (returns.symm.trans stillRunning) (by decide)
      · rw [if_neg returns]
        exact ⟨steady, phase⟩
  | @decodeReturns call extracting =>
      rcases phase with settled | busy
      · refine ⟨steady, Or.inl ?_⟩
        apply settled.of_sameChunk (sameChunk_of_frame rfl) rfl rfl
        intro notIdle
        exact absurd rfl notIdle
      · obtain ⟨other, waiting⟩ := busy.host
        rw [waiting] at extracting
        cases extracting
  | terminate idle thread => cases running
  | resetJoined allowed => exact allowed.elim
  | resetIdle allowed => exact allowed.elim
  | callRaises idle python =>
      refine ⟨steady, ?_⟩
      rcases phase with settled | busy
      · exact Or.inl (settled.of_sameChunk (sameChunk_of_frame rfl) rfl rfl id)
      · exact absurd idle busy.not_idle
  | start allowed => exact allowed.elim
  | @waitCall conds decoding allowed accepted =>
      have same := startWait_sameChunk state.di conds
      have kept := startWait_scan state.di conds
      refine ⟨startWait_steady steady allowed.2, ?_⟩
      rw [if_neg allowed.1] at kept
      rcases phase with settled | busy
      · exact Or.inl (settled.of_sameChunk same (congrArg ScanState.absCurSamplenum kept)
          (congrArg ScanState.firstPos kept) id)
      · exact Or.inr (busy.of_sameChunk same (congrArg ScanState.absCurSamplenum kept)
          (congrArg ScanState.absCurMatched kept) rfl)
  | waitRegion waiting =>
      rcases phase with settled | busy
      · have region := waitRegion_blocked kind stillRunning settled.gotNewSamples
        simp only [HandOffState.waitRegion, region]
        exact ⟨steady, Or.inl settled⟩
      · exact waitRegion_inv kind stillRunning steady busy
  | pinRead decoding => exact ⟨steady, phase⟩
  | decodeEnds decoding possible =>
      refine ⟨steady, ?_⟩
      rcases phase with settled | busy
      · exact Or.inl (settled.of_sameChunk (sameChunk_of_frame rfl) rfl rfl id)
      · exact Or.inr (busy.of_sameChunk (sameChunk_of_frame rfl) rfl rfl rfl)
  | errorStored returned =>
      refine ⟨steady, ?_⟩
      rcases phase with settled | busy
      · exact Or.inl (settled.of_sameChunk (sameChunk_of_frame rfl) rfl rfl id)
      · exact Or.inr (busy.of_sameChunk (sameChunk_of_frame rfl) rfl rfl rfl)
  | threadEnds reported => cases running

theorem handOffInv_inductive (kind : WorkerKind) : (handOff kind consecutivePolicy).Inductive
      fun state => state.di.wantWaitTerminate = false → state.HandOffInv where
  init := fun starts _ => handOffInv_init starts
  step := fun _ before move => handOffInv_step move before

def ReadsChunk (state : HandOffState) : HandOffLabel → Prop
  | .waitRegion _ => state.di.gotNewSamples = true
  | .pinRead => state.di.inbuf ≠ none
  | _ => False

structure SafeStep (state : HandOffState) (label : HandOffLabel) (next : HandOffState) : Prop where
  /-- A call returns with its chunk used up and its buffers dropped. -/
  returned : label = .decodeReturns .ok → next.di.absCurSamplenum = next.chunkEnd ∧
      next.di.gotNewSamples = false ∧
      next.di.handledAllSamples = true ∧
      next.di.inbuf = none ∧
      next.released = next.handed
  /-- The chunk that is read has not been given back, and none of the samples
  that are tested has been tested before. -/
  reads : state.ReadsChunk label → state.released + 1 = state.handed ∧
      state.untested ≤ state.di.firstTested
  /-- No chunk is given back twice. -/
  released : next.released ≤ next.handed
  /-- The next consecutive chunk is accepted. -/
  accepted : ∀ chunk status, label = .decodeCall chunk status → status = .ok

theorem HandOffInv.released_le
    (holds : state.HandOffInv) : state.released ≤ state.handed := by
  rcases holds.phase with settled | busy
  · exact Nat.le_of_eq settled.released
  · have gap := busy.released
    omega

theorem decodeReturns_settled
    {policy : HandOffPolicy} {state next : HandOffState}
    {status : SrdStatus}
    (holds : state.HandOffInv)
    (move : HandOffStep kind policy state (.decodeReturns status) next) :
    state.Settled ∧ state.host ≠ .idle ∧ next.di = state.di ∧
      next.chunkEnd = state.chunkEnd ∧ next.released = state.released ∧
      next.handed = state.handed := by
  cases move with
  | @decodeReturns call extracting =>
      have notIdle : state.host ≠ .idle := by
        rw [extracting]
        intro idle
        cases idle
      rcases holds.phase with settled | busy
      · exact ⟨settled, notIdle, rfl, rfl, rfl, rfl⟩
      · obtain ⟨other, waiting⟩ := busy.host
        rw [waiting] at extracting
        cases extracting

theorem readsChunk_busy (holds : state.HandOffInv) (reads : state.ReadsChunk label) :
    state.Busy := by
  rcases holds.phase with settled | busy
  · cases label with
    | waitRegion result =>
        have some : state.di.gotNewSamples = true := reads
        rw [settled.gotNewSamples] at some
        cases some
    | pinRead => exact absurd settled.inbuf reads
    | _ => exact reads.elim
  · exact busy

theorem decodeCall_accepted
    {state next : HandOffState} {chunk : SampleChunk}
    {status : SrdStatus} (holds : state.HandOffInv)
    (move : HandOffStep kind consecutivePolicy state (.decodeCall chunk status) next) :
    status = .ok := by
  cases move with
  | decodeCall idle allowed =>
      rcases holds.phase with settled | busy
      · exact (decodeCall_busy holds.steady settled allowed).1
      · exact absurd idle busy.not_idle

end HandOffState

open HandOffState in
/-- While termination is not requested every step of every run of consecutive
chunks is safe. -/
theorem handOff_safe (kind : WorkerKind) {state next : HandOffState} {label : HandOffLabel}
    (reachable : (handOff kind consecutivePolicy).Reachable state)
    (move : (handOff kind consecutivePolicy).Step state label next)
    (running : next.di.wantWaitTerminate = false) :
    SafeStep state label next := by
  have invariants := handOffInv_inductive kind
  have holds := invariants.holds reachable (running_before move running)
  have after := invariants.holds (.step reachable move) running
  constructor
  case returned =>
      intro isReturn
      subst isReturn
      obtain ⟨settled, notIdle, di, chunkEnd, released, handed⟩ :=
        decodeReturns_settled holds move
      obtain ⟨last, handled⟩ := settled.later (settled.host notIdle)
      rw [di, chunkEnd, released, handed]
      exact ⟨last, settled.gotNewSamples, handled, settled.inbuf, settled.released⟩
  case reads =>
      intro reads
      have busy := readsChunk_busy holds reads
      exact ⟨busy.released, busy.untested⟩
  case released => exact after.released_le
  case accepted =>
      intro chunk status isCall
      subst isCall
      exact decodeCall_accepted holds move

/-- The worker waits for a low level that two high samples do not have. -/
def waitingHandOff : HandOffState :=
  let called := (freshHandOff.decodeCall (byteChunk 0 2 0xFF)).2
  { called with
    di := called.di.startWait [[.onChannel .low 0]]
    worker := .inWait }

/-- The worker has given the chunk back, and the host has seen that. -/
def returningHandOff : HandOffState :=
  { (waitingHandOff.waitRegion .cDecoder).2 with
    host := .extracting (freshHandOff.callOf (byteChunk 0 2 0xFF)) }

theorem returningHandOff_reachable :
    (handOff .cDecoder consecutivePolicy).Reachable returningHandOff := by
  have allowed : consecutivePolicy.chunk freshHandOff (byteChunk 0 2 0xFF) :=
    ⟨Option.some_ne_none _, by decide, by decide, by decide, absurd rfl⟩
  have conds : consecutivePolicy.conds [[.onChannel .low 0]] := by
    refine ⟨List.cons_ne_nil _ _, ?_⟩
    intro cond member term inCond
    rw [List.mem_singleton.mp member] at inCond
    rw [List.mem_singleton.mp inCond]
    intro skips
    cases skips
  have fresh : (handOff .cDecoder consecutivePolicy).Reachable freshHandOff :=
    freshHandOff_init.reachable
  have waiting : (handOff .cDecoder consecutivePolicy).Reachable waitingHandOff :=
    (HandOffStep.waitCall rfl conds (Or.inl rfl)).reachable
      ((HandOffStep.decodeCall rfl allowed).reachable fresh)
  have given := (HandOffStep.waitRegion (by decide)).reachable waiting
  have seen : ((waitingHandOff.waitRegion .cDecoder).2).host =
      .waiting (freshHandOff.callOf (byteChunk 0 2 0xFF)) := rfl
  exact (HandOffStep.hostWakes seen).reachable given

theorem handOff_safe_returning : HandOffState.SafeStep returningHandOff (.decodeReturns .ok)
      (returningHandOff.decodeReturn (freshHandOff.callOf (byteChunk 0 2 0xFF))).2 :=
  handOff_safe .cDecoder returningHandOff_reachable (.decodeReturns rfl) rfl

end SigrokDecode
