import SigrokDecode.Instance.HandOff

/-!
# Calls after the worker has ended

A worker that has returned leaves `want_wait_terminate` set, and the wait of
`srd_inst_decode` takes that for completion.  Such a call reports an error only
when it refuses its arguments or finds an error string; with neither the samples
are lost and the call succeeds.
-/

namespace SigrokDecode

open Foundation SrdDecoderInst

namespace HandOffState

/-- The call has been made, and no worker will take its samples. -/
structure Unserved (state : HandOffState) (call : DecodeCall) : Prop where
  accepted : ¬ Refused call.di call.chunk
  worker : state.worker.live = false
  errorDue : call.errorDue = state.errorDue
  handled : state.di.handledAllSamples = true → state.worker = .ended

def FailsWhenDue (finished : DecodeCall × SrdStatus) : Prop :=
  finished.1.live = false → (finished.2 ≠ .ok ↔
      Refused finished.1.di finished.1.chunk ∨ finished.1.errorDue = true)

structure WorkerEndInv (state : HandOffState) : Prop where
  marked : state.worker = .ended → state.di.wantWaitTerminate = true
  requested : state.host ≠ .joining → state.di.wantWaitTerminate = true → state.worker = .ended
  waiting : ∀ call, state.host = .waiting call → call.live = false → state.Unserved call
  extracting : ∀ call, state.host = .extracting call → call.live = false →
    state.Unserved call ∧ state.worker = .ended
  calls : ∀ finished ∈ state.calls, FailsWhenDue finished

variable {state : HandOffState}

theorem workerEndInv_init (starts : HandOffInit state) : state.WorkerEndInv := by
  constructor
  case marked =>
      intro ended
      rw [starts.worker] at ended
      cases ended
  case requested =>
      intro _ terminating
      rw [starts.wantWaitTerminate] at terminating
      cases terminating
  case waiting =>
      intro call waiting
      rw [starts.host] at waiting
      cases waiting
  case extracting =>
      intro call extracting
      rw [starts.host] at extracting
      cases extracting
  case calls =>
      intro finished member
      rw [starts.calls] at member
      cases member

/-! ## The steps -/

theorem WorkerEndInv.of_idle
    {next : HandOffState}
    (marked : next.worker = .ended → next.di.wantWaitTerminate = true)
    (requested : next.di.wantWaitTerminate = true → next.worker = .ended)
    (idle : next.host = .idle) (calls : ∀ finished ∈ next.calls, FailsWhenDue finished) :
    next.WorkerEndInv where
  marked := marked
  requested := fun _ => requested
  waiting := by
    intro call waiting
    rw [idle] at waiting
    cases waiting
  extracting := by
    intro call extracting
    rw [idle] at extracting
    cases extracting
  calls := calls

/-- Steps of a worker whose decode function has not returned before them. -/
theorem WorkerEndInv.of_live
    {state next : HandOffState} (holds : state.WorkerEndInv)
    (live : state.worker.live = true) (host : next.host = state.host)
    (calls : next.calls = state.calls)
    (want : next.di.wantWaitTerminate = state.di.wantWaitTerminate)
    (running : next.worker ≠ .ended) : next.WorkerEndInv where
  marked := by
    intro ended
    exact absurd ended running
  requested := by
    intro notJoining terminating
    rw [host] at notJoining
    rw [want] at terminating
    have ended := holds.requested notJoining terminating
    rw [ended] at live
    cases live
  waiting := by
    intro call waiting lost
    rw [host] at waiting
    have dead := (holds.waiting call waiting lost).worker
    rw [live] at dead
    cases dead
  extracting := by
    intro call extracting lost
    rw [host] at extracting
    have dead := (holds.extracting call extracting lost).1.worker
    rw [live] at dead
    cases dead
  calls := by
    rw [calls]
    exact holds.calls

theorem decodeCall_workerEnd (holds : state.WorkerEndInv)
    (idle : state.host = .idle) (chunk : SampleChunk) :
    (state.decodeCall chunk).2.WorkerEndInv := by
  have notJoining : state.host ≠ .joining := by simp [idle]
  rcases state.decodeCall_cases chunk with
    ⟨refused, di, want, result⟩ | ⟨accepted, result⟩
  · rw [result]
    apply WorkerEndInv.of_idle
    · intro ended
      exact want.trans (holds.marked ended)
    · intro terminating
      exact holds.requested notJoining (want.symm.trans terminating)
    · exact idle
    · intro finished member
      rcases List.mem_append.mp member with earlier | now
      · exact holds.calls finished earlier
      · rw [List.mem_singleton.mp now]
        intro _
        exact iff_of_true (by simp) (Or.inl refused)
  · have want := state.decodeCall_wantWaitTerminate chunk
    rw [result] at want ⊢
    constructor
    case marked =>
        intro ended
        apply want.trans
        apply holds.marked
        by_cases none : state.worker = .notStarted
        · rw [if_pos none] at ended
          cases ended
        · rwa [if_neg none] at ended
    case requested =>
        intro _ terminating
        have ended := holds.requested notJoining (want.symm.trans terminating)
        rw [if_neg (by rw [ended]; decide)]
        exact ended
    case waiting =>
        intro call waiting lost
        cases waiting
        have dead : state.worker.live = false := lost
        have some : state.worker ≠ .notStarted := by
          intro none
          rw [none] at dead
          cases dead
        rw [if_neg some]
        refine ⟨accepted, dead, rfl, ?_⟩
        intro handled
        cases handled
    case extracting =>
        intro call extracting
        cases extracting
    case calls => exact holds.calls

theorem hostWakes_workerEnd
    {call : DecodeCall} (holds : state.WorkerEndInv)
    (waiting : state.host = .waiting call)
    (returns : state.di.decodeMayReturn = true) :
    { state with host := .extracting call }.WorkerEndInv where
  marked := holds.marked
  requested := by
    intro _ terminating
    exact holds.requested (by simp [waiting]) terminating
  waiting := by
    intro other waiting
    cases waiting
  extracting := by
    intro other extracting lost
    cases extracting
    have unserved := holds.waiting call waiting lost
    refine ⟨{ unserved with }, ?_⟩
    rcases (Bool.or_eq_true _ _).mp returns with handled | terminating
    · exact unserved.handled handled
    · exact holds.requested (by simp [waiting]) terminating
  calls := holds.calls

theorem decodeReturn_workerEnd
    {call : DecodeCall} (holds : state.WorkerEndInv)
    (extracting : state.host = .extracting call) :
    (state.decodeReturn call).2.WorkerEndInv := by
  apply WorkerEndInv.of_idle
  · exact holds.marked
  · intro terminating
    exact holds.requested (by simp [extracting]) terminating
  · rfl
  · intro finished member
    rcases List.mem_append.mp member with earlier | now
    · exact holds.calls finished earlier
    · rw [List.mem_singleton.mp now]
      intro lost
      obtain ⟨unserved, ended⟩ := holds.extracting call extracting lost
      have due : call.errorDue = state.error := by
        rw [unserved.errorDue, errorDue, ended, Bool.or_false]
      simp [unserved.accepted, due]

theorem errorStored_workerEnd
    {result : DecodeResult} (holds : state.WorkerEndInv)
    (returned : state.worker = .returned result) :
    { state with
      error := state.error || result.storesError state.isTaskStopSignal
      worker := .reported }.WorkerEndInv := by
  have notEnded : state.worker ≠ .ended := by simp [returned]
  constructor
  case marked =>
      intro ended
      cases ended
  case requested =>
      intro notJoining terminating
      exact absurd (holds.requested notJoining terminating) notEnded
  case waiting =>
      intro call waiting lost
      have unserved := holds.waiting call waiting lost
      refine ⟨unserved.accepted, rfl, ?_, ?_⟩
      · rw [unserved.errorDue, errorDue, returned]
        exact (Bool.or_false _).symm
      · intro handled
        exact absurd (unserved.handled handled) notEnded
  case extracting =>
      intro call extracting lost
      exact absurd (holds.extracting call extracting lost).2 notEnded
  case calls => exact holds.calls

theorem threadEnds_workerEnd (holds : state.WorkerEndInv) (reported : state.worker = .reported) :
    { state with
      di := state.di.endThread
      worker := .ended }.WorkerEndInv := by
  have due {call : DecodeCall} (unserved : state.Unserved call) : { state with
        di := state.di.endThread
        worker := .ended }.Unserved call := by
    refine ⟨unserved.accepted, rfl, ?_, fun _ => rfl⟩
    rw [unserved.errorDue, errorDue, reported]
    rfl
  constructor
  case marked => exact fun _ => rfl
  case requested => exact fun _ _ => rfl
  case waiting =>
      intro call waiting lost
      exact due (holds.waiting call waiting lost)
  case extracting =>
      intro call extracting lost
      exact ⟨due (holds.extracting call extracting lost).1, rfl⟩
  case calls => exact holds.calls

end HandOffState

open HandOffState

theorem workerEndInv_step
    {kind : WorkerKind} {policy : HandOffPolicy} {state next : HandOffState}
    {label : HandOffLabel} (holds : state.WorkerEndInv)
    (move : HandOffStep kind policy state label next) :
    next.WorkerEndInv := by
  cases move with
  | @decodeCall chunk idle allowed => exact decodeCall_workerEnd holds idle chunk
  | @hostWakes call waiting =>
      by_cases returns : state.di.decodeMayReturn = true
      · rw [if_pos returns]
        exact hostWakes_workerEnd holds waiting returns
      · rw [if_neg returns]
        exact holds
  | @decodeReturns call extracting => exact decodeReturn_workerEnd holds extracting
  | terminate idle thread =>
      constructor
      case marked => exact fun _ => rfl
      case requested => exact fun notJoining => absurd rfl notJoining
      case waiting =>
          intro call waiting
          cases waiting
      case extracting =>
          intro call extracting
          cases extracting
      case calls => exact holds.calls
  | resetJoined allowed joining ended =>
      apply WorkerEndInv.of_idle
      · intro ended
        cases ended
      · intro terminating
        cases terminating
      · rfl
      · exact holds.calls
  | resetIdle allowed idle noThread =>
      apply WorkerEndInv.of_idle
      · intro ended
        rw [show state.worker = .ended from ended] at noThread
        cases noThread
      · intro terminating
        cases terminating
      · exact idle
      · exact holds.calls
  | callRaises idle python =>
      apply WorkerEndInv.of_idle
      · exact holds.marked
      · exact holds.requested (by simp [idle])
      · exact idle
      · exact holds.calls
  | start allowed idle noThread =>
      apply WorkerEndInv.of_idle
      · exact holds.marked
      · exact holds.requested (by simp [idle])
      · exact idle
      · exact holds.calls
  | @waitCall conds decoding allowed accepted =>
      apply holds.of_live
      · rw [decoding]
        rfl
      · rfl
      · rfl
      · exact (startWait_sameChunk state.di conds).wantWaitTerminate
      · intro ended
        cases ended
  | waitRegion waiting =>
      obtain ⟨host, calls, _, want, worker⟩ := waitRegion_keeps kind state
      refine holds.of_live (by rw [waiting]; rfl) host calls want ?_
      intro ended
      rcases worker with same | decoding
      · rw [same, waiting] at ended
        cases ended
      · rw [decoding] at ended
        cases ended
  | pinRead decoding => exact holds
  | decodeEnds decoding possible =>
      apply holds.of_live
      · rw [decoding]
        rfl
      · rfl
      · rfl
      · rfl
      · intro ended
        cases ended
  | @errorStored result returned => exact errorStored_workerEnd holds returned
  | threadEnds reported => exact threadEnds_workerEnd holds reported

theorem workerEndInv_inductive (kind : WorkerKind) (policy : HandOffPolicy) :
    (handOff kind policy).Inductive WorkerEndInv where
  init := fun starts => workerEndInv_init starts
  step := fun _ holds move => workerEndInv_step holds move

def NoSilentLoss (state : HandOffState) : Prop :=
  ∀ finished ∈ state.calls, finished.1.live = false → finished.2 ≠ .ok

/-- Calls after the worker has ended all fail exactly when each of them is
refused or has an error string to take. -/
theorem noSilentLoss_iff (kind : WorkerKind) (policy : HandOffPolicy) {state : HandOffState}
    (reachable : (handOff kind policy).Reachable state) :
    NoSilentLoss state ↔ ∀ finished ∈ state.calls, finished.1.live = false →
        Refused finished.1.di finished.1.chunk ∨
          finished.1.errorDue = true := by
  have calls := ((workerEndInv_inductive kind policy).holds reachable).calls
  constructor
  · intro fails finished member lost
    exact (calls finished member lost).mp (fails finished member lost)
  · intro due finished member lost
    exact (calls finished member lost).mpr (due finished member lost)

/-- The host and the decoder do what they like. -/
def openPolicy : HandOffPolicy where
  chunk _ _ := True
  conds _ := True
  resets := True

/-- A C decoder that returns at once, and the host whose call comes back then. -/
def endedHandOff : HandOffState :=
  let called := (freshHandOff.decodeCall (byteChunk 0 1 0xFF)).2
  ({ called with
    di := called.di.endThread
    host := .extracting (freshHandOff.callOf (byteChunk 0 1 0xFF))
    worker := .ended }.decodeReturn
      (freshHandOff.callOf (byteChunk 0 1 0xFF))).2

theorem endedHandOff_reachable : (handOff .cDecoder openPolicy).Reachable endedHandOff := by
  have fresh : (handOff .cDecoder openPolicy).Reachable freshHandOff := freshHandOff_init.reachable
  have allowed : openPolicy.chunk freshHandOff (byteChunk 0 1 0xFF) := trivial
  have possible : DecodeResult.OfKind .cDecoder .cReturned := rfl
  have called := (HandOffStep.decodeCall rfl allowed).reachable fresh
  have returned := (HandOffStep.decodeEnds rfl possible).reachable called
  have reported := (HandOffStep.errorStored rfl).reachable returned
  have ended := (HandOffStep.threadEnds rfl).reachable reported
  have woken := (HandOffStep.hostWakes rfl).reachable ended
  exact (HandOffStep.decodeReturns rfl).reachable woken

/-- The next chunk meets no worker, and the call succeeds. -/
theorem endedHandOff_loses_chunk : ∃ state, (handOff .cDecoder openPolicy).Reachable state ∧
      ¬ NoSilentLoss state := by
  have allowed : openPolicy.chunk endedHandOff (byteChunk 1 2 0xFF) := trivial
  have called :=
    (HandOffStep.decodeCall rfl allowed).reachable endedHandOff_reachable
  have woken := (HandOffStep.hostWakes rfl).reachable called
  have returned := (HandOffStep.decodeReturns rfl).reachable woken
  refine ⟨_, returned, ?_⟩
  intro fails
  refine fails (endedHandOff.callOf (byteChunk 1 2 0xFF), .ok) ?_ rfl rfl
  exact List.mem_append_right _ (List.mem_singleton.mpr rfl)

/-- A chunk that ends before it starts is refused. -/
theorem noSilentLoss_iff_reversed :
    NoSilentLoss (endedHandOff.decodeCall (byteChunk 2 1 0xFF)).2 := by
  have allowed : openPolicy.chunk endedHandOff (byteChunk 2 1 0xFF) := trivial
  have called :=
    (HandOffStep.decodeCall rfl allowed).reachable endedHandOff_reachable
  apply (noSilentLoss_iff .cDecoder openPolicy called).mpr
  intro finished member lost
  rcases List.mem_append.mp member with first | second
  · rw [List.mem_singleton.mp first] at lost
    cases lost
  · rw [List.mem_singleton.mp second]
    exact Or.inl (Or.inr (Or.inr (Or.inr (by decide))))

end SigrokDecode
