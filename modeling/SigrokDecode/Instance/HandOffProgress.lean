import SigrokDecode.Instance.WorkerEnd

/-!
# The hand-off goes on

Host and worker never wait for each other, and a request to terminate is obeyed until the reset.
-/

set_option linter.dupNamespace false

namespace SigrokDecode

open Foundation SrdDecoderInst

namespace HandOffState

/-- Whoever is waited for has something left to do. -/
structure WakeInv (state : HandOffState) : Prop where
  waiting : ∀ call, state.host = .waiting call → state.di.decodeMayReturn = false →
    state.di.gotNewSamples = true ∧ state.worker ≠ .notStarted
  joining : state.host = .joining → state.di.wantWaitTerminate = true ∧ state.worker ≠ .notStarted

variable {state next : HandOffState} {kind : WorkerKind} {policy : HandOffPolicy}
  {label : HandOffLabel}

theorem WakeInv.of_host {host : HostPhase} (there : state.host = host)
    (calls : ∀ call, host ≠ .waiting call) (joins : host ≠ .joining) : state.WakeInv where
  waiting call waits := absurd (there.symm.trans waits) (calls call)
  joining joining := absurd (there.symm.trans joining) joins

theorem WakeInv.of_idle (idle : state.host = .idle) : state.WakeInv :=
  .of_host idle (fun _ => HostPhase.noConfusion) HostPhase.noConfusion

/-- The worker goes on with the same chunk and flags. -/
theorem WakeInv.of_sameChunk {di : SrdDecoderInst} {worker : WorkerPhase} {error : Bool}
    (holds : state.WakeInv) (same : SameChunk di state.di) (started : worker ≠ .notStarted) :
    { state with di, worker, error }.WakeInv where
  waiting call waits sleeps := by
    have kept : state.di.decodeMayReturn = false := by
      rw [decodeMayReturn, ← same.handledAllSamples, ← same.wantWaitTerminate]
      exact sleeps
    exact ⟨same.gotNewSamples.trans (holds.waiting call waits kept).1, started⟩
  joining joins := ⟨same.wantWaitTerminate.trans (holds.joining joins).1, started⟩

/-- Some step leads to another state; a wake-up that finds nothing to do does not. -/
def Moves (kind : WorkerKind) (policy : HandOffPolicy) (state : HandOffState) : Prop :=
  ∃ label next, (handOff kind policy).Step state label next ∧ next ≠ state

theorem Moves.of_host (move : HandOffStep kind policy state label next)
    (host : next.host ≠ state.host) : state.Moves kind policy :=
  ⟨label, next, move, fun same => host (congrArg HandOffState.host same)⟩

end HandOffState

open HandOffState

end SigrokDecode
