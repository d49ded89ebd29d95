import Mathlib.Data.List.Basic

/-!
# Decoders that wait for an edge or for a time-out

Between two edges of its line such a decoder can only time out, so that its run over
the samples is a run over the edges.
-/

namespace SigrokDecode.Foundation

def edgesFrom (edge : Bool → Bool → Bool) : Bool → Nat → List Bool → List Nat
  | _, _, [] => []
  | old, samplenum, new :: samples =>
      if edge old new then samplenum :: edgesFrom edge new (samplenum + 1) samples
      else edgesFrom edge new (samplenum + 1) samples

theorem le_of_mem_edgesFrom {edge : Bool → Bool → Bool} {old : Bool} {samplenum point : Nat}
    {samples : List Bool} (member : point ∈ edgesFrom edge old samplenum samples) :
    samplenum ≤ point := by
  induction samples generalizing old samplenum with
  | nil => cases member
  | cons new samples ih =>
      rw [edgesFrom] at member
      split at member
      · rcases List.mem_cons.mp member with here | later
        · exact Nat.le_of_eq here.symm
        · exact Nat.le_of_succ_le (ih later)
      · exact Nat.le_of_succ_le (ih member)

/-- `deadline` is the sample at which a state stops waiting for an edge. -/
structure EdgeDecoder (State : Type) where
  deadline : State → Option Nat
  handle : State → Nat → State

namespace EdgeDecoder

variable {State : Type} (decoder : EdgeDecoder State) (edge : Bool → Bool → Bool)

def step (state : State) (old new : Bool) (samplenum : Nat) : State :=
  if edge old new = true ∨ decoder.deadline state = some samplenum then
    decoder.handle state samplenum
  else
    state

/-- The samples from `samplenum` on. -/
def scan : State → Bool → Nat → List Bool → State
  | state, _, _, [] => state
  | state, old, samplenum, new :: samples =>
      scan (decoder.step edge state old new samplenum) new (samplenum + 1) samples

/-- The time in front of `samplenum`, without an edge. -/
def elapse (state : State) (samplenum : Nat) : State :=
  match decoder.deadline state with
  | some time => if time < samplenum then decoder.handle state time else state
  | none => state

/-- The edges in turn, and the time up to `stop`. -/
def run : State → List Nat → Nat → State
  | state, [], stop => decoder.elapse state stop
  | state, point :: points, stop =>
      run (decoder.handle (decoder.elapse state point) point) points stop

variable {state : State}

theorem elapse_untimed (untimed : decoder.deadline state = none)
    (samplenum : Nat) : decoder.elapse state samplenum = state := by
  rw [elapse, untimed]

variable {time samplenum : Nat}

theorem elapse_early (timed : decoder.deadline state = some time) (early : samplenum ≤ time) :
    decoder.elapse state samplenum = state := by
  rw [elapse, timed]
  exact if_neg (Nat.not_lt.mpr early)

theorem elapse_late (timed : decoder.deadline state = some time) (late : time < samplenum) :
    decoder.elapse state samplenum = decoder.handle state time := by
  rw [elapse, timed]
  exact if_pos late

theorem run_late {stop : Nat} {points : List Nat} (timed : decoder.deadline state = some time)
    (settled : decoder.deadline (decoder.handle state time) = none)
    (late : ∀ point ∈ points, time < point) (lateStop : time < stop) :
    decoder.run state points stop = decoder.run (decoder.handle state time) points stop := by
  cases points with
  | nil =>
      rw [run, run, decoder.elapse_late timed lateStop, decoder.elapse_untimed settled]
  | cons point points =>
      rw [run, run, decoder.elapse_late timed (late point List.mem_cons_self),
        decoder.elapse_untimed settled]

structure Timely : Prop where
  settles : ∀ state time, decoder.deadline state = some time →
    decoder.deadline (decoder.handle state time) = none
  ahead : ∀ state samplenum time,
    decoder.deadline (decoder.handle state samplenum) = some time → samplenum < time

variable {decoder}

theorem Timely.scan_eq_run (timely : decoder.Timely) (samples : List Bool) (ahead : ∀ time, decoder.deadline state = some time → samplenum ≤ time)
    (old : Bool) :
    decoder.scan edge state old samplenum samples =
      decoder.run state (edgesFrom edge old samplenum samples)
        (samplenum + samples.length) := by
  induction samples generalizing state old samplenum with
  | nil =>
      rw [scan, edgesFrom, run]
      cases timed : decoder.deadline state with
      | none => exact (decoder.elapse_untimed timed _).symm
      | some time => exact (decoder.elapse_early timed (ahead time timed)).symm
  | cons new samples ih =>
      have length : samplenum + (new :: samples).length = samplenum + 1 + samples.length := by
        rw [List.length_cons]
        omega
      rw [scan, edgesFrom, length, step]
      by_cases change : edge old new = true
      · have still : decoder.elapse state samplenum = state := by
          cases timed : decoder.deadline state with
          | none => exact decoder.elapse_untimed timed samplenum
          | some time => exact decoder.elapse_early timed (ahead time timed)
        rw [if_pos (Or.inl change), if_pos change, run, still]
        exact ih (fun time timed => timely.ahead state samplenum time timed) new
      · rw [if_neg change]
        by_cases expired : decoder.deadline state = some samplenum
        · have settled := timely.settles state samplenum expired
          rw [if_pos (Or.inr expired), decoder.run_late expired settled
            (fun point member => le_of_mem_edgesFrom member) (by omega)]
          exact ih (fun time timed => timely.ahead state samplenum time timed) new
        · rw [if_neg (by rintro (here | here) <;> contradiction)]
          refine ih (fun time timed => ?_) new
          have le := ahead time timed
          have ne : samplenum ≠ time := fun same => expired (same ▸ timed)
          omega

end EdgeDecoder

end SigrokDecode.Foundation
