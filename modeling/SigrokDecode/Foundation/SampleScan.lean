import Mathlib.Data.List.Basic

/-!
# Decoders that wait for samples

A decoder sleeps until a sample and the one in front of it meet the conditions of
its current state.  It goes on with the sample behind the one that it has handled.
-/

namespace SigrokDecode.Foundation

theorem getLastD_append {Pins : Type} (front back : List Pins) (old : Pins) :
    (front ++ back).getLastD old = back.getLastD (front.getLastD old) := by
  induction front generalizing old with
  | nil => rfl
  | cons new front ih =>
      rw [List.cons_append, List.getLastD_cons, List.getLastD_cons, ih]

/-- `wakes` and `handle` see the pins in front of the sample and those at it. -/
structure SampleDecoder (State Pins : Type) where
  wakes : State → Pins → Pins → Bool
  handle : State → Pins → Pins → Nat → State

namespace SampleDecoder

variable {State View Pins Signal : Type} (decoder : SampleDecoder State Pins)

def step (state : State) (old new : Pins) (samplenum : Nat) : State :=
  if decoder.wakes state old new then decoder.handle state old new samplenum else state

/-- The samples from `samplenum` on. -/
def scan : State → Pins → Nat → List Pins → State
  | state, _, _, [] => state
  | state, old, samplenum, new :: samples =>
      scan (decoder.step state old new samplenum) new (samplenum + 1) samples

theorem scan_cons (state : State) (old : Pins) (samplenum : Nat) (new : Pins)
    (samples : List Pins) :
    decoder.scan state old samplenum (new :: samples) =
      decoder.scan (decoder.step state old new samplenum) new (samplenum + 1) samples := rfl

theorem scan_append (state : State) (old : Pins) (samplenum : Nat) (front back : List Pins) :
    decoder.scan state old samplenum (front ++ back) =
      decoder.scan (decoder.scan state old samplenum front) (front.getLastD old)
        (samplenum + front.length) back := by
  induction front generalizing state old samplenum with
  | nil => rfl
  | cons new front ih =>
      rw [List.cons_append, scan_cons, ih, scan_cons, List.length_cons,
        Nat.add_assoc, Nat.add_comm 1, List.getLastD_cons]

variable {state : State}

theorem step_awake {old new : Pins} (awake : decoder.wakes state old new = true) (samplenum : Nat) :
    decoder.step state old new samplenum = decoder.handle state old new samplenum :=
  if_pos awake

theorem step_asleep {old new : Pins}
    (asleep : decoder.wakes state old new = false) (samplenum : Nat) :
    decoder.step state old new samplenum = state :=
  if_neg (by rw [asleep]; exact Bool.false_ne_true)

theorem scan_keeps {kept : State → Prop} (keeps : ∀ state old new samplenum, kept state →
      kept (decoder.step state old new samplenum))
    (holds : kept state) (old : Pins) (samplenum : Nat) (samples : List Pins) :
    kept (decoder.scan state old samplenum samples) := by
  induction samples generalizing state old samplenum with
  | nil => exact holds
  | cons new samples ih =>
      exact ih (keeps state old new samplenum holds) new (samplenum + 1)

theorem scan_related (mirror : SampleDecoder View Pins) {related : State → View → Prop}
    (keeps : ∀ state view old new samplenum, related state view →
      related (decoder.step state old new samplenum) (mirror.step view old new samplenum))
    {view : View} (holds : related state view) (old : Pins) (samplenum : Nat)
    (samples : List Pins) :
    related (decoder.scan state old samplenum samples)
      (mirror.scan view old samplenum samples) := by
  induction samples generalizing state view old samplenum with
  | nil => exact holds
  | cons new samples ih =>
      exact ih (keeps state view old new samplenum holds) new (samplenum + 1)

end SampleDecoder

end SigrokDecode.Foundation
