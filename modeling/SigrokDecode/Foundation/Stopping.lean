import Mathlib.Order.Defs.Unbundled

/-!
# Computations that stop

A computation changes a state and may stop for good, as one does that waits for input behind the
end of it.  The state is there in both cases.
-/

namespace SigrokDecode.Foundation

def Stopping (State α : Type) : Type :=
  State → Option α × State

namespace Stopping

variable {State α β : Type}

instance : Monad (Stopping State) where
  pure value := fun s => (some value, s)
  bind first next := fun s =>
    match first s with
    | (some value, t) => next value t
    | (none, t) => (none, t)

def get : Stopping State State :=
  fun s => (some s, s)

def modify (change : State → State) : Stopping State Unit :=
  fun s => (some (), change s)

variable {first : Stopping State α} {next : α → Stopping State β}

theorem bind_some {s t : State} {value : α}
    (ran : first s = (some value, t)) (next : α → Stopping State β) :
    (first >>= next) s = next value t := by
  show (match first s with
    | (some value, t) => next value t
    | (none, t) => (none, t)) = _
  rw [ran]

theorem bind_none {s t : State} (ran : first s = (none, t))
    (next : α → Stopping State β) : (first >>= next) s = (none, t) := by
  show (match first s with
    | (some value, t) => next value t
    | (none, t) => (none, t)) = _
  rw [ran]

variable {relation : State → State → Prop}

def Relates (relation : State → State → Prop) (computation : Stopping State α) : Prop :=
  ∀ s, relation s (computation s).2

theorem relates_pure [Std.Refl relation] (value : α) :
    Relates relation (pure value : Stopping State α) :=
  fun s => Std.Refl.refl s

theorem relates_get [Std.Refl relation] : Relates relation (get : Stopping State State) :=
  fun s => Std.Refl.refl s

theorem relates_modify {change : State → State} (changes : ∀ s, relation s (change s)) :
    Relates relation (modify change) :=
  changes

theorem Relates.bind [IsTrans State relation] (keeps : Relates relation first)
    (keepsNext : ∀ value, Relates relation (next value)) :
    Relates relation (first >>= next) := by
  intro s
  have begun := keeps s
  cases ran : first s with
  | mk result t =>
      rw [ran] at begun
      show relation s (match first s with
        | (some value, t) => next value t
        | (none, t) => (none, t)).2
      rw [ran]
      cases result with
      | none => exact begun
      | some value => exact IsTrans.trans _ _ _ begun (keepsNext value t)

variable {before : State → Prop} {between : α → State → Prop} {after : β → State → Prop}

def Yields (before : State → Prop) (computation : Stopping State α)
    (after : α → State → Prop) : Prop :=
  ∀ s, before s → ∃ value t, computation s = (some value, t) ∧ after value t

theorem yields_pure (value : β) (holds : ∀ s, before s → after value s) :
    Yields before (pure value) after :=
  fun s known => ⟨value, s, rfl, holds s known⟩

theorem yields_modify {change : State → State} {after : Unit → State → Prop}
    (holds : ∀ s, before s → after () (change s)) : Yields before (modify change) after :=
  fun s known => ⟨(), change s, rfl, holds s known⟩

theorem Yields.bind (yields : Yields before first between)
    (yieldsNext : ∀ value, Yields (between value) (next value) after) :
    Yields before (first >>= next) after := by
  intro s known
  obtain ⟨value, t, ran, knownBetween⟩ := yields s known
  obtain ⟨result, u, ranNext, knownAfter⟩ := yieldsNext value t knownBetween
  exact ⟨result, u, (bind_some ran next).trans ranNext, knownAfter⟩

theorem Yields.bind_value {value : α}
    {middle : State → Prop} (yields : Yields before first fun given s => given = value ∧ middle s)
    (yieldsNext : Yields middle (next value) after) : Yields before (first >>= next) after := by
  refine yields.bind fun given s known => ?_
  obtain ⟨rfl, knownMiddle⟩ := known
  exact yieldsNext s knownMiddle

end Stopping

end SigrokDecode.Foundation
