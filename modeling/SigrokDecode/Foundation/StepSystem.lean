import Mathlib.Logic.Basic

/-!
# Labelled step systems

A system has initial states and labelled steps between states.  What holds
initially and is kept by every step holds in every reachable state, and what a
step may rely on can be proved of reachable states beforehand.
-/

namespace SigrokDecode.Foundation

universe u v

structure StepSystem (State : Type u) (Label : Type v) where
  Init : State → Prop
  Step : State → Label → State → Prop

namespace StepSystem

variable {State : Type u} {Label : Type v} (system : StepSystem State Label)

inductive Reachable : State → Prop where
  | init {state : State} (starts : system.Init state) : Reachable state
  | step {state next : State} {label : Label}
      (before : Reachable state) (move : system.Step state label next) :
      Reachable next

structure Inductive (property : State → Prop) : Prop where
  init : ∀ {state}, system.Init state → property state
  step : ∀ {state label next}, system.Reachable state → property state →
    system.Step state label next → property next

variable {system}

theorem Inductive.holds {property : State → Prop}
    (inductiveProperty : system.Inductive property) {state : State}
    (reachable : system.Reachable state) : property state := by
  induction reachable with
  | init starts => exact inductiveProperty.init starts
  | step before move ih =>
      exact inductiveProperty.step before ih move

end StepSystem

end SigrokDecode.Foundation
