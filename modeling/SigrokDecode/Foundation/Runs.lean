import Mathlib.Logic.Basic

/-!
# Runs of a function

A list of operations takes a state through others. A property of states and a condition on steps
are matched when the steps that meet the condition are the ones that keep the property.
-/

namespace SigrokDecode.Foundation

universe u v

section Runs

variable {State : Type u} {Operation : Type v} (step : State → Operation → State)

/-- Every state of the run has the property, the first and the last one too. -/
def HoldsThroughout (property : State → Prop) : State → List Operation → Prop
  | s, [] => property s
  | s, op :: ops => property s ∧ HoldsThroughout property (step s op) ops

def EveryStep (condition : State → Operation → Prop) : State → List Operation → Prop
  | _, [] => True
  | s, op :: ops => condition s op ∧ EveryStep condition (step s op) ops

structure Separates (sound property : State → Prop) (condition : State → Operation → Prop) :
    Prop where
  holds : ∀ {s}, sound s → property s
  keeps : ∀ {s op}, sound s → condition s op → sound (step s op)
  breaks : ∀ {s op}, sound s → ¬condition s op → ¬property (step s op)

variable {step} {sound property : State → Prop} {condition : State → Operation → Prop}

variable {s : State}

theorem HoldsThroughout.head {ops : List Operation}
    (throughout : HoldsThroughout step property s ops) : property s := by
  cases ops with
  | nil => exact throughout
  | cons op ops => exact throughout.1

theorem Separates.throughout_iff (separates : Separates step sound property condition) (start : sound s) (ops : List Operation) :
    HoldsThroughout step property s ops ↔ EveryStep step condition s ops := by
  induction ops generalizing s with
  | nil =>
      exact ⟨fun _ => True.intro, fun _ => separates.holds start⟩
  | cons op ops ih =>
      constructor
      · rintro ⟨-, rest⟩
        have met : condition s op := Classical.byContradiction fun unmet =>
          separates.breaks start unmet rest.head
        exact ⟨met, (ih (separates.keeps start met)).mp rest⟩
      · rintro ⟨met, rest⟩
        exact ⟨separates.holds start, (ih (separates.keeps start met)).mpr rest⟩

theorem everyStep_congr (sound : State → Prop) {other : State → Operation → Prop}
    (agree : ∀ {s op}, sound s → (other s op ↔ condition s op))
    (keeps : ∀ {s op}, sound s → condition s op → sound (step s op)) (start : sound s)
    (ops : List Operation) : EveryStep step other s ops ↔ EveryStep step condition s ops := by
  induction ops generalizing s with
  | nil => exact Iff.rfl
  | cons op ops ih =>
      rw [EveryStep, EveryStep, agree start]
      exact and_congr_right fun met => ih (keeps start met)

end Runs

end SigrokDecode.Foundation
