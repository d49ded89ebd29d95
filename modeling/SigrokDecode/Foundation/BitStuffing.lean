import Mathlib.Data.List.Basic

/-!
# Bit stuffing

A sender puts an extra bit into a frame whenever the bits sent so far ask for
one.  A receiver that tells the extra bits from the others sees the frame.
-/

namespace SigrokDecode.Foundation

open List

/-- When a stuff bit is due, as a state machine over the bits on the wire. -/
structure StuffRule (State : Type) where
  next : State → Bool → State
  due : State → Option Bool

namespace StuffRule

section Sender

variable {State : Type} (rule : StuffRule State)

def stuff : State → List Bool → List (Bool × Bool)
  | _, [] => []
  | state, bit :: bits =>
      match rule.due state with
      | none => (bit, false) :: stuff (rule.next state bit) bits
      | some extra =>
          (extra, true) :: (bit, false) :: stuff (rule.next (rule.next state extra) bit) bits

def stateAfter (state : State) (wire : List (Bool × Bool)) : State :=
  wire.foldl (fun state bit => rule.next state bit.1) state

/-- The stuff bit that is due behind the last bit. -/
def trailing (state : State) : List (Bool × Bool) :=
  match rule.due state with
  | none => []
  | some extra => [(extra, true)]

def send (state : State) (bits : List Bool) : List (Bool × Bool) :=
  rule.stuff state bits ++ rule.trailing (rule.stateAfter state (rule.stuff state bits))

theorem stuff_unmarked (state : State) (bits : List Bool) :
    ((rule.stuff state bits).filter fun bit => !bit.2).map Prod.fst = bits := by
  induction bits generalizing state with
  | nil => rfl
  | cons bit bits ih =>
      cases due : rule.due state with
      | none => simp [stuff, due, ih]
      | some extra => simp [stuff, due, ih]

theorem send_unmarked (state : State) (bits : List Bool) :
    ((rule.send state bits).filter fun bit => !bit.2).map Prod.fst = bits := by
  have behind : ∀ state, (rule.trailing state).filter (fun bit => !bit.2) = [] := by
    intro state
    cases due : rule.due state with
    | none => simp [trailing, due]
    | some extra => simp [trailing, due]
  rw [send, filter_append, behind, List.append_nil, stuff_unmarked]

end Sender

section Marks

variable {State : Type} (rule : StuffRule State)

def mark : State → List Bool → List (Bool × Bool)
  | _, [] => []
  | state, bit :: bits => (bit, (rule.due state).isSome) :: mark (rule.next state bit) bits

def Obeys : State → List Bool → Prop
  | _, [] => True
  | state, bit :: bits =>
      (∀ extra, rule.due state = some extra → bit = extra) ∧ Obeys (rule.next state bit) bits

variable {rule}

theorem send_nil (state : State) : rule.send state [] = rule.trailing state := rfl

variable {state : State}

theorem send_cons_none (none : rule.due state = none) (bit : Bool) (bits : List Bool) :
    rule.send state (bit :: bits) = (bit, false) :: rule.send (rule.next state bit) bits := by
  simp only [send, stuff, none, cons_append, stateAfter, foldl_cons]

theorem send_cons_some {extra : Bool} (due : rule.due state = some extra)
    (bit : Bool) (bits : List Bool) :
    rule.send state (bit :: bits) = (extra, true) :: (bit, false) ::
        rule.send (rule.next (rule.next state extra) bit) bits := by
  simp only [send, stuff, due, cons_append, stateAfter, foldl_cons]

theorem mark_send (single : ∀ state extra, rule.due state = some extra →
      rule.due (rule.next state extra) = none) (state : State) (bits : List Bool) :
    rule.mark state ((rule.send state bits).map Prod.fst) = rule.send state bits ∧
      rule.Obeys state ((rule.send state bits).map Prod.fst) := by
  induction bits generalizing state with
  | nil =>
      rw [send_nil]
      cases due : rule.due state with
      | none => simp [trailing, due, mark, Obeys]
      | some extra => simp [trailing, due, mark, Obeys]
  | cons bit bits ih =>
      cases due : rule.due state with
      | none =>
          obtain ⟨marks, obeys⟩ := ih (rule.next state bit)
          simp only [send_cons_none due, due, map_cons, mark, marks, Obeys, Option.isSome_none]
          exact ⟨trivial, by simp, obeys⟩
      | some extra =>
          have behind := single state extra due
          obtain ⟨marks, obeys⟩ := ih (rule.next (rule.next state extra) bit)
          simp only [send_cons_some due, due, map_cons, mark, marks, Obeys, behind,
            Option.isSome_none, Option.isSome_some]
          exact ⟨trivial, by simp, by simp, obeys⟩

def Quiet (rule : StuffRule State) : State → List Bool → Prop
  | _, [] => True
  | state, bit :: bits => rule.due state = none ∧ Quiet rule (rule.next state bit) bits

/-- Such bits stand at the head of the wire exactly when they stand at the head of the
frame. -/
theorem isPrefix_send_iff {front : List Bool} (quiet : Quiet rule state front) (bits : List Bool) :
    front <+: (rule.send state bits).map Prod.fst ↔ front <+: bits := by
  induction front generalizing state bits with
  | nil => simp
  | cons first front ih =>
      obtain ⟨none, quiet⟩ := quiet
      cases bits with
      | nil => simp [send_nil, trailing, none]
      | cons bit bits =>
          rw [send_cons_none none, map_cons, cons_prefix_cons, cons_prefix_cons]
          constructor
          · rintro ⟨rfl, rest⟩
            exact ⟨rfl, (ih quiet bits).mp rest⟩
          · rintro ⟨rfl, rest⟩
            exact ⟨rfl, (ih quiet bits).mpr rest⟩

end Marks

/-! ## Receivers -/

section Receiver

variable {State Input Decoder : Type} (rule : StuffRule State)
  (bitOf : Input → Bool) (step : Decoder → Input → Decoder)

/-- What a receiver has to keep, bit by bit: `known state rest read decoder`
speaks of the bits of the frame that are still to come and of the inputs read so
far, the stuff bits among them marked. -/
structure Tracks (known : State → List Bool → List (Input × Bool) → Decoder → Prop) : Prop where
  plain : ∀ {state rest read decoder} (input : Input),
    known state (bitOf input :: rest) read decoder → rule.due state = none →
      known (rule.next state (bitOf input)) rest (read ++ [(input, false)]) (step decoder input)
  extra : ∀ {state bit rest read decoder} (input : Input),
    known state (bit :: rest) read decoder → rule.due state = some (bitOf input) →
      known (rule.next state (bitOf input)) (bit :: rest) (read ++ [(input, true)])
        (step decoder input)

variable {rule bitOf step}

def marked (inputs : List Input) (wire : List (Bool × Bool)) : List (Input × Bool) :=
  inputs.zip (wire.map Prod.snd)

theorem marked_append {front back : List Input} {wire rest : List (Bool × Bool)}
    (length : front.length = wire.length) :
    marked (front ++ back) (wire ++ rest) = marked front wire ++ marked back rest := by
  rw [marked, map_append, zip_append (by rw [length, length_map])]
  rfl

variable {inputs : List Input}

theorem marked_plain {bits : List Bool} (length : inputs.length = bits.length) :
    marked inputs (bits.map fun bit => (bit, false)) =
      inputs.map fun input => (input, false) := by
  induction inputs generalizing bits with
  | nil => rfl
  | cons input inputs ih =>
      cases bits with
      | nil => simp at length
      | cons bit bits =>
          have rest := ih (Nat.succ.inj length)
          simpa [marked] using rest

theorem Tracks.run
    {known : State → List Bool → List (Input × Bool) → Decoder → Prop}
    (tracks : Tracks rule bitOf step known)
    (single : ∀ state extra, rule.due state = some extra → rule.due (rule.next state extra) = none)
    {bits rest : List Bool} {state : State} {read : List (Input × Bool)}
    {decoder : Decoder}
    (start : known state (bits ++ rest) read decoder)
    (wire : inputs.map bitOf = (rule.stuff state bits).map Prod.fst) :
    known (rule.stateAfter state (rule.stuff state bits)) rest
      (read ++ marked inputs (rule.stuff state bits)) (inputs.foldl step decoder) := by
  induction bits generalizing state read decoder inputs with
  | nil =>
      have none : inputs = [] := by simpa [stuff] using wire
      subst none
      simpa [stuff, stateAfter, marked] using start
  | cons bit bits ih =>
      cases due : rule.due state with
      | none =>
          simp only [stuff, due, map_cons] at wire ⊢
          obtain ⟨input, inputs, rfl, here, later⟩ := map_eq_cons_iff.mp wire
          subst here
          have step := ih (tracks.plain input start due) later
          simpa [stateAfter, marked] using step
      | some extra =>
          simp only [stuff, due, map_cons] at wire ⊢
          obtain ⟨first, inputs, rfl, here, later⟩ := map_eq_cons_iff.mp wire
          obtain ⟨second, inputs, rfl, next, last⟩ := map_eq_cons_iff.mp later
          subst here next
          have stuffed := tracks.extra first start due
          have step := ih (tracks.plain second stuffed (single _ _ due)) last
          simpa [stateAfter, marked] using step

variable (step) in
/-- The stuff bit behind the last bit of a frame, for a receiver that knows it. -/
theorem known_trailing
    {known : State → List Bool → List (Input × Bool) → Decoder → Prop}
    {rest : List Bool} {state : State} {read : List (Input × Bool)}
    {decoder : Decoder}
    (extra : ∀ input, rule.due state = some (bitOf input) →
      known (rule.next state (bitOf input)) rest (read ++ [(input, true)]) (step decoder input))
    (start : known state rest read decoder)
    (wire : inputs.map bitOf = (rule.trailing state).map Prod.fst) :
    known (rule.stateAfter state (rule.trailing state)) rest
      (read ++ marked inputs (rule.trailing state)) (inputs.foldl step decoder) := by
  cases due : rule.due state with
  | none =>
      simp only [StuffRule.trailing, due] at wire ⊢
      have none : inputs = [] := by simpa using wire
      subst none
      simpa [stateAfter, marked] using start
  | some bit =>
      simp only [StuffRule.trailing, due] at wire ⊢
      obtain ⟨input, inputs, rfl, here, later⟩ := map_eq_cons_iff.mp wire
      have none : inputs = [] := by simpa using later
      subst none here
      simpa [stateAfter, marked] using extra input due

theorem due_trailing (single : ∀ state extra, rule.due state = some extra →
      rule.due (rule.next state extra) = none) (state : State) :
    rule.due (rule.stateAfter state (rule.trailing state)) = none := by
  cases due : rule.due state with
  | none => simp [StuffRule.trailing, due, stateAfter]
  | some extra => simp [StuffRule.trailing, due, stateAfter, single state extra due]

theorem due_send (single : ∀ state extra, rule.due state = some extra →
      rule.due (rule.next state extra) = none) (state : State) (bits : List Bool) :
    rule.due (((rule.send state bits).map Prod.fst).foldl rule.next state) = none := by
  rw [foldl_map, send, foldl_append]
  exact due_trailing single (rule.stateAfter state (rule.stuff state bits))

end Receiver

end StuffRule

/-- The last bit on the wire and how often it has been sent in a row. -/
structure BitRun where
  last : Bool
  length : Nat

/-- A stuff bit breaks every run of `limit` equal bits. -/
def runRule (limit : Nat) : StuffRule BitRun :=
  { next := fun run bit =>
      if bit = run.last then
        { run with length := run.length + 1 }
      else
        { last := bit, length := 1 }
    due := fun run => if run.length = limit then some !run.last else none }

/-- A zero breaks every run of `limit` ones. -/
def onesRule (limit : Nat) : StuffRule Nat :=
  { next := fun ones bit => if bit then ones + 1 else 0
    due := fun ones => if ones = limit then some false else none }

variable {limit : Nat}

theorem runRule_single (long : 1 < limit) (run : BitRun) (extra : Bool)
    (due : (runRule limit).due run = some extra) :
    (runRule limit).due ((runRule limit).next run extra) = none := by
  simp only [runRule] at due ⊢
  split at due
  · have other : extra = !run.last := by simpa using due.symm
    have short : 1 ≠ limit := by omega
    simp [other, short]
  · simp at due

theorem onesRule_single (positive : 0 < limit) (ones : Nat) (extra : Bool)
    (due : (onesRule limit).due ones = some extra) :
    (onesRule limit).due ((onesRule limit).next ones extra) = none := by
  simp only [onesRule] at due ⊢
  split at due
  · have low : extra = false := by simpa using due.symm
    have short : 0 ≠ limit := by omega
    simp [low, short]
  · simp at due

def BitRun.EndsWire (run : BitRun) (wire : List Bool) : Prop :=
  ∃ front, wire = front ++ List.replicate run.length run.last ∧
    front.getLast? ≠ some run.last ∧ (run.length = 0 → front = [])

theorem BitRun.EndsWire.next {run : BitRun} {wire : List Bool} (limit : Nat)
    (ends : run.EndsWire wire) (bit : Bool) :
    ((runRule limit).next run bit).EndsWire (wire ++ [bit]) := by
  obtain ⟨front, split, before, empty⟩ := ends
  simp only [runRule]
  by_cases same : bit = run.last
  · rw [if_pos same]
    refine ⟨front, ?_, before, fun zero => absurd zero (Nat.succ_ne_zero _)⟩
    rw [split, same, replicate_succ', List.append_assoc]
  · rw [if_neg same]
    refine ⟨wire, rfl, ?_, fun zero => absurd zero Nat.one_ne_zero⟩
    intro ending
    rcases Nat.eq_zero_or_pos run.length with zero | positive
    · rw [split, empty zero, zero] at ending
      simp at ending
    · have last : wire.getLast? = some run.last := by
        obtain ⟨length, shift⟩ : ∃ length, run.length = length + 1 :=
          ⟨run.length - 1, by omega⟩
        rw [split, shift, replicate_succ', ← List.append_assoc]
        simp
      rw [last] at ending
      exact same (by simpa using ending.symm)

theorem runRule_bounded (run : BitRun) (bit : Bool) (long : 0 < limit)
    (bounded : run.length ≤ limit)
    (follows : (runRule limit).due run = none ∨ (runRule limit).due run = some bit) :
    ((runRule limit).next run bit).length ≤ limit := by
  simp only [runRule] at follows ⊢
  split
  · rename_i same
    subst same
    by_cases full : run.length = limit
    · simp [full] at follows
    · simp only
      omega
  · exact long

/-- A stuff bit comes at most once in `limit - 1` bits of the frame. -/
theorem runRule_spacing {frame extra : Nat} (run : BitRun) (bit : Bool) (long : 1 < limit) :
    ((runRule limit).due run = none → (limit - 1) * extra + run.length ≤ frame + 1 →
        (limit - 1) * extra + ((runRule limit).next run bit).length ≤ frame + 1 + 1) ∧
      ((runRule limit).due run = some bit → (limit - 1) * extra + run.length ≤ frame + 1 →
        (limit - 1) * (extra + 1) + ((runRule limit).next run bit).length ≤ frame + 1) := by
  constructor
  · intro _ spaced
    simp only [runRule]
    split
    · simp only
      omega
    · simp only
      omega
  · intro due spaced
    simp only [runRule] at due ⊢
    split at due
    · rename_i full
      have other : bit = !run.last := by simpa using due.symm
      have more : (limit - 1) * (extra + 1) = (limit - 1) * extra + (limit - 1) := Nat.mul_succ _ _
      simp only [other, Bool.not_eq_self, if_false]
      omega
    · simp at due

end SigrokDecode.Foundation
