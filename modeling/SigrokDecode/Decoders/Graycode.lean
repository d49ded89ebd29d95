import Mathlib.Data.Int.Basic
import Mathlib.Data.Nat.Bitwise
import Mathlib.Data.List.Basic

/-!
# The Gray code decoder

`graycode_c` counts the steps of a rotary encoder.  The statistics of its speed, which are
floating-point numbers, are left out.
-/

namespace SigrokDecode

inductive GraycodeText
  | phase (phase : Nat)
  | increment (increment : Int)
  | count (count : Int)
  | turns (turns : Int)

structure GraycodeAnn where
  ss : Nat
  es : Nat
  text : GraycodeText

/-- `gray_code_state`; `count` and `turns` are initialized by the first sample. -/
structure GraycodeState where
  numChannels : Nat
  encoderSteps : Int
  edgesPerRotation : Int
  prevGray : Nat
  prevBin : Nat
  count : Int
  lastEdgeSample : Nat
  prevIncrement : Int
  incrementInitialized : Bool
  prevTurns : Int
  countTimestamp : Nat
  incrementTimestamp : Nat
  turnsTimestamp : Nat
  anns : List GraycodeAnn

/-- `phasedelta_raw`, with the remainder of C. -/
def phaseDelta (encoderSteps : Int) (curBin oldBin : Nat) : Int :=
  ((curBin : Int) - oldBin + (encoderSteps.tdiv 2 - 1)).tmod encoderSteps -
    (encoderSteps.tdiv 2 - 1)

namespace GraycodeState

def grayToBinary (gray bits : Nat) : Nat :=
  (List.range (bits - 1)).foldl (fun bin i => bin ^^^ gray >>> (i + 1)) gray

/-- `gray_code_start`, and the first sample. -/
def start (numChannels : Nat) (edgesPerRotation : Int) (gray samplenum : Nat) : GraycodeState :=
  { numChannels
    encoderSteps := 2 ^ numChannels
    edgesPerRotation
    prevGray := gray
    prevBin := grayToBinary gray numChannels
    count := 0
    lastEdgeSample := samplenum
    prevIncrement := 0
    incrementInitialized := false
    prevTurns := 0
    countTimestamp := samplenum
    incrementTimestamp := samplenum
    turnsTimestamp := samplenum
    anns := [] }

def put (s : GraycodeState) (ss es : Nat) (text : GraycodeText) : GraycodeState :=
  { s with anns := s.anns ++ [⟨ss, es, text⟩] }

def setIncrement (s : GraycodeState) (increment : Int) (samplenum : Nat) : GraycodeState :=
  if s.incrementInitialized ∧ increment = s.prevIncrement then s
  else
    let s :=
      if s.incrementInitialized then
        s.put s.incrementTimestamp samplenum (.increment s.prevIncrement)
      else s
    { s with
      prevIncrement := increment
      incrementInitialized := true
      incrementTimestamp := samplenum }

def setCount (s : GraycodeState) (count : Int) (samplenum : Nat) : GraycodeState :=
  if count = s.count then s
  else
    { s.put s.countTimestamp samplenum (.count s.count) with
      count
      countTimestamp := samplenum }

def setTurns (s : GraycodeState) (turns : Int) (samplenum : Nat) : GraycodeState :=
  if turns = s.prevTurns then s
  else
    { s.put s.turnsTimestamp samplenum (.turns s.prevTurns) with
      prevTurns := turns
      turnsTimestamp := samplenum }

/-- The body of the loop of `gray_code_decode`. -/
def decodeSample (s : GraycodeState) (curGray samplenum : Nat) : GraycodeState :=
  if curGray = s.prevGray then s
  else
    let curBin := grayToBinary curGray s.numChannels
    let phasedeltaRaw := phaseDelta s.encoderSteps curBin s.prevBin
    let phasedelta :=
      if (phasedeltaRaw.natAbs : Int) = s.encoderSteps.tdiv 2 then 0 else phasedeltaRaw
    let newCount := s.count + phasedelta
    let s := s.put s.lastEdgeSample samplenum (.phase s.prevBin)
    let s := (s.setIncrement phasedeltaRaw samplenum).setCount newCount samplenum
    let s :=
      if 0 < s.edgesPerRotation then
        s.setTurns (newCount.tdiv s.edgesPerRotation) samplenum
      else s
    { s with
      prevGray := curGray
      prevBin := curBin
      lastEdgeSample := samplenum }

def decode (s : GraycodeState) (samplenum : Nat) : List Nat → GraycodeState
  | [] => s
  | gray :: rest => (s.decodeSample gray samplenum).decode (samplenum + 1) rest

end GraycodeState

def grayCode (phase : Nat) : Nat :=
  phase ^^^ phase >>> 1

def turn (steps phase : Nat) (forward : Bool) : Nat :=
  if forward then
    if phase + 1 = steps then 0 else phase + 1
  else if phase = 0 then steps - 1 else phase - 1

def turnCodes (steps phase : Nat) : List Bool → List Nat
  | [] => []
  | forward :: rest =>
      grayCode (turn steps phase forward) :: turnCodes steps (turn steps phase forward) rest

def netSteps (turns : List Bool) : Int :=
  (turns.count true : Int) - turns.count false

def forwardWraps (steps phase : Nat) : List Bool → Nat
  | [] => 0
  | forward :: rest =>
      (if forward ∧ phase + 1 = steps then 1 else 0) +
        forwardWraps steps (turn steps phase forward) rest

theorem xorShifts_grayCode (phase count : Nat) :
    (List.range count).foldl (fun bin i => bin ^^^ grayCode phase >>> (i + 1)) (grayCode phase) =
      phase ^^^ phase >>> (count + 1) := by
  induction count with
  | zero => rfl
  | succ count ih =>
      have shifted : grayCode phase >>> (count + 1) =
          phase >>> (count + 1) ^^^ phase >>> (count + 2) := by
        rw [grayCode, Nat.shiftRight_xor_distrib, ← Nat.shiftRight_add, Nat.add_comm 1]
      rw [List.range_succ, List.foldl_append, ih, List.foldl_cons, List.foldl_nil, shifted,
        Nat.xor_assoc, ← Nat.xor_assoc (phase >>> _), Nat.xor_self, Nat.zero_xor]

variable {phase half : Nat}

theorem GraycodeState.grayToBinary_grayCode {bits : Nat} (some : 0 < bits) (inside : phase < 2 ^ bits) :
    grayToBinary (grayCode phase) bits = phase := by
  rw [grayToBinary, xorShifts_grayCode, Nat.sub_add_cancel some,
    Nat.shiftRight_eq_zero phase bits inside, Nat.xor_zero]

theorem turn_lt {steps : Nat} (inside : phase < steps) (forward : Bool) :
    turn steps phase forward < steps := by
  rw [turn]
  split
  · split
    · omega
    · omega
  · split
    · omega
    · omega

theorem turn_ne {steps : Nat} (two : 2 ≤ steps) (forward : Bool) :
    turn steps phase forward ≠ phase := by
  rw [turn]
  split
  · split
    · omega
    · omega
  · split
    · omega
    · omega

theorem tdiv_two (half : Nat) : ((2 * half : Nat) : Int).tdiv 2 = half := by
  rw [Int.tdiv_eq_ediv_of_nonneg (by omega)]
  omega

theorem phaseDelta_forward (next : phase + 1 < 2 * half) :
    phaseDelta (2 * half : Nat) (phase + 1) phase = 1 := by
  rw [phaseDelta, tdiv_two, Int.tmod_eq_emod_of_nonneg (by omega), Int.emod_eq_of_lt (by omega)
    (by omega)]
  omega

theorem phaseDelta_wrapped (some : 0 < half) :
    phaseDelta (2 * half : Nat) 0 (2 * half - 1) = 1 - 2 * half := by
  have back : ((0 : Nat) : Int) - (2 * half - 1 : Nat) + (half - 1) = -half := by omega
  rw [phaseDelta, tdiv_two, back, Int.neg_tmod, Int.tmod_eq_emod_of_nonneg (by omega),
    Int.emod_eq_of_lt (by omega) (by omega)]
  omega

theorem phaseDelta_backward (two : 2 ≤ half) :
    phaseDelta (2 * half : Nat) phase (phase + 1) = -1 := by
  rw [phaseDelta, tdiv_two, Int.tmod_eq_emod_of_nonneg (by omega), Int.emod_eq_of_lt (by omega)
    (by omega)]
  omega

theorem phaseDelta_backWrapped (two : 2 ≤ half) :
    phaseDelta (2 * half : Nat) (2 * half - 1) 0 = -1 := by
  have wraps : ((2 * half - 1 : Nat) : Int) - (0 : Nat) + (half - 1) =
      (half - 2) + (2 * half : Nat) := by omega
  rw [phaseDelta, tdiv_two, wraps, Int.tmod_eq_emod_of_nonneg (by omega), Int.add_emod_right,
    Int.emod_eq_of_lt (by omega) (by omega)]
  omega

namespace GraycodeState

structure Counts (bits : Nat) (edges : Int) (phase : Nat) (total : Int) (s : GraycodeState) :
    Prop where
  numChannels : s.numChannels = bits
  encoderSteps : s.encoderSteps = (2 ^ bits : Nat)
  edgesPerRotation : s.edgesPerRotation = edges
  prevGray : s.prevGray = grayCode phase
  prevBin : s.prevBin = phase
  count : s.count = total
  prevTurns : 0 < edges → s.prevTurns = total.tdiv edges

def stepCount (steps phase : Nat) (forward : Bool) : Int :=
  if forward then if phase + 1 = steps then 1 - steps else 1 else -1

theorem phaseDelta_turn {half phase : Nat} (two : 2 ≤ half) (inside : phase < 2 * half)
    (forward : Bool) :
    phaseDelta (2 * half : Nat) (turn (2 * half) phase forward) phase =
      stepCount (2 * half) phase forward := by
  cases forward with
  | true =>
      by_cases last : phase + 1 = 2 * half
      · obtain rfl : phase = 2 * half - 1 := by omega
        simp only [turn, stepCount, if_true, if_pos last]
        rw [phaseDelta_wrapped (by omega)]
        omega
      · simp only [turn, stepCount, if_true, if_neg last]
        exact phaseDelta_forward (by omega)
  | false =>
      cases phase with
      | zero => exact phaseDelta_backWrapped two
      | succ phase => exact phaseDelta_backward two

theorem setIncrement_kept (s : GraycodeState) (increment : Int) (samplenum : Nat) :
    ∃ prevIncrement incrementInitialized incrementTimestamp anns,
      s.setIncrement increment samplenum =
        { s with prevIncrement, incrementInitialized, incrementTimestamp, anns } := by
  rw [setIncrement]
  split
  · exact ⟨_, _, _, _, rfl⟩
  · dsimp only
    split
    · exact ⟨_, _, _, _, rfl⟩
    · exact ⟨_, _, _, _, rfl⟩

theorem setCount_kept (s : GraycodeState) (count : Int) (samplenum : Nat) : ∃ countTimestamp anns,
      s.setCount count samplenum = { s with count, countTimestamp, anns } := by
  rw [setCount]
  split
  next same => exact ⟨_, _, by rw [same]⟩
  next => exact ⟨_, _, rfl⟩

theorem setTurns_kept (s : GraycodeState) (turns : Int) (samplenum : Nat) : ∃ turnsTimestamp anns,
      s.setTurns turns samplenum = { s with prevTurns := turns, turnsTimestamp, anns } := by
  rw [setTurns]
  split
  next same => exact ⟨_, _, by rw [same]⟩
  next => exact ⟨_, _, rfl⟩

variable {bits : Nat} {edges count : Int} {phase : Nat} {s : GraycodeState}

theorem Counts.decodeSample (counts : Counts bits edges phase count s) (two : 2 ≤ bits)
    (inside : phase < 2 ^ bits) (forward : Bool) (samplenum : Nat) :
    Counts bits edges (turn (2 ^ bits) phase forward) (count + stepCount (2 ^ bits) phase forward)
      (s.decodeSample (grayCode (turn (2 ^ bits) phase forward)) samplenum) := by
  obtain ⟨half, many, whole⟩ : ∃ half, 2 ≤ half ∧ 2 ^ bits = 2 * half := by
    obtain ⟨more, rfl⟩ := Nat.exists_eq_add_of_le two
    refine ⟨2 ^ (more + 1), ?_, by rw [← Nat.pow_succ', Nat.add_comm 2]⟩
    exact Nat.le_self_pow (by omega) 2
  have there := turn_lt inside forward
  have decoded := grayToBinary_grayCode (by omega) there
  have moved : grayCode (turn (2 ^ bits) phase forward) ≠ s.prevGray := by
    rw [counts.prevGray]
    intro same
    have back := congrArg (grayToBinary · bits) same
    simp only [decoded, grayToBinary_grayCode (by omega) inside] at back
    exact turn_ne (by omega) forward back
  have delta : phaseDelta s.encoderSteps (turn (2 ^ bits) phase forward) s.prevBin =
      stepCount (2 ^ bits) phase forward := by
    rw [counts.encoderSteps, counts.prevBin, whole]
    exact phaseDelta_turn many (whole ▸ inside) forward
  have clear : ¬ ((stepCount (2 ^ bits) phase forward).natAbs : Int) =
      s.encoderSteps.tdiv 2 := by
    rw [counts.encoderSteps, whole, tdiv_two, stepCount]
    split
    · split
      · omega
      · omega
    · omega
  rw [GraycodeState.decodeSample, if_neg moved]
  simp only [counts.numChannels, decoded, delta, if_neg clear, counts.count]
  obtain ⟨_, _, _, _, increment⟩ := setIncrement_kept
    (s.put s.lastEdgeSample samplenum (.phase s.prevBin)) (stepCount (2 ^ bits) phase forward)
    samplenum
  obtain ⟨_, _, counted⟩ := setCount_kept _ (count + stepCount (2 ^ bits) phase forward) samplenum
  rw [increment, counted]
  have edgesKept : s.edgesPerRotation = edges := counts.edgesPerRotation
  by_cases rotates : 0 < edges
  · rw [if_pos (by rw [← edgesKept] at rotates; exact rotates)]
    obtain ⟨_, _, turned⟩ := setTurns_kept _
      ((count + stepCount (2 ^ bits) phase forward).tdiv s.edgesPerRotation) samplenum
    erw [turned]
    exact ⟨counts.numChannels, counts.encoderSteps, edgesKept, rfl, rfl, rfl,
      fun _ => by rw [← edgesKept]⟩
  · rw [if_neg (by rw [← edgesKept] at rotates; exact rotates)]
    exact ⟨counts.numChannels, counts.encoderSteps, edgesKept, rfl, rfl, rfl,
      fun positive => absurd positive rotates⟩

theorem stepCount_eq (steps phase : Nat) (forward : Bool) : stepCount steps phase forward =
      netSteps [forward] - steps * (if forward ∧ phase + 1 = steps then 1 else 0 : Nat) := by
  cases forward with
  | true =>
      simp only [stepCount, netSteps, true_and, if_true]
      split
      · simp
      · simp
  | false => simp [stepCount, netSteps]

theorem Counts.decode (counts : Counts bits edges phase count s) (two : 2 ≤ bits)
    (inside : phase < 2 ^ bits) (turns : List Bool) (samplenum : Nat) :
    ∃ last, Counts bits edges last
      (count + netSteps turns - (2 ^ bits : Nat) * forwardWraps (2 ^ bits) phase turns)
      (s.decode samplenum (turnCodes (2 ^ bits) phase turns)) := by
  induction turns generalizing s phase count samplenum with
  | nil =>
      refine ⟨phase, ?_⟩
      have same : count + netSteps [] - (2 ^ bits : Nat) * forwardWraps (2 ^ bits) phase [] =
          count := by simp [netSteps, forwardWraps]
      rw [same]
      exact counts
  | cons forward turns ih =>
      have next := counts.decodeSample two inside forward samplenum
      obtain ⟨last, rest⟩ := ih next (turn_lt inside forward) (samplenum + 1)
      refine ⟨last, ?_⟩
      have sum : count + stepCount (2 ^ bits) phase forward + netSteps turns -
          (2 ^ bits : Nat) * forwardWraps (2 ^ bits) (turn (2 ^ bits) phase forward) turns =
            count + netSteps (forward :: turns) -
              (2 ^ bits : Nat) * forwardWraps (2 ^ bits) phase (forward :: turns) := by
        have net : netSteps (forward :: turns) = netSteps [forward] + netSteps turns := by
          cases forward <;> simp [netSteps] <;> omega
        rw [stepCount_eq, net, forwardWraps, Int.natCast_add, Int.mul_add]
        omega
      rw [← sum]
      exact rest

theorem counts_start (inside : phase < 2 ^ bits) (some : 0 < bits) (edges : Int) (samplenum : Nat) :
    Counts bits edges phase 0 (start bits edges (grayCode phase) samplenum) :=
  ⟨rfl, by simp [start], rfl, rfl, grayToBinary_grayCode some inside, rfl,
    fun _ => (Int.zero_tdiv edges).symm⟩

end GraycodeState

theorem forwardWraps_mono (steps phase : Nat) {front turns : List Bool} (part : front <+: turns) :
    forwardWraps steps phase front ≤ forwardWraps steps phase turns := by
  induction front generalizing phase turns with
  | nil => exact Nat.zero_le _
  | cons forward front ih =>
      obtain ⟨rest, rfl⟩ := part
      exact Nat.add_le_add_left (ih _ (List.prefix_append front rest)) _

/-- Truncation is the floor unless it cuts off something below zero. -/
theorem tdiv_eq_floor {count edges : Int} (positive : 0 < edges) :
    count.tdiv edges = count / edges ↔ 0 ≤ count ∨ edges ∣ count := by
  have sign : edges.sign = 1 := Int.sign_eq_one_of_pos positive
  rw [Int.tdiv_eq_ediv, sign]
  split
  next exact => exact ⟨fun _ => exact, fun _ => Int.add_zero _⟩
  next cut => exact ⟨fun same => by omega, fun exact => absurd exact cut⟩

/-- Behind every sample the count is that of the steps, and the turns are rounded down, exactly if
no step wraps forward and no count below zero is in the middle of a rotation. -/
theorem graycodeCount_iff (bits : Nat) (few : 2 ≤ bits ∧ bits ≤ 8) (edges : Int) (phase : Nat)
    (inside : phase < 2 ^ bits) (turns : List Bool) :
    (∀ front, front <+: turns →
      let s := (GraycodeState.start bits edges (grayCode phase) 0).decode 1
        (turnCodes (2 ^ bits) phase front)
      s.count = netSteps front ∧ (0 < edges → s.prevTurns = s.count / edges)) ↔
    forwardWraps (2 ^ bits) phase turns = 0 ∧
      (0 < edges → ∀ front, front <+: turns → 0 ≤ netSteps front ∨ edges ∣ netSteps front) := by
  have known : ∀ front, ∃ last, GraycodeState.Counts bits edges last
      (netSteps front - (2 ^ bits : Nat) * forwardWraps (2 ^ bits) phase front)
      ((GraycodeState.start bits edges (grayCode phase) 0).decode 1
        (turnCodes (2 ^ bits) phase front)) := by
    intro front
    have begun := GraycodeState.counts_start inside (by omega) edges 0
    have run := begun.decode few.1 inside front 1
    rwa [Int.zero_add] at run
  have some : 0 < 2 ^ bits := Nat.two_pow_pos bits
  constructor
  · intro right
    have none : ∀ front, front <+: turns → forwardWraps (2 ^ bits) phase front = 0 := by
      intro front part
      obtain ⟨_, counts⟩ := known front
      have same := (right front part).1
      rw [counts.count] at same
      have product : ((2 ^ bits : Nat) : Int) * forwardWraps (2 ^ bits) phase front = 0 := by omega
      rcases Int.mul_eq_zero.mp product with zero | zero
      · omega
      · exact Int.ofNat_eq_zero.mp zero
    refine ⟨none turns List.prefix_rfl, fun positive front part => ?_⟩
    obtain ⟨_, counts⟩ := known front
    obtain ⟨same, floor⟩ := right front part
    have turned := floor positive
    rw [same, counts.prevTurns positive, none front part] at turned
    exact (tdiv_eq_floor positive).mp (by simpa using turned)
  · rintro ⟨unwrapped, floors⟩ front part
    have none : forwardWraps (2 ^ bits) phase front = 0 :=
      Nat.le_zero.mp (unwrapped ▸ forwardWraps_mono _ _ part)
    obtain ⟨_, counts⟩ := known front
    have product : ((2 ^ bits : Nat) : Int) * (0 : Nat) = 0 := Int.mul_zero _
    rw [none, product, Int.sub_zero] at counts
    refine ⟨counts.count, fun positive => ?_⟩
    rw [counts.prevTurns positive, counts.count]
    exact (tdiv_eq_floor positive).mpr (floors positive front part)

theorem graycodeCount_iff_twoChannels : (∀ front, front <+: [true, true, false] →
      let s := (GraycodeState.start 2 4 (grayCode 0) 0).decode 1 (turnCodes (2 ^ 2) 0 front)
      s.count = netSteps front ∧ ((0 : Int) < 4 → s.prevTurns = s.count / 4)) ↔
    forwardWraps (2 ^ 2) 0 [true, true, false] = 0 ∧
      ((0 : Int) < 4 → ∀ front, front <+: [true, true, false] →
        0 ≤ netSteps front ∨ 4 ∣ netSteps front) :=
  graycodeCount_iff 2 ⟨by decide, by decide⟩ 4 0 (by decide) _

/-- A step forward over the end of the turn counts as three steps back, and a step back from the
start as no turn. -/
theorem graycodeCount_wrong :
    ((GraycodeState.start 2 4 (grayCode 3) 0).decode 1 (turnCodes 4 3 [true])).count = -3 ∧
      netSteps [true] = 1 ∧
      ((GraycodeState.start 2 4 (grayCode 0) 0).decode 1 (turnCodes 4 0 [false])).count = -1 ∧
      ((GraycodeState.start 2 4 (grayCode 0) 0).decode 1 (turnCodes 4 0 [false])).prevTurns = 0 ∧
      (-1 : Int) / 4 = -1 := by
  decide

end SigrokDecode
