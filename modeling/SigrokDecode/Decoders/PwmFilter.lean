import Mathlib.Algebra.Field.Basic
import Mathlib.Algebra.Field.Rat
import Mathlib.Algebra.Order.Ring.Rat
import SigrokDecode.Foundation.SlidingWindow

/-!
# The filters of the PWM decoder

`pwm_waveform_c` smooths the value of each cycle.  The arithmetic is that of a field.
-/

namespace SigrokDecode

open Foundation

inductive PwmFilterType
  | none
  | movingAverage
  | exponential
  | rcLowpass
  deriving DecidableEq

/-- The part of `pwm_waveform_state` that the filters use. -/
structure PwmFilterState (K : Type) where
  filterType : PwmFilterType
  filterCycles : Nat
  filterCutoffHz : K
  movingValues : Nat → K
  movingCount : Nat
  movingPos : Nat
  movingSum : K
  filteredValue : K
  filterValid : Bool

def clampDouble {K : Type} [LinearOrder K] (value minimum maximum : K) : K :=
  if value < minimum then minimum
  else if maximum < value then maximum
  else value

def parseFilterType (filter : String) : PwmFilterType :=
  if filter = "Moving average" then .movingAverage
  else if filter = "Exponential smoothing" then .exponential
  else if filter = "RC low-pass" then .rcLowpass
  else .none

/-- The number of cycles that `pwm_waveform_start` keeps of the option. -/
def filterCyclesOf (option : Int) : Nat :=
  let cycles := (BitVec.ofInt 32 option).toInt
  if cycles < 1 then 1
  else if 128 < cycles then 128
  else cycles.toNat

/-- The filter behind `pwm_waveform_reset` and `pwm_waveform_start`. -/
def pwmFilterStart {K : Type} [Zero K] (filterType : PwmFilterType) (filterCycles : Nat)
    (filterCutoffHz : K) : PwmFilterState K :=
  { filterType
    filterCycles
    filterCutoffHz
    movingValues := fun _ => 0
    movingCount := 0
    movingPos := 0
    movingSum := 0
    filteredValue := 0
    filterValid := false }

namespace PwmFilterState

section Filter

variable {K : Type} [Field K]

def smooth (s : PwmFilterState K) (alpha value : K) : PwmFilterState K :=
  if s.filterValid then
    { s with filteredValue := s.filteredValue + alpha * (value - s.filteredValue) }
  else
    { s with filteredValue := value, filterValid := true }

def pushMoving (s : PwmFilterState K) (value : K) : PwmFilterState K :=
  if s.movingCount < s.filterCycles then
    { s with
      movingValues := Function.update s.movingValues s.movingPos value
      movingSum := s.movingSum + value
      movingCount := s.movingCount + 1
      movingPos := (s.movingPos + 1) % s.filterCycles }
  else
    { s with
      movingValues := Function.update s.movingValues s.movingPos value
      movingSum := s.movingSum - s.movingValues s.movingPos + value
      movingPos := (s.movingPos + 1) % s.filterCycles }

/-- `pwm_filter_value`; `twoPi` is `PWM_TWO_PI`. -/
def pwmFilterValue [LinearOrder K] (exp : K → K) (twoPi : K) (s : PwmFilterState K)
    (value periodSeconds : K) : PwmFilterState K × K :=
  match s.filterType with
  | .none => (s, value)
  | .rcLowpass =>
      let alpha :=
        if 0 < periodSeconds ∧ 0 < s.filterCutoffHz then
          1 - exp (-twoPi * s.filterCutoffHz * periodSeconds)
        else
          1
      let s := s.smooth (clampDouble alpha 0 1) value
      (s, s.filteredValue)
  | .exponential =>
      let s := s.smooth (2 / (s.filterCycles + 1)) value
      (s, s.filteredValue)
  | .movingAverage =>
      if s.filterCycles ≤ 1 then
        (s, value)
      else
        let s := s.pushMoving value
        (s, s.movingSum / s.movingCount)

def filterValues [LinearOrder K] (exp : K → K) (twoPi : K) : PwmFilterState K → List (K × K) → List K
  | _, [] => []
  | s, (value, periodSeconds) :: updates =>
      let next := s.pwmFilterValue exp twoPi value periodSeconds
      next.2 :: filterValues exp twoPi next.1 updates

structure Averages (s : PwmFilterState K) (values : List K) : Prop where
  ring : RingHolds s.filterCycles s.movingValues values
  count : s.movingCount = min values.length s.filterCycles
  pos : s.movingPos = values.length % s.filterCycles
  sum : s.movingSum = (lastItems s.filterCycles values).sum

theorem pushMoving_filterCycles (s : PwmFilterState K) (value : K) :
    (s.pushMoving value).filterCycles = s.filterCycles ∧
      (s.pushMoving value).filterType = s.filterType := by
  unfold pushMoving
  split
  · exact ⟨rfl, rfl⟩
  · exact ⟨rfl, rfl⟩

theorem Averages.pushMoving {s : PwmFilterState K} {values : List K}
    (averages : s.Averages values) (some : 0 < s.filterCycles) (value : K) :
    (s.pushMoving value).Averages (values ++ [value]) := by
  obtain ⟨ring, count, pos, sum⟩ := averages
  have next : (s.movingPos + 1) % s.filterCycles =
      (values ++ [value]).length % s.filterCycles := by
    rw [pos, Nat.mod_add_mod, List.length_append, List.length_singleton]
  have stored := ring.concat value
  rw [← pos] at stored
  have length : (values ++ [value]).length = values.length + 1 := List.length_append
  unfold PwmFilterState.pushMoving
  split
  · rename_i warming
    have few : values.length + 1 ≤ s.filterCycles := by omega
    constructor
    case ring => exact stored
    case count =>
      dsimp only
      omega
    case pos => exact next
    case sum =>
      dsimp only
      rw [sum, lastItems_all (by omega), lastItems_all (length.trans_le few), List.sum_append,
        List.sum_singleton]
  · rename_i warm
    have full : s.filterCycles ≤ values.length := by omega
    have oldest := ring.oldest some full
    rw [← pos] at oldest
    constructor
    case ring => exact stored
    case count =>
      dsimp only
      omega
    case pos => exact next
    case sum =>
      dsimp only
      rw [sum, oldest, sum_lastItems_concat some full]

end Filter

end PwmFilterState

def mean {K : Type} [Field K] (values : List K) : K :=
  values.sum / values.length

section Mean

variable {K : Type} [Field K]

open PwmFilterState

variable {s : PwmFilterState K}

theorem PwmFilterState.Averages.result {values : List K}
    (averages : s.Averages values) : s.movingSum / s.movingCount =
      mean (lastItems s.filterCycles values) := by
  unfold mean
  rw [averages.sum, averages.count, length_lastItems]

theorem mean_singleton (value : K) : mean [value] = value := by
  unfold mean
  rw [List.sum_singleton, List.length_singleton, Nat.cast_one, div_one]

variable [LinearOrder K] (exp : K → K) (twoPi : K)

theorem filterValues_one (type : s.filterType = .movingAverage)
    (one : s.filterCycles = 1) (updates : List (K × K)) :
    s.filterValues exp twoPi updates = updates.map Prod.fst := by
  have passes (value periodSeconds : K) :
      s.pwmFilterValue exp twoPi value periodSeconds = (s, value) := by
    unfold pwmFilterValue
    rw [type]
    exact if_pos one.le
  induction updates with
  | nil => rfl
  | cons update updates ih =>
      rw [filterValues, passes, ih]
      rfl

theorem filterValues_wide {values : List K} (averages : s.Averages values)
    (type : s.filterType = .movingAverage) (wide : 1 < s.filterCycles) (updates : List (K × K))
    {n : Nat} (inside : n < updates.length) :
    (s.filterValues exp twoPi updates)[n]? =
      some (mean (lastItems s.filterCycles (values ++ (updates.map Prod.fst).take (n + 1)))) := by
  induction updates generalizing s values n with
  | nil => exact absurd inside (Nat.not_lt_zero n)
  | cons update updates ih =>
      obtain ⟨value, periodSeconds⟩ := update
      have next : s.pwmFilterValue exp twoPi value periodSeconds = (s.pushMoving value,
            (s.pushMoving value).movingSum / (s.pushMoving value).movingCount) := by
        unfold pwmFilterValue
        rw [type]
        exact if_neg (Nat.not_le_of_lt wide)
      obtain ⟨cycles, sameType⟩ := s.pushMoving_filterCycles value
      have pushed := averages.pushMoving (Nat.zero_lt_of_lt wide) value
      rw [filterValues, next]
      cases n with
      | zero =>
          have result := pushed.result
          rw [cycles] at result
          exact congrArg some result
      | succ n =>
          have later := ih pushed (sameType.trans type) (cycles.symm ▸ wide)
            (Nat.lt_of_succ_lt_succ inside)
          rw [cycles, List.append_assoc] at later
          exact later

/-- The moving average is the mean of the last values, of as many as the window has or of all. -/
theorem movingAverage_mean {k : Nat} (some : 1 ≤ k) (filterCutoffHz : K) (updates : List (K × K))
    {n : Nat} (inside : n < updates.length) :
    ((pwmFilterStart .movingAverage k filterCutoffHz).filterValues exp twoPi updates)[n]? =
      Option.some (mean (lastItems k ((updates.map Prod.fst).take (n + 1)))) := by
  rcases Nat.lt_or_eq_of_le some with wide | rfl
  · have empty : (lastItems k ([] : List K)).sum = 0 :=
      congrArg List.sum (lastItems_all (Nat.zero_le k))
    have fresh : (pwmFilterStart .movingAverage k filterCutoffHz).Averages [] :=
      ⟨RingHolds.nil k _, (Nat.zero_min k).symm, (Nat.zero_mod k).symm, empty.symm⟩
    exact filterValues_wide exp twoPi fresh rfl wide updates inside
  · have here : n < (updates.map Prod.fst).length := by rwa [List.length_map]
    rw [filterValues_one exp twoPi rfl rfl, List.take_succ_eq_append_getElem here, lastItems_one,
      mean_singleton]
    exact List.getElem?_eq_getElem here

end Mean

/-- The third value has pushed the first one out of a window of two. -/
theorem movingAverage_mean_two : ((pwmFilterStart .movingAverage 2 20000).filterValues id 6
        [((1 : ℚ), 1), (3, 1), (8, 1)])[2]? =
      some (mean [3, 8]) :=
  movingAverage_mean id 6 (by decide) 20000 [((1 : ℚ), 1), (3, 1), (8, 1)] (by decide)

end SigrokDecode
