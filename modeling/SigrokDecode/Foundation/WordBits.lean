import Mathlib.Data.Nat.Bitwise
import SigrokDecode.Foundation.PackedBits

/-!
# The set bits of a word

Words of 64 bits are scanned by taking the lowest set bit off until none is
left.  That is the same as a loop over all bit positions.
-/

set_option linter.dupNamespace false

namespace SigrokDecode.Foundation

open Nat BitVec

/-- The word whose lowest `bits` bits are set. -/
def lowMask64 (bits : Nat) : BitVec 64 :=
  if bits ≥ 64 then
    BitVec.allOnes 64
  else if bits = 0 then
    0#64
  else
    (1#64 <<< bits) - 1#64

theorem getLsbD_lowMask64 (bits i : Nat) :
    (lowMask64 bits).getLsbD i = (decide (i < 64) && decide (i < bits)) := by
  simp only [lowMask64]
  split
  · rename_i full
    rw [getLsbD_allOnes]
    by_cases inside : i < 64
    · have low : i < bits := by omega
      simp [inside, low]
    · simp [inside]
  · rename_i small
    split
    · rename_i none
      simp [none]
    · rename_i some
      have power : 2 ^ bits < 2 ^ 64 :=
        Nat.pow_lt_pow_right (by omega) (by omega)
      have positive : 0 < 2 ^ bits := Nat.two_pow_pos bits
      have value : ((1#64 <<< bits) - 1#64).toNat = 2 ^ bits - 1 := by
        rw [toNat_sub, toNat_shiftLeft, toNat_one (by decide),
          one_shiftLeft, mod_eq_of_lt power]
        omega
      rw [getLsbD, value, testBit_two_pow_sub_one]
      by_cases inside : i < 64
      · simp [inside]
      · have beyond : ¬ i < bits := by omega
        simp [inside, beyond]

/-- The bits at which a word goes from zero to one; `before` is the bit in front
of the word. -/
def risingBits (word : BitVec 64) (before : Bool) : BitVec 64 :=
  let edges := (word &&& ~~~(word <<< 1)) &&& ~~~1#64
  if word.getLsbD 0 && !before then edges ||| 1#64 else edges

def fallingBits (word : BitVec 64) (before : Bool) : BitVec 64 :=
  let edges := (~~~word &&& (word <<< 1)) &&& ~~~1#64
  if !word.getLsbD 0 && before then edges ||| 1#64 else edges

/-- The bit in front of bit `i`. -/
def bitBefore (bits : Nat → Bool) (before : Bool) : Nat → Bool
  | 0 => before
  | i + 1 => bits i

theorem getLsbD_withFirst (edges : BitVec 64) (first : Bool) {i : Nat} (inside : i < 64) :
    (if first then edges &&& ~~~1#64 ||| 1#64 else edges &&& ~~~1#64).getLsbD i =
      if i = 0 then first else edges.getLsbD i := by
  cases i with
  | zero => cases first <;> simp
  | succ i =>
      have one : (1#64).getLsbD (i + 1) = false := by simp [getLsbD_one]
      rw [if_neg (succ_ne_zero i)]
      split <;> simp only [getLsbD_or, getLsbD_and, getLsbD_not, one, inside, decide_true,
        Bool.not_false, Bool.and_true, Bool.or_false]

theorem getLsbD_risingBits {word : BitVec 64} {before : Bool} {i : Nat} (inside : i < 64) :
    (risingBits word before).getLsbD i =
      (word.getLsbD i && !bitBefore word.getLsbD before i) := by
  rw [risingBits, getLsbD_withFirst _ _ inside]
  cases i with
  | zero => rfl
  | succ i => simp [inside, bitBefore, getLsbD_eq_getElem (lt_of_succ_lt inside)]

theorem getLsbD_fallingBits {word : BitVec 64} {before : Bool} {i : Nat} (inside : i < 64) :
    (fallingBits word before).getLsbD i =
      (!word.getLsbD i && bitBefore word.getLsbD before i) := by
  rw [fallingBits, getLsbD_withFirst _ _ inside]
  cases i with
  | zero => rfl
  | succ i => simp [inside, bitBefore, getLsbD_eq_getElem (lt_of_succ_lt inside)]

/-! ## Scanning -/

theorem testBit_and_pred {value low : Nat} (set : value.testBit low = true)
    (lowest : ∀ i, i < low → value.testBit i = false) (i : Nat) :
    (value &&& (value - 1)).testBit i = (value.testBit i && decide (i ≠ low)) := by
  obtain ⟨high, shape⟩ : ∃ high, value = 2 ^ low * (2 * high + 1) := by
    refine ⟨value / 2 ^ (low + 1), ?_⟩
    apply eq_of_testBit_eq
    intro j
    rw [testBit_two_pow_mul]
    by_cases below : j < low
    · rw [lowest j below]
      simp [below]
    · obtain ⟨k, rfl⟩ : ∃ k, j = low + k := ⟨j - low, by omega⟩
      rw [Nat.add_sub_cancel_left]
      cases k with
      | zero => simp [set]
      | succ k =>
          have next : (2 * (value / 2 ^ (low + 1)) + 1) / 2 = value / 2 ^ (low + 1) := by omega
          rw [testBit_succ, next, testBit_div_two_pow]
          simp [Nat.add_left_comm]
  have power := Nat.two_pow_pos low
  have pred : value - 1 = 2 ^ low * (2 * high) + (2 ^ low - 1) := by
    rw [shape, Nat.mul_add, Nat.mul_one]
    omega
  rw [testBit_and, pred, shape, testBit_two_pow_mul,
    testBit_two_pow_mul_add _ (by omega)]
  by_cases below : i < low
  · have other : i ≠ low := by omega
    have notAbove : ¬ i ≥ low := by omega
    simp [notAbove]
  · obtain ⟨k, rfl⟩ : ∃ k, i = low + k := ⟨i - low, by omega⟩
    rw [if_neg below, Nat.add_sub_cancel_left]
    cases k with
    | zero => simp
    | succ k =>
        have left : (2 * high + 1) / 2 = high := by omega
        have right : 2 * high / 2 = high := by omega
        rw [testBit_succ, testBit_succ, left, right]
        simp

theorem getLsbD_and_sub_one {word : BitVec 64} (some : word ≠ 0#64) (i : Nat) :
    (word &&& (word - 1#64)).getLsbD i =
      (word.getLsbD i && decide (i ≠ word.ctz.toNat)) := by
  have positive : 0 < word.toNat := by
    rcases Nat.eq_zero_or_pos word.toNat with zero | positive
    · exact absurd (eq_of_toNat_eq zero) some
    · exact positive
  have pred : (word - 1#64).toNat = word.toNat - 1 := by
    have bound := word.isLt
    rw [toNat_sub, toNat_one (by decide)]
    omega
  rw [getLsbD, toNat_and, pred]
  exact testBit_and_pred (getLsbD_true_ctz_of_ne_zero some)
    (fun _ below => getLsbD_false_of_lt_ctz below) i

theorem and_sub_one_lt {word : BitVec 64} (some : word ≠ 0#64) :
    (word &&& (word - 1#64)).toNat < word.toNat := by
  rcases Nat.lt_or_eq_of_le (and_le_left (n := word.toNat)) with less | same
  · exact less
  · have cleared := getLsbD_and_sub_one some word.ctz.toNat
    have set := getLsbD_true_ctz_of_ne_zero some
    have unchanged : word &&& (word - 1#64) = word := eq_of_toNat_eq same
    rw [unchanged, set] at cleared
    simp at cleared

def forEachBit {State : Type} (visit : Nat → State → State)
    (word : BitVec 64) (state : State) : State :=
  if word = 0#64 then
    state
  else
    forEachBit visit (word &&& (word - 1#64)) (visit word.ctz.toNat state)
termination_by word.toNat
decreasing_by exact and_sub_one_lt (by assumption)

/-- Visits the marked ones of the first `count` positions. -/
def visitMarked {State : Type} (visit : Nat → State → State)
    (marked : Nat → Bool) : Nat → State → State
  | 0, state => state
  | count + 1, state =>
      let state := visitMarked visit marked count state
      if marked count then visit count state else state

section Visiting

variable {State : Type} {visit : Nat → State → State}

theorem visitMarked_none {marked : Nat → Bool} {count : Nat} {state : State}
    (none : ∀ i, i < count → marked i = false) :
    visitMarked visit marked count state = state := by
  induction count with
  | zero => rfl
  | succ count ih =>
      have before := ih fun i below => none i (lt_succ_of_lt below)
      simp [visitMarked, before, none count (lt_succ_self count)]

theorem visitMarked_congr {marked other : Nat → Bool} {count : Nat} {state : State}
    (same : ∀ i, i < count → marked i = other i) :
    visitMarked visit marked count state = visitMarked visit other count state := by
  induction count with
  | zero => rfl
  | succ count ih =>
      have before := ih fun i below => same i (lt_succ_of_lt below)
      simp only [visitMarked, before, same count (lt_succ_self count)]

theorem visitMarked_first {marked : Nat → Bool} {first count : Nat} {state : State}
    (set : marked first = true) (lowest : ∀ i, i < first → marked i = false)
    (inside : first < count) :
    visitMarked visit marked count state =
      visitMarked visit (fun i => marked i && decide (i ≠ first)) count
        (visit first state) := by
  induction count with
  | zero => exact absurd inside (Nat.not_lt_zero first)
  | succ count ih =>
      by_cases last : first = count
      · subst last
        rw [visitMarked, visitMarked, visitMarked_none lowest, visitMarked_none]
        · simp [set]
        · intro i below
          simp [lowest i below]
      · have other : decide (count ≠ first) = true := by simpa using Ne.symm last
        rw [visitMarked, visitMarked, ih (by omega)]
        simp only [other, Bool.and_true]

theorem visitMarked_width {marked : Nat → Bool} {width count : Nat} {state : State}
    (le : width ≤ count) (beyond : ∀ i, width ≤ i → marked i = false) :
    visitMarked visit marked count state = visitMarked visit marked width state := by
  induction count with
  | zero =>
      obtain rfl : width = 0 := le_zero.mp le
      rfl
  | succ count ih =>
      rcases Nat.lt_or_eq_of_le le with less | same
      · have inner : width ≤ count := le_of_lt_succ less
        rw [visitMarked, ih inner]
        simp [beyond count inner]
      · rw [same]

theorem forEachBit_eq (word : BitVec 64) (state : State) :
    forEachBit visit word state = visitMarked visit word.getLsbD 64 state := by
  induction word, state using forEachBit.induct visit with
  | case1 state =>
      rw [forEachBit, if_pos rfl, visitMarked_none]
      intro i _
      exact getLsbD_zero
  | case2 word state some ih =>
      have inside : word.ctz.toNat < 64 := by
        have less := ctz_lt_iff_ne_zero.mpr some
        simpa [lt_def] using less
      rw [forEachBit, if_neg some, ih, visitMarked_first (getLsbD_true_ctz_of_ne_zero some)
          (fun _ below => getLsbD_false_of_lt_ctz below) inside]
      apply visitMarked_congr
      intro i _
      exact getLsbD_and_sub_one some i

theorem forEachBit_related {Other : Type} {related : State → Other → Prop}
    {otherVisit : Nat → Other → Other}
    (keeps : ∀ bit state other, related state other →
      related (visit bit state) (otherVisit bit other))
    (word : BitVec 64) {state : State} {other : Other} (start : related state other) :
    related (forEachBit visit word state) (forEachBit otherVisit word other) := by
  induction word, state using forEachBit.induct visit generalizing other with
  | case1 state =>
      rw [forEachBit, if_pos rfl, forEachBit, if_pos rfl]
      exact start
  | case2 word state some ih =>
      rw [forEachBit, if_neg some]
      conv => arg 2; rw [forEachBit, if_neg some]
      exact ih (keeps _ _ _ start)

end Visiting

/-- A loop over `count` positions from `pos` on. -/
def sampleLoop {State : Type} (one : Nat → State → State) (pos : Nat) : Nat → State → State
  | 0, state => state
  | count + 1, state => one (pos + count) (sampleLoop one pos count state)

theorem sampleLoop_related {State Other : Type} {related : State → Other → Prop}
    {one : Nat → State → State} {otherOne : Nat → Other → Other}
    (keeps : ∀ i state other, related state other → related (one i state) (otherOne i other))
    (pos count : Nat) {state : State} {other : Other} (start : related state other) :
    related (sampleLoop one pos count state) (sampleLoop otherOne pos count other) := by
  induction count with
  | zero => exact start
  | succ count ih => exact keeps _ _ _ ih

theorem sampleLoop_add {State : Type} (one : Nat → State → State)
    (pos first second : Nat) (state : State) :
    sampleLoop one pos (first + second) state =
      sampleLoop one (pos + first) second (sampleLoop one pos first state) := by
  induction second with
  | zero => rfl
  | succ second ih =>
      rw [← Nat.add_assoc, sampleLoop, sampleLoop, ih, Nat.add_assoc]

theorem sampleLoop_keeps {State : Type} {one : Nat → State → State}
    {pos count : Nat} {state : State} {kept : State → Prop} (start : kept state)
    (step : ∀ i state, kept state → kept (one i state)) :
    kept (sampleLoop one pos count state) := by
  induction count with
  | zero => exact start
  | succ count ih => exact step _ _ ih

theorem sampleLoop_congr_of {State : Type} {one other : Nat → State → State}
    {pos otherPos count : Nat} {state : State} {kept : State → Prop}
    (start : kept state) (step : ∀ i state, kept state → kept (one i state))
    (same : ∀ i state, i < count → kept state → one (pos + i) state = other (otherPos + i) state) :
    sampleLoop one pos count state = sampleLoop other otherPos count state := by
  induction count with
  | zero => rfl
  | succ count ih =>
      have before := ih fun i state below =>
        same i state (lt_succ_of_lt below)
      have here := same count _ (lt_succ_self count)
        (@sampleLoop_keeps State one pos count state kept start step)
      rw [sampleLoop, sampleLoop, here, before]

theorem sampleLoop_congr {State : Type} {one other : Nat → State → State}
    {pos otherPos count : Nat} {state : State}
    (same : ∀ i state, i < count → one (pos + i) state = other (otherPos + i) state) :
    sampleLoop one pos count state = sampleLoop other otherPos count state :=
  @sampleLoop_congr_of State one other pos otherPos count state (fun _ => True) trivial
    (fun _ _ _ => trivial) fun i state below _ => same i state below

def edgeStep {State : Type} (detect : Bool → Bool → Bool) (level : Nat → Bool)
    (visit : Nat → State → State) (i : Nat) (state : State × Bool) : State × Bool :=
  (if detect state.2 (level i) then visit i state.1 else state.1, level i)

theorem sampleLoop_edgeStep {State : Type} (detect : Bool → Bool → Bool)
    (level : Nat → Bool) (visit : Nat → State → State) (count : Nat)
    (state : State) (before : Bool) :
    sampleLoop (edgeStep detect level visit) 0 count (state, before) =
      (visitMarked visit (fun i => detect (bitBefore level before i) (level i)) count
        state, bitBefore level before count) := by
  induction count with
  | zero => rfl
  | succ count ih =>
      rw [sampleLoop, ih, Nat.zero_add]
      rfl

/-- How many of the first `count` positions are marked. -/
def countMarked (marked : Nat → Bool) : Nat → Nat
  | 0 => 0
  | count + 1 => countMarked marked count + (marked count).toNat

theorem countMarked_eq_cpopNatRec (word : BitVec 64) (count : Nat) :
    countMarked word.getLsbD count = word.cpopNatRec count 0 := by
  induction count with
  | zero => rfl
  | succ count ih =>
      rw [countMarked, ih, cpopNatRec_succ,
        cpopNatRec_eq (0 + (word.getLsbD count).toNat), Nat.zero_add]

theorem toNat_cpop_eq (word : BitVec 64) : word.cpop.toNat = countMarked word.getLsbD 64 := by
  rw [toNat_cpop, countMarked_eq_cpopNatRec]

theorem countMarked_none {marked : Nat → Bool} {count : Nat}
    (none : ∀ i, i < count → marked i = false) : countMarked marked count = 0 := by
  induction count with
  | zero => rfl
  | succ count ih =>
      have before := ih fun i below => none i (lt_succ_of_lt below)
      rw [countMarked, before, none count (lt_succ_self count)]
      rfl

theorem countMarked_congr {marked other : Nat → Bool} {count : Nat}
    (same : ∀ i, i < count → marked i = other i) :
    countMarked marked count = countMarked other count := by
  induction count with
  | zero => rfl
  | succ count ih =>
      have before := ih fun i below => same i (lt_succ_of_lt below)
      rw [countMarked, countMarked, before, same count (lt_succ_self count)]

theorem countMarked_width {marked : Nat → Bool} {width count : Nat}
    (le : width ≤ count) (beyond : ∀ i, width ≤ i → marked i = false) :
    countMarked marked count = countMarked marked width := by
  induction count with
  | zero =>
      obtain rfl : width = 0 := le_zero.mp le
      rfl
  | succ count ih =>
      rcases Nat.lt_or_eq_of_le le with less | same
      · have inner : width ≤ count := le_of_lt_succ less
        rw [countMarked, ih inner, beyond count inner]
        rfl
      · rw [same]

/-- How many bits of a word are set from `first` up to `stop`. -/
def countRange (word : BitVec 64) (first stop : Nat) : Nat :=
  (word &&& (lowMask64 stop &&& ~~~lowMask64 first)).cpop.toNat

theorem countRange_eq_countMarked (word : BitVec 64) {first stop : Nat} (fits : stop ≤ 64) :
    countRange word first stop =
      countMarked (fun i => word.getLsbD i && decide (first ≤ i)) stop := by
  have bits : ∀ i, (word &&& (lowMask64 stop &&& ~~~lowMask64 first)).getLsbD i =
      (word.getLsbD i && decide (i < stop) && decide (first ≤ i)) := by
    intro i
    rw [getLsbD_and, getLsbD_and, getLsbD_not, getLsbD_lowMask64, getLsbD_lowMask64]
    by_cases inside : i < 64
    · by_cases below : i < first
      · simp [inside, below, Nat.not_le.mpr below]
      · simp [inside, below, Nat.not_lt.mp below]
    · have beyond : ¬ i < stop := by omega
      simp [inside, beyond]
  rw [countRange, toNat_cpop_eq, countMarked_width fits]
  · apply countMarked_congr
    intro i inside
    simp [bits i, inside]
  · intro i beyond
    simp [bits i, Nat.not_lt.mpr beyond]

theorem countRange_self (word : BitVec 64) {stop : Nat} (fits : stop ≤ 64) :
    countRange word stop stop = 0 := by
  rw [countRange_eq_countMarked word fits]
  apply countMarked_none
  intro i below
  simp [below]

/-- One more position. -/
theorem countRange_succ (word : BitVec 64) {first stop : Nat} (le : first ≤ stop)
    (fits : stop < 64) :
    countRange word first (stop + 1) =
      countRange word first stop + (word.getLsbD stop).toNat := by
  rw [countRange_eq_countMarked word (succ_le_of_lt fits),
    countRange_eq_countMarked word (Nat.le_of_lt fits), countMarked]
  simp [le]

end SigrokDecode.Foundation
