import Mathlib.Data.List.Forall2
import SigrokDecode.Instance.CheckedConds

/-!
# The order of the terms

`all_terms_match` stops at the first term that fails, and a skip counts a sample only when the loop
comes to it. So the order of the terms matters where a skip stands beside other terms.
-/

set_option linter.dupNamespace false

namespace SigrokDecode

open List

def SrdTerm.shape (term : SrdTerm) : SrdTermType × Nat × Nat :=
  (term.type, term.channel, term.numSamplesToSkip)

/-- How many samples the skip has still to count. -/
def SrdTerm.toGo (term : SrdTerm) : Nat :=
  if term.type = .skip then term.numSamplesToSkip - term.numSamplesAlreadySkipped else 0

namespace SrdDecoderInst

def remaining (cond : Condition) : Nat :=
  (cond.map SrdTerm.toGo).sum

def Bounded (cond : Condition) : Prop :=
  ∀ term ∈ cond, term.type = .skip → term.numSamplesAlreadySkipped ≤ term.numSamplesToSkip

/-- The same terms in another order, and the skips have as many samples to count in all. -/
structure Alike (left right : Condition) : Prop where
  shapes : (left.map SrdTerm.shape).Perm (right.map SrdTerm.shape)
  leftBounded : Bounded left
  rightBounded : Bounded right
  remaining : remaining left = remaining right

theorem alike_of_perm {left right : Condition} (perm : left.Perm right) (bounded : Bounded left) :
    Alike left right where
  shapes := perm.map _
  leftBounded := bounded
  rightBounded term member := bounded term (perm.mem_iff.mpr member)
  remaining := (perm.map _).sum_nat

theorem Alike.null_iff {left right : Condition} (alike : Alike left right) :
    left = [] ↔ right = [] := by
  have lengths := alike.shapes.length_eq
  rw [length_map, length_map] at lengths
  rw [← length_eq_zero_iff, ← length_eq_zero_iff, lengths]

theorem Alike.forall_iff {left right : Condition} (alike : Alike left right)
    (property : SrdTermType × Nat × Nat → Prop) :
    (∀ term ∈ left, property term.shape) ↔ ∀ term ∈ right, property term.shape := by
  have mapped : (∀ shape ∈ left.map SrdTerm.shape, property shape) ↔
        ∀ shape ∈ right.map SrdTerm.shape, property shape :=
    forall_congr' fun shape => imp_congr_left alike.shapes.mem_iff
  rwa [forall_mem_map, forall_mem_map] at mapped

theorem remaining_cons (term : SrdTerm) (rest : Condition) :
    remaining (term :: rest) = term.toGo + remaining rest := by
  unfold remaining
  rw [map_cons, sum_cons]

variable {cond : Condition} {start : SrdDecoderInst} {conds : List Condition}
  {lefts rights : List Condition} {left right : SrdDecoderInst} {call : Nat}
  {waits others : List (List Condition)}

theorem remaining_eq_zero_iff : remaining cond = 0 ↔ ∀ term ∈ cond, term.toGo = 0 := by
  unfold remaining
  rw [List.sum_eq_zero_iff_forall_eq_nat]
  exact forall_mem_map

variable {di : SrdDecoderInst}

def HasZeroSkip (cond : Condition) : Prop :=
  ∃ term ∈ cond, term.zeroSkip = true

def OrderFree (_start di : SrdDecoderInst) (cond : Condition) : Prop :=
  (di.PinsMet cond ∨ remaining cond = 0) ∧
    (di.absCurMatched = true → HasZeroSkip cond → di.condMet cond = true)

theorem termMet_of_shape {left right : SrdTerm} (plain : left.type ≠ .skip)
    (same : left.shape = right.shape) : di.termMet left = di.termMet right := by
  obtain ⟨type, channel, toSkip, skipped⟩ := left
  obtain ⟨otherType, otherChannel, otherToSkip, otherSkipped⟩ := right
  obtain ⟨rfl, rfl, rfl⟩ : type = otherType ∧ channel = otherChannel ∧ toSkip = otherToSkip := by
    unfold SrdTerm.shape at same
    simpa only [Prod.mk.injEq] using same
  unfold termMet
  rw [if_neg plain, if_neg plain]
  dsimp only
  cases di.termSample channel with
  | none => rfl
  | some sample =>
      cases type with
      | skip => exact absurd rfl plain
      | high => rfl
      | low => rfl
      | risingEdge => rfl
      | fallingEdge => rfl
      | eitherEdge => rfl
      | noEdge => rfl
      | unknown => rfl

theorem Alike.forall_plain_iff {left right : Condition} (alike : Alike left right)
    (property : SrdTerm → Prop)
    (congr : ∀ first second : SrdTerm, first.type ≠ .skip → first.shape = second.shape →
      (property first ↔ property second)) :
    (∀ term ∈ left, term.type ≠ .skip → property term) ↔
      ∀ term ∈ right, term.type ≠ .skip → property term := by
  let blank : SrdTermType × Nat × Nat → SrdTerm := fun shape => ⟨shape.1, shape.2.1, shape.2.2, 0⟩
  have shapes := alike.forall_iff fun shape =>
    shape.1 ≠ SrdTermType.skip → property (blank shape)
  refine Iff.trans ?_ (shapes.trans ?_)
  · refine forall₂_congr fun term _ => forall_congr' fun plain => ?_
    exact congr term (blank term.shape) plain rfl
  · refine forall₂_congr fun term _ => forall_congr' fun plain => ?_
    exact (congr term (blank term.shape) plain rfl).symm

theorem Alike.pinsMet_iff {left right : Condition} (alike : Alike left right) :
    di.PinsMet left ↔ di.PinsMet right :=
  alike.forall_plain_iff (fun term => di.termMet term = true) fun first second plain same => by
    rw [termMet_of_shape plain same]

theorem Alike.hasZeroSkip_iff {left right : Condition} (alike : Alike left right) :
    HasZeroSkip left ↔ HasZeroSkip right := by
  have none := alike.forall_iff fun shape => ¬(shape.1 = SrdTermType.skip ∧ shape.2.2 = 0)
  have zero : ∀ cond : Condition, HasZeroSkip cond ↔
      ¬∀ term ∈ cond, ¬(term.shape.1 = SrdTermType.skip ∧ term.shape.2.2 = 0) := by
    intro cond
    unfold HasZeroSkip SrdTerm.zeroSkip
    push Not
    simp only [decide_eq_true_eq]
    rfl
  rw [zero, zero, none]

theorem toGo_eq_zero_iff {term : SrdTerm} (isSkip : term.type = .skip)
    (bounded : term.numSamplesAlreadySkipped ≤ term.numSamplesToSkip) :
    term.toGo = 0 ↔ di.termMet term = true := by
  unfold SrdTerm.toGo
  rw [if_pos isSkip, termMet_skip isSkip]
  omega

theorem condMet_iff (bounded : Bounded cond) :
    di.condMet cond = true ↔ di.PinsMet cond ∧ remaining cond = 0 := by
  rw [condMet_iff_pins, remaining_eq_zero_iff]
  refine and_congr_right fun _ => forall₂_congr fun term member => ?_
  by_cases isSkip : term.type = .skip
  · rw [@toGo_eq_zero_iff di _ isSkip (bounded term member isSkip), termMet_skip isSkip]
    exact forall_prop_of_true isSkip
  · exact iff_of_true (fun skips => absurd skips isSkip) (if_neg isSkip)

theorem Alike.condMet_eq {left right : Condition} (alike : Alike left right) :
    di.condMet left = di.condMet right := by
  refine Bool.eq_iff_iff.mpr ?_
  rw [condMet_iff alike.leftBounded, condMet_iff alike.rightBounded, alike.pinsMet_iff,
    alike.remaining]

theorem reachesZero_of_met (met : di.condMet cond = true)
    (zero : HasZeroSkip cond) : di.reachesZero cond = true := by
  induction cond with
  | nil =>
      obtain ⟨term, member, -⟩ := zero
      cases member
  | cons term rest ih =>
      unfold condMet at met
      rw [all_cons, Bool.and_eq_true] at met
      rw [reachesZero, met.1, Bool.true_and, Bool.or_eq_true]
      obtain ⟨other, member, isZero⟩ := zero
      rcases mem_cons.mp member with rfl | inRest
      · exact Or.inl isZero
      · exact Or.inr (ih met.2 ⟨other, inRest, isZero⟩)

theorem reachesZero_of_none (none : ¬HasZeroSkip cond) : di.reachesZero cond = false :=
  reachesZero_of_free fun term member isSkip zero =>
    none ⟨term, member, decide_eq_true ⟨isSkip, zero⟩⟩

theorem Alike.marked_eq {left right : Condition}
    (alike : Alike left right) (free : OrderFree start di left) :
    di.marked left = di.marked right := by
  unfold marked
  cases matched : di.absCurMatched with
  | false => rw [Bool.false_and, Bool.false_and]
  | true =>
      by_cases zero : HasZeroSkip left
      · have met := free.2 matched zero
        rw [reachesZero_of_met met zero, reachesZero_of_met (alike.condMet_eq.symm.trans met)
          (alike.hasZeroSkip_iff.mp zero)]
      · rw [reachesZero_of_none zero, reachesZero_of_none fun other =>
          zero (alike.hasZeroSkip_iff.mpr other)]

theorem tested_shapes (cond : Condition) :
    (di.tested cond).map SrdTerm.shape = cond.map SrdTerm.shape := by
  induction cond with
  | nil => rfl
  | cons term rest ih =>
      have kept : term.counted.shape = term.shape := by
        unfold SrdTerm.counted
        split
        · rfl
        · rfl
      unfold tested
      split
      · rw [map_cons, map_cons, ih]
      · rw [map_cons, map_cons, kept]

theorem counted_bounded {term : SrdTerm}
    (bounded : term.type = .skip → term.numSamplesAlreadySkipped ≤ term.numSamplesToSkip) :
    term.counted.type = .skip →
      term.counted.numSamplesAlreadySkipped ≤ term.counted.numSamplesToSkip := by
  unfold SrdTerm.counted
  split
  · rename_i undone
    intro isSkip
    have bound := bounded undone.1
    have different := undone.2
    dsimp only
    omega
  · exact bounded

theorem tested_bounded (bounded : Bounded cond) : Bounded (di.tested cond) := by
  induction cond with
  | nil => exact bounded
  | cons term rest ih =>
      obtain ⟨own, others⟩ := forall_mem_cons.mp bounded
      unfold tested
      split
      · exact forall_mem_cons.mpr ⟨own, ih others⟩
      · exact forall_mem_cons.mpr ⟨counted_bounded own, others⟩

theorem tested_remaining (bounded : Bounded cond) (pins : di.PinsMet cond) :
    remaining (di.tested cond) = remaining cond - 1 := by
  induction cond with
  | nil => rfl
  | cons term rest ih =>
      obtain ⟨own, others⟩ := forall_mem_cons.mp bounded
      obtain ⟨pinHere, pinsLater⟩ := forall_mem_cons.mp pins
      unfold tested
      by_cases met : di.termMet term = true
      · have none : term.toGo = 0 := by
          by_cases isSkip : term.type = .skip
          · exact (toGo_eq_zero_iff isSkip (own isSkip)).mpr met
          · exact if_neg isSkip
        rw [if_pos met, remaining_cons, remaining_cons, none, ih others pinsLater,
          Nat.zero_add, Nat.zero_add]
      · have isSkip : term.type = .skip := by
          by_contra plain
          exact met (pinHere plain)
        have some : term.toGo ≠ 0 := fun none =>
          met ((toGo_eq_zero_iff isSkip (own isSkip)).mp none)
        have fewer : term.counted.toGo = term.toGo - 1 := by
          have undone : term.numSamplesAlreadySkipped ≠ term.numSamplesToSkip := by
            intro done
            refine some ?_
            unfold SrdTerm.toGo
            rw [if_pos isSkip, done, Nat.sub_self]
          unfold SrdTerm.counted
          rw [if_pos ⟨isSkip, undone⟩]
          unfold SrdTerm.toGo
          rw [if_pos isSkip, if_pos isSkip]
          exact Nat.sub_add_eq _ _ 1
        rw [if_neg met, remaining_cons, remaining_cons, fewer]
        omega

theorem tested_of_none (bounded : Bounded cond) (none : remaining cond = 0) :
    di.tested cond = cond := by
  induction cond with
  | nil => rfl
  | cons term rest ih =>
      obtain ⟨own, others⟩ := forall_mem_cons.mp bounded
      rw [remaining_cons] at none
      have kept : term.counted = term := by
        refine if_neg fun undone => undone.2 ?_
        have bound := own undone.1
        have done : term.toGo = 0 := by omega
        unfold SrdTerm.toGo at done
        rw [if_pos undone.1] at done
        omega
      unfold tested
      rw [kept, ih others (by omega)]
      split
      · rfl
      · rfl

theorem Alike.tested {left right : Condition} (alike : Alike left right)
    (free : OrderFree start di left) : Alike (di.tested left) (di.tested right) where
  shapes := by
    rw [tested_shapes, tested_shapes]
    exact alike.shapes
  leftBounded := tested_bounded alike.leftBounded
  rightBounded := tested_bounded alike.rightBounded
  remaining := by
    rcases free.1 with pins | none
    · rw [tested_remaining alike.leftBounded pins,
        tested_remaining alike.rightBounded (alike.pinsMet_iff.mp pins), alike.remaining]
    · rw [tested_of_none alike.leftBounded none,
        tested_of_none alike.rightBounded (alike.remaining.symm.trans none)]
      exact alike.remaining

def withConds (di : SrdDecoderInst) (conds : List Condition) : SrdDecoderInst :=
  { di with conditionList := conds }

/-- Two instances that differ in the order of the terms only. -/
structure SameButOrder (left right : SrdDecoderInst) : Prop where
  same : right = left.withConds right.conditionList
  conds : List.Forall₂ Alike left.conditionList right.conditionList

theorem sameButOrder_of {left : SrdDecoderInst} (alike : Forall₂ Alike left.conditionList conds) :
    SameButOrder left (left.withConds conds) :=
  ⟨rfl, alike⟩

theorem checkCond_alike {left right : Condition}
    (alike : Alike left right) (free : left ≠ [] → OrderFree start di left)
    (conds : List Condition) (leftSkip leftAll rightSkip rightAll : Bool) (j : Nat) :
    ((di.withConds conds).checkCond rightSkip rightAll j right).di =
        (di.checkCond leftSkip leftAll j left).di.withConds conds ∧
      Alike (di.checkCond leftSkip leftAll j left).terms
        ((di.withConds conds).checkCond rightSkip rightAll j right).terms := by
  have first := @checkCond_done di leftSkip leftAll j left
  have second := @checkCond_done (di.withConds conds) rightSkip rightAll j right
  have same : (di.withConds conds).termMet = di.termMet := rfl
  by_cases null : left = []
  · have otherNull := alike.null_iff.mp null
    rw [(first.null null).1, (second.null otherNull).1, first.terms, second.terms, null, otherNull]
    refine ⟨rfl, ?_⟩
    rw [null, otherNull] at alike
    exact alike
  · have nonNull : right ≠ [] := fun none => null (alike.null_iff.mpr none)
    have marks : (di.withConds conds).marked right = di.marked left := by
      have flags := alike.marked_eq (free null)
      unfold marked at flags ⊢
      rw [reachesZero_congr same]
      exact flags.symm
    have verdicts : (di.withConds conds).condMet right = di.condMet left :=
      (condMet_congr same right).trans alike.condMet_eq.symm
    constructor
    · cases met : di.condMet left with
      | true =>
          have leaves : (di.withConds conds).leaveCond right =
              (di.leaveCond left).withConds conds := by
            unfold leaveCond
            rw [verdicts, marks]
            split
            · rfl
            · rfl
          rw [first.met null met, second.met nonNull (verdicts.trans met), leaves]
          rfl
      | false =>
          rw [(first.unmet null met).1, (second.unmet nonNull (verdicts.trans met)).1, marks]
          rfl
    · rw [first.terms, second.terms, tested_congr same]
      exact alike.tested (free null)

theorem condPass_alike (alike : Forall₂ Alike lefts rights) {leftSkip leftAll : Bool} {j : Nat}
    (free : PassAll (OrderFree start) di leftSkip leftAll j lefts)
    (conds : List Condition) (rightSkip rightAll : Bool) :
    ((di.withConds conds).condPass rightSkip rightAll j rights).di =
        (di.condPass leftSkip leftAll j lefts).di.withConds conds ∧
      Forall₂ Alike (di.condPass leftSkip leftAll j lefts).conds
        ((di.withConds conds).condPass rightSkip rightAll j rights).conds := by
  induction alike generalizing di leftSkip leftAll j rightSkip rightAll with
  | nil => exact ⟨rfl, Forall₂.nil⟩
  | @cons left right lefts rights here _ ih =>
      obtain ⟨state, terms⟩ :=
        checkCond_alike here free.1 conds leftSkip leftAll rightSkip rightAll j
      have later := ih free.2 ((di.withConds conds).checkCond rightSkip rightAll j right).skipAllow
        ((di.withConds conds).checkCond rightSkip rightAll j right).allSkipAllow
      rw [← state] at later
      exact ⟨later.1, Forall₂.cons terms later.2⟩

section

variable (alike : SameButOrder left right)
include alike

theorem matchSample_alike
    {leftSkip leftAll : Bool}
    (free : PassAll (OrderFree left) left leftSkip leftAll 0 left.conditionList)
    (rightSkip rightAll : Bool) :
    SameButOrder (left.matchSample leftSkip leftAll).di
      (right.matchSample rightSkip rightAll).di := by
  obtain ⟨same, conds⟩ := alike
  obtain ⟨state, list⟩ := condPass_alike conds free right.conditionList rightSkip rightAll
  rw [← same] at state list
  unfold matchSample
  dsimp only
  rw [updateOldPinsArray_eq, updateOldPinsArray_eq, state]
  exact ⟨rfl, list⟩

theorem SameButOrder.seek
    (samplenum : Nat) : SameButOrder (left.seek samplenum) (right.seek samplenum) := by
  obtain ⟨same, conds⟩ := alike
  refine ⟨?_, conds⟩
  rw [same]
  rfl

theorem SameButOrder.absCurMatched : right.absCurMatched = left.absCurMatched := by
  rw [alike.same]
  rfl

theorem SameButOrder.absCurSamplenum : right.absCurSamplenum = left.absCurSamplenum := by
  rw [alike.same]
  rfl

theorem SameButOrder.absEndSamplenum : right.absEndSamplenum = left.absEndSamplenum := by
  rw [alike.same]
  rfl

theorem SameButOrder.matchArray : right.matchArray = left.matchArray := by
  rw [alike.same]
  rfl

theorem scanSamples_alike {count : Nat} (free : ScanAll OrderFree count left) :
    (right.scanSamples count).1 = (left.scanSamples count).1 ∧
      SameButOrder (left.scanSamples count).2 (right.scanSamples count).2 := by
  induction count generalizing left right with
  | zero => exact ⟨rfl, alike⟩
  | succ count ih =>
      have after := matchSample_alike alike free.1 false false
      unfold scanSamples
      dsimp only
      rw [after.absCurMatched, after.absCurSamplenum]
      cases matched : (left.matchSample false false).di.absCurMatched with
      | true => exact ⟨rfl, after⟩
      | false => exact ih (after.seek _) (free.2 matched)

end

def restarted (term : SrdTerm) : SrdTerm :=
  if term.type = .skip ∧ 0 < term.numSamplesToSkip then
    { term with numSamplesAlreadySkipped := 1 }
  else
    term

theorem restarted_shape (term : SrdTerm) : (restarted term).shape = term.shape := by
  unfold restarted
  split
  · rfl
  · rfl

theorem restarted_toGo (term : SrdTerm) :
    (restarted term).toGo = if term.shape.1 = .skip then term.shape.2.2 - 1 else 0 := by
  by_cases isSkip : term.type = .skip
  · have shape : term.shape.1 = .skip := isSkip
    rw [if_pos shape]
    by_cases positive : 0 < term.numSamplesToSkip
    · have value : restarted term = { term with numSamplesAlreadySkipped := 1 } :=
        if_pos ⟨isSkip, positive⟩
      rw [value]
      exact if_pos isSkip
    · have value : restarted term = term := if_neg fun both => positive both.2
      have zero : term.shape.2.2 = 0 := Nat.eq_zero_of_not_pos positive
      rw [value, zero]
      refine (if_pos isSkip).trans ?_
      rw [show term.numSamplesToSkip = 0 from zero, Nat.zero_sub, Nat.zero_sub]
  · have shape : ¬term.shape.1 = .skip := isSkip
    have value : restarted term = term := if_neg fun both => isSkip both.1
    rw [if_neg shape, value]
    exact if_neg isSkip

theorem restarted_bounded (bounded : Bounded cond) : Bounded (cond.map restarted) := by
  intro term member
  obtain ⟨before, inCond, rfl⟩ := mem_map.mp member
  unfold restarted
  split
  · rename_i positive
    exact fun _ => positive.2
  · exact bounded before inCond

theorem Alike.restarted {left right : Condition} (alike : Alike left right) :
    Alike (left.map restarted) (right.map restarted) where
  shapes := by
    have kept : SrdTerm.shape ∘ SrdDecoderInst.restarted = SrdTerm.shape :=
      funext restarted_shape
    rw [map_map, map_map, kept]
    exact alike.shapes
  leftBounded := restarted_bounded alike.leftBounded
  rightBounded := restarted_bounded alike.rightBounded
  remaining := by
    let toGo : SrdTermType × Nat × Nat → Nat := fun shape =>
      if shape.1 = .skip then shape.2.2 - 1 else 0
    have counts : ∀ cond : Condition, SrdDecoderInst.remaining (cond.map SrdDecoderInst.restarted) =
          ((cond.map SrdTerm.shape).map toGo).sum := by
      intro cond
      unfold SrdDecoderInst.remaining
      rw [map_map, map_map]
      exact congrArg List.sum (map_congr_left fun term _ => restarted_toGo term)
    rw [counts, counts]
    exact (alike.shapes.map toGo).sum_nat

theorem primeScan_withConds (conds : List Condition) :
    (di.withConds conds).primeScan = di.primeScan.withConds conds := by
  unfold primeScan withConds
  dsimp only
  split
  · rw [updateOldPinsArrayInitialPins_eq, updateOldPinsArrayInitialPins_eq]
    rfl
  · rfl

theorem SameButOrder.primeScan (alike : SameButOrder left right) :
    SameButOrder left.primeScan right.primeScan := by
  obtain ⟨same, conds⟩ := alike
  have kept : left.primeScan.conditionList = left.conditionList :=
    congrArg ScanState.conditionList (primeScan_scan left)
  rw [same, primeScan_withConds]
  exact sameButOrder_of (kept ▸ conds)

theorem SameButOrder.leaveMatch (alike : SameButOrder left right) :
    SameButOrder left.leaveMatch right.leaveMatch := by
  unfold SrdDecoderInst.leaveMatch
  rw [alike.absCurMatched]
  split
  · obtain ⟨same, conds⟩ := alike
    refine ⟨?_, ?_⟩
    · rw [same]
      rfl
    · exact forall₂_map_left_iff.mpr (forall₂_map_right_iff.mpr
        (conds.imp fun _ _ here => here.restarted))
  · exact alike

theorem SameButOrder.entered (alike : SameButOrder left right) :
    SameButOrder left.entered right.entered :=
  alike.primeScan.leaveMatch

theorem SameButOrder.firstTested (alike : SameButOrder left right) :
    right.firstTested = left.firstTested := by
  unfold SrdDecoderInst.firstTested
  rw [alike.absCurMatched, alike.absCurSamplenum]

theorem nonNull_alike (alike : Forall₂ Alike lefts rights) :
    (∃ cond ∈ rights, cond ≠ []) ↔ ∃ cond ∈ lefts, cond ≠ [] := by
  induction alike with
  | nil => exact Iff.rfl
  | cons here _ ih =>
      rw [exists_mem_cons_iff, exists_mem_cons_iff, ih, ne_eq, ne_eq, here.null_iff]

theorem SameButOrder.haveNonNullConds
    (alike : SameButOrder left right) : right.haveNonNullConds = left.haveNonNullConds := by
  unfold SrdDecoderInst.haveNonNullConds
  refine Bool.eq_iff_iff.mpr ?_
  simp only [any_eq_true, bne_iff_ne]
  exact nonNull_alike alike.conds

def Stays (di : SrdDecoderInst) (cond : Condition) : Prop :=
  ∀ term ∈ cond, term.type ≠ .skip → di.termMet term = false → di.termAllows term = false

def Jumps (di : SrdDecoderInst) (cond : Condition) : Prop :=
  ∀ term ∈ cond, di.termMet term = false → di.termAllows term = true

def JumpFree (di : SrdDecoderInst) : Prop :=
  di.haveNonNullConds = true → di.firstTested < di.absEndSamplenum →
    di.firstPass.di.absCurMatched = false →
      (∃ cond ∈ di.entered.conditionList, cond ≠ [] ∧ di.entered.Stays cond) ∨
        ∀ cond ∈ di.entered.conditionList, cond ≠ [] → di.entered.Jumps cond

theorem Stays.stopsFree (stays : di.Stays cond) : di.stopsFree cond = false := by
  unfold SrdDecoderInst.stopsFree
  cases stop : cond.find? fun term => !di.termMet term with
  | none => rfl
  | some term =>
      have failed : di.termMet term = false := by
        have unmet := find?_some (p := fun term => !di.termMet term) stop
        simpa using unmet
      rw [Option.any_some]
      by_cases isSkip : term.type = .skip
      · exact if_pos isSkip
      · exact stays term (mem_of_find?_eq_some stop) isSkip failed

theorem Jumps.stopsFree (jumps : di.Jumps cond)
    (failed : di.condMet cond = false) : di.stopsFree cond = true := by
  unfold SrdDecoderInst.stopsFree
  cases stop : cond.find? fun term => !di.termMet term with
  | none =>
      have met : di.condMet cond = true := by
        refine all_eq_true.mpr fun term member => ?_
        have unmet := find?_eq_none.mp stop term member
        simpa using unmet
      exact absurd (failed.symm.trans met) Bool.false_ne_true
  | some term =>
      have unmet := find?_some (p := fun term => !di.termMet term) stop
      rw [Option.any_some]
      exact jumps term (mem_of_find?_eq_some stop) (by simpa using unmet)

theorem termAllows_of_shape {left right : SrdTerm} (same : left.shape = right.shape) :
    di.termAllows left = di.termAllows right := by
  unfold SrdTerm.shape at same
  rw [Prod.mk.injEq, Prod.mk.injEq] at same
  unfold termAllows
  rw [← same.1, ← same.2.1]

theorem Alike.stays {left right : Condition} (alike : Alike left right) (stays : di.Stays left) :
    di.Stays right := by
  refine (alike.forall_plain_iff
    (fun term => di.termMet term = false → di.termAllows term = false) ?_).mp stays
  intro first second plain same
  rw [termMet_of_shape plain same, termAllows_of_shape same]

theorem Alike.jumps {left right : Condition} (alike : Alike left right) (jumps : di.Jumps left) :
    di.Jumps right := by
  have none : SrdDecoderInst.remaining left = 0 := by
    refine remaining_eq_zero_iff.mpr fun term member => ?_
    by_cases isSkip : term.type = .skip
    · refine (@toGo_eq_zero_iff di _ isSkip (alike.leftBounded term member isSkip)).mpr ?_
      refine Bool.not_eq_false _ |>.mp fun failed => ?_
      have allowed := jumps term member failed
      unfold termAllows at allowed
      rw [if_pos isSkip] at allowed
      cases allowed
    · exact if_neg isSkip
  have plain := (alike.forall_plain_iff
    (fun term => di.termMet term = false → di.termAllows term = true) ?_).mp
      fun term member _ => jumps term member
  · intro term member failed
    by_cases isSkip : term.type = .skip
    · have done := remaining_eq_zero_iff.mp (alike.remaining.symm.trans none) term member
      have met := (@toGo_eq_zero_iff di _ isSkip (alike.rightBounded term member isSkip)).mp done
      exact absurd (failed.symm.trans met) Bool.false_ne_true
    · exact plain term member isSkip failed
  · intro first second isPlain same
    rw [termMet_of_shape isPlain same, termAllows_of_shape same]

theorem stays_alike (alike : Forall₂ Alike lefts rights)
    (stays : ∃ cond ∈ lefts, cond ≠ [] ∧ di.Stays cond) :
    ∃ cond ∈ rights, cond ≠ [] ∧ di.Stays cond := by
  induction alike with
  | nil =>
      obtain ⟨cond, member, -⟩ := stays
      cases member
  | cons here _ ih =>
      rw [exists_mem_cons_iff] at stays ⊢
      rcases stays with ⟨some, own⟩ | later
      · exact Or.inl ⟨fun null => some (here.null_iff.mpr null), here.stays own⟩
      · exact Or.inr (ih later)

theorem jumps_alike (alike : Forall₂ Alike lefts rights)
    (jumps : ∀ cond ∈ lefts, cond ≠ [] → di.Jumps cond) :
    ∀ cond ∈ rights, cond ≠ [] → di.Jumps cond := by
  induction alike with
  | nil => exact nofun
  | cons here _ ih =>
      rw [forall_mem_cons] at jumps ⊢
      exact ⟨fun some => here.jumps (jumps.1 fun null => some (here.null_iff.mp null)), ih jumps.2⟩

theorem jumpFlag_of_stays (stays : ∃ cond ∈ conds, cond ≠ [] ∧ di.Stays cond) :
    (conds.all fun cond => decide (cond = []) || di.stopsFree cond) = false := by
  obtain ⟨cond, member, some, own⟩ := stays
  refine all_eq_false.mpr ⟨cond, member, ?_⟩
  rw [decide_eq_false some, own.stopsFree]
  exact Bool.false_ne_true

theorem jumpFlag_of_jumps (jumps : ∀ cond ∈ conds, cond ≠ [] → di.Jumps cond)
    (failed : ∀ cond ∈ conds, di.condVerdict cond = false) :
    (conds.all fun cond => decide (cond = []) || di.stopsFree cond) = true := by
  refine all_eq_true.mpr fun cond member => ?_
  by_cases null : cond = []
  · rw [decide_eq_true null, Bool.true_or]
  · have unmet := failed cond member
    unfold condVerdict at unmet
    rw [bne_iff_ne.mpr null, Bool.true_and] at unmet
    rw [(jumps cond member null).stopsFree unmet, Bool.or_true]

theorem firstPass_alike (alike : SameButOrder left right)
    (free : PassAll (OrderFree left.entered) left.entered false true 0 left.entered.conditionList) :
    SameButOrder left.firstPass.di right.firstPass.di :=
  matchSample_alike alike.entered free false true

theorem firstPass_jump_alike (alike : SameButOrder left right)
    (leftUnmatched : left.firstPass.di.absCurMatched = false)
    (rightUnmatched : right.firstPass.di.absCurMatched = false)
    (free : (∃ cond ∈ left.entered.conditionList, cond ≠ [] ∧ left.entered.Stays cond) ∨
      ∀ cond ∈ left.entered.conditionList, cond ≠ [] → left.entered.Jumps cond) :
    right.firstPass.allSkipAllow = left.firstPass.allSkipAllow := by
  obtain ⟨leftFailed, leftFlag⟩ := matchSample_unmet leftUnmatched
  obtain ⟨rightFailed, rightFlag⟩ := matchSample_unmet rightUnmatched
  obtain ⟨same, conds⟩ := alike.entered
  refine rightFlag.trans (Eq.trans ?_ leftFlag.symm)
  have sameFlag : ∀ cond, right.entered.stopsFree cond = left.entered.stopsFree cond := by
    rw [same]
    exact fun cond => stopsFree_congr rfl rfl cond
  have sameVerdict : right.entered.condVerdict = left.entered.condVerdict := by
    rw [same]
    rfl
  rw [Bool.true_and, Bool.true_and]
  simp only [sameFlag]
  rw [sameVerdict] at rightFailed
  rcases free with stays | jumps
  · rw [jumpFlag_of_stays stays, jumpFlag_of_stays (stays_alike conds stays)]
  · rw [jumpFlag_of_jumps jumps leftFailed, jumpFlag_of_jumps (jumps_alike conds jumps) rightFailed]

theorem findMatch_alike (alike : SameButOrder left right)
    (free : CallAll OrderFree left) (jump : left.JumpFree) :
    right.findMatch.1 = left.findMatch.1 ∧
      SameButOrder left.findMatch.2 right.findMatch.2 := by
  by_cases conds : left.haveNonNullConds = true
  · have rightConds : right.haveNonNullConds = true := alike.haveNonNullConds.trans conds
    by_cases inside : left.firstTested < left.absEndSamplenum
    · have rightInside : right.firstTested < right.absEndSamplenum := by
        rw [alike.firstTested, alike.absEndSamplenum]
        exact inside
      obtain ⟨freeFirst, freeLater⟩ := free conds inside
      have first := firstPass_alike alike freeFirst
      rw [findMatch_firstPass conds inside, findMatch_firstPass rightConds rightInside,
        alike.firstTested, alike.absEndSamplenum]
      cases matched : left.firstPass.di.absCurMatched with
      | true =>
          rw [if_pos rfl, if_pos (first.absCurMatched.trans matched)]
          exact ⟨rfl, first⟩
      | false =>
          have unmatched := first.absCurMatched.trans matched
          rw [if_neg Bool.false_ne_true, unmatched, if_neg Bool.false_ne_true,
            firstPass_jump_alike alike matched unmatched (jump conds inside matched)]
          cases jumps : left.firstPass.allSkipAllow with
          | true =>
              rw [if_pos rfl, if_pos rfl]
              exact ⟨rfl, first.seek _⟩
          | false =>
              rw [if_neg Bool.false_ne_true, if_neg Bool.false_ne_true]
              exact scanSamples_alike (first.seek _) (freeLater matched jumps)
    · have done := Nat.le_of_not_lt inside
      have rightDone : right.absEndSamplenum ≤ right.firstTested := by
        rw [alike.firstTested, alike.absEndSamplenum]
        exact done
      rw [findMatch_no_samples conds done, findMatch_no_samples rightConds rightDone]
      exact ⟨rfl, alike.entered⟩
  · have none : left.findMatch = (true, left) := if_neg conds
    have rightNone : right.findMatch = (true, right) :=
      if_neg (by rw [alike.haveNonNullConds]; exact conds)
    rw [none, rightNone]
    exact ⟨rfl, alike⟩

/-! ## Runs -/

/-- In a call of `find_match` the order of the terms matters neither for the checks of conditions
nor for the jump. -/
def OrderFreeCall (_call : Nat) (di : SrdDecoderInst) : Prop :=
  CallAll OrderFree di ∧ di.JumpFree

section

variable (alike : SameButOrder left right)
include alike

theorem releaseChunk_alike : SameButOrder left.releaseChunk right.releaseChunk := by
  obtain ⟨same, conds⟩ := alike
  refine ⟨?_, conds⟩
  rw [same]
  rfl

theorem fillPinCache_alike : SameButOrder { left with firstPos := false }.fillPinCache
      { right with firstPos := false }.fillPinCache := by
  obtain ⟨same, conds⟩ := alike
  have kept : ∀ di : SrdDecoderInst, di.fillPinCache.conditionList = di.conditionList := fun di =>
    congrArg ScanState.conditionList (fillPinCache_scan di)
  refine ⟨?_, ?_⟩
  · rw [kept, same]
    unfold fillPinCache withConds
    dsimp only
    split
    · rw [if_pos ‹_›]
    · rw [if_neg ‹_›]
      rfl
  · rw [kept, kept]
    exact conds

theorem SameButOrder.wantWaitTerminate : right.wantWaitTerminate = left.wantWaitTerminate := by
  rw [alike.same]
  rfl

theorem SameButOrder.gotNewSamples : right.gotNewSamples = left.gotNewSamples := by
  rw [alike.same]
  rfl

theorem processSamples_alike (free : left.wantWaitTerminate = false → OrderFreeCall call left) :
    right.processSamplesUntilConditionMatch.1 = left.processSamplesUntilConditionMatch.1 ∧
      SameButOrder left.processSamplesUntilConditionMatch.2
        right.processSamplesUntilConditionMatch.2 := by
  cases terminating : left.wantWaitTerminate with
  | true =>
      have leftNone : left.processSamplesUntilConditionMatch = (false, left) :=
        if_pos terminating
      have rightNone : right.processSamplesUntilConditionMatch = (false, right) :=
        if_pos (alike.wantWaitTerminate.trans terminating)
      rw [leftNone, rightNone]
      exact ⟨rfl, alike⟩
  | false =>
      obtain ⟨freeChecks, jump⟩ := free terminating
      rw [processSamples_eq_findMatch terminating,
        processSamples_eq_findMatch (alike.wantWaitTerminate.trans terminating)]
      exact findMatch_alike alike freeChecks jump

theorem cDecoderWaitRegion_alike (free : left.wantWaitTerminate = false → OrderFreeCall call left) :
    right.cDecoderWaitRegion.1 = left.cDecoderWaitRegion.1 ∧
      SameButOrder left.cDecoderWaitRegion.2 right.cDecoderWaitRegion.2 := by
  obtain ⟨found, after⟩ := processSamples_alike alike free
  unfold cDecoderWaitRegion
  dsimp only
  rw [alike.gotNewSamples, alike.wantWaitTerminate, found]
  by_cases noSamples : ¬left.gotNewSamples = true ∧ ¬left.wantWaitTerminate = true
  · rw [if_pos noSamples, if_pos noSamples]
    exact ⟨rfl, alike⟩
  · rw [if_neg noSamples, if_neg noSamples]
    split
    · exact ⟨rfl, alike⟩
    · split
      · refine ⟨?_, fillPinCache_alike after⟩
        dsimp only
        rw [after.absCurSamplenum, after.matchArray]
      · rw [after.wantWaitTerminate]
        split
        · exact ⟨rfl, releaseChunk_alike after⟩
        · exact ⟨rfl, releaseChunk_alike after⟩

theorem decoderWaitRegion_alike (free : left.wantWaitTerminate = false → OrderFreeCall call left) :
    right.decoderWaitRegion.1 = left.decoderWaitRegion.1 ∧
      SameButOrder left.decoderWaitRegion.2 right.decoderWaitRegion.2 := by
  obtain ⟨found, after⟩ := processSamples_alike alike free
  unfold decoderWaitRegion
  dsimp only
  rw [alike.gotNewSamples, alike.wantWaitTerminate, found]
  by_cases noSamples : ¬left.gotNewSamples = true ∧ ¬left.wantWaitTerminate = true
  · rw [if_pos noSamples, if_pos noSamples]
    exact ⟨rfl, alike⟩
  · rw [if_neg noSamples, if_neg noSamples]
    split
    · refine ⟨?_, after⟩
      dsimp only
      rw [after.absCurSamplenum, after.matchArray]
    · rw [after.wantWaitTerminate]
      split
      · exact ⟨rfl, releaseChunk_alike after⟩
      · exact ⟨rfl, releaseChunk_alike after⟩

theorem waitRegion_alike (kind : WorkerKind)
    (free : left.wantWaitTerminate = false → OrderFreeCall call left) :
    (right.waitRegion kind).1 = (left.waitRegion kind).1 ∧
      SameButOrder (left.waitRegion kind).2 (right.waitRegion kind).2 := by
  cases kind with
  | cDecoder => exact cDecoderWaitRegion_alike alike free
  | pythonDecoder => exact decoderWaitRegion_alike alike free

end

/-- The same waits, with the terms of their conditions in another order. -/
abbrev WaitsAlike : List (List Condition) → List (List Condition) → Prop :=
  List.Forall₂ (List.Forall₂ Alike)

theorem nextWait_alike (alike : SameButOrder left right) (order : WaitsAlike waits others) :
    SameButOrder (left.nextWait waits) (right.nextWait others) := by
  cases order with
  | nil => exact alike
  | cons here _ =>
      unfold nextWait startWait
      cases here with
      | nil => exact alike
      | cons first rest =>
          obtain ⟨same, -⟩ := alike
          refine ⟨?_, Forall₂.cons first rest⟩
          rw [same]
          rfl

theorem serveWaits_alike {kind : WorkerKind} (alike : SameButOrder left right)
    (order : WaitsAlike waits others) (free : ServesAll OrderFreeCall kind call waits left) :
    (serveWaits kind others right).1 = (serveWaits kind waits left).1 ∧
      WaitsAlike (serveWaits kind waits left).2.1 (serveWaits kind others right).2.1 ∧
      SameButOrder (serveWaits kind waits left).2.2 (serveWaits kind others right).2.2 := by
  induction order generalizing call left right with
  | nil => exact ⟨rfl, Forall₂.nil, alike⟩
  | cons here later ih =>
      obtain ⟨freeHere, freeLater⟩ := free
      obtain ⟨result, after⟩ := waitRegion_alike alike kind freeHere
      unfold serveWaits
      cases outcome : left.waitRegion kind with
      | mk leftResult leftAfter =>
          cases rightOutcome : right.waitRegion kind with
          | mk rightResult rightAfter =>
              rw [outcome] at freeLater result after
              rw [rightOutcome] at result after
              dsimp only at result after
              subst result
              cases rightResult with
              | blocked => exact ⟨rfl, Forall₂.cons here later, after⟩
              | terminated => exact ⟨rfl, Forall₂.cons here later, after⟩
              | released => exact ⟨rfl, Forall₂.cons here later, after⟩
              | matched samplenum matchArray =>
                  obtain ⟨reports, waits, state⟩ := ih (nextWait_alike after later) freeLater
                  exact ⟨congrArg ((samplenum, matchArray) :: ·) reports, waits, state⟩

theorem handOver_alike (alike : SameButOrder left right) (chunk : SampleChunk) :
    (right.srdInstDecodeHandOver chunk).1 = (left.srdInstDecodeHandOver chunk).1 ∧
      SameButOrder (left.srdInstDecodeHandOver chunk).2 (right.srdInstDecodeHandOver chunk).2 := by
  obtain ⟨same, conds⟩ := alike
  have seeks : ∀ list, (left.withConds list).seekFirst chunk =
      (left.seekFirst chunk).withConds list := by
    intro list
    unfold seekFirst withConds
    dsimp only
    split
    · rfl
    · rfl
  have kept : (left.seekFirst chunk).conditionList = left.conditionList := by
    unfold seekFirst
    split
    · rfl
    · rfl
  have seek : SameButOrder (left.seekFirst chunk) (right.seekFirst chunk) := by
    rw [same, seeks]
    exact sameButOrder_of (kept ▸ conds)
  unfold srdInstDecodeHandOver
  dsimp only
  rw [seek.absCurSamplenum]
  split
  · exact ⟨rfl, ⟨same, conds⟩⟩
  · split
    · exact ⟨rfl, seek⟩
    · obtain ⟨seekSame, seekConds⟩ := seek
      refine ⟨rfl, ?_, seekConds⟩
      rw [seekSame]
      rfl

theorem decodeChunks_alike {kind : WorkerKind} {chunks : List SampleChunk}
    (alike : SameButOrder left right) (order : WaitsAlike waits others)
    (free : DecodesAll OrderFreeCall kind chunks call waits left) :
    decodeChunks kind chunks others right = decodeChunks kind chunks waits left := by
  induction chunks generalizing call left right waits others with
  | nil => rfl
  | cons chunk chunks ih =>
      obtain ⟨status, held⟩ := handOver_alike alike chunk
      unfold decodeChunks
      unfold DecodesAll at free
      cases outcome : left.srdInstDecodeHandOver chunk with
      | mk leftStatus leftHeld =>
          cases rightOutcome : right.srdInstDecodeHandOver chunk with
          | mk rightStatus rightHeld =>
              rw [outcome] at free status held
              rw [rightOutcome] at status held
              dsimp only at status held
              subst status
              cases rightStatus with
              | errArg => rfl
              | errTermReq => rfl
              | ok =>
                  dsimp only at free ⊢
                  obtain ⟨reports, rest, after⟩ := serveWaits_alike held order free.1
                  have finished : (serveWaits kind others rightHeld).2.1 = [] ↔
                      (serveWaits kind waits leftHeld).2.1 = [] := by
                    rw [← length_eq_zero_iff, ← length_eq_zero_iff, rest.length_eq]
                  rw [reports]
                  by_cases done : (serveWaits kind waits leftHeld).2.1 = []
                  · rw [if_pos done, if_pos (finished.mpr done)]
                  · rw [if_neg done, if_neg fun none => done (finished.mp none),
                      ih after rest (free.2 done)]

/-- As the front ends build them, the skips have not counted any sample. -/
def Fresh (conds : List Condition) : Prop :=
  ∀ cond ∈ conds, ∀ term ∈ cond, term.numSamplesAlreadySkipped = 0

theorem alike_of_fresh {conds others : List Condition} (fresh : Fresh conds)
    (perm : Forall₂ Perm conds others) : Forall₂ Alike conds others := by
  induction perm with
  | nil => exact Forall₂.nil
  | cons here _ ih =>
      obtain ⟨own, later⟩ := forall_mem_cons.mp fresh
      refine Forall₂.cons (alike_of_perm here fun term member _ => ?_) (ih later)
      rw [own term member]
      exact Nat.zero_le _

theorem waitsAlike_of_fresh (fresh : ∀ wait ∈ waits, Fresh wait)
    (perm : Forall₂ (Forall₂ Perm) waits others) : WaitsAlike waits others := by
  induction perm with
  | nil => exact Forall₂.nil
  | cons here _ ih =>
      obtain ⟨own, later⟩ := forall_mem_cons.mp fresh
      exact Forall₂.cons (alike_of_fresh own here) (ih later)

/-- Terms in another order, the same reports: in every run in which no step depends on the order. -/
theorem runReports_order_free {kind : WorkerKind} {start : Nat} {chunks : List SampleChunk}
    {waits others : List (List Condition)} {di : SrdDecoderInst}
    (fresh : ∀ wait ∈ waits, Fresh wait) (kept : Fresh di.conditionList)
    (perm : List.Forall₂ (List.Forall₂ List.Perm) waits others)
    (free : RunsAll OrderFreeCall kind start chunks waits di) :
    runReports kind chunks others di = runReports kind chunks waits di := by
  have order := waitsAlike_of_fresh fresh perm
  have begins : SameButOrder di.srdInstStart di.srdInstStart :=
    ⟨rfl, alike_of_fresh kept (forall₂_same.mpr fun cond _ => Perm.refl cond)⟩
  exact decodeChunks_alike (nextWait_alike begins order) order free

instance (di : SrdDecoderInst) (cond : Condition) : Decidable (di.PinsMet cond) :=
  inferInstanceAs (Decidable (∀ term ∈ cond, term.type ≠ .skip → di.termMet term = true))

instance (cond : Condition) : Decidable (HasZeroSkip cond) :=
  inferInstanceAs (Decidable (∃ term ∈ cond, term.zeroSkip = true))

instance (start di : SrdDecoderInst) (cond : Condition) : Decidable (OrderFree start di cond) :=
  inferInstanceAs (Decidable ((di.PinsMet cond ∨ remaining cond = 0) ∧
    (di.absCurMatched = true → HasZeroSkip cond → di.condMet cond = true)))

instance (di : SrdDecoderInst) (cond : Condition) : Decidable (di.Stays cond) :=
  inferInstanceAs (Decidable (∀ term ∈ cond, term.type ≠ .skip →
    di.termMet term = false → di.termAllows term = false))

instance (conds : List Condition) : Decidable (Fresh conds) :=
  inferInstanceAs (Decidable (∀ cond ∈ conds, ∀ term ∈ cond, term.numSamplesAlreadySkipped = 0))

/-- A high level beside a skip, while the level stays high. -/
theorem runReports_order_free_high :
    runReports .cDecoder [byteChunk 0 2 0xFF] [[[.skipping 1, .onChannel .high 0]]] freshInstance =
      runReports .cDecoder [byteChunk 0 2 0xFF] [[[.onChannel .high 0, .skipping 1]]]
        freshInstance := by
  have free : RunsAll OrderFreeCall .cDecoder 0 [byteChunk 0 2 0xFF]
      [[[.onChannel .high 0, .skipping 1]]] freshInstance := by
    refine ⟨⟨fun _ => ⟨fun _ _ => ⟨?first, fun _ _ => ⟨?second, ?found⟩⟩, ?jump⟩, trivial⟩, ?rest⟩
    case first => exact ⟨fun _ => by decide, trivial⟩
    case second => exact ⟨fun _ => by decide, trivial⟩
    case found => exact fun unmatched => absurd unmatched (by decide)
    case jump =>
        exact fun _ _ _ => Or.inl ⟨[.onChannel .high 0, .skipping 1], by decide, by decide,
          by decide⟩
    case rest => exact fun pending => absurd (by decide) pending
  exact runReports_order_free (by decide) (by decide)
    (Forall₂.cons (Forall₂.cons (Perm.swap _ _ _) Forall₂.nil) Forall₂.nil) free

/-- While the level is low, the skip behind it counts no samples, and the one before it does. -/
theorem runReports_order_matters :
    List.Forall₂ (List.Forall₂ List.Perm) [[[SrdTerm.onChannel .high 0, .skipping 2]]]
        [[[.skipping 2, .onChannel .high 0]]] ∧
      runReports .cDecoder [byteChunk 0 8 0xFE] [[[.onChannel .high 0, .skipping 2]]]
        freshInstance = [(3, 1)] ∧
      runReports .cDecoder [byteChunk 0 8 0xFE] [[[.skipping 2, .onChannel .high 0]]]
        freshInstance = [(2, 1)] := by
  refine ⟨?_, by decide, by decide⟩
  exact Forall₂.cons (Forall₂.cons (Perm.swap _ _ _) Forall₂.nil) Forall₂.nil

end SrdDecoderInst

end SigrokDecode
