import Mathlib.Order.Bounds.Basic
import SigrokDecode.Instance.MatchBits
import SigrokDecode.Instance.PlainScan

/-!
# What a scan of packed buffers finds

A scan of a chunk of packed buffers comes to the first sample at which one of its conditions holds.
The skips among them count the samples that the scan has passed.
-/

set_option linter.dupNamespace false

namespace SigrokDecode

open List

namespace SrdDecoderInst

def scanStart (di : SrdDecoderInst) : Nat :=
  if di.absCurMatched then di.absCurSamplenum + 1 else di.absCurSamplenum

def ScanCond (di : SrdDecoderInst) (cond : Condition) : Prop :=
  (∀ term ∈ cond, term.type ≠ .skip ∧ di.Mapped term.channel) ∨
    ∃ term, cond = [term] ∧ term.type = .skip ∧ 1 ≤ term.numSamplesToSkip ∧
      term.numSamplesAlreadySkipped ≤ term.numSamplesToSkip

structure PackedScan (di : SrdDecoderInst) (stream : SampleStream) : Prop where
  reader : di.readSample = none
  packed : ∀ ch, di.Mapped ch → di.inbufAt ch ≠ none
  holds : di.HoldsStream stream
  idle : di.skipZero = false
  few : di.conditionList.length ≤ 31
  conds : ∀ cond ∈ di.conditionList, di.ScanCond cond
  lower : di.absStartSamplenum ≤ di.scanStart
  upper : di.scanStart ≤ di.absEndSamplenum
  fits : di.absEndSamplenum < 2 ^ 64

def scanPins (di : SrdDecoderInst) (stream : SampleStream) (samplenum : Nat) : Nat → UInt8 :=
  if samplenum = di.scanStart then di.primeScan.oldPin else pinsAt stream (samplenum - 1)

/-- The skip has run out at a sample. Behind a match it counts from the position at the call;
otherwise it may have counted samples of earlier chunks of the same wait. -/
def SkipOver (di : SrdDecoderInst) (samplenum : Nat) (term : SrdTerm) : Prop :=
  if di.absCurMatched then
    di.absCurSamplenum + term.numSamplesToSkip ≤ samplenum
  else
    di.absCurSamplenum + term.numSamplesToSkip ≤ samplenum + term.numSamplesAlreadySkipped

/-- The condition holds at a sample; a `NULL` condition never does. -/
def HoldsAt (di : SrdDecoderInst) (stream : SampleStream) (samplenum : Nat) (cond : Condition) :
    Prop :=
  cond ≠ [] ∧ ∀ term ∈ cond,
    if term.type = .skip then di.SkipOver samplenum term
    else termHolds (di.scanPins stream samplenum) (pinsAt stream samplenum) term = true

def holdingSamples (di : SrdDecoderInst) (stream : SampleStream) : Set Nat :=
  {samplenum | di.scanStart ≤ samplenum ∧ samplenum < di.absEndSamplenum ∧
    ∃ cond ∈ di.conditionList, di.HoldsAt stream samplenum cond}

/-- The scan reports a sample with the conditions that hold there. -/
structure Reports (di : SrdDecoderInst) (stream : SampleStream) (samplenum : Nat)
    (result : Bool × SrdDecoderInst) : Prop where
  found : result.1 = true
  position : result.2.absCurSamplenum = samplenum
  bits : ∀ j, result.2.matchArray.getLsbD j = true ↔
    ∃ cond, di.conditionList[j]? = some cond ∧ di.HoldsAt stream samplenum cond
  pins : ∀ ch < di.decNumChannels, result.2.oldPin ch = pinsAt stream samplenum ch

/-- The scan has used the chunk up. -/
structure UsesUp (di : SrdDecoderInst) (stream : SampleStream) (result : Bool × SrdDecoderInst) :
    Prop where
  found : result.1 = false
  position : result.2.absCurSamplenum = di.absEndSamplenum
  pins : ∀ ch < di.decNumChannels, result.2.oldPin ch = di.scanPins stream di.absEndSamplenum ch

def FindsFirst (di : SrdDecoderInst) (stream : SampleStream) (result : Bool × SrdDecoderInst) :
    Prop :=
  (∀ samplenum, IsLeast (di.holdingSamples stream) samplenum → di.Reports stream samplenum result) ∧
  (di.holdingSamples stream = ∅ → di.UsesUp stream result)

def countedAt (di : SrdDecoderInst) (samplenum : Nat) (term : SrdTerm) : SrdTerm :=
  if term.type = .skip then
    { term with
      numSamplesAlreadySkipped :=
        (if di.absCurMatched then 1 else term.numSamplesAlreadySkipped) +
          (samplenum - di.scanStart) }
  else
    term

variable {di inst : SrdDecoderInst} {stream : SampleStream} {samplenum : Nat}

variable {term : SrdTerm}

theorem countedAt_of_plain (plain : term.type ≠ .skip) : di.countedAt samplenum term = term :=
  if_neg plain

/-- The scan is at a sample, and no condition has held before. -/
structure ScanAt (di : SrdDecoderInst) (stream : SampleStream) (samplenum : Nat)
    (inst : SrdDecoderInst) : Prop where
  frame : inst.frame = di.frame
  position : inst.absCurSamplenum = samplenum
  list : inst.conditionList = di.conditionList.map (List.map (di.countedAt samplenum))
  idle : inst.skipZero = false
  clear : inst.matchArray = 0
  remembers : ∀ ch < di.decNumChannels, inst.oldPin ch = di.scanPins stream samplenum ch
  counts : ∀ cond ∈ di.conditionList, ∀ term ∈ cond, term.type = .skip →
    (di.countedAt samplenum term).numSamplesAlreadySkipped ≤ term.numSamplesToSkip

theorem decNumChannels_of_mapped {ch : Nat} (mapped : di.Mapped ch) : ch < di.decNumChannels := by
  by_contra outside
  unfold Mapped channelmapAt at mapped
  rw [getD_eq_default _ _ (Nat.le_of_not_lt outside)] at mapped
  exact absurd mapped (by decide)

theorem tested_of_plain {cond : Condition} (plain : ∀ term ∈ cond, term.type ≠ SrdTermType.skip) :
    inst.tested cond = cond := by
  induction cond with
  | nil => rfl
  | cons term rest ih =>
      have kept : term.counted = term := if_neg fun both => plain term mem_cons_self both.1
      rw [tested, kept, ih fun other member =>
        plain other (mem_cons_of_mem _ member)]
      split
      · rfl
      · rfl

theorem map_countedAt_of_plain {cond : Condition}
    (plain : ∀ term ∈ cond, term.type ≠ SrdTermType.skip) :
    cond.map (di.countedAt samplenum) = cond :=
  (map_congr_left fun term member => countedAt_of_plain (plain term member)).trans (map_id cond)

theorem ScanAt.sees (scan : di.PackedScan stream) (here : ScanAt di stream samplenum inst)
    (least : di.scanStart ≤ samplenum) (inside : samplenum < di.absEndSamplenum) (ch : Nat) :
    inst.termSample ch = some (pinsAt stream samplenum ch) := by
  have start : inst.absStartSamplenum = di.absStartSamplenum :=
    congrArg InstFrame.absStartSamplenum here.frame
  have stop : inst.absEndSamplenum = di.absEndSamplenum :=
    congrArg InstFrame.absEndSamplenum here.frame
  have lower := scan.lower
  have seen := (holdsStream_of_frame here.frame scan.holds).sees (by
    rw [here.position]
    exact ⟨by omega, by omega⟩) ch
  rwa [here.position] at seen

theorem ScanAt.termMet_plain (scan : di.PackedScan stream) (here : ScanAt di stream samplenum inst)
    (least : di.scanStart ≤ samplenum) (inside : samplenum < di.absEndSamplenum)
    (plain : term.type ≠ .skip) (mapped : di.Mapped term.channel) :
    inst.termMet term =
      termHolds (di.scanPins stream samplenum) (pinsAt stream samplenum) term := by
  unfold termMet termHolds
  rw [if_neg plain, here.sees scan least inside, here.remembers _ (decNumChannels_of_mapped mapped)]

theorem skipOver_iff (least : di.scanStart ≤ samplenum) (isSkip : term.type = .skip)
    (bounded : (di.countedAt samplenum term).numSamplesAlreadySkipped ≤ term.numSamplesToSkip) :
    di.SkipOver samplenum term ↔
      (di.countedAt samplenum term).numSamplesAlreadySkipped = term.numSamplesToSkip := by
  unfold SkipOver
  unfold scanStart at least
  unfold countedAt scanStart at bounded ⊢
  rw [if_pos isSkip] at bounded ⊢
  dsimp only at bounded ⊢
  cases matched : di.absCurMatched with
  | true =>
      rw [matched, if_pos rfl] at least
      rw [matched, if_pos rfl, if_pos rfl] at bounded
      rw [if_pos rfl, if_pos rfl, if_pos rfl]
      omega
  | false =>
      rw [matched, if_neg Bool.false_ne_true] at least
      rw [matched, if_neg Bool.false_ne_true, if_neg Bool.false_ne_true] at bounded
      rw [if_neg Bool.false_ne_true, if_neg Bool.false_ne_true, if_neg Bool.false_ne_true]
      omega

section

variable (scan : di.PackedScan stream)
include scan

theorem ScanAt.cond (here : ScanAt di stream samplenum inst)
    (least : di.scanStart ≤ samplenum) (inside : samplenum < di.absEndSamplenum)
    {cond : Condition} (member : cond ∈ di.conditionList) :
    (inst.condVerdict (cond.map (di.countedAt samplenum)) = true ↔
        di.HoldsAt stream samplenum cond) ∧
      (inst.condVerdict (cond.map (di.countedAt samplenum)) = false →
        inst.tested (cond.map (di.countedAt samplenum)) =
          cond.map (di.countedAt (samplenum + 1))) := by
  rcases scan.conds cond member with plain | ⟨term, rfl, isSkip, -, -⟩
  · have noSkips : ∀ term ∈ cond, term.type ≠ SrdTermType.skip := fun term inCond =>
      (plain term inCond).1
    rw [map_countedAt_of_plain noSkips, map_countedAt_of_plain noSkips]
    refine ⟨?_, fun _ => tested_of_plain noSkips⟩
    unfold condVerdict HoldsAt condMet
    rw [Bool.and_eq_true, bne_iff_ne, all_eq_true]
    refine and_congr_right fun _ => forall₂_congr fun term inCond => ?_
    rw [here.termMet_plain scan least inside (plain term inCond).1 (plain term inCond).2,
      if_neg (plain term inCond).1]
  · have counter := skipOver_iff least isSkip (here.counts _ member term mem_cons_self isSkip)
    have shape : (di.countedAt samplenum term).type = .skip ∧
        (di.countedAt samplenum term).numSamplesToSkip = term.numSamplesToSkip := by
      unfold countedAt
      rw [if_pos isSkip]
      exact ⟨isSkip, rfl⟩
    have met : inst.condVerdict ([term].map (di.countedAt samplenum)) = true ↔
        (di.countedAt samplenum term).numSamplesAlreadySkipped = term.numSamplesToSkip := by
      unfold condVerdict condMet termMet
      rw [map_singleton, all_cons, all_nil, if_pos shape.1, shape.2, Bool.and_true,
        bne_iff_ne.mpr (cons_ne_nil _ _), Bool.true_and, decide_eq_true_iff]
    constructor
    · rw [met, ← counter]
      unfold HoldsAt
      rw [forall_mem_singleton, if_pos isSkip]
      exact (and_iff_right (cons_ne_nil _ _)).symm
    · intro failed
      have undone : (di.countedAt samplenum term).numSamplesAlreadySkipped ≠
          term.numSamplesToSkip := fun done =>
        Bool.false_ne_true (failed.symm.trans (met.mpr done))
      have unmet : ¬inst.termMet (di.countedAt samplenum term) = true := by
        unfold termMet
        rw [if_pos shape.1, shape.2, decide_eq_true_iff]
        exact undone
      rw [map_singleton, map_singleton, tested, if_neg unmet]
      unfold SrdTerm.counted
      rw [if_pos ⟨shape.1, by rw [shape.2]; exact undone⟩]
      unfold countedAt
      rw [if_pos isSkip, if_pos isSkip, Nat.sub_add_comm least]
      rfl

theorem ScanAt.quiet (here : ScanAt di stream samplenum inst) : inst.Quiet inst.conditionList := by
  intro counted member
  rw [here.list] at member
  obtain ⟨cond, inList, rfl⟩ := mem_map.mp member
  unfold marked
  rw [here.idle, reachesZero_of_free, Bool.and_false, Bool.or_false]
  intro countedTerm inCond isSkip
  obtain ⟨term, inTerms, rfl⟩ := mem_map.mp inCond
  rcases scan.conds cond inList with plain | ⟨only, rfl, -, positive, -⟩
  · rw [countedAt_of_plain (plain term inTerms).1] at isSkip
    exact absurd isSkip (plain term inTerms).1
  · rw [mem_singleton.mp inTerms]
    unfold countedAt
    split
    · exact Nat.ne_of_gt positive
    · exact Nat.ne_of_gt positive

theorem ScanAt.holds_iff (here : ScanAt di stream samplenum inst)
    (least : di.scanStart ≤ samplenum) (inside : samplenum < di.absEndSamplenum) (j : Nat) :
    (inst.conditionList.map inst.condVerdict)[j]? = some true ↔
      ∃ cond, di.conditionList[j]? = some cond ∧ di.HoldsAt stream samplenum cond := by
  rw [here.list, map_map, getElem?_map, Option.map_eq_some_iff]
  refine exists_congr fun cond => and_congr_right fun found => ?_
  exact (here.cond scan least inside (mem_of_getElem? found)).1

theorem ScanAt.report (here : ScanAt di stream samplenum inst)
    (least : di.scanStart ≤ samplenum) (inside : samplenum < di.absEndSamplenum)
    (held : ∃ cond ∈ di.conditionList, di.HoldsAt stream samplenum cond)
    (skipAllow allSkipAllow : Bool) :
    (inst.matchSample skipAllow allSkipAllow).di.absCurMatched = true ∧
      di.Reports stream samplenum (true, (inst.matchSample skipAllow allSkipAllow).di) := by
  have done := matchSample_quiet here.idle (here.quiet scan) skipAllow allSkipAllow
  have few : (inst.conditionList.map inst.condVerdict).length ≤ 31 := by
    rw [here.list, length_map, length_map]
    exact scan.few
  have none : (0 : BitVec 64) ||| marksFrom 0 (inst.conditionList.map inst.condVerdict) =
      marksFrom 0 (inst.conditionList.map inst.condVerdict) := BitVec.zero_or
  have channels : inst.decNumChannels = di.decNumChannels := decNumChannels_of_frame here.frame
  constructor
  · obtain ⟨cond, member, holds⟩ := held
    refine (matchSample_quiet_matched here.idle (here.quiet scan) here.clear skipAllow
      allSkipAllow).mpr ⟨cond.map (di.countedAt samplenum), ?_, ?_⟩
    · rw [here.list]
      exact mem_map_of_mem member
    · exact (here.cond scan least inside member).1.mpr holds
  · constructor
    case found => rfl
    case position => exact (congrArg SrdDecoderInst.absCurSamplenum done).trans here.position
    case bits =>
        intro j
        have marks := congrArg SrdDecoderInst.matchArray done
        dsimp only at marks ⊢
        rw [marks, here.clear, none, marksFrom_getLsbD_of_few few]
        exact here.holds_iff scan least inside j
    case pins =>
        intro ch below
        rw [← channels] at below
        refine (oldPin_of_stored (congrArg SrdDecoderInst.oldPinsArray done) below).trans ?_
        rw [oldPinSample_eq_termSample, here.sees scan least inside]
        rfl

theorem ScanAt.pass (here : ScanAt di stream samplenum inst)
    (least : di.scanStart ≤ samplenum) (inside : samplenum < di.absEndSamplenum)
    (unheld : ∀ cond ∈ di.conditionList, ¬di.HoldsAt stream samplenum cond)
    (skipAllow allSkipAllow : Bool) :
    (inst.matchSample skipAllow allSkipAllow).di.absCurMatched = false ∧
      ScanAt di stream (samplenum + 1)
        ((inst.matchSample skipAllow allSkipAllow).di.seek (samplenum + 1)) := by
  have done := matchSample_quiet here.idle (here.quiet scan) skipAllow allSkipAllow
  have channels : inst.decNumChannels = di.decNumChannels := decNumChannels_of_frame here.frame
  have failed : ∀ cond ∈ di.conditionList,
      inst.condVerdict (cond.map (di.countedAt samplenum)) = false := fun cond member =>
    Bool.eq_false_iff.mpr fun met =>
      unheld cond member ((here.cond scan least inside member).1.mp met)
  have unmatched : (inst.matchSample skipAllow allSkipAllow).di.absCurMatched = false := by
    refine Bool.eq_false_iff.mpr fun matched => ?_
    obtain ⟨counted, member, met⟩ := (matchSample_quiet_matched here.idle (here.quiet scan)
      here.clear skipAllow allSkipAllow).mp matched
    rw [here.list] at member
    obtain ⟨cond, inList, rfl⟩ := mem_map.mp member
    exact Bool.false_ne_true ((failed cond inList).symm.trans met)
  refine ⟨unmatched, ?_⟩
  constructor
  case frame => exact (matchSample_frame inst skipAllow allSkipAllow).trans here.frame
  case position => rfl
  case list =>
      have list := congrArg SrdDecoderInst.conditionList done
      refine list.trans ?_
      dsimp only
      rw [here.list, map_map]
      exact map_congr_left fun cond member =>
        (here.cond scan least inside member).2 (failed cond member)
  case idle =>
      have flag := congrArg SrdDecoderInst.skipZero done
      exact flag.trans here.idle
  case clear => exact (matchSample_no_match unmatched).1
  case remembers =>
      intro ch below
      rw [← channels] at below
      have stored :
          ((inst.matchSample skipAllow allSkipAllow).di.seek (samplenum + 1)).oldPinsArray =
            some ((range inst.decNumChannels).map inst.oldPinSample) :=
        congrArg SrdDecoderInst.oldPinsArray done
      refine (oldPin_of_stored stored below).trans ?_
      unfold scanPins
      rw [oldPinSample_eq_termSample, here.sees scan least inside, if_neg (by omega)]
      rfl
  case counts =>
      intro cond member term inCond isSkip
      have bounded := here.counts cond member term inCond isSkip
      rcases scan.conds cond member with plain | ⟨only, rfl, -, -, -⟩
      · exact absurd isSkip (plain term inCond).1
      · obtain rfl := mem_singleton.mp inCond
        have runsOut := skipOver_iff least isSkip bounded
        have undone : ¬di.SkipOver samplenum term := by
          intro holds
          refine unheld _ member ⟨cons_ne_nil _ _, ?_⟩
          rw [forall_mem_singleton, if_pos isSkip]
          exact holds
        rw [runsOut] at undone
        unfold countedAt at bounded undone ⊢
        rw [if_pos isSkip] at bounded undone ⊢
        dsimp only at bounded undone ⊢
        omega

theorem ScanAt.scanSamples {count : Nat}
    (here : ScanAt di stream samplenum inst) (least : di.scanStart ≤ samplenum)
    (rest : samplenum + count = di.absEndSamplenum) :
    (∀ first, samplenum ≤ first → IsLeast (di.holdingSamples stream) first →
        di.Reports stream first (inst.scanSamples count)) ∧
      (di.holdingSamples stream = ∅ → di.UsesUp stream (inst.scanSamples count)) := by
  induction count generalizing inst samplenum with
  | zero =>
      refine ⟨fun first reached isLeast => ?_, fun _ => ⟨rfl, ?_, ?_⟩⟩
      · obtain ⟨-, inside, -⟩ := isLeast.1
        omega
      · exact here.position.trans rest
      · rw [← rest]
        exact here.remembers
  | succ count ih =>
      have inside : samplenum < di.absEndSamplenum := by omega
      by_cases held : ∃ cond ∈ di.conditionList, di.HoldsAt stream samplenum cond
      · obtain ⟨matched, reports⟩ := here.report scan least inside held false false
        have result : inst.scanSamples (count + 1) = (true, (inst.matchSample false false).di) :=
          if_pos matched
        have isHeld : samplenum ∈ di.holdingSamples stream := ⟨least, inside, held⟩
        rw [result]
        refine ⟨fun first reached isLeast => ?_, fun empty => ?_⟩
        · have same : first = samplenum := Nat.le_antisymm (isLeast.2 isHeld) reached
          rw [same]
          exact reports
        · rw [empty] at isHeld
          exact absurd isHeld (Set.notMem_empty samplenum)
      · have unheld : ∀ cond ∈ di.conditionList, ¬di.HoldsAt stream samplenum cond :=
          fun cond member holds => held ⟨cond, member, holds⟩
        obtain ⟨unmatched, next⟩ := here.pass scan least inside unheld false false
        have position : (inst.matchSample false false).di.absCurSamplenum = samplenum :=
          (matchSample_no_match unmatched).2.1.trans here.position
        have result : inst.scanSamples (count + 1) =
            ((inst.matchSample false false).di.seek (samplenum + 1)).scanSamples count := by
          rw [← position]
          exact if_neg (by rw [unmatched]; exact Bool.false_ne_true)
        obtain ⟨later, usedUp⟩ := ih next (Nat.le_succ_of_le least) (by omega)
        rw [result]
        refine ⟨fun first reached isLeast => later first ?_ isLeast, usedUp⟩
        refine Nat.lt_of_le_of_ne reached fun same => ?_
        rw [← same] at isLeast
        exact held isLeast.1.2.2

theorem PackedScan.firstTested_eq : di.firstTested = di.scanStart := by
  have upper := scan.upper
  have fits := scan.fits
  unfold firstTested
  unfold scanStart at upper ⊢
  split
  · rename_i matched
    rw [if_pos matched] at upper
    exact if_neg (by omega)
  · rfl

theorem PackedScan.begins : ScanAt di stream di.scanStart di.entered := by
  obtain ⟨list, -, idle⟩ := entered_list di
  have counter : ∀ term : SrdTerm, term.type = .skip →
      (di.countedAt di.scanStart term).numSamplesAlreadySkipped =
        if di.absCurMatched then 1 else term.numSamplesAlreadySkipped := by
    intro term isSkip
    unfold countedAt
    rw [if_pos isSkip, Nat.sub_self]
    rfl
  constructor
  case frame => exact entered_frame di
  case position => exact (entered_position di).trans scan.firstTested_eq
  case list =>
      rw [list]
      cases flag : di.absCurMatched with
      | true =>
          rw [if_pos rfl]
          refine map_congr_left fun cond member => map_congr_left fun term inCond => ?_
          rcases scan.conds cond member with plain | ⟨only, rfl, isSkip, positive, -⟩
          · rw [countedAt_of_plain (plain term inCond).1]
            exact if_neg fun both => (plain term inCond).1 both.1
          · obtain rfl := mem_singleton.mp inCond
            unfold countedAt
            rw [if_pos isSkip, if_pos ⟨isSkip, positive⟩, flag, Nat.sub_self]
            rfl
      | false =>
          rw [if_neg Bool.false_ne_true]
          refine ((map_congr_left fun cond _ => ?_).trans (map_id _)).symm
          refine (map_congr_left fun term _ => ?_).trans (map_id cond)
          unfold countedAt
          rw [flag, if_neg Bool.false_ne_true, Nat.sub_self]
          split
          · rfl
          · rfl
  case idle => exact idle.trans scan.idle
  case clear => exact entered_matchArray di
  case remembers =>
      intro ch _
      unfold scanPins entered leaveMatch
      rw [if_pos rfl]
      split
      · rfl
      · rfl
  case counts =>
      intro cond member term inCond isSkip
      rw [counter term isSkip]
      rcases scan.conds cond member with plain | ⟨only, rfl, -, positive, bounded⟩
      · exact absurd isSkip (plain term inCond).1
      · obtain rfl := mem_singleton.mp inCond
        split
        · exact positive
        · exact bounded

theorem PackedScan.noJump (conds : di.haveNonNullConds = true)
    (inside : di.firstTested < di.absEndSamplenum)
    (unmatched : di.firstPass.di.absCurMatched = false) :
    di.firstPass.allSkipAllow = false := by
  have here := scan.begins
  rw [scan.firstTested_eq] at inside
  obtain ⟨-, jumps⟩ := matchSample_unmet unmatched
  obtain ⟨cond, member, nonNull⟩ := any_eq_true.mp conds
  have counted : cond.map (di.countedAt di.scanStart) ∈ di.entered.conditionList := by
    rw [here.list]
    exact mem_map_of_mem member
  refine jumps.trans ?_
  rw [Bool.true_and]
  refine all_eq_false.mpr ⟨_, counted, ?_⟩
  have notNull : cond.map (di.countedAt di.scanStart) ≠ [] := by
    rw [ne_eq, map_eq_nil_iff]
    exact bne_iff_ne.mp nonNull
  have forbidden : ∀ term ∈ cond.map (di.countedAt di.scanStart),
      di.entered.termAllows term = false := by
    intro countedTerm inCond
    obtain ⟨term, inTerms, rfl⟩ := mem_map.mp inCond
    by_cases isSkip : (di.countedAt di.scanStart term).type = .skip
    · exact if_pos isSkip
    · have within : di.entered.InChunk di.entered.absCurSamplenum := by
        have start : di.entered.absStartSamplenum = di.absStartSamplenum :=
          congrArg InstFrame.absStartSamplenum here.frame
        have stop : di.entered.absEndSamplenum = di.absEndSamplenum :=
          congrArg InstFrame.absEndSamplenum here.frame
        have lower := scan.lower
        rw [here.position]
        exact ⟨by omega, by omega⟩
      have reader : di.entered.readSample = none :=
        (congrArg InstFrame.readSample here.frame).trans scan.reader
      have buffers : di.entered.inbuf = di.inbuf := congrArg InstFrame.inbuf here.frame
      refine (if_neg isSkip).trans ?_
      rw [termSkipAllow_eq reader within]
      unfold constantAt inbufAt
      rw [buffers]
      refine decide_eq_false ?_
      rcases scan.conds cond member with plain | ⟨only, rfl, skips, -, -⟩
      · rw [countedAt_of_plain (plain term inTerms).1]
        exact scan.packed _ (plain term inTerms).2
      · obtain rfl := mem_singleton.mp inTerms
        unfold countedAt at isSkip
        rw [if_pos skips] at isSkip
        exact absurd skips isSkip
  rw [decide_eq_false notNull, Bool.false_or]
  unfold stopsFree
  cases stop : (cond.map (di.countedAt di.scanStart)).find? fun term =>
      !di.entered.termMet term with
  | none => exact Bool.false_ne_true
  | some term =>
      rw [Option.any_some, forbidden term (mem_of_find?_eq_some stop)]
      exact Bool.false_ne_true

end

theorem findMatch_findsFirst (scan : di.PackedScan stream) :
    if di.haveNonNullConds then di.FindsFirst stream di.findMatch
    else di.findMatch = (true, di) := by
  by_cases conds : di.haveNonNullConds = true
  · rw [if_pos conds, findMatch_eq_scanSamples_of_noJump conds (scan.noJump conds)]
    have upper := scan.upper
    have whole : di.scanStart + (di.absEndSamplenum - di.scanStart) = di.absEndSamplenum := by
      omega
    obtain ⟨found, usedUp⟩ := scan.begins.scanSamples scan (Nat.le_refl _) whole
    rw [scan.firstTested_eq]
    exact ⟨fun samplenum isLeast => found samplenum isLeast.1.1 isLeast, usedUp⟩
  · rw [if_neg conds]
    exact if_neg conds

def highScan (conds : List Condition) : SrdDecoderInst :=
  (freshInstance.startWait conds).storeChunk (byteChunk 0 8 0xFF)

theorem highScan_packed {conds : List Condition} (some : conds ≠ []) (few : conds.length ≤ 31)
    (scanConds : ∀ cond ∈ conds, freshInstance.ScanCond cond) :
    (highScan conds).PackedScan highStream := by
  have started : freshInstance.startWait conds = { freshInstance with conditionList := conds } :=
    if_neg some
  unfold highScan
  rw [started]
  constructor
  case reader => rfl
  case packed =>
      intro ch mapped
      have only : ch < 1 := decNumChannels_of_mapped mapped
      obtain rfl : ch = 0 := Nat.lt_one_iff.mp only
      exact Option.some_ne_none _
  case holds => exact storeChunk_holdsStream (highStream_byteChunk (by decide)) rfl
  case idle => rfl
  case few => exact few
  case conds => exact scanConds
  case lower => exact Nat.zero_le _
  case upper => exact Nat.zero_le _
  case fits => exact (by decide : 8 < 2 ^ 64)

/-- A falling edge, or two samples. -/
theorem findMatch_findsFirst_edgeOrSkip :
    (highScan [[.onChannel .fallingEdge 0], [], [.skipping 2]]).FindsFirst highStream
      (highScan [[.onChannel .fallingEdge 0], [], [.skipping 2]]).findMatch := by
  have scan : (highScan [[.onChannel .fallingEdge 0], [], [.skipping 2]]).PackedScan
      highStream := by
    refine highScan_packed (cons_ne_nil _ _) (by decide) fun cond member => ?_
    rcases mem_cons.mp member with rfl | member
    · exact Or.inl (by decide)
    · rcases mem_cons.mp member with rfl | member
      · exact Or.inl nofun
      · obtain rfl := mem_singleton.mp member
        exact Or.inr ⟨.skipping 2, rfl, rfl, by decide, by decide⟩
  have whole := findMatch_findsFirst scan
  rwa [if_pos (by decide)] at whole

/-- A list of `NULL` conditions is an automatic match, though no condition holds. -/
theorem findMatch_automatic : (highScan [[]]).PackedScan highStream ∧
      ¬(highScan [[]]).FindsFirst highStream (highScan [[]]).findMatch := by
  constructor
  · refine highScan_packed (cons_ne_nil _ _) (by decide) fun cond member => ?_
    obtain rfl := mem_singleton.mp member
    exact Or.inl nofun
  · rintro ⟨-, usedUp⟩
    have none : (highScan [[]]).holdingSamples highStream = ∅ := by
      refine Set.eq_empty_of_forall_notMem fun samplenum held => ?_
      obtain ⟨-, -, cond, member, nonNull, -⟩ := held
      exact nonNull (mem_singleton.mp member)
    exact absurd (usedUp none).found (by decide)

end SrdDecoderInst

end SigrokDecode
