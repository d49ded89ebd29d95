import SigrokDecode.Instance.MatchBits
import SigrokDecode.Instance.PackedWaits
import SigrokDecode.Instance.TermOrder

/-!
# Zero skips

In the first pass behind a match a skip of zero samples leaves a mark on the instance, and the next
condition that is met takes the position back by one sample, to that of the match.
-/

set_option linter.dupNamespace false

namespace SigrokDecode

open List

namespace SrdDecoderInst

section Capture

variable (stream : SampleStream) (start : Nat) (initial : Nat → UInt8)

def PinsHold (samplenum : Nat) (cond : Condition) : Prop :=
  ∀ term ∈ cond, term.type ≠ .skip →
    termHolds (pinsBefore stream start initial samplenum) (pinsAt stream samplenum) term = true

/-- A condition of a wait that was called at sample `call` holds at a sample. -/
def WaitHolds (call samplenum : Nat) (cond : Condition) : Prop :=
  PinsHold stream start initial samplenum cond ∧
    ∀ term ∈ cond, term.type = .skip → call + term.numSamplesToSkip ≤ samplenum

def BitsHold (call samplenum : Nat) (conds : List Condition) (bits : BitVec 64) : Prop :=
  ∀ bit, bits.getLsbD bit = true → ∃ j cond, conds[j]? = some cond ∧
    (condBit j).getLsbD bit = true ∧ cond ≠ [] ∧ WaitHolds stream start initial call samplenum cond

def waitConds (conds wait : List Condition) : List Condition :=
  if wait = [] then conds else wait

def ReportsHold : Nat → List Condition → List (List Condition) → List WaitReport → Prop
  | _, _, _, [] => True
  | _, _, [], _ :: _ => False
  | call, conds, wait :: waits, (samplenum, bits) :: reports =>
      call ≤ samplenum ∧ BitsHold stream start initial call samplenum (waitConds conds wait) bits ∧
        ReportsHold samplenum (waitConds conds wait) waits reports

def Apart (begun di : SrdDecoderInst) (cond : Condition) : Prop :=
  di.skipZero = false ∧ di.condMet cond = begun.condMet cond

/-- In a call of `find_match` no mark changes the verdict on another condition, and none is left for
a later wait. -/
def MarksApart (_call : Nat) (di : SrdDecoderInst) : Prop :=
  CallAll Apart di ∧ di.findMatch.2.skipZero = false

/-- In the first pass behind a match at sample `last` one condition leaves a mark and takes the
position back: it is met, the ones behind it have the same verdict there and leave no mark, and all
that are met hold there too. -/
structure MarksOnce (call last : Nat) (di : SrdDecoderInst) (before : List Condition)
    (marking : Condition) (after : List Condition) : Prop where
  list : di.conditionList = before ++ marking :: after
  unmarked : ∀ cond ∈ before, di.reachesZero cond = false
  marks : di.reachesZero marking = true
  met : di.condMet marking = true
  back : ∀ cond ∈ after, (di.seek last).reachesZero cond = false ∧
    (di.seek last).condMet cond = di.condMet cond
  holds : ∀ cond ∈ di.conditionList, di.condVerdict cond = true →
    WaitHolds stream start initial call last cond

/-- In the first pass of a call no zero skip counts, and the pins that the matcher remembers make no
condition met that does not hold. -/
structure StartsQuietly (di : SrdDecoderInst) : Prop where
  unmarked : di.absCurMatched = true →
    ∀ cond ∈ di.entered.conditionList, di.entered.reachesZero cond = false
  pins : ∀ cond ∈ di.entered.conditionList,
    di.entered.PinsMet cond → PinsHold stream start initial di.firstTested cond

/-- No zero skip counts in the first pass, or one does without harm. A list of `NULL` conditions
finds `match_array` empty. -/
def ZeroSkipsHarmless (call : Nat) (di : SrdDecoderInst) : Prop :=
  (di.haveNonNullConds = false → di.matchArray = 0) ∧
    (di.haveNonNullConds = true → di.firstTested < di.absEndSamplenum →
      StartsQuietly stream start initial di ∨ di.absCurMatched = true ∧ ∃ before marking after,
          MarksOnce stream start initial call di.absCurSamplenum di.entered before marking after)

end Capture

variable {stream : SampleStream} {start : Nat} {initial : Nat → UInt8}
variable {di : SrdDecoderInst} {call samplenum : Nat}

def CondCounts (call samplenum : Nat) (cond : Condition) : Prop :=
  ∀ term ∈ cond, term.type = .skip → call + term.numSamplesAlreadySkipped ≤ samplenum

def Counts (call samplenum : Nat) (conds : List Condition) : Prop :=
  ∀ cond ∈ conds, CondCounts call samplenum cond

theorem condCounts_tested {cond : Condition} (counts : CondCounts call samplenum cond) :
    CondCounts call (samplenum + 1) (di.tested cond) := by
  induction cond with
  | nil => exact nofun
  | cons term rest ih =>
      obtain ⟨own, others⟩ := forall_mem_cons.mp counts
      have later : CondCounts call (samplenum + 1) rest := fun other member isSkip =>
        Nat.le_succ_of_le (others other member isSkip)
      unfold tested
      split
      · refine forall_mem_cons.mpr ⟨fun isSkip => ?_, ih others⟩
        exact Nat.le_succ_of_le (own isSkip)
      · refine forall_mem_cons.mpr ⟨?_, later⟩
        unfold SrdTerm.counted
        split
        · exact fun isSkip => Nat.succ_le_succ (own isSkip)
        · exact fun isSkip => Nat.le_succ_of_le (own isSkip)

theorem condPass_forall {P Q : Condition → Prop}
    (step : ∀ (inst : SrdDecoderInst) (cond : Condition), P cond → Q (inst.tested cond))
    {conds : List Condition} (all : ∀ cond ∈ conds, P cond) (skipAllow allSkipAllow : Bool)
    (j : Nat) : ∀ cond ∈ (di.condPass skipAllow allSkipAllow j conds).conds, Q cond := by
  induction conds generalizing di skipAllow allSkipAllow j with
  | nil => exact nofun
  | cons cond rest ih =>
      obtain ⟨own, others⟩ := forall_mem_cons.mp all
      have terms := (@checkCond_done di skipAllow allSkipAllow j cond).terms
      refine forall_mem_cons.mpr ⟨?_, ih others _ _ _⟩
      rw [terms]
      exact step di cond own

theorem matchSample_forall {P Q : Condition → Prop}
    (step : ∀ (inst : SrdDecoderInst) (cond : Condition), P cond → Q (inst.tested cond))
    (all : ∀ cond ∈ di.conditionList, P cond) (skipAllow allSkipAllow : Bool) :
    ∀ cond ∈ (di.matchSample skipAllow allSkipAllow).di.conditionList, Q cond := by
  unfold matchSample
  dsimp only
  rw [updateOldPinsArray_eq]
  exact condPass_forall step all skipAllow allSkipAllow 0

theorem waitHolds_of_met {cond : Condition} (met : di.condMet cond = true)
    (counts : CondCounts call samplenum cond)
    (pins : di.PinsMet cond → PinsHold stream start initial samplenum cond) :
    WaitHolds stream start initial call samplenum cond := by
  obtain ⟨pinsMet, skips⟩ := condMet_iff_pins.mp met
  refine ⟨pins pinsMet, fun term member isSkip => ?_⟩
  rw [← skips term member isSkip]
  exact counts term member isSkip

theorem marksFrom_append (j : Nat) (first second : List Bool) : marksFrom j (first ++ second) =
      marksFrom j first ||| marksFrom (j + first.length) second := by
  induction first generalizing j with
  | nil => exact BitVec.zero_or.symm
  | cons verdict rest ih =>
      have position : j + 1 + rest.length = j + (verdict :: rest).length := by
        rw [length_cons]
        omega
      rw [cons_append, marksFrom, marksFrom, ih, position, BitVec.or_assoc]

theorem bitsHold_of_marks {conds : List Condition}
    (holds : ∀ cond ∈ conds, di.condVerdict cond = true →
      WaitHolds stream start initial call samplenum cond) :
    BitsHold stream start initial call samplenum conds
      (marksFrom 0 (conds.map di.condVerdict)) := by
  intro bit set
  obtain ⟨k, found, mask⟩ := marksFrom_getLsbD.mp set
  rw [getElem?_map, Option.map_eq_some_iff] at found
  obtain ⟨cond, here, verdict⟩ := found
  rw [Nat.zero_add] at mask
  have nonNull : cond ≠ [] := by
    unfold condVerdict at verdict
    rw [Bool.and_eq_true] at verdict
    exact bne_iff_ne.mp verdict.1
  exact ⟨k, cond, here, mask, nonNull, holds cond (mem_of_getElem? here) verdict⟩

theorem waitHolds_iff_parts (cond : Condition) :
    WaitHolds stream start initial call samplenum cond ↔
      ∀ part ∈ cond.map fun term => (term.type, term.channel, term.numSamplesToSkip),
        (part.1 ≠ SrdTermType.skip →
          termHolds (pinsBefore stream start initial samplenum) (pinsAt stream samplenum)
            ⟨part.1, part.2.1, part.2.2, 0⟩ = true) ∧
        (part.1 = SrdTermType.skip → call + part.2.2 ≤ samplenum) := by
  unfold WaitHolds PinsHold
  rw [forall_mem_map, ← forall₂_and]
  refine forall₂_congr fun term _ => and_congr_left fun _ => forall_congr' fun plain => ?_
  obtain ⟨type, channel, toSkip, skipped⟩ := term
  unfold termHolds
  cases type with
  | skip => exact absurd rfl plain
  | high => exact Iff.rfl
  | low => exact Iff.rfl
  | risingEdge => exact Iff.rfl
  | fallingEdge => exact Iff.rfl
  | eitherEdge => exact Iff.rfl
  | noEdge => exact Iff.rfl
  | unknown => exact Iff.rfl

theorem BitsHold.of_shapes {first second : List Condition} {bits : BitVec 64}
    (same : condShapes first = condShapes second)
    (hold : BitsHold stream start initial call samplenum first bits) :
    BitsHold stream start initial call samplenum second bits := by
  intro bit set
  obtain ⟨j, cond, here, mask, nonNull, holds⟩ := hold bit set
  have shape := congrArg (·[j]?) same
  unfold condShapes at shape
  rw [getElem?_map, getElem?_map, here, Option.map_some] at shape
  obtain ⟨other, found, parts⟩ := Option.map_eq_some_iff.mp shape.symm
  refine ⟨j, other, found, mask, fun null => ?_, ?_⟩
  · rw [null] at parts
    exact nonNull (map_eq_nil_iff.mp parts.symm)
  · rw [waitHolds_iff_parts] at holds ⊢
    rw [parts]
    exact holds

theorem passAll_quiet {begun : SrdDecoderInst} {conds : List Condition}
    (verdicts : ∀ cond ∈ conds, di.condMet cond = begun.condMet cond) (idle : di.skipZero = false)
    (quiet : di.Quiet conds) (skipAllow allSkipAllow : Bool) (j : Nat) :
    PassAll (Apart begun) di skipAllow allSkipAllow j conds := by
  induction conds generalizing di skipAllow allSkipAllow j with
  | nil => trivial
  | cons cond rest ih =>
      obtain ⟨own, others⟩ := forall_mem_cons.mp verdicts
      refine ⟨fun _ => ⟨idle, own⟩, ?_⟩
      have state := checkCond_quiet idle (quiet cond mem_cons_self) skipAllow allSkipAllow j
      have kept : (di.noteVerdict j (di.condVerdict cond)).termMet = di.termMet := rfl
      rw [state]
      refine @ih (di.noteVerdict j (di.condVerdict cond))
        (fun other member => (condMet_congr kept other).trans (others other member)) idle
        (fun other member => ?_) _ _ _
      have quietHere := quiet other (mem_cons_of_mem _ member)
      unfold marked at quietHere ⊢
      rw [reachesZero_congr kept]
      exact quietHere

theorem condPass_append (skipAllow allSkipAllow : Bool) (j : Nat) (first second : List Condition) :
    ∃ laterSkip laterAll, (di.condPass skipAllow allSkipAllow j (first ++ second)).di =
        ((di.condPass skipAllow allSkipAllow j first).di.condPass laterSkip laterAll
          (j + first.length) second).di ∧
      ∀ P, PassAll P di skipAllow allSkipAllow j first →
        PassAll P (di.condPass skipAllow allSkipAllow j first).di laterSkip laterAll
          (j + first.length) second →
        PassAll P di skipAllow allSkipAllow j (first ++ second) := by
  induction first generalizing di skipAllow allSkipAllow j with
  | nil => exact ⟨skipAllow, allSkipAllow, rfl, fun _ _ later => later⟩
  | cons cond rest ih =>
      obtain ⟨laterSkip, laterAll, state, all⟩ :=
        @ih (di.checkCond skipAllow allSkipAllow j cond).di
          (di.checkCond skipAllow allSkipAllow j cond).skipAllow
          (di.checkCond skipAllow allSkipAllow j cond).allSkipAllow (j + 1)
      have position : j + 1 + rest.length = j + (cond :: rest).length := by
        rw [length_cons]
        omega
      rw [position] at state all
      exact ⟨laterSkip, laterAll, state, fun P own later => ⟨own.1, all P own.2 later⟩⟩

structure PassHarmless (stream : SampleStream) (start : Nat) (initial : Nat → UInt8) (call : Nat)
    (di : SrdDecoderInst) (skipAllow allSkipAllow : Bool) : Prop where
  idle : (di.condPass skipAllow allSkipAllow 0 di.conditionList).di.skipZero = false
  marks : (di.condPass skipAllow allSkipAllow 0 di.conditionList).di.matchArray =
    marksFrom 0 (di.conditionList.map di.condVerdict)
  apart : PassAll (Apart di) di skipAllow allSkipAllow 0 di.conditionList
  holds : ∀ cond ∈ di.conditionList, di.condVerdict cond = true →
    WaitHolds stream start initial call
      (di.condPass skipAllow allSkipAllow 0 di.conditionList).di.absCurSamplenum cond

theorem condPass_quiet_harmless (idle : di.skipZero = false) (clear : di.matchArray = 0)
    (quiet : di.Quiet di.conditionList) (counts : Counts call di.absCurSamplenum di.conditionList)
    (pins : ∀ cond ∈ di.conditionList,
      di.PinsMet cond → PinsHold stream start initial di.absCurSamplenum cond)
    (skipAllow allSkipAllow : Bool) :
    PassHarmless stream start initial call di skipAllow allSkipAllow := by
  obtain ⟨-, state⟩ := condPass_quiet idle quiet skipAllow allSkipAllow 0
  have none : (0 : BitVec 64) ||| marksFrom 0 (di.conditionList.map di.condVerdict) =
      marksFrom 0 (di.conditionList.map di.condVerdict) := BitVec.zero_or
  constructor
  case idle =>
      rw [state]
      exact idle
  case marks =>
      rw [state]
      dsimp only
      rw [clear, none]
  case apart => exact passAll_quiet (fun _ _ => rfl) idle quiet skipAllow allSkipAllow 0
  case holds =>
      intro cond member verdict
      unfold condVerdict at verdict
      rw [Bool.and_eq_true] at verdict
      rw [state]
      exact waitHolds_of_met verdict.2 (counts cond member) (pins cond member)

def withMarks (di : SrdDecoderInst) (marks : BitVec 64) : SrdDecoderInst :=
  { di with matchArray := marks }

theorem checkCond_marking {last : Nat} {marking : Condition} (idle : di.skipZero = false)
    (matched : di.absCurMatched = true) (behind : decSamplenum di.absCurSamplenum = last)
    (marks : di.reachesZero marking = true) (met : di.condMet marking = true)
    (skipAllow allSkipAllow : Bool) (j : Nat) :
    (di.checkCond skipAllow allSkipAllow j marking).di =
      (di.seek last).withMarks (di.matchArray ||| condBit j) := by
  have some : marking ≠ [] := by
    rintro rfl
    cases marks
  have marked : di.marked marking = true := by
    unfold SrdDecoderInst.marked
    rw [matched, marks, Bool.and_true, Bool.or_true]
  have leaves : di.leaveCond marking =
      { di with absCurSamplenum := decSamplenum di.absCurSamplenum, skipZero := false } :=
    if_pos ⟨met, marked⟩
  rw [(@checkCond_done di skipAllow allSkipAllow j marking).met some met, leaves, behind, ← idle]
  rfl

/-- The bits of a pass in which condition `before.length` takes the position back. -/
theorem MarksOnce.marks_eq {last : Nat} {before : List Condition} {marking : Condition}
    {after : List Condition} {marks : BitVec 64}
    (once : MarksOnce stream start initial call last di before marking after) :
    marksFrom 0 (di.conditionList.map di.condVerdict) =
      (marksFrom 0 (before.map di.condVerdict) ||| condBit before.length) |||
        marksFrom (before.length + 1)
          (after.map ((di.seek last).withMarks marks).condVerdict) := by
  have same : ((di.seek last).withMarks marks).termMet = (di.seek last).termMet := rfl
  have verdicts : after.map ((di.seek last).withMarks marks).condVerdict =
      after.map di.condVerdict := by
    refine map_congr_left fun cond member => ?_
    unfold condVerdict
    rw [condMet_congr same, (once.back cond member).2]
  have verdict : di.condVerdict marking = true := by
    unfold condVerdict
    rw [once.met, Bool.and_true]
    refine bne_iff_ne.mpr ?_
    rintro rfl
    exact absurd once.marks Bool.false_ne_true
  rw [verdicts, once.list, map_append, marksFrom_append, map_cons, verdict, marksFrom,
    if_pos rfl, Nat.zero_add, length_map, BitVec.or_assoc]

theorem condPass_marking_harmless {last : Nat} {before : List Condition} {marking : Condition}
    {after : List Condition} (idle : di.skipZero = false) (clear : di.matchArray = 0)
    (matched : di.absCurMatched = true) (behind : decSamplenum di.absCurSamplenum = last)
    (once : MarksOnce stream start initial call last di before marking after)
    (skipAllow allSkipAllow : Bool) :
    PassHarmless stream start initial call di skipAllow allSkipAllow ∧
      (di.condPass skipAllow allSkipAllow 0 di.conditionList).di.absCurSamplenum = last := by
  have none : ∀ marks : BitVec 64, (0 : BitVec 64) ||| marks = marks := fun marks =>
    BitVec.zero_or
  have quietBefore : di.Quiet before := by
    intro cond member
    unfold marked
    rw [idle, once.unmarked cond member, Bool.and_false, Bool.or_false]
  obtain ⟨laterSkip, laterAll, split, apart⟩ :=
    @condPass_append di skipAllow allSkipAllow 0 before (marking :: after)
  rw [← once.list, Nat.zero_add] at split apart
  obtain ⟨-, first⟩ := condPass_quiet idle quietBefore skipAllow allSkipAllow 0
  rw [clear, none] at first
  -- The state in which the marking condition is checked, and the one that it leaves.
  let mid := di.withMarks (marksFrom 0 (before.map di.condVerdict))
  let back := (di.seek last).withMarks
    (marksFrom 0 (before.map di.condVerdict) ||| condBit before.length)
  have atMid : (di.condPass skipAllow allSkipAllow 0 before).di = mid := first
  have sameMid : mid.termMet = di.termMet := rfl
  have atBack : (mid.checkCond laterSkip laterAll before.length marking).di = back :=
    @checkCond_marking mid last marking idle matched behind
      ((reachesZero_congr sameMid marking).trans once.marks)
      ((condMet_congr sameMid marking).trans once.met) laterSkip laterAll before.length
  have idleBack : back.skipZero = false := idle
  have sameBack : back.termMet = (di.seek last).termMet := rfl
  have quietAfter : back.Quiet after := by
    intro cond member
    unfold marked
    rw [idleBack, reachesZero_congr sameBack, (once.back cond member).1, Bool.and_false,
      Bool.or_false]
  obtain ⟨-, rest⟩ := @condPass_quiet back after idle quietAfter
    (mid.checkCond laterSkip laterAll before.length marking).skipAllow
    (mid.checkCond laterSkip laterAll before.length marking).allSkipAllow (before.length + 1)
  have whole : (di.condPass skipAllow allSkipAllow 0 di.conditionList).di =
      (di.seek last).withMarks (marksFrom 0 (di.conditionList.map di.condVerdict)) := by
    rw [split, atMid, condPass]
    dsimp only
    rw [atBack, rest, once.marks_eq]
    rfl
  constructor
  · constructor
    case idle =>
        rw [whole]
        exact idle
    case marks =>
        rw [whole]
        rfl
    case apart =>
        refine apart _ (passAll_quiet (fun _ _ => rfl) idle quietBefore _ _ 0) ?_
        rw [atMid]
        refine ⟨fun _ => ⟨idle, condMet_congr sameMid marking⟩, ?_⟩
        rw [atBack]
        refine passAll_quiet (fun cond member => ?_) idleBack quietAfter _ _ _
        exact (condMet_congr sameBack cond).trans (once.back cond member).2
    case holds =>
        rw [whole]
        exact once.holds
  · rw [whole]
    rfl

def ChannelsIn (count : Nat) (conds : List Condition) : Prop :=
  ∀ cond ∈ conds, ∀ term ∈ cond, term.type ≠ .skip → term.channel < count

theorem channelsIn_of_shapes {count : Nat} {first second : List Condition}
    (same : condShapes first = condShapes second) (channels : ChannelsIn count first) :
    ChannelsIn count second := by
  have shapes : ∀ conds : List Condition, ChannelsIn count conds ↔
      ∀ parts ∈ condShapes conds, ∀ part ∈ parts,
        part.1 ≠ SrdTermType.skip → part.2.1 < count := by
    intro conds
    unfold ChannelsIn condShapes
    rw [forall_mem_map]
    refine forall₂_congr fun cond _ => ?_
    rw [forall_mem_map]
  rw [shapes] at channels ⊢
  rwa [← same]

theorem pinsHold_of_met {cond : Condition}
    (sees : ∀ ch, di.termSample ch = some (pinsAt stream samplenum ch))
    (remembers : ∀ term ∈ cond, term.type ≠ .skip →
      di.oldPin term.channel = pinsBefore stream start initial samplenum term.channel)
    (met : di.PinsMet cond) : PinsHold stream start initial samplenum cond := by
  intro term member plain
  have holds := met term member plain
  unfold termMet at holds
  rw [if_neg plain, sees, remembers term member plain] at holds
  exact holds

/-- The scan is at a sample behind the first that it tested, and no condition has been met. -/
structure Passing (stream : SampleStream) (call : Nat) (di : SrdDecoderInst) (samplenum : Nat)
    (inst : SrdDecoderInst) : Prop where
  frame : inst.frame = di.frame
  position : inst.absCurSamplenum = samplenum
  shapes : condShapes inst.conditionList = condShapes di.conditionList
  unmatched : inst.absCurMatched = false
  idle : inst.skipZero = false
  clear : inst.matchArray = 0
  remembers : ∀ ch < di.decNumChannels, inst.oldPin ch = pinsAt stream (samplenum - 1) ch
  bounded : ∀ cond ∈ inst.conditionList, Bounded cond
  counts : Counts call samplenum inst.conditionList

/-- What a call of `find_match` makes of a wait. -/
structure Told (stream : SampleStream) (start : Nat) (initial : Nat → UInt8) (call : Nat)
    (di : SrdDecoderInst) (result : Bool × SrdDecoderInst) : Prop where
  idle : result.2.skipZero = false
  bounded : ∀ cond ∈ result.2.conditionList, Bounded cond
  shapes : condShapes result.2.conditionList = condShapes di.conditionList
  found : result.1 = true → call ≤ result.2.absCurSamplenum ∧ di.InChunk result.2.absCurSamplenum ∧
    BitsHold stream start initial call result.2.absCurSamplenum di.conditionList result.2.matchArray
  again : result.1 = true → result.2.absCurMatched = false → result.2.haveNonNullConds = false
  usedUp : result.1 = false → result.2.absCurSamplenum = di.absEndSamplenum ∧
    (result.2.absCurMatched = false → Counts call di.absEndSamplenum result.2.conditionList)

variable {inst : SrdDecoderInst} {skipAllow allSkipAllow : Bool}

theorem matchSample_state : (inst.matchSample skipAllow allSkipAllow).di.skipZero =
        (inst.condPass skipAllow allSkipAllow 0 inst.conditionList).di.skipZero ∧
      (inst.matchSample skipAllow allSkipAllow).di.absCurSamplenum =
        (inst.condPass skipAllow allSkipAllow 0 inst.conditionList).di.absCurSamplenum ∧
      (inst.matchSample skipAllow allSkipAllow).di.matchArray =
        (inst.condPass skipAllow allSkipAllow 0 inst.conditionList).di.matchArray := by
  unfold matchSample
  dsimp only
  rw [updateOldPinsArray_eq]
  exact ⟨rfl, rfl, rfl⟩

theorem PassHarmless.told
    (harmless : PassHarmless stream start initial call inst skipAllow allSkipAllow)
    (shapes : condShapes inst.conditionList = condShapes di.conditionList)
    (bounded : ∀ cond ∈ inst.conditionList, Bounded cond)
    (called : call ≤ (inst.condPass skipAllow allSkipAllow 0 inst.conditionList).di.absCurSamplenum)
    (inside : di.InChunk
      (inst.condPass skipAllow allSkipAllow 0 inst.conditionList).di.absCurSamplenum)
    (matched : (inst.matchSample skipAllow allSkipAllow).di.absCurMatched = true) :
    Told stream start initial call di
      (true, (inst.matchSample skipAllow allSkipAllow).di) := by
  obtain ⟨flag, position, marks⟩ := @matchSample_state inst skipAllow allSkipAllow
  constructor
  case idle => exact flag.trans harmless.idle
  case bounded =>
      exact matchSample_forall (fun _ _ => tested_bounded) bounded skipAllow allSkipAllow
  case shapes => exact (matchSample_shapes inst skipAllow allSkipAllow).trans shapes
  case found =>
      intro _
      dsimp only
      rw [position, marks, harmless.marks]
      exact ⟨called, inside, (bitsHold_of_marks harmless.holds).of_shapes shapes⟩
  case again => exact fun _ unmatched => absurd (matched.symm.trans unmatched) nofun
  case usedUp => exact nofun

theorem PassHarmless.passes
    (harmless : PassHarmless stream start initial call inst skipAllow allSkipAllow)
    (idle : inst.skipZero = false) (quiet : inst.Quiet inst.conditionList)
    (frame : inst.frame = di.frame)
    (shapes : condShapes inst.conditionList = condShapes di.conditionList)
    (bounded : ∀ cond ∈ inst.conditionList, Bounded cond)
    (counts : Counts call samplenum inst.conditionList)
    (sees : ∀ ch, inst.termSample ch = some (pinsAt stream samplenum ch))
    (unmatched : (inst.matchSample skipAllow allSkipAllow).di.absCurMatched = false) :
    Passing stream call di (samplenum + 1)
      ((inst.matchSample skipAllow allSkipAllow).di.seek (samplenum + 1)) := by
  constructor
  case frame => exact (matchSample_frame inst skipAllow allSkipAllow).trans frame
  case position => rfl
  case shapes => exact (matchSample_shapes inst skipAllow allSkipAllow).trans shapes
  case unmatched => exact unmatched
  case idle => exact matchSample_state.1.trans harmless.idle
  case clear => exact (matchSample_no_match unmatched).1
  case remembers =>
      intro ch below
      have channels : inst.decNumChannels = di.decNumChannels := decNumChannels_of_frame frame
      have stored :
          ((inst.matchSample skipAllow allSkipAllow).di.seek (samplenum + 1)).oldPinsArray =
            some ((range inst.decNumChannels).map inst.oldPinSample) :=
        congrArg SrdDecoderInst.oldPinsArray (matchSample_quiet idle quiet skipAllow allSkipAllow)
      refine (oldPin_of_stored stored (channels ▸ below)).trans ?_
      rw [oldPinSample_eq_termSample, sees, Nat.add_sub_cancel]
      rfl
  case bounded =>
      exact matchSample_forall (fun _ _ => tested_bounded) bounded skipAllow allSkipAllow
  case counts =>
      exact matchSample_forall (fun _ _ => condCounts_tested) counts skipAllow allSkipAllow

theorem Passing.harmless (holds : di.HoldsStream stream)
    (channels : ChannelsIn di.decNumChannels di.conditionList)
    (passing : Passing stream call di samplenum inst) (behind : start < samplenum)
    (inside : di.InChunk samplenum) :
    inst.Quiet inst.conditionList ∧ (∀ ch, inst.termSample ch = some (pinsAt stream samplenum ch)) ∧
      PassHarmless stream start initial call inst false false := by
  have quiet : inst.Quiet inst.conditionList := by
    intro cond _
    unfold marked
    rw [passing.idle, passing.unmatched, Bool.false_and, Bool.or_false]
  have sees : ∀ ch, inst.termSample ch = some (pinsAt stream samplenum ch) := by
    have seen := (holdsStream_of_frame passing.frame holds).sees (by
      rw [passing.position, (sameChunk_of_frame passing.frame).inChunk_eq]
      exact inside)
    rwa [passing.position] at seen
  refine ⟨quiet, sees, ?_⟩
  refine condPass_quiet_harmless passing.idle passing.clear quiet ?_ ?_ false false
  · rw [passing.position]
    exact passing.counts
  · intro cond member
    rw [passing.position]
    refine pinsHold_of_met sees fun term inCond plain => ?_
    have below := channelsIn_of_shapes passing.shapes.symm channels cond member term inCond plain
    unfold pinsBefore
    rw [if_neg (Nat.ne_of_gt behind)]
    exact passing.remembers term.channel below

theorem Passing.scanSamples {count : Nat} (holds : di.HoldsStream stream)
    (channels : ChannelsIn di.decNumChannels di.conditionList)
    (passing : Passing stream call di samplenum inst) (behind : start < samplenum)
    (called : call ≤ samplenum) (lower : di.absStartSamplenum ≤ samplenum)
    (rest : samplenum + count = di.absEndSamplenum) :
    Told stream start initial call di (inst.scanSamples count) ∧ ScanAll Apart count inst := by
  induction count generalizing inst samplenum with
  | zero =>
      refine ⟨?_, trivial⟩
      constructor
      case idle => exact passing.idle
      case bounded => exact passing.bounded
      case shapes => exact passing.shapes
      case found => exact Bool.noConfusion
      case again => exact Bool.noConfusion
      case usedUp =>
          intro _
          rw [← rest]
          exact ⟨passing.position, fun _ => passing.counts⟩
  | succ count ih =>
      have inside : di.InChunk samplenum := ⟨lower, by omega⟩
      obtain ⟨quiet, sees, harmless⟩ :=
        @Passing.harmless stream start initial di call samplenum inst holds channels passing behind
          inside
      have stays : (inst.condPass false false 0 inst.conditionList).di.absCurSamplenum =
          samplenum := by
        obtain ⟨-, state⟩ := condPass_quiet passing.idle quiet false false 0
        rw [state]
        exact passing.position
      unfold SrdDecoderInst.scanSamples ScanAll
      dsimp only
      cases matched : (inst.matchSample false false).di.absCurMatched with
      | true =>
          rw [if_pos rfl]
          refine ⟨?_, harmless.apart, by simp⟩
          refine harmless.told passing.shapes passing.bounded ?_ ?_ matched
          · rw [stays]
            exact called
          · rw [stays]
            exact inside
      | false =>
          have next := harmless.passes passing.idle quiet passing.frame passing.shapes
            passing.bounded passing.counts sees matched
          have position := (matchSample_no_match matched).2.1.trans passing.position
          rw [if_neg Bool.false_ne_true, position]
          obtain ⟨told, apart⟩ := ih next (Nat.lt_succ_of_lt behind)
            (Nat.le_succ_of_le called) (Nat.le_succ_of_le lower) (by omega)
          exact ⟨told, harmless.apart, fun _ => apart⟩

structure Asked (stream : SampleStream) (start call : Nat) (di : SrdDecoderInst) : Prop where
  holds : di.HoldsStream stream
  begun : start ≤ di.absStartSamplenum
  atSample : di.AtSample
  called : call ≤ di.absCurSamplenum
  idle : di.skipZero = false
  bounded : ∀ cond ∈ di.conditionList, Bounded cond
  counts : di.absCurMatched = false → Counts call di.absCurSamplenum di.conditionList
  channels : ChannelsIn di.decNumChannels di.conditionList

theorem restartSkips_counts {conds : List Condition} (bounded : ∀ cond ∈ conds, Bounded cond)
    (called : call ≤ samplenum) :
    (∀ cond ∈ restartSkips conds, Bounded cond) ∧
      Counts call (samplenum + 1) (restartSkips conds) := by
  have each : ∀ cond ∈ restartSkips conds, ∀ term ∈ cond, term.type = SrdTermType.skip →
      term.numSamplesAlreadySkipped ≤ term.numSamplesToSkip ∧
        term.numSamplesAlreadySkipped ≤ 1 := by
    intro restarted member
    obtain ⟨cond, inList, rfl⟩ := mem_map.mp member
    intro restartedTerm inCond
    obtain ⟨term, inTerms, rfl⟩ := mem_map.mp inCond
    split
    · rename_i counts
      exact fun _ => ⟨counts.2, Nat.le_refl 1⟩
    · rename_i zero
      intro isSkip
      have bound := bounded cond inList term inTerms isSkip
      have none : ¬0 < term.numSamplesToSkip := fun positive => zero ⟨isSkip, positive⟩
      exact ⟨bound, by omega⟩
  constructor
  · exact fun cond member term inCond isSkip => (each cond member term inCond isSkip).1
  · intro cond member term inCond isSkip
    have few := (each cond member term inCond isSkip).2
    omega

structure Begins (call : Nat) (di : SrdDecoderInst) : Prop where
  idle : di.entered.skipZero = false
  bounded : ∀ cond ∈ di.entered.conditionList, Bounded cond
  counts : Counts call di.firstTested di.entered.conditionList
  called : call ≤ di.firstTested
  lower : di.absStartSamplenum ≤ di.firstTested
  upper : di.firstTested ≤ di.absEndSamplenum

theorem Asked.begins (asked : Asked stream start call di) : Begins call di := by
  obtain ⟨list, -, idle⟩ := entered_list di
  obtain ⟨lower, upper⟩ := firstTested_bounds asked.atSample
  have called := asked.called
  have whole : (∀ cond ∈ di.entered.conditionList, Bounded cond) ∧
      Counts call di.firstTested di.entered.conditionList ∧ call ≤ di.firstTested := by
    unfold firstTested
    rw [list]
    cases matched : di.absCurMatched with
    | true =>
        have next : incSamplenum di.absCurSamplenum = di.absCurSamplenum + 1 := by
          obtain ⟨⟨-, inside⟩, fits⟩ := asked.atSample
          exact if_neg (by omega)
        obtain ⟨bounded, counts⟩ := restartSkips_counts asked.bounded called
        rw [if_pos rfl, if_pos rfl, next]
        exact ⟨bounded, counts, Nat.le_succ_of_le called⟩
    | false =>
        rw [if_neg Bool.false_ne_true, if_neg Bool.false_ne_true]
        exact ⟨asked.bounded, asked.counts matched, called⟩
  obtain ⟨bounded, counts, behind⟩ := whole
  exact ⟨idle.trans asked.idle, bounded, counts, behind, lower, upper⟩

structure FirstDone (stream : SampleStream) (start : Nat) (initial : Nat → UInt8) (call : Nat)
    (di : SrdDecoderInst) : Prop where
  harmless : PassHarmless stream start initial call di.entered false true
  called : call ≤ (di.entered.condPass false true 0 di.entered.conditionList).di.absCurSamplenum
  inside : di.InChunk (di.entered.condPass false true 0 di.entered.conditionList).di.absCurSamplenum
  quiet : di.firstPass.di.absCurMatched = false → di.entered.Quiet di.entered.conditionList

section

variable (asked : Asked stream start call di)
include asked

theorem StartsQuietly.firstDone (inside : di.firstTested < di.absEndSamplenum)
    (starts : StartsQuietly stream start initial di) :
    FirstDone stream start initial call di := by
  have begins := asked.begins
  have position := entered_position di
  have quiet : di.entered.Quiet di.entered.conditionList := by
    intro cond member
    unfold marked
    rw [begins.idle, (entered_list di).2.1, Bool.false_or]
    cases matched : di.absCurMatched with
    | true => rw [starts.unmarked matched cond member, Bool.and_false]
    | false => rfl
  have stays : (di.entered.condPass false true 0 di.entered.conditionList).di.absCurSamplenum =
      di.firstTested := by
    obtain ⟨-, state⟩ := condPass_quiet begins.idle quiet false true 0
    rw [state]
    exact position
  constructor
  case harmless =>
      refine condPass_quiet_harmless begins.idle (entered_matchArray di) quiet ?_ ?_ false true
      · rw [position]
        exact begins.counts
      · rw [position]
        exact starts.pins
  case called =>
      rw [stays]
      exact begins.called
  case inside =>
      rw [stays]
      exact ⟨begins.lower, inside⟩
  case quiet => exact fun _ => quiet

theorem MarksOnce.firstDone {before : List Condition} {marking : Condition}
    {after : List Condition}
    (matched : di.absCurMatched = true)
    (once : MarksOnce stream start initial call di.absCurSamplenum di.entered before marking
      after) :
    FirstDone stream start initial call di := by
  obtain ⟨inside, fits⟩ := asked.atSample
  have next : incSamplenum di.absCurSamplenum = di.absCurSamplenum + 1 := by
    have below := inside.2
    exact if_neg (by omega)
  have behind : decSamplenum di.entered.absCurSamplenum = di.absCurSamplenum := by
    rw [entered_position, firstTested, if_pos matched, next]
    exact if_neg (Nat.succ_ne_zero _)
  obtain ⟨harmless, position⟩ := condPass_marking_harmless asked.begins.idle
    (entered_matchArray di) ((entered_list di).2.1.trans matched) behind once false true
  constructor
  case harmless => exact harmless
  case called =>
      rw [position]
      exact asked.called
  case inside =>
      rw [position]
      exact inside
  case quiet =>
      intro unmatched
      have failed := (matchSample_unmet unmatched).1 marking (by
        rw [once.list]
        exact mem_append_right _ mem_cons_self)
      unfold condVerdict at failed
      rw [once.met, Bool.and_true] at failed
      have null : marking = [] := by
        by_contra some
        exact Bool.false_ne_true (failed.symm.trans (bne_iff_ne.mpr some))
      have marks := once.marks
      rw [null] at marks
      cases marks

theorem FirstDone.passing (first : FirstDone stream start initial call di)
    (inside : di.firstTested < di.absEndSamplenum)
    (unmatched : di.firstPass.di.absCurMatched = false) :
    Passing stream call di (di.firstTested + 1) (di.firstPass.di.seek (di.firstTested + 1)) := by
  have begins := asked.begins
  have frame := entered_frame di
  have sees : ∀ ch, di.entered.termSample ch = some (pinsAt stream di.firstTested ch) := by
    have seen := (holdsStream_of_frame frame asked.holds).sees (by
      rw [entered_position, (sameChunk_of_frame frame).inChunk_eq]
      exact ⟨begins.lower, inside⟩)
    rwa [entered_position] at seen
  exact first.harmless.passes begins.idle (first.quiet unmatched) frame (entered_shapes di)
    begins.bounded begins.counts sees unmatched

theorem FirstDone.findMatch
    (first : FirstDone stream start initial call di) (conds : di.haveNonNullConds = true)
    (inside : di.firstTested < di.absEndSamplenum) :
    Told stream start initial call di di.findMatch ∧ CallAll Apart di := by
  have begins := asked.begins
  rw [findMatch_firstPass conds inside]
  cases matched : di.firstPass.di.absCurMatched with
  | true =>
      rw [if_pos rfl]
      refine ⟨?_, fun _ _ => ⟨first.harmless.apart, fun unmatched => ?_⟩⟩
      · exact first.harmless.told (entered_shapes di) begins.bounded first.called first.inside
          matched
      · exact absurd (matched.symm.trans unmatched) nofun
  | false =>
      have passing := first.passing asked inside matched
      have bounds : start < di.firstTested + 1 :=
        Nat.lt_succ_of_le (Nat.le_trans asked.begun begins.lower)
      obtain ⟨told, apart⟩ :=
        @Passing.scanSamples stream start initial di call _ _
          (di.absEndSamplenum - di.firstTested - 1) asked.holds asked.channels passing bounds
          (Nat.le_succ_of_le begins.called) (Nat.le_succ_of_le begins.lower) (by omega)
      refine ⟨?_, fun _ _ => ⟨first.harmless.apart, fun _ _ => apart⟩⟩
      rw [if_neg Bool.false_ne_true]
      split
      · constructor
        case idle => exact passing.idle
        case bounded => exact passing.bounded
        case shapes => exact passing.shapes
        case found => exact nofun
        case again => exact nofun
        case usedUp =>
            refine fun _ => ⟨rfl, fun _ cond member term inCond isSkip => ?_⟩
            have counted := passing.counts cond member term inCond isSkip
            omega
      · exact told

theorem Asked.findMatch (harmless : ZeroSkipsHarmless stream start initial call di) :
    Told stream start initial call di di.findMatch ∧ MarksApart call di := by
  have begins := asked.begins
  have both : Told stream start initial call di di.findMatch ∧ CallAll Apart di := by
    cases conds : di.haveNonNullConds with
    | true =>
        by_cases inside : di.firstTested < di.absEndSamplenum
        · rcases harmless.2 conds inside with starts | ⟨matched, before, marking, after, once⟩
          · exact (starts.firstDone asked inside).findMatch asked conds inside
          · exact (once.firstDone asked matched).findMatch asked conds inside
        · have done := Nat.le_of_not_lt inside
          have last : di.firstTested = di.absEndSamplenum := Nat.le_antisymm begins.upper done
          rw [findMatch_no_samples conds done]
          refine ⟨?_, fun _ within => absurd within inside⟩
          constructor
          case idle => exact begins.idle
          case bounded => exact begins.bounded
          case shapes => exact entered_shapes di
          case found => exact nofun
          case again => exact nofun
          case usedUp =>
              intro _
              rw [← last]
              exact ⟨entered_position di, fun _ => begins.counts⟩
    | false =>
        have result : di.findMatch = (true, di) := if_neg (by rw [conds]; exact Bool.false_ne_true)
        rw [result]
        refine ⟨?_, fun some => absurd (conds.symm.trans some) Bool.false_ne_true⟩
        constructor
        case idle => exact asked.idle
        case bounded => exact asked.bounded
        case shapes => rfl
        case found =>
            refine fun _ => ⟨asked.called, asked.atSample.inChunk, fun bit set => ?_⟩
            rw [harmless.1 conds] at set
            exact absurd set (getLsbD_no_bits bit)
        case again => exact fun _ _ => conds
        case usedUp => exact nofun
  exact ⟨both.1, both.2, both.1.idle⟩

end

end SrdDecoderInst

end SigrokDecode
