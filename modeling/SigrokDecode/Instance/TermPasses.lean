import SigrokDecode.Instance.ScanProgress

/-!
# What a pass makes of each condition

The verdict of `all_terms_match` depends on the samples and on the skip counters of the condition,
not on the marks that zero skips leave.
-/

set_option linter.dupNamespace false

namespace SigrokDecode

open List

def SrdTerm.counted (term : SrdTerm) : SrdTerm :=
  if term.type = .skip ∧ term.numSamplesAlreadySkipped ≠ term.numSamplesToSkip then
    { term with numSamplesAlreadySkipped := term.numSamplesAlreadySkipped + 1 }
  else
    term

def SrdTerm.zeroSkip (term : SrdTerm) : Bool :=
  term.type = .skip ∧ term.numSamplesToSkip = 0

theorem sampleMatches_skip {term : SrdTerm} (isSkip : term.type = .skip) (old now : UInt8) :
    sampleMatches old now term =
      (decide (term.numSamplesAlreadySkipped = term.numSamplesToSkip), term.counted) := by
  unfold sampleMatches SrdTerm.counted
  rw [isSkip]
  dsimp only
  split
  · rename_i done
    rw [decide_eq_true done, if_neg fun both => both.2 done]
  · rename_i undone
    rw [decide_eq_false undone, if_pos ⟨rfl, undone⟩]

theorem sampleMatches_counted (old now : UInt8) (term : SrdTerm) :
    (sampleMatches old now term).2 = term.counted := by
  by_cases isSkip : term.type = .skip
  · rw [sampleMatches_skip isSkip]
  · have kept : term.counted = term := if_neg fun both => isSkip both.1
    rw [kept]
    unfold sampleMatches
    split
    all_goals first | rfl | skip
    rename_i skip
    exact absurd skip isSkip

namespace SrdDecoderInst

variable (di : SrdDecoderInst)

def termMet (term : SrdTerm) : Bool :=
  if term.type = .skip then
    decide (term.numSamplesAlreadySkipped = term.numSamplesToSkip)
  else
    match di.termSample term.channel with
    | none => false
    | some sample => (sampleMatches (di.oldPin term.channel) sample term).1

def condMet (cond : Condition) : Bool :=
  cond.all di.termMet

/-- A `NULL` condition is passed over. -/
def condVerdict (cond : Condition) : Bool :=
  cond != [] && di.condMet cond

/-- All terms on pins are met. -/
def PinsMet (cond : Condition) : Prop :=
  ∀ term ∈ cond, term.type ≠ .skip → di.termMet term = true

/-- The flag `skip_allow` as the term leaves it. -/
def termAllows (term : SrdTerm) : Bool :=
  if term.type = .skip then false else di.termSkipAllow term.channel

/-- What `all_terms_match` leaves of a condition. -/
def tested : Condition → Condition
  | [] => []
  | term :: rest => if di.termMet term then term :: tested rest else term.counted :: rest

/-- The loop of `all_terms_match` comes to a zero skip. -/
def reachesZero : Condition → Bool
  | [] => false
  | term :: rest => term.zeroSkip || (di.termMet term && reachesZero rest)

/-- The flag `skip_allow` of the term at which a condition fails. -/
def stopsFree (cond : Condition) : Bool :=
  (cond.find? fun term => !di.termMet term).any di.termAllows

/-- The flag `skip_zero` when all terms of the condition have been tried. -/
def marked (cond : Condition) : Bool :=
  di.skipZero || (di.absCurMatched && di.reachesZero cond)

variable {di}

theorem termMet_skip {term : SrdTerm} (isSkip : term.type = .skip) :
    di.termMet term = true ↔ term.numSamplesAlreadySkipped = term.numSamplesToSkip := by
  unfold termMet
  rw [if_pos isSkip, decide_eq_true_iff]

variable {cond : Condition} {skipAllow allSkipAllow : Bool}

theorem condMet_iff_pins : di.condMet cond = true ↔
      di.PinsMet cond ∧ ∀ term ∈ cond, term.type = .skip →
        term.numSamplesAlreadySkipped = term.numSamplesToSkip := by
  unfold condMet PinsMet
  rw [all_eq_true, ← forall₂_and]
  refine forall₂_congr fun term _ => ?_
  by_cases isSkip : term.type = .skip
  · rw [termMet_skip isSkip, forall_prop_of_true isSkip]
    exact (and_iff_right fun plain => absurd isSkip plain).symm
  · rw [forall_prop_of_true isSkip]
    exact (and_iff_left fun skips => absurd skips isSkip).symm

theorem counted_of_termMet {term : SrdTerm} (met : di.termMet term = true) :
    term.counted = term := by
  unfold SrdTerm.counted
  refine if_neg fun both => ?_
  unfold termMet at met
  rw [if_pos both.1] at met
  exact both.2 (of_decide_eq_true met)

variable (di) in
theorem termMatches_eq (term : SrdTerm) : di.termMatches term =
      ⟨di.termMet term, di.termAllows term, term.counted,
        di.skipZero || (di.absCurMatched && term.zeroSkip)⟩ := by
  unfold termMatches termMet termAllows
  by_cases isSkip : term.type = .skip
  · have zero : term.zeroSkip = decide (term.numSamplesToSkip = 0) := by
      unfold SrdTerm.zeroSkip
      exact decide_eq_decide.mpr (and_iff_right isSkip)
    rw [if_pos isSkip, if_pos isSkip, if_pos isSkip, sampleMatches_skip isSkip, zero]
    cases di.skipZero with
    | true => simp
    | false => simp
  · have zero : term.zeroSkip = false := decide_eq_false fun both => isSkip both.1
    have kept : term.counted = term := if_neg fun both => isSkip both.1
    rw [if_neg isSkip, if_neg isSkip, if_neg isSkip, zero, Bool.and_false, Bool.or_false]
    cases di.termSample term.channel with
    | none =>
        rw [kept]
    | some sample =>
        dsimp only
        rw [sampleMatches_counted]

section Congruence

variable {left right : SrdDecoderInst} (same : left.termMet = right.termMet)
include same

theorem condMet_congr (cond : Condition) : left.condMet cond = right.condMet cond := by
  unfold condMet
  rw [same]

theorem tested_congr (cond : Condition) : left.tested cond = right.tested cond := by
  induction cond with
  | nil => rfl
  | cons term rest ih => rw [tested, tested, same, ih]

theorem reachesZero_congr (cond : Condition) : left.reachesZero cond = right.reachesZero cond := by
  induction cond with
  | nil => rfl
  | cons term rest ih =>
      rw [reachesZero, reachesZero, same, ih]

theorem stopsFree_congr (allows : left.termAllows = right.termAllows) (cond : Condition) :
    left.stopsFree cond = right.stopsFree cond := by
  unfold stopsFree
  rw [same, allows]

end Congruence

/-! ## One condition -/

/-- What the loop of `all_terms_match` leaves behind. -/
structure TermsDone (di : SrdDecoderInst) (cond : Condition) (verdict : CondVerdict) : Prop where
  matched : verdict.matched = di.condMet cond
  terms : verdict.terms = di.tested cond
  skipAllow : di.condMet cond = false → verdict.skipAllow = di.stopsFree cond

theorem allTermsLoop_done (skipAllow : Bool) (cond : Condition) :
    TermsDone di cond (di.allTermsLoop skipAllow cond) ∧
      (di.allTermsLoop skipAllow cond).di = di.noteSkipZero (di.marked cond) := by
  induction cond generalizing di skipAllow with
  | nil =>
      refine ⟨⟨rfl, rfl, nofun⟩, ?_⟩
      unfold marked reachesZero
      rw [Bool.and_false, Bool.or_false]
      rfl
  | cons term rest ih =>
      unfold allTermsLoop
      rw [termMatches_eq]
      dsimp only
      have here : di.marked (term :: rest) =
          ((di.skipZero || (di.absCurMatched && term.zeroSkip)) ||
            (di.absCurMatched && (di.termMet term && di.reachesZero rest))) := by
        unfold marked
        rw [reachesZero, Bool.and_or_distrib_left, Bool.or_assoc]
      cases met : di.termMet term with
      | true =>
          obtain ⟨done, state⟩ := @ih
            (di.noteSkipZero (di.skipZero || (di.absCurMatched && term.zeroSkip)))
            (di.termAllows term)
          have others : di.condMet (term :: rest) = di.condMet rest := by
            unfold condMet
            rw [all_cons, met, Bool.true_and]
          have same :
              (di.noteSkipZero (di.skipZero || (di.absCurMatched && term.zeroSkip))).termMet =
                di.termMet := rfl
          have stops : di.stopsFree (term :: rest) = di.stopsFree rest := by
            unfold stopsFree
            rw [find?_cons_of_neg (by rw [met]; exact Bool.false_ne_true)]
          rw [if_pos rfl]
          refine ⟨⟨?_, ?_, fun failed => ?_⟩, ?_⟩
          · rw [others]
            exact done.matched
          · rw [tested, if_pos met, counted_of_termMet met]
            exact congrArg (term :: ·) (done.terms.trans (tested_congr same rest))
          · rw [others] at failed
            rw [stops]
            exact done.skipAllow failed
          · rw [here, met, Bool.true_and, ← reachesZero_congr same rest]
            exact state
      | false =>
          rw [if_neg Bool.false_ne_true]
          refine ⟨⟨?_, ?_, fun _ => ?_⟩, ?_⟩
          · unfold condMet
            rw [all_cons, met]
            rfl
          · rw [tested, if_neg (by rw [met]; exact Bool.false_ne_true)]
          · unfold stopsFree
            rw [find?_cons_of_pos (by rw [met]; rfl)]
            rfl
          · rw [here, met, Bool.false_and, Bool.and_false, Bool.or_false]

def leaveCond (di : SrdDecoderInst) (cond : Condition) : SrdDecoderInst :=
  if di.condMet cond = true ∧ di.marked cond = true then
    { di with absCurSamplenum := decSamplenum di.absCurSamplenum, skipZero := false }
  else
    di.noteSkipZero (di.marked cond)

theorem allTermsMatch_done (skipAllow : Bool) (cond : Condition) :
    TermsDone di cond (di.allTermsMatch skipAllow cond) ∧
      (di.allTermsMatch skipAllow cond).di = di.leaveCond cond := by
  obtain ⟨done, state⟩ := @allTermsLoop_done di skipAllow cond
  have flag : (di.allTermsLoop skipAllow cond).di.skipZero = di.marked cond :=
    congrArg SrdDecoderInst.skipZero state
  unfold allTermsMatch leaveCond
  dsimp only
  rw [flag]
  by_cases steps : di.condMet cond = true ∧ di.marked cond = true
  · have loopSteps : (di.allTermsLoop skipAllow cond).matched = true ∧ di.marked cond = true :=
      ⟨done.matched.trans steps.1, steps.2⟩
    rw [if_pos steps, if_pos loopSteps, state]
    exact ⟨{ done with }, rfl⟩
  · have loopStays : ¬((di.allTermsLoop skipAllow cond).matched = true ∧
        di.marked cond = true) := by
      rw [done.matched]
      exact steps
    rw [if_neg steps, if_neg loopStays]
    exact ⟨done, state⟩

/-- What the check of condition `j` leaves behind. -/
structure CheckDone (di : SrdDecoderInst) (allSkipAllow : Bool) (j : Nat) (cond : Condition)
    (check : CondCheck) : Prop where
  terms : check.terms = di.tested cond
  null : cond = [] → check.di = di ∧ check.allSkipAllow = allSkipAllow
  met : cond ≠ [] → di.condMet cond = true → check.di =
      { di.leaveCond cond with matchArray := (di.leaveCond cond).matchArray ||| condBit j }
  unmet : cond ≠ [] → di.condMet cond = false → check.di = di.noteSkipZero (di.marked cond) ∧
      check.allSkipAllow = (allSkipAllow && di.stopsFree cond)

theorem checkCond_done (skipAllow allSkipAllow : Bool) (j : Nat) (cond : Condition) :
    CheckDone di allSkipAllow j cond (di.checkCond skipAllow allSkipAllow j cond) := by
  obtain ⟨done, state⟩ := @allTermsMatch_done di skipAllow cond
  unfold checkCond
  by_cases null : cond = []
  · rw [if_pos null]
    exact ⟨by rw [null]; rfl, fun _ => ⟨rfl, rfl⟩, fun some => absurd null some,
      fun some => absurd null some⟩
  · rw [if_neg null]
    dsimp only
    rw [done.matched]
    cases met : di.condMet cond with
    | true =>
        rw [if_pos rfl]
        refine ⟨done.terms, fun none => absurd none null, fun _ _ => ?_, fun _ failed => ?_⟩
        · rw [state]
        · exact absurd (met.symm.trans failed) nofun
    | false =>
        rw [if_neg Bool.false_ne_true]
        refine ⟨done.terms, fun none => absurd none null, fun _ holds => ?_, fun _ _ => ⟨?_, ?_⟩⟩
        · exact absurd (met.symm.trans holds) nofun
        · refine state.trans ?_
          unfold leaveCond
          exact if_neg fun both => Bool.false_ne_true (met.symm.trans both.1)
        · rw [done.skipAllow met]

/-- The match bits of the conditions from `j` on. -/
def marksFrom (j : Nat) : List Bool → BitVec 64
  | [] => 0
  | verdict :: rest => (if verdict then condBit j else 0) ||| marksFrom (j + 1) rest

variable {j : Nat}

theorem marksFrom_eq_zero {verdicts : List Bool} :
    marksFrom j verdicts = 0 ↔ ∀ verdict ∈ verdicts, verdict = false := by
  induction verdicts generalizing j with
  | nil => exact iff_of_true rfl nofun
  | cons verdict rest ih =>
      rw [marksFrom, forall_mem_cons, ← ih]
      refine BitVec.or_eq_zero_iff.trans (and_congr_left fun _ => ?_)
      cases verdict with
      | true => exact iff_of_false (condBit_ne_zero j) nofun
      | false => exact iff_of_true rfl rfl

/-- No zero skip is pending, and none is going to count. -/
def Quiet (di : SrdDecoderInst) (conds : List Condition) : Prop :=
  ∀ cond ∈ conds, di.marked cond = false

theorem reachesZero_of_free (free : ∀ term ∈ cond, term.type = .skip → term.numSamplesToSkip ≠ 0) :
    di.reachesZero cond = false := by
  induction cond with
  | nil => rfl
  | cons term rest ih =>
      have own : term.zeroSkip = false := decide_eq_false fun both =>
        free term mem_cons_self both.1 both.2
      rw [reachesZero, own, ih fun other member =>
        free other (mem_cons_of_mem _ member), Bool.and_false, Bool.or_false]

/-- The instance with the match bit of condition `j`, if the condition is met. -/
def noteVerdict (di : SrdDecoderInst) (j : Nat) (verdict : Bool) : SrdDecoderInst :=
  { di with matchArray := di.matchArray ||| (if verdict then condBit j else 0) }

theorem noteVerdict_false (j : Nat) : di.noteVerdict j false = di := by
  have clear : di.matchArray ||| 0 = di.matchArray := BitVec.or_zero
  change { di with matchArray := di.matchArray ||| 0 } = di
  rw [clear]

theorem checkCond_quiet (idle : di.skipZero = false)
    (quiet : di.marked cond = false) (skipAllow allSkipAllow : Bool) (j : Nat) :
    (di.checkCond skipAllow allSkipAllow j cond).di = di.noteVerdict j (di.condVerdict cond) := by
  have check := @checkCond_done di skipAllow allSkipAllow j cond
  have calm : di.noteSkipZero (di.marked cond) = di := by
    rw [quiet, ← idle]
    rfl
  by_cases null : cond = []
  · have verdict : di.condVerdict cond = false := by
      rw [null]
      rfl
    rw [verdict, noteVerdict_false]
    exact (check.null null).1
  · have verdict : di.condVerdict cond = di.condMet cond := by
      unfold condVerdict
      rw [bne_iff_ne.mpr null, Bool.true_and]
    rw [verdict]
    cases met : di.condMet cond with
    | true =>
        have stays : di.leaveCond cond = di := by
          unfold leaveCond
          rw [if_neg fun both => Bool.false_ne_true (quiet.symm.trans both.2)]
          exact calm
        have state := check.met null met
        rwa [stays] at state
    | false =>
        rw [noteVerdict_false]
        exact (check.unmet null met).1.trans calm

theorem condPass_quiet {conds : List Condition} (idle : di.skipZero = false)
    (quiet : di.Quiet conds) (skipAllow allSkipAllow : Bool) (j : Nat) :
    (di.condPass skipAllow allSkipAllow j conds).conds = conds.map di.tested ∧
      (di.condPass skipAllow allSkipAllow j conds).di =
        { di with matchArray := di.matchArray ||| marksFrom j (conds.map di.condVerdict) } := by
  induction conds generalizing di skipAllow allSkipAllow j with
  | nil => exact ⟨rfl, (noteVerdict_false j).symm⟩
  | cons cond rest ih =>
      have state := checkCond_quiet idle (quiet cond mem_cons_self) skipAllow allSkipAllow j
      have terms := (@checkCond_done di skipAllow allSkipAllow j cond).terms
      have same : (di.noteVerdict j (di.condVerdict cond)).termMet = di.termMet := rfl
      have verdicts : (di.noteVerdict j (di.condVerdict cond)).condVerdict = di.condVerdict := rfl
      have later := @ih (di.noteVerdict j (di.condVerdict cond)) idle
        (fun other member => by
          have quietHere := quiet other (mem_cons_of_mem _ member)
          unfold marked at quietHere ⊢
          rw [reachesZero_congr same]
          exact quietHere)
        (di.checkCond skipAllow allSkipAllow j cond).skipAllow
        (di.checkCond skipAllow allSkipAllow j cond).allSkipAllow (j + 1)
      rw [← state] at later
      constructor
      · refine congrArg₂ List.cons terms (later.1.trans ?_)
        rw [state]
        exact map_congr_left fun other _ => tested_congr same other
      · refine later.2.trans ?_
        rw [state, verdicts]
        unfold noteVerdict
        rw [map_cons, marksFrom, ← BitVec.or_assoc]

theorem checkCond_unmet (none : (di.checkCond skipAllow allSkipAllow j cond).di.matchArray = 0) :
    di.condVerdict cond = false ∧
      (∃ mark, (di.checkCond skipAllow allSkipAllow j cond).di = di.noteSkipZero mark) ∧
      (di.checkCond skipAllow allSkipAllow j cond).allSkipAllow =
        (allSkipAllow && (decide (cond = []) || di.stopsFree cond)) := by
  have check := @checkCond_done di skipAllow allSkipAllow j cond
  by_cases null : cond = []
  · obtain ⟨state, flag⟩ := check.null null
    refine ⟨by rw [null]; rfl, ⟨di.skipZero, state⟩, ?_⟩
    rw [flag, decide_eq_true null, Bool.true_or, Bool.and_true]
  · cases met : di.condMet cond with
    | true =>
        rw [check.met null met] at none
        exact absurd (BitVec.or_eq_zero_iff.mp none).2 (condBit_ne_zero j)
    | false =>
        obtain ⟨state, flag⟩ := check.unmet null met
        refine ⟨?_, ⟨di.marked cond, state⟩, ?_⟩
        · unfold condVerdict
          rw [met, Bool.and_false]
        · rw [flag, decide_eq_false null, Bool.false_or]

theorem condPass_unmet {conds : List Condition}
    (none : (di.condPass skipAllow allSkipAllow j conds).di.matchArray = 0) :
    (∀ cond ∈ conds, di.condVerdict cond = false) ∧
      (di.condPass skipAllow allSkipAllow j conds).allSkipAllow =
        (allSkipAllow && conds.all fun cond => decide (cond = []) || di.stopsFree cond) := by
  induction conds generalizing di skipAllow allSkipAllow j with
  | nil => exact ⟨nofun, (Bool.and_true _).symm⟩
  | cons cond rest ih =>
      have clear := (@condPass_no_match (di.checkCond skipAllow allSkipAllow j cond).di _ _ _ _
        none).1
      obtain ⟨failed, ⟨mark, state⟩, flag⟩ := checkCond_unmet clear
      have same : (di.noteSkipZero mark).termMet = di.termMet := rfl
      have allows : (di.noteSkipZero mark).termAllows = di.termAllows := rfl
      have verdicts : (di.noteSkipZero mark).condVerdict = di.condVerdict := rfl
      have stops : (di.noteSkipZero mark).stopsFree = di.stopsFree :=
        funext fun other => stopsFree_congr same allows other
      obtain ⟨others, later⟩ := @ih _ _ _ _ none
      rw [state, verdicts] at others
      constructor
      · intro other member
        rcases mem_cons.mp member with rfl | inRest
        · exact failed
        · exact others other inRest
      · refine later.trans ?_
        rw [state, stops, flag, all_cons, Bool.and_assoc]

theorem matchSample_unmet
    (unmatched : (di.matchSample skipAllow allSkipAllow).di.absCurMatched = false) :
    (∀ cond ∈ di.conditionList, di.condVerdict cond = false) ∧
      (di.matchSample skipAllow allSkipAllow).allSkipAllow = (allSkipAllow &&
          di.conditionList.all fun cond => decide (cond = []) || di.stopsFree cond) := by
  have none := (matchSample_no_match unmatched).1
  unfold matchSample at none
  dsimp only at none
  rw [updateOldPinsArray_eq] at none
  exact condPass_unmet none

/-- What one iteration of the outer loop of `find_match` leaves behind in which no zero skip
counts. -/
theorem matchSample_quiet (idle : di.skipZero = false) (quiet : di.Quiet di.conditionList)
    (skipAllow allSkipAllow : Bool) :
    (di.matchSample skipAllow allSkipAllow).di =
      { di with
        conditionList := di.conditionList.map di.tested
        oldPinsArray := some ((range di.decNumChannels).map di.oldPinSample)
        matchArray := di.matchArray ||| marksFrom 0 (di.conditionList.map di.condVerdict)
        absCurMatched :=
          di.matchArray ||| marksFrom 0 (di.conditionList.map di.condVerdict) != 0 } := by
  obtain ⟨list, state⟩ := condPass_quiet idle quiet skipAllow allSkipAllow 0
  unfold matchSample
  dsimp only
  rw [updateOldPinsArray_eq, state, list]
  rfl

theorem matchSample_quiet_matched (idle : di.skipZero = false)
    (quiet : di.Quiet di.conditionList) (clear : di.matchArray = 0)
    (skipAllow allSkipAllow : Bool) :
    (di.matchSample skipAllow allSkipAllow).di.absCurMatched = true ↔
      ∃ cond ∈ di.conditionList, di.condVerdict cond = true := by
  have none : (0 : BitVec 64) ||| marksFrom 0 (di.conditionList.map di.condVerdict) =
      marksFrom 0 (di.conditionList.map di.condVerdict) := BitVec.zero_or
  have flag := congrArg SrdDecoderInst.absCurMatched
    (matchSample_quiet idle quiet skipAllow allSkipAllow)
  dsimp only at flag
  rw [flag, clear, none, bne_iff_ne, ne_eq, marksFrom_eq_zero]
  simp

theorem oldPin_of_stored {after : SrdDecoderInst} {count : Nat} {values : Nat → UInt8}
    (stored : after.oldPinsArray = some ((range count).map values)) {ch : Nat}
    (below : ch < count) : after.oldPin ch = values ch := by
  unfold oldPin
  rw [stored]
  simp [getD_eq_getElem?_getD, below]

end SrdDecoderInst

end SigrokDecode
