import SigrokDecode.Instance.Scan

/-!
# How far a scan goes

A sample without a match leaves the position alone, so a scan advances sample
by sample until it finds a match, jumps, or runs out of samples.  Without zero
skips a match does not move the position either.
-/

set_option linter.dupNamespace false

namespace SigrokDecode

open List

theorem condBit_ne_zero (j : Nat) : condBit j ≠ 0 := by
  have small : j % 32 < 32 := Nat.mod_lt _ (by decide)
  have bits : ∀ i : Fin 32, ((1 : BitVec 32) <<< i.val).signExtend 64 ≠ 0 := by decide
  exact bits ⟨j % 32, small⟩

namespace SrdDecoderInst

theorem allTermsLoop_scan (di : SrdDecoderInst) (skipAllow : Bool) (terms : Condition) :
    (di.allTermsLoop skipAllow terms).di.scan =
      { di.scan with
        skipZero := (di.allTermsLoop skipAllow terms).di.skipZero } := by
  induction terms generalizing di skipAllow with
  | nil => rfl
  | cons term rest ih =>
      simp only [allTermsLoop]
      split
      · dsimp only
        rw [ih]
        rfl
      · rfl

theorem allTermsMatch_matchArray (di : SrdDecoderInst) (skipAllow : Bool) (cond : Condition) :
    (di.allTermsMatch skipAllow cond).di.matchArray = di.matchArray := by
  have loop := congrArg ScanState.matchArray (allTermsLoop_scan di skipAllow cond)
  simp only [scan] at loop
  simp only [allTermsMatch]
  split
  · exact loop
  · exact loop

variable {di left right : SrdDecoderInst} {skipAllow allSkipAllow : Bool} {cond : Condition}
  {j count : Nat} {conds : List Condition}

theorem allTermsMatch_position_of_not_matched
    (failed : (di.allTermsMatch skipAllow cond).matched = false) :
    (di.allTermsMatch skipAllow cond).di.absCurSamplenum =
      di.absCurSamplenum := by
  have loop := congrArg ScanState.absCurSamplenum (allTermsLoop_scan di skipAllow cond)
  simp only [scan] at loop
  simp only [allTermsMatch] at failed ⊢
  split at failed
  · rename_i matched
    rw [matched.1] at failed
    cases failed
  · rename_i notMatched
    rw [if_neg notMatched]
    exact loop

theorem checkCond_no_match (none : (di.checkCond skipAllow allSkipAllow j cond).di.matchArray = 0) :
    di.matchArray = 0 ∧ (di.checkCond skipAllow allSkipAllow j cond).di.absCurSamplenum =
        di.absCurSamplenum := by
  simp only [checkCond] at none ⊢
  split at none
  · rename_i empty
    simp only [if_pos empty]
    exact ⟨none, trivial⟩
  · rename_i notEmpty
    split at none
    · exact absurd (BitVec.or_eq_zero_iff.mp none).2 (condBit_ne_zero j)
    · rename_i failed
      simp only [if_neg notEmpty, if_neg failed]
      exact ⟨(allTermsMatch_matchArray di skipAllow cond).symm.trans none,
        allTermsMatch_position_of_not_matched (by simpa using failed)⟩

theorem condPass_no_match (none : (di.condPass skipAllow allSkipAllow j conds).di.matchArray = 0) :
    di.matchArray = 0 ∧
      PassStays (· = di.absCurSamplenum) di skipAllow allSkipAllow j conds := by
  induction conds generalizing di skipAllow allSkipAllow j with
  | nil => exact ⟨none, rfl⟩
  | cons cond rest ih =>
      obtain ⟨checkNone, stays⟩ := ih none
      obtain ⟨before, position⟩ := checkCond_no_match checkNone
      rw [position] at stays
      exact ⟨before, rfl, stays⟩

theorem matchSample_no_match
    (none : (di.matchSample skipAllow allSkipAllow).di.absCurMatched = false) :
    (di.matchSample skipAllow allSkipAllow).di.matchArray = 0 ∧
      (di.matchSample skipAllow allSkipAllow).di.absCurSamplenum = di.absCurSamplenum ∧
      PassStays (· = di.absCurSamplenum) di skipAllow allSkipAllow 0
        di.conditionList := by
  simp only [matchSample, updateOldPinsArray_eq, bne_eq_false_iff_eq] at none ⊢
  obtain ⟨_, stays⟩ := condPass_no_match none
  exact ⟨none, stays.last, stays⟩

theorem PassStays.mono {inside wider : Nat → Prop}
    (stays : PassStays inside di skipAllow allSkipAllow j conds)
    (weaken : ∀ samplenum, inside samplenum → wider samplenum) :
    PassStays wider di skipAllow allSkipAllow j conds := by
  induction conds generalizing di skipAllow allSkipAllow j with
  | nil => exact weaken _ stays
  | cons cond rest ih =>
      exact ⟨weaken _ stays.1, ih stays.2⟩

theorem passStays_true (di : SrdDecoderInst) (skipAllow allSkipAllow : Bool)
    (j : Nat) (conds : List Condition) :
    PassStays (fun _ => True) di skipAllow allSkipAllow j conds := by
  induction conds generalizing di skipAllow allSkipAllow j with
  | nil => trivial
  | cons cond rest ih =>
      exact ⟨trivial, ih _ _ _ _⟩

theorem eq_of_scan_of_frame (state : left.scan = right.scan) (rest : left.frame = right.frame) :
    left = right := by
  cases left
  cases right
  simp_all [scan, frame]

theorem matchSample_di_eq (di : SrdDecoderInst) (leftSkip leftAll rightSkip rightAll : Bool) :
    (di.matchSample leftSkip leftAll).di =
      (di.matchSample rightSkip rightAll).di := by
  apply eq_of_scan_of_frame
  · exact (matchSample_congr rfl rfl (fun _ _ _ => rfl) rightSkip rightAll
      (passStays_true di leftSkip leftAll 0 di.conditionList)).1
  · rw [matchSample_frame, matchSample_frame]

theorem checkCond_allSkipAllow_false
    (di : SrdDecoderInst) (skipAllow : Bool) (j : Nat) (cond : Condition) :
    (di.checkCond skipAllow false j cond).allSkipAllow = false := by
  simp only [checkCond]
  split
  · rfl
  · split
    · rfl
    · rfl

theorem condPass_allSkipAllow_false
    (di : SrdDecoderInst) (skipAllow : Bool) (j : Nat) (conds : List Condition) :
    (di.condPass skipAllow false j conds).allSkipAllow = false := by
  induction conds generalizing di skipAllow j with
  | nil => rfl
  | cons cond rest ih =>
      simp only [condPass, checkCond_allSkipAllow_false]
      exact ih _ _ _

/-- The scan of `count` samples that looks at each of them. -/
def scanSamples : Nat → SrdDecoderInst → Bool × SrdDecoderInst
  | 0, di => (false, di)
  | count + 1, di =>
      let after := (di.matchSample false false).di
      if after.absCurMatched then
        (true, after)
      else
        scanSamples count (after.seek (after.absCurSamplenum + 1))

theorem scanSamples_frame (count : Nat) (di : SrdDecoderInst) :
    (di.scanSamples count).2.frame = di.frame := by
  induction count generalizing di with
  | zero => rfl
  | succ count ih =>
      have pass := matchSample_frame di false false
      simp only [scanSamples]
      split
      · exact pass
      · exact (ih _).trans pass

theorem scanSamples_add (first later : Nat) (di : SrdDecoderInst) : di.scanSamples (first + later) =
      if (di.scanSamples first).1 then
        di.scanSamples first
      else
        (di.scanSamples first).2.scanSamples later := by
  induction first generalizing di with
  | zero => simp [scanSamples]
  | succ first ih =>
      rw [Nat.add_right_comm]
      simp only [scanSamples]
      split
      · rfl
      · exact ih _

theorem scanSamples_not_found (none : (di.scanSamples count).1 = false) :
    (di.scanSamples count).2.absCurSamplenum = di.absCurSamplenum + count ∧ (0 < count →
        (di.scanSamples count).2.absCurMatched = false ∧
          (di.scanSamples count).2.matchArray = 0) := by
  induction count generalizing di with
  | zero => exact ⟨rfl, fun positive => absurd positive (Nat.lt_irrefl 0)⟩
  | succ count ih =>
      simp only [scanSamples] at none ⊢
      split at none
      · cases none
      · rename_i notMatched
        have notMatched' : (di.matchSample false false).di.absCurMatched = false := by
          simpa using notMatched
        obtain ⟨matches_, position, _⟩ := matchSample_no_match notMatched'
        rw [if_neg notMatched]
        obtain ⟨last, later⟩ := ih none
        constructor
        · rw [last, seek_absCurSamplenum, position]
          omega
        · intro _
          by_cases more : 0 < count
          · exact later more
          · have done : count = 0 := by omega
            subst done
            exact ⟨notMatched', matches_⟩

/-- Where the jump is forbidden, the outer loop of `find_match` reads the rest
of the chunk sample by sample. -/
theorem findMatchLoop_eq_scanSamples (skipAllow : Bool)
    (remaining : di.absEndSamplenum - di.absCurSamplenum = count) :
    di.findMatchLoop count skipAllow false = di.scanSamples count := by
  induction count generalizing di skipAllow with
  | zero => rfl
  | succ count ih =>
      have inside : di.absCurSamplenum < di.absEndSamplenum := by omega
      have noJump : (di.matchSample skipAllow false).allSkipAllow = false :=
        condPass_allSkipAllow_false di skipAllow 0 di.conditionList
      have same := matchSample_di_eq di skipAllow false false false
      simp only [findMatchLoop, scanSamples, if_pos inside, noJump, same]
      split
      · rfl
      · rename_i notMatched
        have position :=
          (matchSample_no_match (by simpa using notMatched)).2.1
        have stop := congrArg InstFrame.absEndSamplenum (matchSample_frame di false false)
        simp only [frame] at stop
        apply ih
        rw [seek_absEndSamplenum, seek_absCurSamplenum]
        omega

def NoZeroSkip (di : SrdDecoderInst) (terms : Condition) : Prop :=
  di.absCurMatched = true → ∀ term ∈ terms, term.type = .skip → term.numSamplesToSkip ≠ 0

theorem allTermsLoop_skipZero {terms : Condition} (skipAllow : Bool)
    (noZeroSkip : di.NoZeroSkip terms) :
    (di.allTermsLoop skipAllow terms).di.skipZero = di.skipZero := by
  induction terms generalizing di skipAllow with
  | nil => rfl
  | cons term rest ih =>
      have same : (di.termMatches term).skipZero = di.skipZero := by
        simp only [termMatches]
        split
        · rename_i isSkip
          have notZero : ¬ (di.absCurMatched = true ∧ term.numSamplesToSkip = 0) := by
            rintro ⟨matched, zero⟩
            exact noZeroSkip matched term mem_cons_self isSkip zero
          exact if_neg notZero
        · split
          · rfl
          · rfl
      simp only [allTermsLoop, same]
      split
      · apply ih
        intro matched later member
        exact noZeroSkip matched later (mem_cons_of_mem _ member)
      · rfl

/-- `after` is where `before` is, or one step back because an earlier zero skip
was waiting for a match. -/
structure StepsBackOnce (before after : SrdDecoderInst) : Prop where
  absCurMatched : after.absCurMatched = before.absCurMatched
  position : after.skipZero = before.skipZero ∧ after.absCurSamplenum = before.absCurSamplenum ∨
      before.skipZero = true ∧ after.skipZero = false ∧
        after.absCurSamplenum = decSamplenum before.absCurSamplenum

theorem allTermsMatch_position (skipAllow : Bool) (noZeroSkip : di.NoZeroSkip cond) :
    StepsBackOnce di (di.allTermsMatch skipAllow cond).di := by
  have skipping := allTermsLoop_skipZero skipAllow noZeroSkip
  have state := allTermsLoop_scan di skipAllow cond
  have matched := congrArg ScanState.absCurMatched state
  have position := congrArg ScanState.absCurSamplenum state
  simp only [scan] at matched position
  simp only [allTermsMatch]
  split
  · rename_i steps
    rw [skipping] at steps
    exact ⟨matched, Or.inr ⟨steps.2, rfl, congrArg decSamplenum position⟩⟩
  · exact ⟨matched, Or.inl ⟨skipping, position⟩⟩

theorem checkCond_position (skipAllow allSkipAllow : Bool) (j : Nat)
    (noZeroSkip : di.NoZeroSkip cond) :
    StepsBackOnce di (di.checkCond skipAllow allSkipAllow j cond).di := by
  obtain ⟨matched, position⟩ := allTermsMatch_position skipAllow noZeroSkip
  simp only [checkCond]
  split
  · exact ⟨rfl, Or.inl ⟨rfl, rfl⟩⟩
  · split
    · exact ⟨matched, position⟩
    · exact ⟨matched, position⟩

theorem passStays_of_no_zero_skip (skipAllow allSkipAllow : Bool) (j : Nat)
    (idle : di.skipZero = false)
    (noZeroSkips : ∀ cond ∈ conds, di.NoZeroSkip cond) :
    PassStays (· = di.absCurSamplenum) di skipAllow allSkipAllow j conds ∧
      (di.condPass skipAllow allSkipAllow j conds).di.skipZero = false := by
  induction conds generalizing di skipAllow allSkipAllow j with
  | nil => exact ⟨rfl, idle⟩
  | cons cond rest ih =>
      obtain ⟨matched, ⟨stillIdle, position⟩ | ⟨pending, _⟩⟩ :=
        checkCond_position skipAllow allSkipAllow j (noZeroSkips cond mem_cons_self)
      · obtain ⟨stays, after⟩ :=
          @ih (di.checkCond skipAllow allSkipAllow j cond).di
            (di.checkCond skipAllow allSkipAllow j cond).skipAllow
            (di.checkCond skipAllow allSkipAllow j cond).allSkipAllow (j + 1)
            (stillIdle.trans idle)
            (fun later member => by
              intro stillMatched
              rw [matched] at stillMatched
              exact noZeroSkips later (mem_cons_of_mem _ member) stillMatched)
        rw [position] at stays
        exact ⟨⟨rfl, stays⟩, after⟩
      · rw [idle] at pending
        cases pending

theorem passStays_of_not_matched (skipAllow allSkipAllow : Bool) (j : Nat) (conds : List Condition)
    (notMatched : di.absCurMatched = false) (positive : 0 < di.absCurSamplenum) :
    PassStays (fun samplenum =>
        di.absCurSamplenum - 1 ≤ samplenum ∧ samplenum ≤ di.absCurSamplenum)
      di skipAllow allSkipAllow j conds := by
  have noZeroSkip (inst : SrdDecoderInst) (calm : inst.absCurMatched = false)
      (terms : Condition) : inst.NoZeroSkip terms := by
    intro matched
    rw [calm] at matched
    cases matched
  induction conds generalizing di skipAllow allSkipAllow j with
  | nil => exact ⟨by omega, Nat.le_refl _⟩
  | cons cond rest ih =>
      refine ⟨⟨by omega, Nat.le_refl _⟩, ?_⟩
      obtain ⟨matched, ⟨_, position⟩ | ⟨_, idle, position⟩⟩ :=
        checkCond_position skipAllow allSkipAllow j (noZeroSkip di notMatched cond)
      · rw [← position]
        apply ih
        · exact matched.trans notMatched
        · omega
      · have calm := matched.trans notMatched
        have stays :=
          (passStays_of_no_zero_skip (di.checkCond skipAllow allSkipAllow j cond).skipAllow
            (di.checkCond skipAllow allSkipAllow j cond).allSkipAllow (j + 1)
            idle (fun later (_ : later ∈ rest) => noZeroSkip _ calm later)).1
        apply stays.mono
        intro samplenum here
        have back : decSamplenum di.absCurSamplenum = di.absCurSamplenum - 1 :=
          if_neg (by omega)
        omega

theorem scanSamples_congr
    {inside : Nat → Prop}
    (same : left.scan = right.scan)
    (channels : left.decChannelmap = right.decChannelmap)
    (samples : ∀ samplenum, inside samplenum → ∀ ch,
        left.sampleAt samplenum ch = right.sampleAt samplenum ch)
    (stays : 0 < count → PassStays inside left false false 0 left.conditionList)
    (range : ∀ samplenum, left.absCurSamplenum ≤ samplenum →
        samplenum < left.absCurSamplenum + count → inside samplenum) :
    (left.scanSamples count).1 = (right.scanSamples count).1 ∧
      (left.scanSamples count).2.scan = (right.scanSamples count).2.scan := by
  induction count generalizing left right with
  | zero => exact ⟨rfl, same⟩
  | succ count ih =>
      have pass :=
        (matchSample_congr same channels samples false false (stays (Nat.succ_pos count))).1
      have leftFrame := matchSample_frame left false false
      have rightFrame := matchSample_frame right false false
      have leftReads := sampleAt_eq_of_frame leftFrame
      have rightReads := sampleAt_eq_of_frame rightFrame
      have matched := congrArg ScanState.absCurMatched pass
      have position := congrArg ScanState.absCurSamplenum pass
      simp only [scan] at matched position
      simp only [scanSamples, matched]
      split
      · exact ⟨rfl, pass⟩
      · rename_i notMatched
        rw [← matched] at notMatched
        have calm : (left.matchSample false false).di.absCurMatched = false := by
          simpa using notMatched
        have here := (matchSample_no_match calm).2.1
        apply ih
        · rw [position]
          exact congrArg (fun state : ScanState =>
            { state with
              absCurSamplenum := (right.matchSample false false).di.absCurSamplenum + 1 }) pass
        · exact (congrArg InstFrame.decChannelmap leftFrame).trans
            (channels.trans (congrArg InstFrame.decChannelmap rightFrame).symm)
        · intro samplenum within ch
          exact (congrFun (congrFun leftReads samplenum) ch).trans
            ((samples samplenum within ch).trans (congrFun (congrFun rightReads samplenum) ch).symm)
        · intro positive
          have later :=
            @passStays_of_not_matched ((left.matchSample false false).di.seek
                ((left.matchSample false false).di.absCurSamplenum + 1))
              false false 0 (left.matchSample false false).di.conditionList
              calm (by simp)
          apply later.mono
          intro samplenum near
          rw [seek_absCurSamplenum, here] at near
          exact range samplenum (by omega) (by omega)
        · intro samplenum lower upper
          rw [seek_absCurSamplenum, here] at lower upper
          exact range samplenum (by omega) (by omega)

theorem primeScan_scan (di : SrdDecoderInst) : di.primeScan.scan =
      { di.scan with
        matchArray := 0
        oldPinsArray := di.primeScan.oldPinsArray
        firstPos := false } := by
  simp only [primeScan, updateOldPinsArrayInitialPins_eq]
  split
  · rfl
  · rename_i notFirst
    have later : di.firstPos = false := by simpa using notFirst
    simp only [scan, later]

theorem leaveMatch_position (di : SrdDecoderInst) : di.leaveMatch.absCurSamplenum =
      if di.absCurMatched then incSamplenum di.absCurSamplenum
      else di.absCurSamplenum := by
  simp only [leaveMatch]
  split
  · rfl
  · rfl

def firstTested (di : SrdDecoderInst) : Nat :=
  if di.absCurMatched then incSamplenum di.absCurSamplenum
  else di.absCurSamplenum

theorem primeScan_leaveMatch_position (di : SrdDecoderInst) :
    di.primeScan.leaveMatch.absCurSamplenum = di.firstTested := by
  have state := primeScan_scan di
  have matched := congrArg ScanState.absCurMatched state
  have position := congrArg ScanState.absCurSamplenum state
  simp only [scan] at matched position
  rw [leaveMatch_position, matched, position, firstTested]

/-- The outer loop of `find_match` returns without a match only at the end of
the chunk. -/
theorem findMatchLoop_not_found
    {fuel : Nat}
    (enough : di.absEndSamplenum - di.absCurSamplenum ≤ fuel)
    (none : (di.findMatchLoop fuel skipAllow allSkipAllow).1 = false) :
    di.absEndSamplenum ≤
      (di.findMatchLoop fuel skipAllow allSkipAllow).2.absCurSamplenum := by
  induction fuel generalizing di skipAllow allSkipAllow with
  | zero =>
      simp only [findMatchLoop]
      omega
  | succ fuel ih =>
      have stop := congrArg InstFrame.absEndSamplenum (matchSample_frame di skipAllow allSkipAllow)
      simp only [frame] at stop
      simp only [findMatchLoop] at none ⊢
      by_cases inside : di.absCurSamplenum < di.absEndSamplenum
      · rw [if_pos inside] at none ⊢
        split at none
        · cases none
        · rename_i notMatched
          have position :=
            (matchSample_no_match (by simpa using notMatched)).2.1
          rw [if_neg notMatched]
          split at none
          · rename_i jumps
            rw [if_pos jumps]
            have later := ih
              (by rw [seek_absEndSamplenum, seek_absCurSamplenum]; omega) none
            rw [seek_absEndSamplenum] at later
            exact Nat.le_trans (Nat.le_of_eq stop.symm) later
          · rename_i advances
            rw [if_neg advances]
            have later := ih
              (by rw [seek_absEndSamplenum, seek_absCurSamplenum]; omega) none
            rw [seek_absEndSamplenum] at later
            exact Nat.le_trans (Nat.le_of_eq stop.symm) later
      · rw [if_neg inside]
        exact Nat.le_of_not_lt inside

/-- One call of `find_match` uses up the chunk or finds a match, so the loop
of `process_samples_until_condition_match` never calls it again. -/
theorem processSamplesLoop_eq_findMatch (fuel : Nat) (di : SrdDecoderInst) :
    di.processSamplesLoop (fuel + 1) = di.findMatch := by
  simp only [processSamplesLoop]
  split
  · rfl
  · rename_i more
    split
    · rename_i found
      exact Prod.ext found.symm rfl
    · rename_i notFound
      refine absurd ?_ more
      have none : di.findMatch.1 = false := by simpa using notFound
      have stop := congrArg InstFrame.absEndSamplenum (findMatch_frame di)
      simp only [frame] at stop
      rw [stop]
      simp only [findMatch] at none ⊢
      split at none
      · rename_i conds
        rw [if_pos conds]
        have entered :=
          congrArg InstFrame.absEndSamplenum
            ((leaveMatch_frame di.primeScan).trans (primeScan_frame di))
        simp only [frame] at entered
        have last := findMatchLoop_not_found (Nat.le_refl _) none
        rw [entered] at last
        rw [entered]
        exact last
      · cases none

theorem condPass_firstPos (di : SrdDecoderInst) (skipAllow allSkipAllow : Bool)
    (j : Nat) (conds : List Condition) :
    (di.condPass skipAllow allSkipAllow j conds).di.firstPos = di.firstPos := by
  induction conds generalizing di skipAllow allSkipAllow j with
  | nil => rfl
  | cons cond rest ih =>
      have loop := congrArg ScanState.firstPos (allTermsLoop_scan di skipAllow cond)
      simp only [scan] at loop
      have check : (di.checkCond skipAllow allSkipAllow j cond).di.firstPos =
            di.firstPos := by
        have verdict : (di.allTermsMatch skipAllow cond).di.firstPos = di.firstPos := by
          simp only [allTermsMatch]
          split
          · exact loop
          · exact loop
        simp only [checkCond]
        split
        · rfl
        · split
          · exact verdict
          · exact verdict
      exact (ih _ _ _ _).trans check

theorem matchSample_firstPos (di : SrdDecoderInst) (skipAllow allSkipAllow : Bool) :
    (di.matchSample skipAllow allSkipAllow).di.firstPos = di.firstPos := by
  simp only [matchSample, updateOldPinsArray_eq]
  exact condPass_firstPos di skipAllow allSkipAllow 0 di.conditionList

theorem scanSamples_firstPos (count : Nat) (di : SrdDecoderInst) :
    (di.scanSamples count).2.firstPos = di.firstPos := by
  induction count generalizing di with
  | zero => rfl
  | succ count ih =>
      have pass := matchSample_firstPos di false false
      simp only [scanSamples]
      split
      · exact pass
      · exact (ih _).trans pass

theorem findMatchLoop_firstPos (fuel : Nat) (di : SrdDecoderInst) (skipAllow allSkipAllow : Bool) :
    (di.findMatchLoop fuel skipAllow allSkipAllow).2.firstPos = di.firstPos := by
  induction fuel generalizing di skipAllow allSkipAllow with
  | zero => rfl
  | succ fuel ih =>
      have pass := matchSample_firstPos di skipAllow allSkipAllow
      simp only [findMatchLoop]
      split
      · split
        · exact pass
        · split
          · exact (ih _ _ _).trans pass
          · exact (ih _ _ _).trans pass
      · rfl

def condShapes (conds : List Condition) : List (List (SrdTermType × Nat × Nat)) :=
  conds.map fun cond => cond.map fun term =>
    (term.type, term.channel, term.numSamplesToSkip)

theorem allTermsLoop_terms (di : SrdDecoderInst) (skipAllow : Bool) (terms : Condition) :
    condShapes [(di.allTermsLoop skipAllow terms).terms] = condShapes [terms] := by
  induction terms generalizing di skipAllow with
  | nil => rfl
  | cons term rest ih =>
      have same : ((di.termMatches term).term.type, (di.termMatches term).term.channel,
              (di.termMatches term).term.numSamplesToSkip) =
            (term.type, term.channel, term.numSamplesToSkip) := by
        have kept (old sample : UInt8) : ((sampleMatches old sample term).2.type,
                (sampleMatches old sample term).2.channel,
                (sampleMatches old sample term).2.numSamplesToSkip) =
              (term.type, term.channel, term.numSamplesToSkip) := by
          simp only [sampleMatches]
          split
          case h_7 =>
            split
            · rfl
            · rfl
          all_goals rfl
        simp only [termMatches]
        split
        · exact kept 0 0
        · split
          · rfl
          · exact kept _ _
      simp only [condShapes, map_cons, map_nil, List.cons.injEq, and_true] at ih ⊢
      simp only [allTermsLoop]
      split
      · simp only [map_cons, same, ih]
      · simp only [map_cons, same]

theorem condPass_conds (di : SrdDecoderInst) (skipAllow allSkipAllow : Bool)
    (j : Nat) (conds : List Condition) :
    condShapes (di.condPass skipAllow allSkipAllow j conds).conds =
      condShapes conds := by
  induction conds generalizing di skipAllow allSkipAllow j with
  | nil => rfl
  | cons cond rest ih =>
      have check : condShapes [(di.checkCond skipAllow allSkipAllow j cond).terms] =
            condShapes [cond] := by
        have loop := allTermsLoop_terms di skipAllow cond
        have verdict : (di.allTermsMatch skipAllow cond).terms =
              (di.allTermsLoop skipAllow cond).terms := by
          simp only [allTermsMatch]
          split
          · rfl
          · rfl
        simp only [checkCond]
        split
        · rfl
        · split
          · rw [verdict]
            exact loop
          · rw [verdict]
            exact loop
      have later := ih (di.checkCond skipAllow allSkipAllow j cond).di
        (di.checkCond skipAllow allSkipAllow j cond).skipAllow
        (di.checkCond skipAllow allSkipAllow j cond).allSkipAllow (j + 1)
      simp only [condShapes, map_cons, map_nil, List.cons.injEq, and_true] at check
      simp only [condShapes] at later
      simp only [condPass, condShapes, map_cons, check, later]

theorem restartSkips_shapes (conds : List Condition) :
    condShapes (restartSkips conds) = condShapes conds := by
  simp only [condShapes, restartSkips, map_map]
  apply map_congr_left
  intro cond _
  simp only [Function.comp_apply, map_map]
  apply map_congr_left
  intro term _
  simp only [Function.comp_apply]
  split
  · rfl
  · rfl

theorem matchSample_shapes (di : SrdDecoderInst) (skipAllow allSkipAllow : Bool) :
    condShapes (di.matchSample skipAllow allSkipAllow).di.conditionList =
      condShapes di.conditionList := by
  simp only [matchSample, updateOldPinsArray_eq]
  exact condPass_conds di skipAllow allSkipAllow 0 di.conditionList

theorem entered_shapes (di : SrdDecoderInst) : condShapes di.primeScan.leaveMatch.conditionList =
      condShapes di.conditionList := by
  have primed : di.primeScan.conditionList = di.conditionList :=
    congrArg ScanState.conditionList (primeScan_scan di)
  simp only [leaveMatch]
  split
  · rw [← primed]
    exact restartSkips_shapes _
  · rw [primed]

theorem scanSamples_shapes (count : Nat) (di : SrdDecoderInst) :
    condShapes (di.scanSamples count).2.conditionList =
      condShapes di.conditionList := by
  induction count generalizing di with
  | zero => rfl
  | succ count ih =>
      have pass := matchSample_shapes di false false
      simp only [scanSamples]
      split
      · exact pass
      · exact (ih _).trans pass

theorem haveNonNullConds_eq_of_shapes
    (same : condShapes left.conditionList = condShapes right.conditionList) :
    left.haveNonNullConds = right.haveNonNullConds := by
  have counted (di : SrdDecoderInst) :
      di.haveNonNullConds = (condShapes di.conditionList).any (· != []) := by
    simp only [haveNonNullConds, condShapes, any_map]
    congr 1
    funext cond
    cases cond <;> rfl
  rw [counted, counted, same]

/-- The instance as the outer loop of `find_match` finds it. -/
def entered (di : SrdDecoderInst) : SrdDecoderInst :=
  di.primeScan.leaveMatch

/-- The first pass of the outer loop of `find_match`. -/
def firstPass (di : SrdDecoderInst) : CondPass :=
  di.entered.matchSample false true

def FirstPassStays (di : SrdDecoderInst) : Prop :=
  PassStays di.InChunk di.entered false true 0 di.entered.conditionList

instance (di : SrdDecoderInst) : Decidable di.FirstPassStays :=
  decidablePassStays di.InChunk di.entered false true 0 di.entered.conditionList

theorem entered_frame (di : SrdDecoderInst) : di.entered.frame = di.frame :=
  (leaveMatch_frame di.primeScan).trans (primeScan_frame di)

theorem entered_position (di : SrdDecoderInst) : di.entered.absCurSamplenum = di.firstTested :=
  primeScan_leaveMatch_position di

theorem firstPass_position (notMatched : di.firstPass.di.absCurMatched = false) :
    di.firstPass.di.absCurSamplenum = di.firstTested :=
  (matchSample_no_match notMatched).2.1.trans (entered_position di)

theorem entered_matchArray (di : SrdDecoderInst) : di.entered.matchArray = 0 := by
  have cleared := congrArg ScanState.matchArray (primeScan_scan di)
  simp only [entered, leaveMatch]
  split
  · exact cleared
  · exact cleared

theorem entered_firstPos (di : SrdDecoderInst) : di.entered.firstPos = false := by
  have later := congrArg ScanState.firstPos (primeScan_scan di)
  simp only [entered, leaveMatch]
  split
  · exact later
  · exact later

/-- The conditions and the flags as the outer loop of `find_match` finds them. -/
theorem entered_list (di : SrdDecoderInst) : di.entered.conditionList =
        (if di.absCurMatched then restartSkips di.conditionList else di.conditionList) ∧
      di.entered.absCurMatched = di.absCurMatched ∧ di.entered.skipZero = di.skipZero := by
  have primed := primeScan_scan di
  have list : di.primeScan.conditionList = di.conditionList :=
    congrArg ScanState.conditionList primed
  have matched : di.primeScan.absCurMatched = di.absCurMatched :=
    congrArg ScanState.absCurMatched primed
  have idle : di.primeScan.skipZero = di.skipZero := congrArg ScanState.skipZero primed
  unfold entered leaveMatch
  rw [← matched]
  cases flag : di.primeScan.absCurMatched with
  | true =>
      rw [if_pos rfl, if_pos rfl]
      exact ⟨congrArg restartSkips list, rfl, idle⟩
  | false =>
      rw [if_neg Bool.false_ne_true, if_neg Bool.false_ne_true]
      exact ⟨list, flag, idle⟩

theorem findMatchLoop_at_end
    {fuel : Nat}
    (done : di.absEndSamplenum ≤ di.absCurSamplenum) :
    di.findMatchLoop fuel skipAllow allSkipAllow = (false, di) := by
  cases fuel with
  | zero => rfl
  | succ fuel =>
      simp only [findMatchLoop]
      exact if_neg (Nat.not_lt.mpr done)

/-- What `find_match` does after its first pass: it returns the match, jumps to
the end of the chunk, or reads the other samples one by one. -/
theorem findMatch_firstPass (conds : di.haveNonNullConds = true)
    (inside : di.firstTested < di.absEndSamplenum) :
    di.findMatch =
      if di.firstPass.di.absCurMatched then
        (true, di.firstPass.di)
      else if di.firstPass.allSkipAllow then
        (false, di.firstPass.di.seek di.absEndSamplenum)
      else
        (di.firstPass.di.seek (di.firstTested + 1)).scanSamples
          (di.absEndSamplenum - di.firstTested - 1) := by
  have stop := congrArg InstFrame.absEndSamplenum (entered_frame di)
  have passStop := congrArg InstFrame.absEndSamplenum (matchSample_frame di.entered false true)
  simp only [frame] at stop passStop
  have position := entered_position di
  have fuel : di.entered.absEndSamplenum - di.entered.absCurSamplenum =
        (di.absEndSamplenum - di.firstTested - 1) + 1 := by
    rw [stop, position]
    omega
  have loop : di.findMatch = di.entered.findMatchLoop
          (di.entered.absEndSamplenum - di.entered.absCurSamplenum)
          false true := if_pos conds
  have begins : di.entered.absCurSamplenum < di.entered.absEndSamplenum := by
    rw [stop, position]
    exact inside
  rw [loop, fuel, findMatchLoop, if_pos begins]
  change
    (if di.firstPass.di.absCurMatched then (true, di.firstPass.di)
      else if di.firstPass.allSkipAllow then _ else _) = _
  split
  · rfl
  · rename_i notMatched
    have calm : di.firstPass.di.absCurMatched = false := by simpa using notMatched
    have here : di.firstPass.di.absCurSamplenum = di.firstTested :=
      (matchSample_no_match calm).2.1.trans position
    have last : di.firstPass.di.absEndSamplenum = di.absEndSamplenum := passStop.trans stop
    split
    · change (di.firstPass.di.seek di.firstPass.di.absEndSamplenum).findMatchLoop
          _ _ _ = _
      rw [findMatchLoop_at_end (by simp), last]
    · rename_i noJump
      have forbidden : di.firstPass.allSkipAllow = false := by simpa using noJump
      change (di.firstPass.di.seek (di.firstPass.di.absCurSamplenum + 1)).findMatchLoop
          _ di.firstPass.skipAllow di.firstPass.allSkipAllow = _
      rw [forbidden, here, findMatchLoop_eq_scanSamples]
      rw [seek_absEndSamplenum, seek_absCurSamplenum, last]
      omega

/-- The position lies in the chunk, and sample numbers are 64-bit numbers. -/
structure AtSample (di : SrdDecoderInst) : Prop where
  inChunk : di.InChunk di.absCurSamplenum
  fits : di.absEndSamplenum < 2 ^ 64

theorem firstTested_bounds (atSample : di.AtSample) : di.absStartSamplenum ≤ di.firstTested ∧
      di.firstTested ≤ di.absEndSamplenum := by
  obtain ⟨⟨lower, upper⟩, fits⟩ := atSample
  have next : incSamplenum di.absCurSamplenum = di.absCurSamplenum + 1 :=
    if_neg (by omega)
  simp only [firstTested]
  split
  · omega
  · omega

theorem findMatch_no_samples (conds : di.haveNonNullConds = true)
    (done : di.absEndSamplenum ≤ di.firstTested) :
    di.findMatch = (false, di.entered) := by
  have stop := congrArg InstFrame.absEndSamplenum (entered_frame di)
  simp only [frame] at stop
  have loop : di.findMatch = di.entered.findMatchLoop
          (di.entered.absEndSamplenum - di.entered.absCurSamplenum)
          false true := if_pos conds
  rw [loop]
  apply findMatchLoop_at_end
  rw [stop, entered_position]
  exact done

/-- Where the first sample does not take the jump, one call of `find_match` reads the rest of the
chunk sample by sample. -/
theorem findMatch_eq_scanSamples_of_noJump (conds : di.haveNonNullConds = true)
    (noJump : di.firstTested < di.absEndSamplenum → di.firstPass.di.absCurMatched = false →
      di.firstPass.allSkipAllow = false) :
    di.findMatch = di.entered.scanSamples (di.absEndSamplenum - di.firstTested) := by
  by_cases inside : di.firstTested < di.absEndSamplenum
  · have count : di.absEndSamplenum - di.firstTested =
        (di.absEndSamplenum - di.firstTested - 1) + 1 := by omega
    have same : (di.entered.matchSample false false).di = di.firstPass.di :=
      matchSample_di_eq di.entered false false false true
    rw [findMatch_firstPass conds inside, count, scanSamples, same]
    cases matched : di.firstPass.di.absCurMatched with
    | true => rfl
    | false =>
        rw [if_neg Bool.false_ne_true, if_neg Bool.false_ne_true, noJump inside matched,
          if_neg Bool.false_ne_true, firstPass_position matched]
        rfl
  · have done := Nat.le_of_not_lt inside
    rw [findMatch_no_samples conds done, Nat.sub_eq_zero_of_le done]
    rfl

def ZeroSkipFree (conds : List Condition) : Prop :=
  ∀ cond ∈ conds, ∀ term ∈ cond, term.type = .skip → term.numSamplesToSkip ≠ 0

theorem zeroSkipFree_of_shapes {left right : List Condition}
    (same : condShapes left = condShapes right) (free : ZeroSkipFree right) :
    ZeroSkipFree left := by
  have shapes (conds : List Condition) : ZeroSkipFree conds ↔
        ∀ shape ∈ condShapes conds, ∀ part ∈ shape,
          part.1 = SrdTermType.skip → part.2.2 ≠ 0 := by
    constructor
    · intro free shape member part partMember isSkip
      obtain ⟨cond, condMember, rfl⟩ := mem_map.mp member
      obtain ⟨term, termMember, rfl⟩ := mem_map.mp partMember
      exact free cond condMember term termMember isSkip
    · intro free cond member term termMember isSkip
      exact free _ (mem_map_of_mem member) _ (mem_map_of_mem termMember) isSkip
  rw [shapes, same, ← shapes]
  exact free

structure Steady (di : SrdDecoderInst) : Prop where
  idle : di.skipZero = false
  free : ZeroSkipFree di.conditionList

theorem Steady.seek (steady : di.Steady) (samplenum : Nat) : (di.seek samplenum).Steady :=
  ⟨steady.idle, steady.free⟩

theorem matchSample_steady (steady : di.Steady) (skipAllow allSkipAllow : Bool) :
    (di.matchSample skipAllow allSkipAllow).di.Steady ∧
      (di.matchSample skipAllow allSkipAllow).di.absCurSamplenum =
        di.absCurSamplenum := by
  obtain ⟨stays, idle⟩ :=
    passStays_of_no_zero_skip skipAllow allSkipAllow 0 steady.idle
      (fun cond member _ => steady.free cond member)
  have position := stays.last
  refine ⟨⟨?_, ?_⟩, ?_⟩
  · simp only [matchSample, updateOldPinsArray_eq]
    exact idle
  · exact zeroSkipFree_of_shapes (matchSample_shapes di skipAllow allSkipAllow) steady.free
  · simp only [matchSample, updateOldPinsArray_eq]
    exact position

theorem entered_steady (steady : di.Steady) : di.entered.Steady := by
  obtain ⟨-, -, idle⟩ := entered_list di
  exact ⟨idle.trans steady.idle, zeroSkipFree_of_shapes (entered_shapes di) steady.free⟩

/-- Where a scan without zero skips ends: at a match inside the chunk, or at the
end of the chunk. -/
structure ScanEnds (before : SrdDecoderInst) (result : Bool × SrdDecoderInst) : Prop where
  steady : result.2.Steady
  found : result.1 = true → before.absCurSamplenum ≤ result.2.absCurSamplenum ∧
      result.2.absCurSamplenum < before.absEndSamplenum ∧
      result.2.absCurMatched = true
  usedUp : result.1 = false → result.2.absCurSamplenum = before.absEndSamplenum

theorem findMatchLoop_ends
    {fuel : Nat} {di : SrdDecoderInst} (steady : di.Steady)
    (skipAllow allSkipAllow : Bool)
    (inside : di.absCurSamplenum ≤ di.absEndSamplenum)
    (enough : di.absEndSamplenum - di.absCurSamplenum ≤ fuel) :
    ScanEnds di (di.findMatchLoop fuel skipAllow allSkipAllow) := by
  induction fuel generalizing di skipAllow allSkipAllow with
  | zero =>
      refine ⟨steady, fun found => absurd found Bool.false_ne_true, fun _ => ?_⟩
      simp only [findMatchLoop]
      omega
  | succ fuel ih =>
      obtain ⟨steadyAfter, position⟩ :=
        matchSample_steady steady skipAllow allSkipAllow
      have stop := congrArg InstFrame.absEndSamplenum (matchSample_frame di skipAllow allSkipAllow)
      simp only [frame] at stop
      simp only [findMatchLoop]
      split
      · rename_i more
        split
        · rename_i matched
          refine ⟨steadyAfter, fun _ => ⟨?_, ?_, matched⟩, fun none => Bool.noConfusion none⟩
          · exact Nat.le_of_eq position.symm
          · exact position ▸ more
        · split
          · have later :=
              @ih ((di.matchSample skipAllow allSkipAllow).di.seek
                  (di.matchSample skipAllow allSkipAllow).di.absEndSamplenum)
                (steadyAfter.seek _)
                (di.matchSample skipAllow allSkipAllow).skipAllow
                (di.matchSample skipAllow allSkipAllow).allSkipAllow
                (Nat.le_refl _) (by simp)
            refine ⟨later.steady, fun found => ?_, fun none => ?_⟩
            · have ends := later.found found
              rw [seek_absCurSamplenum, seek_absEndSamplenum] at ends
              omega
            · exact (later.usedUp none).trans stop
          · have later :=
              @ih ((di.matchSample skipAllow allSkipAllow).di.seek
                  ((di.matchSample skipAllow allSkipAllow).di.absCurSamplenum + 1))
                (steadyAfter.seek _)
                (di.matchSample skipAllow allSkipAllow).skipAllow
                (di.matchSample skipAllow allSkipAllow).allSkipAllow
                (by rw [seek_absCurSamplenum, seek_absEndSamplenum]; omega)
                (by rw [seek_absCurSamplenum, seek_absEndSamplenum]; omega)
            refine ⟨later.steady, fun found => ?_, fun none => ?_⟩
            · have ends := later.found found
              rw [seek_absCurSamplenum, seek_absEndSamplenum] at ends
              exact ⟨by omega, by omega, ends.2.2⟩
            · exact (later.usedUp none).trans stop
      · rename_i done
        refine ⟨steady, fun found => absurd found Bool.false_ne_true, fun _ => ?_⟩
        change di.absCurSamplenum = di.absEndSamplenum
        omega

/-- What one call of `find_match` on a chunk leaves behind, without zero
skips. -/
structure MatchEnds (before : SrdDecoderInst) (result : Bool × SrdDecoderInst) : Prop where
  steady : result.2.Steady
  found : result.1 = true → before.InChunk result.2.absCurSamplenum
  tested : result.1 = true → before.haveNonNullConds = true →
    before.firstTested ≤ result.2.absCurSamplenum ∧ result.2.absCurMatched = true
  untouched : before.haveNonNullConds = false → result = (true, before)
  usedUp : result.1 = false → result.2.absCurSamplenum = before.absEndSamplenum ∧
      result.2.firstPos = false

theorem findMatch_ends
    {di : SrdDecoderInst} (steady : di.Steady) (atSample : di.AtSample) :
    MatchEnds di di.findMatch := by
  by_cases conds : di.haveNonNullConds = true
  · obtain ⟨least, before⟩ := firstTested_bounds atSample
    have stop := congrArg InstFrame.absEndSamplenum (entered_frame di)
    simp only [frame] at stop
    have position := entered_position di
    have loop : di.findMatch = di.entered.findMatchLoop
            (di.entered.absEndSamplenum - di.entered.absCurSamplenum)
            false true := if_pos conds
    have ends :=
      findMatchLoop_ends (entered_steady steady) false true
        (by rw [stop, position]; exact before) (Nat.le_refl _)
    rw [← loop] at ends
    constructor
    case steady => exact ends.steady
    case found =>
        intro found
        have inside := ends.found found
        rw [position, stop] at inside
        exact ⟨by omega, by omega⟩
    case tested =>
        intro found _
        have inside := ends.found found
        rw [position] at inside
        exact ⟨inside.1, inside.2.2⟩
    case untouched =>
        intro none
        rw [conds] at none
        cases none
    case usedUp =>
        intro none
        refine ⟨(ends.usedUp none).trans stop, ?_⟩
        rw [loop, findMatchLoop_firstPos]
        exact entered_firstPos di
  · have result : di.findMatch = (true, di) := if_neg conds
    rw [result]
    refine ⟨steady, fun _ => atSample.inChunk, fun _ some => absurd some conds,
      fun _ => rfl, fun none => Bool.noConfusion none⟩

end SrdDecoderInst

end SigrokDecode
