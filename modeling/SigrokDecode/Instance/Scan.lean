import SigrokDecode.Instance.PinAgreement
import SigrokDecode.Instance.Matcher

/-!
# What a scan reads and what it changes

`find_match` and the functions below it change only the scan state of an
instance, and read the chunk only through the samples of the terms.  Both facts
are proved once here, from the single term up to the whole scan.
-/

set_option linter.dupNamespace false

namespace SigrokDecode

/-- The fields of an instance that the matcher updates. -/
structure ScanState where
  conditionList : List Condition
  matchArray : BitVec 64
  absCurSamplenum : Nat
  absCurMatched : Bool
  oldPinsArray : Option (List UInt8)
  firstPos : Bool
  skipZero : Bool

/-- The fields of an instance that the matcher leaves alone: the chunk, the
flags of the hand-off and the pin cache. -/
structure InstFrame where
  decChannelmap : List Int
  absStartSamplenum : Nat
  absEndSamplenum : Nat
  inbuf : Option (List (Option (List UInt8)))
  inbufConst : Option (List UInt8)
  inbuflen : Nat
  gotNewSamples : Bool
  handledAllSamples : Bool
  wantWaitTerminate : Bool
  cPinCache : Option (List UInt8)
  cPinCacheSamplenum : Nat
  readSample : Option (Nat → Nat → UInt8)

namespace SrdDecoderInst

def scan (di : SrdDecoderInst) : ScanState :=
  { conditionList := di.conditionList
    matchArray := di.matchArray
    absCurSamplenum := di.absCurSamplenum
    absCurMatched := di.absCurMatched
    oldPinsArray := di.oldPinsArray
    firstPos := di.firstPos
    skipZero := di.skipZero }

/-- The fields around the scan state. -/
def frame (di : SrdDecoderInst) : InstFrame :=
  { decChannelmap := di.decChannelmap
    absStartSamplenum := di.absStartSamplenum
    absEndSamplenum := di.absEndSamplenum
    inbuf := di.inbuf
    inbufConst := di.inbufConst
    inbuflen := di.inbuflen
    gotNewSamples := di.gotNewSamples
    handledAllSamples := di.handledAllSamples
    wantWaitTerminate := di.wantWaitTerminate
    cPinCache := di.cPinCache
    cPinCacheSamplenum := di.cPinCacheSamplenum
    readSample := di.readSample }

variable (di : SrdDecoderInst)

theorem allTermsLoop_frame (skipAllow : Bool) (terms : Condition) :
    (di.allTermsLoop skipAllow terms).di.frame = di.frame := by
  induction terms generalizing di skipAllow with
  | nil => rfl
  | cons term rest ih =>
      simp only [allTermsLoop]
      split
      · dsimp only
        rw [ih]
        rfl
      · rfl

theorem allTermsMatch_frame (skipAllow : Bool) (cond : Condition) :
    (di.allTermsMatch skipAllow cond).di.frame = di.frame := by
  have loop := allTermsLoop_frame di skipAllow cond
  simp only [allTermsMatch]
  split
  · simpa only [frame] using loop
  · exact loop

theorem checkCond_frame (skipAllow allSkipAllow : Bool) (j : Nat) (cond : Condition) :
    (di.checkCond skipAllow allSkipAllow j cond).di.frame = di.frame := by
  have verdict := allTermsMatch_frame di skipAllow cond
  simp only [checkCond]
  split
  · rfl
  · split
    · simpa only [frame] using verdict
    · exact verdict

theorem condPass_frame (skipAllow allSkipAllow : Bool) (j : Nat) (conds : List Condition) :
    (di.condPass skipAllow allSkipAllow j conds).di.frame = di.frame := by
  induction conds generalizing di skipAllow allSkipAllow j with
  | nil => rfl
  | cons cond rest ih =>
      have check := checkCond_frame di skipAllow allSkipAllow j cond
      exact (ih _ _ _ _).trans check

theorem oldpinsArraySeed_eq : di.oldpinsArraySeed =
      { di with
        oldPinsArray :=
          some (di.oldPinsArray.getD
            (List.replicate di.decNumChannels srdInitialPinSameAsSample0)) } := by
  rcases di with ⟨_, _, _, _, _, _, _, _, _, _, pins, _, _, _, _, _, _, _, _⟩
  cases pins <;> rfl

theorem updateOldPinsArray_eq : di.updateOldPinsArray =
      { di with
        oldPinsArray :=
          some ((List.range di.decNumChannels).map di.oldPinSample) } := by
  rw [updateOldPinsArray, oldpinsArraySeed_eq]

/-- The old pins with the unknown ones replaced by the current sample. -/
def initialPinValues (count : Nat) (pins : Option (List UInt8))
    (sample : Nat → UInt8) : List UInt8 :=
  let seeded := pins.getD (List.replicate count srdInitialPinSameAsSample0)
  (List.range count).map fun i =>
    if seeded.getD i 0 = srdInitialPinSameAsSample0 then sample i
    else seeded.getD i 0

theorem updateOldPinsArrayInitialPins_eq (di : SrdDecoderInst) : di.updateOldPinsArrayInitialPins =
      { di with
        oldPinsArray :=
          some (initialPinValues di.decNumChannels di.oldPinsArray
            di.oldPinSample) } := by
  rw [updateOldPinsArrayInitialPins, oldpinsArraySeed_eq]
  rfl

theorem updateOldPinsArrayInitialPins_frame (di : SrdDecoderInst) :
    di.updateOldPinsArrayInitialPins.frame = di.frame := by
  rw [updateOldPinsArrayInitialPins_eq]
  rfl

theorem matchSample_frame (di : SrdDecoderInst) (skipAllow allSkipAllow : Bool) :
    (di.matchSample skipAllow allSkipAllow).di.frame = di.frame := by
  have pass := condPass_frame di skipAllow allSkipAllow 0 di.conditionList
  rw [matchSample, updateOldPinsArray_eq]
  exact pass

theorem findMatchLoop_frame (fuel : Nat) (di : SrdDecoderInst) (skipAllow allSkipAllow : Bool) :
    (di.findMatchLoop fuel skipAllow allSkipAllow).2.frame = di.frame := by
  induction fuel generalizing di skipAllow allSkipAllow with
  | zero => rfl
  | succ fuel ih =>
      have pass := matchSample_frame di skipAllow allSkipAllow
      simp only [findMatchLoop]
      split
      · split
        · exact pass
        · split
          · exact (ih _ _ _).trans pass
          · exact (ih _ _ _).trans pass
      · rfl

theorem primeScan_frame (di : SrdDecoderInst) : di.primeScan.frame = di.frame := by
  simp only [primeScan]
  split
  · exact updateOldPinsArrayInitialPins_frame _
  · rfl

theorem leaveMatch_frame (di : SrdDecoderInst) : di.leaveMatch.frame = di.frame := by
  simp only [leaveMatch]
  split
  · rfl
  · rfl

theorem findMatch_frame (di : SrdDecoderInst) : di.findMatch.2.frame = di.frame := by
  simp only [findMatch]
  split
  · rw [findMatchLoop_frame, leaveMatch_frame, primeScan_frame]
  · rfl

/-! ## The samples of a scan -/

/-- The sample the matcher reads on a channel when it is at a position. -/
def sampleAt (di : SrdDecoderInst) (samplenum ch : Nat) : Option UInt8 :=
  (di.seek samplenum).termSample ch

theorem sampleAt_eq_of_frame
    {left right : SrdDecoderInst} (same : left.frame = right.frame) :
    left.sampleAt = right.sampleAt := by
  simp only [frame, InstFrame.mk.injEq] at same
  obtain ⟨_, start, stop, buffers, constants, _, _, _, _, _, _, reader⟩ := same
  funext samplenum ch
  simp only [sampleAt, termSample, seek, inbufAt, inbufConstAt, start, stop,
    buffers, constants, reader]
  rfl

theorem oldPinSample_eq_termSample (di : SrdDecoderInst) (ch : Nat) :
    di.oldPinSample ch = (di.termSample ch).getD 0 := by
  simp only [oldPinSample, termSample, inbufAt, inbufConstAt]
  cases di.readSample with
  | some readSample => rfl
  | none =>
      cases di.inbuf.bind fun buffers => buffers.getD ch none with
      | none => rfl
      | some buffer =>
          dsimp only
          by_cases outside : di.absCurSamplenum < di.absStartSamplenum ∨
                di.absEndSamplenum ≤ di.absCurSamplenum
          · simp only [if_pos outside]
            rfl
          · simp only [if_neg outside]
            rfl

/-- What a term verdict says apart from `skip_allow`. -/
def TermVerdict.outcome (verdict : TermVerdict) : Bool × SrdTerm × Bool :=
  (verdict.matched, verdict.term, verdict.skipZero)

/-- What a condition verdict says apart from `skip_allow`. -/
def CondVerdict.outcome (verdict : CondVerdict) : Bool × Condition × ScanState :=
  (verdict.matched, verdict.terms, verdict.di.scan)

def CondCheck.outcome (check : CondCheck) : Condition × ScanState :=
  (check.terms, check.di.scan)

/-- What a pass says apart from the two skip flags. -/
def CondPass.outcome (pass : CondPass) : List Condition × ScanState :=
  (pass.conds, pass.di.scan)

section Congruence

variable {left right : SrdDecoderInst}

theorem termMatches_congr (same : left.scan = right.scan) (samples :
      ∀ ch, left.sampleAt left.absCurSamplenum ch = right.sampleAt left.absCurSamplenum ch)
    (term : SrdTerm) :
    (left.termMatches term).outcome = (right.termMatches term).outcome := by
  have position : left.absCurSamplenum = right.absCurSamplenum :=
    congrArg ScanState.absCurSamplenum same
  have matched : left.absCurMatched = right.absCurMatched := congrArg ScanState.absCurMatched same
  have skipping : left.skipZero = right.skipZero := congrArg ScanState.skipZero same
  have pins : left.oldPinsArray = right.oldPinsArray := congrArg ScanState.oldPinsArray same
  have sample : left.termSample term.channel = right.termSample term.channel := by
    have here : right.sampleAt left.absCurSamplenum term.channel =
          right.termSample term.channel := by
      rw [position]
      rfl
    exact (samples term.channel).trans here
  simp only [termMatches, oldPin, sample, matched, skipping, pins]
  split
  · rfl
  · split
    · rfl
    · rfl

theorem allTermsLoop_congr (same : left.scan = right.scan) (samples :
      ∀ ch, left.sampleAt left.absCurSamplenum ch = right.sampleAt left.absCurSamplenum ch)
    (leftSkip rightSkip : Bool) (terms : Condition) :
    (left.allTermsLoop leftSkip terms).outcome =
      (right.allTermsLoop rightSkip terms).outcome := by
  induction terms generalizing left right leftSkip rightSkip with
  | nil =>
      simp only [allTermsLoop, CondVerdict.outcome, same]
  | cons term rest ih =>
      have verdict := termMatches_congr same samples term
      simp only [TermVerdict.outcome, Prod.mk.injEq] at verdict
      obtain ⟨matched, updated, skipping⟩ := verdict
      have next : (left.noteSkipZero (left.termMatches term).skipZero).scan =
            (right.noteSkipZero (right.termMatches term).skipZero).scan := by
        rw [← skipping]
        exact congrArg (fun state : ScanState =>
          { state with skipZero := (left.termMatches term).skipZero }) same
      simp only [allTermsLoop, matched, updated]
      split
      · have later := @ih _ _ next samples
          (left.termMatches term).skipAllow (right.termMatches term).skipAllow
        simp only [CondVerdict.outcome, Prod.mk.injEq] at later ⊢
        obtain ⟨laterMatched, laterTerms, laterState⟩ := later
        exact ⟨laterMatched, by rw [laterTerms], laterState⟩
      · simp only [CondVerdict.outcome, next]

theorem allTermsMatch_congr (same : left.scan = right.scan) (samples :
      ∀ ch, left.sampleAt left.absCurSamplenum ch = right.sampleAt left.absCurSamplenum ch)
    (leftSkip rightSkip : Bool) (cond : Condition) :
    (left.allTermsMatch leftSkip cond).outcome =
      (right.allTermsMatch rightSkip cond).outcome := by
  have loop := allTermsLoop_congr same samples leftSkip rightSkip cond
  simp only [CondVerdict.outcome, Prod.mk.injEq] at loop
  obtain ⟨matched, terms, state⟩ := loop
  have skipping := congrArg ScanState.skipZero state
  have stepped :=
    congrArg (fun state : ScanState =>
      { state with
        absCurSamplenum := decSamplenum state.absCurSamplenum
        skipZero := false }) state
  simp only [scan] at skipping
  simp only [allTermsMatch, matched, skipping]
  split
  · simp only [CondVerdict.outcome, terms]
    exact congrArg (fun state => (_, _, state)) stepped
  · simp only [CondVerdict.outcome, matched, terms, state]

theorem checkCond_congr (same : left.scan = right.scan) (samples :
      ∀ ch, left.sampleAt left.absCurSamplenum ch = right.sampleAt left.absCurSamplenum ch)
    (leftSkip leftAll rightSkip rightAll : Bool) (j : Nat) (cond : Condition) :
    (left.checkCond leftSkip leftAll j cond).outcome =
      (right.checkCond rightSkip rightAll j cond).outcome := by
  have verdict := allTermsMatch_congr same samples leftSkip rightSkip cond
  simp only [CondVerdict.outcome, Prod.mk.injEq] at verdict
  obtain ⟨matched, terms, state⟩ := verdict
  have marked :=
    congrArg (fun state : ScanState =>
      { state with matchArray := state.matchArray ||| condBit j }) state
  simp only [checkCond, matched]
  split
  · simp only [CondCheck.outcome, same]
  · split
    · simp only [CondCheck.outcome, terms]
      exact congrArg (fun state => (_, state)) marked
    · simp only [CondCheck.outcome, terms, state]

/-- Every position that a pass over the conditions is at satisfies `inside`.  A
condition with a zero skip moves the position back when it matches. -/
def PassStays (inside : Nat → Prop) : SrdDecoderInst → Bool → Bool → Nat → List Condition → Prop
  | di, _, _, _, [] => inside di.absCurSamplenum
  | di, skipAllow, allSkipAllow, j, cond :: rest =>
      let check := di.checkCond skipAllow allSkipAllow j cond
      inside di.absCurSamplenum ∧
        PassStays inside check.di check.skipAllow check.allSkipAllow (j + 1) rest

instance decidablePassStays (inside : Nat → Prop) [DecidablePred inside] :
    (di : SrdDecoderInst) → (skipAllow allSkipAllow : Bool) → (j : Nat) → (conds : List Condition) →
        Decidable (PassStays inside di skipAllow allSkipAllow j conds)
  | di, _, _, _, [] =>
      inferInstanceAs (Decidable (inside di.absCurSamplenum))
  | di, skipAllow, allSkipAllow, j, cond :: rest =>
      @instDecidableAnd _ _ (inferInstanceAs (Decidable (inside di.absCurSamplenum)))
        (decidablePassStays inside (di.checkCond skipAllow allSkipAllow j cond).di
          (di.checkCond skipAllow allSkipAllow j cond).skipAllow
          (di.checkCond skipAllow allSkipAllow j cond).allSkipAllow (j + 1) rest)

variable {inside : Nat → Prop}

theorem PassStays.last {skipAllow allSkipAllow : Bool}
    {j : Nat} {conds : List Condition}
    (stays : PassStays inside left skipAllow allSkipAllow j conds) :
    inside (left.condPass skipAllow allSkipAllow j conds).di.absCurSamplenum := by
  induction conds generalizing left skipAllow allSkipAllow j with
  | nil => exact stays
  | cons cond rest ih => exact ih stays.2

section

variable (same : left.scan = right.scan)
include same

theorem condPass_congr (samples : ∀ samplenum, inside samplenum → ∀ ch,
        left.sampleAt samplenum ch = right.sampleAt samplenum ch)
    {leftSkip leftAll : Bool} (rightSkip rightAll : Bool)
    {j : Nat} {conds : List Condition}
    (stays : PassStays inside left leftSkip leftAll j conds) :
    (left.condPass leftSkip leftAll j conds).outcome =
        (right.condPass rightSkip rightAll j conds).outcome ∧
      PassStays inside right rightSkip rightAll j conds := by
  induction conds generalizing left right leftSkip leftAll rightSkip rightAll j with
  | nil =>
      constructor
      · simp only [condPass, CondPass.outcome, same]
      · have position := congrArg ScanState.absCurSamplenum same
        simp only [scan] at position
        simpa only [PassStays, position] using stays
  | cons cond rest ih =>
      obtain ⟨here, later⟩ := stays
      have check := checkCond_congr same (samples _ here) leftSkip leftAll rightSkip rightAll j cond
      simp only [CondCheck.outcome, Prod.mk.injEq] at check
      obtain ⟨terms, state⟩ := check
      have leftReads := sampleAt_eq_of_frame (checkCond_frame left leftSkip leftAll j cond)
      have rightReads := sampleAt_eq_of_frame (checkCond_frame right rightSkip rightAll j cond)
      have laterSamples : ∀ samplenum, inside samplenum → ∀ ch,
            (left.checkCond leftSkip leftAll j cond).di.sampleAt samplenum ch =
              (right.checkCond rightSkip rightAll j cond).di.sampleAt
                samplenum ch := by
        intro samplenum within ch
        rw [leftReads, rightReads]
        exact samples samplenum within ch
      obtain ⟨outcome, rightStays⟩ :=
        ih state laterSamples (right.checkCond rightSkip rightAll j cond).skipAllow
          (right.checkCond rightSkip rightAll j cond).allSkipAllow later
      simp only [CondPass.outcome, Prod.mk.injEq] at outcome
      constructor
      · simp only [condPass, CondPass.outcome, terms, outcome.1, outcome.2]
      · have position := congrArg ScanState.absCurSamplenum same
        simp only [scan] at position
        exact ⟨by rw [← position]; exact here, rightStays⟩

theorem oldPinSample_congr (samples :
      ∀ ch, left.sampleAt left.absCurSamplenum ch = right.sampleAt left.absCurSamplenum ch) :
    left.oldPinSample = right.oldPinSample := by
  have position : left.absCurSamplenum = right.absCurSamplenum :=
    congrArg ScanState.absCurSamplenum same
  funext ch
  have read := samples ch
  have here : right.sampleAt left.absCurSamplenum ch = right.termSample ch := by
    rw [position]
    rfl
  rw [oldPinSample_eq_termSample, oldPinSample_eq_termSample, ← here, ← read]
  rfl

theorem updateOldPinsArray_congr (channels : left.decChannelmap = right.decChannelmap)
    (samples : ∀ ch, left.sampleAt left.absCurSamplenum ch =
        right.sampleAt left.absCurSamplenum ch) :
    left.updateOldPinsArray.scan = right.updateOldPinsArray.scan := by
  have read := oldPinSample_congr same samples
  have stepped :=
    congrArg (fun state : ScanState =>
      { state with
        oldPinsArray := some ((List.range left.decNumChannels).map left.oldPinSample) }) same
  rw [updateOldPinsArray_eq, updateOldPinsArray_eq]
  simp only [decNumChannels, channels, read] at stepped ⊢
  exact stepped

theorem matchSample_congr (channels : left.decChannelmap = right.decChannelmap)
    (samples : ∀ samplenum, inside samplenum → ∀ ch,
        left.sampleAt samplenum ch = right.sampleAt samplenum ch)
    {leftSkip leftAll : Bool} (rightSkip rightAll : Bool)
    (stays : PassStays inside left leftSkip leftAll 0 left.conditionList) :
    (left.matchSample leftSkip leftAll).di.scan = (right.matchSample rightSkip rightAll).di.scan ∧
      PassStays inside right rightSkip rightAll 0 right.conditionList := by
  have conds : left.conditionList = right.conditionList := congrArg ScanState.conditionList same
  obtain ⟨outcome, rightStays⟩ := condPass_congr same samples rightSkip rightAll stays
  rw [conds] at outcome rightStays
  refine ⟨?_, rightStays⟩
  have last := stays.last
  rw [conds] at last
  have leftFrame := condPass_frame left leftSkip leftAll 0 right.conditionList
  have rightFrame := condPass_frame right rightSkip rightAll 0 right.conditionList
  simp only [matchSample, conds]
  generalize left.condPass leftSkip leftAll 0 right.conditionList = leftPass at *
  generalize right.condPass rightSkip rightAll 0 right.conditionList = rightPass at *
  simp only [CondPass.outcome, Prod.mk.injEq] at outcome
  obtain ⟨terms, state⟩ := outcome
  have stored : { leftPass.di with conditionList := leftPass.conds }.scan =
        { rightPass.di with conditionList := rightPass.conds }.scan := by
    rw [terms]
    exact congrArg (fun state : ScanState =>
      { state with conditionList := rightPass.conds }) state
  have pins :=
    updateOldPinsArray_congr stored ((congrArg InstFrame.decChannelmap leftFrame).trans
        (channels.trans (congrArg InstFrame.decChannelmap rightFrame).symm))
      (fun ch => by
        have leftReads := sampleAt_eq_of_frame leftFrame
        have rightReads := sampleAt_eq_of_frame rightFrame
        exact (congrFun (congrFun leftReads _) ch).trans ((samples _ last ch).trans
            (congrFun (congrFun rightReads _) ch).symm))
  exact congrArg (fun state : ScanState =>
    { state with absCurMatched := state.matchArray != 0 }) pins

theorem updateOldPinsArrayInitialPins_congr (channels : left.decChannelmap = right.decChannelmap)
    (samples : ∀ ch, left.sampleAt left.absCurSamplenum ch =
        right.sampleAt left.absCurSamplenum ch) :
    left.updateOldPinsArrayInitialPins.scan =
      right.updateOldPinsArrayInitialPins.scan := by
  have read := oldPinSample_congr same samples
  have pins : left.oldPinsArray = right.oldPinsArray := congrArg ScanState.oldPinsArray same
  have stepped :=
    congrArg (fun state : ScanState =>
      { state with
        oldPinsArray :=
          some (initialPinValues left.decNumChannels left.oldPinsArray
            left.oldPinSample) }) same
  rw [updateOldPinsArrayInitialPins_eq, updateOldPinsArrayInitialPins_eq]
  simp only [decNumChannels, channels, read, pins] at stepped ⊢
  exact stepped

theorem primeScan_congr (channels : left.decChannelmap = right.decChannelmap)
    (samples : ∀ ch, left.sampleAt left.absCurSamplenum ch =
        right.sampleAt left.absCurSamplenum ch) :
    left.primeScan.scan = right.primeScan.scan := by
  have first : left.firstPos = right.firstPos := congrArg ScanState.firstPos same
  simp only [primeScan]
  by_cases atFirst : left.firstPos = true
  · rw [if_pos atFirst, if_pos (first.symm.trans atFirst)]
    apply updateOldPinsArrayInitialPins_congr
    · exact congrArg (fun state : ScanState =>
        { state with matchArray := 0, firstPos := false }) same
    · exact channels
    · exact samples
  · rw [if_neg atFirst, if_neg (by rw [← first]; exact atFirst)]
    exact congrArg (fun state : ScanState => { state with matchArray := 0 }) same

theorem leaveMatch_congr : left.leaveMatch.scan = right.leaveMatch.scan := by
  have matched : left.absCurMatched = right.absCurMatched := congrArg ScanState.absCurMatched same
  simp only [leaveMatch]
  by_cases atMatch : left.absCurMatched = true
  · rw [if_pos atMatch, if_pos (matched.symm.trans atMatch)]
    exact congrArg (fun state : ScanState =>
      { state with
        absCurSamplenum := incSamplenum state.absCurSamplenum
        conditionList := restartSkips state.conditionList }) same
  · rw [if_neg atMatch, if_neg (by rw [← matched]; exact atMatch)]
    exact same

end

end Congruence

end SrdDecoderInst

end SigrokDecode
