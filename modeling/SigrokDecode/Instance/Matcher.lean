import SigrokDecode.Instance.Pins

/-!
# The condition matcher

`find_match` and the functions below it.  The functions that update terms or
the instance in place return the updated values.
-/

namespace SigrokDecode

/-- `sample_matches`: the verdict and the term with its skip counter. -/
def sampleMatches (oldSample sample : UInt8) (term : SrdTerm) : Bool × SrdTerm :=
  match term.type with
  | .high => (sample == 1, term)
  | .low => (sample == 0, term)
  | .risingEdge => (oldSample == 0 && sample == 1, term)
  | .fallingEdge => (oldSample == 1 && sample == 0, term)
  | .eitherEdge =>
      ((oldSample == 1 && sample == 0) || (oldSample == 0 && sample == 1), term)
  | .noEdge =>
      ((oldSample == 0 && sample == 0) || (oldSample == 1 && sample == 1), term)
  | .skip =>
      if term.numSamplesAlreadySkipped = term.numSamplesToSkip then
        (true, term)
      else
        (false,
          { term with
            numSamplesAlreadySkipped := term.numSamplesAlreadySkipped + 1 })
  | .unknown => (false, term)

/-- `abs_cur_samplenum++` on an unsigned 64-bit number. -/
def incSamplenum (samplenum : Nat) : Nat :=
  if samplenum = 2 ^ 64 - 1 then 0 else samplenum + 1

/-- `abs_cur_samplenum--` on an unsigned 64-bit number. -/
def decSamplenum (samplenum : Nat) : Nat :=
  if samplenum = 0 then 2 ^ 64 - 1 else samplenum - 1

/-- The match bit of condition `j`.  The source shifts an `int` constant, so
the shift is one of 32 bits and its result is sign-extended. -/
def condBit (j : Nat) : BitVec 64 :=
  ((1 : BitVec 32) <<< (j % 32)).signExtend 64

namespace SrdDecoderInst

/-- What `term_matches` leaves behind for one term. -/
structure TermVerdict where
  matched : Bool
  skipAllow : Bool
  term : SrdTerm
  skipZero : Bool

def termMatches (di : SrdDecoderInst) (term : SrdTerm) : TermVerdict :=
  if term.type = .skip then
    let verdict := sampleMatches 0 0 term
    { matched := verdict.1
      skipAllow := false
      term := verdict.2
      skipZero :=
        if di.absCurMatched ∧ term.numSamplesToSkip = 0 then true
        else di.skipZero }
  else
    match di.termSample term.channel with
    | none =>
        { matched := false
          skipAllow := di.termSkipAllow term.channel
          term := term
          skipZero := di.skipZero }
    | some sample =>
        let verdict := sampleMatches (di.oldPin term.channel) sample term
        { matched := verdict.1
          skipAllow := di.termSkipAllow term.channel
          term := verdict.2
          skipZero := di.skipZero }

/-- What `all_terms_match` leaves behind for one condition. -/
structure CondVerdict where
  matched : Bool
  skipAllow : Bool
  terms : Condition
  di : SrdDecoderInst

/-- The loop of `all_terms_match`; it stops at the first term that fails. -/
def allTermsLoop : SrdDecoderInst → Bool → Condition → CondVerdict
  | di, skipAllow, [] => ⟨true, skipAllow, [], di⟩
  | di, _, term :: rest =>
      let verdict := di.termMatches term
      let di := di.noteSkipZero verdict.skipZero
      if verdict.matched then
        let later := di.allTermsLoop verdict.skipAllow rest
        { later with terms := verdict.term :: later.terms }
      else
        ⟨false, verdict.skipAllow, verdict.term :: rest, di⟩

def allTermsMatch (di : SrdDecoderInst) (skipAllow : Bool) (cond : Condition) : CondVerdict :=
  let verdict := di.allTermsLoop skipAllow cond
  if verdict.matched ∧ verdict.di.skipZero then
    { verdict with
      di :=
        { verdict.di with
          absCurSamplenum := decSamplenum verdict.di.absCurSamplenum
          skipZero := false } }
  else
    verdict

/-- What the inner loop of `find_match` leaves behind for one condition. -/
structure CondCheck where
  di : SrdDecoderInst
  terms : Condition
  skipAllow : Bool
  allSkipAllow : Bool

/-- The body of the inner loop of `find_match`, for condition `j`. -/
def checkCond (di : SrdDecoderInst) (skipAllow allSkipAllow : Bool)
    (j : Nat) (cond : Condition) : CondCheck :=
  if cond = [] then
    ⟨di, cond, skipAllow, allSkipAllow⟩
  else
    let verdict := di.allTermsMatch skipAllow cond
    if verdict.matched then
      ⟨{ verdict.di with matchArray := verdict.di.matchArray ||| condBit j },
        verdict.terms, verdict.skipAllow, false⟩
    else
      ⟨verdict.di, verdict.terms, verdict.skipAllow, allSkipAllow && verdict.skipAllow⟩

structure CondPass where
  di : SrdDecoderInst
  conds : List Condition
  skipAllow : Bool
  allSkipAllow : Bool

/-- The inner loop of `find_match`: every condition is checked at the current
sample, from condition `j` on. -/
def condPass : SrdDecoderInst → Bool → Bool → Nat → List Condition → CondPass
  | di, skipAllow, allSkipAllow, _, [] => ⟨di, [], skipAllow, allSkipAllow⟩
  | di, skipAllow, allSkipAllow, j, cond :: rest =>
      let check := di.checkCond skipAllow allSkipAllow j cond
      let later := check.di.condPass check.skipAllow check.allSkipAllow (j + 1) rest
      { later with conds := check.terms :: later.conds }

/-- One iteration of the outer loop of `find_match`, up to the match test. -/
def matchSample (di : SrdDecoderInst) (skipAllow allSkipAllow : Bool) : CondPass :=
  let pass := di.condPass skipAllow allSkipAllow 0 di.conditionList
  let after :=
    { pass.di with conditionList := pass.conds }.updateOldPinsArray
  { pass with
    di := { after with absCurMatched := after.matchArray != 0 } }

/-- The outer loop of `find_match`.  The first argument bounds the number of
iterations; every one of them advances the position or returns.  The position
cannot wrap around here, it is below the end of the chunk. -/
def findMatchLoop : Nat → SrdDecoderInst → Bool → Bool → Bool × SrdDecoderInst
  | 0, di, _, _ => (false, di)
  | fuel + 1, di, skipAllow, allSkipAllow =>
      if di.absCurSamplenum < di.absEndSamplenum then
        let pass := di.matchSample skipAllow allSkipAllow
        if pass.di.absCurMatched then
          (true, pass.di)
        else if pass.allSkipAllow then
          findMatchLoop fuel (pass.di.seek pass.di.absEndSamplenum) pass.skipAllow pass.allSkipAllow
        else
          findMatchLoop fuel (pass.di.seek (pass.di.absCurSamplenum + 1))
            pass.skipAllow pass.allSkipAllow
      else
        (false, di)

def haveNonNullConds (di : SrdDecoderInst) : Bool :=
  di.conditionList.any fun cond => cond != []

def restartSkips (conds : List Condition) : List Condition :=
  conds.map fun cond => cond.map fun term =>
    if term.type = .skip ∧ 0 < term.numSamplesToSkip then
      { term with numSamplesAlreadySkipped := 1 }
    else
      term

/-- The first step of `find_match`: no condition has matched yet, and before the
first sample the unknown old pins get its values. -/
def primeScan (di : SrdDecoderInst) : SrdDecoderInst :=
  let cleared := { di with matchArray := 0 }
  if cleared.firstPos then
    { cleared with firstPos := false }.updateOldPinsArrayInitialPins
  else
    cleared

/-- The second step of `find_match`: it goes on behind the sample that matched
last. -/
def leaveMatch (di : SrdDecoderInst) : SrdDecoderInst :=
  if di.absCurMatched then
    { di with
      absCurSamplenum := incSamplenum di.absCurSamplenum
      conditionList := restartSkips di.conditionList }
  else
    di

/-- `find_match`.  The uninitialised `skip_allow` starts as `false` here; it is
written before it is read. -/
def findMatch (di : SrdDecoderInst) : Bool × SrdDecoderInst :=
  if di.haveNonNullConds then
    let entered := di.primeScan.leaveMatch
    findMatchLoop (entered.absEndSamplenum - entered.absCurSamplenum) entered false true
  else
    (true, di)

/-- `process_samples_until_condition_match`, with a bound on the number of
times its loop calls `find_match`. -/
def processSamplesLoop : Nat → SrdDecoderInst → Bool × SrdDecoderInst
  | 0, di => (false, di)
  | fuel + 1, di =>
      let (found, after) := di.findMatch
      if after.absEndSamplenum ≤ after.absCurSamplenum then
        (found, after)
      else if found then
        (true, after)
      else
        after.processSamplesLoop fuel

/-- `process_samples_until_condition_match`.  One call of `find_match` is
enough, see `processSamplesLoop_eq_findMatch`. -/
def processSamplesUntilConditionMatch (di : SrdDecoderInst) : Bool × SrdDecoderInst :=
  if di.wantWaitTerminate then
    (false, di)
  else
    di.processSamplesLoop 1

end SrdDecoderInst

end SigrokDecode
