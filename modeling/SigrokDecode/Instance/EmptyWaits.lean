import SigrokDecode.Instance.Chunks

/-!
# Waits without terms

A `c_wait` without terms leaves the condition list as it is, so that what an earlier one has left
there decides where it ends.
-/

namespace SigrokDecode

/-- An argument of `c_wait` in front of `CW_END`. -/
inductive CWaitArg
  | or
  | term (type : SrdTermType) (channel : Nat)
  | skip (count : Nat)
  deriving DecidableEq

/-- The loop of `c_wait` over its arguments, and the flush behind it. -/
def cWaitLoop (orGroups : List Condition) (currentAnd : Condition) : List CWaitArg → List Condition
  | [] => if currentAnd = [] then orGroups else orGroups ++ [currentAnd]
  | .or :: args =>
      if currentAnd = [] then cWaitLoop orGroups currentAnd args
      else cWaitLoop (orGroups ++ [currentAnd]) [] args
  | .term type channel :: args =>
      cWaitLoop orGroups (currentAnd ++ [.onChannel type channel]) args
  | .skip count :: args => cWaitLoop orGroups (currentAnd ++ [.skipping count]) args

/-- The condition list that `c_wait` makes of its arguments. -/
def cWaitGroups (args : List CWaitArg) : List Condition :=
  cWaitLoop [] [] args

def NoTerms (args : List CWaitArg) : Prop :=
  ∀ arg ∈ args, arg = .or

instance (args : List CWaitArg) : Decidable (NoTerms args) :=
  inferInstanceAs (Decidable (∀ arg ∈ args, arg = .or))

namespace SrdDecoderInst

/-- The instance after each report that `serveWaits` makes, with the chunks still to come. -/
def serveStates (chunks : List SampleChunk) :
    List (List Condition) → SrdDecoderInst → List (SrdDecoderInst × List SampleChunk)
  | [], _ => []
  | _ :: rest, di =>
      match di.waitRegion .cDecoder with
      | (.matched _ _, after) => (after, chunks) :: serveStates chunks rest (after.nextWait rest)
      | (_, _) => []

/-- The instance after each report that `decodeChunks` makes. -/
def decodeStates : List SampleChunk → List (List Condition) → SrdDecoderInst →
      List (SrdDecoderInst × List SampleChunk)
  | [], _, _ => []
  | chunk :: chunks, waits, di =>
      match di.srdInstDecodeHandOver chunk with
      | (.ok, held) =>
          let served := serveWaits .cDecoder waits held
          if served.2.1 = [] then
            serveStates chunks waits held
          else
            serveStates chunks waits held ++ decodeStates chunks served.2.1 served.2.2
      | (_, _) => []

/-- The calls of `c_wait` of a run that returned success. -/
def returnedCalls (chunks : List SampleChunk) (calls : List (List CWaitArg))
    (di : SrdDecoderInst) : List (SrdDecoderInst × List SampleChunk) :=
  decodeStates chunks (calls.map cWaitGroups) (di.srdInstStart.nextWait (calls.map cWaitGroups))

/-- What a call without terms reports when `stored` is the condition list. -/
def emptyWaitReport (stored : List Condition) (state : SrdDecoderInst × List SampleChunk) :
    Option WaitReport :=
  match ({ state.1 with conditionList := stored }.startWait []).waitRegion .cDecoder with
  | (.matched samplenum matchArray, _) => some (samplenum, matchArray)
  | (_, after) => (decodeChunks .cDecoder state.2 [[]] after).head?

/-- Whatever an earlier call has left there, a call without terms goes on by one sample, and all
of this has no influence on what it reports. -/
structure GoesOnByOne (state : SrdDecoderInst × List SampleChunk) : Prop where
  advances : ∀ earlier report, emptyWaitReport (cWaitGroups earlier) state = some report →
    report.1 = state.1.absCurSamplenum + 1
  independent : ∀ earlier other report result,
    emptyWaitReport (cWaitGroups earlier) state = some report →
      emptyWaitReport (cWaitGroups other) state = some result → report = result

def EmptyWaitsGoOn (chunks : List SampleChunk) (calls : List (List CWaitArg))
    (di : SrdDecoderInst) : Prop :=
  ∀ k state args, (returnedCalls chunks calls di)[k]? = some state →
    calls[k + 1]? = some args → NoTerms args → GoesOnByOne state

def TermsGiven (chunks : List SampleChunk) (calls : List (List CWaitArg))
    (di : SrdDecoderInst) : Prop :=
  ∀ k args, k < (returnedCalls chunks calls di).length → calls[k + 1]? = some args → ¬NoTerms args

/-- Samples are at hand and the host has not asked for the end. -/
def Supplied (di : SrdDecoderInst) : Prop :=
  di.gotNewSamples = true ∧ di.wantWaitTerminate = false

theorem SameChunk.supplied {left right : SrdDecoderInst} (same : SameChunk left right)
    (supplied : right.Supplied) : left.Supplied :=
  ⟨same.gotNewSamples.trans supplied.1, same.wantWaitTerminate.trans supplied.2⟩

variable {di : SrdDecoderInst}

theorem supplied_of_matched {after : SrdDecoderInst} {samplenum : Nat} {matchArray : BitVec 64}
    (matched : di.waitRegion .cDecoder = (.matched samplenum matchArray, after)) :
    after.Supplied := by
  have running : di.wantWaitTerminate = false := by
    by_contra terminating
    have region : di.waitRegion .cDecoder = (.terminated, di) := by
      simp [waitRegion, cDecoderWaitRegion, terminating]
    rw [region] at matched
    cases matched
  have samples : di.gotNewSamples = true := by
    by_contra none
    rw [waitRegion_blocked .cDecoder running (by simpa using none)] at matched
    cases matched
  rw [waitRegion_eq .cDecoder running samples] at matched
  split at matched
  · obtain ⟨-, rfl⟩ := Prod.mk.inj matched
    refine (afterMatch_sameChunk .cDecoder _).supplied ?_
    exact (sameChunk_of_frame (findMatch_frame di)).supplied ⟨samples, running⟩
  · cases matched

variable {state : SrdDecoderInst × List SampleChunk}

theorem emptyWaitReport_nil (supplied : state.1.Supplied) :
    emptyWaitReport [] state = some (state.1.absCurSamplenum, state.1.matchArray) := by
  have region : ({ state.1 with conditionList := [] } : SrdDecoderInst).waitRegion .cDecoder =
      (.matched state.1.absCurSamplenum state.1.matchArray,
        afterMatch .cDecoder { state.1 with conditionList := [] }) :=
    waitRegion_eq .cDecoder supplied.2 supplied.1
  unfold emptyWaitReport startWait
  rw [if_pos rfl, region]

theorem Supplied.not_goesOnByOne
    (supplied : state.1.Supplied) : ¬GoesOnByOne state := by
  intro goesOn
  have here := goesOn.advances [] _ (emptyWaitReport_nil supplied)
  exact absurd here (Nat.ne_of_lt (Nat.lt_succ_self _))

theorem supplied_serveStates {chunks : List SampleChunk} {waits : List (List Condition)}
    (member : state ∈ serveStates chunks waits di) : state.1.Supplied := by
  induction waits generalizing di with
  | nil => exact absurd member List.not_mem_nil
  | cons wait rest ih =>
      unfold serveStates at member
      split at member
      · rename_i samplenum matchArray after matched
        rcases List.mem_cons.mp member with rfl | later
        · exact supplied_of_matched matched
        · exact ih later
      · exact absurd member List.not_mem_nil

theorem supplied_decodeStates {chunks : List SampleChunk} {waits : List (List Condition)}
    (member : state ∈ decodeStates chunks waits di) : state.1.Supplied := by
  induction chunks generalizing waits di with
  | nil => exact absurd member List.not_mem_nil
  | cons chunk chunks ih =>
      unfold decodeStates at member
      split at member
      · dsimp only at member
        split at member
        · exact supplied_serveStates member
        · rcases List.mem_append.mp member with now | later
          · exact supplied_serveStates now
          · exact ih later
      · exact absurd member List.not_mem_nil

theorem emptyWaitsGoOn_iff (chunks : List SampleChunk) (calls : List (List CWaitArg))
    (di : SrdDecoderInst) :
    EmptyWaitsGoOn chunks calls di ↔ TermsGiven chunks calls di := by
  constructor
  · intro goOn k args returned next noTerms
    have found : (returnedCalls chunks calls di)[k]? =
        some ((returnedCalls chunks calls di)[k]) := List.getElem?_eq_getElem returned
    refine Supplied.not_goesOnByOne ?_ (goOn k _ args found next noTerms)
    exact supplied_decodeStates (List.getElem_mem returned)
  · intro given k state args found next noTerms
    obtain ⟨returned, -⟩ := List.getElem?_eq_some_iff.mp found
    exact absurd noTerms (given k args returned next)

/-- Two calls without terms report the first sample twice. -/
theorem twoEmptyWaits_stay :
    runReports .cDecoder [byteChunk 0 2 0xFF] [cWaitGroups [], cWaitGroups []] freshInstance =
        [(0, 0), (0, 0)] ∧
      ¬∀ chunks calls di, EmptyWaitsGoOn chunks calls di := by
  refine ⟨by decide, fun always => ?_⟩
  have returned : 0 < (returnedCalls [byteChunk 0 2 0xFF] [[], []] freshInstance).length := by
    decide
  have supplied := supplied_decodeStates (List.getElem_mem returned)
  exact supplied.not_goesOnByOne
    (always _ [[], []] _ 0 _ [] (List.getElem?_eq_getElem returned) rfl (by decide))

end SrdDecoderInst

end SigrokDecode
