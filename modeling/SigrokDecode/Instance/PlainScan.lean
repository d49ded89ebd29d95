import SigrokDecode.Instance.Chunks

/-!
# Conditions without skips

What the matcher does with such conditions depends on two samples only: the one where it is, and
the pins that it remembers.
-/

set_option linter.dupNamespace false

namespace SigrokDecode

open Foundation List

def pinsAt (stream : SampleStream) (samplenum ch : Nat) : UInt8 :=
  bitByte (stream ch samplenum)

def termHolds (old now : Nat → UInt8) (term : SrdTerm) : Bool :=
  (sampleMatches (old term.channel) (now term.channel) term).1

def condHolds (old now : Nat → UInt8) (cond : Condition) : Bool :=
  cond.all (termHolds old now)

def condsHold (old now : Nat → UInt8) (conds : List Condition) : Bool :=
  conds.any (condHolds old now)

/-- What `skip_allow` is after a condition: the term at which the loop stopped decides. -/
def stopsAtConstant (old now : Nat → UInt8) (constant : Nat → Bool) (skipAllow : Bool) :
    Condition → Bool
  | [] => skipAllow
  | term :: rest =>
      if termHolds old now term then
        stopsAtConstant old now constant (constant term.channel) rest
      else
        constant term.channel

/-- Every condition fails on a channel that the chunk gives as a constant. -/
def allStopAtConstant (old now : Nat → UInt8) (constant : Nat → Bool)
    (conds : List Condition) : Bool :=
  conds.all (stopsAtConstant old now constant false)

def PlainConds (channels : Nat) (conds : List Condition) : Prop :=
  ∀ cond ∈ conds, cond ≠ [] ∧ ∀ term ∈ cond, term.type ≠ SrdTermType.skip ∧ term.channel < channels

instance (channels : Nat) (conds : List Condition) : Decidable (PlainConds channels conds) :=
  inferInstanceAs (Decidable (∀ cond ∈ conds, cond ≠ [] ∧
    ∀ term ∈ cond, term.type ≠ SrdTermType.skip ∧ term.channel < channels))

theorem condsHold_congr {channels : Nat} {conds : List Condition}
    (plain : PlainConds channels conds) {old other : Nat → UInt8} (now : Nat → UInt8)
    (same : ∀ ch < channels, old ch = other ch) :
    condsHold old now conds = condsHold other now conds := by
  unfold condsHold condHolds termHolds
  refine Bool.eq_iff_iff.mpr ?_
  simp only [any_eq_true, all_eq_true]
  refine exists_congr fun cond => and_congr_right fun member => forall₂_congr fun term inside => ?_
  rw [same _ ((plain cond member).2 term inside).2]

theorem sampleMatches_term {term : SrdTerm} (plain : term.type ≠ .skip) (old now : UInt8) :
    (sampleMatches old now term).2 = term := by
  unfold sampleMatches
  split
  all_goals first | rfl | skip
  rename_i skip
  exact absurd skip plain

namespace SrdDecoderInst

variable {di : SrdDecoderInst} {now : Nat → UInt8}

theorem termMatches_plain (sees : ∀ ch, di.termSample ch = some (now ch)) {term : SrdTerm}
    (plain : term.type ≠ .skip) :
    di.termMatches term =
      ⟨termHolds di.oldPin now term, di.termSkipAllow term.channel, term, di.skipZero⟩ := by
  unfold termMatches
  rw [if_neg plain, sees]
  dsimp only
  rw [sampleMatches_term plain]
  rfl

variable {cond : Condition} {channels : Nat}

theorem allTermsLoop_plain (sees : ∀ ch, di.termSample ch = some (now ch))
    (plain : ∀ term ∈ cond, term.type ≠ SrdTermType.skip) (skipAllow : Bool) :
    di.allTermsLoop skipAllow cond = ⟨condHolds di.oldPin now cond,
        stopsAtConstant di.oldPin now di.termSkipAllow skipAllow cond, cond, di⟩ := by
  induction cond generalizing skipAllow with
  | nil => rfl
  | cons term rest ih =>
      have later := ih (fun other member => plain other (mem_cons_of_mem _ member))
        (di.termSkipAllow term.channel)
      have kept : di.noteSkipZero di.skipZero = di := rfl
      unfold allTermsLoop stopsAtConstant
      rw [termMatches_plain sees (plain term mem_cons_self)]
      dsimp only
      rw [kept, later]
      cases holds : termHolds di.oldPin now term with
      | true => simp [condHolds, holds]
      | false => simp [condHolds, holds]

theorem allTermsMatch_plain (sees : ∀ ch, di.termSample ch = some (now ch))
    (idle : di.skipZero = false)
    (plain : ∀ term ∈ cond, term.type ≠ SrdTermType.skip) (skipAllow : Bool) :
    di.allTermsMatch skipAllow cond = ⟨condHolds di.oldPin now cond,
        stopsAtConstant di.oldPin now di.termSkipAllow skipAllow cond, cond, di⟩ := by
  unfold allTermsMatch
  rw [allTermsLoop_plain sees plain]
  refine if_neg fun both => ?_
  rw [idle] at both
  exact Bool.false_ne_true both.2

theorem stopsAtConstant_first {old now : Nat → UInt8} {constant : Nat → Bool}
    (terms : cond ≠ []) (skipAllow : Bool) :
    stopsAtConstant old now constant skipAllow cond =
      stopsAtConstant old now constant false cond := by
  cases cond with
  | nil => exact absurd rfl terms
  | cons term rest => rfl

structure PassDone (conds : List Condition) (before : SrdDecoderInst) (now : Nat → UInt8)
    (allSkipAllow : Bool) (pass : CondPass) : Prop where
  same : pass.conds = conds
  marks : ∃ marks : BitVec 64, pass.di = { before with matchArray := marks } ∧
    (marks = 0 ↔ before.matchArray = 0 ∧ condsHold before.oldPin now conds = false)
  jumps : condsHold before.oldPin now conds = false → pass.allSkipAllow =
      (allSkipAllow && allStopAtConstant before.oldPin now before.termSkipAllow conds)

theorem condPass_plain (sees : ∀ ch, di.termSample ch = some (now ch))
    (idle : di.skipZero = false) {conds : List Condition}
    (plain : PlainConds channels conds) (skipAllow allSkipAllow : Bool) (j : Nat) :
    PassDone conds di now allSkipAllow (di.condPass skipAllow allSkipAllow j conds) := by
  induction conds generalizing di skipAllow allSkipAllow j with
  | nil =>
      refine ⟨rfl, ⟨di.matchArray, rfl, (and_iff_left rfl).symm⟩, fun _ => ?_⟩
      exact (Bool.and_true _).symm
  | cons cond rest ih =>
      obtain ⟨terms, noSkips⟩ := plain cond mem_cons_self
      have plainRest : PlainConds channels rest := fun other member =>
        plain other (mem_cons_of_mem _ member)
      have verdict := allTermsMatch_plain sees idle (fun term member => (noSkips term member).1)
        skipAllow
      rw [stopsAtConstant_first terms] at verdict
      cases holds : condHolds di.oldPin now cond with
      | true =>
          have check : di.checkCond skipAllow allSkipAllow j cond =
              ⟨{ di with matchArray := di.matchArray ||| condBit j }, cond,
                stopsAtConstant di.oldPin now di.termSkipAllow false cond, false⟩ := by
            unfold checkCond
            rw [if_neg terms, verdict, holds]
            rfl
          obtain ⟨same, ⟨marks, reached, none⟩, -⟩ :=
            @ih { di with matchArray := di.matchArray ||| condBit j } sees idle
              plainRest (stopsAtConstant di.oldPin now di.termSkipAllow false cond) false (j + 1)
          have some : condsHold di.oldPin now (cond :: rest) = true := by
            unfold condsHold
            rw [any_cons, holds, Bool.true_or]
          unfold condPass
          rw [check]
          refine ⟨congrArg (cond :: ·) same, ⟨marks, reached, ?_⟩, fun failed => ?_⟩
          · refine iff_of_false (fun zero => ?_) fun both => ?_
            · exact condBit_ne_zero j (BitVec.or_eq_zero_iff.mp (none.mp zero).1).2
            · exact Bool.false_ne_true (both.2.symm.trans some)
          · exact absurd (failed.symm.trans some) Bool.false_ne_true
      | false =>
          have check : di.checkCond skipAllow allSkipAllow j cond =
              ⟨di, cond, stopsAtConstant di.oldPin now di.termSkipAllow false cond,
                allSkipAllow && stopsAtConstant di.oldPin now di.termSkipAllow false cond⟩ := by
            unfold checkCond
            rw [if_neg terms, verdict, holds]
            rfl
          obtain ⟨same, ⟨marks, reached, none⟩, jumps⟩ := ih sees idle plainRest
            (stopsAtConstant di.oldPin now di.termSkipAllow false cond)
            (allSkipAllow && stopsAtConstant di.oldPin now di.termSkipAllow false cond) (j + 1)
          have others : condsHold di.oldPin now (cond :: rest) = condsHold di.oldPin now rest := by
            unfold condsHold
            rw [any_cons, holds, Bool.false_or]
          unfold condPass
          rw [check]
          refine ⟨congrArg (cond :: ·) same, ⟨marks, reached, ?_⟩, fun failed => ?_⟩
          · rw [others]
            exact none
          · rw [others] at failed
            refine (jumps failed).trans ?_
            unfold allStopAtConstant
            rw [all_cons, Bool.and_assoc]

/-- What one iteration of the outer loop of `find_match` leaves behind. -/
structure SampleDone (before : SrdDecoderInst) (now : Nat → UInt8) (allSkipAllow : Bool)
    (pass : CondPass) : Prop where
  frame : pass.di.frame = before.frame
  list : pass.di.conditionList = before.conditionList
  position : pass.di.absCurSamplenum = before.absCurSamplenum
  firstPos : pass.di.firstPos = before.firstPos
  idle : pass.di.skipZero = false
  remembers : ∀ ch < before.decNumChannels, pass.di.oldPin ch = now ch
  matched : pass.di.absCurMatched = condsHold before.oldPin now before.conditionList
  marks : pass.di.absCurMatched = false → pass.di.matchArray = 0
  jumps : condsHold before.oldPin now before.conditionList = false → pass.allSkipAllow =
      (allSkipAllow &&
        allStopAtConstant before.oldPin now before.termSkipAllow before.conditionList)

theorem matchSample_plain (sees : ∀ ch, di.termSample ch = some (now ch))
    (idle : di.skipZero = false) (plain : PlainConds di.decNumChannels di.conditionList)
    (clear : di.matchArray = 0) (skipAllow allSkipAllow : Bool) :
    SampleDone di now allSkipAllow (di.matchSample skipAllow allSkipAllow) := by
  obtain ⟨same, ⟨marks, reached, none⟩, jumps⟩ :=
    condPass_plain sees idle plain skipAllow allSkipAllow 0
  rw [and_iff_right clear] at none
  have pins : ∀ ch < di.decNumChannels,
      ((List.range di.decNumChannels).map di.oldPinSample).getD ch 0 = now ch := by
    intro ch inside
    have stored : ((List.range di.decNumChannels).map di.oldPinSample).getD ch 0 =
        di.oldPinSample ch := by
      simp [getD_eq_getElem?_getD, inside]
    rw [stored, oldPinSample_eq_termSample, sees]
    rfl
  unfold matchSample
  dsimp only
  rw [updateOldPinsArray_eq, reached, same]
  constructor
  case frame => rfl
  case list => rfl
  case position => rfl
  case firstPos => rfl
  case idle => exact idle
  case remembers => exact pins
  case matched =>
      change (marks != 0) = _
      cases holds : condsHold di.oldPin now di.conditionList with
      | false => rw [none.mpr holds]; rfl
      | true =>
          refine bne_iff_ne.mpr fun zero => ?_
          exact Bool.false_ne_true ((none.mp zero).symm.trans holds)
  case marks =>
      intro notMatched
      change marks = 0
      exact bne_eq_false_iff_eq.mp notMatched
  case jumps => exact jumps

theorem HoldsStream.sees {stream : SampleStream} (holds : di.HoldsStream stream)
    (inside : di.InChunk di.absCurSamplenum) (ch : Nat) :
    di.termSample ch = some (pinsAt stream di.absCurSamplenum ch) :=
  holds di.absCurSamplenum inside ch

/-- The instance is at a sample and remembers the pins `old`. -/
structure Seen (conds : List Condition) (di : SrdDecoderInst) (samplenum : Nat)
    (old : Nat → UInt8) : Prop where
  position : di.absCurSamplenum = samplenum
  list : di.conditionList = conds
  idle : di.skipZero = false
  later : di.firstPos = false
  remembers : ∀ ch < di.decNumChannels, di.oldPin ch = old ch

structure Ready (conds : List Condition) (di : SrdDecoderInst) (samplenum : Nat)
    (old : Nat → UInt8) : Prop extends Seen conds di samplenum old where
  unmatched : di.absCurMatched = false

structure Met (conds : List Condition) (di : SrdDecoderInst) (samplenum : Nat)
    (old : Nat → UInt8) : Prop extends Seen conds di samplenum old where
  matched : di.absCurMatched = true

variable {stream : SampleStream} {conds : List Condition} {old : Nat → UInt8} {samplenum : Nat}

theorem Seen.pass (seen : Seen conds di samplenum old) (holds : di.HoldsStream stream)
    (plain : PlainConds di.decNumChannels conds) (inside : di.InChunk samplenum)
    (clear : di.matchArray = 0) (skipAllow allSkipAllow : Bool) :
    SampleDone di (pinsAt stream samplenum) allSkipAllow (di.matchSample skipAllow allSkipAllow) ∧
      condsHold di.oldPin (pinsAt stream samplenum) conds =
        condsHold old (pinsAt stream samplenum) conds := by
  obtain ⟨rfl, rfl, idle, -, remembers⟩ := seen
  exact ⟨matchSample_plain (holds.sees inside) idle plain clear skipAllow allSkipAllow,
    condsHold_congr plain _ remembers⟩

theorem decNumChannels_of_frame {left right : SrdDecoderInst} (same : left.frame = right.frame) :
    left.decNumChannels = right.decNumChannels :=
  congrArg (fun frame => frame.decChannelmap.length) same

theorem SampleDone.ready {before : SrdDecoderInst} {allSkipAllow : Bool} {pass : CondPass}
    (done : SampleDone before now allSkipAllow pass) (later : before.firstPos = false)
    (failed : condsHold before.oldPin now before.conditionList = false) (next : Nat) :
    Ready before.conditionList (pass.di.seek next) next now where
  position := rfl
  list := done.list
  idle := done.idle
  unmatched := done.matched.trans failed
  later := done.firstPos.trans later
  remembers ch inside := by
    rw [show (pass.di.seek next).decNumChannels = before.decNumChannels from
      decNumChannels_of_frame done.frame] at inside
    exact done.remembers ch inside

theorem SampleDone.met {before : SrdDecoderInst} {allSkipAllow : Bool} {pass : CondPass}
    (done : SampleDone before now allSkipAllow pass) (later : before.firstPos = false)
    (holds : condsHold before.oldPin now before.conditionList = true) :
    Met before.conditionList pass.di before.absCurSamplenum now where
  position := done.position
  list := done.list
  idle := done.idle
  matched := done.matched.trans holds
  later := done.firstPos.trans later
  remembers ch inside := by
    rw [show pass.di.decNumChannels = before.decNumChannels from
      decNumChannels_of_frame done.frame] at inside
    exact done.remembers ch inside

/-- The first sample from `first` on at which a condition is met, looking back by one sample. -/
def firstEdge (stream : SampleStream) (conds : List Condition) (first count : Nat) : Option Nat :=
  (List.range' first count).find? fun samplenum =>
    condsHold (pinsAt stream (samplenum - 1)) (pinsAt stream samplenum) conds

theorem Ready.scanSamples {first count : Nat}
    (ready : Ready conds di first (pinsAt stream (first - 1))) (holds : di.HoldsStream stream)
    (plain : PlainConds di.decNumChannels conds) (clear : di.matchArray = 0)
    (lower : di.absStartSamplenum ≤ first) (upper : first + count ≤ di.absEndSamplenum) :
    firstEdge stream conds first count =
        (if (di.scanSamples count).1 then some (di.scanSamples count).2.absCurSamplenum
          else none) ∧
      ((di.scanSamples count).1 = false → Ready conds (di.scanSamples count).2 (first + count)
          (pinsAt stream (first + count - 1))) ∧
      ((di.scanSamples count).1 = true →
        Met conds (di.scanSamples count).2 (di.scanSamples count).2.absCurSamplenum
          (pinsAt stream (di.scanSamples count).2.absCurSamplenum)) := by
  induction count generalizing di first with
  | zero =>
      exact ⟨rfl, fun _ => ready, nofun⟩
  | succ count ih =>
      have inside : di.InChunk first := ⟨lower, by omega⟩
      obtain ⟨done, agree⟩ := ready.pass holds plain inside clear false false
      have kept := done.frame
      unfold firstEdge at ih ⊢
      rw [range'_succ, find?_cons]
      cases met : condsHold (pinsAt stream (first - 1)) (pinsAt stream first) conds with
      | true =>
          have matched : (di.matchSample false false).di.absCurMatched = true := by
            rw [done.matched, ready.list, agree]
            exact met
          have result : di.scanSamples (count + 1) = (true, (di.matchSample false false).di) :=
            if_pos matched
          have found : condsHold di.oldPin (pinsAt stream first) di.conditionList = true := by
            rw [ready.list, agree]
            exact met
          have reached := done.met ready.later found
          have position := done.position.trans ready.position
          rw [result, position]
          rw [ready.list, ready.position] at reached
          exact ⟨rfl, nofun, fun _ => reached⟩
      | false =>
          have failed : condsHold di.oldPin (pinsAt stream first) di.conditionList = false := by
            rw [ready.list, agree]
            exact met
          have unmatched : ¬(di.matchSample false false).di.absCurMatched = true := by
            rw [done.matched, failed]
            exact Bool.false_ne_true
          have position : (di.matchSample false false).di.absCurSamplenum + 1 = first + 1 :=
            congrArg (· + 1) (done.position.trans ready.position)
          have result : di.scanSamples (count + 1) =
              ((di.matchSample false false).di.seek (first + 1)).scanSamples count := by
            rw [← position]
            exact if_neg unmatched
          have frame : ((di.matchSample false false).di.seek (first + 1)).frame = di.frame :=
            done.frame
          have start : ((di.matchSample false false).di.seek (first + 1)).absStartSamplenum =
              di.absStartSamplenum := congrArg InstFrame.absStartSamplenum frame
          have stop : ((di.matchSample false false).di.seek (first + 1)).absEndSamplenum =
              di.absEndSamplenum := congrArg InstFrame.absEndSamplenum frame
          have next := done.ready ready.later failed (first + 1)
          rw [ready.list] at next
          rw [result, ← Nat.add_assoc, Nat.add_right_comm]
          refine ih next ?_ ?_ ?_ ?_ ?_
          · intro t range ch
            rw [sampleAt_eq_of_frame frame]
            obtain ⟨least, most⟩ := range
            exact holds t ⟨start ▸ least, stop ▸ most⟩ ch
          · rw [decNumChannels_of_frame frame]
            exact plain
          · exact done.marks (done.matched.trans failed)
          · exact Nat.le_trans (Nat.le_of_eq start) (Nat.le_succ_of_le lower)
          · refine Nat.le_trans ?_ (Nat.le_of_eq stop.symm)
            omega

/-! ## One chunk -/

def rememberedPins (di : SrdDecoderInst) (now : Nat → UInt8) (ch : Nat) : UInt8 :=
  if di.firstPos then
    if di.oldpinsArraySeed.oldPin ch = srdInitialPinSameAsSample0 then now ch
    else di.oldpinsArraySeed.oldPin ch
  else
    di.oldPin ch

theorem oldpinsArraySeed_oldPin (di : SrdDecoderInst) (ch : Nat) : di.oldpinsArraySeed.oldPin ch =
      (di.oldPinsArray.getD
        (replicate di.decNumChannels srdInitialPinSameAsSample0)).getD ch 0 := by
  rw [oldpinsArraySeed_eq]
  rfl

/-- A wait begins or goes on at a sample of the chunk at hand: it is the first that the matcher
tests. -/
structure Facing (stream : SampleStream) (conds : List Condition) (di : SrdDecoderInst)
    (samplenum : Nat) : Prop where
  tested : di.firstTested = samplenum
  fresh : di.firstPos = true → di.absCurMatched = false
  list : di.conditionList = conds
  idle : di.skipZero = false
  holds : di.HoldsStream stream
  inside : di.InChunk samplenum

theorem firstTested_of_unmatched (unmatched : di.absCurMatched = false) :
    di.firstTested = di.absCurSamplenum :=
  if_neg fun flag => Bool.false_ne_true (unmatched.symm.trans flag)

theorem restartSkips_of_plain (plain : PlainConds channels conds) : restartSkips conds = conds := by
  refine (map_congr_left fun cond member => ?_).trans (map_id conds)
  refine (map_congr_left fun term inside => ?_).trans (map_id cond)
  exact if_neg fun both => ((plain cond member).2 term inside).1 both.1

theorem haveNonNullConds_of_plain (plain : PlainConds channels conds)
    (some : conds ≠ []) (list : di.conditionList = conds) : di.haveNonNullConds = true := by
  obtain ⟨cond, member⟩ := exists_mem_of_ne_nil conds some
  unfold haveNonNullConds
  rw [list]
  exact any_eq_true.mpr ⟨cond, member, bne_iff_ne.mpr (plain cond member).1⟩

theorem leaveMatch_plain (plain : PlainConds channels di.conditionList) :
    di.leaveMatch.conditionList = di.conditionList ∧ di.leaveMatch.skipZero = di.skipZero ∧
      di.leaveMatch.firstPos = di.firstPos ∧ di.leaveMatch.oldPin = di.oldPin := by
  unfold leaveMatch
  split
  · exact ⟨restartSkips_of_plain plain, rfl, rfl, rfl⟩
  · exact ⟨rfl, rfl, rfl, rfl⟩

theorem primeScan_oldPin (holds : di.HoldsStream stream)
    (here : di.firstPos = true → di.InChunk di.absCurSamplenum) {ch : Nat}
    (below : ch < di.decNumChannels) :
    di.primeScan.oldPin ch = di.rememberedPins (pinsAt stream di.absCurSamplenum) ch := by
  unfold rememberedPins primeScan
  dsimp only
  split
  · rename_i first
    have sees := holds.sees (here first) ch
    have stored : ∀ values : Nat → UInt8,
        ((List.range di.decNumChannels).map values).getD ch 0 = values ch := by
      intro values
      simp [getD_eq_getElem?_getD, below]
    refine (stored _).trans ?_
    have value : di.oldPinSample ch = pinsAt stream di.absCurSamplenum ch := by
      rw [oldPinSample_eq_termSample, sees]
      rfl
    rw [← value]
    simp only [oldpinsArraySeed_oldPin]
    rfl
  · rfl

theorem rememberedPins_later (later : di.firstPos = false) (now other : Nat → UInt8) :
    di.rememberedPins now = di.rememberedPins other := by
  funext ch
  unfold rememberedPins
  rw [later]
  rfl

theorem Facing.entered (facing : Facing stream conds di samplenum)
    (plain : PlainConds channels conds) :
    Seen conds di.entered samplenum (di.rememberedPins (pinsAt stream samplenum)) := by
  obtain ⟨rfl, fresh, rfl, idle, holds, inside⟩ := facing
  have state := primeScan_scan di
  have list : di.primeScan.conditionList = di.conditionList :=
    congrArg ScanState.conditionList state
  have primedIdle : di.primeScan.skipZero = di.skipZero := congrArg ScanState.skipZero state
  obtain ⟨kept, still, flag, pins⟩ := leaveMatch_plain (list.symm ▸ plain)
  constructor
  case position => exact entered_position di
  case list => exact kept.trans list
  case idle => exact still.trans (primedIdle.trans idle)
  case later => exact flag.trans (congrArg ScanState.firstPos state)
  case remembers =>
      intro ch below
      rw [decNumChannels_of_frame (entered_frame di)] at below
      have before : di.entered.oldPin ch = di.primeScan.oldPin ch := congrFun pins ch
      have here : di.firstPos = true → di.firstTested = di.absCurSamplenum := fun first =>
        firstTested_of_unmatched (fresh first)
      rw [before, primeScan_oldPin holds (fun first => here first ▸ inside) below]
      cases first : di.firstPos with
      | true => rw [here first]
      | false => exact congrFun (rememberedPins_later first _ _) ch

theorem holdsStream_of_frame {left right : SrdDecoderInst} (same : left.frame = right.frame)
    (holds : right.HoldsStream stream) : left.HoldsStream stream := by
  intro t range ch
  have start : left.absStartSamplenum = right.absStartSamplenum :=
    congrArg InstFrame.absStartSamplenum same
  have stop : left.absEndSamplenum = right.absEndSamplenum :=
    congrArg InstFrame.absEndSamplenum same
  rw [sampleAt_eq_of_frame same]
  obtain ⟨least, most⟩ := range
  exact holds t ⟨start ▸ least, stop ▸ most⟩ ch

def constantAt (di : SrdDecoderInst) (ch : Nat) : Bool :=
  di.inbufAt ch = none

theorem termSkipAllow_eq (reader : di.readSample = none)
    (inside : di.InChunk di.absCurSamplenum) : di.termSkipAllow = di.constantAt := by
  funext ch
  unfold termSkipAllow constantAt
  rw [reader]
  obtain ⟨lower, upper⟩ := inside
  cases di.inbufAt ch with
  | none => rfl
  | some buffer =>
      refine decide_eq_decide.mpr (iff_of_false ?_ nofun)
      rintro (before | behind)
      · exact Nat.not_lt.mpr lower before
      · exact Nat.not_le.mpr upper behind

/-- What one call of `find_match` comes to. -/
structure ChunkDone (stream : SampleStream) (conds : List Condition) (before : SrdDecoderInst)
    (samplenum : Nat) (old : Nat → UInt8) (result : Bool × SrdDecoderInst) : Prop where
  frame : result.2.frame = before.frame
  here : condsHold old (pinsAt stream samplenum) conds = true →
    result.1 = true ∧ result.2.absCurSamplenum = samplenum
  jump : condsHold old (pinsAt stream samplenum) conds = false →
    allStopAtConstant old (pinsAt stream samplenum) before.constantAt conds = true →
    result.1 = false ∧ Ready conds result.2 before.absEndSamplenum (pinsAt stream samplenum)
  walk : condsHold old (pinsAt stream samplenum) conds = false →
    allStopAtConstant old (pinsAt stream samplenum) before.constantAt conds = false →
    firstEdge stream conds (samplenum + 1) (before.absEndSamplenum - samplenum - 1) =
        (if result.1 then some result.2.absCurSamplenum else none) ∧
      (result.1 = false →
        Ready conds result.2 before.absEndSamplenum (pinsAt stream (before.absEndSamplenum - 1)))
  met : result.1 = true →
    Met conds result.2 result.2.absCurSamplenum (pinsAt stream result.2.absCurSamplenum)

theorem stopsAtConstant_congr {other : Nat → UInt8}
    (plain : ∀ term ∈ cond, term.type ≠ SrdTermType.skip ∧ term.channel < channels)
    (same : ∀ ch < channels, old ch = other ch) (constant : Nat → Bool) (skipAllow : Bool) :
    stopsAtConstant old now constant skipAllow cond =
      stopsAtConstant other now constant skipAllow cond := by
  induction cond generalizing skipAllow with
  | nil => rfl
  | cons term rest ih =>
      unfold stopsAtConstant termHolds
      rw [same _ (plain term mem_cons_self).2,
        ih fun other member => plain other (mem_cons_of_mem _ member)]

theorem allStopAtConstant_congr (plain : PlainConds channels conds)
    {other : Nat → UInt8} (same : ∀ ch < channels, old ch = other ch) (constant : Nat → Bool) :
    allStopAtConstant old now constant conds = allStopAtConstant other now constant conds := by
  unfold allStopAtConstant
  refine Bool.eq_iff_iff.mpr ?_
  simp only [all_eq_true]
  refine forall₂_congr fun cond member => ?_
  rw [stopsAtConstant_congr (plain cond member).2 same]

theorem Facing.findMatch (facing : Facing stream conds di samplenum)
    (reader : di.readSample = none) (plain : PlainConds di.decNumChannels conds)
    (some : conds ≠ []) :
    ChunkDone stream conds di samplenum (di.rememberedPins (pinsAt stream samplenum))
      di.findMatch := by
  have ready := facing.entered plain
  have tested := facing.tested
  have channels : di.entered.decNumChannels = di.decNumChannels :=
    decNumChannels_of_frame (entered_frame di)
  have plainEntered : PlainConds di.entered.decNumChannels conds := by
    rw [channels]
    exact plain
  have start : di.entered.absStartSamplenum = di.absStartSamplenum :=
    congrArg InstFrame.absStartSamplenum (entered_frame di)
  have stop : di.entered.absEndSamplenum = di.absEndSamplenum :=
    congrArg InstFrame.absEndSamplenum (entered_frame di)
  obtain ⟨lower, upper⟩ := facing.inside
  have inside : di.entered.InChunk samplenum := ⟨start ▸ lower, stop ▸ upper⟩
  have holds := holdsStream_of_frame (entered_frame di) facing.holds
  obtain ⟨done, agree⟩ := ready.pass holds plainEntered inside (entered_matchArray di) false true
  have whole := findMatch_firstPass (haveNonNullConds_of_plain plain some facing.list)
    (tested.symm ▸ upper)
  rw [tested] at whole
  have passed : di.firstPass = di.entered.matchSample false true := rfl
  rw [passed] at whole
  have matched : (di.entered.matchSample false true).di.absCurMatched =
      condsHold (di.rememberedPins (pinsAt stream samplenum)) (pinsAt stream samplenum) conds := by
    rw [done.matched, ready.list]
    exact agree
  have constant : di.entered.termSkipAllow = di.constantAt := by
    rw [termSkipAllow_eq ((congrArg InstFrame.readSample (entered_frame di)).trans reader)]
    · funext ch
      unfold constantAt inbufAt
      rw [show di.entered.inbuf = di.inbuf from congrArg InstFrame.inbuf (entered_frame di)]
    · rw [ready.position]
      exact inside
  have jumps : condsHold (di.rememberedPins (pinsAt stream samplenum))
        (pinsAt stream samplenum) conds = false →
      (di.entered.matchSample false true).allSkipAllow =
        allStopAtConstant (di.rememberedPins (pinsAt stream samplenum))
          (pinsAt stream samplenum) di.constantAt conds := by
    intro failed
    have flag := done.jumps (by rw [ready.list, agree]; exact failed)
    rw [flag, constant, ready.list, Bool.true_and]
    exact allStopAtConstant_congr plainEntered ready.remembers _
  have jumped : condsHold (di.rememberedPins (pinsAt stream samplenum))
        (pinsAt stream samplenum) conds = false →
      allStopAtConstant (di.rememberedPins (pinsAt stream samplenum)) (pinsAt stream samplenum)
        di.constantAt conds = true →
      di.findMatch =
        (false, (di.entered.matchSample false true).di.seek di.absEndSamplenum) := by
    intro failed stuck
    have unmatched : ¬(di.entered.matchSample false true).di.absCurMatched = true := by
      rw [matched, failed]
      exact Bool.false_ne_true
    rw [whole, if_neg unmatched, if_pos ((jumps failed).trans stuck)]
  have walked : condsHold (di.rememberedPins (pinsAt stream samplenum))
        (pinsAt stream samplenum) conds = false →
      allStopAtConstant (di.rememberedPins (pinsAt stream samplenum)) (pinsAt stream samplenum)
        di.constantAt conds = false →
      firstEdge stream conds (samplenum + 1) (di.absEndSamplenum - samplenum - 1) =
          (if di.findMatch.1 then .some di.findMatch.2.absCurSamplenum else none) ∧
        (di.findMatch.1 = false → Ready conds di.findMatch.2 di.absEndSamplenum
            (pinsAt stream (di.absEndSamplenum - 1))) ∧
        (di.findMatch.1 = true → Met conds di.findMatch.2 di.findMatch.2.absCurSamplenum
            (pinsAt stream di.findMatch.2.absCurSamplenum)) := by
    intro failed goesOn
    have unmatched : ¬(di.entered.matchSample false true).di.absCurMatched = true := by
      rw [matched, failed]
      exact Bool.false_ne_true
    have noJump : ¬(di.entered.matchSample false true).allSkipAllow = true := by
      rw [jumps failed, goesOn]
      exact Bool.false_ne_true
    have calm : condsHold di.entered.oldPin (pinsAt stream samplenum)
        di.entered.conditionList = false := by
      rw [ready.list, agree]
      exact failed
    have next := done.ready ready.later calm (samplenum + 1)
    rw [ready.list] at next
    have frame : ((di.entered.matchSample false true).di.seek (samplenum + 1)).frame =
        di.frame := (done.frame).trans (entered_frame di)
    have nextStop : ((di.entered.matchSample false true).di.seek
        (samplenum + 1)).absEndSamplenum = di.absEndSamplenum :=
      congrArg InstFrame.absEndSamplenum frame
    have nextStart : ((di.entered.matchSample false true).di.seek
        (samplenum + 1)).absStartSamplenum = di.absStartSamplenum :=
      congrArg InstFrame.absStartSamplenum frame
    have fits : samplenum + 1 + (di.absEndSamplenum - samplenum - 1) ≤
        ((di.entered.matchSample false true).di.seek (samplenum + 1)).absEndSamplenum := by
      rw [nextStop]
      omega
    have scanned := next.scanSamples (holdsStream_of_frame frame facing.holds)
      (by rw [decNumChannels_of_frame frame]; exact plain)
      (done.marks (done.matched.trans calm))
      (Nat.le_trans (Nat.le_of_eq nextStart) (Nat.le_succ_of_le lower))
      fits
    have last : samplenum + 1 + (di.absEndSamplenum - samplenum - 1) = di.absEndSamplenum := by
      omega
    rw [last] at scanned
    rw [whole, if_neg unmatched, if_neg noJump]
    exact scanned
  constructor
  case frame => exact findMatch_frame di
  case here =>
      intro met
      rw [whole, if_pos (matched.trans met)]
      exact ⟨rfl, done.position.trans ready.position⟩
  case jump =>
      intro failed stuck
      have next := done.ready ready.later (by rw [ready.list, agree]; exact failed)
        di.absEndSamplenum
      rw [ready.list] at next
      rw [jumped failed stuck]
      exact ⟨rfl, next⟩
  case walk =>
      intro failed goesOn
      obtain ⟨first, usedUp, -⟩ := walked failed goesOn
      exact ⟨first, usedUp⟩
  case met =>
      intro found
      cases verdict : condsHold (di.rememberedPins (pinsAt stream samplenum))
          (pinsAt stream samplenum) conds with
      | true =>
          have reached := done.met ready.later (by rw [ready.list, agree]; exact verdict)
          rw [ready.list, ready.position] at reached
          rw [whole, if_pos (matched.trans verdict)]
          dsimp only
          rw [done.position, ready.position]
          exact reached
      | false =>
          cases stuck : allStopAtConstant (di.rememberedPins (pinsAt stream samplenum))
              (pinsAt stream samplenum) di.constantAt conds with
          | true =>
              rw [jumped verdict stuck] at found
              cases found
          | false => exact (walked verdict stuck).2.2 found

end SrdDecoderInst

end SigrokDecode
