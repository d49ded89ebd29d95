import SigrokDecode.Instance.Chunks
import SigrokDecode.Instance.TermPasses

/-!
# The checks of a run

A call of `find_match` makes one pass over the conditions for each sample that it looks at. Here is
what it means that something holds of every check of a condition, and of every call in a run.
-/

namespace SigrokDecode

namespace SrdDecoderInst

/-- Every condition of a pass satisfies `P` together with the state in which it is checked. -/
def PassAll (P : SrdDecoderInst → Condition → Prop) :
    SrdDecoderInst → Bool → Bool → Nat → List Condition → Prop
  | _, _, _, _, [] => True
  | di, skipAllow, allSkipAllow, j, cond :: rest =>
      let check := di.checkCond skipAllow allSkipAllow j cond
      (cond ≠ [] → P di cond) ∧ PassAll P check.di check.skipAllow check.allSkipAllow (j + 1) rest

/-- `PassAll` for each pass of `scanSamples`; `P` is told in which state the pass begins. -/
def ScanAll (P : SrdDecoderInst → SrdDecoderInst → Condition → Prop) : Nat → SrdDecoderInst → Prop
  | 0, _ => True
  | count + 1, di =>
      let after := (di.matchSample false false).di
      PassAll (P di) di false false 0 di.conditionList ∧ (after.absCurMatched = false →
          ScanAll P count (after.seek (after.absCurSamplenum + 1)))

/-- `PassAll` for each pass that a call of `find_match` makes. -/
def CallAll (P : SrdDecoderInst → SrdDecoderInst → Condition → Prop) (di : SrdDecoderInst) : Prop :=
  di.haveNonNullConds = true → di.firstTested < di.absEndSamplenum →
    PassAll (P di.entered) di.entered false true 0 di.entered.conditionList ∧
      (di.firstPass.di.absCurMatched = false → di.firstPass.allSkipAllow = false →
        ScanAll P (di.absEndSamplenum - di.firstTested - 1)
          (di.firstPass.di.seek (di.firstTested + 1)))

def lastCall (call : Nat) : List WaitReport → Nat
  | [] => call
  | (samplenum, _) :: reports => lastCall samplenum reports

/-- Every call of `find_match` on the chunk at hand satisfies `C`, which is told at which sample the
wait was called. -/
def ServesAll (C : Nat → SrdDecoderInst → Prop) (kind : WorkerKind) :
    Nat → List (List Condition) → SrdDecoderInst → Prop
  | _, [], _ => True
  | call, _ :: rest, di =>
      (di.wantWaitTerminate = false → C call di) ∧
        match di.waitRegion kind with
        | (.matched samplenum _, after) =>
            ServesAll C kind samplenum rest (after.nextWait rest)
        | (_, _) => True

/-- Every call of `find_match` satisfies `C` while the chunks are handed over. -/
def DecodesAll (C : Nat → SrdDecoderInst → Prop) (kind : WorkerKind) :
    List SampleChunk → Nat → List (List Condition) → SrdDecoderInst → Prop
  | [], _, _, _ => True
  | chunk :: chunks, call, waits, di =>
      match di.srdInstDecodeHandOver chunk with
      | (.ok, held) =>
          let served := serveWaits kind waits held
          ServesAll C kind call waits held ∧ (served.2.1 ≠ [] →
              DecodesAll C kind chunks (lastCall call served.1) served.2.1 served.2.2)
      | (_, _) => True

/-- Every call of `find_match` in the run from sample `start` satisfies `C`. -/
def RunsAll (C : Nat → SrdDecoderInst → Prop) (kind : WorkerKind) (start : Nat)
    (chunks : List SampleChunk) (waits : List (List Condition)) (di : SrdDecoderInst) : Prop :=
  DecodesAll C kind chunks start waits (di.srdInstStart.nextWait waits)

end SrdDecoderInst

end SigrokDecode
