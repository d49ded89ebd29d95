import Mathlib.Data.List.Find
import SigrokDecode.Instance.HandOffSafety
import SigrokDecode.Instance.PlainScan

/-!
# Waits behind packed fetches

`c_consume_samples` moves a decoder on without a look at the pins. A `c_wait` behind it compares
its first sample with pins from further back.
-/

set_option linter.dupNamespace false

namespace SigrokDecode

open Foundation List

namespace SrdDecoderInst

/-- `c_consume_samples`; sample numbers are unsigned numbers of 64 bits. -/
def cConsumeSamples (di : SrdDecoderInst) (numSamples : Nat) : SrdStatus × SrdDecoderInst :=
  if numSamples = 0 then
    (.ok, di)
  else if ¬di.gotNewSamples then
    (if di.wantWaitTerminate then .errTermReq else .errArg, di)
  else
    let available := (2 ^ 64 + di.absEndSamplenum - di.absCurSamplenum) % 2 ^ 64
    if available < numSamples then
      (.errArg, di)
    else
      let di :=
        { di with
          absCurSamplenum := (di.absCurSamplenum + numSamples) % 2 ^ 64
          absCurMatched := false }
      let di :=
        if di.absEndSamplenum ≤ di.absCurSamplenum ∨ di.wantWaitTerminate then
          { di.releaseChunk with inbufConst := none }
        else
          di
      (if di.wantWaitTerminate then .errTermReq else .ok, di)

end SrdDecoderInst

open SrdDecoderInst

/-- The instance and the chunks that the host has still to hand over. -/
structure Worker where
  di : SrdDecoderInst
  chunks : List SampleChunk

abbrev WaitEnd := Nat × Worker

def waitLater : List SampleChunk → SrdDecoderInst → Option WaitEnd
  | [], _ => none
  | chunk :: chunks, di =>
      match di.srdInstDecodeHandOver chunk with
      | (.ok, held) =>
          match held.waitRegion .cDecoder with
          | (.matched samplenum _, after) => some (samplenum, ⟨after, chunks⟩)
          | (_, after) => waitLater chunks after
      | (_, _) => none

def waitReturn (chunks : List SampleChunk) (di : SrdDecoderInst) : Option WaitEnd :=
  match di.waitRegion .cDecoder with
  | (.matched samplenum _, after) => some (samplenum, ⟨after, chunks⟩)
  | (_, after) => waitLater chunks after

/-- The loop of `all_terms_match` comes to a term that looks at the old pins. -/
def readsOldPins : Condition → Bool
  | [] => false
  | term :: rest =>
      if term.type = .skip then (sampleMatches 0 0 term).1 && readsOldPins rest else true

def Worker.PinsMissing (w : Worker) (conds : List Condition) : Prop :=
  w.di.oldPinsArray = none ∧ w.di.firstPos = false ∧ (w.di.gotNewSamples = true ∨ w.chunks ≠ []) ∧
      (w.di.startWait conds).conditionList.any readsOldPins = true

instance (w : Worker) (conds : List Condition) : Decidable (w.PinsMissing conds) :=
  inferInstanceAs (Decidable (_ ∧ _ ∧ _ ∧ _))

inductive SampleCall
  | fetch (channels : List Nat) (maxSamples : Nat)
  | consume (numSamples : Nat)
  | wait (conds : List Condition)

def SampleCall.run : SampleCall → Worker → Option Worker
  | .fetch channels maxSamples, w =>
      match w.di.cFetchPackedMulti channels maxSamples with
      | some (_, di) => some { w with di }
      | none =>
          match w.chunks with
          | [] => none
          | chunk :: chunks =>
              match w.di.srdInstDecodeHandOver chunk with
              | (.ok, held) =>
                  (held.cFetchPackedMulti channels maxSamples).map fun result =>
                    { di := result.2, chunks }
              | (_, _) => none
  | .consume numSamples, w => some { w with di := (w.di.cConsumeSamples numSamples).2 }
  | .wait conds, w =>
      if w.PinsMissing conds then none
      else (waitReturn w.chunks (w.di.startWait conds)).map Prod.snd

/-- `undefined` is a read through the pointer to the old pins while it is `NULL`. -/
inductive WaitOutcome
  | reported (samplenum : Nat)
  | unanswered
  | undefined
  deriving DecidableEq

def WaitOutcome.ofSample : Option Nat → WaitOutcome
  | some samplenum => .reported samplenum
  | none => .unanswered

/-- What comes of a `c_wait`. -/
def Worker.wait (w : Worker) (conds : List Condition) : WaitOutcome :=
  if w.PinsMissing conds then .undefined
  else .ofSample ((waitReturn w.chunks (w.di.startWait conds)).map Prod.fst)

def pinsBefore (stream : SampleStream) (start : Nat) (initial : Nat → UInt8) (samplenum : Nat) :
    Nat → UInt8 :=
  if samplenum = start then initial else pinsAt stream (samplenum - 1)

/-- The first sample from `first` on that meets one of the conditions. -/
def firstMet (stream : SampleStream) (start : Nat) (initial : Nat → UInt8)
    (conds : List Condition) (first stop : Nat) : Option Nat :=
  (List.range' first (stop - first)).find? fun samplenum =>
    condsHold (pinsBefore stream start initial samplenum) (pinsAt stream samplenum) conds

section Condition

variable (stream : SampleStream) (start : Nat) (initial : Nat → UInt8) (conds : List Condition)

/-- From `first` to the end of a chunk: with the pins that the matcher remembers, `old`, its first
sample has the verdict that it has with the pins before it, and where all conditions fail there on
constant channels none is met in the rest of the chunk. `later` says the same about what comes
after the chunk, with the pins that are remembered then. -/
def LooksBack (old : Nat → UInt8) (first stop : Nat) (constant : Nat → Bool)
    (later : (Nat → UInt8) → Prop) : Prop :=
  condsHold old (pinsAt stream first) conds =
      condsHold (pinsBefore stream start initial first) (pinsAt stream first) conds ∧
    (condsHold old (pinsAt stream first) conds = false →
      if allStopAtConstant old (pinsAt stream first) constant conds = true then
        firstEdge stream conds (first + 1) (stop - first - 1) = none ∧ later (pinsAt stream first)
      else
        firstEdge stream conds (first + 1) (stop - first - 1) = none →
          later (pinsAt stream (stop - 1)))

def SampleChunk.constantAt (chunk : SampleChunk) (ch : Nat) : Bool :=
  (chunk.inbuf.bind fun buffers => buffers.getD ch none) = none

def LooksBackLater : List SampleChunk → (Nat → UInt8) → Prop
  | [], _ => True
  | chunk :: chunks, old =>
      LooksBack stream start initial conds old chunk.absStartSamplenum chunk.absEndSamplenum
        chunk.constantAt (LooksBackLater chunks)

end Condition

def Worker.position (start : Nat) (w : Worker) : Nat :=
  if w.di.gotNewSamples = false ∧ w.di.firstPos = true then start else w.di.absCurSamplenum

/-- The pins that the matcher remembers do in place of those of the sample before. -/
def Worker.PinsDo (stream : SampleStream) (start : Nat) (initial : Nat → UInt8)
    (conds : List Condition) (w : Worker) : Prop :=
  if w.di.gotNewSamples = true then
    LooksBack stream start initial conds
      (w.di.rememberedPins (pinsAt stream w.di.absCurSamplenum)) w.di.absCurSamplenum
      w.di.absEndSamplenum w.di.constantAt (LooksBackLater stream start initial conds w.chunks)
  else
    LooksBackLater stream start initial conds w.chunks
      (w.di.rememberedPins (pinsAt stream (w.position start)))

/-- No zero skip of an earlier wait has led the worker away from the samples at hand, or is
pending. -/
structure Worker.Settled (stop : Nat) (w : Worker) : Prop where
  idle : w.di.skipZero = false
  inside : w.di.gotNewSamples = true → w.di.InChunk w.di.absCurSamplenum
  between : w.di.gotNewSamples = false → w.di.firstPos = false →
    Consecutive w.di.absCurSamplenum stop w.chunks

variable {stream : SampleStream} {start stop : Nat} {initial : Nat → UInt8}
variable {conds : List Condition}

theorem firstEdge_add (first count more : Nat) : firstEdge stream conds first (count + more) =
      (firstEdge stream conds first count).or (firstEdge stream conds (first + count) more) := by
  unfold firstEdge
  rw [← range'_append_1, find?_append]

theorem firstEdge_bounds {first count samplenum : Nat}
    (found : firstEdge stream conds first count = some samplenum) :
    first ≤ samplenum ∧ samplenum < first + count :=
  mem_range'_1.mp (mem_of_find?_eq_some found)

variable {first : Nat} {chunks : List SampleChunk} {old : Nat → UInt8} {di : SrdDecoderInst}
  {chunk : SampleChunk} {channels : List Nat} {w after : Worker}

theorem firstMet_later (later : start < first) : firstMet stream start initial conds first stop =
      firstEdge stream conds first (stop - first) := by
  unfold firstMet firstEdge
  refine find?_congr fun samplenum member => ?_
  have least := (mem_range'_1.mp member).1
  unfold pinsBefore
  rw [if_neg (by omega)]

theorem firstMet_eq (begun : start ≤ first) (more : first < stop) :
    firstMet stream start initial conds first stop =
      if condsHold (pinsBefore stream start initial first) (pinsAt stream first) conds = true
      then some first
      else firstEdge stream conds (first + 1) (stop - first - 1) := by
  have count : stop - first = stop - first - 1 + 1 := by omega
  have tail : firstMet stream start initial conds (first + 1) stop =
      firstEdge stream conds (first + 1) (stop - (first + 1)) :=
    firstMet_later (Nat.lt_succ_of_le begun)
  unfold firstMet at tail ⊢
  rw [count, range'_succ, find?_cons]
  split
  · rename_i met
    rw [if_pos met]
  · rename_i unmet
    rw [if_neg (by rw [unmet]; exact Bool.false_ne_true)]
    rw [show stop - (first + 1) = stop - first - 1 by omega] at tail
    exact tail

/-- A wait has a chunk at hand. -/
structure Working (stream : SampleStream) (stop : Nat) (conds : List Condition)
    (chunks : List SampleChunk) (di : SrdDecoderInst) (first : Nat) : Prop where
  facing : Facing stream conds di first
  samples : di.gotNewSamples = true
  running : di.wantWaitTerminate = false
  reader : di.readSample = none
  plain : PlainConds di.decNumChannels conds
  rest : Consecutive di.absEndSamplenum stop chunks
  delivers : ∀ part ∈ chunks, part.Delivers stream

/-- A wait has no chunk at hand; the next sample is `first`. -/
structure Resting (stream : SampleStream) (stop : Nat) (conds : List Condition)
    (chunks : List SampleChunk) (di : SrdDecoderInst) (first : Nat) (old : Nat → UInt8) :
    Prop where
  position : di.firstPos = true ∨ di.absCurSamplenum = first
  list : di.conditionList = conds
  idle : di.skipZero = false
  unmatched : di.absCurMatched = false
  remembers : ∀ ch < di.decNumChannels, di.rememberedPins (pinsAt stream first) ch = old ch
  noSamples : di.gotNewSamples = false
  running : di.wantWaitTerminate = false
  reader : di.readSample = none
  plain : PlainConds di.decNumChannels conds
  rest : Consecutive first stop chunks
  delivers : ∀ part ∈ chunks, part.Delivers stream

/-- The answer is no earlier than `first`, and it is the one expected exactly if `right` holds. -/
structure Judged (right : Prop) (first : Nat) (answer expected : Option Nat) : Prop where
  bound : ∀ samplenum, answer = some samplenum → first ≤ samplenum
  correct : answer = expected ↔ right

theorem Judged.congr {right other : Prop} {answer expected : Option Nat}
    (judged : Judged right first answer expected) (same : right ↔ other) :
    Judged other first answer expected :=
  ⟨judged.bound, judged.correct.trans same⟩

theorem Working.resting {di after : SrdDecoderInst}
    (working : Working stream stop conds chunks di first)
    (frame : after.frame = di.frame) (ready : Ready conds after di.absEndSamplenum old) :
    Resting stream stop conds chunks after.releaseChunk di.absEndSamplenum old where
  position := Or.inr ready.position
  list := ready.list
  idle := ready.idle
  unmatched := ready.unmatched
  remembers ch below := by
    have later : after.releaseChunk.firstPos = false := ready.later
    unfold rememberedPins
    rw [later]
    exact ready.remembers ch below
  noSamples := rfl
  running := (congrArg InstFrame.wantWaitTerminate frame).trans working.running
  reader := (congrArg InstFrame.readSample frame).trans working.reader
  plain := by
    change PlainConds after.decNumChannels conds
    rw [decNumChannels_of_frame frame]
    exact working.plain
  rest := working.rest
  delivers := working.delivers

theorem Working.waitReturn_found
    (working : Working stream stop conds chunks di first) (found : di.findMatch.1 = true) :
    (waitReturn chunks di).map Prod.fst = some di.findMatch.2.absCurSamplenum := by
  have region := waitRegion_eq .cDecoder working.running working.samples
  rw [if_pos found] at region
  unfold waitReturn
  rw [region]
  rfl

theorem Working.waitReturn_usedUp
    (working : Working stream stop conds chunks di first) (usedUp : di.findMatch.1 = false) :
    waitReturn chunks di = waitLater chunks di.findMatch.2.releaseChunk := by
  have region := waitRegion_eq .cDecoder working.running working.samples
  rw [if_neg (by rw [usedUp]; exact Bool.false_ne_true)] at region
  unfold waitReturn
  rw [region]

theorem Judged.behind {right : Prop} {first boundary : Nat} {answer inside behind : Option Nat}
    (judged : Judged right boundary answer behind) (before : first < boundary)
    (bounds : ∀ samplenum, inside = some samplenum → samplenum < boundary) (verdict : Bool) :
    Judged (false = verdict ∧ inside = none ∧ right) first answer
      (if verdict = true then some first else inside.or behind) where
  bound samplenum found := Nat.le_trans (Nat.le_of_lt before) (judged.bound samplenum found)
  correct := by
    cases verdict with
    | true =>
        refine iff_of_false (fun same => ?_) nofun
        exact Nat.not_le.mpr before (judged.bound first same)
    | false =>
        cases inside with
        | none =>
            refine judged.correct.trans ?_
            exact ⟨fun holds => ⟨rfl, rfl, holds⟩, fun both => both.2.2⟩
        | some samplenum =>
            refine iff_of_false (fun same => ?_) fun both => nomatch both.2.1
            exact Nat.not_le.mpr (bounds samplenum rfl) (judged.bound samplenum same)

theorem waitReturn_judged (some : conds ≠ []) (begun : start ≤ first)
    (working : Working stream stop conds chunks di first)
    (later : ∀ after old, Resting stream stop conds chunks after di.absEndSamplenum old →
      Judged (LooksBackLater stream start initial conds chunks old) di.absEndSamplenum
        ((waitLater chunks after).map Prod.fst)
        (firstMet stream start initial conds di.absEndSamplenum stop)) :
    Judged (LooksBack stream start initial conds (di.rememberedPins (pinsAt stream first)) first
        di.absEndSamplenum di.constantAt (LooksBackLater stream start initial conds chunks))
      first ((waitReturn chunks di).map Prod.fst)
      (firstMet stream start initial conds first stop) := by
  have done := working.facing.findMatch working.reader working.plain some
  obtain ⟨lower, upper⟩ := working.facing.inside
  have upto := consecutive_le working.rest
  have met : firstMet stream start initial conds first stop = _ :=
    firstMet_eq begun (Nat.lt_of_lt_of_le upper upto)
  have count : stop - first - 1 =
      (di.absEndSamplenum - first - 1) + (stop - di.absEndSamplenum) := by omega
  have next : first + 1 + (di.absEndSamplenum - first - 1) = di.absEndSamplenum := by omega
  rw [count, firstEdge_add, next] at met
  rw [met]
  rw [firstMet_later (Nat.lt_of_le_of_lt begun upper)] at later
  have bounds : ∀ samplenum,
      firstEdge stream conds (first + 1) (di.absEndSamplenum - first - 1) = .some samplenum →
        samplenum < di.absEndSamplenum := by
    intro samplenum found
    exact next ▸ (firstEdge_bounds found).2
  unfold LooksBack
  cases verdict : condsHold (di.rememberedPins (pinsAt stream first)) (pinsAt stream first)
      conds with
  | true =>
      obtain ⟨found, here⟩ := done.here verdict
      rw [working.waitReturn_found found, here]
      refine ⟨fun samplenum same => Nat.le_of_eq (Option.some.inj same), ?_⟩
      cases condsHold (pinsBefore stream start initial first) (pinsAt stream first) conds with
      | true => exact iff_of_true rfl ⟨rfl, nofun⟩
      | false =>
          refine iff_of_false (fun same => ?_) fun both => nomatch both.1
          rcases Option.or_eq_some_iff.mp same.symm with inside | ⟨-, behind⟩
          · exact Nat.not_succ_le_self first (firstEdge_bounds inside).1
          · exact Nat.not_le.mpr upper (firstEdge_bounds behind).1
  | false =>
      rw [forall_prop_of_true rfl]
      cases stuck : allStopAtConstant (di.rememberedPins (pinsAt stream first))
          (pinsAt stream first) di.constantAt conds with
      | true =>
          obtain ⟨usedUp, ready⟩ := done.jump verdict stuck
          rw [working.waitReturn_usedUp usedUp]
          exact (later _ _ (working.resting done.frame ready)).behind upper bounds _
      | false =>
          obtain ⟨inside, ready⟩ := done.walk verdict stuck
          cases found : di.findMatch.1 with
          | true =>
              rw [found, if_pos rfl] at inside
              rw [working.waitReturn_found found]
              refine ⟨fun samplenum same => ?_, ?_⟩
              · have bound := (firstEdge_bounds (inside.trans same)).1
                omega
              · rw [inside]
                cases condsHold (pinsBefore stream start initial first) (pinsAt stream first)
                    conds with
                | true =>
                    refine iff_of_false (fun same => ?_) fun both => nomatch both.1
                    have bound := (firstEdge_bounds (inside.trans same)).1
                    exact Nat.not_succ_le_self first bound
                | false => exact iff_of_true rfl ⟨rfl, nofun⟩
          | false =>
              rw [found, if_neg Bool.false_ne_true] at inside
              rw [working.waitReturn_usedUp found]
              have judged := (later _ _ (working.resting done.frame (ready found))).behind upper
                bounds (condsHold (pinsBefore stream start initial first) (pinsAt stream first)
                  conds)
              refine judged.congr (and_congr_right fun _ => ?_)
              exact ⟨fun both _ => both.2, fun holds => ⟨inside, holds inside⟩⟩

theorem LooksBack.congr {channels : Nat} (plain : PlainConds channels conds)
    {old other : Nat → UInt8} (same : ∀ ch < channels, old ch = other ch) (first stop : Nat)
    (constant : Nat → Bool) (later : (Nat → UInt8) → Prop) :
    LooksBack stream start initial conds old first stop constant later ↔
      LooksBack stream start initial conds other first stop constant later := by
  unfold LooksBack
  rw [condsHold_congr plain _ same, allStopAtConstant_congr plain same]

theorem handOver_ok (delivers : chunk.Delivers stream)
    (position : di.firstPos = true ∨ di.absCurSamplenum = chunk.absStartSamplenum)
    (nonempty : chunk.absStartSamplenum < chunk.absEndSamplenum) :
    di.srdInstDecodeHandOver chunk = (.ok, (di.seekFirst chunk).storeChunk chunk) ∧
      (di.seekFirst chunk).absCurSamplenum = chunk.absStartSamplenum := by
  have atStart : (di.seekFirst chunk).absCurSamplenum = chunk.absStartSamplenum := by
    unfold seekFirst
    rcases position with before | there
    · rw [if_pos before, seek_absCurSamplenum]
    · split
      · rfl
      · exact there
  refine ⟨?_, atStart⟩
  have usable : ¬(chunk.inbuf = none ∨ chunk.inbuflen = 0) := by
    rintro (absent | empty)
    · exact delivers.inbuf absent
    · exact delivers.inbuflen empty
  have inOrder : ¬(chunk.absStartSamplenum ≠ (di.seekFirst chunk).absCurSamplenum ∨
      chunk.absEndSamplenum < chunk.absStartSamplenum) := by omega
  rw [srdInstDecodeHandOver, if_neg usable, if_neg inOrder]

theorem seekFirst_eq_seek (di : SrdDecoderInst) (chunk : SampleChunk) :
    di.seekFirst chunk = di.seek (di.seekFirst chunk).absCurSamplenum := by
  unfold seekFirst
  split
  · rfl
  · rfl

theorem rememberedPins_congr {left right : SrdDecoderInst}
    (firstPos : left.firstPos = right.firstPos) (pins : left.oldPinsArray = right.oldPinsArray)
    (channels : left.decNumChannels = right.decNumChannels) (now : Nat → UInt8) (ch : Nat) :
    left.rememberedPins now ch = right.rememberedPins now ch := by
  unfold rememberedPins
  rw [oldpinsArraySeed_oldPin, oldpinsArraySeed_oldPin, firstPos, pins, channels]
  unfold SrdDecoderInst.oldPin
  rw [pins]

theorem Resting.working (resting : Resting stream stop conds (chunk :: chunks) di first old) :
    di.srdInstDecodeHandOver chunk = (.ok, (di.seekFirst chunk).storeChunk chunk) ∧
      Working stream stop conds chunks ((di.seekFirst chunk).storeChunk chunk) first ∧
        ∀ ch < di.decNumChannels,
          ((di.seekFirst chunk).storeChunk chunk).rememberedPins (pinsAt stream first) ch =
            old ch := by
  obtain ⟨rfl, nonempty, rest⟩ := resting.rest
  have delivers := resting.delivers chunk mem_cons_self
  obtain ⟨accepted, atStart⟩ := handOver_ok delivers resting.position nonempty
  refine ⟨accepted, ?_, ?_⟩
  · rw [seekFirst_eq_seek] at atStart ⊢
    constructor
    case facing =>
        constructor
        case tested =>
            refine (firstTested_of_unmatched ?_).trans atStart
            exact resting.unmatched
        case fresh => exact fun _ => resting.unmatched
        case list => exact resting.list
        case idle => exact resting.idle
        case holds => exact storeChunk_holdsStream delivers resting.reader
        case inside => exact ⟨Nat.le_refl _, nonempty⟩
    case samples => rfl
    case running => exact resting.running
    case reader => exact resting.reader
    case plain => exact resting.plain
    case rest => exact rest
    case delivers => exact fun part member => resting.delivers part (mem_cons_of_mem _ member)
  · intro ch below
    rw [← resting.remembers ch below, seekFirst_eq_seek]
    apply rememberedPins_congr
    · rfl
    · rfl
    · rfl

theorem waitLater_judged (some : conds ≠ []) (begun : start ≤ first)
    (resting : Resting stream stop conds chunks di first old) :
    Judged (LooksBackLater stream start initial conds chunks old) first
      ((waitLater chunks di).map Prod.fst) (firstMet stream start initial conds first stop) := by
  induction chunks generalizing di first old with
  | nil =>
      have done : first = stop := resting.rest
      refine ⟨nofun, iff_of_true ?_ trivial⟩
      unfold firstMet
      rw [done, Nat.sub_self]
      rfl
  | cons chunk chunks ih =>
      obtain ⟨accepted, working, remembers⟩ := resting.working
      have answer : waitLater (chunk :: chunks) di =
          waitReturn chunks ((di.seekFirst chunk).storeChunk chunk) := by
        rw [waitLater, accepted]
        rfl
      have before : start ≤ ((di.seekFirst chunk).storeChunk chunk).absEndSamplenum :=
        Nat.le_trans begun (Nat.le_of_lt working.facing.inside.2)
      have judged : Judged _ first _ (firstMet stream start initial conds first stop) :=
        waitReturn_judged some begun working fun after pins later =>
          ih before later
      rw [answer]
      refine judged.congr ?_
      obtain ⟨rfl, -, -⟩ := resting.rest
      exact LooksBack.congr resting.plain remembers _ _ _ _

/-! ## Runs -/

structure Loaded (stream : SampleStream) (start stop : Nat) (chunks : List SampleChunk)
    (di : SrdDecoderInst) : Prop where
  samples : di.gotNewSamples = true
  running : di.wantWaitTerminate = false
  reader : di.readSample = none
  holds : di.HoldsStream stream
  lower : start ≤ di.absStartSamplenum
  nonempty : di.absStartSamplenum < di.absEndSamplenum
  rest : Consecutive di.absEndSamplenum stop chunks
  delivers : ∀ part ∈ chunks, part.Delivers stream

structure Waiting (stream : SampleStream) (start stop : Nat) (chunks : List SampleChunk)
    (di : SrdDecoderInst) : Prop where
  noSamples : di.gotNewSamples = false
  running : di.wantWaitTerminate = false
  reader : di.readSample = none
  rest : ∃ boundary, start ≤ boundary ∧ (di.firstPos = true → boundary = start) ∧
    Consecutive boundary stop chunks
  delivers : ∀ part ∈ chunks, part.Delivers stream

/-- What holds between the calls of a decoder. -/
def Worker.Fed (stream : SampleStream) (start stop : Nat) (w : Worker) : Prop :=
  Waiting stream start stop w.chunks w.di ∨
    (Loaded stream start stop w.chunks w.di ∧ w.di.firstPos = false)

theorem Loaded.congr {di after : SrdDecoderInst}
    (loaded : Loaded stream start stop chunks di) (same : SameChunk after di) :
    Loaded stream start stop chunks after where
  samples := same.gotNewSamples.trans loaded.samples
  running := same.wantWaitTerminate.trans loaded.running
  reader := same.readSample.trans loaded.reader
  holds := by
    intro samplenum inside ch
    rw [SrdDecoderInst.SameChunk.sampleAt_eq same]
    obtain ⟨least, most⟩ := inside
    exact loaded.holds samplenum ⟨same.absStartSamplenum ▸ least, same.absEndSamplenum ▸ most⟩ ch
  lower := loaded.lower.trans (Nat.le_of_eq same.absStartSamplenum.symm)
  nonempty := by
    rw [same.absStartSamplenum, same.absEndSamplenum]
    exact loaded.nonempty
  rest := by
    rw [same.absEndSamplenum]
    exact loaded.rest
  delivers := loaded.delivers

variable {held : SrdDecoderInst} {maxSamples : Nat}

theorem handOver_accepted {di : SrdDecoderInst}
    (accepted : di.srdInstDecodeHandOver chunk = (.ok, held)) :
    held = (di.seekFirst chunk).storeChunk chunk ∧
      chunk.absStartSamplenum = (di.seekFirst chunk).absCurSamplenum := by
  unfold srdInstDecodeHandOver at accepted
  split at accepted
  · cases accepted
  · dsimp only at accepted
    split at accepted
    · cases accepted
    · rename_i inOrder
      rw [not_or, not_not] at inOrder
      cases accepted
      exact ⟨rfl, inOrder.1⟩

theorem Waiting.handOver
    {di : SrdDecoderInst} (waiting : Waiting stream start stop (chunk :: chunks) di)
    (accepted : di.srdInstDecodeHandOver chunk = (.ok, held)) :
    Loaded stream start stop chunks held ∧
      (held.firstPos = true → held.absCurSamplenum = held.absStartSamplenum) := by
  obtain ⟨result, -⟩ := handOver_accepted accepted
  obtain ⟨boundary, least, -, first, nonempty, rest⟩ := waiting.rest
  have delivers := waiting.delivers chunk mem_cons_self
  rw [seekFirst_eq_seek] at result
  subst result
  constructor
  · constructor
    case samples => rfl
    case running => exact waiting.running
    case reader => exact waiting.reader
    case holds => exact storeChunk_holdsStream delivers waiting.reader
    case lower => exact least.trans (Nat.le_of_eq first.symm)
    case nonempty => exact nonempty
    case rest => exact rest
    case delivers => exact fun part member => waiting.delivers part (mem_cons_of_mem _ member)
  · intro before
    have untouched : di.firstPos = true := before
    change (di.seekFirst chunk).absCurSamplenum = chunk.absStartSamplenum
    unfold seekFirst
    rw [if_pos untouched, seek_absCurSamplenum]

theorem cFetchPackedMulti_di {di after : SrdDecoderInst} {block : Option PackedBlock}
    (returned : di.cFetchPackedMulti channels maxSamples = some (block, after)) :
    after = di ∨ after = { di with firstPos := false } := by
  unfold cFetchPackedMulti at returned
  split at returned
  · cases returned
    exact Or.inl rfl
  · split at returned
    · cases returned
    · split at returned
      · cases returned
        exact Or.inl rfl
      · cases returned
        exact Or.inr rfl

theorem Loaded.fetch {di after : SrdDecoderInst} {block : Option PackedBlock}
    (loaded : Loaded stream start stop chunks di)
    (first : di.firstPos = true → di.absCurSamplenum = di.absStartSamplenum)
    (asked : ¬(channels = [] ∨ maxSamples = 0))
    (returned : di.cFetchPackedMulti channels maxSamples = some (block, after)) :
    Loaded stream start stop chunks after ∧ after.firstPos = false := by
  have frame : after.frame = di.frame := by
    rcases cFetchPackedMulti_di returned with rfl | rfl
    · rfl
    · rfl
  refine ⟨loaded.congr (sameChunk_of_frame frame), ?_⟩
  cases before : di.firstPos with
  | false =>
      rcases cFetchPackedMulti_di returned with rfl | rfl
      · exact before
      · rfl
  | true =>
      have inside : ¬di.absEndSamplenum ≤ max di.absCurSamplenum di.absStartSamplenum := by
        rw [first before, Nat.max_self]
        exact Nat.not_le.mpr loaded.nonempty
      have running : ¬di.wantWaitTerminate = true := by
        rw [loaded.running]
        exact Bool.false_ne_true
      have awake : ¬(¬di.gotNewSamples = true ∧ ¬di.wantWaitTerminate = true) :=
        fun asleep => asleep.1 loaded.samples
      unfold cFetchPackedMulti fetchBlock at returned
      rw [if_neg asked, if_neg awake, if_neg running] at returned
      dsimp only at returned
      rw [if_neg inside] at returned
      cases returned
      rfl

theorem Worker.Fed.fetch (fed : w.Fed stream start stop)
    (run : SampleCall.run (.fetch channels maxSamples) w = some after) :
    after.Fed stream start stop := by
  obtain ⟨di, chunks⟩ := w
  unfold SampleCall.run at run
  dsimp only at run
  split at run
  · rename_i block fetched returned
    cases run
    rcases fed with waiting | ⟨loaded, begun⟩
    · left
      obtain ⟨boundary, least, first, rest⟩ := waiting.rest
      rcases cFetchPackedMulti_di returned with rfl | rfl
      · exact waiting
      · exact { waiting with rest := ⟨boundary, least, nofun, rest⟩ }
    · right
      rcases cFetchPackedMulti_di returned with rfl | rfl
      · exact ⟨loaded, begun⟩
      · exact ⟨loaded.congr (sameChunk_of_frame rfl), rfl⟩
  · rename_i blocked
    have asked : ¬(channels = [] ∨ maxSamples = 0) := by
      intro nothing
      unfold cFetchPackedMulti at blocked
      rw [if_pos nothing] at blocked
      cases blocked
    split at run
    · cases run
    · rename_i chunk later
      split at run
      · rename_i held accepted
        obtain ⟨⟨block, fetched⟩, returned, rfl⟩ := Option.map_eq_some_iff.mp run
        rcases fed with waiting | ⟨loaded, -⟩
        · obtain ⟨loaded, first⟩ := waiting.handOver accepted
          exact Or.inr (loaded.fetch first asked returned)
        · have awake : ¬(¬di.gotNewSamples = true ∧ ¬di.wantWaitTerminate = true) :=
            fun asleep => asleep.1 loaded.samples
          unfold cFetchPackedMulti at blocked
          rw [if_neg asked, if_neg awake] at blocked
          split at blocked
          · cases blocked
          · cases blocked
      · cases run

theorem cConsumeSamples_idle (noSamples : di.gotNewSamples = false)
    (numSamples : Nat) : (di.cConsumeSamples numSamples).2 = di := by
  unfold cConsumeSamples
  rw [noSamples]
  split
  · rfl
  · rfl

theorem Worker.Fed.consume {numSamples : Nat} (fed : w.Fed stream start stop)
    (run : SampleCall.run (.consume numSamples) w = some after) :
    after.Fed stream start stop := by
  obtain ⟨di, chunks⟩ := w
  cases run
  rcases fed with waiting | ⟨loaded, begun⟩
  · left
    dsimp only
    rw [cConsumeSamples_idle waiting.noSamples]
    exact waiting
  · have awake : ¬¬di.gotNewSamples = true := not_not.mpr loaded.samples
    have running : di.wantWaitTerminate = false := loaded.running
    unfold cConsumeSamples
    split
    · exact Or.inr ⟨loaded, begun⟩
    · dsimp only
      split
      · exact Or.inr ⟨loaded, begun⟩
      · dsimp only
        split
        · left
          refine ⟨rfl, running, loaded.reader, ⟨di.absEndSamplenum, ?_, ?_, loaded.rest⟩,
            loaded.delivers⟩
          · exact loaded.lower.trans (Nat.le_of_lt loaded.nonempty)
          · intro before
            exact absurd (begun.symm.trans before) Bool.false_ne_true
        · exact Or.inr ⟨loaded.congr (sameChunk_of_frame rfl), begun⟩

theorem findMatch_usedUp_firstPos (usedUp : di.findMatch.1 = false) :
    di.findMatch.2.firstPos = false := by
  unfold SrdDecoderInst.findMatch at usedUp ⊢
  split
  · dsimp only
    rw [findMatchLoop_firstPos]
    exact entered_firstPos di
  · rename_i none
    rw [if_neg none] at usedUp
    cases usedUp

theorem Loaded.usedUp
    (loaded : Loaded stream start stop chunks di) (usedUp : di.findMatch.1 = false) :
    Waiting stream start stop chunks di.findMatch.2.releaseChunk := by
  have same := sameChunk_of_frame (findMatch_frame di)
  refine ⟨rfl, ?_, ?_, ⟨di.absEndSamplenum, ?_, ?_, loaded.rest⟩, loaded.delivers⟩
  · exact same.wantWaitTerminate.trans loaded.running
  · exact same.readSample.trans loaded.reader
  · exact loaded.lower.trans (Nat.le_of_lt loaded.nonempty)
  · intro before
    have begun := findMatch_usedUp_firstPos usedUp
    exact absurd (begun.symm.trans before) Bool.false_ne_true

theorem Waiting.startWait (waiting : Waiting stream start stop chunks di) (conds : List Condition) :
    Waiting stream start stop chunks (di.startWait conds) ∧
      waitReturn chunks (di.startWait conds) = waitLater chunks (di.startWait conds) := by
  have same := startWait_sameChunk di conds
  have noSamples := same.gotNewSamples.trans waiting.noSamples
  have running := same.wantWaitTerminate.trans waiting.running
  have first : (di.startWait conds).firstPos = di.firstPos := by
    unfold SrdDecoderInst.startWait
    split
    · rfl
    · rfl
  constructor
  · refine ⟨noSamples, running, same.readSample.trans waiting.reader, ?_, waiting.delivers⟩
    rw [first]
    exact waiting.rest
  · unfold waitReturn
    rw [waitRegion_blocked .cDecoder running noSamples]

theorem waitReturn_fed {ended : WaitEnd} (loaded : Loaded stream start stop chunks di)
    (later : ∀ after, Waiting stream start stop chunks after →
      waitLater chunks after = some ended → ended.2.Fed stream start stop)
    (returned : waitReturn chunks di = some ended) : ended.2.Fed stream start stop := by
  have region := waitRegion_eq .cDecoder loaded.running loaded.samples
  have same := sameChunk_of_frame (findMatch_frame di)
  unfold waitReturn at returned
  rw [region] at returned
  cases found : di.findMatch.1 with
  | true =>
      rw [found, if_pos rfl] at returned
      cases returned
      refine Or.inr ⟨loaded.congr ((afterMatch_sameChunk .cDecoder _).trans same), ?_⟩
      exact congrArg ScanState.firstPos (afterMatch_scan .cDecoder di.findMatch.2)
  | false =>
      rw [found, if_neg Bool.false_ne_true] at returned
      exact later _ (loaded.usedUp found) returned

theorem waitLater_fed {ended : WaitEnd} (waiting : Waiting stream start stop chunks di)
    (returned : waitLater chunks di = some ended) : ended.2.Fed stream start stop := by
  induction chunks generalizing di with
  | nil => cases returned
  | cons chunk chunks ih =>
      unfold waitLater at returned
      split at returned
      · rename_i held accepted
        obtain ⟨loaded, -⟩ := waiting.handOver accepted
        exact waitReturn_fed loaded (fun after later => ih later) returned
      · cases returned

theorem Worker.Fed.wait {conds : List Condition}
    (fed : w.Fed stream start stop) (run : SampleCall.run (.wait conds) w = some after) :
    after.Fed stream start stop := by
  obtain ⟨di, chunks⟩ := w
  unfold SampleCall.run at run
  dsimp only at run
  split at run
  · cases run
  · obtain ⟨ended, returned, rfl⟩ := Option.map_eq_some_iff.mp run
    have same := startWait_sameChunk di conds
    rcases fed with waiting | ⟨loaded, begun⟩
    · obtain ⟨started, answer⟩ := waiting.startWait conds
      rw [answer] at returned
      exact waitLater_fed started returned
    · exact waitReturn_fed (loaded.congr same) (fun after later => waitLater_fed later) returned

theorem Waiting.handOver_inside
    {di : SrdDecoderInst} (waiting : Waiting stream start stop (chunk :: chunks) di)
    (accepted : di.srdInstDecodeHandOver chunk = (.ok, held)) :
    held.InChunk held.absCurSamplenum ∧ held.skipZero = di.skipZero ∧
      held.conditionList = di.conditionList := by
  obtain ⟨boundary, -, -, -, nonempty, -⟩ := waiting.rest
  obtain ⟨result, first⟩ := handOver_accepted accepted
  subst result
  rw [seekFirst_eq_seek] at first ⊢
  refine ⟨⟨Nat.le_of_eq first, ?_⟩, rfl, rfl⟩
  change (di.seekFirst chunk).absCurSamplenum < chunk.absEndSamplenum
  exact first ▸ nonempty

theorem startWait_eq (some : conds ≠ []) :
    di.startWait conds = { di with conditionList := conds } :=
  if_neg some

theorem Consecutive.start_unique {first second : Nat}
    (left : Consecutive first stop chunks) (right : Consecutive second stop chunks) :
    first = second := by
  cases chunks with
  | nil => exact left.trans right.symm
  | cons chunk chunks => exact left.1.symm.trans right.1

theorem Waiting.judged (waiting : Waiting stream start stop chunks di) (idle : di.skipZero = false)
    (unmatched : di.absCurMatched = false) (some : conds ≠ [])
    (plain : PlainConds di.decNumChannels conds) (begun : start ≤ first)
    (position : di.firstPos = true ∨ di.absCurSamplenum = first)
    (rest : Consecutive first stop chunks) :
    Judged (LooksBackLater stream start initial conds chunks
        (di.rememberedPins (pinsAt stream first)))
      first ((waitReturn chunks (di.startWait conds)).map Prod.fst)
      (firstMet stream start initial conds first stop) := by
  obtain ⟨-, answer⟩ := waiting.startWait conds
  rw [answer, startWait_eq some]
  refine waitLater_judged some begun ?_
  refine ⟨position, rfl, idle, unmatched, ?_, waiting.noSamples, waiting.running,
    waiting.reader, plain, rest, waiting.delivers⟩
  intro ch below
  apply rememberedPins_congr
  · rfl
  · rfl
  · rfl

theorem Loaded.judged (loaded : Loaded stream start stop chunks di) (idle : di.skipZero = false)
    (unmatched : di.absCurMatched = false) (some : conds ≠ [])
    (plain : PlainConds di.decNumChannels conds) (inside : di.InChunk di.absCurSamplenum) :
    Judged (LooksBack stream start initial conds
        (di.rememberedPins (pinsAt stream di.absCurSamplenum)) di.absCurSamplenum
        di.absEndSamplenum di.constantAt (LooksBackLater stream start initial conds chunks))
      di.absCurSamplenum ((waitReturn chunks (di.startWait conds)).map Prod.fst)
      (firstMet stream start initial conds di.absCurSamplenum stop) := by
  rw [startWait_eq some]
  have working : Working stream stop conds chunks { di with conditionList := conds }
      di.absCurSamplenum :=
    { loaded with
        facing := ⟨firstTested_of_unmatched unmatched, fun _ => unmatched, rfl, idle, loaded.holds, inside⟩
        plain := plain }
  have begun := loaded.lower.trans inside.1
  have judged : Judged _ di.absCurSamplenum _
      (firstMet stream start initial conds di.absCurSamplenum stop) :=
    waitReturn_judged some begun working fun after old resting =>
      waitLater_judged some (begun.trans (Nat.le_of_lt inside.2)) resting
  refine judged.congr (LooksBack.congr plain (fun ch below => ?_) _ _ _ _)
  apply rememberedPins_congr
  · rfl
  · rfl
  · rfl

theorem Worker.Fed.judged {w : Worker} (fed : w.Fed stream start stop)
    (settled : w.Settled stop) (unmatched : w.di.absCurMatched = false) (some : conds ≠ [])
    (plain : PlainConds w.di.decNumChannels conds) :
    Judged (w.PinsDo stream start initial conds) (w.position start)
      ((waitReturn w.chunks (w.di.startWait conds)).map Prod.fst)
      (firstMet stream start initial conds (w.position start) stop) := by
  unfold Worker.PinsDo Worker.position
  rcases fed with waiting | ⟨loaded, begun⟩
  · have noSamples := waiting.noSamples
    rw [if_neg (by rw [noSamples]; exact Bool.false_ne_true)]
    obtain ⟨boundary, least, first, rest⟩ := waiting.rest
    by_cases before : w.di.firstPos = true
    · obtain rfl := first before
      rw [if_pos ⟨noSamples, before⟩]
      exact waiting.judged settled.idle unmatched some plain (Nat.le_refl _) (Or.inl before) rest
    · rw [if_neg fun both => before both.2]
      have here := settled.between noSamples (Bool.eq_false_iff.mpr before)
      obtain rfl := Consecutive.start_unique rest here
      exact waiting.judged settled.idle unmatched some plain least (Or.inr rfl) rest
  · have held := loaded.samples
    rw [if_pos held, if_neg (by rw [held]; exact nofun)]
    exact loaded.judged settled.idle unmatched some plain (settled.inside held)

/-- An instance as `srd_inst_new` leaves it, with one channel. -/
def seededInstance : SrdDecoderInst :=
  freshInstance.oldpinsArraySeed

/-- Channel 0 is low at sample 0 and high from sample 1 on. -/
def oneRise : SampleStream := fun ch samplenum => ch == 0 && samplenum != 0

theorem oneRise_cut : Cuts oneRise 0 8 [byteChunk 0 8 0xFE] := by
  refine ⟨⟨rfl, by decide, rfl⟩, ?_⟩
  intro chunk member
  rw [mem_singleton.mp member]
  apply byteChunk_delivers
  · intro samplenum _ upper
    have bits : ∀ offset < 8, packedBit [0xFE] offset = oneRise 0 offset := by decide
    exact bits samplenum upper
  · intro ch samplenum
    rfl

def risingEdge : List Condition := [[.onChannel .risingEdge 0]]

end SigrokDecode
