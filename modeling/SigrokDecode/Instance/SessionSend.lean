import SigrokDecode.Instance.HandOff

/-!
# Sending a capture to a session

`srd_session_send` calls `srd_inst_decode` for one instance after the other. Its documentation
gives the number of the last sample of a chunk as the end, `srd_inst_decode` the number behind it.
-/

set_option linter.dupNamespace false

namespace SigrokDecode

open Foundation SrdDecoderInst List

namespace SrdDecoderInst

/-- The samples at which `findMatchLoop` checks the conditions, and those that it jumps over since
the conditions cannot match there. -/
def findMatchLoopVisits : Nat → SrdDecoderInst → Bool → Bool → List Nat
  | 0, _, _, _ => []
  | fuel + 1, di, skipAllow, allSkipAllow =>
      if di.absCurSamplenum < di.absEndSamplenum then
        let pass := di.matchSample skipAllow allSkipAllow
        di.absCurSamplenum ::
          if pass.di.absCurMatched then []
          else if pass.allSkipAllow then
            List.range' (di.absCurSamplenum + 1) (di.absEndSamplenum - di.absCurSamplenum - 1) ++
              findMatchLoopVisits fuel (pass.di.seek pass.di.absEndSamplenum) pass.skipAllow
                pass.allSkipAllow
          else
            findMatchLoopVisits fuel (pass.di.seek (pass.di.absCurSamplenum + 1)) pass.skipAllow
              pass.allSkipAllow
      else []

def findMatchVisits (di : SrdDecoderInst) : List Nat :=
  if di.haveNonNullConds then
    let entered := di.primeScan.leaveMatch
    findMatchLoopVisits (entered.absEndSamplenum - entered.absCurSamplenum) entered false true
  else []

def regionVisits (di : SrdDecoderInst) : List Nat :=
  if di.gotNewSamples ∧ ¬ di.wantWaitTerminate then di.findMatchVisits else []

theorem lt_of_mem_findMatchLoopVisits {fuel : Nat} {di : SrdDecoderInst}
    {skipAllow allSkipAllow : Bool} {samplenum : Nat}
    (visited : samplenum ∈ di.findMatchLoopVisits fuel skipAllow allSkipAllow) :
    samplenum < di.absEndSamplenum := by
  induction fuel generalizing di skipAllow allSkipAllow with
  | zero => exact absurd visited not_mem_nil
  | succ fuel ih =>
      have kept := congrArg InstFrame.absEndSamplenum (matchSample_frame di skipAllow allSkipAllow)
      rw [findMatchLoopVisits] at visited
      by_cases inside : di.absCurSamplenum < di.absEndSamplenum
      · rw [if_pos inside] at visited
        rcases mem_cons.mp visited with rfl | later
        · exact inside
        · split at later
          · exact absurd later not_mem_nil
          · split at later
            · rcases mem_append.mp later with jumped | later
              · have range := mem_range'_1.mp jumped
                omega
              · exact (ih later).trans_eq kept
            · exact (ih later).trans_eq kept
      · rw [if_neg inside] at visited
        exact absurd visited not_mem_nil

theorem lt_of_mem_regionVisits {di : SrdDecoderInst} {samplenum : Nat}
    (visited : samplenum ∈ di.regionVisits) :
    di.gotNewSamples = true ∧ samplenum < di.absEndSamplenum := by
  rw [regionVisits] at visited
  by_cases samples : di.gotNewSamples = true ∧ ¬ di.wantWaitTerminate = true
  · rw [if_pos samples, findMatchVisits] at visited
    refine ⟨samples.1, ?_⟩
    split at visited
    · have kept : di.primeScan.leaveMatch.frame = di.frame :=
        (leaveMatch_frame _).trans (primeScan_frame di)
      exact (lt_of_mem_findMatchLoopVisits visited).trans_eq
        (congrArg InstFrame.absEndSamplenum kept)
    · exact absurd visited not_mem_nil
  · rw [if_neg samples] at visited
    exact absurd visited not_mem_nil

end SrdDecoderInst

def HandOffLabel.inCall : HandOffLabel → Bool
  | .hostWakes | .waitCall _ | .waitRegion _ | .pinRead | .decodeEnds _ | .errorStored
  | .threadEnds => true
  | _ => false

/-- An instance, and the samples that its matcher has evaluated. -/
structure SessionInst where
  kind : WorkerKind
  hand : HandOffState
  visited : List Nat

/-- A session while a capture is sent: the instance whose call is under way, and the return codes
of the finished calls of `srd_session_send`. -/
structure SessionState where
  insts : List SessionInst
  turn : Option Nat
  results : List SrdStatus

def sendPolicy (chunk : SampleChunk) : HandOffPolicy where
  chunk _ sent := sent = chunk
  conds _ := True
  resets := False

def noCallPolicy : HandOffPolicy where
  chunk _ _ := False
  conds _ := True
  resets := False

namespace SessionState

/-- `srd_session_send` returns. -/
def finish (state : SessionState) (status : SrdStatus) : SessionState :=
  { state with
    turn := none
    results := state.results ++ [status] }

/-- The loop of `srd_session_send` goes on with instance `i`. -/
def goOn (state : SessionState) (i : Nat) : SessionState :=
  if i < state.insts.length then { state with turn := some i } else state.finish .ok

def withInst (state : SessionState) (i : Nat) (inst : SessionInst) : SessionState :=
  { state with insts := state.insts.set i inst }

end SessionState

def SessionInst.after (inst : SessionInst) (label : HandOffLabel) (hand : HandOffState) :
    SessionInst :=
  { inst with
    hand
    visited := inst.visited ++
      match label with
      | .waitRegion _ => inst.hand.di.regionVisits
      | _ => [] }

/-- The steps of a session to which these chunks are sent; the workers of the instances run in
between as they like. -/
inductive SessionStep (chunks : List SampleChunk) :
    SessionState → Option HandOffLabel → SessionState → Prop where
  | send {state : SessionState} (idle : state.turn = none)
      (more : state.results.length < chunks.length) :
      SessionStep chunks state none (state.goOn 0)
  | decodeCall {state : SessionState} {i : Nat} {inst : SessionInst} {chunk : SampleChunk}
      {status : SrdStatus} {hand : HandOffState} (turn : state.turn = some i)
      (found : state.insts[i]? = some inst) (next : chunks[state.results.length]? = some chunk)
      (move : HandOffStep inst.kind (sendPolicy chunk) inst.hand (.decodeCall chunk status) hand) :
      SessionStep chunks state (some (.decodeCall chunk status))
        (if status = .ok then state.withInst i (inst.after (.decodeCall chunk status) hand)
          else (state.withInst i (inst.after (.decodeCall chunk status) hand)).finish status)
  | inCall {state : SessionState} {i : Nat} {inst : SessionInst} {label : HandOffLabel}
      {hand : HandOffState} (found : state.insts[i]? = some inst) (inCall : label.inCall = true)
      (move : HandOffStep inst.kind noCallPolicy inst.hand label hand) :
      SessionStep chunks state (some label) (state.withInst i (inst.after label hand))
  | decodeReturns {state : SessionState} {i : Nat} {inst : SessionInst} {status : SrdStatus}
      {hand : HandOffState} (turn : state.turn = some i) (found : state.insts[i]? = some inst)
      (move : HandOffStep inst.kind noCallPolicy inst.hand (.decodeReturns status) hand) :
      SessionStep chunks state (some (.decodeReturns status))
        (if status = .ok then
            (state.withInst i (inst.after (.decodeReturns status) hand)).goOn (i + 1)
          else (state.withInst i (inst.after (.decodeReturns status) hand)).finish status)

structure SessionInit (state : SessionState) : Prop where
  insts : ∀ inst ∈ state.insts, HandOffInit inst.hand ∧ inst.visited = []
  turn : state.turn = none
  results : state.results = []

def sessionSend (chunks : List SampleChunk) : StepSystem SessionState (Option HandOffLabel) where
  Init := SessionInit
  Step := SessionStep chunks

structure CapturePart where
  count : Nat
  inbuf : List (Option (List UInt8))
  inbufConst : Option (List UInt8)
  inbuflen : Nat
  someSamples : 0 < count
  someBytes : 0 < inbuflen

namespace CapturePart

def call (part : CapturePart) (start stop : Nat) : SampleChunk :=
  { absStartSamplenum := start
    absEndSamplenum := stop
    inbuf := some part.inbuf
    inbufConst := part.inbufConst
    inbuflen := part.inbuflen }

end CapturePart

/-- The calls as in the examples of `srd_session_send`: the end is the last sample. -/
def documentedCalls : Nat → List CapturePart → List SampleChunk
  | _, [] => []
  | start, part :: parts =>
      part.call start (start + part.count - 1) :: documentedCalls (start + part.count) parts

/-- The calls as in the examples of `srd_inst_decode`: the end is behind the last sample. -/
def instDecodeCalls : Nat → List CapturePart → List SampleChunk
  | _, [] => []
  | start, part :: parts =>
      part.call start (start + part.count) :: instDecodeCalls (start + part.count) parts

def captureLength (parts : List CapturePart) : Nat :=
  (parts.map CapturePart.count).sum

structure SentWhole (parts : List CapturePart) (state : SessionState) : Prop where
  accepted : ∀ status ∈ state.results, status ≠ .errArg
  evaluated : ∀ inst ∈ state.insts, ∀ samplenum < captureLength parts,
    inst.visited.count samplenum = 1

/-! ## What has been visited -/

/-- No chunk at hand reaches beyond this sample. -/
def EndsBy (last : Nat) (di : SrdDecoderInst) : Prop :=
  di.gotNewSamples = true → di.absEndSamplenum ≤ last

variable {last : Nat} {inst : SessionInst} {state : SessionState}

variable {di : SrdDecoderInst}

theorem EndsBy.congr {other : SrdDecoderInst} (ends : EndsBy last di)
    (same : SameChunk other di) : EndsBy last other := by
  intro samples
  rw [same.gotNewSamples] at samples
  exact same.absEndSamplenum.trans_le (ends samples)

theorem endsBy_releaseChunk (last : Nat) (di : SrdDecoderInst) : EndsBy last di.releaseChunk :=
  fun samples => absurd samples Bool.false_ne_true

theorem EndsBy.waitRegion (ends : EndsBy last di)
    (kind : WorkerKind) : EndsBy last (di.waitRegion kind).2 := by
  by_cases running : di.wantWaitTerminate = false
  · by_cases samples : di.gotNewSamples = true
    · rw [waitRegion_eq kind running samples]
      split
      · exact ends.congr ((afterMatch_sameChunk kind _).trans
          (sameChunk_of_frame (findMatch_frame di)))
      · exact endsBy_releaseChunk last _
    · rw [waitRegion_blocked kind running (by simpa using samples)]
      exact ends
  · have terminating : di.wantWaitTerminate = true := by simpa using running
    have none : di.processSamplesUntilConditionMatch = (false, di) := by
      simp [processSamplesUntilConditionMatch, terminating]
    cases kind with
    | cDecoder =>
        have region : di.waitRegion .cDecoder = (.terminated, di) := by
          simp [SrdDecoderInst.waitRegion, cDecoderWaitRegion, terminating]
        rw [region]
        exact ends
    | pythonDecoder =>
        have region : di.waitRegion .pythonDecoder = (.terminated, di.releaseChunk) := by
          simp [SrdDecoderInst.waitRegion, decoderWaitRegion, terminating, none]
        rw [region]
        exact endsBy_releaseChunk last di

theorem waitRegion_di (state : HandOffState) (kind : WorkerKind) :
    (state.waitRegion kind).2.di = (state.di.waitRegion kind).2 := by
  rw [HandOffState.waitRegion]
  split <;> rename_i region <;> rw [region]

theorem decodeCall_di (state : HandOffState) (chunk : SampleChunk) :
    (state.decodeCall chunk).2.di = (state.di.srdInstDecodeHandOver chunk).2 := by
  rw [HandOffState.decodeCall]
  split <;> rename_i handOver <;> rw [handOver]

theorem EndsBy.handOver {chunk : SampleChunk}
    (ends : EndsBy last di) (small : chunk.absEndSamplenum ≤ last) :
    EndsBy last (di.srdInstDecodeHandOver chunk).2 := by
  have sought : EndsBy last (di.seekFirst chunk) := by
    rw [seekFirst]
    split <;> exact ends
  rw [srdInstDecodeHandOver]
  split
  · exact ends
  · dsimp only
    split
    · exact sought
    · exact fun _ => small

theorem HandOffStep.endsBy {kind : WorkerKind} {policy : HandOffPolicy}
    {state next : HandOffState} {label : HandOffLabel}
    (move : HandOffStep kind policy state label next) (ends : EndsBy last state.di)
    (small : ∀ chunk, policy.chunk state chunk → chunk.absEndSamplenum ≤ last)
    (keeps : ¬ policy.resets) : EndsBy last next.di := by
  cases move with
  | decodeCall idle allowed =>
      rw [decodeCall_di]
      exact ends.handOver (small _ allowed)
  | hostWakes waiting => split <;> exact ends
  | decodeReturns extracting => exact ends
  | terminate idle thread => exact ends
  | resetJoined allowed joining ended => exact absurd allowed keeps
  | resetIdle allowed idle noThread => exact absurd allowed keeps
  | callRaises idle python => exact ends
  | start allowed idle noThread => exact absurd allowed keeps
  | waitCall decoding allowed accepted => exact ends.congr (startWait_sameChunk _ _)
  | waitRegion waiting =>
      rw [waitRegion_di]
      exact ends.waitRegion kind
  | pinRead decoding => exact ends
  | decodeEnds decoding possible => exact ends
  | errorStored returned => exact ends
  | threadEnds reported => exact ends

/-- An instance that no call has taken beyond this sample. -/
structure VisitedBefore (last : Nat) (inst : SessionInst) : Prop where
  ends : EndsBy last inst.hand.di
  visited : ∀ samplenum ∈ inst.visited, samplenum < last

theorem VisitedBefore.after {policy : HandOffPolicy}
    {label : HandOffLabel} {hand : HandOffState} (before : VisitedBefore last inst)
    (move : HandOffStep inst.kind policy inst.hand label hand)
    (small : ∀ chunk, policy.chunk inst.hand chunk → chunk.absEndSamplenum ≤ last)
    (keeps : ¬ policy.resets) : VisitedBefore last (inst.after label hand) := by
  refine ⟨move.endsBy before.ends small keeps, ?_⟩
  intro samplenum member
  rcases mem_append.mp member with earlier | now
  · exact before.visited samplenum earlier
  · cases label with
    | waitRegion result =>
        obtain ⟨samples, inside⟩ := lt_of_mem_regionVisits now
        exact Nat.lt_of_lt_of_le inside (before.ends samples)
    | _ => exact absurd now not_mem_nil

/-- What holds in every state of a session to which no chunk beyond this sample is sent. -/
structure SessionInv (last : Nat) (state : SessionState) : Prop where
  insts : ∀ inst ∈ state.insts, VisitedBefore last inst
  alone : state.insts = [] → ∀ status ∈ state.results, status = .ok

theorem SessionInv.goOn (inv : SessionInv last state)
    (i : Nat) : SessionInv last (state.goOn i) := by
  rw [SessionState.goOn]
  split
  · exact ⟨inv.insts, inv.alone⟩
  · refine ⟨inv.insts, fun none status member => ?_⟩
    rcases mem_append.mp member with earlier | now
    · exact inv.alone none status earlier
    · exact mem_singleton.mp now

theorem insts_eq_nil_of_withInst {i : Nat}
    (none : (state.withInst i inst).insts = []) : state.insts = [] := by
  have length := congrArg List.length none
  rw [SessionState.withInst, length_set] at length
  exact eq_nil_of_length_eq_zero length

theorem SessionInv.withInst (inv : SessionInv last state)
    {i : Nat} (before : VisitedBefore last inst) :
    SessionInv last (state.withInst i inst) := by
  refine ⟨fun other member => ?_, fun none => inv.alone (insts_eq_nil_of_withInst none)⟩
  rcases mem_or_eq_of_mem_set member with older | rfl
  · exact inv.insts other older
  · exact before

theorem SessionInv.finish (inv : SessionInv last state)
    (some : state.insts ≠ []) (status : SrdStatus) : SessionInv last (state.finish status) :=
  ⟨inv.insts, fun none => absurd none some⟩

theorem sessionInv_inductive {chunks : List SampleChunk}
    (small : ∀ chunk ∈ chunks, chunk.absEndSamplenum ≤ last) :
    (sessionSend chunks).Inductive (SessionInv last) where
  init := by
    intro state starts
    refine ⟨fun inst member => ?_, fun _ status member => ?_⟩
    · obtain ⟨hand, visited⟩ := starts.insts inst member
      refine ⟨fun samples => absurd (samples.symm.trans hand.gotNewSamples) nofun, ?_⟩
      rw [visited]
      exact fun _ impossible => absurd impossible not_mem_nil
    · rw [starts.results] at member
      exact absurd member not_mem_nil
  step := by
    intro state label next _ inv move
    have nonempty : ∀ {i : Nat} {inst other : SessionInst}, state.insts[i]? = some inst →
        (state.withInst i other).insts ≠ [] := by
      intro i inst other found none
      rw [insts_eq_nil_of_withInst none] at found
      exact absurd found nofun
    cases move with
    | send idle more => exact inv.goOn 0
    | @decodeCall i inst chunk status hand turn found next' move =>
        have within := inv.withInst (i := i) ((inv.insts inst (mem_of_getElem? found)).after move
          (fun sent same => same ▸ small _ (mem_of_getElem? next')) not_false)
        split
        · exact within
        · exact within.finish (nonempty found) status
    | @inCall i inst label hand found inCall move =>
        exact inv.withInst ((inv.insts inst (mem_of_getElem? found)).after move
          (fun _ impossible => absurd impossible not_false) not_false)
    | @decodeReturns i inst status hand turn found move =>
        have within := inv.withInst (i := i) ((inv.insts inst (mem_of_getElem? found)).after move
          (fun _ impossible => absurd impossible not_false) not_false)
        split
        · exact within.goOn (i + 1)
        · exact within.finish (nonempty found) status

theorem documentedCalls_end {start : Nat} {parts : List CapturePart} {chunk : SampleChunk}
    (member : chunk ∈ documentedCalls start parts) :
    chunk.absEndSamplenum ≤ start + captureLength parts - 1 := by
  induction parts generalizing start with
  | nil => exact absurd member not_mem_nil
  | cons part parts ih =>
      have positive := part.someSamples
      rw [captureLength, map_cons, sum_cons]
      rcases mem_cons.mp member with rfl | later
      · rw [CapturePart.call]
        dsimp only
        omega
      · have bound := ih later
        rw [captureLength] at bound
        omega

/-- However a session gets to the end of a capture that is sent as documented: the last sample has
not been evaluated by any instance. -/
theorem sentWhole_iff {parts : List CapturePart} {state : SessionState}
    (reachable : (sessionSend (documentedCalls 0 parts)).Reachable state)
    (done : state.results.length = parts.length) :
    (SentWhole parts state ↔ state.insts = [] ∨ parts = []) ∧
      (documentedCalls 0 parts = instDecodeCalls 0 parts ↔ parts = []) := by
  have inv := (sessionInv_inductive fun chunk member => documentedCalls_end member).holds reachable
  constructor
  · constructor
    · intro whole
      by_contra neither
      obtain ⟨someInst, somePart⟩ := not_or.mp neither
      obtain ⟨inst, member⟩ := exists_mem_of_ne_nil _ someInst
      have positive : 0 < captureLength parts := by
        cases parts with
        | nil => exact absurd rfl somePart
        | cons part parts =>
            rw [captureLength, map_cons, sum_cons]
            exact Nat.add_pos_left part.someSamples _
      have once := whole.evaluated inst member (captureLength parts - 1) (by omega)
      have visited : captureLength parts - 1 ∈ inst.visited :=
        count_pos_iff.mp (by rw [once]; exact Nat.one_pos)
      have before := (inv.insts inst member).visited _ visited
      omega
    · rintro (noInst | noPart)
      · refine ⟨fun status member => ?_, fun inst member => ?_⟩
        · rw [inv.alone noInst status member]
          exact nofun
        · rw [noInst] at member
          exact absurd member not_mem_nil
      · subst noPart
        refine ⟨fun status member => ?_, fun inst member samplenum inside => ?_⟩
        · rw [eq_nil_of_length_eq_zero done] at member
          exact absurd member not_mem_nil
        · exact absurd inside (Nat.not_lt_zero _)
  · constructor
    · intro same
      cases parts with
      | nil => rfl
      | cons part parts =>
          have ends := congrArg SampleChunk.absEndSamplenum (List.cons.inj same).1
          have positive := part.someSamples
          rw [CapturePart.call, CapturePart.call] at ends
          dsimp only at ends
          omega
    · rintro rfl
      rfl

def twoHigh : CapturePart :=
  { count := 2
    inbuf := [some [0xFF]]
    inbufConst := none
    inbuflen := 1
    someSamples := by decide
    someBytes := by decide }

def oneInstance : SessionState :=
  { insts := [⟨.cDecoder, freshHandOff, []⟩]
    turn := none
    results := [] }

theorem SessionStep.reachable {chunks : List SampleChunk} {state next : SessionState}
    {label : Option HandOffLabel} (move : SessionStep chunks state label next)
    (before : (sessionSend chunks).Reachable state) : (sessionSend chunks).Reachable next :=
  .step before move

theorem oneInstance_init : SessionInit oneInstance := by
  refine ⟨fun inst member => ?_, rfl, rfl⟩
  rw [mem_singleton.mp member]
  exact ⟨freshHandOff_init, rfl⟩

theorem twoParts_reachable :
    ∃ state, (sessionSend (documentedCalls 0 [twoHigh, twoHigh])).Reachable state ∧
      state.results = [.ok, .errArg] ∧ state.insts.map SessionInst.visited = [[0]] := by
  have fresh : (sessionSend (documentedCalls 0 [twoHigh, twoHigh])).Reachable oneInstance :=
    .init oneInstance_init
  have sent := (SessionStep.send rfl (by decide)).reachable fresh
  have called := (SessionStep.decodeCall rfl rfl rfl (HandOffStep.decodeCall rfl rfl)).reachable sent
  have conds : noCallPolicy.conds [[.onChannel .low 0]] := trivial
  have first : ∀ {state : SessionState} {inst : SessionInst}, state.insts = [inst] →
      state.insts[0]? = some inst := by
    intro state inst single
    rw [single]
    rfl
  have waits := (SessionStep.inCall (first rfl) rfl
    (HandOffStep.waitCall rfl conds (Or.inl rfl))).reachable called
  have released := (SessionStep.inCall (first rfl) rfl (HandOffStep.waitRegion rfl)).reachable waits
  have woken := (SessionStep.inCall (first rfl) rfl (HandOffStep.hostWakes rfl)).reachable released
  have returned := (SessionStep.decodeReturns rfl (first rfl)
    (HandOffStep.decodeReturns rfl)).reachable woken
  have again := (SessionStep.send rfl (by decide)).reachable returned
  have refused := (SessionStep.decodeCall rfl (first rfl) rfl
    (HandOffStep.decodeCall rfl rfl)).reachable again
  exact ⟨_, refused, by decide, by decide⟩

theorem twoParts_refused :
    ∃ state, (sessionSend (documentedCalls 0 [twoHigh, twoHigh])).Reachable state ∧
      state.results.length = [twoHigh, twoHigh].length ∧
      ¬ SentWhole [twoHigh, twoHigh] state := by
  obtain ⟨state, reachable, results, -⟩ := twoParts_reachable
  refine ⟨state, reachable, congrArg List.length results, fun whole => ?_⟩
  have refused := whole.accepted .errArg (by rw [results]; decide)
  exact refused rfl

theorem sentWhole_iff_twoParts : ∃ state : SessionState, state.results = [.ok, .errArg] ∧
      (SentWhole [twoHigh, twoHigh] state ↔ state.insts = [] ∨ [twoHigh, twoHigh] = []) ∧
      (documentedCalls 0 [twoHigh, twoHigh] = instDecodeCalls 0 [twoHigh, twoHigh] ↔
        [twoHigh, twoHigh] = []) := by
  obtain ⟨state, reachable, results, -⟩ := twoParts_reachable
  exact ⟨state, results, sentWhole_iff reachable (congrArg List.length results)⟩

end SigrokDecode
