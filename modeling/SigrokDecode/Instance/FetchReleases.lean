import SigrokDecode.Instance.PackedWaits

/-!
# Releases behind packed fetches

A fast decoder takes a chunk in blocks. `c_consume_samples` gives the chunk back when it comes to
the end; `c_fetch_packed_multi` looks at the end, too, and gives nothing back.
-/

set_option linter.dupNamespace false

namespace SigrokDecode

open Foundation SrdDecoderInst

/-- What the host and a fast decoder do. -/
inductive PackedEvent
  | decode (chunk : SampleChunk)
  | fetch (channels : List Nat) (maxSamples : Nat)
  | consume (numSamples : Nat)
  | terminate

namespace PackedEvent

/-- The instance behind an event. A chunk is handed over when `srd_inst_decode` has returned from
the one before, and is accepted; a fetch without samples waits. -/
def step : PackedEvent → SrdDecoderInst → Option SrdDecoderInst
  | .decode chunk, di =>
      if di.gotNewSamples ∧ ¬di.wantWaitTerminate then none
      else
        match di.srdInstDecodeHandOver chunk with
        | (.ok, after) => some after
        | (_, _) => none
  | .fetch channels maxSamples, di =>
      (di.cFetchPackedMulti channels maxSamples).map Prod.snd
  | .consume numSamples, di => some (di.cConsumeSamples numSamples).2
  | .terminate, di => some { di with wantWaitTerminate := true }

/-- A call that returns zero although no termination is requested. -/
def ReturnsZero : PackedEvent → SrdDecoderInst → Prop
  | .fetch channels maxSamples, di =>
      ∃ after, di.cFetchPackedMulti channels maxSamples = some (none, after)
  | _, _ => False

def IsCall : PackedEvent → Prop
  | .fetch _ _ | .consume _ => True
  | .decode _ | .terminate => False

structure Exact (event : PackedEvent) (di after : SrdDecoderInst) : Prop where
  fetched : event.ReturnsZero di → di.wantWaitTerminate = true
  released : event.IsCall → di.wantWaitTerminate = false → di.gotNewSamples = true →
    (after.gotNewSamples = true ∧ after.absCurSamplenum < after.absEndSamplenum) ∨
      (after.gotNewSamples = false ∧ after.decodeMayReturn = true)

end PackedEvent

def runPacked : List PackedEvent → SrdDecoderInst → Option SrdDecoderInst
  | [], di => some di
  | event :: events, di => (event.step di).bind (runPacked events)

def ExactThroughout : List PackedEvent → SrdDecoderInst → Prop
  | [], _ => True
  | event :: events, di =>
      ∀ after, event.step di = some after → event.Exact di after ∧ ExactThroughout events after

/-- Until termination is requested, no call is made while the last accepted chunk is one that has
no samples (`empty`), and every fetch asks for some. -/
def CallsFindSamples : Bool → Bool → List PackedEvent → Prop
  | _, _, [] => True
  | _, terminated, .decode chunk :: events =>
      CallsFindSamples (chunk.absEndSamplenum = chunk.absStartSamplenum) terminated events
  | empty, terminated, .fetch channels maxSamples :: events =>
      (terminated = false → empty = false ∧ channels ≠ [] ∧ maxSamples ≠ 0) ∧
        CallsFindSamples empty terminated events
  | empty, terminated, .consume _ :: events =>
      (terminated = false → empty = false) ∧ CallsFindSamples empty terminated events
  | empty, _, .terminate :: events => CallsFindSamples empty true events

/-! ## One step -/

/-- What holds between the events: the chunk at hand has samples left unless it is an empty one. -/
structure Supplied (empty terminated : Bool) (di : SrdDecoderInst) : Prop where
  requested : di.wantWaitTerminate = terminated
  begun : terminated = false → di.gotNewSamples = true →
    di.absStartSamplenum ≤ di.absCurSamplenum ∧ di.absEndSamplenum < 2 ^ 64
  left : terminated = false → di.gotNewSamples = true →
    if empty then di.absCurSamplenum = di.absEndSamplenum
    else di.absCurSamplenum < di.absEndSamplenum
  held : terminated = false → di.gotNewSamples = false → empty = false

theorem Supplied.of_terminated {empty : Bool} {di : SrdDecoderInst}
    (terminated : di.wantWaitTerminate = true) : Supplied empty true di :=
  ⟨terminated, nofun, nofun, nofun⟩

section Steps

variable {empty terminated : Bool} {di after : SrdDecoderInst}

variable {channels : List Nat}

variable {maxSamples : Nat}

theorem cFetchPackedMulti_nothing (nothing : channels = [] ∨ maxSamples = 0) :
    di.cFetchPackedMulti channels maxSamples = some (none, di) :=
  if_pos nothing

theorem cFetchPackedMulti_none
    (asked : ¬(channels = [] ∨ maxSamples = 0)) (samples : di.gotNewSamples = true)
    (running : di.wantWaitTerminate = false) :
    (∃ after, di.cFetchPackedMulti channels maxSamples = some (none, after)) ↔
      di.absEndSamplenum ≤ max di.absCurSamplenum di.absStartSamplenum := by
  have awake : ¬(¬di.gotNewSamples = true ∧ ¬di.wantWaitTerminate = true) :=
    fun asleep => asleep.1 samples
  have goesOn : ¬di.wantWaitTerminate = true := fun stop =>
    Bool.false_ne_true (running.symm.trans stop)
  unfold cFetchPackedMulti fetchBlock
  rw [if_neg asked, if_neg awake, if_neg goesOn]
  dsimp only
  by_cases usedUp : di.absEndSamplenum ≤ max di.absCurSamplenum di.absStartSamplenum
  · rw [if_pos usedUp]
    exact iff_of_true ⟨di, rfl⟩ usedUp
  · rw [if_neg usedUp]
    refine iff_of_false ?_ usedUp
    rintro ⟨after, returned⟩
    cases returned

theorem exact_of_terminated (event : PackedEvent) (terminated : di.wantWaitTerminate = true) :
    event.Exact di after :=
  ⟨fun _ => terminated, fun _ running => absurd (running.symm.trans terminated) nofun⟩

theorem Supplied.decode (supplied : Supplied empty terminated di) {chunk : SampleChunk}
    (bounded : chunk.absEndSamplenum < 2 ^ 64)
    (step : (PackedEvent.decode chunk).step di = some after) :
    Supplied (chunk.absEndSamplenum = chunk.absStartSamplenum) terminated after ∧
      (PackedEvent.decode chunk).Exact di after := by
  refine ⟨?_, ⟨nofun, nofun⟩⟩
  unfold PackedEvent.step srdInstDecodeHandOver at step
  dsimp only at step
  split at step
  · cases step
  · split at step
    · rename_i accepted
      split at accepted
      · cases accepted
      · split at accepted
        · cases accepted
        · rename_i order
          rw [not_or, not_not, Nat.not_lt] at order
          cases accepted
          cases step
          have request : (di.seekFirst chunk).wantWaitTerminate = di.wantWaitTerminate := by
            unfold seekFirst
            split <;> rfl
          refine ⟨request.trans supplied.requested, fun _ _ => ⟨order.1.le, bounded⟩,
            fun _ _ => ?_, nofun⟩
          show if _ then (di.seekFirst chunk).absCurSamplenum = chunk.absEndSamplenum
            else (di.seekFirst chunk).absCurSamplenum < chunk.absEndSamplenum
          rw [← order.1]
          split
          · next none => exact (of_decide_eq_true none).symm
          · next some =>
              have different : ¬chunk.absEndSamplenum = chunk.absStartSamplenum :=
                fun same => some (decide_eq_true same)
              omega
    · cases step

theorem Supplied.fetch (supplied : Supplied empty terminated di) (step : (PackedEvent.fetch channels maxSamples).step di = some after) :
    Supplied empty terminated after ∧ ((PackedEvent.fetch channels maxSamples).Exact di after ↔
        (terminated = false → empty = false ∧ channels ≠ [] ∧ maxSamples ≠ 0)) := by
  obtain ⟨⟨block, fetched⟩, returned, rfl⟩ := Option.map_eq_some_iff.mp step
  have kept : Supplied empty terminated fetched := by
    rcases cFetchPackedMulti_di returned with rfl | rfl
    · exact supplied
    · exact { supplied with }
  refine ⟨kept, ?_⟩
  have request := supplied.requested
  cases terminated with
  | true => exact iff_of_true (exact_of_terminated _ request) nofun
  | false =>
      by_cases nothing : channels = [] ∨ maxSamples = 0
      · refine iff_of_false (fun exact => ?_) fun asked => ?_
        · have stop := exact.fetched ⟨di, cFetchPackedMulti_nothing nothing⟩
          exact Bool.false_ne_true (request.symm.trans stop)
        · obtain ⟨-, channels, maxSamples⟩ := asked rfl
          exact nothing.elim channels maxSamples
      · have samples : di.gotNewSamples = true := by
          by_contra asleep
          unfold cFetchPackedMulti at returned
          rw [if_neg nothing, if_pos ⟨asleep, by rw [request]; exact Bool.false_ne_true⟩]
            at returned
          cases returned
        have zero := cFetchPackedMulti_none nothing samples request
        obtain ⟨begun, -⟩ := supplied.begun rfl samples
        have left := supplied.left rfl samples
        rw [max_eq_left begun] at zero
        cases empty with
        | true =>
            refine iff_of_false (fun exact => ?_) fun asked => ?_
            · have stop := exact.fetched (zero.mpr (Nat.le_of_eq left.symm))
              exact Bool.false_ne_true (request.symm.trans stop)
            · exact absurd (asked rfl).1 nofun
        | false =>
            refine iff_of_true ⟨fun returnsZero => ?_, fun _ _ _ => Or.inl ?_⟩ fun _ => ?_
            · exact absurd (zero.mp returnsZero) (Nat.not_le.mpr left)
            · rcases cFetchPackedMulti_di returned with rfl | rfl
              · exact ⟨samples, left⟩
              · exact ⟨samples, left⟩
            · rw [not_or] at nothing
              exact ⟨rfl, nothing⟩

theorem cConsumeSamples_wantWaitTerminate (di : SrdDecoderInst) (numSamples : Nat) :
    (di.cConsumeSamples numSamples).2.wantWaitTerminate = di.wantWaitTerminate := by
  unfold cConsumeSamples
  split
  · rfl
  · split
    · rfl
    · dsimp only
      split
      · rfl
      · dsimp only
        split <;> rfl

theorem cConsumeSamples_cases (samples : di.gotNewSamples = true)
    (running : di.wantWaitTerminate = false)
    (inside : di.absCurSamplenum ≤ di.absEndSamplenum) (bounded : di.absEndSamplenum < 2 ^ 64)
    (numSamples : Nat) :
    (di.cConsumeSamples numSamples).2 = di ∨ di.absCurSamplenum + numSamples < di.absEndSamplenum ∧
        (di.cConsumeSamples numSamples).2 =
          { di with
            absCurSamplenum := di.absCurSamplenum + numSamples
            absCurMatched := false } ∨
      numSamples ≠ 0 ∧ di.absCurSamplenum + numSamples = di.absEndSamplenum ∧
        (di.cConsumeSamples numSamples).2.gotNewSamples = false ∧
        (di.cConsumeSamples numSamples).2.handledAllSamples = true := by
  have available : (2 ^ 64 + di.absEndSamplenum - di.absCurSamplenum) % 2 ^ 64 =
      di.absEndSamplenum - di.absCurSamplenum := by omega
  by_cases nothing : numSamples = 0
  · left
    unfold cConsumeSamples
    rw [if_pos nothing]
  by_cases tooMany : di.absEndSamplenum - di.absCurSamplenum < numSamples
  · left
    unfold cConsumeSamples
    rw [if_neg nothing, samples, if_neg (by simp)]
    dsimp only
    rw [available, if_pos tooMany]
  · right
    have position : (di.absCurSamplenum + numSamples) % 2 ^ 64 =
        di.absCurSamplenum + numSamples := by omega
    unfold cConsumeSamples
    rw [if_neg nothing, samples, if_neg (by simp)]
    dsimp only
    rw [available, if_neg tooMany, position]
    dsimp only
    by_cases usedUp : di.absEndSamplenum ≤ di.absCurSamplenum + numSamples
    · right
      rw [if_pos (Or.inl usedUp)]
      exact ⟨nothing, by omega, rfl, rfl⟩
    · left
      rw [if_neg (by simp [usedUp, running])]
      exact ⟨by omega, rfl⟩

theorem Supplied.consume (supplied : Supplied empty terminated di) {numSamples : Nat}
    (step : (PackedEvent.consume numSamples).step di = some after) :
    Supplied empty terminated after ∧ ((PackedEvent.consume numSamples).Exact di after ↔
        (terminated = false → empty = false)) := by
  obtain rfl := Option.some.inj step
  have request := supplied.requested
  cases terminated with
  | true =>
      refine ⟨?_, iff_of_true (exact_of_terminated _ request) nofun⟩
      exact Supplied.of_terminated ((cConsumeSamples_wantWaitTerminate di _).trans request)
  | false =>
      cases samples : di.gotNewSamples with
      | false =>
          have idle := cConsumeSamples_idle samples numSamples
          have none := supplied.held rfl samples
          rw [idle]
          refine ⟨supplied, iff_of_true ⟨nofun, fun _ _ held => ?_⟩ fun _ => none⟩
          exact absurd (samples.symm.trans held) nofun
      | true =>
          obtain ⟨begun, bounded⟩ := supplied.begun rfl samples
          have left := supplied.left rfl samples
          cases empty with
          | true =>
              have usedUp : di.absCurSamplenum = di.absEndSamplenum := left
              have same : (di.cConsumeSamples numSamples).2 = di := by
                rcases cConsumeSamples_cases samples request usedUp.le bounded numSamples with
                  same | ⟨short, -⟩ | ⟨some, whole, -⟩
                · exact same
                · omega
                · omega
              rw [same]
              refine ⟨supplied, iff_of_false (fun exact => ?_) fun none => nomatch none rfl⟩
              rcases exact.released trivial request samples with ⟨-, more⟩ | ⟨gone, -⟩
              · exact absurd more (Nat.not_lt.mpr usedUp.ge)
              · exact absurd (samples.symm.trans gone) nofun
          | false =>
              have more : di.absCurSamplenum < di.absEndSamplenum := left
              rcases cConsumeSamples_cases samples request more.le bounded numSamples with
                same | ⟨short, same⟩ | ⟨-, -, gone, handled⟩
              · rw [same]
                exact ⟨supplied, iff_of_true ⟨nofun, fun _ _ _ => Or.inl ⟨samples, more⟩⟩
                  fun _ => rfl⟩
              · rw [same]
                refine ⟨⟨request, fun _ _ => ⟨by dsimp only; omega, bounded⟩, fun _ _ => short,
                  fun _ _ => rfl⟩, iff_of_true ⟨nofun, fun _ _ _ => Or.inl ⟨samples, short⟩⟩
                  fun _ => rfl⟩
              · have stays := (cConsumeSamples_wantWaitTerminate di numSamples).trans request
                refine ⟨⟨stays, fun _ held => absurd (gone.symm.trans held) nofun,
                  fun _ held => absurd (gone.symm.trans held) nofun, fun _ _ => rfl⟩,
                  iff_of_true ⟨nofun, fun _ _ _ => Or.inr ⟨gone, ?_⟩⟩ fun _ => rfl⟩
                rw [decodeMayReturn, handled, Bool.true_or]

end Steps

theorem Supplied.run_iff {empty terminated : Bool} {di last : SrdDecoderInst}
    (supplied : Supplied empty terminated di) {events : List PackedEvent}
    (bounded : ∀ chunk, .decode chunk ∈ events → chunk.absEndSamplenum < 2 ^ 64)
    (run : runPacked events di = some last) :
    ExactThroughout events di ↔ CallsFindSamples empty terminated events := by
  induction events generalizing empty terminated di with
  | nil => exact Iff.rfl
  | cons event events ih =>
      obtain ⟨after, step, rest⟩ := Option.bind_eq_some_iff.mp run
      have later : ∀ chunk, .decode chunk ∈ events → chunk.absEndSamplenum < 2 ^ 64 :=
        fun chunk member => bounded chunk (List.mem_cons_of_mem _ member)
      have only : ExactThroughout (event :: events) di ↔
          event.Exact di after ∧ ExactThroughout events after := by
        constructor
        · exact fun all => all after step
        · intro both other same
          obtain rfl := Option.some.inj (step.symm.trans same)
          exact both
      rw [only]
      cases event with
      | decode chunk =>
          obtain ⟨kept, exact⟩ := supplied.decode (bounded chunk List.mem_cons_self) step
          rw [and_iff_right exact]
          exact ih kept later rest
      | fetch channels maxSamples =>
          obtain ⟨kept, exact⟩ := supplied.fetch step
          exact and_congr exact (ih kept later rest)
      | consume numSamples =>
          obtain ⟨kept, exact⟩ := supplied.consume step
          exact and_congr exact (ih kept later rest)
      | terminate =>
          obtain rfl := Option.some.inj step
          have exact : PackedEvent.Exact .terminate di
              { di with wantWaitTerminate := true } := ⟨nofun, nofun⟩
          rw [and_iff_right exact]
          exact ih (Supplied.of_terminated rfl) later rest

/-- The calls of a run are exact exactly if none is made with an empty chunk at hand and every
fetch asks for samples, as long as no termination is requested. -/
theorem packedRun_iff {di last : SrdDecoderInst} (idle : di.gotNewSamples = false)
    (running : di.wantWaitTerminate = false) {events : List PackedEvent}
    (bounded : ∀ chunk, .decode chunk ∈ events → chunk.absEndSamplenum < 2 ^ 64)
    (run : runPacked events di = some last) :
    ExactThroughout events di ↔ CallsFindSamples false false events := by
  have supplied : Supplied false false di :=
    ⟨running, fun _ held => absurd (idle.symm.trans held) nofun,
      fun _ held => absurd (idle.symm.trans held) nofun, fun _ _ => rfl⟩
  exact supplied.run_iff bounded run

def wholeChunk : List PackedEvent :=
  [.decode (byteChunk 0 8 0xFE), .fetch [0] 8, .consume 8]

def emptyChunkFirst : List PackedEvent :=
  [.decode (byteChunk 0 0 0xFE), .fetch [0] 8, .consume 8]

theorem packedRun_iff_wholeChunk : ExactThroughout wholeChunk seededInstance.srdInstStart ↔
      CallsFindSamples false false wholeChunk :=
  packedRun_iff rfl rfl (by simp [wholeChunk, byteChunk]) rfl

/-- The empty chunk is accepted, the fetch returns zero, and the chunk is not released. -/
theorem packedRun_emptyChunk : (runPacked emptyChunkFirst seededInstance.srdInstStart).isSome ∧
      ((runPacked emptyChunkFirst seededInstance.srdInstStart).map fun di =>
        (di.wantWaitTerminate, di.decodeMayReturn)) = some (false, false) ∧
      ¬ExactThroughout emptyChunkFirst seededInstance.srdInstStart := by
  refine ⟨rfl, rfl, fun exact => ?_⟩
  have fetched := (exact _ rfl).2 _ rfl
  exact absurd (fetched.1.fetched ⟨_, rfl⟩) (by decide)

end SigrokDecode
