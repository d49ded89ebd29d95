import Mathlib.Data.List.Chain
import SigrokDecode.Decoders.TdmAudioEdges

/-!
# TDM audio and the frame sync

`handle_bit` counts the bit clocks since the last active edge of the frame sync, from zero on at
the start of a run.
-/

set_option linter.dupNamespace false

namespace SigrokDecode

open Foundation List

inductive TdmOutput
  | waveform
  | both
  | annotations
  deriving DecidableEq

/-- The options that are not about the display. -/
structure TdmAudioOptions where
  bps : Int
  channels : Int
  fallingEdge : Bool
  lowFrame : Bool
  i2s : Bool
  unsigned : Bool
  output : TdmOutput

/-- `(int)c_opt_int(..)` -/
def optInt (value : Int) : Int :=
  (BitVec.ofInt 32 value).toInt

namespace TdmAudioOptions

def bitdepth (options : TdmAudioOptions) : Nat :=
  if optInt options.bps < 1 then 16
  else if 32 < optInt options.bps then 32
  else (optInt options.bps).toNat

def channelCount (options : TdmAudioOptions) : Nat :=
  if optInt options.channels < 1 then 1
  else if 8 < optInt options.channels then 8
  else (optInt options.channels).toNat

theorem bitdepth_pos (options : TdmAudioOptions) : 0 < options.bitdepth := by
  unfold bitdepth
  split_ifs
  · decide
  · decide
  · omega

end TdmAudioOptions

/-- `tdm_audio_fast_reset` and `tdm_audio_fast_start`. -/
def tdmAudioFastStart (options : TdmAudioOptions) : TdmAudioFastState :=
  { channels := options.channelCount
    bitdepth := options.bitdepth
    edge := options.fallingEdge
    fa := !options.lowFrame
    fi := options.lowFrame
    align := options.i2s
    isSigned := !options.unsigned
    emitAnnotations := options.output ≠ .waveform
    emitAnalog := options.output ≠ .annotations
    i2sBckCnt := 0
    lastframe := false
    channel := 0
    bitcount := 0
    data := 0
    ssBlock := 0
    haveSsBlock := false
    samplecount := 0
    edgePrevClk := false
    havePrevClk := false
    processedSamples := 0
    bits := []
    samples := [] }

def sampledBits (stream : SampleStream) (edge prev : Bool) (first count : Nat) : List TdmBit :=
  (clockEdges stream edge prev first count).map fun samplenum =>
    ⟨samplenum, stream 1 samplenum, stream 2 samplenum⟩

namespace TdmAudioFastState

def handleBits (s : TdmAudioFastState) (bits : List TdmBit) : TdmAudioFastState :=
  bits.foldl (fun s bit => s.handleBit bit.absSample bit.frame bit.data) s

theorem handleBits_cons (s : TdmAudioFastState) (bit : TdmBit) (bits : List TdmBit) :
    s.handleBits (bit :: bits) =
      (s.handleBit bit.absSample bit.frame bit.data).handleBits bits := rfl

theorem handleBits_append (s : TdmAudioFastState) (front back : List TdmBit) :
    s.handleBits (front ++ back) = (s.handleBits front).handleBits back :=
  foldl_append

theorem handleBits_carry (s : TdmAudioFastState) (prevClk : Bool) (processed : Nat)
    (bits : List TdmBit) :
    (s.carry prevClk processed).handleBits bits = (s.handleBits bits).carry prevClk processed := by
  induction bits generalizing s with
  | nil => rfl
  | cons bit bits ih =>
      rw [handleBits_cons, handleBit_carry, ih]
      rfl

theorem sampleLoop_handleBits (stream : SampleStream) (s : TdmAudioFastState) (first count : Nat) :
    ∃ prevClk processed, sampleLoop (plainSample stream) first count s =
      (s.handleBits (sampledBits stream s.edge s.edgePrevClk first count)).carry prevClk
        processed := by
  induction count generalizing s first with
  | zero => exact ⟨s.edgePrevClk, s.processedSamples, rfl⟩
  | succ count ih =>
      have front : sampleLoop (plainSample stream) first 1 s = plainSample stream first s := rfl
      have here := plainSample_carry s s.edgePrevClk s.processedSamples stream first
      rw [Nat.add_comm count 1, sampleLoop_add, front]
      obtain ⟨prevClk, processed, later⟩ := ih (plainSample stream first s) (first + 1)
      refine ⟨prevClk, processed, later.trans ?_⟩
      obtain ⟨-, edge, level⟩ := @plainSample_bits stream s first
      rw [edge, level, Nat.add_comm 1 count, sampledBits, sampledBits, clockEdges_succ,
        map_append, handleBits_append]
      change plainSample stream first s = _ at here
      have again : ∀ (t : TdmAudioFastState) (old : Bool) (before : Nat),
          (t.carry old before).carry prevClk processed = t.carry prevClk processed :=
        fun _ _ _ => rfl
      rw [here, handleBits_carry, again]
      split
      · rfl
      · rfl

theorem tdmAudioFastDecode_samples (s : TdmAudioFastState) {stream : SampleStream}
    {start stop : Nat} {blocks : List SrdDecoderInst.PackedBlock}
    (cuts : SrdDecoderInst.PackedBlock.Cuts 3 stream start stop blocks) :
    (s.tdmAudioFastDecode blocks).samples =
      (s.initPrevClk.handleBits (sampledBits stream s.initPrevClk.edge
        s.initPrevClk.edgePrevClk start (stop - start))).samples := by
  unfold tdmAudioFastDecode
  rw [foldl_decodeBlock_eq cuts]
  obtain ⟨prevClk, processed, loop⟩ :=
    sampleLoop_handleBits stream s.initPrevClk start (stop - start)
  rw [loop]
  rfl

/-- What the state machine finds at the first bit of a run. -/
structure Fresh (s : TdmAudioFastState) : Prop where
  count : s.i2sBckCnt = 0
  lastframe : s.lastframe = false
  unopened : s.haveSsBlock = false
  silent : s.samples = []
  levels : s.fi = !s.fa
  depth : 0 < s.bitdepth

theorem fresh_start (options : TdmAudioOptions) : (tdmAudioFastStart options).initPrevClk.Fresh :=
  ⟨rfl, rfl, rfl, rfl, (Bool.not_not options.lowFrame).symm, options.bitdepth_pos⟩

def opensEarly (s : TdmAudioFastState) (active : Bool) : Bool :=
  s.align || active

def skippedBits (s : TdmAudioFastState) (active : Bool) : Nat :=
  if s.align && active then 1 else 0

def Quiet (fa : Bool) (bits : List TdmBit) : Prop :=
  bits.IsChain fun first second => ¬(first.frame ≠ fa ∧ second.frame = fa)

/-- The state at a bit with `before` bits in front of it and no active edge so far; `active` says
that the first bit was taken for one, and `shifted` is 1 once the bit itself is in. -/
structure Leading (s : TdmAudioFastState) (active : Bool) (before : Nat) (frame : Bool)
    (shifted : Nat) : Prop where
  lastframe : s.lastframe = frame
  count : s.i2sBckCnt + active.toNat = before + 1
  levels : s.fi = !s.fa
  silent : s.samples = []
  isOpen : s.haveSsBlock = (s.opensEarly active && decide (s.skippedBits active ≤ before))
  place : s.haveSsBlock = true → s.bitcount + s.skippedBits active = before + shifted

/-- `handle_bit` up to the new data bit. -/
def openBit (s : TdmAudioFastState) (bit : TdmBit) : TdmAudioFastState :=
  ({ s with bits := s.bits ++ [TdmBit.mk bit.absSample bit.frame bit.data] }.countBck
    bit.frame).startFrame bit.absSample

theorem handleBit_openBit (s : TdmAudioFastState) (bit : TdmBit) :
    s.handleBit bit.absSample bit.frame bit.data =
      ((s.openBit bit).shiftIn bit.data).finishWord bit.absSample := rfl

variable {s : TdmAudioFastState}

theorem Fresh.openBit (fresh : s.Fresh) (bit : TdmBit) :
    Leading (s.openBit bit) (s.fa && bit.frame) 0 bit.frame 0 := by
  obtain ⟨count, lastframe, unopened, silent, levels, -⟩ := fresh
  unfold TdmAudioFastState.openBit startFrame countBck resetCh0
  dsimp only
  rw [count, lastframe, levels]
  cases s.align
  all_goals
    cases s.fa
    all_goals
      cases bit.frame
      all_goals
        constructor
        all_goals simp [opensEarly, skippedBits, unopened, silent]

variable {before : Nat} {active : Bool} {bits : List TdmBit}

theorem Leading.openBit {active prev : Bool}
    (leading : Leading s active before prev 1) (bit : TdmBit)
    (quiet : ¬(prev ≠ s.fa ∧ bit.frame = s.fa)) :
    Leading (s.openBit bit) active (before + 1) bit.frame 0 := by
  obtain ⟨lastframe, count, levels, silent, isOpen, place⟩ := leading
  have noEdge : ¬(s.lastframe = s.fi ∧ bit.frame = s.fa) := by
    rw [lastframe, levels]
    rintro ⟨inactive, edge⟩
    exact quiet ⟨by rw [inactive]; cases s.fa <;> decide, edge⟩
  unfold TdmAudioFastState.openBit startFrame countBck resetCh0
  dsimp only
  rw [if_neg noEdge]
  by_cases second : s.align = true ∧ active = true ∧ before = 0
  · obtain ⟨align, rfl, rfl⟩ := second
    have first : s.i2sBckCnt = 0 := by simpa using count
    rw [if_pos align, first, if_pos rfl]
    constructor
    all_goals simp [opensEarly, skippedBits, silent, levels, align]
  · have skipped : s.skippedBits active ≤ before := by
      unfold skippedBits
      split_ifs with both
      · rw [Bool.and_eq_true] at both
        exact Nat.pos_of_ne_zero fun zero => second ⟨both.1, both.2, zero⟩
      · exact Nat.zero_le before
    have later : ¬(s.align = true ∧ s.i2sBckCnt + 1 = 1) := by
      rintro ⟨align, one⟩
      cases active
      · rw [Nat.succ.inj one] at count
        cases count
      · rw [Nat.succ.inj one] at count
        exact second ⟨align, rfl, (Nat.succ.inj count).symm⟩
    have kept (t u : TdmAudioFastState) : (if s.align then if s.i2sBckCnt + 1 = 1 then t else u
        else if s.i2sBckCnt + 1 = 0 then t else u) = u := by
      split_ifs with align one zero
      · exact absurd ⟨align, one⟩ later
      · rfl
      · exact zero.elim
      · rfl
    rw [kept]
    constructor
    case lastframe => rfl
    case count => exact (Nat.add_right_comm s.i2sBckCnt 1 active.toNat).trans (by rw [count])
    case levels => exact levels
    case silent => exact silent
    case isOpen =>
      have more := Nat.le_succ_of_le skipped
      have same : decide (s.skippedBits active ≤ before) =
          decide (s.skippedBits active ≤ before + 1) := by
        rw [decide_eq_true skipped, decide_eq_true more]
      exact isOpen.trans (congrArg (s.opensEarly active && ·) same)
    case place => exact place

def firstWord (s : TdmAudioFastState) (active : Bool) : Nat :=
  s.bitdepth + s.skippedBits active

variable {bit : TdmBit}

theorem Leading.handleBit (leading : Leading (s.openBit bit) active before bit.frame 0)
    (early : (s.openBit bit).opensEarly active = true →
      before + 1 < (s.openBit bit).firstWord active) :
    Leading (s.handleBit bit.absSample bit.frame bit.data) active before bit.frame 1 := by
  obtain ⟨lastframe, count, levels, silent, isOpen, place⟩ := leading
  rw [handleBit_openBit]
  generalize s.openBit bit = t at *
  have unfinished : ¬(t.haveSsBlock = true ∧ t.bitdepth ≤ t.bitcount + 1) := by
    rintro ⟨opened, full⟩
    have early := early (Bool.and_eq_true_iff.mp (isOpen.symm.trans opened)).1
    have place := place opened
    unfold firstWord at early
    omega
  unfold finishWord shiftIn
  dsimp only
  rw [if_neg unfinished]
  constructor
  case lastframe => exact lastframe
  case count => exact count
  case levels => exact levels
  case silent => exact silent
  case isOpen => exact isOpen
  case place =>
    intro opened
    exact (Nat.add_right_comm t.bitcount 1 (t.skippedBits active)).trans
      (congrArg (· + 1) (place opened))

theorem Leading.emits (leading : Leading (s.openBit bit) active before bit.frame 0)
    (depth : 0 < (s.openBit bit).bitdepth)
    (early : (s.openBit bit).opensEarly active = true)
    (last : before + 1 = (s.openBit bit).firstWord active) :
    ∃ sample ∈ (s.handleBit bit.absSample bit.frame bit.data).samples,
      sample.endSample = bit.absSample := by
  obtain ⟨-, -, -, silent, isOpen, place⟩ := leading
  rw [handleBit_openBit]
  generalize s.openBit bit = t at *
  unfold firstWord at last
  have opened : t.haveSsBlock = true := by
    rw [isOpen, early, decide_eq_true (by omega)]
    rfl
  have place := place opened
  have finished : t.haveSsBlock = true ∧ t.bitdepth ≤ t.bitcount + 1 := ⟨opened, by omega⟩
  unfold finishWord shiftIn
  dsimp only
  rw [if_pos finished]
  unfold outputSample
  exact ⟨_, mem_append_right _ mem_cons_self, rfl⟩


section Options

variable (s : TdmAudioFastState) (bit : TdmBit)

theorem openBit_options : (s.openBit bit).align = s.align ∧
    (s.openBit bit).bitdepth = s.bitdepth ∧ (s.openBit bit).fa = s.fa := by
  unfold openBit startFrame
  split
  · split
    · exact ⟨rfl, rfl, rfl⟩
    · exact ⟨rfl, rfl, rfl⟩
  · split
    · exact ⟨rfl, rfl, rfl⟩
    · exact ⟨rfl, rfl, rfl⟩

theorem handleBit_options : (s.handleBit bit.absSample bit.frame bit.data).align = s.align ∧
      (s.handleBit bit.absSample bit.frame bit.data).bitdepth = s.bitdepth ∧
      (s.handleBit bit.absSample bit.frame bit.data).fa = s.fa := by
  have front := s.openBit_options bit
  rw [handleBit_openBit]
  unfold finishWord
  split
  · exact front
  · exact front

theorem openBit_opensEarly (active : Bool) :
    (s.openBit bit).opensEarly active = s.opensEarly active := by
  unfold opensEarly
  rw [(s.openBit_options bit).1]

theorem openBit_firstWord (active : Bool) :
    (s.openBit bit).firstWord active = s.firstWord active := by
  unfold firstWord skippedBits
  rw [(s.openBit_options bit).1, (s.openBit_options bit).2.1]

theorem handleBit_opensEarly (active : Bool) :
    (s.handleBit bit.absSample bit.frame bit.data).opensEarly active = s.opensEarly active := by
  unfold opensEarly
  rw [(s.handleBit_options bit).1]

theorem handleBit_firstWord (active : Bool) :
    (s.handleBit bit.absSample bit.frame bit.data).firstWord active = s.firstWord active := by
  unfold firstWord skippedBits
  rw [(s.handleBit_options bit).1, (s.handleBit_options bit).2.1]

end Options

theorem Leading.next {bit next : TdmBit}
    (leading : Leading (s.openBit bit) active before bit.frame 0)
    (quiet : Quiet s.fa (bit :: next :: bits))
    (early : s.opensEarly active = true → before + 1 < s.firstWord active) :
    Leading ((s.handleBit bit.absSample bit.frame bit.data).openBit next) active (before + 1)
      next.frame 0 := by
  rw [← s.openBit_opensEarly bit, ← s.openBit_firstWord bit] at early
  apply (leading.handleBit early).openBit
  rw [(s.handleBit_options bit).2.2]
  exact (isChain_cons_cons.mp quiet).1

theorem Leading.noSample (leading : Leading (s.openBit bit) active before bit.frame 0)
    (quiet : Quiet s.fa (bit :: bits))
    (early : s.opensEarly active = true → before + 1 + bits.length < s.firstWord active) :
    (s.handleBits (bit :: bits)).samples = [] := by
  induction bits generalizing s before bit with
  | nil =>
      rw [← s.openBit_opensEarly bit, ← s.openBit_firstWord bit] at early
      exact (leading.handleBit early).silent
  | cons next bits ih =>
      rw [length_cons] at early
      have following := leading.next quiet fun opens => by
        have early := early opens
        omega
      rw [handleBits_cons]
      apply ih following
      · rw [(s.handleBit_options bit).2.2]
        exact (isChain_cons_cons.mp quiet).2
      · rw [s.handleBit_opensEarly bit, s.handleBit_firstWord bit]
        intro opens
        have early := early opens
        omega

theorem Leading.sample (leading : Leading (s.openBit bit) active before bit.frame 0)
    (quiet : Quiet s.fa (bit :: bits)) (depth : 0 < s.bitdepth)
    (opens : s.opensEarly active = true)
    (full : before + 1 + bits.length = s.firstWord active) :
    ∃ sample ∈ (s.handleBits (bit :: bits)).samples,
      sample.endSample = ((bit :: bits).getLast (cons_ne_nil bit bits)).absSample := by
  induction bits generalizing s before bit with
  | nil =>
      rw [← s.openBit_firstWord bit] at full
      rw [← s.openBit_opensEarly bit] at opens
      rw [← (s.openBit_options bit).2.1] at depth
      exact leading.emits depth opens full
  | cons next bits ih =>
      rw [length_cons] at full
      have following := leading.next quiet fun _ => by omega
      rw [handleBits_cons, getLast_cons_cons]
      apply ih following
      · rw [(s.handleBit_options bit).2.2]
        exact (isChain_cons_cons.mp quiet).2
      · rw [(s.handleBit_options bit).2.1]
        exact depth
      · rw [s.handleBit_opensEarly bit]
        exact opens
      · rw [s.handleBit_firstWord bit]
        omega

theorem handleBit_samples (s : TdmAudioFastState) (bit : TdmBit) :
    (s.handleBit bit.absSample bit.frame bit.data).samples = s.samples ∨
      ∃ sample : TdmSample, sample.endSample = bit.absSample ∧
        (s.handleBit bit.absSample bit.frame bit.data).samples = s.samples ++ [sample] := by
  have front : (s.openBit bit).samples = s.samples := by
    unfold openBit startFrame
    split
    · split
      · rfl
      · rfl
    · split
      · rfl
      · rfl
  rw [handleBit_openBit]
  unfold finishWord
  split
  · exact Or.inr ⟨_, rfl, congrArg (· ++ [_]) front⟩
  · exact Or.inl front

theorem mem_handleBits_of_mem {sample : TdmSample}
    (member : sample ∈ s.samples) (bits : List TdmBit) :
    sample ∈ (s.handleBits bits).samples := by
  induction bits generalizing s with
  | nil => exact member
  | cons bit bits ih =>
      apply ih
      rcases s.handleBit_samples bit with same | ⟨new, -, more⟩
      · rw [same]
        exact member
      · rw [more]
        exact mem_append_left _ member

theorem mem_handleBits {sample : TdmSample} (member : sample ∈ (s.handleBits bits).samples) :
    sample ∈ s.samples ∨ ∃ front bit back, bits = front ++ bit :: back ∧
      sample.endSample = bit.absSample ∧ sample ∈ (s.handleBits (front ++ [bit])).samples := by
  induction bits generalizing s with
  | nil => exact Or.inl member
  | cons first bits ih =>
      rcases ih member with old | ⟨front, bit, back, rfl, place, here⟩
      · rcases s.handleBit_samples first with same | ⟨new, place, more⟩
        · exact Or.inl (same ▸ old)
        · have parts := old
          rw [more] at parts
          rcases mem_append.mp parts with older | isNew
          · exact Or.inl older
          · rw [mem_singleton.mp isNew] at old ⊢
            exact Or.inr ⟨[], first, bits, rfl, place, old⟩
      · exact Or.inr ⟨first :: front, bit, back, rfl, place, here⟩

end TdmAudioFastState

theorem sampledBits_ordered (stream : SampleStream) (edge prev : Bool) (first count : Nat) :
    (sampledBits stream edge prev first count).Pairwise
      fun before behind => before.absSample < behind.absSample := by
  unfold sampledBits
  rw [pairwise_map]
  induction count generalizing prev first with
  | zero => exact List.Pairwise.nil
  | succ count ih =>
      rw [clockEdges_succ]
      split
      · refine pairwise_cons.mpr ⟨fun samplenum later => ?_, ih _ _⟩
        exact (clockEdges_bounds later).1
      · exact ih _ _

def SyncSeen (fa : Bool) (bits : List TdmBit) (samplenum : Nat) : Prop :=
  ∃ front first second back, bits = front ++ first :: second :: back ∧
    first.frame ≠ fa ∧ second.frame = fa ∧ second.absSample ≤ samplenum

namespace TdmAudioFastState

def WordBeforeSync (s : TdmAudioFastState) (bits : List TdmBit) : Prop :=
  let active := s.fa && bits.head?.any TdmBit.frame
  s.opensEarly active = true ∧ s.firstWord active ≤ bits.length ∧
    Quiet s.fa (bits.take (s.firstWord active))

variable {bits : List TdmBit}

theorem quiet_iff {fa : Bool} : Quiet fa bits ↔
    ∀ front first second back, bits = front ++ first :: second :: back →
      ¬(first.frame ≠ fa ∧ second.frame = fa) := by
  constructor
  · rintro quiet front first second back rfl
    exact (isChain_append_cons_cons.mp quiet).2.1
  · intro nowhere
    induction bits with
    | nil => exact List.IsChain.nil
    | cons first bits ih =>
        cases bits with
        | nil => exact List.IsChain.singleton first
        | cons second bits =>
            refine isChain_cons_cons.mpr ⟨nowhere [] first second bits rfl, ?_⟩
            apply ih
            intro front one other back same
            exact nowhere (first :: front) one other back (congrArg (first :: ·) same)

theorem WordBeforeSync.sample {s : TdmAudioFastState} (fresh : s.Fresh)
    (ordered : bits.Pairwise fun before behind => before.absSample < behind.absSample)
    (early : s.WordBeforeSync bits) :
    ∃ sample ∈ (s.handleBits bits).samples, ¬SyncSeen s.fa bits sample.endSample := by
  obtain ⟨opens, fits, quiet⟩ := early
  generalize size : s.firstWord (s.fa && bits.head?.any TdmBit.frame) = word at fits quiet
  have some : 0 < word := by
    rw [← size]
    exact Nat.add_pos_left fresh.depth _
  cases bits with
  | nil => exact absurd fits (Nat.not_le_of_lt some)
  | cons first rest =>
      obtain ⟨more, rfl⟩ : ∃ more, word = more + 1 := ⟨word - 1, by omega⟩
      rw [length_cons] at fits
      have length : (rest.take more).length = more := length_take_of_le (by omega)
      obtain ⟨sample, member, place⟩ := (fresh.openBit first).sample quiet fresh.depth opens
        (by rw [length, Nat.zero_add, Nat.add_comm 1 more]; exact size.symm)
      have parts : first :: rest = first :: rest.take more ++ rest.drop more :=
        congrArg (first :: ·) (take_append_drop more rest).symm
      refine ⟨sample, ?_, ?_⟩
      · rw [parts, handleBits_append]
        exact mem_handleBits_of_mem member _
      · rintro ⟨front, one, other, back, same, edge⟩
        by_cases inside : front.length + 2 ≤ more + 1
        · obtain ⟨kept, reach⟩ : ∃ kept, more + 1 = front.length + (kept + 2) :=
            ⟨more - 1 - front.length, by omega⟩
          have taken : (first :: rest).take (more + 1) = front ++ one :: other :: back.take kept := by
            rw [same, reach, take_length_add_append]
            rfl
          exact quiet_iff.mp quiet front one other _ taken ⟨edge.1, edge.2.1⟩
        · have behind : other ∈ rest.drop more := by
            have dropped : rest.drop more = (first :: rest).drop (more + 1) := rfl
            rw [dropped, same, append_cons, drop_append_of_le_length]
            · exact mem_append_right _ mem_cons_self
            · rw [length_append, length_singleton]
              omega
          rw [parts, pairwise_append] at ordered
          have later := ordered.2.2 _ (getLast_mem (cons_ne_nil first _)) other behind
          rw [← place] at later
          exact absurd edge.2.2 (Nat.not_le_of_lt later)

theorem syncSeen_of_mem {s : TdmAudioFastState} (fresh : s.Fresh)
    (ordered : bits.Pairwise fun before behind => before.absSample < behind.absSample)
    (late : ¬s.WordBeforeSync bits) {sample : TdmSample}
    (member : sample ∈ (s.handleBits bits).samples) : SyncSeen s.fa bits sample.endSample := by
  rcases mem_handleBits member with old | ⟨front, bit, back, rfl, place, here⟩
  · rw [fresh.silent] at old
    cases old
  · by_contra unseen
    have quiet : Quiet s.fa (front ++ [bit]) := by
      refine quiet_iff.mpr fun initial one other final same edge => unseen ?_
      refine ⟨initial, one, other, final ++ back, ?_, edge.1, edge.2, ?_⟩
      · rw [append_cons, same, List.append_assoc]
        rfl
      · have last : other ∈ front ++ [bit] := by
          rw [same]
          exact mem_append_right _ (mem_cons_of_mem _ mem_cons_self)
        rw [place]
        rcases mem_append.mp last with before | isLast
        · have order := (pairwise_append.mp ordered).2.2 other before bit mem_cons_self
          exact Nat.le_of_lt order
        · rw [mem_singleton.mp isLast]
    have head : (front ++ bit :: back).head? = (front ++ [bit]).head? := by
      cases front with
      | nil => rfl
      | cons first front => rfl
    cases shape : front ++ [bit] with
    | nil => exact append_ne_nil_of_right_ne_nil front (cons_ne_nil bit []) shape
    | cons first rest =>
        rw [shape] at quiet here head
        have nothing := (fresh.openBit first).noSample quiet
        by_cases early : s.opensEarly (s.fa && first.frame) = true →
            0 + 1 + rest.length < s.firstWord (s.fa && first.frame)
        · rw [nothing early] at here
          cases here
        · obtain ⟨opens, full⟩ := Classical.not_imp.mp early
          apply late
          unfold WordBeforeSync
          rw [head]
          have length : (front ++ [bit]).length = rest.length + 1 := by
            rw [shape]
            rfl
          have fits : s.firstWord (s.fa && first.frame) ≤ (front ++ [bit]).length := by omega
          refine ⟨opens, ?_, ?_⟩
          · rw [append_cons, length_append]
            exact Nat.le_trans fits (Nat.le_add_right _ _)
          · change Quiet s.fa ((front ++ bit :: back).take (s.firstWord (s.fa && first.frame)))
            rw [append_cons, take_append_of_le_length fits, shape]
            exact quiet.take _

end TdmAudioFastState

open TdmAudioFastState in
/-- All audio of a run comes behind an active edge of the frame sync exactly if no word is full
before the first one. -/
theorem audio_behind_sync (options : TdmAudioOptions) {stream : SampleStream} {start stop : Nat}
    {blocks : List SrdDecoderInst.PackedBlock}
    (cuts : SrdDecoderInst.PackedBlock.Cuts 3 stream start stop blocks) :
    (∀ sample ∈ ((tdmAudioFastStart options).tdmAudioFastDecode blocks).samples,
        SyncSeen (!options.lowFrame)
          (sampledBits stream options.fallingEdge options.fallingEdge start (stop - start))
          sample.endSample) ↔
      ¬(tdmAudioFastStart options).WordBeforeSync
        (sampledBits stream options.fallingEdge options.fallingEdge start (stop - start)) := by
  have fresh := fresh_start options
  have ordered := sampledBits_ordered stream options.fallingEdge options.fallingEdge start
    (stop - start)
  rw [tdmAudioFastDecode_samples _ cuts]
  constructor
  · intro behind early
    obtain ⟨sample, member, unseen⟩ := WordBeforeSync.sample fresh ordered early
    exact unseen (behind sample member)
  · exact fun late sample member => syncSeen_of_mem fresh ordered late member

def twoBitI2s : TdmAudioOptions :=
  { bps := 2
    channels := 2
    fallingEdge := false
    lowFrame := true
    i2s := true
    unsigned := false
    output := .both }

theorem clockBlocks_cut : SrdDecoderInst.PackedBlock.Cuts 3 clockStream 0 5 clockBlocks :=
  ⟨rfl, ⟨by decide, by decide⟩, rfl, ⟨by decide, by decide⟩, rfl⟩

theorem audio_behind_sync_clock :
    (∀ sample ∈ ((tdmAudioFastStart twoBitI2s).tdmAudioFastDecode clockBlocks).samples,
        SyncSeen false (sampledBits clockStream false false 0 5) sample.endSample) ↔
      ¬(tdmAudioFastStart twoBitI2s).WordBeforeSync (sampledBits clockStream false false 0 5) :=
  audio_behind_sync twoBitI2s clockBlocks_cut

/-- The frame sync stays inactive, and the first two bits are put out as a sample. -/
theorem audio_without_sync :
    ¬∀ (options : TdmAudioOptions) (stream : SampleStream) (start stop : Nat)
      (blocks : List SrdDecoderInst.PackedBlock),
      SrdDecoderInst.PackedBlock.Cuts 3 stream start stop blocks →
        ∀ sample ∈ ((tdmAudioFastStart options).tdmAudioFastDecode blocks).samples,
          SyncSeen (!options.lowFrame)
            (sampledBits stream options.fallingEdge options.fallingEdge start (stop - start))
            sample.endSample := by
  intro behind
  have put : ((tdmAudioFastStart twoBitI2s).tdmAudioFastDecode clockBlocks).samples =
      [⟨0, 1, 3, some ["Ch0: 03", "C0: 03", "0:03"], some (-1)⟩] := by
    decide +kernel
  have inactive : ∀ bit ∈ sampledBits clockStream false false 0 5, bit.frame = true := by
    decide +kernel
  obtain ⟨front, first, second, back, same, -, active, -⟩ :=
    behind twoBitI2s clockStream 0 5 clockBlocks clockBlocks_cut _ (put ▸ mem_cons_self)
  have high := inactive second (by
    change sampledBits clockStream false false 0 5 = _ at same
    rw [same]
    exact mem_append_right _ (mem_cons_of_mem _ mem_cons_self))
  exact Bool.noConfusion (high.symm.trans active)

end SigrokDecode
