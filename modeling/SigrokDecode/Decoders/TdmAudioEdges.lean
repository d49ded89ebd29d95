import SigrokDecode.Decoders.TdmAudioFast
import SigrokDecode.Foundation.EdgeRuns
import SigrokDecode.Instance.EmptyWaits
import SigrokDecode.Instance.PackedWaits

/-!
# Two ways to the clock edges of TDM audio

`tdm_audio_fast` looks for edges in the blocks that it fetches, `tdm_audio_c` waits for each of
them.
-/

set_option linter.dupNamespace false

namespace SigrokDecode

open Foundation SrdDecoderInst List Bool
open TdmAudioFastState (wantedEdge)

/-- The arguments of `c_wait`; `edge` is set for falling edges. -/
def tdmAudioArgs (edge : Bool) : List CWaitArg :=
  [.term (if edge then .fallingEdge else .risingEdge) 0]

def tdmAudioWait (edge : Bool) : List Condition :=
  cWaitGroups (tdmAudioArgs edge)

/-- The samples at which the first `rounds` rounds of the loop of `tdm_audio_decode` shift in a
bit; a round begins with a wait, and the loop ends with the samples. -/
def tdmAudioBits (edge : Bool) (rounds : Nat) (chunks : List SampleChunk) (di : SrdDecoderInst) :
    List Nat :=
  (runReports .cDecoder chunks (List.replicate rounds (tdmAudioWait edge)) di).map Prod.fst

section Clock

variable (stream : SampleStream) (edge : Bool)

def clockLevels (first count : Nat) : List Bool :=
  (List.range' first count).map (stream 0)

/-- The wanted edges among `count` samples, with the level before them. -/
def clockEdges (prev : Bool) (first count : Nat) : List Nat :=
  edgesFrom (wantedEdge edge) prev first (clockLevels stream first count)

/-- The level behind these samples. -/
def levelAfter (prev : Bool) (first count : Nat) : Bool :=
  if count = 0 then prev else stream 0 (first + count - 1)

variable {stream} {edge}

theorem wantedEdge_iff {prev clk : Bool} :
    wantedEdge edge prev clk = true ↔ prev = edge ∧ clk = !edge := by
  cases edge
  all_goals cases prev
  all_goals cases clk
  all_goals decide

variable (prev : Bool)

theorem clockEdges_zero (first : Nat) : clockEdges stream edge prev first 0 = [] :=
  rfl

theorem clockEdges_succ (first count : Nat) :
    clockEdges stream edge prev first (count + 1) =
      (if wantedEdge edge prev (stream 0 first) then [first] else []) ++
        clockEdges stream edge (stream 0 first) (first + 1) count := by
  unfold clockEdges clockLevels
  rw [range'_succ, map_cons, edgesFrom]
  split
  · rfl
  · rfl

theorem levelAfter_succ (first count : Nat) :
    levelAfter stream prev first (count + 1) =
      levelAfter stream (stream 0 first) (first + 1) count := by
  unfold levelAfter
  rw [if_neg (Nat.succ_ne_zero count)]
  split
  · rename_i none
    rw [none]
    rfl
  · congr 1
    omega

theorem clockEdges_add (first count more : Nat) :
    clockEdges stream edge prev first (count + more) = clockEdges stream edge prev first count ++
        clockEdges stream edge (levelAfter stream prev first count) (first + count) more := by
  induction count generalizing prev first with
  | zero =>
      rw [Nat.zero_add]
      rfl
  | succ count ih =>
      have place : first + 1 + count = first + (count + 1) := by omega
      rw [Nat.add_right_comm, clockEdges_succ, ih, clockEdges_succ,
        levelAfter_succ, List.append_assoc, place]

/-- The samples from `first` to `stop` are those up to `boundary` and those behind it. -/
theorem clockEdges_split {first boundary stop : Nat} (before : first < boundary)
    (upto : boundary ≤ stop) :
    clockEdges stream edge prev first (stop - first) =
      clockEdges stream edge prev first (boundary - first) ++
        clockEdges stream edge (stream 0 (boundary - 1)) boundary (stop - boundary) := by
  have count : stop - first = boundary - first + (stop - boundary) := by omega
  have place : first + (boundary - first) = boundary := by omega
  have level : levelAfter stream prev first (boundary - first) = stream 0 (boundary - 1) := by
    unfold levelAfter
    rw [if_neg (by omega), place]
  rw [count, clockEdges_add, level, place]

theorem clockEdges_bounds {prev : Bool} {first count samplenum : Nat}
    (member : samplenum ∈ clockEdges stream edge prev first count) :
    first ≤ samplenum ∧ samplenum < first + count := by
  induction count generalizing prev first with
  | zero => cases member
  | succ count ih =>
      rw [clockEdges_succ] at member
      rcases mem_append.mp member with here | later
      · split at here
        · rw [mem_singleton.mp here]
          omega
        · cases here
      · have bounds := ih later
        omega

theorem level_of_mem_clockEdges {prev : Bool} {first count samplenum : Nat}
    (member : samplenum ∈ clockEdges stream edge prev first count) :
    stream 0 samplenum = !edge := by
  induction count generalizing prev first with
  | zero => cases member
  | succ count ih =>
      rw [clockEdges_succ] at member
      rcases mem_append.mp member with here | later
      · split at here
        · rename_i wanted
          rw [mem_singleton.mp here]
          exact (wantedEdge_iff.mp wanted).2
        · cases here
      · exact ih later

theorem clockEdges_constant {level : Bool} {first count : Nat}
    (same : ∀ samplenum, first ≤ samplenum → samplenum < first + count →
      stream 0 samplenum = level) :
    clockEdges stream edge level first count = [] := by
  refine eq_nil_iff_forall_not_mem.mpr fun samplenum member => ?_
  induction count generalizing first with
  | zero => cases member
  | succ count ih =>
      have here := same first (Nat.le_refl _) (by omega)
      rw [clockEdges_succ, here, if_neg, nil_append] at member
      · refine ih (fun other least most => ?_) member
        exact same other (by omega) (by omega)
      · intro wanted
        obtain ⟨before, behind⟩ := wantedEdge_iff.mp wanted
        exact not_ne_self edge (behind.symm.trans before)

theorem clockEdges_congr {prev other : Bool} (first count : Nat)
    (same : wantedEdge edge prev (stream 0 first) = wantedEdge edge other (stream 0 first)) :
    clockEdges stream edge prev first count = clockEdges stream edge other first count := by
  cases count with
  | zero => rfl
  | succ count => rw [clockEdges_succ, clockEdges_succ, same]

theorem first_mem_clockEdges_iff {prev : Bool} {first count : Nat} (some : 0 < count) :
    first ∈ clockEdges stream edge prev first count ↔
      wantedEdge edge prev (stream 0 first) = true := by
  obtain ⟨count, rfl⟩ := Nat.exists_eq_add_of_lt some
  rw [Nat.zero_add, clockEdges_succ, mem_append]
  constructor
  · rintro (here | later)
    · split at here
      · assumption
      · cases here
    · exact absurd (clockEdges_bounds later).1 (Nat.not_succ_le_self first)
  · intro wanted
    rw [if_pos wanted]
    exact Or.inl mem_cons_self

end Clock

/-! ## The edges that a chain of waits comes to -/

section Waits

variable (stream : SampleStream) (edge : Bool)

/-- The last sample of the samples `first` to `stop` is an edge. -/
def endsInEdge (prev : Bool) (first stop : Nat) : Bool :=
  stop - 1 ∈ clockEdges stream edge prev first (stop - first)

/-- `matched` stands for `abs_cur_matched` when a chunk is handed over: then its first sample is
not compared. `prev` is the level of the last sample compared. -/
def waitedEdges : Bool → Bool → List SampleChunk → List Nat
  | _, _, [] => []
  | matched, prev, chunk :: chunks =>
      let first := chunk.absStartSamplenum + matched.toNat
      if first < chunk.absEndSamplenum then
        clockEdges stream edge prev first (chunk.absEndSamplenum - first) ++
          waitedEdges (endsInEdge stream edge prev first chunk.absEndSamplenum)
            (stream 0 (chunk.absEndSamplenum - 1)) chunks
      else
        waitedEdges matched prev chunks

def resumesAt (stop : Nat) : List SampleChunk → Nat
  | [] => stop
  | chunk :: chunks =>
      if chunk.absStartSamplenum + 1 < chunk.absEndSamplenum then chunk.absStartSamplenum + 1
      else resumesAt stop chunks

def EdgesKept (stop : Nat) (edges : List Nat) : List SampleChunk → Prop
  | [] => True
  | chunk :: chunks =>
      (chunk.absEndSamplenum - 1 ∈ edges → ∀ samplenum ∈ edges,
          samplenum < chunk.absEndSamplenum ∨ resumesAt stop chunks < samplenum) ∧
        EdgesKept stop edges chunks

variable {stream} {edge} {stop : Nat}

theorem resumesAt_le {first : Nat} {chunks : List SampleChunk}
    (consecutive : Consecutive first stop chunks) : first ≤ resumesAt stop chunks := by
  induction chunks generalizing first with
  | nil => exact Nat.le_of_eq consecutive
  | cons chunk chunks ih =>
      obtain ⟨rfl, nonempty, rest⟩ := consecutive
      unfold resumesAt
      split
      · exact Nat.le_succ _
      · exact (Nat.le_of_lt nonempty).trans (ih rest)

theorem waitedEdges_bound {matched prev : Bool} {first samplenum : Nat}
    {chunks : List SampleChunk} (consecutive : Consecutive first stop chunks)
    (member : samplenum ∈ waitedEdges stream edge matched prev chunks) : first ≤ samplenum := by
  induction chunks generalizing first matched prev with
  | nil => cases member
  | cons chunk chunks ih =>
      obtain ⟨rfl, nonempty, rest⟩ := consecutive
      unfold waitedEdges at member
      dsimp only at member
      split at member
      · rcases mem_append.mp member with here | later
        · exact (Nat.le_add_right _ _).trans (clockEdges_bounds here).1
        · exact (Nat.le_of_lt nonempty).trans (ih rest later)
      · exact (Nat.le_of_lt nonempty).trans (ih rest member)

theorem waitedEdges_matched_bound {first samplenum : Nat} {chunks : List SampleChunk}
    (consecutive : Consecutive first stop chunks)
    (member : samplenum ∈ waitedEdges stream edge true (!edge) chunks) :
    resumesAt stop chunks < samplenum := by
  induction chunks generalizing first with
  | nil => cases member
  | cons chunk chunks ih =>
      obtain ⟨-, -, rest⟩ := consecutive
      unfold waitedEdges at member
      unfold resumesAt
      dsimp only [toNat_true] at member
      split at member
      · rename_i more
        rw [if_pos more]
        rcases mem_append.mp member with here | later
        · refine Nat.lt_of_le_of_ne (clockEdges_bounds here).1 fun same => ?_
          rw [← same, first_mem_clockEdges_iff (Nat.sub_pos_of_lt more)] at here
          exact not_ne_self edge (wantedEdge_iff.mp here).1
        · exact Nat.lt_of_lt_of_le more (waitedEdges_bound rest later)
      · rename_i short
        rw [if_neg short]
        exact ih rest member

theorem first_notMem_waitedEdges {first : Nat} {chunks : List SampleChunk}
    (consecutive : Consecutive first stop chunks) :
    first ∉ waitedEdges stream edge false (!edge) chunks := by
  intro member
  cases chunks with
  | nil => cases member
  | cons chunk chunks =>
      obtain ⟨rfl, nonempty, rest⟩ := consecutive
      unfold waitedEdges at member
      rw [toNat_false, Nat.add_zero, if_pos nonempty] at member
      rcases mem_append.mp member with here | later
      · rw [first_mem_clockEdges_iff (Nat.sub_pos_of_lt nonempty)] at here
        exact not_ne_self edge (wantedEdge_iff.mp here).1
      · exact Nat.not_le.mpr nonempty (waitedEdges_bound rest later)

theorem edgesKept_append_iff {front back : List Nat} {first : Nat} {chunks : List SampleChunk}
    (before : ∀ samplenum ∈ front, samplenum < first)
    (consecutive : Consecutive first stop chunks) :
    EdgesKept stop (front ++ back) chunks ↔ EdgesKept stop back chunks := by
  induction chunks generalizing first with
  | nil => exact Iff.rfl
  | cons chunk chunks ih =>
      obtain ⟨rfl, nonempty, rest⟩ := consecutive
      have later : ∀ samplenum ∈ front, samplenum < chunk.absEndSamplenum :=
        fun samplenum member => (before samplenum member).trans nonempty
      have last : chunk.absEndSamplenum - 1 ∉ front := by
        intro member
        have bound := before _ member
        omega
      unfold EdgesKept
      rw [ih later rest]
      refine and_congr_left fun _ => ?_
      rw [mem_append, or_iff_right last]
      refine imp_congr_right fun _ => ⟨fun all samplenum member => ?_, fun all samplenum => ?_⟩
      · exact all samplenum (mem_append_right _ member)
      · intro member
        rcases mem_append.mp member with inFront | inBack
        · exact Or.inl (later samplenum inFront)
        · exact all samplenum inBack

theorem edgesKept_cons_iff {front back : List Nat} {chunk : SampleChunk}
    {chunks : List SampleChunk} (before : ∀ samplenum ∈ front, samplenum < chunk.absEndSamplenum)
    (behind : ∀ samplenum ∈ back, chunk.absEndSamplenum ≤ samplenum)
    (some : 0 < chunk.absEndSamplenum)
    (consecutive : Consecutive chunk.absEndSamplenum stop chunks) :
    EdgesKept stop (front ++ back) (chunk :: chunks) ↔
      (chunk.absEndSamplenum - 1 ∈ front → ∀ samplenum ∈ back, resumesAt stop chunks < samplenum) ∧
        EdgesKept stop back chunks := by
  have last : chunk.absEndSamplenum - 1 ∉ back := by
    intro member
    have bound := behind _ member
    omega
  rw [EdgesKept, edgesKept_append_iff before consecutive, mem_append, or_iff_left last]
  refine and_congr_left fun _ => imp_congr_right fun _ => ?_
  refine ⟨fun all samplenum member => ?_, fun all samplenum member => ?_⟩
  · refine (all samplenum (mem_append_right _ member)).resolve_left ?_
    exact Nat.not_lt.mpr (behind samplenum member)
  · rcases mem_append.mp member with inFront | inBack
    · exact Or.inl (before samplenum inFront)
    · exact Or.inr (all samplenum inBack)

/-- The chain of waits comes to the edges of the clock behind `first`. -/
def WaitsForEdges (stream : SampleStream) (edge : Bool) (stop : Nat) (matched prev level : Bool)
    (first : Nat) (chunks : List SampleChunk) : Prop :=
  waitedEdges stream edge matched prev chunks = clockEdges stream edge level first (stop - first) ↔
    EdgesKept stop (clockEdges stream edge level first (stop - first)) chunks

theorem waitedEdges_rest_iff {prev : Bool} {first : Nat} {chunk : SampleChunk}
    {chunks : List SampleChunk}
    (consecutive : Consecutive chunk.absEndSamplenum stop chunks)
    (unmatched : ∀ level,
      WaitsForEdges stream edge stop false level level chunk.absEndSamplenum chunks)
    (matched : ∀ level, (∀ samplenum ∈ clockEdges stream edge level chunk.absEndSamplenum
          (stop - chunk.absEndSamplenum), resumesAt stop chunks < samplenum) →
        WaitsForEdges stream edge stop true (!edge) level chunk.absEndSamplenum chunks) :
    waitedEdges stream edge (endsInEdge stream edge prev first chunk.absEndSamplenum)
          (stream 0 (chunk.absEndSamplenum - 1)) chunks =
        clockEdges stream edge (stream 0 (chunk.absEndSamplenum - 1)) chunk.absEndSamplenum
          (stop - chunk.absEndSamplenum) ↔
      (chunk.absEndSamplenum - 1 ∈
          clockEdges stream edge prev first (chunk.absEndSamplenum - first) →
        ∀ samplenum ∈ clockEdges stream edge (stream 0 (chunk.absEndSamplenum - 1))
            chunk.absEndSamplenum (stop - chunk.absEndSamplenum),
          resumesAt stop chunks < samplenum) ∧
        EdgesKept stop (clockEdges stream edge (stream 0 (chunk.absEndSamplenum - 1))
          chunk.absEndSamplenum (stop - chunk.absEndSamplenum)) chunks := by
  by_cases last : chunk.absEndSamplenum - 1 ∈
      clockEdges stream edge prev first (chunk.absEndSamplenum - first)
  · have flag : endsInEdge stream edge prev first chunk.absEndSamplenum = true :=
      decide_eq_true last
    rw [flag, level_of_mem_clockEdges last, forall_prop_of_true last]
    by_cases clear : ∀ samplenum ∈ clockEdges stream edge (!edge) chunk.absEndSamplenum
        (stop - chunk.absEndSamplenum), resumesAt stop chunks < samplenum
    · exact (matched (!edge) clear).trans (and_iff_right clear).symm
    · refine iff_of_false (fun same => clear fun samplenum member => ?_) fun both => clear both.1
      rw [← same] at member
      exact waitedEdges_matched_bound consecutive member
  · have flag : endsInEdge stream edge prev first chunk.absEndSamplenum = false :=
      decide_eq_false last
    rw [flag]
    refine (unmatched _).trans (and_iff_right ?_).symm
    exact fun member => absurd member last

theorem waitedEdges_eq_iff {first : Nat} {chunks : List SampleChunk}
    (consecutive : Consecutive first stop chunks) :
    (∀ level, WaitsForEdges stream edge stop false level level first chunks) ∧ ∀ level,
        (∀ samplenum ∈ clockEdges stream edge level first (stop - first),
          resumesAt stop chunks < samplenum) →
        WaitsForEdges stream edge stop true (!edge) level first chunks := by
  induction chunks generalizing first with
  | nil =>
      obtain rfl : first = stop := consecutive
      unfold WaitsForEdges
      rw [Nat.sub_self]
      exact ⟨fun level => iff_of_true rfl trivial, fun level _ => iff_of_true rfl trivial⟩
  | cons chunk chunks ih =>
      obtain ⟨rfl, nonempty, rest⟩ := consecutive
      obtain ⟨unmatched, matched⟩ := ih rest
      have upto := consecutive_le rest
      have split := fun level => @clockEdges_split stream edge level _ _ _ nonempty upto
      have kept := fun level => @edgesKept_cons_iff stop
        (clockEdges stream edge level chunk.absStartSamplenum
          (chunk.absEndSamplenum - chunk.absStartSamplenum))
        (clockEdges stream edge (stream 0 (chunk.absEndSamplenum - 1)) chunk.absEndSamplenum
          (stop - chunk.absEndSamplenum)) chunk chunks
        (fun samplenum member => by have := (clockEdges_bounds member).2; omega)
        (fun samplenum member => (clockEdges_bounds member).1) (Nat.zero_lt_of_lt nonempty) rest
      unfold WaitsForEdges
      refine ⟨fun level => ?_, fun level clear => ?_⟩
      · have result : waitedEdges stream edge false level (chunk :: chunks) =
            clockEdges stream edge level chunk.absStartSamplenum
                (chunk.absEndSamplenum - chunk.absStartSamplenum) ++
              waitedEdges stream edge
                (endsInEdge stream edge level chunk.absStartSamplenum chunk.absEndSamplenum)
                (stream 0 (chunk.absEndSamplenum - 1)) chunks :=
          if_pos nonempty
        rw [split, kept, result, append_right_inj]
        exact waitedEdges_rest_iff rest unmatched matched
      · have some : 0 < stop - chunk.absStartSamplenum := by omega
        have bound := @resumesAt_le stop chunk.absStartSamplenum (chunk :: chunks)
          ⟨rfl, nonempty, rest⟩
        have noEdge : ¬wantedEdge edge level (stream 0 chunk.absStartSamplenum) = true := by
          intro wanted
          have later := clear _ ((first_mem_clockEdges_iff some).mpr wanted)
          exact Nat.not_le.mpr later bound
        by_cases more : chunk.absStartSamplenum + 1 < chunk.absEndSamplenum
        · have resumes : resumesAt stop (chunk :: chunks) = chunk.absStartSamplenum + 1 :=
            if_pos more
          have result : waitedEdges stream edge true (!edge) (chunk :: chunks) =
              clockEdges stream edge (!edge) (chunk.absStartSamplenum + 1)
                  (chunk.absEndSamplenum - (chunk.absStartSamplenum + 1)) ++
                waitedEdges stream edge
                  (endsInEdge stream edge (!edge) (chunk.absStartSamplenum + 1)
                    chunk.absEndSamplenum)
                  (stream 0 (chunk.absEndSamplenum - 1)) chunks :=
            if_pos more
          have front : ∀ boundary, chunk.absStartSamplenum < boundary →
              clockEdges stream edge level chunk.absStartSamplenum
                  (boundary - chunk.absStartSamplenum) =
                clockEdges stream edge (stream 0 chunk.absStartSamplenum)
                  (chunk.absStartSamplenum + 1) (boundary - (chunk.absStartSamplenum + 1)) := by
            intro boundary behind
            have count : boundary - chunk.absStartSamplenum =
                boundary - (chunk.absStartSamplenum + 1) + 1 := by omega
            rw [count, clockEdges_succ, if_neg noEdge, nil_append]
          have noSecond : ¬wantedEdge edge (stream 0 chunk.absStartSamplenum)
              (stream 0 (chunk.absStartSamplenum + 1)) = true := by
            intro wanted
            rw [resumes, front stop (nonempty.trans_le upto)] at clear
            refine absurd (clear _ ((first_mem_clockEdges_iff ?_).mpr wanted)) (Nat.lt_irrefl _)
            omega
          have calm : ¬wantedEdge edge (!edge) (stream 0 (chunk.absStartSamplenum + 1)) = true :=
            fun wanted => not_ne_self edge (wantedEdge_iff.mp wanted).1
          rw [split, kept, result, front _ nonempty, clockEdges_congr _ _
            ((eq_false_iff.mpr noSecond).trans (eq_false_iff.mpr calm).symm),
            append_right_inj]
          exact waitedEdges_rest_iff rest unmatched matched
        · have result : waitedEdges stream edge true (!edge) (chunk :: chunks) =
              waitedEdges stream edge true (!edge) chunks := if_neg more
          have resumes : resumesAt stop (chunk :: chunks) = resumesAt stop chunks := if_neg more
          have front : clockEdges stream edge level chunk.absStartSamplenum
              (chunk.absEndSamplenum - chunk.absStartSamplenum) = [] := by
            have count : chunk.absEndSamplenum - chunk.absStartSamplenum = 0 + 1 := by omega
            rw [count, clockEdges_succ, if_neg noEdge]
            rfl
          rw [resumes, split, front, nil_append] at clear
          rw [split, kept, result, front, nil_append]
          exact (matched _ clear).trans (and_iff_right fun member => absurd member not_mem_nil).symm

end Waits

namespace TdmAudioFastState

variable {stream : SampleStream}

theorem startFrame_bits (s : TdmAudioFastState) (absSample : Nat) :
    (s.startFrame absSample).bits = s.bits := by
  unfold startFrame
  split
  · split
    · rfl
    · rfl
  · split
    · rfl
    · rfl

theorem finishWord_bits (s : TdmAudioFastState) (absSample : Nat) :
    (s.finishWord absSample).bits = s.bits := by
  unfold finishWord
  split
  · rfl
  · rfl

theorem handleBit_bits (s : TdmAudioFastState) (absSample : Nat) (frame data : Bool) :
    (s.handleBit absSample frame data).bits = s.bits ++ [⟨absSample, frame, data⟩] := by
  unfold handleBit
  dsimp only
  rw [finishWord_bits]
  exact startFrame_bits _ _

def bitPlaces (s : TdmAudioFastState) : List Nat :=
  s.bits.map fun bit => bit.absSample

theorem plainSample_bits (s : TdmAudioFastState) (samplenum : Nat) :
    (plainSample stream samplenum s).bitPlaces = s.bitPlaces ++
          (if wantedEdge s.edge s.edgePrevClk (stream 0 samplenum) then [samplenum] else []) ∧
      (plainSample stream samplenum s).edge = s.edge ∧
      (plainSample stream samplenum s).edgePrevClk = stream 0 samplenum := by
  unfold plainSample bitPlaces
  dsimp only
  split
  · refine ⟨?_, handleBit_edge s _ _ _, rfl⟩
    rw [handleBit_bits, map_append]
    rfl
  · exact ⟨(List.append_nil _).symm, rfl, rfl⟩

theorem sampleLoop_bits (s : TdmAudioFastState) (first count : Nat) :
    (sampleLoop (plainSample stream) first count s).bitPlaces =
      s.bitPlaces ++ clockEdges stream s.edge s.edgePrevClk first count := by
  induction count generalizing s first with
  | zero => exact (List.append_nil _).symm
  | succ count ih =>
      obtain ⟨bits, edge, level⟩ := @plainSample_bits stream s first
      have front : sampleLoop (plainSample stream) first 1 s = plainSample stream first s := rfl
      rw [Nat.add_comm count 1, sampleLoop_add, front, ih, bits, edge, level,
        Nat.add_comm 1 count, clockEdges_succ, List.append_assoc]

/-- The first sample of a capture is compared with the level in front of an edge. -/
theorem tdmAudioFastDecode_bits {s : TdmAudioFastState} (fresh : s.havePrevClk = false)
    (empty : s.bits = []) {start stop : Nat} {blocks : List PackedBlock}
    (cuts : SrdDecoderInst.PackedBlock.Cuts 3 stream start stop blocks) :
    (s.tdmAudioFastDecode blocks).bitPlaces =
      clockEdges stream s.edge s.edge start (stop - start) := by
  have init : s.initPrevClk = { s with edgePrevClk := s.edge, havePrevClk := true } := by
    unfold initPrevClk
    rw [fresh]
    rfl
  have none : s.bitPlaces = [] := congrArg (List.map TdmBit.absSample) empty
  unfold tdmAudioFastDecode
  rw [foldl_decodeBlock_eq cuts, sampleLoop_bits, init]
  exact congrArg (· ++ clockEdges stream s.edge s.edge start (stop - start)) none

end TdmAudioFastState

/-! ## The waits of `tdm_audio_c` -/

section Scan

variable {stream : SampleStream} {edge : Bool} {di : SrdDecoderInst}

theorem tdmAudioWait_eq (edge : Bool) : tdmAudioWait edge =
      [[.onChannel (if edge then .fallingEdge else .risingEdge) 0]] :=
  rfl

theorem tdmAudioWait_plain (channels : 0 < di.decNumChannels) :
    PlainConds di.decNumChannels (tdmAudioWait edge) := by
  intro cond member
  rw [tdmAudioWait_eq] at member
  obtain rfl := mem_singleton.mp member
  refine ⟨cons_ne_nil _ _, fun term inside => ?_⟩
  obtain rfl := mem_singleton.mp inside
  refine ⟨?_, channels⟩
  cases edge
  · nofun
  · nofun

theorem tdmAudioWait_holds_iff (old : Nat → UInt8) (samplenum : Nat) :
    condsHold old (pinsAt stream samplenum) (tdmAudioWait edge) = true ↔
      old 0 = bitByte edge ∧ stream 0 samplenum = !edge := by
  have verdict : condsHold old (pinsAt stream samplenum) (tdmAudioWait edge) =
      (sampleMatches (old 0) (bitByte (stream 0 samplenum))
        (.onChannel (if edge then .fallingEdge else .risingEdge) 0)).1 := by
    rw [tdmAudioWait_eq]
    unfold condsHold condHolds
    rw [any_cons, any_nil, Bool.or_false, all_cons, all_nil, Bool.and_true]
    rfl
  rw [verdict]
  generalize stream 0 samplenum = clk
  cases edge
  all_goals cases clk
  all_goals simp [sampleMatches, SrdTerm.onChannel]

theorem tdmAudioWait_holds_eq {old : Nat → UInt8} {prev : Bool} (level : old 0 = bitByte prev)
    (samplenum : Nat) :
    condsHold old (pinsAt stream samplenum) (tdmAudioWait edge) =
      wantedEdge edge prev (stream 0 samplenum) := by
  refine Bool.eq_iff_iff.mpr ?_
  rw [tdmAudioWait_holds_iff, wantedEdge_iff, level]
  refine and_congr_left fun _ => ⟨fun same => ?_, congrArg bitByte⟩
  revert same
  cases prev
  all_goals cases edge
  all_goals decide

theorem tdmAudioWait_stops (old now : Nat → UInt8) (constant : Nat → Bool) :
    allStopAtConstant old now constant (tdmAudioWait edge) = constant 0 := by
  rw [tdmAudioWait_eq]
  unfold allStopAtConstant
  rw [all_cons, all_nil, Bool.and_true]
  exact ite_self (constant 0)

theorem clockEdges_eq_firstEdge (first count : Nat) :
    clockEdges stream edge (stream 0 first) (first + 1) count =
      match firstEdge stream (tdmAudioWait edge) (first + 1) count with
      | none => []
      | some samplenum =>
          samplenum :: clockEdges stream edge (stream 0 samplenum) (samplenum + 1)
              (first + count - samplenum) := by
  induction count generalizing first with
  | zero => rfl
  | succ count ih =>
      have verdict : condsHold (pinsAt stream (first + 1 - 1)) (pinsAt stream (first + 1))
          (tdmAudioWait edge) = wantedEdge edge (stream 0 first) (stream 0 (first + 1)) :=
        tdmAudioWait_holds_eq rfl (first + 1)
      have later := ih (first + 1)
      unfold firstEdge at later ⊢
      rw [range'_succ, find?_cons, clockEdges_succ, verdict]
      cases wantedEdge edge (stream 0 first) (stream 0 (first + 1)) with
      | true =>
          have count : first + (count + 1) - (first + 1) = count := by omega
          dsimp only
          rw [count]
          rfl
      | false =>
          rw [show first + (count + 1) = first + 1 + count by omega]
          exact later

/-- A wait is about to compare a sample, and `prev` stands for the level before it. -/
structure Scanning (stream : SampleStream) (edge prev : Bool) (di : SrdDecoderInst)
    (first : Nat) : Prop where
  facing : Facing stream (tdmAudioWait edge) di first
  samples : di.gotNewSamples = true
  running : di.wantWaitTerminate = false
  reader : di.readSample = none
  channels : 0 < di.decNumChannels
  verdict : condsHold (di.rememberedPins (pinsAt stream first)) (pinsAt stream first)
    (tdmAudioWait edge) = wantedEdge edge prev (stream 0 first)

variable {prev : Bool} {first : Nat}

theorem stream_constant (holds : di.HoldsStream stream) (reader : di.readSample = none)
    (constant : di.constantAt 0 = true) {left right : Nat} (inLeft : di.InChunk left)
    (inRight : di.InChunk right) : stream 0 left = stream 0 right := by
  have none : di.inbufAt 0 = none := of_decide_eq_true constant
  have sees : ∀ samplenum, di.sampleAt samplenum 0 = some (if di.inbufConstAt 0 then 1 else 0) := by
    intro samplenum
    have noBuffer : (di.seek samplenum).inbufAt 0 = .none := none
    have noReader : (di.seek samplenum).readSample = .none := reader
    unfold sampleAt termSample
    rw [noReader, noBuffer]
    rfl
  have same := (holds left inLeft 0).symm.trans ((sees left).trans
    ((sees right).symm.trans (holds right inRight 0)))
  have bytes := Option.some.inj same
  revert bytes
  cases stream 0 left
  all_goals cases stream 0 right
  all_goals decide

theorem Scanning.findMatch (scanning : Scanning stream edge prev di first) :
    (di.findMatch.1 = true ∧ ∃ samplenum, first ≤ samplenum ∧ samplenum < di.absEndSamplenum ∧
        di.findMatch.2.absCurSamplenum = samplenum ∧
        Met (tdmAudioWait edge) di.findMatch.2 samplenum (pinsAt stream samplenum) ∧
        clockEdges stream edge prev first (di.absEndSamplenum - first) =
          samplenum :: clockEdges stream edge (stream 0 samplenum) (samplenum + 1)
            (di.absEndSamplenum - (samplenum + 1))) ∨
      (di.findMatch.1 = false ∧
        clockEdges stream edge prev first (di.absEndSamplenum - first) = [] ∧
        ∃ old, Ready (tdmAudioWait edge) di.findMatch.2 di.absEndSamplenum old ∧
          old 0 = bitByte (stream 0 (di.absEndSamplenum - 1))) := by
  have done := scanning.facing.findMatch scanning.reader (tdmAudioWait_plain scanning.channels)
    (cons_ne_nil _ _)
  obtain ⟨lower, upper⟩ := scanning.facing.inside
  have count : di.absEndSamplenum - first - 1 + 1 = di.absEndSamplenum - first := by omega
  have edges := @clockEdges_succ stream edge prev first (di.absEndSamplenum - first - 1)
  rw [count] at edges
  rw [edges]
  cases wanted : wantedEdge edge prev (stream 0 first) with
  | true =>
      obtain ⟨found, here⟩ := done.here (scanning.verdict.trans wanted)
      refine Or.inl ⟨found, first, Nat.le_refl _, upper, here, here ▸ done.met found, ?_⟩
      rw [if_pos rfl, singleton_append, Nat.sub_sub]
  | false =>
      rw [if_neg Bool.false_ne_true, nil_append]
      have failed := scanning.verdict.trans wanted
      cases constant : di.constantAt 0 with
      | true =>
          obtain ⟨usedUp, ready⟩ := done.jump failed ((tdmAudioWait_stops _ _ _).trans constant)
          have level : ∀ samplenum, first ≤ samplenum → samplenum < di.absEndSamplenum →
              stream 0 samplenum = stream 0 first := by
            intro samplenum least most
            exact stream_constant scanning.facing.holds scanning.reader constant
              ⟨lower.trans least, most⟩ ⟨lower, upper⟩
          refine Or.inr ⟨usedUp, ?_, _, ready, ?_⟩
          · refine clockEdges_constant fun samplenum least most => ?_
            exact level samplenum (by omega) (by omega)
          · exact congrArg bitByte (level _ (by omega) (by omega)).symm
      | false =>
          obtain ⟨search, ready⟩ := done.walk failed ((tdmAudioWait_stops _ _ _).trans constant)
          rw [clockEdges_eq_firstEdge, search]
          cases found : di.findMatch.1 with
          | true =>
              rw [found, if_pos rfl] at search
              obtain ⟨least, most⟩ := firstEdge_bounds search
              refine Or.inl ⟨rfl, _, by omega, by omega, rfl, done.met found, ?_⟩
              rw [if_pos rfl]
              dsimp only
              congr 2
              omega
          | false =>
              rw [if_neg Bool.false_ne_true]
              exact Or.inr ⟨rfl, rfl, _, ready found, rfl⟩

/-- The pins `old` do in place of a level `prev` before the next sample. -/
def StandsFor (stream : SampleStream) (edge prev : Bool) (old : Nat → UInt8) : Prop :=
  ∀ samplenum, condsHold old (pinsAt stream samplenum) (tdmAudioWait edge) =
    wantedEdge edge prev (stream 0 samplenum)

theorem SrdDecoderInst.Seen.verdict {old : Nat → UInt8} {samplenum : Nat}
    (seen : Seen (tdmAudioWait edge) di samplenum old) (channels : 0 < di.decNumChannels)
    (stands : StandsFor stream edge prev old) (next : Nat) :
    condsHold (di.rememberedPins (pinsAt stream next)) (pinsAt stream next) (tdmAudioWait edge) =
      wantedEdge edge prev (stream 0 next) := by
  refine (condsHold_congr (tdmAudioWait_plain channels) _ fun ch below => ?_).trans (stands next)
  unfold rememberedPins
  rw [if_neg (by rw [seen.later]; exact Bool.false_ne_true)]
  exact seen.remembers ch below

theorem SrdDecoderInst.Met.nextWait {samplenum : Nat} {old : Nat → UInt8}
    (met : Met (tdmAudioWait edge) di samplenum old) (rounds : Nat) :
    Met (tdmAudioWait edge)
      ((afterMatch .cDecoder di).nextWait (replicate rounds (tdmAudioWait edge)))
      samplenum old := by
  have state : (afterMatch .cDecoder di).scan = { di with firstPos := false }.scan :=
    fillPinCache_scan { di with firstPos := false }
  have same := nextWait_sameChunk (afterMatch .cDecoder di) (replicate rounds (tdmAudioWait edge))
  have channels : ((afterMatch .cDecoder di).nextWait
      (replicate rounds (tdmAudioWait edge))).decNumChannels = di.decNumChannels := by
    unfold decNumChannels
    rw [same.decChannelmap, (afterMatch_sameChunk .cDecoder di).decChannelmap]
  have kept : ((afterMatch .cDecoder di).nextWait
      (replicate rounds (tdmAudioWait edge))).scan = di.scan := by
    cases rounds with
    | zero =>
        refine state.trans ?_
        unfold scan
        rw [met.later]
    | succ rounds =>
        have next : (afterMatch .cDecoder di).nextWait
            (replicate (rounds + 1) (tdmAudioWait edge)) =
              { afterMatch .cDecoder di with conditionList := tdmAudioWait edge } := rfl
        rw [next]
        have fields := state
        unfold scan at fields ⊢
        dsimp only at fields ⊢
        simp only [ScanState.mk.injEq] at fields ⊢
        rw [met.list, met.later]
        tauto
  generalize (afterMatch .cDecoder di).nextWait (replicate rounds (tdmAudioWait edge)) = after at *
  refine ⟨?_, (congrArg ScanState.absCurMatched kept).trans met.matched⟩
  constructor
  case position => exact (congrArg ScanState.absCurSamplenum kept).trans met.position
  case list => exact (congrArg ScanState.conditionList kept).trans met.list
  case idle => exact (congrArg ScanState.skipZero kept).trans met.idle
  case later => exact (congrArg ScanState.firstPos kept).trans met.later
  case remembers =>
      intro ch below
      have pins : after.oldPinsArray = di.oldPinsArray := congrArg ScanState.oldPinsArray kept
      rw [channels] at below
      refine Eq.trans ?_ (met.remembers ch below)
      unfold oldPin
      rw [pins]

theorem SrdDecoderInst.Met.scanning {after : SrdDecoderInst} {samplenum : Nat}
    (met : Met (tdmAudioWait edge) after samplenum (pinsAt stream samplenum))
    (same : SameChunk after di) (scanning : Scanning stream edge prev di first)
    (least : first ≤ samplenum) (more : samplenum + 1 < di.absEndSamplenum)
    (fits : di.absEndSamplenum < 2 ^ 64) :
    Scanning stream edge (stream 0 samplenum) after (samplenum + 1) := by
  obtain ⟨lower, -⟩ := scanning.facing.inside
  have channels : 0 < after.decNumChannels := by
    unfold decNumChannels
    rw [same.decChannelmap]
    exact scanning.channels
  constructor
  case facing =>
      constructor
      case tested =>
          unfold firstTested incSamplenum
          rw [if_pos met.matched, met.position, if_neg (by omega)]
      case fresh =>
          intro first
          exact absurd (met.later.symm.trans first) Bool.false_ne_true
      case list => exact met.list
      case idle => exact met.idle
      case holds =>
          intro t inside ch
          rw [same.sampleAt_eq]
          exact scanning.facing.holds t (same.inChunk_eq ▸ inside) ch
      case inside =>
          rw [same.inChunk_eq]
          exact ⟨lower.trans (least.trans (Nat.le_succ samplenum)), more⟩
  case samples => exact same.gotNewSamples.trans scanning.samples
  case running => exact same.wantWaitTerminate.trans scanning.running
  case reader => exact same.readSample.trans scanning.reader
  case channels => exact channels
  case verdict => exact met.toSeen.verdict channels (tdmAudioWait_holds_eq rfl) _

/-- The worker has no samples, and the next ones begin at `boundary`. -/
structure Between (stream : SampleStream) (edge matched prev : Bool) (di : SrdDecoderInst)
    (boundary : Nat) : Prop where
  position : di.firstPos = true ∨ di.absCurSamplenum = boundary
  fresh : di.firstPos = true → matched = false
  list : di.conditionList = tdmAudioWait edge
  idle : di.skipZero = false
  flag : di.absCurMatched = matched
  running : di.wantWaitTerminate = false
  reader : di.readSample = none
  channels : 0 < di.decNumChannels
  verdict : ∀ next, (di.firstPos = true → next = boundary) →
    condsHold (di.rememberedPins (pinsAt stream next)) (pinsAt stream next) (tdmAudioWait edge) =
      wantedEdge edge prev (stream 0 next)

theorem SrdDecoderInst.Seen.between {after : SrdDecoderInst} {matched : Bool} {boundary : Nat}
    {old : Nat → UInt8} (seen : Seen (tdmAudioWait edge) after boundary old)
    (flag : after.absCurMatched = matched) (same : SameChunk after di)
    (running : di.wantWaitTerminate = false) (reader : di.readSample = none)
    (channels : 0 < di.decNumChannels) (stands : StandsFor stream edge prev old) :
    Between stream edge matched prev after.releaseChunk boundary where
  position := Or.inr seen.position
  fresh first := absurd (seen.later.symm.trans first) Bool.false_ne_true
  list := seen.list
  idle := seen.idle
  flag := flag
  running := same.wantWaitTerminate.trans running
  reader := same.readSample.trans reader
  channels := by
    change 0 < after.decChannelmap.length
    rw [same.decChannelmap]
    exact channels
  verdict next _ := by
    have some : 0 < after.decNumChannels := by
      unfold decNumChannels
      rw [same.decChannelmap]
      exact channels
    refine Eq.trans ?_ (seen.verdict some stands next)
    refine condsHold_congr (tdmAudioWait_plain some) _ fun ch _ => ?_
    apply rememberedPins_congr
    · rfl
    · rfl
    · rfl

theorem serveWaits_exhausted {wait : List Condition} {rest : List (List Condition)}
    (running : di.wantWaitTerminate = false) (samples : di.gotNewSamples = true)
    (some : di.haveNonNullConds = true) (done : di.absEndSamplenum ≤ di.firstTested) :
    serveWaits .cDecoder (wait :: rest) di = ([], wait :: rest, di.entered.releaseChunk) := by
  have region := waitRegion_eq .cDecoder running samples
  rw [findMatch_no_samples some done, if_neg Bool.false_ne_true] at region
  rw [serveWaits, region]

theorem SrdDecoderInst.Seen.leave {samplenum : Nat} {old : Nat → UInt8}
    {conds : List Condition} {channels : Nat} (seen : Seen conds di samplenum old)
    (plain : PlainConds channels conds) :
    Seen conds di.entered di.firstTested old ∧ di.entered.absCurMatched = di.absCurMatched := by
  have primed : di.primeScan = { di with matchArray := 0 } := by
    refine if_neg fun first => ?_
    exact Bool.false_ne_true (seen.later.symm.trans first)
  obtain ⟨kept, still, flag, pins⟩ :=
    @leaveMatch_plain di.primeScan channels (by rw [primed]; exact seen.list.symm ▸ plain)
  constructor
  · constructor
    case position => exact entered_position di
    case list => exact kept.trans (by rw [primed]; exact seen.list)
    case idle => exact still.trans (by rw [primed]; exact seen.idle)
    case later => exact entered_firstPos di
    case remembers =>
        intro ch below
        rw [decNumChannels_of_frame (entered_frame di)] at below
        have before : di.entered.oldPin ch = di.primeScan.oldPin ch := congrFun pins ch
        rw [before, primed]
        exact seen.remembers ch below
  · unfold entered leaveMatch
    rw [primed]
    split
    · rfl
    · rfl

/-- Behind a match at the last sample the chunk is given back, and the flag stays. -/
theorem SrdDecoderInst.Met.exhausted {samplenum : Nat} {old : Nat → UInt8}
    (met : Met (tdmAudioWait edge) di samplenum old) (samples : di.gotNewSamples = true)
    (running : di.wantWaitTerminate = false) (reader : di.readSample = none)
    (channels : 0 < di.decNumChannels) (stands : StandsFor stream edge prev old)
    (last : samplenum + 1 = di.absEndSamplenum) (fits : di.absEndSamplenum < 2 ^ 64)
    (rounds : Nat) :
    serveWaits .cDecoder (replicate (rounds + 1) (tdmAudioWait edge)) di =
        ([], replicate (rounds + 1) (tdmAudioWait edge), di.entered.releaseChunk) ∧
      Between stream edge true prev di.entered.releaseChunk (samplenum + 1) := by
  have plain := @tdmAudioWait_plain edge di channels
  have tested : di.firstTested = samplenum + 1 := by
    unfold firstTested incSamplenum
    rw [if_pos met.matched, met.position, if_neg (by omega)]
  constructor
  · exact serveWaits_exhausted running samples
      (haveNonNullConds_of_plain plain (cons_ne_nil _ _) met.list)
      (Nat.le_of_eq (last.symm.trans tested.symm))
  · obtain ⟨seen, flag⟩ := met.toSeen.leave plain
    rw [tested] at seen
    exact seen.between (flag.trans met.matched) (sameChunk_of_frame (entered_frame di)) running
      reader channels stands

/-- What the waits of a chunk come to, with the samples from `first` to `boundary`. -/
structure EdgesServed (stream : SampleStream) (edge prev : Bool) (first boundary rounds : Nat)
    (served : List WaitReport × List (List Condition) × SrdDecoderInst) : Prop where
  places : served.1.map Prod.fst = clockEdges stream edge prev first (boundary - first)
  left : ∃ left, served.2.1 = List.replicate left (tdmAudioWait edge) ∧
    rounds ≤ left + (boundary - first)
  between : Between stream edge (endsInEdge stream edge prev first boundary)
    (stream 0 (boundary - 1)) served.2.2 boundary

theorem Scanning.serveWaits (scanning : Scanning stream edge prev di first)
    (fits : di.absEndSamplenum < 2 ^ 64) {rounds : Nat}
    (enough : di.absEndSamplenum - first < rounds) :
    EdgesServed stream edge prev first di.absEndSamplenum rounds
      (serveWaits .cDecoder (replicate rounds (tdmAudioWait edge)) di) := by
  induction rounds generalizing di prev first with
  | zero => exact absurd enough (Nat.not_lt_zero _)
  | succ rounds ih =>
      have region := waitRegion_eq .cDecoder scanning.running scanning.samples
      rw [replicate_succ]
      rcases scanning.findMatch with
        ⟨found, samplenum, least, most, position, met, edges⟩ | ⟨usedUp, edges, old, ready, level⟩
      · rw [if_pos found, position] at region
        rw [SrdDecoderInst.serveWaits, region]
        dsimp only
        have next := met.nextWait rounds
        have same : SameChunk ((afterMatch .cDecoder di.findMatch.2).nextWait
            (replicate rounds (tdmAudioWait edge))) di :=
          ((nextWait_sameChunk _ _).trans (afterMatch_sameChunk .cDecoder _)).trans
            (sameChunk_of_frame (findMatch_frame di))
        have stop := same.absEndSamplenum
        generalize (afterMatch .cDecoder di.findMatch.2).nextWait
          (replicate rounds (tdmAudioWait edge)) = after at next same stop ⊢
        by_cases more : samplenum + 1 < di.absEndSamplenum
        · have served := ih (next.scanning same scanning least more fits)
            (by rw [stop]; exact fits) (by rw [stop]; omega)
          rw [stop] at served
          obtain ⟨places, ⟨left, rest, rounds⟩, between⟩ := served
          have last : endsInEdge stream edge prev first di.absEndSamplenum =
              endsInEdge stream edge (stream 0 samplenum) (samplenum + 1) di.absEndSamplenum := by
            unfold endsInEdge
            rw [edges]
            refine decide_eq_decide.mpr (mem_cons.trans (or_iff_right ?_))
            omega
          refine ⟨?_, ⟨left, rest, by omega⟩, ?_⟩
          · rw [map_cons, places, edges]
          · rw [last]
            exact between
        · have boundary : di.absEndSamplenum = samplenum + 1 := by omega
          obtain ⟨rounds, rfl⟩ : ∃ fewer, rounds = fewer + 1 := ⟨rounds - 1, by omega⟩
          have channels : 0 < after.decNumChannels := by
            unfold decNumChannels
            rw [same.decChannelmap]
            exact scanning.channels
          obtain ⟨none, between⟩ := next.exhausted (same.gotNewSamples.trans scanning.samples)
            (same.wantWaitTerminate.trans scanning.running)
            (same.readSample.trans scanning.reader) channels
            (tdmAudioWait_holds_eq rfl : StandsFor stream edge (stream 0 samplenum) _)
            (boundary.symm.trans stop.symm) (by rw [stop]; exact fits) rounds
          rw [boundary, Nat.sub_self, clockEdges_zero] at edges
          have last : endsInEdge stream edge prev first (samplenum + 1) = true := by
            unfold endsInEdge
            rw [edges]
            exact decide_eq_true mem_cons_self
          rw [none, boundary]
          refine ⟨?_, ⟨rounds + 1, rfl, by omega⟩, ?_⟩
          · rw [edges]
            rfl
          · rw [last]
            exact between
      · rw [usedUp, if_neg Bool.false_ne_true] at region
        rw [SrdDecoderInst.serveWaits, region]
        have last : endsInEdge stream edge prev first di.absEndSamplenum = false := by
          unfold endsInEdge
          rw [edges]
          exact decide_eq_false not_mem_nil
        refine ⟨?_, ⟨rounds + 1, replicate_succ.symm, by omega⟩, ?_⟩
        · rw [edges]
          rfl
        · rw [last]
          exact ready.toSeen.between ready.unmatched (sameChunk_of_frame (findMatch_frame di))
            scanning.running scanning.reader scanning.channels (tdmAudioWait_holds_eq level)

theorem Between.handOver {matched : Bool} {boundary : Nat} {chunk : SampleChunk}
    (between : Between stream edge matched prev di boundary) (delivers : chunk.Delivers stream)
    (start : chunk.absStartSamplenum = boundary)
    (nonempty : chunk.absStartSamplenum < chunk.absEndSamplenum)
    (fits : chunk.absEndSamplenum < 2 ^ 64) :
    di.srdInstDecodeHandOver chunk = (.ok, (di.seekFirst chunk).storeChunk chunk) ∧
      (di.seekFirst chunk).absCurSamplenum = boundary ∧
        (boundary + matched.toNat < chunk.absEndSamplenum →
          Scanning stream edge prev ((di.seekFirst chunk).storeChunk chunk)
            (boundary + matched.toNat)) := by
  subst start
  obtain ⟨accepted, atStart⟩ := handOver_ok delivers between.position nonempty
  rw [seekFirst_eq_seek] at atStart accepted ⊢
  have tested : ((di.seek (di.seekFirst chunk).absCurSamplenum).storeChunk chunk).firstTested =
      chunk.absStartSamplenum + matched.toNat := by
    have position : ((di.seek (di.seekFirst chunk).absCurSamplenum).storeChunk
        chunk).absCurSamplenum = chunk.absStartSamplenum := atStart
    have flag : ((di.seek (di.seekFirst chunk).absCurSamplenum).storeChunk
        chunk).absCurMatched = matched := between.flag
    unfold firstTested incSamplenum
    rw [position, flag]
    cases matched with
    | true =>
        rw [if_pos rfl, if_neg (by omega)]
        rfl
    | false => rfl
  refine ⟨accepted, atStart, fun inside => ?_⟩
  constructor
  case facing =>
      constructor
      case tested => exact tested
      case fresh =>
          intro first
          exact between.flag.trans (between.fresh first)
      case list => exact between.list
      case idle => exact between.idle
      case holds => exact storeChunk_holdsStream delivers between.reader
      case inside => exact ⟨Nat.le_add_right _ _, inside⟩
  case samples => rfl
  case running => exact between.running
  case reader => exact between.reader
  case channels => exact between.channels
  case verdict =>
      refine Eq.trans ?_ (between.verdict _ fun first => ?_)
      · refine condsHold_congr (tdmAudioWait_plain between.channels) _ fun ch _ => ?_
        apply rememberedPins_congr
        · rfl
        · rfl
        · rfl
      · rw [between.fresh first]
        rfl

theorem Between.skipped {boundary rounds : Nat} {chunk : SampleChunk}
    (between : Between stream edge true prev di boundary) (delivers : chunk.Delivers stream)
    (start : chunk.absStartSamplenum = boundary)
    (single : boundary + 1 = chunk.absEndSamplenum) (fits : chunk.absEndSamplenum < 2 ^ 64) :
    ∃ after, serveWaits .cDecoder (replicate (rounds + 1) (tdmAudioWait edge))
          ((di.seekFirst chunk).storeChunk chunk) =
        ([], replicate (rounds + 1) (tdmAudioWait edge), after) ∧
      Between stream edge true prev after chunk.absEndSamplenum := by
  obtain ⟨-, atStart, -⟩ := between.handOver delivers start (by omega) fits
  have later : di.firstPos = false := by
    refine eq_false_iff.mpr fun first => ?_
    exact Bool.false_ne_true (between.fresh first).symm
  have stands : StandsFor stream edge prev di.oldPin := by
    intro next
    refine Eq.trans ?_ (between.verdict next fun first =>
      absurd (later.symm.trans first) Bool.false_ne_true)
    congr 1
    unfold rememberedPins
    rw [later]
    rfl
  rw [seekFirst_eq_seek] at atStart ⊢
  have met : Met (tdmAudioWait edge)
      ((di.seek (di.seekFirst chunk).absCurSamplenum).storeChunk chunk) boundary di.oldPin :=
    ⟨⟨atStart, between.list, between.idle, later, fun _ _ => rfl⟩, between.flag⟩
  obtain ⟨served, behind⟩ := met.exhausted rfl between.running between.reader between.channels
    stands single fits rounds
  rw [single] at behind
  exact ⟨_, served, behind⟩

theorem Between.decodeChunks {matched : Bool} {boundary stop rounds : Nat}
    {chunks : List SampleChunk} (between : Between stream edge matched prev di boundary)
    (consecutive : Consecutive boundary stop chunks)
    (delivers : ∀ chunk ∈ chunks, chunk.Delivers stream) (fits : stop < 2 ^ 64)
    (enough : stop - boundary < rounds) :
    (decodeChunks .cDecoder chunks (replicate rounds (tdmAudioWait edge)) di).map Prod.fst =
      waitedEdges stream edge matched prev chunks := by
  induction chunks generalizing di matched prev boundary rounds with
  | nil => rfl
  | cons chunk chunks ih =>
      obtain ⟨start, nonempty, rest⟩ := consecutive
      have upto := consecutive_le rest
      have ends : chunk.absEndSamplenum < 2 ^ 64 := by omega
      have here := delivers chunk mem_cons_self
      have others : ∀ part ∈ chunks, part.Delivers stream :=
        fun part member => delivers part (mem_cons_of_mem _ member)
      obtain ⟨accepted, -, scans⟩ := between.handOver here start nonempty ends
      rw [SrdDecoderInst.decodeChunks, accepted, waitedEdges, start]
      dsimp only
      by_cases inside : boundary + matched.toNat < chunk.absEndSamplenum
      · have served : EdgesServed stream edge prev (boundary + matched.toNat)
            chunk.absEndSamplenum rounds _ :=
          (scans inside).serveWaits ends (by change chunk.absEndSamplenum - _ < rounds; omega)
        obtain ⟨places, ⟨left, waits, remain⟩, behind⟩ := served
        obtain ⟨left, rfl⟩ : ∃ fewer, left = fewer + 1 := ⟨left - 1, by omega⟩
        rw [waits, if_neg (by rw [replicate_succ]; exact cons_ne_nil _ _),
          map_append, places, if_pos inside]
        congr 1
        exact ih behind rest others (by omega)
      · obtain ⟨rfl, single⟩ : matched = true ∧ boundary + 1 = chunk.absEndSamplenum := by
          cases matched with
          | true =>
              rw [toNat_true] at inside
              exact ⟨rfl, by omega⟩
          | false => exact absurd (start ▸ nonempty) inside
        obtain ⟨rounds, rfl⟩ : ∃ fewer, rounds = fewer + 1 := ⟨rounds - 1, by omega⟩
        obtain ⟨after, served, behind⟩ := @between.skipped _ _ _ _ _ rounds _ here start single ends
        rw [served, if_neg inside]
        dsimp only
        rw [if_neg (by rw [replicate_succ]; exact cons_ne_nil _ _), nil_append]
        exact ih behind rest others (by omega)

end Scan

def initialClk (di : SrdDecoderInst) : UInt8 :=
  di.oldpinsArraySeed.oldPin 0

def FirstAgrees (stream : SampleStream) (edge : Bool) (start stop : Nat) (di : SrdDecoderInst) :
    Prop :=
  start < stop → stream 0 start = edge ∨ initialClk di = bitByte edge

instance (stream : SampleStream) (edge : Bool) (start stop : Nat) (di : SrdDecoderInst) :
    Decidable (FirstAgrees stream edge start stop di) :=
  inferInstanceAs (Decidable
    (start < stop → stream 0 start = edge ∨ initialClk di = bitByte edge))

theorem rememberedClk_iff {stream : SampleStream} {edge : Bool} {di : SrdDecoderInst}
    (first : di.firstPos = true) {samplenum : Nat} (level : stream 0 samplenum = !edge) :
    di.rememberedPins (pinsAt stream samplenum) 0 = bitByte edge ↔
      initialClk di = bitByte edge := by
  have pin : di.rememberedPins (pinsAt stream samplenum) 0 =
      if initialClk di = srdInitialPinSameAsSample0 then bitByte (!edge) else initialClk di := by
    rw [← level]
    exact if_pos first
  have unlike : bitByte edge ≠ srdInitialPinSameAsSample0 ∧ bitByte (!edge) ≠ bitByte edge := by
    cases edge
    all_goals decide
  rw [pin]
  split
  · rename_i unset
    rw [unset]
    exact iff_of_false unlike.2 (Ne.symm unlike.1)
  · exact Iff.rfl

theorem started_between {stream : SampleStream} {edge : Bool} {di : SrdDecoderInst}
    (running : di.wantWaitTerminate = false) (reader : di.readSample = none)
    (channels : 0 < di.decNumChannels) (start rounds : Nat) :
    Between stream edge false (if initialClk di = bitByte edge then edge else !edge)
      (di.srdInstStart.nextWait (replicate (rounds + 1) (tdmAudioWait edge))) start where
  position := Or.inl rfl
  fresh _ := rfl
  list := rfl
  idle := rfl
  flag := rfl
  running := running
  reader := reader
  channels := channels
  verdict next _ := by
    have waits : di.srdInstStart.nextWait (replicate (rounds + 1) (tdmAudioWait edge)) =
        { di.srdInstStart with conditionList := tdmAudioWait edge } := rfl
    have seed : initialClk { di.srdInstStart with conditionList := tdmAudioWait edge } =
        initialClk di := by
      unfold initialClk
      rw [oldpinsArraySeed_oldPin, oldpinsArraySeed_oldPin]
      rfl
    refine Bool.eq_iff_iff.mpr ?_
    rw [waits, tdmAudioWait_holds_iff, wantedEdge_iff]
    refine and_congr_left fun level => (rememberedClk_iff rfl level).trans ?_
    rw [seed]
    split
    · rename_i same
      exact iff_of_true same rfl
    · rename_i other
      exact iff_of_false other (not_ne_self edge)

/-- The waits of `tdm_audio_c` come to the edges of the clock exactly if no edge is lost behind
another one. -/
theorem tdmAudioBits_eq {stream : SampleStream} {start stop : Nat} {chunks : List SampleChunk}
    (cuts : Cuts stream start stop chunks) (fits : stop < 2 ^ 64) {edge : Bool}
    {di : SrdDecoderInst} (running : di.wantWaitTerminate = false) (reader : di.readSample = none)
    (channels : 0 < di.decNumChannels) {rounds : Nat} (enough : stop - start < rounds) :
    tdmAudioBits edge rounds chunks di =
      waitedEdges stream edge false (if initialClk di = bitByte edge then edge else !edge)
        chunks := by
  obtain ⟨rounds, rfl⟩ : ∃ fewer, rounds = fewer + 1 := ⟨rounds - 1, by omega⟩
  exact (started_between running reader channels start rounds).decodeChunks cuts.consecutive
    cuts.delivers fits enough

theorem clockEdges_agree {stream : SampleStream} {edge : Bool} {start stop : Nat}
    {di : SrdDecoderInst} (agrees : FirstAgrees stream edge start stop di) :
    clockEdges stream edge edge start (stop - start) =
      clockEdges stream edge (if initialClk di = bitByte edge then edge else !edge) start
        (stop - start) := by
  by_cases more : start < stop
  · rcases agrees more with level | pin
    · apply clockEdges_congr
      have none : ∀ prev, wantedEdge edge prev (stream 0 start) = false := by
        intro prev
        refine eq_false_iff.mpr fun wanted => ?_
        exact not_ne_self edge ((wantedEdge_iff.mp wanted).2.symm.trans level)
      rw [none, none]
    · rw [if_pos pin]
  · rw [Nat.sub_eq_zero_of_le (Nat.le_of_not_lt more)]
    rfl

/-- From the start of an instance both decoders handle their bits at the same samples exactly if
they agree about the first one and no edge is lost behind an edge at the end of a chunk. -/
theorem tdmAudioBits_iff {stream : SampleStream} {start stop : Nat} {blocks : List PackedBlock}
    {chunks : List SampleChunk}
    (blockCuts : SrdDecoderInst.PackedBlock.Cuts 3 stream start stop blocks)
    (cuts : Cuts stream start stop chunks) (fits : stop < 2 ^ 64) {s : TdmAudioFastState}
    (fresh : s.havePrevClk = false) (empty : s.bits = []) {di : SrdDecoderInst}
    (running : di.wantWaitTerminate = false) (reader : di.readSample = none)
    (channels : 0 < di.decNumChannels) {rounds : Nat} (enough : stop - start < rounds) :
    (s.tdmAudioFastDecode blocks).bitPlaces = tdmAudioBits s.edge rounds chunks di ↔
      FirstAgrees stream s.edge start stop di ∧
        EdgesKept stop (clockEdges stream s.edge s.edge start (stop - start)) chunks := by
  rw [TdmAudioFastState.tdmAudioFastDecode_bits fresh empty blockCuts,
    tdmAudioBits_eq cuts fits running reader channels enough]
  have kept := (@waitedEdges_eq_iff stream s.edge stop _ _ cuts.consecutive).1
    (if initialClk di = bitByte s.edge then s.edge else !s.edge)
  unfold WaitsForEdges at kept
  by_cases agrees : FirstAgrees stream s.edge start stop di
  · rw [and_iff_right agrees, clockEdges_agree agrees, eq_comm]
    exact kept
  · refine iff_of_false (fun same => ?_) fun both => agrees both.1
    unfold FirstAgrees at agrees
    push Not at agrees
    obtain ⟨more, high, pin⟩ := agrees
    have wanted : wantedEdge s.edge s.edge (stream 0 start) = true :=
      wantedEdge_iff.mpr ⟨rfl, eq_not.mpr high⟩
    have member := (first_mem_clockEdges_iff (Nat.sub_pos_of_lt more)).mpr wanted
    rw [same, if_neg pin] at member
    exact first_notMem_waitedEdges cuts.consecutive member

/-- An instance of a TDM decoder as `srd_inst_new` leaves it. -/
def tdmInstance : SrdDecoderInst :=
  oldpinsArraySeed { freshInstance with decChannelmap := [0, 1, 2] }

/-- Eight samples of the clock, with the other lines low. -/
def clockByte (byte : UInt8) : PackedBlock :=
  { count := 8
    startSample := 0
    bitOffset := 0
    buffers := [some [byte], none, none]
    constValues := [0, 0, 0] }

/-- A clock that is low at the first sample: the edge behind it is found by both. -/
theorem tdmAudioBits_iff_oneRise : (twoBitTdm.tdmAudioFastDecode [clockByte 0xFE]).bitPlaces =
        tdmAudioBits false 9 [byteChunk 0 8 0xFE] tdmInstance ↔
      FirstAgrees oneRise false 0 8 tdmInstance ∧
        EdgesKept 8 (clockEdges oneRise false false 0 8) [byteChunk 0 8 0xFE] := by
  have blockCuts : SrdDecoderInst.PackedBlock.Cuts 3 oneRise 0 8 [clockByte 0xFE] :=
    ⟨rfl, ⟨by decide, by decide⟩, rfl⟩
  exact tdmAudioBits_iff blockCuts oneRise_cut (by decide) rfl rfl rfl rfl (by decide) (by decide)

def highClock : SampleStream := fun ch _ => ch == 0

theorem highClock_cut : Cuts highClock 0 8 [byteChunk 0 8 0xFF] := by
  refine ⟨⟨rfl, by decide, rfl⟩, ?_⟩
  intro chunk member
  rw [mem_singleton.mp member]
  apply byteChunk_delivers
  · intro samplenum _ upper
    have bits : ∀ offset < 8, packedBit [0xFF] offset = highClock 0 offset := by decide
    exact bits samplenum upper
  · intro ch samplenum
    rfl

/-- The fast decoder takes the first sample for a rising edge. -/
theorem tdmAudioFast_extra_bit : SrdDecoderInst.PackedBlock.Cuts 3 highClock 0 8 [clockByte 0xFF] ∧
      Cuts highClock 0 8 [byteChunk 0 8 0xFF] ∧
        (twoBitTdm.tdmAudioFastDecode [clockByte 0xFF]).bitPlaces = [0] ∧
          tdmAudioBits false 9 [byteChunk 0 8 0xFF] tdmInstance = [] := by
  have blockCuts : SrdDecoderInst.PackedBlock.Cuts 3 highClock 0 8 [clockByte 0xFF] :=
    ⟨rfl, ⟨by decide, by decide⟩, rfl⟩
  have fast := @TdmAudioFastState.tdmAudioFastDecode_bits _ twoBitTdm rfl rfl _ _ _ blockCuts
  exact ⟨blockCuts, highClock_cut, fast.trans (by decide), by decide⟩

end SigrokDecode
