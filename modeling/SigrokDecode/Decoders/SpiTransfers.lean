import SigrokDecode.Decoders.SpiWords

/-!
# The transfers of `spi_c`

At the end of a transfer its words go out once more, one byte each and at most 256 of them.
-/

set_option linter.dupNamespace false

namespace SigrokDecode

open Foundation List BitVec

def countBytes (count : Nat) : List (BitVec 8) :=
  [BitVec.ofNat 8 count, BitVec.ofNat 8 (count / 256)]

/-- The bytes of the "TRANSFER" packet of `spi_put_transfer`. -/
def SpiConfig.transferBytes (config : SpiConfig) (mosi miso : List (BitVec 64)) : List (BitVec 8) :=
  BitVec.ofNat 8 (config.haveMosi.toNat + 2 * config.haveMiso.toNat) ::
    (countBytes mosi.length ++ countBytes miso.length ++
      mosi.map (BitVec.setWidth 8) ++ miso.map (BitVec.setWidth 8))

def readTransfer : List (BitVec 8) → Option (List Nat × List Nat)
  | _ :: mosiLow :: mosiHigh :: misoLow :: misoHigh :: words =>
      let mosiCount := mosiLow.toNat + 256 * mosiHigh.toNat
      let misoCount := misoLow.toNat + 256 * misoHigh.toNat
      some ((words.take mosiCount).map BitVec.toNat,
        ((words.drop mosiCount).take misoCount).map BitVec.toNat)
  | _ => none

theorem countBytes_toNat {count : Nat} (fits : count < 65536) :
    (BitVec.ofNat 8 count).toNat + 256 * (BitVec.ofNat 8 (count / 256)).toNat = count := by
  rw [toNat_ofNat, toNat_ofNat]
  omega

theorem readTransfer_transferBytes (config : SpiConfig) {mosi miso : List (BitVec 64)}
    (mosiFits : mosi.length < 65536) (misoFits : miso.length < 65536) :
    readTransfer (config.transferBytes mosi miso) =
      some (mosi.map fun word => word.toNat % 256, miso.map fun word => word.toNat % 256) := by
  have length : (mosi.map (setWidth 8)).length = mosi.length := length_map _
  have rest : (miso.map (setWidth 8)).length = miso.length := length_map _
  unfold SpiConfig.transferBytes countBytes
  change some (((mosi.map (setWidth 8) ++ miso.map (setWidth 8)).take
      ((BitVec.ofNat 8 mosi.length).toNat + 256 * (BitVec.ofNat 8 (mosi.length / 256)).toNat)).map
        BitVec.toNat,
    (((mosi.map (setWidth 8) ++ miso.map (setWidth 8)).drop
      ((BitVec.ofNat 8 mosi.length).toNat + 256 * (BitVec.ofNat 8 (mosi.length / 256)).toNat)).take
      ((BitVec.ofNat 8 miso.length).toNat +
        256 * (BitVec.ofNat 8 (miso.length / 256)).toNat)).map BitVec.toNat) = _
  rw [countBytes_toNat mosiFits, countBytes_toNat misoFits, take_left' length,
    drop_left' length, ← rest, List.take_length, map_map, map_map]
  congr 2

theorem addTransfer_take (words : List (BitVec 64)) (data : BitVec 64) :
    SpiConfig.addTransfer true (words.take spiMaxTransferBytes) data =
      (words ++ [data]).take spiMaxTransferBytes := by
  unfold SpiConfig.addTransfer
  rw [Bool.true_and, length_take]
  split
  · rename_i room
    have short := of_decide_eq_true room
    rw [take_of_length_le (by omega), take_of_length_le]
    rw [length_append, length_singleton]
    omega
  · rename_i full
    have long : ¬min spiMaxTransferBytes words.length < spiMaxTransferBytes := fun less =>
      full (decide_eq_true less)
    rw [take_append_of_le_length (by omega)]

theorem map_take_eq_iff (words : List (BitVec 64)) (size : Nat) :
    ((words.take size).map fun word => word.toNat % 256) = words.map BitVec.toNat ↔
      words.length ≤ size ∧ ∀ word ∈ words, word.toNat < 256 := by
  constructor
  · intro same
    have length := congrArg List.length same
    rw [length_map, length_map, length_take] at length
    have short : words.length ≤ size := by omega
    rw [take_of_length_le short] at same
    refine ⟨short, fun word member => ?_⟩
    have low := map_inj_left.mp same word member
    omega
  · rintro ⟨short, small⟩
    rw [take_of_length_le short]
    exact map_congr_left fun word member => Nat.mod_eq_of_lt (small word member)

namespace SpiConfig

variable (config : SpiConfig)

def lastSegment (initial : SpiPins) (samples : List SpiPins) : List SpiEdge :=
  (config.segments [] initial 0 samples).getLast?.getD []

theorem segments_last (segment : List SpiEdge) (old : SpiPins) (samplenum : Nat)
    (samples : List SpiPins) :
    ∃ last, (config.segments segment old samplenum samples).getLast? = some last := by
  induction samples generalizing segment old samplenum with
  | nil => exact ⟨segment, rfl⟩
  | cons new samples ih =>
      rw [segments]
      split
      · rw [getLast?_cons]
        exact ⟨_, rfl⟩
      · exact ih _ _ _

theorem segments_cons_last (segment : List SpiEdge) (old new : SpiPins) (samplenum : Nat)
    (samples : List SpiPins) :
    (config.segments segment old samplenum (new :: samples)).getLast?.getD [] =
      (config.segments ((if config.csEdge old new then [] else segment) ++
        config.edgeAt old new samplenum) new (samplenum + 1) samples).getLast?.getD [] := by
  rw [segments]
  split
  · obtain ⟨last, same⟩ := config.segments_last (config.edgeAt old new samplenum) new
      (samplenum + 1) samples
    rw [getLast?_cons, nil_append, same]
    rfl
  · rfl

def sentWords (present : Bool) (line : SpiPins → Bool) (segment : List SpiEdge) :
    List (BitVec 64) :=
  if present then (completeGroups config.wordsize segment).map (config.wordValue line) else []

def keptWords (present : Bool) (line : SpiPins → Bool) (segment : List SpiEdge) :
    List (BitVec 64) :=
  (config.sentWords present line segment).take spiMaxTransferBytes

theorem keptWords_nil (present : Bool) (line : SpiPins → Bool) :
    config.keptWords present line [] = [] := by
  unfold keptWords sentWords
  rw [completeGroups_nil, map_nil, ite_self, take_nil]

theorem keptWords_congr {present : Bool} {line : SpiPins → Bool} {segment more : List SpiEdge}
    (same : completeGroups config.wordsize more = completeGroups config.wordsize segment) :
    config.keptWords present line more = config.keptWords present line segment := by
  unfold keptWords sentWords
  rw [same]

theorem addTransfer_keptWords {present : Bool} {line : SpiPins → Bool}
    {segment more word : List SpiEdge} {data : BitVec 64}
    (grown : completeGroups config.wordsize more = completeGroups config.wordsize segment ++ [word])
    (same : present = true → data = config.wordValue line word) :
    addTransfer present (config.keptWords present line segment) data =
      config.keptWords present line more := by
  unfold keptWords sentWords
  cases present with
  | true =>
      rw [if_pos rfl, if_pos rfl, addTransfer_take, grown, map_append, same rfl]
      rfl
  | false => rfl

end SpiConfig

namespace SpiState

variable {config : SpiConfig} {s : SpiState} {f : SpiFastState}

variable (config s) in
structure Keeps (segment : List SpiEdge) : Prop where
  begun : ∃ ss, s.ssTransfer = some ss
  mosi : s.mosibytes = config.keptWords config.haveMosi SpiPins.mosi segment
  miso : s.misobytes = config.keptWords config.haveMiso SpiPins.miso segment

variable (config s f) in
/-- `spi_c` goes along with `spi_fast_c`. -/
structure Follows (segment : List SpiEdge) : Prop where
  started : s.firstWait = false
  agrees : s.Agrees config f
  receives : f.Receives config (lastGroup config.wordsize segment)
  emits : ∃ earlier, f.Emits config (earlier ++ completeGroups config.wordsize segment)

variable (config s f) in
/-- The words of a selected device are kept; `pins` are the last ones. -/
structure Tracks (segment : List SpiEdge) (pins : SpiPins) : Prop
    extends Follows config s f segment where
  keeps : config.csAsserted pins.cs = true → s.Keeps config segment

variable {segment : List SpiEdge}

theorem Keeps.handleBit (keeps : s.Keeps config segment) (agrees : s.Agrees config f)
    (receives : f.Receives config (lastGroup config.wordsize segment)) (edge : SpiEdge) :
    (s.handleBit config edge.pins edge.samplenum).Keeps config (segment ++ [edge]) := by
  have positive : 0 < config.wordsize := config.valid.1
  have room : (lastGroup config.wordsize segment).length < 64 := by
    rw [length_lastGroup]
    exact (Nat.mod_lt _ positive).trans_le config.valid.2
  have count : s.bitcount = (lastGroup config.wordsize segment).length :=
    agrees.count.trans receives.count
  by_cases full : (lastGroup config.wordsize segment).length + 1 = config.wordsize
  · obtain ⟨groups, -⟩ := groups_concat_full full edge
    have next := receives.receiveBit room edge
    obtain ⟨-, mosi, miso, -⟩ := agrees.receiveBit_lines edge.pins edge.samplenum
    rw [← agrees.count, count, full] at mosi miso
    rw [s.handleBit_of_eq edge.pins edge.samplenum (count ▸ full)]
    have mosiData (present : config.haveMosi = true) :
        (s.receiveBit config edge.pins edge.samplenum).mosi.data =
          config.wordValue SpiPins.mosi (lastGroup config.wordsize segment ++ [edge]) := by
      rw [(mosi present).eq]
      exact (next.mosi present).data
    have misoData (present : config.haveMiso = true) :
        (s.receiveBit config edge.pins edge.samplenum).miso.data =
          config.wordValue SpiPins.miso (lastGroup config.wordsize segment ++ [edge]) := by
      rw [(miso present).eq]
      exact (next.miso present).data
    have put : (s.receiveBit config edge.pins edge.samplenum).putData config |>.Keeps config
        (segment ++ [edge]) := by
      refine ⟨keeps.begun, ?_, ?_⟩
      · rw [← config.addTransfer_keptWords groups mosiData, ← keeps.mosi]
        rfl
      · rw [← config.addTransfer_keptWords groups misoData, ← keeps.miso]
        rfl
    unfold putWarning
    split
    · exact { put with }
    · exact { put with }
  · obtain ⟨groups, -⟩ := groups_concat_early positive full edge
    rw [s.handleBit_of_ne edge.pins edge.samplenum (count ▸ full)]
    refine ⟨keeps.begun, ?_, ?_⟩
    · rw [config.keptWords_congr groups]
      exact keeps.mosi
    · rw [config.keptWords_congr groups]
      exact keeps.miso

theorem Keeps.begin (s : SpiState) {cs : Bool} (asserted : config.csAsserted cs = true)
    (samplenum : Nat) : (s.csChange config cs samplenum).Keeps config [] := by
  unfold csChange
  dsimp only
  rw [if_pos asserted]
  exact ⟨⟨samplenum, rfl⟩, (config.keptWords_nil _ _).symm, (config.keptWords_nil _ _).symm⟩

variable {old new : SpiPins}

theorem Keeps.atCs
    (keeps : config.csEdge old new = false → s.Keeps config segment) (samplenum : Nat)
    (asserted : config.csAsserted new.cs = true) :
    (s.atCs config old new samplenum).Keeps config
      (if config.csEdge old new then [] else segment) := by
  unfold SpiState.atCs
  cases changed : config.csEdge old new with
  | true => exact Keeps.begin s asserted samplenum
  | false => exact keeps changed

theorem Follows.step (follows : s.Follows config f segment) (old new : SpiPins) (samplenum : Nat)
    (keeps : config.csEdge old new = false → config.csAsserted new.cs = true →
      s.Keeps config segment) :
    ((spiDecode config).step s old new samplenum).Tracks config
      ((spiFastDecode config).step f old new samplenum)
      ((if config.csEdge old new then [] else segment) ++ config.edgeAt old new samplenum) new := by
  obtain ⟨started, agrees, before, earlier, emits⟩ := follows
  obtain ⟨receives, emitted⟩ := before.step emits old new samplenum
  refine ⟨⟨started_step started old new samplenum, agrees.step started old new samplenum,
    receives, ⟨_, emitted⟩⟩, fun asserted => ?_⟩
  have kept := Keeps.atCs (fun unchanged => keeps unchanged asserted) samplenum asserted
  have agreesCs := agrees.atCs old new samplenum
  have receivesCs := before.atCs old new samplenum
  have group : (if config.csEdge old new then [] else lastGroup config.wordsize segment) =
      lastGroup config.wordsize (if config.csEdge old new then [] else segment) := by
    split
    · exact (lastGroup_nil _).symm
    · rfl
  rw [group] at receivesCs
  rw [step_eq_handle started, handle_eq]
  unfold SpiConfig.edgeAt
  split
  · exact kept.handleBit agreesCs receivesCs ⟨samplenum, new⟩
  · rw [List.append_nil]
    exact kept

theorem cs_eq_of_csEdge (haveCs : config.haveCs = true)
    (unchanged : config.csEdge old new = false) : old.cs = new.cs := by
  unfold SpiConfig.csEdge at unchanged
  rw [haveCs, Bool.true_and] at unchanged
  exact bne_eq_false_iff_eq.mp unchanged

theorem Tracks.step {old : SpiPins} (tracks : s.Tracks config f segment old)
    (haveCs : config.haveCs = true) (new : SpiPins) (samplenum : Nat) :
    ((spiDecode config).step s old new samplenum).Tracks config
      ((spiFastDecode config).step f old new samplenum)
      ((if config.csEdge old new then [] else segment) ++ config.edgeAt old new samplenum) new :=
  tracks.toFollows.step old new samplenum fun unchanged asserted =>
    tracks.keeps (cs_eq_of_csEdge haveCs unchanged ▸ asserted)

theorem Tracks.scan {old : SpiPins} (tracks : s.Tracks config f segment old)
    (haveCs : config.haveCs = true) (samplenum : Nat) (samples : List SpiPins) :
    ((spiDecode config).scan s old samplenum samples).Tracks config
      ((spiFastDecode config).scan f old samplenum samples)
      ((config.segments segment old samplenum samples).getLast?.getD [])
      (samples.getLastD old) := by
  induction samples generalizing s f segment old samplenum with
  | nil => exact tracks
  | cons new samples ih =>
      rw [SampleDecoder.scan_cons, SampleDecoder.scan_cons, config.segments_cons_last,
        getLastD_cons]
      exact ih (tracks.step haveCs new samplenum) (samplenum + 1)

theorem start_follows (haveCs : config.haveCs = true) (first : SpiPins) :
    (start config first).Follows config (SpiFastState.start config first) [] ∧
      (config.csAsserted first.cs = true → (start config first).Keeps config []) := by
  obtain ⟨receives, emits⟩ := SpiFastState.start_receives config first
  have agrees := SpiState.start_agrees config first
  have nothing : lastGroup config.wordsize ([] : List SpiEdge) = [] := lastGroup_nil _
  have none : completeGroups config.wordsize ([] : List SpiEdge) = [] := completeGroups_nil _
  refine ⟨⟨?_, agrees, ?_, ⟨[], ?_⟩⟩, fun asserted => ?_⟩
  · unfold start
    rw [if_pos haveCs]
    dsimp only
    split <;> rfl
  · rw [nothing]
    exact receives
  · rw [none]
    exact emits
  · unfold start
    rw [if_pos haveCs]
    dsimp only
    rw [if_pos asserted]
    exact ⟨⟨0, rfl⟩, (config.keptWords_nil _ _).symm, (config.keptWords_nil _ _).symm⟩

theorem capture_tracks (haveCs : config.haveCs = true) (initial first : SpiPins)
    (samples : List SpiPins) :
    ∃ f, ((spiDecode config).scan (start config first) initial 0 (first :: samples)).Tracks config f
      (config.lastSegment initial (first :: samples)) ((first :: samples).getLastD initial) := by
  obtain ⟨follows, keeps⟩ := start_follows haveCs first
  have begun := follows.step initial first 0 fun _ => keeps
  unfold SpiConfig.lastSegment
  rw [SampleDecoder.scan_cons, config.segments_cons_last, getLastD_cons]
  exact ⟨_, begun.scan haveCs 1 samples⟩

theorem Tracks.release (tracks : s.Tracks config f segment old)
    (haveCs : config.haveCs = true) (released : config.csEdge old new = true)
    (deasserted : config.csAsserted new.cs = false) (samplenum : Nat) :
    ∃ ss, ((spiDecode config).step s old new samplenum).protos.getLast? =
      some ⟨ss, samplenum, .transfer (config.keptWords config.haveMosi SpiPins.mosi segment)
        (config.keptWords config.haveMiso SpiPins.miso segment)⟩ := by
  have asserted : config.csAsserted old.cs = true := by
    unfold SpiConfig.csEdge at released
    rw [haveCs, Bool.true_and] at released
    have flip : ∀ before after level : Bool, (before != after) = true →
        (after == level) = false → (before == level) = true := by decide
    exact flip old.cs new.cs config.csActiveHigh released deasserted
  obtain ⟨⟨ss, begun⟩, mosi, miso⟩ := tracks.keeps asserted
  have idle : config.sampled old new = false := by
    unfold SpiConfig.sampled SpiConfig.selected
    rw [haveCs, deasserted]
    rfl
  have absent (present : Bool) (line : SpiPins → Bool) :
      (if present then config.keptWords present line segment else []) =
        config.keptWords present line segment := by
    cases present
    · rfl
    · rfl
  refine ⟨ss, ?_⟩
  rw [step_eq_handle tracks.started, handle_eq, idle, if_neg Bool.false_ne_true]
  unfold SpiState.atCs csChange
  dsimp only
  rw [if_pos released, if_neg (by rw [deasserted]; exact Bool.false_ne_true)]
  have unchanged : (s.proto samplenum samplenum (.csChange (some !new.cs) (some new.cs))).ssTransfer =
      some ss := begun
  rw [unchanged]
  unfold putTransfer resetWord
  dsimp only
  rw [getLast?_concat]
  have mosiKept : (s.proto samplenum samplenum
      (.csChange (some !new.cs) (some new.cs))).mosibytes = _ := mosi
  have misoKept : (s.proto samplenum samplenum
      (.csChange (some !new.cs) (some new.cs))).misobytes = _ := miso
  rw [mosiKept, misoKept, absent, absent]

end SpiState

/-- The last packet is a transfer with the words that the lines have sent. -/
def SendsTransfer (config : SpiConfig) (protos : List (SpiOut SpiProto))
    (segment : List SpiEdge) : Prop :=
  ∃ ss es mosi miso, protos.getLast? = some ⟨ss, es, .transfer mosi miso⟩ ∧
    readTransfer (config.transferBytes mosi miso) =
      some ((config.sentWords config.haveMosi SpiPins.mosi segment).map BitVec.toNat,
        (config.sentWords config.haveMiso SpiPins.miso segment).map BitVec.toNat)

def FitsTransfer (words : List (BitVec 64)) : Prop :=
  words.length ≤ spiMaxTransferBytes ∧ ∀ word ∈ words, word.toNat < 256

-- The instance for all words of 64 bits would try them all.
instance (words : List (BitVec 64)) : Decidable (FitsTransfer words) :=
  decidable_of_iff (words.length ≤ spiMaxTransferBytes ∧
    (words.all fun word => decide (word.toNat < 256)) = true) (by
      rw [List.all_eq_true]
      simp only [decide_eq_true_eq]
      rfl)

theorem sendsTransfer_iff {config : SpiConfig} {protos : List (SpiOut SpiProto)}
    {segment : List SpiEdge} {ss es : Nat}
    (last : protos.getLast? =
      some ⟨ss, es, .transfer (config.keptWords config.haveMosi SpiPins.mosi segment)
        (config.keptWords config.haveMiso SpiPins.miso segment)⟩) :
    SendsTransfer config protos segment ↔
      FitsTransfer (config.sentWords config.haveMosi SpiPins.mosi segment) ∧
        FitsTransfer (config.sentWords config.haveMiso SpiPins.miso segment) := by
  have fits (present : Bool) (line : SpiPins → Bool) :
      (config.keptWords present line segment).length < 65536 :=
    (length_take_le _ _).trans_lt (by decide)
  have read := readTransfer_transferBytes config (fits config.haveMosi SpiPins.mosi)
    (fits config.haveMiso SpiPins.miso)
  unfold FitsTransfer
  rw [← map_take_eq_iff, ← map_take_eq_iff]
  constructor
  · rintro ⟨start, stop, mosi, miso, same, sent⟩
    rw [last] at same
    obtain ⟨rfl, rfl⟩ := SpiProto.transfer.inj (SpiOut.mk.inj (Option.some.inj same)).2.2
    rw [read] at sent
    obtain ⟨left, right⟩ := Prod.mk.inj (Option.some.inj sent)
    exact ⟨left, right⟩
  · rintro ⟨mosi, miso⟩
    refine ⟨ss, es, _, _, last, read.trans ?_⟩
    rw [← mosi, ← miso]
    rfl

/-- At the end of a transfer all its words go out exactly if they fit. -/
theorem transfer_complete_iff {config : SpiConfig} (haveCs : config.haveCs = true)
    {initial first new : SpiPins} {samples : List SpiPins}
    (released : config.csEdge ((first :: samples).getLastD initial) new = true)
    (deasserted : config.csAsserted new.cs = false) :
    SendsTransfer config ((spiDecode config).scan (SpiState.start config first) initial 0
          (first :: samples ++ [new])).protos
        (config.lastSegment initial (first :: samples)) ↔
      FitsTransfer (config.sentWords config.haveMosi SpiPins.mosi
          (config.lastSegment initial (first :: samples))) ∧
        FitsTransfer (config.sentWords config.haveMiso SpiPins.miso
          (config.lastSegment initial (first :: samples))) := by
  obtain ⟨f, tracks⟩ := SpiState.capture_tracks haveCs initial first samples
  obtain ⟨ss, last⟩ := tracks.release haveCs released deasserted (0 + (first :: samples).length)
  rw [SampleDecoder.scan_append]
  exact sendsTransfer_iff last

/-- Mode 0 on MOSI alone, with CS. -/
def selectedConfig (wordsize : Nat) (valid : 1 ≤ wordsize ∧ wordsize ≤ 64) : SpiConfig :=
  { cpol := false
    cpha := false
    wordsize
    msbFirst := true
    csActiveHigh := false
    haveMiso := false
    haveMosi := true
    haveCs := true
    valid }

def spiIdle : SpiPins :=
  ⟨false, false, true, true⟩

/-- Clock pulses of a selected device, with the data line high. -/
def selectedClocks (count : Nat) : List SpiPins :=
  (List.replicate count [⟨false, false, true, false⟩, ⟨true, false, true, false⟩]).flatten

theorem transfer_complete_iff_byte :
    SendsTransfer (selectedConfig 8 (by decide))
      ((spiDecode (selectedConfig 8 (by decide))).scan
        (SpiState.start (selectedConfig 8 (by decide)) spiIdle) spiIdle 0
          (spiIdle :: selectedClocks 8 ++ [spiIdle])).protos
      ((selectedConfig 8 (by decide)).lastSegment spiIdle (spiIdle :: selectedClocks 8)) := by
  have words : (selectedConfig 8 (by decide)).sentWords true SpiPins.mosi
      ((selectedConfig 8 (by decide)).lastSegment spiIdle (spiIdle :: selectedClocks 8)) =
        [0xFF] := by
    decide +kernel
  apply (transfer_complete_iff rfl (by decide +kernel) (by decide)).mpr
  change FitsTransfer ((selectedConfig 8 _).sentWords true SpiPins.mosi _) ∧ FitsTransfer []
  rw [words]
  decide

/-- A word of nine bits. -/
theorem transfer_loses_bits :
    ¬∀ (config : SpiConfig) (initial first new : SpiPins) (samples : List SpiPins),
      config.haveCs = true → config.csEdge ((first :: samples).getLastD initial) new = true →
        config.csAsserted new.cs = false → SendsTransfer config
            ((spiDecode config).scan (SpiState.start config first) initial 0
              (first :: samples ++ [new])).protos
            (config.lastSegment initial (first :: samples)) := by
  intro complete
  have sent := complete (selectedConfig 9 (by decide)) spiIdle spiIdle spiIdle (selectedClocks 9)
    rfl (by decide +kernel) (by decide)
  have haveCs : (selectedConfig 9 (by decide)).haveCs = true := rfl
  obtain ⟨f, tracks⟩ :=
    SpiState.capture_tracks haveCs spiIdle spiIdle (selectedClocks 9)
  have released : (selectedConfig 9 (by decide)).csEdge
      ((spiIdle :: selectedClocks 9).getLastD spiIdle) spiIdle = true := by
    decide +kernel
  obtain ⟨ss, last⟩ := tracks.release haveCs released (by decide)
    (0 + (spiIdle :: selectedClocks 9).length)
  rw [SampleDecoder.scan_append] at sent
  obtain ⟨mosi, -⟩ := (sendsTransfer_iff last).mp sent
  have words : (selectedConfig 9 (by decide)).sentWords true SpiPins.mosi
      ((selectedConfig 9 (by decide)).lastSegment spiIdle (spiIdle :: selectedClocks 9)) =
        [0x1FF] := by
    decide +kernel
  change FitsTransfer ((selectedConfig 9 _).sentWords true SpiPins.mosi _) at mosi
  rw [words] at mosi
  exact absurd mosi (by decide)

end SigrokDecode
