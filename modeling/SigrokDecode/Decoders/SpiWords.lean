import SigrokDecode.Decoders.SpiAgreement
import SigrokDecode.Foundation.Groups

/-!
# The words of `spi_fast_c`

A CS edge begins a segment, and the sampling edges of a segment make groups.  Each group is a word,
and nothing else is.
-/

set_option linter.dupNamespace false

namespace SigrokDecode

open Foundation List

structure SpiEdge where
  samplenum : Nat
  pins : SpiPins

def edgeBits (line : SpiPins → Bool) : List SpiEdge → List SpiBit
  | [] => []
  | [edge] => [⟨line edge.pins, edge.samplenum, edge.samplenum⟩]
  | edge :: next :: word =>
      ⟨line edge.pins, edge.samplenum, next.samplenum⟩ :: edgeBits line (next :: word)

def firstSample (word : List SpiEdge) : Nat :=
  word.head?.elim 0 SpiEdge.samplenum

def lastSample (word : List SpiEdge) : Nat :=
  word.getLast?.elim 0 SpiEdge.samplenum

namespace SpiConfig

variable (config : SpiConfig)

def wordValue (line : SpiPins → Bool) (word : List SpiEdge) : BitVec 64 :=
  BitVec.ofNat 64
    (if config.msbFirst then packMsb (word.map fun edge => line edge.pins)
    else packLsb (word.map fun edge => line edge.pins))

def edgeProtos (word : List SpiEdge) : List (SpiOut SpiProto) :=
  [⟨firstSample word, lastSample word,
      .bits (if config.haveMosi then some (edgeBits SpiPins.mosi word) else none)
        (if config.haveMiso then some (edgeBits SpiPins.miso word) else none)⟩,
    ⟨firstSample word, lastSample word,
      .data (if config.haveMosi then some (config.wordValue SpiPins.mosi word) else none)
        (if config.haveMiso then some (config.wordValue SpiPins.miso word) else none)⟩]

def edgeBinary (word : List SpiEdge) : List (SpiOut SpiBinary) :=
  (if config.haveMiso then
    [⟨firstSample word, lastSample word,
      (0, config.wordBytes (config.wordValue SpiPins.miso word))⟩]
  else
    []) ++
  (if config.haveMosi then
    [⟨firstSample word, lastSample word,
      (1, config.wordBytes (config.wordValue SpiPins.mosi word))⟩]
  else
    [])

def edgeFields (word : List SpiEdge) : List (SpiOut SpiField) :=
  (if config.haveMiso then
    [⟨firstSample word, lastSample word, .misoData (config.wordValue SpiPins.miso word)⟩]
  else
    []) ++
  (if config.haveMosi then
    [⟨firstSample word, lastSample word, .mosiData (config.wordValue SpiPins.mosi word)⟩]
  else
    [])

def edgeAt (old new : SpiPins) (samplenum : Nat) : List SpiEdge :=
  if config.sampled old new then [⟨samplenum, new⟩] else []

/-- The sampling edges between two CS edges; `segment` has those since the last one. -/
def segments : List SpiEdge → SpiPins → Nat → List SpiPins → List (List SpiEdge)
  | segment, _, _, [] => [segment]
  | segment, old, samplenum, new :: samples =>
      if config.csEdge old new then
        segment :: segments (config.edgeAt old new samplenum) new (samplenum + 1) samples
      else
        segments (segment ++ config.edgeAt old new samplenum) new (samplenum + 1) samples

/-- The words of a capture: in each segment, groups of `wordsize` edges. -/
def captureWords (initial : SpiPins) (samples : List SpiPins) : List (List SpiEdge) :=
  (config.segments [] initial 0 samples).flatMap (completeGroups config.wordsize)

end SpiConfig

theorem edgeBits_concat (line : SpiPins → Bool) (word : List SpiEdge) (edge : SpiEdge) :
    edgeBits line (word ++ [edge]) = (edgeBits line word).modify (word.length - 1) (fun bit =>
        { bit with es := edge.samplenum }) ++
          [⟨line edge.pins, edge.samplenum, edge.samplenum⟩] := by
  induction word using edgeBits.induct with
  | case1 => rfl
  | case2 first => rfl
  | case3 first next word ih =>
      have later := congrArg (SpiBit.mk (line first.pins) first.samplenum next.samplenum :: ·) ih
      exact later

theorem take_set_concat {Item : Type} {items : List Item} {i : Nat} (inside : i < items.length)
    (item : Item) : (items.set i item).take (i + 1) = items.take i ++ [item] := by
  have length : (items.take i).length = i := length_take_of_le (Nat.le_of_lt inside)
  rw [set_eq_take_append_cons_drop, if_pos inside, take_append, length,
    take_of_length_le (by omega), Nat.add_sub_cancel_left]
  rfl

theorem take_storeBit {line : SpiLine} {bitcount : Nat} (inside : bitcount < line.bits.length)
    (samplenum : Nat) (value : Bool) :
    (line.storeBit bitcount samplenum value).take (bitcount + 1) =
      (line.bits.take bitcount).modify (bitcount - 1) (fun bit => { bit with es := samplenum }) ++
        [⟨value, samplenum, samplenum⟩] := by
  unfold SpiLine.storeBit
  split
  · rw [take_set_concat (by rw [length_modify]; exact inside), take_modify]
  · rename_i first
    obtain rfl : bitcount = 0 := Nat.eq_zero_of_not_pos first
    rw [take_set_concat inside]
    rfl

namespace SpiConfig

variable (config : SpiConfig)

theorem wordValue_nil (line : SpiPins → Bool) : config.wordValue line [] = 0 := by
  unfold wordValue
  cases config.msbFirst
  · rfl
  · rfl

theorem wordValue_concat (line : SpiPins → Bool) {word : List SpiEdge} (room : word.length < 64)
    (edge : SpiEdge) :
    config.wordValue line (word ++ [edge]) =
      if config.msbFirst then shiftIn (config.wordValue line word) (line edge.pins)
      else config.wordValue line word |||
        (BitVec.ofBool (line edge.pins)).setWidth 64 <<< word.length := by
  unfold wordValue
  rw [map_append, map_singleton]
  cases config.msbFirst with
  | true =>
      rw [if_pos rfl, if_pos rfl, if_pos rfl, ← foldl_shiftIn, ← foldl_shiftIn, foldl_append]
      rfl
  | false =>
      have length : (word.map fun edge => line edge.pins).length = word.length := length_map _
      rw [if_neg Bool.false_ne_true, if_neg Bool.false_ne_true, if_neg Bool.false_ne_true,
        ofNat_packLsb_concat (by rw [length]; exact room), length]

end SpiConfig

namespace SpiLine

structure Holds (config : SpiConfig) (line : SpiLine) (value : SpiPins → Bool)
    (word : List SpiEdge) : Prop where
  length : line.bits.length = 64
  data : line.data = config.wordValue value word
  bits : line.bits.take word.length = edgeBits value word

variable {config : SpiConfig} {line : SpiLine} {value : SpiPins → Bool} {word : List SpiEdge}

theorem Holds.cleared (length : line.bits.length = 64) (value : SpiPins → Bool) :
    ({ line with data := 0 } : SpiLine).Holds config value [] where
  length := length
  data := (config.wordValue_nil value).symm
  bits := rfl

theorem Holds.receiveFast (holds : line.Holds config value word) (room : word.length < 64)
    (edge : SpiEdge) :
    (line.receiveFast config word.length edge.samplenum (value edge.pins)).Holds config value
      (word ++ [edge]) where
  length := (length_storeBit line word.length edge.samplenum _).trans holds.length
  data := by
    rw [config.wordValue_concat value room, ← holds.data]
    rfl
  bits := by
    have inside : word.length < line.bits.length := by
      rw [holds.length]
      exact room
    rw [length_append, length_singleton, edgeBits_concat, ← holds.bits]
    exact take_storeBit inside edge.samplenum (value edge.pins)

end SpiLine

theorem firstSample_concat (word : List SpiEdge) (edge : SpiEdge) :
    firstSample (word ++ [edge]) = if word.length = 0 then edge.samplenum else firstSample word := by
  cases word with
  | nil => rfl
  | cons first word => rfl

theorem lastSample_concat (word : List SpiEdge) (edge : SpiEdge) :
    lastSample (word ++ [edge]) = edge.samplenum := by
  unfold lastSample
  rw [getLast?_concat]
  rfl

theorem edgeBits_first (line : SpiPins → Bool) (word : List SpiEdge) :
    ((edgeBits line word)[0]?).elim 0 SpiBit.ss = firstSample word := by
  cases word using edgeBits.induct with
  | case1 => rfl
  | case2 first => rfl
  | case3 first next word => rfl

theorem edgeBits_last (line : SpiPins → Bool) (word : List SpiEdge) :
    ((edgeBits line word)[word.length - 1]?).elim 0 SpiBit.es = lastSample word := by
  induction word using edgeBits.induct with
  | case1 => rfl
  | case2 first => rfl
  | case3 first next word ih => exact ih

namespace SpiLine

variable {config : SpiConfig} {line : SpiLine} {value : SpiPins → Bool} {word : List SpiEdge}

theorem Holds.wordBits (holds : line.Holds config value word)
    (whole : word.length = config.wordsize) : line.wordBits config = edgeBits value word := by
  unfold SpiLine.wordBits
  rw [← whole, holds.bits]

theorem Holds.span (holds : line.Holds config value word) (whole : word.length = config.wordsize) :
    line.span config = (firstSample word, lastSample word) := by
  have bits := holds.wordBits whole
  have some : 0 < config.wordsize := config.valid.1
  have first : line.bits[0]? = (edgeBits value word)[0]? := by
    rw [← bits, SpiLine.wordBits, getElem?_take, if_pos some]
  have last : line.bits[config.wordsize - 1]? = (edgeBits value word)[word.length - 1]? := by
    rw [← bits, SpiLine.wordBits, getElem?_take, whole, if_pos (by omega)]
  unfold SpiLine.span
  rw [first, last, edgeBits_first, edgeBits_last]

end SpiLine

namespace SpiFastState

variable {config : SpiConfig} {f : SpiFastState}

variable (config f) in
structure Receives (word : List SpiEdge) : Prop where
  count : f.bitCount = word.length
  first : word ≠ [] → f.startSample = firstSample word
  last : word ≠ [] → f.lastBitSample = lastSample word
  mosi : config.haveMosi = true → f.mosi.Holds config SpiPins.mosi word
  miso : config.haveMiso = true → f.miso.Holds config SpiPins.miso word

def wordReports (fields : List (SpiOut SpiField)) : List (SpiOut SpiField) :=
  fields.filter fun out =>
    match out.content with
    | .misoData _ | .mosiData _ => true
    | _ => false

variable (config f) in
/-- What went out is that of some words. -/
structure Emits (words : List (List SpiEdge)) : Prop where
  protos : spiWords f.protos = words.flatMap config.edgeProtos
  binary : f.binary = words.flatMap config.edgeBinary
  fields : wordReports f.fields = words.flatMap config.edgeFields

variable {word : List SpiEdge} {words : List (List SpiEdge)}

theorem Receives.cleared (mosi : config.haveMosi = true → f.mosi.bits.length = 64)
    (miso : config.haveMiso = true → f.miso.bits.length = 64) :
    f.resetWord.Receives config [] where
  count := rfl
  first some := absurd rfl some
  last some := absurd rfl some
  mosi present := SpiLine.Holds.cleared (mosi present) _
  miso present := SpiLine.Holds.cleared (miso present) _

theorem Receives.receiveBit (receives : f.Receives config word) (room : word.length < 64)
    (edge : SpiEdge) :
    (f.receiveBit config edge.pins edge.samplenum).Receives config (word ++ [edge]) where
  count := by
    rw [length_append, ← receives.count]
    rfl
  first _ := by
    rw [firstSample_concat, ← receives.count]
    unfold SpiFastState.receiveBit
    dsimp only
    split
    · rfl
    · rename_i begun
      exact receives.first fun empty => begun (receives.count.trans (congrArg List.length empty))
  last _ := (lastSample_concat word edge).symm
  mosi present := by
    unfold SpiFastState.receiveBit
    dsimp only
    rw [if_pos present, receives.count]
    exact (receives.mosi present).receiveFast room edge
  miso present := by
    unfold SpiFastState.receiveBit
    dsimp only
    rw [if_pos present, receives.count]
    exact (receives.miso present).receiveFast room edge

theorem present_congr {Content : Type} {present : Bool} {left right : Content}
    (same : present = true → left = right) :
    (if present then some left else none) = if present then some right else none := by
  split
  · rename_i here
    rw [same here]
  · rfl

section Whole

variable (receives : f.Receives config word) (whole : word.length = config.wordsize)

include receives whole

theorem Receives.wordSpan : config.wordSpan f.startSample f.lastBitSample f.mosi f.miso =
      (firstSample word, lastSample word) := by
  have some : word ≠ [] := by
    rintro rfl
    have positive := config.valid.1
    rw [← whole] at positive
    cases positive
  unfold SpiConfig.wordSpan
  split
  · rename_i present
    exact (receives.mosi present).span whole
  · split
    · rename_i present
      exact (receives.miso present).span whole
    · rw [receives.first some, receives.last some]

theorem Receives.wordProtos :
    config.wordProtos (config.wordSpan f.startSample f.lastBitSample f.mosi f.miso) f.mosi f.miso =
      config.edgeProtos word := by
  rw [receives.wordSpan whole]
  unfold SpiConfig.wordProtos SpiConfig.edgeProtos
  rw [present_congr fun present => (receives.mosi present).wordBits whole,
    present_congr fun present => (receives.miso present).wordBits whole,
    present_congr fun present => (receives.mosi present).data,
    present_congr fun present => (receives.miso present).data]

theorem Receives.wordBinary : config.wordBinary f.mosi f.miso = config.edgeBinary word := by
  unfold SpiConfig.wordBinary SpiConfig.edgeBinary
  congr 1
  · split
    · rename_i present
      have miso := receives.miso present
      rw [miso.span whole, miso.data]
    · rfl
  · split
    · rename_i present
      have mosi := receives.mosi present
      rw [mosi.span whole, mosi.data]
    · rfl

theorem Receives.wordFields :
    config.wordFields (config.wordSpan f.startSample f.lastBitSample f.mosi f.miso) f.mosi f.miso =
      config.edgeFields word := by
  rw [receives.wordSpan whole]
  unfold SpiConfig.wordFields SpiConfig.edgeFields
  congr 1
  · split
    · rename_i present
      rw [(receives.miso present).data]
    · rfl
  · split
    · rename_i present
      rw [(receives.mosi present).data]
    · rfl

theorem Receives.emits (emits : f.Emits config words) :
    (f.putData config).resetWord.Emits config (words ++ [word]) where
  protos := by
    rw [spiWords_putData, receives.wordProtos whole, emits.protos, flatMap_append,
      flatMap_singleton]
  binary := by
    rw [flatMap_append, flatMap_singleton, ← emits.binary, ← receives.wordBinary whole]
    rfl
  fields := by
    have here : wordReports (config.edgeFields word) = config.edgeFields word := by
      unfold SpiConfig.edgeFields
      cases config.haveMiso <;> cases config.haveMosi <;> rfl
    rw [flatMap_append, flatMap_singleton, ← emits.fields, ← here, ← receives.wordFields whole]
    exact filter_append _ _

end Whole

theorem wordReports_putTransfer (f : SpiFastState) (ss samplenum : Nat) :
    wordReports (f.putTransfer config ss samplenum).fields = wordReports f.fields := by
  unfold wordReports putTransfer
  rw [filter_append, filter_append]
  cases config.haveMiso
  · cases config.haveMosi
    · exact (List.append_nil _).trans (List.append_nil _)
    · exact (List.append_nil _).trans (List.append_nil _)
  · cases config.haveMosi
    · exact (List.append_nil _).trans (List.append_nil _)
    · exact (List.append_nil _).trans (List.append_nil _)

theorem Emits.csChange (emits : f.Emits config words) (cs : Bool) (samplenum : Nat) :
    (f.csChange config cs samplenum).Emits config words := by
  obtain ⟨-, -, -, -, -, protos⟩ := csChange_view config f cs samplenum
  refine ⟨protos.trans emits.protos, ?_, ?_⟩
  · rw [← emits.binary]
    unfold SpiFastState.csChange
    dsimp only
    split
    · rfl
    · split <;> rfl
  · rw [← emits.fields]
    unfold SpiFastState.csChange
    dsimp only
    split
    · rfl
    · split
      · exact wordReports_putTransfer _ _ _
      · rfl

theorem Emits.atCs (emits : f.Emits config words) (old new : SpiPins) (samplenum : Nat) :
    (f.atCs config old new samplenum).Emits config words := by
  have same : SpiFastState.Emits config { f with csActive := config.selected new } words :=
    { emits with }
  unfold SpiFastState.atCs
  split
  · exact same.csChange new.cs samplenum
  · exact same

theorem Receives.atCs (receives : f.Receives config word) (old new : SpiPins) (samplenum : Nat) :
    (f.atCs config old new samplenum).Receives config
      (if config.csEdge old new then [] else word) := by
  unfold SpiFastState.atCs
  split
  · obtain ⟨-, count, -, mosiData, misoData, -⟩ :=
      csChange_view config { f with csActive := config.selected new } new.cs samplenum
    refine ⟨count, fun some => absurd rfl some, fun some => absurd rfl some, fun present => ?_,
      fun present => ?_⟩
    · rw [mosiData]
      exact SpiLine.Holds.cleared (receives.mosi present).length _
    · rw [misoData]
      exact SpiLine.Holds.cleared (receives.miso present).length _
  · exact { receives with }

variable {earlier : List (List SpiEdge)} {segment : List SpiEdge}

section

variable (receives : f.Receives config (lastGroup config.wordsize segment))
include receives

theorem Receives.handleBit
    (emits : f.Emits config (earlier ++ completeGroups config.wordsize segment))
    (edge : SpiEdge) :
    (f.handleBit config edge.pins edge.samplenum).Receives config
        (lastGroup config.wordsize (segment ++ [edge])) ∧
      (f.handleBit config edge.pins edge.samplenum).Emits config
        (earlier ++ completeGroups config.wordsize (segment ++ [edge])) := by
  have positive : 0 < config.wordsize := config.valid.1
  have room : (lastGroup config.wordsize segment).length < 64 := by
    rw [length_lastGroup]
    exact (Nat.mod_lt _ positive).trans_le config.valid.2
  have next := receives.receiveBit room edge
  have sent : (f.receiveBit config edge.pins edge.samplenum).Emits config
      (earlier ++ completeGroups config.wordsize segment) :=
    { emits with }
  by_cases full : (lastGroup config.wordsize segment).length + 1 = config.wordsize
  · obtain ⟨groups, last⟩ := groups_concat_full full edge
    have whole : (lastGroup config.wordsize segment ++ [edge]).length = config.wordsize := by
      rw [length_append, length_singleton, full]
    rw [f.handleBit_of_eq edge.pins edge.samplenum (receives.count ▸ full), groups, last,
      ← List.append_assoc]
    exact ⟨Receives.cleared (fun present => (next.mosi present).length)
      (fun present => (next.miso present).length), next.emits whole sent⟩
  · obtain ⟨groups, last⟩ := groups_concat_early positive full edge
    rw [f.handleBit_of_ne edge.pins edge.samplenum (receives.count ▸ full), groups, last]
    exact ⟨next, sent⟩

theorem Receives.takeEdge
    (emits : f.Emits config (earlier ++ completeGroups config.wordsize segment))
    (old new : SpiPins) (samplenum : Nat) :
    SpiFastState.Receives config
        (if config.sampled old new then f.handleBit config new samplenum else f)
        (lastGroup config.wordsize (segment ++ config.edgeAt old new samplenum)) ∧
      SpiFastState.Emits config
        (if config.sampled old new then f.handleBit config new samplenum else f)
        (earlier ++ completeGroups config.wordsize
          (segment ++ config.edgeAt old new samplenum)) := by
  unfold SpiConfig.edgeAt
  split
  · exact receives.handleBit emits ⟨samplenum, new⟩
  · rw [List.append_nil]
    exact ⟨receives, emits⟩

theorem Receives.step (emits : f.Emits config (earlier ++ completeGroups config.wordsize segment))
    (old new : SpiPins) (samplenum : Nat) :
    ((spiFastDecode config).step f old new samplenum).Receives config
        (lastGroup config.wordsize ((if config.csEdge old new then [] else segment) ++
          config.edgeAt old new samplenum)) ∧
      ((spiFastDecode config).step f old new samplenum).Emits config
        ((if config.csEdge old new then earlier ++ completeGroups config.wordsize segment
          else earlier) ++
          completeGroups config.wordsize ((if config.csEdge old new then [] else segment) ++
            config.edgeAt old new samplenum)) := by
  cases awake : (spiFastDecode config).wakes f old new with
  | false =>
      obtain ⟨still, same⟩ := Bool.or_eq_false_iff.1 awake
      have idle : config.sampled old new = false := by rw [SpiConfig.sampled, still, Bool.and_false]
      have nothing : config.edgeAt old new samplenum = [] := by
        rw [SpiConfig.edgeAt, idle]
        rfl
      rw [(spiFastDecode config).step_asleep awake, same, nothing, if_neg Bool.false_ne_true,
        if_neg Bool.false_ne_true, List.append_nil]
      exact ⟨receives, emits⟩
  | true =>
      have handled : (spiFastDecode config).step f old new samplenum =
          f.handle config old new samplenum := (spiFastDecode config).step_awake awake samplenum
      rw [handled, handle_eq]
      have begun := receives.atCs old new samplenum
      have sent := emits.atCs old new samplenum
      cases changed : config.csEdge old new with
      | true =>
          rw [if_pos changed] at begun
          rw [if_pos rfl, if_pos rfl]
          apply Receives.takeEdge
          · rw [lastGroup_nil]
            exact begun
          · rw [completeGroups_nil, List.append_nil]
            exact sent
      | false =>
          rw [if_neg (by rw [changed]; exact Bool.false_ne_true)] at begun
          rw [if_neg Bool.false_ne_true, if_neg Bool.false_ne_true]
          exact begun.takeEdge sent old new samplenum

theorem Receives.scan (emits : f.Emits config (earlier ++ completeGroups config.wordsize segment))
    (old : SpiPins) (samplenum : Nat) (samples : List SpiPins) :
    ((spiFastDecode config).scan f old samplenum samples).Emits config
      (earlier ++ (config.segments segment old samplenum samples).flatMap
        (completeGroups config.wordsize)) := by
  induction samples generalizing f segment earlier old samplenum with
  | nil =>
      unfold SpiConfig.segments
      rw [flatMap_singleton]
      exact emits
  | cons new samples ih =>
      obtain ⟨next, sent⟩ := receives.step emits old new samplenum
      have later := ih next sent new (samplenum + 1)
      rw [SampleDecoder.scan_cons, SpiConfig.segments]
      split
      · rename_i changed
        rw [if_pos changed, if_pos changed, List.append_assoc, nil_append] at later
        exact later
      · rename_i unchanged
        rw [if_neg unchanged, if_neg unchanged] at later
        exact later

end

theorem start_receives (config : SpiConfig) (pins : SpiPins) :
    (start config pins).Receives config [] ∧ (start config pins).Emits config [] := by
  obtain ⟨count, -, mosi, miso, protos⟩ := start_view config pins
  have length : SpiLine.reset.bits.length = 64 := length_replicate
  have empty (value : SpiPins → Bool) : SpiLine.reset.Holds config value [] :=
    SpiLine.Holds.cleared length value
  refine ⟨⟨count, fun some => absurd rfl some, fun some => absurd rfl some, fun _ => ?_,
    fun _ => ?_⟩, protos, ?_, ?_⟩
  · rw [mosi]
    exact empty _
  · rw [miso]
    exact empty _
  · unfold start
    split
    · dsimp only
      split <;> rfl
    · rfl
  · unfold start
    split
    · dsimp only
      split <;> rfl
    · rfl

/-- Every word of a capture goes out, and nothing else. -/
theorem spiFast_words (config : SpiConfig) (initial first : SpiPins) (samples : List SpiPins) :
    ((spiFastDecode config).scan (start config first) initial 0 (first :: samples)).Emits config
      (config.captureWords initial (first :: samples)) := by
  obtain ⟨receives, emits⟩ := start_receives config first
  have nothing : lastGroup config.wordsize ([] : List SpiEdge) = [] := lastGroup_nil _
  have none : completeGroups config.wordsize ([] : List SpiEdge) = [] := completeGroups_nil _
  rw [← nothing] at receives
  have sent : (start config first).Emits config ([] ++ completeGroups config.wordsize []) := by
    rw [none]
    exact emits
  exact receives.scan sent initial 0 (first :: samples)

end SpiFastState

end SigrokDecode
