import SigrokDecode.Decoders.Pxx1
import SigrokDecode.Foundation.BitStuffing

/-!
# Frames of PXX1

The decoder takes two bits of an unstuffed header for stuffed ones, so that every
frame is two bits short when its last field should end.
-/

namespace SigrokDecode

open Foundation List

structure Pxx1Frame where
  modelId : BitVec 8
  type : BitVec 2
  rangeCheck : Bool
  failSafe : Bool
  countryCode : BitVec 3
  bind : Bool
  flag2 : BitVec 8
  channels : Fin 4 → BitVec 12 × BitVec 12
  rsrv2 : Bool
  euPlus : Bool
  disableSport : Bool
  powerLevel : BitVec 2
  highChan : Bool
  telemetryOff : Bool
  externalAntena : Bool
  crc : BitVec 16

namespace Pxx1Frame

/-- Two channels as six nibbles. -/
def pairBits (pair : BitVec 12 × BitVec 12) : List Bool :=
  msbBits 4 (pair.1.toNat % 16) ++ msbBits 4 (pair.1.toNat / 16 % 16) ++
    msbBits 4 (pair.2.toNat % 16) ++ msbBits 4 (pair.1.toNat / 256) ++
    msbBits 4 (pair.2.toNat / 256) ++ msbBits 4 (pair.2.toNat / 16 % 16)

def pxxHeaderBits : List Bool :=
  [false, true, true, true, true, true, true, false]

/-- What is stuffed. -/
def body (frame : Pxx1Frame) : List Bool :=
  msbBits 8 frame.modelId.toNat ++ msbBits 2 frame.type.toNat ++
    [frame.rangeCheck, frame.failSafe] ++ msbBits 3 frame.countryCode.toNat ++ [frame.bind] ++
    msbBits 8 frame.flag2.toNat ++
    (pairBits (frame.channels 0) ++ pairBits (frame.channels 1) ++
      pairBits (frame.channels 2) ++ pairBits (frame.channels 3)) ++
    [frame.rsrv2, frame.euPlus, frame.disableSport] ++ msbBits 2 frame.powerLevel.toNat ++
    [frame.highChan, frame.telemetryOff, frame.externalAntena] ++ msbBits 16 frame.crc.toNat

def wire (frame : Pxx1Frame) : List Bool :=
  pxxHeaderBits ++ ((onesRule 5).send 0 frame.body).map Prod.fst ++ pxxHeaderBits

theorem length_body (frame : Pxx1Frame) : frame.body.length = 144 := by
  simp [body, pairBits]

def word (value : Nat) : BitVec 32 :=
  BitVec.ofNat 32 value

def channelValues (frame : Pxx1Frame) : List Nat :=
  [(frame.channels 0).1.toNat, (frame.channels 0).2.toNat, (frame.channels 1).1.toNat,
    (frame.channels 1).2.toNat, (frame.channels 2).1.toNat, (frame.channels 2).2.toNat,
    (frame.channels 3).1.toNat, (frame.channels 3).2.toNat]

def fields (frame : Pxx1Frame) : List Pxx1Field :=
  [.startHeader, .value .modelId (word frame.modelId.toNat),
    .value .type (word frame.type.toNat), .value .rangeCheck (word frame.rangeCheck.toNat),
    .value .failSafe (word frame.failSafe.toNat),
    .value .countryCode (word frame.countryCode.toNat), .value .bind (word frame.bind.toNat),
    .value .flag2 (word frame.flag2.toNat),
    .channels (Pxx1State.upperChannels frame.channelValues) frame.channelValues,
    .value .rsrv2 (word frame.rsrv2.toNat), .value .euPlus (word frame.euPlus.toNat),
    .value .disableSport (word frame.disableSport.toNat),
    .value .powerLevel (word frame.powerLevel.toNat),
    .value .highChan (word frame.highChan.toNat),
    .value .telemetryOff (word frame.telemetryOff.toNat),
    .value .externalAntena (word frame.externalAntena.toNat),
    .value .crc (word frame.crc.toNat), .stopHeader]

end Pxx1Frame

def Pxx1Field.isField : Pxx1Field → Bool
  | .byte _ => false
  | .bit _ => false
  | .bitStuff => false
  | _ => true

/-- The bits in front of a field. -/
def Pxx1Phase.offset : Pxx1Phase → Nat
  | waitHeader => 0
  | modelId => 8
  | type => 16
  | rangeCheck => 18
  | failSafe => 19
  | countryCode => 20
  | bind => 23
  | flag2 => 24
  | channels => 32
  | rsrv2 => 128
  | euPlus => 129
  | disableSport => 130
  | powerLevel => 131
  | highChan => 133
  | telemetryOff => 134
  | externalAntena => 135
  | crc => 136
  | stop => 152
  | error => 0

namespace Pxx1State

def fields (s : Pxx1State) : List Pxx1Field :=
  (s.anns.map Pxx1Ann.field).filter Pxx1Field.isField

/-! ## Counting bits -/

/-- The decoder has read `count` bits since its reset, and no stop header. -/
structure Counts (s : Pxx1State) (count : Nat) : Prop where
  position : s.state.offset + s.stateBit = count
  short : s.stateBit < s.state.width
  bytes : 8 * s.byteCnt + s.curBit = count
  part : s.curBit < 8
  stuffing : s.bitStuffing = decide (s.byteCnt ≤ 18)
  unstopped : .stopHeader ∉ s.fields

/-- Such a decoder when a field may be complete. -/
structure Placed (s : Pxx1State) (count : Nat) : Prop where
  position : s.state.offset + s.stateBit = count
  most : s.stateBit ≤ s.state.width
  reading : 0 < s.state.width
  bytes : 8 * s.byteCnt + s.curBit = count
  part : s.curBit < 8
  stuffing : s.bitStuffing = decide (s.byteCnt ≤ 18)
  unstopped : .stopHeader ∉ s.fields

/-- The decoder has been reset. -/
def Failed (s : Pxx1State) : Prop :=
  .headerError ∈ s.fields

theorem fields_put (s : Pxx1State) (ss es : Nat) (field : Pxx1Field) :
    (s.put ss es field).fields = s.fields ++ if field.isField then [field] else [] := by
  cases kind : field.isField with
  | true => simp [fields, put, kind]
  | false => simp [fields, put, kind]

theorem offset_next {phase : Pxx1Phase} (reading : 0 < phase.width) (running : phase ≠ .stop) :
    phase.next.offset = phase.offset + phase.width ∧ 0 < phase.next.width := by
  cases phase with
  | stop => exact absurd rfl running
  | error => exact absurd reading (Nat.lt_irrefl 0)
  | _ => exact ⟨rfl, by decide⟩

variable {count : Nat} {s : Pxx1State} {bits : List Pxx1Bit}

section

variable (placed : s.Placed count)
include placed

theorem advance_counts
    (full : s.stateBit = s.state.width) (running : s.state ≠ .stop) {field : Pxx1Field}
    (other : field ≠ .stopHeader) : ((s.putWord field).advance).Counts count := by
  obtain ⟨position, _, reading, bytes, part, stuffing, unstopped⟩ := placed
  obtain ⟨offset, width⟩ := offset_next reading running
  refine ⟨?_, width, bytes, part, stuffing, ?_⟩
  · have next : (s.putWord field).advance.state.offset = s.state.offset + s.state.width := offset
    rw [next, ← full]
    exact position
  · have fields : (s.putWord field).advance.fields =
        s.fields ++ if field.isField then [field] else [] := fields_put s _ _ field
    rw [fields]
    intro inside
    rcases mem_append.mp inside with before | here
    · exact unstopped before
    · split at here
      · exact other (mem_singleton.mp here).symm
      · cases here

theorem placed_counts (notFull : s.stateBit ≠ s.state.width) : s.Counts count :=
  { placed with short := Nat.lt_of_le_of_ne placed.most notFull }

theorem field_counts (running : s.state ≠ .stop) :
    s.field.Counts count ∧ s.field.bitOneCnt = s.bitOneCnt := by
  unfold field
  by_cases full : s.stateBit = s.state.width
  · rw [if_pos full]
    exact ⟨advance_counts placed full running (by simp), rfl⟩
  · rw [if_neg full]
    exact ⟨placed_counts placed full, rfl⟩

theorem waitHeader_counts (waiting : s.state = .waitHeader) :
    s.waitHeader.Counts count ∧ s.waitHeader.bitOneCnt = s.bitOneCnt ∨ s.waitHeader.Failed := by
  have width : s.state.width = 8 := by rw [waiting]; rfl
  unfold waitHeader
  by_cases full : s.stateBit = 8
  · rw [if_pos full]
    split
    · left
      exact ⟨advance_counts placed (full.trans width.symm) (by rw [waiting]; decide) (by simp),
        rfl⟩
    · right
      have fields :
          ((s.putWord .headerError).resetState).fields = s.fields ++ [Pxx1Field.headerError] :=
        fields_put s _ _ .headerError
      rw [Failed, fields]
      exact mem_append_right _ (mem_singleton_self _)
  · rw [if_neg full]
    exact Or.inl ⟨placed_counts placed (by rwa [width]), rfl⟩

theorem channels_counts (reading : s.state = .channels) (bstuff : Bool) :
    (s.channels bstuff).Counts count ∧ (s.channels bstuff).bitOneCnt = s.bitOneCnt := by
  have collected : s.collectNibble.Placed count ∧ s.collectNibble.state = .channels ∧
      s.collectNibble.bitOneCnt = s.bitOneCnt := by
    obtain ⟨position, most, some, bytes, part, stuffing, unstopped⟩ := placed
    unfold collectNibble
    simp only
    split
    · exact ⟨⟨position, most, some, bytes, part, stuffing, unstopped⟩, reading, rfl⟩
    · exact ⟨⟨position, most, some, bytes, part, stuffing, unstopped⟩, reading, rfl⟩
  have ended : ∀ {t : Pxx1State}, t.Placed count → t.state = .channels →
      (if t.stateBit = 96 then
        { (t.putWord (.channels (upperChannels (channelPairs t.nibbles))
            (channelPairs t.nibbles))).advance with
          nibbles := []
          nibbleVal := 0 }
      else
        t : Pxx1State).Counts count ∧
      (if t.stateBit = 96 then
        { (t.putWord (.channels (upperChannels (channelPairs t.nibbles))
            (channelPairs t.nibbles))).advance with
          nibbles := []
          nibbleVal := 0 }
      else
        t : Pxx1State).bitOneCnt = t.bitOneCnt := by
    intro t placed reading
    have width : t.state.width = 96 := by rw [reading]; rfl
    by_cases full : t.stateBit = 96
    · rw [if_pos full]
      have counts := advance_counts placed (full.trans width.symm) (by rw [reading]; decide)
        (show Pxx1Field.channels (upperChannels (channelPairs t.nibbles))
          (channelPairs t.nibbles) ≠ .stopHeader by simp)
      exact ⟨{ counts with }, rfl⟩
    · rw [if_neg full]
      exact ⟨placed_counts placed (by rwa [width]), rfl⟩
  cases bstuff with
  | true => exact ended placed reading
  | false =>
      obtain ⟨placedBehind, readingBehind, ones⟩ := collected
      obtain ⟨counts, same⟩ := ended placedBehind readingBehind
      exact ⟨counts, same.trans ones⟩

theorem processState_counts (early : count < 160) (bstuff : Bool) :
    (s.processState bstuff).Counts count ∧ (s.processState bstuff).bitOneCnt = s.bitOneCnt ∨
      (s.processState bstuff).Failed := by
  have position := placed.position
  have reading := placed.reading
  unfold processState
  cases state : s.state with
  | waitHeader => exact waitHeader_counts placed state
  | channels => exact Or.inl (channels_counts placed state bstuff)
  | stop =>
      have notFull : ¬s.stateBit = 8 := by
        intro full
        rw [state, full] at position
        exact absurd position (Nat.ne_of_gt early)
      left
      simp only [stop, if_neg notFull]
      exact ⟨placed_counts placed (by rw [state]; exact notFull), trivial⟩
  | error =>
      rw [state] at reading
      exact absurd reading (Nat.lt_irrefl 0)
  | _ => exact Or.inl (field_counts placed (by rw [state]; decide))

end

theorem endByte_placed (s : Pxx1State)
    (position : s.state.offset + s.stateBit = count) (most : s.stateBit ≤ s.state.width)
    (reading : 0 < s.state.width) (bytes : 8 * s.byteCnt + s.curBit = count)
    (part : s.curBit ≤ 8) (stuffing : s.bitStuffing = decide (s.byteCnt ≤ 18))
    (unstopped : .stopHeader ∉ s.fields) :
    s.endByte.Placed count ∧ s.endByte.bitOneCnt = s.bitOneCnt := by
  unfold endByte
  by_cases full : s.curBit = 8
  · rw [if_pos full]
    have fields : (s.put s.byteStart s.esBlock (.byte s.byteVal)).fields = s.fields :=
      (fields_put s s.byteStart s.esBlock (.byte s.byteVal)).trans (List.append_nil _)
    refine ⟨⟨position, most, reading, ?_, Nat.zero_lt_succ 7, ?_, ?_⟩, rfl⟩
    · have next : 8 * (s.byteCnt + 1) + 0 = count := by omega
      exact next
    · have next : (if 18 < s.byteCnt + 1 then false else s.bitStuffing) =
          decide (s.byteCnt + 1 ≤ 18) := by
        rw [stuffing]
        by_cases last : 18 < s.byteCnt + 1
        · rw [if_pos last, eq_comm, decide_eq_false_iff_not]
          omega
        · rw [if_neg last]
          have here : s.byteCnt ≤ 18 := by omega
          have behind : s.byteCnt + 1 ≤ 18 := by omega
          rw [decide_eq_true here, decide_eq_true behind]
      exact next
    · exact fields ▸ unstopped
  · rw [if_neg full]
    have notFull : s.curBit < 8 := Nat.lt_of_le_of_ne part full
    exact ⟨⟨position, most, reading, bytes, notFull, stuffing, unstopped⟩, rfl⟩

def onesBehind (s : Pxx1State) (value : Bool) : Nat :=
  if value then s.bitOneCnt + 1 else 0

theorem addBit_stuffed (counts : s.Counts count)
    (early : count < 160) (on : s.bitStuffing = true) (five : 5 ≤ s.bitOneCnt) (bit : Pxx1Bit) :
    (s.addBit bit).Counts count ∧ (s.addBit bit).bitOneCnt = s.onesBehind bit.value ∨
      (s.addBit bit).Failed := by
  obtain ⟨position, short, bytes, part, stuffing, unstopped⟩ := counts
  have due : (s.beginBit bit).stuffed = true := by
    have six : 6 ≤ s.bitOneCnt + 1 := by omega
    simp [stuffed, beginBit, on, six]
  have taken : (s.beginBit bit).takeBit bit.value =
      { (s.beginBit bit).put (s.beginBit bit).ssBlock (s.beginBit bit).esBlock .bitStuff with
        bitOneCnt := s.onesBehind bit.value } := by
    rw [takeBit, if_pos due]
    rfl
  have fields : ((s.beginBit bit).takeBit bit.value).fields = s.fields := by
    rw [taken]
    exact (fields_put (s.beginBit bit) _ _ .bitStuff).trans (List.append_nil _)
  have ended : ((s.beginBit bit).takeBit bit.value).endByte.Placed count ∧
      ((s.beginBit bit).takeBit bit.value).endByte.bitOneCnt =
        ((s.beginBit bit).takeBit bit.value).bitOneCnt := endByte_placed _
    (by rw [taken]; exact position) (by rw [taken]; exact Nat.le_of_lt short)
    (by rw [taken]; exact Nat.zero_lt_of_lt short) (by rw [taken]; exact bytes)
    (by rw [taken]; exact Nat.le_of_lt part) (by rw [taken]; exact stuffing)
    (by rw [fields]; exact unstopped)
  obtain ⟨placed, ones⟩ := ended
  rcases processState_counts placed early (s.beginBit bit).stuffed with ⟨counted, same⟩ | failed
  · left
    refine ⟨counted, same.trans (ones.trans ?_)⟩
    rw [taken]
  · exact Or.inr failed

theorem addBit_plain (counts : s.Counts count)
    (early : count + 1 < 160) (plain : s.bitStuffing = false ∨ s.bitOneCnt < 5) (bit : Pxx1Bit) :
    (s.addBit bit).Counts (count + 1) ∧ (s.addBit bit).bitOneCnt = s.onesBehind bit.value ∨
      (s.addBit bit).Failed := by
  obtain ⟨position, short, bytes, part, stuffing, unstopped⟩ := counts
  have due : ¬(s.beginBit bit).stuffed = true := by
    rcases plain with off | few
    · simp [stuffed, beginBit, off]
    · have six : ¬6 ≤ s.bitOneCnt + 1 := by omega
      simp [stuffed, beginBit, six]
  have taken : (s.beginBit bit).takeBit bit.value =
      { (s.beginBit bit).shiftBit bit.value with bitOneCnt := s.onesBehind bit.value } := by
    rw [takeBit, if_neg due]
    rfl
  have fields : ((s.beginBit bit).takeBit bit.value).fields = s.fields := by
    rw [taken]
    exact (fields_put { s.beginBit bit with
        byteVal := (s.beginBit bit).byteVal <<< 1 ||| (BitVec.ofBool bit.value).setWidth 8
        curBit := (s.beginBit bit).curBit + 1 } _ _ (.bit bit.value)).trans (List.append_nil _)
  have ended : ((s.beginBit bit).takeBit bit.value).endByte.Placed (count + 1) ∧
      ((s.beginBit bit).takeBit bit.value).endByte.bitOneCnt =
        ((s.beginBit bit).takeBit bit.value).bitOneCnt := endByte_placed _
    (by rw [taken, ← position]; rfl) (by rw [taken]; exact short)
    (by rw [taken]; exact Nat.zero_lt_of_lt short) (by rw [taken, ← bytes]; rfl)
    (by rw [taken]; exact part) (by rw [taken]; exact stuffing)
    (by rw [fields]; exact unstopped)
  obtain ⟨placed, ones⟩ := ended
  rcases processState_counts placed early (s.beginBit bit).stuffed with ⟨counted, same⟩ | failed
  · left
    refine ⟨counted, same.trans (ones.trans ?_)⟩
    rw [taken]
  · exact Or.inr failed

theorem put_anns (s : Pxx1State) (ss es : Nat) (field : Pxx1Field) :
    s.anns <+: (s.put ss es field).anns :=
  prefix_append _ _

theorem endByte_anns (s : Pxx1State) : s.anns <+: s.endByte.anns := by
  unfold endByte
  split
  · exact put_anns s s.byteStart s.esBlock (.byte s.byteVal)
  · exact prefix_refl _

theorem takeBit_anns (s : Pxx1State) (value : Bool) : s.anns <+: (s.takeBit value).anns := by
  cases stuffed : s.stuffed with
  | true =>
      rw [takeBit, if_pos stuffed]
      exact put_anns s _ _ _
  | false =>
      rw [takeBit, if_neg (by simp [stuffed])]
      exact prefix_append _ _

theorem channels_anns (s : Pxx1State) (bstuff : Bool) : s.anns <+: (s.channels bstuff).anns := by
  have collected : s.collectNibble.anns = s.anns := by
    unfold collectNibble
    simp only
    split <;> rfl
  unfold channels
  cases bstuff with
  | true =>
      simp only [if_true]
      split
      · exact put_anns s _ _ _
      · exact prefix_refl _
  | false =>
      simp only [Bool.false_eq_true, if_false]
      split
      · exact collected ▸ put_anns s.collectNibble _ _ _
      · exact collected ▸ prefix_refl _

theorem processState_anns (s : Pxx1State) (bstuff : Bool) :
    s.anns <+: (s.processState bstuff).anns := by
  have field : s.anns <+: s.field.anns := by
    unfold field
    split
    · exact put_anns s _ _ _
    · exact prefix_refl _
  unfold processState
  cases s.state with
  | waitHeader =>
      simp only [waitHeader]
      split
      · split
        · exact put_anns s _ _ _
        · exact put_anns s _ _ _
      · exact prefix_refl _
  | channels => exact channels_anns s bstuff
  | stop =>
      simp only [stop]
      split
      · exact put_anns s _ _ _
      · exact prefix_refl _
  | error => exact prefix_refl _
  | _ => exact field

theorem addBit_anns (s : Pxx1State) (bit : Pxx1Bit) : s.anns <+: (s.addBit bit).anns :=
  ((takeBit_anns (s.beginBit bit) bit.value).trans (endByte_anns _)).trans (processState_anns _ _)

theorem Failed.run (failed : s.Failed) (bits : List Pxx1Bit) : (bits.foldl addBit s).Failed := by
  induction bits generalizing s with
  | nil => exact failed
  | cons bit bits ih =>
      refine ih ?_
      obtain ⟨behind, split⟩ := addBit_anns s bit
      have fields : (s.addBit bit).fields =
          s.fields ++ (behind.map Pxx1Ann.field).filter Pxx1Field.isField := by
        simp only [Pxx1State.fields, ← split, map_append, filter_append]
      rw [Failed, fields]
      exact mem_append_left _ failed

theorem Counts.on (counts : s.Counts count)
    (early : count < 152) : s.bitStuffing = true := by
  have bytes := counts.bytes
  rw [counts.stuffing, decide_eq_true_iff]
  omega

def unstuffed (ones : Nat) (values : List Bool) : Nat :=
  (((onesRule 5).mark ones values).filter fun bit => !bit.2).length

theorem stuffed_run (bits : List Pxx1Bit) (counts : s.Counts count)
    (few : s.bitOneCnt ≤ 5) (obeys : (onesRule 5).Obeys s.bitOneCnt (bits.map Pxx1Bit.value))
    (early : count + unstuffed s.bitOneCnt (bits.map Pxx1Bit.value) < 152) :
    (bits.foldl addBit s).Counts (count + unstuffed s.bitOneCnt (bits.map Pxx1Bit.value)) ∧
      (bits.foldl addBit s).bitOneCnt =
        (bits.map Pxx1Bit.value).foldl (onesRule 5).next s.bitOneCnt ∨
      (bits.foldl addBit s).Failed := by
  induction bits generalizing s count with
  | nil => exact Or.inl ⟨counts, rfl⟩
  | cons bit bits ih =>
      have ones : s.onesBehind bit.value = (onesRule 5).next s.bitOneCnt bit.value := rfl
      obtain ⟨follows, rest⟩ := obeys
      by_cases five : s.bitOneCnt = 5
      · have due : (onesRule 5).due s.bitOneCnt = some false := if_pos five
        have zero : bit.value = false := follows false due
        have same : unstuffed s.bitOneCnt ((bit :: bits).map Pxx1Bit.value) =
            unstuffed (s.onesBehind bit.value) (bits.map Pxx1Bit.value) := by
          simp [unstuffed, StuffRule.mark, due, ones]
        rw [same] at early ⊢
        have soon : count < 152 := by omega
        rcases addBit_stuffed counts (by omega) (counts.on soon) (Nat.le_of_eq five.symm) bit with
          ⟨counted, behind⟩ | failed
        · have least : s.onesBehind bit.value ≤ 5 := by simp [onesBehind, zero]
          rw [← behind] at early least ⊢
          rw [← ones, ← behind] at rest
          have run := ih counted least rest early
          rw [behind] at run ⊢
          exact run
        · exact Or.inr (failed.run bits)
      · have due : (onesRule 5).due s.bitOneCnt = none := if_neg five
        have fewer : s.bitOneCnt < 5 := Nat.lt_of_le_of_ne few five
        have more : unstuffed s.bitOneCnt ((bit :: bits).map Pxx1Bit.value) =
            unstuffed (s.onesBehind bit.value) (bits.map Pxx1Bit.value) + 1 := by
          simp [unstuffed, StuffRule.mark, due, ones]
        rw [more] at early ⊢
        rcases addBit_plain counts (by omega) (Or.inr fewer) bit with ⟨counted, behind⟩ | failed
        · have least : s.onesBehind bit.value ≤ 5 := by
            unfold onesBehind
            split <;> omega
          rw [← behind] at early least ⊢
          rw [← ones, ← behind] at rest
          have run := ih counted least rest (by omega)
          rw [behind, Nat.add_assoc, Nat.add_comm 1] at run
          rw [behind]
          exact run
        · exact Or.inr (failed.run bits)

theorem any_run (bits : List Pxx1Bit) (counts : s.Counts count)
    (early : count + bits.length < 160) :
    (∃ behind, (bits.foldl addBit s).Counts behind) ∨ (bits.foldl addBit s).Failed := by
  induction bits generalizing s count with
  | nil => exact Or.inl ⟨count, counts⟩
  | cons bit bits ih =>
      have length : (bit :: bits).length = bits.length + 1 := rfl
      by_cases stuffed : s.bitStuffing = true ∧ 5 ≤ s.bitOneCnt
      · rcases addBit_stuffed counts (by omega) stuffed.1 stuffed.2 bit with
          ⟨counted, _⟩ | failed
        · exact ih counted (by omega)
        · exact Or.inr (failed.run bits)
      · have plain : s.bitStuffing = false ∨ s.bitOneCnt < 5 := by
          cases on : s.bitStuffing with
          | false => exact Or.inl rfl
          | true => exact Or.inr (Nat.lt_of_not_le fun five => stuffed ⟨on, five⟩)
        rcases addBit_plain counts (by omega) plain bit with ⟨counted, _⟩ | failed
        · exact ih counted (by omega)
        · exact Or.inr (failed.run bits)

theorem reset_counts : reset.Counts 0 :=
  ⟨rfl, by decide, rfl, by decide, rfl, by decide⟩

theorem header_run (header : bits.map Pxx1Bit.value = Pxx1Frame.pxxHeaderBits) :
    (bits.foldl addBit reset).Counts 6 ∧ (bits.foldl addBit reset).bitOneCnt = 0 ∨
      (bits.foldl addBit reset).Failed := by
  obtain ⟨front, dropped, rfl, fronts, droppeds⟩ :=
    map_eq_append_iff.mp (show bits.map Pxx1Bit.value =
      [false, true, true, true, true, true] ++ [true, false] from header)
  obtain ⟨sixth, zero, rfl, isOne, isZero⟩ : ∃ sixth zero, dropped = [sixth, zero] ∧
      sixth.value = true ∧ zero.value = false := by
    rcases dropped with _ | ⟨sixth, _ | ⟨zero, _ | ⟨more, dropped⟩⟩⟩
    · cases droppeds
    · simp at droppeds
    · simp only [map_cons, map_nil, List.cons.injEq, and_true] at droppeds
      exact ⟨sixth, zero, rfl, droppeds.1, droppeds.2⟩
    · simp at droppeds
  have frontRun := stuffed_run front reset_counts (by decide)
  rw [fronts] at frontRun
  rw [foldl_append]
  rcases frontRun (by simp [StuffRule.Obeys, reset, onesRule]) (by decide) with
    ⟨counts, ones⟩ | failed
  · have count6 : (front.foldl addBit reset).Counts 6 := counts
    have ones5 : (front.foldl addBit reset).bitOneCnt = 5 := ones
    have six : ((front.foldl addBit reset).addBit sixth).Counts 6 ∧
          ((front.foldl addBit reset).addBit sixth).bitOneCnt = 6 ∨
        ((front.foldl addBit reset).addBit sixth).Failed := by
      have added := addBit_stuffed count6 (by decide) (count6.on (by decide))
        (Nat.le_of_eq ones5.symm) sixth
      rwa [onesBehind, isOne, if_pos rfl, ones5] at added
    rcases six with ⟨counts, ones⟩ | failed
    · have added := addBit_stuffed counts (by decide) (counts.on (by decide))
        (by rw [ones]; decide) zero
      rwa [onesBehind, isZero, if_neg (by decide)] at added
    · exact Or.inr (failed.run [zero])
  · exact Or.inr (failed.run [sixth, zero])

theorem body_run {body : List Bool} (counts : s.Counts 6)
    (ones : s.bitOneCnt = 0) (length : body.length = 144)
    (sent : bits.map Pxx1Bit.value = ((onesRule 5).send 0 body).map Prod.fst) :
    (bits.foldl addBit s).Counts 150 ∨ (bits.foldl addBit s).Failed := by
  obtain ⟨marked, obeys⟩ := (onesRule 5).mark_send (onesRule_single (by decide)) 0 body
  have plain : unstuffed 0 (bits.map Pxx1Bit.value) = 144 := by
    have unmarked := congrArg List.length ((onesRule 5).send_unmarked 0 body)
    rw [length_map, length] at unmarked
    rw [unstuffed, sent, marked, unmarked]
  rw [← sent] at obeys
  have run := stuffed_run bits counts (by rw [ones]; decide) (by rw [ones]; exact obeys)
  rw [ones, plain] at run
  rcases run (by decide) with ⟨counted, _⟩ | failed
  · exact Or.inl counted
  · exact Or.inr failed

theorem frame_unfinished {frame : Pxx1Frame} (sent : bits.map Pxx1Bit.value = frame.wire) :
    .stopHeader ∉ (bits.foldl addBit reset).fields ∨ (bits.foldl addBit reset).Failed := by
  obtain ⟨front, last, rfl, fronts, lasts⟩ := map_eq_append_iff.mp sent
  obtain ⟨header, body, rfl, headers, bodies⟩ := map_eq_append_iff.mp fronts
  rw [foldl_append, foldl_append]
  rcases header_run headers with ⟨counts, ones⟩ | failed
  · rcases body_run counts ones frame.length_body bodies with counts | failed
    · have eight : last.length = 8 := by
        have lengths := congrArg List.length lasts
        rwa [length_map] at lengths
      rcases any_run last counts (by rw [eight]; decide) with ⟨_, counts⟩ | failed
      · exact Or.inl counts.unstopped
      · exact Or.inr failed
    · exact Or.inr (failed.run last)
  · exact Or.inr ((failed.run body).run last)

theorem fields_unlike {frame : Pxx1Frame}
    (unfinished : .stopHeader ∉ s.fields ∨ s.Failed) : s.fields ≠ frame.fields := by
  intro reported
  rw [Failed, reported] at unfinished
  simp [Pxx1Frame.fields] at unfinished

theorem frame_misread {frame : Pxx1Frame} {bits : List Pxx1Bit}
    (sent : bits.map Pxx1Bit.value = frame.wire) :
    (bits.foldl addBit reset).fields ≠ frame.fields :=
  fields_unlike (frame_unfinished sent)

def centredFrame : Pxx1Frame :=
  { modelId := 5
    type := 0
    rangeCheck := false
    failSafe := false
    countryCode := 1
    bind := false
    flag2 := 0
    channels := fun _ => (1024, 1024)
    rsrv2 := false
    euPlus := false
    disableSport := false
    powerLevel := 2
    highChan := false
    telemetryOff := false
    externalAntena := true
    crc := 0x1F3E }

def placeBits (values : List Bool) : List Pxx1Bit :=
  values.zipIdx.map fun value => ⟨10 * value.2, 10 * value.2 + 10, value.1⟩

theorem frame_misread_centred :
    ((placeBits centredFrame.wire).foldl addBit reset).fields ≠ centredFrame.fields :=
  frame_misread (by decide +kernel)

theorem frame_misread_fields :
    ¬∀ (frame : Pxx1Frame) (bits : List Pxx1Bit), bits.map Pxx1Bit.value = frame.wire →
      (bits.foldl addBit reset).fields = frame.fields := by
  intro reads
  have sent : (placeBits centredFrame.wire).map Pxx1Bit.value = centredFrame.wire := by
    decide +kernel
  exact fields_unlike (frame_unfinished sent)
    (reads centredFrame (placeBits centredFrame.wire) sent)

end Pxx1State

end SigrokDecode
