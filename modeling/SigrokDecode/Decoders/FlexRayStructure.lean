import SigrokDecode.Decoders.FlexRayRun

/-!
# When `flexray_c` reports the structure of a frame
-/

namespace SigrokDecode

open Foundation

namespace FlexrayFrame

variable (frame : FlexrayFrame) (config : FlexrayConfig) (tss : Nat × Nat)
  (samples : Nat → Nat)

/-- The bits behind the transmission start sequence are fed to an idle decoder. -/
def received : FlexrayState :=
  (FlexrayState.reset.seeTss tss.1 tss.2).feed config samples 0 frame.wire

/-- All fields are reported over their own bits, and only the last bit ends in the idle
state. -/
def Reported : Prop :=
  (frame.received config tss samples).fields.map FlexrayAnn.withoutVerdict =
      frame.fields config tss samples ∧
    (∀ count, count < frame.wire.length →
      ((FlexrayState.reset.seeTss tss.1 tss.2).feed config samples 0
        (frame.wire.take count)).state = .getBits) ∧
    (frame.received config tss samples).state = .idle

theorem dataFields_withoutVerdict :
    (frame.dataFields config samples).map FlexrayAnn.withoutVerdict =
      frame.dataFields config samples := by
  unfold dataFields
  rw [List.map_map]
  rfl

theorem headerFields_withoutVerdict (id : Nat) (ok : Bool) :
    (frame.headerFields config tss samples id ok).map FlexrayAnn.withoutVerdict =
      frame.headerFields config tss samples id true := rfl

theorem headerFields_inj {first second : Nat} : frame.headerFields config tss samples first true =
      frame.headerFields config tss samples second true ↔ first = second := by
  simp [headerFields, across, shown]

theorem id_half : frame.id.toNat / 2 = frame.id.toNat ↔ frame.id = 0 := by
  constructor
  · intro half
    apply BitVec.eq_of_toNat_eq
    have zero : frame.id.toNat = 0 := by omega
    rw [zero]
    rfl
  · intro zero
    rw [zero]
    rfl

theorem crcStart_place :
    samples (frame.wireIndex (frame.crcStart (frame.payloadEnd + 23))) - config.left =
        samples (frame.wireIndex frame.payloadEnd) - config.left ↔
      (frame.words.length = 59 → samples 1233 - config.left = samples 1249 - config.left) := by
  by_cases words : frame.words.length = 59
  · have ends : frame.payloadEnd = 985 := by rw [payloadEnd, words]
    have bytes : frame.byteCount = 126 := by rw [byteCount, words]
    have first : frame.wireIndex 985 = 1233 := by
      rw [wireIndex, bytes, if_neg (by decide), if_pos (by decide)]
    have later : frame.wireIndex 999 = 1249 := by
      rw [wireIndex, bytes, if_neg (by decide), if_pos (by decide)]
    have start : frame.crcStart (frame.payloadEnd + 23) = 999 :=
      if_pos ⟨words, by rw [ends]; decide⟩
    rw [start, ends, first, later]
    exact ⟨fun same _ => same.symm, fun same => (same words).symm⟩
  · have start : frame.crcStart (frame.payloadEnd + 23) = frame.payloadEnd :=
      if_neg fun late => words late.1
    rw [start]
    exact ⟨fun _ only => absurd only words, fun _ => rfl⟩

theorem reported_fields_iff (noDelimiter : frame.words.length ≠ 60) :
    (frame.received config tss samples).fields.map FlexrayAnn.withoutVerdict =
        frame.fields config tss samples ↔
      frame.id = 0 ∧
        (frame.words.length = 59 → samples 1233 - config.left = samples 1249 - config.left) := by
  obtain ⟨-, fields, -⟩ := FlexrayState.feed_wire frame config tss samples noDelimiter
  have seen : (frame.received config tss samples).fields.map FlexrayAnn.withoutVerdict =
      frame.headerFields config tss samples (frame.id.toNat / 2) true ++
        (frame.dataFields config samples ++
        [frame.across config samples (frame.crcStart (frame.payloadEnd + 23))
            (frame.payloadEnd + 23) (.frameCrc frame.frameCrc.toNat true),
          frame.across config samples (frame.payloadEnd + 24) (frame.payloadEnd + 25) .fes,
          frame.across config samples (frame.payloadEnd + 26) (frame.payloadEnd + 36) .cid]) := by
    rw [received, fields, fieldsBefore_end, List.map_append, List.map_append, List.map_append,
      headerFields_withoutVerdict, dataFields_withoutVerdict, List.append_assoc,
      List.append_assoc]
    rfl
  rw [seen, FlexrayFrame.fields, List.append_assoc]
  have split : ∀ {id id' : Nat} {front back : List FlexrayAnn},
      frame.headerFields config tss samples id true ++ front =
        frame.headerFields config tss samples id' true ++ back ↔ id = id' ∧ front = back := by
    intro id id' front back
    rw [← frame.headerFields_inj config tss samples]
    constructor
    · exact fun same => List.append_inj same rfl
    · rintro ⟨same, rest⟩
      rw [same, rest]
  rw [split, frame.id_half, List.append_cancel_left_eq, ← frame.crcStart_place config samples]
  simp [across, shown]

theorem reported_iff : frame.Reported config tss samples ↔ frame.id = 0 ∧ frame.words.length ≠ 60 ∧
        (frame.words.length = 59 → samples 1233 - config.left = samples 1249 - config.left) := by
  by_cases delimiter : frame.words.length = 60
  · constructor
    · rintro ⟨-, receiving, -⟩
      obtain ⟨⟨count, inside, idle⟩, -⟩ :=
        FlexrayState.feed_wire_delimiter frame config tss samples delimiter
      exact absurd ((receiving count inside).symm.trans idle) (by decide)
    · rintro ⟨-, noDelimiter, -⟩
      exact absurd delimiter noDelimiter
  · obtain ⟨idle, -, receiving⟩ := FlexrayState.feed_wire frame config tss samples delimiter
    unfold Reported
    rw [frame.reported_fields_iff config tss samples delimiter]
    constructor
    · rintro ⟨⟨id, place⟩, -, -⟩
      exact ⟨id, delimiter, place⟩
    · rintro ⟨id, -, place⟩
      exact ⟨⟨id, place⟩, receiving, idle⟩

/-- Identifier 1 and no payload. -/
def shortFrame : FlexrayFrame :=
  { reserved := false
    ppi := false
    nullFrame := true
    sync := false
    startup := false
    id := 1
    headerCrc := 0
    cycle := 0
    words := []
    frameCrc := 0
    short := by decide }

theorem reported_shortFrame : ¬∀ (frame : FlexrayFrame) (config : FlexrayConfig) (tss : Nat × Nat)
      (samples : Nat → Nat), frame.Reported config tss samples := by
  intro reported
  have fields := (reported shortFrame ⟨.a, 5, 5⟩ (0, 60) (fun number => 60 + 10 * number)).1
  rw [reported_fields_iff shortFrame _ _ _ (by decide)] at fields
  have id : ¬shortFrame.id = 0 := by decide
  exact id fields.1

end FlexrayFrame

end SigrokDecode
