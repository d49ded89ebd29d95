import SigrokDecode.Decoders.Pjon
import SigrokDecode.Foundation.Runs

/-!
# The arrays of the PJON decoder

There are 4 bytes for acknowledgements, 16 places for fields and 512 characters for the text about
a frame.  The memory of the frame grows until `g_realloc` ends the process.
-/

namespace SigrokDecode

open Foundation

namespace PjonState

/-- `frame_byte_count`, `num_fields` and `ack_byte_count` are in bounds. -/
structure InBounds (s : PjonState) : Prop where
  frame : s.frameBytes.length ≤ s.frameByteCap
  fields : s.fields.length ≤ 16
  acks : s.ackBytes.length ≤ 4

def Flushes (s : PjonState) : Prop :=
  s.frameBytes ≠ [] ∧ s.frameSs ≠ 0 ∧ s.frameEs ≠ 0

/-- Each piece of the text begins in front of the end of the buffer. -/
def TextFits (s : PjonState) : Prop :=
  s.Flushes → EveryStep appendPiece (fun text _ => text.pos ≤ 512) .empty s.relationPieces

/-- The event finds the arrays in bounds and leaves them so, and what it prints is in bounds. -/
def Contained (s : PjonState) (event : PjonEvent) : Prop :=
  s.InBounds ∧ (s.recvProto event).InBounds ∧
    match event with
    | .frameInit _ _ | .idle | .frameData => s.TextFits
    | _ => True

def TextRoom (s : PjonState) : Prop :=
  s.Flushes → s.frameHasAck ≠ none → ∀ text, s.framePayloadText = some text →
    s.frameRxIdText.length + (if s.frameTxId = none then 0 else 6 + s.frameTxIdText.length) +
      text.length ≤ 501

def Room (s : PjonState) : PjonEvent → Prop
  | .frameInit _ _ | .idle | .frameData => s.TextRoom
  | .dataByte _ _ _ => s.state = .ack → s.ackBytes.length < 4
  | .syncRespWait => True

/-- The table is complete behind its second field, numbers have three digits, and the receiver is
known with the payload. -/
structure Sound (s : PjonState) : Prop where
  frame : s.frameBytes.length ≤ s.frameByteCap
  acks : s.ackBytes.length ≤ 4
  fields : s.fields.length ≤ 11
  table : s.fieldIdx ≤ 1 → s.fields.length ≤ 2
  rxIdText : s.frameRxIdText.length ≤ 3
  txIdText : s.frameTxIdText.length ≤ 3
  known : s.framePayloadText ≠ none → s.frameRxId ≠ none
  begun : s.state = .collecting → s.fieldIdx ≠ 0 → s.frameRxId ≠ none

variable {s : PjonState}

theorem Sound.inBounds (sound : s.Sound) : s.InBounds :=
  ⟨sound.frame, sound.fields.trans (by decide), sound.acks⟩

theorem sound_start : start.Sound := by
  constructor <;> decide

theorem putWarnings_eq (s : PjonState) (checks : List (Bool × String)) :
    ∃ anns, s.putWarnings checks = { s with anns := anns } := by
  rw [putWarnings]
  split
  · exact ⟨s.anns, rfl⟩
  · exact ⟨_, rfl⟩

theorem putCrc_eq (s : PjonState) (cls : PjonClass) (name : String) (digits want found : Nat) :
    ∃ anns, s.putCrc cls name digits want found = { s with anns := anns } := by
  rw [putCrc]
  split
  · exact ⟨_, rfl⟩
  · exact ⟨_, rfl⟩

theorem frameFlush_eq (s : PjonState) : ∃ anns, s.frameFlush = { s with anns := anns } := by
  rw [frameFlush]
  split
  · exact ⟨s.anns, rfl⟩
  · dsimp only
    split
    · exact ⟨_, rfl⟩
    · exact ⟨s.anns, rfl⟩

theorem length_decimal (b : UInt8) : (toString b.toNat).length ≤ 3 := by
  have digits : (Nat.toDigits 10 b.toNat).length ≤ 3 :=
    (Nat.length_toDigits_le_iff (by decide) (by decide)).mpr (b.toNat_lt.trans (by decide))
  exact String.length_ofList.trans_le digits

theorem length_rxIdText (b : UInt8) : (rxIdText b).length ≤ 3 := by
  rw [rxIdText]
  split
  · decide
  · split
    · decide
    · exact length_decimal b

theorem length_laterFields (cfg : PjonConfig) : cfg.laterFields.length ≤ 9 := by
  have widths : cfg.optionalWidths.length ≤ 5 := by
    rw [PjonConfig.optionalWidths]
    split <;> split <;> split <;> split <;> simp
  simp only [PjonConfig.laterFields, List.length_cons, List.length_append, List.length_map,
    List.length_nil]
  omega

/-- What a field leaves behind that stands at `index` in the table. -/
structure Settled (index : Nat) (s : PjonState) : Prop where
  frame : s.frameBytes.length ≤ s.frameByteCap
  acks : s.ackBytes.length ≤ 4
  fields : s.fields.length ≤ 11
  table : index = 0 → s.fields.length ≤ 2
  rxIdText : s.frameRxIdText.length ≤ 3
  txIdText : s.frameTxIdText.length ≤ 3
  known : s.frameRxId ≠ none

theorem Settled.withAnns {index : Nat} (settled : s.Settled index) (anns : List PjonAnn) :
    { s with anns := anns }.Settled index :=
  { settled with }

theorem Settled.putCrc {index : Nat} (settled : s.Settled index) (cls : PjonClass) (name : String)
    (digits want found : Nat) : (s.putCrc cls name digits want found).Settled index := by
  rcases putCrc_eq s cls name digits want found with ⟨anns, same⟩
  rw [same]
  exact settled.withAnns anns

theorem Sound.settled (sound : s.Sound) (collecting : s.state = .collecting)
    (later : s.fieldIdx ≠ 0) : s.Settled s.fieldIdx :=
  { sound with table := (absurd · later), known := sound.begun collecting later }

theorem Sound.handleField (sound : s.Sound) (collecting : s.state = .collecting)
    (raw : List UInt8) : (s.handleField raw).Settled s.fieldIdx := by
  have settled := sound.settled collecting
  rw [PjonState.handleField]
  split
  case h_1 first =>
      refine { sound with table := fun _ => sound.table (by omega), rxIdText := ?_, known := nofun }
      have text : (s.handleFieldRxId raw).frameRxIdText =
          if raw.headD 0 = 255 ∨ raw.headD 0 = 0 then s.frameRxIdText
          else SigrokDecode.rxIdText (raw.headD 0) := rfl
      rw [text]
      split
      · exact sound.rxIdText
      · exact length_rxIdText _
  case h_2 second =>
      have settled := settled (by omega)
      have table := sound.table (by omega)
      rw [handleFieldConfig]
      rcases putWarnings_eq _ _ with ⟨anns, same⟩
      rw [same]
      refine { settled with fields := ?_, table := (by omega) }
      show (s.fields ++ PjonConfig.laterFields _).length ≤ 11
      have most := length_laterFields (.ofByte (raw.headD 0))
      rw [List.length_append]
      omega
  case h_3 third =>
      have settled := settled (by omega)
      rw [handleFieldPktLen]
      rcases putWarnings_eq s _ with ⟨anns, same⟩
      rw [same]
      refine { settled with fields := ?_, table := (by omega) }
      show List.length (if _ then _ else _) ≤ 11
      split
      · exact (List.length_modify _ _ _).trans_le settled.fields
      · exact settled.fields
  case h_4 fourth =>
      exact (settled (by omega)).putCrc _ _ _ _ _
  case h_5 =>
      have settled := settled (by omega)
      split
      · rw [handleFieldEndCrc]
        split
        · exact settled.putCrc _ _ _ _ _
        · exact settled.putCrc _ _ _ _ _
      · split
        · exact { settled with }
        · rw [handleFieldAnon]
          split
          · exact { settled with txIdText := length_decimal _ }
          · exact settled.withAnns _

theorem Sound.collectByte (sound : s.Sound) (collecting : s.state = .collecting) :
    s.collectByte.Sound := by
  have counted : { s with fieldGot := s.fieldGot + 1 }.Sound :=
    { sound with }
  rw [PjonState.collectByte]
  split
  · exact sound
  · dsimp only
    split
    · rw [processField]
      split
      · exact counted
      · split
        · exact counted
        · have settled := counted.handleField collecting
          exact ⟨(settled _).frame, (settled _).acks, (settled _).fields,
            fun first => (settled _).table (by simpa using first), (settled _).rxIdText,
            (settled _).txIdText, fun _ => (settled _).known, fun _ _ => (settled _).known⟩
    · exact counted

theorem Sound.storeByte (sound : s.Sound) (ss es : Nat) (b : UInt8) :
    (s.storeByte ss es b).Sound := by
  have frame := sound.frame
  refine { sound with frame := ?_ }
  show (s.frameBytes ++ [b]).length ≤
    if s.frameByteCap ≤ s.frameBytes.length then
      if s.frameByteCap = 0 then 64 else s.frameByteCap * 2
    else s.frameByteCap
  rw [List.length_append, List.length_singleton]
  split
  · split <;> omega
  · omega

theorem Sound.recvProto {event : PjonEvent} (sound : s.Sound) (room : s.Room event) :
    (s.recvProto event).Sound := by
  have empty : "".length ≤ 3 := by decide
  rcases frameFlush_eq s with ⟨anns, same⟩
  cases event with
  | frameInit ss es =>
      rw [PjonState.recvProto, same]
      exact ⟨Nat.zero_le _, Nat.zero_le _, show 2 ≤ 11 by decide, fun _ => le_refl 2, empty, empty,
        nofun, fun _ first => absurd rfl first⟩
  | dataByte ss es b =>
      rw [PjonState.recvProto]
      split
      case h_1 acks =>
          refine { sound with acks := ?_ }
          exact List.length_append.trans_le (room acks)
      case h_2 collecting => exact (sound.storeByte ss es b).collectByte collecting
      case h_3 => exact sound
  | syncRespWait =>
      exact { sound with acks := Nat.zero_le _, begun := nofun }
  | frameData | idle =>
      rw [PjonState.recvProto, same]
      exact ⟨Nat.zero_le _, Nat.zero_le _, sound.fields, sound.table, empty, empty, nofun, nofun⟩

@[simp] theorem appendPiece_pos (text : TextBuffer) (piece : String) :
    (appendPiece text piece).pos =
      text.pos + ((if 0 < text.pos then 3 else 0) + piece.length) := by
  rw [appendPiece, TextBuffer.print, String.length_toList, String.length_append]
  split <;> rfl

theorem textFits_iff (sound : s.Sound) : s.TextFits ↔ s.TextRoom := by
  have rxIdText := sound.rxIdText
  have txIdText := sound.txIdText
  have start : TextBuffer.empty.pos = 0 := rfl
  have receiverText : "RX ".length = 3 := rfl
  have senderText : "TX ".length = 3 := rfl
  have payloadText : "DATA ".length = 5 := rfl
  apply imp_congr_right
  intro _
  rcases payload : s.framePayloadText with _ | text
  · -- without a payload, all numbers fit
    rcases receiver : s.frameRxId with _ | rxId <;> rcases sender : s.frameTxId with _ | txId <;>
      rcases acks : s.frameHasAck with _ | b <;>
      simp [relationPieces, payload, receiver, sender, acks, EveryStep, start, receiverText,
        senderText] <;> omega
  · rcases receiver : s.frameRxId with _ | rxId
    · exact absurd receiver (sound.known (by simp [payload]))
    · rcases sender : s.frameTxId with _ | txId <;> rcases acks : s.frameHasAck with _ | b <;>
        simp [relationPieces, payload, receiver, sender, acks, EveryStep, start, receiverText,
          senderText, payloadText] <;> omega

theorem contained_iff_room {event : PjonEvent} (sound : s.Sound) :
    s.Contained event ↔ s.Room event := by
  constructor
  · rintro ⟨-, after, printed⟩
    cases event with
    | frameInit _ _ | frameData | idle => exact (textFits_iff sound).mp printed
    | syncRespWait => trivial
    | dataByte ss es b =>
        intro acks
        have most := after.acks
        rw [PjonState.recvProto, acks] at most
        exact List.length_append.symm.trans_le most
  · intro room
    refine ⟨sound.inBounds, (sound.recvProto room).inBounds, ?_⟩
    cases event with
    | frameInit _ _ | frameData | idle => exact (textFits_iff sound).mpr room
    | syncRespWait | dataByte _ _ _ => trivial

/-- All accesses stay in bounds exactly as long as no fifth acknowledgement is stored and no long
payload is flushed together with an acknowledgement. -/
theorem contained_events_iff (events : List PjonEvent) :
    EveryStep recvProto Contained start events ↔ EveryStep recvProto Room start events :=
  everyStep_congr Sound contained_iff_room Sound.recvProto sound_start events

/-- Five bytes behind the end of a frame. -/
theorem contained_events_fiveAcks : ¬EveryStep recvProto Contained start
      (.frameInit 1 2 :: .syncRespWait :: List.replicate 5 (.dataByte 3 4 6)) := by
  rintro ⟨-, -, -, -, -, -, ⟨-, after, -⟩, -⟩
  exact absurd after.acks (by decide)

end PjonState

end SigrokDecode
