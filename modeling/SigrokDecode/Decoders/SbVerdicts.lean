import SigrokDecode.Decoders.SbWaveform

/-!
# Payloads of the Thunderbolt sideband channel

The length of a payload, and the verdict about its check.
-/

namespace SigrokDecode

open Foundation List

namespace SbChannelState

section Timing

variable (D : Type) [CDouble D]

/-- In every run, the payload stays in its array exactly if no packet is too long. -/
theorem payload_inside_iff (samplerate : Nat) (initialPin : Bool) (edges : List SbEdge) :
    (∀ front back, edges = front ++ back →
      ((sbChannelStart samplerate initialPin).behind D front).payload.length ≤ 256) ↔
      NoLongPacket ((sbChannelStart samplerate initialPin).symbols D edges) := by
  have payload (front : List SbEdge) :
      ((sbChannelStart samplerate initialPin).behind D front).payload = (SbPacket.fresh.receiveAll
          ((sbChannelStart samplerate initialPin).symbols D front)).payload :=
    congrArg SbPacket.payload (behind_packet D (sbChannelStart samplerate initialPin) front)
  rw [← SbPacket.fits_iff]
  constructor
  · intro inside front back split
    obtain ⟨first, rest, same, symbols⟩ := symbols_split D split
    rw [← symbols, ← payload]
    exact inside first rest same
  · intro fits front back split
    rw [payload]
    apply fits _ ((sbChannelStart samplerate initialPin).behind D front |>.symbols D back)
    rw [split, symbols_append]

end Timing

theorem sbEdges_payload {bytes : List SbByte} (data : ∀ value ∈ bytes, value ≠ 0xFE) :
    ((sbChannelStart 4000000 false).behind ℚ (sbEdges (0xFE :: bytes))).payload = bytes := by
  have packet := behind_packet ℚ (sbChannelStart 4000000 false) (sbEdges (0xFE :: bytes))
  rw [sbEdges_symbols] at packet
  have begins : SbPacket.synced.Collects := Or.inl rfl
  have collected := (begins.receiveAll data).2
  exact (congrArg SbPacket.payload packet).trans collected

/-- A sync byte and 257 zero bytes. -/
theorem payload_past_array :
    ¬∀ (samplerate : Nat) (initialPin : Bool) (edges front back : List SbEdge),
      edges = front ++ back →
        ((sbChannelStart samplerate initialPin).behind ℚ front).payload.length ≤ 256 := by
  intro inside
  have zeros : ∀ value ∈ replicate 257 (0 : SbByte), value ≠ 0xFE := by
    intro value member
    rw [eq_of_mem_replicate member]
    decide
  have here := inside 4000000 false _ (sbEdges (0xFE :: replicate 257 0)) [] rfl
  rw [sbEdges_payload zeros, length_replicate] at here
  exact absurd here (by decide)

end SbChannelState

/-- The reflected CRC-16 with the polynomial `0xA001`; the register begins with ones. -/
def crc16 (message : List SbByte) : BitVec 16 :=
  (byteBits message).foldl (crcStepLsb 0xA001#16) 0xFFFF#16

theorem reverse_poly : (0x8005#16).reverse = 0xA001#16 := by decide

theorem foldl_updateCrc (crc : BitVec 16) (bytes : List SbByte) :
    bytes.foldl updateCrc crc = (byteBits bytes).foldl (crcStepLsb 0xA001#16) crc := by
  have loop := crcLoop_eq (0x8005#16) crc.reverse bytes (by decide)
  rw [← foldl_crcStepLsb, Foundation.reverse_reverse, reverse_poly] at loop
  exact loop

theorem lsbBits_check (low high : SbByte) :
    byteBits [low, high] = lsbBits 16 (high ++ low).toNat := by
  have bits := lsbBits_packLsb (byteBits [low, high])
  have value : packLsb (byteBits [low, high]) = (high ++ low).toNat := by
    rw [byteBits_cons, byteBits_cons, byteBits, flatMap_nil, List.append_nil,
      packLsb_append, packLsb_lsbBits low.isLt, packLsb_lsbBits high.isLt, length_lsbBits,
      BitVec.toNat_append, ← Nat.shiftLeft_add_eq_or_of_lt low.isLt, Nat.shiftLeft_eq,
      Nat.mul_comm, Nat.add_comm]
  rw [value] at bits
  exact bits.symm

theorem crc_zero_iff (message : List SbByte) (low high : SbByte) :
    (message ++ [low, high]).foldl updateCrc 0xFFFF = 0 ↔ crc16 message = high ++ low := by
  rw [foldl_updateCrc, byteBits_append, foldl_append, lsbBits_check, ← reverse_poly]
  exact foldl_check_eq_zero_iff (by decide) _ _

def Checked (payload : List SbByte) : Prop :=
  ∃ message low high, payload = message ++ [low, high] ∧ crc16 message = high ++ low

theorem checked_iff {payload : List SbByte} (enough : 2 ≤ payload.length) :
    payload.foldl updateCrc 0xFFFF = 0 ↔ Checked payload := by
  constructor
  · intro zero
    have two : (payload.drop (payload.length - 2)).length = 2 := by
      rw [length_drop]
      omega
    obtain ⟨low, high, last⟩ := length_eq_two.mp two
    have split : payload = payload.take (payload.length - 2) ++ [low, high] := by
      rw [← last, take_append_drop]
    rw [split] at zero
    exact ⟨_, low, high, split, (crc_zero_iff _ low high).mp zero⟩
  · rintro ⟨message, low, high, rfl, same⟩
    exact (crc_zero_iff message low high).mpr same

namespace SbChannelState

def ReportsValidCrc (anns : List SbAnn) : Prop :=
  ∃ ann ∈ anns, ann.cls = .transaction ∧ ann.texts = ["Valid CRC", "CRC OK", "CRC"]

theorem reportsValidCrc_sync (s : SbChannelState) (samplenum : Nat) :
    ReportsValidCrc (s.receiveByte 0xFE samplenum).2 ↔
      s.state = 2 ∧ 2 ≤ s.payload.length ∧ s.crc = 0 := by
  unfold receiveByte
  rw [if_pos rfl]
  unfold ReportsValidCrc verdictAnns
  dsimp only
  constructor
  · rintro ⟨ann, member, transaction, texts⟩
    rcases mem_append.mp member with verdict | sync
    · split at verdict
      · rename_i closed
        split at verdict
        · rename_i zero
          exact ⟨closed.1, closed.2, zero⟩
        · rw [mem_singleton.mp verdict] at transaction
          cases transaction
      · cases verdict
    · rw [mem_singleton.mp sync] at transaction
      cases transaction
  · rintro ⟨two, enough, zero⟩
    rw [if_pos ⟨two, enough⟩, if_pos zero]
    exact ⟨_, mem_append_left _ mem_cons_self, rfl, rfl⟩

section Timing

variable (D : Type) [CDouble D]

/-- The verdict about a payload that is not an LT transaction. -/
theorem validCrc_iff (samplerate : Nat) (initialPin : Bool) {edges : List SbEdge} {edge : SbEdge}
    {front : List SbSymbol} {first : SbByte} {bytes : List SbByte}
    (received : (sbChannelStart samplerate initialPin).symbols D edges =
      front ++ .byte 0xFE :: (first :: bytes).map .byte)
    (closed : ((sbChannelStart samplerate initialPin).behind D edges).symbolAt D edge =
      some (.byte 0xFE))
    (data : ∀ value ∈ first :: bytes, value ≠ 0xFE)
    (length : 2 ≤ (first :: bytes).length ∧ (first :: bytes).length ≤ 256)
    (noLt : first &&& 0xC0 ≠ 0x80) :
    ReportsValidCrc (((sbChannelStart samplerate initialPin).behind D edges).step D edge).2 ↔
      Checked (first :: bytes) := by
  obtain ⟨t, same, anns⟩ := step_anns D closed
  have packet : t.packet = ⟨2, first :: bytes, (first :: bytes).foldl updateCrc 0xFFFF⟩ := by
    have split : front ++ SbSymbol.byte 0xFE :: (first :: bytes).map .byte =
        front ++ [SbSymbol.byte 0xFE] ++ (first :: bytes).map .byte := append_cons _ _ _
    rw [same, behind_packet, received, split, SbPacket.receiveAll_append,
      SbPacket.receiveAll_append]
    exact SbPacket.synced_checked data noLt
  have state : t.state = 2 := congrArg SbPacket.state packet
  have payload : t.payload = first :: bytes := congrArg SbPacket.payload packet
  have crc : t.crc = (first :: bytes).foldl updateCrc 0xFFFF := congrArg SbPacket.crc packet
  rw [anns, reportsValidCrc_sync, state, payload, crc, ← checked_iff length.1]
  exact ⟨fun reported => reported.2.2, fun zero => ⟨rfl, length.1, zero⟩⟩

end Timing

theorem sbEdges_closed (bytes : List SbByte) :
    ∃ edges edge, (sbChannelStart 4000000 false).symbols ℚ edges = .byte 0xFE :: bytes.map .byte ∧
      ((sbChannelStart 4000000 false).behind ℚ edges).symbolAt ℚ edge = some (.byte 0xFE) := by
  have all := sbEdges_symbols (0xFE :: bytes ++ [0xFE])
  rw [map_append] at all
  obtain ⟨edges, edge, rest, -, symbols, ends⟩ := symbols_ends ℚ all
  exact ⟨edges, edge, symbols, ends⟩

/-- The AT command `0x41` with its check `0x707F`. -/
theorem validCrc_iff_command : ∃ edges edge, (sbChannelStart 4000000 false).symbols ℚ edges =
        .byte 0xFE :: [.byte 0x41, .byte 0x7F, .byte 0x70] ∧
      ReportsValidCrc (((sbChannelStart 4000000 false).behind ℚ edges).step ℚ edge).2 := by
  obtain ⟨edges, edge, symbols, ends⟩ := sbEdges_closed [0x41, 0x7F, 0x70]
  have split : (sbChannelStart 4000000 false).symbols ℚ edges =
      [] ++ .byte 0xFE :: [0x41, 0x7F, 0x70].map .byte := symbols
  have valid := validCrc_iff ℚ 4000000 false split ends (by decide) (by decide) (by decide)
  exact ⟨edges, edge, symbols, valid.mpr ⟨[0x41], 0x7F, 0x70, rfl, by decide⟩⟩

/-- An LT transaction with a check behind it. -/
theorem validCrc_misreported :
    ¬∀ (samplerate : Nat) (initialPin : Bool) (edges : List SbEdge) (edge : SbEdge)
        (front : List SbSymbol) (bytes : List SbByte),
      (sbChannelStart samplerate initialPin).symbols ℚ edges =
          front ++ .byte 0xFE :: bytes.map .byte →
        ((sbChannelStart samplerate initialPin).behind ℚ edges).symbolAt ℚ edge =
          some (.byte 0xFE) →
        (∀ value ∈ bytes, value ≠ 0xFE) → 2 ≤ bytes.length →
        (ReportsValidCrc (((sbChannelStart samplerate initialPin).behind ℚ edges).step ℚ edge).2 ↔
          Checked bytes) := by
  intro every
  obtain ⟨edges, edge, symbols, ends⟩ := sbEdges_closed [0x80, 0xBE, 0xE0]
  have reported := (every 4000000 false edges edge [] [0x80, 0xBE, 0xE0] symbols ends
    (by decide) (by decide)).mpr ⟨[0x80], 0xBE, 0xE0, rfl, by decide⟩
  obtain ⟨t, same, anns⟩ := step_anns ℚ ends
  rw [anns, reportsValidCrc_sync] at reported
  have packet : t.packet = SbPacket.receiveAll .synced ([0x80, 0xBE, 0xE0].map .byte) := by
    rw [same, behind_packet, symbols]
    rfl
  have crc : t.crc = 0xF861 := (congrArg SbPacket.crc packet).trans (by decide)
  rw [crc] at reported
  exact absurd reported.2.2 (by decide)

end SbChannelState

end SigrokDecode
