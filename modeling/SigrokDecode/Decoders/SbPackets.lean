import SigrokDecode.Decoders.SbChannel

/-!
# Packets of the Thunderbolt sideband channel

The state machine of the packets sees bytes and long pauses only.
-/

namespace SigrokDecode

open Foundation List

inductive SbSymbol
  | gap
  | byte (value : SbByte)

structure SbPacket where
  state : Nat
  payload : List SbByte
  crc : BitVec 16

namespace SbPacket

def fresh : SbPacket :=
  ⟨0, [], 0xFFFF⟩

def synced : SbPacket :=
  ⟨1, [], 0xFFFF⟩

def receive (p : SbPacket) : SbSymbol → SbPacket
  | .gap => { p with state := 0 }
  | .byte value =>
      if value = 0xFE then synced
      else if p.state = 1 then
        ⟨if value &&& 0xC0 = 0x80 then 3 else 2, p.payload ++ [value], updateCrc p.crc value⟩
      else if p.state = 3 then
        ⟨1, p.payload ++ [value], p.crc⟩
      else if p.state = 2 then
        ⟨2, p.payload ++ [value], updateCrc p.crc value⟩
      else p

def receiveAll (p : SbPacket) (symbols : List SbSymbol) : SbPacket :=
  symbols.foldl receive p

theorem receiveAll_append (p : SbPacket) (front back : List SbSymbol) :
    p.receiveAll (front ++ back) = (p.receiveAll front).receiveAll back :=
  foldl_append

end SbPacket

namespace SbChannelState

def packet (s : SbChannelState) : SbPacket :=
  ⟨s.state, s.payload, s.crc⟩

theorem receiveByte_packet (s : SbChannelState) (byte : SbByte) (samplenum : Nat) :
    (s.receiveByte byte samplenum).1.packet = s.packet.receive (.byte byte) := by
  unfold receiveByte SbPacket.receive packet
  dsimp only
  split
  · rfl
  · split
    · rfl
    · split
      · rfl
      · split
        · rename_i two
          rw [← two]
        · rfl

def completedByte (s : SbChannelState) (bit : Bool) : Option SbSymbol :=
  if s.bitCount = 7 then some (.byte ((shiftBit s.shiftReg bit).setWidth 8)) else none

theorem completeBit_packet (s : SbChannelState) (bit : Bool) (samplenum : Nat) :
    (s.completeBit bit samplenum).1.packet =
      s.packet.receiveAll (s.completedByte bit).toList := by
  unfold completeBit completedByte
  dsimp only
  by_cases last : s.bitCount = 7
  · rw [if_pos (by rw [last]), if_pos last]
    exact receiveByte_packet _ _ _
  · rw [if_neg fun eight => last (Nat.succ.inj eight), if_neg last]
    rfl

theorem completeBit_anns {s : SbChannelState} {bit : Bool} {value : SbByte}
    (ends : s.completedByte bit = some (.byte value)) (samplenum : Nat) :
    ∃ t : SbChannelState, t.packet = s.packet ∧
      (s.completeBit bit samplenum).2 = (t.receiveByte value samplenum).2 := by
  unfold completedByte at ends
  split at ends
  · rename_i last
    cases ends
    unfold completeBit
    dsimp only
    rw [if_pos (by rw [last])]
    exact ⟨{ s with
      bitStartEdge := if s.bitCount = 0 then s.lastEdge else s.bitStartEdge
      shiftReg := shiftBit s.shiftReg bit
      bitCount := s.bitCount + 1 }, rfl, rfl⟩
  · cases ends

section Timing

variable (D : Type) [CDouble D]

def symbolAt (s : SbChannelState) (edge : SbEdge) : Option SbSymbol :=
  if s.lastEdge = 0 then none
  else if s.isGap D edge.samplenum then some .gap
  else if s.isHalf D edge.samplenum then
    if s.isHalfBit then s.completedByte true else none
  else if s.isFull D edge.samplenum then
    if s.isHalfBit then none else s.completedByte false
  else none

def symbols : SbChannelState → List SbEdge → List SbSymbol
  | _, [] => []
  | s, edge :: edges => (s.symbolAt D edge).toList ++ symbols (s.step D edge).1 edges

theorem behind_append (s : SbChannelState) (front back : List SbEdge) :
    s.behind D (front ++ back) = (s.behind D front).behind D back := by
  induction front generalizing s with
  | nil => rfl
  | cons edge front ih => exact ih (s.step D edge).1

theorem symbols_append (s : SbChannelState) (front back : List SbEdge) :
    s.symbols D (front ++ back) = s.symbols D front ++ (s.behind D front).symbols D back := by
  induction front generalizing s with
  | nil => rfl
  | cons edge front ih =>
      have later := ih (s.step D edge).1
      rw [cons_append, symbols, later, ← List.append_assoc]
      rfl

theorem takeEdge_dropPacket (s : SbChannelState) (half full : Bool) (samplenum : Nat) :
    (s.dropPacket.takeEdge half full samplenum).1.packet = s.packet.receive .gap := by
  unfold takeEdge
  cases half
  · cases full
    · rfl
    · rfl
  · rfl

theorem step_anns {s : SbChannelState} {edge : SbEdge} {value : SbByte}
    (ends : s.symbolAt D edge = some (.byte value)) :
    ∃ t : SbChannelState, t.packet = s.packet ∧
      (s.step D edge).2 = (t.receiveByte value edge.samplenum).2 := by
  unfold symbolAt at ends
  unfold step takeEdge
  dsimp only
  have gap : ({ s with currPin := edge.pin } : SbChannelState).isGap D edge.samplenum =
      s.isGap D edge.samplenum := rfl
  have half : ({ s with currPin := edge.pin } : SbChannelState).isHalf D edge.samplenum =
      s.isHalf D edge.samplenum := rfl
  have full : ({ s with currPin := edge.pin } : SbChannelState).isFull D edge.samplenum =
      s.isFull D edge.samplenum := rfl
  rw [gap, half, full]
  split at ends
  · cases ends
  · rename_i running
    rw [if_neg running]
    split at ends
    · cases ends
    · rename_i noGap
      rw [if_neg noGap]
      split at ends
      · rename_i isHalf
        rw [if_pos isHalf]
        split at ends
        · rename_i second
          rw [if_pos second]
          obtain ⟨t, same, anns⟩ := completeBit_anns
            (s := { s with currPin := edge.pin, isHalfBit := false }) ends edge.samplenum
          exact ⟨t, same, anns⟩
        · cases ends
      · rename_i notHalf
        rw [if_neg notHalf]
        split at ends
        · rename_i isFull
          rw [if_pos isFull]
          split at ends
          · cases ends
          · rename_i whole
            rw [if_neg whole]
            obtain ⟨t, same, anns⟩ :=
              completeBit_anns (s := { s with currPin := edge.pin }) ends edge.samplenum
            exact ⟨t, same, anns⟩
        · cases ends

theorem step_packet (s : SbChannelState) (edge : SbEdge) :
    (s.step D edge).1.packet = s.packet.receiveAll (s.symbolAt D edge).toList := by
  unfold step symbolAt
  dsimp only
  by_cases first : s.lastEdge = 0
  · rw [if_pos first, if_pos first]
    rfl
  · rw [if_neg first, if_neg first]
    have gap : ({ s with currPin := edge.pin } : SbChannelState).isGap D edge.samplenum =
        s.isGap D edge.samplenum := rfl
    have half : ({ s with currPin := edge.pin } : SbChannelState).isHalf D edge.samplenum =
        s.isHalf D edge.samplenum := rfl
    have full : ({ s with currPin := edge.pin } : SbChannelState).isFull D edge.samplenum =
        s.isFull D edge.samplenum := rfl
    rw [gap, half, full]
    split
    · exact takeEdge_dropPacket _ _ _ _
    · unfold takeEdge
      split
      · split
        · exact completeBit_packet _ true _
        · rfl
      · split
        · split
          · rfl
          · exact completeBit_packet _ false _
        · rfl

theorem behind_packet (s : SbChannelState) (edges : List SbEdge) :
    (s.behind D edges).packet = s.packet.receiveAll (s.symbols D edges) := by
  induction edges generalizing s with
  | nil => rfl
  | cons edge edges ih =>
      rw [behind, ih, step_packet, symbols, SbPacket.receiveAll_append]

end Timing

end SbChannelState

namespace SbPacket

def Collects (p : SbPacket) : Prop :=
  p.state = 1 ∨ p.state = 2 ∨ p.state = 3

variable {p : SbPacket}

theorem Collects.receive (collects : p.Collects) {value : SbByte} (data : value ≠ 0xFE) :
    (p.receive (.byte value)).Collects ∧
      (p.receive (.byte value)).payload = p.payload ++ [value] := by
  unfold SbPacket.receive Collects
  dsimp only
  rw [if_neg data]
  rcases collects with one | two | three
  · rw [if_pos one]
    refine ⟨?_, rfl⟩
    split
    · exact Or.inr (Or.inr rfl)
    · exact Or.inr (Or.inl rfl)
  · rw [two]
    exact ⟨Or.inr (Or.inl rfl), rfl⟩
  · rw [three]
    exact ⟨Or.inl rfl, rfl⟩

variable {bytes : List SbByte}

theorem Collects.receiveAll (collects : p.Collects) (data : ∀ value ∈ bytes, value ≠ 0xFE) :
    (p.receiveAll (bytes.map .byte)).Collects ∧
      (p.receiveAll (bytes.map .byte)).payload = p.payload ++ bytes := by
  induction bytes generalizing p with
  | nil => exact ⟨collects, (List.append_nil _).symm⟩
  | cons value bytes ih =>
      obtain ⟨next, grown⟩ := collects.receive (data value mem_cons_self)
      obtain ⟨last, all⟩ := ih next fun other member =>
        data other (mem_cons_of_mem _ member)
      refine ⟨last, all.trans ?_⟩
      rw [grown, List.append_assoc]
      rfl

theorem receiveAll_checked (payload : List SbByte) (crc : BitVec 16)
    (data : ∀ value ∈ bytes, value ≠ 0xFE) :
    receiveAll ⟨2, payload, crc⟩ (bytes.map .byte) =
      ⟨2, payload ++ bytes, bytes.foldl updateCrc crc⟩ := by
  induction bytes generalizing payload crc with
  | nil => rw [List.append_nil]; rfl
  | cons value bytes ih =>
      have here : receive ⟨2, payload, crc⟩ (.byte value) =
          ⟨2, payload ++ [value], updateCrc crc value⟩ := by
        unfold receive
        dsimp only
        rw [if_neg (data value mem_cons_self)]
        rfl
      have later := ih (payload ++ [value]) (updateCrc crc value)
        fun other member => data other (mem_cons_of_mem _ member)
      rw [List.append_assoc, ← here] at later
      exact later

theorem synced_checked {first : SbByte}
    (data : ∀ value ∈ first :: bytes, value ≠ 0xFE) (noLt : first &&& 0xC0 ≠ 0x80) :
    synced.receiveAll ((first :: bytes).map .byte) =
      ⟨2, first :: bytes, (first :: bytes).foldl updateCrc 0xFFFF⟩ := by
  have here : synced.receive (.byte first) = ⟨2, [first], updateCrc 0xFFFF first⟩ := by
    have one : synced.state = 1 := rfl
    unfold receive
    dsimp only
    rw [if_neg (data first mem_cons_self), if_pos one, if_neg noLt]
    rfl
  have later := receiveAll_checked [first] (updateCrc 0xFFFF first) fun other member =>
    data other (mem_cons_of_mem _ member)
  rw [← here] at later
  exact later

structure CameAs (p : SbPacket) (symbols : List SbSymbol) (front : List SbSymbol)
    (bytes : List SbByte) (back : List SbSymbol) : Prop where
  split : symbols = front ++ .byte 0xFE :: bytes.map .byte ++ back
  data : ∀ value ∈ bytes, value ≠ 0xFE
  payload : p.payload = bytes
  state : back = [] ∧ p.Collects ∨ p.state = 0

theorem receive_idle (idle : p.state = 0) {value : SbByte} (data : value ≠ 0xFE) :
    p.receive (.byte value) = p := by
  unfold SbPacket.receive
  dsimp only
  rw [if_neg data, idle]
  rfl

theorem payload_cameAs (symbols : List SbSymbol) :
    ((fresh.receiveAll symbols).state = 0 ∧ (fresh.receiveAll symbols).payload = []) ∨
      ∃ front bytes back, CameAs (fresh.receiveAll symbols) symbols front bytes back := by
  have synced (front : List SbSymbol) : CameAs synced (front ++ [SbSymbol.byte 0xFE]) front [] [] :=
    ⟨by rw [List.append_nil]; rfl, fun _ member => absurd member not_mem_nil, rfl,
      Or.inl ⟨rfl, Or.inl rfl⟩⟩
  induction symbols using reverseRecOn with
  | nil => exact Or.inl ⟨rfl, rfl⟩
  | append_singleton symbols symbol ih =>
      rw [receiveAll_append]
      change _ ∨ ∃ front bytes back,
        CameAs ((fresh.receiveAll symbols).receive symbol) (symbols ++ [symbol]) front bytes back
      change (((fresh.receiveAll symbols).receive symbol).state = 0 ∧
        ((fresh.receiveAll symbols).receive symbol).payload = []) ∨ _
      generalize fresh.receiveAll symbols = p at *
      cases symbol with
      | gap =>
          rcases ih with ⟨-, empty⟩ | ⟨front, bytes, back, split, data, payload, -⟩
          · exact Or.inl ⟨rfl, empty⟩
          · refine Or.inr ⟨front, bytes, back ++ [SbSymbol.gap], ?_, data, payload, Or.inr rfl⟩
            rw [split, List.append_assoc]
      | byte value =>
          by_cases sync : value = 0xFE
          · subst sync
            exact Or.inr ⟨symbols, [], [], synced symbols⟩
          · rcases ih with ⟨idle, empty⟩ |
              ⟨front, bytes, back, split, data, payload, ⟨rfl, collects⟩ | idle⟩
            · rw [receive_idle idle sync]
              exact Or.inl ⟨idle, empty⟩
            · obtain ⟨next, grown⟩ := collects.receive sync
              refine Or.inr ⟨front, bytes ++ [value], [], ?_, fun other member => ?_,
                grown.trans (by rw [payload]), Or.inl ⟨rfl, next⟩⟩
              · rw [split]
                simp
              · rcases mem_append.mp member with before | last
                · exact data other before
                · rw [mem_singleton.mp last]
                  exact sync
            · rw [receive_idle idle sync]
              refine Or.inr
                ⟨front, bytes, back ++ [SbSymbol.byte value], ?_, data, payload, Or.inr idle⟩
              rw [split, List.append_assoc]

end SbPacket

/-- No sync byte is followed by more than 256 other bytes, without a pause between them. -/
def NoLongPacket (symbols : List SbSymbol) : Prop :=
  ∀ (front : List SbSymbol) (bytes : List SbByte) (back : List SbSymbol),
    symbols = front ++ .byte 0xFE :: bytes.map .byte ++ back →
      (∀ value ∈ bytes, value ≠ 0xFE) → bytes.length ≤ 256

theorem SbPacket.fits_iff (symbols : List SbSymbol) : (∀ front back, symbols = front ++ back →
      (SbPacket.fresh.receiveAll front).payload.length ≤ 256) ↔ NoLongPacket symbols := by
  constructor
  · intro fits front bytes back split data
    have here := fits _ back split
    have started : (SbPacket.fresh.receiveAll (front ++ [SbSymbol.byte 0xFE])) = synced := by
      rw [receiveAll_append]
      rfl
    have behind : front ++ SbSymbol.byte 0xFE :: bytes.map .byte =
        (front ++ [SbSymbol.byte 0xFE]) ++ bytes.map .byte := by
      rw [List.append_assoc]
      rfl
    have begins : synced.Collects := Or.inl rfl
    have collected := begins.receiveAll data
    rw [behind, receiveAll_append, started, collected.2] at here
    exact here
  · intro short front back split
    rcases payload_cameAs front with ⟨-, empty⟩ | ⟨before, bytes, rest, came, data, payload, -⟩
    · rw [empty]
      exact Nat.zero_le _
    · rw [payload]
      apply short before bytes (rest ++ back) _ data
      rw [split, came, List.append_assoc]

namespace SbChannelState

section Timing

variable (D : Type) [CDouble D]

theorem symbols_ends {s : SbChannelState} {edges : List SbEdge} {front back : List SbSymbol}
    {symbol : SbSymbol} (split : s.symbols D edges = front ++ symbol :: back) :
    ∃ first edge rest, edges = first ++ edge :: rest ∧ s.symbols D first = front ∧
      (s.behind D first).symbolAt D edge = some symbol := by
  induction edges generalizing s front with
  | nil => exact absurd split.symm (append_ne_nil_of_right_ne_nil _ (cons_ne_nil _ _))
  | cons edge edges ih =>
      rw [symbols] at split
      cases here : s.symbolAt D edge with
      | none =>
          rw [here] at split
          obtain ⟨first, last, rest, same, symbols, ends⟩ := ih split
          refine ⟨edge :: first, last, rest, congrArg (edge :: ·) same, ?_, ends⟩
          rw [SbChannelState.symbols, here, symbols]
          rfl
      | some ended =>
          rw [here] at split
          cases front with
          | nil =>
              obtain ⟨rfl, -⟩ := List.cons.inj split
              exact ⟨[], edge, edges, rfl, rfl, here⟩
          | cons other front =>
              obtain ⟨rfl, later⟩ := List.cons.inj split
              obtain ⟨first, last, rest, same, symbols, ends⟩ := ih later
              refine ⟨edge :: first, last, rest, congrArg (edge :: ·) same, ?_, ends⟩
              rw [SbChannelState.symbols, here, symbols]
              rfl

theorem symbols_split {s : SbChannelState} {edges : List SbEdge} {front back : List SbSymbol}
    (split : s.symbols D edges = front ++ back) :
    ∃ first rest, edges = first ++ rest ∧ s.symbols D first = front := by
  cases back with
  | nil => exact ⟨edges, [], (List.append_nil _).symm, split.trans (List.append_nil _)⟩
  | cons symbol back =>
      obtain ⟨first, edge, rest, same, symbols, -⟩ := symbols_ends D split
      exact ⟨first, edge :: rest, same, symbols⟩

end Timing

end SbChannelState

end SigrokDecode
