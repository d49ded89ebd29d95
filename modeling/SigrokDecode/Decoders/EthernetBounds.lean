import SigrokDecode.Decoders.Udp
import SigrokDecode.Foundation.Runs

/-!
# The arrays of the Ethernet decoder

`buffer`, `frame` and `payload` have 2048 bytes each, and only `blocks` is looked after.
-/

namespace SigrokDecode

open Foundation List

namespace Ethernet

def writeEnds (s : Ethernet) : EthernetSymbol → List Nat
  | .t => [s.frame.length + s.payload.length]
  | .data _ _ _ =>
      let fieldEnds (length : Nat) : List Nat :=
        (s.buffer.length + 1) ::
          (if s.buffer.length + 1 = length then [s.frame.length + length] else [])
      match s.state with
      | .idle => []
      | .waitSfd => [s.buffer.length + 1]
      | .dstMac | .srcMac => fieldEnds 6
      | .ethType => fieldEnds 2
      | .payload => [s.payload.length + 1]
  | _ => []

/-- `buffer_len`, `frame_len` and `payload_len` are in bounds. -/
structure InBounds (s : Ethernet) : Prop where
  buffer : s.buffer.length ≤ 2048
  frame : s.frame.length ≤ 2048
  payload : s.payload.length ≤ 2048

def Contained (s : Ethernet) (symbol : EthernetSymbol) : Prop :=
  s.InBounds ∧ (s.decodeUpper symbol).InBounds ∧ ∀ stop ∈ s.writeEnds symbol, stop ≤ 2048

/-- There is room for the symbol: for the next byte in front of the delimiter, for the whole field
of the header that ends, for the next byte of the payload, or for the payload behind `frame`. -/
def Room (s : Ethernet) : EthernetSymbol → Prop
  | .t => s.frame.length + s.payload.length ≤ 2048
  | .data _ _ _ =>
      match s.state with
      | .idle => True
      | .waitSfd => s.buffer.length < 2048
      | .dstMac | .srcMac => s.buffer.length + 1 = 6 → s.frame.length + 6 ≤ 2048
      | .ethType => s.buffer.length + 1 = 2 → s.frame.length + 2 ≤ 2048
      | .payload => s.payload.length < 2048
  | _ => True

def fieldLength : EthernetState → Option Nat
  | .dstMac | .srcMac => some 6
  | .ethType => some 2
  | _ => none

/-- The arrays are in bounds, and the field of the header that is read is not complete. -/
structure Sound (s : Ethernet) : Prop extends InBounds s where
  pending : ∀ {length}, fieldLength s.state = some length → s.buffer.length < length

theorem sound_start (payloadAddress blocksAddress : Nat) :
    (start payloadAddress blocksAddress).Sound :=
  ⟨⟨Nat.zero_le _, Nat.zero_le _, Nat.zero_le _⟩, nofun⟩

section Step

variable {s : Ethernet}

theorem sound_resetVars (s : Ethernet) : s.resetVars.Sound :=
  ⟨⟨Nat.zero_le _, Nat.zero_le _, Nat.zero_le _⟩, nofun⟩

theorem Sound.headerByte (sound : s.Sound) (byte : UInt8) {length : Nat}
    (out : List UInt8 → EthernetOut) (next : EthernetState)
    (field : fieldLength s.state = some length)
    (room : s.buffer.length + 1 = length → s.frame.length + length ≤ 2048)
    (later : ∀ {length}, fieldLength next = some length → 0 < length) :
    (s.headerByte byte length out next).Sound := by
  have pending := sound.pending field
  have most : length ≤ 6 := by
    unfold fieldLength at field
    split at field <;> cases field <;> decide
  have longer : (s.buffer ++ [byte]).length = s.buffer.length + 1 := by
    rw [length_append, length_singleton]
  rw [Ethernet.headerByte]
  by_cases complete : (s.buffer ++ [byte]).length = length
  · rw [if_pos complete]
    refine ⟨⟨Nat.zero_le _, ?_, sound.payload⟩, later⟩
    show (s.frame ++ (s.buffer ++ [byte])).length ≤ 2048
    rw [length_append, complete]
    exact room (longer.symm.trans complete)
  · rw [if_neg complete]
    rw [longer] at complete
    refine ⟨⟨?_, sound.frame, sound.payload⟩, ?_⟩
    · show (s.buffer ++ [byte]).length ≤ 2048
      omega
    · intro other same
      show (s.buffer ++ [byte]).length < other
      have equal : length = other := Option.some.inj (field.symm.trans same)
      omega

theorem Sound.handleDataByte (sound : s.Sound) (byte : UInt8) (ss es : Nat)
    (room : s.Room (.data byte ss es)) : (s.handleDataByte byte ss es).Sound := by
  have longer : ∀ bytes : List UInt8, bytes.length < 2048 → (bytes ++ [byte]).length ≤ 2048 := by
    intro bytes less
    rw [length_append, length_singleton]
    exact less
  have two : ∀ {length}, fieldLength .ethType = some length → 0 < length := by
    intro length same
    cases same
    decide
  have six : ∀ {length}, fieldLength .srcMac = some length → 0 < length := by
    intro length same
    cases same
    decide
  rw [Room] at room
  rw [Ethernet.handleDataByte]
  cases state : s.state with
  | idle => exact sound
  | waitSfd =>
      rw [state] at room
      dsimp only
      split
      · exact ⟨⟨Nat.zero_le _, sound.frame, sound.payload⟩, six⟩
      · exact ⟨⟨longer _ room, sound.frame, sound.payload⟩, nofun⟩
  | dstMac =>
      rw [state] at room
      exact sound.headerByte byte _ _ (by rw [state]; rfl) room six
  | srcMac =>
      rw [state] at room
      exact sound.headerByte byte _ _ (by rw [state]; rfl) room two
  | ethType =>
      rw [state] at room
      exact sound.headerByte byte _ _ (by rw [state]; rfl) room nofun
  | payload =>
      rw [state] at room
      exact ⟨⟨sound.buffer, sound.frame, longer _ room⟩, nofun⟩

theorem Sound.decodeUpper (sound : s.Sound) {symbol : EthernetSymbol} (room : s.Room symbol) :
    (s.decodeUpper symbol).Sound := by
  cases symbol with
  | j => exact ⟨{ sound with }, sound.pending⟩
  | k =>
      rw [Ethernet.decodeUpper]
      split
      · exact ⟨{ sound with }, nofun⟩
      · exact sound_resetVars s
  | t => exact sound_resetVars _
  | r => exact sound_resetVars s
  | data byte ss es => exact sound.handleDataByte byte ss es room
  | other => exact sound

end Step

end Ethernet

end SigrokDecode
