import SigrokDecode.Decoders.ArmTpiu
import SigrokDecode.Foundation.BitFields

/-!
# Frames of a trace port

Between two frames the decoder has the stream that the formatter is at.  A byte at an even
position is never 0xFF, and so no window of four bytes looks like a sync packet before the
packet is complete.
-/

namespace SigrokDecode

open Foundation List

/-- Two bytes of a frame.  The stream can change in front of the data byte or behind it. -/
inductive TpiuSlot
  | data (even odd : BitVec 8)
  | now (stream : Fin 127) (odd : BitVec 8)
  | later (stream : Fin 127) (odd : BitVec 8)

namespace TpiuSlot

def streamByte (stream : Fin 127) : BitVec 8 :=
  BitVec.ofNat 8 (2 * stream.val + 1)

def evenByte : TpiuSlot → BitVec 8
  | data even _ => even &&& 0xFE
  | now stream _ => streamByte stream
  | later stream _ => streamByte stream

def oddByte : TpiuSlot → BitVec 8
  | data _ odd => odd
  | now _ odd => odd
  | later _ odd => odd

def lowBit : TpiuSlot → Bool
  | data even _ => even.getLsbD 0
  | now _ _ => false
  | later _ _ => true

def evenItems (stream : Nat) : TpiuSlot → List (Nat × BitVec 8)
  | data even _ => [(stream, even)]
  | now _ _ => []
  | later _ _ => []

def oddStream (stream : Nat) : TpiuSlot → Nat
  | data _ _ => stream
  | now next _ => next
  | later _ _ => stream

def nextStream (stream : Nat) : TpiuSlot → Nat
  | data _ _ => stream
  | now next _ => next
  | later next _ => next

def items (stream : Nat) (slot : TpiuSlot) : List (Nat × BitVec 8) :=
  slot.evenItems stream ++ [(slot.oddStream stream, slot.oddByte)]

end TpiuSlot

/-- Seven slots, and one whose odd byte has the low bits instead of data. -/
structure TpiuFrame where
  slots : List TpiuSlot
  last : TpiuSlot
  seven : slots.length = 7

/-- What is sent. -/
inductive TpiuPacket
  | frame (frame : TpiuFrame)
  | sync

namespace TpiuFrame

def slotItems : Nat → List TpiuSlot → List (Nat × BitVec 8)
  | _, [] => []
  | stream, slot :: slots => slot.items stream ++ slotItems (slot.nextStream stream) slots

def slotStream (stream : Nat) (slots : List TpiuSlot) : Nat :=
  slots.foldl TpiuSlot.nextStream stream

def items (stream : Nat) (frame : TpiuFrame) : List (Nat × BitVec 8) :=
  slotItems stream frame.slots ++ frame.last.evenItems (slotStream stream frame.slots)

def nextStream (stream : Nat) (frame : TpiuFrame) : Nat :=
  frame.last.nextStream (slotStream stream frame.slots)

def lowBits (frame : TpiuFrame) : BitVec 8 :=
  BitVec.ofNat 8 (packLsb (frame.slots.map TpiuSlot.lowBit ++ [frame.last.lowBit]))

def bytes (frame : TpiuFrame) : List (BitVec 8) :=
  (frame.slots.flatMap fun slot => [slot.evenByte, slot.oddByte]) ++
    [frame.last.evenByte, frame.lowBits]

end TpiuFrame

namespace TpiuPacket

def bytes : TpiuPacket → List (BitVec 8)
  | .frame contents => contents.bytes
  | .sync => TpiuState.syncPattern

/-- The items of packets behind which the formatter is at `stream`. -/
def items : Nat → List TpiuPacket → List (Nat × BitVec 8)
  | _, [] => []
  | stream, .frame contents :: packets =>
      contents.items stream ++ items (contents.nextStream stream) packets
  | stream, .sync :: packets => items stream packets

end TpiuPacket

namespace TpiuState

variable (config : TpiuConfig)

def dataBytes (s : TpiuState) : List (BitVec 8) :=
  s.protos.map TpiuByte.byte

variable {s : TpiuState} {inputs : List TpiuByte}

def Prompt (prevSample : BitVec 64) (input : TpiuByte) : Prop :=
  ¬input.es - input.ss < input.ss - prevSample

/-- No long pause behind `prevSample`. -/
def NoPause : BitVec 64 → List TpiuByte → Prop
  | _, [] => True
  | prevSample, input :: inputs => Prompt prevSample input ∧ NoPause input.es inputs

def Unpaused : List TpiuByte → Prop
  | [] => True
  | input :: inputs => NoPause input.es inputs

/-- The byte `back` places in front of the last one is not 0xFF. -/
def Clear (back : Nat) (syncbuf : List (BitVec 8)) : Prop :=
  syncbuf.reverse[back]? ≠ some 0xFF

/-- The decoder inside a frame: `before` is its state in front of the frame. -/
structure Inside (before s : TpiuState) (inputs : List TpiuByte) : Prop where
  frame : s.frame = inputs
  stream : s.stream = before.stream
  data : s.dataBytes = before.dataBytes
  short : s.syncbuf.length ≤ 4
  synced : config.syncOffset ≤ s.bytenum + 1

def received (s : TpiuState) (input : TpiuByte) : TpiuState :=
  (s.storeByte input).pushSync input.byte

variable {before : TpiuState} {input : TpiuByte}

def Paced (s : TpiuState) (done inputs : List TpiuByte) : Prop :=
  (done = [] ∧ Unpaused inputs) ∨ NoPause s.prevSample inputs

theorem Paced.first {done inputs : List TpiuByte} (paced : Paced s done (input :: inputs)) :
    (done = [] ∨ Prompt s.prevSample input) ∧ NoPause input.es inputs := by
  rcases paced with ⟨empty, unpaused⟩ | noPause
  · exact ⟨Or.inl empty, unpaused⟩
  · exact ⟨Or.inr noPause.1, noPause.2⟩

/-- The decoder between two packets. -/
structure Between (s : TpiuState) : Prop where
  frame : s.frame = []
  short : s.syncbuf.length ≤ 4
  clear : Clear 1 s.syncbuf
  synced : config.syncOffset ≤ s.bytenum + 1

theorem Between.inside (between : Between config s) : Inside config s s [] :=
  { between with stream := rfl, data := rfl }

theorem Unpaused.append {front back : List TpiuByte} (unpaused : Unpaused (front ++ back)) :
    Unpaused front ∧ Unpaused back := by
  have noPause : ∀ (front : List TpiuByte) prevSample, NoPause prevSample (front ++ back) →
      NoPause prevSample front ∧ Unpaused back := by
    intro front
    induction front with
    | nil =>
        intro prevSample noPause
        cases back with
        | nil => exact ⟨trivial, trivial⟩
        | cons input back => exact ⟨trivial, noPause.2⟩
    | cons input front ih =>
        intro prevSample noPause
        obtain ⟨behind, rest⟩ := ih _ noPause.2
        exact ⟨⟨noPause.1, behind⟩, rest⟩
  cases front with
  | nil => exact ⟨trivial, unpaused⟩
  | cons input front => exact noPause front input.es unpaused

end TpiuState

end SigrokDecode
