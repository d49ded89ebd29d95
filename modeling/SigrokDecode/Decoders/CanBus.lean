import SigrokDecode.Decoders.CanDecoding

/-!
# Bits on a CAN bus

What both decoders keep about the bits that have come in, whatever they make of
them.
-/

namespace SigrokDecode

open Foundation List

namespace CanState

/-- The decoder has read `k` bits of a frame; `read` are the bits on the bus, with
the stuff bits marked. -/
structure Reading (plain : List Bool) (first : CanState) (k : Nat)
    (read : List ((Bool × Nat) × Bool)) (s : CanState) : Prop where
  bits : s.bits = plain.take k
  rawbits : s.rawbits = read.map fun input => input.1.1
  packets : s.packets = first.packets
  rawBits : s.rawBits = first.rawBits ++ read.map showBit
  ssPacket : ∀ head ∈ read.head?, s.ssPacket = head.1.2
  begun : k = 0 ↔ read = []

section Reading

variable {plain : List Bool} {first s t : CanState} {k : Nat}
  {read : List ((Bool × Nat) × Bool)} {bit : Bool} {samplenum : Nat}

theorem Reading.begin (begun : s.bits = [] ∧ s.rawbits = [])
    (packets : s.packets = first.packets) (rawBits : s.rawBits = first.rawBits) :
    Reading plain first 0 [] s :=
  ⟨begun.1, begun.2, packets, rawBits.trans (List.append_nil _).symm, by simp, by simp⟩

section

variable (reading : Reading plain first k read s)
include reading

theorem Reading.pushed (bit : Bool) {room : Nat} (raw : read.length < room) (inner : k < room) :
    s.push bit room =
      { s with rawbits := s.rawbits ++ [bit], bits := s.bits ++ [bit] } := by
  refine push_room s bit ?_ ?_
  · rw [reading.rawbits, length_map]
    exact raw
  · rw [reading.bits, length_take]
    omega

theorem Reading.bits_concat
    (here : plain[k]? = some bit) : s.bits ++ [bit] = plain.take (k + 1) := by
  rw [reading.bits, take_add_one, here]
  rfl

theorem Reading.plainBit
    (bits : t.bits = plain.take (k + 1)) (rawbits : t.rawbits = s.rawbits ++ [bit])
    (packets : t.packets = s.packets)
    (rawBits : t.rawBits = s.rawBits ++ [CanAnn.mk samplenum samplenum (.bit bit)])
    (ssPacket : t.ssPacket = if k = 0 then samplenum else s.ssPacket) :
    Reading plain first (k + 1) (read ++ [((bit, samplenum), false)]) t := by
  refine ⟨bits, ?_, packets.trans reading.packets, ?_, ?_, by simp⟩
  · rw [rawbits, reading.rawbits, map_append]
    rfl
  · rw [rawBits, map_append, ← List.append_assoc, ← reading.rawBits]
    rfl
  · intro head begins
    rw [ssPacket]
    by_cases empty : k = 0
    · have none := reading.begun.mp empty
      subst none
      simp at begins
      simp [empty, ← begins]
    · rw [if_neg empty]
      refine reading.ssPacket head ?_
      cases read with
      | nil => exact absurd (reading.begun.mpr rfl) empty
      | cons input read => simpa using begins

theorem Reading.extraBit (some : k ≠ 0)
    (bits : t.bits = s.bits) (rawbits : t.rawbits = s.rawbits ++ [bit])
    (packets : t.packets = s.packets)
    (rawBits : t.rawBits = s.rawBits ++ [CanAnn.mk samplenum samplenum (.stuffBit bit)])
    (ssPacket : t.ssPacket = s.ssPacket) :
    Reading plain first k (read ++ [((bit, samplenum), true)]) t := by
  refine ⟨bits.trans reading.bits, ?_, packets.trans reading.packets, ?_, ?_, by simp [some]⟩
  · rw [rawbits, reading.rawbits, map_append]
    rfl
  · rw [rawBits, map_append, ← List.append_assoc, ← reading.rawBits]
    rfl
  · intro head begins
    rw [ssPacket]
    refine reading.ssPacket head ?_
    cases read with
    | nil => exact absurd (reading.begun.mpr rfl) some
    | cons input read => simpa using begins

end

theorem Reading.begins (reading : Reading plain first k read s)
    {inputs : List (Bool × Nat)} (reads : read.map Prod.fst = inputs) {begins : Bool × Nat}
    (first : begins ∈ inputs.head?) : s.ssPacket = begins.2 := by
  rw [← reads, head?_map] at first
  obtain ⟨head, opening, rfl⟩ := Option.map_eq_some_iff.mp first
  exact reading.ssPacket head opening

end Reading

/-- The number of bits on the bus behind `k` bits of the frame: four bits of the
frame for one stuff bit. -/
def Spaced (run : BitRun) (k wire : Nat) : Prop :=
  ∃ extra, wire = k + extra ∧ 4 * extra + run.length ≤ k + 1

theorem window_eq {s : CanState} {run : BitRun} (ends : run.EndsWire s.rawbits)
    (short : run.length ≤ 5) (bit : Bool) :
    (match (runRule 5).due run with
      | none => false
      | some extra => extra == bit) = stuffWindow (s.rawbits ++ [bit]) := by
  rw [stuffWindow_concat ends short]
  simp only [runRule]
  by_cases full : run.length = 5
  · rw [if_pos full]
    cases bit with
    | true => cases run.last <;> simp [full]
    | false => cases run.last <;> simp [full]
  · rw [if_neg full]
    simp [full]

theorem Reading.some_of_due {plain : List Bool} {first s : CanState} {k : Nat}
    {read : List ((Bool × Nat) × Bool)} {run : BitRun} {bit : Bool}
    (reading : Reading plain first k read s) (ends : run.EndsWire s.rawbits)
    (due : (runRule 5).due run = some bit) : k ≠ 0 ∧ 5 ≤ s.rawbits.length := by
  have full : run.length = 5 := by
    simp only [runRule] at due
    split at due
    · assumption
    · simp at due
  have raw : 5 ≤ s.rawbits.length := by
    obtain ⟨front, split, _⟩ := ends
    rw [split, length_append, length_replicate]
    omega
  refine ⟨?_, raw⟩
  intro zero
  rw [reading.rawbits, reading.begun.mp zero] at raw
  simp at raw

theorem eofRecessive_concat {t : CanState} {front : List Bool}
    (ending : t.rawbits = front ++ replicate 7 true) : t.eofRecessive = true := by
  have length : t.rawbits.length - 7 = front.length := by simp [ending]
  rw [eofRecessive, length, ending, drop_left]
  simp

end CanState

end SigrokDecode
