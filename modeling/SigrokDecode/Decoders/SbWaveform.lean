import Mathlib.Tactic.NormNum
import SigrokDecode.Decoders.DpAuxRecovery
import SigrokDecode.Decoders.SbPackets

/-!
# Waveforms of the Thunderbolt sideband channel

Four samples are a unit interval: a zero is one pulse of four samples, and a one two pulses of two
samples.  Every list of bytes is read from its waveform.
-/

namespace SigrokDecode

open Foundation List

def sbBitWidths (bit : Bool) : List Nat :=
  if bit then [2, 2] else [4]

def sbByteWidths (byte : SbByte) : List Nat :=
  (lsbBits 8 byte.toNat).flatMap sbBitWidths

/-- The edges of pulses of these widths behind `samplenum`. -/
def sbPulseEdges : Nat → Bool → List Nat → List SbEdge
  | _, _, [] => []
  | samplenum, level, width :: widths =>
      ⟨samplenum + width, !level⟩ :: sbPulseEdges (samplenum + width) (!level) widths

def sbEdges (bytes : List SbByte) : List SbEdge :=
  ⟨8, true⟩ :: sbPulseEdges 8 true (bytes.flatMap sbByteWidths)

theorem sbPulseEdges_append (samplenum : Nat) (level : Bool) (front back : List Nat) :
    ∃ later, sbPulseEdges samplenum level (front ++ back) =
      sbPulseEdges samplenum level front ++ sbPulseEdges (samplenum + front.sum) later back := by
  induction front generalizing samplenum level with
  | nil => exact ⟨level, rfl⟩
  | cons width front ih =>
      obtain ⟨later, same⟩ := ih (samplenum + width) (!level)
      refine ⟨later, ?_⟩
      rw [cons_append, sbPulseEdges, same, sum_cons, ← Nat.add_assoc]
      rfl

namespace SbChannelState

theorem shiftBit_toNat {shiftReg : BitVec 32} (small : shiftReg.toNat < 256) (bit : Bool) :
    (shiftBit shiftReg bit).toNat = shiftReg.toNat / 2 + 128 * bit.toNat := by
  have low : shiftReg.toNat / 2 < 2 ^ 7 := by omega
  have joined := Nat.two_pow_add_eq_or_of_lt low 1
  unfold shiftBit
  rw [BitVec.toNat_or, BitVec.toNat_ushiftRight, Nat.shiftRight_eq_div_pow, Nat.pow_one]
  cases bit with
  | false => exact Nat.or_zero _
  | true =>
      change shiftReg.toNat / 2 ||| 128 = _
      rw [Nat.or_comm]
      exact joined.symm.trans (Nat.add_comm _ _)

/-- What a byte has so far. -/
structure Pending (s : SbChannelState) (bits : List Bool) : Prop where
  samplerate : s.samplerate = 4000000
  count : s.bitCount = bits.length
  room : bits.length < 8
  small : s.shiftReg.toNat < 256
  pending : s.shiftReg.toNat / 2 ^ (8 - bits.length) = packLsb bits

/-- Between two bits of the waveform. -/
structure Reads (s : SbChannelState) (bits : List Bool) (samplenum : Nat) : Prop
    extends Pending s bits where
  lastEdge : s.lastEdge = samplenum
  started : samplenum ≠ 0
  whole : s.isHalfBit = false

def nextBits (bits : List Bool) (bit : Bool) : List Bool :=
  if bits.length = 7 then [] else bits ++ [bit]

theorem receiveByte_line (s : SbChannelState) (byte : SbByte) (samplenum : Nat) :
    (s.receiveByte byte samplenum).1.isHalfBit = s.isHalfBit ∧
      (s.receiveByte byte samplenum).1.shiftReg = s.shiftReg ∧
      (s.receiveByte byte samplenum).1.samplerate = s.samplerate := by
  unfold receiveByte
  split_ifs
  all_goals exact ⟨rfl, rfl, rfl⟩

variable {s : SbChannelState} {samplenum : Nat}

theorem Pending.shifted {bits : List Bool} (pending : Pending s bits)
    (bit : Bool) : (shiftBit s.shiftReg bit).toNat < 256 ∧
      (shiftBit s.shiftReg bit).toNat / 2 ^ (7 - bits.length) = packLsb (bits ++ [bit]) := by
  obtain ⟨-, -, room, small, value⟩ := pending
  have digit : bit.toNat ≤ 1 := Bool.toNat_le bit
  rw [shiftBit_toNat small]
  refine ⟨by omega, ?_⟩
  obtain ⟨left, total⟩ : ∃ left, bits.length + left = 7 := ⟨7 - bits.length, by omega⟩
  have places : 7 - bits.length = left := by omega
  have more : 8 - bits.length = left + 1 := by omega
  have power : 128 = 2 ^ left * 2 ^ bits.length := by rw [← Nat.pow_add, Nat.add_comm, total]
  rw [more, Nat.pow_succ, Nat.mul_comm, ← Nat.div_div_eq_div_mul] at value
  rw [places, packLsb_concat, ← value, power, Nat.mul_assoc,
    Nat.add_mul_div_left _ _ (Nat.two_pow_pos left)]

theorem Pending.completedByte {bits : List Bool} (pending : Pending s bits)
    (bit : Bool) : s.completedByte bit =
      if bits.length = 7 then some (.byte (byteOf (bits ++ [bit]))) else none := by
  unfold SbChannelState.completedByte
  rw [pending.count]
  by_cases last : bits.length = 7
  · obtain ⟨small, value⟩ := pending.shifted bit
    rw [if_pos last, if_pos last]
    rw [last, Nat.sub_self, Nat.pow_zero, Nat.div_one] at value
    refine congrArg (fun byte => some (SbSymbol.byte byte)) (BitVec.eq_of_toNat_eq ?_)
    rw [BitVec.toNat_setWidth, byteOf_toNat (by rw [length_append, last]; rfl), ← value,
      Nat.mod_eq_of_lt small]
  · rw [if_neg last, if_neg last]

theorem Pending.completeBit {bits : List Bool} (pending : Pending s bits)
    (bit : Bool) (samplenum : Nat) :
    Pending (s.completeBit bit samplenum).1 (nextBits bits bit) ∧
      (s.completeBit bit samplenum).1.isHalfBit = s.isHalfBit := by
  obtain ⟨small, value⟩ := pending.shifted bit
  unfold SbChannelState.completeBit nextBits
  dsimp only
  by_cases last : bits.length = 7
  · rw [if_pos (by rw [pending.count, last]), if_pos last]
    obtain ⟨whole, shiftReg, samplerate⟩ := receiveByte_line
      { s with
        bitStartEdge := if s.bitCount = 0 then s.lastEdge else s.bitStartEdge
        shiftReg := shiftBit s.shiftReg bit
        bitCount := s.bitCount + 1 } ((shiftBit s.shiftReg bit).setWidth 8) samplenum
    refine ⟨⟨samplerate.trans pending.samplerate, rfl, by decide, ?_, ?_⟩, whole⟩
    · dsimp only
      rw [shiftReg]
      exact small
    · dsimp only
      rw [shiftReg]
      exact Nat.div_eq_of_lt small
  · have length : (bits ++ [bit]).length = bits.length + 1 := length_append
    rw [if_neg fun eight => last (pending.count.symm.trans (Nat.succ.inj eight)), if_neg last]
    refine ⟨⟨pending.samplerate, ?_, ?_, small, ?_⟩, rfl⟩
    · exact (congrArg (· + 1) pending.count).trans length.symm
    · have room := pending.room
      omega
    · have places : 8 - (bits ++ [bit]).length = 7 - bits.length := by omega
      rw [places]
      exact value

theorem diffUi_width (samplerate : s.samplerate = 4000000)
    (lastEdge : s.lastEdge = samplenum) {width : Nat} (short : width < 2 ^ 64) :
    s.diffUi ℚ (samplenum + width) = width / 4 := by
  have delta : subU64 (samplenum + width) samplenum = width := by
    unfold subU64
    omega
  unfold diffUi
  rw [samplerate, lastEdge, delta]
  norm_num

section Widths

variable {s : SbChannelState} {samplenum : Nat} (samplerate : s.samplerate = 4000000)
  (lastEdge : s.lastEdge = samplenum)

include samplerate lastEdge

theorem half_width : s.isGap ℚ (samplenum + 2) = false ∧ s.isHalf ℚ (samplenum + 2) = true := by
  unfold isGap isHalf
  rw [diffUi_width samplerate lastEdge (by decide)]
  refine ⟨decide_eq_false ?_, Bool.and_eq_true_iff.mpr ⟨decide_eq_true ?_, decide_eq_true ?_⟩⟩
  all_goals norm_num

theorem full_width : s.isGap ℚ (samplenum + 4) = false ∧ s.isHalf ℚ (samplenum + 4) = false ∧
    s.isFull ℚ (samplenum + 4) = true := by
  unfold isGap isHalf isFull
  rw [diffUi_width samplerate lastEdge (by decide)]
  refine ⟨decide_eq_false ?_, Bool.and_eq_false_iff.mpr (Or.inr (decide_eq_false ?_)),
    Bool.and_eq_true_iff.mpr ⟨decide_eq_true ?_, decide_eq_true ?_⟩⟩
  all_goals norm_num

end Widths

theorem step_eq {D : Type} [CDouble D] {edge : SbEdge}
    (running : s.lastEdge ≠ 0) (noGap : s.isGap D edge.samplenum = false) :
    (s.step D edge).1 =
      { (({ s with currPin := edge.pin } : SbChannelState).takeEdge (s.isHalf D edge.samplenum)
          (s.isFull D edge.samplenum) edge.samplenum).1 with
        lastEdge := edge.samplenum
        prevPin := edge.pin } := by
  have gap : ({ s with currPin := edge.pin } : SbChannelState).isGap D edge.samplenum = false :=
    noGap
  unfold step
  dsimp only
  rw [if_neg running, gap]
  rfl

theorem Pending.withPin {bits : List Bool} (pending : Pending s bits)
    (pin : Bool) : Pending { s with currPin := pin } bits :=
  { pending with }

theorem Reads.completed {bits : List Bool} (pending : Pending s bits)
    (whole : s.isHalfBit = false) (bit : Bool) (started : samplenum ≠ 0)
    (level : Bool) :
    Reads
      { (({ s with currPin := level } : SbChannelState).completeBit bit samplenum).1 with
        lastEdge := samplenum
        prevPin := level } (nextBits bits bit) samplenum := by
  obtain ⟨next, same⟩ := (pending.withPin level).completeBit bit samplenum
  exact ⟨{ next with }, rfl, started,
    same.trans whole⟩

theorem Reads.zero {bits : List Bool} (reads : Reads s bits samplenum) (level : Bool) :
    s.symbols ℚ [⟨samplenum + 4, level⟩] = (s.completedByte false).toList ∧
      Reads (s.behind ℚ [⟨samplenum + 4, level⟩]) (nextBits bits false) (samplenum + 4) := by
  obtain ⟨pending, lastEdge, started, whole⟩ := reads
  obtain ⟨noGap, notHalf, full⟩ := full_width pending.samplerate lastEdge
  have running : s.lastEdge ≠ 0 := lastEdge ▸ started
  constructor
  · unfold SbChannelState.symbols SbChannelState.symbols symbolAt
    rw [if_neg running, noGap, if_neg Bool.false_ne_true, notHalf, if_neg Bool.false_ne_true, full,
      if_pos rfl, whole, if_neg Bool.false_ne_true]
    exact List.append_nil _
  · unfold SbChannelState.behind SbChannelState.behind
    rw [@step_eq s ℚ _ ⟨samplenum + 4, level⟩ running noGap, notHalf, full]
    unfold takeEdge
    dsimp only
    rw [if_neg Bool.false_ne_true, if_pos rfl, if_neg (Bool.not_eq_true _ ▸ whole)]
    exact Reads.completed pending whole false (Nat.succ_ne_zero _) level

theorem Reads.one {bits : List Bool} (reads : Reads s bits samplenum) (level next : Bool) :
    s.symbols ℚ [⟨samplenum + 2, level⟩, ⟨samplenum + 2 + 2, next⟩] =
        (s.completedByte true).toList ∧
      Reads (s.behind ℚ [⟨samplenum + 2, level⟩, ⟨samplenum + 2 + 2, next⟩])
        (nextBits bits true) (samplenum + 2 + 2) := by
  obtain ⟨pending, lastEdge, started, whole⟩ := reads
  obtain ⟨noGap, half⟩ := half_width pending.samplerate lastEdge
  have running : s.lastEdge ≠ 0 := lastEdge ▸ started
  have first : (s.step ℚ ⟨samplenum + 2, level⟩).1 =
      { s with
        currPin := level
        isHalfBit := true
        lastEdge := samplenum + 2
        prevPin := level } := by
    rw [@step_eq s ℚ _ ⟨samplenum + 2, level⟩ running noGap, half]
    unfold takeEdge
    dsimp only
    rw [if_pos rfl, whole, if_neg Bool.false_ne_true]
  have silent : s.symbolAt ℚ ⟨samplenum + 2, level⟩ = none := by
    unfold symbolAt
    rw [if_neg running, noGap, if_neg Bool.false_ne_true, half, if_pos rfl, whole,
      if_neg Bool.false_ne_true]
  have again : SbChannelState.lastEdge
      { s with
        currPin := level
        isHalfBit := true
        lastEdge := samplenum + 2
        prevPin := level } = samplenum + 2 := rfl
  obtain ⟨noGap, half⟩ := half_width
    (s := { s with
      currPin := level
      isHalfBit := true
      lastEdge := samplenum + 2
      prevPin := level }) pending.samplerate again
  constructor
  · unfold SbChannelState.symbols SbChannelState.symbols SbChannelState.symbols
    rw [silent, first]
    unfold symbolAt
    rw [if_neg (by exact Nat.succ_ne_zero _), noGap, if_neg Bool.false_ne_true, half, if_pos rfl,
      if_pos rfl]
    exact List.append_nil _
  · unfold SbChannelState.behind SbChannelState.behind SbChannelState.behind
    rw [first, @step_eq _ ℚ _ ⟨samplenum + 2 + 2, next⟩ (Nat.succ_ne_zero _) noGap, half]
    unfold takeEdge
    dsimp only
    rw [if_pos rfl, if_pos rfl]
    have unchanged : Pending
        { s with
          currPin := level
          isHalfBit := false
          lastEdge := samplenum + 2
          prevPin := level } bits :=
      { pending with }
    exact Reads.completed unchanged rfl true (Nat.succ_ne_zero _) next

theorem Reads.bit {bits : List Bool} (reads : Reads s bits samplenum) (level bit : Bool) :
    s.symbols ℚ (sbPulseEdges samplenum level (sbBitWidths bit)) = (s.completedByte bit).toList ∧
      Reads (s.behind ℚ (sbPulseEdges samplenum level (sbBitWidths bit))) (nextBits bits bit)
        (samplenum + (sbBitWidths bit).sum) := by
  cases bit with
  | false => exact reads.zero (!level)
  | true => exact reads.one (!level) (!!level)

theorem Reads.bits {front : List Bool}
    (reads : Reads s front samplenum) {back : List Bool} (more : back ≠ [])
    (total : front.length + back.length = 8) (level : Bool) :
    s.symbols ℚ (sbPulseEdges samplenum level (back.flatMap sbBitWidths)) =
        [.byte (byteOf (front ++ back))] ∧
      Reads (s.behind ℚ (sbPulseEdges samplenum level (back.flatMap sbBitWidths))) []
        (samplenum + (back.flatMap sbBitWidths).sum) := by
  induction back generalizing s front samplenum level with
  | nil => exact absurd rfl more
  | cons bit back ih =>
      obtain ⟨symbols, next⟩ := reads.bit level bit
      rw [reads.toPending.completedByte] at symbols
      obtain ⟨later, split⟩ :=
        sbPulseEdges_append samplenum level (sbBitWidths bit) (back.flatMap sbBitWidths)
      rw [flatMap_cons, split, symbols_append, behind_append, symbols, sum_append, ← Nat.add_assoc]
      rw [length_cons] at total
      unfold nextBits at next
      cases back with
      | nil =>
          have last : front.length = 7 := Nat.succ.inj total
          rw [if_pos last] at next ⊢
          exact ⟨rfl, next⟩
      | cons second back =>
          have early : front.length ≠ 7 := by
            rw [length_cons] at total
            omega
          have length : (front ++ [bit]).length = front.length + 1 := length_append
          rw [if_neg early] at next ⊢
          obtain ⟨rest, finished⟩ :=
            ih next (cons_ne_nil _ _) (by omega) later
          rw [List.append_assoc] at rest
          exact ⟨rest, finished⟩

theorem Reads.byte (reads : Reads s [] samplenum) (byte : SbByte) (level : Bool) :
    s.symbols ℚ (sbPulseEdges samplenum level (sbByteWidths byte)) = [.byte byte] ∧
      Reads (s.behind ℚ (sbPulseEdges samplenum level (sbByteWidths byte))) []
        (samplenum + (sbByteWidths byte).sum) := by
  have whole : (lsbBits 8 byte.toNat).length = 8 := length_lsbBits 8 _
  have some : lsbBits 8 byte.toNat ≠ [] := cons_ne_nil _ _
  obtain ⟨symbols, next⟩ := reads.bits some (by rw [whole]; rfl) level
  rw [nil_append, byteOf_lsbBits] at symbols
  exact ⟨symbols, next⟩

theorem Reads.bytes (reads : Reads s [] samplenum) (bytes : List SbByte) (level : Bool) :
    s.symbols ℚ (sbPulseEdges samplenum level (bytes.flatMap sbByteWidths)) =
      bytes.map .byte := by
  induction bytes generalizing s samplenum level with
  | nil => rfl
  | cons byte bytes ih =>
      obtain ⟨symbols, next⟩ := reads.byte byte level
      obtain ⟨later, split⟩ :=
        sbPulseEdges_append samplenum level (sbByteWidths byte) (bytes.flatMap sbByteWidths)
      rw [flatMap_cons, split, symbols_append, symbols, ih next]
      rfl

theorem sbEdges_symbols (bytes : List SbByte) :
    (sbChannelStart 4000000 false).symbols ℚ (sbEdges bytes) = bytes.map .byte := by
  have begun : Reads ((sbChannelStart 4000000 false).step ℚ ⟨8, true⟩).1 [] 8 :=
    ⟨⟨rfl, rfl, by decide, by decide, rfl⟩, rfl, by decide, rfl⟩
  have silent : (sbChannelStart 4000000 false).symbolAt ℚ ⟨8, true⟩ = none := rfl
  unfold sbEdges symbols
  rw [silent]
  exact begun.bytes bytes true

end SbChannelState

end SigrokDecode
