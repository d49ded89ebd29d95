import SigrokDecode.Decoders.SpdifStartUp
import SigrokDecode.Foundation.BitFields

/-!
# S/PDIF subframes

A one is two short pulses and a zero a longer one.  The lowest bit of an audio sample is sent
first, but the first four bits are taken for the highest ones.
-/

namespace SigrokDecode

open Foundation SpdifState List

def SpdifPreamble.types : SpdifPreamble → List Int
  | .w => [2, 0, 1, 0]
  | .m => [2, 2, 1, 1]
  | .b => [2, 1, 1, 2]
  | .unknown => []

def spdifBitTypes (bit : Bool) : List Int :=
  if bit then [1, 1] else [0]

structure SpdifSubframe where
  preamble : SpdifPreamble
  bits : List Bool
  known : preamble ≠ .unknown
  length_bits : bits.length = 28

namespace SpdifSubframe

variable (frame : SpdifSubframe)

def types : List Int :=
  frame.preamble.types ++ frame.bits.flatMap spdifBitTypes

def summary (audio : Nat) : List SpdifField :=
  [.aux (packMsb (frame.bits.take 4)), .sample (packMsb (frame.bits.take 24)), .audio audio,
    .validity (!frame.bits.getD 24 false), .subcode (frame.bits.getD 25 false),
    .channelStatus (frame.bits.getD 26 false), .parity (frame.bits.getD 27 false)]

def fieldsWith (audio : Nat) : List SpdifField :=
  .preamble frame.preamble :: (frame.bits.map .bit ++ frame.summary audio)

def fields : List SpdifField :=
  frame.fieldsWith (packLsb (frame.bits.take 24))

def Repeats : Prop :=
  (frame.bits.drop 4).take 20 = (List.replicate 5 (frame.bits.take 4)).flatten

/-- The sample that is reported. -/
def swapped : Nat :=
  packLsb (frame.bits.take 4) * 2 ^ 20 + packLsb ((frame.bits.drop 4).take 20)

theorem swapped_eq_iff : frame.swapped = packLsb (frame.bits.take 24) ↔ frame.Repeats := by
  have length := frame.length_bits
  have split : frame.bits.take 24 = frame.bits.take 4 ++ (frame.bits.drop 4).take 20 :=
    take_add (i := 4) (j := 20)
  have four : (frame.bits.take 4).length = 4 := length_take_of_le (by omega)
  have twenty : ((frame.bits.drop 4).take 20).length = 20 :=
    length_take_of_le (by rw [length_drop]; omega)
  rw [swapped, Repeats, split, packLsb_append, four]
  generalize frame.bits.take 4 = aux at four
  generalize (frame.bits.drop 4).take 20 = sample at twenty
  have five : packLsb (replicate 5 aux).flatten = 69905 * packLsb aux := by
    simp only [replicate_succ, replicate_zero, flatten_cons, flatten_nil,
      List.append_nil, packLsb_append, four]
    omega
  constructor
  · intro same
    have value : packLsb sample = packLsb (replicate 5 aux).flatten := by
      rw [five]
      omega
    have whole : (replicate 5 aux).flatten.length = 20 := by simp [four]
    have again := lsbBits_packLsb (replicate 5 aux).flatten
    rw [← value, whole, ← twenty, lsbBits_packLsb] at again
    exact again
  · intro same
    rw [same, five]
    omega

end SpdifSubframe

namespace SpdifState

variable {s u : SpdifState}

def bitType (bit : Bool) : Int :=
  if bit then 1 else 0

/-- These bits of a subframe have been read since `s`. -/
structure Reads (s : SpdifState) (front : List Bool) (u : SpdifState) : Prop where
  range1 : u.range1 = s.range1
  range2 : u.range2 = s.range2
  stream : u.state = .decodeStream
  seen : u.seenPreamble = true
  firstOne : u.firstOne = true
  bitcount : u.bitcount = front.length
  size : u.subframe.length = 28
  types : (u.subframe.take front.length).map SpdifEntry.pulseType = front.map bitType
  fields : u.anns.map SpdifAnn.field = s.anns.map SpdifAnn.field ++ front.map .bit

def finished (u : SpdifState) : SpdifState :=
  { u.emitSubframe with bitcount := 0, seenPreamble := false, firstOne := true }

variable {front : List Bool} {pulses : List SpdifPulse} {entries : List SpdifEntry}

theorem Reads.append (reads : s.Reads front u) (few : front.length < 28)
    {bit : Bool} {entry : SpdifEntry} (type : entry.pulseType = bitType bit) {ann : SpdifAnn}
    (field : ann.field = .bit bit) :
    s.Reads (front ++ [bit])
      { u with
        anns := u.anns ++ [ann]
        subframe := u.subframe.set u.bitcount entry
        bitcount := u.bitcount + 1
        firstOne := true } := by
  have size := reads.size
  have inside : front.length < u.subframe.length := by omega
  have length : (front ++ [bit]).length = front.length + 1 := by
    rw [length_append, length_singleton]
  have taken : (u.subframe.set front.length entry).take (front.length + 1) =
      u.subframe.take front.length ++ [entry] := by
    rw [set_eq_take_append_cons_drop, if_pos inside, append_cons]
    exact take_left' (by rw [length_append, length_take]; simp; omega)
  refine ⟨reads.range1, reads.range2, reads.stream, reads.seen, rfl, ?_, ?_, ?_, ?_⟩
  · rw [length, ← reads.bitcount]
  · exact length_set.trans size
  · show ((u.subframe.set u.bitcount entry).take _).map _ = _
    rw [length, reads.bitcount, taken, map_append, map_append, reads.types]
    exact congrArg (_ ++ [·]) type
  · show (u.anns ++ [ann]).map _ = _
    rw [map_append, map_append, ← List.append_assoc, reads.fields]
    exact congrArg (_ ++ [·]) field

theorem Reads.live (reads : s.Reads front u) (few : front.length < 28)
    {bit : Bool}
    (types : pulses.map (fun pulse => s.pulseType pulse.width) = spdifBitTypes bit) :
    ∃ v, s.Reads (front ++ [bit]) v ∧
      pulses.foldl SpdifState.live u = if front.length + 1 = 28 then v.finished else v := by
  have same : ∀ width, u.pulseType width = s.pulseType width :=
    pulseType_congr reads.range1 reads.range2
  have place := reads.bitcount
  cases bit with
  | false =>
      obtain ⟨pulse, rfl, type⟩ := map_eq_singleton_iff.mp types
      have zero : u.pulseType pulse.width = 0 := (same _).trans type
      have bit := streamBit_bit (u := u) fun both : u.pulseType pulse.width = 1 ∧ _ =>
        absurd (zero.symm.trans both.1) (by decide)
      simp only [putBit, SpdifState.bitEntry, zero, put, reads.firstOne, Int.zero_ne_one, if_false,
        decide_false, Bool.true_or] at bit
      have next := reads.append few
        (show (⟨0, pulse.start, pulse.samplenum⟩ : SpdifEntry).pulseType = bitType false from rfl)
        (show (⟨pulse.start, pulse.samplenum, .bit false⟩ : SpdifAnn).field = .bit false from rfl)
      refine ⟨_, next, ?_⟩
      rw [foldl_cons, foldl_nil, live_bit reads.stream reads.seen, bit, ← place]
      rfl
  | true =>
      obtain ⟨first, pulses, rfl, firstType, rest⟩ := map_eq_cons_iff.mp types
      obtain ⟨second, rfl, secondType⟩ := map_eq_singleton_iff.mp rest
      have half := live_half reads.stream reads.seen (by omega) ((same _).trans firstType)
        reads.firstOne
      have size := reads.size
      have written : entry (u.subframe.set u.bitcount ⟨1, first.start, first.samplenum⟩) u.bitcount =
          ⟨1, first.start, first.samplenum⟩ := by
        rw [SpdifState.entry, getD_eq_getElem?_getD, getElem?_set_self (by omega)]
        rfl
      have one : u.pulseType second.width = 1 := (same _).trans secondType
      have next := reads.append few
        (show (⟨1, first.start, second.samplenum⟩ : SpdifEntry).pulseType = bitType true from rfl)
        (show (⟨first.start, second.samplenum, .bit true⟩ : SpdifAnn).field = .bit true from rfl)
      refine ⟨_, next, ?_⟩
      rw [foldl_cons, foldl_cons, foldl_nil, half]
      have bit := streamBit_bit (u := { u with
        firstOne := false
        subframe := u.subframe.set u.bitcount ⟨1, first.start, first.samplenum⟩ })
        fun both : u.pulseType second.width = 1 ∧ _ => absurd both.2 Bool.false_ne_true
      have oneHere : SpdifState.pulseType { u with
        firstOne := false
        subframe := u.subframe.set u.bitcount ⟨1, first.start, first.samplenum⟩ } second.width = 1 :=
        one
      simp only [putBit, SpdifState.bitEntry, oneHere, put, if_true, decide_true, Bool.or_true,
        written, set_set] at bit
      rw [live_bit (by exact reads.stream) (by exact reads.seen), bit, ← place]
      rfl

theorem Reads.bits {bits : List Bool} (reads : s.Reads front u) (some : bits ≠ [])
    (whole : front.length + bits.length = 28)
    (types : pulses.map (fun pulse => s.pulseType pulse.width) = bits.flatMap spdifBitTypes) :
    ∃ v, s.Reads (front ++ bits) v ∧ pulses.foldl SpdifState.live u = v.finished := by
  induction bits generalizing front u pulses with
  | nil => exact absurd rfl some
  | cons bit bits ih =>
      rw [length_cons] at whole
      rw [flatMap_cons] at types
      obtain ⟨here, later, rfl, hereTypes, laterTypes⟩ := map_eq_append_iff.mp types
      obtain ⟨v, next, run⟩ := reads.live (by omega) hereTypes
      rw [foldl_append, run]
      cases bits with
      | nil =>
          have full : front.length + 1 = 28 := whole
          rw [map_eq_nil_iff.mp laterTypes, if_pos full]
          exact ⟨v, next, rfl⟩
      | cons other bits =>
          rw [length_cons] at whole
          rw [if_neg (by omega)]
          have length : (front ++ [bit]).length = front.length + 1 := by
            rw [length_append, length_singleton]
          obtain ⟨w, rest, last⟩ := ih next (cons_ne_nil _ _)
            (by rw [length, length_cons]; omega) laterTypes
          rw [List.append_assoc] at rest
          exact ⟨w, rest, last⟩

theorem packMsb_reverse (bits : List Bool) : packMsb bits.reverse = packLsb bits := by
  induction bits with
  | nil => rfl
  | cons bit bits ih =>
      rw [reverse_cons, packMsb_concat, ih, packLsb, Nat.add_comm]

theorem value_eq {bits : List Bool}
    (types : entries.map SpdifEntry.pulseType = bits.map bitType) (first count : Nat) :
    value entries first count = packMsb ((bits.drop first).take count) := by
  have step : (fun (value : Nat) bit => 2 * value + if bitType bit = 1 then 1 else 0) =
      fun value bit => 2 * value + bit.toNat := by
    funext value bit
    cases bit <;> rfl
  have window : ((entries.drop first).take count).map SpdifEntry.pulseType =
      ((bits.drop first).take count).map bitType := by
    rw [map_take, map_drop, types, ← map_drop, ← map_take]
  have folded : value entries first count =
      (((entries.drop first).take count).map SpdifEntry.pulseType).foldl
        (fun value type => 2 * value + if type = 1 then 1 else 0) 0 := by
    rw [foldl_map]
    rfl
  rw [folded, window, foldl_map, step]
  rfl

theorem valueRot_eq {bits : List Bool}
    (types : entries.map SpdifEntry.pulseType = bits.map bitType) (first count : Nat) :
    valueRot entries first count = packLsb ((bits.drop first).take count) := by
  have mirrored : ((entries.drop first).take count).reverse.map SpdifEntry.pulseType =
      ((bits.drop first).take count).reverse.map bitType := by
    rw [map_reverse, map_take, map_drop, types, ← map_drop, ← map_take, map_reverse]
  rw [valueRot, value_eq mirrored, drop_zero, take_of_length_le, packMsb_reverse]
  rw [length_reverse]
  exact length_take_le _ _

theorem entry_pulseType {bits : List Bool}
    (types : entries.map SpdifEntry.pulseType = bits.map bitType) (i : Nat) :
    (entry entries i).pulseType = bitType (bits.getD i false) := by
  have same := congrArg (·.getD i 0) types
  simp only [getD_eq_getElem?_getD, getElem?_map] at same
  rw [SpdifState.entry, getD_eq_getElem?_getD, getD_eq_getElem?_getD]
  cases left : entries[i]? <;> cases right : bits[i]? <;> simp_all [bitType]

theorem Reads.finished (frame : SpdifSubframe) (reads : s.Reads frame.bits u) :
    u.finished.anns.map SpdifAnn.field =
      s.anns.map SpdifAnn.field ++ (frame.bits.map .bit ++ frame.summary frame.swapped) := by
  have types := reads.types
  rw [frame.length_bits, take_of_length_le (Nat.le_of_eq reads.size)] at types
  have isOne (i : Nat) : decide ((entry u.subframe i).pulseType = 1) = frame.bits.getD i false := by
    rw [entry_pulseType types]
    cases frame.bits.getD i false <;> rfl
  have isZero (i : Nat) :
      decide ((entry u.subframe i).pulseType = 0) = !frame.bits.getD i false := by
    rw [entry_pulseType types]
    cases frame.bits.getD i false <;> rfl
  have length : ((frame.bits.drop 4).take 20).length = 20 :=
    length_take_of_le (by rw [length_drop, frame.length_bits]; decide)
  have joined : packMsb (frame.bits.take 4) * 2 ^ 20 + packMsb ((frame.bits.drop 4).take 20) =
      packMsb (frame.bits.take 24) := by
    have small := packMsb_lt ((frame.bits.drop 4).take 20)
    have split : frame.bits.take 24 = frame.bits.take 4 ++ (frame.bits.drop 4).take 20 :=
      take_add (i := 4) (j := 20)
    rw [length] at small
    rw [split, packMsb_append, length, ← Nat.shiftLeft_add_eq_or_of_lt small, Nat.shiftLeft_eq]
  rw [SpdifState.finished, emitSubframe]
  simp only [map_append, map_cons, map_nil, value_eq types, valueRot_eq types, isOne,
    isZero, drop_zero, joined]
  rw [reads.fields, List.append_assoc]
  rfl

/-- The next preamble has not begun. -/
structure Waits (base u : SpdifState) : Prop where
  range1 : u.range1 = base.range1
  range2 : u.range2 = base.range2
  stream : u.state = .decodeStream
  unseen : u.seenPreamble = false
  size : u.subframe.length = 28

variable {base : SpdifState}

theorem Waits.frame (waits : base.Waits u) (frame : SpdifSubframe)
    (types : pulses.map (fun pulse => base.pulseType pulse.width) = frame.types) :
    base.Waits (pulses.foldl SpdifState.live u) ∧
      (pulses.foldl SpdifState.live u).anns.map SpdifAnn.field =
        u.anns.map SpdifAnn.field ++ frame.fieldsWith frame.swapped := by
  have same : ∀ width, u.pulseType width = base.pulseType width :=
    pulseType_congr waits.range1 waits.range2
  obtain ⟨front, back, rfl, frontTypes, backTypes⟩ := map_eq_append_iff.mp types
  obtain ⟨p, q, r, preambleTypes⟩ : ∃ p q r, frame.preamble.types = [2, p, q, r] := by
    have known := frame.known
    cases name : frame.preamble with
    | unknown => exact absurd name known
    | w | m | b => exact ⟨_, _, _, rfl⟩
  have name : spdifPreamble frame.preamble.types = frame.preamble := by
    have known := frame.known
    cases name : frame.preamble with
    | unknown => exact absurd name known
    | w | m | b => rfl
  rw [preambleTypes] at frontTypes name
  obtain ⟨a, front, rfl, long, frontTypes⟩ := map_eq_cons_iff.mp frontTypes
  obtain ⟨b, front, rfl, second, frontTypes⟩ := map_eq_cons_iff.mp frontTypes
  obtain ⟨c, front, rfl, third, frontTypes⟩ := map_eq_cons_iff.mp frontTypes
  obtain ⟨d, rfl, fourth⟩ := map_eq_singleton_iff.mp frontTypes
  rw [← same] at long second third fourth
  have preamble := live_preamble (b := b) (c := c) (d := d) waits.stream waits.unseen long
  simp only [second, third, fourth] at preamble
  rw [putPreamble, name, decide_eq_true frame.known, Bool.or_true] at preamble
  rw [foldl_append]
  change base.Waits (back.foldl SpdifState.live ((((u.live a).live b).live c).live d)) ∧
    (back.foldl SpdifState.live ((((u.live a).live b).live c).live d)).anns.map _ = _
  generalize behind_eq : (((u.live a).live b).live c).live d = behind at preamble ⊢
  have behindAnns : behind.anns.map SpdifAnn.field =
      u.anns.map SpdifAnn.field ++ [.preamble frame.preamble] := by
    rw [preamble]
    exact map_append
  have start : behind.Reads [] behind := by
    refine ⟨rfl, rfl, ?_, ?_, ?_, ?_, ?_, rfl, (List.append_nil _).symm⟩ <;> rw [preamble]
    · rfl
    · exact waits.size
  have ranges : ∀ width, base.pulseType width = behind.pulseType width := by
    intro width
    rw [← same, preamble]
    rfl
  simp only [ranges] at backTypes
  have length := frame.length_bits
  have some : frame.bits ≠ [] := ne_nil_of_length_pos (by omega)
  obtain ⟨v, reads, run⟩ := start.bits some (by rw [length_nil]; omega) backTypes
  rw [nil_append] at reads
  rw [run]
  constructor
  · refine ⟨?_, ?_, reads.stream, rfl, reads.size⟩
    · exact reads.range1.trans (by rw [preamble]; exact waits.range1)
    · exact reads.range2.trans (by rw [preamble]; exact waits.range2)
  · rw [reads.finished frame, behindAnns, List.append_assoc]
    rfl

theorem Waits.frames (waits : base.Waits u) (frames : List SpdifSubframe)
    (types : pulses.map (fun pulse => base.pulseType pulse.width) =
      frames.flatMap SpdifSubframe.types) :
    (pulses.foldl SpdifState.live u).anns.map SpdifAnn.field = u.anns.map SpdifAnn.field ++
        frames.flatMap fun frame => frame.fieldsWith frame.swapped := by
  induction frames generalizing u pulses with
  | nil =>
      rw [map_eq_nil_iff.mp types]
      exact (List.append_nil _).symm
  | cons frame frames ih =>
      rw [flatMap_cons] at types
      obtain ⟨here, later, rfl, hereTypes, laterTypes⟩ := map_eq_append_iff.mp types
      obtain ⟨next, fields⟩ := waits.frame frame hereTypes
      rw [foldl_append, ih next laterTypes, fields, flatMap_cons, List.append_assoc]

theorem fields_eq_iff (frames : List SpdifSubframe) :
    (frames.flatMap fun frame => frame.fieldsWith frame.swapped) =
        frames.flatMap SpdifSubframe.fields ↔ ∀ frame ∈ frames, frame.Repeats := by
  induction frames with
  | nil => exact iff_of_true rfl nofun
  | cons frame frames ih =>
      have lengths : (frame.fieldsWith frame.swapped).length = frame.fields.length := by
        rw [SpdifSubframe.fields, SpdifSubframe.fieldsWith, SpdifSubframe.fieldsWith,
          length_cons, length_cons, length_append, length_append]
        rfl
      have here : frame.fieldsWith frame.swapped = frame.fields ↔ frame.Repeats := by
        rw [← frame.swapped_eq_iff, SpdifSubframe.fields, SpdifSubframe.fieldsWith,
          SpdifSubframe.fieldsWith, List.cons.injEq, append_cancel_left_eq]
        simp [SpdifSubframe.summary]
      rw [flatMap_cons, flatMap_cons, forall_mem_cons, ← ih, ← here]
      exact ⟨fun same => append_inj same lengths, fun both => by rw [both.1, both.2]⟩

theorem foldl_decodePulse (stack : List SpdifPulse → List SpdifEntry)
    (known : ¬u.Learning) (pulses : List SpdifPulse) :
    pulses.foldl (decodePulse stack) u = pulses.foldl SpdifState.live u := by
  induction pulses generalizing u with
  | nil => rfl
  | cons pulse pulses ih =>
      have phase : u.state = .decodeStream ∨ u.state = .decodePreamble := by
        rw [SpdifState.Learning] at known
        cases state : u.state <;> simp_all
      have step : u.decodePulse stack pulse = u.live pulse := by
        rcases phase with stream | preamble
        · rw [decodePulse, stream]
        · rw [decodePulse, preamble]
      have later : ¬(u.decodePulse stack pulse).Learning := live_not_learning phase
      rw [step] at later
      rw [foldl_cons, foldl_cons, step, ih later]

/-- The subframes are reported as they were sent exactly if the four auxiliary bits of each stand
in its sample again and again. -/
theorem subframes_iff (stack : List SpdifPulse → List SpdifEntry)
    (stream : base.state = .decodeStream) (unseen : base.seenPreamble = false)
    (size : base.subframe.length = spdifMaxSubframe) (frames : List SpdifSubframe)
    {pulses : List SpdifPulse}
    (types : pulses.map (fun pulse => base.pulseType pulse.width) =
      frames.flatMap SpdifSubframe.types) :
    (pulses.foldl (decodePulse stack) base).anns.map SpdifAnn.field =
        base.anns.map SpdifAnn.field ++ frames.flatMap SpdifSubframe.fields ↔
      ∀ frame ∈ frames, frame.Repeats := by
  have known : ¬base.Learning := by
    rw [SpdifState.Learning, stream]
    decide
  have waits : base.Waits base := ⟨rfl, rfl, stream, unseen, size⟩
  rw [foldl_decodePulse stack known, waits.frames frames types, append_cancel_left_eq]
  exact fields_eq_iff frames

def firstBitFrame : SpdifSubframe :=
  ⟨.b, true :: List.replicate 27 false, nofun, rfl⟩

def tenSamples : SpdifState :=
  { reset with state := .decodeStream, range1 := 30, range2 := 50 }

def firstBitPulses : List SpdifPulse :=
  spdifPulses 100 ([30, 10, 10, 30] ++ [10, 10] ++ List.replicate 27 20)

theorem subframes_iff_firstBit :
    (firstBitPulses.foldl (decodePulse fun _ => []) tenSamples).anns.map SpdifAnn.field =
        tenSamples.anns.map SpdifAnn.field ++ [firstBitFrame].flatMap SpdifSubframe.fields ↔
      ∀ frame ∈ [firstBitFrame], frame.Repeats :=
  subframes_iff (fun _ => []) rfl rfl rfl [firstBitFrame] (by decide +kernel)

/-- The sample 1 is reported as 0x100000. -/
theorem subframes_swapped :
    firstBitPulses.map (fun pulse => tenSamples.pulseType pulse.width) = firstBitFrame.types ∧
      .audio 1 ∈ firstBitFrame.fields ∧
      ((firstBitPulses.foldl (decodePulse fun _ => []) tenSamples).anns.map
        SpdifAnn.field).filter (fun field => field matches .audio _) = [.audio 0x100000] := by
  decide +kernel

end SpdifState

end SigrokDecode
