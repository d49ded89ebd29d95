import Mathlib.Tactic.NormNum
import Mathlib.Tactic.Linarith
import Mathlib.Tactic.Positivity
import Mathlib.Tactic.FieldSimp
import Mathlib.Data.List.Induction
import SigrokDecode.Decoders.Miller

/-!
# Modified Miller coding

A message is a bit string that begins and ends with a zero.  `miller_c` reads every message
back, but keeps no more than 256 bits for the bit string and the binary output.
-/

set_option linter.dupNamespace false

namespace SigrokDecode

open Foundation List Nat

def digitsOf (text : List Char) : List Char :=
  text.filter (· ≠ ' ')

theorem digitsOf_append (front back : List Char) :
    digitsOf (front ++ back) = digitsOf front ++ digitsOf back :=
  filter_append ..

theorem bitDigit_ne_blank (bit : Bool) : bitDigit bit ≠ ' ' := by
  cases bit with
  | true => decide
  | false => decide

theorem digitsOf_bitDigit (bit : Bool) : digitsOf [bitDigit bit] = [bitDigit bit] := by
  rw [digitsOf, filter_singleton, decide_eq_true (bitDigit_ne_blank bit), cond_true]

theorem digitsOf_bitstringText (bits : List Bool) {i : Nat} {bs : List Char}
    (short : bs.length ≤ i + (i - 1) / 4) (fits : i + bits.length ≤ 256) :
    digitsOf (bitstringText i bs bits) = digitsOf bs ++ bits.map bitDigit := by
  induction bits generalizing i bs with
  | nil => rw [bitstringText, map_nil, List.append_nil]
  | cons bit bits ih =>
      rw [length_cons] at fits
      have blank : digitsOf (if 0 < i ∧ i % 4 = 0 then [' '] else []) = [] := by
        split <;> rfl
      rw [bitstringText, if_pos (by omega), ih _ (by omega),
        digitsOf_append, digitsOf_append, blank, digitsOf_bitDigit, List.append_nil,
        map_cons, List.append_assoc, singleton_append]
      rw [length_append, length_append, length_singleton]
      split <;> simp only [length_cons, length_nil] <;> omega

theorem packedBit_setBit {bytes : List UInt8} {k : Nat} (inside : k / 8 < bytes.length) (i : Nat) :
    packedBit (bytes.modify (k / 8) (· ||| 1 <<< UInt8.ofNat (k % 8))) i =
      (packedBit bytes i || i == k) := by
  have small : k % 8 < 8 := mod_lt _ (by omega)
  have shift : k % 8 % 256 % 8 = k % 8 := by omega
  by_cases here : i / 8 = k / 8
  · have bit : ((1 : UInt8) <<< UInt8.ofNat (k % 8)).toNat.testBit (i % 8) = (i == k) := by
      rw [UInt8.toNat_shiftLeft, UInt8.toNat_ofNat', UInt8.toNat_one, shift,
        one_shiftLeft, mod_eq_of_lt
          (show 2 ^ (k % 8) < 256 from Nat.pow_lt_pow_right (by omega) small),
        testBit_two_pow, decide_eq_decide.mpr (show k % 8 = i % 8 ↔ i = k by omega)]
      rfl
    rw [packedBit, here, getD_eq_getElem?_getD, getElem?_modify_eq,
      packedBit, here, getD_eq_getElem?_getD, getElem?_eq_getElem inside,
      Option.map_eq_map, Option.map_some, Option.getD_some, Option.getD_some,
      UInt8.toNat_or, testBit_or, bit]
  · have other : (i == k) = false := beq_eq_false_iff_ne.mpr fun same => here (same ▸ rfl)
    rw [packedBit, getD_eq_getElem?_getD, getElem?_modify_ne _ _ (Ne.symm here),
      packedBit, getD_eq_getElem?_getD, other, Bool.or_false]

/-- The bytes hold the bits with the least significant bit first. -/
structure LsbFirst (data : List UInt8) (bits : List Bool) : Prop where
  length : data.length = (bits.length + 7) / 8
  bits : ∀ i, packedBit data i = bits.getD i false

theorem setBinaryBits (bits : List Bool) (fits : bits.length ≤ 256) :
    (bits.zipIdx.foldl setBinaryBit (replicate 32 0)).length = 32 ∧
      ∀ i, packedBit (bits.zipIdx.foldl setBinaryBit (replicate 32 0)) i =
        bits.getD i false := by
  induction bits using reverseRecOn with
  | nil =>
      refine ⟨rfl, fun i => ?_⟩
      rw [zipIdx_nil, foldl_nil, packedBit, getD_eq_getElem?_getD, getElem?_replicate]
      split <;> simp
  | append_singleton bits bit ih =>
      rw [length_append, length_singleton] at fits
      obtain ⟨length, holds⟩ := ih (by omega)
      rw [zipIdx_append, foldl_append, zipIdx_singleton, foldl_cons, foldl_nil, setBinaryBit]
      have read : ∀ i, (bits ++ [bit]).getD i false =
          (bits.getD i false || (bit && i == bits.length)) := by
        intro i
        rcases Nat.lt_trichotomy i bits.length with before | rfl | behind
        · rw [getD_append _ _ _ _ before, beq_eq_false_iff_ne.mpr (Nat.ne_of_lt before),
            Bool.and_false, Bool.or_false]
        · simp
        · rw [getD_eq_default _ _ (by rw [length_append, length_singleton]; omega),
            getD_eq_default _ _ (Nat.le_of_lt behind),
            beq_eq_false_iff_ne.mpr (Nat.ne_of_gt behind), Bool.and_false, Bool.or_false]
      cases bit with
      | false =>
          refine ⟨length, fun i => ?_⟩
          rw [if_neg (by simp), holds, read, Bool.false_and, Bool.or_false]
      | true =>
          refine ⟨by rw [if_pos rfl, length_modify, length], fun i => ?_⟩
          rw [if_pos rfl, Nat.zero_add, packedBit_setBit (by omega), holds, read, Bool.true_and]

theorem binaryData_lsbFirst {bits : List Bool} (fits : bits.length ≤ 256) :
    LsbFirst (binaryData bits) bits := by
  obtain ⟨length, holds⟩ := setBinaryBits bits fits
  have taken : (binaryData bits).length = (bits.length + 7) / 8 := by
    rw [binaryData, length_take, length]
    omega
  refine ⟨taken, fun i => ?_⟩
  by_cases inside : i < 8 * ((bits.length + 7) / 8)
  · rw [binaryData, packedBit_take _ inside, holds]
  · rw [packedBit, getD_eq_default _ _ (by omega), getD_eq_default _ _ (by omega)]
    exact zero_testBit _

/-- A sample rate that is a multiple of the baud rate needs no rounding. -/
theorem millerTimeunit_mul {unit baudrate : Nat} (some : 0 < unit) (pos : 0 < baudrate) :
    millerTimeunit (unit * baudrate) baudrate = unit := by
  have nonzero : (baudrate : ℚ) ≠ 0 := cast_ne_zero.mpr (Nat.ne_of_gt pos)
  have quotient : ((unit * baudrate : Nat) : ℚ) / ((baudrate : Int) : ℚ) = unit := by
    push_cast
    field_simp
  rw [millerTimeunit, if_neg (Nat.ne_of_gt (Nat.mul_pos some pos)), if_neg (by omega), quotient,
    floor_eq_iff (by positivity)]
  constructor
  · linarith
  · linarith

variable {half start : Nat} {s : MillerState}

theorem millerTimedelta_half (pos : 0 < half) (count : Nat) :
    millerTimedelta (2 * half) (count * half) = count / 2 := by
  have nonzero : (half : ℚ) ≠ 0 := cast_ne_zero.mpr (Nat.ne_of_gt pos)
  have exactly : ((count * half : Nat) : ℚ) / (2 * half : Nat) * 2 = count := by
    push_cast
    field_simp
  rw [millerTimedelta, exactly, round_natCast]
  norm_num

theorem millerTimedelta_timeout {timeunit : Nat} (pos : 0 < timeunit) :
    millerTimedelta timeunit (3 * timeunit) = 3 := by
  have nonzero : (timeunit : ℚ) ≠ 0 := cast_ne_zero.mpr (Nat.ne_of_gt pos)
  have exactly : ((3 * timeunit : Nat) : ℚ) / timeunit * 2 = (6 : Nat) := by
    push_cast
    field_simp
    norm_num
  rw [millerTimedelta, exactly, round_natCast]
  norm_num

namespace MillerState

variable {timeunit : Nat}

theorem nextMatch_wait (timeunit : Nat) (s : MillerState) (samplenum sampledelta : Nat) :
    (s.nextMatch timeunit samplenum sampledelta).wait = .first ∨
      (s.nextMatch timeunit samplenum sampledelta).wait = s.wait ∧
        (s.nextMatch timeunit samplenum sampledelta).prevedge = s.prevedge := by
  rw [nextMatch]
  split_ifs <;> first | exact Or.inl rfl | exact Or.inr ⟨rfl, rfl⟩

theorem nextMatch_timeout (pos : 0 < timeunit) (s : MillerState) (samplenum : Nat) :
    s.nextMatch timeunit samplenum (3 * timeunit) =
      (if s.prevbit then
        s.outputBit false s.expectedstart (s.expectedstart + timeunit)
      else s).flushBitstring.leave := by
  rw [nextMatch, millerTimedelta_timeout pos]
  cases s.prevbit with
  | false => norm_num
  | true => norm_num

end MillerState

theorem millerDecoder_first (wait : s.wait = .first) (timeunit samplenum : Nat) :
    (millerDecoder timeunit).deadline s = none ∧
      (millerDecoder timeunit).handle s samplenum = s.firstEdge timeunit samplenum := by
  simp only [millerDecoder, wait, and_self]

theorem millerDecoder_next (wait : s.wait = .next) (timeunit samplenum : Nat) :
    (millerDecoder timeunit).deadline s = some (s.prevedge + 3 * timeunit) ∧
      (millerDecoder timeunit).handle s samplenum =
        (s.atMatch samplenum).nextMatch timeunit samplenum (samplenum - s.prevedge) := by
  simp only [millerDecoder, wait, and_self]

theorem millerDecoder_timely {timeunit : Nat} (pos : 0 < timeunit) :
    (millerDecoder timeunit).Timely := by
  constructor
  case settles =>
    intro s time timed
    cases wait : s.wait with
    | first =>
        rw [(millerDecoder_first wait timeunit time).1] at timed
        cases timed
    | next =>
        obtain ⟨deadline, handle⟩ := millerDecoder_next wait timeunit time
        have due := Option.some.inj (deadline.symm.trans timed)
        have distance : time - s.prevedge = 3 * timeunit := by omega
        rw [handle, distance, MillerState.nextMatch_timeout pos]
        rfl
  case ahead =>
    intro s samplenum time timed
    cases wait : s.wait with
    | first =>
        rw [(millerDecoder_first wait timeunit samplenum).2,
          (millerDecoder_next rfl timeunit samplenum).1] at timed
        have due : samplenum + 3 * timeunit = time := Option.some.inj timed
        omega
    | next =>
        rw [(millerDecoder_next wait timeunit samplenum).2] at timed
        rcases MillerState.nextMatch_wait timeunit (s.atMatch samplenum) samplenum
          (samplenum - s.prevedge) with left | ⟨stays, prevedge⟩
        · rw [(millerDecoder_first left timeunit samplenum).1] at timed
          cases timed
        · rw [(millerDecoder_next (stays.trans wait) timeunit samplenum).1, prevedge] at timed
          have due : samplenum + 3 * timeunit = time := Option.some.inj timed
          omega

/-! ## The coding -/

/-- The edges of bits behind `previous`, with units of twice `half` samples. -/
def millerEdges (half : Nat) : Bool → Nat → List Bool → List Nat
  | _, _, [] => []
  | previous, start, bit :: bits =>
      (if bit then [start + half] else if previous then [] else [start]) ++
        millerEdges half bit (start + 2 * half) bits

def bitOuts (half : Nat) : Nat → List Bool → List MillerOut
  | _, [] => []
  | start, bit :: bits =>
      .bit start (start + 2 * half) bit :: bitOuts half (start + 2 * half) bits

theorem unitEnd_concat (half first : Nat) (bits : List Bool) (bit : Bool) :
    first + 2 * half * (bits ++ [bit]).length = first + 2 * half * bits.length + 2 * half := by
  rw [length_append, length_singleton, mul_succ, Nat.add_assoc]

def messageOuts (half start : Nat) (bits : List Bool) : List MillerOut :=
  bitOuts half start bits ++
    [MillerOut.bitstring start (start + 2 * half * bits.length)
        (bitstringText 0 [] (bits.take 256)),
      .raw start (start + 2 * half * bits.length) (binaryData (bits.take 256))]

theorem bitOuts_concat (half start : Nat) (bits : List Bool) (bit : Bool) :
    bitOuts half start (bits ++ [bit]) = bitOuts half start bits ++
      [MillerOut.bit (start + 2 * half * bits.length)
        (start + 2 * half * bits.length + 2 * half) bit] := by
  induction bits generalizing start with
  | nil => rfl
  | cons head bits ih =>
      have next : start + 2 * half + 2 * half * bits.length =
          start + 2 * half * (head :: bits).length := by
        rw [length_cons, mul_succ]
        omega
      rw [cons_append, bitOuts, ih, bitOuts, cons_append, next]

theorem MillerBits.push_take {buffer : MillerBits} {done : List Bool}
    (holds : buffer.bits = done.take 256) (bit : Bool) :
    (buffer.push bit).bits = (done ++ [bit]).take 256 := by
  rw [push]
  by_cases room : buffer.bits.length < 256
  · have short : done.length < 256 := by
      rw [holds, length_take] at room
      omega
    rw [take_of_length_le (Nat.le_of_lt short)] at holds
    rw [dif_pos room, take_of_length_le
      (by rw [length_append, length_singleton]; exact short)]
    exact congrArg (· ++ [bit]) holds
  · have full : 256 ≤ done.length := by
      rw [holds, length_take] at room
      omega
    rw [dif_neg room, holds, take_append_of_le_length full]

namespace MillerState

variable {half first : Nat} {earlier : List MillerOut} {done : List Bool} {previous : Bool}
  {s : MillerState}

/-- Outside messages. -/
structure Idle (outs : List MillerOut) (s : MillerState) : Prop where
  wait : s.wait = .first
  bits : s.buffer.bits = []
  outs : s.outs = outs

/-- Bits of a message that began at `first` have been put out. -/
structure Collects (half first : Nat) (earlier : List MillerOut) (done : List Bool)
    (s : MillerState) : Prop where
  bits : s.buffer.bits = done.take 256
  stringstart : done ≠ [] → s.stringstart = first
  stringend : done ≠ [] → s.stringend = first + 2 * half * done.length
  outs : s.outs = earlier ++ bitOuts half first done

theorem Collects.outputBit (collects : s.Collects half first earlier done) (bit : Bool)
    {ss es : Nat} (start : ss = first + 2 * half * done.length) (stop : es = ss + 2 * half) :
    (s.outputBit bit ss es).Collects half first earlier (done ++ [bit]) := by
  constructor
  case bits => exact MillerBits.push_take collects.bits bit
  case stringstart =>
    intro _
    by_cases none : done = []
    · subst none
      have empty : s.buffer.bits = [] := collects.bits
      rw [MillerState.outputBit, if_pos empty, start, length_nil, Nat.mul_zero, Nat.add_zero]
    · have filled : s.buffer.bits ≠ [] := by
        rw [collects.bits]
        simpa using none
      rw [MillerState.outputBit, if_neg filled]
      exact collects.stringstart none
  case stringend =>
    intro _
    rw [length_append, length_singleton, mul_succ, ← Nat.add_assoc, ← start]
    exact stop
  case outs =>
    rw [bitOuts_concat, ← List.append_assoc, ← collects.outs, ← start, ← stop]
    rfl

theorem Collects.flush (collects : s.Collects half first earlier done) (some : done ≠ []) :
    s.flushBitstring.leave.Idle (earlier ++ messageOuts half first done) := by
  have filled : s.buffer.bits ≠ [] := by
    rw [collects.bits]
    simpa using some
  rw [flushBitstring, if_neg filled]
  refine ⟨rfl, rfl, ?_⟩
  rw [messageOuts, ← collects.stringend some, ← List.append_assoc, ← collects.outs,
    ← collects.bits, ← collects.stringstart some]
  exact List.append_assoc ..

/-- In the inner loop, behind the edge of the last bit. -/
structure Reading (half first : Nat) (earlier : List MillerOut) (done : List Bool)
    (previous : Bool) (s : MillerState) : Prop
    extends s.Collects half first earlier done where
  nonempty : done ≠ []
  wait : s.wait = .next
  prevbit : s.prevbit = previous
  prevedge : s.prevedge + (if previous then half else 2 * half) =
    first + 2 * half * done.length
  expectedstart : s.expectedstart = first + 2 * half * done.length

theorem Collects.atMatch (collects : s.Collects half first earlier done) (samplenum : Nat) :
    (s.atMatch samplenum).Collects half first earlier done :=
  { collects with }

theorem Collects.space (collects : s.Collects half first earlier done) (wait : s.wait = .next)
    {samplenum : Nat} (prevedge : s.prevedge = samplenum)
    (here : samplenum = first + 2 * half * done.length) :
    (s.space (2 * half) samplenum).Reading half first earlier (done ++ [false]) false := by
  have length : first + 2 * half * (done ++ [false]).length = samplenum + 2 * half := by
    rw [length_append, length_singleton, mul_succ]
    omega
  have more := collects.outputBit false here rfl
  refine ⟨{ more with }, by simp, wait, rfl, ?_, ?_⟩
  · rw [length, if_neg Bool.false_ne_true]
    exact congrArg (· + 2 * half) prevedge
  · rw [length]
    rfl

theorem Collects.mark (collects : s.Collects half first earlier done) (wait : s.wait = .next)
    {ss samplenum : Nat} (prevedge : s.prevedge = samplenum)
    (start : ss = first + 2 * half * done.length) (here : samplenum = ss + half) :
    (s.mark (2 * half) ss samplenum).Reading half first earlier (done ++ [true]) true := by
  have unit : 2 * half / 2 = half := by omega
  have length : first + 2 * half * (done ++ [true]).length = samplenum + half := by
    rw [length_append, length_singleton, mul_succ]
    omega
  have more := collects.outputBit true start
    (by omega : samplenum + 2 * half / 2 = ss + 2 * half)
  refine ⟨{ more with }, by simp, wait, rfl, ?_, ?_⟩
  · rw [length, if_pos rfl]
    exact congrArg (· + half) prevedge
  · rw [length]
    exact congrArg (samplenum + ·) unit

theorem nextMatch_halves (pos : 0 < half) (s : MillerState) (samplenum : Nat) :
    s.nextMatch (2 * half) samplenum (2 * half) =
        (if s.prevbit then s.mark (2 * half) s.expectedstart samplenum
        else s.space (2 * half) samplenum) ∧
      s.nextMatch (2 * half) samplenum (3 * half) =
        (if s.prevbit then
          (s.outputBit false s.expectedstart samplenum).space (2 * half) samplenum
        else s.mark (2 * half) s.expectedstart samplenum) ∧
      (s.prevbit = true → s.nextMatch (2 * half) samplenum (4 * half) =
        (s.outputBit false s.expectedstart (s.expectedstart + 2 * half)).mark (2 * half)
          (samplenum - 2 * half / 2) samplenum) := by
  refine ⟨?_, ?_, fun mark => ?_⟩
  · rw [nextMatch, millerTimedelta_half pos 2]
    cases s.prevbit with
    | false => norm_num
    | true => norm_num
  · rw [nextMatch, millerTimedelta_half pos 3]
    cases s.prevbit with
    | false => norm_num
    | true => norm_num
  · rw [nextMatch, millerTimedelta_half pos 4, mark]
    norm_num

variable {point : Nat}

theorem Reading.meet (reading : s.Reading half first earlier done previous)
    (early : point ≤ s.prevedge + 3 * (2 * half)) :
    (millerDecoder (2 * half)).handle ((millerDecoder (2 * half)).elapse s point) point =
      (s.atMatch point).nextMatch (2 * half) point (point - s.prevedge) := by
  obtain ⟨deadline, handle⟩ := millerDecoder_next reading.wait (2 * half) point
  rw [EdgeDecoder.elapse_early _ deadline early, handle]

theorem Reading.space (reading : s.Reading half first earlier done false) (pos : 0 < half)
    (here : point = first + 2 * half * done.length) :
    ((millerDecoder (2 * half)).handle
      ((millerDecoder (2 * half)).elapse s point) point).Reading half first earlier
        (done ++ [false]) false := by
  have before : s.prevedge + 2 * half = point := reading.prevedge.trans here.symm
  have distance : point - s.prevedge = 2 * half := by omega
  rw [reading.meet (by omega), distance, (nextMatch_halves pos _ point).1,
    if_neg (by rw [show (s.atMatch point).prevbit = false from reading.prevbit]; simp)]
  exact (reading.toCollects.atMatch point).space reading.wait rfl here

theorem Reading.mark (reading : s.Reading half first earlier done previous) (pos : 0 < half)
    (here : point = first + 2 * half * done.length + half) :
    ((millerDecoder (2 * half)).handle
      ((millerDecoder (2 * half)).elapse s point) point).Reading half first earlier
        (done ++ [true]) true := by
  have before := reading.prevedge
  have collects := reading.toCollects.atMatch point
  have start : (s.atMatch point).expectedstart = first + 2 * half * done.length :=
    reading.expectedstart
  have after := collects.mark reading.wait rfl start (here.trans (congrArg (· + half) start.symm))
  cases previous with
  | false =>
      rw [if_neg Bool.false_ne_true] at before
      have distance : point - s.prevedge = 3 * half := by omega
      rw [reading.meet (by omega), distance, (nextMatch_halves pos _ point).2.1,
        if_neg (by rw [show (s.atMatch point).prevbit = false from reading.prevbit]; simp)]
      exact after
  | true =>
      rw [if_pos rfl] at before
      have distance : point - s.prevedge = 2 * half := by omega
      rw [reading.meet (by omega), distance, (nextMatch_halves pos _ point).1,
        if_pos (show (s.atMatch point).prevbit = true from reading.prevbit)]
      exact after

/-- A space without an edge, which is known at the edge of the next bit. -/
theorem Reading.spaces (reading : s.Reading half first earlier done true) (pos : 0 < half)
    (here : point = first + 2 * half * done.length + 2 * half) :
    ((millerDecoder (2 * half)).handle
      ((millerDecoder (2 * half)).elapse s point) point).Reading half first earlier
        (done ++ [false] ++ [false]) false := by
  have before : s.prevedge + half = first + 2 * half * done.length := reading.prevedge
  have distance : point - s.prevedge = 3 * half := by omega
  have start : (s.atMatch point).expectedstart = first + 2 * half * done.length :=
    reading.expectedstart
  rw [reading.meet (by omega), distance, (nextMatch_halves pos _ point).2.1,
    if_pos (show (s.atMatch point).prevbit = true from reading.prevbit)]
  refine ((reading.toCollects.atMatch point).outputBit false start (by omega)).space
    reading.wait rfl ?_
  rw [length_append, length_singleton, mul_succ]
  omega

theorem Reading.spaceMark (reading : s.Reading half first earlier done true) (pos : 0 < half)
    (here : point = first + 2 * half * done.length + 2 * half + half) :
    ((millerDecoder (2 * half)).handle
      ((millerDecoder (2 * half)).elapse s point) point).Reading half first earlier
        (done ++ [false] ++ [true]) true := by
  have before : s.prevedge + half = first + 2 * half * done.length := reading.prevedge
  have distance : point - s.prevedge = 4 * half := by omega
  have start : (s.atMatch point).expectedstart = first + 2 * half * done.length :=
    reading.expectedstart
  rw [reading.meet (by omega), distance,
    (nextMatch_halves pos (s.atMatch point) point).2.2 reading.prevbit]
  refine ((reading.toCollects.atMatch point).outputBit false start rfl).mark
    reading.wait rfl ?_ (by omega)
  rw [length_append, length_singleton, mul_succ]
  omega

theorem Reading.timeout (reading : s.Reading half first earlier done previous) (pos : 0 < half) :
    ((millerDecoder (2 * half)).handle s (s.prevedge + 3 * (2 * half))).Idle
      (earlier ++ messageOuts half first (if previous then done ++ [false] else done)) := by
  obtain ⟨_, handle⟩ := millerDecoder_next reading.wait (2 * half) (s.prevedge + 3 * (2 * half))
  have collects := reading.toCollects.atMatch (s.prevedge + 3 * (2 * half))
  rw [handle, Nat.add_sub_cancel_left, nextMatch_timeout (by omega),
    show (s.atMatch (s.prevedge + 3 * (2 * half))).prevbit = previous from reading.prevbit]
  cases previous with
  | false => exact collects.flush reading.nonempty
  | true => exact (collects.outputBit false reading.expectedstart rfl).flush (by simp)

variable {later : List Nat} {stop : Nat}

theorem Reading.run_timeout (reading : s.Reading half first earlier done previous) (pos : 0 < half)
    (late : ∀ point ∈ later, first + 2 * half * done.length + 6 * half ≤ point)
    (lateStop : first + 2 * half * done.length + 6 * half ≤ stop) :
    ∃ t : MillerState,
      t.Idle (earlier ++ messageOuts half first (if previous then done ++ [false] else done)) ∧
      (millerDecoder (2 * half)).run s later stop = (millerDecoder (2 * half)).run t later stop := by
  have due : s.prevedge + 3 * (2 * half) < first + 2 * half * done.length + 6 * half := by
    have before := reading.prevedge
    split at before <;> omega
  have idle := reading.timeout pos
  refine ⟨_, idle, EdgeDecoder.run_late _ (millerDecoder_next reading.wait (2 * half) 0).1
    (millerDecoder_first idle.wait (2 * half) 0).1
    (fun point member => Nat.lt_of_lt_of_le due (late point member))
    (Nat.lt_of_lt_of_le due lateStop)⟩

theorem Reading.run (pos : 0 < half) {whole : List Bool}
    (late : ∀ point ∈ later, first + 2 * half * whole.length + 8 * half ≤ point)
    (lateStop : first + 2 * half * whole.length + 8 * half ≤ stop) : (todo : List Bool) →
    {done : List Bool} → {previous : Bool} → {s : MillerState} →
    s.Reading half first earlier done previous → whole = done ++ todo →
    (previous :: todo).getLast? = some false →
    ∃ t : MillerState, t.Idle (earlier ++ messageOuts half first whole) ∧
      (millerDecoder (2 * half)).run s
          (millerEdges half previous (first + 2 * half * done.length) todo ++ later) stop =
        (millerDecoder (2 * half)).run t later stop
  | [], done, previous, s, reading, split, ends => by
      rw [List.append_nil] at split
      subst split
      obtain rfl : previous = false := Option.some.inj ends
      exact reading.run_timeout pos
        (fun point member => Nat.le_trans (by omega) (late point member)) (by omega)
  | true :: todo, done, previous, s, reading, split, ends => by
      have next := reading.mark pos rfl
      obtain ⟨t, idle, ran⟩ := Reading.run pos late lateStop todo next
        (by rw [split, List.append_assoc, singleton_append])
        (by rwa [getLast?_cons_cons] at ends)
      refine ⟨t, idle, Eq.trans ?_ ran⟩
      rw [unitEnd_concat, millerEdges, if_pos rfl]
      rfl
  | false :: todo, done, false, s, reading, split, ends => by
      have next := reading.space pos rfl
      obtain ⟨t, idle, ran⟩ := Reading.run pos late lateStop todo next
        (by rw [split, List.append_assoc, singleton_append])
        (by rwa [getLast?_cons_cons] at ends)
      refine ⟨t, idle, Eq.trans ?_ ran⟩
      rw [unitEnd_concat, millerEdges, if_neg Bool.false_ne_true, if_neg Bool.false_ne_true]
      rfl
  | [false], done, true, s, reading, split, ends => by
      subst split
      rw [length_append, length_singleton, mul_succ] at late lateStop
      exact reading.run_timeout pos
        (fun point member => Nat.le_trans (by omega) (late point member)) (by omega)
  | false :: false :: todo, done, true, s, reading, split, ends => by
      have next := reading.spaces pos rfl
      obtain ⟨t, idle, ran⟩ := Reading.run pos late lateStop todo next
        (by rw [split, List.append_assoc, List.append_assoc]; rfl)
        (by rwa [getLast?_cons_cons, getLast?_cons_cons] at ends)
      refine ⟨t, idle, Eq.trans ?_ ran⟩
      rw [unitEnd_concat, unitEnd_concat, millerEdges, millerEdges, if_neg Bool.false_ne_true,
        if_pos rfl,
        if_neg Bool.false_ne_true, if_neg Bool.false_ne_true]
      rfl
  | false :: true :: todo, done, true, s, reading, split, ends => by
      have next := reading.spaceMark pos rfl
      obtain ⟨t, idle, ran⟩ := Reading.run pos late lateStop todo next
        (by rw [split, List.append_assoc, List.append_assoc]; rfl)
        (by rwa [getLast?_cons_cons, getLast?_cons_cons] at ends)
      refine ⟨t, idle, Eq.trans ?_ ran⟩
      rw [unitEnd_concat, unitEnd_concat, millerEdges, millerEdges, if_neg Bool.false_ne_true,
        if_pos rfl, if_pos rfl]
      rfl

theorem Idle.message {outs : List MillerOut} (idle : s.Idle outs) (pos : 0 < half)
    (bits : List Bool) (ends : (false :: bits).getLast? = some false)
    (late : ∀ point ∈ later, first + 2 * half * (false :: bits).length + 8 * half ≤ point)
    (lateStop : first + 2 * half * (false :: bits).length + 8 * half ≤ stop) :
    ∃ t : MillerState, t.Idle (outs ++ messageOuts half first (false :: bits)) ∧
      (millerDecoder (2 * half)).run s
          (millerEdges half false first (false :: bits) ++ later) stop =
        (millerDecoder (2 * half)).run t later stop := by
  obtain ⟨untimed, handle⟩ := millerDecoder_first idle.wait (2 * half) first
  have none : s.Collects half first outs [] :=
    ⟨idle.bits, fun absurd => (absurd rfl).elim, fun absurd => (absurd rfl).elim,
      idle.outs.trans (List.append_nil outs).symm⟩
  have length : first + 2 * half * [false].length = first + 2 * half := by
    rw [length_singleton, Nat.mul_one]
  have reading : (s.firstEdge (2 * half) first).Reading half first outs [false] false := by
    have opened := Collects.outputBit (s := { s with
        wait := .next
        prevedge := first
        prevbit := false
        expectedstart := first + 2 * half })
      { none with } false rfl rfl
    exact ⟨opened, by simp, rfl, rfl, length.symm, length.symm⟩
  obtain ⟨t, after, ran⟩ := reading.run pos late lateStop bits rfl ends
  refine ⟨t, after, Eq.trans ?_ ran⟩
  rw [millerEdges, if_neg Bool.false_ne_true, if_neg Bool.false_ne_true, singleton_append,
    cons_append, EdgeDecoder.run, EdgeDecoder.elapse_untimed _ untimed, handle, length]

end MillerState

structure MillerMessage where
  bits : List Bool
  begins : bits.head? = some false
  ends : bits.getLast? = some false

theorem MillerMessage.bits_eq (message : MillerMessage) : ∃ bits, message.bits = false :: bits := by
  have begins := message.begins
  cases shape : message.bits with
  | nil =>
      rw [shape] at begins
      cases begins
  | cons bit bits =>
      rw [shape] at begins
      exact ⟨bits, congrArg (· :: bits) (Option.some.inj begins)⟩

/-- Messages in turn, each with the number of samples up to the next one. -/
abbrev MillerLine := List (MillerMessage × Nat)

/-- The edges of a line. -/
def lineEdges (half : Nat) : Nat → MillerLine → List Nat
  | _, [] => []
  | start, (message, idle) :: line =>
      millerEdges half false start message.bits ++
        lineEdges half (start + 2 * half * message.bits.length + idle) line

def lineEnd (half : Nat) : Nat → MillerLine → Nat
  | start, [] => start
  | start, (message, idle) :: line =>
      lineEnd half (start + 2 * half * message.bits.length + idle) line

def lineOuts (half : Nat) : Nat → MillerLine → List MillerOut
  | _, [] => []
  | start, (message, idle) :: line =>
      messageOuts half start message.bits ++
        lineOuts half (start + 2 * half * message.bits.length + idle) line

theorem le_of_mem_millerEdges (bits : List Bool) {previous : Bool}
    {point : Nat} (member : point ∈ millerEdges half previous start bits) :
    start ≤ point := by
  induction bits generalizing previous start with
  | nil => cases member
  | cons bit bits ih =>
      rw [millerEdges] at member
      rcases mem_append.mp member with here | later
      · split at here
        · rw [mem_singleton.mp here]
          exact Nat.le_add_right start half
        · split at here
          · cases here
          · exact Nat.le_of_eq (mem_singleton.mp here).symm
      · exact Nat.le_trans (Nat.le_add_right start _) (ih later)

theorem le_of_mem_lineEdges (line : MillerLine) {point : Nat}
    (member : point ∈ lineEdges half start line) : start ≤ point := by
  induction line generalizing start with
  | nil => cases member
  | cons part line ih =>
      rcases mem_append.mp member with here | later
      · exact le_of_mem_millerEdges _ here
      · have behind := ih later
        omega

theorem le_lineEnd (half : Nat) (line : MillerLine) (start : Nat) :
    start ≤ lineEnd half start line := by
  induction line generalizing start with
  | nil => exact Nat.le_refl start
  | cons part line ih =>
      have behind := ih (start + 2 * half * part.1.bits.length + part.2)
      rw [lineEnd]
      omega

theorem MillerState.Idle.line (pos : 0 < half) (line : MillerLine)
    (apart : ∀ part ∈ line, 4 * (2 * half) ≤ part.2) {stop : Nat}
    {outs : List MillerOut} (idle : s.Idle outs)
    (long : lineEnd half start line ≤ stop) :
    ((millerDecoder (2 * half)).run s (lineEdges half start line) stop).Idle
      (outs ++ lineOuts half start line) := by
  induction line generalizing start outs s with
  | nil =>
      rw [lineEdges, lineOuts, List.append_nil, EdgeDecoder.run,
        EdgeDecoder.elapse_untimed _ (millerDecoder_first idle.wait _ 0).1]
      exact idle
  | cons part line ih =>
      obtain ⟨message, gap⟩ := part
      obtain ⟨bits, shape⟩ := message.bits_eq
      have wide : 4 * (2 * half) ≤ gap := apart _ mem_cons_self
      rw [lineEnd] at long
      have behind := le_lineEnd half line (start + 2 * half * message.bits.length + gap)
      rw [lineEdges, lineOuts, ← List.append_assoc]
      have late : ∀ point ∈ lineEdges half (start + 2 * half * message.bits.length + gap) line,
          start + 2 * half * message.bits.length + 8 * half ≤ point := by
        intro point member
        have le := le_of_mem_lineEdges line member
        omega
      have lateStop : start + 2 * half * message.bits.length + 8 * half ≤ stop := by omega
      have ends := message.ends
      rw [shape] at late lateStop ends
      obtain ⟨t, after, ran⟩ := idle.message pos bits ends late lateStop
      rw [← shape] at after ran
      rw [ran]
      exact ih (fun other member => apart other (mem_cons_of_mem _ member)) after long

def MillerOut.bit? : MillerOut → Option Bool
  | .bit _ _ value => some value
  | _ => none

/-- One annotation for each bit, one with all of them, and one binary output. -/
def MessageReported (bits : List Bool) (outs : List MillerOut) : Prop :=
  ∃ (ann : List MillerOut) (ss es : Nat) (text : List Char) (data : List UInt8),
    outs = ann ++ [MillerOut.bitstring ss es text, .raw ss es data] ∧
      ann.map MillerOut.bit? = bits.map some ∧
      digitsOf text = bits.map bitDigit ∧
      LsbFirst data bits

def MessagesReported (messages : List (List Bool)) (outs : List MillerOut) : Prop :=
  ∃ parts : List (List MillerOut),
    outs = parts.flatten ∧ List.Forall₂ MessageReported messages parts

theorem bit?_bitOuts (half start : Nat) (bits : List Bool) :
    (bitOuts half start bits).map MillerOut.bit? = bits.map some := by
  induction bits generalizing start with
  | nil => rfl
  | cons bit bits ih =>
      rw [bitOuts, map_cons, ih, map_cons]
      rfl

theorem MessageReported.length {bits : List Bool} {outs : List MillerOut}
    (reported : MessageReported bits outs) : outs.length = bits.length + 2 := by
  obtain ⟨ann, ss, es, text, data, rfl, same, -⟩ := reported
  have count := congrArg List.length same
  rw [length_map, length_map] at count
  rw [length_append, count]
  rfl

theorem length_messageOuts (half start : Nat) (bits : List Bool) :
    (messageOuts half start bits).length = bits.length + 2 := by
  have count := congrArg List.length (bit?_bitOuts half start bits)
  rw [length_map, length_map] at count
  rw [messageOuts, length_append, count]
  rfl

theorem messageReported_messageOuts (half start : Nat) (bits : List Bool) :
    MessageReported bits (messageOuts half start bits) ↔ bits.length ≤ 256 := by
  have short : (bits.take 256).length ≤ 256 := by
    rw [length_take]
    omega
  have written : digitsOf (bitstringText 0 [] (bits.take 256)) = (bits.take 256).map bitDigit :=
    digitsOf_bitstringText _ (Nat.le_refl 0) (by omega)
  constructor
  · rintro ⟨ann, ss, es, text, data, same, -, digits, -⟩
    obtain ⟨-, last⟩ := append_inj' same rfl
    injection last with string
    injection string with _ _ textEq
    rw [← textEq, written] at digits
    have count := congrArg List.length digits
    rw [length_map, length_map] at count
    omega
  · intro fits
    rw [take_of_length_le fits] at written
    refine ⟨_, _, _, _, _, rfl, bit?_bitOuts half start bits, ?_, ?_⟩
    · rw [take_of_length_le fits]
      exact written
    · rw [take_of_length_le fits]
      exact binaryData_lsbFirst fits

theorem messagesReported_lineOuts (half : Nat) (line : MillerLine) (start : Nat) :
    MessagesReported (line.map fun part => part.1.bits) (lineOuts half start line) ↔
      ∀ part ∈ line, part.1.bits.length ≤ 256 := by
  induction line generalizing start with
  | nil => exact ⟨fun _ _ absurd => (nomatch absurd), fun _ => ⟨[], rfl, .nil⟩⟩
  | cons part line ih =>
      rw [forall_mem_cons, ← ih (start + 2 * half * part.1.bits.length + part.2),
        ← messageReported_messageOuts half start]
      constructor
      · rintro ⟨parts, flat, each⟩
        cases each with
        | cons reported later =>
            obtain ⟨here, rest⟩ := append_inj flat
              ((length_messageOuts half start _).trans reported.length.symm)
            rw [here]
            exact ⟨reported, _, rest, later⟩
      · rintro ⟨reported, parts, flat, each⟩
        exact ⟨_ :: parts, congrArg (messageOuts half start part.1.bits ++ ·) flat,
          .cons reported each⟩

/-- A line that carries messages, from `start` on, with four idle units behind each. -/
structure MillerSent (half start : Nat) (line : MillerLine) (old : Bool)
    (samples : List Bool) : Prop where
  edges : edgesFrom MillerEdge.falling.matches old 0 samples = lineEdges half start line
  long : lineEnd half start line ≤ samples.length
  apart : ∀ part ∈ line, 4 * (2 * half) ≤ part.2

theorem millerDecode_eq_lineOuts {samplerate : Nat} {baudrate : Int} {old : Bool}
    {line : MillerLine} {samples : List Bool}
    (unit : millerTimeunit samplerate baudrate = 2 * half) (pos : 0 < half)
    (sent : MillerSent half start line old samples) :
    millerDecode samplerate baudrate .falling old samples = lineOuts half start line := by
  have idle : MillerState.reset.Idle [] := ⟨rfl, rfl, rfl⟩
  have after := idle.line pos line sent.apart sent.long
  rw [← sent.edges] at after
  rw [millerDecode]
  simp only [unit]
  rw [if_neg (by omega), (millerDecoder_timely (by omega)).scan_eq_run _ samples
    (fun time timed => by cases timed), Nat.zero_add, MillerState.flushBitstring,
    if_pos after.bits, after.outs, nil_append]

/-- Each message is reported, provided that none has more than 256 bits. -/
theorem millerMessages_iff {samplerate half start : Nat} {baudrate : Int} {old : Bool}
    {line : MillerLine} {samples : List Bool}
    (unit : millerTimeunit samplerate baudrate = 2 * half) (pos : 0 < half)
    (sent : MillerSent half start line old samples) :
    MessagesReported (line.map fun part => part.1.bits)
        (millerDecode samplerate baudrate .falling old samples) ↔
      ∀ part ∈ line, part.1.bits.length ≤ 256 := by
  rw [millerDecode_eq_lineOuts unit pos sent]
  exact messagesReported_lineOuts half line start

/-- `010` and `0`. -/
def twoMessages : MillerLine :=
  [(⟨[false, true, false], rfl, rfl⟩, 8), (⟨[false], rfl, rfl⟩, 8)]

/-- Units of two samples. -/
def twoMessagesSamples : List Bool :=
  [true, false, true, true, false] ++ List.replicate 10 true ++ [false] ++ List.replicate 9 true

theorem millerMessages_iff_twoMessages : MillerSent 1 1 twoMessages true twoMessagesSamples ∧
      MessagesReported (twoMessages.map fun part => part.1.bits)
        (millerDecode 2 1 .falling true twoMessagesSamples) := by
  have unit : millerTimeunit 2 1 = 2 * 1 := @millerTimeunit_mul 2 1 Nat.two_pos Nat.one_pos
  have sent : MillerSent 1 1 twoMessages true twoMessagesSamples :=
    ⟨by decide, by decide, by decide⟩
  have short : ∀ part ∈ twoMessages, part.1.bits.length ≤ 256 := by decide
  exact ⟨sent, (millerMessages_iff unit Nat.one_pos sent).mpr short⟩

def longMessage : MillerLine :=
  [(⟨List.replicate 257 false, rfl, by rw [List.getLast?_replicate]; rfl⟩, 8)]

def longMessageSamples : List Bool :=
  (List.replicate 257 [false, true]).flatten ++ List.replicate 8 true

theorem longMessage_cut : MillerSent 1 0 longMessage true longMessageSamples ∧
      ¬ MessagesReported (longMessage.map fun part => part.1.bits)
        (millerDecode 2 1 .falling true longMessageSamples) := by
  have unit : millerTimeunit 2 1 = 2 * 1 := @millerTimeunit_mul 2 1 Nat.two_pos Nat.one_pos
  have sent : MillerSent 1 0 longMessage true longMessageSamples :=
    ⟨by decide +kernel, by decide +kernel, by decide⟩
  refine ⟨sent, fun reported => ?_⟩
  rw [millerDecode_eq_lineOuts unit Nat.one_pos sent, messagesReported_lineOuts] at reported
  have short : (replicate 257 false).length ≤ 256 := reported _ mem_cons_self
  rw [length_replicate] at short
  omega

end SigrokDecode
