import Mathlib.Data.BitVec
import Mathlib.Logic.Function.Iterate
import SigrokDecode.Foundation.BitFields

/-!
# Cyclic redundancy checks

A check is the register of a division over the field with two elements, fed one
message bit at a time. The register is written with its highest coefficient first;
`crcStepLsb` is the same division in a register written the other way round, which
is what programs that shift to the right compute.
-/

namespace SigrokDecode.Foundation

open List BitVec

variable {width : Nat}

/-- One division step by the monic polynomial whose lower coefficients are `poly`. -/
def crcStep (poly register : BitVec width) (bit : Bool) : BitVec width :=
  if register.msb ^^ bit then (register <<< 1) ^^^ poly else register <<< 1

def crcRegister (poly start : BitVec width) (bits : List Bool) : BitVec width :=
  bits.foldl (crcStep poly) start

@[simp] theorem crcRegister_cons (poly start : BitVec width) (bit : Bool) (bits : List Bool) :
    crcRegister poly start (bit :: bits) = crcRegister poly (crcStep poly start bit) bits := rfl

theorem crcRegister_append (poly start : BitVec width) (first second : List Bool) :
    crcRegister poly start (first ++ second) =
      crcRegister poly (crcRegister poly start first) second :=
  foldl_append

private theorem shiftLeft_injective {first second : BitVec width}
    (top : first.msb = second.msb) (same : first <<< 1 = second <<< 1) : first = second := by
  apply eq_of_getLsbD_eq
  intro index inside
  by_cases highest : index = width - 1
  · rw [msb_eq_getLsbD_last, msb_eq_getLsbD_last] at top
    rw [highest]
    exact top
  · have shifted : (first <<< 1).getLsbD (index + 1) = (second <<< 1).getLsbD (index + 1) := by
      rw [same]
    have below : index + 1 < width := by omega
    simp only [getLsbD_shiftLeft, below, Nat.add_sub_cancel] at shifted
    simpa using shifted

private theorem crcStep_lowest (poly register : BitVec width) (bit : Bool) :
    (crcStep poly register bit).getLsbD 0 = ((register.msb ^^ bit) && poly.getLsbD 0) := by
  unfold crcStep
  cases taken : (register.msb ^^ bit) with
  | true => simp [getLsbD_shiftLeft]
  | false => simp [getLsbD_shiftLeft]

variable {poly : BitVec width} {bits : List Bool}

theorem crcStep_injective (constant : poly.getLsbD 0 = true) (bit : Bool)
    {first second : BitVec width} (same : crcStep poly first bit = crcStep poly second bit) :
    first = second := by
  have lowest : (first.msb ^^ bit) = (second.msb ^^ bit) := by
    have bits : (crcStep poly first bit).getLsbD 0 = (crcStep poly second bit).getLsbD 0 := by
      rw [same]
    rw [crcStep_lowest poly first bit, crcStep_lowest poly second bit,
      constant, Bool.and_true, Bool.and_true] at bits
    exact bits
  have top : first.msb = second.msb := by
    cases bit with
    | true => simpa using lowest
    | false => simpa using lowest
  apply shiftLeft_injective top
  unfold crcStep at same
  rw [lowest] at same
  split at same
  · exact xor_left_inj _ |>.mp same
  · exact same

theorem crcRegister_injective (constant : poly.getLsbD 0 = true)
    (bits : List Bool) {first second : BitVec width}
    (same : crcRegister poly first bits = crcRegister poly second bits) : first = second := by
  induction bits generalizing first second with
  | nil => exact same
  | cons bit bits ih =>
      rw [crcRegister_cons, crcRegister_cons] at same
      exact crcStep_injective constant bit (ih same)

theorem crcStep_xor (poly first second : BitVec width) (bit : Bool) :
    crcStep poly (first ^^^ second) bit =
      crcStep poly first false ^^^ crcStep poly second bit := by
  have top : ((first ^^^ second).msb ^^ bit) = ((first.msb ^^ false) ^^ (second.msb ^^ bit)) := by
    rw [msb_xor]
    cases first.msb <;> cases second.msb <;> cases bit <;> rfl
  unfold crcStep
  rw [top, shiftLeft_xor_distrib]
  cases (first.msb ^^ false) with
  | false =>
      cases (second.msb ^^ bit) with
      | false => rfl
      | true => exact BitVec.xor_assoc _ _ _
  | true =>
      cases (second.msb ^^ bit) with
      | false =>
          simp only [Bool.xor_false, if_true, Bool.false_eq_true, if_false]
          rw [BitVec.xor_assoc, BitVec.xor_comm (second <<< 1), ← BitVec.xor_assoc]
      | true =>
          simp only [Bool.xor_true, Bool.not_true, Bool.false_eq_true, if_false, if_true]
          rw [BitVec.xor_assoc, BitVec.xor_comm poly, BitVec.xor_assoc, BitVec.xor_self, xor_zero]

/-- The message adds the check that it has on its own. -/
theorem crcRegister_xor (poly first second : BitVec width) (bits : List Bool) :
    crcRegister poly (first ^^^ second) bits =
      crcRegister poly first (List.replicate bits.length false) ^^^
        crcRegister poly second bits := by
  induction bits generalizing first second with
  | nil => rfl
  | cons bit bits ih =>
      rw [crcRegister_cons, crcStep_xor, ih, length_cons,
        List.replicate_succ, crcRegister_cons, crcRegister_cons]

theorem crcRegister_eq_zeros_iff (poly start : BitVec width) (bits : List Bool) :
    crcRegister poly start bits = crcRegister poly start (List.replicate bits.length false) ↔
      crcRegister poly 0 bits = 0 := by
  have sum := crcRegister_xor poly start 0 bits
  rw [show start ^^^ 0 = start from xor_zero] at sum
  rw [sum]
  constructor
  · intro same
    have cancelled := congrArg
      (fun register => crcRegister poly start (List.replicate bits.length false) ^^^ register) same
    simpa [← BitVec.xor_assoc] using cancelled
  · intro zero
    rw [zero]
    exact xor_zero

def crcStepLsb (poly register : BitVec width) (bit : Bool) : BitVec width :=
  if register.getLsbD 0 ^^ bit then (register >>> 1) ^^^ poly else register >>> 1

theorem reverse_shiftLeft_one (register : BitVec width) :
    (register <<< 1).reverse = register.reverse >>> 1 := by
  apply eq_of_getLsbD_eq
  intro index inside
  simp only [getLsbD_reverse, getLsbD_ushiftRight, getMsbD_shiftLeft]
  rw [Nat.add_comm]

theorem reverse_xor (first second : BitVec width) :
    (first ^^^ second).reverse = first.reverse ^^^ second.reverse := by
  apply eq_of_getLsbD_eq
  intro index inside
  simp [getLsbD_reverse]

theorem reverse_not (register : BitVec width) : (~~~register).reverse = ~~~register.reverse := by
  apply eq_of_getLsbD_eq
  intro index inside
  simp only [getLsbD_reverse, getMsbD_not, getLsbD_not, inside]

theorem crcStepLsb_reverse (poly register : BitVec width) (bit : Bool) :
    crcStepLsb poly.reverse register.reverse bit = (crcStep poly register bit).reverse := by
  have tested : register.reverse.getLsbD 0 = register.msb := by
    rw [getLsbD_reverse]
    rfl
  unfold crcStepLsb crcStep
  rw [tested]
  split
  · rw [reverse_xor, reverse_shiftLeft_one]
  · rw [reverse_shiftLeft_one]

theorem foldl_crcStepLsb (poly start : BitVec width) (bits : List Bool) :
    bits.foldl (crcStepLsb poly.reverse) start.reverse = (crcRegister poly start bits).reverse := by
  induction bits generalizing start with
  | nil => rfl
  | cons bit bits ih =>
      rw [foldl_cons, crcStepLsb_reverse, ih, crcRegister_cons]

private theorem crcStepLsb_xor (poly register value : BitVec width) :
    crcStepLsb poly register (value.getLsbD 0) ^^^ (value >>> 1) =
      crcStepLsb poly (register ^^^ value) false := by
  unfold crcStepLsb
  rw [getLsbD_xor, Bool.xor_false, ushiftRight_xor_distrib]
  split
  · rw [BitVec.xor_assoc, BitVec.xor_assoc, BitVec.xor_comm poly]
  · rfl

theorem foldl_lsbBits (poly register value : BitVec width) (count : Nat) :
    (lsbBits count value.toNat).foldl (crcStepLsb poly) register ^^^ (value >>> count) =
      (fun shifted => crcStepLsb poly shifted false)^[count] (register ^^^ value) := by
  induction count generalizing register value with
  | zero => simp [lsbBits]
  | succ count ih =>
      have lowest : decide (value.toNat % 2 = 1) = value.getLsbD 0 := by
        simp [getLsbD, Nat.testBit_zero]
      have halved : value.toNat / 2 = (value >>> 1).toNat := by
        simp [toNat_ushiftRight, Nat.shiftRight_eq_div_pow]
      rw [Function.iterate_succ_apply, ← crcStepLsb_xor, ← ih, lsbBits, lowest,
        halved, foldl_cons, ← shiftRight_add, Nat.add_comm 1 count]

theorem reverse_reverse (register : BitVec width) : register.reverse.reverse = register := by
  apply eq_of_getLsbD_eq
  intro index inside
  rw [getLsbD_reverse, getMsbD_reverse]

theorem crcStepLsb_injective (constant : poly.getLsbD 0 = true) :
    Function.Injective fun register => crcStepLsb poly.reverse register false := by
  intro first second same
  have mirrored (register : BitVec width) :
      crcStepLsb poly.reverse register false = (crcStep poly register.reverse false).reverse := by
    rw [← crcStepLsb_reverse, reverse_reverse]
  dsimp only at same
  rw [mirrored, mirrored] at same
  have steps := congrArg BitVec.reverse same
  rw [reverse_reverse, reverse_reverse] at steps
  have reversed := congrArg BitVec.reverse (crcStep_injective constant false steps)
  rw [reverse_reverse, reverse_reverse] at reversed
  exact reversed

theorem foldl_check_eq_iff (constant : poly.getLsbD 0 = true)
    (register check difference : BitVec width) :
    (lsbBits width check.toNat).foldl (crcStepLsb poly.reverse) register =
        (fun shifted => crcStepLsb poly.reverse shifted false)^[width] difference ↔
      register ^^^ check = difference := by
  have fed := foldl_lsbBits poly.reverse register check width
  rw [ushiftRight_eq_zero (Nat.le_refl width), xor_zero] at fed
  rw [fed]
  exact ((crcStepLsb_injective constant).iterate width).eq_iff

theorem foldl_check_eq_zero_iff (constant : poly.getLsbD 0 = true) (register check : BitVec width) :
    (lsbBits width check.toNat).foldl (crcStepLsb poly.reverse) register = 0 ↔
      register = check := by
  have fixed : crcStepLsb poly.reverse 0 false = 0 := by
    unfold crcStepLsb
    simp
  have zero := foldl_check_eq_iff constant register check 0
  rw [Function.iterate_fixed fixed] at zero
  exact zero.trans BitVec.xor_eq_zero_iff

/-- The check over some bits, as the number that is sent lowest bit first: the register begins
with ones, and its complement is sent. -/
def crcCheck (poly : BitVec width) (bits : List Bool) : BitVec width :=
  ~~~(crcRegister poly (BitVec.allOnes width) bits).reverse

/-- Bits in front of the message change the check, unless they bring the register back to
where it began. -/
theorem crcCheck_append_ne (constant : poly.getLsbD 0 = true)
    {front : List Bool}
    (moved : crcRegister poly (allOnes width) front ≠ allOnes width)
    (bits : List Bool) : crcCheck poly (front ++ bits) ≠ crcCheck poly bits := by
  intro same
  unfold crcCheck at same
  rw [crcRegister_append] at same
  have reversed := BitVec.not_inj.mp same
  have registers := congrArg BitVec.reverse reversed
  rw [reverse_reverse_eq, reverse_reverse_eq] at registers
  exact moved (crcRegister_injective constant bits registers)

/-- The bits of bytes as they go over a wire that sends the lowest bit first. -/
def byteBits (bytes : List (BitVec 8)) : List Bool :=
  bytes.flatMap fun byte => lsbBits 8 byte.toNat

theorem byteBits_cons (byte : BitVec 8) (bytes : List (BitVec 8)) :
    byteBits (byte :: bytes) = lsbBits 8 byte.toNat ++ byteBits bytes := by
  rw [byteBits, byteBits, flatMap_cons]

@[simp] theorem length_byteBits (bytes : List (BitVec 8)) :
    (byteBits bytes).length = 8 * bytes.length := by
  induction bytes with
  | nil => rfl
  | cons byte bytes ih =>
      rw [byteBits_cons, length_append, length_lsbBits, ih, length_cons]
      omega

theorem byteBits_append (first second : List (BitVec 8)) :
    byteBits (first ++ second) = byteBits first ++ byteBits second :=
  flatMap_append

def byteOf (bits : List Bool) : BitVec 8 :=
  BitVec.ofNat 8 (packLsb bits)

theorem byteOf_toNat (short : bits.length ≤ 8) : (byteOf bits).toNat = packLsb bits := by
  have small : packLsb bits < 2 ^ 8 :=
    Nat.lt_of_lt_of_le (packLsb_lt bits) (Nat.pow_le_pow_right (by decide) short)
  rw [byteOf, toNat_ofNat, Nat.mod_eq_of_lt small]

theorem byteOf_lsbBits (byte : BitVec 8) : byteOf (lsbBits 8 byte.toNat) = byte := by
  apply eq_of_toNat_eq
  rw [byteOf_toNat (by simp), packLsb_lsbBits byte.isLt]

theorem byteOf_concat (room : bits.length < 8) (bit : Bool) : byteOf (bits ++ [bit]) =
      byteOf bits ||| (ofBool bit).setWidth 8 <<< bits.length := by
  apply eq_of_toNat_eq
  have below : packLsb bits < 2 ^ bits.length := packLsb_lt bits
  have fits : bit.toNat * 2 ^ bits.length < 2 ^ 8 := by
    have digit : bit.toNat ≤ 1 := Bool.toNat_le bit
    have power : 2 ^ bits.length ≤ 2 ^ 7 := Nat.pow_le_pow_right (by decide) (by omega)
    calc
      bit.toNat * 2 ^ bits.length ≤ 1 * 2 ^ 7 := Nat.mul_le_mul digit power
      _ < 2 ^ 8 := by decide
  have small : bit.toNat < 2 ^ 8 := Nat.lt_of_le_of_lt (Bool.toNat_le bit) (by decide)
  have longer : (bits ++ [bit]).length ≤ 8 := by
    rw [length_append, length_singleton]
    omega
  rw [toNat_or, byteOf_toNat longer, byteOf_toNat (Nat.le_of_lt room), packLsb_concat,
    toNat_shiftLeft, toNat_setWidth, toNat_ofBool, Nat.mod_eq_of_lt small,
    Nat.shiftLeft_eq, Nat.mod_eq_of_lt fits, Nat.mul_comm bit.toNat, Nat.add_comm,
    Nat.two_pow_add_eq_or_of_lt below, Nat.or_comm]

theorem byteBits_byteOf (whole : bits.length = 8) : byteBits [byteOf bits] = bits := by
  have short : bits.length ≤ 8 := Nat.le_of_eq whole
  have again : lsbBits 8 (packLsb bits) = bits := by rw [← whole, lsbBits_packLsb]
  rw [byteBits_cons, byteOf_toNat short, again]
  exact List.append_nil bits

theorem byteBits_append_inj {first second : List (BitVec 8)} {tail rest : List Bool}
    (tailShort : tail.length < 8) (restShort : rest.length < 8)
    (same : byteBits first ++ tail = byteBits second ++ rest) :
    first = second ∧ tail = rest := by
  have lengths := congrArg List.length same
  simp only [length_append, length_byteBits] at lengths
  induction first generalizing second with
  | nil =>
      cases second with
      | nil => exact ⟨rfl, same⟩
      | cons byte second =>
          rw [length_nil, length_cons] at lengths
          omega
  | cons byte first ih =>
      cases second with
      | nil =>
          rw [length_nil, length_cons] at lengths
          omega
      | cons other second =>
          rw [length_cons, length_cons] at lengths
          rw [byteBits_cons, byteBits_cons, List.append_assoc, List.append_assoc] at same
          have equalLengths : (lsbBits 8 byte.toNat).length = (lsbBits 8 other.toNat).length := by
            rw [length_lsbBits, length_lsbBits]
          obtain ⟨here, later⟩ := append_inj same equalLengths
          have sameByte : byte = other := by rw [← byteOf_lsbBits byte, here, byteOf_lsbBits]
          obtain ⟨bytes, tails⟩ := ih later (by omega)
          exact ⟨by rw [sameByte, bytes], tails⟩

/-- The usual loop over bytes: a byte is added to the register at once, and eight shifts to the
right follow. -/
def crcLoop (poly start : BitVec width) (data : List (BitVec 8)) : BitVec width :=
  data.foldl (fun crc byte =>
      (fun crc => if crc &&& 1#(width) ≠ 0#(width) then (crc >>> 1) ^^^ poly else crc >>> 1)^[8]
        (crc ^^^ byte.setWidth width))
    start

private theorem lowest_bit (register : BitVec width) (positive : 0 < width) :
    register &&& 1#(width) ≠ 0#(width) ↔ register.getLsbD 0 = true := by
  rw [and_one_eq_setWidth_ofBool_getLsbD]
  cases set : register.getLsbD 0 with
  | true =>
      simp only [iff_true]
      intro zero
      have bit := congrArg (fun register : BitVec width => register.getLsbD 0) zero
      simp [positive] at bit
  | false => simp

private theorem setWidth_byte_shift (byte : BitVec 8) : byte.setWidth width >>> 8 = 0#(width) := by
  apply eq_of_getLsbD_eq
  intro index inside
  simp

private theorem crcLoop_byte (poly crc : BitVec width) (byte : BitVec 8) (wide : 8 ≤ width) :
    (fun crc => if crc &&& 1#(width) ≠ 0#(width) then (crc >>> 1) ^^^ poly else crc >>> 1)^[8]
        (crc ^^^ byte.setWidth width) =
      (lsbBits 8 byte.toNat).foldl (crcStepLsb poly) crc := by
  have shift : (fun crc => if crc &&& 1#(width) ≠ 0#(width) then (crc >>> 1) ^^^ poly else crc >>> 1) =
      fun shifted => crcStepLsb poly shifted false := by
    funext register
    unfold crcStepLsb
    rw [Bool.xor_false]
    simp only [lowest_bit register (by omega)]
  have small : byte.toNat < 2 ^ width :=
    Nat.lt_of_lt_of_le byte.isLt (Nat.pow_le_pow_right (by decide) wide)
  have same : (byte.setWidth width).toNat = byte.toNat := by
    rw [toNat_setWidth, Nat.mod_eq_of_lt small]
  have fed := foldl_lsbBits poly crc (byte.setWidth width) 8
  rw [setWidth_byte_shift, xor_zero, same] at fed
  rw [shift, fed]

theorem crcLoop_eq (poly start : BitVec width) (data : List (BitVec 8)) (wide : 8 ≤ width) :
    crcLoop poly.reverse start.reverse data =
      (crcRegister poly start (byteBits data)).reverse := by
  rw [← foldl_crcStepLsb]
  generalize start.reverse = register
  induction data generalizing register with
  | nil => rfl
  | cons byte data ih =>
      rw [byteBits_cons, foldl_append, ← crcLoop_byte _ _ _ wide, ← ih]
      rfl

theorem reverse_allOnes : (allOnes width).reverse = allOnes width := by
  apply eq_of_getLsbD_eq
  intro index inside
  have mirrored : width - 1 - index < width := by omega
  simp [getLsbD_reverse, getMsbD, inside, mirrored]

theorem crcLoop_crcCheck (poly : BitVec width) (data : List (BitVec 8)) (wide : 8 ≤ width) :
    crcLoop poly.reverse (allOnes width) data ^^^ allOnes width =
      crcCheck poly (byteBits data) := by
  have loop := crcLoop_eq poly (allOnes width) data wide
  rw [reverse_allOnes] at loop
  rw [loop, crcCheck, xor_allOnes]

def ethernetPoly : BitVec 32 := 0x04C11DB7#32

def ethernetCrc (bytes : List (BitVec 8)) : BitVec 32 :=
  crcCheck ethernetPoly (byteBits bytes)

end SigrokDecode.Foundation
