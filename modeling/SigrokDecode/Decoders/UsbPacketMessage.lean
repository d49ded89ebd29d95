import SigrokDecode.Decoders.UsbPacket
import SigrokDecode.Foundation.Crc

/-!
# USB packets as they are sent

The packets with a checksum, and what the checks of the decoder compute.
-/

namespace SigrokDecode

open Foundation Nat BitVec

section Shift

variable {width : Nat}

private theorem shifted_out (register : BitVec width) (positive : 0 < width) :
    register.toNat <<< 1 >>> width = register.msb.toNat := by
  have small := register.isLt
  obtain ⟨lower, rfl⟩ : ∃ lower, width = lower + 1 := ⟨width - 1, by omega⟩
  rw [Nat.shiftLeft_eq, shiftRight_eq_div_pow, msb_eq_decide, Nat.pow_one,
    Nat.pow_succ, Nat.mul_div_mul_right _ _ (by decide), Nat.add_sub_cancel]
  rw [Nat.pow_succ] at small
  by_cases top : 2 ^ lower ≤ register.toNat
  · rw [decide_eq_true top, Bool.toNat_true]
    exact Nat.div_eq_of_lt_le (by omega) (by omega)
  · rw [decide_eq_false top]
    exact div_eq_of_lt (by omega)

theorem usbPktShift_eq (poly register : BitVec width) (bit : Bool) (positive : 0 < width) :
    usbPktShift width (2 ^ width + poly.toNat) (2 ^ width - 1) register.toNat bit =
      (crcStep poly register bit).toNat := by
  have taken : bit.toNat ≠ register.toNat <<< 1 >>> width ↔ (register.msb ^^ bit) = true := by
    rw [shifted_out register positive]
    cases register.msb <;> cases bit <;> decide
  have cut : (2 ^ width + poly.toNat) % 2 ^ width = poly.toNat := by
    rw [add_mod_left, mod_eq_of_lt poly.isLt]
  unfold usbPktShift crcStep
  simp only [taken, and_two_pow_sub_one_eq_mod]
  split
  · rw [xor_mod_two_pow, cut, toNat_xor, toNat_shiftLeft]
  · rw [toNat_shiftLeft]

theorem foldl_usbPktShift (poly start : BitVec width) (bits : List Bool) (positive : 0 < width) :
    bits.foldl (usbPktShift width (2 ^ width + poly.toNat) (2 ^ width - 1)) start.toNat =
      (crcRegister poly start bits).toNat := by
  induction bits generalizing start with
  | nil => rfl
  | cons bit bits ih =>
      rw [List.foldl_cons, usbPktShift_eq poly start bit positive, ih, crcRegister_cons]

private theorem testBit_foldl_or (indices : List Nat) (taken : Nat → Prop) [DecidablePred taken]
    (place : Nat → Nat) (start index : Nat) :
    (indices.foldl (fun out i => if taken i then out ||| 1 <<< place i else out) start).testBit
        index =
      (start.testBit index || decide (∃ i ∈ indices, taken i ∧ place i = index)) := by
  induction indices generalizing start with
  | nil => simp
  | cons i indices ih =>
      rw [List.foldl_cons, ih]
      by_cases here : taken i
      · rw [if_pos here, testBit_or, one_shiftLeft, testBit_two_pow, Bool.or_assoc]
        simp [here]
      · simp [here]

theorem reverseBits_eq (value : BitVec width) :
    reverseBits width value.toNat = value.reverse.toNat := by
  apply eq_of_testBit_eq
  intro index
  have tested : ∀ i, value.toNat >>> i &&& 1 ≠ 0 ↔ value.getLsbD i = true := by
    intro i
    rw [getLsbD, testBit, Nat.and_comm, bne_iff_ne]
  unfold reverseBits
  rw [testBit_foldl_or, zero_testBit, Bool.false_or, testBit_toNat, getLsbD_reverse, getMsbD]
  simp only [tested, List.mem_range]
  by_cases inside : index < width
  · rw [decide_eq_true inside, Bool.true_and]
    have mirrored : (∃ i, i < width ∧ value.getLsbD i = true ∧ width - 1 - i = index) ↔
        value.getLsbD (width - 1 - index) = true := by
      constructor
      · rintro ⟨i, below, set, place⟩
        have same : i = width - 1 - index := by omega
        rw [← same]
        exact set
      · intro set
        exact ⟨width - 1 - index, by omega, set, by omega⟩
    simp only [mirrored, Bool.decide_eq_true]
  · rw [decide_eq_false inside, Bool.false_and, decide_eq_false]
    rintro ⟨i, below, -, place⟩
    omega

theorem usbPktCalcCrc_eq (poly : BitVec width) (bits : List Bool) (positive : 0 < width) :
    usbPktCalcCrc width (2 ^ width + poly.toNat) (2 ^ width - 1) bits =
      (crcCheck poly bits).toNat := by
  have ones : (allOnes width).toNat = 2 ^ width - 1 := toNat_allOnes
  have complement : (crcRegister poly (allOnes width) bits).toNat ^^^ (2 ^ width - 1) =
      (~~~crcRegister poly (allOnes width) bits).toNat := by
    rw [← ones, ← toNat_xor, xor_allOnes]
  unfold usbPktCalcCrc crcCheck
  rw [← reverse_not, ← reverseBits_eq, ← complement, ← foldl_usbPktShift poly _ bits positive, ones]

end Shift

def usbPoly5 : BitVec 5 := 0x05#5

def usbPoly16 : BitVec 16 := 0x8005#16

theorem usbPktCalcCrc16_eq (bits : List Bool) :
    usbPktCalcCrc16 bits = (crcCheck usbPoly16 bits).toNat :=
  usbPktCalcCrc_eq usbPoly16 bits (by decide)

/-- The packets with an address and an endpoint. -/
inductive UsbTokenPid
  | out
  | in
  | setup
  | ping
  deriving DecidableEq

def UsbTokenPid.pid : UsbTokenPid → UsbPid
  | .out => .out
  | .in => .in
  | .setup => .setup
  | .ping => .ping

inductive UsbDataPid
  | data0
  | data1
  | data2
  | mdata
  deriving DecidableEq

def UsbDataPid.pid : UsbDataPid → UsbPid
  | .data0 => .data0
  | .data1 => .data1
  | .data2 => .data2
  | .mdata => .mdata

inductive UsbMessage
  | token (name : UsbTokenPid) (addr : BitVec 7) (ep : BitVec 4)
  | sof (framenum : BitVec 11)
  | data (name : UsbDataPid) (bytes : List (BitVec 8))

namespace UsbMessage

def pid : UsbMessage → UsbPid
  | .token name _ _ => name.pid
  | .sof _ => .sof
  | .data name _ => name.pid

/-- The bits between the packet identifier and the check; every number goes out with its
lowest bit first. -/
def payload : UsbMessage → List Bool
  | .token _ addr ep => lsbBits 7 addr.toNat ++ lsbBits 4 ep.toNat
  | .sof framenum => lsbBits 11 framenum.toNat
  | .data _ bytes => byteBits bytes

def crcWidth : UsbMessage → Nat
  | .token _ _ _ => 5
  | .sof _ => 5
  | .data _ _ => 16

def check : (message : UsbMessage) → BitVec message.crcWidth
  | .token name addr ep => crcCheck usbPoly5 (payload (.token name addr ep))
  | .sof framenum => crcCheck usbPoly5 (payload (.sof framenum))
  | .data name bytes => crcCheck usbPoly16 (payload (.data name bytes))

/-- A packet of the shape of `message` with any number for its check. -/
def bits (message : UsbMessage) (crc : BitVec message.crcWidth) : List Bool :=
  UsbPktState.syncBits ++ (message.pid.bits ++ (message.payload ++
    lsbBits message.crcWidth crc.toNat))

/-- What the decoder has to report for a packet with the right check. -/
def report : (message : UsbMessage) → BitVec message.crcWidth → List UsbPktField
  | .token name addr ep, crc =>
      [.pid name.pid, .addr addr.toNat, .ep ep.toNat, .crc5Ok crc.toNat]
  | .sof framenum, crc => [.pid .sof, .framenum framenum.toNat, .crc5Ok crc.toNat]
  | .data name bytes, crc =>
      .pid name.pid :: bytes.map (fun byte => .data byte.toNat) ++ [UsbPktField.crc16Ok crc.toNat]

/-- What it has to report for one with another check. -/
def crcError : (message : UsbMessage) → BitVec message.crcWidth → UsbPktField
  | .token _ _ _, crc => .crc5Err crc.toNat
  | .sof _, crc => .crc5Err crc.toNat
  | .data _ _, crc => .crc16Err crc.toNat

end UsbMessage

end SigrokDecode
