import SigrokDecode.Decoders.FlexRay
import SigrokDecode.Foundation.Crc

/-!
# FlexRay frames

The bits of a static frame as a sender puts them on the bus, and what `flexray_c` is to say
about them.
-/

set_option linter.dupNamespace false

namespace SigrokDecode

open Foundation

/-- A static frame; both CRCs may have any value. -/
structure FlexrayFrame where
  reserved : Bool
  ppi : Bool
  nullFrame : Bool
  sync : Bool
  startup : Bool
  id : BitVec 11
  headerCrc : BitVec 11
  cycle : BitVec 6
  /-- The two bytes of each word. -/
  words : List (BitVec 8 × BitVec 8)
  frameCrc : BitVec 24
  short : words.length < 128

/-- The bits of `count` bytes, with a byte start sequence in front of each. -/
def byteStarts : Nat → List Bool → List Bool
  | 0, _ => []
  | count + 1, bits => true :: false :: bits.take 8 ++ byteStarts count (bits.drop 8)

def flexrayHeaderCrc (bits : List Bool) : BitVec 11 :=
  crcRegister 0x385#11 0x01A#11 bits

def flexrayGenerator : BitVec 24 := 0x5D6DCB#24

def FlexrayChannel.frameInit : FlexrayChannel → BitVec 24
  | .a => 0xFEDCBA#24
  | .b => 0xABCDEF#24

def flexrayFrameCrc (channel : FlexrayChannel) (bits : List Bool) : BitVec 24 :=
  crcRegister flexrayGenerator channel.frameInit bits

def FlexrayField.withoutVerdict : FlexrayField → FlexrayField
  | .headerCrc value _ => .headerCrc value true
  | .frameCrc value _ => .frameCrc value true
  | field => field

def FlexrayAnn.withoutVerdict (ann : FlexrayAnn) : FlexrayAnn :=
  { ann with field := ann.field.withoutVerdict }

def FlexrayField.isRawBit : FlexrayField → Bool
  | .bss _ => true
  | .bit _ => true
  | _ => false

namespace FlexrayFrame

variable (frame : FlexrayFrame)

def bytes : List (BitVec 8) :=
  frame.words.flatMap fun word => [word.1, word.2]

def headerCovered : List Bool :=
  [frame.sync, frame.startup] ++ msbBits 11 frame.id.toNat ++ msbBits 7 frame.words.length

def header : List Bool :=
  [frame.reserved, frame.ppi, frame.nullFrame] ++ frame.headerCovered ++
    msbBits 11 frame.headerCrc.toNat ++ msbBits 6 frame.cycle.toNat

def payload : List Bool :=
  frame.bytes.flatMap fun byte => msbBits 8 byte.toNat

def covered : List Bool :=
  frame.header ++ frame.payload

def bits : List Bool :=
  true :: (frame.covered ++ msbBits 24 frame.frameCrc.toNat)

def byteCount : Nat :=
  8 + 2 * frame.words.length

/-- The bits behind the transmission start sequence, with the frame end sequence and the
channel idle delimiter. -/
def wire : List Bool :=
  true :: byteStarts frame.byteCount frame.bits.tail ++ [false, true] ++ List.replicate 11 true

/-- The number on the bus of the bit `k` of the frame. -/
def wireIndex (k : Nat) : Nat :=
  if k = 0 then 0
  else if k ≤ 8 * frame.byteCount then 3 + 10 * ((k - 1) / 8) + (k - 1) % 8
  else k + 2 * frame.byteCount

def payloadEnd : Nat :=
  41 + 16 * frame.words.length

section Report

variable (config : FlexrayConfig) (tss : Nat × Nat) (samples : Nat → Nat)

/-- An annotation from `ss` to `es`, apart from the sample points. -/
def shown (ss es : Nat) (field : FlexrayField) : FlexrayAnn :=
  ⟨ss - config.left, es + config.right, field⟩

/-- A field over its own bits. -/
def across (first last : Nat) (field : FlexrayField) : FlexrayAnn :=
  shown config (samples (frame.wireIndex first)) (samples (frame.wireIndex last)) field

/-- The fields of the header, with `id` as the frame identifier. -/
def headerFields (id : Nat) (headerOk : Bool) : List FlexrayAnn :=
  [shown config tss.1 tss.2 .tss, frame.across config samples 0 0 .fss,
    frame.across config samples 1 1 (.reservedBit frame.reserved),
    frame.across config samples 2 2 (.ppi frame.ppi),
    frame.across config samples 3 3 (.nullFrame frame.nullFrame),
    frame.across config samples 4 4 (.syncFrame frame.sync),
    frame.across config samples 5 5 (.startupFrame frame.startup),
    frame.across config samples 6 16 (.id id),
    frame.across config samples 17 23 (.length frame.words.length),
    frame.across config samples 24 34 (.headerCrc frame.headerCrc.toNat headerOk),
    frame.across config samples 35 40 (.cycle frame.cycle.toNat)]

def dataFields : List FlexrayAnn :=
  frame.bytes.zipIdx.map fun byte =>
    frame.across config samples (41 + 8 * byte.2) (48 + 8 * byte.2) (.dataByte byte.2 byte.1.toNat)

/-- All fields of the frame, each over its own bits; the verdicts are left open. -/
def fields : List FlexrayAnn :=
  frame.headerFields config tss samples frame.id.toNat true ++ frame.dataFields config samples ++
    [frame.across config samples frame.payloadEnd (frame.payloadEnd + 23)
        (.frameCrc frame.frameCrc.toNat true),
      frame.across config samples (frame.payloadEnd + 24) (frame.payloadEnd + 25) .fes,
      frame.across config samples (frame.payloadEnd + 26) (frame.payloadEnd + 36) .cid]

end Report

theorem length_bytes : frame.bytes.length = 2 * frame.words.length := by
  simp [bytes, List.length_flatMap, Nat.mul_comm]

theorem length_header : frame.header.length = 40 := by
  simp [header, headerCovered]

theorem length_payload : frame.payload.length = 16 * frame.words.length := by
  simp [payload, List.length_flatMap, frame.length_bytes]
  omega

theorem length_covered : frame.covered.length = 40 + 16 * frame.words.length := by
  rw [covered, List.length_append, length_header, length_payload]

theorem length_bits : frame.bits.length = 8 * frame.byteCount + 1 := by
  rw [bits, List.length_cons, List.length_append, length_covered, length_msbBits, byteCount]
  omega

theorem payloadEnd_eq : frame.payloadEnd + 24 = 8 * frame.byteCount + 1 := by
  rw [payloadEnd, byteCount]
  omega

theorem wireIndex_byte {q j : Nat} (inside : q < frame.byteCount) (small : j < 8) :
    frame.wireIndex (8 * q + 1 + j) = 3 + 10 * q + j := by
  rw [wireIndex, if_neg (by omega), if_pos (by omega)]
  omega

theorem wireIndex_behind {k : Nat} (behind : 8 * frame.byteCount < k) :
    frame.wireIndex k = k + 2 * frame.byteCount := by
  rw [wireIndex, if_neg (by omega), if_neg (by omega)]

section Slices

variable {k : Nat}

theorem take_id (read : 16 ≤ k) : bitpackMsb (frame.bits.take k) 6 10 = frame.id.toNat / 2 := by
  have split : frame.bits =
      [true, frame.reserved, frame.ppi, frame.nullFrame, frame.sync, frame.startup] ++
        msbBits 10 (frame.id.toNat / 2) ++
        ([decide (frame.id.toNat % 2 = 1)] ++ msbBits 7 frame.words.length ++
          msbBits 11 frame.headerCrc.toNat ++ msbBits 6 frame.cycle.toNat ++ frame.payload ++
          msbBits 24 frame.frameCrc.toNat) := by
    simp [bits, covered, header, headerCovered, msbBits]
  have begins :
      [true, frame.reserved, frame.ppi, frame.nullFrame, frame.sync, frame.startup].length = 6 :=
    rfl
  rw [bitpackMsb_field split begins (length_msbBits 10 _) (by decide) (by omega)]
  have fits := frame.id.isLt
  exact packMsb_msbBits (by omega)

theorem take_length (read : 24 ≤ k) : bitpackMsb (frame.bits.take k) 17 7 = frame.words.length := by
  have split : frame.bits =
      ([true, frame.reserved, frame.ppi, frame.nullFrame, frame.sync, frame.startup] ++
        msbBits 11 frame.id.toNat) ++ msbBits 7 frame.words.length ++
        (msbBits 11 frame.headerCrc.toNat ++ msbBits 6 frame.cycle.toNat ++ frame.payload ++
          msbBits 24 frame.frameCrc.toNat) := by
    simp [bits, covered, header, headerCovered]
  rw [bitpackMsb_field split (by simp) (length_msbBits 7 _) (by decide) (by omega)]
  exact packMsb_msbBits frame.short

theorem take_headerCovered (read : 24 ≤ k) :
    bitpackMsb (frame.bits.take k) 4 20 = packMsb frame.headerCovered := by
  have split : frame.bits =
      [true, frame.reserved, frame.ppi, frame.nullFrame] ++ frame.headerCovered ++
        (msbBits 11 frame.headerCrc.toNat ++ msbBits 6 frame.cycle.toNat ++ frame.payload ++
          msbBits 24 frame.frameCrc.toNat) := by
    simp [bits, covered, header]
  exact bitpackMsb_field split rfl (by simp [headerCovered]) (by decide) (by omega)

theorem take_headerCrc (read : 35 ≤ k) :
    bitpackMsb (frame.bits.take k) 24 11 = frame.headerCrc.toNat := by
  have split : frame.bits =
      ([true, frame.reserved, frame.ppi, frame.nullFrame] ++ frame.headerCovered) ++
        msbBits 11 frame.headerCrc.toNat ++
        (msbBits 6 frame.cycle.toNat ++ frame.payload ++ msbBits 24 frame.frameCrc.toNat) := by
    simp [bits, covered, header]
  rw [bitpackMsb_field split (by simp [headerCovered]) (length_msbBits 11 _) (by decide)
    (by omega)]
  exact packMsb_msbBits frame.headerCrc.isLt

theorem take_cycle (read : 41 ≤ k) : bitpackMsb (frame.bits.take k) 35 6 = frame.cycle.toNat := by
  have split : frame.bits =
      ([true, frame.reserved, frame.ppi, frame.nullFrame] ++ frame.headerCovered ++
        msbBits 11 frame.headerCrc.toNat) ++ msbBits 6 frame.cycle.toNat ++
        (frame.payload ++ msbBits 24 frame.frameCrc.toNat) := by
    simp [bits, covered, header]
  rw [bitpackMsb_field split (by simp [headerCovered]) (length_msbBits 6 _) (by decide)
    (by omega)]
  exact packMsb_msbBits frame.cycle.isLt

theorem take_byte {i : Nat} (inside : i < frame.bytes.length)
    (read : 41 + 8 * frame.bytes.length ≤ k) :
    bitpackMsb (frame.bits.take k) (41 + 8 * i) 8 = (frame.bytes.get ⟨i, inside⟩).toNat := by
  have split : frame.bits =
      (true :: frame.header) ++ (frame.bytes.flatMap fun byte => msbBits 8 byte.toNat) ++
        msbBits 24 frame.frameCrc.toNat := by
    simp [bits, covered, payload]
  exact bitpackMsb_byte split (by simp [length_header]) inside read

theorem take_frameCrc (read : frame.payloadEnd + 24 ≤ k) :
    bitpackMsb (frame.bits.take k) frame.payloadEnd 24 = frame.frameCrc.toNat := by
  have split : frame.bits =
      (true :: frame.covered) ++ msbBits 24 frame.frameCrc.toNat ++ [] := by
    simp [bits]
  have begins : (true :: frame.covered).length = frame.payloadEnd := by
    rw [List.length_cons, length_covered, payloadEnd]
    omega
  rw [bitpackMsb_field split begins (length_msbBits 24 _) (by decide) read]
  exact packMsb_msbBits frame.frameCrc.isLt

theorem bits_two : frame.bits.take 2 = [true, frame.reserved] := by
  simp [bits, covered, header]

theorem bits_flags : frame.bits[2]? = some frame.ppi ∧ frame.bits[3]? = some frame.nullFrame ∧
    frame.bits[4]? = some frame.sync ∧ frame.bits[5]? = some frame.startup := by
  have split : frame.bits = true :: frame.reserved :: frame.ppi :: frame.nullFrame ::
      frame.sync :: frame.startup :: frame.bits.drop 6 := by
    simp [bits, covered, header, headerCovered]
  rw [split]
  exact ⟨rfl, rfl, rfl, rfl⟩

end Slices

end FlexrayFrame

end SigrokDecode
