import SigrokDecode.Decoders.FlexRayStructure

/-!
# The CRC verdicts of `flexray_c`
-/

namespace SigrokDecode

open Foundation List BitVec

variable {size : Nat}

theorem setWidth_flexrayCrcStep (positive : 0 < size) (fits : size ≤ 32)
    (polynom reg : BitVec 32) (bit : Bool) :
    (flexrayCrcStep polynom size reg bit).setWidth size =
      crcStep (polynom.setWidth size) (reg.setWidth size) bit := by
  have top : (reg.setWidth size).msb = reg.getLsbD (size - 1) := by
    rw [msb_eq_getLsbD_last, getLsbD_setWidth]
    simp [positive]
  have shift : (reg <<< 1).setWidth size = reg.setWidth size <<< 1 := by
    apply eq_of_getLsbD_eq
    intro i inside
    have small : i < 32 := by omega
    have before : i - 1 < size := by omega
    rw [getLsbD_setWidth, getLsbD_shiftLeft, getLsbD_shiftLeft, getLsbD_setWidth]
    simp only [inside, small, before, decide_true, Bool.true_and]
  unfold flexrayCrcStep crcStep
  rw [top]
  split
  · rw [setWidth_xor, shift]
  · exact shift

theorem setWidth_foldl_flexrayCrcStep (positive : 0 < size) (fits : size ≤ 32)
    (polynom reg : BitVec 32) (bits : List Bool) :
    (bits.foldl (flexrayCrcStep polynom size) reg).setWidth size =
      crcRegister (polynom.setWidth size) (reg.setWidth size) bits := by
  induction bits generalizing reg with
  | nil => rfl
  | cons bit bits ih =>
      rw [foldl_cons, ih, setWidth_flexrayCrcStep positive fits, crcRegister_cons]

theorem flexrayCrc_eq (positive : 0 < size) (fits : size ≤ 32)
    (mask : ((1#32 <<< size) - 1).toNat = 2 ^ size - 1) (data : BitVec 32) (count : Nat)
    (polynom iv : BitVec 32) :
    (flexrayCrc data count polynom size iv 0).toNat =
      (crcRegister (polynom.setWidth size) (iv.setWidth size)
        ((range count).reverse.map data.getLsbD)).toNat := by
  have start : iv ^^^ 0 = iv := xor_zero
  have register := setWidth_foldl_flexrayCrcStep positive fits polynom iv
    ((range count).reverse.map data.getLsbD)
  rw [← register, flexrayCrc, start, foldl_map]
  refine (congrArg BitVec.toNat xor_zero).trans ?_
  rw [toNat_and, mask, Nat.and_two_pow_sub_one_eq_mod, toNat_setWidth]

theorem flexrayCrc_packed (positive : 0 < size) (fits : size ≤ 32)
    (mask : ((1#32 <<< size) - 1).toNat = 2 ^ size - 1) (polynom iv : BitVec 32)
    {bits : List Bool} (short : bits.length ≤ 32) :
    (flexrayCrc (BitVec.ofNat 32 (packMsb bits)) bits.length polynom size iv 0).toNat =
      (crcRegister (polynom.setWidth size) (iv.setWidth size) bits).toNat := by
  have message : (range bits.length).reverse.map
      (BitVec.ofNat 32 (packMsb bits)).getLsbD = bits := by
    refine (map_congr_left fun i member => ?_).trans (range_reverse_packMsb bits)
    have inside : i < 32 := by
      rw [mem_reverse, mem_range] at member
      omega
    rw [getLsbD_ofNat, decide_eq_true inside, Bool.true_and]
  rw [flexrayCrc_eq positive fits mask, message]

theorem flexrayCrc_zero (positive : 0 < size) (fits : size ≤ 32)
    (mask : ((1#32 <<< size) - 1).toNat = 2 ^ size - 1) (polynom iv : BitVec 32) (count : Nat) :
    (flexrayCrc 0 count polynom size iv 0).toNat =
      (crcRegister (polynom.setWidth size) (iv.setWidth size)
        (List.replicate count false)).toNat := by
  have message : (range count).reverse.map (0#32).getLsbD =
      List.replicate count false := by
    rw [eq_replicate_iff]
    refine ⟨by simp, fun bit member => ?_⟩
    obtain ⟨i, -, value⟩ := mem_map.1 member
    rw [← value]
    exact getLsbD_zero
  exact (flexrayCrc_eq positive fits mask 0#32 count polynom iv).trans (by rw [message])

namespace FlexrayFrame

variable (frame : FlexrayFrame) (config : FlexrayConfig) (tss : Nat × Nat)
  (samples : Nat → Nat)

theorem headerOk_eq : frame.headerOk =
    decide (frame.headerCrc = flexrayHeaderCrc frame.headerCovered) := by
  have count : frame.headerCovered.length = 20 := by simp [headerCovered]
  have expected := flexrayCrc_packed (show 0 < cHCrcSize by decide) (by decide) (by decide)
    cHCrcPolynomial cHCrcInit (show frame.headerCovered.length ≤ 32 by omega)
  rw [count] at expected
  unfold headerOk
  rw [expected]
  exact decide_eq_decide.2 (toNat_inj (x := frame.headerCrc))

theorem frameOk_eq : frame.frameOk config =
    decide (frame.frameCrc = flexrayFrameCrc config.channelType
      (List.replicate frame.covered.length false)) := by
  have expected := flexrayCrc_zero (show 0 < cCrcSize by decide) (by decide) (by decide)
    cCrcPolynomial config.channelType.cCrcInit (40 + 16 * frame.words.length)
  have start : config.channelType.cCrcInit.setWidth 24 = config.channelType.frameInit := by
    cases config.channelType <;> rfl
  unfold frameOk
  rw [expected, frame.length_covered, flexrayFrameCrc, ← start]
  exact decide_eq_decide.2 (toNat_inj (x := frame.frameCrc))

end FlexrayFrame

def FlexrayField.headerVerdict : FlexrayField → Option Bool
  | .headerCrc _ ok => some ok
  | _ => none

def FlexrayField.frameVerdict : FlexrayField → Option Bool
  | .frameCrc _ ok => some ok
  | _ => none

namespace FlexrayFrame

variable (frame : FlexrayFrame) (config : FlexrayConfig) (tss : Nat × Nat)
  (samples : Nat → Nat)

def Judged : Prop :=
  (frame.received config tss samples).fields.filterMap (fun ann => ann.field.headerVerdict) =
      [decide (frame.headerCrc = flexrayHeaderCrc frame.headerCovered)] ∧
    (frame.received config tss samples).fields.filterMap (fun ann => ann.field.frameVerdict) =
      [decide (frame.frameCrc = flexrayFrameCrc config.channelType frame.covered)]

theorem dataFields_verdicts :
    (frame.dataFields config samples).filterMap (fun ann => ann.field.headerVerdict) = [] ∧
      (frame.dataFields config samples).filterMap (fun ann => ann.field.frameVerdict) = [] := by
  unfold dataFields
  rw [filterMap_map, filterMap_map]
  exact ⟨filterMap_eq_nil_iff.2 fun _ _ => rfl, filterMap_eq_nil_iff.2 fun _ _ => rfl⟩

theorem verdicts (noDelimiter : frame.words.length ≠ 60) :
    (frame.received config tss samples).fields.filterMap (fun ann => ann.field.headerVerdict) =
        [decide (frame.headerCrc = flexrayHeaderCrc frame.headerCovered)] ∧
      (frame.received config tss samples).fields.filterMap (fun ann => ann.field.frameVerdict) =
        [decide (frame.frameCrc = flexrayFrameCrc config.channelType
          (List.replicate frame.covered.length false))] := by
  obtain ⟨-, fields, -⟩ := FlexrayState.feed_wire frame config tss samples noDelimiter
  obtain ⟨noHeader, noFrame⟩ := frame.dataFields_verdicts config samples
  rw [received, fields, fieldsBefore_end, frame.headerOk_eq, frame.frameOk_eq config]
  simp only [filterMap_append, noHeader, noFrame]
  exact ⟨rfl, rfl⟩

theorem fieldsAt_frameVerdict {k : Nat} (unfinished : k ≠ frame.payloadEnd + 23) :
    (frame.fieldsAt config tss samples k).filterMap (fun ann => ann.field.frameVerdict) =
      [] := by
  unfold fieldsAt
  split_ifs with header data
  · unfold headerFieldsAt
    split <;> rfl
  · exact (frame.dataFields_verdicts config samples).2
  · rfl

theorem no_frameVerdict (delimiter : frame.words.length = 60) :
    (frame.received config tss samples).fields.filterMap (fun ann => ann.field.frameVerdict) =
      [] := by
  obtain ⟨-, ss, fields⟩ := FlexrayState.feed_wire_delimiter frame config tss samples delimiter
  have ends : frame.payloadEnd = 1001 := by rw [payloadEnd, delimiter]
  have before : (frame.fieldsBefore config tss samples 1009).filterMap
      (fun ann => ann.field.frameVerdict) = [] := by
    refine filterMap_eq_nil_iff.2 fun ann member => ?_
    obtain ⟨k, early, shown⟩ := mem_flatMap.1 member
    rw [mem_range] at early
    exact filterMap_eq_nil_iff.1
      (frame.fieldsAt_frameVerdict config tss samples (by omega)) ann shown
  rw [received, fields, filterMap_append, before]
  rfl

theorem judged_iff : frame.Judged config tss samples ↔ frame.words.length ≠ 60 ∧
        (crcRegister flexrayGenerator 0 frame.covered = 0 ∨
          (frame.frameCrc ≠ flexrayFrameCrc config.channelType frame.covered ∧
            frame.frameCrc ≠ flexrayFrameCrc config.channelType
              (List.replicate frame.covered.length false))) := by
  by_cases delimiter : frame.words.length = 60
  · constructor
    · rintro ⟨-, judged⟩
      rw [frame.no_frameVerdict config tss samples delimiter] at judged
      cases judged
    · rintro ⟨noDelimiter, -⟩
      exact absurd delimiter noDelimiter
  · obtain ⟨header, frameVerdict⟩ := frame.verdicts config tss samples delimiter
    have zeros := crcRegister_eq_zeros_iff flexrayGenerator config.channelType.frameInit
      frame.covered
    unfold Judged
    rw [frameVerdict, ← zeros, List.cons.injEq, decide_eq_decide]
    simp only [header, true_and, and_true, ne_eq, delimiter, not_false_eq_true]
    change _ ↔ flexrayFrameCrc _ _ = flexrayFrameCrc _ _ ∨ _
    constructor
    · intro same
      by_cases right : frame.frameCrc = flexrayFrameCrc config.channelType frame.covered
      · exact Or.inl (right.symm.trans (same.2 right))
      · exact Or.inr ⟨right, fun zero => right (same.1 zero)⟩
    · rintro (same | ⟨wrong, noZero⟩)
      · rw [same]
      · exact ⟨fun zero => absurd zero noZero, fun right => absurd right wrong⟩

/-- Both CRCs are those of the frame, on channel A. -/
def validFrame : FlexrayFrame :=
  { shortFrame with
    headerCrc := 0x69F#11
    frameCrc := 0xD05EEA#24 }

theorem judged_validFrame : ¬∀ (frame : FlexrayFrame) (config : FlexrayConfig) (tss : Nat × Nat)
      (samples : Nat → Nat), frame.Judged config tss samples := by
  intro judged
  have verdict := (judged validFrame ⟨.a, 5, 5⟩ (0, 60) (fun number => 60 + 10 * number)).2
  have right : validFrame.frameCrc = flexrayFrameCrc .a validFrame.covered := by
    decide +kernel
  have noZero : ¬validFrame.frameCrc =
      flexrayFrameCrc .a (List.replicate validFrame.covered.length false) := by
    decide +kernel
  rw [(verdicts validFrame _ _ _ (by decide)).2, decide_eq_false noZero,
    decide_eq_true right] at verdict
  cases verdict

end FlexrayFrame

end SigrokDecode
