import SigrokDecode.Decoders.HdlcPython
import SigrokDecode.Decoders.HdlcRoundTrip

/-!
# The two HDLC decoders

The Python decoder hears what the C decoder hears, but keeps other bytes: its
buffer has no end, and an abort leaves it as it is.
-/

namespace SigrokDecode

open Foundation List BitVec HdlcField HdlcReport

def HdlcField.map {First Second : Type} (f : First → Second) : HdlcField First → HdlcField Second
  | .rxBit value => .rxBit value
  | .data byte => .data (f byte)
  | .abort => .abort
  | .flag => .flag
  | .transferType => .transferType
  | .crcType => .crcType
  | .badCrc => .badCrc
  | .transfer bytes => .transfer (bytes.map f)

/-- The bytes that the Python decoder keeps. -/
def hdlcPyBuffer : HdlcBuffer :=
  { push := fun kept value => kept ++ [value]
    afterAbort := fun kept => kept }

namespace HdlcPyState

def shown (s : HdlcPyState) : List (HdlcField Nat) :=
  (s.anns.map HdlcAnn.field).filter fun field => !field.isBit

def sent (s : HdlcPyState) : List (List Nat) :=
  s.transfers.map fun transfer => transfer.transData.map HdlcPyByte.val

def values (s : HdlcPyState) : List Nat :=
  s.rxbytes.map HdlcPyByte.val

structure Reports (s : HdlcPyState) (report : HdlcReport) : Prop where
  kept : s.values = report.kept.map BitVec.toNat
  shown : s.shown = report.shown.map (HdlcField.map BitVec.toNat)
  sent : s.sent = report.sent.map (List.map BitVec.toNat)

structure Viewed (s : HdlcPyState) (view : HdlcView) : Prop where
  bitcount : s.bitcount = view.bitcount
  rxdata : s.rxdata = view.rxdata.toNat
  oneCount : s.oneCount = view.oneCount
  flagFound : s.flagFound = view.flagFound
  flag : s.flag.isSome = view.pendingFlag
  abort : s.abort.isSome = view.pendingAbort
  report : s.Reports view.report

theorem shown_put (s : HdlcPyState) (ss es : Int) (field : HdlcField Nat) :
    (s.put ss es field).shown = s.shown ++ if field.isBit then [] else [field] := by
  cases bit : field.isBit with
  | true => simp [shown, put, bit]
  | false => simp [shown, put, bit]

theorem fromEnd_val (s : HdlcPyState) (back : Nat) :
    (s.fromEnd back).val = s.values.getD (s.values.length - back) 0 := by
  rw [fromEnd, values, length_map, getD_eq_getElem?_getD, getD_eq_getElem?_getD, getElem?_map]
  cases s.rxbytes[s.rxbytes.length - back]? with
  | none => rfl
  | some byte => rfl

theorem getD_toNat (bytes : List (BitVec 8)) (index : Nat) :
    (bytes.map BitVec.toNat).getD index 0 = (bytes.getD index 0).toNat := by
  rw [getD_eq_getElem?_getD, getD_eq_getElem?_getD, getElem?_map]
  cases bytes[index]? with
  | none => rfl
  | some byte => rfl

variable {bytes : List (BitVec 8)} {s : HdlcPyState} {view : HdlcView} {receiver : HdlcReceiver}

theorem transData_values (same : s.values = bytes.map BitVec.toNat) :
    s.transData.map HdlcPyByte.val = (framePayload bytes).map BitVec.toNat := by
  have length : s.rxbytes.length = bytes.length := by
    have lengths := congrArg List.length same
    rwa [values, length_map, length_map] at lengths
  rw [transData, framePayload, map_take, map_take, length, ← same, values]

theorem crcShift_toNat (crc : BitVec 16) :
    (if crc.toNat &&& 1 > 0 then (crc.toNat >>> 1) ^^^ 0x8408 else crc.toNat >>> 1) =
      (if crc &&& 1#16 ≠ 0#16 then (crc >>> 1) ^^^ 0x8408#16 else crc >>> 1).toNat := by
  have lowest : crc.toNat &&& 1 > 0 ↔ crc &&& 1#16 ≠ 0#16 := by
    rw [Ne, ← toNat_inj, toNat_and, gt_iff_lt, Nat.pos_iff_ne_zero]
    rfl
  simp only [lowest]
  split
  · rw [toNat_xor, toNat_ushiftRight]
    rfl
  · rw [toNat_ushiftRight]

theorem crcShifts_toNat (count : Nat) (crc : BitVec 16) :
    (fun crc => if crc &&& 1 > 0 then (crc >>> 1) ^^^ 0x8408 else crc >>> 1)^[count] crc.toNat =
      ((fun crc => if crc &&& 1#16 ≠ 0#16 then (crc >>> 1) ^^^ 0x8408#16 else crc >>> 1)^[count]
        crc).toNat := by
  induction count generalizing crc with
  | zero => rfl
  | succ count ih =>
      rw [Function.iterate_succ_apply, Function.iterate_succ_apply, crcShift_toNat, ih]

theorem crcBytes_toNat {data : List HdlcPyByte}
    (same : data.map HdlcPyByte.val = bytes.map BitVec.toNat) (crc : BitVec 16) :
    data.foldl (fun crc byte =>
          (fun crc => if crc &&& 1 > 0 then (crc >>> 1) ^^^ 0x8408 else crc >>> 1)^[8]
            (crc ^^^ byte.val))
        crc.toNat =
      (crcLoop 0x8408#16 crc bytes).toNat := by
  induction data generalizing bytes crc with
  | nil =>
      have none : bytes = [] := by simpa using same
      rw [none]
      rfl
  | cons first data ih =>
      cases bytes with
      | nil => simp at same
      | cons byte bytes =>
          rw [map_cons, map_cons, cons_eq_cons] at same
          have small : byte.toNat < 2 ^ 16 := Nat.lt_trans byte.isLt (by decide)
          have joined : crc.toNat ^^^ first.val = (crc ^^^ byte.setWidth 16).toNat := by
            rw [toNat_xor, toNat_setWidth, Nat.mod_eq_of_lt small, same.1]
          rw [foldl_cons, joined, crcShifts_toNat, ih same.2]
          rfl

theorem crc16_eq {data : List HdlcPyByte}
    (same : data.map HdlcPyByte.val = bytes.map BitVec.toNat) :
    crc16 data = (hdlcCrc16 (framePayload bytes)).toNat := by
  have length : data.length = bytes.length := by
    have lengths := congrArg List.length same
    rwa [length_map, length_map] at lengths
  have front : (data.take (data.length - 2)).map HdlcPyByte.val =
      (framePayload bytes).map BitVec.toNat := by
    rw [framePayload, map_take, map_take, length, same]
  have fed := crcBytes_toNat front 0xFFFF#16
  have start : (0xFFFF#16).toNat = 0xFFFF := rfl
  rw [start] at fed
  have small := (crcLoop 0x8408#16 0xFFFF#16 (framePayload bytes)).isLt
  have masked := Nat.and_two_pow_sub_one_of_lt_two_pow small
  simp only [crc16, fed, hdlcCrc16, toNat_xor, start]
  exact congrArg (· ^^^ 0xFFFF) masked

theorem masked_byte (byte : BitVec 8) : byte.toNat &&& 0xFF = byte.toNat :=
  Nat.and_two_pow_sub_one_of_lt_two_pow byte.isLt

theorem rxCrc_eq (same : s.values = bytes.map BitVec.toNat) :
    s.rxCrc = (hdlcRxCrc (bytes.getD (bytes.length - 2) 0)
      (bytes.getD (bytes.length - 1) 0)).toNat := by
  have widened : ∀ byte : BitVec 8, (byte.setWidth 16).toNat = byte.toNat := by
    intro byte
    rw [toNat_setWidth, Nat.mod_eq_of_lt (Nat.lt_trans byte.isLt (by decide))]
  have shifted : ∀ byte : BitVec 8, byte.toNat <<< 8 % 2 ^ 16 = byte.toNat <<< 8 := by
    intro byte
    have small := byte.isLt
    rw [Nat.shiftLeft_eq, Nat.mod_eq_of_lt (by omega)]
  rw [rxCrc, fromEnd_val, fromEnd_val, same, getD_toNat, getD_toNat, length_map, masked_byte,
    masked_byte, hdlcRxCrc, toNat_or, toNat_shiftLeft, widened, widened, shifted]

theorem judge_reports (same : s.values = bytes.map BitVec.toNat) :
    s.judge.shown = s.shown ++ (if frameGood bytes then [] else [.badCrc]) ∧
      s.judge.sent = s.sent ++
        if frameGood bytes then [(framePayload bytes).map BitVec.toNat] else [] := by
  have verdict : crc16 s.rxbytes ≠ s.rxCrc ↔ ¬frameGood bytes = true := by
    rw [crc16_eq same, rxCrc_eq same, frameGood, decide_eq_true_iff, Ne, toNat_inj]
  unfold judge
  by_cases good : frameGood bytes = true
  · have noWarning : ¬crc16 s.rxbytes ≠ s.rxCrc := fun bad => verdict.mp bad good
    rw [if_neg noWarning, if_pos good, if_pos good]
    refine ⟨(List.append_nil _).symm, ?_⟩
    rw [← transData_values same]
    simp [sent, send]
  · rw [if_pos (verdict.mpr good), if_neg good, if_neg good]
    exact ⟨shown_put _ _ _ _, (List.append_nil _).symm⟩

theorem judge_rest (s : HdlcPyState) : s.judge =
      { s with
        anns := s.judge.anns
        transfers := s.judge.transfers
        binary := s.judge.binary } := by
  unfold judge
  split
  · rfl
  · rfl

theorem putt_rest (s : HdlcPyState) : s.putt =
      { s with
        anns := s.putt.anns
        transfers := s.putt.transfers
        binary := s.putt.binary } := by
  unfold putt
  split
  · simp only []
    rw [judge_rest]
    rfl
  · rfl

theorem putt_reports (same : s.values = bytes.map BitVec.toNat) :
    s.putt.shown = s.shown ++ (frameFields bytes).map (HdlcField.map BitVec.toNat) ∧
      s.putt.sent = s.sent ++ (frameTransfers bytes).map (List.map BitVec.toNat) := by
  have length : s.rxbytes.length = bytes.length := by
    have lengths := congrArg List.length same
    rwa [values, length_map, length_map] at lengths
  unfold putt frameFields frameTransfers
  rw [length]
  by_cases short : bytes.length ≤ 4
  · have notLong : ¬4 < bytes.length := Nat.not_lt.mpr short
    simp [if_pos short, if_neg notLong]
  · have long : 4 < bytes.length := Nat.lt_of_not_le short
    simp only [if_pos long, if_neg short]
    generalize typed : (s.put _ _ .transferType).put _ _ .crcType = t
    have values : t.values = bytes.map BitVec.toNat := by
      rw [← typed]
      exact same
    have shown : t.shown = s.shown ++ [HdlcField.transferType, .crcType] := by
      rw [← typed, shown_put, shown_put, List.append_assoc]
      rfl
    have sent : t.sent = s.sent := by
      rw [← typed]
      rfl
    obtain ⟨shownJudged, sentJudged⟩ := judge_reports values
    have transData : t.judge.transData.map HdlcPyByte.val =
        (framePayload bytes).map BitVec.toNat := by
      rw [judge_rest]
      exact transData_values values
    constructor
    · rw [shown_put, shownJudged, shown, transData]
      cases frameGood bytes with
      | true => simp [isBit, HdlcField.map]
      | false => simp [isBit, HdlcField.map]
    · have sentPut : ∀ (u : HdlcPyState) ss es field, (u.put ss es field).sent = u.sent :=
        fun _ _ _ _ => rfl
      rw [sentPut, sentJudged, sent]
      cases frameGood bytes with
      | true => rfl
      | false => rfl

section

variable (viewed : s.Viewed view)
include viewed

theorem showBit_viewed (data : Bool)
    (samplenum : Nat) : (s.showBit data samplenum).Viewed view := by
  obtain ⟨bitcount, rxdata, oneCount, flagFound, flag, abort, kept, shown, sent⟩ := viewed
  unfold showBit
  split
  · have same := shown_put s s.ssPrevClock samplenum (.rxBit (s.prevBit.getD false))
    rw [isBit, if_pos rfl, List.append_nil] at same
    exact ⟨bitcount, rxdata, oneCount, flagFound, flag, abort, kept, same.trans shown, sent⟩
  · exact ⟨bitcount, rxdata, oneCount, flagFound, flag, abort, kept, shown, sent⟩

theorem finishByte_viewed
    (samplenum : Nat) : (s.finishByte samplenum).Viewed (view.finishByte hdlcPyBuffer) := by
  have unchanged := viewed
  obtain ⟨bitcount, rxdata, oneCount, flagFound, flag, abort, kept, shown, sent⟩ := viewed
  unfold finishByte HdlcView.finishByte
  rw [bitcount]
  split
  · have added := shown_put s s.ssByte samplenum (.data s.rxdata)
    refine ⟨rfl, rfl, oneCount, flagFound, flag, abort, ?_, ?_, sent⟩
    · have longer : s.values ++ [s.rxdata] =
          (view.report.kept ++ [view.rxdata]).map BitVec.toNat := by
        rw [kept, rxdata, map_append, map_singleton]
      exact map_append.trans longer
    · refine added.trans ?_
      rw [shown, rxdata, HdlcReport.step, map_append]
      rfl
  · exact unchanged

theorem showAbort_viewed
    (samplenum : Nat) : (s.showAbort samplenum).Viewed view.showAbort := by
  have unchanged := viewed
  obtain ⟨bitcount, rxdata, oneCount, flagFound, flag, abort, kept, shown, sent⟩ := viewed
  unfold showAbort HdlcView.showAbort
  cases pending : s.abort with
  | none =>
      rw [pending] at abort
      rw [← abort]
      exact unchanged
  | some span =>
      rw [pending] at abort
      rw [← abort, Option.isSome_some, if_pos rfl]
      have added := shown_put s span.1 samplenum .abort
      refine ⟨bitcount, rxdata, oneCount, flagFound, flag, rfl, kept, added.trans ?_, sent⟩
      rw [shown]
      simp [isBit, HdlcField.map]

theorem showFlag_viewed
    (samplenum : Nat) : (s.showFlag samplenum).Viewed (view.showFlag hdlcPyBuffer) := by
  have unchanged := viewed
  obtain ⟨bitcount, rxdata, oneCount, flagFound, flag, abort, kept, shown, sent⟩ := viewed
  unfold showFlag HdlcView.showFlag
  cases pending : s.flag with
  | none =>
      rw [pending] at flag
      rw [← flag]
      exact unchanged
  | some span =>
      rw [pending] at flag
      rw [← flag, Option.isSome_some, if_pos rfl]
      have added := shown_put s span.1 samplenum .flag
      have bytes : ({ s.put span.1 samplenum .flag with flag := none } : HdlcPyState).values =
          view.report.kept.map BitVec.toNat := kept
      obtain ⟨shownFrame, sentFrame⟩ := putt_reports bytes
      simp only []
      rw [putt_rest]
      refine ⟨bitcount, rxdata, oneCount, flagFound, rfl, abort, rfl, shownFrame.trans ?_,
        sentFrame.trans ?_⟩
      · refine (congrArg (· ++ (frameFields view.report.kept).map (HdlcField.map BitVec.toNat))
          added).trans ?_
        rw [shown]
        simp [HdlcReport.step, isBit, HdlcField.map]
      · simp only [HdlcReport.step, map_append, ← sent]
        rfl

theorem shiftBit_viewed (room : view.bitcount < 8) (data : Bool) (samplenum : Nat) :
    (s.shiftBit data samplenum).Viewed (view.shiftBit data) := by
  have unchanged := viewed
  obtain ⟨bitcount, rxdata, oneCount, flagFound, flag, abort, kept, shown, sent⟩ := viewed
  cases found : view.flagFound with
  | false =>
      rw [found] at flagFound
      rw [shiftBit, HdlcView.shiftBit, flagFound, found]
      exact unchanged
  | true =>
      rw [found] at flagFound
      rw [shiftBit, HdlcView.shiftBit, if_pos flagFound, if_pos found]
      refine ⟨congrArg (· + 1) bitcount, ?_, oneCount, flagFound.trans found.symm, flag, abort,
        kept, shown, sent⟩
      have small : data.toNat < 2 ^ 8 := Nat.lt_of_le_of_lt (Bool.toNat_le data) (by decide)
      have fits : data.toNat <<< view.bitcount < 2 ^ 8 := by
        rw [Nat.shiftLeft_eq]
        have digit : data.toNat ≤ 1 := Bool.toNat_le data
        have power : 2 ^ view.bitcount ≤ 2 ^ 7 := Nat.pow_le_pow_right (by decide) (by omega)
        calc
          data.toNat * 2 ^ view.bitcount ≤ 1 * 2 ^ 7 := Nat.mul_le_mul digit power
          _ < 2 ^ 8 := by decide
      simp only [rxdata, bitcount, toNat_or, toNat_shiftLeft, toNat_setWidth,
        toNat_ofBool, Nat.mod_eq_of_lt small, Nat.mod_eq_of_lt fits]

theorem countOne_viewed (room : view.bitcount < 8) (samplenum : Nat) :
    (s.countOne samplenum).Viewed view.countOne := by
  have shifted := shiftBit_viewed viewed room true samplenum
  have counted : (s.shiftBit true samplenum).oneCount = s.oneCount := by
    unfold shiftBit
    split <;> rfl
  have ones := viewed.oneCount
  simp only [countOne, HdlcView.countOne, ones]
  split
  · obtain ⟨bitcount, rxdata, _, flagFound, flag, abort, kept, shown, sent⟩ := shifted
    exact ⟨bitcount, rxdata, congrArg (· + 1) (counted.trans ones), flagFound, flag, abort, kept,
      shown, sent⟩
  · obtain ⟨bitcount, rxdata, _, flagFound, flag, abort, kept, shown, sent⟩ := viewed
    exact ⟨bitcount, rxdata, congrArg (· + 1) ones, flagFound, flag, abort, kept, shown, sent⟩

theorem countZero_viewed (room : view.bitcount < 8) (samplenum : Nat) :
    (s.countZero samplenum).Viewed (view.countZero hdlcPyBuffer) := by
  have shifted := shiftBit_viewed viewed room false samplenum
  obtain ⟨bitcount, rxdata, ones, flagFound, flag, abort, kept, shown, sent⟩ := viewed
  simp only [countZero, HdlcView.countZero, ones]
  split
  · exact ⟨rfl, rfl, rfl, rfl, rfl, abort, kept, shown, sent⟩
  · split
    · exact ⟨rfl, rfl, rfl, rfl, flag, rfl, kept, shown, sent⟩
    · split
      · obtain ⟨bitcount, rxdata, _, flagFound, flag, abort, kept, shown, sent⟩ := shifted
        exact ⟨bitcount, rxdata, rfl, flagFound, flag, abort, kept, shown, sent⟩
      · exact ⟨bitcount, rxdata, rfl, flagFound, flag, abort, kept, shown, sent⟩

end

def Hears (s : HdlcPyState) (receiver : HdlcReceiver) : Prop :=
  receiver.Sound ∧ s.Viewed (HdlcView.ofReceiver hdlcPyBuffer receiver)

theorem Hears.reports (hears : s.Hears receiver) :
    s.shown = (empty.run hdlcPyBuffer receiver.events).shown.map (HdlcField.map BitVec.toNat) ∧
      s.sent = (empty.run hdlcPyBuffer receiver.events).sent.map
        (List.map BitVec.toNat) := by
  obtain ⟨shown, sent⟩ := HdlcView.shown_ofReceiver hdlcPyBuffer receiver
  rw [← shown, ← sent]
  exact ⟨hears.2.report.shown, hears.2.report.sent⟩

theorem handleBit_hears (hears : s.Hears receiver)
    (data : Bool) (samplenum : Nat) : (s.handleBit data samplenum).Hears (receiver.bit data) := by
  obtain ⟨sound, viewed⟩ := hears
  refine ⟨HdlcReceiver.bit_sound sound data, ?_⟩
  have settled := showFlag_viewed (showAbort_viewed (finishByte_viewed
    (showBit_viewed viewed data samplenum) samplenum) samplenum) samplenum
  have same := HdlcView.settle_ofReceiver hdlcPyBuffer sound
  have room : ((HdlcView.ofReceiver hdlcPyBuffer receiver).settle hdlcPyBuffer).bitcount < 8 := by
    rw [same]
    exact sound.short
  rw [← HdlcView.bit_ofReceiver hdlcPyBuffer sound]
  cases data with
  | true => exact countOne_viewed settled room samplenum
  | false => exact countZero_viewed settled room samplenum

theorem resetState_hears (hears : s.Hears receiver) : s.resetState.Hears receiver.disable := by
  refine ⟨HdlcReceiver.disable_sound receiver, ?_⟩
  rw [← HdlcView.disable_ofReceiver]
  obtain ⟨kept, shown, sent⟩ := hears.2.report
  exact ⟨rfl, rfl, rfl, rfl, rfl, rfl, rfl, shown, sent⟩

theorem settled_config (s : HdlcPyState) (data : Bool) (samplenum : Nat) :
    ((((s.showBit data samplenum).finishByte samplenum).showAbort samplenum).showFlag
      samplenum).config = s.config := by
  have bit : (s.showBit data samplenum).config = s.config := by
    unfold showBit
    split <;> rfl
  generalize s.showBit data samplenum = t at bit
  have byte : (t.finishByte samplenum).config = t.config := by
    unfold finishByte
    split <;> rfl
  generalize t.finishByte samplenum = u at byte
  have abort : (u.showAbort samplenum).config = u.config := by
    unfold showAbort
    split <;> rfl
  generalize u.showAbort samplenum = v at abort
  have flag : (v.showFlag samplenum).config = v.config := by
    unfold showFlag
    split
    · rfl
    · rw [putt_rest]
      rfl
  rw [flag, abort, byte, bit]

theorem shiftBit_config (s : HdlcPyState) (data : Bool) (samplenum : Nat) :
    (s.shiftBit data samplenum).config = s.config := by
  unfold shiftBit
  split <;> rfl

theorem handleBit_config (s : HdlcPyState) (data : Bool) (samplenum : Nat) :
    (s.handleBit data samplenum).config = s.config := by
  have settled := settled_config s data samplenum
  simp only [handleBit]
  generalize (((s.showBit data samplenum).finishByte samplenum).showAbort samplenum).showFlag
    samplenum = t at settled
  rw [← settled]
  split
  · simp only [countOne]
    split
    · exact shiftBit_config t true samplenum
    · rfl
  · simp only [countZero]
    split
    · rfl
    · split
      · rfl
      · split
        · exact shiftBit_config t false samplenum
        · rfl

theorem sample_hears {config : HdlcConfig}
    (hears : s.config = config ∧ s.Hears receiver) (previous current : HdlcSample)
    (samplenum : Nat) :
    (s.sample previous current samplenum).config = config ∧
      (s.sample previous current samplenum).Hears
        (receiver.sample config previous current samplenum) := by
  obtain ⟨same, hears⟩ := hears
  simp only [sample, findClkEdge, HdlcReceiver.sample, same, Bool.false_eq_true, false_or]
  by_cases edge : decide (previous.clk ≠ current.clk) = true
  · simp only [edge, true_or, not_true_eq_false, if_false, Bool.true_eq_false, and_false]
    split
    · exact ⟨same, resetState_hears hears⟩
    · split
      · exact ⟨same, hears⟩
      · exact ⟨(handleBit_config s _ _).trans same, handleBit_hears hears _ _⟩
  · have still : decide (previous.clk ≠ current.clk) = false := Bool.eq_false_of_not_eq_true edge
    simp only [still, Bool.false_eq_true, false_or, and_true, if_true]
    split
    · exact ⟨same, hears⟩
    · rename_i enabled
      have haveEn : config.haveEn = true := by
        by_contra missing
        exact enabled fun both => missing both.1
      split
      · exact ⟨same, resetState_hears hears⟩
      · exact ⟨same, hears⟩

theorem decode_hears (config : HdlcConfig) (samples : List HdlcSample) :
    (decode config samples).Hears (HdlcReceiver.listen config samples) := by
  have start : (reset config).config = config ∧ (reset config).Hears HdlcReceiver.searching :=
    ⟨rfl, HdlcReceiver.searching_sound, rfl, rfl, rfl, rfl, rfl, rfl, rfl, rfl, rfl⟩
  cases samples with
  | nil => exact start.2
  | cons first samples =>
      have begun : (reset config).findClkEdge false first 0 true = reset config := by
        simp only [findClkEdge, true_or, if_true]
        split <;> rfl
      have related := foldSamples_related
        (fun (s : HdlcPyState) receiver => s.config = config ∧ s.Hears receiver)
        sample_hears start first 1 samples
      rw [decode, begun]
      exact related.2

end HdlcPyState

/-- What the two decoders keep. -/
structure KeptAlike (c py : List (BitVec 8)) (lost : Bool) : Prop where
  whole : lost = false → c = py.take hdlcMaxBytes
  less : lost = true → c.length < py.length

variable {c py : List (BitVec 8)} {lost : Bool}

theorem KeptAlike.byte (kept : KeptAlike c py lost) (value : BitVec 8) :
    KeptAlike (hdlcBuffer.push c value) (hdlcPyBuffer.push py value) lost := by
  obtain ⟨whole, less⟩ := kept
  constructor
  · intro noneLost
    have same := whole noneLost
    have length : c.length = min hdlcMaxBytes py.length := by rw [same, length_take]
    simp only [hdlcBuffer, hdlcPyBuffer]
    by_cases room : py.length < hdlcMaxBytes
    · rw [if_pos (by omega), same, take_of_length_le (Nat.le_of_lt room),
        take_of_length_le (by rw [length_append, length_singleton]; omega)]
    · rw [if_neg (by omega), take_append_of_le_length (by omega), same]
  · intro someLost
    have shorter := less someLost
    simp only [hdlcBuffer, hdlcPyBuffer, length_append, length_singleton]
    split
    · rw [length_append, length_singleton]
      omega
    · omega

theorem KeptAlike.abort (kept : KeptAlike c py lost) :
    KeptAlike (hdlcBuffer.afterAbort c) (hdlcPyBuffer.afterAbort py)
      (lost || decide (0 < py.length)) := by
  constructor
  · intro noneLost
    have none : py.length = 0 := by simpa using (Bool.or_eq_false_iff.mp noneLost).2
    rw [eq_nil_of_length_eq_zero none]
    rfl
  · intro someLost
    rcases Bool.or_eq_true _ _ ▸ someLost with before | here
    · exact Nat.lt_of_le_of_lt (Nat.zero_le _) (kept.less before)
    · exact of_decide_eq_true here

theorem frameFields_length {first second : List (BitVec 8)} (long : 4 < second.length)
    (same : frameFields first = frameFields second) : first.length = second.length := by
  have secondLong : ¬second.length ≤ 4 := Nat.not_le.mpr long
  by_cases short : first.length ≤ 4
  · simp [frameFields, if_pos short, if_neg secondLong] at same
  · have lasts := congrArg getLast? same
    simp only [frameFields, if_neg secondLong, if_neg short, getLast?_append,
      getLast?_singleton, Option.some_or,
      Option.some.injEq, HdlcField.transfer.injEq] at lasts
    have lengths := congrArg List.length lasts
    simp only [framePayload, length_take] at lengths
    omega

theorem KeptAlike.bound (kept : KeptAlike c py lost) : c.length ≤ py.length := by
  cases lost with
  | false =>
      rw [kept.whole rfl, length_take]
      exact Nat.min_le_right _ _
  | true => exact Nat.le_of_lt (kept.less rfl)

theorem KeptAlike.same_or_short (kept : KeptAlike c py lost)
    (alike : 4 < py.length → py.length ≤ hdlcMaxBytes ∧ lost = false) :
    c = py ∨ c.length ≤ 4 ∧ py.length ≤ 4 := by
  by_cases long : 4 < py.length
  · obtain ⟨fits, noneLost⟩ := alike long
    left
    rw [kept.whole noneLost, take_of_length_le fits]
  · have pyShort : py.length ≤ 4 := Nat.not_lt.mp long
    exact Or.inr ⟨Nat.le_trans kept.bound pyShort, pyShort⟩

theorem KeptAlike.frames (kept : KeptAlike c py lost) : frameFields c = frameFields py ↔
      (4 < py.length → py.length ≤ hdlcMaxBytes ∧ lost = false) := by
  constructor
  · intro same long
    have length := frameFields_length long same
    cases lost with
    | false =>
        rw [kept.whole rfl, length_take] at length
        exact ⟨by omega, rfl⟩
    | true => exact absurd length (Nat.ne_of_lt (kept.less rfl))
  · intro alike
    rcases kept.same_or_short alike with same | ⟨cShort, pyShort⟩
    · rw [same]
    · rw [frameFields, frameFields, if_pos cShort, if_pos pyShort]

theorem KeptAlike.transfers (kept : KeptAlike c py lost)
    (alike : 4 < py.length → py.length ≤ hdlcMaxBytes ∧ lost = false) :
    frameTransfers c = frameTransfers py := by
  rcases kept.same_or_short alike with same | ⟨cShort, pyShort⟩
  · rw [same]
  · rw [frameTransfers, frameTransfers, if_pos cShort, if_pos pyShort]

end SigrokDecode
