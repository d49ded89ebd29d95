import SigrokDecode.Decoders.HdlcView

/-!
# The HDLC decoder as a receiver

`hdlc_c` reports what a receiver hears, one bit later, from a buffer of
`hdlcMaxBytes` bytes that an abort empties.
-/

namespace SigrokDecode

open Foundation

def HdlcField.isBit {Byte : Type} : HdlcField Byte → Bool
  | .rxBit _ => true
  | _ => false

def HdlcTransfer.values (transfer : HdlcTransfer) : List (BitVec 8) :=
  transfer.bytes.map HdlcByte.val

def hdlcBuffer : HdlcBuffer :=
  { push := fun kept value => if kept.length < hdlcMaxBytes then kept ++ [value] else kept
    afterAbort := fun _ => [] }

namespace HdlcState

def shown (s : HdlcState) : List (HdlcField (BitVec 8)) :=
  (s.anns.map HdlcAnn.field).filter fun field => !field.isBit

def sent (s : HdlcState) : List (List (BitVec 8)) :=
  s.transfers.map HdlcTransfer.values

def bytes (s : HdlcState) : List (BitVec 8) :=
  s.rxbytes.map HdlcByte.val

def report (s : HdlcState) : HdlcReport :=
  { kept := s.bytes, shown := s.shown, sent := s.sent }

variable (s : HdlcState)

theorem shown_put (ss es : Nat) (field : HdlcField (BitVec 8)) :
    (s.put ss es field).shown = s.shown ++ if field.isBit then [] else [field] := by
  cases bit : field.isBit with
  | true => simp [shown, put, bit]
  | false => simp [shown, put, bit]

theorem sent_put (ss es : Nat) (field : HdlcField (BitVec 8)) :
    (s.put ss es field).sent = s.sent := rfl

theorem received_values : s.received.map HdlcByte.val = framePayload s.bytes := by
  rw [received, framePayload, bytes, List.map_take, List.length_map]

theorem fromEnd_val (back : Nat) :
    (s.fromEnd back).val = s.bytes.getD (s.bytes.length - back) 0 := by
  rw [fromEnd, bytes, List.length_map, List.getD_eq_getElem?_getD, List.getD_eq_getElem?_getD,
    List.getElem?_map]
  cases s.rxbytes[s.rxbytes.length - back]? with
  | none => rfl
  | some byte => rfl

theorem crcGood_eq : s.crcGood = frameGood s.bytes := by
  rw [crcGood, frameGood, received_values, fromEnd_val, fromEnd_val]

theorem judge_reports : s.judge.shown = s.shown ++ (if frameGood s.bytes then [] else [.badCrc]) ∧
      s.judge.sent = s.sent ++ if frameGood s.bytes then [framePayload s.bytes] else [] := by
  rw [judge, crcGood_eq]
  split
  · refine ⟨(List.append_nil _).symm, ?_⟩
    rw [← received_values]
    simp [sent, send, HdlcTransfer.values]
  · exact ⟨shown_put _ _ _ _, (List.append_nil _).symm⟩

theorem judge_rest : s.judge =
      { s with
        anns := s.judge.anns
        transfers := s.judge.transfers
        binary := s.judge.binary } := by
  unfold judge
  split
  · rfl
  · rfl

theorem putt_rest : s.putt =
      { s with
        anns := s.putt.anns
        transfers := s.putt.transfers
        binary := s.putt.binary } := by
  unfold putt
  split
  · rfl
  · simp only []
    rw [judge_rest]
    rfl

theorem putt_reports : s.putt.shown = s.shown ++ frameFields s.bytes ∧
      s.putt.sent = s.sent ++ frameTransfers s.bytes := by
  have length : s.bytes.length = s.rxbytes.length := List.length_map _
  unfold putt frameFields frameTransfers
  rw [length]
  by_cases short : s.rxbytes.length ≤ 4
  · simp only [if_pos short, List.append_nil]
    trivial
  · simp only [if_neg short]
    generalize typed : (s.put _ _ .transferType).put _ _ .crcType = t
    have sameBytes : t.rxbytes = s.rxbytes := by rw [← typed]; rfl
    have values : t.bytes = s.bytes := congrArg (List.map HdlcByte.val) sameBytes
    have shown : t.shown = s.shown ++ [HdlcField.transferType, .crcType] := by
      rw [← typed, shown_put, shown_put, List.append_assoc]
      rfl
    have sent : t.sent = s.sent := by rw [← typed]; rfl
    obtain ⟨shownJudged, sentJudged⟩ := judge_reports t
    have received : t.judge.received.map HdlcByte.val = framePayload s.bytes := by
      rw [received_values, judge_rest]
      exact congrArg framePayload values
    constructor
    · rw [shown_put, shownJudged, shown, values, received, List.append_assoc, List.append_assoc,
        ← List.append_assoc [HdlcField.transferType, HdlcField.crcType]]
      rfl
    · rw [sent_put, sentJudged, sent, values]

def view (s : HdlcState) : HdlcView :=
  { bitcount := s.bitcount
    rxdata := s.rxdata
    oneCount := s.oneCount
    flagFound := s.flagFound
    pendingFlag := s.pendingFlag
    pendingAbort := s.pendingAbort
    report := s.report }

theorem put_view (s : HdlcState) (ss es : Nat) (field : HdlcField (BitVec 8)) :
    (s.put ss es field).view =
      { s.view with
        report := { s.report with
          shown := s.shown ++ if field.isBit then [] else [field] } } := by
  rw [← shown_put s ss es field]
  rfl

theorem showBit_view (s : HdlcState) (data : Bool) (samplenum : Nat) :
    (s.showBit data samplenum).view = s.view := by
  unfold showBit
  cases s.ssPrevClock with
  | none => rfl
  | some ss =>
      have put := put_view s ss samplenum (.rxBit s.prevBit)
      rw [HdlcField.isBit, if_pos rfl, List.append_nil] at put
      exact put

theorem pushByte_report (s : HdlcState) (samplenum : Nat) : (s.pushByte samplenum).report =
      { kept := hdlcBuffer.push s.bytes s.rxdata, shown := s.shown, sent := s.sent } := by
  have length : s.bytes.length = s.rxbytes.length := List.length_map _
  simp only [pushByte, hdlcBuffer, length]
  split
  · simp [report, bytes, shown, sent]
  · rfl

variable {s : HdlcState} {receiver : HdlcReceiver}

theorem finishByte_report (full : s.bitcount = 8) (samplenum : Nat) :
    (s.finishByte samplenum).report = s.report.step hdlcBuffer (.byte s.rxdata) := by
  have pushed := pushByte_report (s.put s.ssByte samplenum (.data s.rxdata)) samplenum
  rw [shown_put] at pushed
  rw [finishByte, if_pos full]
  exact pushed

theorem finishByte_view (s : HdlcState) (samplenum : Nat) :
    (s.finishByte samplenum).view = s.view.finishByte hdlcBuffer := by
  by_cases full : s.bitcount = 8
  · have viewFull : s.view.bitcount = 8 := full
    have report := finishByte_report full samplenum
    rw [HdlcView.finishByte, if_pos viewFull]
    have rest : (s.finishByte samplenum).view =
        { s.view with
          report := (s.finishByte samplenum).report
          rxdata := 0
          bitcount := 0 } := by
      rw [finishByte, if_pos full, pushByte]
      split <;> rfl
    rw [rest, report]
    rfl
  · have viewFull : ¬s.view.bitcount = 8 := full
    rw [finishByte, if_neg full, HdlcView.finishByte, if_neg viewFull]

theorem showAbort_view (s : HdlcState) (samplenum : Nat) :
    (s.showAbort samplenum).view = s.view.showAbort := by
  unfold showAbort HdlcView.showAbort
  cases pending : s.pendingAbort with
  | false =>
      have viewPending : s.view.pendingAbort = false := pending
      rw [viewPending]
      rfl
  | true =>
      have viewPending : s.view.pendingAbort = true := pending
      have put := put_view s s.ssPendingStart samplenum .abort
      rw [viewPending, if_pos rfl, if_pos rfl]
      exact congrArg (fun view : HdlcView => { view with pendingAbort := false }) put

theorem showFlag_report (pending : s.pendingFlag = true) (samplenum : Nat) :
    (s.showFlag samplenum).report = s.report.step hdlcBuffer .flag := by
  obtain ⟨shown, sent⟩ := putt_reports
    { s.put s.ssPendingStart samplenum .flag with pendingFlag := false }
  have flag : ({ s.put s.ssPendingStart samplenum .flag with
      pendingFlag := false } : HdlcState).shown = s.shown ++ [.flag] :=
    shown_put s s.ssPendingStart samplenum .flag
  rw [flag, List.append_assoc] at shown
  have shownBehind : (s.showFlag samplenum).shown = s.shown ++ .flag :: frameFields s.bytes := by
    rw [showFlag, if_pos pending]
    exact shown
  have sentBehind : (s.showFlag samplenum).sent = s.sent ++ frameTransfers s.bytes := by
    rw [showFlag, if_pos pending]
    exact sent
  have keptBehind : (s.showFlag samplenum).bytes = [] := by
    rw [showFlag, if_pos pending]
    rfl
  rw [report, shownBehind, sentBehind, keptBehind]
  rfl

theorem showFlag_view (s : HdlcState) (samplenum : Nat) :
    (s.showFlag samplenum).view = s.view.showFlag hdlcBuffer := by
  cases pending : s.pendingFlag with
  | false =>
      have viewPending : s.view.pendingFlag = false := pending
      rw [HdlcView.showFlag, viewPending, showFlag, pending]
      rfl
  | true =>
      have viewPending : s.view.pendingFlag = true := pending
      have report := showFlag_report pending samplenum
      have rest : (s.showFlag samplenum).view =
          { s.view with
            report := (s.showFlag samplenum).report
            pendingFlag := false } := by
        rw [showFlag, if_pos pending, putt_rest]
        rfl
      rw [rest, report, HdlcView.showFlag, if_pos viewPending]
      rfl

theorem shiftBit_view (s : HdlcState) (data : Bool) (samplenum : Nat) :
    (s.shiftBit data samplenum).view = s.view.shiftBit data := by
  unfold shiftBit HdlcView.shiftBit
  split
  · rename_i found
    have viewFound : s.view.flagFound = true := found
    rw [if_pos viewFound]
    rfl
  · rename_i found
    have viewFound : ¬s.view.flagFound = true := found
    rw [if_neg viewFound]

theorem countOne_view (s : HdlcState) (samplenum : Nat) :
    (s.countOne samplenum).view = s.view.countOne := by
  simp only [countOne, HdlcView.countOne]
  have shifted := shiftBit_view s true samplenum
  have few : s.view.oneCount = s.oneCount := rfl
  rw [few, ← shifted]
  split
  · have ones : (s.shiftBit true samplenum).oneCount = s.oneCount := by
      unfold shiftBit
      split <;> rfl
    simp only [HdlcView.setOnes, view, ones]
    rfl
  · rfl

theorem countZero_view (s : HdlcState) (samplenum : Nat) :
    (s.countZero samplenum).view = s.view.countZero hdlcBuffer := by
  simp only [countZero, HdlcView.countZero]
  have shifted := shiftBit_view s false samplenum
  have few : s.view.oneCount = s.oneCount := rfl
  rw [few, ← shifted]
  split
  · rfl
  · split
    · rfl
    · split
      · rfl
      · rfl

theorem handleBit_view (s : HdlcState) (data : Bool) (samplenum : Nat) :
    (s.handleBit data samplenum).view = s.view.bit hdlcBuffer data := by
  have settled : ((((s.showBit data samplenum).finishByte samplenum).showAbort
      samplenum).showFlag samplenum).view = s.view.settle hdlcBuffer := by
    rw [showFlag_view, showAbort_view, finishByte_view, showBit_view, HdlcView.settle]
  simp only [handleBit, HdlcView.bit]
  split
  · rw [countOne_view, settled]
  · rw [countZero_view, settled]

theorem resetState_view (s : HdlcState) : s.resetState.view = s.view.reset hdlcBuffer := rfl

def Hears (s : HdlcState) (receiver : HdlcReceiver) : Prop :=
  receiver.Sound ∧ s.view = HdlcView.ofReceiver hdlcBuffer receiver

theorem Hears.reports (hears : s.Hears receiver) :
    s.shown = (HdlcReport.empty.run hdlcBuffer receiver.events).shown ∧
      s.sent = (HdlcReport.empty.run hdlcBuffer receiver.events).sent := by
  obtain ⟨shown, sent⟩ := HdlcView.shown_ofReceiver hdlcBuffer receiver
  rw [← hears.2] at shown sent
  exact ⟨shown, sent⟩

theorem handleBit_hears (hears : s.Hears receiver)
    (data : Bool) (samplenum : Nat) : (s.handleBit data samplenum).Hears (receiver.bit data) := by
  obtain ⟨sound, view⟩ := hears
  refine ⟨HdlcReceiver.bit_sound sound data, ?_⟩
  rw [handleBit_view, view, HdlcView.bit_ofReceiver hdlcBuffer sound]

theorem resetState_hears (hears : s.Hears receiver) : s.resetState.Hears receiver.disable := by
  refine ⟨HdlcReceiver.disable_sound receiver, ?_⟩
  rw [resetState_view, hears.2, HdlcView.disable_ofReceiver]

theorem settled_config (s : HdlcState) (data : Bool) (samplenum : Nat) :
    ((((s.showBit data samplenum).finishByte samplenum).showAbort samplenum).showFlag
      samplenum).config = s.config := by
  have bit : (s.showBit data samplenum).config = s.config := by
    unfold showBit
    cases s.ssPrevClock with
    | none => rfl
    | some ss => rfl
  generalize s.showBit data samplenum = t at bit
  have byte : (t.finishByte samplenum).config = t.config := by
    unfold finishByte pushByte
    split
    · split <;> rfl
    · rfl
  generalize t.finishByte samplenum = u at byte
  have abort : (u.showAbort samplenum).config = u.config := by
    unfold showAbort
    split <;> rfl
  generalize u.showAbort samplenum = v at abort
  have flag : (v.showFlag samplenum).config = v.config := by
    unfold showFlag
    split
    · rw [putt_rest]
      rfl
    · rfl
  rw [flag, abort, byte, bit]

theorem shiftBit_config (s : HdlcState) (data : Bool) (samplenum : Nat) :
    (s.shiftBit data samplenum).config = s.config := by
  unfold shiftBit
  split <;> rfl

theorem handleBit_config (s : HdlcState) (data : Bool) (samplenum : Nat) :
    (s.handleBit data samplenum).config = s.config := by
  have settled := settled_config s data samplenum
  simp only [handleBit]
  generalize (((s.showBit data samplenum).finishByte samplenum).showAbort samplenum).showFlag
    samplenum = t at settled
  rw [← settled]
  split
  · simp only [countOne]
    split
    · exact shiftBit_config t true samplenum
    · rfl
  · simp only [countZero]
    split
    · rfl
    · split
      · rfl
      · split
        · exact shiftBit_config t false samplenum
        · rfl

theorem sample_hears {config : HdlcConfig}
    (hears : s.config = config ∧ s.Hears receiver) (previous current : HdlcSample)
    (samplenum : Nat) :
    (s.sample previous current samplenum).config = config ∧
      (s.sample previous current samplenum).Hears
        (receiver.sample config previous current samplenum) := by
  obtain ⟨same, hears⟩ := hears
  simp only [sample, HdlcReceiver.sample, same]
  split
  · exact ⟨same, hears⟩
  · split
    · exact ⟨same, resetState_hears hears⟩
    · split
      · exact ⟨same, hears⟩
      · split
        · exact ⟨same, hears⟩
        · exact ⟨(handleBit_config s _ _).trans same, handleBit_hears hears _ _⟩

theorem decode_hears (config : HdlcConfig) (samples : List HdlcSample) :
    (decode config samples).Hears (HdlcReceiver.listen config samples) := by
  have start : (reset config).config = config ∧ (reset config).Hears HdlcReceiver.searching :=
    ⟨rfl, HdlcReceiver.searching_sound, rfl⟩
  cases samples with
  | nil => exact start.2
  | cons first samples =>
      have related := foldSamples_related
        (fun (s : HdlcState) receiver => s.config = config ∧ s.Hears receiver)
        sample_hears start first 1 samples
      exact related.2

end HdlcState

end SigrokDecode
