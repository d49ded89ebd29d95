import Mathlib.Tactic.IntervalCases
import SigrokDecode.Decoders.Adat

/-!
# ADAT frames

A group is complete at the edge of the first bit of the next group, and nothing is
left in the buffer behind it.
-/

set_option linter.dupNamespace false

namespace SigrokDecode

open Foundation List BitVec

structure AdatFrame where
  user : BitVec 4
  channels : Fin 8 → BitVec 24

def adatGroup (nibble : BitVec 4) : List Bool :=
  true :: msbBits 4 nibble.toNat

def adatNibbles (word : BitVec 24) : List (BitVec 4) :=
  [word.extractLsb' 20 4, word.extractLsb' 16 4, word.extractLsb' 12 4, word.extractLsb' 8 4,
    word.extractLsb' 4 4, word.extractLsb' 0 4]

namespace AdatFrame

def words (frame : AdatFrame) : List (BitVec 24) :=
  List.ofFn frame.channels

def wire (frame : AdatFrame) : List Bool :=
  AdatState.syncPad ++ adatGroup frame.user ++
    frame.words.flatMap fun word => (adatNibbles word).flatMap adatGroup

end AdatFrame

def AdatField.isReport : AdatField → Bool
  | .bit _ => false
  | _ => true

namespace AdatState

def reports (s : AdatState) : List AdatField :=
  (s.anns.map AdatAnn.field).filter AdatField.isReport

def reportWhen (shown : Bool) (field : AdatField) : List AdatField :=
  if shown then [field] else []

end AdatState

namespace AdatFrame

def channelReports (config : AdatConfig) (word : BitVec 24) (no : Nat) : List AdatField :=
  if config.intraFrame then
    (adatNibbles word).map (fun nibble => .nibble (nibble.setWidth 32)) ++
      [AdatField.channel no (word.setWidth 32)]
  else
    []

def display (config : AdatConfig) (word : BitVec 24) : AdatDisplay :=
  if config.sampleDisplayHex then .hexadecimal (word.setWidth 32) else .decimal word.toInt

def reports (config : AdatConfig) (frame : AdatFrame) : List AdatField :=
  (if config.intraFrame then
    [AdatField.sync, .user (msbBits 4 frame.user.toNat), .nibble (frame.user.setWidth 32)]
  else
    []) ++
  (frame.words.zipIdx.flatMap fun word => channelReports config word.1 word.2) ++
  (if config.perFrame then
    (frame.words.zipIdx.map fun word => AdatField.sample word.2 (display config word.1)) ++
      [AdatField.userData (msbBits 4 frame.user.toNat)]
  else
    [])

end AdatFrame

/-- What does not depend on the times. -/
structure AdatView where
  phase : AdatPhase
  channelNo : Nat
  nibbleNo : Nat
  channelData : BitVec 32
  allChannelsData : List (BitVec 32)
  frameUserData : BitVec 32
  reports : List AdatField

namespace AdatView

def report (v : AdatView) (shown : Bool) (field : AdatField) : AdatView :=
  { v with reports := v.reports ++ AdatState.reportWhen shown field }

def takeSync (config : AdatConfig) (v : AdatView) : AdatView :=
  { v.report config.intraFrame .sync with phase := .userBits }

def takeUser (config : AdatConfig) (v : AdatView) (bits : List Bool) : AdatView :=
  { (v.report config.intraFrame (.user bits)).report config.intraFrame
      (.nibble (bitsToInt bits)) with
    frameUserData := bitsToInt bits
    phase := .channelData }

def takeNibble (config : AdatConfig) (v : AdatView) (bits : List Bool) : AdatView :=
  { v.report config.intraFrame (.nibble (bitsToInt bits)) with
    channelData := v.channelData ||| bitsToInt bits <<< (20 - v.nibbleNo * 4)
    nibbleNo := v.nibbleNo + 1 }

def endChannel (config : AdatConfig) (v : AdatView) : AdatView :=
  if v.nibbleNo = 6 then
    { v.report config.intraFrame (.channel v.channelNo v.channelData) with
      allChannelsData := v.allChannelsData.set v.channelNo v.channelData
      channelNo := v.channelNo + 1
      channelData := 0
      nibbleNo := 0 }
  else
    v

def sampleReport (config : AdatConfig) (v : AdatView) (no : Nat) : AdatField :=
  .sample no (AdatState.display config (v.allChannelsData.getD no 0))

def userDataBits (v : AdatView) : List Bool :=
  [v.frameUserData.getLsbD 3, v.frameUserData.getLsbD 2, v.frameUserData.getLsbD 1,
    v.frameUserData.getLsbD 0]

def endFrame (config : AdatConfig) (v : AdatView) : AdatView :=
  if v.channelNo = 8 then
    { v with
      reports := v.reports ++ ((List.range 8).flatMap fun no =>
          AdatState.reportWhen config.perFrame (v.sampleReport config no)) ++
        AdatState.reportWhen config.perFrame (.userData v.userDataBits)
      channelNo := 0
      phase := .sync }
  else
    v

def takeChannelBits (config : AdatConfig) (v : AdatView) (bits : List Bool) : AdatView :=
  ((v.takeNibble config bits).endChannel config).endFrame config

end AdatView

namespace AdatState

def view (s : AdatState) : AdatView :=
  { phase := s.state
    channelNo := s.channelNo
    nibbleNo := s.nibbleNo
    channelData := s.channelData
    allChannelsData := s.allChannelsData
    frameUserData := s.frameUserData
    reports := s.reports }

def values (s : AdatState) : List Bool :=
  s.signal.map AdatBit.value

variable (config : AdatConfig)

theorem putWhen_view (shown : Bool) (s : AdatState) (ss es : Nat) {field : AdatField}
    (isReport : field.isReport = true) :
    (putWhen shown s ss es field).view = s.view.report shown field := by
  cases shown with
  | true => simp [putWhen, put, view, reports, AdatView.report, reportWhen, isReport]
  | false => simp [putWhen, view, reports, AdatView.report, reportWhen]

theorem putWhen_bit_view (shown : Bool) (s : AdatState) (ss es : Nat) (value : Bool) :
    (putWhen shown s ss es (.bit value)).view = s.view := by
  cases shown with
  | true => simp [putWhen, put, view, reports, AdatField.isReport]
  | false => rfl

theorem putWhen_signal (shown : Bool) (s : AdatState) (ss es : Nat) (field : AdatField) :
    (putWhen shown s ss es field).signal = s.signal := by
  cases shown <;> rfl

/-- A one and zeros. -/
def intervalBits (count : Nat) : List Bool :=
  (List.range count).map fun i => decide (i = 0)

theorem pushBit_spec (s : AdatState) (i : Nat) (fits : s.signal.length ≤ 512) :
    (pushBit config s i).values = (s.values ++ [decide (i = 0)]).take 512 ∧
      (pushBit config s i).view = s.view ∧ (pushBit config s i).lastTime = s.lastTime := by
  have length : s.values.length = s.signal.length := length_map _
  unfold pushBit
  by_cases room : s.signal.length < 512
  · rw [if_pos room]
    refine ⟨?_, putWhen_bit_view .., ?_⟩
    · have short : (s.values ++ [decide (i = 0)]).length ≤ 512 := by
        rw [length_append, length]
        exact room
      rw [values, putWhen_signal, map_append, take_of_length_le short]
      rfl
    · unfold putWhen
      split <;> rfl
  · rw [if_neg room]
    have full : s.values.length = 512 := by omega
    refine ⟨?_, rfl, rfl⟩
    rw [← full, take_left]

theorem pushBits_spec (s : AdatState) (count : Nat) (fits : s.signal.length ≤ 512) :
    ((List.range count).foldl (pushBit config) s).values =
        (s.values ++ intervalBits count).take 512 ∧
      ((List.range count).foldl (pushBit config) s).view = s.view ∧
      ((List.range count).foldl (pushBit config) s).lastTime = s.lastTime := by
  induction count with
  | zero =>
      have length : s.values.length ≤ 512 := by rwa [values, length_map]
      refine ⟨?_, rfl, rfl⟩
      rw [intervalBits, range_zero, map_nil, List.append_nil, take_of_length_le length]
      rfl
  | succ count ih =>
      obtain ⟨pushed, viewed, last⟩ := ih
      have fitsBehind : ((List.range count).foldl (pushBit config) s).signal.length ≤ 512 := by
        have lengths := congrArg List.length pushed
        rw [values, length_map] at lengths
        rw [lengths, length_take]
        exact Nat.min_le_left _ _
      obtain ⟨next, nextView, nextLast⟩ := pushBit_spec config _ count fitsBehind
      rw [range_succ, foldl_append, foldl_cons, foldl_nil]
      refine ⟨?_, nextView.trans viewed, nextLast.trans last⟩
      rw [next, pushed, intervalBits, intervalBits, range_succ, map_append, ← List.append_assoc]
      rcases Nat.lt_or_ge (s.values ++ (List.range count).map fun i => decide (i = 0)).length 512
        with short | long
      · rw [take_of_length_le (Nat.le_of_lt short)]
        rfl
      · rw [take_append_of_le_length long]
        have same : ((s.values ++ (List.range count).map fun i => decide (i = 0)).take
            512).length = 512 := by
          rw [length_take, Nat.min_eq_left long]
        rw [take_append_of_le_length (Nat.le_of_eq same.symm), take_take, Nat.min_self]

variable {bits rest : List Bool} {s : AdatState} {front : List Bool} {samplenum : Nat}

theorem dataBits_eq (four : bits.length = 4)
    (holds : s.values = true :: bits ++ rest) : s.dataBits = bits := by
  have behind : (s.values.drop 1).take 4 = bits := by
    rw [holds, List.cons_append, drop_succ_cons, drop_zero, ← four, take_left]
  rw [← behind, dataBits, values, map_take, map_drop]

theorem firstBit_eq {bits : List Bool} (holds : s.values = true :: bits) : s.firstBit = true := by
  cases signal : s.signal with
  | nil => simp [values, signal] at holds
  | cons bit signal' =>
      simp only [values, signal, map_cons, List.cons.injEq] at holds
      simp [firstBit, signal, holds.1]

theorem lookForSyncPad_spec (holds : s.values = syncPad) : (s.lookForSyncPad config).values = [] ∧
      (s.lookForSyncPad config).view = s.view.takeSync config := by
  have length : s.signal.length = 11 := by
    have lengths := congrArg List.length holds
    rwa [values, length_map] at lengths
  have whole : (s.signal.take 11).map AdatBit.value = syncPad := by
    rw [← holds, take_of_length_le (Nat.le_of_eq length)]
    rfl
  have notShort : ¬s.signal.length < 11 := by omega
  rw [lookForSyncPad, if_neg notShort, if_pos whole]
  constructor
  · have dropped : ((putWhen config.intraFrame s (s.timeAt 0)
        (s.timeAt 9 + 2 * config.bitTime) .sync).signal.drop 11).map AdatBit.value = [] := by
      rw [putWhen_signal, drop_of_length_le (Nat.le_of_eq length)]
      rfl
    exact dropped
  · exact congrArg (fun v : AdatView => { v with phase := .userBits })
      (putWhen_view config.intraFrame s (s.timeAt 0) (s.timeAt 9 + 2 * config.bitTime)
        (show AdatField.sync.isReport = true from rfl))

theorem searchSync_spec (waiting : s.state = .sync) (holds : s.values = syncPad) :
    (s.searchSync config s.signal.length).values = [] ∧
      (s.searchSync config s.signal.length).view = s.view.takeSync config := by
  have length : s.signal.length = 11 := by
    have lengths := congrArg List.length holds
    rwa [values, length_map] at lengths
  obtain ⟨empty, viewed⟩ := lookForSyncPad_spec config holds
  have behind : (s.lookForSyncPad config).state = .userBits := congrArg AdatView.phase viewed
  have found : ¬((s.lookForSyncPad config).state = .sync ∧
      11 ≤ (s.lookForSyncPad config).signal.length) := by
    rw [behind]
    exact fun both => AdatPhase.noConfusion both.1
  rw [length, searchSync, if_pos ⟨waiting, Nat.le_of_eq length.symm⟩, searchSync, if_neg found]
  exact ⟨empty, viewed⟩

theorem searchSync_short (short : s.signal.length < 11) (turns : Nat) :
    s.searchSync config turns = s := by
  cases turns with
  | zero => rfl
  | succ turns => exact if_neg fun both => absurd short (Nat.not_lt.mpr both.2)

theorem decodeUserBits_spec (four : bits.length = 4) (holds : s.values = true :: bits ++ rest) :
    (s.decodeUserBits config).values = rest ∧
      (s.decodeUserBits config).view = s.view.takeUser config bits := by
  have length : s.signal.length = 5 + rest.length := by
    have lengths := congrArg List.length holds
    rw [values, length_map, length_append, length_cons, four] at lengths
    exact lengths
  have notShort : ¬s.signal.length < 5 := by omega
  rw [decodeUserBits, if_neg notShort, if_pos (firstBit_eq holds)]
  simp only [dataBits_eq four holds]
  constructor
  · have dropped : ((putWhen config.intraFrame (putWhen config.intraFrame s (s.timeAt 0)
        (s.timeAt 4 + config.bitTime) (.user bits)) (s.timeAt 1) (s.timeAt 4 + config.bitTime)
        (.nibble (bitsToInt bits))).signal.drop 5).map AdatBit.value = rest := by
      rw [putWhen_signal, putWhen_signal, map_drop]
      change s.values.drop 5 = rest
      have five : (true :: bits).length = 5 := by rw [length_cons, four]
      rw [holds, ← five, drop_left]
    exact dropped
  · have user := putWhen_view config.intraFrame s (s.timeAt 0) (s.timeAt 4 + config.bitTime)
      (show (AdatField.user bits).isReport = true from rfl)
    have nibble := putWhen_view config.intraFrame (putWhen config.intraFrame s (s.timeAt 0)
      (s.timeAt 4 + config.bitTime) (.user bits)) (s.timeAt 1) (s.timeAt 4 + config.bitTime)
      (show (AdatField.nibble (bitsToInt bits)).isReport = true from rfl)
    rw [user] at nibble
    exact congrArg (fun v : AdatView =>
      { v with
        frameUserData := bitsToInt bits
        phase := .channelData }) nibble

theorem takeNibble_spec (four : bits.length = 4) (holds : s.values = true :: bits ++ rest) :
    (s.takeNibble config).values = rest ∧
      (s.takeNibble config).view = s.view.takeNibble config bits := by
  unfold takeNibble
  simp only [dataBits_eq four holds]
  constructor
  · have dropped : ((putWhen config.intraFrame s (s.timeAt 1) (s.timeAt 4 + config.bitTime)
        (.nibble (bitsToInt bits))).signal.drop 5).map AdatBit.value = rest := by
      rw [putWhen_signal, map_drop]
      change s.values.drop 5 = rest
      have five : (true :: bits).length = 5 := by rw [length_cons, four]
      rw [holds, ← five, drop_left]
    exact dropped
  · have nibble := putWhen_view config.intraFrame s (s.timeAt 1) (s.timeAt 4 + config.bitTime)
      (show (AdatField.nibble (bitsToInt bits)).isReport = true from rfl)
    exact congrArg (fun v : AdatView =>
      { v with
        channelData := s.channelData ||| bitsToInt bits <<< (20 - s.nibbleNo * 4)
        nibbleNo := s.nibbleNo + 1 }) nibble

theorem endChannel_spec (s : AdatState) (samplenum : Nat) :
    (s.endChannel config samplenum).values = s.values ∧
      (s.endChannel config samplenum).view = s.view.endChannel config := by
  have viewNibble : s.view.nibbleNo = s.nibbleNo := rfl
  unfold endChannel AdatView.endChannel
  rw [viewNibble]
  by_cases full : s.nibbleNo = 6
  · rw [if_pos full, if_pos full]
    constructor
    · exact congrArg (List.map AdatBit.value) (putWhen_signal ..)
    · have channel := putWhen_view config.intraFrame s s.channelStartTime
        (samplenum + config.bitTime)
        (show (AdatField.channel s.channelNo s.channelData).isReport = true from rfl)
      exact congrArg (fun v : AdatView =>
        { v with
          allChannelsData := s.allChannelsData.set s.channelNo s.channelData
          channelNo := s.channelNo + 1
          channelData := 0
          nibbleNo := 0 }) channel
  · rw [if_neg full, if_neg full]
    exact ⟨rfl, rfl⟩

theorem putSamples_spec (s : AdatState) (samplenum count : Nat) :
    ((List.range count).foldl (putSample config samplenum) s).values = s.values ∧
      ((List.range count).foldl (putSample config samplenum) s).view =
        { s.view with
          reports := s.reports ++ (List.range count).flatMap fun no =>
            reportWhen config.perFrame (s.view.sampleReport config no) } := by
  induction count with
  | zero => exact ⟨rfl, by simp [view]⟩
  | succ count ih =>
      obtain ⟨kept, viewed⟩ := ih
      rw [range_succ, foldl_append, foldl_cons, foldl_nil]
      constructor
      · rw [← kept]
        exact congrArg (List.map AdatBit.value) (putWhen_signal ..)
      · have data : ((List.range count).foldl (putSample config samplenum) s).allChannelsData =
            s.allChannelsData := congrArg AdatView.allChannelsData viewed
        rw [putSample, putWhen_view config.perFrame _ _ _ rfl, viewed, data]
        simp [AdatView.report, AdatView.sampleReport, view]

theorem endFrame_spec (s : AdatState) (samplenum : Nat) :
    (s.endFrame config samplenum).values = s.values ∧
      (s.endFrame config samplenum).view = s.view.endFrame config := by
  have viewChannel : s.view.channelNo = s.channelNo := rfl
  unfold endFrame AdatView.endFrame
  rw [viewChannel]
  by_cases full : s.channelNo = 8
  · rw [if_pos full, if_pos full]
    obtain ⟨kept, viewed⟩ := putSamples_spec config s samplenum 8
    constructor
    · rw [← kept]
      exact congrArg (List.map AdatBit.value) (putWhen_signal ..)
    · have data : ((List.range 8).foldl (putSample config samplenum) s).frameUserData =
          s.frameUserData := congrArg AdatView.frameUserData viewed
      have userData := putWhen_view config.perFrame
        ((List.range 8).foldl (putSample config samplenum) s)
        ((List.range 8).foldl (putSample config samplenum) s).frameStartTime
        (samplenum + config.bitTime)
        (show (AdatField.userData
          ((List.range 8).foldl (putSample config samplenum) s).userDataBits).isReport = true
            from rfl)
      rw [viewed, userDataBits, data] at userData
      simp only [userDataBits, data]
      exact congrArg (fun v : AdatView =>
        { v with
          channelNo := 0
          phase := .sync }) userData
  · rw [if_neg full, if_neg full]
    exact ⟨rfl, rfl⟩

theorem decodeChannelData_spec (four : bits.length = 4)
    (holds : s.values = true :: bits ++ rest) (samplenum : Nat) :
    (s.decodeChannelData config samplenum).values = rest ∧
      (s.decodeChannelData config samplenum).view = s.view.takeChannelBits config bits := by
  have length : s.signal.length = 5 + rest.length := by
    have lengths := congrArg List.length holds
    rw [values, length_map, length_append, length_cons, four] at lengths
    exact lengths
  have notShort : ¬s.signal.length < 5 := by omega
  rw [decodeChannelData, if_neg notShort, if_pos (firstBit_eq holds)]
  obtain ⟨nibbleValues, nibbleView⟩ := takeNibble_spec config four holds
  obtain ⟨channelValues, channelView⟩ := endChannel_spec config (s.takeNibble config) samplenum
  obtain ⟨frameValues, frameView⟩ :=
    endFrame_spec config ((s.takeNibble config).endChannel config samplenum) samplenum
  rw [AdatView.takeChannelBits, ← nibbleView, ← channelView, ← frameView]
  exact ⟨frameValues.trans (channelValues.trans nibbleValues), rfl⟩

def pending (s : AdatState) (samplenum : Nat) : List Bool :=
  s.values ++ intervalBits (numBits config.bitTime (samplenum - s.lastTime))

theorem fillSignal_spec (fits : s.signal.length ≤ 512) (samplenum : Nat) :
    (s.fillSignal config samplenum).values = (s.pending config samplenum).take 512 ∧
      (s.fillSignal config samplenum).view = s.view := by
  obtain ⟨pushed, viewed, _⟩ := pushBits_spec config s
    (numBits config.bitTime (samplenum - s.lastTime)) fits
  exact ⟨pushed, viewed⟩

/-- Nothing is read before a group is complete. -/
def groupLength : AdatPhase → Nat
  | .sync => 11
  | .userBits => 5
  | .channelData => 5

theorem process_short (short : s.values.length < groupLength s.state)
    (samplenum : Nat) : s.process config samplenum = s := by
  have length : s.values.length = s.signal.length := length_map _
  rw [length] at short
  unfold process
  cases phase : s.state with
  | sync =>
      rw [phase] at short
      exact searchSync_short config short _
  | userBits =>
      rw [phase] at short
      exact if_pos short
  | channelData =>
      rw [phase] at short
      exact if_pos short

/-- A buffer that is never longer than a group. -/
structure Collected (s : AdatState) (samplenum : Nat) (front : List Bool) : Prop where
  pending : s.pending config samplenum = front
  elapsed : ∃ count, 0 < count ∧ samplenum = s.lastTime + config.bitTime * count

theorem groupLength_le (phase : AdatPhase) : groupLength phase ≤ 11 := by
  cases phase <;> decide

theorem pending_length
    (collected : s.Collected config samplenum front) : s.signal.length ≤ front.length := by
  have lengths := congrArg List.length collected.pending
  have values : s.values.length = s.signal.length := length_map _
  rw [AdatState.pending, length_append, values] at lengths
  omega

theorem handleEdge_quiet (collected : s.Collected config samplenum front)
    (short : front.length < groupLength s.state) :
    (s.handleEdge config samplenum).values = front ∧ (s.handleEdge config samplenum).view = s.view ∧
      (s.handleEdge config samplenum).lastTime = samplenum := by
  have limit := groupLength_le s.state
  have fits : s.signal.length ≤ 512 := by
    have least := pending_length config collected
    omega
  obtain ⟨filled, viewed⟩ := fillSignal_spec config fits samplenum
  have phase : (s.fillSignal config samplenum).state = s.state := congrArg AdatView.phase viewed
  have values : (s.fillSignal config samplenum).values = front := by
    rw [filled, collected.pending, take_of_length_le (by omega)]
  have processed : (s.fillSignal config samplenum).process config samplenum =
      s.fillSignal config samplenum := by
    refine process_short config ?_ samplenum
    rw [values, phase]
    exact short
  rw [handleEdge, processed]
  exact ⟨values, viewed, rfl⟩

variable {config}

theorem numBits_mul (positive : 0 < config.bitTime) (count : Nat) :
    numBits config.bitTime (config.bitTime * count) = count := by
  have double : 2 * (config.bitTime * count) + config.bitTime =
      config.bitTime + 2 * config.bitTime * count := by ring
  rw [numBits, double, Nat.add_mul_div_left _ _ (by omega), Nat.div_eq_of_lt (by omega),
    Nat.zero_add]

theorem intervalBits_succ (count : Nat) :
    intervalBits (count + 1) = intervalBits count ++ [decide (count = 0)] := by
  rw [intervalBits, range_succ, map_append]
  rfl

theorem collected_edge (positive : 0 < config.bitTime) (here : s.lastTime = samplenum) :
    s.Collected config (samplenum + config.bitTime) (s.values ++ [true]) := by
  refine ⟨?_, 1, Nat.one_pos, by rw [here, Nat.mul_one]⟩
  have diff : samplenum + config.bitTime - s.lastTime = config.bitTime * 1 := by
    rw [here, Nat.add_sub_cancel_left, Nat.mul_one]
  rw [pending, diff, numBits_mul positive]
  rfl

theorem collected_zero (positive : 0 < config.bitTime)
    (collected : s.Collected config samplenum front) :
    s.Collected config (samplenum + config.bitTime) (front ++ [false]) := by
  obtain ⟨holds, count, some, rfl⟩ := collected
  refine ⟨?_, count + 1, Nat.succ_pos _, by ring⟩
  have diff : s.lastTime + config.bitTime * count - s.lastTime = config.bitTime * count :=
    Nat.add_sub_cancel_left _ _
  have diffNext : s.lastTime + config.bitTime * count + config.bitTime - s.lastTime =
      config.bitTime * (count + 1) := by
    rw [Nat.mul_succ]
    omega
  have notFirst : decide (count = 0) = false := decide_eq_false (by omega)
  rw [pending, diff, numBits_mul positive] at holds
  rw [pending, diffNext, numBits_mul positive, intervalBits_succ, notFirst, ← List.append_assoc,
    holds]

theorem pending_later {samplenum later : Nat}
    (collected : s.Collected config samplenum front) (behind : samplenum ≤ later) :
    ∃ rest, s.pending config later = front ++ rest := by
  have more : numBits config.bitTime (samplenum - s.lastTime) ≤
      numBits config.bitTime (later - s.lastTime) := by
    apply Nat.div_le_div_right
    omega
  obtain ⟨extra, sum⟩ := Nat.exists_eq_add_of_le more
  rw [← collected.pending, pending, pending, sum, intervalBits, intervalBits, range_add, map_append]
  exact ⟨_, (List.append_assoc _ _ _).symm⟩

variable (config)

/-- What an NRZI signal makes of the decoder. -/
def runBits (s : AdatState) (samplenum : Nat) : List Bool → AdatState
  | [] => s
  | bit :: bits =>
      runBits (if bit then s.handleEdge config samplenum else s) (samplenum + config.bitTime) bits

theorem runBits_append (s : AdatState) (samplenum : Nat) (front back : List Bool) :
    s.runBits config samplenum (front ++ back) = (s.runBits config samplenum front).runBits config
        (samplenum + config.bitTime * front.length) back := by
  induction front generalizing s samplenum with
  | nil => rfl
  | cons bit front ih =>
      rw [List.cons_append, runBits, ih, runBits, length_cons, Nat.mul_succ]
      congr 1
      omega

variable {config}

/-- The edge at this sample completes what has been collected. -/
structure Poised (config : AdatConfig) (s : AdatState) (samplenum : Nat) (v : AdatView) : Prop where
  view : (s.handleEdge config samplenum).view = v
  empty : (s.handleEdge config samplenum).values = []
  lastTime : (s.handleEdge config samplenum).lastTime = samplenum

def Lasting (config : AdatConfig) (s : AdatState) (samplenum : Nat) (v : AdatView) : Prop :=
  ∀ later, samplenum ≤ later → (s.handleEdge config later).view = v

theorem collect_run (positive : 0 < config.bitTime) (bits : List Bool)
    (collected : s.Collected config samplenum front)
    (short : front.length + bits.length ≤ groupLength s.state) :
    (s.runBits config samplenum bits).Collected config
        (samplenum + config.bitTime * bits.length) (front ++ bits) ∧
      (s.runBits config samplenum bits).view = s.view := by
  induction bits generalizing s samplenum front with
  | nil =>
      rw [List.append_nil]
      exact ⟨collected, rfl⟩
  | cons bit bits ih =>
      have length : (bit :: bits).length = bits.length + 1 := rfl
      have time : samplenum + config.bitTime * (bit :: bits).length =
          samplenum + config.bitTime + config.bitTime * bits.length := by
        rw [length, Nat.mul_succ]
        omega
      have joined : front ++ bit :: bits = front ++ [bit] ++ bits := by simp
      have lengthJoined : (front ++ [bit]).length = front.length + 1 := length_append
      rw [time, joined, runBits]
      cases bit with
      | true =>
          obtain ⟨values, viewed, last⟩ := handleEdge_quiet config collected (by omega)
          have phase : (s.handleEdge config samplenum).state = s.state :=
            congrArg AdatView.phase viewed
          have behind := collected_edge positive last
          rw [values] at behind
          obtain ⟨run, kept⟩ := ih behind (by rw [phase]; omega)
          exact ⟨run, kept.trans viewed⟩
      | false =>
          have shorter : (front ++ [false]).length + bits.length ≤ groupLength s.state := by omega
          exact ih (collected_zero positive collected) shorter

theorem Poised.collect {v : AdatView}
    (poised : Poised config s samplenum v) (positive : 0 < config.bitTime) (bits : List Bool)
    (short : bits.length + 1 ≤ groupLength v.phase) :
    (s.runBits config samplenum (true :: bits)).Collected config
        (samplenum + config.bitTime * (true :: bits).length) (true :: bits) ∧
      (s.runBits config samplenum (true :: bits)).view = v := by
  have begun := collected_edge positive poised.lastTime
  rw [poised.empty, nil_append] at begun
  have phase : (s.handleEdge config samplenum).state = v.phase :=
    congrArg AdatView.phase poised.view
  obtain ⟨run, kept⟩ := collect_run positive bits begun (by
    rw [phase, length_singleton, Nat.add_comm]
    exact short)
  have time : samplenum + config.bitTime * (true :: bits).length =
      samplenum + config.bitTime + config.bitTime * bits.length := by
    rw [length_cons, Nat.mul_succ]
    omega
  rw [time]
  exact ⟨run, kept.trans poised.view⟩

theorem Poised.sync {v : AdatView}
    (poised : Poised config s samplenum v) (positive : 0 < config.bitTime)
    (waiting : v.phase = .sync) :
    Poised config (s.runBits config samplenum syncPad)
      (samplenum + config.bitTime * syncPad.length) (v.takeSync config) := by
  obtain ⟨collected, viewed⟩ := poised.collect positive (List.replicate 10 false)
    (by rw [waiting]; decide)
  have fits : (s.runBits config samplenum syncPad).signal.length ≤ 512 :=
    (pending_length config collected).trans (by decide)
  obtain ⟨filled, filledView⟩ := fillSignal_spec config fits
    (samplenum + config.bitTime * syncPad.length)
  have holds : ((s.runBits config samplenum syncPad).fillSignal config
      (samplenum + config.bitTime * syncPad.length)).values = syncPad := by
    have pad : (s.runBits config samplenum syncPad).pending config
        (samplenum + config.bitTime * syncPad.length) = syncPad := collected.pending
    rw [filled, pad]
    rfl
  have viewedPad : (s.runBits config samplenum syncPad).view = v := viewed
  rw [viewedPad] at filledView
  have phase : ((s.runBits config samplenum syncPad).fillSignal config
      (samplenum + config.bitTime * syncPad.length)).state = .sync :=
    (congrArg AdatView.phase filledView).trans waiting
  obtain ⟨empty, found⟩ := searchSync_spec config phase holds
  rw [filledView] at found
  have processed : ∀ t : AdatState, t.state = .sync →
      t.process config (samplenum + config.bitTime * syncPad.length) =
        t.searchSync config t.signal.length := by
    intro t waiting
    rw [process, waiting]
  refine ⟨?_, ?_, rfl⟩
  · rw [handleEdge, processed _ phase]
    exact found
  · rw [handleEdge, processed _ phase]
    exact empty

end AdatState

namespace AdatView

def takeGroup (config : AdatConfig) (v : AdatView) (nibble : BitVec 4) : AdatView :=
  match v.phase with
  | .sync => v
  | .userBits => v.takeUser config (msbBits 4 nibble.toNat)
  | .channelData => v.takeChannelBits config (msbBits 4 nibble.toNat)

end AdatView

namespace AdatState

variable {config : AdatConfig}

theorem edge_group {s : AdatState} {nibble : BitVec 4} (reading : s.state ≠ .sync)
    (fits : s.signal.length ≤ 512) {samplenum : Nat} {rest : List Bool}
    (holds : s.pending config samplenum = adatGroup nibble ++ rest) :
    (s.handleEdge config samplenum).view = s.view.takeGroup config nibble ∧
      (s.handleEdge config samplenum).values = rest.take 507 := by
  have four := length_msbBits 4 nibble.toNat
  obtain ⟨filled, viewed⟩ := fillSignal_spec config fits samplenum
  have values : (s.fillSignal config samplenum).values =
      true :: msbBits 4 nibble.toNat ++ rest.take 507 := by
    have five : (adatGroup nibble).length = 5 := by rw [adatGroup, length_cons, four]
    rw [filled, holds, take_append, five, take_of_length_le (by omega)]
    rfl
  have phase : (s.fillSignal config samplenum).state = s.state := congrArg AdatView.phase viewed
  have viewPhase : s.view.phase = s.state := rfl
  unfold AdatView.takeGroup
  rw [viewPhase]
  cases state : s.state with
  | sync => exact absurd state reading
  | userBits =>
      have processed : (s.fillSignal config samplenum).process config samplenum =
          (s.fillSignal config samplenum).decodeUserBits config := by
        rw [process, phase, state]
      obtain ⟨behind, taken⟩ := decodeUserBits_spec config four values
      rw [handleEdge, processed, ← viewed]
      exact ⟨taken, behind⟩
  | channelData =>
      have processed : (s.fillSignal config samplenum).process config samplenum =
          (s.fillSignal config samplenum).decodeChannelData config samplenum := by
        rw [process, phase, state]
      obtain ⟨behind, taken⟩ := decodeChannelData_spec config four values samplenum
      rw [handleEdge, processed, ← viewed]
      exact ⟨taken, behind⟩

theorem Poised.group {s : AdatState} {samplenum : Nat} {v : AdatView}
    (poised : Poised config s samplenum v) (positive : 0 < config.bitTime)
    (reading : v.phase ≠ .sync) (nibble : BitVec 4) :
    Poised config (s.runBits config samplenum (adatGroup nibble))
        (samplenum + config.bitTime * 5) (v.takeGroup config nibble) ∧
      Lasting config (s.runBits config samplenum (adatGroup nibble))
        (samplenum + config.bitTime * 5) (v.takeGroup config nibble) := by
  have four := length_msbBits 4 nibble.toNat
  have limit : groupLength v.phase = 5 := by
    cases phase : v.phase with
    | sync => exact absurd phase reading
    | userBits => rfl
    | channelData => rfl
  obtain ⟨collected, viewed⟩ := poised.collect positive (msbBits 4 nibble.toNat)
    (by rw [four, limit])
  have five : (true :: msbBits 4 nibble.toNat).length = 5 := by rw [length_cons, four]
  have fits : (s.runBits config samplenum (adatGroup nibble)).signal.length ≤ 512 := by
    have least := pending_length config collected
    rw [five] at least
    exact least.trans (by decide)
  have state : (s.runBits config samplenum (adatGroup nibble)).state ≠ .sync := by
    have phase : (s.runBits config samplenum (adatGroup nibble)).state = v.phase :=
      congrArg AdatView.phase viewed
    rwa [phase]
  rw [five] at collected
  have viewedGroup : (s.runBits config samplenum (adatGroup nibble)).view = v := viewed
  constructor
  · have exact5 : (s.runBits config samplenum (adatGroup nibble)).pending config
        (samplenum + config.bitTime * 5) = adatGroup nibble ++ [] := by
      rw [List.append_nil]
      exact collected.pending
    obtain ⟨taken, behind⟩ := edge_group state fits exact5
    rw [viewedGroup] at taken
    exact ⟨taken, behind, rfl⟩
  · intro later behind
    obtain ⟨rest, more⟩ := pending_later collected behind
    obtain ⟨taken, _⟩ := edge_group state fits more
    rwa [viewedGroup] at taken

end AdatState

theorem bitsToInt_msbBits (nibble : BitVec 4) :
    bitsToInt (msbBits 4 nibble.toNat) = nibble.setWidth 32 := by
  revert nibble
  decide +kernel

theorem nibbles_word (word : BitVec 24) :
    (((((0#32 ||| (word.extractLsb' 20 4).setWidth 32 <<< 20) |||
      (word.extractLsb' 16 4).setWidth 32 <<< 16) |||
      (word.extractLsb' 12 4).setWidth 32 <<< 12) |||
      (word.extractLsb' 8 4).setWidth 32 <<< 8) ||| (word.extractLsb' 4 4).setWidth 32 <<< 4) |||
      (word.extractLsb' 0 4).setWidth 32 <<< 0 = word.setWidth 32 := by
  apply eq_of_getLsbD_eq
  intro i inside
  simp only [getLsbD_or, getLsbD_shiftLeft, getLsbD_setWidth,
    getLsbD_extractLsb', inside, decide_true, Bool.true_and]
  interval_cases i <;> simp

theorem signExtend24bit_setWidth (word : BitVec 24) :
    signExtend24bit (word.setWidth 32) = word.toInt := by
  have fits := word.isLt
  have same : (word.setWidth 32).toNat = word.toNat := by
    rw [toNat_setWidth]
    exact Nat.mod_eq_of_lt (by omega)
  have low : (word.setWidth 32 &&& 0x7fffff).toNat = word.toNat % 2 ^ 23 := by
    rw [toNat_and, same]
    exact Nat.and_two_pow_sub_one_eq_mod word.toNat 23
  have sign : (word.setWidth 32 &&& 0x800000 ≠ 0) ↔ 2 ^ 23 ≤ word.toNat := by
    have high : (word.setWidth 32 &&& 0x800000).toNat =
        (word.toNat.testBit 23).toNat * 2 ^ 23 := by
      rw [toNat_and, same]
      exact Nat.and_two_pow word.toNat 23
    have bit : word.toNat.testBit 23 = decide (2 ^ 23 ≤ word.toNat) := by
      rw [Nat.testBit_eq_decide_div_mod_eq]
      exact decide_eq_decide.mpr (by omega)
    rw [ne_eq, ← toNat_inj, high, bit]
    simp
  unfold signExtend24bit
  by_cases negative : 2 ^ 23 ≤ word.toNat
  · have magnitude : (0x800000 - (word.setWidth 32 &&& 0x7fffff)).toNat =
        2 ^ 24 - word.toNat := by
      have whole : (0x800000 : BitVec 32).toNat = 2 ^ 23 := rfl
      rw [toNat_sub, low, whole]
      omega
    rw [if_pos (sign.mpr negative), toInt_eq_toNat_of_lt (by rw [magnitude]; omega),
      magnitude, toInt_eq_toNat_cond, if_neg (by omega)]
    omega
  · rw [if_neg (fun set => negative (sign.mp set)),
      toInt_eq_toNat_of_lt (by rw [same]; omega),
      toInt_eq_toNat_of_lt (by omega), same]

namespace AdatView

variable (config : AdatConfig)

/-- In front of a frame. -/
def idle (data : List (BitVec 32)) (user : BitVec 32) (reports : List AdatField) : AdatView :=
  { phase := .sync
    channelNo := 0
    nibbleNo := 0
    channelData := 0
    allChannelsData := data
    frameUserData := user
    reports }

/-- Inside a sample. -/
def inChannel (no nibbleNo : Nat) (word : BitVec 32) (data : List (BitVec 32)) (user : BitVec 32)
    (reports : List AdatField) : AdatView :=
  { phase := .channelData
    channelNo := no
    nibbleNo
    channelData := word
    allChannelsData := data
    frameUserData := user
    reports }

theorem takeGroup_early {no nibbleNo : Nat} (inside : no < 8) (early : nibbleNo < 5)
    (word : BitVec 32) (data : List (BitVec 32)) (user : BitVec 32) (reports : List AdatField)
    (nibble : BitVec 4) :
    (inChannel no nibbleNo word data user reports).takeGroup config nibble =
      inChannel no (nibbleNo + 1) (word ||| nibble.setWidth 32 <<< (20 - nibbleNo * 4)) data user
        (reports ++ AdatState.reportWhen config.intraFrame (.nibble (nibble.setWidth 32))) := by
  have notLast : ¬nibbleNo + 1 = 6 := by omega
  have notFull : ¬no = 8 := by omega
  have channel : (inChannel no nibbleNo word data user reports).takeGroup config nibble =
      (inChannel no nibbleNo word data user reports).takeChannelBits config
        (msbBits 4 nibble.toNat) := rfl
  rw [channel]
  simp only [takeChannelBits, takeNibble, report, bitsToInt_msbBits, inChannel, endChannel,
    notLast, endFrame, notFull, if_false]

theorem takeGroup_last (no : Nat) (word : BitVec 32) (data : List (BitVec 32)) (user : BitVec 32)
    (reports : List AdatField) (nibble : BitVec 4) :
    (inChannel no 5 word data user reports).takeGroup config nibble =
      (inChannel (no + 1) 0 0 (data.set no (word ||| nibble.setWidth 32 <<< 0)) user
        (reports ++ AdatState.reportWhen config.intraFrame (.nibble (nibble.setWidth 32)) ++
          AdatState.reportWhen config.intraFrame
            (.channel no (word ||| nibble.setWidth 32 <<< 0)))).endFrame config := by
  have channel : (inChannel no 5 word data user reports).takeGroup config nibble =
      (inChannel no 5 word data user reports).takeChannelBits config (msbBits 4 nibble.toNat) := rfl
  rw [channel]
  simp only [takeChannelBits, takeNibble, report, bitsToInt_msbBits, inChannel, endChannel, if_true]

theorem endFrame_early {v : AdatView} (early : v.channelNo ≠ 8) : v.endFrame config = v :=
  if_neg early

/-- Nibbles behind `nibbleNo` of them. -/
def joinNibbles (word : BitVec 32) (nibbleNo : Nat) : List (BitVec 4) → BitVec 32
  | [] => word
  | nibble :: nibbles =>
      joinNibbles (word ||| nibble.setWidth 32 <<< (20 - nibbleNo * 4)) (nibbleNo + 1) nibbles

end AdatView

namespace AdatState

variable {config : AdatConfig}

variable {reports : List AdatField}

variable {s : AdatState} {samplenum : Nat} {user : BitVec 32}

theorem Poised.nibbles (nibbles : List (BitVec 4)) {no nibbleNo : Nat}
    {word : BitVec 32} {data : List (BitVec 32)}
    (poised : Poised config s samplenum (AdatView.inChannel no nibbleNo word data user reports))
    (positive : 0 < config.bitTime) (inside : no < 8) (early : nibbleNo + nibbles.length ≤ 5) :
    Poised config (s.runBits config samplenum (nibbles.flatMap adatGroup))
      (samplenum + config.bitTime * (5 * nibbles.length))
      (AdatView.inChannel no (nibbleNo + nibbles.length)
        (AdatView.joinNibbles word nibbleNo nibbles) data user
        (reports ++ nibbles.flatMap fun nibble =>
          reportWhen config.intraFrame (.nibble (nibble.setWidth 32)))) := by
  induction nibbles generalizing s samplenum nibbleNo word reports with
  | nil =>
      rw [flatMap_nil, flatMap_nil, List.append_nil]
      exact poised
  | cons nibble nibbles ih =>
      have length : (nibble :: nibbles).length = nibbles.length + 1 := rfl
      have five : (adatGroup nibble).length = 5 := by rw [adatGroup, length_cons, length_msbBits]
      have grouped := (poised.group positive (AdatPhase.noConfusion) nibble).1
      rw [AdatView.takeGroup_early config inside (by omega)] at grouped
      have behind := ih grouped (by omega)
      have time : samplenum + config.bitTime * 5 + config.bitTime * (5 * nibbles.length) =
          samplenum + config.bitTime * (5 * (nibble :: nibbles).length) := by
        rw [length]
        ring
      have count : nibbleNo + 1 + nibbles.length = nibbleNo + (nibble :: nibbles).length := by
        rw [length]
        omega
      rw [time, count, List.append_assoc, ← flatMap_cons (f := fun nibble : BitVec 4 =>
        reportWhen config.intraFrame (.nibble (nibble.setWidth 32)))] at behind
      rw [flatMap_cons, runBits_append, five]
      exact behind

theorem Poised.word {no : Nat} {data : List (BitVec 32)}
    (poised : Poised config s samplenum (AdatView.inChannel no 0 0 data user reports))
    (positive : 0 < config.bitTime) (inside : no < 8) (word : BitVec 24) :
    Poised config (s.runBits config samplenum ((adatNibbles word).flatMap adatGroup))
        (samplenum + config.bitTime * 30)
        ((AdatView.inChannel (no + 1) 0 0 (data.set no (word.setWidth 32)) user
          (reports ++ AdatFrame.channelReports config word no)).endFrame config) ∧
      Lasting config (s.runBits config samplenum ((adatNibbles word).flatMap adatGroup))
        (samplenum + config.bitTime * 30)
        ((AdatView.inChannel (no + 1) 0 0 (data.set no (word.setWidth 32)) user
          (reports ++ AdatFrame.channelReports config word no)).endFrame config) := by
  let front : List (BitVec 4) := [word.extractLsb' 20 4, word.extractLsb' 16 4,
    word.extractLsb' 12 4, word.extractLsb' 8 4, word.extractLsb' 4 4]
  have split : adatNibbles word = front ++ [word.extractLsb' 0 4] := rfl
  have frontRun := poised.nibbles front positive inside (Nat.le_refl 5)
  have last := frontRun.group positive (AdatPhase.noConfusion) (word.extractLsb' 0 4)
  have taken := AdatView.takeGroup_last config no (AdatView.joinNibbles 0 0 front) data user
    (reports ++ front.flatMap fun nibble =>
      reportWhen config.intraFrame (.nibble (nibble.setWidth 32))) (word.extractLsb' 0 4)
  have joined : AdatView.joinNibbles 0 0 front ||| (word.extractLsb' 0 4).setWidth 32 <<< 0 =
      word.setWidth 32 := nibbles_word word
  have reported : reports ++ (front.flatMap fun nibble =>
        reportWhen config.intraFrame (.nibble (nibble.setWidth 32))) ++
      reportWhen config.intraFrame (.nibble ((word.extractLsb' 0 4).setWidth 32)) ++
      reportWhen config.intraFrame (.channel no (word.setWidth 32)) =
      reports ++ AdatFrame.channelReports config word no := by
    cases shown : config.intraFrame with
    | true => simp [reportWhen, AdatFrame.channelReports, split, shown, front]
    | false => simp [reportWhen, AdatFrame.channelReports, shown]
  have time : samplenum + config.bitTime * (5 * front.length) + config.bitTime * 5 =
      samplenum + config.bitTime * 30 := by
    have five : front.length = 5 := rfl
    rw [five]
    ring
  have frontLength : (front.flatMap adatGroup).length = 5 * front.length := by
    simp [front, adatGroup]
  have count : 0 + front.length = 5 := rfl
  rw [count, taken, joined, reported, time] at last
  rw [split, flatMap_append, runBits_append, frontLength, flatMap_singleton]
  exact last

theorem Poised.words (words : List (BitVec 24))
    {done rest : List (BitVec 32)}
    (poised : Poised config s samplenum
      (AdatView.inChannel done.length 0 0 (done ++ rest) user reports))
    (positive : 0 < config.bitTime) (some : words ≠ []) (eight : done.length + words.length = 8)
    (same : rest.length = words.length) :
    Poised config
        (s.runBits config samplenum (words.flatMap fun word => (adatNibbles word).flatMap adatGroup))
        (samplenum + config.bitTime * (30 * words.length))
        ((AdatView.inChannel 8 0 0 (done ++ words.map (setWidth 32)) user
          (reports ++ (words.zipIdx done.length).flatMap fun word =>
            AdatFrame.channelReports config word.1 word.2)).endFrame config) ∧
      Lasting config
        (s.runBits config samplenum (words.flatMap fun word => (adatNibbles word).flatMap adatGroup))
        (samplenum + config.bitTime * (30 * words.length))
        ((AdatView.inChannel 8 0 0 (done ++ words.map (setWidth 32)) user
          (reports ++ (words.zipIdx done.length).flatMap fun word =>
            AdatFrame.channelReports config word.1 word.2)).endFrame config) := by
  induction words generalizing s samplenum done rest reports with
  | nil => exact absurd rfl some
  | cons word words ih =>
      have length : (word :: words).length = words.length + 1 := rfl
      obtain ⟨old, rest, rfl⟩ : ∃ old rest', rest = old :: rest' := by
        cases rest with
        | nil => simp at same
        | cons old rest => exact ⟨old, rest, rfl⟩
      have read := poised.word positive (by omega) word
      have replaced : (done ++ old :: rest).set done.length (word.setWidth 32) =
          done ++ [word.setWidth 32] ++ rest := by simp
      have bits : ((adatNibbles word).flatMap adatGroup).length = 30 := by
        simp [adatNibbles, adatGroup]
      rw [replaced] at read
      rw [flatMap_cons, runBits_append, bits]
      cases words with
      | nil =>
          have last : done.length + 1 = 8 := eight
          have none : rest = [] := length_eq_zero_iff.mp (Nat.succ.inj same)
          rw [last, none, List.append_nil] at read
          simpa [runBits] using read
      | cons next words =>
          have notLast : done.length + 1 ≠ 8 := by
            simp only [length_cons] at eight
            omega
          have doneLength : (done ++ [word.setWidth 32]).length = done.length + 1 := length_append
          have poisedNext := read.1
          rw [AdatView.endFrame_early config notLast, ← doneLength] at poisedNext
          have behind := ih poisedNext (cons_ne_nil _ _)
            (by rw [doneLength]; omega) (Nat.succ.inj same)
          have time : samplenum + config.bitTime * 30 +
              config.bitTime * (30 * (next :: words).length) =
              samplenum + config.bitTime * (30 * (word :: next :: words).length) := by
            rw [length]
            ring
          rw [time, doneLength, List.append_assoc done, List.append_assoc reports] at behind
          exact behind

end AdatState

namespace AdatView

variable (config : AdatConfig)

theorem userDataBits_user (user : BitVec 4) :
    [(user.setWidth 32 : BitVec 32).getLsbD 3, (user.setWidth 32 : BitVec 32).getLsbD 2,
      (user.setWidth 32 : BitVec 32).getLsbD 1, (user.setWidth 32 : BitVec 32).getLsbD 0] =
      msbBits 4 user.toNat := by
  revert user
  decide +kernel

theorem display_word (word : BitVec 24) :
    AdatState.display config (word.setWidth 32) = AdatFrame.display config word := by
  rw [AdatState.display, AdatFrame.display, signExtend24bit_setWidth]

theorem endFrame_full (frame : AdatFrame) (reports : List AdatField) :
    (inChannel 8 0 0 (frame.words.map (setWidth 32)) (frame.user.setWidth 32)
        reports).endFrame config =
      idle (frame.words.map (setWidth 32)) (frame.user.setWidth 32) (reports ++
          if config.perFrame then
            (frame.words.zipIdx.map fun word =>
              AdatField.sample word.2 (AdatFrame.display config word.1)) ++
              [AdatField.userData (msbBits 4 frame.user.toNat)]
          else
            []) := by
  have words : frame.words = [frame.channels 0, frame.channels 1, frame.channels 2,
      frame.channels 3, frame.channels 4, frame.channels 5, frame.channels 6,
      frame.channels 7] := rfl
  have full : (inChannel 8 0 0 (frame.words.map (setWidth 32)) (frame.user.setWidth 32)
      reports).channelNo = 8 := rfl
  have range : List.range 8 = [0, 1, 2, 3, 4, 5, 6, 7] := rfl
  have userBits := userDataBits_user frame.user
  rw [endFrame, if_pos full]
  cases shown : config.perFrame with
  | true =>
      simp only [inChannel, idle, userDataBits, userBits, sampleReport, AdatState.reportWhen,
        if_true, words, range, map_cons, map_nil, flatMap_cons, flatMap_nil,
        zipIdx_cons, zipIdx_nil, getD_cons_zero, getD_cons_succ,
        display_word, List.append_assoc, List.cons_append, nil_append]
  | false =>
      simp [inChannel, idle, AdatState.reportWhen]

end AdatView

namespace AdatState

variable {config : AdatConfig}

theorem length_wire (frame : AdatFrame) : frame.wire.length = 256 := by
  simp [AdatFrame.wire, syncPad, adatGroup, AdatFrame.words, adatNibbles]

theorem Poised.frame {s : AdatState} {samplenum : Nat} {data : List (BitVec 32)}
    {user : BitVec 32} {reports : List AdatField}
    (poised : Poised config s samplenum (AdatView.idle data user reports))
    (positive : 0 < config.bitTime) (eight : data.length = 8) (frame : AdatFrame) :
    Poised config (s.runBits config samplenum frame.wire) (samplenum + config.bitTime * 256)
        (AdatView.idle (frame.words.map (setWidth 32)) (frame.user.setWidth 32)
          (reports ++ frame.reports config)) ∧
      Lasting config (s.runBits config samplenum frame.wire) (samplenum + config.bitTime * 256)
        (AdatView.idle (frame.words.map (setWidth 32)) (frame.user.setWidth 32)
          (reports ++ frame.reports config)) := by
  have synced := poised.sync positive rfl
  have grouped := (synced.group positive AdatPhase.noConfusion frame.user).1
  have started : ((AdatView.idle data user reports).takeSync config).takeGroup config frame.user =
      AdatView.inChannel 0 0 0 data (frame.user.setWidth 32)
        (reports ++ if config.intraFrame then
          [AdatField.sync, .user (msbBits 4 frame.user.toNat), .nibble (frame.user.setWidth 32)]
        else
          []) := by
    have reading : ((AdatView.idle data user reports).takeSync config).takeGroup config frame.user =
        ((AdatView.idle data user reports).takeSync config).takeUser config
          (msbBits 4 frame.user.toNat) := rfl
    rw [reading, AdatView.takeUser, bitsToInt_msbBits]
    cases shown : config.intraFrame with
    | true => simp [AdatView.takeSync, AdatView.report, AdatView.idle, AdatView.inChannel,
        reportWhen, shown]
    | false => simp [AdatView.takeSync, AdatView.report, AdatView.idle, AdatView.inChannel,
        reportWhen, shown]
  rw [started] at grouped
  have eightWords : frame.words.length = 8 := length_ofFn
  have begun : Poised config _ _ (AdatView.inChannel ([] : List (BitVec 32)).length 0 0
      ([] ++ data) (frame.user.setWidth 32) _) := grouped
  have read := begun.words frame.words positive (by
    intro none
    rw [none] at eightWords
    cases eightWords) (by rw [eightWords]; rfl) (eight.trans eightWords.symm)
  rw [nil_append, AdatView.endFrame_full, eightWords] at read
  have joined : reports ++ (if config.intraFrame then
        [AdatField.sync, .user (msbBits 4 frame.user.toNat), .nibble (frame.user.setWidth 32)]
      else
        []) ++ ((frame.words.zipIdx ([] : List (BitVec 32)).length).flatMap fun word =>
        AdatFrame.channelReports config word.1 word.2) ++
      (if config.perFrame then
        (frame.words.zipIdx.map fun word =>
          AdatField.sample word.2 (AdatFrame.display config word.1)) ++
          [AdatField.userData (msbBits 4 frame.user.toNat)]
      else
        []) = reports ++ frame.reports config := by
    rw [AdatFrame.reports, List.append_assoc, List.append_assoc, List.append_assoc]
    rfl
  rw [joined] at read
  have time : samplenum + config.bitTime * syncPad.length + config.bitTime * 5 +
      config.bitTime * (30 * 8) = samplenum + config.bitTime * 256 := by
    have pad : syncPad.length = 11 := rfl
    rw [pad]
    ring
  have five : (adatGroup frame.user).length = 5 := by rw [adatGroup, length_cons, length_msbBits]
  rw [time] at read
  rw [AdatFrame.wire, List.append_assoc, runBits_append, runBits_append, five]
  exact read

theorem Poised.frames (frame : AdatFrame) (frames : List AdatFrame) {s : AdatState}
    {samplenum : Nat} {data : List (BitVec 32)} {user : BitVec 32} {reports : List AdatField}
    (poised : Poised config s samplenum (AdatView.idle data user reports))
    (positive : 0 < config.bitTime) (eight : data.length = 8) :
    ∃ data user, Lasting config
      (s.runBits config samplenum ((frame :: frames).flatMap AdatFrame.wire))
      (samplenum + config.bitTime * ((frame :: frames).flatMap AdatFrame.wire).length)
      (AdatView.idle data user
        (reports ++ (frame :: frames).flatMap (AdatFrame.reports config))) := by
  induction frames generalizing frame s samplenum data user reports with
  | nil =>
      refine ⟨frame.words.map (setWidth 32), frame.user.setWidth 32, ?_⟩
      have read := (poised.frame positive eight frame).2
      rw [flatMap_singleton, flatMap_singleton, length_wire]
      exact read
  | cons next frames ih =>
      have read := (poised.frame positive eight frame).1
      have eightWords : (frame.words.map (setWidth 32)).length = 8 := by
        rw [length_map]
        exact length_ofFn
      obtain ⟨dataBehind, userBehind, behind⟩ := ih next read eightWords
      refine ⟨dataBehind, userBehind, ?_⟩
      rw [flatMap_cons, flatMap_cons (f := AdatFrame.reports config), runBits_append,
        length_append, length_wire, Nat.mul_add, ← Nat.add_assoc, ← List.append_assoc]
      exact behind

end AdatState

namespace AdatView

/-- The counters fit the phase. -/
structure Sound (v : AdatView) : Prop where
  channels : v.allChannelsData.length = 8
  running : v.phase = .channelData → v.channelNo < 8
  stopped : v.phase ≠ .channelData → v.channelNo = 0 ∧ v.nibbleNo = 0 ∧ v.channelData = 0

variable (config : AdatConfig)

variable {v : AdatView}

theorem Sound.takeSync (sound : v.Sound) (waiting : v.phase = .sync) : (v.takeSync config).Sound :=
  ⟨sound.channels, AdatPhase.noConfusion,
    fun _ => sound.stopped (by rw [waiting]; exact AdatPhase.noConfusion)⟩

theorem Sound.takeUser (sound : v.Sound) (reading : v.phase = .userBits)
    (bits : List Bool) : (v.takeUser config bits).Sound := by
  obtain ⟨no, _⟩ := sound.stopped (by rw [reading]; exact AdatPhase.noConfusion)
  refine ⟨sound.channels, ?_, fun other => absurd rfl other⟩
  intro _
  have start : (v.takeUser config bits).channelNo = v.channelNo := rfl
  rw [start, no]
  decide

theorem Sound.takeChannelBits (sound : v.Sound) (reading : v.phase = .channelData)
    (bits : List Bool) : (v.takeChannelBits config bits).Sound := by
  have inside := sound.running reading
  have ended : ((v.takeNibble config bits).endChannel config).allChannelsData.length = 8 ∧
      ((v.takeNibble config bits).endChannel config).phase = .channelData ∧
      ((v.takeNibble config bits).endChannel config).channelNo ≤ 8 ∧
      (((v.takeNibble config bits).endChannel config).channelNo = 8 →
        ((v.takeNibble config bits).endChannel config).nibbleNo = 0 ∧
          ((v.takeNibble config bits).endChannel config).channelData = 0) := by
    have same : (v.takeNibble config bits).channelNo = v.channelNo := rfl
    unfold endChannel
    split
    · refine ⟨(length_set ..).trans sound.channels, reading, ?_, fun _ => ⟨rfl, rfl⟩⟩
      exact inside
    · refine ⟨sound.channels, reading, Nat.le_of_lt inside, ?_⟩
      intro full
      rw [same] at full
      omega
  obtain ⟨channels, phase, most, zero⟩ := ended
  unfold AdatView.takeChannelBits endFrame
  split
  · rename_i full
    exact ⟨channels, AdatPhase.noConfusion, fun _ => ⟨rfl, (zero full).1, (zero full).2⟩⟩
  · rename_i early
    exact ⟨channels, fun _ => by omega, fun other => absurd phase other⟩

end AdatView

namespace AdatState

variable {config : AdatConfig}

structure Sound (s : AdatState) : Prop where
  fits : s.signal.length ≤ 512
  view : s.view.Sound

variable {s : AdatState}

end AdatState

end SigrokDecode
