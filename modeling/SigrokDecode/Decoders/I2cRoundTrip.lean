import SigrokDecode.Decoders.I2c
import SigrokDecode.Foundation.ShiftRegister

/-!
# Transactions of I2C

What the decoder does with a waveform depends on the clock edges, the start and the
stop conditions alone.
-/

set_option linter.dupNamespace false

namespace SigrokDecode

open Foundation List

inductive I2cSignal
  | rise (sda : Bool)
  | start
  | stop

/-- The samples behind `old` show these signals: SDA changes only while SCL is low,
except for start and stop conditions, and no sample has two edges. -/
inductive Drives : I2cPins → List I2cPins → List I2cSignal → Prop
  | done (old : I2cPins) : Drives old [] []
  | hold {old : I2cPins} {samples : List I2cPins} {signals : List I2cSignal} :
      Drives old samples signals → Drives old (old :: samples) signals
  | change {before sda : Bool} {samples : List I2cPins} {signals : List I2cSignal} :
      Drives ⟨false, sda⟩ samples signals →
      Drives ⟨false, before⟩ (⟨false, sda⟩ :: samples) signals
  | fall {sda : Bool} {samples : List I2cPins} {signals : List I2cSignal} :
      Drives ⟨false, sda⟩ samples signals →
      Drives ⟨true, sda⟩ (⟨false, sda⟩ :: samples) signals
  | rise {sda : Bool} {samples : List I2cPins} {signals : List I2cSignal} :
      Drives ⟨true, sda⟩ samples signals →
      Drives ⟨false, sda⟩ (⟨true, sda⟩ :: samples) (.rise sda :: signals)
  | start {samples : List I2cPins} {signals : List I2cSignal} :
      Drives ⟨true, false⟩ samples signals →
      Drives ⟨true, true⟩ (⟨true, false⟩ :: samples) (.start :: signals)
  | stop {samples : List I2cPins} {signals : List I2cSignal} :
      Drives ⟨true, true⟩ samples signals →
      Drives ⟨true, false⟩ (⟨true, true⟩ :: samples) (.stop :: signals)

/-- A waveform for signals behind a sample with a high clock. -/
def drive : Bool → List I2cSignal → List I2cPins
  | _, [] => []
  | before, .rise sda :: signals =>
      ⟨false, before⟩ :: ⟨false, sda⟩ :: ⟨true, sda⟩ :: drive sda signals
  | _, .start :: signals => ⟨true, false⟩ :: drive false signals
  | _, .stop :: signals => ⟨true, true⟩ :: drive true signals

def driveable : Bool → List I2cSignal → Bool
  | _, [] => true
  | _, .rise sda :: signals => driveable sda signals
  | before, .start :: signals => before && driveable false signals
  | before, .stop :: signals => !before && driveable true signals

theorem drives_drive {before : Bool} {signals : List I2cSignal}
    (can : driveable before signals = true) :
    Drives ⟨true, before⟩ (drive before signals) signals := by
  induction signals generalizing before with
  | nil => exact .done _
  | cons signal signals ih =>
      cases signal with
      | rise sda => exact .fall (.change (.rise (ih can)))
      | start =>
          cases before with
          | true => exact .start (ih can)
          | false => cases can
      | stop =>
          cases before with
          | true => cases can
          | false => exact .stop (ih can)

def I2cProto.isEvent : I2cProto → Bool
  | .bits _ => false
  | _ => true

structure I2cView where
  phase : I2cPhase
  bitcount : Nat
  databyte : BitVec 8
  wr : Int
  isRepeatStart : Bool
  events : List I2cProto

namespace I2cView

def report (v : I2cView) (event : I2cProto) : I2cView :=
  { v with events := v.events ++ [event] }

def takeStart (v : I2cView) : I2cView :=
  { v.report (if v.isRepeatStart then .startRepeat else .start) with
    phase := .findAddress
    bitcount := 0
    databyte := 0
    wr := -1
    isRepeatStart := true }

def takeAddress (config : I2cConfig) (v : I2cView) (byte : BitVec 8) : I2cView :=
  { v.report (.address (!decide (byte &&& 1 ≠ 0))
      (if config.addressShifted then byte >>> 1 else byte)) with
    phase := .findAck
    bitcount := 0
    databyte := 0
    wr := if byte &&& 1 ≠ 0 then 0 else 1 }

def takeData (v : I2cView) (byte : BitVec 8) : I2cView :=
  { v.report (.data (decide (v.wr ≠ 0)) byte) with
    phase := .findAck
    bitcount := 0
    databyte := 0 }

def takeBit (config : I2cConfig) (v : I2cView) (sda : Bool) : I2cView :=
  if v.bitcount < 7 then
    { v with
      bitcount := v.bitcount + 1
      databyte := shiftIn v.databyte sda }
  else if v.phase = .findAddress then
    v.takeAddress config (shiftIn v.databyte sda)
  else
    v.takeData (shiftIn v.databyte sda)

def takeAck (v : I2cView) (sda : Bool) : I2cView :=
  { v.report (if sda then .nack else .ack) with
    phase := .findData }

def takeStop (v : I2cView) : I2cView :=
  { v.report .stop with
    phase := .findStart
    wr := -1
    isRepeatStart := false }

def take (config : I2cConfig) (v : I2cView) : I2cSignal → I2cView
  | .rise sda =>
      match v.phase with
      | .findStart => v
      | .findAddress => v.takeBit config sda
      | .findData => v.takeBit config sda
      | .findAck => v.takeAck sda
  | .start =>
      match v.phase with
      | .findStart => v.takeStart
      | .findAddress => v
      | .findData => v.takeStart
      | .findAck => v
  | .stop =>
      match v.phase with
      | .findData => v.takeStop
      | _ => v

end I2cView

namespace I2cState

def events (s : I2cState) : List I2cProto :=
  (s.protos.map I2cOut.content).filter I2cProto.isEvent

def view (s : I2cState) : I2cView :=
  { phase := s.state
    bitcount := s.bitcount
    databyte := s.databyte
    wr := s.wr
    isRepeatStart := s.isRepeatStart
    events := s.events }

theorem proto_view (s : I2cState) (ss es : Nat) {event : I2cProto} (isEvent : event.isEvent) :
    (s.proto ss es event).view = s.view.report event := by
  simp [view, events, proto, I2cView.report, isEvent]

theorem proto_bits_view (s : I2cState) (ss es : Nat) (bits : List I2cBit) :
    (s.proto ss es (.bits bits)).view = s.view := by
  simp [view, events, proto, I2cProto.isEvent]

variable (config : I2cConfig)

variable (s : I2cState)

theorem handlePacket_view (isStartRepeat : Bool) :
    (s.handlePacket config isStartRepeat).view = s.view := by
  unfold handlePacket
  split
  · split
    · split <;> rfl
    · split <;> rfl
  · rfl

theorem putDataPoint_view (samplenum : Nat) :
    (s.putDataPoint config samplenum).view = s.view := by
  unfold putDataPoint
  split <;> rfl

theorem putBits_view : (s.putBits config).view = s.view := by
  have kept : ∀ (bits : List I2cBit) (t : I2cState), (bits.foldl (fun s bit =>
        putDataPoint config (s.put bit.ss bit.es (.bit bit.sda)) bit.ss) t).view = t.view := by
    intro bits
    induction bits with
    | nil => intro t; rfl
    | cons bit bits ih =>
        intro t
        exact (ih _).trans (putDataPoint_view config _ _)
  exact kept s.bits s

theorem handleStart_view (samplenum : Nat) :
    (s.handleStart config samplenum).view = s.view.takeStart := by
  have same : ∀ t : I2cState, t.view =
      s.view.report (if s.isRepeatStart then .startRepeat else .start) →
      ({ t with
        state := .findAddress
        bitcount := 0
        databyte := 0
        isRepeatStart := true
        wr := -1 } : I2cState).view = s.view.takeStart := by
    intro t viewed
    exact congrArg (fun v : I2cView =>
      { v with
        phase := .findAddress
        bitcount := 0
        databyte := 0
        wr := -1
        isRepeatStart := true }) viewed
  unfold handleStart
  refine same _ ?_
  cases repeated : s.isRepeatStart with
  | true =>
      simp only [if_true]
      rw [handlePacket_view]
      exact proto_view (s.put samplenum samplenum .startRepeat) _ _ rfl
  | false =>
      simp only [Bool.false_eq_true, if_false]
      have packet := handlePacket_view config
        ((s.put samplenum samplenum .start).proto samplenum samplenum .start) false
      exact packet.trans (proto_view (s.put samplenum samplenum .start) _ _ rfl)

theorem storeBit_view (samplenum : Nat) (sda : Bool) :
    ((s.storeBit samplenum sda).measureBit).view =
      { s.view with databyte := shiftIn s.databyte sda } := by
  unfold measureBit
  split <;> rfl

variable (config : I2cConfig)

variable (s : I2cState)

theorem finishAddress_view (samplenum byteEnd : Nat)
    (byte : BitVec 8) :
    (s.finishAddress config samplenum byteEnd byte).view =
      s.view.report (.address (decide (s.wr ≠ 0)) byte) := by
  have reported := proto_view (s.proto s.ssByte byteEnd (.bits s.bits.reverse)) s.ssByte byteEnd
    (show (I2cProto.address (decide (s.wr ≠ 0)) byte).isEvent from rfl)
  rw [proto_bits_view] at reported
  exact (putDataPoint_view config _ samplenum).trans ((putBits_view config _).trans reported)

theorem finishData_view (byteEnd : Nat) (byte : BitVec 8) :
    (s.finishData config byteEnd byte).view =
      s.view.report (.data (decide (s.wr ≠ 0)) byte) := by
  have bits := proto_bits_view { s with packetData := s.packetData ++ [byte] } s.ssByte byteEnd
    s.bits.reverse
  have reported := proto_view
    (({ s with packetData := s.packetData ++ [byte] } : I2cState).proto s.ssByte byteEnd
      (.bits s.bits.reverse)) s.ssByte byteEnd
    (show (I2cProto.data (decide (s.wr ≠ 0)) byte).isEvent from rfl)
  rw [bits] at reported
  exact (putBits_view config _).trans reported

theorem finishByte_view (samplenum : Nat) :
    (s.finishByte config samplenum).view =
      if s.state = .findAddress then s.view.takeAddress config s.databyte
      else s.view.takeData s.databyte := by
  have done : ∀ {t : I2cState} {v : I2cView}, t.view = v → t.awaitAck.view =
      { v with
        phase := .findAck
        bitcount := 0
        databyte := 0 } := by
    intro t v viewed
    exact congrArg (fun v : I2cView =>
      { v with
        phase := .findAck
        bitcount := 0
        databyte := 0 }) viewed
  by_cases address : s.state = .findAddress
  · have direction : s.directionOf = if s.databyte &&& 1 ≠ 0 then 0 else 1 := if_pos address
    have byte : s.reportedByte config =
        if config.addressShifted then s.databyte >>> 1 else s.databyte := by
      simp only [reportedByte, address, true_and]
    have write : (decide ((if s.databyte &&& 1 ≠ 0 then (0 : Int) else 1) ≠ 0)) =
        !decide (s.databyte &&& 1 ≠ 0) := by
      by_cases read : s.databyte &&& 1 ≠ 0
      · rw [if_pos read, decide_eq_true read]
        rfl
      · rw [if_neg read, decide_eq_false read]
        rfl
    have finished := finishAddress_view config (s.takeDirection (samplenum + s.bitwidth))
      samplenum (samplenum + s.bitwidth) (s.reportedByte config)
    have wr : (s.takeDirection (samplenum + s.bitwidth)).wr =
        if s.databyte &&& 1 ≠ 0 then 0 else 1 := direction
    rw [wr, write] at finished
    rw [if_pos address, finishByte, if_pos address, done finished, byte, I2cView.takeAddress,
      ← direction]
    rfl
  · have direction : s.directionOf = s.wr := if_neg address
    have byte : s.reportedByte config = s.databyte := if_neg fun both => address both.1
    have same : (s.takeDirection (samplenum + s.bitwidth)).view = s.view := by
      simp only [takeDirection, direction]
      rfl
    have finished := finishData_view config (s.takeDirection (samplenum + s.bitwidth))
      (samplenum + s.bitwidth) (s.reportedByte config)
    have wr : (s.takeDirection (samplenum + s.bitwidth)).wr = s.wr := direction
    rw [wr, same, byte] at finished
    rw [if_neg address, finishByte, if_neg address, byte, done finished]
    rfl

theorem handleAddressOrData_view (samplenum : Nat)
    (sda : Bool) :
    (s.handleAddressOrData config samplenum sda).view = s.view.takeBit config sda := by
  have stored := storeBit_view s samplenum sda
  have count : ((s.storeBit samplenum sda).measureBit).bitcount = s.bitcount :=
    congrArg I2cView.bitcount stored
  have byte : ((s.storeBit samplenum sda).measureBit).databyte = shiftIn s.databyte sda :=
    congrArg I2cView.databyte stored
  have phase : ((s.storeBit samplenum sda).measureBit).state = s.state :=
    congrArg I2cView.phase stored
  have viewCount : s.view.bitcount = s.bitcount := rfl
  have viewPhase : s.view.phase = s.state := rfl
  unfold handleAddressOrData I2cView.takeBit
  simp only [count, viewCount, viewPhase]
  by_cases more : s.bitcount < 7
  · rw [if_pos more, if_pos more]
    exact congrArg (fun v : I2cView => { v with bitcount := s.bitcount + 1 }) stored
  · rw [if_neg more, if_neg more, finishByte_view, phase, byte, stored]
    rfl

theorem getAck_view (samplenum : Nat) (sda : Bool) :
    (s.getAck samplenum sda).view = s.view.takeAck sda := by
  cases sda with
  | true => simp [getAck, view, events, put, proto, I2cView.takeAck, I2cView.report,
      I2cProto.isEvent]
  | false => simp [getAck, view, events, put, proto, I2cView.takeAck, I2cView.report,
      I2cProto.isEvent]

theorem handleStop_view (config : I2cConfig) (s : I2cState) (samplenum : Nat) :
    (s.handleStop config samplenum).view = s.view.takeStop := by
  have packet := handlePacket_view config { s with packetEs := samplenum } false
  have reported := proto_view
    ((handlePacket config { s with packetEs := samplenum } false).put samplenum samplenum .stop)
    samplenum samplenum (show I2cProto.stop.isEvent from rfl)
  have viewed := reported.trans (congrArg (fun v : I2cView => v.report .stop) packet)
  exact congrArg (fun v : I2cView =>
    { v with
      phase := .findStart
      wr := -1
      isRepeatStart := false }) viewed

theorem scan_view (config : I2cConfig) {old : I2cPins} {samples : List I2cPins}
    {signals : List I2cSignal} (drives : Drives old samples signals) (s : I2cState)
    (samplenum : Nat) :
    ((i2cDecode config).scan s old samplenum samples).view =
      signals.foldl (I2cView.take config) s.view := by
  induction drives generalizing s samplenum with
  | done => rfl
  | @hold old samples signals _ ih =>
      have asleep : (i2cDecode config).wakes s old old = false := by
        cases old with
        | mk scl sda => cases phase : s.state <;> cases scl <;> cases sda <;>
            simp [i2cDecode, wakes, phase, startSeen, stopSeen, sclRises]
      rw [SampleDecoder.scan_cons, SampleDecoder.step_asleep _ asleep]
      exact ih s (samplenum + 1)
  | @change before sda samples signals _ ih =>
      have asleep : (i2cDecode config).wakes s ⟨false, before⟩ ⟨false, sda⟩ = false := by
        cases phase : s.state <;> simp [i2cDecode, wakes, phase, startSeen, stopSeen, sclRises]
      rw [SampleDecoder.scan_cons, SampleDecoder.step_asleep _ asleep]
      exact ih s (samplenum + 1)
  | @fall sda samples signals _ ih =>
      have asleep : (i2cDecode config).wakes s ⟨true, sda⟩ ⟨false, sda⟩ = false := by
        cases phase : s.state <;> simp [i2cDecode, wakes, phase, startSeen, stopSeen, sclRises]
      rw [SampleDecoder.scan_cons, SampleDecoder.step_asleep _ asleep]
      exact ih s (samplenum + 1)
  | @rise sda samples signals _ ih =>
      have taken : ((i2cDecode config).step s ⟨false, sda⟩ ⟨true, sda⟩ samplenum).view =
          I2cView.take config s.view (.rise sda) := by
        have viewPhase : s.view.phase = s.state := rfl
        have still : startSeen ⟨false, sda⟩ ⟨true, sda⟩ = false := by cases sda <;> rfl
        unfold SampleDecoder.step I2cView.take i2cDecode wakes handle
        simp only [viewPhase]
        cases s.state with
        | findStart => simp only [still, Bool.false_eq_true, if_false]
        | findAddress => exact handleAddressOrData_view config s samplenum sda
        | findData => exact handleAddressOrData_view config s samplenum sda
        | findAck => exact getAck_view s samplenum sda
      rw [SampleDecoder.scan_cons, foldl_cons, ← taken]
      exact ih _ (samplenum + 1)
  | @start samples signals _ ih =>
      have taken : ((i2cDecode config).step s ⟨true, true⟩ ⟨true, false⟩ samplenum).view =
          I2cView.take config s.view .start := by
        have viewPhase : s.view.phase = s.state := rfl
        unfold SampleDecoder.step I2cView.take i2cDecode wakes handle
        simp only [viewPhase]
        cases s.state with
        | findStart => exact handleStart_view config s samplenum
        | findAddress => rfl
        | findData => exact handleStart_view config s samplenum
        | findAck => rfl
      rw [SampleDecoder.scan_cons, foldl_cons, ← taken]
      exact ih _ (samplenum + 1)
  | @stop samples signals _ ih =>
      have taken : ((i2cDecode config).step s ⟨true, false⟩ ⟨true, true⟩ samplenum).view =
          I2cView.take config s.view .stop := by
        have viewPhase : s.view.phase = s.state := rfl
        unfold SampleDecoder.step I2cView.take i2cDecode wakes handle
        simp only [viewPhase]
        cases s.state with
        | findStart => rfl
        | findAddress => rfl
        | findData => exact handleStop_view config s samplenum
        | findAck => rfl
      rw [SampleDecoder.scan_cons, foldl_cons, ← taken]
      exact ih _ (samplenum + 1)

end I2cState

/-! ## Transactions -/

structure I2cByte where
  byte : BitVec 8
  ack : Bool

/-- What follows a start condition. -/
structure I2cSegment where
  address : BitVec 7
  read : Bool
  addressAck : Bool
  data : List I2cByte

structure I2cTransaction where
  first : I2cSegment
  repeated : List I2cSegment

def I2cByte.signals (byte : I2cByte) : List I2cSignal :=
  (msbBits 8 byte.byte.toNat).map .rise ++ [I2cSignal.rise !byte.ack]

namespace I2cSegment

def addressByte (segment : I2cSegment) : I2cByte :=
  ⟨segment.address ++ BitVec.ofBool segment.read, segment.addressAck⟩

def signals (segment : I2cSegment) : List I2cSignal :=
  segment.addressByte.signals ++ segment.data.flatMap I2cByte.signals

def ackEvent (ack : Bool) : I2cProto :=
  if ack then .ack else .nack

def addressValue (config : I2cConfig) (segment : I2cSegment) : BitVec 8 :=
  if config.addressShifted then segment.address.setWidth 8 else segment.addressByte.byte

def dataEvents (segment : I2cSegment) (byte : I2cByte) : List I2cProto :=
  [.data (!segment.read) byte.byte, ackEvent byte.ack]

def events (config : I2cConfig) (segment : I2cSegment) : List I2cProto :=
  [.address (!segment.read) (segment.addressValue config), ackEvent segment.addressAck] ++
    segment.data.flatMap segment.dataEvents

end I2cSegment

namespace I2cTransaction

def signals (transaction : I2cTransaction) : List I2cSignal :=
  .start :: transaction.first.signals ++ (transaction.repeated.flatMap fun segment =>
      .rise true :: .start :: segment.signals) ++ [I2cSignal.rise false, .stop]

def events (config : I2cConfig) (transaction : I2cTransaction) : List I2cProto :=
  .start :: transaction.first.events config ++
    (transaction.repeated.flatMap fun segment => .startRepeat :: segment.events config) ++ [.stop]

end I2cTransaction

def I2cWaveform (transactions : List I2cTransaction) (samples : List I2cPins) : Prop :=
  ∃ rest, samples = ⟨true, true⟩ :: rest ∧
    Drives ⟨true, true⟩ rest (transactions.flatMap I2cTransaction.signals)

namespace I2cView

variable (config : I2cConfig)

/-- Behind an acknowledge bit. -/
def between (wr : Int) (events : List I2cProto) : I2cView :=
  { phase := .findData
    bitcount := 0
    databyte := 0
    wr
    isRepeatStart := true
    events }

/-- Behind a start condition. -/
def addressed (events : List I2cProto) : I2cView :=
  { phase := .findAddress
    bitcount := 0
    databyte := 0
    wr := -1
    isRepeatStart := true
    events }

def idle (count : Nat) (databyte : BitVec 8) (events : List I2cProto) : I2cView :=
  { phase := .findStart
    bitcount := count
    databyte
    wr := -1
    isRepeatStart := false
    events }

def Reading (v : I2cView) : Prop :=
  v.phase = .findAddress ∨ v.phase = .findData

variable {v : I2cView}

theorem take_rise (reading : v.Reading) (sda : Bool) :
    v.take config (.rise sda) = v.takeBit config sda := by
  rcases reading with phase | phase
  · simp only [take, phase]
  · simp only [take, phase]

theorem take_bits (bits : List Bool) (reading : v.Reading) (short : v.bitcount + bits.length ≤ 7) :
    (bits.map I2cSignal.rise).foldl (take config) v =
      { v with
        bitcount := v.bitcount + bits.length
        databyte := bits.foldl shiftIn v.databyte } := by
  induction bits generalizing v with
  | nil => rfl
  | cons bit bits ih =>
      have length : (bit :: bits).length = bits.length + 1 := rfl
      have more : v.bitcount < 7 := by omega
      have taken : v.take config (.rise bit) =
          { v with
            bitcount := v.bitcount + 1
            databyte := shiftIn v.databyte bit } := by
        rw [take_rise config reading, takeBit, if_pos more]
      rw [map_cons, foldl_cons, taken]
      have behind := ih (v := { v with
        bitcount := v.bitcount + 1
        databyte := shiftIn v.databyte bit }) reading (by simp only; omega)
      rw [behind]
      simp only [length, foldl_cons]
      congr 1
      omega

theorem take_byte (byte : BitVec 8) (reading : v.Reading) (start : v.bitcount = 0)
    (empty : v.databyte = 0) :
    ((msbBits 8 byte.toNat).map I2cSignal.rise).foldl (take config) v =
      if v.phase = .findAddress then v.takeAddress config byte else v.takeData byte := by
  obtain ⟨front, last, split⟩ : ∃ front last, msbBits 8 byte.toNat = front ++ [last] := ⟨_, _, rfl⟩
  have seven : front.length = 7 := by
    have lengths := congrArg List.length split
    rw [length_msbBits, length_append] at lengths
    exact (Nat.succ.inj lengths).symm
  have whole : shiftIn (front.foldl shiftIn 0) last = byte := by
    rw [← foldl_shiftIn_msbBits byte, split, foldl_append]
    rfl
  rw [split, map_append, foldl_append,
    take_bits config front reading (by rw [start, seven]), start, empty, seven]
  have last_taken := take_rise config (v := { v with
    bitcount := 0 + 7
    databyte := front.foldl shiftIn 0 }) reading last
  refine last_taken.trans ?_
  have full : ¬0 + 7 < 7 := by decide
  rw [takeBit, if_neg full, whole]
  by_cases address : v.phase = .findAddress
  · rw [if_pos address, if_pos address]
    rfl
  · rw [if_neg address, if_neg address]
    rfl

theorem take_data (segment : I2cSegment) (byte : I2cByte) (events : List I2cProto) :
    byte.signals.foldl (take config) (between (if segment.read then 0 else 1) events) =
      between (if segment.read then 0 else 1) (events ++ segment.dataEvents byte) := by
  have reading : (between (if segment.read then 0 else 1) events).phase ≠ .findAddress :=
    I2cPhase.noConfusion
  rw [I2cByte.signals, foldl_append, take_byte config byte.byte (Or.inr rfl) rfl rfl,
    if_neg reading]
  cases read : segment.read with
  | true =>
      cases ack : byte.ack with
      | true => simp [take, takeAck, takeData, report, between, I2cSegment.dataEvents,
          I2cSegment.ackEvent, read, ack]
      | false => simp [take, takeAck, takeData, report, between, I2cSegment.dataEvents,
          I2cSegment.ackEvent, read, ack]
  | false =>
      cases ack : byte.ack with
      | true => simp [take, takeAck, takeData, report, between, I2cSegment.dataEvents,
          I2cSegment.ackEvent, read, ack]
      | false => simp [take, takeAck, takeData, report, between, I2cSegment.dataEvents,
          I2cSegment.ackEvent, read, ack]

theorem take_dataBytes (segment : I2cSegment) (bytes : List I2cByte) (events : List I2cProto) :
    (bytes.flatMap I2cByte.signals).foldl (take config)
        (between (if segment.read then 0 else 1) events) =
      between (if segment.read then 0 else 1) (events ++ bytes.flatMap segment.dataEvents) := by
  induction bytes generalizing events with
  | nil => simp
  | cons byte bytes ih =>
      rw [flatMap_cons, foldl_append, take_data, ih, flatMap_cons, List.append_assoc]

theorem addressByte_read (address : BitVec 7) (read : Bool) :
    decide ((address ++ BitVec.ofBool read : BitVec 8) &&& 1 ≠ 0) = read := by
  revert address read
  decide +kernel

theorem addressByte_address (address : BitVec 7) (read : Bool) :
    (address ++ BitVec.ofBool read : BitVec 8) >>> 1 = address.setWidth 8 := by
  revert address read
  decide +kernel

theorem take_segment (segment : I2cSegment) (events : List I2cProto) :
    segment.signals.foldl (take config) (addressed events) =
      between (if segment.read then 0 else 1) (events ++ segment.events config) := by
  have phase : (addressed events).phase = .findAddress := rfl
  have read := addressByte_read segment.address segment.read
  have value := addressByte_address segment.address segment.read
  rw [I2cSegment.signals, foldl_append, I2cByte.signals, foldl_append,
    take_byte config _ (Or.inl rfl) rfl rfl, if_pos phase]
  have acknowledged : [I2cSignal.rise !segment.addressAck].foldl (take config)
      (takeAddress config (addressed events) (segment.address ++ BitVec.ofBool segment.read)) =
      between (if segment.read then 0 else 1)
        (events ++ [.address (!segment.read) (segment.addressValue config),
          I2cSegment.ackEvent segment.addressAck]) := by
    have direction : (if (segment.address ++ BitVec.ofBool segment.read : BitVec 8) &&& 1 ≠ 0
        then (0 : Int) else 1) = if segment.read then 0 else 1 := by
      cases reads : segment.read with
      | true => rw [reads] at read; rw [if_pos (of_decide_eq_true read)]; rfl
      | false => rw [reads] at read; rw [if_neg (of_decide_eq_false read)]; rfl
    cases ack : segment.addressAck with
    | true => simp only [takeAddress, direction, read, value, take, takeAck, report, between,
        addressed, foldl_cons, foldl_nil, I2cSegment.ackEvent, I2cSegment.addressValue,
        I2cSegment.addressByte, List.append_assoc, cons_append, nil_append]; rfl
    | false => simp only [takeAddress, direction, read, value, take, takeAck, report, between,
        addressed, foldl_cons, foldl_nil, I2cSegment.ackEvent, I2cSegment.addressValue,
        I2cSegment.addressByte, List.append_assoc, cons_append, nil_append]; rfl
  have ackByte : segment.addressByte.ack = segment.addressAck := rfl
  have byte : segment.addressByte.byte = segment.address ++ BitVec.ofBool segment.read := rfl
  rw [ackByte, byte, acknowledged, take_dataBytes, List.append_assoc, I2cSegment.events]

theorem take_restart (wr : Int) (events : List I2cProto) :
    ([.rise true, .start] : List I2cSignal).foldl (take config) (between wr events) =
      addressed (events ++ [.startRepeat]) := rfl

theorem take_repeated (segments : List I2cSegment) (wr : Int) (events : List I2cProto) :
    ∃ wrBehind, (segments.flatMap fun segment => .rise true :: .start :: segment.signals).foldl
        (take config) (between wr events) =
      between wrBehind (events ++
        segments.flatMap fun segment => .startRepeat :: segment.events config) := by
  induction segments generalizing wr events with
  | nil => exact ⟨wr, by simp⟩
  | cons segment segments ih =>
      have split : (.rise true :: .start :: segment.signals) =
          ([.rise true, .start] : List I2cSignal) ++ segment.signals := rfl
      obtain ⟨wrBehind, behind⟩ := ih (if segment.read then 0 else 1)
        (events ++ [.startRepeat] ++ segment.events config)
      refine ⟨wrBehind, ?_⟩
      rw [flatMap_cons, foldl_append, split, foldl_append, take_restart,
        take_segment, behind, flatMap_cons]
      simp

theorem take_transaction (transaction : I2cTransaction) (count : Nat) (databyte : BitVec 8)
    (events : List I2cProto) :
    transaction.signals.foldl (take config) (idle count databyte events) =
      idle 1 (shiftIn 0 false) (events ++ transaction.events config) := by
  have split : transaction.signals = [I2cSignal.start] ++ transaction.first.signals ++
      (transaction.repeated.flatMap fun segment =>
        .rise true :: .start :: segment.signals) ++ [I2cSignal.rise false, .stop] := rfl
  have started : ([.start] : List I2cSignal).foldl (take config) (idle count databyte events) =
      addressed (events ++ [.start]) := rfl
  obtain ⟨wr, behind⟩ := take_repeated config transaction.repeated
    (if transaction.first.read then 0 else 1)
    (events ++ [.start] ++ transaction.first.events config)
  have stopped : ∀ events, ([.rise false, .stop] : List I2cSignal).foldl (take config)
      (between wr events) = idle 1 (shiftIn 0 false) (events ++ [.stop]) := fun _ => rfl
  rw [split, foldl_append, foldl_append, foldl_append, started, take_segment,
    behind, stopped, I2cTransaction.events]
  simp

theorem take_transactions (transactions : List I2cTransaction) (count : Nat)
    (databyte : BitVec 8) (events : List I2cProto) :
    ((transactions.flatMap I2cTransaction.signals).foldl (take config)
        (idle count databyte events)).events =
      events ++ transactions.flatMap (I2cTransaction.events config) := by
  induction transactions generalizing count databyte events with
  | nil => exact (List.append_nil _).symm
  | cons transaction transactions ih =>
      rw [flatMap_cons, foldl_append, take_transaction, ih, flatMap_cons, List.append_assoc]

end I2cView

namespace I2cState

theorem i2c_roundTrip (config : I2cConfig) {transactions : List I2cTransaction}
    {samples : List I2cPins} (waveform : I2cWaveform transactions samples) (initial : I2cPins) :
    ((i2cDecode config).scan reset initial 0 samples).events =
      transactions.flatMap (I2cTransaction.events config) := by
  obtain ⟨rest, rfl, drives⟩ := waveform
  have asleep : (i2cDecode config).wakes reset initial ⟨true, true⟩ = false := by
    cases initial with
    | mk scl sda => cases scl <;> cases sda <;> rfl
  rw [SampleDecoder.scan_cons, SampleDecoder.step_asleep _ asleep]
  have viewed := scan_view config drives reset 1
  have read := I2cView.take_transactions config transactions 0 0 []
  rw [nil_append] at read
  exact (congrArg I2cView.events viewed).trans read

/-- A register is written, and read behind a repeated start condition. -/
def registerAccess : I2cTransaction :=
  { first :=
      { address := 0x50
        read := false
        addressAck := true
        data := [⟨0x10, true⟩] }
    repeated :=
      [{ address := 0x50
         read := true
         addressAck := true
         data := [⟨0xAB, true⟩, ⟨0xCD, false⟩] }] }

theorem i2c_roundTrip_register : ((i2cDecode ⟨true, true, true⟩).scan reset ⟨true, true⟩ 0
        (⟨true, true⟩ :: drive true (([registerAccess].flatMap I2cTransaction.signals)))).events =
      [.start, .address true 0x50, .ack, .data true 0x10, .ack, .startRepeat, .address false 0x50,
        .ack, .data false 0xAB, .ack, .data false 0xCD, .nack, .stop] :=
  i2c_roundTrip ⟨true, true, true⟩ ⟨_, rfl, drives_drive (by decide +kernel)⟩ ⟨true, true⟩

end I2cState

end SigrokDecode
