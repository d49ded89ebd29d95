import SigrokDecode.Decoders.Hdlc

/-!
# An HDLC receiver

What the bits of a link mean, without samples and buffers: a receiver takes the
stuffed zeros out and turns the bits into bytes, flags and aborts. A decoder is
such a receiver with a rule for the bytes that it keeps.
-/

namespace SigrokDecode

open Foundation List

def framePayload (bytes : List (BitVec 8)) : List (BitVec 8) :=
  bytes.take (bytes.length - 2)

def frameGood (bytes : List (BitVec 8)) : Bool :=
  hdlcCrc16 (framePayload bytes) =
    hdlcRxCrc (bytes.getD (bytes.length - 2) 0) (bytes.getD (bytes.length - 1) 0)

/-- The annotations for the bytes between two flags. -/
def frameFields (bytes : List (BitVec 8)) : List (HdlcField (BitVec 8)) :=
  if bytes.length ≤ 4 then
    []
  else
    [HdlcField.transferType, .crcType] ++
      (if frameGood bytes then [] else [HdlcField.badCrc]) ++
      [HdlcField.transfer (framePayload bytes)]

def frameTransfers (bytes : List (BitVec 8)) : List (List (BitVec 8)) :=
  if bytes.length ≤ 4 then
    []
  else if frameGood bytes then
    [framePayload bytes]
  else
    []

/-- What the bits of a link say, and the end of the enable signal. -/
inductive HdlcEvent
  | byte (value : BitVec 8)
  | abort
  | flag
  | reset

/-- The bytes that a decoder keeps for the next flag. -/
structure HdlcBuffer where
  push : List (BitVec 8) → BitVec 8 → List (BitVec 8)
  afterAbort : List (BitVec 8) → List (BitVec 8)

structure HdlcReport where
  kept : List (BitVec 8)
  shown : List (HdlcField (BitVec 8))
  sent : List (List (BitVec 8))

namespace HdlcReport

variable (buffer : HdlcBuffer)

def step (report : HdlcReport) : HdlcEvent → HdlcReport
  | .byte value =>
      { report with
        kept := buffer.push report.kept value
        shown := report.shown ++ [.data value] }
  | .abort =>
      { report with
        kept := buffer.afterAbort report.kept
        shown := report.shown ++ [.abort] }
  | .flag =>
      { kept := []
        shown := report.shown ++ .flag :: frameFields report.kept
        sent := report.sent ++ frameTransfers report.kept }
  | .reset => { report with kept := [] }

def run (report : HdlcReport) (events : List HdlcEvent) : HdlcReport :=
  events.foldl (step buffer) report

def empty : HdlcReport :=
  { kept := [], shown := [], sent := [] }

theorem run_append (report : HdlcReport) (first second : List HdlcEvent) :
    report.run buffer (first ++ second) = (report.run buffer first).run buffer second :=
  foldl_append

theorem step_grows (report : HdlcReport) (event : HdlcEvent) :
    report.shown <+: (report.step buffer event).shown ∧
      report.sent <+: (report.step buffer event).sent := by
  cases event with
  | byte value => exact ⟨prefix_append _ _, prefix_rfl⟩
  | abort => exact ⟨prefix_append _ _, prefix_rfl⟩
  | flag => exact ⟨prefix_append _ _, prefix_append _ _⟩
  | reset => exact ⟨prefix_rfl, prefix_rfl⟩

theorem run_grows (report : HdlcReport) (events : List HdlcEvent) :
    report.shown <+: (report.run buffer events).shown ∧
      report.sent <+: (report.run buffer events).sent := by
  induction events generalizing report with
  | nil => exact ⟨prefix_rfl, prefix_rfl⟩
  | cons event events ih =>
      obtain ⟨shown, sent⟩ := step_grows buffer report event
      obtain ⟨shownLater, sentLater⟩ := ih (report.step buffer event)
      exact ⟨shown.trans shownLater, sent.trans sentLater⟩

end HdlcReport

/-- `reading` has the bits of the byte that is not complete yet, if there has been a flag; `due`
is what a decoder shows at the next bit. -/
structure HdlcReceiver where
  ones : Nat
  reading : Option (List Bool)
  due : List HdlcEvent
  events : List HdlcEvent

namespace HdlcReceiver

def searching : HdlcReceiver :=
  { ones := 0, reading := none, due := [], events := [] }

def shift (receiver : HdlcReceiver) (bit : Bool) : HdlcReceiver :=
  match receiver.reading with
  | none => receiver
  | some bits =>
      if bits.length = 7 then
        { receiver with
          reading := some []
          due := [.byte (byteOf (bits ++ [bit]))] }
      else
        { receiver with reading := some (bits ++ [bit]) }

def setOnes (receiver : HdlcReceiver) (ones : Nat) : HdlcReceiver :=
  { receiver with ones }

def one (receiver : HdlcReceiver) : HdlcReceiver :=
  (if receiver.ones < 5 then receiver.shift true else receiver).setOnes (receiver.ones + 1)

def zero (receiver : HdlcReceiver) : HdlcReceiver :=
  setOnes
    (if receiver.ones = 6 then
      { receiver with
        reading := some []
        due := [.flag] }
    else if 6 < receiver.ones then
      { receiver with
        reading := none
        due := [.abort] }
    else if receiver.ones < 5 then
      receiver.shift false
    else
      receiver)
    0

def settle (receiver : HdlcReceiver) : HdlcReceiver :=
  { receiver with
    due := []
    events := receiver.events ++ receiver.due }

def bit (receiver : HdlcReceiver) (data : Bool) : HdlcReceiver :=
  if data then receiver.settle.one else receiver.settle.zero

/-- The enable signal is gone: what is due is lost. -/
def disable (receiver : HdlcReceiver) : HdlcReceiver :=
  { searching with events := receiver.events ++ [.reset] }

/-- Takes a sample as the decoders do. -/
def sample (config : HdlcConfig) (receiver : HdlcReceiver) (previous current : HdlcSample)
    (_samplenum : Nat) : HdlcReceiver :=
  let clkEdge : Bool := previous.clk ≠ current.clk
  let enEdge : Bool := previous.en ≠ current.en
  if ¬(clkEdge ∨ config.haveEn ∧ enEdge) then
    receiver
  else if config.haveEn ∧ HdlcState.enAsserted config current.en = false then
    receiver.disable
  else if config.haveEn ∧ clkEdge = false then
    receiver
  else if config.cpol ≠ current.clk then
    receiver
  else
    receiver.bit current.data

def listen (config : HdlcConfig) (samples : List HdlcSample) : HdlcReceiver :=
  match samples with
  | [] => searching
  | first :: samples => foldSamples (sample config) searching first 1 samples

/-- Less than a byte is being read, and nothing of it if something is due. -/
structure Sound (receiver : HdlcReceiver) : Prop where
  short : (receiver.reading.getD []).length < 8
  due : receiver.due = [] ∨ (∃ value, receiver.due = [.byte value]) ∧ receiver.reading = some [] ∨
    receiver.due = [.flag] ∧ receiver.reading = some [] ∨
    receiver.due = [.abort] ∧ receiver.reading = none

variable {receiver : HdlcReceiver}

theorem settle_sound (sound : receiver.Sound) : receiver.settle.Sound := ⟨sound.short, Or.inl rfl⟩

theorem shift_events (receiver : HdlcReceiver) (bit : Bool) :
    (receiver.shift bit).events = receiver.events := by
  unfold shift
  cases receiver.reading with
  | none => rfl
  | some bits =>
      simp only []
      split <;> rfl

theorem bit_events (receiver : HdlcReceiver) (data : Bool) :
    (receiver.bit data).events = receiver.settle.events := by
  cases data with
  | true =>
      simp only [bit, if_true, one, setOnes]
      split
      · exact shift_events receiver.settle true
      · rfl
  | false =>
      simp only [bit, Bool.false_eq_true, if_false, zero, setOnes]
      split
      · rfl
      · split
        · rfl
        · split
          · exact shift_events receiver.settle false
          · rfl

theorem events_grow (receiver : HdlcReceiver) (bits : List Bool) :
    receiver.events <+: (bits.foldl bit receiver).events := by
  induction bits generalizing receiver with
  | nil => exact prefix_rfl
  | cons data bits ih =>
      have here : receiver.events <+: (receiver.bit data).events := by
        rw [bit_events]
        exact prefix_append _ _
      exact here.trans (ih (receiver.bit data))

theorem shift_sound (sound : receiver.Sound) (none : receiver.due = [])
    (bit : Bool) : (receiver.shift bit).Sound := by
  unfold shift
  cases reading : receiver.reading with
  | none => exact sound
  | some bits =>
      have short : bits.length < 8 := by simpa [reading] using sound.short
      by_cases last : bits.length = 7
      · simp only [if_pos last]
        exact ⟨Nat.zero_lt_succ 7, Or.inr (Or.inl ⟨⟨_, rfl⟩, rfl⟩)⟩
      · simp only [if_neg last]
        refine ⟨?_, Or.inl none⟩
        rw [Option.getD_some, length_append, length_singleton]
        omega

theorem setOnes_sound (sound : receiver.Sound) (ones : Nat) : (receiver.setOnes ones).Sound :=
  ⟨sound.short, sound.due⟩

theorem bit_sound (sound : receiver.Sound) (data : Bool) : (receiver.bit data).Sound := by
  have settled := settle_sound sound
  cases data with
  | true =>
      simp only [bit, if_true, one]
      apply setOnes_sound
      split
      · exact shift_sound settled rfl true
      · exact settled
  | false =>
      simp only [bit, Bool.false_eq_true, if_false, zero]
      apply setOnes_sound
      split
      · exact ⟨Nat.zero_lt_succ 7, Or.inr (Or.inr (Or.inl ⟨rfl, rfl⟩))⟩
      · split
        · exact ⟨Nat.zero_lt_succ 7, Or.inr (Or.inr (Or.inr ⟨rfl, rfl⟩))⟩
        · split
          · exact shift_sound settled rfl false
          · exact settled

theorem disable_sound (receiver : HdlcReceiver) : receiver.disable.Sound :=
  ⟨Nat.zero_lt_succ 7, Or.inl rfl⟩

theorem searching_sound : searching.Sound := ⟨Nat.zero_lt_succ 7, Or.inl rfl⟩

end HdlcReceiver

end SigrokDecode
