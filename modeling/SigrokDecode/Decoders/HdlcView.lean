import SigrokDecode.Decoders.HdlcReceiver

/-!
# The reports of an HDLC decoder

The part of a decoder's state that its reports depend on, without samples. The C
and the Python decoder are the same machine here, but for their buffers.
-/

namespace SigrokDecode

open Foundation HdlcReport

structure HdlcView where
  bitcount : Nat
  rxdata : BitVec 8
  oneCount : Nat
  flagFound : Bool
  pendingFlag : Bool
  pendingAbort : Bool
  report : HdlcReport

namespace HdlcView

def searching (report : HdlcReport) : HdlcView :=
  { bitcount := 0
    rxdata := 0
    oneCount := 0
    flagFound := false
    pendingFlag := false
    pendingAbort := false
    report }

section Steps

variable (buffer : HdlcBuffer)

def finishByte (view : HdlcView) : HdlcView :=
  if view.bitcount = 8 then
    { view with
      report := view.report.step buffer (.byte view.rxdata)
      rxdata := 0
      bitcount := 0 }
  else
    view

/-- The bytes have been dropped already. -/
def showAbort (view : HdlcView) : HdlcView :=
  if view.pendingAbort then
    { view with
      report := { view.report with shown := view.report.shown ++ [.abort] }
      pendingAbort := false }
  else
    view

def showFlag (view : HdlcView) : HdlcView :=
  if view.pendingFlag then
    { view with
      report := view.report.step buffer .flag
      pendingFlag := false }
  else
    view

def settle (view : HdlcView) : HdlcView :=
  ((view.finishByte buffer).showAbort).showFlag buffer

def shiftBit (view : HdlcView) (data : Bool) : HdlcView :=
  if view.flagFound then
    { view with
      rxdata := view.rxdata ||| (BitVec.ofBool data).setWidth 8 <<< view.bitcount
      bitcount := view.bitcount + 1 }
  else
    view

def foundFlag (view : HdlcView) : HdlcView :=
  { view with
    flagFound := true
    pendingFlag := true
    rxdata := 0
    bitcount := 0 }

def foundAbort (view : HdlcView) : HdlcView :=
  { view with
    pendingAbort := true
    flagFound := false
    rxdata := 0
    bitcount := 0
    report := { view.report with kept := buffer.afterAbort view.report.kept } }

def setOnes (view : HdlcView) (ones : Nat) : HdlcView :=
  { view with oneCount := ones }

def countOne (view : HdlcView) : HdlcView :=
  (if view.oneCount < 5 then view.shiftBit true else view).setOnes (view.oneCount + 1)

def countZero (view : HdlcView) : HdlcView :=
  setOnes
    (if view.oneCount = 6 then
      view.foundFlag
    else if 6 < view.oneCount then
      view.foundAbort buffer
    else if view.oneCount < 5 then
      view.shiftBit false
    else
      view)
    0

def bit (view : HdlcView) (data : Bool) : HdlcView :=
  if data then (view.settle buffer).countOne else (view.settle buffer).countZero buffer

def reset (view : HdlcView) : HdlcView :=
  searching (view.report.step buffer .reset)

end Steps

section Refinement

variable (buffer : HdlcBuffer)

/-- The view of a decoder that has reported some events, when nothing is due. -/
def between (ones : Nat) (reading : Option (List Bool)) (report : HdlcReport) : HdlcView :=
  { bitcount := (reading.getD []).length
    rxdata := byteOf (reading.getD [])
    oneCount := ones
    flagFound := reading.isSome
    pendingFlag := false
    pendingAbort := false
    report }

/-- What a decoder still has to show. -/
def withDue (view : HdlcView) : List HdlcEvent → HdlcView
  | [.byte value] => { view with bitcount := 8, rxdata := value }
  | [.flag] => { view with pendingFlag := true }
  | [.abort] =>
      { view with
        pendingAbort := true
        report := { view.report with kept := buffer.afterAbort view.report.kept } }
  | _ => view

def ofReceiver (receiver : HdlcReceiver) : HdlcView :=
  withDue buffer
    (between receiver.ones receiver.reading (HdlcReport.empty.run buffer receiver.events))
    receiver.due

variable {receiver : HdlcReceiver}

theorem settle_ofReceiver (sound : receiver.Sound) :
    (ofReceiver buffer receiver).settle buffer = ofReceiver buffer receiver.settle := by
  obtain ⟨short, due⟩ := sound
  have notFull : (receiver.reading.getD []).length ≠ 8 := by omega
  rcases due with none | ⟨⟨value, due⟩, reading⟩ | ⟨due, reading⟩ | ⟨due, reading⟩
  · simp [ofReceiver, HdlcReceiver.settle, withDue, none, settle, finishByte, showAbort, showFlag,
      between, notFull]
  · simp [ofReceiver, HdlcReceiver.settle, withDue, due, reading, settle, finishByte, showAbort,
      showFlag, between, run, byteOf, packLsb]
  · simp [ofReceiver, HdlcReceiver.settle, withDue, due, reading, settle, finishByte, showAbort,
      showFlag, between, run]
  · simp [ofReceiver, HdlcReceiver.settle, withDue, due, reading, settle, finishByte, showAbort,
      showFlag, between, run, step]

theorem shiftBit_ofReceiver (sound : receiver.Sound) (none : receiver.due = []) (data : Bool) :
    (ofReceiver buffer receiver).shiftBit data = ofReceiver buffer (receiver.shift data) := by
  have short := sound.short
  unfold HdlcReceiver.shift
  cases reading : receiver.reading with
  | none => simp [ofReceiver, withDue, none, between, shiftBit, reading]
  | some bits =>
      have room : bits.length < 8 := by simpa [reading] using short
      have joined := byteOf_concat room data
      by_cases last : bits.length = 7
      · simp [ofReceiver, withDue, none, between, shiftBit, reading, last, joined]
      · simp [ofReceiver, withDue, none, between, shiftBit, reading, last, joined]

theorem withDue_setOnes (view : HdlcView) (ones : Nat) (due : List HdlcEvent) :
    withDue buffer (view.setOnes ones) due = (withDue buffer view due).setOnes ones := by
  unfold withDue
  split <;> rfl

theorem ofReceiver_setOnes (receiver : HdlcReceiver) (ones : Nat) :
    ofReceiver buffer (receiver.setOnes ones) = (ofReceiver buffer receiver).setOnes ones :=
  withDue_setOnes buffer
    (between receiver.ones receiver.reading (empty.run buffer receiver.events)) ones
    receiver.due

/-- What the pending byte or flag leaves alone. -/
theorem withDue_rest (view : HdlcView) (due : List HdlcEvent) :
    (withDue buffer view due).oneCount = view.oneCount ∧
      (withDue buffer view due).flagFound = view.flagFound ∧
      (withDue buffer view due).report.shown = view.report.shown ∧
      (withDue buffer view due).report.sent = view.report.sent := by
  unfold withDue
  split <;> exact ⟨rfl, rfl, rfl, rfl⟩

theorem oneCount_ofReceiver (receiver : HdlcReceiver) :
    (ofReceiver buffer receiver).oneCount = receiver.ones :=
  (withDue_rest buffer _ receiver.due).1

theorem flagFound_ofReceiver (receiver : HdlcReceiver) :
    (ofReceiver buffer receiver).flagFound = receiver.reading.isSome :=
  (withDue_rest buffer _ receiver.due).2.1

theorem countOne_ofReceiver (sound : receiver.Sound) (none : receiver.due = []) :
    (ofReceiver buffer receiver).countOne = ofReceiver buffer receiver.one := by
  rw [countOne, HdlcReceiver.one, ofReceiver_setOnes, oneCount_ofReceiver]
  split
  · rw [shiftBit_ofReceiver buffer sound none]
  · rfl

theorem countZero_ofReceiver (sound : receiver.Sound) (none : receiver.due = []) :
    (ofReceiver buffer receiver).countZero buffer = ofReceiver buffer receiver.zero := by
  rw [countZero, HdlcReceiver.zero, ofReceiver_setOnes, oneCount_ofReceiver]
  congr 1
  split
  · simp [ofReceiver, withDue, none, between, foundFlag, byteOf, packLsb]
  · split
    · simp [ofReceiver, withDue, none, between, foundAbort, byteOf, packLsb]
    · split
      · rw [shiftBit_ofReceiver buffer sound none]
      · rfl

theorem bit_ofReceiver (sound : receiver.Sound) (data : Bool) :
    (ofReceiver buffer receiver).bit buffer data = ofReceiver buffer (receiver.bit data) := by
  have settled := HdlcReceiver.settle_sound sound
  rw [bit, settle_ofReceiver buffer sound, HdlcReceiver.bit]
  split
  · exact countOne_ofReceiver buffer settled rfl
  · exact countZero_ofReceiver buffer settled rfl

theorem shown_ofReceiver (receiver : HdlcReceiver) : (ofReceiver buffer receiver).report.shown =
        (empty.run buffer receiver.events).shown ∧
      (ofReceiver buffer receiver).report.sent = (empty.run buffer receiver.events).sent :=
  (withDue_rest buffer _ receiver.due).2.2

theorem disable_ofReceiver (receiver : HdlcReceiver) :
    (ofReceiver buffer receiver).reset buffer = ofReceiver buffer receiver.disable := by
  obtain ⟨shown, sent⟩ := shown_ofReceiver buffer receiver
  simp only [reset, searching, step, shown, sent]
  simp [ofReceiver, withDue, between, HdlcReceiver.disable, HdlcReceiver.searching,
    run, step, byteOf, packLsb]

end Refinement

end HdlcView

end SigrokDecode
