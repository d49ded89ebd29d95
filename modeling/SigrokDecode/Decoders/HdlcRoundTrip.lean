import SigrokDecode.Decoders.HdlcRefinement
import SigrokDecode.Foundation.BitStuffing

/-!
# Round trip of an HDLC frame

A sender puts the bits of a frame between two flags, with a zero behind every five
ones. A receiver has the bytes again when it sees the second flag, whose first bits
it has taken for data.
-/

namespace SigrokDecode

open Foundation List HdlcReport

def hdlcFlag : List Bool :=
  [false, true, true, true, true, true, true, false]

def hdlcFcs (payload : List (BitVec 8)) : BitVec 16 :=
  crcCheck 0x1021#16 (byteBits payload)

/-- The check goes out behind the payload, its lower byte first. -/
def withFcs (payload : List (BitVec 8)) : List (BitVec 8) :=
  payload ++ [(hdlcFcs payload).setWidth 8, (hdlcFcs payload >>> 8).setWidth 8]

def hdlcWire (payload : List (BitVec 8)) : List Bool :=
  hdlcFlag ++ ((onesRule 5).send 0 (byteBits (withFcs payload))).map Prod.fst ++ hdlcFlag

namespace HdlcReceiver

/-! ## Between two flags -/

/-- Since `start` the receiver has read these bits. -/
def Reading (receiver : HdlcReceiver) (start : List HdlcEvent) (bits : List Bool) : Prop :=
  ∃ bytes tail, bits = byteBits bytes ++ tail ∧ tail.length < 8 ∧ receiver.reading = some tail ∧
    receiver.settle.events = start ++ bytes.map HdlcEvent.byte

variable {bits : List Bool} {receiver : HdlcReceiver} {start : List HdlcEvent}

theorem shift_reading
    (reading : receiver.Reading start bits) (none : receiver.due = []) (data : Bool) :
    (receiver.shift data).Reading start (bits ++ [data]) := by
  obtain ⟨bytes, tail, split, short, tailRead, events⟩ := reading
  have shown : receiver.events = start ++ bytes.map HdlcEvent.byte := by
    rw [← events, settle, none, List.append_nil]
  simp only [shift, tailRead]
  by_cases last : tail.length = 7
  · rw [if_pos last]
    have whole : (tail ++ [data]).length = 8 := by rw [length_append, length_singleton, last]
    refine ⟨bytes ++ [byteOf (tail ++ [data])], [], ?_, Nat.zero_lt_succ 7, rfl, ?_⟩
    · rw [byteBits_append, byteBits_byteOf whole, List.append_nil, split, List.append_assoc]
    · rw [settle, shown, map_append, List.append_assoc]
      rfl
  · rw [if_neg last]
    refine ⟨bytes, tail ++ [data], ?_, ?_, rfl, ?_⟩
    · rw [split, List.append_assoc]
    · rw [length_append, length_singleton]
      omega
    · rw [settle, none, shown, List.append_nil]

theorem settle_reading
    (reading : receiver.Reading start bits) : receiver.settle.Reading start bits := by
  obtain ⟨bytes, tail, split, short, tailRead, events⟩ := reading
  refine ⟨bytes, tail, split, short, tailRead, ?_⟩
  rw [← events, settle, settle, List.append_nil]

theorem bit_reading
    (reading : receiver.Reading start bits) (few : receiver.ones < 5) (data : Bool) :
    (receiver.bit data).Reading start (bits ++ [data]) ∧
      (receiver.bit data).ones = (onesRule 5).next receiver.ones data := by
  have shifted := shift_reading (settle_reading reading) rfl data
  have settledFew : receiver.settle.ones < 5 := few
  cases data with
  | true =>
      simp only [bit, if_true, one, if_pos settledFew]
      exact ⟨shifted, rfl⟩
  | false =>
      have notSix : receiver.settle.ones ≠ 6 := by omega
      have notMore : ¬6 < receiver.settle.ones := by omega
      simp only [bit, Bool.false_eq_true, if_false, zero, if_neg notSix, if_neg notMore,
        if_pos settledFew]
      exact ⟨shifted, rfl⟩

theorem bit_behind_five
    (reading : receiver.Reading start bits) (five : receiver.ones = 5) (data : Bool) :
    (receiver.bit data).Reading start bits ∧
      (receiver.bit data).ones = (onesRule 5).next receiver.ones data := by
  have settled := settle_reading reading
  have settledFive : receiver.settle.ones = 5 := five
  cases data with
  | true =>
      simp only [bit, if_true, one, settledFive, Nat.lt_irrefl, if_false]
      exact ⟨settled, by rw [five]; rfl⟩
  | false =>
      simp only [bit, Bool.false_eq_true, if_false, zero, settledFive]
      exact ⟨settled, rfl⟩

def dataBits (ones : Nat) (raw : List Bool) : List Bool :=
  (((onesRule 5).mark ones raw).filter fun bit => !bit.2).map Prod.fst

theorem bits_reading
    (raw : List Bool) (reading : receiver.Reading start bits) (few : receiver.ones ≤ 5)
    (obeys : (onesRule 5).Obeys receiver.ones raw) :
    (raw.foldl bit receiver).Reading start (bits ++ dataBits receiver.ones raw) ∧
      (raw.foldl bit receiver).ones = raw.foldl (onesRule 5).next receiver.ones ∧
      (raw.foldl bit receiver).ones ≤ 5 := by
  induction raw generalizing receiver bits with
  | nil => exact ⟨by simpa [dataBits, StuffRule.mark] using reading, rfl, few⟩
  | cons data raw ih =>
      obtain ⟨here, later⟩ := obeys
      rw [foldl_cons, foldl_cons]
      by_cases full : receiver.ones = 5
      · have due : (onesRule 5).due receiver.ones = some false := if_pos full
        have low : data = false := here false due
        subst low
        obtain ⟨next, ones⟩ := bit_behind_five reading full false
        rw [← ones] at later ⊢
        have zero : (receiver.bit false).ones ≤ 5 := by
          rw [ones]
          exact Nat.zero_le 5
        obtain ⟨rest, onesAfter⟩ := ih next zero later
        refine ⟨?_, onesAfter⟩
        have same : dataBits receiver.ones (false :: raw) =
            dataBits (receiver.bit false).ones raw := by
          simp [dataBits, StuffRule.mark, due, ones]
        rw [same]
        exact rest
      · have due : (onesRule 5).due receiver.ones = none := if_neg full
        obtain ⟨next, ones⟩ := bit_reading reading (by omega) data
        rw [← ones] at later ⊢
        have bound : (receiver.bit data).ones ≤ 5 := by
          rw [ones]
          simp only [onesRule]
          split <;> omega
        obtain ⟨rest, onesAfter⟩ := ih next bound later
        refine ⟨?_, onesAfter⟩
        have same : dataBits receiver.ones (data :: raw) =
            data :: dataBits (receiver.bit data).ones raw := by
          simp [dataBits, StuffRule.mark, due, ones]
        rw [same, append_cons]
        exact rest

theorem sent_reading
    (data : List Bool) (reading : receiver.Reading start bits) (fresh : receiver.ones = 0) :
    ((((onesRule 5).send 0 data).map Prod.fst).foldl bit receiver).Reading start (bits ++ data) ∧
      ((((onesRule 5).send 0 data).map Prod.fst).foldl bit receiver).ones < 5 := by
  have five : 0 < 5 := by decide
  obtain ⟨marks, obeys⟩ := StuffRule.mark_send (onesRule_single five) 0 data
  have plain := (onesRule 5).send_unmarked 0 data
  rw [← fresh] at marks obeys plain ⊢
  obtain ⟨read, ones, atMost⟩ := bits_reading _ reading (by omega) obeys
  rw [dataBits, marks, plain] at read
  have none := StuffRule.due_send (onesRule_single five) receiver.ones data
  rw [← ones] at none
  have notFull : ((((onesRule 5).send receiver.ones data).map Prod.fst).foldl bit
      receiver).ones ≠ 5 := by
    intro full
    rw [full] at none
    cases none
  exact ⟨read, by omega⟩

theorem closing_reading (reading : receiver.Reading start bits) (few : receiver.ones < 5) :
    ((hdlcFlag.take 7).foldl bit receiver).Reading start (bits ++ hdlcFlag.take 6) ∧
      ((hdlcFlag.take 7).foldl bit receiver).ones = 6 := by
  have none : (onesRule 5).due receiver.ones = none := if_neg (Nat.ne_of_lt few)
  have obeys : (onesRule 5).Obeys receiver.ones (hdlcFlag.take 6) := by
    refine ⟨by simp [none], ?_⟩
    simp [StuffRule.Obeys, onesRule]
  have data : dataBits receiver.ones (hdlcFlag.take 6) = hdlcFlag.take 6 := by
    simp [dataBits, StuffRule.mark, hdlcFlag, none]
    simp [onesRule]
  obtain ⟨read, ones, atMost⟩ := bits_reading (hdlcFlag.take 6) reading (Nat.le_of_lt few) obeys
  rw [data] at read
  have five : ((hdlcFlag.take 6).foldl bit receiver).ones = 5 := ones
  obtain ⟨last, six⟩ := bit_behind_five read five true
  rw [five] at six
  exact ⟨last, six⟩

theorem bit_flag (six : receiver.ones = 6) :
    (receiver.bit false).settle.events = receiver.settle.events ++ [HdlcEvent.flag] ∧
      (receiver.bit false).reading = some [] ∧ (receiver.bit false).ones = 0 := by
  have settledSix : receiver.settle.ones = 6 := six
  simp only [bit, Bool.false_eq_true, if_false, zero, if_pos settledSix]
  exact ⟨rfl, rfl, rfl⟩

def Quiet (events : List HdlcEvent) : Prop :=
  ∀ event ∈ events, event = .abort ∨ event = .flag

theorem six_ones (fresh : receiver.ones = 0)
    (empty : receiver.reading = none ∨ receiver.reading = some []) :
    ((replicate 6 true).foldl bit receiver).ones = 6 ∧
      ((replicate 6 true).foldl bit receiver).settle.events = receiver.settle.events := by
  rcases receiver with ⟨ones, reading, due, events⟩
  subst fresh
  rcases empty with none | some
  · subst none
    simp [replicate, bit, one, settle, shift, setOnes]
  · subst some
    simp [replicate, bit, one, settle, shift, setOnes]

theorem opening_reading (searching : receiver.reading = none) : ∃ early, Quiet early ∧
      (hdlcFlag.foldl bit receiver).Reading (receiver.settle.events ++ early ++ [.flag]) [] ∧
      (hdlcFlag.foldl bit receiver).ones = 0 := by
  have first : ∃ early, Quiet early ∧
      (receiver.bit false).settle.events = receiver.settle.events ++ early ∧
      ((receiver.bit false).reading = none ∨ (receiver.bit false).reading = some []) ∧
      (receiver.bit false).ones = 0 := by
    by_cases six : receiver.ones = 6
    · obtain ⟨events, reading, ones⟩ := bit_flag six
      exact ⟨[.flag], by simp [Quiet], events, Or.inr reading, ones⟩
    · have settledSix : ¬receiver.settle.ones = 6 := six
      by_cases more : 6 < receiver.ones
      · have settledMore : 6 < receiver.settle.ones := more
        simp only [bit, Bool.false_eq_true, if_false, zero, if_neg settledSix, if_pos settledMore]
        exact ⟨[.abort], by simp [Quiet], rfl, Or.inl rfl, rfl⟩
      · have settledMore : ¬6 < receiver.settle.ones := more
        have shift : receiver.settle.shift false = receiver.settle := by
          rw [HdlcReceiver.shift]
          simp [settle, searching]
        simp only [bit, Bool.false_eq_true, if_false, zero, if_neg settledSix, if_neg settledMore,
          shift, ite_self]
        exact ⟨[], by simp [Quiet], rfl, Or.inl searching, rfl⟩
  obtain ⟨early, quiet, events, reading, ones⟩ := first
  obtain ⟨six, same⟩ := six_ones ones reading
  obtain ⟨flag, opened, fresh⟩ := bit_flag six
  have whole : hdlcFlag.foldl bit receiver =
      ((replicate 6 true).foldl bit (receiver.bit false)).bit false := rfl
  rw [same, events] at flag
  rw [whole]
  refine ⟨early, quiet, ⟨[], [], rfl, Nat.zero_lt_succ 7, opened, ?_⟩, fresh⟩
  rw [flag]
  exact (List.append_nil _).symm

theorem wire_heard (searching : receiver.reading = none) (payload : List (BitVec 8)) :
    ∃ early, Quiet early ∧ ((hdlcWire payload).foldl bit receiver).settle.events =
        receiver.settle.events ++ early ++ [.flag] ++ (withFcs payload).map HdlcEvent.byte ++
          [.flag] := by
  obtain ⟨early, quiet, opened, fresh⟩ := opening_reading searching
  obtain ⟨sent, few⟩ := sent_reading (byteBits (withFcs payload)) opened fresh
  obtain ⟨closing, six⟩ := closing_reading sent few
  obtain ⟨events, _, _⟩ := bit_flag six
  obtain ⟨bytes, tail, split, short, _, read⟩ := closing
  rw [nil_append] at split
  obtain ⟨same, _⟩ := byteBits_append_inj (by decide) short split
  refine ⟨early, quiet, ?_⟩
  have whole : (hdlcWire payload).foldl bit receiver = ((hdlcFlag.take 7).foldl bit
        ((((onesRule 5).send 0 (byteBits (withFcs payload))).map Prod.fst).foldl bit
          (hdlcFlag.foldl bit receiver))).bit false := by
    rw [hdlcWire, foldl_append, foldl_append]
    rfl
  rw [whole, events, read, ← same]

def Emptied (receiver : HdlcReceiver) : Prop :=
  receiver.reading = none → (HdlcReport.empty.run hdlcBuffer receiver.settle.events).kept = []

theorem bit_emptied (emptied : receiver.Emptied) (data : Bool) : (receiver.bit data).Emptied := by
  have shifted : ∀ ones, ((receiver.settle.shift data).setOnes ones).Emptied := by
    intro ones searching
    cases reading : receiver.reading with
    | none =>
        have same : receiver.settle.shift data = receiver.settle := by
          rw [shift]
          simp [settle, reading]
        rw [same]
        simpa [settle, setOnes] using emptied reading
    | some bits =>
        have settled : receiver.settle.reading = some bits := reading
        simp only [shift, settled, setOnes] at searching
        split at searching
        · cases searching
        · cases searching
  have kept : ∀ ones, (receiver.settle.setOnes ones).Emptied := by
    intro ones searching
    simpa [settle, setOnes] using emptied searching
  cases data with
  | true =>
      simp only [bit, if_true, one]
      split
      · exact shifted _
      · exact kept _
  | false =>
      simp only [bit, Bool.false_eq_true, if_false, zero]
      split
      · intro searching
        cases searching
      · split
        · intro searching
          simp [settle, setOnes, HdlcReport.run, HdlcReport.step, hdlcBuffer]
        · split
          · exact shifted _
          · exact kept _

theorem listen_emptied (config : HdlcConfig) (samples : List HdlcSample) :
    (listen config samples).Emptied := by
  have start : searching.Emptied := fun _ => rfl
  cases samples with
  | nil => exact start
  | cons first samples =>
      have steps : ∀ {receiver : HdlcReceiver}, receiver.Emptied → ∀ previous current samplenum,
            (receiver.sample config previous current samplenum).Emptied := by
        intro receiver emptied previous current samplenum
        simp only [sample]
        split
        · exact emptied
        · split
          · intro searching
            simp [settle, disable, HdlcReceiver.searching, HdlcReport.run, HdlcReport.step]
          · split
            · exact emptied
            · split
              · exact emptied
              · exact bit_emptied emptied current.data
      exact foldSamples_keeps Emptied steps start first 1 samples

end HdlcReceiver

namespace HdlcReport

theorem run_quiet {report : HdlcReport} {events : List HdlcEvent} (none : report.kept = [])
    (quiet : HdlcReceiver.Quiet events) :
    ∃ fields, (∀ field ∈ fields, field = .abort ∨ field = .flag) ∧
      report.run hdlcBuffer events = { report with shown := report.shown ++ fields } := by
  induction events generalizing report with
  | nil => exact ⟨[], by simp, by simp [run]⟩
  | cons event events ih =>
      have later : HdlcReceiver.Quiet events := fun other inside =>
        quiet other (mem_cons_of_mem event inside)
      have step : ∃ field, (field = .abort ∨ field = .flag) ∧
          report.step hdlcBuffer event = { report with shown := report.shown ++ [field] } := by
        rcases quiet event (mem_cons_self) with rfl | rfl
        · exact ⟨.abort, Or.inl rfl, by simp [HdlcReport.step, hdlcBuffer, none]⟩
        · exact ⟨.flag, Or.inr rfl,
            by simp [HdlcReport.step, none, frameFields, frameTransfers]⟩
      obtain ⟨field, kind, stepped⟩ := step
      obtain ⟨fields, kinds, ran⟩ := ih
        (show ({ report with shown := report.shown ++ [field] } : HdlcReport).kept = [] from none)
        later
      refine ⟨field :: fields, ?_, ?_⟩
      · intro other inside
        rcases mem_cons.mp inside with rfl | inside
        · exact kind
        · exact kinds other inside
      · rw [run, foldl_cons, stepped, ← run, ran]
        simp

theorem run_bytes {report : HdlcReport} {values : List (BitVec 8)}
    (room : report.kept.length + values.length ≤ hdlcMaxBytes) :
    report.run hdlcBuffer (values.map HdlcEvent.byte) =
      { report with
        kept := report.kept ++ values
        shown := report.shown ++ values.map HdlcField.data } := by
  induction values generalizing report with
  | nil => simp [run]
  | cons value values ih =>
      rw [length_cons] at room
      have below : report.kept.length < hdlcMaxBytes := by omega
      have stepped : report.step hdlcBuffer (.byte value) =
          { report with
            kept := report.kept ++ [value]
            shown := report.shown ++ [HdlcField.data value] } := by
        simp [HdlcReport.step, hdlcBuffer, below]
      rw [map_cons, run, foldl_cons, stepped, ← run, ih]
      · simp
      · simp only [length_append, length_singleton]
        omega

end HdlcReport

theorem hdlcCrc16_eq (payload : List (BitVec 8)) : hdlcCrc16 payload = hdlcFcs payload := by
  have wide : 8 ≤ 16 := by decide
  exact crcLoop_crcCheck 0x1021#16 payload wide

theorem hdlcRxCrc_halves (fcs : BitVec 16) :
    hdlcRxCrc (fcs.setWidth 8) ((fcs >>> 8).setWidth 8) = fcs := by
  apply BitVec.eq_of_getLsbD_eq
  intro index inside
  by_cases lower : index < 8
  · simp [hdlcRxCrc, lower, inside]
  · have upper : index - 8 < 8 := by omega
    have joined : 8 + (index - 8) = index := by omega
    simp [hdlcRxCrc, lower, inside, upper, joined]

variable (payload : List (BitVec 8))

theorem withFcs_length :
    (withFcs payload).length = payload.length + 2 := by
  rw [withFcs, length_append]
  rfl

theorem framePayload_withFcs :
    framePayload (withFcs payload) = payload := by
  rw [framePayload, withFcs_length, Nat.add_sub_cancel, withFcs, take_left]

theorem frameGood_withFcs : frameGood (withFcs payload) = true := by
  have low : (withFcs payload).getD payload.length 0 = (hdlcFcs payload).setWidth 8 := by
    simp [withFcs]
  have high : (withFcs payload).getD (payload.length + 1) 0 =
      (hdlcFcs payload >>> 8).setWidth 8 := by
    simp [withFcs]
  rw [frameGood, framePayload_withFcs, withFcs_length, Nat.add_sub_cancel]
  have last : payload.length + 2 - 1 = payload.length + 1 := rfl
  rw [last, low, high, hdlcRxCrc_halves, hdlcCrc16_eq]
  exact decide_eq_true rfl

def goodFrame (payload : List (BitVec 8)) : List (HdlcField (BitVec 8)) :=
  if payload.length ≤ 2 then [] else [.transferType, .crcType, .transfer payload]

theorem frameFields_withFcs (payload : List (BitVec 8)) :
    frameFields (withFcs payload) = goodFrame payload ∧
      frameTransfers (withFcs payload) = if payload.length ≤ 2 then [] else [payload] := by
  have short : payload.length + 2 ≤ 4 ↔ payload.length ≤ 2 := by omega
  simp only [frameFields, frameTransfers, goodFrame, frameGood_withFcs, framePayload_withFcs,
    withFcs_length, short, if_true]
  trivial

namespace HdlcState

def handleBits (s : HdlcState) (bits : List (Bool × Nat)) : HdlcState :=
  bits.foldl (fun s bit => s.handleBit bit.1 bit.2) s

variable {receiver : HdlcReceiver}

variable {s : HdlcState}

theorem handleBits_hears (hears : s.Hears receiver) (bits : List (Bool × Nat)) :
    (s.handleBits bits).Hears ((bits.map Prod.fst).foldl HdlcReceiver.bit receiver) := by
  induction bits generalizing s receiver with
  | nil => exact hears
  | cons bit bits ih =>
      exact ih (handleBit_hears hears bit.1 bit.2)

theorem searching_report (hears : s.Hears receiver)
    (emptied : receiver.Emptied) (searching : receiver.reading = none) :
    ∃ fields, (∀ field ∈ fields, field = .abort ∨ field = .flag) ∧
      HdlcReport.empty.run hdlcBuffer receiver.settle.events =
        { kept := [], shown := s.shown ++ fields, sent := s.sent } := by
  obtain ⟨shown, sent⟩ := hears.reports
  have none := emptied searching
  have ran : HdlcReport.empty.run hdlcBuffer receiver.settle.events =
      (HdlcReport.empty.run hdlcBuffer receiver.events).run hdlcBuffer receiver.due :=
    run_append hdlcBuffer _ _ _
  rcases hears.1.due with due | ⟨_, reading⟩ | ⟨_, reading⟩ | ⟨due, _⟩
  · rw [due] at ran
    rw [ran] at none ⊢
    refine ⟨[], by simp, ?_⟩
    rw [shown, sent, List.append_nil, ← none]
    rfl
  · rw [searching] at reading
    cases reading
  · rw [searching] at reading
    cases reading
  · rw [due] at ran
    refine ⟨[.abort], by simp, ?_⟩
    rw [ran, shown, sent]
    rfl

theorem handleBits_grows (hears : s.Hears receiver) (bits : List (Bool × Nat)) :
    s.shown <+: (s.handleBits bits).shown ∧ s.sent <+: (s.handleBits bits).sent := by
  obtain ⟨shown, sent⟩ := hears.reports
  obtain ⟨shownBehind, sentBehind⟩ := (handleBits_hears hears bits).reports
  obtain ⟨events, grown⟩ := receiver.events_grow (bits.map Prod.fst)
  rw [shown, sent, shownBehind, sentBehind, ← grown, run_append]
  exact run_grows hdlcBuffer _ events

theorem run_frame {report : HdlcReport} {early : List HdlcEvent} (none : report.kept = [])
    (quiet : HdlcReceiver.Quiet early) {payload : List (BitVec 8)}
    (fits : payload.length + 2 ≤ hdlcMaxBytes) :
    ∃ fields, (∀ field ∈ fields, field = .abort ∨ field = .flag) ∧ report.run hdlcBuffer
          (early ++ [.flag] ++ (withFcs payload).map HdlcEvent.byte ++ [.flag]) =
        { kept := []
          shown := report.shown ++ fields ++ .flag :: (withFcs payload).map HdlcField.data ++
            .flag :: goodFrame payload
          sent := report.sent ++ if payload.length ≤ 2 then [] else [payload] } := by
  obtain ⟨fields, kinds, ranEarly⟩ := run_quiet none quiet
  obtain ⟨frame, transfers⟩ := frameFields_withFcs payload
  refine ⟨fields, kinds, ?_⟩
  have opened : ∀ shown, ({ report with shown } : HdlcReport).run hdlcBuffer [.flag] =
      { report with shown := shown ++ [.flag] } := by
    intro shown
    simp [HdlcReport.run, HdlcReport.step, none, frameFields, frameTransfers]
  have room : ∀ shown, ({ report with shown } : HdlcReport).kept.length +
      (withFcs payload).length ≤ hdlcMaxBytes := by
    intro shown
    rw [none, withFcs_length, length_nil, Nat.zero_add]
    exact fits
  rw [run_append, run_append, run_append, ranEarly, opened,
    run_bytes (room _), none, nil_append, HdlcReport.run, foldl_cons,
    foldl_nil, HdlcReport.step, frame, transfers]
  simp

/-- Whatever the decoder has read before, as long as it has found no flag: the bits of a frame
and one more bit report the frame, and later bits take nothing back. -/
theorem handleBits_roundTrip (config : HdlcConfig) (samples : List HdlcSample)
    (payload : List (BitVec 8)) (bits : List (Bool × Nat)) (bit : Bool × Nat)
    (more : List (Bool × Nat)) (searching : (decode config samples).flagFound = false)
    (fits : payload.length + 2 ≤ hdlcMaxBytes)
    (wire : bits.map Prod.fst = hdlcWire payload) :
    ∃ early, (∀ field ∈ early, field = .abort ∨ field = .flag) ∧
      ((decode config samples).handleBits (bits ++ [bit])).shown =
        (decode config samples).shown ++ early ++
          .flag :: (withFcs payload).map HdlcField.data ++ .flag :: goodFrame payload ∧
      ((decode config samples).handleBits (bits ++ [bit])).sent =
        (decode config samples).sent ++ (if payload.length ≤ 2 then [] else [payload]) ∧
      ((decode config samples).handleBits (bits ++ [bit])).shown <+:
        ((decode config samples).handleBits (bits ++ bit :: more)).shown ∧
      ((decode config samples).handleBits (bits ++ [bit])).sent <+:
        ((decode config samples).handleBits (bits ++ bit :: more)).sent := by
  have hears := decode_hears config samples
  have emptied := HdlcReceiver.listen_emptied config samples
  generalize decode config samples = s at hears searching ⊢
  generalize HdlcReceiver.listen config samples = receiver at hears emptied
  have unread : receiver.reading = none := by
    have found := HdlcView.flagFound_ofReceiver hdlcBuffer receiver
    rw [← hears.2] at found
    have isSome : receiver.reading.isSome = false := found.symm.trans searching
    simpa using isSome
  obtain ⟨before, kindsBefore, report⟩ := searching_report hears emptied unread
  obtain ⟨early, quiet, events⟩ := HdlcReceiver.wire_heard unread payload
  have empty : ({ kept := [], shown := s.shown ++ before, sent := s.sent } :
      HdlcReport).kept = [] := rfl
  obtain ⟨fields, kinds, ran⟩ := run_frame empty quiet fits
  have hearsBehind := handleBits_hears hears (bits ++ [bit])
  obtain ⟨shown, sent⟩ := hearsBehind.reports
  have heard : (((bits ++ [bit]).map Prod.fst).foldl HdlcReceiver.bit receiver).events =
      receiver.settle.events ++
        (early ++ [.flag] ++ (withFcs payload).map HdlcEvent.byte ++ [.flag]) := by
    rw [map_append, foldl_append, wire, map_singleton, foldl_cons,
      foldl_nil, HdlcReceiver.bit_events, events]
    simp
  rw [heard, run_append, report, ran] at shown sent
  refine ⟨before ++ fields, ?_, ?_, sent, ?_⟩
  · intro field inside
    rcases mem_append.mp inside with earlier | later
    · exact kindsBefore field earlier
    · exact kinds field later
  · rw [shown, ← List.append_assoc]
  · have longer : s.handleBits (bits ++ bit :: more) =
        (s.handleBits (bits ++ [bit])).handleBits more := by
      rw [append_cons, handleBits, handleBits, handleBits, foldl_append]
    rw [longer]
    exact handleBits_grows hearsBehind more

theorem handleBits_roundTrip_threeBytes :
    ∃ early, (∀ field ∈ early, field = .abort ∨ field = .flag) ∧
      ((decode ⟨false, true, true⟩ []).handleBits
          ((hdlcWire [0xFF#8, 0x7E#8, 0x01#8]).zipIdx ++ [(true, 90)])).shown =
        (decode ⟨false, true, true⟩ []).shown ++ early ++
          .flag :: (withFcs [0xFF#8, 0x7E#8, 0x01#8]).map HdlcField.data ++
            .flag :: goodFrame [0xFF#8, 0x7E#8, 0x01#8] ∧
      ((decode ⟨false, true, true⟩ []).handleBits
          ((hdlcWire [0xFF#8, 0x7E#8, 0x01#8]).zipIdx ++ [(true, 90)])).sent =
        (decode ⟨false, true, true⟩ []).sent ++
          (if [0xFF#8, 0x7E#8, 0x01#8].length ≤ 2 then [] else [[0xFF#8, 0x7E#8, 0x01#8]]) ∧
      ((decode ⟨false, true, true⟩ []).handleBits
          ((hdlcWire [0xFF#8, 0x7E#8, 0x01#8]).zipIdx ++ [(true, 90)])).shown <+:
        ((decode ⟨false, true, true⟩ []).handleBits
          ((hdlcWire [0xFF#8, 0x7E#8, 0x01#8]).zipIdx ++ (true, 90) :: [(false, 91)])).shown ∧
      ((decode ⟨false, true, true⟩ []).handleBits
          ((hdlcWire [0xFF#8, 0x7E#8, 0x01#8]).zipIdx ++ [(true, 90)])).sent <+:
        ((decode ⟨false, true, true⟩ []).handleBits
          ((hdlcWire [0xFF#8, 0x7E#8, 0x01#8]).zipIdx ++ (true, 90) :: [(false, 91)])).sent :=
  handleBits_roundTrip ⟨false, true, true⟩ [] [0xFF#8, 0x7E#8, 0x01#8] _ (true, 90) [(false, 91)]
    rfl (by decide) (zipIdx_map_fst 0 _)

/-- The bytes of a frame with one byte in front of the check are shown, but no frame. -/
theorem handleBits_oneByte : ((decode ⟨false, true, true⟩ []).handleBits
        ((hdlcWire [0x01#8]).zipIdx ++ [(true, 41)])).shown =
      .flag :: (withFcs [0x01#8]).map HdlcField.data ++ [.flag] ∧
    ((decode ⟨false, true, true⟩ []).handleBits
        ((hdlcWire [0x01#8]).zipIdx ++ [(true, 41)])).sent = [] := by
  decide +kernel

end HdlcState

end SigrokDecode
