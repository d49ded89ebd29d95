import SigrokDecode.Decoders.MdioFrames

/-!
# MDIO waveforms

Cycles of MDC begin at a falling edge.  `mdio_c` looks at MDIO at the rising edge of a cycle or
at its falling edge; nothing depends on the line anywhere else.
-/

set_option linter.dupNamespace false

namespace SigrokDecode

open Foundation List

/-- MDIO during a cycle: at the falling edge, while MDC is low, at the rising edge, and
while MDC is high. -/
structure MdcCycle where
  fallen : Bool
  low : List Bool
  risen : Bool
  high : List Bool

def MdcCycle.samples (cycle : MdcCycle) : List MdioPins :=
  { mdc := false, mdio := cycle.fallen } :: (cycle.low.map fun mdio => { mdc := false, mdio }) ++
  { mdc := true, mdio := cycle.risen } :: cycle.high.map fun mdio => { mdc := true, mdio }

def mdcSamples (cycles : List MdcCycle) : List MdioPins :=
  cycles.flatMap MdcCycle.samples

def MdioFields.falling (options : MdioOptions) (fields : MdioFields) : Bool :=
  fields.state == .data && fields.isRead && options.readEdgeFalling

namespace MdioState

variable {options : MdioOptions}

variable (s : MdioState)

theorem wakes_level (mdc : Bool) (old new : Bool) :
    (mdioDecode options).wakes s ⟨mdc, old⟩ ⟨mdc, new⟩ = false := by
  show (if s.useFalling options then mdc && !mdc else !mdc && mdc) = false
  cases mdc <;> split <;> rfl

theorem scan_level (mdc : Bool) (line : Bool) (samplenum : Nat)
    (levels : List Bool) :
    (mdioDecode options).scan s ⟨mdc, line⟩ samplenum
      (levels.map fun mdio => ⟨mdc, mdio⟩) = s := by
  induction levels generalizing line samplenum with
  | nil => rfl
  | cons level levels ih =>
      rw [map_cons, SampleDecoder.scan_cons,
        SampleDecoder.step_asleep _ (wakes_level s mdc line level)]
      exact ih level (samplenum + 1)

theorem step_fall (old : MdioPins) (line : Bool) (samplenum : Nat)
    (high : s.useFalling options = true → old.mdc = true) :
    (mdioDecode options).step s old ⟨false, line⟩ samplenum =
      if s.useFalling options then s.mdioHandleBit options line samplenum else s := by
  rw [SampleDecoder.step, mdioDecode]
  by_cases falling : s.useFalling options = true
  · simp only [falling, if_true, high falling, Bool.not_false, Bool.and_self]
  · simp only [falling, Bool.and_false, Bool.false_eq_true, if_false]

theorem step_rise (old line : Bool) (samplenum : Nat) :
    (mdioDecode options).step s ⟨false, old⟩ ⟨true, line⟩ samplenum =
      if s.useFalling options then s else s.mdioHandleBit options line samplenum := by
  rw [SampleDecoder.step, mdioDecode]
  by_cases falling : s.useFalling options = true
  · simp only [falling, if_true, Bool.false_and, Bool.false_eq_true, if_false]
  · simp only [falling, Bool.false_eq_true, if_false, Bool.not_false, Bool.and_self, if_true]

theorem scan_cycle (old : MdioPins) (samplenum : Nat) (cycle : MdcCycle)
    (high : s.useFalling options = true → old.mdc = true) :
    ∃ (t : MdioState) (later : Nat),
      t = (if s.useFalling options then s.mdioHandleBit options cycle.fallen samplenum else s) ∧
      (mdioDecode options).scan s old samplenum cycle.samples =
        if t.useFalling options then t else t.mdioHandleBit options cycle.risen later := by
  refine ⟨_, samplenum + 1 + cycle.low.length, rfl, ?_⟩
  rw [MdcCycle.samples, cons_append, SampleDecoder.scan_cons, step_fall s old _ _ high,
    SampleDecoder.scan_append, scan_level, SampleDecoder.scan_cons, length_map]
  obtain ⟨last, lastIs⟩ : ∃ last : Bool,
      (cycle.low.map fun mdio => ({ mdc := false, mdio } : MdioPins)).getLastD
        { mdc := false, mdio := cycle.fallen } = { mdc := false, mdio := last } := by
    rw [getLastD_map]
    exact ⟨_, rfl⟩
  rw [lastIs, step_rise, scan_level]

def Passes (options : MdioOptions) (samples : List MdioPins) (fields : MdioFields)
    (illegal : Bool) (told : List MdioReport) (fieldsAfter : MdioFields)
    (illegalAfter : Bool) : Prop :=
  ∀ (s : MdioState) (old : MdioPins) (samplenum : Nat) (reports : List MdioReport),
    s.Follows fields illegal reports → (fields.falling options = true → old.mdc = true) →
      ((mdioDecode options).scan s old samplenum samples).Follows fieldsAfter illegalAfter
        (reports ++ told) ∧
      (fieldsAfter.falling options = true → (samples.getLastD old).mdc = true)

section Passages

variable {fields fieldsBetween fieldsAfter : MdioFields} {illegal illegalBetween illegalAfter : Bool}
  {told more : List MdioReport} {cycle : MdcCycle} {front back : List MdioPins}

theorem Passes.nil (fields : MdioFields) (illegal : Bool) :
    Passes options [] fields illegal [] fields illegal :=
  fun _ _ _ reports follows high => ⟨(List.append_nil reports).symm ▸ follows, high⟩

theorem Passes.append (first : Passes options front fields illegal told fieldsBetween illegalBetween)
    (second : Passes options back fieldsBetween illegalBetween more fieldsAfter illegalAfter) :
    Passes options (front ++ back) fields illegal (told ++ more) fieldsAfter illegalAfter := by
  intro s old samplenum reports follows high
  obtain ⟨followsBetween, highBetween⟩ := first s old samplenum reports follows high
  have behind := second _ _ (samplenum + front.length) _ followsBetween highBetween
  rwa [← SampleDecoder.scan_append, List.append_assoc, ← getLastD_append] at behind

theorem samples_getLastD (cycle : MdcCycle) (old : MdioPins) :
    (cycle.samples.getLastD old).mdc = true := by
  rw [MdcCycle.samples, getLastD_append, getLastD_cons,
    show (⟨true, cycle.risen⟩ : MdioPins) = (fun mdio => ⟨true, mdio⟩) cycle.risen from rfl,
    getLastD_map]

theorem Follows.useFalling {s : MdioState} {reports : List MdioReport}
    (follows : s.Follows fields illegal reports) :
    s.useFalling options = fields.falling options := by
  rw [MdioState.useFalling, follows.fields, MdioFields.falling]

theorem Passes.of_rise {bit : Bool} (rising : fields.falling options = false)
    (hears : Hears options bit fields illegal told fieldsAfter illegalAfter)
    (risen : cycle.risen = bit) :
    Passes options cycle.samples fields illegal told fieldsAfter illegalAfter := by
  subst risen
  intro s old samplenum reports follows high
  rw [← follows.useFalling] at rising high
  obtain ⟨t, later, tIs, behind⟩ := scan_cycle s old samplenum cycle high
  rw [rising, if_neg Bool.false_ne_true] at tIs
  rw [behind, tIs, rising, if_neg Bool.false_ne_true]
  exact ⟨hears s later reports follows, fun _ => samples_getLastD cycle old⟩

theorem Passes.of_fall (falling : fields.falling options = true)
    (hears : Hears options cycle.fallen fields illegal told fieldsAfter illegalAfter)
    (fallingAfter : fieldsAfter.falling options = true) :
    Passes options cycle.samples fields illegal told fieldsAfter illegalAfter := by
  intro s old samplenum reports follows high
  rw [← follows.useFalling] at falling high
  obtain ⟨t, later, tIs, behind⟩ := scan_cycle s old samplenum cycle high
  have heard := hears s samplenum reports follows
  rw [falling, if_pos rfl] at tIs
  rw [← tIs] at heard
  rw [behind, heard.useFalling, fallingAfter, if_pos rfl]
  exact ⟨heard, fun _ => samples_getLastD cycle old⟩

theorem Passes.of_both {bit : Bool} (falling : fields.falling options = true)
    (hears : Hears options cycle.fallen fields illegal told fieldsBetween illegalBetween)
    (rising : fieldsBetween.falling options = false)
    (hearsMore : Hears options bit fieldsBetween illegalBetween more fieldsAfter illegalAfter)
    (risen : cycle.risen = bit) :
    Passes options cycle.samples fields illegal (told ++ more) fieldsAfter illegalAfter := by
  subst risen
  intro s old samplenum reports follows high
  rw [← follows.useFalling] at falling high
  obtain ⟨t, later, tIs, behind⟩ := scan_cycle s old samplenum cycle high
  have heard := hears s samplenum reports follows
  rw [falling, if_pos rfl] at tIs
  rw [← tIs] at heard
  rw [behind, heard.useFalling, rising, if_neg Bool.false_ne_true, ← List.append_assoc]
  exact ⟨hearsMore t later _ heard, fun _ => samples_getLastD cycle old⟩

end Passages

section Collecting

variable {taken : MdcCycle → Bool} {collecting : Nat → Nat → MdioFields} {before : MdioFields}
  {told : List MdioReport}

theorem passes_more
    (step : ∀ cycle value left, Passes options cycle.samples (collecting value (left + 2)) false []
      (collecting (value ||| (taken cycle).toNat <<< (left + 1)) (left + 1)) false)
    (cycles : List MdcCycle) (value left : Nat) :
    Passes options (mdcSamples cycles) (collecting value (left + 1 + cycles.length)) false []
      (collecting (value ||| packMsb (cycles.map taken) <<< (left + 1)) (left + 1)) false := by
  induction cycles generalizing value with
  | nil =>
      rw [map_nil, packMsb, foldl_nil, Nat.zero_shiftLeft, Nat.or_zero]
      exact Passes.nil _ _
  | cons cycle cycles ih =>
      have first := step cycle value (left + cycles.length)
      have rest := ih (value ||| (taken cycle).toNat <<< (cycles.length + (left + 1)))
      rw [show left + cycles.length + 1 = left + 1 + cycles.length by omega,
        show left + cycles.length + 2 = left + 1 + (cycles.length + 1) by omega] at first
      rw [Nat.add_comm cycles.length] at rest
      rw [mdcSamples, flatMap_cons, map_cons, packMsb_cons, Nat.shiftLeft_or_distrib,
        ← Nat.shiftLeft_add, ← Nat.or_assoc, length_map, length_cons,
        Nat.add_comm cycles.length (left + 1)]
      exact first.append rest

theorem passes_field {width : Nat} (first : ∀ cycle, Passes options cycle.samples before false told
      (collecting (0 ||| (taken cycle).toNat <<< (width + 1)) (width + 1)) false)
    (step : ∀ cycle value left, Passes options cycle.samples (collecting value (left + 2)) false []
      (collecting (value ||| (taken cycle).toNat <<< (left + 1)) (left + 1)) false)
    {cycles : List MdcCycle} (length : cycles.length = width + 1) :
    Passes options (mdcSamples cycles) before false told
      (collecting (packMsb (cycles.map taken) <<< 1) 1) false := by
  obtain _ | ⟨cycle, cycles⟩ := cycles
  · exact absurd length (Nat.succ_ne_zero width).symm
  · obtain rfl : cycles.length = width := Nat.succ.inj length
    have rest := passes_more step cycles (0 ||| (taken cycle).toNat <<< (cycles.length + 1)) 0
    rw [Nat.add_comm (0 + 1)] at rest
    have both := (first cycle).append rest
    rw [List.append_nil, Nat.zero_or, Nat.shiftLeft_add, ← Nat.shiftLeft_or_distrib] at both
    rw [mdcSamples, flatMap_cons, map_cons, packMsb_cons, length_map]
    exact both

end Collecting

end MdioState

def MdioKind.validAt (options : MdioOptions) (kind : MdioKind) (cycle : MdcCycle) : Bool :=
  if kind.reads && options.readEdgeFalling then cycle.fallen else cycle.risen

def MdioKind.takenAt (options : MdioOptions) (kind : MdioKind) (cycle : MdcCycle) : Bool :=
  if kind.isRead && options.readEdgeFalling then cycle.fallen else cycle.risen

/-- The cycles of a frame, from its preamble on.  Away from the edges at which the bits are valid
the line may do anything. -/
structure MdioSent (options : MdioOptions) where
  frame : MdioFrame
  preamble : List MdcCycle
  first : MdcCycle
  start : MdcCycle
  op : MdcCycle
  opEnd : MdcCycle
  portad : List MdcCycle
  devad : List MdcCycle
  turnaround : MdcCycle
  turned : MdcCycle
  data : List MdcCycle
  last : MdcCycle
  preamble_length : 32 ≤ preamble.length ∧ preamble.length ≤ 10000
  preamble_ones : ∀ cycle ∈ preamble, cycle.risen = true
  first_zero : first.risen = false
  start_op : (start.risen, op.risen, opEnd.risen) = frame.kind.firstBits
  portad_bits : portad.map MdcCycle.risen = msbBits 5 frame.portad
  devad_bits : devad.map MdcCycle.risen = msbBits 5 frame.devad
  turnaround_one : frame.kind.reads = true ∨ turnaround.risen = true
  turned_zero : turned.risen = false
  data_bits : (data ++ [last]).map (frame.kind.validAt options) = msbBits 16 frame.data

namespace MdioSent

variable {options : MdioOptions}

def header (sent : MdioSent options) : List MdcCycle :=
  [sent.first, sent.start, sent.op, sent.opEnd] ++ sent.portad ++ sent.devad ++
    [sent.turnaround, sent.turned]

def cycles (sent : MdioSent options) : List MdcCycle :=
  sent.preamble ++ sent.header ++ sent.data ++ [sent.last]

def takesFalling (sent : MdioSent options) : Bool :=
  sent.frame.kind.isRead && options.readEdgeFalling

def readData (sent : MdioSent options) : Nat :=
  packMsb ((sent.data ++ [sent.last]).map (sent.frame.kind.takenAt options))

def onesBehind (sent : MdioSent options) : Nat :=
  (sent.takesFalling && sent.last.risen).toNat

/-- The last rising edge of the frame is a zero where the decoder expects a preamble. -/
def illegalBehind (sent : MdioSent options) : Bool :=
  sent.takesFalling && !sent.last.risen

end MdioSent

namespace MdioState

variable {options : MdioOptions}

theorem mdcSamples_append (front back : List MdcCycle) :
    mdcSamples (front ++ back) = mdcSamples front ++ mdcSamples back :=
  flatMap_append

theorem mdcSamples_singleton (cycle : MdcCycle) : mdcSamples [cycle] = cycle.samples := by
  rw [mdcSamples, flatMap_singleton]

theorem passes_ones {cycles : List MdcCycle} (ones : ∀ cycle ∈ cycles, cycle.risen = true)
    {count : Nat} (few : count + cycles.length < 10000 + 32) :
    Passes options (mdcSamples cycles) (inPreamble count) false []
      (inPreamble (count + cycles.length)) false := by
  induction cycles generalizing count with
  | nil => exact Passes.nil _ _
  | cons cycle cycles ih =>
      rw [length_cons] at few ⊢
      have one := @hears_one options count (by omega) false
      have rest := ih (fun more member => ones more (mem_cons_of_mem _ member))
        (by omega : count + 1 + cycles.length < 10000 + 32)
      rw [Nat.add_right_comm, Nat.add_assoc] at rest
      exact (Passes.of_rise rfl one (ones cycle mem_cons_self)).append rest

theorem passes_preamble (sent : MdioSent options) {count : Nat} (few : count ≤ 1) (illegal : Bool) :
    Passes options (mdcSamples sent.preamble) (inPreamble count) illegal (illegalReport illegal)
      (inPreamble (count + sent.preamble.length)) false := by
  have ones := sent.preamble_ones
  have bounds := sent.preamble_length
  generalize sent.preamble = preamble at ones bounds ⊢
  cases preamble with
  | nil => exact absurd bounds.1 (by decide)
  | cons cycle cycles =>
      rw [length_cons] at bounds ⊢
      have one := @hears_one options count (by omega) illegal
      have rest := @passes_ones options _
        (fun more member => ones more (mem_cons_of_mem _ member)) (count + 1) (by omega)
      rw [Nat.add_right_comm, Nat.add_assoc] at rest
      have both := (Passes.of_rise rfl one (ones cycle mem_cons_self)).append rest
      rwa [List.append_nil] at both

theorem passes_address {collecting : Nat → Nat → MdioFields} {before : MdioFields}
    {done : Nat → MdioFields} {told : List MdioReport}
    (beforeRising : before.falling options = false)
    (rising : ∀ value left, (collecting value left).falling options = false)
    (first : ∀ bit, Hears options bit before false told (collecting (0 ||| bit.toNat <<< 4) 4)
      false)
    (step : ∀ bit value left, Hears options bit (collecting value (left + 2)) false []
      (collecting (value ||| bit.toNat <<< (left + 1)) (left + 1)) false)
    (last : ∀ bit value, Hears options bit (collecting value 1) false []
      (done (value ||| bit.toNat)) false)
    {cycles : List MdcCycle} {value : Nat} (small : value < 32)
    (bits : cycles.map MdcCycle.risen = msbBits 5 value) :
    Passes options (mdcSamples cycles) before false told (done value) false := by
  have length : cycles.length = 5 := by rw [← length_map, bits, length_msbBits]
  have front := @passes_field options MdcCycle.risen _ _ _ 3
    (fun cycle => Passes.of_rise beforeRising (first cycle.risen) rfl)
    (fun cycle value left =>
      Passes.of_rise (rising value (left + 2)) (step cycle.risen value left) rfl)
    cycles.dropLast (by rw [length_dropLast, length])
  have some : cycles ≠ [] := ne_nil_of_length_pos (by rw [length]; decide)
  have final := Passes.of_rise (rising _ 1) (last (cycles.getLast some).risen
    (packMsb (cycles.dropLast.map MdcCycle.risen) <<< 1)) rfl
  have both := front.append final
  rw [← packMsb_concat_or, ← mdcSamples_singleton, ← mdcSamples_append,
    dropLast_append_getLast, List.append_nil, ← map_singleton,
    ← map_append, dropLast_append_getLast, bits,
    packMsb_msbBits small] at both
  exact both

def headerReports (sent : MdioSent options) : List MdioReport :=
  [.st sent.frame.kind.clause45, .op sent.frame.kind.op,
    .portad sent.frame.kind.clause45 sent.frame.portad,
    .devad sent.frame.kind.clause45 sent.frame.devad]

theorem passes_header (sent : MdioSent options) {ones : Nat} (enough : 32 ≤ ones)
    (few : ones < 10000 + 32) :
    Passes options (mdcSamples sent.header) (inPreamble ones) false (headerReports sent)
      (sent.frame.kind.turned sent.frame.portad sent.frame.devad) false := by
  obtain ⟨kind, kindIs⟩ : ∃ kind, kind = sent.frame.kind := ⟨_, rfl⟩
  have firstBits := sent.start_op
  rw [← kindIs, Prod.ext_iff, Prod.ext_iff] at firstBits
  obtain ⟨startIs, opIs, opEndIs⟩ := firstBits
  have startBit : sent.start.risen = !kind.clause45 := by
    refine startIs.trans ?_
    cases kind <;> rfl
  have zero := @hears_zero options _ enough few
  have start := @hears_start options kind.clause45
  have op := @hears_op options kind.clause45 kind.firstBits.2.1
  have opEnd := @hears_opEnd options kind
  have portad := @passes_address options _ _ kind.portadDone _ rfl
    (fun _ _ => rfl) (hears_portadFirst kind) (hears_portad kind) (hears_portadLast kind)
    _ _ sent.frame.portad_lt sent.portad_bits
  have devad := @passes_address options _ _ (kind.devadDone sent.frame.portad) _ rfl (fun _ _ => rfl)
    (fun bit => hears_devadFirst kind bit sent.frame.portad)
    (fun bit => hears_devad kind bit sent.frame.portad)
    (fun bit => hears_devadLast kind bit sent.frame.portad)
    _ _ sent.frame.devad_lt sent.devad_bits
  have driven := sent.turnaround_one
  rw [← kindIs] at driven
  have turnaround := @hears_turnaround options kind _ driven sent.frame.portad sent.frame.devad
  have turned := @hears_turned options kind sent.frame.portad sent.frame.devad
  have begun := (Passes.of_rise rfl zero sent.first_zero).append
    ((Passes.of_rise rfl start startBit).append
      ((Passes.of_rise rfl op opIs).append (Passes.of_rise rfl opEnd opEndIs)))
  have addressed := begun.append (portad.append devad)
  have passed := addressed.append ((Passes.of_rise rfl turnaround rfl).append
    (Passes.of_rise rfl turned sent.turned_zero))
  rw [MdioSent.header, headerReports, ← kindIs]
  simpa only [mdcSamples, flatMap_append, flatMap_cons, flatMap_nil,
    List.append_nil, nil_append, List.append_assoc, cons_append] using passed

theorem passes_taken {kind : MdioKind} {cycle : MdcCycle} {fields fieldsAfter : MdioFields}
    (edge : fields.falling options = (kind.isRead && options.readEdgeFalling))
    (edgeAfter : fieldsAfter.falling options = (kind.isRead && options.readEdgeFalling))
    (hears : Hears options (kind.takenAt options cycle) fields false [] fieldsAfter false) :
    Passes options cycle.samples fields false [] fieldsAfter false := by
  rw [MdioKind.takenAt] at hears
  by_cases falling : (kind.isRead && options.readEdgeFalling) = true
  · rw [if_pos falling] at hears
    exact Passes.of_fall (edge.trans falling) hears (edgeAfter.trans falling)
  · rw [if_neg falling] at hears
    rw [Bool.not_eq_true] at falling
    exact Passes.of_rise (edge.trans falling) hears rfl

variable (sent : MdioSent options)

theorem length_data : sent.data.length = 15 := by
  have bits := congrArg List.length sent.data_bits
  rw [length_map, length_append, length_singleton, length_msbBits] at bits
  exact Nat.succ.inj bits

theorem passes_data : Passes options (mdcSamples sent.data)
      (sent.frame.kind.turned sent.frame.portad sent.frame.devad) false []
      (sent.frame.kind.dataFields sent.frame.portad sent.frame.devad
        (packMsb (sent.data.map (sent.frame.kind.takenAt options)) <<< 1) 1) false :=
  @passes_field _ _ _ _ _ 14 (fun _ => passes_taken rfl rfl (hears_dataFirst _ _ _ _))
    (fun _ value left => passes_taken rfl rfl (hears_data _ _ _ _ value left))
    _ (length_data sent)

theorem passes_last {front : Nat}
    (bits : front = packMsb (sent.data.map (sent.frame.kind.takenAt options))) :
    Passes options sent.last.samples
      (sent.frame.kind.dataFields sent.frame.portad sent.frame.devad (front <<< 1) 1) false
      (sent.frame.kind.lastReports sent.frame.portad sent.frame.devad sent.readData)
      (inPreamble sent.onesBehind) sent.illegalBehind := by
  have hears := @hears_dataLast options sent.frame.kind
    (sent.frame.kind.takenAt options sent.last) sent.frame.portad sent.frame.devad (front <<< 1)
  rw [bits, ← packMsb_concat_or, ← map_singleton, ← map_append] at hears
  rw [bits]
  rw [MdioSent.readData, MdioSent.onesBehind, MdioSent.illegalBehind, MdioSent.takesFalling]
  rw [MdioKind.takenAt] at hears
  have edge : (sent.frame.kind.dataFields sent.frame.portad sent.frame.devad
      (packMsb (sent.data.map (sent.frame.kind.takenAt options)) <<< 1) 1).falling options =
      (sent.frame.kind.isRead && options.readEdgeFalling) := rfl
  by_cases falling : (sent.frame.kind.isRead && options.readEdgeFalling) = true
  · rw [if_pos falling] at hears
    rw [falling, Bool.true_and, Bool.true_and]
    cases risen : sent.last.risen with
    | false =>
        have zero := @hears_illegal options 0 (by decide)
        have both := Passes.of_both (edge.trans falling) hears rfl zero risen
        rwa [List.append_nil] at both
    | true =>
        have one := @hears_one options 0 (by decide) false
        have both := Passes.of_both (edge.trans falling) hears rfl one risen
        rwa [illegalReport, if_neg Bool.false_ne_true, List.append_nil] at both
  · rw [if_neg falling] at hears
    rw [Bool.not_eq_true] at falling
    rw [falling, Bool.false_and, Bool.false_and]
    exact Passes.of_rise (edge.trans falling) hears rfl

end MdioState

end SigrokDecode
