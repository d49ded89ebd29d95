import SigrokDecode.Decoders.MdioWaveform

/-!
# MDIO sessions

What `mdio_c` reports about one frame behind the other.  An address is sent by the station, but
the decoder takes it at the edge that is meant for the data of a PHY.
-/

namespace SigrokDecode

open Foundation MdioState List

variable {options : MdioOptions}

def MdioFrame.reports (frame : MdioFrame) : List MdioReport :=
  [.st frame.kind.clause45, .op frame.kind.op, .portad frame.kind.clause45 frame.portad,
    .devad frame.kind.clause45 frame.devad] ++
    frame.kind.lastReports frame.portad frame.devad frame.data

/-- What is told about it. -/
def MdioSent.reports (sent : MdioSent options) : List MdioReport :=
  headerReports sent ++ sent.frame.kind.lastReports sent.frame.portad sent.frame.devad sent.readData

/-- What is told about frames, behind a legal or an illegal state of the bus. -/
def sessionReports : Bool → List (MdioSent options) → List MdioReport
  | _, [] => []
  | illegal, sent :: rest =>
      illegalReport illegal ++ sent.reports ++ sessionReports sent.illegalBehind rest

def sessionSamples (session : List (MdioSent options)) : List MdioPins :=
  mdcSamples (session.flatMap MdioSent.cycles)

theorem onesBehind_le (sent : MdioSent options) : sent.onesBehind ≤ 1 := Bool.toNat_le _

namespace MdioState

theorem passes_sent (sent : MdioSent options) {count : Nat} (few : count ≤ 1) (illegal : Bool) :
    Passes options (mdcSamples sent.cycles) (inPreamble count) illegal
      (illegalReport illegal ++ sent.reports) (inPreamble sent.onesBehind)
      sent.illegalBehind := by
  have bounds := sent.preamble_length
  have preamble := passes_preamble sent few illegal
  have header := passes_header sent (by omega : 32 ≤ count + sent.preamble.length) (by omega)
  have passed := ((preamble.append header).append (passes_data sent)).append (passes_last sent rfl)
  rw [List.append_nil] at passed
  rw [MdioSent.cycles, MdioSent.reports, mdcSamples_append, mdcSamples_append, mdcSamples_append,
    mdcSamples_singleton, ← List.append_assoc (illegalReport illegal)]
  exact passed

theorem passes_session (session : List (MdioSent options)) {count : Nat} (few : count ≤ 1)
    (illegal : Bool) :
    ∃ countAfter illegalAfter, Passes options (sessionSamples session) (inPreamble count) illegal
        (sessionReports illegal session) (inPreamble countAfter) illegalAfter := by
  induction session generalizing count illegal with
  | nil => exact ⟨count, illegal, Passes.nil _ _⟩
  | cons sent rest ih =>
      obtain ⟨countAfter, illegalAfter, passed⟩ := ih (onesBehind_le sent) sent.illegalBehind
      refine ⟨countAfter, illegalAfter, ?_⟩
      have both := (passes_sent sent few illegal).append passed
      rw [sessionSamples, ← mdcSamples_append] at both
      exact both

end MdioState

theorem readData_eq_iff (sent : MdioSent options) : sent.readData = sent.frame.data ↔
      (options.readEdgeFalling = true → sent.frame.kind = .addr →
        (sent.data ++ [sent.last]).map MdcCycle.fallen = msbBits 16 sent.frame.data) := by
  have valid := sent.data_bits
  have length : ((sent.data ++ [sent.last]).map (sent.frame.kind.takenAt options)).length = 16 := by
    rw [length_map, length_append, length_data, length_singleton]
  have sameBits : sent.readData = sent.frame.data ↔
      (sent.data ++ [sent.last]).map (sent.frame.kind.takenAt options) =
        msbBits 16 sent.frame.data := by
    rw [MdioSent.readData]
    constructor
    · intro same
      rw [← same, ← length, msbBits_packMsb]
    · intro same
      rw [same]
      exact packMsb_msbBits sent.frame.data_lt
  rw [sameBits]
  by_cases address : options.readEdgeFalling = true ∧ sent.frame.kind = .addr
  · have taken : sent.frame.kind.takenAt options = MdcCycle.fallen := by
      funext cycle
      rw [MdioKind.takenAt, address.1, address.2]
      rfl
    rw [taken]
    exact ⟨fun same _ _ => same, fun same => same address.1 address.2⟩
  · have taken : sent.frame.kind.takenAt options = sent.frame.kind.validAt options := by
      funext cycle
      rw [MdioKind.takenAt, MdioKind.validAt]
      cases falling : options.readEdgeFalling with
      | false => rw [Bool.and_false, Bool.and_false]
      | true =>
          have kind : sent.frame.kind ≠ .addr := fun same => address ⟨falling, same⟩
          cases same : sent.frame.kind <;> first | exact absurd same kind | rfl
    rw [taken]
    exact ⟨fun _ falling kind => absurd ⟨falling, kind⟩ address, fun _ => valid⟩

/-- The line carries what the decoder relies on where it takes data at falling edges: the data
of an address are valid there too, and the rising edge behind the last bit is a one. -/
def MdioReadable : List (MdioSent options) → Prop
  | [] => True
  | sent :: rest =>
      (options.readEdgeFalling = true → sent.frame.kind = .addr →
        (sent.data ++ [sent.last]).map MdcCycle.fallen = msbBits 16 sent.frame.data) ∧
      (options.readEdgeFalling = true → sent.frame.kind = .addr ∨ sent.frame.kind.reads = true →
        rest = [] ∨ sent.last.risen = true) ∧
      MdioReadable rest

/-- Every frame is told as it is, without an error, and the decoder is in the preamble again
behind each of them. -/
structure MdioReported (session : List (MdioSent options)) (old : MdioPins) (samplenum : Nat) :
    Prop where
  reports : ((mdioDecode options).scan MdioState.start old samplenum
    (sessionSamples session)).reports = session.flatMap fun sent => sent.frame.reports
  preamble : ∀ front back, session = front ++ back →
    ((mdioDecode options).scan MdioState.start old samplenum
      (sessionSamples front)).fields.state = .pre

theorem session_scan (session : List (MdioSent options)) (old : MdioPins) (samplenum : Nat) :
    ((mdioDecode options).scan MdioState.start old samplenum
      (sessionSamples session)).reports = sessionReports false session ∧
    ((mdioDecode options).scan MdioState.start old samplenum
      (sessionSamples session)).fields.state = .pre := by
  obtain ⟨count, illegal, passed⟩ := passes_session session (Nat.zero_le 1) false
  have begun : MdioState.start.Follows (inPreamble 0) false [] := ⟨rfl, rfl, rfl⟩
  obtain ⟨follows, -⟩ := passed MdioState.start old samplenum [] begun
    (fun falling => Bool.noConfusion falling)
  exact ⟨follows.reports, congrArg MdioFields.state follows.fields⟩

variable (sent : MdioSent options)

theorem illegalBehind_eq_false_iff : sent.illegalBehind = false ↔
      (options.readEdgeFalling = true → sent.frame.kind = .addr ∨ sent.frame.kind.reads = true →
        sent.last.risen = true) := by
  rw [MdioSent.illegalBehind, MdioSent.takesFalling]
  cases options.readEdgeFalling <;> cases sent.frame.kind <;> cases sent.last.risen <;>
    simp [MdioKind.isRead, MdioKind.reads]

theorem length_reports :
    sent.reports.length = sent.frame.reports.length := by
  rw [MdioSent.reports, MdioFrame.reports, length_append, length_append,
    MdioKind.lastReports, MdioKind.lastReports, length_cons, length_cons]
  by_cases address : sent.frame.kind = .addr
  · rw [if_pos address, if_pos address]
    rfl
  · rw [if_neg address, if_neg address]
    rfl

theorem reports_eq_iff :
    sent.reports = sent.frame.reports ↔ sent.readData = sent.frame.data := by
  constructor
  · intro same
    have behind := (append_inj same rfl).2
    exact MdioReport.data.inj (List.cons.inj behind).1
  · intro same
    rw [MdioSent.reports, same]
    rfl

theorem illegal_of_reports_eq {illegal : Bool} {sent : MdioSent options}
    {rest : List (MdioSent options)} {more : List MdioReport}
    (same : sessionReports illegal (sent :: rest) = sent.frame.reports ++ more) :
    illegal = false := by
  cases illegal with
  | false => rfl
  | true => exact MdioReport.noConfusion (List.cons.inj same).1

theorem sessionReports_eq_iff (session : List (MdioSent options)) :
    sessionReports false session = (session.flatMap fun sent => sent.frame.reports) ↔
      MdioReadable session := by
  induction session with
  | nil => exact iff_of_true rfl trivial
  | cons sent rest ih =>
      have legal : illegalReport false = [] := rfl
      rw [sessionReports, legal, nil_append, flatMap_cons, MdioReadable, ← readData_eq_iff, ← ih]
      constructor
      · intro same
        obtain ⟨first, behind⟩ := append_inj same (length_reports sent)
        refine ⟨(reports_eq_iff sent).mp first, ?_⟩
        obtain _ | ⟨next, more⟩ := rest
        · exact ⟨fun _ _ => Or.inl rfl, rfl⟩
        · have legalBehind := illegal_of_reports_eq behind
          rw [legalBehind] at behind
          exact ⟨fun falling kind =>
            Or.inr ((illegalBehind_eq_false_iff sent).mp legalBehind falling kind), behind⟩
      · rintro ⟨read, kept, behind⟩
        have unbroken : sessionReports sent.illegalBehind rest = sessionReports false rest := by
          obtain _ | ⟨next, more⟩ := rest
          · rfl
          · have legalBehind : sent.illegalBehind = false :=
              (illegalBehind_eq_false_iff sent).mpr fun falling kind =>
                (kept falling kind).resolve_left (cons_ne_nil _ _)
            rw [legalBehind]
        rw [(reports_eq_iff sent).mpr read, unbroken, behind]

/-- Frames of every kind are told as they are exactly if the line carries what the decoder relies
on where it takes data at falling edges. -/
theorem mdioReported_iff (session : List (MdioSent options)) (old : MdioPins) (samplenum : Nat) :
    MdioReported session old samplenum ↔ MdioReadable session := by
  rw [← sessionReports_eq_iff]
  constructor
  · intro reported
    rw [← (session_scan session old samplenum).1]
    exact reported.reports
  · intro same
    refine ⟨(session_scan session old samplenum).1.trans same, ?_⟩
    rintro front back -
    exact (session_scan front old samplenum).2

/-- The line stays as it is. -/
def steadyCycle (level : Bool) : MdcCycle :=
  { fallen := level
    low := []
    risen := level
    high := [level] }

def changedCycle (level : Bool) : MdcCycle :=
  { fallen := !level
    low := [level]
    risen := level
    high := [level] }

def addressOne : MdioSent { showDebugBits := false, readEdgeFalling := true } :=
  { frame :=
      { kind := .addr
        portad := 0
        devad := 0
        data := 1
        portad_lt := by decide
        devad_lt := by decide
        data_lt := by decide }
    preamble := List.replicate 32 (steadyCycle true)
    first := changedCycle false
    start := steadyCycle false
    op := steadyCycle false
    opEnd := steadyCycle false
    portad := List.replicate 5 (steadyCycle false)
    devad := List.replicate 5 (steadyCycle false)
    turnaround := changedCycle true
    turned := changedCycle false
    data := List.replicate 15 (steadyCycle false)
    last := changedCycle true
    preamble_length := by decide
    preamble_ones := fun _ member => (List.eq_of_mem_replicate member).symm ▸ rfl
    first_zero := rfl
    start_op := rfl
    portad_bits := by decide
    devad_bits := by decide
    turnaround_one := Or.inr rfl
    turned_zero := rfl
    data_bits := by decide }

/-- The last bit of the address is taken before the station has put it on the line. -/
theorem addressOne_misread : ¬ MdioReported [addressOne] ⟨true, true⟩ 0 := by
  intro reported
  have told := reported.reports
  rw [(session_scan [addressOne] ⟨true, true⟩ 0).1, sessionReports_eq_iff] at told
  exact absurd (told.1 rfl rfl) (by decide)

end SigrokDecode
