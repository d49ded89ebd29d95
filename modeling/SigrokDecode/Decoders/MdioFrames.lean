import SigrokDecode.Decoders.Mdio

/-!
# The bits of MDIO frames

What `mdio_c` reads from the bits that it takes, wherever in the waveform it has taken them.
-/

set_option linter.dupNamespace false

namespace SigrokDecode

open Foundation

/-- What is told about a frame. -/
inductive MdioReport where
  | st (clause45 : Bool)
  | op (op : MdioOp)
  | portad (clause45 : Bool) (portad : Nat)
  | devad (clause45 : Bool) (devad : Nat)
  | data (data : Nat)
  | decode (clause45 isRead : Bool) (portad devad data : Nat) (error : Bool)
  | error (error : MdioError)

def MdioOut.report : MdioOut → Option MdioReport
  | .st _ _ clause45 => some (.st clause45)
  | .op _ _ name => some (.op name)
  | .portad _ _ clause45 value => some (.portad clause45 value)
  | .devad _ _ clause45 value => some (.devad clause45 value)
  | .data _ _ value => some (.data value)
  | .error _ _ kind => some (.error kind)
  | .decode _ _ decoded =>
      some (.decode decoded.clause45 decoded.isRead decoded.portad decoded.devad decoded.data
        decoded.error)
  | _ => none

namespace MdioState

def reports (s : MdioState) : List MdioReport :=
  s.outs.filterMap MdioOut.report

structure Follows (fields : MdioFields) (illegal : Bool) (reports : List MdioReport)
    (s : MdioState) : Prop where
  fields : s.fields = fields
  illegal : s.illegalBus = illegal
  reports : s.reports = reports

variable {options : MdioOptions} {fields : MdioFields} {illegal : Bool}
  {reports : List MdioReport} {s : MdioState}

theorem reports_put (s : MdioState) (out : MdioOut) :
    (s.put out).reports = s.reports ++ out.report.toList := by
  rw [MdioState.reports, put, List.filterMap_append]
  cases out <;> rfl

theorem Follows.put (follows : s.Follows fields illegal reports) (out : MdioOut) :
    (s.put out).Follows fields illegal (reports ++ out.report.toList) :=
  ⟨follows.fields, follows.illegal, by rw [reports_put, follows.reports]⟩

theorem Follows.putbit (follows : s.Follows fields illegal reports) (bit : Bool)
    (ss es : Nat) : (s.mdioPutbit options bit ss es).Follows fields illegal reports := by
  have one := follows.put (.bitVal ss es bit)
  rw [show (MdioOut.bitVal ss es bit).report.toList = [] from rfl, List.append_nil] at one
  rw [mdioPutbit]
  split
  · have two := one.put (.bitNum ss es (s.times.bitcount - 1))
    rwa [show (MdioOut.bitNum ss es (s.times.bitcount - 1)).report.toList = [] from rfl,
      List.append_nil] at two
  · exact one

theorem Follows.noteBit (follows : s.Follows fields illegal reports) (bit : Bool)
    (samplenum : Nat) :
    (s.noteBit options bit samplenum).Follows fields illegal reports := by
  have annotated : (if 0 ≤ s.times.bitcount then
      s.mdioPutbit options s.times.headMdio s.times.headSs samplenum else s).Follows
        fields illegal reports := by
    split
    · exact follows.putbit _ _ _
    · exact follows
  exact { annotated with }

def Hears (options : MdioOptions) (bit : Bool) (fields : MdioFields) (illegal : Bool)
    (told : List MdioReport) (fieldsAfter : MdioFields) (illegalAfter : Bool) : Prop :=
  ∀ (s : MdioState) (samplenum : Nat) (reports : List MdioReport),
    s.Follows fields illegal reports →
      (s.mdioHandleBit options bit samplenum).Follows fieldsAfter illegalAfter (reports ++ told)

theorem Hears.of_dispatch {bit : Bool} {told : List MdioReport} {fieldsAfter : MdioFields}
    {illegalAfter : Bool}
    (dispatched : ∀ (s : MdioState) (samplenum : Nat) (reports : List MdioReport),
      s.Follows fields illegal reports →
        (s.dispatch options bit samplenum).Follows fieldsAfter illegalAfter (reports ++ told)) :
    Hears options bit fields illegal told fieldsAfter illegalAfter :=
  fun _ samplenum reports follows =>
    dispatched _ samplenum reports (follows.noteBit bit samplenum)

/-- Between frames, behind so many ones. -/
def inPreamble (ones : Nat) : MdioFields :=
  { mdioResetFields with preambleLen := ones }

/-- The report that an illegal state of the bus is over. -/
def illegalReport (illegal : Bool) : List MdioReport :=
  if illegal then [.error .illegalBus] else []

section

variable (follows : s.Follows fields illegal reports)
include follows

theorem Follows.leaveIllegalBus (samplenum : Nat) :
    (s.leaveIllegalBus samplenum).Follows fields false (reports ++ illegalReport illegal) := by
  have known := follows.illegal
  rw [MdioState.leaveIllegalBus, illegalReport]
  cases illegal with
  | false =>
      have legal : ¬ s.illegalBus = true := by
        rw [known]
        exact Bool.false_ne_true
      rw [if_neg legal, if_neg Bool.false_ne_true, List.append_nil]
      exact follows
  | true =>
      have shown := follows.put (.error s.times.ssIllegal samplenum .illegalBus)
      rw [if_pos known, if_pos rfl]
      exact ⟨shown.fields, rfl, shown.reports⟩

theorem Follows.beginFrame (samplenum : Nat) :
    (s.beginFrame samplenum).Follows fields illegal reports := by
  rw [MdioState.beginFrame]
  split
  · exact { follows with }
  · exact follows

theorem Follows.countPreamble (samplenum : Nat) : (s.countPreamble samplenum).Follows
      { fields with preambleLen := fields.preambleLen + 1 } illegal reports := by
  refine ⟨?_, follows.illegal, follows.reports⟩
  rw [MdioState.countPreamble, follows.fields]

theorem Follows.cutIdle
    (few : fields.preambleLen < 10000 + 32) : s.cutIdle = s := by
  rw [MdioState.cutIdle, follows.fields, if_neg (Nat.not_le.mpr few)]

end

variable {ones : Nat}

theorem hears_one (few : ones + 1 < 10000 + 32) (illegal : Bool) :
    Hears options true (inPreamble ones) illegal (illegalReport illegal)
      (inPreamble (ones + 1)) false := by
  refine Hears.of_dispatch fun s samplenum reports before => ?_
  have counted := ((before.leaveIllegalBus samplenum).beginFrame samplenum).countPreamble samplenum
  rw [dispatch, before.fields]
  simp only [inPreamble, mdioResetFields]
  rw [mdioStatePre, if_neg (fun both => Bool.noConfusion both.2)]
  simp only [if_true]
  rw [counted.cutIdle few, ite_self]
  exact counted

theorem hears_zero (enough : 32 ≤ ones) (few : ones < 10000 + 32) :
    Hears options false (inPreamble ones) false []
      { mdioResetFields with preambleLen := 32, state := .st } false := by
  refine Hears.of_dispatch fun s samplenum reports before => ?_
  have began := (before.leaveIllegalBus samplenum).beginFrame samplenum
  rw [illegalReport, if_neg Bool.false_ne_true, List.append_nil] at began
  rw [dispatch, before.fields, List.append_nil]
  simp only [inPreamble, mdioResetFields]
  have legal : ¬ (s.illegalBus = true ∧ false = false) := by
    rw [before.illegal]
    exact fun both => Bool.noConfusion both.1
  rw [mdioStatePre, if_neg legal]
  simp only [Bool.false_eq_true, if_false]
  obtain ⟨u, same⟩ : ∃ u, u = (s.leaveIllegalBus samplenum).beginFrame samplenum := ⟨_, rfl⟩
  rw [← same] at began ⊢
  have seen : 16 < u.fields.preambleLen := by
    rw [began.fields]
    exact Nat.lt_of_lt_of_le (by decide) enough
  rw [if_pos seen, began.cutIdle few, endPreamble]
  have judged : (u.judgePreamble samplenum).Follows (inPreamble 32) false reports := by
    have long : ¬ u.fields.preambleLen < 32 := by
      rw [began.fields]
      exact Nat.not_lt.mpr enough
    rw [judgePreamble, if_neg long]
    by_cases more : 32 < u.fields.preambleLen
    · have shown := began.put (.idle u.times.ssPreambleFirst (mdioGetSampleHist u.times 32)
        (u.fields.preambleLen - 32))
      rw [if_pos more]
      refine ⟨?_, shown.illegal, shown.reports.trans (List.append_nil _)⟩
      exact congrArg (fun f : MdioFields => { f with preambleLen := 32 }) shown.fields
    · rw [if_neg more]
      rw [began.fields] at more
      obtain rfl : ones = 32 := Nat.le_antisymm (Nat.not_lt.mp more) enough
      exact { began with }
  have shown := judged.put (.pre (u.judgePreamble samplenum).times.ssFrame samplenum
    (u.judgePreamble samplenum).fields.preambleLen)
  refine ⟨?_, shown.illegal, shown.reports.trans (List.append_nil _)⟩
  exact congrArg (fun f : MdioFields => { f with state := .st }) judged.fields

theorem hears_illegal (few : ones ≤ 16) :
    Hears options false (inPreamble ones) false [] (inPreamble ones) true := by
  refine Hears.of_dispatch fun s samplenum reports before => ?_
  have began := (before.leaveIllegalBus samplenum).beginFrame samplenum
  rw [illegalReport, if_neg Bool.false_ne_true, List.append_nil] at began
  rw [dispatch, before.fields, List.append_nil]
  simp only [inPreamble, mdioResetFields]
  have legal : ¬ (s.illegalBus = true ∧ false = false) := by
    rw [before.illegal]
    exact fun both => Bool.noConfusion both.1
  rw [mdioStatePre, if_neg legal]
  simp only [Bool.false_eq_true, if_false]
  have unseen : ¬ 16 < ((s.leaveIllegalBus samplenum).beginFrame samplenum).fields.preambleLen := by
    rw [began.fields]
    exact Nat.not_lt.mpr few
  rw [if_neg unseen]
  exact ⟨began.fields, rfl, began.reports⟩

end MdioState

/-! ## Frames -/

/-- The frames of clause 22, and those of clause 45. -/
inductive MdioKind where
  | writeRegister
  | readRegister
  | addr
  | write
  | readInc
  | read
  deriving DecidableEq

namespace MdioKind

def clause45 : MdioKind → Bool
  | .writeRegister | .readRegister => false
  | .addr | .write | .readInc | .read => true

/-- The PHY sends the data. -/
def reads : MdioKind → Bool
  | .writeRegister | .addr | .write => false
  | .readRegister | .readInc | .read => true

def op : MdioKind → MdioOp
  | .writeRegister | .write => .write
  | .readRegister | .read => .read
  | .addr => .addr
  | .readInc => .readInc

def firstBits : MdioKind → Bool × Bool × Bool
  | .writeRegister => (true, false, true)
  | .readRegister => (true, true, false)
  | .addr => (false, false, false)
  | .write => (false, false, true)
  | .readInc => (false, true, false)
  | .read => (false, true, true)

def opcode : MdioKind → Nat
  | .writeRegister | .addr => 0
  | .write => 1
  | .readRegister | .readInc => 2
  | .read => 3

/-- What the decoder takes a kind for; an address leaves the flag as the reset has set it. -/
def isRead : MdioKind → Bool
  | .writeRegister | .write => false
  | .readRegister | .addr | .readInc | .read => true

/-- Behind the operation. -/
def opFields (kind : MdioKind) : MdioFields :=
  { mdioResetFields with
    preambleLen := 32
    state := .prtad
    clause45 := kind.clause45
    opcode := some kind.opcode }

def portadFields (kind : MdioKind) (portad left : Nat) : MdioFields :=
  { kind.opFields with
    isRead := kind.isRead
    portad := some portad
    portadBits := left }

def portadDone (kind : MdioKind) (portad : Nat) : MdioFields :=
  { kind.portadFields portad 0 with state := .devad }

def devadFields (kind : MdioKind) (portad devad left : Nat) : MdioFields :=
  { kind.portadDone portad with
    devad := some devad
    devadBits := left }

def devadDone (kind : MdioKind) (portad devad : Nat) : MdioFields :=
  { kind.devadFields portad devad 0 with state := .ta }

def turned (kind : MdioKind) (portad devad : Nat) : MdioFields :=
  { kind.devadDone portad devad with
    taFirstBit := false
    state := .data }

def dataFields (kind : MdioKind) (portad devad data left : Nat) : MdioFields :=
  { kind.turned portad devad with
    data := some data
    dataBits := left }

end MdioKind

structure MdioFrame where
  kind : MdioKind
  portad : Nat
  devad : Nat
  data : Nat
  portad_lt : portad < 32
  devad_lt : devad < 32
  data_lt : data < 65536

def MdioKind.lastReports (kind : MdioKind) (portad devad data : Nat) : List MdioReport :=
  .data data :: if kind = .addr then [] else
    [.decode kind.clause45 kind.reads portad devad data false]

namespace MdioState

variable {options : MdioOptions}

theorem Hears.of_outs {bit : Bool} {fields fieldsAfter : MdioFields} {told : List MdioReport}
    (dispatched : ∀ (s : MdioState) (samplenum : Nat), s.fields = fields → s.illegalBus = false →
      ∃ outs : List MdioOut, (s.dispatch options bit samplenum).fields = fieldsAfter ∧
        (s.dispatch options bit samplenum).illegalBus = false ∧
        (s.dispatch options bit samplenum).outs = s.outs ++ outs ∧
        outs.filterMap MdioOut.report = told) :
    Hears options bit fields false told fieldsAfter false := by
  refine Hears.of_dispatch fun s samplenum reports before => ?_
  obtain ⟨outs, fieldsSame, illegalSame, outsSame, toldSame⟩ :=
    dispatched s samplenum before.fields before.illegal
  refine ⟨fieldsSame, illegalSame, ?_⟩
  rw [MdioState.reports, outsSame, List.filterMap_append, toldSame]
  exact congrArg (· ++ told) before.reports

theorem hears_start (clause45 : Bool) : Hears options (!clause45)
      { mdioResetFields with preambleLen := 32, state := .st } false []
      { mdioResetFields with preambleLen := 32, state := .op, clause45 := clause45 } false := by
  refine Hears.of_outs ?_
  rintro ⟨fields, times, addr, bus, outs⟩ samplenum rfl rfl
  refine ⟨[], ?_, rfl, (List.append_nil _).symm, rfl⟩
  cases clause45 <;> rfl

theorem hears_op (clause45 bit : Bool) : Hears options bit
      { mdioResetFields with preambleLen := 32, state := .op, clause45 := clause45 } false
      [.st clause45]
      { mdioResetFields with
        preambleLen := 32
        state := .op
        clause45 := clause45
        opcode := some (if bit then 2 else 0) } false := by
  refine Hears.of_outs ?_
  rintro ⟨fields, times, addr, bus, outs⟩ samplenum rfl rfl
  exact ⟨[.st times.ssFrameField times.prevSamplenum clause45], rfl, rfl, rfl, rfl⟩

variable (kind : MdioKind)

theorem hears_opEnd : Hears options kind.firstBits.2.2
      { mdioResetFields with
        preambleLen := 32
        state := .op
        clause45 := kind.clause45
        opcode := some (if kind.firstBits.2.1 then 2 else 0) } false [] kind.opFields false := by
  refine Hears.of_outs ?_
  rintro ⟨fields, times, addr, bus, outs⟩ samplenum rfl rfl
  refine ⟨[], ?_⟩
  rw [List.append_nil]
  cases kind <;> exact ⟨rfl, rfl, rfl, rfl⟩

variable (bit : Bool)

theorem hears_portadFirst : Hears options bit kind.opFields false [.op kind.op]
      (kind.portadFields (0 ||| bit.toNat <<< 4) 4) false := by
  refine Hears.of_outs ?_
  rintro ⟨fields, times, addr, bus, outs⟩ samplenum rfl rfl
  refine ⟨[.op times.ssFrameField times.prevSamplenum kind.op], ?_⟩
  cases kind <;> exact ⟨rfl, rfl, rfl, rfl⟩

theorem hears_portad (portad left : Nat) :
    Hears options bit (kind.portadFields portad (left + 2)) false []
      (kind.portadFields (portad ||| bit.toNat <<< (left + 1)) (left + 1)) false := by
  refine Hears.of_outs ?_
  rintro ⟨fields, times, addr, bus, outs⟩ samplenum rfl rfl
  exact ⟨[], rfl, rfl, (List.append_nil _).symm, rfl⟩

theorem hears_portadLast (portad : Nat) :
    Hears options bit (kind.portadFields portad 1) false []
      (kind.portadDone (portad ||| bit.toNat)) false := by
  refine Hears.of_outs ?_
  rintro ⟨fields, times, addr, bus, outs⟩ samplenum rfl rfl
  exact ⟨[], rfl, rfl, (List.append_nil _).symm, rfl⟩

theorem hears_devadFirst (portad : Nat) :
    Hears options bit (kind.portadDone portad) false [.portad kind.clause45 portad]
      (kind.devadFields portad (0 ||| bit.toNat <<< 4) 4) false := by
  refine Hears.of_outs ?_
  rintro ⟨fields, times, addr, bus, outs⟩ samplenum rfl rfl
  exact ⟨[.portad times.ssFrameField times.prevSamplenum kind.clause45 portad], rfl, rfl, rfl, rfl⟩

theorem hears_devad (portad devad left : Nat) :
    Hears options bit (kind.devadFields portad devad (left + 2)) false []
      (kind.devadFields portad (devad ||| bit.toNat <<< (left + 1)) (left + 1)) false := by
  refine Hears.of_outs ?_
  rintro ⟨fields, times, addr, bus, outs⟩ samplenum rfl rfl
  exact ⟨[], rfl, rfl, (List.append_nil _).symm, rfl⟩

theorem hears_devadLast (portad devad : Nat) :
    Hears options bit (kind.devadFields portad devad 1) false []
      (kind.devadDone portad (devad ||| bit.toNat)) false := by
  refine Hears.of_outs ?_
  rintro ⟨fields, times, addr, bus, outs⟩ samplenum rfl rfl
  exact ⟨[], rfl, rfl, (List.append_nil _).symm, rfl⟩

theorem hears_turnaround {bit : Bool} (driven : kind.reads ∨ bit = true) (portad devad : Nat) :
    Hears options bit (kind.devadDone portad devad) false [.devad kind.clause45 devad]
      { kind.devadDone portad devad with taFirstBit := false } false := by
  refine Hears.of_outs ?_
  rintro ⟨fields, times, addr, bus, outs⟩ samplenum rfl rfl
  refine ⟨[.devad times.ssFrameField times.prevSamplenum kind.clause45 devad], ?_⟩
  rcases driven with reads | rfl
  · cases kind <;> cases bit <;>
      first
        | exact ⟨rfl, rfl, rfl, rfl⟩
        | exact Bool.noConfusion reads
  · exact ⟨rfl, rfl, rfl, rfl⟩

theorem hears_turned (portad devad : Nat) :
    Hears options false { kind.devadDone portad devad with taFirstBit := false } false []
      (kind.turned portad devad) false := by
  refine Hears.of_outs ?_
  rintro ⟨fields, times, addr, bus, outs⟩ samplenum rfl rfl
  exact ⟨[], rfl, rfl, (List.append_nil _).symm, rfl⟩

theorem hears_dataFirst (bit : Bool) (portad devad : Nat) :
    Hears options bit (kind.turned portad devad) false []
      (kind.dataFields portad devad (0 ||| bit.toNat <<< 15) 15) false := by
  refine Hears.of_outs ?_
  rintro ⟨fields, times, addr, bus, outs⟩ samplenum rfl rfl
  exact ⟨[.ta times.ssFrameField times.prevSamplenum], rfl, rfl, rfl, rfl⟩

theorem hears_data (bit : Bool) (portad devad data left : Nat) :
    Hears options bit (kind.dataFields portad devad data (left + 2)) false []
      (kind.dataFields portad devad (data ||| bit.toNat <<< (left + 1)) (left + 1)) false := by
  refine Hears.of_outs ?_
  rintro ⟨fields, times, addr, bus, outs⟩ samplenum rfl rfl
  exact ⟨[], rfl, rfl, (List.append_nil _).symm, rfl⟩

section LastBit

variable {kind : MdioKind} {portad devad data : Nat} {reports : List MdioReport} {s : MdioState}

theorem Follows.keepAddr {fields : MdioFields} (follows : s.Follows fields false reports)
    (data : Nat) : (s.keepAddr data).Follows fields false reports := by
  rw [MdioState.keepAddr]
  split
  · exact { follows with }
  · exact follows

theorem Follows.incrementAddr {fields : MdioFields} (follows : s.Follows fields false reports) :
    s.incrementAddr.Follows fields false reports := by
  rw [MdioState.incrementAddr]
  split
  · exact { follows with }
  · exact follows

theorem Follows.putDecoded
    (follows : s.Follows (kind.dataFields portad devad data 0) false reports) (es : Nat) :
    (s.putDecoded data es).Follows (kind.dataFields portad devad data 0) false
      (reports ++ if kind = .addr then [] else
        [.decode kind.clause45 kind.reads portad devad data false]) := by
  have shown := (follows.put (.decode s.times.ssFrame es (s.decoded data))).put
    (.proto s.times.ssFrame es (s.decoded data))
  rw [MdioState.putDecoded, follows.fields]
  by_cases address : kind = .addr
  · subst address
    rw [if_pos rfl, List.append_nil]
    exact follows
  · have known : 0 < (some kind.opcode).getD 0 ∨ kind.clause45 = false := by
      cases kind <;> first | exact absurd rfl address | decide
    rw [if_neg address]
    refine (if_pos known).symm ▸ ⟨shown.fields, shown.illegal, shown.reports.trans ?_⟩
    rw [show (MdioOut.proto s.times.ssFrame es (s.decoded data)).report = none from rfl,
      Option.toList_none, List.append_nil, MdioOut.report, MdioState.decoded, follows.fields]
    cases kind <;> rfl

theorem hears_dataLast (kind : MdioKind) (bit : Bool) (portad devad data : Nat) :
    Hears options bit (kind.dataFields portad devad data 1) false
      (kind.lastReports portad devad (data ||| bit.toNat)) (inPreamble 0) false := by
  refine Hears.of_dispatch fun s samplenum reports before => ?_
  obtain ⟨fields, times, addr, bus, outs⟩ := s
  obtain ⟨rfl, illegal, told⟩ := before
  obtain ⟨read, readIs⟩ : ∃ read, read = data ||| bit.toNat := ⟨_, rfl⟩
  rw [← readIs]
  obtain ⟨s, same⟩ : ∃ s : MdioState, s =
      { fields := kind.dataFields portad devad read 0
        times := { times with bitcount := times.bitcount + 1 }
        clause45Addr := addr
        illegalBus := bus
        outs := outs } := ⟨_, rfl⟩
  have collected : s.Follows (kind.dataFields portad devad read 0) false reports := by
    rw [same]
    exact ⟨rfl, illegal, told⟩
  obtain ⟨es, esIs⟩ : ∃ es, es = times.headSs + mdioQuartileCycleLength times := ⟨_, rfl⟩
  have shown := @Follows.putbit options _ _ _ s collected times.headMdio times.headSs es
  have said := shown.put (.data (s.mdioPutbit options times.headMdio times.headSs es).times.ssFrameField
    es read)
  have ended := ((said.keepAddr read).putDecoded es).incrementAddr
  have states : MdioState.dispatch options
      { fields := kind.dataFields portad devad data 1, times, clause45Addr := addr,
        illegalBus := bus, outs } bit samplenum =
      ((s.mdioPutbit options times.headMdio times.headSs es).mdioPutdata read es).mdioResetState := by
    rw [same, esIs, readIs]
    rfl
  rw [states]
  refine ⟨rfl, ended.illegal, ended.reports.trans ?_⟩
  rw [List.append_assoc]
  rfl

end LastBit

end MdioState

end SigrokDecode
