import SigrokDecode.Decoders.Eeprom24xx

/-!
# Complete EEPROM transactions

Everything that `eeprom24xx_c` tells about a transaction is read from the bytes that it has
kept.  The control words are among them.
-/

set_option linter.dupNamespace false

namespace SigrokDecode

open Foundation EepromState List

inductive EepromReport where
  | operation (cls : EepromClass) (texts : List String)
  | binary (data : List (BitVec 8))

def EepromClass.isOperation : EepromClass → Bool
  | .byteWrite | .pageWrite | .curAddrRead | .randomRead | .seqRandomRead => true
  | .warnings | .controlCode | .addressPin | .rwBit | .wordAddrByte | .dataByte | .controlWord
  | .wordAddr | .data => false

def EepromOut.report : EepromOut → Option EepromReport
  | .ann _ _ cls texts => if cls.isOperation then some (.operation cls texts) else none
  | .binary _ _ data => some (.binary data)

namespace EepromState

def reports (s : EepromState) : List EepromReport :=
  s.outs.filterMap EepromOut.report

variable {chip : EepromChip}

variable (s : EepromState)

theorem reports_put (ss es : Nat) (cls : EepromClass) (texts : List String) :
    (s.put ss es cls texts).reports =
      s.reports ++ if cls.isOperation then [.operation cls texts] else [] := by
  rw [reports, put, filterMap_append]
  cases cls <;> rfl

theorem reports_quiet (ss es : Nat) {cls : EepromClass}
    (quiet : cls.isOperation = false) (texts : List String) :
    (s.put ss es cls texts).reports = s.reports := by
  rw [reports_put, quiet, if_neg Bool.false_ne_true, List.append_nil]

theorem reports_putBin (data : List (BitVec 8)) :
    (s.putBin data).reports = s.reports ++ [EepromReport.binary data] := by
  rw [reports, putBin, filterMap_append]
  rfl

theorem reports_putWarning (msg : String) : (s.putWarning msg).reports = s.reports :=
  reports_quiet s _ _ rfl _

theorem reports_putAddressPins (pins : Nat) : (s.putAddressPins pins).reports = s.reports := by
  induction pins generalizing s with
  | zero => rfl
  | succ pin ih =>
      rw [putAddressPins, ih, reports_quiet _ _ _ rfl]

theorem reports_putControlWord : (s.putControlWord chip).reports = s.reports := by
  rw [putControlWord]
  split
  · rfl
  · rw [reports_quiet _ _ _ rfl, reports_quiet _ _ _ rfl, reports_putAddressPins,
      reports_quiet _ _ _ rfl]

theorem reports_putWordAddr : (s.putWordAddr chip).reports = s.reports := by
  rw [putWordAddr]
  split
  · split
    · exact (reports_quiet _ _ _ rfl _).trans (reports_quiet s _ _ rfl _)
    · rfl
  · split
    · exact (reports_quiet _ _ _ rfl _).trans
        ((reports_quiet _ _ _ rfl _).trans (reports_quiet s _ _ rfl _))
    · rfl

theorem reports_putEachByte (packets : List EepromPacket) :
    (s.putEachByte chip packets).reports = s.reports := by
  induction packets generalizing s with
  | nil => rfl
  | cons p packets ih =>
      rw [putEachByte, ih]
      exact reports_quiet s _ _ rfl _

theorem reports_putDataField (packets : List EepromPacket) :
    (s.putDataField packets).reports = s.reports := by
  rw [putDataField]
  split
  · exact reports_quiet s _ _ rfl _
  · rfl

theorem reports_warnPage (written initialAddr : Int) :
    (s.warnPage chip written initialAddr).reports = s.reports := by
  rw [warnPage]
  split <;> split <;> simp only [reports_putWarning]

theorem bytebuf_putEachByte (packets : List EepromPacket) :
    (s.putEachByte chip packets).bytebuf = s.bytebuf := by
  induction packets generalizing s with
  | nil => rfl
  | cons p packets ih =>
      rw [putEachByte, ih]
      rfl

theorem bytebuf_putDataField (packets : List EepromPacket) :
    (s.putDataField packets).bytebuf = s.bytebuf := by
  rw [putDataField]
  split <;> rfl

theorem bytebuf_putWordAddr : (s.putWordAddr chip).bytebuf = s.bytebuf := by
  rw [putWordAddr]
  split <;> split <;> rfl

theorem reports_putDataBytes (idx : Nat) {cls : EepromClass}
    (loud : cls.isOperation = true) (opName : String)
    (more : s.bytebuf.drop chip.addrBytes ≠ []) :
    (s.putDataBytes chip idx cls opName).reports = s.reports ++
      [EepromReport.operation cls [operationText opName
        (s.bytebuf.take (if chip.addrBytes = 1 then 1 else 2))
        (s.bytebuf.drop chip.addrBytes)], .binary (s.bytebuf.drop chip.addrBytes)] := by
  rw [putDataBytes]
  simp only [bytebuf_putDataField, bytebuf_putEachByte]
  rw [if_neg more, reports_putBin, putb, reports_put, loud, if_pos rfl, reports_putDataField,
    reports_putEachByte, List.append_assoc]
  rfl

/-! ## Steps -/

structure Knows (state : EepromPhase) (bytes : List (BitVec 8)) (flags : EepromFlags)
    (reports : List EepromReport) (s : EepromState) : Prop where
  state : s.state = state
  bytebuf : s.bytebuf = bytes
  packets : s.packets.length = bytes.length
  flags : s.flags = flags
  reports : s.reports = reports

/-- A run has left `bytebuf`, or has come to a state like this. -/
def Reaches (limit : Nat) (goal : EepromState → Prop) : Option EepromState → Prop
  | none => eepromMaxPackets < limit
  | some s => goal s

theorem Reaches.bind {limit : Nat} {first second : EepromState → Prop}
    {run : Option EepromState} {next : EepromState → Option EepromState}
    (reaches : Reaches limit first run)
    (goes : ∀ s, first s → Reaches limit second (next s)) :
    Reaches limit second (run >>= next) := by
  cases run with
  | none => exact reaches
  | some s => exact goes s reaches

/-- The events without the bits, which are for the annotations of a control word. -/
def isMessage : I2cProto → Bool
  | .bits _ => false
  | _ => true

def messages (events : List (Nat × Nat × I2cProto)) : List I2cProto :=
  (events.map fun event => event.2.2).filter isMessage

/-- These messages lead from states of one kind to states of another kind, whenever they come and
whatever bits there are between them. -/
def Leads (chip : EepromChip) (limit : Nat) (cmds : List I2cProto)
    (first second : EepromState → Prop) : Prop :=
  ∀ (events : List (Nat × Nat × I2cProto)) (s : EepromState), messages events = cmds → first s →
    Reaches limit second (s.run chip events)

variable {limit : Nat}

theorem run_append (s : EepromState) (front back : List (Nat × Nat × I2cProto)) :
    s.run chip (front ++ back) = s.run chip front >>= fun t => t.run chip back :=
  foldlM_append

theorem exists_messages_append {events : List (Nat × Nat × I2cProto)}
    {front back : List I2cProto} (same : messages events = front ++ back) :
    ∃ eventsFront eventsBack, events = eventsFront ++ eventsBack ∧
      messages eventsFront = front ∧ messages eventsBack = back := by
  obtain ⟨protosFront, protosBack, protos, frontIs, backIs⟩ := filter_eq_append_iff.mp same
  obtain ⟨eventsFront, eventsBack, eventsAre, mapFront, mapBack⟩ := map_eq_append_iff.mp protos
  exact ⟨eventsFront, eventsBack, eventsAre, by rw [messages, mapFront, frontIs],
    by rw [messages, mapBack, backIs]⟩

theorem Leads.append {front back : List I2cProto} {first second third : EepromState → Prop}
    (leads : Leads chip limit front first second)
    (leadsMore : Leads chip limit back second third) :
    Leads chip limit (front ++ back) first third := by
  intro events s same known
  obtain ⟨eventsFront, eventsBack, rfl, frontIs, backIs⟩ := exists_messages_append same
  rw [run_append]
  exact (leads eventsFront s frontIs known).bind fun t => leadsMore eventsBack t backIs

section Bits

variable {first second : EepromState → Prop}

def Bitless (known : EepromState → Prop) : Prop :=
  ∀ (s : EepromState) (ss es : Nat) (bits : List I2cBit), known s → known { s with ss, es, bits }

theorem run_bits (bitless : Bitless first) {events : List (Nat × Nat × I2cProto)}
    (quiet : messages events = []) {s : EepromState} (known : first s) :
    ∃ t, s.run chip events = some t ∧ first t := by
  induction events generalizing s with
  | nil => exact ⟨s, rfl, known⟩
  | cons event events ih =>
      obtain ⟨ss, es, cmd⟩ := event
      cases cmd with
      | bits bits =>
          exact ih quiet (bitless s ss es bits.reverse known)
      | _ => exact absurd quiet (cons_ne_nil _ _)

theorem Leads.of_step {cmd : I2cProto} (bitlessFirst : Bitless first) (bitlessSecond : Bitless second)
    (step : ∀ s ss es, first s → Reaches limit second (s.recvProto chip ss es cmd)) :
    Leads chip limit [cmd] first second := by
  intro events s same known
  rw [messages, filter_eq_cons_iff] at same
  obtain ⟨protosFront, protosBack, protos, quietFront, -, quietBack⟩ := same
  obtain ⟨eventsFront, eventsBack, rfl, mapFront, mapBack⟩ := map_eq_append_iff.mp protos
  obtain ⟨event, events, rfl, cmdIs, mapEvents⟩ := map_eq_cons_iff.mp mapBack
  obtain ⟨t, runFront, knownFront⟩ := @run_bits chip _ bitlessFirst _
    (show messages eventsFront = [] by
      rw [messages, mapFront, filter_eq_nil_iff]
      exact quietFront) _ known
  rw [run_append, runFront]
  show Reaches limit second (t.recvProto chip event.1 event.2.1 event.2.2 >>= fun u =>
    u.run chip events)
  rw [cmdIs]
  refine (step t event.1 event.2.1 knownFront).bind fun u knownNext => ?_
  obtain ⟨v, runBack, knownBack⟩ := @run_bits chip _ bitlessSecond _
    (show messages events = [] by rw [messages, mapEvents, quietBack]) _ knownNext
  rw [runBack]
  exact knownBack

end Bits

theorem knows_bitless (state : EepromPhase) (bytes : List (BitVec 8)) (flags : EepromFlags)
    (reports : List EepromReport) : Bitless (Knows state bytes flags reports) :=
  fun _ _ _ _ known => { known with }

section Steps

variable {state next : EepromPhase} {bytes : List (BitVec 8)} {flags : EepromFlags}
  {reports : List EepromReport} {cmd : I2cProto}

def Moves (chip : EepromChip) (state : EepromPhase) (cmd : I2cProto) (next : EepromPhase) : Prop :=
  ∀ (s : EepromState) (ss es : Nat), s.state = state →
    ∃ t, s.recvProto chip ss es cmd = some t ∧ t.state = next ∧ t.bytebuf = s.bytebuf ∧
      t.packets = s.packets ∧ t.flags = s.flags ∧ t.outs = s.outs

theorem Moves.leads (moves : Moves chip state cmd next) :
    Leads chip limit [cmd] (Knows state bytes flags reports) (Knows next bytes flags reports) := by
  refine Leads.of_step (knows_bitless _ _ _ _) (knows_bitless _ _ _ _) fun s ss es known => ?_
  obtain ⟨t, goes, there, bytebuf, packets, flagsSame, outs⟩ := moves s ss es known.state
  rw [goes]
  exact ⟨there, bytebuf.trans known.bytebuf, packets ▸ known.packets, flagsSame.trans known.flags,
    (congrArg (filterMap EepromOut.report) outs).trans known.reports⟩

def Keeps (chip : EepromChip) (state : EepromPhase) (cmd : I2cProto) (byte : BitVec 8)
    (next : EepromPhase) : Prop :=
  ∀ (s : EepromState) (ss es : Nat), s.state = state → ∃ change : EepromState → EepromState,
      s.recvProto chip ss es cmd = (packetAppend { s with ss, es } byte).map change ∧
      ∀ t, (change t).state = next ∧ (change t).bytebuf = t.bytebuf ∧
        (change t).packets = t.packets ∧ (change t).flags = t.flags ∧
        (change t).reports = t.reports

theorem Keeps.leads {byte : BitVec 8} (keeps : Keeps chip state cmd byte next)
    (room : bytes.length < limit) :
    Leads chip limit [cmd] (Knows state bytes flags reports)
      (Knows next (bytes ++ [byte]) flags reports) := by
  refine Leads.of_step (knows_bitless _ _ _ _) (knows_bitless _ _ _ _) fun s ss es known => ?_
  obtain ⟨change, goes, changed⟩ := keeps s ss es known.state
  rw [goes, packetAppend]
  by_cases fits : s.bytebuf.length < eepromMaxPackets
  · have packetsFit : s.packets.length < eepromMaxPackets := by
      rw [known.packets, ← known.bytebuf]
      exact fits
    rw [if_pos fits, if_pos packetsFit]
    obtain ⟨there, bytebuf, packets, flagsSame, reportsSame⟩ := changed
      { s with
        ss
        es
        packets := s.packets ++ [⟨ss, es, byte⟩]
        bytebuf := s.bytebuf ++ [byte] }
    refine ⟨there, bytebuf.trans ?_, ?_, flagsSame.trans known.flags,
      reportsSame.trans known.reports⟩
    · exact congrArg (· ++ [byte]) known.bytebuf
    · rw [packets, length_append, length_append, known.packets]
      rfl
  · rw [if_neg fits]
    rw [known.bytebuf] at fits
    exact Nat.lt_of_le_of_lt (Nat.not_lt.mp fits) room

theorem keeps_of_keep {byte : BitVec 8}
    (keeps : ∀ (s : EepromState) (ss es : Nat), s.state = state →
      s.recvProto chip ss es cmd = keep { s with ss, es } byte next) :
    Keeps chip state cmd byte next :=
  fun s ss es known => ⟨(goto · next), keeps s ss es known, fun _ => ⟨rfl, rfl, rfl, rfl, rfl⟩⟩

theorem putAddressPins_eq (s : EepromState) (pins : Nat) :
    ∃ outs, s.putAddressPins pins = { s with outs } := by
  induction pins generalizing s with
  | zero => exact ⟨s.outs, rfl⟩
  | succ pin ih =>
      rw [putAddressPins]
      exact ih _

theorem putControlWord_eq (s : EepromState) : ∃ outs, s.putControlWord chip = { s with outs } := by
  rw [putControlWord]
  split
  · exact ⟨s.outs, rfl⟩
  · obtain ⟨outs, same⟩ := putAddressPins_eq (s.put (s.bit 7).ss (s.bit 4).es .controlCode
      ["Control code bits: " ++ (s.bitText 7 ++ s.bitText 6 ++ s.bitText 5 ++ s.bitText 4),
        "Control code: " ++ (s.bitText 7 ++ s.bitText 6 ++ s.bitText 5 ++ s.bitText 4),
        "Ctrl code: " ++ (s.bitText 7 ++ s.bitText 6 ++ s.bitText 5 ++ s.bitText 4),
        "Ctrl code", "Ctrl", "C"]) chip.addrPins
    dsimp only
    rw [same]
    exact ⟨_, rfl⟩

theorem keeps_controlWord (write : Bool) (byte : BitVec 8) :
    Keeps chip .getControlWord (.address write byte) byte
      (if write then .wGetAckNackAfterCw else .rGetAckNackAfterCw) := by
  rintro ⟨⟩ ss es rfl
  refine ⟨controlWordKept chip write, rfl, fun t => ?_⟩
  have quiet := @reports_putControlWord chip t
  obtain ⟨outs, same⟩ := @putControlWord_eq chip t
  rw [same] at quiet
  rw [controlWordKept, same]
  exact ⟨rfl, rfl, rfl, rfl, quiet⟩

end Steps

section Parts

variable {bytes : List (BitVec 8)} {flags : EepromFlags} {reports : List EepromReport}

theorem Leads.weaken {first second third : EepromState → Prop} {cmds : List I2cProto}
    (leads : Leads chip limit cmds first second) (weaker : ∀ s, second s → third s) :
    Leads chip limit cmds first third := by
  intro events s same known
  have reached := leads events s same known
  cases ran : s.run chip events with
  | none =>
      rw [ran] at reached
      exact reached
  | some t =>
      rw [ran] at reached
      exact weaker t reached

theorem leads_control (write : Bool) (address : BitVec 8) (room : 0 < limit) :
    Leads chip limit [.start, .address write address, .ack] (Knows .waitForStart [] flags reports)
      (Knows (if write then .wGetWordAddr else .rGetWordAddrOrByte) [address] flags reports) := by
  have start : Moves chip .waitForStart .start .getControlWord := by
    rintro ⟨⟩ ss es rfl
    exact ⟨_, rfl, rfl, rfl, rfl, rfl, rfl⟩
  have ack : Moves chip (if write then .wGetAckNackAfterCw else .rGetAckNackAfterCw) .ack
      (if write then .wGetWordAddr else .rGetWordAddrOrByte) := by
    cases write <;> rintro ⟨⟩ ss es rfl <;> exact ⟨_, rfl, rfl, rfl, rfl, rfl, rfl⟩
  exact (start.leads.append ((keeps_controlWord write address).leads room)).append ack.leads

def writeMessages (data : List (BitVec 8)) : List I2cProto :=
  data.flatMap fun byte => [.data true byte, .ack]

def readMessages (data : List (BitVec 8)) : List I2cProto :=
  data.flatMap fun byte => [.data false byte, .ack]

theorem leads_writeByte {state : EepromPhase} (byte : BitVec 8)
    (writes : state = .wDetermineReadOrWrite ∨ state = .wWriteByte) (room : bytes.length < limit) :
    Leads chip limit [.data true byte, .ack] (Knows state bytes flags reports)
      (Knows .wWriteByte (bytes ++ [byte]) flags reports) := by
  have keeps : Keeps chip state (.data true byte) byte .wGetAckNackAfterByteWritten := by
    refine keeps_of_keep ?_
    rcases writes with rfl | rfl <;> rintro ⟨⟩ ss es rfl <;> rfl
  have ack : Moves chip .wGetAckNackAfterByteWritten .ack .wWriteByte := by
    rintro ⟨⟩ ss es rfl
    exact ⟨_, rfl, rfl, rfl, rfl, rfl, rfl⟩
  exact (keeps.leads room).append ack.leads

theorem Leads.nil {first : EepromState → Prop} (bitless : Bitless first) :
    Leads chip limit [] first first := by
  intro events s quiet known
  obtain ⟨t, ran, knownAfter⟩ := @run_bits chip _ bitless _ quiet _ known
  rw [ran]
  exact knownAfter

theorem leads_writeBytes (data : List (BitVec 8)) (room : bytes.length + data.length ≤ limit) :
    Leads chip limit (writeMessages data) (Knows .wWriteByte bytes flags reports)
      (Knows .wWriteByte (bytes ++ data) flags reports) := by
  induction data generalizing bytes with
  | nil =>
      rw [List.append_nil]
      exact Leads.nil (knows_bitless _ _ _ _)
  | cons byte data ih =>
      rw [length_cons] at room
      have first : Leads chip limit [.data true byte, .ack] (Knows .wWriteByte bytes flags reports)
          (Knows .wWriteByte (bytes ++ [byte]) flags reports) :=
        leads_writeByte byte (Or.inr rfl) (by omega)
      have rest := @ih (bytes ++ [byte]) (by
        rw [length_append, length_singleton]
        omega)
      rw [List.append_assoc, singleton_append] at rest
      exact first.append rest

theorem leads_readBytes (data : List (BitVec 8)) (room : bytes.length + data.length ≤ limit) :
    Leads chip limit (readMessages data) (Knows .r2ReadByte bytes flags reports)
      (Knows .r2ReadByte (bytes ++ data) flags reports) := by
  induction data generalizing bytes with
  | nil =>
      rw [List.append_nil]
      exact Leads.nil (knows_bitless _ _ _ _)
  | cons byte data ih =>
      rw [length_cons] at room
      have keeps : Keeps chip .r2ReadByte (.data false byte) byte .r2GetAckNackAfterByteRead := by
        refine keeps_of_keep ?_
        rintro ⟨⟩ ss es rfl
        rfl
      have ack : Moves chip .r2GetAckNackAfterByteRead .ack .r2ReadByte := by
        rintro ⟨⟩ ss es rfl
        exact ⟨_, rfl, rfl, rfl, rfl, rfl, rfl⟩
      have first : Leads chip limit [.data false byte, .ack] (Knows .r2ReadByte bytes flags reports)
          (Knows .r2ReadByte (bytes ++ [byte]) flags reports) :=
        (keeps.leads (by omega)).append ack.leads
      have rest := @ih (bytes ++ [byte]) (by
        rw [length_append, length_singleton]
        omega)
      rw [List.append_assoc, singleton_append] at rest
      exact first.append rest

end Parts

def wordKept (chip : EepromChip) (bytes : List (BitVec 8)) : List (BitVec 8) :=
  bytes.take (if chip.addrBytes = 1 then 1 else 2)

def keptReports (chip : EepromChip) (cls : EepromClass) (opName : String)
    (bytes : List (BitVec 8)) : List EepromReport :=
  [.operation cls [operationText opName (wordKept chip bytes) (bytes.drop chip.addrBytes)],
    .binary (bytes.drop chip.addrBytes)]

theorem reports_pageWrite (s : EepromState)
    (flags : s.flags = { EepromFlags.none with isPageWrite := true })
    (more : s.bytebuf.drop chip.addrBytes ≠ []) :
    (s.putOperation chip).reports =
      s.reports ++ keptReports chip .pageWrite "Page write" s.bytebuf := by
  have same := @bytebuf_putWordAddr chip s
  rw [putOperation, flags]
  refine (reports_warnPage _ _ _).trans ?_
  rw [reports_putDataBytes _ _ rfl _ (by rwa [same]), same, reports_putWordAddr]
  rfl

theorem reports_seqRandomRead (s : EepromState)
    (flags : s.flags = { EepromFlags.none with isSeqRandomRead := true })
    (more : s.bytebuf.drop chip.addrBytes ≠ []) :
    (s.putOperation chip).reports =
      s.reports ++ keptReports chip .seqRandomRead "Sequential random read" s.bytebuf := by
  have same := @bytebuf_putWordAddr chip s
  rw [putOperation, flags]
  refine (reports_putDataBytes _ _ rfl _ (by rwa [same])).trans ?_
  rw [same, reports_putWordAddr]
  rfl

theorem reports_curAddrRead (s : EepromState)
    (flags : s.flags = { EepromFlags.none with isCurAddrRead := true })
    {address byte : BitVec 8} (bytes : s.bytebuf = [address, byte])
    (packets : s.packets.length = 2) :
    (s.putOperation chip).reports =
      s.reports ++
        [EepromReport.operation .curAddrRead [curAddrReadText address], .binary [address]] := by
  obtain ⟨first, second, two⟩ := length_eq_two.mp packets
  rw [putOperation, flags]
  show (s.putCurAddrRead chip).reports = _
  rw [putCurAddrRead, two, bytes]
  refine (reports_putBin _ _).trans ?_
  have loud : EepromClass.curAddrRead.isOperation = true := rfl
  rw [putb, reports_put, if_pos loud, reports_quiet _ _ _ rfl, putDataByte,
    reports_quiet _ _ _ rfl, List.append_assoc]
  rfl

/-- Between two transactions. -/
def Idle (reports : List EepromReport) : EepromState → Prop :=
  Knows .waitForStart [] .none reports

theorem idle_resetVariables (s : EepromState) : Idle s.reports s.resetVariables :=
  ⟨rfl, rfl, rfl, rfl, rfl⟩

variable {s : EepromState}

theorem recvProto_stop {t : EepromState} {ss es : Nat}
    (goes : dispatch chip { s with ss, es } ss es .stop = some t.resetVariables) :
    s.recvProto chip ss es .stop = some t.resetVariables := by
  rw [recvProto, goes]
  rfl

theorem dispatch_stopWrite (state : s.state = .wWriteByte) (ss es : Nat) :
    dispatch chip s ss es .stop = some (s.stopWrite chip es) := by
  obtain ⟨⟩ := s
  obtain rfl := state
  rfl

theorem dispatch_stopRead (state : s.state = .getStopAfterLastByte) (ss es : Nat) :
    dispatch chip s ss es .stop =
      some (putOperation chip { s with esBlock := es }).resetVariables := by
  obtain ⟨⟩ := s
  obtain rfl := state
  rfl

theorem leads_stopWrite {bytes : List (BitVec 8)} {reports : List EepromReport}
    (many : 2 < bytes.length) (more : bytes.drop chip.addrBytes ≠ []) :
    Leads chip limit [.stop] (Knows .wWriteByte bytes .none reports)
      (Idle (reports ++ keptReports chip .pageWrite "Page write" bytes)) := by
  refine Leads.of_step (knows_bitless _ _ _ _) (knows_bitless _ _ _ _) fun s ss es known => ?_
  obtain ⟨u, uIs⟩ : ∃ u : EepromState, u =
      { s with
        ss
        es
        esBlock := es
        flags := { EepromFlags.none with isPageWrite := true } } := ⟨_, rfl⟩
  have goes : dispatch chip { s with ss, es } ss es .stop =
      some (u.putOperation chip).resetVariables := by
    have stops := @dispatch_stopWrite chip { s with ss, es } known.state ss es
    have enough : ¬ s.bytebuf.length < 2 := by
      rw [known.bytebuf]
      omega
    have notTwo : s.bytebuf.length ≠ 2 := by
      rw [known.bytebuf]
      omega
    rw [stops, stopWrite, if_neg enough, if_neg notTwo, uIs, known.flags]
  have told := reports_pageWrite u (by rw [uIs]) (by
    rw [uIs, known.bytebuf]
    exact more)
  rw [recvProto_stop goes]
  have idle := idle_resetVariables (u.putOperation chip)
  rw [told] at idle
  rw [uIs] at idle ⊢
  rw [← known.bytebuf, ← known.reports]
  exact idle

theorem leads_stopRead {bytes : List (BitVec 8)} {reports told : List EepromReport}
    {flags : EepromFlags}
    (puts : ∀ s : EepromState, s.flags = flags → s.bytebuf = bytes →
      s.packets.length = bytes.length → (s.putOperation chip).reports = s.reports ++ told) :
    Leads chip limit [.stop] (Knows .getStopAfterLastByte bytes flags reports)
      (Idle (reports ++ told)) := by
  refine Leads.of_step (knows_bitless _ _ _ _) (knows_bitless _ _ _ _) fun s ss es known => ?_
  have goes : dispatch chip { s with ss, es } ss es .stop =
      some (putOperation chip { s with ss, es, esBlock := es }).resetVariables :=
    @dispatch_stopRead chip { s with ss, es } known.state ss es
  have idle := idle_resetVariables (putOperation chip { s with ss, es, esBlock := es })
  rw [puts { s with ss, es, esBlock := es } known.flags known.bytebuf known.packets] at idle
  rw [recvProto_stop goes, ← known.reports]
  exact idle

end EepromState

end SigrokDecode
