import SigrokDecode.Decoders.Eeprom24xxTransactions
import SigrokDecode.Decoders.I2cRoundTrip

/-!
# What EEPROM transactions are taken for

The control words are kept with the other bytes of a transaction, so a write and a random read
are told with them: one operation and one binary output each, but not with the bytes that the
transaction is about.
-/

set_option linter.dupNamespace false

namespace SigrokDecode

open Foundation EepromState List

def EepromClass.opName : EepromClass → String
  | .byteWrite => "Byte write"
  | .pageWrite => "Page write"
  | .randomRead => "Random access read"
  | .seqRandomRead => "Sequential random read"
  | _ => ""

/-- A complete transaction; the data of a write or a random read are `front` and `last`. -/
inductive EepromTransaction (chip : EepromChip) where
  | write (address : BitVec 8) (word front : List (BitVec 8)) (last : BitVec 8)
      (word_length : word.length = chip.addrBytes)
  | currentRead (address byte : BitVec 8)
  | randomRead (address readAddress : BitVec 8) (word front : List (BitVec 8)) (last : BitVec 8)
      (word_length : word.length = chip.addrBytes)

namespace EepromTransaction

variable {chip : EepromChip}

def messages : EepromTransaction chip → List I2cProto
  | .write address word front last _ =>
      [.start, .address true address, .ack] ++ writeMessages word ++
        writeMessages (front ++ [last]) ++ [.stop]
  | .currentRead address byte =>
      [.start, .address false address, .ack, .data false byte, .nack, .stop]
  | .randomRead address readAddress word front last _ =>
      [.start, .address true address, .ack] ++ writeMessages word ++
        [.startRepeat, .address false readAddress, .ack] ++ readMessages front ++
        [.data false last, .nack] ++ [.stop]

def word : EepromTransaction chip → List (BitVec 8)
  | .write _ word _ _ _ | .randomRead _ _ word _ _ _ => word
  | .currentRead _ _ => []

def data : EepromTransaction chip → List (BitVec 8)
  | .write _ _ front last _ | .randomRead _ _ _ front last _ => front ++ [last]
  | .currentRead _ byte => [byte]

def kind : EepromTransaction chip → EepromClass
  | .write _ _ front _ _ => if front = [] then .byteWrite else .pageWrite
  | .currentRead _ _ => .curAddrRead
  | .randomRead _ _ _ front _ _ => if front = [] then .randomRead else .seqRandomRead

def texts (cls : EepromClass) : EepromTransaction chip → List String
  | .currentRead _ byte => [curAddrReadText byte]
  | t => [operationText cls.opName t.word t.data]

def kept : EepromTransaction chip → List (BitVec 8)
  | .write address word front last _ => [address] ++ word ++ (front ++ [last])
  | .currentRead address byte => [address, byte]
  | .randomRead address readAddress word front last _ =>
      [address] ++ word ++ [readAddress] ++ front ++ [last]

def told : EepromTransaction chip → List EepromReport
  | .currentRead address _ =>
      [.operation .curAddrRead [curAddrReadText address], .binary [address]]
  | .write address word front last same =>
      keptReports chip .pageWrite "Page write" (kept (.write address word front last same))
  | .randomRead address readAddress word front last same =>
      keptReports chip .seqRandomRead "Sequential random read"
        (kept (.randomRead address readAddress word front last same))

end EepromTransaction

namespace EepromState

variable {chip : EepromChip} {limit : Nat}

section Reading

variable {bytes : List (BitVec 8)} {flags : EepromFlags} {reports : List EepromReport}

theorem leads_word {word : List (BitVec 8)} (known : word ≠ [])
    (room : bytes.length + word.length ≤ limit) :
    ∃ state, (state = .wDetermineReadOrWrite ∨ state = .wWriteByte) ∧
      Leads chip limit (writeMessages word) (Knows .wGetWordAddr bytes flags reports)
        (Knows state (bytes ++ word) flags reports) := by
  obtain _ | ⟨first, word⟩ := word
  · exact absurd rfl known
  · rw [length_cons] at room
    have keeps : Keeps chip .wGetWordAddr (.data true first) first .wGetAckAfterWordAddr := by
      refine keeps_of_keep ?_
      rintro ⟨⟩ ss es rfl
      rfl
    have ack : Moves chip .wGetAckAfterWordAddr .ack .wDetermineReadOrWrite := by
      rintro ⟨⟩ ss es rfl
      exact ⟨_, rfl, rfl, rfl, rfl, rfl, rfl⟩
    have begun : Leads chip limit [.data true first, .ack] (Knows .wGetWordAddr bytes flags reports)
        (Knows .wDetermineReadOrWrite (bytes ++ [first]) flags reports) :=
      (keeps.leads (by omega)).append ack.leads
    obtain _ | ⟨second, word⟩ := word
    · exact ⟨_, Or.inl rfl, begun⟩
    · rw [length_cons] at room
      have next : Leads chip limit [.data true second, .ack]
          (Knows .wDetermineReadOrWrite (bytes ++ [first]) flags reports)
          (Knows .wWriteByte (bytes ++ [first] ++ [second]) flags reports) :=
        leads_writeByte second (Or.inl rfl) (by
          rw [length_append, length_singleton]
          omega)
      have rest : Leads chip limit (writeMessages word)
          (Knows .wWriteByte (bytes ++ [first] ++ [second]) flags reports)
          (Knows .wWriteByte (bytes ++ [first] ++ [second] ++ word) flags reports) :=
        leads_writeBytes word (by
          rw [length_append, length_append, length_singleton, length_singleton]
          omega)
      refine ⟨_, Or.inr rfl, ?_⟩
      have passed := begun.append (next.append rest)
      rwa [List.append_assoc, List.append_assoc] at passed

theorem leads_written {state : EepromPhase}
    (writes : state = .wDetermineReadOrWrite ∨ state = .wWriteByte) {data : List (BitVec 8)}
    (more : data ≠ []) (room : bytes.length + data.length ≤ limit) :
    Leads chip limit (writeMessages data) (Knows state bytes flags reports)
      (Knows .wWriteByte (bytes ++ data) flags reports) := by
  obtain _ | ⟨first, data⟩ := data
  · exact absurd rfl more
  · rw [length_cons] at room
    have begun : Leads chip limit [.data true first, .ack] (Knows state bytes flags reports)
        (Knows .wWriteByte (bytes ++ [first]) flags reports) :=
      leads_writeByte first writes (by omega)
    have rest : Leads chip limit (writeMessages data)
        (Knows .wWriteByte (bytes ++ [first]) flags reports)
        (Knows .wWriteByte (bytes ++ [first] ++ data) flags reports) :=
      leads_writeBytes data (by
        rw [length_append, length_singleton]
        omega)
    have passed := begun.append rest
    rwa [List.append_assoc] at passed

theorem leads_restart {state : EepromPhase}
    (writes : state = .wDetermineReadOrWrite ∨ state = .wWriteByte) (readAddress : BitVec 8)
    (room : bytes.length < limit) :
    Leads chip limit [.startRepeat, .address false readAddress, .ack]
      (Knows state bytes flags reports)
      (Knows .r2ReadByte (bytes ++ [readAddress]) flags reports) := by
  have start : Moves chip state .startRepeat .r2GetControlWord := by
    rcases writes with rfl | rfl <;> rintro ⟨⟩ ss es rfl <;>
      exact ⟨_, rfl, rfl, rfl, rfl, rfl, rfl⟩
  have keeps : Keeps chip .r2GetControlWord (.address false readAddress) readAddress
      .r2GetAckAfterAddrRead := by
    refine keeps_of_keep ?_
    rintro ⟨⟩ ss es rfl
    rfl
  have ack : Moves chip .r2GetAckAfterAddrRead .ack .r2ReadByte := by
    rintro ⟨⟩ ss es rfl
    exact ⟨_, rfl, rfl, rfl, rfl, rfl, rfl⟩
  exact (start.leads.append (keeps.leads room)).append ack.leads

theorem dispatch_nack {s : EepromState} (state : s.state = .r2GetAckNackAfterByteRead)
    (ss es : Nat) :
    s.recvProto chip ss es .nack =
      some ((decideOnSeqOrRndRead { s with ss, es }).goto .getStopAfterLastByte) := by
  obtain ⟨⟩ := s
  obtain rfl := state
  rfl

theorem leads_readLast (last : BitVec 8) (many : 1 < bytes.length) (room : bytes.length < limit) :
    Leads chip limit [.data false last, .nack] (Knows .r2ReadByte bytes .none reports)
      (Knows .getStopAfterLastByte (bytes ++ [last])
        { EepromFlags.none with isSeqRandomRead := true } reports) := by
  have keeps : Keeps chip .r2ReadByte (.data false last) last .r2GetAckNackAfterByteRead := by
    refine keeps_of_keep ?_
    rintro ⟨⟩ ss es rfl
    rfl
  refine (keeps.leads room).append (Leads.of_step (knows_bitless _ _ _ _)
    (knows_bitless _ _ _ _) fun s ss es known => ?_)
  have length : s.bytebuf.length = bytes.length + 1 := by
    rw [known.bytebuf, length_append, length_singleton]
  have enough : ¬ s.bytebuf.length < 2 := by omega
  have notTwo : s.bytebuf.length ≠ 2 := by omega
  rw [dispatch_nack known.state, decideOnSeqOrRndRead, if_neg enough, if_neg notTwo]
  refine { known with state := rfl, flags := ?_ }
  exact congrArg (fun f : EepromFlags => { f with isSeqRandomRead := true }) known.flags

theorem leads_currentRead (address byte : BitVec 8) (room : 1 < limit) :
    Leads chip limit [.start, .address false address, .ack, .data false byte, .nack, .stop]
      (Idle reports)
      (Idle (reports ++
        [EepromReport.operation .curAddrRead [curAddrReadText address], .binary [address]])) := by
  have keeps : Keeps chip .rGetWordAddrOrByte (.data false byte) byte
      .rGetAckNackAfterWordAddrOrByte := by
    refine keeps_of_keep ?_
    rintro ⟨⟩ ss es rfl
    rfl
  have nack : Leads chip limit [.nack]
      (Knows .rGetAckNackAfterWordAddrOrByte [address, byte] .none reports)
      (Knows .getStopAfterLastByte [address, byte]
        { EepromFlags.none with isCurAddrRead := true } reports) := by
    refine Leads.of_step (knows_bitless _ _ _ _) (knows_bitless _ _ _ _) ?_
    rintro ⟨⟩ ss es ⟨rfl, bytebuf, packets, rfl, told⟩
    exact ⟨rfl, bytebuf, packets, rfl, told⟩
  have control : Leads chip limit [.start, .address false address, .ack] (Idle reports)
      (Knows .rGetWordAddrOrByte [address] .none reports) :=
    leads_control false address (by omega)
  have stop := @leads_stopRead chip limit [address, byte] reports
    [.operation .curAddrRead [curAddrReadText address], .binary [address]]
    { EepromFlags.none with isCurAddrRead := true }
    (fun s flags bytes packets => reports_curAddrRead s flags bytes packets)
  exact ((control.append (keeps.leads room)).append nack).append stop

theorem leads_addressed (address : BitVec 8) {word : List (BitVec 8)} (known : word ≠ [])
    (room : 1 + word.length ≤ limit) :
    ∃ state, (state = .wDetermineReadOrWrite ∨ state = .wWriteByte) ∧
      Leads chip limit ([.start, .address true address, .ack] ++ writeMessages word) (Idle reports)
        (Knows state ([address] ++ word) .none reports) := by
  obtain ⟨state, writes, word⟩ := @leads_word chip limit [address] .none reports word known room
  exact ⟨state, writes, (leads_control true address (by omega)).append word⟩

end Reading

theorem leads_transaction (t : EepromTransaction chip) (bytes : 0 < chip.addrBytes)
    {reports : List EepromReport} (room : t.kept.length ≤ limit) :
    Leads chip limit t.messages (Idle reports) (Idle (reports ++ t.told)) := by
  cases t with
  | currentRead address byte => exact leads_currentRead address byte room
  | write address word front last same =>
      simp only [EepromTransaction.kept, length_append, length_singleton] at room
      obtain ⟨state, writes, addressed⟩ := @leads_addressed chip limit reports address word
        (ne_nil_of_length_pos (same ▸ bytes)) (by omega)
      have written := @leads_written chip limit ([address] ++ word) .none reports state writes
        (front ++ [last]) (append_ne_nil_of_right_ne_nil _ (cons_ne_nil _ _)) (by
          simp only [length_append, length_singleton]
          omega)
      have stop : Leads chip limit [.stop]
          (Knows .wWriteByte ([address] ++ word ++ (front ++ [last])) .none reports) _ :=
        leads_stopWrite (by
          simp only [length_append, length_singleton]
          omega) (ne_nil_of_length_pos (by
          simp only [length_drop, length_append, length_singleton]
          omega))
      exact (addressed.append written).append stop
  | randomRead address readAddress word front last same =>
      simp only [EepromTransaction.kept, length_append, length_singleton] at room
      obtain ⟨state, writes, addressed⟩ := @leads_addressed chip limit reports address word
        (ne_nil_of_length_pos (same ▸ bytes)) (by omega)
      have restart := @leads_restart chip limit ([address] ++ word) .none reports state writes
        readAddress (by
          simp only [length_append, length_singleton]
          omega)
      have read := @leads_readBytes chip limit ([address] ++ word ++ [readAddress]) .none reports
        front (by
          simp only [length_append, length_singleton]
          omega)
      have readLast := @leads_readLast chip limit ([address] ++ word ++ [readAddress] ++ front)
        reports last (by
          simp only [length_append, length_singleton]
          omega) (by
          simp only [length_append, length_singleton]
          omega)
      have stop := @leads_stopRead chip limit
        ([address] ++ word ++ [readAddress] ++ front ++ [last]) reports
        (keptReports chip .seqRandomRead "Sequential random read"
          ([address] ++ word ++ [readAddress] ++ front ++ [last]))
        { EepromFlags.none with isSeqRandomRead := true }
        (fun s flags bytes _ => bytes ▸ reports_seqRandomRead s flags (bytes ▸
          ne_nil_of_length_pos (by
            simp only [length_drop, length_append, length_singleton]
            omega)))
      exact (((addressed.append restart).append read).append readLast).append stop

end EepromState

section Captures

variable {chip : EepromChip} {limit : Nat}

def EepromTold : List (EepromTransaction chip) → List EepromReport → Prop
  | [], reports => reports = []
  | t :: transactions, reports => ∃ cls more,
      reports = .operation cls (t.texts cls) :: .binary t.data :: more ∧
      (chip.addrBytes = 1 → cls = t.kind) ∧ EepromTold transactions more

/-- The decoder gets through these events, and tells the transactions as they are. -/
def EepromReported (addrCounter : Int) (transactions : List (EepromTransaction chip))
    (events : List (Nat × Nat × I2cProto)) : Prop :=
  ∃ s, (EepromState.start addrCounter).run chip events = some s ∧ EepromTold transactions s.reports

theorem leads_transactions (bytes : 0 < chip.addrBytes)
    (transactions : List (EepromTransaction chip)) (reports : List EepromReport)
    (room : ∀ t ∈ transactions, t.kept.length ≤ limit) :
    Leads chip limit (transactions.flatMap EepromTransaction.messages) (Idle reports)
      (Idle (reports ++ transactions.flatMap EepromTransaction.told)) := by
  induction transactions generalizing reports with
  | nil =>
      rw [flatMap_nil, flatMap_nil, List.append_nil]
      exact Leads.nil (knows_bitless _ _ _ _)
  | cons t transactions ih =>
      have first : Leads chip limit t.messages (Idle reports) (Idle (reports ++ t.told)) :=
        leads_transaction t bytes (room t mem_cons_self)
      have rest := ih (reports ++ t.told) fun more member => room more (mem_cons_of_mem _ member)
      rw [flatMap_cons, flatMap_cons, ← List.append_assoc]
      exact first.append rest

theorem addrBytes_pos : ∀ chip ∈ chipTable, 0 < chip.addrBytes := by
  decide

theorem told_binary_eq_iff (t : EepromTransaction chip) {cls : EepromClass} {texts : List String}
    {data : List (BitVec 8)} (told : t.told = [.operation cls texts, .binary data]) :
    data = t.data ↔ ∃ address, t = .currentRead address address := by
  cases t with
  | currentRead address byte =>
      have same : [address] = data := by
        have both := (List.cons.inj told).2
        exact EepromReport.binary.inj (List.cons.inj both).1
      subst same
      constructor
      · intro same
        obtain rfl := (List.cons.inj same).1
        exact ⟨address, rfl⟩
      · rintro ⟨_, same⟩
        obtain ⟨rfl, rfl⟩ := EepromTransaction.currentRead.inj same
        rfl
  | write address word front last length =>
      have same := (List.cons.inj (List.cons.inj told).2).1
      have dataIs := EepromReport.binary.inj same
      refine iff_of_false (fun same => ?_) ?_
      case refine_2 =>
        rintro ⟨_, same⟩
        cases same
      have lengths := congrArg List.length (dataIs.trans same)
      simp only [EepromTransaction.kept, EepromTransaction.data, length_drop,
        length_append, length_singleton] at lengths
      omega
  | randomRead address readAddress word front last length =>
      have same := (List.cons.inj (List.cons.inj told).2).1
      have dataIs := EepromReport.binary.inj same
      refine iff_of_false (fun same => ?_) ?_
      case refine_2 =>
        rintro ⟨_, same⟩
        cases same
      have lengths := congrArg List.length (dataIs.trans same)
      simp only [EepromTransaction.kept, EepromTransaction.data, length_drop,
        length_append, length_singleton] at lengths
      omega

theorem exists_told (t : EepromTransaction chip) :
    ∃ cls texts data, t.told = [.operation cls texts, .binary data] := by
  cases t <;> exact ⟨_, _, _, rfl⟩

theorem eepromTold_iff (transactions : List (EepromTransaction chip)) :
    EepromTold transactions (transactions.flatMap EepromTransaction.told) ↔
      ∀ t ∈ transactions, ∃ address, t = .currentRead address address := by
  induction transactions with
  | nil => exact iff_of_true rfl fun t member => absurd member not_mem_nil
  | cons t transactions ih =>
      obtain ⟨cls, texts, data, told⟩ := exists_told t
      rw [forall_mem_cons, ← ih, ← told_binary_eq_iff t told, flatMap_cons]
      constructor
      · rintro ⟨clsTold, more, same, -, rest⟩
        rw [told] at same
        have behind := (List.cons.inj same).2
        have binary := EepromReport.binary.inj (List.cons.inj behind).1
        have others : transactions.flatMap EepromTransaction.told = more := (List.cons.inj behind).2
        exact ⟨binary, others ▸ rest⟩
      · rintro ⟨binary, rest⟩
        obtain ⟨address, rfl⟩ := (told_binary_eq_iff t told).mp binary
        exact ⟨.curAddrRead, _, rfl, fun _ => rfl, rest⟩

theorem exists_limit (transactions : List (EepromTransaction chip)) :
    ∃ limit, ∀ t ∈ transactions, t.kept.length ≤ limit := by
  induction transactions with
  | nil => exact ⟨0, fun t member => absurd member not_mem_nil⟩
  | cons t transactions ih =>
      obtain ⟨limit, bounded⟩ := ih
      refine ⟨max t.kept.length limit, forall_mem_cons.mpr ⟨le_max_left _ _, ?_⟩⟩
      exact fun more member => (bounded more member).trans (le_max_right _ _)

theorem capture_reaches (known : chip ∈ chipTable) (addrCounter : Int)
    {transactions : List (EepromTransaction chip)} {events : List (Nat × Nat × I2cProto)}
    (sent : messages events = transactions.flatMap EepromTransaction.messages)
    (room : ∀ t ∈ transactions, t.kept.length ≤ limit) :
    Reaches limit (fun s => s.reports = transactions.flatMap EepromTransaction.told)
      ((EepromState.start addrCounter).run chip events) := by
  have idle : Idle [] (EepromState.start addrCounter) := ⟨rfl, rfl, rfl, rfl, rfl⟩
  exact (leads_transactions (addrBytes_pos chip known) transactions [] room).weaken
    (fun _ => Knows.reports) events _ sent idle

/-- A capture is told as it is exactly if it holds nothing but reads without an address whose
byte equals the control word. -/
theorem eepromReported_iff (known : chip ∈ chipTable) (addrCounter : Int)
    (transactions : List (EepromTransaction chip)) {events : List (Nat × Nat × I2cProto)}
    (sent : messages events = transactions.flatMap EepromTransaction.messages) :
    EepromReported addrCounter transactions events ↔
      ∀ t ∈ transactions, ∃ address, t = .currentRead address address := by
  rw [← eepromTold_iff]
  constructor
  · rintro ⟨s, ran, told⟩
    obtain ⟨limit, room⟩ := exists_limit transactions
    have reached := capture_reaches known addrCounter sent room
    rw [ran] at reached
    have reports : s.reports = transactions.flatMap EepromTransaction.told := reached
    rwa [reports] at told
  · intro told
    have reads := (eepromTold_iff transactions).mp told
    have room : ∀ t ∈ transactions, t.kept.length ≤ 2 := by
      intro t member
      obtain ⟨address, rfl⟩ := reads t member
      exact le_rfl
    have reached := capture_reaches known addrCounter sent room
    cases ran : (EepromState.start addrCounter).run chip events with
    | none =>
        rw [ran] at reached
        have tooFew : eepromMaxPackets < 2 := reached
        exact absurd tooFew (by decide)
    | some s =>
        rw [ran] at reached
        have reports : s.reports = transactions.flatMap EepromTransaction.told := reached
        exact ⟨s, ran, reports.symm ▸ told⟩

def genericChip : EepromChip := ⟨"generic", 8, 1, 3⟩

/-- A read without an address of the byte 0x50 from the chip at 0x50. -/
theorem eepromReported_iff_sameByte :
    EepromReported 0 [(.currentRead 0x50 0x50 : EepromTransaction genericChip)]
      [(0, 0, .start), (1, 9, .address false 0x50), (9, 10, .ack), (10, 18, .data false 0x50),
        (18, 19, .nack), (19, 19, .stop)] :=
  (eepromReported_iff (by decide) 0 _ rfl).mpr fun _ member =>
    ⟨0x50, mem_singleton.mp member⟩

def writeOneByte : EepromTransaction genericChip :=
  .write 0x50 [0x10] [] 0x41 rfl

def writeOneByteEvents : List (Nat × Nat × I2cProto) :=
  [(0, 0, .start), (1, 9, .address true 0x50), (9, 10, .ack), (10, 18, .data true 0x10),
    (18, 19, .ack), (19, 27, .data true 0x41), (27, 28, .ack), (28, 28, .stop)]

/-- The word address is among the data that are told. -/
theorem writeOneByte_misread : ¬ EepromReported 0 [writeOneByte] writeOneByteEvents := by
  rintro ⟨s, ran, told⟩
  have reached := @capture_reaches genericChip 3 (by decide) 0 [writeOneByte]
    writeOneByteEvents rfl
    (fun t member => by rw [mem_singleton.mp member]; decide)
  rw [ran] at reached
  have reports : s.reports = [writeOneByte].flatMap EepromTransaction.told := reached
  rw [reports, eepromTold_iff] at told
  obtain ⟨address, same⟩ := told writeOneByte mem_cons_self
  cases same

end Captures

/-! ## From the bus -/

def acknowledged (bytes : List (BitVec 8)) : List I2cByte :=
  bytes.map fun byte => ⟨byte, true⟩

namespace EepromTransaction

variable {chip : EepromChip}

def addresses : EepromTransaction chip → List (BitVec 8)
  | .write address _ _ _ _ | .currentRead address _ => [address]
  | .randomRead address readAddress _ _ _ _ => [address, readAddress]

/-- The master does not acknowledge the last byte that it reads. -/
def onBus : EepromTransaction chip → I2cTransaction
  | .write address word front last _ =>
      ⟨⟨address.setWidth 7, false, true, acknowledged (word ++ (front ++ [last]))⟩, []⟩
  | .currentRead address byte => ⟨⟨address.setWidth 7, true, true, [⟨byte, false⟩]⟩, []⟩
  | .randomRead address readAddress word front last _ =>
      ⟨⟨address.setWidth 7, false, true, acknowledged word⟩,
        [⟨readAddress.setWidth 7, true, true, acknowledged front ++ [⟨last, false⟩]⟩]⟩

variable {config : I2cConfig}

theorem events_onBus (shifted : config.addressShifted = true) (t : EepromTransaction chip)
    (sevenBits : ∀ address ∈ t.addresses, address < 128#8) :
    t.onBus.events config = t.messages := by
  have whole : ∀ address : BitVec 8, address < 128#8 →
      (address.setWidth 7).setWidth 8 = address := by decide +kernel
  replace whole := fun address member => whole address (sevenBits address member)
  cases t <;>
    simp only [addresses, forall_mem_cons, not_mem_nil] at whole <;>
    simp [onBus, messages, I2cTransaction.events, I2cSegment.events, I2cSegment.addressValue,
      I2cSegment.ackEvent, I2cSegment.dataEvents, acknowledged, flatMap_map, shifted, whole,
      writeMessages, readMessages]

end EepromTransaction

/-- What the decoder of the bus sends to the one on top of it. -/
def sentByI2c (config : I2cConfig) (initial : I2cPins) (samples : List I2cPins) :
    List (Nat × Nat × I2cProto) :=
  ((i2cDecode config).scan .reset initial 0 samples).protos.map fun out =>
    (out.ss, out.es, out.content)

theorem messages_sentByI2c (config : I2cConfig) (initial : I2cPins)
    {transactions : List I2cTransaction} {samples : List I2cPins}
    (waveform : I2cWaveform transactions samples) :
    messages (sentByI2c config initial samples) =
      transactions.flatMap (I2cTransaction.events config) := by
  obtain ⟨rest, rfl, drives⟩ := waveform
  have asleep : (i2cDecode config).wakes .reset initial ⟨true, true⟩ = false := by
    rcases initial with ⟨_ | _, _ | _⟩ <;> rfl
  have viewed := I2cState.scan_view config drives .reset 1
  have read := I2cView.take_transactions config transactions 0 0 []
  rw [messages, sentByI2c, SampleDecoder.scan_cons, SampleDecoder.step_asleep _ asleep, map_map]
  exact (congrArg I2cView.events viewed).trans read

/-- Both decoders together: from the samples of two lines to the operations on the memory. -/
theorem eeprom_fromPins {chip : EepromChip} (known : chip ∈ chipTable) (addrCounter : Int)
    {config : I2cConfig} (shifted : config.addressShifted = true)
    {transactions : List (EepromTransaction chip)}
    (sevenBits : ∀ t ∈ transactions, ∀ address ∈ t.addresses, address < 128#8)
    (room : ∀ t ∈ transactions, t.kept.length ≤ eepromMaxPackets) (initial : I2cPins)
    {samples : List I2cPins}
    (waveform : I2cWaveform (transactions.map EepromTransaction.onBus) samples) :
    ∃ s, (EepromState.start addrCounter).run chip (sentByI2c config initial samples) = some s ∧
      s.reports = transactions.flatMap EepromTransaction.told := by
  have sent : messages (sentByI2c config initial samples) =
      transactions.flatMap EepromTransaction.messages := by
    rw [messages_sentByI2c config initial waveform, flatMap_map]
    exact flatMap_congr fun t member => t.events_onBus shifted (sevenBits t member)
  have reached := capture_reaches known addrCounter sent room
  cases ran : (EepromState.start addrCounter).run chip (sentByI2c config initial samples) with
  | none =>
      rw [ran] at reached
      exact absurd reached (Nat.lt_irrefl _)
  | some s =>
      rw [ran] at reached
      exact ⟨s, rfl, reached⟩

/-- A byte is written, on a waveform with an edge in every third sample. -/
theorem eeprom_fromPins_write :
    ∃ s, (EepromState.start 0).run genericChip (sentByI2c ⟨true, false, false⟩ ⟨true, true⟩
        (⟨true, true⟩ :: drive true writeOneByte.onBus.signals)) = some s ∧
      s.reports = writeOneByte.told :=
  have waveform : I2cWaveform ([writeOneByte].map EepromTransaction.onBus)
      (⟨true, true⟩ :: drive true writeOneByte.onBus.signals) :=
    ⟨_, rfl, drives_drive (by decide +kernel)⟩
  eeprom_fromPins (by decide) 0 rfl (by decide) (by decide)
    ⟨true, true⟩ waveform

end SigrokDecode
