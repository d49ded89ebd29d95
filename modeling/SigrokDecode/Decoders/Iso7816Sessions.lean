import SigrokDecode.Decoders.Iso7816Blocks

/-!
# T=1 sessions

`iso7816_c` writes a record when the last block of a command has been read.  An exchange is
never told as one, because its response is missing there.
-/

set_option linter.dupNamespace false

namespace SigrokDecode

open Foundation Stopping Iso7816 List

/-- An information block of a chain. -/
structure T1Part where
  nad : BitVec 8
  seq : Bool
  info : List (BitVec 8)
  info_some : info ≠ []
  info_short : info.length < 256

/-- A receive-ready block; its first byte is not one that begins a PPS or an ATR. -/
structure T1Ack where
  nad : BitVec 8
  seq : Bool
  flag : BitVec 4
  plain : nad ≠ 0xFF ∧ nad ≠ 0x3B

def T1Part.pcb (part : T1Part) (more : Bool) : BitVec 8 :=
  (if part.seq then 0x40 else 0) ||| if more then 0x20 else 0

def T1Part.bytes (part : T1Part) (more : Bool) : List (BitVec 8) :=
  blockBytes part.nad (part.pcb more) part.info

def T1Ack.pcb (ack : T1Ack) : BitVec 8 :=
  0x80 ||| (if ack.seq then 0x10 else 0) ||| ack.flag.setWidth 8

def T1Ack.bytes (ack : T1Ack) : List (BitVec 8) :=
  blockBytes ack.nad ack.pcb []

/-- The parts of a chain in front of the last one, with the blocks that acknowledge them. -/
abbrev T1Chain : Type :=
  List (T1Part × List T1Ack)

def T1Chain.bytes (chain : T1Chain) : List (BitVec 8) :=
  chain.flatMap fun chained => chained.1.bytes true ++ chained.2.flatMap T1Ack.bytes

def T1Chain.info (chain : T1Chain) : List (BitVec 8) :=
  chain.flatMap fun chained => chained.1.info

structure T1Exchange where
  command : T1Chain
  commandLast : T1Part
  response : T1Chain
  responseLast : T1Part
  command_nad : ∀ chained ∈ command, chained.1.nad = 0
  commandLast_nad : commandLast.nad = 0

namespace T1Exchange

def bytes (exchange : T1Exchange) : List (BitVec 8) :=
  exchange.command.bytes ++ exchange.commandLast.bytes false ++ exchange.response.bytes ++
    exchange.responseLast.bytes false

def apdu (exchange : T1Exchange) : List (BitVec 8) :=
  exchange.command.info ++ exchange.commandLast.info ++ exchange.response.info ++
    exchange.responseLast.info

end T1Exchange

namespace Iso7816

variable {options : Iso7816Options} {line chain : List (BitVec 8)}
  {records : List (List (BitVec 8))}

theorem pcb_part (part : T1Part) (more : Bool) :
    (part.pcb more).getLsbD 7 = false ∧ (part.pcb more).getLsbD 5 = more := by
  rw [T1Part.pcb]
  cases part.seq <;> cases more <;> decide

theorem pcb_ack (ack : T1Ack) : ack.pcb.getLsbD 7 = true ∧ ack.pcb.getLsbD 6 = false := by
  rw [T1Ack.pcb]
  generalize ack.flag = flag
  revert flag
  cases ack.seq <;> decide

variable {part : T1Part} {s : Iso7816State}

variable {more : Bool} {ack : T1Ack} {limit : Nat}

theorem yields_part (ss : Nat) :
    Yields (T1At (some part.nad) ((part.bytes more).tail ++ line) chain records)
      (handleT1Block ss) fun value s => value = some part.info ∧
        if more then T1At none line (chainWith chain part.info) records s
        else T1At none line [] (records ++ [chainEnd chain part.info]) s := by
  have put := @yields_putInfo line chain records _ (pcb_part part more).1 ss part.nad
    (BitVec.ofNat 8 part.info.length) part.info
  rw [(pcb_part part more).2] at put
  exact yields_handleT1Block part.info_short put

theorem yields_ack (ss : Nat) : Yields (T1At (some ack.nad) (ack.bytes.tail ++ line) chain records)
      (handleT1Block ss) fun value s => value = none ∧ T1At none line chain records s :=
  yields_handleT1Block (by decide)
    (yields_putAck (pcb_ack ack).1 (pcb_ack ack).2 ss ack.nad _ _)

variable (options)

theorem decodeStep_block {nad : BitVec 8} (plain : nad ≠ 0xFF ∧ nad ≠ 0x3B)
    (known : T1At none (nad :: line) chain records s) :
    ∃ (ss : Nat) (t : Iso7816State), T1At (some nad) line chain records t ∧
      decodeStep options s = handleT1Packet ss t := by
  obtain ⟨value, t, peeked, rfl, knownPeeked⟩ := yields_peekByte nad s known
  refine ⟨t.peekedSamplenum, t, knownPeeked, ?_⟩
  rw [decodeStep, bind_some (show get s = (some s, s) from rfl), known.begun,
    if_neg Bool.false_ne_true, bind_some peeked, if_neg plain.1, if_neg plain.2,
    bind_some (show get t = (some t, t) from rfl), knownPeeked.noT0, if_neg Bool.false_ne_true,
    knownPeeked.onlyT1, if_pos rfl]

theorem step_ack (known : T1At none (ack.bytes ++ line) chain records s) :
    ∃ t, decodeStep options s = (some (), t) ∧ T1At none line chain records t := by
  obtain ⟨ss, t, knownPeeked, steps⟩ := decodeStep_block options ack.plain known
  have handled : Yields (T1At (some ack.nad) (ack.bytes.tail ++ line) chain records)
      (handleT1Packet ss) fun _ => T1At none line chain records :=
    (yields_ack ss).bind_value (yields_pure () fun _ => id)
  obtain ⟨_, u, ran, knownAfter⟩ := handled t knownPeeked
  exact ⟨u, steps.trans ran, knownAfter⟩

theorem yields_pair {nad : BitVec 8} {packet : List (BitVec 8)} {ss : Nat}
    {after : Unit → Iso7816State → Prop}
    (pairs : ∀ ss2, Yields (T1At (some nad) line chain records)
      (handleT1Block ss2 >>= putPair ss packet) after) :
    Yields (T1At none (nad :: line) chain records) (pairBlocks ss packet) after := by
  refine (yields_peekByte nad).bind_value ?_
  intro s known
  rw [bind_some (show get s = (some s, s) from rfl)]
  exact pairs s.peekedSamplenum s known

theorem yields_packet {ss : Nat}
    {after : Unit → Iso7816State → Prop}
    (pairs : Yields (fun s => if more then T1At none line (chainWith chain part.info) records s
        else T1At none line [] (records ++ [chainEnd chain part.info]) s)
      (pairBlocks ss part.info) after) :
    Yields (T1At (some part.nad) ((part.bytes more).tail ++ line) chain records)
      (handleT1Packet ss) after := by
  refine (yields_part ss).bind_value ?_
  obtain ⟨byte, data, infoIs⟩ := exists_cons_of_ne_nil part.info_some
  rw [infoIs] at pairs ⊢
  exact pairs

theorem step_part (nad : part.nad = 0)
    (known : T1At none (part.bytes true ++ (ack.bytes ++ line)) chain records s) :
    ∃ t, decodeStep options s = (some (), t) ∧
      T1At none line (chainWith chain part.info) records t := by
  have plain : part.nad ≠ 0xFF ∧ part.nad ≠ 0x3B := by
    rw [nad]
    decide
  obtain ⟨ss, t, knownPeeked, steps⟩ := decodeStep_block options plain known
  have paired : Yields (T1At none (ack.bytes ++ line) (chainWith chain part.info) records)
      (pairBlocks ss part.info) fun _ => T1At none line (chainWith chain part.info) records :=
    yields_pair fun ss2 => (yields_ack ss2).bind_value (yields_pure () fun _ => id)
  have handled : Yields
      (T1At (some part.nad) ((part.bytes true).tail ++ (ack.bytes ++ line)) chain records)
      (handleT1Packet ss) fun _ => T1At none line (chainWith chain part.info) records := by
    refine yields_packet ?_
    simp only [if_true]
    exact paired
  obtain ⟨_, u, ran, knownAfter⟩ := handled t knownPeeked
  exact ⟨u, steps.trans ran, knownAfter⟩

/-- The first record about an APDU has at most so many bytes. -/
def TellsShort (limit : Nat) (s : Iso7816State) : Prop :=
  ∃ data : List (BitVec 8), data.length ≤ limit ∧ [data] <+: apduRecords s

theorem TellsShort.extends {s t : Iso7816State} (tells : TellsShort limit s)
    (extends_ : Extends s t) : TellsShort limit t := by
  obtain ⟨data, short, first⟩ := tells
  exact ⟨data, short, first.trans (IsPrefix.filterMap _ extends_)⟩

theorem T1At.tellsShort {peeked : Option (BitVec 8)} {data : List (BitVec 8)}
    (known : T1At peeked line chain (data :: records) s)
    (short : data.length ≤ limit) : TellsShort limit s :=
  ⟨data, short, by rw [known.records]; exact ⟨records, rfl⟩⟩

theorem length_chainWith_le (chain data : List (BitVec 8)) :
    (chainWith chain data).length ≤ chain.length + data.length := by
  rw [chainWith, length_append, length_take]
  exact Nat.add_le_add_left (Nat.min_le_right _ _) _

theorem length_chainEnd_le (chain data : List (BitVec 8)) :
    (chainEnd chain data).length ≤ chain.length + data.length := by
  rw [chainEnd]
  split
  · exact Nat.le_add_left _ _
  · exact length_chainWith_le chain data

theorem tells_last (nad : part.nad = 0) (known : T1At none (part.bytes false ++ line) chain [] s) :
    TellsShort (chain.length + part.info.length) (decodeStep options s).2 := by
  have plain : part.nad ≠ 0xFF ∧ part.nad ≠ 0x3B := by
    rw [nad]
    decide
  obtain ⟨ss, t, knownPeeked, steps⟩ := decodeStep_block options plain known
  obtain ⟨_, u, ran, rfl, knownBlock⟩ := yields_part ss t knownPeeked
  have told := knownBlock.tellsShort (length_chainEnd_le chain part.info)
  rw [steps, handleT1Packet, bind_some ran]
  obtain ⟨byte, data, infoIs⟩ := exists_cons_of_ne_nil part.info_some
  rw [infoIs] at told ⊢
  exact told.extends (extends_pairBlocks _ _ u)

/-- Two blocks of a command are told as one if none is acknowledged between them. -/
theorem tells_pair {part next : T1Part} (nad : part.nad = 0)
    (known : T1At none (part.bytes true ++ (next.bytes more ++ line)) chain [] s) :
    TellsShort (chain.length + part.info.length + next.info.length) (decodeStep options s).2 := by
  have plain : part.nad ≠ 0xFF ∧ part.nad ≠ 0x3B := by
    rw [nad]
    decide
  obtain ⟨ss, t, knownPeeked, steps⟩ := decodeStep_block options plain known
  have bound : (chainWith chain part.info).length ≤ chain.length + part.info.length :=
    length_chainWith_le chain part.info
  have paired : Yields (T1At none (next.bytes more ++ line) (chainWith chain part.info) [])
      (pairBlocks ss part.info)
      fun _ => TellsShort (chain.length + part.info.length + next.info.length) := by
    refine yields_pair fun ss2 => (yields_part ss2).bind_value ?_
    obtain ⟨byte, data, infoIs⟩ := exists_cons_of_ne_nil next.info_some
    have put : putPair ss part.info (some next.info) = putApdu ss (part.info ++ next.info) := by
      rw [infoIs]
      rfl
    rw [put]
    intro u knownNext
    cases more with
    | true =>
        obtain ⟨_, v, ran, knownAfter⟩ := yields_putApdu ss (part.info ++ next.info) u knownNext
        refine ⟨(), v, ran, knownAfter.tellsShort ?_⟩
        rw [length_append]
        omega
    | false =>
        obtain ⟨_, v, ran, knownAfter⟩ := yields_putApdu ss (part.info ++ next.info) u knownNext
        refine ⟨(), v, ran, knownAfter.tellsShort ?_⟩
        have ended := length_chainEnd_le (chainWith chain part.info) next.info
        omega
  have handled : Yields
      (T1At (some part.nad) ((part.bytes true).tail ++ (next.bytes more ++ line)) chain [])
      (handleT1Packet ss)
      fun _ => TellsShort (chain.length + part.info.length + next.info.length) := by
    refine yields_packet ?_
    simp only [if_true]
    exact paired
  obtain ⟨_, u, ran, told⟩ := handled t knownPeeked
  rw [steps, ran]
  exact told

theorem tells_loop (tells : TellsShort limit (decodeStep options s).2) (count : Nat) :
    TellsShort limit (decodeLoop options (count + 1) s).2 := by
  rw [decodeLoop]
  show TellsShort limit ((decodeStep options >>= fun _ => decodeLoop options count) s).2
  cases ran : decodeStep options s with
  | mk result t =>
      rw [ran] at tells
      cases result with
      | none =>
          rw [bind_none ran]
          exact tells
      | some _ =>
          rw [bind_some ran]
          exact tells.extends (extends_decodeLoop count t)

theorem decodeLoop_step {s t : Iso7816State} (steps : decodeStep options s = (some (), t))
    (count : Nat) : decodeLoop options (count + 1) s = decodeLoop options count t :=
  bind_some steps _

theorem loop_acks (acks : List T1Ack)
    (known : T1At none (acks.flatMap T1Ack.bytes ++ line) chain records s) (count : Nat) :
    ∃ t, decodeLoop options (acks.length + count) s = decodeLoop options count t ∧
      T1At none line chain records t := by
  induction acks generalizing s with
  | nil => exact ⟨s, by rw [length_nil, Nat.zero_add], known⟩
  | cons ack acks ih =>
      rw [flatMap_cons, List.append_assoc] at known
      obtain ⟨t, steps, knownNext⟩ := step_ack options known
      obtain ⟨u, loops, knownAfter⟩ := ih knownNext
      refine ⟨u, ?_, knownAfter⟩
      rw [length_cons, Nat.add_right_comm, decodeLoop_step options steps, loops]

theorem length_blockBytes (nad pcb : BitVec 8) (info : List (BitVec 8)) :
    (blockBytes nad pcb info).length = info.length + 4 := by
  rw [blockBytes, length_append, length_append]
  simp only [length_cons, length_nil]
  omega

theorem length_acks_le (acks : List T1Ack) : acks.length ≤ (acks.flatMap T1Ack.bytes).length := by
  induction acks with
  | nil => exact le_rfl
  | cons ack acks ih =>
      have block := length_blockBytes ack.nad ack.pcb []
      rw [flatMap_cons, length_append, length_cons, T1Ack.bytes, block]
      omega

theorem tells_command {command : T1Chain} {last : T1Part}
    (nads : ∀ chained ∈ command, chained.1.nad = 0) (lastNad : last.nad = 0)
    (known : T1At none (command.bytes ++ (last.bytes false ++ line)) chain [] s) {count : Nat}
    (enough : command.bytes.length < count) :
    TellsShort (chain.length + command.info.length + last.info.length)
      (decodeLoop options count s).2 := by
  induction command generalizing s chain count with
  | nil =>
      obtain ⟨count, rfl⟩ := Nat.exists_eq_succ_of_ne_zero (Nat.ne_of_gt enough)
      exact tells_loop options (tells_last options lastNad known) count
  | cons chained rest ih =>
      obtain ⟨part, acks⟩ := chained
      have nad : part.nad = 0 := nads _ mem_cons_self
      have info : T1Chain.info ((part, acks) :: rest) = part.info ++ T1Chain.info rest :=
        flatMap_cons
      have bytes : T1Chain.bytes ((part, acks) :: rest) =
          part.bytes true ++ acks.flatMap T1Ack.bytes ++ T1Chain.bytes rest := flatMap_cons
      rw [bytes] at known enough
      rw [info, length_append]
      have block := length_blockBytes part.nad (part.pcb true) part.info
      rw [← T1Part.bytes] at block
      simp only [length_append] at enough
      obtain _ | ⟨ack, acks⟩ := acks
      · obtain ⟨count, rfl⟩ := Nat.exists_eq_succ_of_ne_zero (Nat.ne_of_gt
          (Nat.lt_of_le_of_lt (Nat.zero_le _) enough))
        refine tells_loop options ?_ count
        rw [flatMap_nil, List.append_nil, List.append_assoc] at known
        obtain _ | ⟨⟨next, nextAcks⟩, others⟩ := rest
        · have told := tells_pair options nad known
          obtain ⟨data, short, first⟩ := told
          exact ⟨data, short.trans (by omega), first⟩
        · have nextBytes : T1Chain.bytes ((next, nextAcks) :: others) =
              next.bytes true ++ nextAcks.flatMap T1Ack.bytes ++ T1Chain.bytes others :=
            flatMap_cons
          have nextInfo : T1Chain.info ((next, nextAcks) :: others) =
            next.info ++ T1Chain.info others := flatMap_cons
          rw [nextBytes, List.append_assoc, List.append_assoc] at known
          have told := tells_pair options nad known
          obtain ⟨data, short, first⟩ := told
          refine ⟨data, short.trans ?_, first⟩
          rw [nextInfo, length_append]
          omega
      · rw [flatMap_cons, List.append_assoc, List.append_assoc, List.append_assoc] at known
        obtain ⟨t, steps, knownAck⟩ := step_part options nad known
        have ackBlock := length_blockBytes ack.nad ack.pcb []
        rw [← T1Ack.bytes] at ackBlock
        rw [flatMap_cons, length_append] at enough
        have few := length_acks_le acks
        obtain ⟨left, rfl⟩ : ∃ left, count = acks.length + left + 1 :=
          ⟨count - 1 - acks.length, by omega⟩
        obtain ⟨u, loops, knownAfter⟩ := loop_acks options acks knownAck left
        have told := ih (fun more member => nads more (mem_cons_of_mem _ member)) knownAfter
          (by omega : (T1Chain.bytes rest).length < left)
        rw [decodeLoop_step options steps, loops]
        obtain ⟨data, short, first⟩ := told
        have bound := length_chainWith_le chain part.info
        exact ⟨data, short.trans (by omega), first⟩

variable {options}

def apduAnn : Iso7816Out → Option (List String)
  | .ann _ _ .apdu texts => some texts
  | _ => none

/-- Behind an ATR that selects only T=1, with these bytes to come. -/
structure T1Ready (line : List (BitVec 8)) (s : Iso7816State) : Prop where
  known : T1At none line [] [] s
  quiet : s.outs.filterMap apduAnn = []

/-- Every exchange is told once, with its command and its response. -/
structure T1Told (options : Iso7816Options) (exchanges : List T1Exchange) (s : Iso7816State) :
    Prop where
  records : apduRecords (iso7816Decode options s) = exchanges.map T1Exchange.apdu
  anns : (iso7816Decode options s).outs.filterMap apduAnn =
    (exchanges.filter fun exchange => 8 ≤ exchange.apdu.length).map
      fun exchange => apduTexts exchange.apdu

theorem not_t1Told {exchange : T1Exchange} {rest : List T1Exchange}
    (ready : T1Ready ((exchange :: rest).flatMap T1Exchange.bytes) s) :
    ¬ T1Told options (exchange :: rest) s := by
  intro told
  obtain ⟨_, t, header, known⟩ := yields_writePcapHeader s ready.known
  have count : s.input.length = ((exchange :: rest).flatMap T1Exchange.bytes).length := by
    rw [← ready.known.line, length_map]
  rw [flatMap_cons, T1Exchange.bytes, List.append_assoc, List.append_assoc,
    List.append_assoc] at known count
  have enough : exchange.command.bytes.length < s.input.length + 1 := by
    rw [count, length_append]
    omega
  have tells := tells_command options exchange.command_nad exchange.commandLast_nad known enough
  have decoded : iso7816Decode options s = (decodeLoop options (s.input.length + 1) t).2 := by
    rw [iso7816Decode, bind_some header]
  rw [← decoded] at tells
  obtain ⟨data, short, first⟩ := tells
  rw [told.records, map_cons, cons_prefix_cons] at first
  obtain ⟨rfl, -⟩ := first
  have more := length_pos_of_ne_nil exchange.responseLast.info_some
  simp only [T1Exchange.apdu, length_append, length_nil] at short
  omega

/-- Only a session without exchanges is told as it is. -/
theorem t1Told_iff (exchanges : List T1Exchange) {s : Iso7816State}
    (ready : T1Ready (exchanges.flatMap T1Exchange.bytes) s) :
    T1Told options exchanges s ↔ exchanges = [] := by
  constructor
  · intro told
    obtain _ | ⟨exchange, rest⟩ := exchanges
    · rfl
    · exact absurd told (not_t1Told ready)
  · rintro rfl
    obtain ⟨_, t, header, known⟩ := yields_writePcapHeader s ready.known
    have stopped : decodeStep options t = (none, t) := by
      have noLine : t.input = [] := map_eq_nil_iff.mp known.line
      have stops : peekByte t = (none, t) :=
        bind_none (show nextByte t = (none, t) by rw [nextByte, noLine]) _
      rw [decodeStep, bind_some (show get t = (some t, t) from rfl), known.begun,
        if_neg Bool.false_ne_true, bind_none stops]
    have decoded : iso7816Decode options s = t := by
      rw [iso7816Decode, bind_some header, decodeLoop, bind_none stopped]
    refine ⟨by rw [decoded, known.records]; rfl, ?_⟩
    rw [decoded]
    have same : t = (writePcapHeader s).2 := by rw [header]
    rw [same]
    show (if s.wrotePcapHeader = true then s else
      { s with
        outs := s.outs ++ [Iso7816Out.pcapHeader]
        wrotePcapHeader := true }).outs.filterMap apduAnn = []
    split
    · exact ready.quiet
    · exact (filterMap_append).trans (by rw [ready.quiet]; rfl)

/-- A file is selected with one block, and the response is one block too. -/
def selectFile : T1Exchange :=
  { command := []
    commandLast :=
      { nad := 0
        seq := false
        info := [0x00, 0xA4, 0x00, 0x00, 0x02, 0x3F, 0x00]
        info_some := List.cons_ne_nil _ _
        info_short := by decide }
    response := []
    responseLast :=
      { nad := 0
        seq := false
        info := [0x90, 0x00]
        info_some := List.cons_ne_nil _ _
        info_short := by decide }
    command_nad := fun _ member => absurd member List.not_mem_nil
    commandLast_nad := rfl }

def behindAtr (bytes : List (BitVec 8)) : Iso7816State :=
  (decodeStep { calculatedClock := false, protocol := .auto } (Iso7816State.start
    (([0x3B, 0x80, 0x01, 0x81] ++ bytes).map fun byte => ⟨0, 10, byte⟩))).2

theorem t1Ready_selectFile :
    T1Ready ([selectFile].flatMap T1Exchange.bytes) (behindAtr selectFile.bytes) := by
  constructor
  case quiet => decide +kernel
  constructor
  case begun => decide +kernel
  case noT0 => decide +kernel
  case onlyT1 => decide +kernel
  case peeked => decide +kernel
  case line => decide +kernel
  case chain => decide +kernel
  case records => decide +kernel

/-- The record of the command, and the one of the response, are not those of the exchange. -/
theorem selectFile_split : ¬ T1Told { calculatedClock := false, protocol := .auto } [selectFile]
      (behindAtr selectFile.bytes) :=
  not_t1Told t1Ready_selectFile

theorem t1Told_iff_selectFile : T1Told { calculatedClock := false, protocol := .auto } [selectFile]
      (behindAtr selectFile.bytes) ↔ [selectFile] = [] :=
  t1Told_iff [selectFile] t1Ready_selectFile

end Iso7816

end SigrokDecode
