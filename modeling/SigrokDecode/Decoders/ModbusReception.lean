import Mathlib.Data.List.Chain
import SigrokDecode.Decoders.ModbusParsing

/-!
# Receiving Modbus frames

`modbus_c` over the packets of the UART while a frame comes in, byte by byte.
-/

namespace SigrokDecode

open Foundation ModbusFrame List

namespace ModbusAdu

variable (adu : ModbusAdu)

@[simp] theorem checkCrc_input (direction : ModbusDirection) (place : Nat) :
    (adu.checkCrc direction place).input = adu.input := by
  rcases Nat.lt_or_ge place 3 with low | high
  · rw [checkCrc, if_pos (Or.inl low)]
  · rcases Nat.lt_or_ge place adu.bytes.length with arrived | early
    · rw [ModbusPending.checkCrc_eq high arrived, puti_input]
    · rw [checkCrc, if_pos (Or.inr early)]

theorem scParse_input : adu.scParse.input = adu.input := by
  simp only [scParse, scParseFunction, scParseReadBits, scParseReadRegisters,
    scParseWriteSingleCoil, scParseWriteSingleRegister, scParseWriteMultiple, scParseError,
    parseWriteSingleCoil, parseWriteSingleRegister, parseUnknown, puti_ite]
  repeat' split
  all_goals simp

theorem csParseWriteMultiple_input : adu.csParseWriteMultiple.input = adu.input := by
  simp only [csParseWriteMultiple]
  split
  · simp
  · simp

theorem csParseReadWriteRegisters_input : adu.csParseReadWriteRegisters.input = adu.input := by
  simp only [csParseReadWriteRegisters]
  split
  · simp
  · simp

theorem csParseFunction_input : adu.csParseFunction.input = adu.input := by
  rw [csParseFunction]
  split
  · simp [csParseReadDataCommand]
  · split
    · simp [csParseWriteSingleCoil, parseWriteSingleCoil]
    · split
      · simp [csParseWriteSingleRegister, parseWriteSingleRegister]
      · split
        · simp [csParseSingleByteRequest]
        · split
          · exact adu.csParseWriteMultiple_input
          · split
            · simp only [csParseMaskWriteRegister, puti_arrived]
              simp
            · split
              · exact adu.csParseReadWriteRegisters_input
              · simp [parseUnknown]

theorem csParse_input : adu.csParse.input = adu.input := by
  rw [csParse]
  split
  · rfl
  · simp only [puti_bytes]
    split
    · exact adu.puti_input _ _ _ _
    · rw [csParseFunction_input, puti_input]

theorem parse_input (direction : ModbusDirection) : (adu.parse direction).input = adu.input := by
  cases direction with
  | sc => exact adu.scParse_input
  | cs => exact adu.csParse_input

end ModbusAdu

theorem ModbusParsed.addByte {direction : ModbusDirection} {frame received : List ModbusByte}
    {base : List ModbusAnn} {adu : ModbusAdu} (parsed : ModbusParsed direction frame base adu)
    (bytes : adu.bytes = received.take modbusMaxFrame) {input : ModbusByte}
    (part : received ++ [input] <+: frame) :
    ModbusPending direction frame base (adu.addByte input) ∧
      (adu.addByte input).bytes = (received ++ [input]).take modbusMaxFrame := by
  have length := congrArg List.length bytes
  rw [length_take] at length
  rcases Nat.lt_or_ge adu.bytes.length modbusMaxFrame with open' | full
  · have small : received.length < modbusMaxFrame := by omega
    have whole : adu.bytes = received := bytes.trans (take_of_length_le (by omega))
    have added : (adu.addByte input).bytes = received ++ [input] := by
      rw [ModbusAdu.addByte, whole]
      exact if_pos small
    have one : (adu.addByte input).bytes.length = adu.bytes.length + 1 := by
      rw [added, length_append, length_singleton, whole]
    refine ⟨⟨added ▸ part, by omega, ?_, parsed.cut, ?_⟩, ?_⟩
    · rw [one]
      exact Nat.le_succ_of_le parsed.there
    · intro last final more
      exact parsed.whole last final (by omega)
    · rw [added, take_of_length_le]
      rw [length_append, length_singleton]
      omega
  · have same : (adu.addByte input).bytes = adu.bytes := if_neg (Nat.not_lt_of_le full)
    refine ⟨⟨same ▸ parsed.part, same ▸ parsed.room, same ▸ parsed.there, parsed.cut, ?_⟩, ?_⟩
    · intro last final more
      rw [same] at more
      exact parsed.whole last final (by omega)
    · rw [same, bytes, take_append_of_le_length (by omega)]

namespace ModbusConfig

variable (config : ModbusConfig)

def Follows (bitlength : BitVec 64) (previous next : ModbusByte) : Prop :=
  config.longGap bitlength (next.ss - previous.es) = false

instance (bitlength : BitVec 64) (previous next : ModbusByte) :
    Decidable (config.Follows bitlength previous next) :=
  instDecidableEqBool (config.longGap bitlength (next.ss - previous.es)) false

def bytesOf (direction : ModbusDirection) (packets : List ModbusPacket) : List ModbusByte :=
  packets.filterMap fun packet =>
    match packet with
    | .data input rxtx => if rxtx = config.channel direction then some input else none
    | _ => none

variable {config} {bitlength : BitVec 64} {direction : ModbusDirection}

theorem receive_next {adu : ModbusAdu} {last input : ModbusByte} (some : adu.bytes ≠ [])
    (read : adu.lastRead = last.es) (follows : config.Follows bitlength last input) :
    config.receive bitlength direction adu input = (adu.addByte input).parse direction := by
  have gap : config.gap bitlength adu input = false := by rw [gap, read, follows, Bool.and_false]
  rw [receive, if_neg (by simpa using some), decodeAdu, openFrame, gap]
  rfl

theorem receive_first {adu : ModbusAdu} {input : ModbusByte}
    (begins : adu.bytes = [] ∨ config.gap bitlength adu input = true) :
    config.receive bitlength direction adu input =
      (((config.openFrame bitlength direction adu input).reset input.ss).addByte input).parse
        direction := by
  by_cases empty : adu.bytes = []
  · have gap : ∀ {other : ModbusAdu}, other.bytes = [] →
        config.gap bitlength other input = false := by
      intro other bytes
      rw [ModbusConfig.gap, bytes]
      simp
    rw [receive, if_pos (by rw [empty]; rfl), decodeAdu, openFrame, openFrame, gap empty, gap rfl]
    rfl
  · have gap : config.gap bitlength adu input = true := begins.resolve_left empty
    rw [receive, if_neg (by simpa using empty), decodeAdu, openFrame, if_pos gap]
    rfl

end ModbusConfig

/-- A direction in the middle of a frame whose last byte was `last`. -/
structure ModbusReceiving (direction : ModbusDirection) (frame : List ModbusByte)
    (base : List ModbusAnn) (received : List ModbusByte) (last : ModbusByte) (adu : ModbusAdu) :
    Prop extends ModbusParsed direction frame base adu where
  bytes : adu.bytes = received.take modbusMaxFrame
  some : received ≠ []
  read : adu.lastRead = last.es

namespace ModbusReceiving

variable {direction : ModbusDirection} {frame received : List ModbusByte} {base : List ModbusAnn}
  {adu : ModbusAdu} {last input : ModbusByte}

theorem parsed (pending : ModbusPending direction frame base (adu.addByte input))
    (bytes : (adu.addByte input).bytes = (received ++ [input]).take modbusMaxFrame) :
    ModbusReceiving direction frame base (received ++ [input]) input
      ((adu.addByte input).parse direction) := by
  have came := (adu.addByte input).parse_input direction
  exact ⟨pending.parse, (congrArg Prod.fst came).trans bytes, by simp, congrArg Prod.snd came⟩

theorem next {config : ModbusConfig} {bitlength : BitVec 64}
    (receiving : ModbusReceiving direction frame base received last adu)
    (follows : config.Follows bitlength last input) (part : received ++ [input] <+: frame) :
    ModbusReceiving direction frame base (received ++ [input]) input
      (config.receive bitlength direction adu input) := by
  have nonempty : adu.bytes ≠ [] := by
    rw [receiving.bytes]
    intro empty
    obtain none | zero := take_eq_nil_iff.mp empty
    · cases none
    · exact receiving.some zero
  rw [ModbusConfig.receive_next nonempty receiving.read follows]
  obtain ⟨pending, bytes⟩ := receiving.toModbusParsed.addByte receiving.bytes part
  exact parsed pending bytes

theorem run {config : ModbusConfig} {bitlength : BitVec 64} :
    ∀ {inputs received : List ModbusByte} {last : ModbusByte} {adu : ModbusAdu},
      ModbusReceiving direction frame base received last adu →
      (last :: inputs).IsChain (config.Follows bitlength) → received ++ inputs <+: frame →
      ∃ final, ModbusReceiving direction frame base (received ++ inputs) final
        (inputs.foldl (config.receive bitlength direction) adu) := by
  intro inputs
  induction inputs with
  | nil =>
      intro received last adu receiving _ _
      exact ⟨last, by simpa using receiving⟩
  | cons input inputs ih =>
      intro received last adu receiving chain part
      obtain ⟨follows, others⟩ := isChain_cons_cons.mp chain
      rw [append_cons] at part
      have first := receiving.next follows ((prefix_append _ _).trans part)
      obtain ⟨final, whole⟩ := ih first others part
      rw [← append_cons] at whole
      exact ⟨final, whole⟩

end ModbusReceiving

namespace ModbusConfig

variable {config : ModbusConfig} {bitlength : BitVec 64} {direction : ModbusDirection}

theorem receive_frame (direction : ModbusDirection) {frame : List ModbusByte}
    {first : ModbusByte} {arrived : List ModbusByte}
    {adu : ModbusAdu} (begins : adu.bytes = [] ∨ config.gap bitlength adu first = true)
    (chain : (first :: arrived).IsChain (config.Follows bitlength))
    (part : first :: arrived <+: frame) :
    ∃ last, ModbusReceiving direction frame
      (config.openFrame bitlength direction adu first).anns (first :: arrived) last
        ((first :: arrived).foldl (config.receive bitlength direction) adu) := by
  have start : ModbusParsed direction frame (config.openFrame bitlength direction adu first).anns
      ((config.openFrame bitlength direction adu first).reset first.ss) := by
    refine ⟨⟨ nil_prefix, Nat.zero_le _, Nat.zero_le _, ⟨[], List.Pairwise.nil, rfl, ?_⟩, ?_⟩, ?_⟩
    · exact (List.append_nil _).symm
    · intro last _ more
      exact absurd more (Nat.not_lt_zero _)
    · intro last _ more
      exact absurd more (Nat.not_lt_zero _)
  obtain ⟨pending, bytes⟩ := start.addByte
    (show _ = ([] : List ModbusByte).take modbusMaxFrame from rfl)
    (show [] ++ [first] <+: frame from (prefix_append [first] arrived).trans part)
  have one := ModbusReceiving.parsed pending bytes
  rw [← receive_first begins] at one
  exact one.run chain part

end ModbusConfig

namespace ModbusState

variable {config : ModbusConfig} {direction : ModbusDirection}

theorem adu_recvProto (config : ModbusConfig) (direction : ModbusDirection) {s : ModbusState}
    (known : s.bitlength ≠ 0) (packet : ModbusPacket) :
    (s.recvProto config packet).bitlength = s.bitlength ∧
      (s.recvProto config packet).adu direction =
        (config.bytesOf direction [packet]).foldl (config.receive s.bitlength direction)
          (s.adu direction) := by
  cases packet with
  | startBit ss es =>
      have same : s.recvProto config (.startBit ss es) = s := if_neg known
      rw [same]
      exact ⟨rfl, rfl⟩
  | stopBit ss es =>
      have same : s.recvProto config (.stopBit ss es) = s := if_neg known
      rw [same]
      exact ⟨rfl, rfl⟩
  | other => exact ⟨rfl, rfl⟩
  | data input rxtx =>
      have bytes : config.bytesOf direction [.data input rxtx] =
          if rxtx = config.channel direction then [input] else [] := by
        by_cases mine : rxtx = config.channel direction
        · simp [ModbusConfig.bytesOf, mine]
        · simp [ModbusConfig.bytesOf, mine]
      have received : s.recvProto config (.data input rxtx) =
          { s with
            aduSc := if rxtx = config.scChannel then
              config.receive s.bitlength .sc s.aduSc input else s.aduSc
            aduCs := if rxtx = config.csChannel then
              config.receive s.bitlength .cs s.aduCs input else s.aduCs } := if_neg known
      rw [bytes, received]
      refine ⟨rfl, ?_⟩
      cases direction with
      | sc =>
          by_cases mine : rxtx = config.scChannel
          · simp [adu, ModbusConfig.channel, mine]
          · simp [adu, ModbusConfig.channel, mine]
      | cs =>
          by_cases mine : rxtx = config.csChannel
          · simp [adu, ModbusConfig.channel, mine]
          · simp [adu, ModbusConfig.channel, mine]

theorem adu_run : ∀ {packets : List ModbusPacket} {s : ModbusState}, s.bitlength ≠ 0 →
    (packets.foldl (recvProto config) s).adu direction =
      (config.bytesOf direction packets).foldl (config.receive s.bitlength direction)
        (s.adu direction) := by
  intro packets
  induction packets with
  | nil => exact fun _ => rfl
  | cons packet packets ih =>
      intro s known
      obtain ⟨bitlength, adu⟩ := adu_recvProto config direction known packet
      have split : config.bytesOf direction (packet :: packets) =
          config.bytesOf direction [packet] ++ config.bytesOf direction packets := by
        rw [ModbusConfig.bytesOf, ModbusConfig.bytesOf, ModbusConfig.bytesOf, ← filterMap_append]
        rfl
      rw [foldl_cons, ih (bitlength ▸ known), bitlength, adu, split, foldl_append]

/-- The annotations of a direction while a frame comes in: they divide its bytes into ranges from
the first byte on, each a field of the whole frame; and where the last byte of a request or a
response has arrived, the range that ends there has the verdict on the check. -/
theorem frame_annotated (config : ModbusConfig) (direction : ModbusDirection) (s : ModbusState)
    (known : s.bitlength ≠ 0) (received later : List ModbusPacket) (first : ModbusByte)
    (arrived : List ModbusByte)
    (begun : config.bytesOf direction received = first :: arrived)
    (begins : (s.adu direction).bytes = [] ∨ config.gap s.bitlength (s.adu direction) first = true)
    (unbroken : (config.bytesOf direction (received ++ later)).IsChain
      (config.Follows s.bitlength)) :
    ∃ ends : List Nat, ends.Pairwise (· < ·) ∧ (∀ last ∈ ends, last < (first :: arrived).length) ∧
      ((received.foldl (recvProto config) s).adu direction).anns =
        (config.openFrame s.bitlength direction (s.adu direction) first).anns ++
          fieldAnns (config.bytesOf direction (received ++ later)) direction ends ∧
      (config.bytesOf direction later = [] → WellFormed (first :: arrived) direction →
        ∃ front, ends = front ++ [arrived.length] ∧
          fieldAt (first :: arrived) direction arrived.length =
            crcField (first :: arrived) arrived.length) := by
  have part : first :: arrived <+: config.bytesOf direction (received ++ later) := by
    rw [← begun, ModbusConfig.bytesOf, ModbusConfig.bytesOf, filterMap_append]
    exact prefix_append _ _
  have chain := unbroken.prefix part
  obtain ⟨last, receiving⟩ := ModbusConfig.receive_frame direction begins chain part
  rw [adu_run known, begun]
  obtain ⟨ends, increasing, behindEnds, anns⟩ := receiving.cut
  have length := congrArg List.length receiving.bytes
  rw [length_take] at length
  refine ⟨ends, increasing, ?_, anns, ?_⟩
  · intro place member
    have below := lt_behind 0 increasing member
    have there := receiving.there
    omega
  · intro done wellFormed
    obtain ⟨final, short⟩ := wellFormed
    have whole : config.bytesOf direction (received ++ later) = first :: arrived := by
      rw [← begun, ← List.append_nil (config.bytesOf direction received), ← done]
      exact filterMap_append
    rw [length_cons, Nat.add_sub_cancel] at final
    rw [length_cons] at length short
    have shown := receiving.whole arrived.length (whole ▸ final) (by omega)
    have there := receiving.there
    obtain ⟨front, concat⟩ :=
      eq_concat_of_behind arrived.length (behindEnds.trans (by omega))
    exact ⟨front, concat,
      ModbusPending.fieldAt_lastByte final (ModbusPending.three_le_lastByte final)⟩

/-- A request to switch a coil on. -/
theorem frame_annotated_writeCoil :
    let frame : List ModbusByte := [⟨0, 10, 0x11⟩, ⟨10, 20, 0x05⟩, ⟨20, 30, 0x00⟩, ⟨30, 40, 0xAC⟩,
      ⟨40, 50, 0xFF⟩, ⟨50, 60, 0x00⟩, ⟨60, 70, 0x4E⟩, ⟨70, 80, 0x8B⟩]
    let config : ModbusConfig :=
      ⟨0, 1, fun bitlength distance => decide (28 * bitlength < distance), (· * 3)⟩
    (∃ front, (((frame.map (ModbusPacket.data · 1)).foldl (recvProto config)
        { reset with bitlength := 1 }).adu .cs).anns = fieldAnns frame .cs (front ++ [7])) ∧
      fieldAt frame .cs 7 = (.crc, .crcCorrect) := by
  intro frame config
  obtain ⟨ends, -, -, anns, checked⟩ := frame_annotated config .cs
    { reset with bitlength := 1 } (by decide) (frame.map (ModbusPacket.data · 1)) []
    ⟨0, 10, 0x11⟩ frame.tail rfl (Or.inl rfl) (by decide)
  obtain ⟨front, concat, field⟩ := checked rfl ⟨by decide, by decide⟩
  refine ⟨⟨front, ?_⟩, field.trans (by decide +kernel)⟩
  rw [concat] at anns
  exact anns

end ModbusState

end SigrokDecode
