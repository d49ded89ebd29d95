import Mathlib.Data.List.Chain
import SigrokDecode.Decoders.ArmItm

/-!
# The modes of the ARM ITM decoder

A mode lasts from an exception trace packet to the next one.  `arm_itm_c` gives it the name of the
packet that ends it.
-/

namespace SigrokDecode

open List

inductive ItmEvent
  | enter
  | exit
  | resume
  deriving DecidableEq

def ItmEvent.code : ItmEvent → Nat
  | .enter => 1
  | .exit => 2
  | .resume => 3

/-- The bytes of an exception trace packet, without a long pause between them. -/
structure ExceptionPacket where
  header : ItmByte
  number : ItmByte
  control : ItmByte
  event : ItmEvent
  traced : header.byte = 0x0E
  known : control.byte.toNat / 16 = event.code
  numberClose : number.ss - header.es ≤ 16 * (number.es - number.ss)
  controlClose : control.ss - number.es ≤ 16 * (control.es - control.ss)

namespace ExceptionPacket

def bytes (packet : ExceptionPacket) : List ItmByte :=
  [packet.header, packet.number, packet.control]

def excnum (packet : ExceptionPacket) : Nat :=
  256 * (packet.control.byte.toNat % 2) + packet.number.byte.toNat

def active (packet : ExceptionPacket) : Option Nat :=
  match packet.event with
  | .enter => some packet.excnum
  | .exit => none
  | .resume => some packet.excnum

def activeName (packet : ExceptionPacket) : Option String :=
  packet.active.map getExceptionName

end ExceptionPacket

def exceptionClass (excnum : Nat) : ItmAnnClass :=
  if excnum = 0 then .modeThread
  else if (armExceptions[excnum]?).join = none then .modeIrq
  else .modeExc

def modeAnn (packet next : ExceptionPacket) : List ItmAnn :=
  match packet.active with
  | some excnum =>
      [⟨packet.control.ss, next.control.ss, exceptionClass excnum,
        .mode (some (getExceptionName excnum))⟩]
  | none => []

def modeAnns : List ExceptionPacket → List ItmAnn
  | packet :: next :: packets => modeAnn packet next ++ modeAnns (next :: packets)
  | _ => []

/-- What `arm_itm_c` reports for a mode since `start`. -/
def reportedMode (active : Option Nat) (start : BitVec 64) (next : ExceptionPacket) : List ItmAnn :=
  match active with
  | some _ => [⟨start, next.control.ss, .modeExc, .mode next.activeName⟩]
  | none => []

def reportedModes : List ExceptionPacket → List ItmAnn
  | packet :: next :: packets =>
      reportedMode packet.active packet.control.ss next ++ reportedModes (next :: packets)
  | _ => []

def ItmAnn.isMode (ann : ItmAnn) : Bool :=
  match ann.field with
  | .mode _ => true
  | _ => false

namespace ItmState

variable {s : ItmState}

/-- Between two packets, with the mode that the last one has begun at `start`. -/
structure Between (s : ItmState) (active : Option Nat) (start : BitVec 64) : Prop where
  empty : s.buf = []
  current : s.currentMode = active.isSome
  mode : active.isSome = true → s.modeSs = start ∧ s.modeAnnIdx = .modeExc

variable {input : ItmByte} {front tail : List (BitVec 8)}

theorem storeByte_buf (close : input.ss - s.prevSample ≤
      16 * (input.es - input.ss)) (room : s.buf.length < 8) :
    (s.storeByte input).buf = s.buf ++ [input.byte] := by
  unfold storeByte
  dsimp only
  rw [if_neg (BitVec.not_lt.mpr close), if_pos room]

theorem storeByte_first (empty : s.buf = []) : (s.storeByte input).buf = [input.byte] := by
  unfold storeByte
  dsimp only
  rw [empty, ite_self]
  rfl

theorem storeByte_syncbuf (before : s.syncbuf = front ++ tail)
    (short : tail.length < 6) (input : ItmByte) :
    ∃ front, (s.storeByte input).syncbuf = front ++ (tail ++ [input.byte]) := by
  unfold storeByte
  dsimp only
  rw [before]
  split
  · exact ⟨front, List.append_assoc _ _ _⟩
  · rename_i full
    cases front with
    | nil => exact absurd short full
    | cons first front => exact ⟨front, List.append_assoc _ _ _⟩

theorem ne_syncPattern (header : 0x0E ∈ tail) : front ++ tail ≠ itmSyncPattern := by
  intro same
  have inside : (0x0E : BitVec 8) ∈ itmSyncPattern := same ▸ mem_append_right front header
  exact absurd inside (by decide)

theorem packetComplete_traced {rest : List (BitVec 8)} (buf : s.buf = 0x0E :: rest) :
    s.packetComplete = decide (2 ≤ rest.length) := by
  have header : s.bufByte 0 = 0x0E := by
    unfold bufByte
    rw [buf]
    rfl
  have hardware : itmPacketType 0x0E = .hardware := by decide
  have two : itmPayloadLen 0x0E = 2 := by decide
  unfold packetComplete
  rw [header, hardware]
  dsimp only
  rw [two, buf, length_cons]
  exact decide_eq_decide.mpr Nat.succ_le_succ_iff

theorem recvProto_early {front tail rest : List (BitVec 8)}
    (syncbuf : (s.storeByte input).syncbuf = front ++ tail) (header : 0x0E ∈ tail)
    (buf : (s.storeByte input).buf = 0x0E :: rest) (short : rest.length < 2) :
    s.recvProto input = (s.storeByte input, []) := by
  unfold recvProto
  dsimp only
  rw [syncbuf, if_neg (ne_syncPattern header), packetComplete_traced buf,
    decide_eq_false (Nat.not_le.mpr short), if_neg Bool.false_ne_true]

theorem recvProto_last {number control : BitVec 8}
    (syncbuf : (s.storeByte input).syncbuf = front ++ tail) (header : 0x0E ∈ tail)
    (buf : (s.storeByte input).buf = [0x0E, number, control]) :
    s.recvProto input = ({ (s.storeByte input).handleException.1 with buf := [] },
        (s.storeByte input).handleException.2) := by
  have first : (s.storeByte input).bufByte 0 = 0x0E := by
    unfold bufByte
    rw [buf]
    rfl
  have hardware : itmPacketType 0x0E = .hardware := by decide
  have two : itmPayloadLen 0x0E = 2 := by decide
  have handled : (s.storeByte input).handlePacket = (s.storeByte input).handleException := by
    unfold handlePacket
    rw [first, hardware]
    dsimp only
    unfold handleHardware
    dsimp only
    rw [first, two, buf]
    rfl
  unfold recvProto
  dsimp only
  rw [syncbuf, if_neg (ne_syncPattern header), packetComplete_traced buf, handled]
  rfl

theorem received (empty : s.buf = []) (packet : ExceptionPacket) :
    ∃ t : ItmState, t.buf = [0x0E, packet.number.byte, packet.control.byte] ∧
      t.ss = packet.control.ss ∧ t.currentMode = s.currentMode ∧ t.modeSs = s.modeSs ∧
      t.modeAnnIdx = s.modeAnnIdx ∧
      s.behind packet.bytes = { t.handleException.1 with buf := [] } ∧
      s.decode packet.bytes = t.handleException.2 := by
  have buf : (s.storeByte packet.header).buf = [0x0E] := by
    rw [storeByte_first empty, packet.traced]
  obtain ⟨front, sync⟩ := storeByte_syncbuf (List.append_nil s.syncbuf).symm (by decide)
    packet.header
  rw [packet.traced] at sync
  have first := recvProto_early sync (by decide) buf (by decide)
  have buf₂ : ((s.storeByte packet.header).storeByte packet.number).buf =
      [0x0E, packet.number.byte] := by
    rw [@storeByte_buf (s.storeByte packet.header) _ packet.numberClose (by rw [buf]; decide), buf]
    rfl
  obtain ⟨front₂, sync₂⟩ := storeByte_syncbuf sync (by decide) packet.number
  have second := recvProto_early sync₂ mem_cons_self buf₂ (show 1 < 2 by decide)
  have buf₃ : (((s.storeByte packet.header).storeByte packet.number).storeByte
      packet.control).buf = [0x0E, packet.number.byte, packet.control.byte] := by
    rw [@storeByte_buf (storeByte _ packet.number) _ packet.controlClose
      (by rw [buf₂]; exact (show 2 < 8 by decide)), buf₂]
    rfl
  obtain ⟨front₃, sync₃⟩ := storeByte_syncbuf sync₂ (show 2 < 6 by decide) packet.control
  have third := recvProto_last sync₃ mem_cons_self buf₃
  refine ⟨_, buf₃, rfl, rfl, rfl, rfl, ?_, ?_⟩
  · unfold ExceptionPacket.bytes behind behind behind behind
    rw [first, second, third]
  · unfold ExceptionPacket.bytes decode decode decode decode
    rw [first, second, third]
    exact List.append_nil _

theorem modeChange_anns (s : ItmState) (mode : Option String) (annIdx : ItmAnnClass) :
    (s.modeChange mode annIdx).2 =
      if s.currentMode then [⟨s.modeSs, s.ss, s.modeAnnIdx, .mode mode⟩] else [] := rfl

theorem handleException_eq {t : ItmState} {packet : ExceptionPacket}
    (buf : t.buf = [0x0E, packet.number.byte, packet.control.byte]) :
    ∃ ann : ItmAnn, ann.isMode = false ∧ t.handleException =
      ((t.modeChange packet.activeName (if packet.active = none then .trace else .modeExc)).1,
        (t.modeChange packet.activeName (if packet.active = none then .trace else .modeExc)).2 ++
          [ann]) := by
  have number : t.bufByte 1 = packet.number.byte := by
    unfold bufByte
    rw [buf]
    rfl
  have control : t.bufByte 2 = packet.control.byte := by
    unfold bufByte
    rw [buf]
    rfl
  unfold handleException ExceptionPacket.activeName ExceptionPacket.active
  dsimp only
  rw [number, control, packet.known]
  refine ⟨t.put .dwtExc (.exception packet.event.code (getExceptionName packet.excnum)), rfl, ?_⟩
  unfold ExceptionPacket.excnum
  cases packet.event with
  | enter => rfl
  | exit => rfl
  | resume => rfl

theorem Between.packet {active : Option Nat} {start : BitVec 64} (between : s.Between active start)
    (packet : ExceptionPacket) :
    (s.behind packet.bytes).Between packet.active packet.control.ss ∧
      (s.decode packet.bytes).filter ItmAnn.isMode = reportedMode active start packet := by
  obtain ⟨t, buf, ss, current, modeSs, modeAnnIdx, behind, decode⟩ := received between.empty packet
  obtain ⟨ann, other, handled⟩ := handleException_eq buf
  constructor
  · rw [behind, handled]
    unfold ExceptionPacket.activeName modeChange
    cases packet.active with
    | none => exact ⟨rfl, rfl, fun impossible => Bool.noConfusion impossible⟩
    | some excnum => exact ⟨rfl, rfl, fun _ => ⟨ss, rfl⟩⟩
  · rw [decode, handled, filter_append, filter_cons_of_neg (by rw [other]; decide),
      filter_nil, List.append_nil, modeChange_anns, current, between.current, modeSs,
      modeAnnIdx, ss]
    cases active with
    | none => rfl
    | some excnum =>
        obtain ⟨began, cls⟩ := between.mode rfl
        rw [began, cls]
        rfl

theorem decode_append (s : ItmState) (front back : List ItmByte) :
    s.decode (front ++ back) = s.decode front ++ (s.behind front).decode back := by
  induction front generalizing s with
  | nil => rfl
  | cons input front ih =>
      rw [cons_append, decode, ih, decode, List.append_assoc]
      rfl

theorem Between.packets {last : ExceptionPacket}
    (between : s.Between last.active last.control.ss) (packets : List ExceptionPacket) :
    (s.decode (packets.flatMap ExceptionPacket.bytes)).filter ItmAnn.isMode =
      reportedModes (last :: packets) := by
  induction packets generalizing s last with
  | nil => rfl
  | cons packet packets ih =>
      obtain ⟨next, anns⟩ := between.packet packet
      rw [flatMap_cons, decode_append, filter_append, anns, ih next]
      rfl

theorem decode_packets (packets : List ExceptionPacket) :
    (reset.decode (packets.flatMap ExceptionPacket.bytes)).filter ItmAnn.isMode =
      reportedModes packets := by
  cases packets with
  | nil => rfl
  | cons packet packets =>
      have begun : reset.Between none 0 :=
        ⟨rfl, rfl, fun impossible => Bool.noConfusion impossible⟩
      obtain ⟨next, anns⟩ := begun.packet packet
      rw [flatMap_cons, decode_append, filter_append, anns, next.packets]
      rfl

end ItmState

def ExceptionPacket.EndedBy (packet next : ExceptionPacket) : Prop :=
  ∀ excnum, packet.active = some excnum →
    next.activeName = some (getExceptionName excnum) ∧ exceptionClass excnum = .modeExc

theorem reportedMode_eq_iff (packet next : ExceptionPacket) :
    reportedMode packet.active packet.control.ss next = modeAnn packet next ↔
      packet.EndedBy next := by
  unfold reportedMode modeAnn ExceptionPacket.EndedBy
  cases packet.active with
  | none => exact ⟨fun _ excnum impossible => absurd impossible nofun, fun _ => rfl⟩
  | some excnum =>
      constructor
      · intro same other here
        obtain ⟨-, -, cls, mode⟩ := ItmAnn.mk.inj (List.cons.inj same).1
        obtain rfl := Option.some.inj here
        exact ⟨ItmField.mode.inj mode, cls.symm⟩
      · intro ended
        obtain ⟨name, cls⟩ := ended excnum rfl
        dsimp only
        rw [name, cls]

theorem length_reportedMode (packet next : ExceptionPacket) :
    (reportedMode packet.active packet.control.ss next).length = (modeAnn packet next).length := by
  unfold reportedMode modeAnn
  cases packet.active <;> rfl

theorem reportedModes_eq_iff (packets : List ExceptionPacket) :
    reportedModes packets = modeAnns packets ↔ packets.IsChain ExceptionPacket.EndedBy := by
  induction packets with
  | nil => exact ⟨fun _ => .nil, fun _ => rfl⟩
  | cons packet packets ih =>
      cases packets with
      | nil => exact ⟨fun _ => .singleton packet, fun _ => rfl⟩
      | cons next packets =>
          rw [isChain_cons_cons, ← ih, ← reportedMode_eq_iff]
          constructor
          · intro same
            exact append_inj same (length_reportedMode packet next)
          · rintro ⟨here, later⟩
            rw [reportedModes, here, later, modeAnns]

/-- Every mode has its own name and class exactly if each one ends with a packet of its name. -/
theorem modeAnns_iff (packets : List ExceptionPacket) :
    (ItmState.reset.decode (packets.flatMap ExceptionPacket.bytes)).filter ItmAnn.isMode =
        modeAnns packets ↔
      packets.IsChain ExceptionPacket.EndedBy := by
  rw [ItmState.decode_packets]
  exact reportedModes_eq_iff packets

def hardFault (event : ItmEvent) : ExceptionPacket :=
  { header := ⟨0, 10, 0x0E⟩
    number := ⟨10, 20, 3⟩
    control := ⟨20, 30, BitVec.ofNat 8 (16 * event.code)⟩
    event
    traced := rfl
    known := by cases event <;> rfl
    numberClose := by decide
    controlClose := by cases event <;> decide }

/-- A hard fault that is entered and left. -/
theorem modeAnns_nameless : ¬∀ packets : List ExceptionPacket,
      (ItmState.reset.decode (packets.flatMap ExceptionPacket.bytes)).filter ItmAnn.isMode =
        modeAnns packets := by
  intro right
  have ended := (reportedModes_eq_iff [hardFault .enter, hardFault .exit]).mp
    ((ItmState.decode_packets _).symm.trans (right _))
  obtain ⟨name, -⟩ := (isChain_cons_cons.mp ended).1 3 rfl
  cases name

end SigrokDecode
