import Mathlib.Data.List.Chain
import SigrokDecode.Decoders.ArmEtmv3Branches

/-!
# Runs of ETMv3 branches

`arm_etmv3_c` over the packets of one branch after another.
-/

namespace SigrokDecode

open List

/-- `next` comes without a long pause behind `previous`. -/
def EtmByte.Follows (previous next : EtmByte) : Prop :=
  ¬ (16 * (next.es - next.ss) < next.ss - previous.es ∧ previous.es ≠ 0)

instance (previous next : EtmByte) : Decidable (previous.Follows next) :=
  inferInstanceAs
    (Decidable (¬(16 * (next.es - next.ss) < next.ss - previous.es ∧ previous.es ≠ 0)))

structure EtmPacket where
  branch : EtmBranch
  inputs : List EtmByte

namespace EtmPacket

structure Sent (alternative : Bool) (packet : EtmPacket) : Prop where
  bytes : packet.inputs.map EtmByte.byte = packet.branch.bytes alternative
  unpaused : packet.inputs.IsChain EtmByte.Follows

def ann (packet : EtmPacket) : EtmAnn :=
  ⟨packet.inputs.head?.elim 0 EtmByte.ss, packet.inputs.getLast?.elim 0 EtmByte.es,
    packet.branch.field⟩

def Compressed (alternative : Bool) : EtmCpu → BitVec 32 → List EtmPacket → Prop
  | _, _, [] => True
  | cpu, previous, packet :: packets =>
      packet.branch.Suffices alternative cpu previous ∧
        Compressed alternative packet.branch.cpu packet.branch.target packets

def AllPlain (alternative : Bool) : BitVec 32 → List EtmPacket → Prop
  | _, [] => True
  | previous, packet :: packets =>
      packet.branch.Plain alternative previous ∧ AllPlain alternative packet.branch.target packets

end EtmPacket

namespace EtmState

variable {s t : EtmState} {byte : BitVec 8} {first : EtmByte}

theorem pushSync_ne_syncPattern
    (away : byte ≠ 0x80 ∨ ∃ older previous, s.syncbuf = older ++ [previous] ∧ previous ≠ 0) :
    (s.pushSync byte).syncbuf ≠ syncPattern := by
  intro equal
  have pattern : syncPattern = [0x00, 0x00, 0x00, 0x00] ++ [0x80] := rfl
  rw [pushSync, pattern] at equal
  obtain ⟨zeros, last⟩ := append_inj' equal rfl
  have mark : byte = 0x80 := by simpa using last
  obtain other | ⟨older, previous, syncbuf, nonzero⟩ := away
  · exact other mark
  · have final : (if s.syncbuf.length < 5 then s.syncbuf else s.syncbuf.drop 1).getLast? =
        some previous := by
      rw [syncbuf]
      split
      · simp
      · rename_i full
        rw [length_append, length_singleton] at full
        rw [drop_append_of_le_length (by omega)]
        simp
    rw [zeros] at final
    have zero : (0 : BitVec 8) = previous := by simpa using final
    exact nonzero zero.symm

/-- The bytes of a packet so far are in the buffer, and nothing else has changed. -/
structure Holds (s : EtmState) (first last : EtmByte) (received : List (BitVec 8))
    (t : EtmState) : Prop where
  buf : t.buf = received
  startsample : t.startsample = first.ss
  prevsample : t.prevsample = last.es
  syncbuf : ∃ older, t.syncbuf = older ++ [last.byte]
  lastBranch : t.lastBranch = s.lastBranch
  cpuState : t.cpuState = s.cpuState
  anns : t.anns = s.anns

theorem holds_first (idle : s.buf = []) (input : EtmByte) :
    s.Holds input input [input.byte] ((s.storeByte input).pushSync input.byte) := by
  have buf : (s.storeByte input).buf = [input.byte] := by simp [storeByte, idle]
  have start : (s.storeByte input).startsample = input.ss := by simp [storeByte, idle]
  exact ⟨buf, start, rfl, ⟨_, rfl⟩, rfl, rfl, rfl⟩

theorem Holds.next {last input : EtmByte} {received : List (BitVec 8)}
    (holds : s.Holds first last received t) (follows : last.Follows input)
    (some : received ≠ []) (room : received.length < 64) :
    s.Holds first input (received ++ [input.byte])
      ((t.storeByte input).pushSync input.byte) := by
  have unpaused : ¬ (16 * (input.es - input.ss) < input.ss - t.prevsample ∧ t.prevsample ≠ 0) := by
    rw [holds.prevsample]
    exact follows
  have buf : (t.storeByte input).buf = received ++ [input.byte] := by
    simp only [storeByte, if_neg unpaused, holds.buf, if_pos room]
  have start : (t.storeByte input).startsample = first.ss := by
    have several : ¬ (received ++ [input.byte]).length = 1 := by simpa using some
    simp only [storeByte, if_neg unpaused, holds.buf, if_pos room, if_neg several,
      holds.startsample]
  exact ⟨buf, start, rfl, ⟨_, rfl⟩, holds.lastBranch, holds.cpuState, holds.anns⟩

theorem Holds.away {last : EtmByte} {received : List (BitVec 8)}
    (holds : s.Holds first last received t) (more : last.byte.getLsbD 7 = true)
    (input : EtmByte) : ((t.storeByte input).pushSync input.byte).syncbuf ≠ syncPattern := by
  obtain ⟨older, syncbuf⟩ := holds.syncbuf
  refine pushSync_ne_syncPattern (Or.inr ⟨older, last.byte, syncbuf, ?_⟩)
  intro zero
  rw [zero] at more
  simp at more

theorem getPacketType_odd (odd : byte.getLsbD 0 = true) : getPacketType byte = .branch := by
  have mask : ∀ byte : BitVec 8, byte.getLsbD 0 = true → byte &&& 0x01 ≠ 0 := by decide +kernel
  rw [getPacketType, if_pos (mask byte odd)]

theorem recvProto_branch (config : EtmConfig) {input : EtmByte}
    {head : BitVec 8} {rest : List (BitVec 8)} (odd : head.getLsbD 0 = true)
    (holds : s.Holds first input (head :: rest) ((t.storeByte input).pushSync input.byte))
    (away : ((t.storeByte input).pushSync input.byte).syncbuf ≠ syncPattern) :
    t.recvProto config input =
      ((t.storeByte input).pushSync input.byte).handleBranch config first.ss input.es := by
  rw [recvProto]
  simp only [if_neg away]
  rw [processBuffer, holds.buf]
  simp only [getPacketType_odd odd, holds.startsample]

theorem handleBranch_more {config : EtmConfig} {before : List (BitVec 8)} (buf : s.buf = before ++ [byte]) (more : byte.getLsbD 7 = true)
    (ss es : BitVec 64) : s.handleBranch config ss es = s := by
  have last : s.bufByte (s.buf.length - 1) = byte := by
    rw [bufByte, buf, length_append, length_singleton, Nat.add_sub_cancel,
      getD_append_right _ _ _ _ (le_refl _), Nat.sub_self, getD_cons_zero]
  have mark : byte &&& 0x80 ≠ 0 := by
    rw [ne_eq, top_clear_iff, more]
    simp
  rw [handleBranch, last, if_pos mark]

structure Reported (s : EtmState) (branch : EtmBranch) (ann : EtmAnn) (t : EtmState) : Prop where
  buf : t.buf = []
  lastBranch : t.lastBranch = branch.target
  cpuState : t.cpuState = branch.cpu
  anns : t.anns = s.anns ++ [ann]

section Packet

variable {config : EtmConfig} {branch : EtmBranch} {s : EtmState}

theorem Holds.reported {t : EtmState} {first last : EtmByte}
    (sufficient : branch.Suffices config.branchEncAlt s.cpuState s.lastBranch)
    (plain : branch.Plain config.branchEncAlt s.lastBranch)
    (holds : s.Holds first last (branch.addressBytes config.branchEncAlt) t) :
    s.Reported branch ⟨first.ss, last.es, branch.field⟩
      (t.handleBranch config first.ss last.es) := by
  rw [← holds.lastBranch] at plain
  rw [← holds.lastBranch, ← holds.cpuState] at sufficient
  rw [handleBranch_plain sufficient plain holds.buf]
  exact ⟨rfl, rfl, rfl, by simp only [holds.anns]⟩

theorem Holds.rest (sufficient : branch.Suffices config.branchEncAlt s.cpuState s.lastBranch)
    (plain : branch.Plain config.branchEncAlt s.lastBranch) {first : EtmByte} :
    ∀ {inputs : List EtmByte} {t : EtmState} {last input : EtmByte}
      {received : List (BitVec 8)}, s.Holds first last received t → received ≠ [] →
      last.byte.getLsbD 7 = true → (last :: input :: inputs).IsChain EtmByte.Follows →
      branch.addressBytes config.branchEncAlt = received ++ (input :: inputs).map EtmByte.byte →
      s.Reported branch ⟨first.ss, (inputs.getLastD input).es, branch.field⟩
        ((input :: inputs).foldl (recvProto config) t) := by
  intro inputs
  induction inputs with
  | nil =>
      intro t last input received holds some more chain bytes
      have size := branch.size
      have length := branch.length_addressBytes config.branchEncAlt
      rw [bytes] at length
      simp only [map_cons, map_nil, length_append, length_singleton] at length
      obtain ⟨head, rest, parts, odd⟩ :=
        branch.addressBytes_head config.branchEncAlt plain.exception
      have next := holds.next (isChain_cons_cons.mp chain).1 some (by omega)
      have away := holds.away more input
      simp only [map_cons, map_nil] at bytes
      rw [← bytes] at next
      rw [foldl_cons, foldl_nil, recvProto_branch config odd (parts ▸ next) away]
      exact next.reported sufficient plain
  | cons following inputs step =>
      intro t last input received holds some more chain bytes
      have size := branch.size
      have length := branch.length_addressBytes config.branchEncAlt
      rw [bytes] at length
      simp only [map_cons, length_append, length_cons] at length
      obtain ⟨head, rest, parts, odd⟩ :=
        branch.addressBytes_head config.branchEncAlt plain.exception
      have next := holds.next (isChain_cons_cons.mp chain).1 some (by omega)
      have away := holds.away more input
      have inner : input.byte.getLsbD 7 = true :=
        branch.addressBytes_inner config.branchEncAlt received bytes (by simp)
      obtain ⟨start, received', front⟩ := exists_cons_of_ne_nil some
      have same : start = head := by
        rw [parts, front, cons_append] at bytes
        exact (List.cons.inj bytes).1.symm
      have stays : t.recvProto config input = (t.storeByte input).pushSync input.byte := by
        rw [front, same, cons_append] at next
        rw [recvProto_branch config odd next away]
        exact handleBranch_more (next.buf.trans (cons_append ..).symm) inner _ _
      rw [foldl_cons, stays]
      have later := step next (by simp) inner (isChain_cons_cons.mp chain).2
        (by rw [bytes]; simp)
      rw [getLastD_cons]
      exact later

theorem packet_reported {packet : EtmPacket} (idle : s.buf = [])
    (sent : packet.Sent config.branchEncAlt)
    (sufficient : packet.branch.Suffices config.branchEncAlt s.cpuState s.lastBranch)
    (plain : packet.branch.Plain config.branchEncAlt s.lastBranch) :
    s.Reported packet.branch packet.ann (packet.inputs.foldl (recvProto config) s) := by
  obtain ⟨branch, inputs⟩ := packet
  obtain ⟨head, rest, parts, odd⟩ := branch.addressBytes_head config.branchEncAlt plain.exception
  have bytes : inputs.map EtmByte.byte = branch.addressBytes config.branchEncAlt := by
    have whole : inputs.map EtmByte.byte = branch.bytes config.branchEncAlt := sent.bytes
    rw [whole, EtmBranch.bytes, show branch.exception = none from plain.exception]
    exact List.append_nil _
  rw [parts] at bytes
  cases inputs with
  | nil => cases bytes
  | cons input inputs =>
      obtain ⟨first, others⟩ := List.cons.inj bytes
      have holds := holds_first idle input
      have away : ((s.storeByte input).pushSync input.byte).syncbuf ≠ syncPattern := by
        refine pushSync_ne_syncPattern (Or.inl ?_)
        intro pattern
        rw [← first, pattern] at odd
        simp at odd
      have handled := recvProto_branch config (first ▸ odd) holds away
      cases inputs with
      | nil =>
          have whole : branch.addressBytes config.branchEncAlt = [input.byte] := by
            rw [parts, ← others, first]
            rfl
          rw [foldl_cons, foldl_nil, handled]
          rw [← whole] at holds
          exact holds.reported sufficient plain
      | cons next inputs =>
          have split : branch.addressBytes config.branchEncAlt =
              [input.byte] ++ (next :: inputs).map EtmByte.byte := by
            rw [parts, ← others, first]
            rfl
          have inner : input.byte.getLsbD 7 = true :=
            branch.addressBytes_inner config.branchEncAlt [] split (by simp)
          have stays : s.recvProto config input = (s.storeByte input).pushSync input.byte := by
            rw [handled]
            exact handleBranch_more (show _ = [] ++ [input.byte] from holds.buf) inner _ _
          rw [foldl_cons, stays]
          have later := holds.rest sufficient plain (by simp) inner sent.unpaused split
          have ann : EtmPacket.ann ⟨branch, input :: next :: inputs⟩ =
              ⟨input.ss, (inputs.getLastD next).es, branch.field⟩ := by
            simp [EtmPacket.ann, getLast?_cons, getLastD_eq_getLast?]
          rw [ann]
          exact later

end Packet

theorem packets_reported {config : EtmConfig} : ∀ {packets : List EtmPacket} {s : EtmState},
    s.buf = [] → (∀ packet ∈ packets, packet.Sent config.branchEncAlt) →
    EtmPacket.Compressed config.branchEncAlt s.cpuState s.lastBranch packets →
    EtmPacket.AllPlain config.branchEncAlt s.lastBranch packets →
    ((packets.flatMap EtmPacket.inputs).foldl (recvProto config) s).buf = [] ∧
      ((packets.flatMap EtmPacket.inputs).foldl (recvProto config) s).anns =
        s.anns ++ packets.map EtmPacket.ann := by
  intro packets
  induction packets with
  | nil =>
      intro s idle _ _ _
      exact ⟨idle, (List.append_nil _).symm⟩
  | cons packet packets run =>
      intro s idle sent compressed plain
      have reported := packet_reported idle (sent packet mem_cons_self) compressed.1 plain.1
      have later := compressed.2
      rw [← reported.cpuState, ← reported.lastBranch] at later
      have plain' := plain.2
      rw [← reported.lastBranch] at plain'
      obtain ⟨buf, anns⟩ := run reported.buf
        (fun other member => sent other (mem_cons_of_mem _ member)) later plain'
      rw [flatMap_cons, foldl_append]
      refine ⟨buf, ?_⟩
      rw [anns, reported.anns, map_cons, List.append_assoc]
      rfl

/-- A full packet in ARM state, and a single byte for a target near by. -/
theorem packets_reported_armRun :
    ((([⟨⟨.arm, 0x8000, 5, none, by decide, by decide⟩,
        [⟨10, 20, 0x81⟩, ⟨20, 30, 0x80⟩, ⟨30, 40, 0x81⟩, ⟨40, 50, 0x80⟩, ⟨50, 60, 0x08⟩]⟩,
      ⟨⟨.arm, 0x8010, 1, none, by decide, by decide⟩, [⟨60, 70, 0x09⟩]⟩] :
        List EtmPacket).flatMap EtmPacket.inputs).foldl (recvProto ⟨false, fun _ _ => 0⟩)
          reset).anns = [⟨10, 60, .branch 0x8000⟩, ⟨60, 70, .branch 0x8010⟩] := by
  have upper : ∀ i, 9 ≤ i + 1 →
      (0x8010 : BitVec 32).getLsbD i = (0x8000 : BitVec 32).getLsbD i := by
    have within : ∀ i < 32, 9 ≤ i + 1 →
        (0x8010 : BitVec 32).getLsbD i = (0x8000 : BitVec 32).getLsbD i := by decide
    intro i behind
    rcases Nat.lt_or_ge i 32 with small | large
    · exact within i small behind
    · rw [BitVec.getLsbD_of_ge _ _ large, BitVec.getLsbD_of_ge _ _ large]
  refine (packets_reported ?_ ?_ ?_ ?_).2.trans ?_
  · rfl
  · intro packet member
    simp only [mem_cons, not_mem_nil, or_false] at member
    obtain rfl | rfl := member
    · exact ⟨by decide, by decide⟩
    · exact ⟨by decide, by decide⟩
  · refine ⟨?_, ?_, trivial⟩
    · exact ⟨fun short => absurd short (by decide), fun short => absurd short (by decide),
        fun some => absurd some (by decide)⟩
    · exact ⟨fun _ => rfl, fun _ => upper, fun some => absurd some (by decide)⟩
  · refine ⟨?_, ?_, trivial⟩
    · exact ⟨rfl, fun alternative => absurd alternative (by decide), fun _ => nofun,
        fun alternative => absurd alternative (by decide)⟩
    · exact ⟨rfl, fun alternative => absurd alternative (by decide), fun _ => nofun,
        fun alternative => absurd alternative (by decide)⟩
  · rfl

/-- A branch with an exception is reported before the byte that names it is there, and that byte
is taken for a packet of its own. -/
theorem packet_misread_exception : ¬ ∀ (config : EtmConfig) (packets : List EtmPacket)
    (s : EtmState), s.buf = [] → (∀ packet ∈ packets, packet.Sent config.branchEncAlt) →
    EtmPacket.Compressed config.branchEncAlt s.cpuState s.lastBranch packets →
    ((packets.flatMap EtmPacket.inputs).foldl (recvProto config) s).buf = [] ∧
      ((packets.flatMap EtmPacket.inputs).foldl (recvProto config) s).anns =
        s.anns ++ packets.map EtmPacket.ann := by
  intro always
  have claimed := always ⟨false, fun _ _ => 0⟩
    [⟨⟨.arm, 0x8000, 5, some ⟨false, 1, false, false, false, 0⟩, by decide, by decide⟩,
      [⟨10, 20, 0x81⟩, ⟨20, 30, 0x80⟩, ⟨30, 40, 0x81⟩, ⟨40, 50, 0x80⟩, ⟨50, 60, 0x48⟩,
        ⟨60, 70, 0x02⟩]⟩] reset rfl
    (by
      intro packet member
      rw [mem_singleton] at member
      subst member
      exact ⟨by decide, by decide⟩)
    ⟨⟨fun short => absurd short (by decide), fun short => absurd short (by decide),
      fun _ => rfl⟩, trivial⟩
  exact absurd claimed (by decide +kernel)

end EtmState

end SigrokDecode
