import Mathlib.Data.List.GetD
import SigrokDecode.Decoders.ArmEtmv3

/-!
# ETMv3 branch packets

The branch packets of a trace as the macrocell sends them, and which of them `arm_etmv3_c`
reports.
-/

namespace SigrokDecode

open List BitVec

/-- The exception in the information bytes behind a branch address. -/
structure EtmException where
  nonSecure : Bool
  number : BitVec 9
  cancelled : Bool
  altIsa : Bool
  hypervisor : Bool
  resume : BitVec 4

namespace EtmException

variable (exception : EtmException)

def lowByte : BitVec 8 :=
  (BitVec.ofBool exception.nonSecure).setWidth 8 |||
    (exception.number.extractLsb' 0 4).setWidth 8 <<< 1 |||
    (BitVec.ofBool exception.cancelled).setWidth 8 <<< 5 |||
    (BitVec.ofBool exception.altIsa).setWidth 8 <<< 6

def middleByte : BitVec 8 :=
  (exception.number.extractLsb' 4 5).setWidth 8 |||
    (BitVec.ofBool exception.hypervisor).setWidth 8 <<< 5

def bytes : List (BitVec 8) :=
  if exception.resume ≠ 0 then
    [exception.lowByte ||| 0x80, exception.middleByte ||| 0x80, exception.resume.setWidth 8]
  else if exception.middleByte ≠ 0 then
    [exception.lowByte ||| 0x80, exception.middleByte]
  else
    [exception.lowByte]

end EtmException

/-- The address bits that an instruction in this state never has. -/
def EtmCpu.shift : EtmCpu → Nat
  | .arm => 2
  | .thumb => 1
  | .jazelle => 0

/-- A branch in a packet with `length` address bytes. -/
structure EtmBranch where
  cpu : EtmCpu
  target : BitVec 32
  length : Nat
  exception : Option EtmException
  size : 1 ≤ length ∧ length ≤ 5
  aligned : ∀ i, i < cpu.shift → target.getLsbD i = false

namespace EtmBranch

variable (branch : EtmBranch) (alternative : Bool)

def payload : BitVec 33 :=
  (branch.target >>> branch.cpu.shift).setWidth 33 <<< 1 ||| 1

def innerByte (i : Nat) : BitVec 8 :=
  (branch.payload.extractLsb' (7 * i) 7).setWidth 8 ||| 0x80

def exceptionBit : BitVec 8 :=
  if branch.exception.isSome then 0x40 else 0

def fifthByte : BitVec 8 :=
  match branch.cpu with
  | .arm => (branch.payload.extractLsb' 28 3).setWidth 8 ||| 0x08
  | .thumb => (branch.payload.extractLsb' 28 4).setWidth 8 ||| 0x10
  | .jazelle => (branch.payload.extractLsb' 28 5).setWidth 8 ||| 0x20

def lastWidth : Nat :=
  if alternative && decide (2 ≤ branch.length) then 6 else 7

def lastByte : BitVec 8 :=
  (if branch.length = 5 then branch.fifthByte
    else (branch.payload.extractLsb' (7 * (branch.length - 1))
      (branch.lastWidth alternative)).setWidth 8) ||| branch.exceptionBit

def addressBytes : List (BitVec 8) :=
  (List.range (branch.length - 1)).map branch.innerByte ++ [branch.lastByte alternative]

def bytes : List (BitVec 8) :=
  branch.addressBytes alternative ++ (branch.exception.elim [] EtmException.bytes)

def payloadBits : Nat :=
  7 * (branch.length - 1) + branch.lastWidth alternative

/-- The packet tells the target behind a branch to `previous` in the state `cpu`. -/
structure Suffices (cpu : EtmCpu) (previous : BitVec 32) : Prop where
  state : branch.length < 5 → branch.cpu = cpu
  upper : branch.length < 5 → ∀ i, branch.payloadBits alternative + branch.cpu.shift ≤ i + 1 →
    branch.target.getLsbD i = previous.getLsbD i
  exception : branch.exception.isSome →
    if alternative then 2 ≤ branch.length else branch.length = 5

/-- The report of the packet. -/
def field : EtmField :=
  match branch.exception with
  | none => .branch branch.target
  | some exception => .exception branch.target (exception.number.setWidth 32)

/-- No exception; no fifth byte in the alternative encoding, and none with the highest bit of
a Jazelle address; and a single byte in the alternative encoding has a 0 for the highest of its
six address bits only where the branch in front of it has one, too. -/
structure Plain (previous : BitVec 32) : Prop where
  exception : branch.exception = none
  fifth : alternative = true → branch.length ≠ 5
  jazelle : branch.length = 5 → branch.cpu = .jazelle → branch.target.getLsbD 31 = false
  single : alternative = true → branch.length = 1 → previous.getLsbD (branch.cpu.shift + 5) = true →
      branch.target.getLsbD (branch.cpu.shift + 5) = true

end EtmBranch

theorem top_clear_iff : ∀ byte : BitVec 8, byte &&& 0x80 = 0 ↔ byte.getLsbD 7 = false := by
  decide +kernel

namespace EtmConfig

variable (config : EtmConfig)

/-- The bits of a number with the bytes of `bytes` in it from byte `i` on. -/
theorem getLsbD_varintByte (byte : BitVec 8) {i j : Nat} (room : i < 5) (inside : j < 32) :
    (config.shiftLeft ((byte &&& 0x7F).setWidth 32) (i * 7)).getLsbD j =
      (decide (7 * i ≤ j) && decide (j < 7 * i + 7) && byte.getLsbD (j - 7 * i)) := by
  have low : ∀ k, (byte &&& 0x7F).getLsbD k = (decide (k < 7) && byte.getLsbD k) := by
    intro k
    have mask : (0x7F : BitVec 8).getLsbD k = decide (k < 7) := by
      by_cases small : k < 8
      · have each : ∀ k < 8, (0x7F : BitVec 8).getLsbD k = decide (k < 7) := by decide
        exact each k small
      · rw [getLsbD_of_ge _ _ (by omega)]
        simp
        omega
    rw [getLsbD_and, mask, Bool.and_comm]
  rw [shiftLeft, if_pos (by omega), getLsbD_shiftLeft, getLsbD_setWidth, low,
    Nat.mul_comm i 7]
  rcases Nat.lt_or_ge j (7 * i) with before | behind
  · simp [before]
  · by_cases small : j < 7 * i + 7
    · simp [inside, behind, small, show ¬ j < 7 * i by omega, show j - 7 * i < 32 by omega,
        show j - 7 * i < 7 by omega]
    · simp [inside, behind, small, show ¬ j - 7 * i < 7 by omega]

/-- `parse_varint` over bytes with others to come and a last one: all of them are read, and
seven bits of each are in the value. -/
theorem parseVarintFrom_bytes {last : BitVec 8} (stop : last.getLsbD 7 = false) :
    ∀ {inner : List (BitVec 8)} (i : Nat) (v : BitVec 32),
      (∀ byte ∈ inner, byte.getLsbD 7 = true) → i + inner.length < 5 →
      (config.parseVarintFrom i v (inner ++ [last])).2 = i + inner.length + 1 ∧
        ∀ j, j < 32 → (config.parseVarintFrom i v (inner ++ [last])).1.getLsbD j =
          (v.getLsbD j || (decide (7 * i ≤ j) &&
            ((inner ++ [last]).getD (j / 7 - i) 0).getLsbD (j % 7)))
  | [], i, v, _, room => by
      have clear : last &&& 0x80 = 0 := (top_clear_iff last).mpr stop
      simp only [nil_append, parseVarintFrom, clear, if_true, length_nil, Nat.add_zero, true_and]
      intro j inside
      rw [getLsbD_or, config.getLsbD_varintByte last (by simpa using room) inside]
      congr 1
      by_cases behind : 7 * i ≤ j
      · by_cases small : j < 7 * i + 7
        · have first : j / 7 - i = 0 := by omega
          have place : j - 7 * i = j % 7 := by omega
          simp [behind, small, first, place]
        · have later : j / 7 - i ≠ 0 := by omega
          obtain ⟨k, index⟩ := Nat.exists_eq_succ_of_ne_zero later
          simp [small, index]
      · simp [behind]
  | byte :: inner, i, v, marks, room => by
      have mark : byte.getLsbD 7 = true := marks byte mem_cons_self
      have going : ¬ byte &&& 0x80 = 0 := by
        rw [top_clear_iff, mark]
        simp
      have room' : i + 1 + inner.length < 5 := by
        rw [length_cons] at room
        omega
      obtain ⟨length, bits⟩ := parseVarintFrom_bytes stop (i + 1)
        (v ||| config.shiftLeft ((byte &&& 0x7F).setWidth 32) (i * 7))
        (fun other member => marks other (mem_cons_of_mem _ member)) room'
      simp only [List.cons_append, parseVarintFrom, going, if_false, length_cons]
      refine ⟨by omega, ?_⟩
      intro j inside
      rw [bits j inside, getLsbD_or,
        config.getLsbD_varintByte byte (by omega) inside, Bool.or_assoc]
      congr 1
      by_cases behind : 7 * i ≤ j
      · by_cases small : j < 7 * i + 7
        · have first : j / 7 - i = 0 := by omega
          have place : j - 7 * i = j % 7 := by omega
          simp [behind, small, first, place, show ¬ 7 * (i + 1) ≤ j by omega]
        · have index : j / 7 - i = (j / 7 - (i + 1)) + 1 := by omega
          rw [index, getD_cons_succ]
          simp [behind, small, show 7 * (i + 1) ≤ j by omega]
      · simp [behind, show ¬ 7 * (i + 1) ≤ j by omega]

end EtmConfig

namespace EtmBranch

variable (branch : EtmBranch) (alternative : Bool)

theorem getLsbD_payload (i : Nat) : branch.payload.getLsbD i = (decide (i = 0) ||
      (decide (i < 33) && branch.target.getLsbD (branch.cpu.shift + i - 1))) := by
  rw [payload]
  rcases Nat.eq_zero_or_pos i with rfl | positive
  · simp
  · have one : (1 : BitVec 33).getLsbD i = false := by
      rw [show (1 : BitVec 33) = 1#33 from rfl, getLsbD_one]
      simp
      omega
    have place : branch.cpu.shift + (i - 1) = branch.cpu.shift + i - 1 := by omega
    have nonzero : i ≠ 0 := by omega
    have positive' : 1 ≤ i := positive
    simp only [getLsbD_or, one, Bool.or_false, getLsbD_shiftLeft,
      getLsbD_setWidth, getLsbD_ushiftRight, place, nonzero, decide_false,
      Bool.false_or]
    by_cases inside : i < 33
    · simp [inside, show i - 1 < 33 by omega, show ¬ i < 1 by omega]
    · simp [inside]

theorem payload_low : branch.payload.getLsbD 0 = true := by
  rw [getLsbD_payload]
  simp

theorem getLsbD_payload_target {i : Nat} (shifted : branch.cpu.shift ≤ i) (inside : i < 32) :
    branch.payload.getLsbD (i + 1 - branch.cpu.shift) = branch.target.getLsbD i := by
  rw [getLsbD_payload]
  have place : branch.cpu.shift + (i + 1 - branch.cpu.shift) - 1 = i := by omega
  rw [place]
  simp [show i + 1 - branch.cpu.shift ≠ 0 by omega, show i + 1 - branch.cpu.shift < 33 by omega]

theorem getLsbD_innerByte (i : Nat) {k : Nat} (low : k < 7) :
    (branch.innerByte i).getLsbD k = branch.payload.getLsbD (7 * i + k) := by
  have mark : ∀ k < 7, (0x80 : BitVec 8).getLsbD k = false := by decide
  rw [innerByte, getLsbD_or, mark k low, getLsbD_setWidth, getLsbD_extractLsb']
  simp [low, show k < 8 by omega]

theorem innerByte_top (i : Nat) : (branch.innerByte i).getLsbD 7 = true := by
  rw [innerByte, getLsbD_or, show (0x80 : BitVec 8).getLsbD 7 = true by decide]
  simp

theorem exceptionBit_plain (plain : branch.exception = none) : branch.exceptionBit = 0 := by
  rw [exceptionBit, plain]
  rfl

theorem fifthByte_marks : branch.fifthByte.getLsbD 7 = false ∧ branch.fifthByte &&& 0x40 = 0 ∧
    match branch.cpu with
    | .arm => branch.fifthByte &&& 0xB8 = 0x08
    | .thumb => branch.fifthByte &&& 0xB8 ≠ 0x08 ∧ branch.fifthByte &&& 0xB0 = 0x10
    | .jazelle => branch.fifthByte &&& 0xB8 ≠ 0x08 ∧ branch.fifthByte &&& 0xB0 ≠ 0x10 ∧
        branch.fifthByte &&& 0xA0 = 0x20 := by
  have arm : ∀ bits : BitVec 3, (bits.setWidth 8 ||| 0x08 : BitVec 8).getLsbD 7 = false ∧
      (bits.setWidth 8 ||| 0x08 : BitVec 8) &&& 0x40 = 0 ∧
      (bits.setWidth 8 ||| 0x08 : BitVec 8) &&& 0xB8 = 0x08 := by decide +kernel
  have thumb : ∀ bits : BitVec 4, (bits.setWidth 8 ||| 0x10 : BitVec 8).getLsbD 7 = false ∧
      (bits.setWidth 8 ||| 0x10 : BitVec 8) &&& 0x40 = 0 ∧
      (bits.setWidth 8 ||| 0x10 : BitVec 8) &&& 0xB8 ≠ 0x08 ∧
      (bits.setWidth 8 ||| 0x10 : BitVec 8) &&& 0xB0 = 0x10 := by decide +kernel
  have jazelle : ∀ bits : BitVec 5, (bits.setWidth 8 ||| 0x20 : BitVec 8).getLsbD 7 = false ∧
      (bits.setWidth 8 ||| 0x20 : BitVec 8) &&& 0x40 = 0 ∧
      (bits.setWidth 8 ||| 0x20 : BitVec 8) &&& 0xB8 ≠ 0x08 ∧
      (bits.setWidth 8 ||| 0x20 : BitVec 8) &&& 0xB0 ≠ 0x10 ∧
      (bits.setWidth 8 ||| 0x20 : BitVec 8) &&& 0xA0 = 0x20 := by decide +kernel
  rw [fifthByte]
  cases branch.cpu with
  | arm => exact arm _
  | thumb => exact thumb _
  | jazelle => exact jazelle _

theorem getLsbD_fifthByte {k : Nat} (low : k < 4) (below : k + branch.cpu.shift < 5) :
    branch.fifthByte.getLsbD k = branch.payload.getLsbD (28 + k) := by
  have marks : ∀ k < 4, (0x10 : BitVec 8).getLsbD k = false ∧ (0x20 : BitVec 8).getLsbD k = false ∧
      (k < 3 → (0x08 : BitVec 8).getLsbD k = false) := by decide
  obtain ⟨thumb, jazelle, arm⟩ := marks k low
  rw [fifthByte]
  cases state : branch.cpu with
  | arm =>
      rw [state] at below
      have small : k < 3 := by
        simp only [EtmCpu.shift] at below
        omega
      simp only [getLsbD_or, getLsbD_setWidth, getLsbD_extractLsb', arm small]
      simp only [small, show k < 8 by omega, decide_true, Bool.true_and, Bool.or_false]
  | thumb =>
      simp only [getLsbD_or, getLsbD_setWidth, getLsbD_extractLsb', thumb]
      simp only [low, show k < 8 by omega, decide_true, Bool.true_and, Bool.or_false]
  | jazelle =>
      simp only [getLsbD_or, getLsbD_setWidth, getLsbD_extractLsb', jazelle]
      simp only [show k < 5 by omega, show k < 8 by omega, decide_true, Bool.true_and,
        Bool.or_false]

theorem lastWidth_le : branch.lastWidth alternative ≤ 7 := by
  rw [lastWidth]
  split <;> omega

theorem lastByte_fifth (plain : branch.exception = none) (long : branch.length = 5) :
    branch.lastByte alternative = branch.fifthByte := by
  rw [lastByte, if_pos long, branch.exceptionBit_plain plain]
  exact or_zero

theorem getLsbD_lastByte (plain : branch.exception = none) (short : branch.length ≠ 5)
    (k : Nat) : (branch.lastByte alternative).getLsbD k =
      (decide (k < branch.lastWidth alternative) &&
        branch.payload.getLsbD (7 * (branch.length - 1) + k)) := by
  have width := branch.lastWidth_le alternative
  rw [lastByte, if_neg short, branch.exceptionBit_plain plain]
  simp only [ofNat_eq_ofNat, or_zero, getLsbD_setWidth, getLsbD_extractLsb']
  by_cases low : k < branch.lastWidth alternative
  · simp [low, show k < 8 by omega]
  · simp [low]

theorem lastByte_top (plain : branch.exception = none) :
    (branch.lastByte alternative).getLsbD 7 = false := by
  by_cases long : branch.length = 5
  · rw [branch.lastByte_fifth alternative plain long]
    exact branch.fifthByte_marks.1
  · have width := branch.lastWidth_le alternative
    rw [branch.getLsbD_lastByte alternative plain long]
    simp
    omega

theorem length_addressBytes : (branch.addressBytes alternative).length = branch.length := by
  have size := branch.size
  simp [addressBytes]
  omega

theorem getLsbD_varint (config : EtmConfig) (plain : branch.exception = none) {j : Nat}
    (inside : j < 32) (below : j + branch.cpu.shift < 33) :
    (config.parseVarint (branch.addressBytes alternative)).1.getLsbD j =
      ((decide (j < branch.payloadBits alternative) || decide (branch.length = 5)) &&
        branch.payload.getLsbD j) := by
  have size := branch.size
  have inner : ∀ byte ∈ (range (branch.length - 1)).map branch.innerByte,
      byte.getLsbD 7 = true := by
    intro byte member
    obtain ⟨i, -, rfl⟩ := mem_map.mp member
    exact branch.innerByte_top i
  obtain ⟨-, bits⟩ := config.parseVarintFrom_bytes (branch.lastByte_top alternative plain) 0 0
    inner (by simp; omega)
  rw [EtmConfig.parseVarint, addressBytes, bits j inside, payloadBits]
  have low : j % 7 < 7 := Nat.mod_lt _ (by omega)
  have zero : (0 : BitVec 32).getLsbD j = false := getLsbD_zero
  rcases Nat.lt_or_ge j (7 * (branch.length - 1)) with before | behind
  · have index : j / 7 < branch.length - 1 := by omega
    have place : 7 * (j / 7) + j % 7 = j := by omega
    rw [getD_append _ _ _ _ (by simpa using index)]
    simp [getD_eq_getElem?_getD, index, branch.getLsbD_innerByte _ low, place,
      show j < 7 * (branch.length - 1) + branch.lastWidth alternative by omega]
  · by_cases last : j < 7 * branch.length
    · have index : j / 7 = branch.length - 1 := by omega
      have place : 7 * (branch.length - 1) + j % 7 = j := by omega
      rw [getD_append_right _ _ _ _ (by simp; omega)]
      simp only [Nat.sub_zero, length_map, length_range, index, Nat.sub_self,
        getD_cons_zero, zero, Bool.false_or, Nat.mul_zero, Nat.zero_le, decide_true,
        Bool.true_and]
      by_cases long : branch.length = 5
      · rw [branch.lastByte_fifth alternative plain long,
          branch.getLsbD_fifthByte (by omega) (by omega)]
        simp [long, show 28 + j % 7 = j by omega]
      · rw [branch.getLsbD_lastByte alternative plain long, place]
        have same : j % 7 < branch.lastWidth alternative ↔
            j < 7 * (branch.length - 1) + branch.lastWidth alternative := by omega
        simp [long, same]
    · have width := branch.lastWidth_le alternative
      have short : branch.length ≠ 5 := by omega
      rw [getD_eq_default _ _ (by simp; omega)]
      simp [short]
      omega

theorem parseVarint_length (config : EtmConfig) (plain : branch.exception = none) :
    (config.parseVarint (branch.addressBytes alternative)).2 = branch.length := by
  have size := branch.size
  have inner : ∀ byte ∈ (range (branch.length - 1)).map branch.innerByte,
      byte.getLsbD 7 = true := by
    intro byte member
    obtain ⟨i, -, rfl⟩ := mem_map.mp member
    exact branch.innerByte_top i
  obtain ⟨length, -⟩ := config.parseVarintFrom_bytes (branch.lastByte_top alternative plain) 0 0
    inner (by simp; omega)
  rw [EtmConfig.parseVarint, addressBytes, length]
  simp
  omega

theorem getD_addressBytes_last :
    (branch.addressBytes alternative).getD (branch.length - 1) 0 = branch.lastByte alternative := by
  rw [addressBytes, getD_append_right _ _ _ _ (by simp)]
  simp

theorem addressBytes_head (plain : branch.exception = none) : ∃ first rest,
    branch.addressBytes alternative = first :: rest ∧ first.getLsbD 0 = true := by
  rw [addressBytes]
  rcases Nat.eq_zero_or_pos (branch.length - 1) with one | several
  · have short : branch.length ≠ 5 := by omega
    have width : 0 < branch.lastWidth alternative := by
      rw [lastWidth]
      split <;> omega
    refine ⟨branch.lastByte alternative, [], by rw [one]; rfl, ?_⟩
    rw [branch.getLsbD_lastByte alternative plain short, one]
    simp [width, branch.payload_low]
  · obtain ⟨n, length⟩ := Nat.exists_eq_succ_of_ne_zero (Nat.ne_of_gt several)
    rw [length, range_succ_eq_map]
    refine ⟨branch.innerByte 0, _, rfl, ?_⟩
    rw [branch.getLsbD_innerByte 0 (by omega)]
    simp [branch.payload_low]

theorem addressBytes_inner (before : List (BitVec 8)) {behind : List (BitVec 8)} {byte : BitVec 8}
    (parts : branch.addressBytes alternative = before ++ byte :: behind) (more : behind ≠ []) :
    byte.getLsbD 7 = true := by
  have member : byte ∈ (branch.addressBytes alternative).dropLast := by
    rw [parts, dropLast_append_of_ne_nil (by simp), dropLast_cons_of_ne_nil more]
    simp
  rw [addressBytes, dropLast_concat] at member
  obtain ⟨i, -, rfl⟩ := mem_map.mp member
  exact branch.innerByte_top i

end EtmBranch

namespace EtmState

theorem getLsbD_shiftAddress (cpu : EtmCpu) (addr : BitVec 32) (addrBits : Nat) {i : Nat}
    (inside : i < 32) : (shiftAddress cpu addr addrBits).1.getLsbD i =
      (decide (cpu.shift ≤ i) && addr.getLsbD (i + 1 - cpu.shift)) := by
  have mask : ∀ j, j < 32 → (0xFFFFFFFE : BitVec 32).getLsbD j = decide (1 ≤ j) := by decide
  cases cpu with
  | arm =>
      simp only [shiftAddress, EtmCpu.shift, getLsbD_shiftLeft, getLsbD_and]
      rcases Nat.lt_or_ge i 1 with low | high
      · simp [low, show ¬ 2 ≤ i by omega]
      · rw [mask (i - 1) (by omega), show i + 1 - 2 = i - 1 by omega]
        simp only [inside, decide_true, Bool.true_and, show ¬ i < 1 by omega, decide_false,
          Bool.not_false, show (1 ≤ i - 1) = (2 ≤ i) by simp; omega]
        exact Bool.and_comm _ _
  | thumb =>
      simp only [shiftAddress, EtmCpu.shift, getLsbD_and, mask i inside, Nat.add_sub_cancel]
      exact Bool.and_comm _ _
  | jazelle =>
      simp only [shiftAddress, EtmCpu.shift, getLsbD_ushiftRight, getLsbD_and]
      rw [Nat.add_comm 1 i]
      rcases Nat.lt_or_ge (i + 1) 32 with low | high
      · rw [mask (i + 1) low]
        simp
      · simp [getLsbD_of_ge addr (i + 1) high]

theorem shiftAddress_bits (cpu : EtmCpu) (addr : BitVec 32) (addrBits : Nat) :
    (shiftAddress cpu addr addrBits).2 = addrBits + cpu.shift - 1 := by
  cases cpu <;> rfl

section Branch

variable {config : EtmConfig} {branch : EtmBranch} {s : EtmState}

theorem bufByte_fifth (plain : branch.exception = none) (long : branch.length = 5)
    (full : s.buf = branch.addressBytes config.branchEncAlt) : s.bufByte 4 = branch.fifthByte := by
  rw [bufByte, full, ← branch.lastByte_fifth config.branchEncAlt plain long,
    ← branch.getD_addressBytes_last config.branchEncAlt, long]

theorem exceptionFlag_plain (plain : branch.Plain config.branchEncAlt s.lastBranch)
    (full : s.buf = branch.addressBytes config.branchEncAlt) :
    s.exceptionFlag config (config.parseVarint s.buf).1 branch.length = false := by
  have size := branch.size
  have shift : branch.cpu.shift ≤ 2 := by cases branch.cpu <;> decide
  rw [exceptionFlag]
  by_cases alternative : config.branchEncAlt = true
  · have short : branch.length ≠ 5 := plain.fifth alternative
    rw [if_pos alternative]
    by_cases several : 2 ≤ branch.length
    · have bits : branch.payloadBits config.branchEncAlt = 7 * branch.length - 1 := by
        rw [EtmBranch.payloadBits, EtmBranch.lastWidth]
        simp only [alternative, several, decide_true, Bool.and_true, if_true]
        omega
      have clear : (config.parseVarint s.buf).1.getLsbD (7 * branch.length - 1) = false := by
        rw [full, branch.getLsbD_varint _ config plain.exception (by omega) (by omega), bits]
        simp [short]
      have none : (config.parseVarint s.buf).1 &&&
          config.shiftLeft 1 (7 * branch.length - 1) = 0 := by
        rw [EtmConfig.shiftLeft, if_pos (by omega)]
        refine eq_of_getLsbD_eq fun i inside => ?_
        rw [getLsbD_and]
        by_cases place : i = 7 * branch.length - 1
        · rw [place, clear]
          simp
        · have away : ((1 : BitVec 32) <<< (7 * branch.length - 1)).getLsbD i = false := by
            rw [getLsbD_shiftLeft, show (1 : BitVec 32) = 1#32 from rfl, getLsbD_one]
            simp
            omega
          rw [away]
          simp
      rw [decide_eq_false (not_not.mpr none), Bool.and_false]
    · simp [several]
  · rw [if_neg alternative]
    by_cases long : branch.length = 5
    · rw [bufByte_fifth plain.exception long full, branch.fifthByte_marks.2.1]
      simp
    · simp [long]

theorem branchCpu_plain (plain : branch.exception = none)
    (state : branch.length < 5 → branch.cpu = s.cpuState)
    (full : s.buf = branch.addressBytes config.branchEncAlt) :
    s.branchCpu branch.length = branch.cpu := by
  have size := branch.size
  rw [branchCpu]
  by_cases long : branch.length = 5
  · have marks := branch.fifthByte_marks.2.2
    rw [if_pos long, bufByte_fifth plain long full]
    cases cpu : branch.cpu with
    | arm =>
        rw [cpu] at marks
        rw [if_pos marks]
    | thumb =>
        rw [cpu] at marks
        rw [if_neg marks.1, if_pos marks.2]
    | jazelle =>
        rw [cpu] at marks
        rw [if_neg marks.1, if_neg marks.2.1, if_pos marks.2.2]
  · rw [if_neg long, state (by omega)]

theorem target_plain (sufficient : branch.Suffices config.branchEncAlt s.cpuState s.lastBranch)
    (plain : branch.Plain config.branchEncAlt s.lastBranch)
    (full : s.buf = branch.addressBytes config.branchEncAlt) :
    (if branch.length < 5 then
      (shiftAddress branch.cpu (config.parseVarint s.buf).1
        (branchAddrBits config branch.length)).1 ||| (s.lastBranch &&& config.shiftLeft 0xFFFFFFFF
            (shiftAddress branch.cpu (config.parseVarint s.buf).1
              (branchAddrBits config branch.length)).2)
    else
      (shiftAddress branch.cpu (config.parseVarint s.buf).1
        (branchAddrBits config branch.length)).1) = branch.target := by
  have size := branch.size
  have shift : branch.cpu.shift ≤ 2 := by cases branch.cpu <;> decide
  have address : ∀ i, i < 32 → (branch.cpu = .jazelle → i ≠ 31) →
      (shiftAddress branch.cpu (config.parseVarint s.buf).1
        (branchAddrBits config branch.length)).1.getLsbD i =
          ((decide (i + 1 < branch.payloadBits config.branchEncAlt + branch.cpu.shift) ||
            decide (branch.length = 5)) && branch.target.getLsbD i) := by
    intro i inside top
    rw [getLsbD_shiftAddress _ _ _ inside]
    rcases Nat.lt_or_ge i branch.cpu.shift with low | high
    · rw [branch.aligned i low]
      simp [show ¬ branch.cpu.shift ≤ i by omega]
    · have place : i + 1 - branch.cpu.shift < 32 := by
        cases state : branch.cpu with
        | arm => simp only [EtmCpu.shift]; omega
        | thumb => simp only [EtmCpu.shift]; omega
        | jazelle =>
            have below := top state
            simp only [EtmCpu.shift]
            omega
      rw [full, branch.getLsbD_varint _ config plain.exception place (by omega),
        branch.getLsbD_payload_target high inside]
      simp [high, show i + 1 - branch.cpu.shift < branch.payloadBits config.branchEncAlt ↔
        i + 1 < branch.payloadBits config.branchEncAlt + branch.cpu.shift by omega]
  have topmost : branch.cpu = .jazelle → (shiftAddress branch.cpu (config.parseVarint s.buf).1
        (branchAddrBits config branch.length)).1.getLsbD 31 = false := by
    intro state
    rw [getLsbD_shiftAddress _ _ _ (by omega), state]
    simp [EtmCpu.shift]
  refine eq_of_getLsbD_eq fun i inside => ?_
  by_cases long : branch.length = 5
  · rw [if_neg (by omega)]
    by_cases top : branch.cpu = .jazelle ∧ i = 31
    · obtain ⟨state, rfl⟩ := top
      rw [topmost state, plain.jazelle long state]
    · rw [address i inside (fun state last => top ⟨state, last⟩)]
      simp [long]
  · have short : branch.length < 5 := by omega
    have upper := sufficient.upper short i
    have places : (shiftAddress branch.cpu (config.parseVarint s.buf).1
        (branchAddrBits config branch.length)).2 =
          branchAddrBits config branch.length + branch.cpu.shift - 1 := shiftAddress_bits _ _ _
    have bits : branchAddrBits config branch.length + branch.cpu.shift ≤ 30 ∧
        branchAddrBits config branch.length ≤ branch.payloadBits config.branchEncAlt ∧
        (branchAddrBits config branch.length = branch.payloadBits config.branchEncAlt ∨
          config.branchEncAlt = true ∧ branch.length = 1 ∧ branchAddrBits config branch.length = 6 ∧
            branch.payloadBits config.branchEncAlt = 7) := by
      rw [branchAddrBits, EtmBranch.payloadBits, EtmBranch.lastWidth]
      by_cases alternative : config.branchEncAlt = true
      · by_cases several : 2 ≤ branch.length
        · simp only [alternative, several, decide_true, Bool.and_true, if_true]
          omega
        · simp only [alternative, several, decide_false, Bool.and_false, if_true,
            Bool.false_eq_true, if_false, true_and]
          omega
      · simp only [alternative, Bool.false_and, Bool.false_eq_true, if_false]
        omega
    have mask : (config.shiftLeft 0xFFFFFFFF
        (branchAddrBits config branch.length + branch.cpu.shift - 1)).getLsbD i =
          decide (branchAddrBits config branch.length + branch.cpu.shift ≤ i + 1) := by
      have ones : ∀ j, j < 32 → (0xFFFFFFFF : BitVec 32).getLsbD j = true := by decide
      rw [EtmConfig.shiftLeft, if_pos (by omega), getLsbD_shiftLeft]
      rcases Nat.lt_or_ge i (branchAddrBits config branch.length + branch.cpu.shift - 1) with
        low | high
      · simp [low]
        omega
      · rw [ones _ (by omega)]
        simp [inside, show ¬ i < branchAddrBits config branch.length + branch.cpu.shift - 1 by omega,
          show branchAddrBits config branch.length + branch.cpu.shift ≤ i + 1 by omega]
    rw [if_pos short, places, getLsbD_or, getLsbD_and, mask]
    by_cases copied : branch.payloadBits config.branchEncAlt + branch.cpu.shift ≤ i + 1
    · have none : (shiftAddress branch.cpu (config.parseVarint s.buf).1
          (branchAddrBits config branch.length)).1.getLsbD i = false := by
        by_cases top : branch.cpu = .jazelle ∧ i = 31
        · obtain ⟨state, rfl⟩ := top
          exact topmost state
        · rw [address i inside (fun state last => top ⟨state, last⟩)]
          simp [long]
          omega
      rw [none, upper copied]
      simp
      omega
    · have told : (shiftAddress branch.cpu (config.parseVarint s.buf).1
          (branchAddrBits config branch.length)).1.getLsbD i = branch.target.getLsbD i := by
        rw [address i inside (by omega)]
        simp
        omega
      rw [told]
      by_cases doubled : branchAddrBits config branch.length + branch.cpu.shift ≤ i + 1
      · obtain same | ⟨alternative, one, six, seven⟩ := bits.2.2
        · omega
        · have place : i = branch.cpu.shift + 5 := by omega
          have single := plain.single alternative one
          rw [← place] at single
          cases previous : s.lastBranch.getLsbD i with
          | false => simp
          | true => simp [single previous]
      · simp [doubled]

theorem handleBranch_plain
    (sufficient : branch.Suffices config.branchEncAlt s.cpuState s.lastBranch)
    (plain : branch.Plain config.branchEncAlt s.lastBranch)
    (full : s.buf = branch.addressBytes config.branchEncAlt) (ss es : BitVec 64) :
    s.handleBranch config ss es =
      { s with
        buf := []
        lastBranch := branch.target
        cpuState := branch.cpu
        currentPc := branch.target
        anns := s.anns ++ [⟨ss, es, branch.field⟩] } := by
  have last : s.bufByte (s.buf.length - 1) &&& 0x80 = 0 := by
    rw [top_clear_iff, bufByte, full, branch.length_addressBytes, branch.getD_addressBytes_last]
    exact branch.lastByte_top _ plain.exception
  have length : (config.parseVarint s.buf).2 = branch.length := by
    rw [full, branch.parseVarint_length _ config plain.exception]
  have flag := exceptionFlag_plain plain full
  have cpu := branchCpu_plain plain.exception sufficient.state full
  have target := target_plain sufficient plain full
  have field : branch.field = .branch branch.target := by rw [EtmBranch.field, plain.exception]
  rw [handleBranch, if_neg (not_not.mpr last)]
  simp only [length, flag, cpu, Bool.and_false, Bool.false_eq_true, if_false, target, field]
  rfl

end Branch

end EtmState

end SigrokDecode
