import Mathlib.Data.BitVec
import SigrokDecode.Decoders.OnewireReports

/-!
# ROM codes in eight bits

The C decoder follows the Python decoder up to the first ROM code, of which it keeps only eight
bits and shifts more than there are.
-/

namespace SigrokDecode

open Foundation List BitVec

section Agreement

variable {shifts : CShifts} {c : OwnetState} {p : OwPyState} {bit : OwBit}

def owFieldBits : OwNetState → Nat
  | .getRom => 64
  | .searchRom => 64
  | _ => 8

/-- The C decoder is where the Python decoder is. -/
structure OwAgrees (c : OwnetState) (p : OwPyState) : Prop where
  state : c.state = p.state
  bitCnt : c.bitCnt = p.bitCnt
  search : c.searchPhase = p.search
  ssBlock : c.ssBlock = p.ssBlock
  outs : c.outs = p.outs.map OwOut.inBytes
  small : p.bitCnt < owFieldBits p.state
  data : owFieldBits p.state = 8 → ∀ i, i < p.bitCnt → c.data.getLsbD i = p.data.testBit i

def OwPyState.EndsRom (p : OwPyState) : OwEvent → Prop
  | .bit _ => p.bitCnt = 63 ∧ (p.state = .getRom ∨ p.state = .searchRom ∧ p.search = .d)
  | _ => False

theorem getLsbD_setData (data : BitVec 8) {n i : Nat} (place : n < 8) (inside : i < 8)
    (value : Bool) :
    (OwnetState.setData shifts data n value).getLsbD i =
      if i = n then value else data.getLsbD i := by
  rw [OwnetState.setData, shifts.int_eq _ _ (by omega), shifts.int_eq _ _ (by omega),
    show (1 : BitVec 32) = 1#32 from rfl]
  rw [getLsbD_setWidth, getLsbD_or, getLsbD_and, getLsbD_not,
    getLsbD_shiftLeft, getLsbD_shiftLeft, getLsbD_setWidth,
    getLsbD_setWidth, getLsbD_one, getLsbD_ofBool]
  rw [decide_eq_true inside, decide_eq_true (show i < 32 by omega)]
  by_cases here : i = n
  · subst here
    cases value <;> simp
  · rcases Nat.lt_or_gt_of_ne here with low | high
    · simp [low, here]
    · have later : i - n ≠ 0 := by omega
      have above : ¬i < n := by omega
      simp [later, here, above]

theorem maskData_eight (data : BitVec 8) : OwnetState.maskData shifts data 8 = data := by
  rw [OwnetState.maskData, shifts.int_eq _ _ (by decide)]
  apply eq_of_getLsbD_eq
  intro i inside
  have mask : ((1 : BitVec 32) <<< 8 - 1) = BitVec.ofNat 32 (2 ^ 8 - 1) := by decide
  rw [mask, getLsbD_setWidth, getLsbD_and, getLsbD_setWidth,
    getLsbD_ofNat, Nat.testBit_two_pow_sub_one, decide_eq_true inside,
    decide_eq_true (show i < 32 by omega)]
  simp

theorem toNat_eq_mask {word : BitVec 8} {data : Nat}
    (same : ∀ i, i < 8 → word.getLsbD i = data.testBit i) :
    word.toNat = OwPyState.mask data 8 := by
  apply Nat.eq_of_testBit_eq
  intro i
  rw [testBit_mask, ← getLsbD]
  by_cases inside : i < 8
  · rw [decide_eq_true inside, Bool.true_and, same i inside]
  · rw [decide_eq_false inside, Bool.false_and, getLsbD_of_ge _ _ (by omega)]

variable (shifts bit) in
theorem OwAgrees.setData (agrees : OwAgrees c p) (eight : owFieldBits p.state = 8) :
    ∀ i, i < p.bitCnt + 1 → (OwnetState.setData shifts c.data c.bitCnt bit.value).getLsbD i =
        (OwPyState.setBit p.data p.bitCnt bit.value).testBit i := by
  intro i inside
  have small := agrees.small
  rw [eight] at small
  rw [agrees.bitCnt, getLsbD_setData _ small (by omega), testBit_setBit]
  split
  · rfl
  · exact agrees.data eight i (by omega)

variable (shifts bit) in
theorem OwAgrees.collect_part (agrees : OwAgrees c p) {length : Nat}
    (field : owFieldBits p.state = length) (more : p.bitCnt + 1 ≠ length) :
    (c.collect shifts length bit).2 = false ∧ (p.onewireCollect length bit).2 = false ∧
      OwAgrees (c.collect shifts length bit).1 (p.onewireCollect length bit).1 := by
  have small := agrees.small
  rw [field] at small
  have more_c : ¬c.bitCnt + 1 = length := by
    rw [agrees.bitCnt]
    exact more
  rw [OwnetState.collect, OwPyState.onewireCollect]
  simp only [if_neg more, if_neg more_c]
  refine ⟨trivial, trivial, agrees.state, congrArg (· + 1) agrees.bitCnt, agrees.search, ?_,
    agrees.outs, ?_, fun eight => agrees.setData shifts bit eight⟩
  · rw [agrees.bitCnt, agrees.ssBlock]
  · show p.bitCnt + 1 < owFieldBits p.state
    rw [field]
    omega

/-- Both have taken the same field. -/
structure OwTaken (c : OwnetState) (p : OwPyState) : Prop where
  data : c.data.toNat = p.data
  ssBlock : c.ssBlock = p.ssBlock
  esBlock : c.esBlock = p.esBlock
  state : c.state = p.state
  search : c.searchPhase = p.search
  bitCnt : p.bitCnt = 0
  outs : c.outs = p.outs.map OwOut.inBytes

variable (shifts bit) in
theorem OwAgrees.collect_full (agrees : OwAgrees c p) (eight : owFieldBits p.state = 8)
    (full : p.bitCnt + 1 = 8) :
    (c.collect shifts 8 bit).2 = true ∧ (p.onewireCollect 8 bit).2 = true ∧
      (p.onewireCollect 8 bit).1.state = p.state ∧
      OwTaken (c.collect shifts 8 bit).1 (p.onewireCollect 8 bit).1 := by
  have full_c : c.bitCnt + 1 = 8 := by
    rw [agrees.bitCnt]
    exact full
  have bits := agrees.setData shifts bit eight
  rw [full] at bits
  rw [OwnetState.collect, OwPyState.onewireCollect]
  simp only [if_pos full, if_pos full_c]
  refine ⟨trivial, trivial, trivial, ?_, ?_, rfl, agrees.state, agrees.search, rfl, agrees.outs⟩
  · rw [maskData_eight]
    exact toNat_eq_mask bits
  · rw [agrees.bitCnt, agrees.ssBlock]

theorem owAgrees_fresh (state : c.state = p.state) (count_c : c.bitCnt = 0) (count : p.bitCnt = 0)
    (search : c.searchPhase = p.search) (ssBlock : c.ssBlock = p.ssBlock)
    (outs : c.outs = p.outs.map OwOut.inBytes) : OwAgrees c p where
  state := state
  bitCnt := count_c.trans count.symm
  search := search
  ssBlock := ssBlock
  outs := outs
  small := by
    rw [count]
    cases p.state <;> exact Nat.succ_pos _
  data _ i inside := by
    rw [count] at inside
    exact absurd inside (Nat.not_lt_zero i)

theorem OwTaken.putCommand (taken : OwTaken c p) : OwAgrees c.putCommand p.putCommand := by
  refine owAgrees_fresh ?_ rfl taken.bitCnt taken.search taken.ssBlock ?_
  · show (findRomCommand c.data.toNat).2 = (findRomCommand p.data).2
    rw [taken.data]
  · show c.outs ++ [OwOut.text c.ssBlock c.esBlock
      (.romCommand c.data.toNat (findRomCommand c.data.toNat).1)] = List.map OwOut.inBytes
        (p.outs ++ [OwOut.text p.ssBlock p.esBlock (.romCommand p.data (findRomCommand p.data).1)])
    rw [taken.outs, taken.ssBlock, taken.esBlock, taken.data, map_append]
    rfl

theorem OwTaken.putData (taken : OwTaken c p) : OwAgrees c.putData p.putData := by
  refine owAgrees_fresh taken.state rfl taken.bitCnt taken.search taken.ssBlock ?_
  show c.outs ++ [OwOut.text c.ssBlock c.esBlock (.data c.data.toNat)] ++
    [OwOut.packet c.ssBlock c.esBlock (.data c.data.toNat)] = List.map OwOut.inBytes
      (p.outs ++ [OwOut.text p.ssBlock p.esBlock (.data p.data)] ++
        [OwOut.packet p.ssBlock p.esBlock (.data p.data)])
  rw [taken.outs, taken.ssBlock, taken.esBlock, taken.data, map_append, map_append]
  rfl

theorem OwTaken.putErrorData (taken : OwTaken c p) : OwAgrees c.putErrorData p.putErrorData := by
  refine owAgrees_fresh taken.state rfl taken.bitCnt taken.search taken.ssBlock ?_
  show c.outs ++ [OwOut.text c.ssBlock c.esBlock (.romErrorData c.data.toNat)] =
    List.map OwOut.inBytes (p.outs ++ [OwOut.text p.ssBlock p.esBlock (.romErrorData p.data)])
  rw [taken.outs, taken.ssBlock, taken.esBlock, taken.data, map_append]
  rfl

theorem OwAgrees.byte (agrees : OwAgrees c p) (eight : owFieldBits p.state = 8)
    (put_c : OwnetState → OwnetState) (put : OwPyState → OwPyState)
    (puts : ∀ {c' p'}, OwTaken c' p' → OwAgrees (put_c c') (put p')) :
    OwAgrees (if (c.collect shifts 8 bit).2 then put_c (c.collect shifts 8 bit).1
        else (c.collect shifts 8 bit).1)
      (if (p.onewireCollect 8 bit).2 then put (p.onewireCollect 8 bit).1
        else (p.onewireCollect 8 bit).1) := by
  by_cases full : p.bitCnt + 1 = 8
  · obtain ⟨done_c, done, -, taken⟩ :=
      agrees.collect_full shifts bit eight full
    rw [if_pos done_c, if_pos done]
    exact puts taken
  · obtain ⟨done_c, done, next⟩ := agrees.collect_part shifts bit eight full
    rw [done_c, done]
    exact next

variable (shifts bit) in
theorem OwAgrees.search_part (agrees : OwAgrees c p) (here : p.state = .searchRom)
    (more : ¬(p.bitCnt = 63 ∧ p.search = .d)) :
    (c.search shifts 64 bit).2 = false ∧ (p.onewireSearch 64 bit).2 = false ∧
      OwAgrees (c.search shifts 64 bit).1 (p.onewireSearch 64 bit).1 := by
  have small := agrees.small
  rw [here] at small
  have small : p.bitCnt < 64 := small
  rw [OwnetState.search, OwPyState.onewireSearch]
  simp only [agrees.bitCnt, agrees.search, agrees.ssBlock]
  cases search : p.search with
  | p =>
      have few : ¬p.bitCnt = 64 := by omega
      simp only [if_true, if_neg few]
      refine ⟨trivial, trivial, agrees.state, rfl, rfl, rfl, agrees.outs, agrees.small,
        fun eight => ?_⟩
      rw [here] at eight
      cases eight
  | n =>
      have few : ¬p.bitCnt = 64 := by omega
      simp only [if_true, reduceCtorEq, if_false, if_neg few]
      refine ⟨trivial, trivial, agrees.state, rfl, rfl, rfl, agrees.outs, agrees.small,
        fun eight => ?_⟩
      rw [here] at eight
      cases eight
  | d =>
      have few : ¬p.bitCnt + 1 = 64 := fun last => more ⟨by omega, search⟩
      simp only [reduceCtorEq, if_false, if_neg few]
      refine ⟨trivial, trivial, agrees.state, rfl, rfl, rfl, agrees.outs, ?_, fun eight => ?_⟩
      · show p.bitCnt + 1 < owFieldBits p.state
        rw [here]
        show p.bitCnt + 1 < 64
        omega
      · rw [here] at eight
        cases eight

theorem OwAgrees.decodeBit (agrees : OwAgrees c p) (more : ¬p.EndsRom (.bit bit)) :
    OwAgrees (c.decodeBit shifts bit) (p.decodeBit bit) := by
  rw [OwnetState.decodeBit, OwPyState.decodeBit, agrees.state]
  cases here : p.state with
  | command =>
      exact agrees.byte (by rw [here]; rfl) _ _ OwTaken.putCommand
  | transport =>
      exact agrees.byte (by rw [here]; rfl) _ _ OwTaken.putData
  | commandError =>
      exact agrees.byte (by rw [here]; rfl) _ _ OwTaken.putErrorData
  | getRom =>
      have wide : owFieldBits p.state = 64 := by rw [here]; rfl
      have full : p.bitCnt + 1 ≠ 64 := fun full => more ⟨by omega, Or.inl here⟩
      obtain ⟨done_c, done, next⟩ := agrees.collect_part shifts bit wide full
      dsimp only
      rw [done_c, done]
      exact next
  | searchRom =>
      obtain ⟨done_c, done, next⟩ := agrees.search_part shifts bit here
        fun last => more ⟨last.1, Or.inr ⟨here, last.2⟩⟩
      dsimp only
      rw [done_c, done]
      exact next

theorem OwAgrees.decode {event : OwEvent} (agrees : OwAgrees c p) (more : ¬p.EndsRom event) :
    OwAgrees (c.decodeUpper shifts event) (p.decode event) := by
  cases event with
  | presence ss es value =>
      refine owAgrees_fresh rfl rfl rfl rfl agrees.ssBlock ?_
      show c.outs ++ _ = List.map OwOut.inBytes (p.outs ++ _)
      rw [agrees.outs, map_append]
      rfl
  | bit bit => exact agrees.decodeBit more
  | other => exact agrees

def OwOut.isRom : OwOut → Bool
  | .text _ _ (.rom _) => true
  | _ => false

def OwPyState.NoRom : OwPyState → List OwEvent → Prop
  | _, [] => True
  | p, event :: events => ¬p.EndsRom event ∧ (p.decode event).NoRom events

/-- What a step of the Python decoder reports. -/
inductive OwPyState.Step (p : OwPyState) (event : OwEvent) (next : OwPyState) : Prop
  | plain (added : List OwOut) : ¬p.EndsRom event → next.outs = p.outs ++ added →
      (∀ out ∈ added, out.isRom = false) → Step p event next
  | rom (ss es rom : Nat) : p.EndsRom event →
      next.outs = p.outs ++ [OwOut.text ss es (.rom rom), .packet ss es (.romCode rom)] →
      Step p event next

theorem OwPyState.byte_step (here : p.state ≠ .getRom ∧ p.state ≠ .searchRom)
    (small : p.bitCnt < 8) (put : OwPyState → OwPyState) (added : OwPyState → List OwOut)
    (puts : ∀ s, (put s).outs = s.outs ++ added s) (plain : ∀ s, ∀ out ∈ added s, out.isRom = false)
    (count : ∀ s, (put s).bitCnt = s.bitCnt)
    (field : ∀ s, s.state = p.state → 8 ≤ owFieldBits (put s).state) :
    p.Step (.bit bit) (if (p.onewireCollect 8 bit).2 then put (p.onewireCollect 8 bit).1
        else (p.onewireCollect 8 bit).1) ∧
      (if (p.onewireCollect 8 bit).2 then put (p.onewireCollect 8 bit).1
        else (p.onewireCollect 8 bit).1).bitCnt < owFieldBits
          (if (p.onewireCollect 8 bit).2 then put (p.onewireCollect 8 bit).1
            else (p.onewireCollect 8 bit).1).state := by
  have not_rom : ¬p.EndsRom (.bit bit) := by
    rintro ⟨-, rom | ⟨search, -⟩⟩
    · exact here.1 rom
    · exact here.2 search
  have eight : owFieldBits p.state = 8 := by
    cases state : p.state with
    | getRom => exact absurd state here.1
    | searchRom => exact absurd state here.2
    | command => rfl
    | transport => rfl
    | commandError => rfl
  rw [onewireCollect]
  by_cases full : p.bitCnt + 1 = 8
  · simp only [if_pos full, if_true]
    refine ⟨.plain (added _) not_rom (puts _) (plain _), ?_⟩
    rw [count]
    exact Nat.lt_of_lt_of_le (Nat.succ_pos 7) (field _ rfl)
  · simp only [if_neg full, Bool.false_eq_true, if_false]
    refine ⟨.plain [] not_rom (List.append_nil _).symm
      (fun _ member => absurd member not_mem_nil), ?_⟩
    rw [eight]
    omega

theorem OwPyState.decode_step (small : p.bitCnt < owFieldBits p.state) (event : OwEvent) :
    p.Step event (p.decode event) ∧
      (p.decode event).bitCnt < owFieldBits (p.decode event).state := by
  cases event with
  | presence ss es value =>
      refine ⟨.plain _ (fun ends => ends) rfl ?_, show 0 < 8 by decide⟩
      simp [OwOut.isRom]
  | other =>
      exact ⟨.plain [] (fun ends => ends) (List.append_nil _).symm
        (fun _ member => absurd member not_mem_nil), small⟩
  | bit bit =>
      show p.Step (.bit bit) (p.decodeBit bit) ∧ (p.decodeBit bit).bitCnt < _
      rw [decode, decodeBit]
      cases here : p.state with
      | command =>
          rw [here] at small
          refine byte_step (by rw [here]; decide) small putCommand
            (fun s => [.text s.ssBlock s.esBlock (.romCommand s.data (findRomCommand s.data).1)])
            (fun _ => rfl) (fun _ => by simp [OwOut.isRom]) (fun _ => rfl) (fun s _ => ?_)
          show 8 ≤ owFieldBits (findRomCommand s.data).2
          cases (findRomCommand s.data).2 <;> decide
      | transport =>
          rw [here] at small
          refine byte_step (by rw [here]; decide) small putData
            (fun s => [.text s.ssBlock s.esBlock (.data s.data),
              .packet s.ssBlock s.esBlock (.data s.data)])
            (fun s => ?_) (fun _ => by simp [OwOut.isRom]) (fun _ => rfl) (fun s same => ?_)
          · exact List.append_assoc ..
          · show 8 ≤ owFieldBits s.state
            rw [same, here]
            decide
      | commandError =>
          rw [here] at small
          refine byte_step (by rw [here]; decide) small putErrorData
            (fun s => [.text s.ssBlock s.esBlock (.romErrorData s.data)])
            (fun _ => rfl) (fun _ => by simp [OwOut.isRom]) (fun _ => rfl) (fun s same => ?_)
          show 8 ≤ owFieldBits s.state
          rw [same, here]
          decide
      | getRom =>
          rw [here] at small
          have small : p.bitCnt < 64 := small
          dsimp only
          rw [onewireCollect]
          by_cases full : p.bitCnt + 1 = 64
          · simp only [if_pos full, if_true]
            exact ⟨.rom _ _ _ ⟨by omega, Or.inl here⟩ (List.append_assoc ..), show 0 < 8 by decide⟩
          · simp only [if_neg full, Bool.false_eq_true, if_false]
            refine ⟨.plain [] (fun ends => full (by rw [ends.1])) (List.append_nil _).symm
              (fun _ member => absurd member not_mem_nil), ?_⟩
            rw [here]
            show p.bitCnt + 1 < 64
            omega
      | searchRom =>
          rw [here] at small
          have small : p.bitCnt < 64 := small
          dsimp only
          rw [onewireSearch]
          cases search : p.search with
          | p =>
              have few : ¬p.bitCnt = 64 := by omega
              simp only [if_true, if_neg few, Bool.false_eq_true, if_false]
              refine ⟨.plain [] (fun ends => ?_) (List.append_nil _).symm
                (fun _ member => absurd member not_mem_nil), ?_⟩
              · rcases ends.2 with rom | ⟨-, last⟩
                · rw [here] at rom
                  cases rom
                · rw [search] at last
                  cases last
              · rw [here]
                exact small
          | n =>
              have few : ¬p.bitCnt = 64 := by omega
              simp only [if_true, reduceCtorEq, if_false, if_neg few, Bool.false_eq_true]
              refine ⟨.plain [] (fun ends => ?_) (List.append_nil _).symm
                (fun _ member => absurd member not_mem_nil), ?_⟩
              · rcases ends.2 with rom | ⟨-, last⟩
                · rw [here] at rom
                  cases rom
                · rw [search] at last
                  cases last
              · rw [here]
                exact small
          | d =>
              by_cases full : p.bitCnt + 1 = 64
              · simp only [reduceCtorEq, if_false, if_pos full, if_true]
                exact ⟨.rom _ _ _ ⟨by omega, Or.inr ⟨here, search⟩⟩ (List.append_assoc ..),
                  show 0 < 8 by decide⟩
              · simp only [reduceCtorEq, if_false, if_neg full, Bool.false_eq_true]
                refine ⟨.plain [] (fun ends => full (by rw [ends.1])) (List.append_nil _).symm
                  (fun _ member => absurd member not_mem_nil), ?_⟩
                rw [here]
                show p.bitCnt + 1 < 64
                omega

def owRoms (outs : List OwOut) : Nat :=
  outs.countP OwOut.isRom

theorem owRoms_append (front back : List OwOut) :
    owRoms (front ++ back) = owRoms front + owRoms back :=
  countP_append

theorem owRoms_plain {outs : List OwOut} (plain : ∀ out ∈ outs, out.isRom = false) :
    owRoms outs = 0 := by
  rw [owRoms, countP_eq_zero]
  intro out member
  rw [plain out member]
  exact Bool.false_ne_true

theorem OwPyState.owRoms_le (small : p.bitCnt < owFieldBits p.state) (events : List OwEvent) :
    owRoms p.outs ≤ owRoms (events.foldl decode p).outs := by
  induction events generalizing p with
  | nil => exact Nat.le_refl _
  | cons event events ih =>
      obtain ⟨step, next⟩ := decode_step small event
      refine Nat.le_trans ?_ (ih next)
      cases step with
      | plain added _ outs _ =>
          rw [outs, owRoms_append]
          exact Nat.le_add_right _ _
      | rom _ _ _ _ outs =>
          rw [outs, owRoms_append]
          exact Nat.le_add_right _ _

theorem OwPyState.noRom_iff (small : p.bitCnt < owFieldBits p.state) (events : List OwEvent) :
    p.NoRom events ↔ owRoms (events.foldl decode p).outs = owRoms p.outs := by
  induction events generalizing p with
  | nil => exact ⟨fun _ => rfl, fun _ => trivial⟩
  | cons event events ih =>
      obtain ⟨step, next⟩ := decode_step small event
      rw [NoRom, foldl_cons, ih next]
      cases step with
      | plain added ends outs plain =>
          have same : owRoms (p.decode event).outs = owRoms p.outs := by
            rw [outs, owRoms_append, owRoms_plain plain, Nat.add_zero]
          rw [same]
          exact ⟨fun both => both.2, fun none => ⟨ends, none⟩⟩
      | rom ss es rom ends outs =>
          have more := owRoms_le next events
          rw [outs, owRoms_append] at more
          have one : owRoms [.text ss es (.rom rom), .packet ss es (.romCode rom)] = 1 := rfl
          rw [one] at more
          exact ⟨fun both => absurd ends both.1, fun none => by omega⟩

variable {events : List OwEvent}

theorem OwPyState.exists_rom (some : ¬p.NoRom events) :
    ∃ before event after, events = before ++ event :: after ∧ p.NoRom before ∧
      (before.foldl decode p).EndsRom event := by
  induction events generalizing p with
  | nil => exact absurd trivial some
  | cons event events ih =>
      by_cases ends : p.EndsRom event
      · exact ⟨[], event, events, rfl, trivial, ends⟩
      · obtain ⟨before, last, after, rfl, none, here⟩ :=
          ih fun none => some ⟨ends, none⟩
        exact ⟨event :: before, last, after, rfl, ⟨ends, none⟩, here⟩

variable (shifts) in
theorem OwAgrees.foldl (agrees : OwAgrees c p) (none : p.NoRom events) :
    OwAgrees (events.foldl (OwnetState.decodeUpper shifts) c) (events.foldl OwPyState.decode p) := by
  induction events generalizing c p with
  | nil => exact agrees
  | cons event events ih =>
      exact ih (agrees.decode none.1) none.2

/-! ## What becomes of a ROM code -/

variable (shifts) in
theorem OwAgrees.decode_rom {event : OwEvent} (agrees : OwAgrees c p) (ends : p.EndsRom event) :
    ∃ ss es data value, (c.decodeUpper shifts event).outs = c.outs ++
      [OwOut.text ss es (.rom (OwnetState.maskData shifts
          (OwnetState.setData shifts data 63 value) 64).toNat),
        .packet ss es (.romBytes (romData (OwnetState.maskData shifts
          (OwnetState.setData shifts data 63 value) 64).toNat))] := by
  cases event with
  | presence => exact absurd ends id
  | other => exact absurd ends id
  | bit bit =>
      obtain ⟨count, here | ⟨here, last⟩⟩ := ends
      · have full : c.bitCnt = 63 := agrees.bitCnt.trans count
        show ∃ ss es data value, (c.decodeBit shifts bit).outs = _
        rw [OwnetState.decodeBit, agrees.state.trans here]
        simp only [OwnetState.collect, full, Nat.reduceAdd, if_true]
        exact ⟨_, _, _, _, List.append_assoc ..⟩
      · have full : c.bitCnt = 63 := agrees.bitCnt.trans count
        have phase : c.searchPhase = .d := agrees.search.trans last
        show ∃ ss es data value, (c.decodeBit shifts bit).outs = _
        rw [OwnetState.decodeBit, agrees.state.trans here]
        simp only [OwnetState.search, full, phase, reduceCtorEq, if_false, Nat.reduceAdd, if_true]
        exact ⟨_, _, _, _, List.append_assoc ..⟩

/-- Shifts that let the last bit of a ROM code become its first. -/
def wrappingShifts : CShifts where
  int value count :=
    if count < 31 then value <<< count else if count = 63 then 1 else 0
  long value count := value <<< (count % 64)
  int_eq value count few := by rw [if_pos few]
  long_eq := CShifts.modular.long_eq

theorem maskData_modular (data : BitVec 8) :
    (OwnetState.maskData CShifts.modular data 64).toNat = 0 := by
  have none : CShifts.modular.int 1 64 - 1 = 0#32 := by decide
  rw [OwnetState.maskData, none, and_zero]
  rfl

theorem maskData_wrapping (data : BitVec 8) (value : Bool) : (OwnetState.maskData wrappingShifts
      (OwnetState.setData wrappingShifts data 63 value) 64).toNat ≠ 0 := by
  have all : wrappingShifts.int 1 64 - 1 = allOnes 32 := by decide
  have one : ∀ word, wrappingShifts.int word 63 = 1#32 := fun _ => rfl
  have low : (OwnetState.maskData wrappingShifts
      (OwnetState.setData wrappingShifts data 63 value) 64).getLsbD 0 = true := by
    rw [OwnetState.maskData, all, and_allOnes, OwnetState.setData, one, one]
    simp
  intro zero
  rw [getLsbD, zero] at low
  cases low

theorem owOuts_next {outs more : List OwOut} {out : OwOut} {rest : List OwOut}
    (grown : more = outs ++ out :: rest) : more[outs.length]? = some out := by
  rw [grown, getElem?_append_right (Nat.le_refl _), Nat.sub_self]
  rfl

theorem OwAgrees.exists_wrong {event : OwEvent} (ends : p.EndsRom event)
    (small : p.bitCnt < owFieldBits p.state) :
    ∃ shifts : CShifts, ∀ {c}, OwAgrees c p →
      ∃ out other, (c.decodeUpper shifts event).outs[c.outs.length]? = some out ∧
        (p.decode event).outs[p.outs.length]? = some other ∧ out ≠ other.inBytes := by
  obtain ⟨step, -⟩ := OwPyState.decode_step small event
  cases step with
  | plain _ plain _ _ => exact absurd ends plain
  | rom ss es rom _ outs =>
      have right := owOuts_next outs
      by_cases zero : rom = 0
      · refine ⟨wrappingShifts, fun {c} agrees => ?_⟩
        obtain ⟨ss', es', data, value, outs'⟩ := agrees.decode_rom wrappingShifts ends
        refine ⟨_, _, owOuts_next outs', right, ?_⟩
        rw [zero]
        intro same
        injection same with _ _ text
        injection text with code
        exact maskData_wrapping data value code
      · refine ⟨.modular, fun {c} agrees => ?_⟩
        obtain ⟨ss', es', data, value, outs'⟩ := agrees.decode_rom .modular ends
        refine ⟨_, _, owOuts_next outs', right, ?_⟩
        rw [maskData_modular]
        intro same
        injection same with _ _ text
        injection text with code
        exact zero code.symm

variable (shifts bit) in
theorem OwnetState.decodeBit_cases : ∃ t : OwnetState, t.outs = c.outs ∧
    (c.decodeBit shifts bit = t ∨ c.decodeBit shifts bit = t.putCommand ∨
      c.decodeBit shifts bit = t.putRom ∨ c.decodeBit shifts bit = t.putData ∨
      c.decodeBit shifts bit = t.putErrorData) := by
  have collect : ∀ length, (c.collect shifts length bit).1.outs = c.outs := fun length => by
    rw [OwnetState.collect]
    dsimp only
    split
    · rfl
    · rfl
  have search : (c.search shifts 64 bit).1.outs = c.outs := by
    rw [OwnetState.search]
    dsimp only
    cases c.searchPhase <;> simp only [reduceCtorEq, if_true, if_false] <;> split <;> rfl
  rw [OwnetState.decodeBit]
  split
  · refine ⟨_, collect 8, ?_⟩
    dsimp only
    split
    · exact Or.inr (Or.inl rfl)
    · exact Or.inl rfl
  · refine ⟨_, collect 64, ?_⟩
    dsimp only
    split
    · exact Or.inr (Or.inr (Or.inl rfl))
    · exact Or.inl rfl
  · refine ⟨_, search, ?_⟩
    dsimp only
    split
    · exact Or.inr (Or.inr (Or.inl rfl))
    · exact Or.inl rfl
  · refine ⟨_, collect 8, ?_⟩
    dsimp only
    split
    · exact Or.inr (Or.inr (Or.inr (Or.inl rfl)))
    · exact Or.inl rfl
  · refine ⟨_, collect 8, ?_⟩
    dsimp only
    split
    · exact Or.inr (Or.inr (Or.inr (Or.inr rfl)))
    · exact Or.inl rfl

variable (shifts) in
theorem OwnetState.decodeUpper_outs (event : OwEvent) :
    ∃ added, (c.decodeUpper shifts event).outs = c.outs ++ added ∧
      ∀ ss es rom, .text ss es (.rom rom) ∈ added → rom < 256 := by
  cases event with
  | presence ss es value =>
      refine ⟨_, rfl, fun ss' es' rom member => ?_⟩
      simp at member
  | other => exact ⟨[], (List.append_nil _).symm, fun _ _ _ member => absurd member not_mem_nil⟩
  | bit bit =>
      show ∃ added, (c.decodeBit shifts bit).outs = c.outs ++ added ∧ _
      obtain ⟨t, same, none | command | rom | data | error⟩ := decodeBit_cases (c := c) shifts bit
      · rw [none, same]
        exact ⟨[], (List.append_nil _).symm, fun _ _ _ member => absurd member not_mem_nil⟩
      · rw [command, ← same]
        refine ⟨_, rfl, fun ss es rom member => ?_⟩
        simp at member
      · rw [rom, ← same]
        refine ⟨_, List.append_assoc .., fun ss es rom member => ?_⟩
        simp only [mem_append, mem_singleton, OwOut.text.injEq, OwText.rom.injEq,
          reduceCtorEq, or_false] at member
        rw [member.2.2]
        exact t.data.isLt
      · rw [data, ← same]
        refine ⟨_, List.append_assoc .., fun ss es rom member => ?_⟩
        simp at member
      · rw [error, ← same]
        refine ⟨_, rfl, fun ss es rom member => ?_⟩
        simp at member

variable (shifts) in
theorem OwnetState.foldl_prefix (events : List OwEvent) :
    c.outs <+: (events.foldl (decodeUpper shifts) c).outs := by
  induction events generalizing c with
  | nil => exact prefix_refl _
  | cons event events ih =>
      obtain ⟨added, outs, -⟩ := decodeUpper_outs (c := c) shifts event
      refine IsPrefix.trans ?_ ih
      rw [outs]
      exact prefix_append _ _

theorem OwPyState.foldl_prefix (small : p.bitCnt < owFieldBits p.state) (events : List OwEvent) :
    p.outs <+: (events.foldl decode p).outs := by
  induction events generalizing p with
  | nil => exact prefix_refl _
  | cons event events ih =>
      obtain ⟨step, next⟩ := decode_step small event
      refine IsPrefix.trans ?_ (ih next)
      cases step with
      | plain added _ outs _ =>
          rw [outs]
          exact prefix_append _ _
      | rom _ _ _ _ outs =>
          rw [outs]
          exact prefix_append _ _

theorem OwAgrees.exists_differs (some : ¬p.NoRom events) (agrees : OwAgrees c p) :
    ∃ shifts : CShifts, (events.foldl (OwnetState.decodeUpper shifts) c).outs ≠
      (events.foldl OwPyState.decode p).outs.map OwOut.inBytes := by
  obtain ⟨before, event, after, rfl, none, ends⟩ := OwPyState.exists_rom some
  have small := (agrees.foldl .modular none).small
  obtain ⟨shifts, wrong⟩ := OwAgrees.exists_wrong ends small
  refine ⟨shifts, fun same => ?_⟩
  have here := agrees.foldl shifts none
  obtain ⟨out, other, left, right, differ⟩ := wrong here
  have next := (OwPyState.decode_step small event).2
  rw [foldl_append, foldl_append, foldl_cons, foldl_cons] at same
  obtain ⟨more, grows⟩ := OwnetState.foldl_prefix (c :=
    (before.foldl (OwnetState.decodeUpper shifts) c).decodeUpper shifts event) shifts after
  obtain ⟨others, grows_py⟩ := OwPyState.foldl_prefix next after
  have length : (before.foldl (OwnetState.decodeUpper shifts) c).outs.length =
      (before.foldl OwPyState.decode p).outs.length := by
    rw [here.outs, length_map]
  have at_c := left
  have at_py := right
  rw [← getElem?_append_left (List.getElem?_eq_some_iff.mp left).1, grows, same,
    getElem?_map, length] at at_c
  rw [← getElem?_append_left (List.getElem?_eq_some_iff.mp right).1, grows_py] at at_py
  rw [at_py] at at_c
  exact differ (Option.some.inj at_c).symm

end Agreement

section Transactions

theorem owRoms_data (bits : List OwBit) : owRoms (owDataOuts bits) = 0 := by
  refine owRoms_plain fun out member => ?_
  obtain ⟨byte, -, inside⟩ := mem_flatMap.mp member
  rcases mem_cons.mp inside with here | there
  · rw [here]
    rfl
  · rw [mem_singleton.mp there]
    rfl

theorem owRoms_error (bits : List OwBit) : owRoms (owErrorOuts bits) = 0 := by
  refine owRoms_plain fun out member => ?_
  obtain ⟨byte, -, here⟩ := mem_map.mp member
  rw [← here]
  rfl

theorem OwTransaction.owRoms_outs (transaction : OwTransaction) :
    owRoms transaction.outs = 0 ↔ ¬transaction.HasRom := by
  have front : owRoms [.text transaction.ss transaction.es (.resetPresence transaction.present),
    .packet transaction.ss transaction.es (.resetPresence transaction.present)] = 0 := rfl
  rw [outs, owRoms_append, front, Nat.zero_add, HasRom]
  split
  next enough =>
    have command : owRoms (owCommandOuts (transaction.bits.take 8)) = 0 := rfl
    have length : (transaction.bits.drop 8).length = transaction.bits.length - 8 := length_drop
    have rom : ∀ bits code, owRoms (owRomOuts bits code) = 1 := fun _ _ => rfl
    rw [owRoms_append, command, Nat.zero_add]
    cases next : (findRomCommand (owValue (transaction.bits.take 8))).2 with
    | command => exact absurd next (OwPyState.findRomCommand_ne_command _)
    | transport =>
        rw [owBehindCommand, owRoms_data]
        simp
    | commandError =>
        rw [owBehindCommand, owRoms_error]
        simp
    | getRom =>
        rw [owBehindCommand, length]
        split
        next whole =>
          rw [owRoms_append, rom, owRoms_data]
          simp
          omega
        next part =>
          simp [owRoms]
          omega
    | searchRom =>
        rw [owBehindCommand, length]
        split
        next whole =>
          rw [owRoms_append, rom, owRoms_data]
          simp
          omega
        next part =>
          simp [owRoms]
          omega
  next few =>
    refine ⟨fun _ whole => ?_, fun _ => rfl⟩
    rcases whole with ⟨-, enough⟩ | ⟨-, enough⟩
    · omega
    · omega

theorem owRoms_flatMap (transactions : List OwTransaction) :
    owRoms (transactions.flatMap OwTransaction.outs) = 0 ↔
      ∀ transaction ∈ transactions, ¬transaction.HasRom := by
  induction transactions with
  | nil => exact ⟨fun _ _ member => absurd member not_mem_nil, fun _ => rfl⟩
  | cons transaction transactions ih =>
      rw [flatMap_cons, owRoms_append, forall_mem_cons, ← ih, ← transaction.owRoms_outs]
      omega

/-- Python reports what is transmitted; C does so for every shift exactly when no transaction
brings a whole ROM code. -/
theorem OwnetState.transactions_reported (transactions : List OwTransaction) :
    ((transactions.flatMap OwTransaction.events).foldl OwPyState.decode .reset).outs =
      transactions.flatMap OwTransaction.outs ∧
    ((∀ shifts : CShifts,
      ((transactions.flatMap OwTransaction.events).foldl (decodeUpper shifts) start).outs =
        (transactions.flatMap OwTransaction.outs).map OwOut.inBytes) ↔
      ∀ transaction ∈ transactions, ¬transaction.HasRom) := by
  have reported := OwPyState.foldl_transactions .reset transactions
  have reported : ((transactions.flatMap OwTransaction.events).foldl OwPyState.decode .reset).outs =
      transactions.flatMap OwTransaction.outs := reported
  have small : OwPyState.reset.bitCnt < owFieldBits OwPyState.reset.state := by decide
  have agrees : OwAgrees start .reset := owAgrees_fresh rfl rfl rfl rfl rfl rfl
  have none : OwPyState.reset.NoRom (transactions.flatMap OwTransaction.events) ↔
      ∀ transaction ∈ transactions, ¬transaction.HasRom := by
    rw [OwPyState.noRom_iff small, reported, ← owRoms_flatMap]
    exact Iff.rfl
  refine ⟨reported, ?_⟩
  rw [← none]
  constructor
  · intro right
    by_contra some
    obtain ⟨shifts, differ⟩ := agrees.exists_differs some
    rw [reported] at differ
    exact differ (right shifts)
  · intro none shifts
    rw [← reported]
    exact (agrees.foldl shifts none).outs

theorem OwnetState.rom_lt (shifts : CShifts) {s : OwnetState} (events : List OwEvent)
    (before : ∀ ss es rom, .text ss es (.rom rom) ∈ s.outs → rom < 256) :
    ∀ ss es rom, .text ss es (.rom rom) ∈ (events.foldl (decodeUpper shifts) s).outs →
      rom < 256 := by
  induction events generalizing s with
  | nil => exact before
  | cons event events ih =>
      refine ih fun ss es rom member => ?_
      obtain ⟨added, outs, small⟩ := decodeUpper_outs (c := s) shifts event
      rw [outs] at member
      rcases mem_append.mp member with old | new
      · exact before ss es rom old
      · exact small ss es rom new

/-- A DS18B20 that is read: family code 0x28 and a serial number. -/
def readRom : OwTransaction :=
  ⟨0, 960, true, (lsbBits 8 0x33 ++ lsbBits 64 0x7d00000212345628).mapIdx
    fun i value => ⟨1000 + 70 * i, 1070 + 70 * i, value⟩⟩

/-- However shifts that are undefined come out, the code that is read is lost. -/
theorem OwnetState.readRom_misreported : ¬∃ shifts : CShifts,
    (readRom.events.foldl (decodeUpper shifts) start).outs = readRom.outs.map OwOut.inBytes := by
  rintro ⟨shifts, same⟩
  have small := rom_lt (s := start) shifts readRom.events
    (fun _ _ _ member => absurd member not_mem_nil)
  rw [same] at small
  have large := small 1560 6040 0x7d00000212345628 (by decide +kernel)
  omega

end Transactions

end SigrokDecode
