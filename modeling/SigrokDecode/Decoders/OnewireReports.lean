import Mathlib.Data.Nat.Bitwise
import SigrokDecode.Decoders.OnewireNetwork

/-!
# What the 1-Wire network layer reports

The Python decoder reports what is transmitted, however much a transaction lacks.
-/

namespace SigrokDecode

open Foundation List Nat

section Bits

theorem testBit_setBit (data n : Nat) (value : Bool) (i : Nat) :
    (OwPyState.setBit data n value).testBit i = if i = n then value else data.testBit i := by
  rw [OwPyState.setBit, testBit_or, testBit_ldiff, testBit_shiftLeft, testBit_shiftLeft]
  by_cases here : i = n
  · subst here
    cases value <;> simp
  · rw [if_neg here]
    by_cases low : n ≤ i
    · have one : (1 : Nat).testBit (i - n) = false := by
        rw [Bool.eq_false_iff, ne_eq, testBit_one_eq_true_iff_self_eq_zero]
        omega
      have digit : value.toNat.testBit (i - n) = false := by
        cases value
        · exact zero_testBit _
        · exact one
      rw [one, digit]
      simp
    · simp [low]

theorem testBit_mask (data length i : Nat) :
    (OwPyState.mask data length).testBit i = (decide (i < length) && data.testBit i) := by
  rw [OwPyState.mask, one_shiftLeft, testBit_and, testBit_two_pow_sub_one, Bool.and_comm]

theorem testBit_owValue (bits : List OwBit) (i : Nat) :
    (owValue bits).testBit i = (bits.map OwBit.value).getD i false :=
  testBit_packLsb _ i

theorem mask_eq_owValue {data : Nat} {bits : List OwBit}
    (low : ∀ i, i < bits.length → data.testBit i = (bits.map OwBit.value).getD i false) :
    OwPyState.mask data bits.length = owValue bits := by
  apply eq_of_testBit_eq
  intro i
  rw [testBit_mask, testBit_owValue]
  by_cases inside : i < bits.length
  · rw [decide_eq_true inside, Bool.true_and, low i inside]
  · rw [decide_eq_false inside, Bool.false_and, getD_eq_default]
    rw [length_map]
    omega

theorem owSs_append {front : List OwBit} (some : front ≠ []) (back : List OwBit) :
    owSs (front ++ back) = owSs front := by
  cases front with
  | nil => exact absurd rfl some
  | cons bit front => rfl

theorem owEs_concat (front : List OwBit) (bit : OwBit) : owEs (front ++ [bit]) = bit.es := by
  rw [owEs, getLast?_concat]
  rfl

theorem owBytes_eq (bits : List OwBit) :
    owBytes bits = if 8 ≤ bits.length then bits.take 8 :: owBytes (bits.drop 8) else [] := by
  split
  next enough =>
    have count : bits.length / 8 = (bits.drop 8).length / 8 + 1 := by
      rw [length_drop]
      omega
    rw [owBytes, owBytes, count, range_succ_eq_map, map_cons, map_map]
    refine congrArg₂ List.cons rfl (map_congr_left fun i _ => ?_)
    rw [drop_drop]
    show (bits.drop (8 * (i + 1))).take 8 = _
    rw [show 8 * (i + 1) = 8 + 8 * i by omega]
  next few =>
    rw [owBytes, div_eq_of_lt (by omega)]
    rfl

end Bits

namespace OwPyState

/-- Some bits of a field have come. -/
structure Collects (s : OwPyState) (state : OwNetState) (done : List OwBit) : Prop where
  state : s.state = state
  search : s.search = .p
  bitCnt : s.bitCnt = done.length
  data : ∀ i, i < done.length → s.data.testBit i = (done.map OwBit.value).getD i false
  ssBlock : done ≠ [] → s.ssBlock = owSs done

variable {s : OwPyState} {state : OwNetState} {done bits : List OwBit} {bit : OwBit}
  {length : Nat}

theorem Collects.nil (fresh : s.bitCnt = 0) (search : s.search = .p) : Collects s s.state [] :=
  ⟨rfl, search, fresh, fun i inside => absurd inside (Nat.not_lt_zero i), fun some => absurd rfl some⟩

theorem Collects.setBit (collects : Collects s state done) : ∀ i, i < (done ++ [bit]).length →
      (setBit s.data s.bitCnt bit.value).testBit i =
        ((done ++ [bit]).map OwBit.value).getD i false := by
  intro i inside
  rw [testBit_setBit, collects.bitCnt]
  rw [length_append, length_singleton] at inside
  rw [map_append, getD_eq_getElem?_getD, getElem?_append, length_map]
  by_cases here : i = done.length
  · rw [if_pos here, if_neg (by omega), here, Nat.sub_self]
    rfl
  · rw [if_neg here, if_pos (by omega), collects.data i (by omega), getD_eq_getElem?_getD]

theorem Collects.ssBlock_next (collects : Collects s state done) :
    (if s.bitCnt = 0 then bit.ss else s.ssBlock) = owSs (done ++ [bit]) := by
  rw [collects.bitCnt]
  cases done with
  | nil => rfl
  | cons first done =>
      rw [owSs_append (cons_ne_nil _ _)]
      exact collects.ssBlock (cons_ne_nil _ _)

variable (bit) in
theorem Collects.onewireCollect_part (collects : Collects s state done)
    (few : done.length + 1 < length) :
    (s.onewireCollect length bit).2 = false ∧
      Collects (s.onewireCollect length bit).1 state (done ++ [bit]) ∧
      (s.onewireCollect length bit).1.outs = s.outs := by
  have more : ¬s.bitCnt + 1 = length := by
    rw [collects.bitCnt]
    omega
  rw [onewireCollect]
  simp only [if_neg more]
  refine ⟨trivial, ⟨collects.state, collects.search, ?_, collects.setBit, fun _ => ?_⟩, trivial⟩
  · rw [collects.bitCnt, length_append, length_singleton]
  · exact collects.ssBlock_next

variable (bit) in
theorem Collects.onewireCollect_full (collects : Collects s state done)
    (full : done.length + 1 = length) :
    (s.onewireCollect length bit).2 = true ∧ (s.onewireCollect length bit).1.state = state ∧
      (s.onewireCollect length bit).1.search = .p ∧
      (s.onewireCollect length bit).1.bitCnt = 0 ∧
      (s.onewireCollect length bit).1.data = owValue (done ++ [bit]) ∧
      (s.onewireCollect length bit).1.ssBlock = owSs (done ++ [bit]) ∧
      (s.onewireCollect length bit).1.esBlock = bit.es ∧
      (s.onewireCollect length bit).1.outs = s.outs := by
  have last : s.bitCnt + 1 = length := by
    rw [collects.bitCnt]
    exact full
  have size : length = (done ++ [bit]).length := by rw [length_append, length_singleton, full]
  rw [onewireCollect]
  simp only [if_pos last]
  refine ⟨trivial, collects.state, collects.search, trivial, ?_, collects.ssBlock_next, trivial,
    trivial⟩
  rw [size]
  exact mask_eq_owValue collects.setBit

def fieldLength : OwNetState → Nat
  | .getRom => 64
  | _ => 8

/-- What is done with a whole field. -/
def received (s : OwPyState) : OwNetState → OwPyState
  | .command => s.putCommand
  | .getRom => s.putRom
  | .searchRom => s.putRom
  | .transport => s.putData
  | .commandError => s.putErrorData

theorem decodeBit_field (here : s.state = state) (field : state ≠ .searchRom) : s.decodeBit bit =
      if (s.onewireCollect (fieldLength state) bit).2 then
        (s.onewireCollect (fieldLength state) bit).1.received state
      else (s.onewireCollect (fieldLength state) bit).1 := by
  cases state with
  | searchRom => exact absurd rfl field
  | command => rw [decodeBit, here]; rfl
  | getRom => rw [decodeBit, here]; rfl
  | transport => rw [decodeBit, here]; rfl
  | commandError => rw [decodeBit, here]; rfl

variable (bit) in
theorem Collects.decodeBit_part (collects : Collects s state done) (field : state ≠ .searchRom)
    (few : done.length + 1 < fieldLength state) :
    Collects (s.decodeBit bit) state (done ++ [bit]) ∧ (s.decodeBit bit).outs = s.outs := by
  obtain ⟨full, next, outs⟩ := collects.onewireCollect_part bit few
  rw [decodeBit_field collects.state field, full]
  exact ⟨next, outs⟩

variable (bits) in
theorem Collects.foldl_part (collects : Collects s state done) (field : state ≠ .searchRom)
    (few : done.length + bits.length < fieldLength state) :
    Collects (bits.foldl decodeBit s) state (done ++ bits) ∧
      (bits.foldl decodeBit s).outs = s.outs := by
  induction bits generalizing s done with
  | nil =>
      rw [List.append_nil]
      exact ⟨collects, rfl⟩
  | cons bit bits ih =>
      rw [length_cons] at few
      obtain ⟨next, outs⟩ := collects.decodeBit_part bit field (by omega)
      have length : (done ++ [bit]).length = done.length + 1 := by
        rw [length_append, length_singleton]
      obtain ⟨all, same⟩ := ih next (by omega)
      rw [List.append_assoc] at all
      exact ⟨all, same.trans outs⟩

/-- A whole field: the state in which it is taken. -/
structure Received (s next : OwPyState) (state : OwNetState) (bits : List OwBit) (value : Nat) :
    Prop where
  state : next.state = state
  search : next.search = .p
  bitCnt : next.bitCnt = 0
  data : next.data = value
  ssBlock : next.ssBlock = owSs bits
  esBlock : next.esBlock = owEs bits
  outs : next.outs = s.outs

theorem foldl_field (fresh : s.bitCnt = 0) (search : s.search = .p)
    (field : s.state ≠ .searchRom) (length : bits.length = fieldLength s.state) :
    ∃ next, Received s next s.state bits (owValue bits) ∧
      bits.foldl decodeBit s = next.received s.state := by
  have some : bits ≠ [] := by
    intro empty
    rw [empty] at length
    cases here : s.state <;> rw [here] at length <;> cases length
  obtain ⟨front, bit, rfl⟩ : ∃ front bit, bits = front ++ [bit] :=
    ⟨_, _, (dropLast_concat_getLast some).symm⟩
  rw [length_append, length_singleton] at length
  obtain ⟨collects, outs⟩ := (Collects.nil fresh search).foldl_part front field
    (by rw [length_nil]; omega)
  rw [nil_append] at collects
  obtain ⟨full, state, ended, count, data, ss, es, same⟩ := collects.onewireCollect_full bit length
  refine ⟨_, ⟨state, ended, count, data, ss, es.trans (owEs_concat front bit).symm,
    same.trans outs⟩, ?_⟩
  rw [foldl_append, foldl_cons, foldl_nil, decodeBit_field collects.state field, if_pos full]

theorem foldl_bytes (put : List OwBit → List OwOut) (fresh : s.bitCnt = 0)
    (search : s.search = .p) (field : s.state ≠ .searchRom) (eight : fieldLength s.state = 8)
    (puts : ∀ {t next : OwPyState} {byte : List OwBit}, t.state = s.state →
      Received t next s.state byte (owValue byte) →
      (next.received s.state).outs = t.outs ++ put byte ∧
        (next.received s.state).state = s.state ∧ (next.received s.state).bitCnt = 0 ∧
        (next.received s.state).search = .p)
    (size : Nat) (bound : bits.length ≤ size) :
    (bits.foldl decodeBit s).outs = s.outs ++ (owBytes bits).flatMap put := by
  obtain ⟨state, here⟩ : ∃ state, s.state = state := ⟨_, rfl⟩
  rw [here] at field eight puts
  induction size generalizing s bits with
  | zero =>
      rw [eq_nil_of_length_eq_zero (le_zero.mp bound)]
      exact (List.append_nil _).symm
  | succ size ih =>
      rw [owBytes_eq]
      split
      next enough =>
        have length : (bits.take 8).length = fieldLength s.state := by
          rw [length_take_of_le enough, here, eight]
        obtain ⟨next, whole, run⟩ := foldl_field fresh search (by rw [here]; exact field) length
        rw [here] at whole run
        obtain ⟨outs, state, count, ended⟩ := puts here whole
        have fewer : (bits.drop 8).length ≤ size := by
          rw [length_drop]
          omega
        have rest := ih count ended fewer state
        rw [← run, ← foldl_append, take_append_drop] at rest
        rw [rest, run, outs, flatMap_cons, List.append_assoc]
      next few =>
        rw [((Collects.nil fresh search).foldl_part _ (by rw [here]; exact field)
          (by rw [length_nil, here, eight]; omega)).2]
        exact (List.append_nil _).symm

theorem foldl_transport (fresh : s.bitCnt = 0) (search : s.search = .p)
    (here : s.state = .transport) :
    (bits.foldl decodeBit s).outs = s.outs ++ owDataOuts bits := by
  refine foldl_bytes _ fresh search (by rw [here]; decide) (by rw [here]; rfl) ?_ bits.length
    (Nat.le_refl _)
  intro t next byte _ whole
  rw [here] at whole ⊢
  refine ⟨?_, whole.state, whole.bitCnt, whole.search⟩
  show next.outs ++ [OwOut.text next.ssBlock next.esBlock (.data next.data)] ++
    [OwOut.packet next.ssBlock next.esBlock (.data next.data)] = _
  rw [whole.outs, whole.data, whole.ssBlock, whole.esBlock, List.append_assoc]
  rfl

theorem foldl_error (fresh : s.bitCnt = 0) (search : s.search = .p)
    (here : s.state = .commandError) :
    (bits.foldl decodeBit s).outs = s.outs ++ owErrorOuts bits := by
  have flat : owErrorOuts bits = (owBytes bits).flatMap fun byte =>
      [.text (owSs byte) (owEs byte) (.romErrorData (owValue byte))] := by
    rw [owErrorOuts, map_eq_flatMap]
  rw [flat]
  refine foldl_bytes _ fresh search (by rw [here]; decide) (by rw [here]; rfl) ?_ bits.length
    (Nat.le_refl _)
  intro t next byte _ whole
  rw [here] at whole ⊢
  refine ⟨?_, whole.state, whole.bitCnt, whole.search⟩
  show next.outs ++ [_] = _
  rw [whole.outs, whole.data, whole.ssBlock, whole.esBlock]

def phase : OwSearch → Nat
  | .p => 0
  | .n => 1
  | .d => 2

structure Searches (s : OwPyState) (done : List OwBit) : Prop where
  state : s.state = .searchRom
  place : 3 * s.bitCnt + phase s.search = done.length
  data : ∀ i, i < s.bitCnt → s.data.testBit i = ((owDirections done).map OwBit.value).getD i false
  ssBlock : done ≠ [] → s.ssBlock = owSs done

theorem owDirections_concat (done : List OwBit) (bit : OwBit) : owDirections (done ++ [bit]) =
      if done.length % 3 = 2 then owDirections done ++ [bit] else owDirections done := by
  match done with
  | [] => rfl
  | [_] => rfl
  | [_, _] => rfl
  | _ :: _ :: direction :: done =>
      rw [cons_append, cons_append, cons_append, owDirections, owDirections,
        owDirections_concat done bit]
      have length : (done.length + 1 + 1 + 1) % 3 = done.length % 3 := by omega
      rw [length_cons, length_cons, length_cons, length]
      split
      · rfl
      · rfl

theorem length_owDirections (done : List OwBit) : (owDirections done).length = done.length / 3 := by
  induction done using reverseRecOn with
  | nil => rfl
  | append_singleton done bit ih =>
      rw [owDirections_concat, length_append, length_singleton]
      split
      next last =>
        rw [length_append, length_singleton, ih]
        omega
      next =>
        rw [ih]
        omega

variable (bit) in
theorem Searches.ssBlock_next (searches : Searches s done) :
    (if s.bitCnt = 0 ∧ s.search = .p then bit.ss else s.ssBlock) = owSs (done ++ [bit]) := by
  have place := searches.place
  cases done with
  | nil =>
      have none : phase s.search = 0 ∧ s.bitCnt = 0 := by
        rw [length_nil] at place
        omega
      have first : s.search = .p := by
        cases here : s.search <;> rw [here] at none <;> first | rfl | cases none.1
      rw [if_pos ⟨none.2, first⟩]
      rfl
  | cons first done =>
      rw [owSs_append (cons_ne_nil _ _), if_neg]
      · exact searches.ssBlock (cons_ne_nil _ _)
      · rintro ⟨zero, search⟩
        rw [zero, search, length_cons] at place
        simp only [phase] at place
        omega

variable (bit) in
theorem Searches.next (searches : Searches s done) :
    ∃ t : OwPyState, Searches t (done ++ [bit]) ∧ t.outs = s.outs ∧ s.onewireSearch 64 bit =
        if t.bitCnt = 64 then
          ({ t with
            esBlock := bit.es
            dataP := mask t.dataP 64
            dataN := mask t.dataN 64
            data := mask t.data 64
            search := .p
            bitCnt := 0 }, true)
        else (t, false) := by
  have place := searches.place
  have start := searches.ssBlock_next bit
  have concat := owDirections_concat done bit
  have length : (done ++ [bit]).length = done.length + 1 := by rw [length_append, length_singleton]
  rw [onewireSearch]
  cases search : s.search with
  | p =>
      rw [search] at place start
      simp only [phase] at place
      rw [if_neg (by omega)] at concat
      refine ⟨{ s with
        ssBlock := if s.bitCnt = 0 ∧ OwSearch.p = OwSearch.p then bit.ss else s.ssBlock
        dataP := setBit s.dataP s.bitCnt bit.value
        search := .n }, ⟨searches.state, ?_, ?_, fun _ => start⟩, rfl, rfl⟩
      · show 3 * s.bitCnt + 1 = _
        omega
      · rw [concat]
        exact searches.data
  | n =>
      rw [search] at place start
      simp only [phase] at place
      rw [if_neg (by omega)] at concat
      refine ⟨{ s with
        ssBlock := if s.bitCnt = 0 ∧ OwSearch.n = OwSearch.p then bit.ss else s.ssBlock
        dataN := setBit s.dataN s.bitCnt bit.value
        search := .d }, ⟨searches.state, ?_, ?_, fun _ => start⟩, rfl, rfl⟩
      · show 3 * s.bitCnt + 2 = _
        omega
      · rw [concat]
        exact searches.data
  | d =>
      rw [search] at place start
      simp only [phase] at place
      rw [if_pos (by omega)] at concat
      refine ⟨{ s with
        ssBlock := if s.bitCnt = 0 ∧ OwSearch.d = OwSearch.p then bit.ss else s.ssBlock
        data := setBit s.data s.bitCnt bit.value
        search := .p
        bitCnt := s.bitCnt + 1 }, ⟨searches.state, ?_, ?_, fun _ => start⟩, rfl, rfl⟩
      · show 3 * (s.bitCnt + 1) + 0 = _
        omega
      · intro i inside
        have size : (owDirections done).length = s.bitCnt := by
          rw [length_owDirections]
          omega
        have inside : i < s.bitCnt + 1 := inside
        rw [concat]
        show (setBit s.data s.bitCnt bit.value).testBit i = _
        rw [testBit_setBit, map_append, getD_eq_getElem?_getD, getElem?_append, length_map, size]
        by_cases here : i = s.bitCnt
        · rw [if_pos here, if_neg (by omega), here, Nat.sub_self]
          rfl
        · rw [if_neg here, if_pos (by omega), searches.data i (by omega),
            getD_eq_getElem?_getD]

variable (bit) in
theorem Searches.decodeBit_part (searches : Searches s done) (few : done.length + 1 < 192) :
    Searches (s.decodeBit bit) (done ++ [bit]) ∧ (s.decodeBit bit).outs = s.outs := by
  obtain ⟨t, next, outs, step⟩ := searches.next bit
  have place := next.place
  rw [length_append, length_singleton] at place
  have more : ¬t.bitCnt = 64 := by omega
  rw [if_neg more] at step
  rw [decodeBit, searches.state]
  dsimp only
  rw [step]
  exact ⟨next, outs⟩

variable (bits) in
theorem Searches.foldl_part (searches : Searches s done) (few : done.length + bits.length < 192) :
    Searches (bits.foldl decodeBit s) (done ++ bits) ∧ (bits.foldl decodeBit s).outs = s.outs := by
  induction bits generalizing s done with
  | nil =>
      rw [List.append_nil]
      exact ⟨searches, rfl⟩
  | cons bit bits ih =>
      rw [length_cons] at few
      obtain ⟨next, outs⟩ := searches.decodeBit_part bit (by omega)
      have length : (done ++ [bit]).length = done.length + 1 := by
        rw [length_append, length_singleton]
      obtain ⟨all, same⟩ := ih next (by omega)
      rw [List.append_assoc] at all
      exact ⟨all, same.trans outs⟩

theorem Searches.nil (fresh : s.bitCnt = 0) (search : s.search = .p) (here : s.state = .searchRom) :
    Searches s [] :=
  ⟨here, by rw [fresh, search]; rfl, fun i inside => by omega, fun some => absurd rfl some⟩

theorem foldl_search (fresh : s.bitCnt = 0) (search : s.search = .p)
    (here : s.state = .searchRom) (length : bits.length = 192) :
    ∃ next, Received s next .searchRom bits (owValue (owDirections bits)) ∧
      bits.foldl decodeBit s = next.putRom := by
  have some : bits ≠ [] := by
    intro empty
    rw [empty] at length
    cases length
  obtain ⟨front, bit, rfl⟩ : ∃ front bit, bits = front ++ [bit] :=
    ⟨_, _, (dropLast_concat_getLast some).symm⟩
  rw [length_append, length_singleton] at length
  obtain ⟨searches, outs⟩ := (Searches.nil fresh search here).foldl_part front
    (by rw [length_nil]; omega)
  rw [nil_append] at searches
  obtain ⟨t, next, same, step⟩ := searches.next bit
  have place := next.place
  rw [length_append, length_singleton] at place
  have full : t.bitCnt = 64 := by
    have bound : phase t.search ≤ 2 := by
      cases t.search <;> decide
    omega
  have directions : (owDirections (front ++ [bit])).length = 64 := by
    rw [length_owDirections, length_append, length_singleton]
    omega
  rw [if_pos full] at step
  refine ⟨{ t with
      esBlock := bit.es
      dataP := mask t.dataP 64
      dataN := mask t.dataN 64
      data := mask t.data 64
      search := .p
      bitCnt := 0 },
    ⟨next.state, rfl, rfl, ?_, next.ssBlock (by simp), (owEs_concat front bit).symm,
      same.trans outs⟩, ?_⟩
  · show mask t.data 64 = _
    rw [← directions]
    refine mask_eq_owValue fun i inside => next.data i ?_
    rw [full, ← directions]
    exact inside
  · rw [foldl_append, foldl_cons, foldl_nil, decodeBit, searches.state]
    dsimp only
    rw [step]
    rfl

theorem findRomCommand_ne_command (code : Nat) : (findRomCommand code).2 ≠ .command := by
  rw [findRomCommand]
  cases found : romCommands.lookup code with
  | none => decide
  | some command =>
      obtain ⟨front, back, parts, -⟩ := lookup_eq_some_iff.mp found
      have member : (code, command) ∈ romCommands := by
        rw [parts]
        exact mem_append_right _ mem_cons_self
      have all : ∀ entry ∈ romCommands, entry.2.2 ≠ .command := by decide
      exact all _ member

theorem owValue_lt (bits : List OwBit) : owValue bits < 2 ^ bits.length := by
  have bound := packLsb_lt (bits.map OwBit.value)
  rw [length_map] at bound
  exact bound

theorem foldl_putRom {next : OwPyState} {field : List OwBit} {value : Nat} {from_ : OwNetState}
    (whole : Received s next from_ field value) (fits : value < 2 ^ 64) (rest : List OwBit) :
    (rest.foldl decodeBit next.putRom).outs = s.outs ++ owRomOuts field value ++ owDataOuts rest := by
  have rom : next.data &&& 0xffffffffffffffff = value := by
    rw [whole.data, show (0xffffffffffffffff : Nat) = 2 ^ 64 - 1 by rfl,
      and_two_pow_sub_one_eq_mod, mod_eq_of_lt fits]
  rw [foldl_transport (s := next.putRom) whole.bitCnt whole.search rfl]
  show next.outs ++
    [OwOut.text next.ssBlock next.esBlock (.rom (next.data &&& 0xffffffffffffffff))] ++
    [OwOut.packet next.ssBlock next.esBlock (.romCode (next.data &&& 0xffffffffffffffff))] ++ _ = _
  rw [rom, whole.outs, whole.ssBlock, whole.esBlock, List.append_assoc s.outs]
  rfl

variable (bits) in
theorem foldl_behindCommand (fresh : s.bitCnt = 0) (search : s.search = .p)
    (next : s.state ≠ .command) :
    (bits.foldl decodeBit s).outs = s.outs ++ owBehindCommand bits s.state := by
  cases here : s.state with
  | command => exact absurd here next
  | transport => exact foldl_transport fresh search here
  | commandError => exact foldl_error fresh search here
  | getRom =>
      rw [owBehindCommand]
      split
      next enough =>
        have length : (bits.take 64).length = fieldLength s.state := by
          rw [length_take_of_le enough, here]
          rfl
        obtain ⟨after, whole, run⟩ := foldl_field fresh search (by rw [here]; decide) length
        have fits : owValue (bits.take 64) < 2 ^ 64 := by
          have bound := owValue_lt (bits.take 64)
          rw [length_take_of_le enough] at bound
          exact bound
        have rest := foldl_putRom whole fits (bits.drop 64)
        rw [here] at run
        have run : (bits.take 64).foldl decodeBit s = after.putRom := run
        rw [← run, ← foldl_append, take_append_drop] at rest
        rw [rest, List.append_assoc]
      next few =>
        rw [((Collects.nil fresh search).foldl_part _ (by rw [here]; decide)
          (by rw [length_nil, here]; show _ < 64; omega)).2]
        exact (List.append_nil _).symm
  | searchRom =>
      rw [owBehindCommand]
      split
      next enough =>
        have length : (bits.take 192).length = 192 := length_take_of_le enough
        obtain ⟨after, whole, run⟩ := foldl_search fresh search here length
        have fits : owValue (owDirections (bits.take 192)) < 2 ^ 64 := by
          have bound := owValue_lt (owDirections (bits.take 192))
          rw [length_owDirections, length] at bound
          exact bound
        have rest := foldl_putRom whole fits (bits.drop 192)
        rw [← run, ← foldl_append, take_append_drop] at rest
        rw [rest, List.append_assoc]
      next few =>
        rw [((Searches.nil fresh search here).foldl_part _
          (by rw [length_nil]; omega)).2]
        exact (List.append_nil _).symm

theorem foldl_map_bit (bits : List OwBit) :
    (bits.map OwEvent.bit).foldl decode s = bits.foldl decodeBit s := by
  rw [foldl_map]
  rfl

theorem foldl_transaction (s : OwPyState) (transaction : OwTransaction) :
    (transaction.events.foldl decode s).outs = s.outs ++ transaction.outs := by
  rw [OwTransaction.events, foldl_cons, foldl_map_bit, OwTransaction.outs]
  split
  next enough =>
    have length : (transaction.bits.take 8).length = 8 := length_take_of_le enough
    obtain ⟨next, whole, run⟩ := foldl_field
      (s := s.decode (.presence transaction.ss transaction.es transaction.present)) rfl rfl
      (show OwNetState.command ≠ .searchRom by decide) length
    have run : (transaction.bits.take 8).foldl decodeBit
        (s.decode (.presence transaction.ss transaction.es transaction.present)) =
        next.putCommand := run
    have state : next.putCommand.state =
        (findRomCommand (owValue (transaction.bits.take 8))).2 := by
      show (findRomCommand next.data).2 = _
      rw [whole.data]
    have rest := foldl_behindCommand (s := next.putCommand) (transaction.bits.drop 8)
      whole.bitCnt whole.search (by rw [state]; exact findRomCommand_ne_command _)
    rw [← run, ← foldl_append, take_append_drop, run, state] at rest
    rw [rest]
    show next.outs ++ [OwOut.text next.ssBlock next.esBlock
      (.romCommand next.data (findRomCommand next.data).1)] ++ _ = _
    rw [whole.outs, whole.data, whole.ssBlock, whole.esBlock]
    show s.outs ++ _ ++ _ ++ _ = _
    rw [List.append_assoc, List.append_assoc]
    rfl
  next few =>
    rw [((Collects.nil rfl rfl).foldl_part _ (show OwNetState.command ≠ .searchRom by decide)
      (by rw [length_nil]; show _ < 8; omega)).2, List.append_nil]
    rfl

theorem foldl_transactions (s : OwPyState) (transactions : List OwTransaction) :
    ((transactions.flatMap OwTransaction.events).foldl decode s).outs =
      s.outs ++ transactions.flatMap OwTransaction.outs := by
  induction transactions generalizing s with
  | nil => exact (List.append_nil _).symm
  | cons transaction transactions ih =>
      rw [flatMap_cons, flatMap_cons, foldl_append, ih, foldl_transaction, List.append_assoc]

end OwPyState

end SigrokDecode
