import SigrokDecode.Decoders.UsbPdFrame

/-!
# Reading a USB Power Delivery packet

What each step of `decode_packet` does in front of the bits that it expects: the
annotations on the rows of phases and warnings, and where the index stands
afterwards.
-/

namespace SigrokDecode

open Foundation List BitVec

@[simp] theorem length_symbolBits (symbol : Nat) : (symbolBits symbol).length = 5 := by
  simp [symbolBits]

theorem dec4b5b_symbolBits (symbol : Nat) (known : symbol < 23) :
    dec4b5b.getD (packLsb (symbolBits symbol)) PdSym.symErr = symbol := by
  have table : ∀ symbol < 23,
      dec4b5b.getD (packLsb (symbolBits symbol)) PdSym.symErr = symbol := by decide
  exact table symbol known

@[simp] theorem length_halfBits (half : BitVec 16) : (halfBits half).length = 20 := by
  simp [halfBits, nibbles]

@[simp] theorem length_wordBits (word : BitVec 32) : (wordBits word).length = 40 := by
  simp [wordBits]

theorem nibbles_lt (half : BitVec 16) : ∀ symbol ∈ nibbles half, symbol < 23 := by
  intro symbol member
  simp only [nibbles, mem_cons, not_mem_nil, or_false] at member
  omega

theorem shortOf_nibbles (half : BitVec 16) : PdState.shortOf (nibbles half) = half := by
  have small := half.isLt
  have first : half.toNat % 16 ||| (half.toNat / 16 % 16) <<< 4 = half.toNat % 256 := by
    rw [Nat.or_comm, ← Nat.shiftLeft_add_eq_or_of_lt (by omega), Nat.shiftLeft_eq]
    omega
  have second : half.toNat % 256 ||| (half.toNat / 256 % 16) <<< 8 = half.toNat % 4096 := by
    rw [Nat.or_comm, ← Nat.shiftLeft_add_eq_or_of_lt (by omega), Nat.shiftLeft_eq]
    omega
  have third : half.toNat % 4096 ||| (half.toNat / 4096 % 16) <<< 12 = half.toNat := by
    rw [Nat.or_comm, ← Nat.shiftLeft_add_eq_or_of_lt (by omega), Nat.shiftLeft_eq]
    omega
  apply eq_of_toNat_eq
  simp only [PdState.shortOf, nibbles, getD_cons_zero, getD_cons_succ, first, second,
    third, toNat_ofNat]
  omega

theorem halves_word (word : BitVec 32) :
    (lowHalf word).setWidth 32 ||| (highHalf word).setWidth 32 <<< 16 = word := by
  apply eq_of_getLsbD_eq
  intro index inside
  simp only [lowHalf, highHalf, getLsbD_or, getLsbD_setWidth,
    getLsbD_shiftLeft, getLsbD_ushiftRight, inside]
  by_cases low : index < 16
  · simp [low]
  · have high : index - 16 < 16 := by omega
    have shifted : 16 + (index - 16) = index := by omega
    have upper : index - 16 < 32 := by omega
    simp [low, high, shifted, upper]

theorem computeCrc32_eq (data : List (BitVec 8)) : computeCrc32 data = ethernetCrc data := by
  have poly : (0xEDB88320#32 : BitVec 32) = ethernetPoly.reverse := by decide +kernel
  have ones : (0xFFFFFFFF#32 : BitVec 32) = allOnes 32 := by decide
  rw [computeCrc32, poly, ones, crcLoop_crcCheck ethernetPoly data (by decide)]
  rfl

namespace PdState

variable {bits front rest : List Bool} {i : Nat} {s t : PdState} {anns : List PdAnn}
  {field : PdField}

theorem room_of_drop (ahead : bits.drop i = front ++ rest)
    (positive : 0 < front.length) : i + front.length + rest.length = bits.length := by
  have lengths := congrArg List.length ahead
  rw [length_drop, length_append] at lengths
  omega

theorem drop_behind (ahead : bits.drop i = front ++ rest) :
    bits.drop (i + front.length) = rest := by
  rw [← drop_drop, ahead, drop_left]

theorem getSym_symbolBits {symbol : Nat} (known : symbol < 23)
    (ahead : bits.drop i = symbolBits symbol ++ rest) : getSym bits i = symbol := by
  have room := room_of_drop ahead (by simp)
  rw [length_symbolBits] at room
  have inside : ¬bits.length ≤ i + 4 := by omega
  have taken : (bits.drop i).take 5 = symbolBits symbol := by
    rw [ahead, take_left' (length_symbolBits symbol)]
  rw [getSym, if_neg inside, taken, dec4b5b_symbolBits symbol known]

theorem getSyms_flatMap {symbols : List Nat}
    (known : ∀ symbol ∈ symbols, symbol < 23) (four : symbols.length = 4)
    (ahead : bits.drop i = symbols.flatMap symbolBits ++ rest) : getSyms bits i = symbols := by
  obtain ⟨first, second, third, fourth, rfl⟩ : ∃ first second third fourth,
      symbols = [first, second, third, fourth] := by
    match symbols, four with
    | [first, second, third, fourth], _ => exact ⟨first, second, third, fourth, rfl⟩
  have next : ∀ {front rest : List Bool} {i : Nat}, front.length = 5 →
      bits.drop i = front ++ rest → bits.drop (i + 5) = rest := by
    intro front rest i five ahead
    rw [← five]
    exact drop_behind ahead
  simp only [flatMap_cons, flatMap_nil, List.append_nil, List.append_assoc] at ahead
  have ahead2 := next (length_symbolBits first) ahead
  have ahead3 := next (length_symbolBits second) ahead2
  have ahead4 := next (length_symbolBits third) ahead3
  simp only [mem_cons, not_mem_nil, or_false, forall_eq_or_imp, forall_eq] at known
  obtain ⟨known1, known2, known3, known4⟩ := known
  rw [getSyms, getSym_symbolBits known1 ahead, getSym_symbolBits known2 ahead2,
    getSym_symbolBits known3 ahead3, getSym_symbolBits known4 ahead4]

def shown (s : PdState) : List PdAnn :=
  s.anns.filter fun ann => ann.field.row = .phase ∨ ann.field.row = .warnings

/-- An annotation over the bits from `first` to `last`. -/
def span (s : PdState) (first last : Nat) (field : PdField) : PdAnn :=
  { ss := s.edges.getD first 0
    es := s.edges.getD last 0
    field }

def wholePacket (s : PdState) (field : PdField) : PdAnn :=
  s.span 0 (s.edges.length - 1) field

/-- From `s` to `t` the index goes on by `count`, and `anns` appear on the two rows. -/
structure Advances (s t : PdState) (count : Nat) (anns : List PdAnn) : Prop where
  bits : t.bits = s.bits
  edges : t.edges = s.edges
  head : t.head = s.head
  idx : t.idx = s.idx + count
  shown : t.shown = s.shown ++ anns

theorem Advances.refl (s : PdState) : s.Advances s 0 [] :=
  ⟨rfl, rfl, rfl, rfl, (List.append_nil _).symm⟩

theorem Advances.trans {u : PdState} {first second : Nat} {further : List PdAnn}
    (there : s.Advances t first anns) (onward : t.Advances u second further) :
    s.Advances u (first + second) (anns ++ further) where
  bits := onward.bits.trans there.bits
  edges := onward.edges.trans there.edges
  head := onward.head.trans there.head
  idx := by rw [onward.idx, there.idx, Nat.add_assoc]
  shown := by rw [onward.shown, there.shown, List.append_assoc]

theorem span_congr (same : t.edges = s.edges) : t.span = s.span := by
  funext first last field
  rw [span, span, same]

theorem Advances.span {count : Nat} (there : s.Advances t count anns) : t.span = s.span :=
  span_congr there.edges

theorem putx_cases (s : PdState) (s0 s1 : Int) (field : PdField) :
    s.putx s0 s1 field = s ∨ ∃ ss es, s.putx s0 s1 field = s.put ss es field := by
  unfold putx
  split
  · exact Or.inr ⟨_, _, rfl⟩
  · exact Or.inl rfl

/-- The words read so far. -/
def stored (s : PdState) : Nat × (Nat → BitVec 32) :=
  (s.numData, s.data)

theorem putx_stored (s : PdState) (s0 s1 : Int) (field : PdField) :
    (s.putx s0 s1 field).stored = s.stored := by
  rcases putx_cases s s0 s1 field with same | ⟨ss, es, put⟩
  · rw [same]
  · rw [put]
    rfl

theorem put_hidden (s : PdState) (ss es : Nat)
    (hidden : ¬(field.row = .phase ∨ field.row = .warnings)) :
    s.Advances (s.put ss es field) 0 [] := by
  refine ⟨rfl, rfl, rfl, rfl, ?_⟩
  simp only [shown, put, filter_append, filter_cons, filter_nil]
  rw [if_neg (by simpa using hidden)]

theorem putx_hidden (s : PdState) (s0 s1 : Int)
    (hidden : ¬(field.row = .phase ∨ field.row = .warnings)) :
    s.Advances (s.putx s0 s1 field) 0 [] := by
  rcases putx_cases s s0 s1 field with same | ⟨ss, es, put⟩
  · rw [same]
    exact Advances.refl s
  · rw [put]
    exact put_hidden s ss es hidden

theorem put_shown (s : PdState) (ss es : Nat)
    (visible : field.row = .phase ∨ field.row = .warnings) :
    s.Advances (s.put ss es field) 0 [{ ss, es, field }] := by
  refine ⟨rfl, rfl, rfl, rfl, ?_⟩
  simp only [shown, put, filter_append, filter_cons, filter_nil]
  rw [if_pos (by simpa using visible)]

theorem putx_span (s : PdState) (first last : Nat) (field : PdField)
    (visible : field.row = .phase ∨ field.row = .warnings) (ordered : first ≤ last)
    (inside : last < s.edges.length) :
    s.Advances (s.putx first last field) 0 [s.span first last field] := by
  have started : (0 : Int) ≤ first ∧ (first : Int) < s.edges.length := by omega
  have notOpen : ¬((last : Int) < 0) := by omega
  have ended : (last : Int) < s.edges.length := by omega
  simp only [putx, if_pos started, if_neg notOpen, if_pos ended, Int.toNat_natCast]
  exact put_shown s _ _ visible

theorem putwarn_advances (s : PdState) (warning : PdWarning) (some : 0 < s.edges.length) :
    s.Advances (s.putwarn warning) 0 [s.wholePacket (.warning warning)] := by
  have started : (0 : Int) ≤ 0 ∧ (0 : Int) < s.edges.length := by omega
  have toEnd : (-1 : Int) < 0 := by decide
  simp only [putwarn, putx, if_pos started, if_pos toEnd]
  exact put_shown s _ _ (Or.inr rfl)

theorem recSym_advances (s : PdState) (i symbol : Nat) : s.Advances (s.recSym i symbol) 0 [] := by
  unfold recSym
  split
  · exact putx_hidden s _ _ (by simp [PdField.row])
  · exact Advances.refl s

theorem recSym_stored (s : PdState) (i symbol : Nat) : (s.recSym i symbol).stored = s.stored := by
  unfold recSym
  split
  · exact putx_stored s _ _ _
  · rfl

theorem recSyms_advances (s : PdState) (i : Nat) (symbols : List Nat) :
    s.Advances (s.recSyms i symbols) 0 [] :=
  (((recSym_advances s _ _).trans (recSym_advances _ _ _)).trans (recSym_advances _ _ _)).trans
    (recSym_advances _ _ _)

theorem recSyms_stored (s : PdState) (i : Nat) (symbols : List Nat) :
    (s.recSyms i symbols).stored = s.stored := by
  unfold recSyms
  rw [recSym_stored, recSym_stored, recSym_stored, recSym_stored]

theorem getShort_half {half : BitVec 16}
    (ahead : s.bits.drop s.idx = halfBits half ++ rest) (more : rest ≠ []) :
    s.getShort.1 = half ∧ s.Advances s.getShort.2 20 [] ∧ s.getShort.2.stored = s.stored := by
  have room := room_of_drop ahead (by simp)
  rw [length_halfBits] at room
  have left : 0 < rest.length := length_pos_iff.mpr more
  have enough : ¬s.bits.length ≤ s.idx + 20 := by omega
  have symbols : getSyms s.bits s.idx = nibbles half := getSyms_flatMap (nibbles_lt half) rfl ahead
  have passed := recSyms_advances s s.idx (nibbles half)
  unfold getShort
  rw [if_neg enough, symbols]
  refine ⟨shortOf_nibbles half, { passed with idx := rfl }, ?_⟩
  exact recSyms_stored s s.idx (nibbles half)

theorem Advances.ahead {count : Nat}
    (there : s.Advances t count anns) (ahead : s.bits.drop s.idx = front ++ rest)
    (length : front.length = count) : t.bits.drop t.idx = rest := by
  rw [there.bits, there.idx, ← length]
  exact drop_behind ahead

theorem getWord_word {word : BitVec 32}
    (ahead : s.bits.drop s.idx = wordBits word ++ rest) (more : rest ≠ []) :
    s.getWord.1 = word ∧ s.Advances s.getWord.2 40 [] ∧ s.getWord.2.stored = s.stored := by
  rw [wordBits, List.append_assoc] at ahead
  obtain ⟨low, toLow, lowStored⟩ := getShort_half ahead (by simp [more])
  obtain ⟨high, toHigh, highStored⟩ := getShort_half (toLow.ahead ahead (length_halfBits _)) more
  refine ⟨?_, toLow.trans toHigh, highStored.trans lowStored⟩
  unfold getWord
  simp only [low, high]
  exact halves_word word

end PdState

end SigrokDecode
