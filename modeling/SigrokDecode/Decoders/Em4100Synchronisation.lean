import SigrokDecode.Decoders.Em4100

/-!
# Bits of a tag from anywhere

A tag sends its block again and again.  Nine ones in a row stand only in its header, but with the
end of the header and the beginning of the first row together there may be nine as well.
-/

namespace SigrokDecode

open List

namespace Em4100

def Synchronises (block : Em4100Block) (offset : Nat) : Prop :=
  ∀ (count : Nat) (bits : List Bool),
    bits <+: (List.replicate count block.bits).flatten.drop offset →
      (∀ tag, .tag tag ∈ (bits.foldl putbit start).anns → tag = block.value) ∧
        (256 ≤ bits.length → .tag block.value ∈ (bits.foldl putbit start).anns)

/-- Some ones of the header are missing, and the first row begins with as many. -/
def Straddles (block : Em4100Block) (offset : Nat) : Prop :=
  1 ≤ offset ∧ offset ≤ 4 ∧ ∀ bit ∈ (block.bits.drop 9).take offset, bit = true

theorem searching_append (count : Nat) (front back : List Bool) : searching count (front ++ back) =
      (searching count front && searching (onesBehind count front) back) := by
  induction front generalizing count with
  | nil => rfl
  | cons bit front ih =>
      rw [cons_append, searching, searching, ih, Bool.and_assoc]
      rfl

theorem onesBehind_append (count : Nat) (front back : List Bool) :
    onesBehind count (front ++ back) = onesBehind (onesBehind count front) back :=
  foldl_append

theorem searching_mono {few many : Nat} (le : few ≤ many) {bits : List Bool}
    (search : searching many bits = true) : searching few bits = true := by
  induction bits generalizing few many with
  | nil => rfl
  | cons bit bits ih =>
      rw [searching, Bool.and_eq_true, decide_eq_true_eq] at search ⊢
      have counts : (if bit then few + 1 else 0) ≤ if bit then many + 1 else 0 := by
        split
        · exact Nat.succ_le_succ le
        · exact Nat.le_refl 0
      exact ⟨Nat.lt_of_le_of_lt counts search.1, ih counts search.2⟩

variable {count : Nat}

theorem searching_drop {bits : List Bool} (search : searching count bits = true)
    (n : Nat) : searching 0 (bits.drop n) = true := by
  rw [← take_append_drop n bits, searching_append, Bool.and_eq_true] at search
  exact searching_mono (Nat.zero_le _) search.2

theorem searching_row (few : count ≤ 4) {row : Em4100Row} (even : row.even = true) :
    searching count row.bits = true ∧ onesBehind count row.bits ≤ 4 := by
  have all : ∀ (nibble : BitVec 4) (parity : Bool) (count : Fin 5),
      (⟨nibble, parity⟩ : Em4100Row).even = true →
        searching count (⟨nibble, parity⟩ : Em4100Row).bits = true ∧
          onesBehind count (⟨nibble, parity⟩ : Em4100Row).bits ≤ 4 := by
    decide
  exact all row.nibble row.parity ⟨count, by omega⟩ even

theorem searching_rows (few : count ≤ 4) {rows : List Em4100Row}
    (even : rows.all Em4100Row.even = true) :
    searching count (rows.flatMap Em4100Row.bits) = true ∧
      onesBehind count (rows.flatMap Em4100Row.bits) ≤ 4 := by
  induction rows generalizing count with
  | nil => exact ⟨rfl, few⟩
  | cons row rows ih =>
      rw [all_cons, Bool.and_eq_true] at even
      obtain ⟨here, ones⟩ := searching_row few even.1
      obtain ⟨rest, last⟩ := ih ones even.2
      rw [flatMap_cons, searching_append, onesBehind_append, here, rest]
      exact ⟨rfl, last⟩

theorem searching_trailer (few : count ≤ 4) (columns : BitVec 4) :
    searching count (trailerBits columns false) = true := by
  have all : ∀ (columns : BitVec 4) (count : Fin 5),
      searching count (trailerBits columns false) = true := by
    decide
  exact all columns ⟨count, by omega⟩

theorem searching_rest (few : count ≤ 4) {rows : List Em4100Row}
    (even : rows.all Em4100Row.even = true) (columns : BitVec 4) :
    searching count (rows.flatMap Em4100Row.bits ++ trailerBits columns false) = true := by
  obtain ⟨search, ones⟩ := searching_rows few even
  rw [searching_append, search, searching_trailer ones]
  rfl

theorem searching_first {offset : Nat} (some : 1 ≤ offset) (inside : offset < 9) {row : Em4100Row}
    (even : row.even = true) (stays : ¬(offset ≤ 4 ∧ ∀ bit ∈ row.bits.take offset, bit = true)) :
    searching (9 - offset) row.bits = true ∧ onesBehind (9 - offset) row.bits ≤ 4 := by
  have all : ∀ (nibble : BitVec 4) (parity : Bool) (offset : Fin 9), 1 ≤ offset.val →
      (⟨nibble, parity⟩ : Em4100Row).even = true →
      ¬(offset.val ≤ 4 ∧ ∀ bit ∈ (⟨nibble, parity⟩ : Em4100Row).bits.take offset, bit = true) →
        searching (9 - offset) (⟨nibble, parity⟩ : Em4100Row).bits = true ∧
          onesBehind (9 - offset) (⟨nibble, parity⟩ : Em4100Row).bits ≤ 4 := by
    decide
  exact all row.nibble row.parity ⟨offset, inside⟩ some even stays

section Block

variable {block : Em4100Block}

theorem bits_eq (stop : block.stop = false) : block.bits = replicate 9 true ++
      (block.rows.flatMap Em4100Row.bits ++ trailerBits block.columns false) := by
  rw [Em4100Block.bits, stop, List.append_assoc]
  rfl

theorem length_bits (block : Em4100Block) : block.bits.length = 64 := by
  have rows : ∀ rows : List Em4100Row,
      (rows.flatMap Em4100Row.bits).length = 5 * rows.length := by
    intro rows
    induction rows with
    | nil => rfl
    | cons row rows ih =>
        rw [flatMap_cons, length_append, ih, length_cons, Nat.mul_succ, Nat.add_comm]
        rfl
  rw [Em4100Block.bits, length_append, length_append, rows, block.length_rows]
  rfl

theorem searching_partial (even : block.rows.all Em4100Row.even = true)
    (stop : block.stop = false) {offset : Nat} (some : 1 ≤ offset)
    (stays : ¬Straddles block offset) : searching 0 (block.bits.drop offset) = true := by
  have bits := bits_eq stop
  rcases Nat.lt_or_ge offset 9 with inside | behind
  · obtain ⟨row, rows, cons⟩ : ∃ row rows, block.rows = row :: rows :=
      exists_cons_of_length_pos (by rw [block.length_rows]; decide)
    rw [cons, all_cons, Bool.and_eq_true] at even
    rw [cons, flatMap_cons, List.append_assoc] at bits
    have first : ¬(offset ≤ 4 ∧ ∀ bit ∈ row.bits.take offset, bit = true) := by
      rintro ⟨few, ones⟩
      refine stays ⟨some, few, ?_⟩
      rw [bits, drop_left' (by rfl), take_append_of_le_length
        (Nat.le_trans few (Nat.le_of_ble_eq_true rfl))]
      exact ones
    obtain ⟨search, ones⟩ := searching_first some inside even.1 first
    have header : (replicate 9 true).drop offset = replicate (9 - offset) true := drop_replicate
    have few : searching 0 (replicate (9 - offset) true) = true ∧
        onesBehind 0 (replicate (9 - offset) true) = 9 - offset := by
      have all : ∀ offset : Fin 9, 1 ≤ offset.val →
          searching 0 (replicate (9 - offset) true) = true ∧
            onesBehind 0 (replicate (9 - offset) true) = 9 - offset := by
        decide
      exact all ⟨offset, inside⟩ some
    rw [bits, drop_append_of_le_length (Nat.le_of_lt inside), header, searching_append,
      few.1, few.2, searching_append, search, searching_rest ones even.2]
    rfl
  · have rest := searching_drop (searching_rest (Nat.zero_le 4) even block.columns) (offset - 9)
    rw [bits, drop_append, drop_eq_nil_of_le behind, nil_append]
    exact rest

theorem putbit_anns (s : Em4100) (bit : Bool) : s.anns <+: (s.putbit bit).anns := by
  have count : ∀ t : Em4100, t.countBit.anns = t.anns := by
    intro t
    rw [countBit]
    exact (apply_ite anns _ _ _).trans (ite_self _)
  rw [putbit]
  split
  · refine (prefix_append s.anns [.bit bit]).trans ?_
    change (s.put [.bit bit]).anns <+: _
    generalize s.put [.bit bit] = t
    cases bit with
    | false => exact prefix_refl _
    | true =>
        rw [headerBit, if_pos rfl]
        generalize (if 0 < t.firstOne then t.firstOne + 1 else t.firstOne) = firstOne
        show _ <+: (if firstOne = 9 then _ else _ : Em4100).anns
        split
        · exact prefix_append ..
        · exact prefix_refl _
  · rw [payloadBit]
    simp only [put, apply_ite anns, count, ite_self]
    split_ifs <;> simp only [List.append_assoc, prefix_append]
  · rw [trailerBit]
    simp only [put, apply_ite anns, count, ite_self]
    split_ifs <;> simp only [List.append_assoc, prefix_append]

theorem foldl_anns (s : Em4100) (bits : List Bool) : s.anns <+: (bits.foldl putbit s).anns := by
  induction bits generalizing s with
  | nil => exact prefix_refl _
  | cons bit bits ih => exact (putbit_anns s bit).trans (ih _)

theorem mem_anns {tag : Nat} :
    .tag tag ∈ block.anns ↔ block.valid = true ∧ tag = block.value := by
  have rows : ∀ rows : List (Em4100Row × Nat),
      .tag tag ∉ rows.flatMap fun row => row.1.anns row.2 := by
    intro rows member
    obtain ⟨row, -, member⟩ := mem_flatMap.mp member
    rw [Em4100Row.anns, mem_append] at member
    rcases member with member | member
    · simp at member
    · split at member <;> simp at member
  rw [Em4100Block.anns]
  by_cases valid : block.valid = true
  · simp [rows, valid]
  · simp [rows, valid]

theorem foldl_partial (valid : block.valid = true) (stop : block.stop = false) {offset : Nat}
    (inside : offset < 64) (stays : ¬Straddles block offset) :
    ((block.bits.drop offset).foldl putbit start).Clean ∧
      ∀ tag, .tag tag ∈ ((block.bits.drop offset).foldl putbit start).anns →
        tag = block.value := by
  have even : block.rows.all Em4100Row.even = true := by
    rw [Em4100Block.valid, Bool.and_eq_true] at valid
    exact valid.1
  rcases Nat.eq_zero_or_pos offset with rfl | some
  · obtain ⟨clean, anns⟩ := foldl_block clean_start block
    rw [drop_zero, anns]
    exact ⟨clean, fun tag member => (mem_anns.mp member).2⟩
  · have search := searching_partial even stop some stays
    have last : onesBehind 0 (block.bits.drop offset) = 0 := by
      have split : ∃ front, block.bits = front ++ [false] :=
        ⟨_, by rw [bits_eq stop, trailerBits, ← List.append_assoc, ← List.append_assoc]⟩
      obtain ⟨front, split⟩ := split
      have length := length_bits block
      rw [split, length_append, length_singleton] at length
      rw [split, drop_append_of_le_length (by omega), onesBehind_append]
      rfl
    rw [foldl_searching (s := start) rfl search]
    refine ⟨⟨rfl, last, rfl, rfl, rfl, rfl, rfl, rfl⟩, ?_⟩
    intro tag member
    rw [mem_append, mem_map] at member
    rcases member with none | ⟨bit, -, wrong⟩
    · cases none
    · cases wrong

/-- Without such ones, the decoder finds the tag from every bit of its block. -/
theorem synchronises (valid : block.valid = true) (stop : block.stop = false) {offset : Nat}
    (inside : offset < 64) (stays : ¬Straddles block offset) : Synchronises block offset := by
  intro count bits part
  obtain ⟨clean, told⟩ := foldl_partial valid stop inside stays
  have length := length_bits block
  cases count with
  | zero =>
      rw [replicate_zero, flatten_nil, drop_nil, prefix_nil] at part
      subst part
      exact ⟨nofun, fun long => absurd long (by decide)⟩
  | succ count =>
      have blocks : (replicate count block.bits).flatten =
          (replicate count block).flatMap Em4100Block.bits := by
        rw [flatMap_def, map_replicate]
      rw [replicate_succ, flatten_cons, drop_append_of_le_length (by omega),
        blocks] at part
      constructor
      · intro tag member
        obtain ⟨rest, whole⟩ := part
        have grown := foldl_anns (bits.foldl putbit start) rest
        rw [← foldl_append, whole, foldl_append,
          (foldl_blocks clean (replicate count block)).2] at grown
        rcases mem_append.mp (grown.subset member) with early | late
        · exact told tag early
        · obtain ⟨other, among, late⟩ := mem_flatMap.mp late
          rw [eq_of_mem_replicate among] at late
          exact (mem_anns.mp late).2
      · intro long
        cases count with
        | zero =>
            have most := part.length_le
            rw [replicate_zero, flatMap_nil, List.append_nil, length_drop] at most
            omega
        | succ count =>
            rw [replicate_succ, flatMap_cons, ← List.append_assoc] at part
            have short : (block.bits.drop offset ++ block.bits).length ≤ bits.length := by
              rw [length_append, length_drop]
              omega
            obtain ⟨rest, rfl⟩ :=
              prefix_of_prefix_length_le (prefix_append ..) part short
            have grown := foldl_anns ((block.bits.drop offset ++ block.bits).foldl putbit start) rest
            rw [← foldl_append] at grown
            apply grown.subset
            rw [foldl_append, (foldl_block clean block).2]
            exact mem_append_right _ (mem_anns.mpr ⟨valid, rfl⟩)

end Block

theorem not_straddles_leadingEight : ¬Straddles leadingEight 9 :=
  fun straddles => absurd straddles.2.1 (by decide)

theorem synchronises_leadingEight : Synchronises leadingEight 9 :=
  synchronises (by decide) rfl (by decide) not_straddles_leadingEight

/-- From the second bit of its block, the tag is never told: with the first bit of the next block,
the bits are those of a block with an odd row. -/
theorem not_synchronises_leadingEight : ¬Synchronises leadingEight 1 := by
  obtain ⟨other, same, odd⟩ : ∃ other : Em4100Block,
      other.bits = leadingEight.bits.drop 1 ++ [true] ∧ ¬other.valid = true :=
    ⟨{ rows := ⟨1, false⟩ :: List.replicate 8 ⟨0, false⟩ ++ [⟨0, true⟩]
       columns := 0
       stop := true
       length_rows := rfl }, rfl, by decide⟩
  have bits : (List.replicate 4 other).flatMap Em4100Block.bits =
      (List.replicate 4 (leadingEight.bits.drop 1 ++ [true])).flatten := by
    rw [flatMap_def, map_replicate, same]
  intro finds
  have told := (finds 5 ((List.replicate 4 other).flatMap Em4100Block.bits)
    (by rw [bits]; decide +kernel)).2 (by rw [bits]; decide +kernel)
  rw [(foldl_blocks clean_start _).2] at told
  obtain ⟨block, among, member⟩ := mem_flatMap.mp told
  rw [eq_of_mem_replicate among] at member
  exact odd (mem_anns.mp member).1

end Em4100

end SigrokDecode
