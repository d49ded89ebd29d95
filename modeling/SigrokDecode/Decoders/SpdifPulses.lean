import SigrokDecode.Decoders.Spdif

/-!
# Pulses in front of S/PDIF decoding

The pulses in the buffer fall into pulses that belong to nothing, preambles and the bits of
subframes.  Where the buffer ends among them decides whether the replay hands over all it knows.
-/

namespace SigrokDecode

open List

section Pulses

variable {α : Type} (type : α → Int)

/-- The pulses of some bits: one for a 0, two short ones for a 1, or a short one alone in front of
another pulse, behind which (`lone`) no short pulse comes any more. -/
inductive SpdifBits : Bool → Nat → List α → Prop
  | nil : SpdifBits false 0 []
  | zero {lone : Bool} {count : Nat} {pulse : α} {pulses : List α} :
      type pulse ≠ 1 → SpdifBits lone count pulses → SpdifBits lone (count + 1) (pulse :: pulses)
  | one {lone : Bool} {count : Nat} {first second : α} {pulses : List α} :
      type first = 1 → type second = 1 → SpdifBits lone count pulses →
      SpdifBits lone (count + 1) (first :: second :: pulses)
  | alone {short pulse : α} {pulses : List α} :
      type short = 1 → type pulse ≠ 1 → (∀ pulse ∈ pulses, type pulse ≠ 1) →
      SpdifBits true (pulses.length + 1) (short :: pulse :: pulses)

/-- No preamble begins. -/
def SpdifQuiet (pulses : List α) : Prop :=
  ∀ pulse ∈ pulses, type pulse ≠ 2

/-- Four pulses from a long one on. -/
structure SpdifStart (name : SpdifPreamble) (a b c d : α) : Prop where
  long : type a = 2
  name : spdifPreamble [type a, type b, type c, type d] = name

/-- The buffer neither ends inside a preamble nor between the halves of a one; no short pulse in
it stands alone and has another one behind it in its subframe; an unknown preamble is the last
thing in it; and behind a whole subframe there is another whole preamble.  The index says whether
no subframe has been yet. -/
inductive SpdifSettled : Bool → List α → Prop
  | quiet {pulses : List α} : SpdifQuiet type pulses → SpdifSettled true pulses
  | unknown {first : Bool} {quiet : List α} {a b c d : α} :
      SpdifQuiet type quiet → SpdifStart type .unknown a b c d →
      SpdifSettled first (quiet ++ [a, b, c, d])
  | stream {first lone : Bool} {quiet bits : List α} {a b c d : α} {name : SpdifPreamble}
      {count : Nat} : SpdifQuiet type quiet → SpdifStart type name a b c d → name ≠ .unknown →
      SpdifBits type lone count bits → count < 28 →
      SpdifSettled first (quiet ++ a :: b :: c :: d :: bits)
  | subframe {first lone : Bool} {quiet bits rest : List α} {a b c d : α} {name : SpdifPreamble} :
      SpdifQuiet type quiet → SpdifStart type name a b c d → name ≠ .unknown →
      SpdifBits type lone 28 bits → SpdifSettled false rest →
      SpdifSettled first (quiet ++ a :: b :: c :: d :: (bits ++ rest))

/-- The other buffers. -/
inductive SpdifUnsettled : Bool → List α → Prop
  | behind {pulses : List α} : SpdifQuiet type pulses → SpdifUnsettled false pulses
  | preamble {first : Bool} {quiet pulses : List α} {a : α} :
      SpdifQuiet type quiet → type a = 2 → pulses.length < 3 →
      SpdifUnsettled first (quiet ++ a :: pulses)
  | unknown {first : Bool} {quiet rest : List α} {a b c d : α} :
      SpdifQuiet type quiet → SpdifStart type .unknown a b c d → rest ≠ [] →
      SpdifUnsettled first (quiet ++ a :: b :: c :: d :: rest)
  | half {first : Bool} {quiet bits : List α} {a b c d short : α} {name : SpdifPreamble}
      {count : Nat} : SpdifQuiet type quiet → SpdifStart type name a b c d → name ≠ .unknown →
      SpdifBits type false count bits → count < 28 → type short = 1 →
      SpdifUnsettled first (quiet ++ a :: b :: c :: d :: (bits ++ [short]))
  | stale {first : Bool} {quiet bits rest : List α} {a b c d short : α} {name : SpdifPreamble}
      {count : Nat} : SpdifQuiet type quiet → SpdifStart type name a b c d → name ≠ .unknown →
      SpdifBits type true count bits → count < 28 → type short = 1 →
      SpdifUnsettled first (quiet ++ a :: b :: c :: d :: (bits ++ short :: rest))
  | subframe {first lone : Bool} {quiet bits rest : List α} {a b c d : α} {name : SpdifPreamble} :
      SpdifQuiet type quiet → SpdifStart type name a b c d → name ≠ .unknown →
      SpdifBits type lone 28 bits → SpdifUnsettled false rest →
      SpdifUnsettled first (quiet ++ a :: b :: c :: d :: (bits ++ rest))

variable {type}

theorem SpdifBits.ne_nil {lone : Bool} {count : Nat} {pulses : List α}
    (bits : SpdifBits type lone count pulses) (some : 0 < count) : pulses ≠ [] := by
  cases bits with
  | nil => omega
  | zero => exact cons_ne_nil _ _
  | one => exact cons_ne_nil _ _
  | alone => exact cons_ne_nil _ _

theorem split_short (pulses : List α) : (∀ pulse ∈ pulses, type pulse ≠ 1) ∨
    ∃ front short rest, pulses = front ++ short :: rest ∧ (∀ pulse ∈ front, type pulse ≠ 1) ∧
      type short = 1 := by
  induction pulses with
  | nil => exact Or.inl fun _ member => absurd member not_mem_nil
  | cons pulse pulses ih =>
      by_cases short : type pulse = 1
      · exact Or.inr ⟨[], pulse, pulses, rfl, fun _ member => absurd member not_mem_nil, short⟩
      · obtain none | ⟨front, first, rest, parts, before, found⟩ := ih
        · exact Or.inl (forall_mem_cons.mpr ⟨short, none⟩)
        · exact Or.inr ⟨pulse :: front, first, rest, by rw [parts]; rfl,
            forall_mem_cons.mpr ⟨short, before⟩, found⟩

variable (type) in
theorem split_long (pulses : List α) : SpdifQuiet type pulses ∨
    ∃ quiet a rest, pulses = quiet ++ a :: rest ∧ SpdifQuiet type quiet ∧ type a = 2 := by
  induction pulses with
  | nil => exact Or.inl fun _ member => absurd member not_mem_nil
  | cons pulse pulses ih =>
      by_cases long : type pulse = 2
      · exact Or.inr ⟨[], pulse, pulses, rfl, fun _ member => absurd member not_mem_nil, long⟩
      · obtain none | ⟨quiet, a, rest, parts, before, found⟩ := ih
        · exact Or.inl (forall_mem_cons.mpr ⟨long, none⟩)
        · exact Or.inr ⟨pulse :: quiet, a, rest, by rw [parts]; rfl,
            forall_mem_cons.mpr ⟨long, before⟩, found⟩

variable (type) in
theorem bits_cases (missing : Nat) (pulses : List α) :
    (∃ lone count, count < missing ∧ SpdifBits type lone count pulses) ∨
    (∃ count bits short, count < missing ∧ SpdifBits type false count bits ∧ type short = 1 ∧
      pulses = bits ++ [short]) ∨
    (∃ count bits short rest, count < missing ∧ SpdifBits type true count bits ∧
      type short = 1 ∧ pulses = bits ++ short :: rest) ∨
    (∃ lone bits rest, SpdifBits type lone missing bits ∧ pulses = bits ++ rest) := by
  induction missing generalizing pulses with
  | zero => exact Or.inr (Or.inr (Or.inr ⟨false, [], pulses, .nil, rfl⟩))
  | succ missing ih =>
      match pulses with
      | [] => exact Or.inl ⟨false, 0, Nat.succ_pos _, .nil⟩
      | first :: rest =>
          by_cases short : type first = 1
          · match rest with
            | [] => exact Or.inr (Or.inl ⟨0, [], first, Nat.succ_pos _, .nil, short, rfl⟩)
            | second :: others =>
                by_cases pair : type second = 1
                · obtain ⟨lone, count, few, bits⟩ | ⟨count, bits, last, few, whole, final, parts⟩ |
                    ⟨count, bits, last, more, few, whole, final, parts⟩ |
                    ⟨lone, bits, more, whole, parts⟩ := ih others
                  · exact Or.inl ⟨lone, count + 1, by omega, .one short pair bits⟩
                  · exact Or.inr (Or.inl ⟨count + 1, first :: second :: bits, last, by omega,
                      .one short pair whole, final, by rw [parts]; rfl⟩)
                  · exact Or.inr (Or.inr (Or.inl ⟨count + 1, first :: second :: bits, last, more,
                      by omega, .one short pair whole, final, by rw [parts]; rfl⟩))
                  · exact Or.inr (Or.inr (Or.inr ⟨lone, first :: second :: bits, more,
                      .one short pair whole, by rw [parts]; rfl⟩))
                · obtain none | ⟨front, last, more, parts, before, final⟩ := split_short others
                  · rcases Nat.lt_or_ge others.length missing with few | enough
                    · exact Or.inl ⟨true, others.length + 1, by omega, .alone short pair none⟩
                    · have whole := SpdifBits.alone short pair fun pulse member =>
                        none pulse (mem_of_mem_take (i := missing) member)
                      rw [length_take_of_le enough] at whole
                      exact Or.inr (Or.inr (Or.inr ⟨true, _, others.drop missing, whole,
                        by simp [take_append_drop]⟩))
                  · rcases Nat.lt_or_ge front.length missing with few | enough
                    · exact Or.inr (Or.inr (Or.inl ⟨front.length + 1, first :: second :: front,
                        last, more, by omega, .alone short pair before, final, by rw [parts]; rfl⟩))
                    · have whole := SpdifBits.alone short pair fun pulse member =>
                        before pulse (mem_of_mem_take (i := missing) member)
                      rw [length_take_of_le enough] at whole
                      refine Or.inr (Or.inr (Or.inr ⟨true, _, front.drop missing ++ last :: more,
                        whole, ?_⟩))
                      rw [parts, cons_append, cons_append, ← List.append_assoc, take_append_drop]
          · obtain ⟨lone, count, few, bits⟩ | ⟨count, bits, last, few, whole, final, parts⟩ |
              ⟨count, bits, last, more, few, whole, final, parts⟩ |
              ⟨lone, bits, more, whole, parts⟩ := ih rest
            · exact Or.inl ⟨lone, count + 1, by omega, .zero short bits⟩
            · exact Or.inr (Or.inl ⟨count + 1, first :: bits, last, by omega, .zero short whole,
                final, by rw [parts]; rfl⟩)
            · exact Or.inr (Or.inr (Or.inl ⟨count + 1, first :: bits, last, more, by omega,
                .zero short whole, final, by rw [parts]; rfl⟩))
            · exact Or.inr (Or.inr (Or.inr ⟨lone, first :: bits, more, .zero short whole,
                by rw [parts]; rfl⟩))

variable (type) in
theorem settled_or_unsettled (size : Nat) : ∀ {pulses : List α}, pulses.length ≤ size →
    ∀ first, SpdifSettled type first pulses ∨ SpdifUnsettled type first pulses := by
  induction size with
  | zero =>
      intro pulses small first
      have none : SpdifQuiet type pulses := by
        rw [eq_nil_of_length_eq_zero (Nat.le_zero.mp small)]
        exact fun _ member => absurd member not_mem_nil
      cases first with
      | true => exact Or.inl (.quiet none)
      | false => exact Or.inr (.behind none)
  | succ size ih =>
      intro pulses small first
      obtain none | ⟨quiet, a, rest, rfl, before, long⟩ := split_long type pulses
      · cases first with
        | true => exact Or.inl (.quiet none)
        | false => exact Or.inr (.behind none)
      · match rest with
        | [] => exact Or.inr (.preamble before long (by simp))
        | [_] => exact Or.inr (.preamble before long (by simp))
        | [_, _] => exact Or.inr (.preamble before long (by simp))
        | b :: c :: d :: others =>
            have start : SpdifStart type (spdifPreamble [type a, type b, type c, type d]) a b c d :=
              ⟨long, rfl⟩
            by_cases unknown : spdifPreamble [type a, type b, type c, type d] = .unknown
            · rw [unknown] at start
              by_cases empty : others = []
              · rw [empty]
                exact Or.inl (.unknown before start)
              · exact Or.inr (.unknown before start empty)
            · obtain ⟨lone, count, few, bits⟩ | ⟨count, bits, short, few, whole, final, parts⟩ |
                ⟨count, bits, short, more, few, whole, final, parts⟩ |
                ⟨lone, bits, more, whole, parts⟩ := bits_cases type 28 others
              · exact Or.inl (.stream before start unknown bits few)
              · rw [parts]
                exact Or.inr (.half before start unknown whole few final)
              · rw [parts]
                exact Or.inr (.stale before start unknown whole few final)
              · rw [parts] at small ⊢
                have less : more.length ≤ size := by
                  simp only [length_append, length_cons] at small
                  omega
                obtain settled | unsettled := ih less false
                · exact Or.inl (.subframe before start unknown whole settled)
                · exact Or.inr (.subframe before start unknown whole unsettled)

end Pulses

end SigrokDecode
