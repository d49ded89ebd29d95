import SigrokDecode.Decoders.FlexRayDecoding

/-!
# FlexRay frames on the bus

The byte start sequences leave the bits of a frame alone, and `flexray_c` gets from the start
of a frame to the idle state behind it.
-/

set_option linter.dupNamespace false

namespace SigrokDecode

open Foundation FlexrayFrame List

/-! ## Byte start sequences -/

theorem byteStarts_append (first second : Nat) (bits : List Bool) :
    byteStarts (first + second) bits =
      byteStarts first bits ++ byteStarts second (bits.drop (8 * first)) := by
  induction first generalizing bits with
  | zero => rw [Nat.zero_add, Nat.mul_zero, drop_zero, byteStarts, nil_append]
  | succ first ih =>
      have further : first + 1 + second = (first + second) + 1 := by omega
      have behind : 8 + 8 * first = 8 * (first + 1) := by omega
      rw [further, byteStarts, ih, byteStarts, drop_drop, behind]
      simp only [cons_append, List.append_assoc]

theorem length_byteStarts {count : Nat} {bits : List Bool} (whole : 8 * count ≤ bits.length) :
    (byteStarts count bits).length = 10 * count := by
  induction count generalizing bits with
  | zero => rfl
  | succ count ih =>
      have rest : 8 * count ≤ (bits.drop 8).length := by
        rw [length_drop]
        omega
      have byte : (bits.take 8).length = 8 := by
        rw [length_take]
        omega
      rw [byteStarts, cons_append, cons_append, length_cons, length_cons,
        length_append, ih rest, byte]
      omega

namespace FlexrayState

section Feed

variable (config : FlexrayConfig) (samples : Nat → Nat)

theorem feed_append (s : FlexrayState) (number : Nat) (front back : List Bool) :
    feed config samples s number (front ++ back) =
      feed config samples (feed config samples s number front) (number + front.length) back := by
  induction front generalizing s number with
  | nil => rfl
  | cons bit front ih =>
      rw [cons_append, feed, ih, feed, length_cons, Nat.add_assoc, Nat.add_comm 1]

theorem feed_idle {s : FlexrayState} (idle : s.state = .idle) (number : Nat)
    (bits : List Bool) : feed config samples s number bits = s := by
  induction bits generalizing number with
  | nil => rfl
  | cons bit bits ih =>
      have still : s.sample config bit (samples number) = s := by rw [sample, idle]
      rw [feed, still]
      exact ih (number + 1)

/-- As long as the end of a run is not idle, the decoder has not been idle before. -/
theorem feed_take_getBits {s : FlexrayState} {number : Nat} {bits : List Bool}
    (ends : (feed config samples s number bits).state = .getBits) (count : Nat) :
    (feed config samples s number (bits.take count)).state = .getBits := by
  cases phase : (feed config samples s number (bits.take count)).state with
  | getBits => rfl
  | idle =>
      rw [← take_append_drop count bits, feed_append, feed_idle config samples phase] at ends
      exact phase.symm.trans ends

end Feed

section Raw

variable {frame : FlexrayFrame} {config : FlexrayConfig} {tss : Nat × Nat}
  {samples : Nat → Nat} {k : Nat} {s : FlexrayState} {bit : Bool}

theorem putDataBytes_buffers (config : FlexrayConfig) (s : FlexrayState) (count : Nat) :
    ((range count).foldl (putDataByte config) s).bits = s.bits ∧
      ((range count).foldl (putDataByte config) s).rawbits = s.rawbits := by
  induction count with
  | zero => exact ⟨rfl, rfl⟩
  | succ count ih =>
      rw [range_succ, foldl_append, foldl_cons, foldl_nil]
      unfold putDataByte
      dsimp only
      split <;> exact ih

theorem dataBit_buffers (s : FlexrayState) (samplenum : Nat) :
    (s.dataBit samplenum).bits = s.bits ∧ (s.dataBit samplenum).rawbits = s.rawbits := by
  unfold dataBit
  split <;> exact ⟨rfl, rfl⟩

theorem putg_bits (s : FlexrayState) (ss es : Nat) (field : FlexrayField) :
    (s.putg config ss es field).bits = s.bits := rfl

theorem putg_rawbits (s : FlexrayState) (ss es : Nat) (field : FlexrayField) :
    (s.putg config ss es field).rawbits = s.rawbits := rfl

theorem headerStart_buffers (config : FlexrayConfig) (s : FlexrayState) (bit : Bool)
    (samplenum : Nat) (receiving : (s.headerStart config bit samplenum).state ≠ .idle) :
    (s.headerStart config bit samplenum).bits = s.bits ∧
      (s.headerStart config bit samplenum).rawbits = s.rawbits := by
  generalize result : s.headerStart config bit samplenum = t at receiving ⊢
  unfold headerStart at result
  split_ifs at result
  · subst result
    simp only [putx, putg_bits, putg_rawbits, and_self]
  · subst result
    exact absurd rfl receiving
  · subst result
    exact ⟨rfl, rfl⟩

theorem headerField_buffers (config : FlexrayConfig) {s t : FlexrayState} {bit : Bool}
    {bitnum samplenum : Nat} (handled : s.headerField config bit bitnum samplenum = some t)
    (receiving : t.state ≠ .idle) : t.bits = s.bits ∧ t.rawbits = s.rawbits := by
  unfold headerField at handled
  split at handled <;> cases handled
  all_goals first | exact ⟨rfl, rfl⟩ | exact headerStart_buffers config s bit _ receiving

theorem restField_buffers (config : FlexrayConfig) (s : FlexrayState) (bit : Bool)
    (bitnum samplenum : Nat)
    (receiving : (s.restField config bit bitnum samplenum).state ≠ .idle) :
    (s.restField config bit bitnum samplenum).bits = s.bits ∧
      (s.restField config bit bitnum samplenum).rawbits = s.rawbits := by
  have either : ∀ {p : Prop} [Decidable p] {t u : FlexrayState},
      (t.state ≠ .idle → t.bits = s.bits ∧ t.rawbits = s.rawbits) →
      (u.state ≠ .idle → u.bits = s.bits ∧ u.rawbits = s.rawbits) →
      (if p then t else u).state ≠ .idle →
        (if p then t else u).bits = s.bits ∧ (if p then t else u).rawbits = s.rawbits := by
    intro p _ t u first second
    by_cases holds : p
    · rwa [if_pos holds]
    · rwa [if_neg holds]
  revert receiving
  unfold restField
  refine either (fun _ => dataBit_buffers s samplenum) (either ?_ ?_)
  · intro _
    obtain ⟨bits, rawbits⟩ :=
      putDataBytes_buffers config (s.dataBit samplenum) (2 * s.payloadLength)
    obtain ⟨sameBits, sameRawbits⟩ := dataBit_buffers s samplenum
    exact ⟨bits.trans sameBits, rawbits.trans sameRawbits⟩
  refine either (fun _ => ⟨rfl, rfl⟩) (either (fun _ => ⟨rfl, rfl⟩) ?_)
  refine either (fun _ => ⟨rfl, rfl⟩) (either ?_ (either (fun _ => ⟨rfl, rfl⟩) ?_))
  · intro _
    unfold frameKind
    cases bit <;> exact ⟨rfl, rfl⟩
  refine either (fun receiving => absurd rfl receiving) (either ?_ fun _ => ⟨rfl, rfl⟩)
  intro _
  unfold trailingSequence
  split <;> exact ⟨rfl, rfl⟩

theorem field_buffers (config : FlexrayConfig) (s : FlexrayState) (bit : Bool)
    (bitnum samplenum : Nat)
    (receiving : (s.field config bit bitnum samplenum).state ≠ .idle) :
    (s.field config bit bitnum samplenum).bits = s.bits ∧
      (s.field config bit bitnum samplenum).rawbits = s.rawbits := by
  unfold field at receiving ⊢
  cases handled : s.headerField config bit bitnum samplenum with
  | some t =>
      rw [handled] at receiving
      exact headerField_buffers config handled receiving
  | none =>
      rw [handled] at receiving
      exact restField_buffers config s bit bitnum samplenum receiving

theorem push_room (s : FlexrayState) (bit : Bool) (rawRoom : s.rawbits.length < 4096)
    (room : s.bits.length < 4096) :
    s.push bit = { s with rawbits := s.rawbits ++ [bit], bits := s.bits ++ [bit] } := by
  rw [push, if_pos rawRoom, if_pos room]

variable (config bit) in
theorem sample_plain {s : FlexrayState} (receiving : s.state = .getBits)
    (rawRoom : s.rawbits.length < 4096) (room : s.bits.length < 4096)
    (noBss : s.endOfFrame = true ∨
      (s.rawbits.length + 1) % 10 ≠ 2 ∧ (s.rawbits.length + 1) % 10 ≠ 3) (samplenum : Nat) :
    s.sample config bit samplenum =
      plainBit config { s with rawbits := s.rawbits ++ [bit], bits := s.bits ++ [bit] } bit
        s.bits.length samplenum := by
  have pushed := push_room s bit rawRoom room
  have length : (s.push bit).rawbits.length = s.rawbits.length + 1 := by
    rw [pushed]
    exact length_append
  have bitnum : (s.push bit).bits.length - 1 = s.bits.length := by
    rw [pushed, length_append]
    rfl
  have same : (s.push bit).endOfFrame = s.endOfFrame := by rw [pushed]
  have plain : (s.push bit).isBssSequence = false := by
    unfold isBssSequence
    rw [length, same]
    rcases noBss with ended | ⟨first, second⟩
    · rw [ended]
      rfl
    · simp [first, second]
  have handled : s.sample config bit samplenum = s.handleBit config bit samplenum := by
    rw [sample, receiving]
  rw [handled]
  simp only [handleBit]
  rw [plain, bitnum, if_neg Bool.false_ne_true, pushed]

variable (config bit) in
theorem sample_bss {s : FlexrayState} (receiving : s.state = .getBits)
    (rawRoom : s.rawbits.length < 4096) (room : s.bits.length < 4096)
    (unfinished : s.endOfFrame = false)
    (isBss : (s.rawbits.length + 1) % 10 = 2 ∨ (s.rawbits.length + 1) % 10 = 3)
    (samplenum : Nat) :
    s.sample config bit samplenum =
      bssBit config { s with rawbits := s.rawbits ++ [bit], bits := s.bits ++ [bit] } bit
        s.bits.length samplenum := by
  have pushed := push_room s bit rawRoom room
  have length : (s.push bit).rawbits.length = s.rawbits.length + 1 := by
    rw [pushed]
    exact length_append
  have bitnum : (s.push bit).bits.length - 1 = s.bits.length := by
    rw [pushed, length_append]
    rfl
  have same : (s.push bit).endOfFrame = s.endOfFrame := by rw [pushed]
  have sequence : (s.push bit).isBssSequence = true := by
    unfold isBssSequence
    rw [length, same, unfinished]
    simpa using isBss
  have handled : s.sample config bit samplenum = s.handleBit config bit samplenum := by
    rw [sample, receiving]
  rw [handled]
  simp only [handleBit]
  rw [sequence, bitnum, if_pos rfl, pushed]

/-- What is known about the state and its buffers behind `number` bits on the bus. -/
structure Reading (frame : FlexrayFrame) (config : FlexrayConfig) (tss : Nat × Nat)
    (samples : Nat → Nat) (k number : Nat) (s : FlexrayState) : Prop where
  known : Decoding frame config tss samples k s
  bits : s.bits = frame.bits.take k
  rawbits : s.rawbits.length = number

variable {number : Nat}

theorem Reading.room (reading : Reading frame config tss samples k number s)
    (inside : k < frame.payloadEnd + 24) (room : number < 4096) :
    s.rawbits.length < 4096 ∧ s.bits.length < 4096 ∧ s.bits.length = k := by
  have short := frame.short
  have total := frame.length_bits
  rw [← frame.payloadEnd_eq] at total
  have length : s.bits.length = k := by
    rw [reading.bits, length_take]
    omega
  refine ⟨reading.rawbits ▸ room, ?_, length⟩
  rw [payloadEnd] at inside
  omega

theorem Reading.plain (reading : Reading frame config tss samples k number s)
    (here : frame.bits[k]? = some bit) (inside : 2 ≤ k ∧ k < frame.payloadEnd + 24)
    (noDelimiter : ¬(frame.words.length = 60 ∧ k = 1009))
    (place : frame.wireIndex k = number)
    (noBss : (number + 1) % 10 ≠ 2 ∧ (number + 1) % 10 ≠ 3) (room : number < 4096) :
    Reading frame config tss samples (k + 1) (number + 1)
      (s.sample config bit (samples number)) := by
  obtain ⟨rawRoom, bitRoom, bitnum⟩ := reading.room inside.2 room
  have handled := sample_plain config bit reading.known.state rawRoom
    bitRoom (Or.inr (by rw [reading.rawbits]; exact noBss)) (samples number)
  have shown : s.sample config bit (samples number) =
      (putx config { s with rawbits := s.rawbits ++ [bit], bits := s.bits ++ [bit] }
        (samples number) (.bit bit)).field config bit k (samples number) := by
    rw [handled, bitnum, plainBit, if_pos (by omega)]
    rfl
  have bits : s.bits ++ [bit] = frame.bits.take (k + 1) := by
    rw [take_add_one, here, ← reading.bits]
    rfl
  have known : Decoding frame config tss samples k
      (putx config { s with rawbits := s.rawbits ++ [bit], bits := s.bits ++ [bit] }
        (samples number) (.bit bit)) :=
    reading.known.congr rfl rfl (fields_putg_raw config _ _ _ rfl)
  have next : Decoding frame config tss samples (k + 1)
      (s.sample config bit (samples number)) := by
    rw [shown, ← place]
    rw [← place] at known
    exact known.field bits here inside noDelimiter
  have receiving := next.state
  rw [shown] at receiving
  obtain ⟨sameBits, sameRawbits⟩ := field_buffers config _ bit k (samples number)
    (by rw [receiving]; decide)
  refine ⟨next, ?_, ?_⟩
  · rw [shown, sameBits]
    exact bits
  · rw [shown, sameRawbits, ← reading.rawbits]
    exact length_append

theorem Reading.bss (reading : Reading frame config tss samples k number s)
    (inside : 2 ≤ k ∧ k < frame.payloadEnd + 24) (bit : Bool)
    (isBss : (number + 1) % 10 = 2 ∨ (number + 1) % 10 = 3) (room : number < 4096) :
    Reading frame config tss samples k (number + 1) (s.sample config bit (samples number)) := by
  obtain ⟨rawRoom, bitRoom, bitnum⟩ := reading.room inside.2 room
  have handled := sample_bss config bit reading.known.state rawRoom
    bitRoom (reading.known.endOfFrame.trans (decide_eq_false (by omega)))
    (by rw [reading.rawbits]; exact isBss) (samples number)
  rw [handled, bitnum, bssBit, if_pos (by omega)]
  refine ⟨reading.known.congr rfl rfl (fields_putg_raw config _ _ _ rfl), ?_, ?_⟩
  · exact dropLast_concat.trans reading.bits
  · rw [← reading.rawbits]
    exact length_append

variable {q : Nat}

theorem Reading.chunk {j count : Nat}
    (reading : Reading frame config tss samples (8 * q + 1 + j) (3 + 10 * q + j) s)
    (inside : q < frame.byteCount ∧ 2 ≤ 8 * q + 1 + j) (byte : j + count ≤ 8)
    (noDelimiter : frame.words.length = 60 → 8 * q + 1 + j + count ≤ 1009) :
    Reading frame config tss samples (8 * q + 1 + j + count) (3 + 10 * q + j + count)
      (feed config samples s (3 + 10 * q + j)
        ((frame.bits.drop (8 * q + 1 + j)).take count)) := by
  induction count generalizing j s with
  | zero => exact reading
  | succ count ih =>
      have short := frame.short
      have behind := frame.payloadEnd_eq
      have total := frame.length_bits
      have present : 8 * q + 1 + j < frame.bits.length := by omega
      have bits : (frame.bits.drop (8 * q + 1 + j)).take (count + 1) = frame.bits[8 * q + 1 + j] ::
            (frame.bits.drop (8 * q + 1 + (j + 1))).take count := by
        rw [drop_eq_getElem_cons present, take_succ_cons]
        rfl
      have place := frame.wireIndex_byte inside.1 (show j < 8 by omega)
      have room : 3 + 10 * q + j < 4096 := by
        have count := inside.1
        rw [byteCount] at count
        omega
      have next := reading.plain (getElem?_eq_getElem present) ⟨inside.2, by omega⟩
        (fun delimiter => by
          have early := noDelimiter delimiter.1
          omega) place (by omega) room
      have further := ih (j := j + 1) next ⟨inside.1, by omega⟩ (by omega)
        (fun words => by
          have early := noDelimiter words
          omega)
      have k' : 8 * q + 1 + (j + 1) + count = 8 * q + 1 + j + (count + 1) := by omega
      have number' : 3 + 10 * q + (j + 1) + count = 3 + 10 * q + j + (count + 1) := by omega
      rw [k', number'] at further
      rw [bits, feed]
      exact further

theorem Reading.start (reading : Reading frame config tss samples (8 * q + 1) (1 + 10 * q) s)
    (inside : 1 ≤ q ∧ q < frame.byteCount) (first second : Bool) (bits : List Bool) :
    Reading frame config tss samples (8 * q + 1) (3 + 10 * q)
        ((s.sample config first (samples (1 + 10 * q))).sample config second
          (samples (1 + 10 * q + 1))) ∧
      feed config samples s (1 + 10 * q) (first :: second :: bits) =
        feed config samples ((s.sample config first (samples (1 + 10 * q))).sample config second
          (samples (1 + 10 * q + 1))) (3 + 10 * q) bits := by
  have short := frame.short
  have behind := frame.payloadEnd_eq
  have count := inside.2
  rw [byteCount] at behind count
  have firstBit := reading.bss (by omega) first (Or.inl (by omega)) (by omega)
  have secondBit := firstBit.bss (by omega) second (Or.inr (by omega)) (by omega)
  have number : 1 + 10 * q + 1 + 1 = 3 + 10 * q := by omega
  rw [number] at secondBit
  refine ⟨secondBit, ?_⟩
  rw [feed, feed, number]

theorem Reading.bytes {count : Nat}
    (reading : Reading frame config tss samples (8 * q + 1) (1 + 10 * q) s) (behind : 1 ≤ q)
    (inside : q + count ≤ frame.byteCount)
    (noDelimiter : frame.words.length = 60 → 8 * (q + count) + 1 ≤ 1009) :
    Reading frame config tss samples (8 * (q + count) + 1) (1 + 10 * (q + count))
      (feed config samples s (1 + 10 * q)
        (byteStarts count (frame.bits.drop (8 * q + 1)))) := by
  induction count generalizing q s with
  | zero => exact reading
  | succ count ih =>
      have short := frame.short
      obtain ⟨started, run⟩ := reading.start ⟨behind, by omega⟩ true false
        ((frame.bits.drop (8 * q + 1)).take 8 ++
          byteStarts count ((frame.bits.drop (8 * q + 1)).drop 8))
      have eight : ((frame.bits.drop (8 * q + 1)).take 8).length = 8 := by
        rw [length_take, length_drop, frame.length_bits]
        omega
      have done := started.chunk (j := 0) ⟨by omega, by omega⟩ (show 0 + 8 ≤ 8 by decide)
        (fun words => by
          have early := noDelimiter words
          omega)
      have k' : 8 * q + 1 + 0 + 8 = 8 * (q + 1) + 1 := by omega
      have number' : 3 + 10 * q + 0 + 8 = 1 + 10 * (q + 1) := by omega
      rw [k', number', Nat.add_zero, Nat.add_zero] at done
      have further := ih done (by omega) (by omega) (fun words => by
        have early := noDelimiter words
        omega)
      have total : q + 1 + count = q + (count + 1) := by omega
      have rest : (frame.bits.drop (8 * q + 1)).drop 8 = frame.bits.drop (8 * (q + 1) + 1) := by
        rw [drop_drop]
        congr 1
      have later : 3 + 10 * q + 8 = 1 + 10 * (q + 1) := by omega
      rw [total] at further
      rw [byteStarts, cons_append, cons_append, run, feed_append, eight, rest, later]
      exact further

variable (config bit) in
theorem headerStart_normal {s : FlexrayState} (normal : s.rawbits.take 3 = [true, true, false])
    (samplenum : Nat) :
    (s.headerStart config bit samplenum).registers = s.registers ∧
      (s.headerStart config bit samplenum).ssBlock = s.ssBlock ∧
      (s.headerStart config bit samplenum).bits = s.bits ∧
      (s.headerStart config bit samplenum).rawbits = s.rawbits ∧
      (s.headerStart config bit samplenum).fields =
        s.fields ++ [shown config s.tssStart s.tssEnd .tss, shown config s.ssBit0 s.ssBit0 .fss,
          shown config samplenum samplenum (.reservedBit bit)] := by
  have registers : ∀ (s : FlexrayState) ss es field,
      (s.putg config ss es field).registers = s.registers ∧
        (s.putg config ss es field).ssBlock = s.ssBlock :=
    fun _ _ _ _ => ⟨rfl, rfl⟩
  rw [headerStart, if_pos normal]
  refine ⟨?_, ?_, ?_, ?_, ?_⟩
  · simp only [putx, registers]
  · simp only [putx, registers]
  · simp only [putx, putg_bits]
  · simp only [putx, putg_rawbits]
  · dsimp only
    rw [putx, fields_putg, fields_putg_raw, fields_putg_raw, fields_putg, fields_putg_raw,
      fields_putg, List.append_assoc, List.append_assoc]
    · rfl
    all_goals rfl

/-- The decoder in front of the first header bit. -/
def begun (tss : Nat × Nat) (rawbits bits : List Bool) (ssBit0 ssBit1 ssBit2 : Nat) :
    FlexrayState :=
  { reset.seeTss tss.1 tss.2 with rawbits, bits, ssBit0, ssBit1, ssBit2 }

theorem sample_begun (config : FlexrayConfig) (tss : Nat × Nat) (samples : Nat → Nat) :
    ((((reset.seeTss tss.1 tss.2).sample config true (samples 0)).sample config true
      (samples 1)).sample config false (samples 2)) =
      begun tss [true, true, false] [true] (samples 0) (samples 1) (samples 2) := by
  have first : (begun tss [] [] 0 0 0).sample config true (samples 0) =
      begun tss [true] [true] (samples 0) 0 0 :=
    sample_plain config true (s := begun tss [] [] 0 0 0) rfl (show 0 < 4096 by decide)
      (show 0 < 4096 by decide) (Or.inr (show 1 % 10 ≠ 2 ∧ 1 % 10 ≠ 3 by decide)) (samples 0)
  have second : (begun tss [true] [true] (samples 0) 0 0).sample config true (samples 1) =
      begun tss [true, true] [true] (samples 0) (samples 1) 0 :=
    sample_bss config true (s := begun tss [true] [true] (samples 0) 0 0) rfl
      (show 1 < 4096 by decide) (show 1 < 4096 by decide) rfl (Or.inl rfl) (samples 1)
  have third : (begun tss [true, true] [true] (samples 0) (samples 1) 0).sample config false
      (samples 2) =
      begun tss [true, true, false] [true] (samples 0) (samples 1) (samples 2) :=
    sample_bss config false (s := begun tss [true, true] [true] (samples 0) (samples 1) 0) rfl
      (show 2 < 4096 by decide) (show 1 < 4096 by decide) rfl (Or.inr rfl) (samples 2)
  rw [← third, ← second, ← first]
  rfl

/-- The frame start sequence, the first byte start sequence and the first header bit. -/
theorem reading_two (frame : FlexrayFrame) (config : FlexrayConfig) (tss : Nat × Nat)
    (samples : Nat → Nat) :
    Reading frame config tss samples 2 4 (feed config samples (reset.seeTss tss.1 tss.2) 0
        [true, true, false, frame.reserved]) := by
  have behind : 41 ≤ frame.payloadEnd := Nat.le_add_right 41 _
  have place : frame.wireIndex 0 = 0 ∧ frame.wireIndex 1 = 3 := by
    refine ⟨rfl, ?_⟩
    rw [wireIndex, if_neg (by decide), if_pos (by rw [byteCount]; omega)]
  have fourth : (begun tss [true, true, false] [true] (samples 0) (samples 1)
      (samples 2)).sample config frame.reserved (samples 3) =
      (begun tss [true, true, false, frame.reserved] [true, frame.reserved] (samples 0)
        (samples 1) (samples 2)).headerStart config frame.reserved (samples 3) :=
    sample_plain config frame.reserved
      (s := begun tss [true, true, false] [true] (samples 0) (samples 1) (samples 2)) rfl
      (show 3 < 4096 by decide) (show 1 < 4096 by decide)
      (Or.inr (show 4 % 10 ≠ 2 ∧ 4 % 10 ≠ 3 by decide)) (samples 3)
  obtain ⟨registers, block, bits, rawbits, fields⟩ :=
    headerStart_normal config frame.reserved
      (s := begun tss [true, true, false, frame.reserved] [true, frame.reserved] (samples 0)
        (samples 1) (samples 2)) rfl (samples 3)
  rw [feed, feed, feed, feed, feed, sample_begun, fourth]
  generalize headerStart config _ frame.reserved (samples 3) = s at registers bits rawbits fields
  have opened : s.registers = (.getBits, false, 999, false, 999, [], 0) := registers
  simp only [FlexrayState.registers, Prod.mk.injEq] at opened
  obtain ⟨state, dynamic, xmit, ended, last, data, length⟩ := opened
  refine ⟨⟨state, ⟨dynamic, xmit⟩, ?_, fun _ => ⟨last, data⟩, fun late => ?_, fun late => ?_,
    fun late => ?_, ⟨fun late => ?_, fun late => ?_, fun late => ?_, fun late => ?_,
    fun late => ?_⟩, ?_⟩, bits.trans frame.bits_two.symm, ?_⟩
  · rw [ended, decide_eq_false (by omega)]
  all_goals try omega
  · rw [fields]
    have before : frame.fieldsBefore config tss samples 2 =
        [shown config tss.1 tss.2 .tss, frame.across config samples 0 0 .fss,
          frame.across config samples 1 1 (.reservedBit frame.reserved)] := rfl
    rw [before, across, across, place.1, place.2]
    rfl
  · rw [rawbits]
    rfl

theorem reading_bytes (frame : FlexrayFrame) (config : FlexrayConfig) (tss : Nat × Nat)
    (samples : Nat → Nat) {count : Nat} (inside : 1 ≤ count ∧ count ≤ frame.byteCount)
    (noDelimiter : frame.words.length = 60 → 8 * count + 1 ≤ 1009) :
    Reading frame config tss samples (8 * count + 1) (1 + 10 * count)
      (feed config samples (reset.seeTss tss.1 tss.2) 0
        (true :: byteStarts count frame.bits.tail)) := by
  obtain ⟨more, rfl⟩ : ∃ more, count = 1 + more := ⟨count - 1, by omega⟩
  have total := frame.length_bits
  have tail : frame.bits.tail = frame.bits.drop 1 := drop_one.symm
  have firstByte : (frame.bits.drop 1).take 8 = frame.reserved :: (frame.bits.drop 2).take 7 := by
    have two := frame.bits_two
    have reserved : frame.bits[1]? = some frame.reserved := by
      rw [← getElem?_take_of_lt (show 1 < 2 by decide), two]
      rfl
    obtain ⟨present, value⟩ := List.getElem?_eq_some_iff.1 reserved
    rw [drop_eq_getElem_cons present, take_succ_cons, value]
  have wire : true :: byteStarts (1 + more) frame.bits.tail = [true, true, false, frame.reserved] ++
        ((frame.bits.drop 2).take 7 ++ byteStarts more (frame.bits.drop (8 * 1 + 1))) := by
    rw [byteStarts_append, tail, byteStarts, byteStarts, List.append_nil, firstByte, drop_drop]
    rfl
  have seven : ((frame.bits.drop 2).take 7).length = 7 := by
    rw [length_take, length_drop]
    omega
  have started := reading_two frame config tss samples
  have first := started.chunk (q := 0) (j := 1) ⟨by omega, by decide⟩
    (show 1 + 7 ≤ 8 by decide) (fun _ => by decide)
  have all := first.bytes (q := 1) (Nat.le_refl 1) inside.2 noDelimiter
  rw [wire, feed_append, feed_append, seven]
  exact all

/-- Behind the frame CRC there are no byte start sequences. -/
structure Ending (frame : FlexrayFrame) (k number : Nat) (s : FlexrayState) : Prop where
  state : s.state = .getBits
  endOfFrame : s.endOfFrame = true
  dynamicFrame : s.dynamicFrame = false
  lastDatabit : s.lastDatabit = frame.payloadEnd
  bits : s.bits.length = k
  rawbits : s.rawbits.length = number

theorem Reading.ending
    (reading : Reading frame config tss samples (frame.payloadEnd + 24) number s) :
    Ending frame (frame.payloadEnd + 24) number s where
  state := reading.known.state
  endOfFrame := reading.known.endOfFrame.trans (decide_eq_true rfl)
  dynamicFrame := reading.known.kind.1
  lastDatabit := reading.known.headerRead (by rw [payloadEnd]; omega)
  bits := by
    rw [reading.bits, length_take, frame.length_bits, ← frame.payloadEnd_eq, Nat.min_self]
  rawbits := reading.rawbits

variable (config samples) in
theorem Ending.step (ending : Ending frame k number s)
    (room : 41 ≤ k ∧ k < 4096 ∧ number < 4096) (bit : Bool) :
    ∃ t, s.sample config bit (samples number) = t.restField config bit k (samples number) ∧
      Ending frame (k + 1) (number + 1) t ∧ t.lastXmitBit = s.lastXmitBit ∧
      t.ssBlock = s.ssBlock ∧ t.fields = s.fields := by
  obtain ⟨late, bitRoom, rawRoom⟩ := room
  have handled := sample_plain config bit ending.state
    (by rw [ending.rawbits]; exact rawRoom) (by rw [ending.bits]; exact bitRoom)
    (Or.inl ending.endOfFrame) (samples number)
  refine ⟨putx config { s with rawbits := s.rawbits ++ [bit], bits := s.bits ++ [bit] }
    (samples number) (.bit bit), ?_,
    ⟨ending.state, ending.endOfFrame, ending.dynamicFrame, ending.lastDatabit, ?_, ?_⟩, rfl,
    rfl, fields_putg_raw config _ _ _ rfl⟩
  · rw [handled, ending.bits, plainBit, if_pos (by omega)]
    exact field_rest _ late _
  · rw [← ending.bits]
    exact length_append
  · rw [← ending.rawbits]
    exact length_append

variable (config samples) in
theorem Ending.idle {number count : Nat} (ending : Ending frame k number s)
    (xmit : s.lastXmitBit = frame.payloadEnd + 26)
    (inside : frame.payloadEnd + 27 ≤ k ∧ k + count ≤ frame.payloadEnd + 36)
    (room : k + count < 4096 ∧ number + count < 4096) :
    ∃ t, feed config samples s number (replicate count true) = t ∧
      Ending frame (k + count) (number + count) t ∧ t.lastXmitBit = s.lastXmitBit ∧
      t.ssBlock = s.ssBlock ∧ t.fields = s.fields := by
  induction count generalizing k number s with
  | zero => exact ⟨s, rfl, ending, rfl, rfl, rfl⟩
  | succ count ih =>
      have behind : 41 ≤ frame.payloadEnd := Nat.le_add_right 41 _
      obtain ⟨t, handled, next, sameXmit, block, fields⟩ :=
        ending.step config samples
          ⟨by omega, by omega, by omega⟩ true
      have quiet : t.restField config true k (samples number) = t := by
        unfold restField
        rw [next.lastDatabit, sameXmit, xmit, if_neg (by omega), if_neg (by omega),
          if_neg (by omega), if_neg (by omega), if_neg (by omega), if_neg (by omega),
          if_neg (by omega), if_neg (by rw [cChannelIdleDelimiter]; omega)]
        split
        · rw [trailingSequence, next.dynamicFrame]
          rfl
        · rfl
      obtain ⟨u, run, done, sameXmit', block', fields'⟩ :=
        ih next (sameXmit.trans xmit) ⟨by omega, by omega⟩
          ⟨by omega, by omega⟩
      have k' : k + 1 + count = k + (count + 1) := by omega
      have number' : number + 1 + count = number + (count + 1) := by omega
      rw [k', number'] at done
      refine ⟨u, ?_, done, sameXmit'.trans sameXmit, block'.trans block, fields'.trans fields⟩
      rw [replicate_succ, feed, handled, quiet]
      exact run

theorem Ending.run (ending : Ending frame (frame.payloadEnd + 24) number s)
    (place : number = frame.wireIndex (frame.payloadEnd + 24)) :
    (feed config samples s number ([false, true] ++ replicate 10 true)).state = .getBits ∧
      (feed config samples s number ([false, true] ++ replicate 11 true)).state = .idle ∧
      (feed config samples s number ([false, true] ++ replicate 11 true)).fields = s.fields ++
          [frame.across config samples (frame.payloadEnd + 24) (frame.payloadEnd + 25) .fes,
            frame.across config samples (frame.payloadEnd + 26) (frame.payloadEnd + 36) .cid] := by
  have behind : 41 ≤ frame.payloadEnd := Nat.le_add_right 41 _
  have short := frame.short
  have bytesEnd := frame.payloadEnd_eq
  have places : ∀ j, frame.wireIndex (frame.payloadEnd + 24 + j) = number + j := by
    intro j
    rw [place, frame.wireIndex_behind (by omega), frame.wireIndex_behind (by omega)]
    omega
  have room : frame.payloadEnd + 64 < 4096 ∧ number + 64 < 4096 := by
    rw [frame.wireIndex_behind (by omega), payloadEnd, byteCount] at place
    rw [payloadEnd]
    omega
  have first := places 0
  have second := places 1
  have third := places 2
  have last := places 12
  simp only [Nat.add_zero, Nat.add_assoc, Nat.reduceAdd] at first second third last
  -- The low bit of the frame end sequence.
  obtain ⟨t, handled, next, -, -, fields⟩ :=
    ending.step config samples ⟨by omega, by omega, by omega⟩ false
  have low : t.restField config false (frame.payloadEnd + 24) (samples number) =
      { t with ssBlock := samples number } := by
    rw [restField, next.lastDatabit, if_neg (by omega), if_neg (by omega), if_neg (by omega),
      if_pos rfl]
  have endingLow : Ending frame (frame.payloadEnd + 25) (number + 1)
      { t with ssBlock := samples number } :=
    { next with }
  -- The high one.
  obtain ⟨u, handledHigh, nextHigh, -, blockHigh, fieldsHigh⟩ :=
    endingLow.step config samples ⟨by omega, by omega, by omega⟩ true
  have high : u.restField config true (frame.payloadEnd + 25) (samples (number + 1)) =
      u.putb config (samples (number + 1)) .fes := by
    rw [restField, nextHigh.lastDatabit, if_neg (by omega), if_neg (by omega),
      if_neg (by omega), if_neg (by omega), if_pos rfl]
  have endingHigh : Ending frame (frame.payloadEnd + 26) (number + 2)
      (u.putb config (samples (number + 1)) .fes) :=
    { nextHigh with }
  have shownHigh : (u.putb config (samples (number + 1)) .fes).fields = s.fields ++
        [frame.across config samples (frame.payloadEnd + 24) (frame.payloadEnd + 25) .fes] := by
    have block : u.ssBlock = samples number := blockHigh
    rw [putb, fields_putg config _ _ _ rfl, fieldsHigh, block, across, first, second]
    exact congrArg (· ++ _) fields
  -- The first bit of the delimiter tells a static frame.
  obtain ⟨v, handledKind, nextKind, -, -, fieldsKind⟩ :=
    endingHigh.step config samples ⟨by omega, by omega, by omega⟩ true
  have kind : v.restField config true (frame.payloadEnd + 26) (samples (number + 2)) =
      { v with lastXmitBit := frame.payloadEnd + 26, ssBlock := samples (number + 2) } := by
    have branch : v.restField config true (frame.payloadEnd + 26) (samples (number + 2)) =
        v.frameKind true (frame.payloadEnd + 26) (samples (number + 2)) := by
      rw [restField, nextKind.lastDatabit, if_neg (by omega), if_neg (by omega),
        if_neg (by omega), if_neg (by omega), if_neg (by omega), if_pos rfl]
    exact branch
  have endingKind : Ending frame (frame.payloadEnd + 27) (number + 3)
      { v with lastXmitBit := frame.payloadEnd + 26, ssBlock := samples (number + 2) } :=
    { nextKind with }
  obtain ⟨w, run, idle, xmit, block, fieldsIdle⟩ :=
    endingKind.idle config samples rfl
      ⟨Nat.le_refl _, show frame.payloadEnd + 27 + 9 ≤ frame.payloadEnd + 36 by omega⟩
      ⟨by omega, by omega⟩
  have tenBits : feed config samples s number ([false, true] ++ replicate 10 true) = w := by
    rw [← run]
    have unfolded : ([false, true] ++ replicate 10 true) =
        false :: true :: true :: replicate 9 true := rfl
    rw [unfolded, feed, feed, feed, handled, low, handledHigh, high, handledKind, kind]
  -- Its last bit.
  obtain ⟨x, handledLast, nextLast, xmitLast, blockLast, fieldsLast⟩ :=
    idle.step config samples ⟨by omega, by omega, by omega⟩ true
  have xmitKnown : x.lastXmitBit = frame.payloadEnd + 26 := xmitLast.trans xmit
  have done : x.restField config true (frame.payloadEnd + 27 + 9) (samples (number + 3 + 9)) =
      (x.putb config (samples (number + 3 + 9)) .cid).resetVariables := by
    rw [restField, nextLast.lastDatabit, xmitKnown, if_neg (by omega), if_neg (by omega),
      if_neg (by omega), if_neg (by omega), if_neg (by omega), if_neg (by omega),
      if_neg (by omega), if_pos (by rw [cChannelIdleDelimiter]; omega)]
  have allBits : feed config samples s number ([false, true] ++ replicate 11 true) =
      (x.putb config (samples (number + 3 + 9)) .cid).resetVariables := by
    have unfolded : [false, true] ++ replicate 11 true =
        ([false, true] ++ replicate 10 true) ++ [true] := rfl
    rw [unfolded, feed_append, tenBits, feed, feed]
    exact handledLast.trans done
  refine ⟨by rw [tenBits]; exact idle.state, by rw [allBits]; rfl, ?_⟩
  have blockKnown : x.ssBlock = samples (number + 2) := blockLast.trans block
  have fieldsBefore : x.fields = s.fields ++
      [frame.across config samples (frame.payloadEnd + 24) (frame.payloadEnd + 25) .fes] := by
    rw [fieldsLast, fieldsIdle, ← shownHigh, ← fieldsKind]
    rfl
  have kept : ∀ s : FlexrayState, s.resetVariables.fields = s.fields := fun _ => rfl
  rw [allBits, kept, putb, fields_putg config _ _ _ rfl, fieldsBefore, blockKnown,
    List.append_assoc, across, across, first, second, third, last]
  rfl

theorem restField_delimiter {u : FlexrayState} (last : u.lastDatabit = 1001)
    (xmit : u.lastXmitBit = 999) (sentinel : k = 1009) (samplenum : Nat) :
    u.restField config bit k samplenum = (u.putb config samplenum .cid).resetVariables := by
  rw [restField, last, xmit, if_neg (by omega), if_neg (by omega), if_neg (by omega),
    if_neg (by omega), if_neg (by omega), if_neg (by omega), if_neg (by omega),
    if_pos (by rw [cChannelIdleDelimiter]; omega)]

theorem Reading.delimiter (sentinel : q = 126)
    (reading : Reading frame config tss samples (8 * q + 1) (1 + 10 * q) s)
    (words : frame.words.length = 60) (first second bit : Bool) :
    (feed config samples s (1 + 10 * q) [first, second, bit]).state = .idle ∧
      ∃ ss, (feed config samples s (1 + 10 * q) [first, second, bit]).fields =
        frame.fieldsBefore config tss samples (8 * q + 1) ++
          [shown config ss (samples (3 + 10 * q)) .cid] := by
  have payloadEnds : frame.payloadEnd = 1001 := by rw [payloadEnd, words]
  have count : q < frame.byteCount := by
    rw [byteCount, words]
    omega
  obtain ⟨started, run⟩ := reading.start ⟨by omega, count⟩ first second [bit]
  rw [run, feed, feed]
  generalize ((s.sample config first (samples (1 + 10 * q))).sample config second
    (samples (1 + 10 * q + 1))) = t at started
  have known := started.known
  obtain ⟨rawRoom, bitRoom, bitnum⟩ := started.room (by omega) (by omega)
  have handled := sample_plain config bit known.state rawRoom bitRoom
    (Or.inr (by rw [started.rawbits]; omega)) (samples (3 + 10 * q))
  have delimited : t.sample config bit (samples (3 + 10 * q)) = (putb config (putx config
        { t with rawbits := t.rawbits ++ [bit], bits := t.bits ++ [bit] }
        (samples (3 + 10 * q)) (.bit bit)) (samples (3 + 10 * q)) .cid).resetVariables := by
    rw [handled, bitnum, plainBit, if_pos (by omega)]
    refine (field_rest _ (show 41 ≤ 8 * q + 1 by omega) _).trans ?_
    refine restField_delimiter ?_ ?_ (by omega) _
    · exact (known.headerRead (by omega)).trans payloadEnds
    · exact known.kind.2
  rw [delimited]
  refine ⟨rfl, t.ssBlock, ?_⟩
  have kept : ∀ s : FlexrayState, s.resetVariables.fields = s.fields := fun _ => rfl
  rw [kept, putb, fields_putg config _ _ _ rfl, putx, fields_putg_raw config _ _ _ rfl,
    ← known.fields]
  rfl

end Raw

section Wire

variable (frame : FlexrayFrame) (config : FlexrayConfig) (tss : Nat × Nat)
  (samples : Nat → Nat)

theorem feed_wire (noDelimiter : frame.words.length ≠ 60) :
    (feed config samples (reset.seeTss tss.1 tss.2) 0 frame.wire).state = .idle ∧
      (feed config samples (reset.seeTss tss.1 tss.2) 0 frame.wire).fields =
        frame.fieldsBefore config tss samples (frame.payloadEnd + 24) ++
          [frame.across config samples (frame.payloadEnd + 24) (frame.payloadEnd + 25) .fes,
            frame.across config samples (frame.payloadEnd + 26) (frame.payloadEnd + 36) .cid] ∧
      ∀ count, count < frame.wire.length →
        (feed config samples (reset.seeTss tss.1 tss.2) 0 (frame.wire.take count)).state =
          .getBits := by
  have bytes := reading_bytes frame config tss samples
    (show 1 ≤ frame.byteCount ∧ frame.byteCount ≤ frame.byteCount by
      rw [byteCount]
      omega)
    (fun words => absurd words noDelimiter)
  have whole : 8 * frame.byteCount ≤ frame.bits.tail.length := by
    rw [length_tail, frame.length_bits]
    omega
  have front : (true :: byteStarts frame.byteCount frame.bits.tail).length =
      1 + 10 * frame.byteCount := by
    rw [length_cons, length_byteStarts whole, Nat.add_comm]
  rw [← frame.payloadEnd_eq] at bytes
  have place : 1 + 10 * frame.byteCount = frame.wireIndex (frame.payloadEnd + 24) := by
    have count := frame.payloadEnd_eq
    rw [frame.wireIndex_behind (by omega)]
    omega
  obtain ⟨receiving, idle, fields⟩ := bytes.ending.run place
  have split : frame.wire = (true :: byteStarts frame.byteCount frame.bits.tail) ++
      ([false, true] ++ replicate 11 true) := by
    rw [wire, List.append_assoc]
  have beforeLast : frame.wire = ((true :: byteStarts frame.byteCount frame.bits.tail) ++
      ([false, true] ++ replicate 10 true)) ++ [true] := by
    rw [split, List.append_assoc]
    rfl
  refine ⟨?_, ?_, fun count inside => ?_⟩
  · rw [split, feed_append, front, Nat.zero_add]
    exact idle
  · rw [split, feed_append, front, Nat.zero_add, fields, bytes.known.fields]
  · have taken : frame.wire.take count = ((true :: byteStarts frame.byteCount frame.bits.tail) ++
          ([false, true] ++ replicate 10 true)).take count := by
      rw [beforeLast, length_append, length_singleton] at inside
      rw [beforeLast, take_append_of_le_length (by omega)]
    rw [taken]
    apply feed_take_getBits
    rw [feed_append, front, Nat.zero_add]
    exact receiving

theorem feed_wire_delimiter (words : frame.words.length = 60) :
    (∃ count, count < frame.wire.length ∧
      (feed config samples (reset.seeTss tss.1 tss.2) 0 (frame.wire.take count)).state = .idle) ∧
      ∃ ss, (feed config samples (reset.seeTss tss.1 tss.2) 0 frame.wire).fields =
        frame.fieldsBefore config tss samples 1009 ++
          [shown config ss (samples 1263) .cid] := by
  -- Numerals of this size are kept out of the unifier's reach.
  obtain ⟨q, sentinel⟩ : ∃ q, q = 126 := ⟨126, rfl⟩
  have total : frame.byteCount = q + 2 := by rw [byteCount, words, sentinel]
  have bytes := reading_bytes frame config tss samples
    (show 1 ≤ q ∧ q ≤ frame.byteCount by omega) (fun _ => by omega)
  have length := frame.length_bits
  have present : 8 * q + 1 < frame.bits.length := by omega
  have whole : 8 * q ≤ frame.bits.tail.length := by
    rw [length_tail]
    omega
  have front : (true :: byteStarts q frame.bits.tail).length = 1 + 10 * q := by
    rw [length_cons, length_byteStarts whole, Nat.add_comm]
  obtain ⟨idle, ss, fields⟩ := bytes.delimiter sentinel words true false frame.bits[8 * q + 1]
  obtain ⟨rest, split⟩ : ∃ rest, frame.wire = (true :: byteStarts q frame.bits.tail) ++
        ([true, false, frame.bits[8 * q + 1]] ++ (rest ++ [true])) := by
    have tail : (frame.bits.tail.drop (8 * q)).take 8 =
        frame.bits[8 * q + 1] :: (frame.bits.drop (8 * q + 2)).take 7 := by
      rw [← drop_one, drop_drop, Nat.add_comm 1, drop_eq_getElem_cons present, take_succ_cons]
    have two : byteStarts 2 (frame.bits.tail.drop (8 * q)) =
        true :: false :: (frame.bits.tail.drop (8 * q)).take 8 ++
          byteStarts 1 ((frame.bits.tail.drop (8 * q)).drop 8) := rfl
    have delimiter : [false, true] ++ replicate 11 true =
        [false, true] ++ replicate 10 true ++ [true] := rfl
    refine ⟨(frame.bits.drop (8 * q + 2)).take 7 ++
      byteStarts 1 ((frame.bits.tail.drop (8 * q)).drop 8) ++
      ([false, true] ++ replicate 10 true), ?_⟩
    rw [wire, total, byteStarts_append, List.append_assoc _ [false, true], delimiter, two, tail]
    simp only [cons_append, List.append_assoc, nil_append]
  generalize true :: byteStarts q frame.bits.tail = before at front split idle fields
  have reached : feed config samples (reset.seeTss tss.1 tss.2) 0
      (before ++ [true, false, frame.bits[8 * q + 1]]) =
      feed config samples (feed config samples (reset.seeTss tss.1 tss.2) 0 before)
        (1 + 10 * q) [true, false, frame.bits[8 * q + 1]] := by
    rw [feed_append, front, Nat.zero_add]
  rw [← reached] at idle fields
  have numbers : 8 * q + 1 = 1009 ∧ 3 + 10 * q = 1263 := by omega
  rw [← List.append_assoc] at split
  refine ⟨⟨(before ++ [true, false, frame.bits[8 * q + 1]]).length, ?_, ?_⟩, ss, ?_⟩
  · rw [split]
    simp only [length_append, length_singleton]
    omega
  · rw [split, take_left]
    exact idle
  · rw [split, feed_append, feed_idle config samples idle, fields, numbers.1, numbers.2]

end Wire

end FlexrayState

end SigrokDecode
