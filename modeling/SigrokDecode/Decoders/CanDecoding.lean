import SigrokDecode.Decoders.CanLayout

/-!
# What is known behind each bit of a frame

The registers that both decoders fill in the same way, from the start of a frame to
the last bit of its data field.
-/

namespace SigrokDecode

open Foundation CanLayout

namespace CanState

/-- The decoder behind `k` bits of a frame, apart from the buffers; `before` are
the annotations of earlier frames. -/
structure Decoding (layout : CanLayout) (before : List CanField) (k : Nat)
    (s : CanState) : Prop where
  state : s.state = .getBits
  frameType : 14 ≤ k → s.frameType = some layout.frameType
  ident : 12 ≤ k → s.ident = layout.baseId.toNat
  fullid : layout.fullidEnd ≤ k → s.fullid = layout.fullid
  headerOpen : k ≤ layout.dlcStart + 3 → s.lastDatabit = 999 ∧ s.ssDatabytebits = []
  headerRead : layout.dlcStart + 3 < k → s.lastDatabit = layout.lastDatabit ∧ s.dlc = layout.dlc
  dataRead : layout.dlcStart + 3 < k → k ≤ layout.lastDatabit →
    s.ssDatabytebits.length = k - (layout.dlcStart + 4)
  fields : s.fields = before ++ layout.fieldsBefore k

section Step

variable {layout : CanLayout} {before : List CanField} {k : Nat} {s t : CanState}

theorem Decoding.begin (state : s.state = .getBits)
    (noLength : s.lastDatabit = 999 ∧ s.ssDatabytebits = []) :
    Decoding layout s.fields 0 s := by
  have late : 12 ≤ layout.fullidEnd := by
    rcases layout.flagsStart_cases with ⟨_, idEnd⟩ | ⟨_, idEnd⟩
    · omega
    · omega
  refine ⟨state, by omega, by omega, by omega, fun _ => noLength, by omega, by omega, ?_⟩
  exact (List.append_nil _).symm

theorem Decoding.congr (known : Decoding layout before k s) (same :
      (t.state, t.frameType, t.ident, t.fullid, t.lastDatabit, t.dlc, t.ssDatabytebits) =
      (s.state, s.frameType, s.ident, s.fullid, s.lastDatabit, s.dlc, s.ssDatabytebits))
    (fields : t.fields = s.fields) : Decoding layout before k t := by
  simp only [Prod.mk.injEq] at same
  obtain ⟨state, frameType, ident, fullid, lastDatabit, dlc, databits⟩ := same
  refine ⟨state.trans known.state, fun read => frameType.trans (known.frameType read),
    fun read => ident.trans (known.ident read),
    fun read => fullid.trans (known.fullid read), ?_, ?_, ?_, fields.trans known.fields⟩
  · rw [lastDatabit, databits]
    exact known.headerOpen
  · rw [lastDatabit, dlc]
    exact known.headerRead
  · rw [databits]
    exact known.dataRead

theorem Decoding.next (known : Decoding layout before k s) (same :
      (t.state, t.frameType, t.ident, t.fullid, t.lastDatabit, t.dlc, t.ssDatabytebits) =
      (s.state, s.frameType, s.ident, s.fullid, s.lastDatabit, s.dlc, s.ssDatabytebits))
    (fields : t.fields = s.fields ++ layout.fieldsAt k)
    (inner : k ≠ 11 ∧ k ≠ 13 ∧ k + 1 ≠ layout.fullidEnd ∧ k ≠ layout.dlcStart + 3 ∧
      (layout.dlcStart + 3 < k → layout.lastDatabit ≤ k)) :
    Decoding layout before (k + 1) t := by
  simp only [Prod.mk.injEq] at same
  obtain ⟨state, frameType, ident, fullid, lastDatabit, dlc, databits⟩ := same
  obtain ⟨_, _, _, _, data⟩ := inner
  refine ⟨state.trans known.state, ?_, ?_, ?_, ?_, ?_, ?_, ?_⟩
  · exact fun read => frameType.trans (known.frameType (by omega))
  · exact fun read => ident.trans (known.ident (by omega))
  · exact fun read => fullid.trans (known.fullid (by omega))
  · intro read
    rw [lastDatabit, databits]
    exact known.headerOpen (by omega)
  · intro read
    rw [lastDatabit, dlc]
    exact known.headerRead (by omega)
  · intro read inside
    have last := data (by omega)
    omega
  · rw [fields, known.fields, layout.fieldsBefore_succ, List.append_assoc]

theorem Decoding.quiet (known : Decoding layout before k s) (same :
      (t.state, t.frameType, t.ident, t.fullid, t.lastDatabit, t.dlc, t.ssDatabytebits) =
      (s.state, s.frameType, s.ident, s.fullid, s.lastDatabit, s.dlc, s.ssDatabytebits))
    (fields : t.fields = s.fields) (silent : layout.fieldsAt k = [])
    (inner : k ≠ 11 ∧ k ≠ 13 ∧ k + 1 ≠ layout.fullidEnd ∧ k ≠ layout.dlcStart + 3 ∧
      (layout.dlcStart + 3 < k → layout.lastDatabit ≤ k)) :
    Decoding layout before (k + 1) t := by
  refine known.next same ?_ inner
  rw [fields, silent, List.append_nil]

theorem Decoding.packetType (known : Decoding layout before k s) (typed : 14 ≤ k) :
    (if s.frameType = some .standard then CanFrameType.standard else .extended) =
      layout.frameType := by
  rw [known.frameType typed]
  cases layout.frameType with
  | standard => rfl
  | extended => rfl

section Bits

variable {bit : Bool} {samplenum : Nat}

theorem Decoding.decodeIdent (known : Decoding layout before k s)
    (bits : s.bits = layout.plain.take (k + 1)) (here : layout.plain[k]? = some bit)
    (early : k < 14) :
    Decoding layout before (k + 1) (s.decodeIdent bit k samplenum) := by
  have idEnd : layout.fullidEnd = 12 ∨ layout.fullidEnd = 32 := by
    rcases layout.flagsStart_cases with ⟨_, idEnd⟩ | ⟨_, idEnd⟩
    · exact Or.inl idEnd
    · exact Or.inr idEnd
  have starts : 14 ≤ layout.flagsStart ∧ layout.flagsStart ≤ layout.dlcStart := by
    refine ⟨?_, Nat.le_add_right _ _⟩
    rcases layout.flagsStart_cases with ⟨start, _⟩ | ⟨start, _⟩
    · omega
    · omega
  have fieldsAt : layout.fieldsAt k = layout.identFieldsAt k :=
    fieldsAt_ident (by omega)
  have silent : k ≠ 0 → k ≠ 11 → k ≠ 13 → layout.fieldsAt k = [] := by
    intro no0 no11 no13
    rw [fieldsAt, identFieldsAt, if_neg no0, if_neg no11, if_neg no13,
      if_neg (by omega)]
  have position : k = 0 ∨ k = 1 ∨ (2 ≤ k ∧ k ≤ 10) ∨ k = 11 ∨ k = 12 ∨ k = 13 := by omega
  rcases position with rfl | rfl | inside | rfl | rfl | rfl
  · obtain rfl : false = bit := by
      rw [layout.plain_sof] at here
      exact Option.some.inj here
    rw [decodeIdent_start]
    refine known.next rfl ?_ (by omega)
    rw [fieldsAt]
    exact fields_putg { s with ssPacket := samplenum } samplenum samplenum rfl
  · rw [decodeIdent_first]
    exact known.quiet rfl rfl (silent (by omega) (by omega) (by omega)) (by omega)
  · rw [decodeIdent_other _ _ _ (Or.inl inside)]
    exact known.quiet rfl rfl (silent (by omega) (by omega) (by omega)) (by omega)
  · have ident : bitpackMsb s.bits 1 11 = layout.baseId.toNat := by
      rw [bits]
      exact layout.plain_ident (by omega)
    have shown : ({ s with ident := layout.baseId.toNat, fullid := layout.baseId.toNat }.putb
        samplenum (.ident layout.baseId.toNat)).fields =
          s.fields ++ [CanField.ident layout.baseId.toNat] :=
      fields_putg { s with ident := layout.baseId.toNat, fullid := layout.baseId.toNat }
        s.ssBlock samplenum rfl
    have emitted : (s.decodeIdent bit 11 samplenum).fields =
        s.fields ++ layout.baseFields := by
      rw [decodeIdent_ident, ident, baseFields]
      simp only
      split
      · exact (fields_putg _ _ _ rfl).trans (by rw [shown, List.append_assoc]; rfl)
      · exact shown
    have registers : let t := s.decodeIdent bit 11 samplenum
        t.state = s.state ∧ t.ident = layout.baseId.toNat ∧
          t.fullid = layout.baseId.toNat ∧ t.lastDatabit = s.lastDatabit ∧
          t.ssDatabytebits = s.ssDatabytebits := by
      rw [decodeIdent_ident, ident]
      simp only
      split
      · exact ⟨rfl, rfl, rfl, rfl, rfl⟩
      · exact ⟨rfl, rfl, rfl, rfl, rfl⟩
    obtain ⟨state, ident, fullid, lastDatabit, databits⟩ := registers
    refine ⟨state.trans known.state, by omega, fun _ => ident, ?_, ?_, by omega, by omega,
      ?_⟩
    · intro read
      cases extension : layout.extension with
      | none => rw [fullid, CanLayout.fullid, extension]
      | some extension => simp [fullidEnd, extension] at read
    · intro _
      rw [lastDatabit, databits]
      exact known.headerOpen (by omega)
    · rw [emitted, known.fields, layout.fieldsBefore_succ 11, fieldsAt, List.append_assoc]
      rfl
  · rw [decodeIdent_twelve]
    exact known.quiet rfl rfl (silent (by omega) (by omega) (by omega)) (by omega)
  · obtain rfl : layout.extension.isSome = bit := by
      rw [layout.plain_ide] at here
      exact Option.some.inj here
    have type : (if layout.extension.isSome = false then CanFrameType.standard
        else .extended) = layout.frameType := by
      rw [CanLayout.frameType]
      cases layout.extension with
      | none => rfl
      | some extension => rfl
    rw [decodeIdent_extension, type]
    refine ⟨known.state, fun _ => rfl, fun _ => known.ident (by omega),
      fun read => known.fullid (by omega), fun _ => known.headerOpen (by omega), by omega,
      by omega, ?_⟩
    refine (fields_putg { s with frameType := some layout.frameType } samplenum samplenum
      rfl).trans ?_
    rw [layout.fieldsBefore_succ 13, fieldsAt, ← List.append_assoc, ← known.fields]
    rfl

theorem Decoding.extendedIdent {extension : BitVec 18}
    (known : Decoding layout before k s) (bits : s.bits = layout.plain.take (k + 1))
    (extended : layout.extension = some extension) (inner : 14 ≤ k ∧ k < 32) :
    Decoding layout before (k + 1)
      ((s.extendedStart k samplenum).extendedIdent k samplenum) := by
  have start : layout.flagsStart = 32 := by simp [flagsStart, extended]
  have idEnd : layout.fullidEnd = 32 := by simp [fullidEnd, extended]
  have flags : layout.flagsStart ≤ layout.dlcStart := Nat.le_add_right _ _
  have fieldsAt : layout.fieldsAt k = layout.identFieldsAt k :=
    fieldsAt_ident (by omega)
  by_cases last : k = 31
  · subst last
    have length : s.bits.length = 32 := by
      rw [bits, List.length_take, layout.length_plain, CanLayout.lastDatabit]
      omega
    have eid : bitpackMsb s.bits 14 (s.bits.length - 14) = extension.toNat := by
      rw [length, bits]
      exact layout.plain_extension extended
    have whole : s.ident <<< 18 ||| extension.toNat = layout.fullid := by
      rw [known.ident (by omega), ← Nat.shiftLeft_add_eq_or_of_lt extension.isLt,
        Nat.shiftLeft_eq, CanLayout.fullid, extended]
    have srr : s.bits.getD 12 false = layout.bit12 := by
      rw [bits]
      exact getD_take layout.plain_bit12 (by omega)
    have notStart : s.extendedStart 31 samplenum = s := rfl
    rw [notStart, extendedIdent_read _ _ (by omega)]
    simp only [eid, whole, srr]
    refine ⟨known.state, fun _ => known.frameType (by omega),
      fun _ => known.ident (by omega), fun _ => rfl,
      fun _ => known.headerOpen (by omega), by omega, by omega, ?_⟩
    rw [fields_putg _ _ _ rfl, putb, fields_putg _ _ _ rfl, putb, fields_putg _ _ _ rfl,
      layout.fieldsBefore_succ 31, fieldsAt, identFieldsAt, if_neg (by omega),
      if_neg (by omega), if_neg (by omega), if_pos rfl, extensionFields, extended,
      ← List.append_assoc before, ← known.fields, List.append_assoc, List.append_assoc]
    rfl
  · have notLast : (s.extendedStart k samplenum).extendedIdent k samplenum =
        s.extendedStart k samplenum := if_neg last
    have silent : layout.fieldsAt k = [] := by
      rw [fieldsAt, identFieldsAt, if_neg (by omega), if_neg (by omega),
        if_neg (by omega), if_neg last]
    rw [notLast, extendedStart]
    split
    · exact known.quiet rfl rfl silent (by omega)
    · exact known.quiet rfl rfl silent (by omega)

theorem Decoding.readDlc (bits : s.bits = layout.plain.take (layout.dlcStart + 4))
    (start : s.dlcStart = layout.dlcStart) : s.readDlc = layout.dlc := by
  have room : s.dlcStart + 4 ≤ s.bits.length := by
    rw [start, bits, List.length_take, layout.length_plain, CanLayout.lastDatabit]
    omega
  rw [CanState.readDlc, if_pos room, bits, start]
  exact layout.plain_dlc (Nat.le_refl _)

theorem Decoding.putDlc (known : Decoding layout before (layout.dlcStart + 3) s)
    (read : s.readDlc = layout.dlc) :
    Decoding layout before (layout.dlcStart + 3 + 1)
      { s.putDlc samplenum with lastDatabit := layout.lastDatabit } := by
  have bounds : 14 ≤ layout.dlcStart ∧ layout.fullidEnd ≤ layout.dlcStart := by
    have flags : layout.flagsStart ≤ layout.dlcStart := Nat.le_add_right _ _
    rcases layout.flagsStart_cases with ⟨start, idEnd⟩ | ⟨start, idEnd⟩
    · omega
    · omega
  refine ⟨known.state, fun _ => known.frameType (by omega),
    fun _ => known.ident (by omega), fun _ => known.fullid (by omega), by omega,
    fun _ => ⟨rfl, read⟩, ?_, ?_⟩
  · intro _ _
    have four : layout.dlcStart + 3 + 1 - (layout.dlcStart + 4) = 0 := by omega
    rw [four]
    exact congrArg List.length (known.headerOpen (Nat.le_refl _)).2
  · rw [layout.fieldsBefore_succ, fieldsAt_dlc, ← List.append_assoc, ← known.fields, ← read]
    exact fields_putg { s with dlc := s.readDlc } s.ssBlock samplenum rfl

theorem Decoding.dataField {room most : Nat} (known : Decoding layout before k s)
    (bits : s.bits = layout.plain.take (k + 1)) (start : s.dlcStart = layout.dlcStart)
    (inner : layout.dlcStart + 3 < k ∧ k ≤ layout.lastDatabit)
    (fits : 8 * layout.bytes.length ≤ room ∧ layout.bytes.length ≤ most) :
    Decoding layout before (k + 1) (s.dataField k samplenum room most) := by
  obtain ⟨lastDatabit, dlc⟩ := known.headerRead inner.1
  have noted := known.dataRead inner.1 inner.2
  have length : layout.lastDatabit = layout.dlcStart + 3 + 8 * layout.bytes.length := rfl
  have free : s.ssDatabytebits.length < room := by omega
  have bounds : 14 ≤ layout.dlcStart ∧ layout.fullidEnd ≤ layout.dlcStart := by
    have flags : layout.flagsStart ≤ layout.dlcStart := Nat.le_add_right _ _
    rcases layout.flagsStart_cases with ⟨start, idEnd⟩ | ⟨start, idEnd⟩
    · omega
    · omega
  -- A step that leaves the registers of the header alone.
  have next : ∀ databits frameBytes anns,
      { s with ssDatabytebits := databits, frameBytes, anns }.fields =
        s.fields ++ layout.fieldsAt k →
      (k < layout.lastDatabit → databits.length = k + 1 - (layout.dlcStart + 4)) →
      Decoding layout before (k + 1)
        { s with ssDatabytebits := databits, frameBytes, anns } := by
    intro databits frameBytes anns fields counted
    refine ⟨known.state, fun _ => known.frameType (by omega),
      fun _ => known.ident (by omega), fun _ => known.fullid (by omega), by omega,
      fun _ => ⟨lastDatabit, dlc⟩, fun _ inside => counted (by omega), ?_⟩
    rw [fields, known.fields, layout.fieldsBefore_succ, List.append_assoc]
  rcases Nat.lt_or_eq_of_le inner.2 with inside | last
  · have field := dataField_inside s samplenum room most (by omega)
      (by omega : k < s.lastDatabit)
    have bitNoted : s.dataBit samplenum room =
        { s with ssDatabytebits := s.ssDatabytebits ++ [samplenum] } := if_pos free
    rw [field, bitNoted]
    refine next _ s.frameBytes s.anns ?_ ?_
    · rw [fieldsAt_inside (by omega) (by omega) inside, List.append_nil]
      rfl
    · intro _
      rw [List.length_append, List.length_singleton]
      omega
  · have some : 0 < layout.bytes.length := by omega
    have positive : 0 < s.dlc := by
      rw [dlc]
      refine Nat.pos_of_ne_zero fun zero => ?_
      have none := layout.length
      rw [zero] at none
      have empty : dlc2len 0 = 0 := rfl
      omega
    have count : min (dlc2len s.dlc) most = layout.bytes.length := by
      rw [dlc, ← layout.length]
      exact Nat.min_eq_left fits.2
    obtain ⟨anns, frameBytes, field, reported⟩ :=
      dataField_last s samplenum room most positive (by rw [count]; omega) free
    have data : anns.map CanAnn.field = layout.dataFields := by
      rw [reported, count]
      refine List.ext_getElem (by simp [dataFields]) ?_
      intro i left right
      have inside : i < layout.bytes.length := by simpa using left
      have whole : layout.dlcStart + 4 + 8 * i + 8 ≤ s.bits.length := by
        rw [bits, List.length_take, layout.length_plain]
        omega
      have byte : s.byteAt i = (layout.bytes.get ⟨i, inside⟩).toNat := by
        rw [byteAt, start, if_pos whole, bits]
        exact layout.plain_byte inside (by omega)
      simp [dataFields, byte]
    have here : k = s.lastDatabit := last.trans lastDatabit.symm
    have rewritten : s.dataField k samplenum room most =
        { s with ssDatabytebits := [], frameBytes, anns := s.anns ++ anns } := by
      rw [here]
      exact field
    rw [rewritten]
    refine next [] frameBytes _ ?_ (by omega)
    rw [last, fieldsAt_data some, ← data]
    refine fields_append { s with ssDatabytebits := [], frameBytes } ?_
    rw [data]
    intro field member
    obtain ⟨byte, _, rfl⟩ := List.mem_map.mp member
    rfl

theorem Decoding.behindData {i : Nat}
    (known : Decoding layout before (layout.lastDatabit + 1 + i) s)
    (same : (t.state, t.frameType, t.ident, t.fullid, t.lastDatabit, t.dlc, t.ssDatabytebits) =
      (s.state, s.frameType, s.ident, s.fullid, s.lastDatabit, s.dlc, s.ssDatabytebits))
    (fields : t.fields = s.fields ++ layout.backFields i) :
    Decoding layout before (layout.lastDatabit + 1 + i + 1) t := by
  have header : layout.dlcStart + 3 ≤ layout.lastDatabit := Nat.le_add_right _ _
  have flags : layout.flagsStart ≤ layout.dlcStart := Nat.le_add_right _ _
  refine known.next same ?_ ?_
  · rw [fields, fieldsAt_back]
  · rcases layout.flagsStart_cases with ⟨start, idEnd⟩ | ⟨start, idEnd⟩
    · omega
    · omega

end Bits

end Step

end CanState

end SigrokDecode
