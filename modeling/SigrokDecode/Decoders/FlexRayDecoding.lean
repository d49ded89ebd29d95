import SigrokDecode.Decoders.FlexRayFrame

/-!
# What `flexray_c` knows behind each bit of a frame
-/

set_option linter.dupNamespace false

namespace SigrokDecode

open Foundation List

def FlexrayState.fields (s : FlexrayState) : List FlexrayAnn :=
  s.anns.filter fun ann => !ann.field.isRawBit

namespace FlexrayState

theorem fields_putg (config : FlexrayConfig) (s : FlexrayState) (ss es : Nat)
    {field : FlexrayField} (plain : field.isRawBit = false) :
    (s.putg config ss es field).fields =
      s.fields ++ [FlexrayFrame.shown config ss es field] := by
  have clamped : (if config.left < ss then ss - config.left else 0) = ss - config.left := by
    split
    · rfl
    · omega
  simp [fields, putg, FlexrayFrame.shown, filter_append, plain, clamped]

theorem fields_putg_raw (config : FlexrayConfig) (s : FlexrayState) (ss es : Nat)
    {field : FlexrayField} (raw : field.isRawBit = true) :
    (s.putg config ss es field).fields = s.fields := by
  simp [fields, putg, filter_append, raw]

def registers (s : FlexrayState) : FlexrayPhase × Bool × Nat × Bool × Nat × List Nat × Nat :=
  (s.state, s.dynamicFrame, s.lastXmitBit, s.endOfFrame, s.lastDatabit, s.ssDatabytebits,
    s.payloadLength)

end FlexrayState

namespace FlexrayFrame

variable (frame : FlexrayFrame)

def headerOk : Bool :=
  decide (frame.headerCrc.toNat =
    (flexrayCrc (BitVec.ofNat 32 (packMsb frame.headerCovered)) 20 cHCrcPolynomial cHCrcSize
      cHCrcInit 0).toNat)

def frameOk (config : FlexrayConfig) : Bool :=
  decide (frame.frameCrc.toNat =
    (flexrayCrc 0 (40 + 16 * frame.words.length) cCrcPolynomial cCrcSize
      config.channelType.cCrcInit 0).toNat)

/-- The bit that the frame CRC is shown from, as it stands behind `k` bits: with 59 words the
bit 999 takes the place of the first one. -/
def crcStart (k : Nat) : Nat :=
  if frame.words.length = 59 ∧ 999 < k then 999 else frame.payloadEnd

/-- The sample that a block of bits is shown from. -/
structure BlockAt (samples : Nat → Nat) (k ssBlock : Nat) : Prop where
  id : 6 < k → k ≤ 16 → ssBlock = samples (frame.wireIndex 6)
  length : 17 < k → k ≤ 23 → ssBlock = samples (frame.wireIndex 17)
  headerCrc : 24 < k → k ≤ 34 → ssBlock = samples (frame.wireIndex 24)
  cycle : 35 < k → k ≤ 40 → ssBlock = samples (frame.wireIndex 35)
  crc : frame.payloadEnd < k → ssBlock = samples (frame.wireIndex (frame.crcStart k))

section Blocks

variable {frame} {samples : Nat → Nat} {k ssBlock : Nat}

theorem BlockAt.next (block : frame.BlockAt samples k ssBlock)
    (inner : k ≠ 6 ∧ k ≠ 17 ∧ k ≠ 24 ∧ k ≠ 35 ∧ k ≠ frame.payloadEnd ∧
      ¬(frame.words.length = 59 ∧ k = 999)) : frame.BlockAt samples (k + 1) ssBlock := by
  obtain ⟨no6, no17, no24, no35, noEnd, no999⟩ := inner
  refine ⟨fun above below => block.id (by omega) (by omega),
    fun above below => block.length (by omega) (by omega),
    fun above below => block.headerCrc (by omega) (by omega),
    fun above below => block.cycle (by omega) (by omega), fun above => ?_⟩
  rw [block.crc (by omega)]
  have same : frame.crcStart (k + 1) = frame.crcStart k := by
    unfold crcStart
    by_cases late : frame.words.length = 59 ∧ 999 < k
    · rw [if_pos late, if_pos ⟨late.1, by omega⟩]
    · rw [if_neg late, if_neg (by omega)]
  rw [same]

theorem BlockAt.begin (starts : k = 6 ∨ k = 17 ∨ k = 24 ∨ k = 35 ∨ k = frame.payloadEnd ∨
    frame.words.length = 59 ∧ k = 999) :
    frame.BlockAt samples (k + 1) (samples (frame.wireIndex k)) := by
  have behind : 41 ≤ frame.payloadEnd := Nat.le_add_right 41 _
  have long : frame.words.length = 59 → frame.payloadEnd = 985 := by
    intro words
    rw [payloadEnd, words]
  refine ⟨fun above below => ?_, fun above below => ?_, fun above below => ?_,
    fun above below => ?_, fun above => ?_⟩
  · rw [show k = 6 by omega]
  · rw [show k = 17 by omega]
  · rw [show k = 24 by omega]
  · rw [show k = 35 by omega]
  · have start : frame.crcStart (k + 1) = k := by
      unfold crcStart
      split
      · omega
      · omega
    rw [start]

end Blocks

section Report

variable (config : FlexrayConfig) (tss : Nat × Nat) (samples : Nat → Nat)

/-- What goes out with the bit `k` of the header. -/
def headerFieldsAt (id : Nat) (headerOk : Bool) (k : Nat) : List FlexrayAnn :=
  match k with
  | 1 =>
      [shown config tss.1 tss.2 .tss, frame.across config samples 0 0 .fss,
        frame.across config samples 1 1 (.reservedBit frame.reserved)]
  | 2 => [frame.across config samples 2 2 (.ppi frame.ppi)]
  | 3 => [frame.across config samples 3 3 (.nullFrame frame.nullFrame)]
  | 4 => [frame.across config samples 4 4 (.syncFrame frame.sync)]
  | 5 => [frame.across config samples 5 5 (.startupFrame frame.startup)]
  | 16 => [frame.across config samples 6 16 (.id id)]
  | 23 => [frame.across config samples 17 23 (.length frame.words.length)]
  | 34 => [frame.across config samples 24 34 (.headerCrc frame.headerCrc.toNat headerOk)]
  | 40 => [frame.across config samples 35 40 (.cycle frame.cycle.toNat)]
  | _ => []

def fieldsAt (k : Nat) : List FlexrayAnn :=
  if k ≤ 40 then
    frame.headerFieldsAt config tss samples (frame.id.toNat / 2) frame.headerOk k
  else if k = frame.payloadEnd then frame.dataFields config samples
  else if k = frame.payloadEnd + 23 then
    [frame.across config samples (frame.crcStart k) k
      (.frameCrc frame.frameCrc.toNat (frame.frameOk config))]
  else []

def fieldsBefore (k : Nat) : List FlexrayAnn :=
  (List.range k).flatMap (frame.fieldsAt config tss samples)

theorem fieldsBefore_succ (k : Nat) : frame.fieldsBefore config tss samples (k + 1) =
      frame.fieldsBefore config tss samples k ++ frame.fieldsAt config tss samples k := by
  simp [fieldsBefore, range_succ, flatMap_append]

theorem fieldsBefore_header : frame.fieldsBefore config tss samples 41 =
      frame.headerFields config tss samples (frame.id.toNat / 2) frame.headerOk := rfl

theorem fieldsAt_header {k : Nat} (early : k ≤ 40) : frame.fieldsAt config tss samples k =
      frame.headerFieldsAt config tss samples (frame.id.toNat / 2) frame.headerOk k :=
  if_pos early

theorem fieldsAt_silent {k : Nat} (late : 40 < k)
    (inner : k ≠ frame.payloadEnd ∧ k ≠ frame.payloadEnd + 23) :
    frame.fieldsAt config tss samples k = [] := by
  rw [fieldsAt, if_neg (by omega), if_neg inner.1, if_neg inner.2]

theorem fieldsBefore_silent {first count : Nat}
    (silent : ∀ k, first ≤ k → k < first + count → frame.fieldsAt config tss samples k = []) :
    frame.fieldsBefore config tss samples (first + count) =
      frame.fieldsBefore config tss samples first := by
  induction count with
  | zero => rfl
  | succ count ih =>
      rw [← Nat.add_assoc, fieldsBefore_succ, silent (first + count) (by omega) (by omega),
        List.append_nil]
      exact ih fun k above below => silent k above (by omega)

theorem fieldsBefore_end : frame.fieldsBefore config tss samples (frame.payloadEnd + 24) =
      frame.headerFields config tss samples (frame.id.toNat / 2) frame.headerOk ++
        frame.dataFields config samples ++
        [frame.across config samples (frame.crcStart (frame.payloadEnd + 23))
          (frame.payloadEnd + 23) (.frameCrc frame.frameCrc.toNat (frame.frameOk config))] := by
  have payload : frame.fieldsBefore config tss samples frame.payloadEnd =
      frame.fieldsBefore config tss samples 41 :=
    frame.fieldsBefore_silent config tss samples fun k above below =>
      frame.fieldsAt_silent config tss samples (by omega)
        (by rw [payloadEnd]; omega)
  have data : frame.fieldsAt config tss samples frame.payloadEnd =
      frame.dataFields config samples := by
    rw [fieldsAt, if_neg (by rw [payloadEnd]; omega), if_pos rfl]
  have crc : frame.fieldsBefore config tss samples (frame.payloadEnd + 1 + 22) =
      frame.fieldsBefore config tss samples (frame.payloadEnd + 1) :=
    frame.fieldsBefore_silent config tss samples fun k above below =>
      frame.fieldsAt_silent config tss samples (by rw [payloadEnd] at above; omega) (by omega)
  have last : frame.fieldsAt config tss samples (frame.payloadEnd + 1 + 22) =
      [frame.across config samples (frame.crcStart (frame.payloadEnd + 23))
        (frame.payloadEnd + 23) (.frameCrc frame.frameCrc.toNat (frame.frameOk config))] := by
    rw [fieldsAt, if_neg (by rw [payloadEnd]; omega), if_neg (by omega), if_pos (by omega)]
  have split : frame.payloadEnd + 24 = frame.payloadEnd + 1 + 22 + 1 := by omega
  rw [split, fieldsBefore_succ, crc, last, fieldsBefore_succ, payload, data, fieldsBefore_header]

end Report

end FlexrayFrame

namespace FlexrayState

open FlexrayFrame

/-- The decoder behind `k` bits of a frame, apart from the buffers. -/
structure Decoding (frame : FlexrayFrame) (config : FlexrayConfig) (tss : Nat × Nat)
    (samples : Nat → Nat) (k : Nat) (s : FlexrayState) : Prop where
  state : s.state = .getBits
  kind : s.dynamicFrame = false ∧ s.lastXmitBit = 999
  endOfFrame : s.endOfFrame = decide (k = frame.payloadEnd + 24)
  headerOpen : k ≤ 40 → s.lastDatabit = 999 ∧ s.ssDatabytebits = []
  lengthRead : 23 < k → s.payloadLength = frame.words.length
  headerRead : 40 < k → s.lastDatabit = frame.payloadEnd
  dataRead : 40 < k → k ≤ frame.payloadEnd →
    s.ssDatabytebits = (List.range (k - 41)).map fun i => samples (frame.wireIndex (41 + i))
  block : frame.BlockAt samples k s.ssBlock
  fields : s.fields = frame.fieldsBefore config tss samples k

section Step

variable {frame : FlexrayFrame} {config : FlexrayConfig} {tss : Nat × Nat}
  {samples : Nat → Nat} {k : Nat} {s t : FlexrayState} {bit : Bool}

theorem Decoding.congr (known : Decoding frame config tss samples k s)
    (same : t.registers = s.registers) (block : t.ssBlock = s.ssBlock)
    (fields : t.fields = s.fields) : Decoding frame config tss samples k t := by
  simp only [registers, Prod.mk.injEq] at same
  obtain ⟨state, dynamic, xmit, ended, last, data, length⟩ := same
  refine ⟨state.trans known.state, ⟨dynamic.trans known.kind.1, xmit.trans known.kind.2⟩,
    ended.trans known.endOfFrame, ?_, fun read => length.trans (known.lengthRead read),
    fun read => last.trans (known.headerRead read), ?_, ?_, fields.trans known.fields⟩
  · rw [last, data]
    exact known.headerOpen
  · rw [data]
    exact known.dataRead
  · rw [block]
    exact known.block

theorem Decoding.next (known : Decoding frame config tss samples k s)
    (same : t.registers = s.registers)
    (block : frame.BlockAt samples (k + 1) t.ssBlock)
    (fields : t.fields = s.fields ++ frame.fieldsAt config tss samples k)
    (inner : k ≠ 23 ∧ k ≠ 40 ∧ (40 < k → frame.payloadEnd ≤ k) ∧
      k < frame.payloadEnd + 23) : Decoding frame config tss samples (k + 1) t := by
  obtain ⟨no23, no40, data, unfinished⟩ := inner
  simp only [registers, Prod.mk.injEq] at same
  obtain ⟨state, dynamic, xmit, ended, last, bytes, length⟩ := same
  refine ⟨state.trans known.state, ⟨dynamic.trans known.kind.1, xmit.trans known.kind.2⟩,
    ?_, ?_, fun read => length.trans (known.lengthRead (by omega)),
    fun read => last.trans (known.headerRead (by omega)), ?_, block, ?_⟩
  · rw [ended, known.endOfFrame, decide_eq_false (by omega), decide_eq_false (by omega)]
  · intro early
    rw [last, bytes]
    exact known.headerOpen (by omega)
  · intro read inside
    have behind := data (by omega)
    omega
  · rw [fields, known.fields, frame.fieldsBefore_succ]

theorem headerField_inner (s : FlexrayState) (bit : Bool) (samplenum : Nat)
    (inner : 7 ≤ k ∧ k ≤ 15 ∨ 18 ≤ k ∧ k ≤ 22 ∨ 25 ≤ k ∧ k ≤ 33 ∨ 36 ≤ k ∧ k ≤ 39 ∨ 41 ≤ k) :
    s.headerField config bit k samplenum = none := by
  unfold headerField
  split <;> first | exact absurd inner (by decide) | rfl

theorem headerFieldsAt_inner {id : Nat} {ok : Bool}
    (inner : 6 ≤ k ∧ k ≤ 15 ∨ 17 ≤ k ∧ k ≤ 22 ∨ 24 ≤ k ∧ k ≤ 33 ∨ 35 ≤ k ∧ k ≤ 39) :
    frame.headerFieldsAt config tss samples id ok k = [] := by
  unfold headerFieldsAt
  split <;> first | exact absurd inner (by decide) | rfl

theorem Decoding.restField_header (known : Decoding frame config tss samples k s)
    (early : k ≤ 40) (samplenum : Nat) : s.restField config bit k samplenum = s := by
  obtain ⟨last, -⟩ := known.headerOpen early
  unfold restField
  rw [last, known.kind.2, if_neg (by omega), if_neg (by omega), if_neg (by omega),
    if_neg (by omega), if_neg (by omega), if_neg (by omega), if_neg (by omega),
    if_neg (by rw [cChannelIdleDelimiter]; omega), if_neg (by omega)]

theorem Decoding.report (known : Decoding frame config tss samples k s) (first : Nat)
    (field : FlexrayField) (same : t.registers = s.registers) (block : t.ssBlock = s.ssBlock)
    (fields : t.fields =
      s.fields ++ [shown config (samples (frame.wireIndex first)) (samples (frame.wireIndex k))
        field])
    (at_k : frame.headerFieldsAt config tss samples (frame.id.toNat / 2) frame.headerOk k =
      [frame.across config samples first k field])
    (inner : k ≠ 6 ∧ k ≠ 17 ∧ k ≠ 23 ∧ k ≠ 24 ∧ k ≠ 35 ∧ k < 40) :
    Decoding frame config tss samples (k + 1) t := by
  have behind : 41 ≤ frame.payloadEnd := Nat.le_add_right 41 _
  refine known.next same ?_ ?_ (by omega)
  · rw [block]
    exact known.block.next (by omega)
  · rw [fields, frame.fieldsAt_header config tss samples (by omega), at_k]
    rfl

theorem Decoding.quiet (known : Decoding frame config tss samples k s)
    (same : t.registers = s.registers) (fields : t.fields = s.fields)
    (block : frame.BlockAt samples (k + 1) t.ssBlock)
    (inner : 6 ≤ k ∧ k ≤ 15 ∨ 17 ≤ k ∧ k ≤ 22 ∨ 24 ≤ k ∧ k ≤ 33 ∨ 35 ≤ k ∧ k ≤ 39) :
    Decoding frame config tss samples (k + 1) t := by
  have behind : 41 ≤ frame.payloadEnd := Nat.le_add_right 41 _
  refine known.next same block ?_ (by omega)
  rw [fields, frame.fieldsAt_header config tss samples (by omega), headerFieldsAt_inner inner,
    List.append_nil]

/-- The branches of `handle_bit` as one function. -/
def field (config : FlexrayConfig) (s : FlexrayState) (bit : Bool) (bitnum samplenum : Nat) :
    FlexrayState :=
  match s.headerField config bit bitnum samplenum with
  | some s => s
  | none => s.restField config bit bitnum samplenum

theorem Decoding.flag (known : Decoding frame config tss samples k s)
    (here : frame.bits[k]? = some bit) (inside : 2 ≤ k ∧ k ≤ 5) :
    Decoding frame config tss samples (k + 1)
      (s.field config bit k (samples (frame.wireIndex k))) := by
  obtain ⟨ppi, nullFrame, sync, startup⟩ := frame.bits_flags
  have position : k = 2 ∨ k = 3 ∨ k = 4 ∨ k = 5 := by omega
  rcases position with rfl | rfl | rfl | rfl
  · obtain rfl : frame.ppi = bit := Option.some.inj (ppi.symm.trans here)
    exact known.report 2 (.ppi frame.ppi) rfl rfl (fields_putg config s _ _ rfl) rfl (by decide)
  · obtain rfl : frame.nullFrame = bit := Option.some.inj (nullFrame.symm.trans here)
    exact known.report 3 (.nullFrame frame.nullFrame) rfl rfl (fields_putg config s _ _ rfl) rfl
      (by decide)
  · obtain rfl : frame.sync = bit := Option.some.inj (sync.symm.trans here)
    exact known.report 4 (.syncFrame frame.sync) rfl rfl (fields_putg config s _ _ rfl) rfl
      (by decide)
  · obtain rfl : frame.startup = bit := Option.some.inj (startup.symm.trans here)
    exact known.report 5 (.startupFrame frame.startup) rfl rfl (fields_putg config s _ _ rfl) rfl
      (by decide)

theorem Decoding.frameId (known : Decoding frame config tss samples 16 s)
    (bits : s.bits = frame.bits.take 17) :
    Decoding frame config tss samples 17
      (s.field config bit 16 (samples (frame.wireIndex 16))) := by
  have id : bitpackMsb s.bits 6 10 = frame.id.toNat / 2 := by
    rw [bits]
    exact frame.take_id (by decide)
  have start := known.block.id (by decide) (by decide)
  refine known.report 6 (.id (frame.id.toNat / 2)) rfl rfl ?_ rfl (by decide)
  exact (fields_putg config { s with frameId := bitpackMsb s.bits 6 10 } s.ssBlock _ rfl).trans
    (by rw [id, start]; rfl)

theorem Decoding.headerCrc (known : Decoding frame config tss samples 34 s)
    (bits : s.bits = frame.bits.take 35) :
    Decoding frame config tss samples 35
      (s.field config bit 34 (samples (frame.wireIndex 34))) := by
  have crc : bitpackMsb s.bits 24 11 = frame.headerCrc.toNat := by
    rw [bits]
    exact frame.take_headerCrc (by decide)
  have covered : bitpackMsb s.bits 4 20 = packMsb frame.headerCovered := by
    rw [bits]
    exact frame.take_headerCovered (by decide)
  have start := known.block.headerCrc (by decide) (by decide)
  refine known.report 24 (.headerCrc frame.headerCrc.toNat frame.headerOk) rfl rfl ?_ rfl
    (by decide)
  exact (fields_putg config { s with headerCrc := bitpackMsb s.bits 24 11 } s.ssBlock _
    rfl).trans (by rw [crc, covered, start]; rfl)

theorem Decoding.length (known : Decoding frame config tss samples 23 s)
    (bits : s.bits = frame.bits.take 24) :
    Decoding frame config tss samples 24
      (s.field config bit 23 (samples (frame.wireIndex 23))) := by
  have length : bitpackMsb s.bits 17 7 = frame.words.length := by
    rw [bits]
    exact frame.take_length (by decide)
  have behind : 41 ≤ frame.payloadEnd := Nat.le_add_right 41 _
  have start := known.block.length (by decide) (by decide)
  have shown : (s.field config bit 23 (samples (frame.wireIndex 23))).fields =
      s.fields ++ [frame.across config samples 17 23 (.length frame.words.length)] :=
    (fields_putg config { s with payloadLength := bitpackMsb s.bits 17 7 } s.ssBlock _
      rfl).trans (by rw [length, start]; rfl)
  refine ⟨known.state, known.kind, ?_, fun _ => known.headerOpen (by decide),
    fun _ => length, fun late => absurd late (by decide), fun late => absurd late (by decide),
    known.block.next (by omega), ?_⟩
  · rw [decide_eq_false (by omega)]
    exact known.endOfFrame.trans (decide_eq_false (by omega))
  · rw [shown, known.fields, frame.fieldsBefore_succ,
      frame.fieldsAt_header config tss samples (by decide)]
    rfl

theorem Decoding.cycle (known : Decoding frame config tss samples 40 s)
    (bits : s.bits = frame.bits.take 41) :
    Decoding frame config tss samples 41
      (s.field config bit 40 (samples (frame.wireIndex 40))) := by
  have cycle : bitpackMsb s.bits 35 6 = frame.cycle.toNat := by
    rw [bits]
    exact frame.take_cycle (by decide)
  have behind : 41 ≤ frame.payloadEnd := Nat.le_add_right 41 _
  have start := known.block.cycle (by decide) (by decide)
  have shown : (s.field config bit 40 (samples (frame.wireIndex 40))).fields =
      s.fields ++ [frame.across config samples 35 40 (.cycle frame.cycle.toNat)] :=
    (fields_putg config { s with cycle := bitpackMsb s.bits 35 6 } s.ssBlock _ rfl).trans
      (by rw [cycle, start]; rfl)
  have length := known.lengthRead (by decide)
  refine ⟨known.state, known.kind, ?_, fun early => absurd early (by decide),
    fun _ => length, fun _ => ?_, fun _ _ => ?_, known.block.next (by omega), ?_⟩
  · rw [decide_eq_false (by omega)]
    exact known.endOfFrame.trans (decide_eq_false (by omega))
  · have last : (s.field config bit 40 (samples (frame.wireIndex 40))).lastDatabit =
        41 + 2 * s.payloadLength * 8 := rfl
    rw [last, length, payloadEnd]
    omega
  · exact (known.headerOpen (by decide)).2
  · rw [shown, known.fields, frame.fieldsBefore_succ,
      frame.fieldsAt_header config tss samples (by decide)]
    rfl

theorem Decoding.header (known : Decoding frame config tss samples k s)
    (bits : s.bits = frame.bits.take (k + 1)) (here : frame.bits[k]? = some bit)
    (inside : 2 ≤ k ∧ k ≤ 40) :
    Decoding frame config tss samples (k + 1)
      (s.field config bit k (samples (frame.wireIndex k))) := by
  have behind : 41 ≤ frame.payloadEnd := Nat.le_add_right 41 _
  have position : k ≤ 5 ∨ (k = 6 ∨ k = 17 ∨ k = 24 ∨ k = 35) ∨ k = 16 ∨ k = 23 ∨ k = 34 ∨
      k = 40 ∨ (7 ≤ k ∧ k ≤ 15 ∨ 18 ≤ k ∧ k ≤ 22 ∨ 25 ≤ k ∧ k ≤ 33 ∨ 36 ≤ k ∧ k ≤ 39) := by
    omega
  rcases position with early | begins | rfl | rfl | rfl | rfl | inner
  · exact known.flag here ⟨inside.1, early⟩
  · have block : frame.BlockAt samples (k + 1) (samples (frame.wireIndex k)) :=
      BlockAt.begin (by omega)
    rcases begins with rfl | rfl | rfl | rfl
    · exact known.quiet rfl rfl block (by decide)
    · exact known.quiet rfl rfl block (by decide)
    · exact known.quiet rfl rfl block (by decide)
    · exact known.quiet rfl rfl block (by decide)
  · exact known.frameId bits
  · exact known.length bits
  · exact known.headerCrc bits
  · exact known.cycle bits
  · have same : s.field config bit k (samples (frame.wireIndex k)) = s := by
      unfold field
      rw [headerField_inner s bit _ (by omega)]
      exact known.restField_header inside.2 _
    rw [same]
    exact known.quiet rfl rfl (known.block.next (by omega)) (by omega)

theorem field_rest (s : FlexrayState) (late : 41 ≤ k) (samplenum : Nat) :
    s.field config bit k samplenum = s.restField config bit k samplenum := by
  unfold field
  rw [headerField_inner s bit samplenum (by omega)]

theorem Decoding.dataBit (known : Decoding frame config tss samples k s)
    (inside : 41 ≤ k ∧ k ≤ frame.payloadEnd) :
    s.dataBit (samples (frame.wireIndex k)) =
      { s with
        ssDatabytebits := (range (k + 1 - 41)).map fun i =>
          samples (frame.wireIndex (41 + i)) } := by
  have data := known.dataRead (by omega) inside.2
  have short := frame.short
  have room : s.ssDatabytebits.length < 2048 := by
    rw [data, length_map, length_range]
    have last := inside.2
    rw [payloadEnd] at last
    omega
  have succ : k + 1 - 41 = (k - 41) + 1 := by omega
  have here : 41 + (k - 41) = k := by omega
  rw [FlexrayState.dataBit, if_pos room, data, succ, range_succ, map_append,
    map_cons, map_nil, here]

theorem Decoding.dataInner (known : Decoding frame config tss samples k s)
    (inside : 41 ≤ k ∧ k < frame.payloadEnd) :
    Decoding frame config tss samples (k + 1)
      (s.field config bit k (samples (frame.wireIndex k))) := by
  have last := known.headerRead (by omega)
  have handled : s.field config bit k (samples (frame.wireIndex k)) =
      s.dataBit (samples (frame.wireIndex k)) := by
    rw [field_rest s inside.1, restField, last, if_pos ⟨inside.1, inside.2⟩]
  rw [handled, known.dataBit ⟨inside.1, Nat.le_of_lt inside.2⟩]
  refine ⟨known.state, known.kind, ?_, fun early => absurd early (by omega),
    fun _ => known.lengthRead (by omega), fun _ => last, fun _ _ => rfl,
    ⟨?_, ?_, ?_, ?_, ?_⟩, ?_⟩
  · rw [decide_eq_false (by omega)]
    exact known.endOfFrame.trans (decide_eq_false (by omega))
  · exact fun _ early => absurd early (by omega)
  · exact fun _ early => absurd early (by omega)
  · exact fun _ early => absurd early (by omega)
  · exact fun _ early => absurd early (by omega)
  · exact fun behind => absurd behind (by omega)
  · rw [frame.fieldsBefore_succ, frame.fieldsAt_silent config tss samples (by omega) (by omega),
      List.append_nil]
    exact known.fields

variable (config) in
theorem putDataByte_known (bits : s.bits = frame.bits.take (frame.payloadEnd + 1))
    (data : s.ssDatabytebits = (range (16 * frame.words.length + 1)).map fun i =>
      samples (frame.wireIndex (41 + i))) {i : Nat} (inside : i < frame.bytes.length) :
    s.putDataByte config i = s.putg config (samples (frame.wireIndex (41 + 8 * i)))
        (samples (frame.wireIndex (48 + 8 * i))) (.dataByte i (frame.bytes.getD i 0).toNat) := by
  have count := frame.length_bytes
  have total : frame.payloadEnd + 1 ≤ frame.bits.length := by
    rw [frame.length_bits, ← frame.payloadEnd_eq]
    omega
  have length : s.bits.length = frame.payloadEnd + 1 := by
    rw [bits, length_take]
    omega
  have entries : s.ssDatabytebits.length = 16 * frame.words.length + 1 := by
    rw [data, length_map, length_range]
  have entry : ∀ j, j < 16 * frame.words.length + 1 →
      s.ssDatabytebits.getD j 0 = samples (frame.wireIndex (41 + j)) := by
    intro j small
    rw [data, getD_eq_getElem?_getD, getElem?_map, getElem?_range small]
    rfl
  have whole : 40 + 8 * i + 1 + 8 ≤ s.bits.length := by
    rw [length, payloadEnd]
    omega
  have byte : bitpackMsb s.bits (40 + 8 * i + 1) 8 = (frame.bytes.getD i 0).toNat := by
    have shift : 40 + 8 * i + 1 = 41 + 8 * i := by omega
    have value : frame.bytes.getD i 0 = frame.bytes.get ⟨i, inside⟩ := by
      rw [getD_eq_getElem?_getD, getElem?_eq_getElem inside]
      rfl
    rw [bits, shift, value]
    exact frame.take_byte inside (by rw [payloadEnd]; omega)
  have firstBit := entry (i * 8) (by omega)
  have lastBit := entry ((i + 1) * 8 - 1) (by omega)
  have firstPlace : 41 + i * 8 = 41 + 8 * i := by omega
  have lastPlace : 41 + ((i + 1) * 8 - 1) = 48 + 8 * i := by omega
  have known : i * 8 < s.ssDatabytebits.length ∧
      (i + 1) * 8 - 1 < s.ssDatabytebits.length := by
    rw [entries]
    omega
  unfold putDataByte
  simp only [if_pos whole, if_pos known, byte]
  rw [firstBit, lastBit, firstPlace, lastPlace]

variable (config) in
theorem putDataBytes_known (bits : s.bits = frame.bits.take (frame.payloadEnd + 1))
    (data : s.ssDatabytebits = (range (16 * frame.words.length + 1)).map fun i =>
      samples (frame.wireIndex (41 + i))) {count : Nat} (inside : count ≤ frame.bytes.length) :
    ∃ anns, (range count).foldl (putDataByte config) s = { s with anns } ∧
      ({ s with anns } : FlexrayState).fields = s.fields ++ (range count).map fun i =>
          frame.across config samples (41 + 8 * i) (48 + 8 * i)
            (.dataByte i (frame.bytes.getD i 0).toNat) := by
  induction count with
  | zero => exact ⟨s.anns, rfl, (List.append_nil _).symm⟩
  | succ count ih =>
      obtain ⟨anns, run, fields⟩ := ih (by omega)
      have byte := putDataByte_known config (s := { s with anns }) bits data inside
      rw [range_succ, foldl_append, run, foldl_cons, foldl_nil, byte]
      refine ⟨_, rfl, ?_⟩
      rw [map_append, ← List.append_assoc, ← fields]
      exact fields_putg config { s with anns } _ _ rfl

theorem dataFields_eq (frame : FlexrayFrame) (config : FlexrayConfig) (samples : Nat → Nat) :
    frame.dataFields config samples = (range frame.bytes.length).map fun i =>
        frame.across config samples (41 + 8 * i) (48 + 8 * i)
          (.dataByte i (frame.bytes.getD i 0).toNat) := by
  unfold dataFields
  apply ext_getElem
  · simp
  · intro i inside inside'
    have small : i < frame.bytes.length := by simpa using inside'
    simp [small]

theorem Decoding.dataEnd (known : Decoding frame config tss samples frame.payloadEnd s)
    (bits : s.bits = frame.bits.take (frame.payloadEnd + 1)) :
    Decoding frame config tss samples (frame.payloadEnd + 1) (s.field config bit frame.payloadEnd
        (samples (frame.wireIndex frame.payloadEnd))) := by
  have behind : 41 ≤ frame.payloadEnd := Nat.le_add_right 41 _
  have last := known.headerRead (by omega)
  have length := known.lengthRead (by omega)
  have stored := known.dataBit ⟨behind, Nat.le_refl _⟩
  have count : frame.payloadEnd + 1 - 41 = 16 * frame.words.length + 1 := by
    rw [payloadEnd]
    omega
  rw [count] at stored
  have handled : s.field config bit frame.payloadEnd (samples (frame.wireIndex frame.payloadEnd)) =
      s.putData config (samples (frame.wireIndex frame.payloadEnd)) := by
    rw [field_rest s behind, restField, last, if_neg (by omega), if_pos rfl]
  obtain ⟨anns, run, fields⟩ := putDataBytes_known config
    (s := s.dataBit (samples (frame.wireIndex frame.payloadEnd))) (by rw [stored]; exact bits)
    (by rw [stored]) (Nat.le_refl frame.bytes.length)
  rw [handled, putData, length, ← frame.length_bytes, run]
  rw [stored] at fields ⊢
  refine ⟨known.state, known.kind, ?_, fun early => absurd early (by omega), fun _ => length,
    fun _ => last, fun _ early => absurd early (by omega), BlockAt.begin (by omega), ?_⟩
  · rw [decide_eq_false (by omega)]
    exact known.endOfFrame.trans (decide_eq_false (by omega))
  · have at_end : frame.fieldsAt config tss samples frame.payloadEnd =
        frame.dataFields config samples := by
      rw [fieldsAt, if_neg (by omega), if_pos rfl]
    rw [frame.fieldsBefore_succ, at_end, dataFields_eq, ← known.fields]
    exact fields

theorem Decoding.crcInner (known : Decoding frame config tss samples k s)
    (inside : frame.payloadEnd < k ∧ k < frame.payloadEnd + 23)
    (noDelimiter : k ≠ 1009) :
    Decoding frame config tss samples (k + 1)
      (s.field config bit k (samples (frame.wireIndex k))) := by
  have behind : 41 ≤ frame.payloadEnd := Nat.le_add_right 41 _
  have last := known.headerRead (by omega)
  have handled : s.field config bit k (samples (frame.wireIndex k)) =
      if k = 999 then { s with ssBlock := samples (frame.wireIndex k) } else s := by
    rw [field_rest s (by omega), restField, last, known.kind.2, if_neg (by omega),
      if_neg (by omega), if_neg (by omega), if_neg (by omega), if_neg (by omega),
      if_neg (by omega), if_neg (show ¬k = 999 + cChannelIdleDelimiter - 1 from noDelimiter),
      if_neg (show ¬k > frame.payloadEnd + 27 by omega)]
  have silent : frame.fieldsAt config tss samples k = [] :=
    frame.fieldsAt_silent config tss samples (by omega) (by omega)
  have words : k = 999 → frame.words.length = 59 := by
    intro sentinel
    rw [payloadEnd] at inside
    omega
  rw [handled]
  split
  · next sentinel =>
      refine known.next rfl (BlockAt.begin (by have := words sentinel; omega)) ?_ (by omega)
      rw [silent, List.append_nil]
      rfl
  · refine known.next rfl (known.block.next (by omega)) ?_ (by omega)
    rw [silent, List.append_nil]

theorem Decoding.crcEnd (known : Decoding frame config tss samples (frame.payloadEnd + 23) s)
    (bits : s.bits = frame.bits.take (frame.payloadEnd + 24)) :
    Decoding frame config tss samples (frame.payloadEnd + 24)
      (s.field config bit (frame.payloadEnd + 23)
        (samples (frame.wireIndex (frame.payloadEnd + 23)))) := by
  have behind : 41 ≤ frame.payloadEnd := Nat.le_add_right 41 _
  have last := known.headerRead (by omega)
  have handled : s.field config bit (frame.payloadEnd + 23)
      (samples (frame.wireIndex (frame.payloadEnd + 23))) =
      s.putFrameCrc config (samples (frame.wireIndex (frame.payloadEnd + 23))) := by
    rw [field_rest s (by omega), restField, last, if_neg (by omega), if_neg (by omega),
      if_pos rfl]
  have whole : s.bits.length = frame.payloadEnd + 24 := by
    rw [bits, length_take, frame.length_bits, ← frame.payloadEnd_eq, Nat.min_self]
  have count : s.bits.length - 1 - 24 = 40 + 16 * frame.words.length := by
    rw [whole, payloadEnd]
    omega
  have crc : bitpackMsb s.bits s.lastDatabit 24 = frame.frameCrc.toNat := by
    rw [bits, last]
    exact frame.take_frameCrc (Nat.le_refl _)
  have long : ¬(40 + 16 * frame.words.length > 0 ∧ 40 + 16 * frame.words.length ≤ 32) := by omega
  have start := known.block.crc (by omega)
  have shown : (s.putFrameCrc config (samples (frame.wireIndex (frame.payloadEnd + 23)))).fields =
      s.fields ++ [frame.across config samples (frame.crcStart (frame.payloadEnd + 23))
        (frame.payloadEnd + 23) (.frameCrc frame.frameCrc.toNat (frame.frameOk config))] := by
    unfold putFrameCrc
    simp only [count, crc, if_neg long]
    exact (fields_putg config { s with frameCrc := frame.frameCrc.toNat } s.ssBlock _
      rfl).trans (by rw [start]; rfl)
  rw [handled]
  refine ⟨known.state, known.kind, ?_, fun early => absurd early (by omega),
    fun _ => known.lengthRead (by omega), fun _ => last,
    fun _ early => absurd early (by omega), ?_, ?_⟩
  · rw [decide_eq_true rfl]
    rfl
  · refine known.block.next (by rw [payloadEnd]; omega)
  · have at_end : frame.fieldsAt config tss samples (frame.payloadEnd + 23) =
        [frame.across config samples (frame.crcStart (frame.payloadEnd + 23))
          (frame.payloadEnd + 23) (.frameCrc frame.frameCrc.toNat (frame.frameOk config))] := by
      rw [fieldsAt, if_neg (by omega), if_neg (by omega), if_pos rfl]
    rw [frame.fieldsBefore_succ, at_end, ← known.fields]
    exact shown

theorem Decoding.field (known : Decoding frame config tss samples k s)
    (bits : s.bits = frame.bits.take (k + 1)) (here : frame.bits[k]? = some bit)
    (inside : 2 ≤ k ∧ k < frame.payloadEnd + 24)
    (noDelimiter : ¬(frame.words.length = 60 ∧ k = 1009)) :
    Decoding frame config tss samples (k + 1)
      (s.field config bit k (samples (frame.wireIndex k))) := by
  have position : k ≤ 40 ∨ 41 ≤ k ∧ k < frame.payloadEnd ∨ k = frame.payloadEnd ∨
      frame.payloadEnd < k ∧ k < frame.payloadEnd + 23 ∨ k = frame.payloadEnd + 23 := by
    omega
  rcases position with early | data | rfl | crc | rfl
  · exact known.header bits here ⟨inside.1, early⟩
  · exact known.dataInner data
  · exact known.dataEnd bits
  · refine known.crcInner crc fun delimiter => noDelimiter ⟨?_, delimiter⟩
    rw [payloadEnd] at crc
    omega
  · exact known.crcEnd bits

end Step

end FlexrayState

end SigrokDecode
