import Mathlib.Data.List.Range
import SigrokDecode.Decoders.UsbPdReading

/-!
# Round trip of a USB Power Delivery packet

`decode_packet` over the bits of a packet: every part is found where the sender put
it, unless the extended flag is set.
-/

namespace SigrokDecode

open Foundation List

@[simp] theorem length_preambleBits (first : Bool) : (preambleBits first).length = 64 := by
  cases first <;> rfl

@[simp] theorem length_sopBits (name : PdSop) : (sopBits name).length = 20 := by
  cases name <;> rfl

namespace PdState

variable {i : Nat} {t u : PdState}

theorem getSym_append {front : List Bool} (rest : List Bool)
    (inside : i + 5 ≤ front.length) : getSym (front ++ rest) i = getSym front i := by
  have inFront : ¬front.length ≤ i + 4 := by omega
  have inBoth : ¬(front ++ rest).length ≤ i + 4 := by
    rw [length_append]
    omega
  have same : ((front ++ rest).drop i).take 5 = (front.drop i).take 5 := by
    rw [drop_append_of_le_length (by omega), take_append_of_le_length]
    rw [length_drop]
    omega
  rw [getSym, getSym, if_neg inFront, if_neg inBoth, same]

theorem startAt_append {front : List Bool} (rest : List Bool)
    (inside : i + 20 ≤ front.length) : startAt (front ++ rest) i = startAt front i := by
  have symbols : getSyms (front ++ rest) i = getSyms front i := by
    rw [getSyms, getSyms, getSym_append rest (by omega), getSym_append rest (by omega),
      getSym_append rest (by omega), getSym_append rest (by omega)]
  rw [startAt, startAt, symbols]

theorem getSym_behind (front rest : List Bool) (i : Nat) :
    getSym (front ++ rest) (front.length + i) = getSym rest i := by
  have room : (front ++ rest).length ≤ front.length + i + 4 ↔ rest.length ≤ i + 4 := by
    rw [length_append]
    omega
  rw [getSym, getSym, drop_length_add_append, if_congr room rfl rfl]

theorem startAt_behind (front rest : List Bool) (i : Nat) :
    startAt (front ++ rest) (front.length + i) = startAt rest i := by
  have symbols : getSyms (front ++ rest) (front.length + i) = getSyms rest i := by
    simp only [getSyms, Nat.add_assoc]
    rw [getSym_behind, getSym_behind, getSym_behind, getSym_behind]
  rw [startAt, startAt, symbols]

theorem startAt_alternating (first : Bool) : ∀ i < 45, startAt (preambleBits first) i = none := by
  cases first
  case false => decide +kernel
  case true => decide +kernel

/-- No window that reaches out of the preamble has three symbols of an ordered set. -/
theorem startAt_crossing (first : Bool) (name : PdSop) (starts : name.isReset = false) :
    ∀ i < 20, startAt ((replicate 10 [first, !first]).flatten ++ sopBits name) i = none := by
  cases name
  case cableReset => exact absurd starts (by decide)
  case hardReset => exact absurd starts (by decide)
  all_goals
    cases first
    case false => decide +kernel
    case true => decide +kernel

/-- No window that begins inside the preamble has three symbols of an ordered set, whichever
set follows. -/
theorem startAt_preamble (first : Bool) (name : PdSop) (starts : name.isReset = false) (i : Nat)
    (inside : i < 64) : startAt (preambleBits first ++ sopBits name) i = none := by
  by_cases early : i < 45
  · have fits : i + 20 ≤ (preambleBits first).length := by
      rw [length_preambleBits]
      omega
    rw [startAt_append _ fits]
    exact startAt_alternating first i early
  · obtain ⟨behind, rfl⟩ : ∃ behind, i = 44 + behind := ⟨i - 44, by omega⟩
    have split : preambleBits first = (replicate 22 [first, !first]).flatten ++
        (replicate 10 [first, !first]).flatten := by
      cases first <;> rfl
    have length : (replicate 22 [first, !first]).flatten.length = 44 := by
      cases first <;> rfl
    rw [split, List.append_assoc, ← length, startAt_behind]
    exact startAt_crossing first name starts behind (by omega)

theorem startAt_sop (first : Bool) (name : PdSop) :
    startAt (preambleBits first ++ sopBits name) 64 = some name := by
  have windows : ∀ first : Bool, ∀ name ∈ PdSop.all,
      startAt (preambleBits first ++ sopBits name) 64 = some name := by decide +kernel
  have known : name ∈ PdSop.all := by
    cases name <;> decide
  exact windows first name known

theorem findSome_range {β : Type} {f : Nat → Option β} {count : Nat} (position : Nat) {value : β}
    (inside : position < count) (before : ∀ i < position, f i = none)
    (here : f position = some value) : (range count).findSome? f = some value := by
  obtain ⟨behind, rfl⟩ := Nat.exists_eq_add_of_lt inside
  have nothing : (range position).findSome? f = none := by
    rw [findSome?_eq_none_iff]
    intro i member
    exact before i (mem_range.mp member)
  rw [Nat.add_assoc, range_add, findSome?_append, nothing, Option.none_or,
    range_succ_eq_map, map_cons, findSome?_cons, Nat.add_zero, here]

theorem findStart_front (first : Bool) (name : PdSop) (starts : name.isReset = false)
    (rest : List Bool) :
    findStart (preambleBits first ++ sopBits name ++ rest) = some (64, name) := by
  have length : (preambleBits first ++ sopBits name).length = 84 := by simp
  apply findSome_range 64
  · rw [length_append, length]
    omega
  · intro i inside
    rw [startAt_append rest (by omega), startAt_preamble first name starts i inside]
    rfl
  · rw [startAt_append rest (by omega), startAt_sop]
    rfl

variable {rest : List Bool} {s : PdState} {packet : PdPacket}

theorem scanEop_front {first : Bool} {name : PdSop} (starts : name.isReset = false)
    (bits : s.bits = preambleBits first ++ sopBits name ++ rest)
    (room : 84 < s.edges.length) :
    s.scanEop.1 = some 84 ∧
      s.Advances s.scanEop.2 0 [s.span 0 64 .preamble, s.span 64 84 (.sop name)] ∧
      s.scanEop.2.stored = s.stored := by
  have found : findStart s.bits = some (64, name) := by
    rw [bits]
    exact findStart_front first name starts rest
  have preamble := putx_span s 0 64 .preamble (Or.inl rfl) (by omega) (by omega)
  have symbols := recSyms_advances (s.putx (0 : Nat) (64 : Nat) .preamble) 64
    (getSyms (s.putx (0 : Nat) (64 : Nat) .preamble).bits 64)
  have passed := preamble.trans symbols
  have sop := putx_span ((s.putx (0 : Nat) (64 : Nat) .preamble).recSyms 64
      (getSyms (s.putx (0 : Nat) (64 : Nat) .preamble).bits 64))
    64 84 (.sop name) (Or.inl rfl) (by omega) (by rw [passed.edges]; exact room)
  rw [passed.span] at sop
  unfold scanEop
  rw [found]
  simp only [starts, Bool.false_eq_true, if_false]
  refine ⟨trivial, passed.trans sop, ?_⟩
  rw [putx_stored, recSyms_stored, putx_stored]

def Edged (s : PdState) : Prop :=
  s.edges.length = s.bits.length + 1

theorem Advances.edged {s : PdState} {count : Nat} {anns : List PdAnn}
    (there : s.Advances t count anns) (edged : s.Edged) : t.Edged := by
  rw [Edged, there.edges, there.bits]
  exact edged

theorem putx_behind (count : Nat) (field : PdField)
    (visible : field.row = .phase ∨ field.row = .warnings) (start : Nat)
    (started : start + count = s.idx) (inside : s.idx < s.edges.length) :
    s.Advances (s.putx ((s.idx : Int) - count) s.idx field) 0
      [s.span start (start + count) field] := by
  have first : (s.idx : Int) - count = start := by omega
  rw [first, started]
  exact putx_span s start s.idx field visible (by omega) inside

theorem readHead_half {half : BitVec 16} (edged : s.Edged)
    (ahead : s.bits.drop s.idx = halfBits half ++ rest) (more : rest ≠ []) :
    ({ s with head := half } : PdState).Advances s.readHead 20
        [s.span s.idx (s.idx + 20) (.header half)] ∧
      s.readHead.stored = s.stored := by
  have room := room_of_drop ahead (by simp)
  rw [length_halfBits] at room
  obtain ⟨value, toShort, stored⟩ := getShort_half ahead more
  have read : ({ s with head := half } : PdState).Advances
      ({ s.getShort.2 with head := half } : PdState) 20 [] :=
    { toShort with head := rfl }
  have header := putx_behind (s := { s.getShort.2 with head := half }) 20 (.header half)
    (Or.inl rfl) s.idx read.idx.symm (by
      rw [read.idx, read.edges]
      exact edged ▸ (by omega : s.idx + 20 < s.bits.length + 1))
  rw [read.span] at header
  unfold readHead puthead
  simp only [value]
  refine ⟨(read.trans header).trans (putx_hidden _ _ _ ?_), ?_⟩
  · split <;> simp [PdField.row]
  · rw [putx_stored, putx_stored]
    exact stored

theorem readObject_word {word : BitVec 32}
    (edged : s.Edged) (ahead : s.bits.drop s.idx = wordBits word ++ rest) (more : rest ≠ []) :
    s.Advances (s.readObject i) 40 [s.span s.idx (s.idx + 40) (.data i word)] ∧
      (s.readObject i).stored = (s.numData, Function.update s.data i word) := by
  have room := room_of_drop ahead (by simp)
  rw [length_wordBits] at room
  obtain ⟨value, toWord, stored⟩ := getWord_word ahead more
  have read : s.Advances
      ({ s.getWord.2 with data := Function.update s.getWord.2.data i word } : PdState) 40 [] :=
    { toWord with }
  have data := putx_behind
    (s := { s.getWord.2 with data := Function.update s.getWord.2.data i word }) 40 (.data i word)
    (Or.inl rfl) s.idx read.idx.symm (by
      rw [read.idx, read.edges]
      exact edged ▸ (by omega : s.idx + 40 < s.bits.length + 1))
  rw [read.span] at data
  have sameNum : s.getWord.2.numData = s.numData := congrArg Prod.fst stored
  have sameData : s.getWord.2.data = s.data := congrArg Prod.snd stored
  unfold readObject
  simp only [value]
  refine ⟨read.trans data, ?_⟩
  rw [putx_stored, PdState.stored, sameNum, sameData]

/-- The annotations of objects from index `i` on. -/
def objectAnns (s : PdState) : Nat → Nat → List (BitVec 32) → List PdAnn
  | _, _, [] => []
  | start, i, word :: words =>
      s.span start (start + 40) (.data i word) :: s.objectAnns (start + 40) (i + 1) words

theorem objectAnns_congr {s : PdState} (same : t.span = s.span) (start i : Nat)
    (words : List (BitVec 32)) : t.objectAnns start i words = s.objectAnns start i words := by
  induction words generalizing start i with
  | nil => rfl
  | cons word words ih =>
      rw [objectAnns, objectAnns, ih, same]

def ReadsObject (turn : PdState → Nat → PdState) : Prop :=
  ∀ (s : PdState) (i : Nat) (word : BitVec 32) (rest : List Bool), s.Edged →
    s.bits.drop s.idx = wordBits word ++ rest → rest ≠ [] →
    s.Advances (turn s i) 40 [s.span s.idx (s.idx + 40) (.data i word)] ∧
      (turn s i).stored = (s.numData, Function.update s.data i word)

theorem readsObject_extended : ReadsObject readObject := by
  intro s i word rest edged ahead more
  exact readObject_word edged ahead more

theorem readsObject_plain : ReadsObject fun s i => (s.readObject i).putpayload i := by
  intro s i word rest edged ahead more
  obtain ⟨toObject, stored⟩ := readObject_word (i := i) edged ahead more
  refine ⟨toObject.trans (putx_hidden _ _ _ (by simp [PdField.row])), ?_⟩
  calc ((s.readObject i).putpayload i).stored
      = (s.readObject i).stored := putx_stored _ _ _ _
    _ = _ := stored

theorem range_update (data : Nat → BitVec 32) (i : Nat) (word : BitVec 32) :
    (range (i + 1)).map (Function.update data i word) = (range i).map data ++ [word] := by
  rw [range_succ, map_append, map_singleton, Function.update_self]
  congr 1
  apply map_congr_left
  intro j member
  have below := mem_range.mp member
  rw [Function.update_of_ne (by omega)]

@[simp] theorem length_flatMap_wordBits (words : List (BitVec 32)) :
    (words.flatMap wordBits).length = 40 * words.length := by
  induction words with
  | nil => rfl
  | cons word words ih =>
      rw [flatMap_cons, length_append, ih, length_wordBits, length_cons, Nat.mul_succ, Nat.add_comm]

theorem readLoop_words {turn : PdState → Nat → PdState} (reads : ReadsObject turn)
    (words : List (BitVec 32)) (i : Nat) (edged : s.Edged)
    (ahead : s.bits.drop s.idx = words.flatMap wordBits ++ rest) (more : rest ≠ []) :
    s.Advances (readLoop turn words.length i s) (40 * words.length) (s.objectAnns s.idx i words) ∧
      (readLoop turn words.length i s).numData = s.numData ∧
      (range (i + words.length)).map (readLoop turn words.length i s).data =
        (range i).map s.data ++ words := by
  induction words generalizing i s with
  | nil => exact ⟨Advances.refl s, rfl, (List.append_nil _).symm⟩
  | cons word words ih =>
      rw [flatMap_cons, List.append_assoc] at ahead
      obtain ⟨toObject, stored⟩ := reads s i word _ edged ahead (by simp [more])
      have behind := toObject.ahead ahead (length_wordBits word)
      obtain ⟨onward, sameNum, data⟩ := ih (i + 1) (toObject.edged edged) behind
      have firstNum : (turn s i).numData = s.numData := congrArg Prod.fst stored
      have firstData : (turn s i).data = Function.update s.data i word := congrArg Prod.snd stored
      rw [toObject.idx, objectAnns_congr toObject.span] at onward
      refine ⟨?_, sameNum.trans firstNum, ?_⟩
      · have whole := toObject.trans onward
        have count : 40 + 40 * words.length = 40 * (word :: words).length := by
          rw [length_cons]
          omega
        rw [count] at whole
        exact whole
      · rw [firstData, range_update, List.append_assoc, Nat.add_assoc, Nat.add_comm 1] at data
        exact data

theorem checkCrc_of_getWord {s : PdState} {value : BitVec 32} {count : Nat} {anns : List PdAnn}
    (read : ({ s with numData := s.headCount } : PdState).getWord = (value, t))
    (passed : s.Advances t count anns) (start : Nat) (started : start + 40 = t.idx)
    (inside : t.idx < t.edges.length) :
    s.Advances s.checkCrc count
      (anns ++ ((if value ≠ computeCrc32 t.crcBuf then
          [s.wholePacket (.warning (.badCrc value (computeCrc32 t.crcBuf)))] else []) ++
        [s.span start (start + 40) (.crc value)])) := by
  have warned : t.Advances
      (if value ≠ computeCrc32 t.crcBuf then t.putwarn (.badCrc value (computeCrc32 t.crcBuf))
        else t) 0
      (if value ≠ computeCrc32 t.crcBuf then
        [s.wholePacket (.warning (.badCrc value (computeCrc32 t.crcBuf)))] else []) := by
    split
    · have warning := putwarn_advances t (.badCrc value (computeCrc32 t.crcBuf)) (by omega)
      rw [wholePacket, passed.span, passed.edges] at warning
      exact warning
    · exact Advances.refl t
  have behind := passed.trans warned
  have crc := putx_behind 40 (.crc value) (Or.inl rfl) start (started.trans warned.idx.symm)
    (by rw [warned.idx, warned.edges]; exact inside)
  rw [behind.span] at crc
  unfold checkCrc
  simp only [read]
  have whole := behind.trans crc
  rw [List.append_assoc] at whole
  exact whole

theorem checkEop_symbol (edged : s.Edged) (ahead : s.bits.drop s.idx = symbolBits PdSym.eop) :
    s.Advances s.checkEop 5 [s.span s.idx (s.idx + 5) .eop] := by
  rw [← List.append_nil (symbolBits PdSym.eop)] at ahead
  have room := room_of_drop ahead (by simp)
  rw [length_symbolBits, length_nil, Nat.add_zero] at room
  have known : s.idx + 5 ≤ s.bits.length ∧ getSym s.bits s.idx = PdSym.eop :=
    ⟨room.le, getSym_symbolBits (by decide) ahead⟩
  have eop := putx_span s s.idx (s.idx + 5) .eop (Or.inl rfl) (by omega) (by
    rw [edged]
    omega)
  unfold checkEop
  rw [if_pos known]
  exact { eop with idx := rfl }

theorem finish_advances (s : PdState) : s.Advances s.finish 0 [] := by
  have texted : s.Advances (if s.fulltext then s.putx 0 s.idx .text else s) 0 [] := by
    split
    · exact putx_hidden s _ _ (by simp [PdField.row])
    · exact Advances.refl s
  unfold finish
  generalize (if s.fulltext then s.putx 0 s.idx .text else s) = t at texted
  by_cases twoEdges : 2 ≤ t.edges.length
  · simp only [if_pos twoEdges]
    exact { texted with }
  · simp only [if_neg twoEdges]
    exact texted

structure BehindHeader (packet : PdPacket) (s u : PdState) : Prop where
  bits : u.bits = packet.bits
  edges : u.edges = s.edges
  head : u.head = packet.head
  idx : u.idx = 104
  shown : u.shown = s.shown ++
    [s.span 0 64 .preamble, s.span 64 84 (.sop packet.name), s.span 84 104 (.header packet.head)]

theorem BehindHeader.ahead {s : PdState} (behind : BehindHeader packet s u) :
    u.bits.drop u.idx = packet.objects.flatMap wordBits ++
      (wordBits packet.crc ++ symbolBits PdSym.eop) := by
  have front : packet.front.length = 84 := by simp [PdPacket.front]
  have split : (84 : Nat) + 20 = 104 := rfl
  rw [behind.bits, behind.idx, PdPacket.bits, ← split, ← drop_drop,
    drop_left' front, drop_left' (length_halfBits _)]

theorem BehindHeader.edged {s : PdState} (behind : BehindHeader packet s u)
    (bits : s.bits = packet.bits) (edged : s.Edged) : u.Edged := by
  rw [Edged, behind.edges, behind.bits, ← bits]
  exact edged

theorem BehindHeader.count {s : PdState} (behind : BehindHeader packet s u) :
    u.headCount = packet.objects.length := by
  rw [headCount, behind.head, packet.counted]

theorem eopBits_ne_nil : symbolBits PdSym.eop ≠ [] := by decide

theorem back_ne_nil (front : List Bool) : front ++ symbolBits PdSym.eop ≠ [] :=
  append_ne_nil_of_right_ne_nil front eopBits_ne_nil

theorem enough_bits (packet : PdPacket) : 148 < packet.bits.length := by
  simp only [PdPacket.bits, PdPacket.front, length_append, length_preambleBits,
    length_sopBits, length_halfBits, length_wordBits, length_symbolBits]
  omega

theorem decodePacket_front (bits : s.bits = packet.bits) (edged : s.Edged) :
    ∃ u, BehindHeader packet s u ∧ s.beginPacket.scanEop.1 = some 84 ∧
      s.beginPacket.scanEop.2.readBody 84 = u.readPayload ∧
      s.decodePacket = u.readPayload.checkCrc.checkEop.finish := by
  have enough := enough_bits packet
  rw [← bits] at enough
  have room : s.edges.length = s.bits.length + 1 := edged
  have many : ¬s.edges.length < 50 := by omega
  obtain ⟨found, passed, -⟩ := scanEop_front (s := s.beginPacket) packet.starts bits
    (by
      have same : s.beginPacket.edges = s.edges := rfl
      rw [same]
      omega)
  have decoded : s.decodePacket =
      (s.beginPacket.scanEop.2.readBody 84).checkCrc.checkEop.finish := by
    simp only [decodePacket, if_neg many, found]
  rw [decoded]
  refine ⟨({ s.beginPacket.scanEop.2 with idx := 84 } : PdState).readHead, ?_, found, rfl, rfl⟩
  generalize s.beginPacket.scanEop.2 = opened at passed
  have opening : s.beginPacket.Advances { opened with idx := 84 } 84
      [s.span 0 64 .preamble, s.span 64 84 (.sop packet.name)] :=
    { passed with idx := rfl }
  have front : packet.front.length = 84 := by simp [PdPacket.front]
  have ahead := opening.ahead (bits.trans rfl) front
  obtain ⟨header, -⟩ := readHead_half (opening.edged edged) ahead
    (append_ne_nil_of_right_ne_nil _ (back_ne_nil _))
  rw [opening.span] at header
  refine ⟨?_, ?_, ?_, ?_, ?_⟩
  · exact header.bits.trans (opening.bits.trans bits)
  · exact header.edges.trans opening.edges
  · exact header.head
  · exact header.idx
  · rw [header.shown]
    have shown : ({ opened with idx := 84, head := packet.head } : PdState).shown = opened.shown :=
      rfl
    have before : s.beginPacket.shown = s.shown := rfl
    rw [shown, passed.shown, before, List.append_assoc]
    rfl

/-- Every message without extended header comes back as it was sent, and no warning goes out
with it. -/
theorem decodePacket_roundTrip (packet : PdPacket) (plain : packet.head.getLsbD 15 = false)
    (s : PdState) (bits : s.bits = packet.bits) (edged : s.edges.length = s.bits.length + 1) :
    s.decodePacket.shown = s.shown ++ ([s.span 0 64 .preamble, s.span 64 84 (.sop packet.name),
          s.span 84 104 (.header packet.head)] ++
        s.objectAnns 104 0 packet.objects ++
        [s.span (104 + 40 * packet.objects.length) (144 + 40 * packet.objects.length)
            (.crc packet.crc),
          s.span (144 + 40 * packet.objects.length) (149 + 40 * packet.objects.length) .eop]) := by
  obtain ⟨u, behind, -, -, decoded⟩ := decodePacket_front bits edged
  have notExtended : u.headExt = false := by
    rw [headExt, behind.head, plain]
  have loop : u.readPayload =
      readLoop (fun s i => (s.readObject i).putpayload i) packet.objects.length 0 u := by
    rw [readPayload, notExtended, behind.count]
    rfl
  obtain ⟨objects, -, data⟩ := readLoop_words readsObject_plain packet.objects 0
    (behind.edged bits edged) behind.ahead (back_ne_nil _)
  rw [← loop] at objects data
  have ahead := objects.ahead behind.ahead (length_flatMap_wordBits packet.objects)
  generalize u.readPayload = v at objects data ahead decoded
  have counted : v.headCount = packet.objects.length := by
    rw [headCount, objects.head, ← headCount, behind.count]
  obtain ⟨value, toCrc, stored⟩ :=
    getWord_word (s := { v with numData := v.headCount }) ahead eopBits_ne_nil
  have read : ({ v with numData := v.headCount } : PdState).getWord =
      (packet.crc, ({ v with numData := v.headCount } : PdState).getWord.2) := Prod.ext value rfl
  generalize ({ v with numData := v.headCount } : PdState).getWord.2 = w at toCrc stored read
  have passed : v.Advances w 40 [] :=
    ⟨toCrc.bits, toCrc.edges, toCrc.head, toCrc.idx, toCrc.shown⟩
  have good : computeCrc32 w.crcBuf = packet.crc := by
    have head : w.head = packet.head := passed.head.trans (objects.head.trans behind.head)
    have words : (range w.numData).map w.data = packet.objects := by
      have sameNum : w.numData = packet.objects.length := (congrArg Prod.fst stored).trans counted
      have sameData : w.data = v.data := congrArg Prod.snd stored
      rw [sameNum, sameData]
      simpa using data
    rw [crcBuf, head, words, computeCrc32_eq]
    rfl
  have position : v.idx = 104 + 40 * packet.objects.length := by
    rw [objects.idx, behind.idx]
  have edgedV := objects.edged (behind.edged bits edged)
  have edgedW := passed.edged edgedV
  have last := passed.ahead ahead (length_wordBits packet.crc)
  have checked := checkCrc_of_getWord read passed v.idx passed.idx.symm (by
    rw [edgedW]
    have room := room_of_drop ahead (by simp)
    rw [length_wordBits, length_symbolBits, ← passed.bits] at room
    rw [passed.idx]
    omega)
  rw [good, if_neg (fun different => different rfl)] at checked
  have eop := checkEop_symbol (checked.edged edgedV)
    (checked.ahead ahead (length_wordBits packet.crc))
  have whole := ((objects.trans checked).trans eop).trans (finish_advances _)
  have spanU := span_congr behind.edges
  rw [decoded, whole.shown, behind.shown, objectAnns_congr spanU, behind.idx, checked.span,
    objects.span, spanU, checked.idx, position]
  simp only [List.append_assoc, List.append_nil, nil_append]
  have crcEnd : 104 + 40 * packet.objects.length + 40 = 144 + 40 * packet.objects.length := by
    omega
  have eopEnd : 144 + 40 * packet.objects.length + 5 = 149 + 40 * packet.objects.length := by
    omega
  rw [crcEnd, eopEnd]
  rfl

def received (packet : PdPacket) : PdState :=
  { reset 30 15 false with
    bits := packet.bits
    edges := List.range (packet.bits.length + 1) }

theorem received_edged (packet : PdPacket) :
    (received packet).edges.length = (received packet).bits.length + 1 :=
  length_range

def request : PdPacket :=
  { firstBit := false
    name := .sop
    head := 0x1082#16
    objects := [0x1304B12C#32]
    starts := isReset_sop
    counted := rfl }

theorem decodePacket_roundTrip_request : (received request).decodePacket.shown =
      [⟨0, 64, .preamble⟩, ⟨64, 84, .sop .sop⟩, ⟨84, 104, .header 0x1082#16⟩,
        ⟨104, 144, .data 0 0x1304B12C#32⟩, ⟨144, 184, .crc request.crc⟩, ⟨184, 189, .eop⟩] :=
  (decodePacket_roundTrip request rfl (received request) rfl (received_edged request)).trans
    (by decide +kernel)

end PdState

end SigrokDecode
