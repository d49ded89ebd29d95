import SigrokDecode.Decoders.UsbPdRoundTrip

/-!
# Extended messages of USB Power Delivery

Behind an extended header `decode_packet` reads as many whole words as the header
counts, although the first of the objects began with the extended header.  The words
straddle the objects, and the last one and the check are cut at the end of the packet.
-/

namespace SigrokDecode

open Foundation List

def joinHalves (low high : BitVec 16) : BitVec 32 :=
  low.setWidth 32 ||| high.setWidth 32 <<< 16

theorem lowHalf_joinHalves (low high : BitVec 16) : lowHalf (joinHalves low high) = low := by
  apply BitVec.eq_of_getLsbD_eq
  intro index inside
  simp [lowHalf, joinHalves, inside]

theorem highHalf_joinHalves (low high : BitVec 16) : highHalf (joinHalves low high) = high := by
  apply BitVec.eq_of_getLsbD_eq
  intro index inside
  have wide : index < 32 := by omega
  have upper : 16 + index < 32 := by omega
  simp [highHalf, joinHalves, inside, wide, upper]

theorem wordBits_joinHalves (low high : BitVec 16) :
    wordBits (joinHalves low high) = halfBits low ++ halfBits high := by
  rw [wordBits, lowHalf_joinHalves, highHalf_joinHalves]

/-- The words between the first half of the first object and the first half of `last`. -/
def straddling (last : BitVec 32) : List (BitVec 32) → List (BitVec 32)
  | [] => []
  | [word] => [joinHalves (highHalf word) (lowHalf last)]
  | word :: next :: words =>
      joinHalves (highHalf word) (lowHalf next) :: straddling last (next :: words)

theorem length_straddling (last : BitVec 32) (words : List (BitVec 32)) :
    (straddling last words).length = words.length := by
  fun_induction straddling last words with
  | case1 => rfl
  | case2 word => rfl
  | case3 word next words ih =>
      rw [length_cons, ih]
      simp

theorem straddling_bits (last : BitVec 32) (words : List (BitVec 32)) (some : words ≠ []) :
    halfBits (lowHalf (words.headD 0)) ++ (straddling last words).flatMap wordBits =
      words.flatMap wordBits ++ halfBits (lowHalf last) := by
  fun_induction straddling last words with
  | case1 => exact absurd rfl some
  | case2 word =>
      simp only [headD_cons, flatMap_cons, flatMap_nil, List.append_nil, wordBits_joinHalves]
      rw [wordBits, List.append_assoc]
  | case3 word next words ih =>
      have rest := ih (cons_ne_nil next words)
      rw [headD_cons] at rest
      rw [headD_cons, flatMap_cons, wordBits_joinHalves, List.append_assoc, rest]
      simp only [flatMap_cons, wordBits, List.append_assoc]

namespace PdPacket

variable (packet : PdPacket)

def extHead : BitVec 16 :=
  lowHalf (packet.objects.headD 0)

/-- What `decode_packet` takes for the objects. -/
def misread : List (BitVec 32) :=
  straddling packet.crc packet.objects

end PdPacket

namespace PdState

variable {s : PdState}

theorem readExtHead_half {half : BitVec 16} {rest : List Bool} (edged : s.Edged)
    (ahead : s.bits.drop s.idx = halfBits half ++ rest) (more : rest ≠ []) :
    s.Advances s.readExtHead 20 [s.span s.idx (s.idx + 20) (.extHeader half)] := by
  have room := room_of_drop ahead (by simp)
  rw [length_halfBits] at room
  obtain ⟨value, toShort, -⟩ := getShort_half ahead more
  unfold readExtHead
  simp only [value]
  generalize s.getShort.2 = t at toShort
  generalize fields : ({ t with
    extHead := half
    chunked := (half >>> 15 &&& 0x01#16).toNat
    chunkNum := (half >>> 11 &&& 0x0F#16).toNat
    reqChunk := (half >>> 10 &&& 0x01#16).toNat
    dataSize := (half &&& 0x01FF#16).toNat } : PdState) = u
  have read : s.Advances u 20 [] := by
    rw [← fields]
    exact { toShort with }
  have idx : u.idx = t.idx := by rw [← fields]
  have header := putx_behind (s := u) 20 (.extHeader half) (Or.inl rfl) s.idx read.idx.symm (by
    rw [read.idx, read.edges]
    exact edged ▸ (by omega : s.idx + 20 < s.bits.length + 1))
  rw [read.span, idx] at header
  exact (read.trans header).trans (putx_hidden _ _ _ (by simp [PdField.row]))

/-- In front of the check the words have taken half a word more than the objects have. -/
theorem readPayload_extended {packet : PdPacket} (extended : packet.head.getLsbD 15 = true)
    (some : packet.objects ≠ []) {u : PdState} (bits : s.bits = packet.bits)
    (edged : s.Edged) (behind : BehindHeader packet s u) :
    u.Advances u.readPayload (20 + 40 * packet.objects.length)
        (s.span 104 124 (.extHeader packet.extHead) :: s.objectAnns 124 0 packet.misread) ∧
      (range packet.objects.length).map u.readPayload.data = packet.misread ∧
      u.readPayload.bits.drop u.readPayload.idx =
        halfBits (highHalf packet.crc) ++ symbolBits PdSym.eop := by
  have isExtended : u.headExt = true := by rw [headExt, behind.head, extended]
  have length : packet.misread.length = packet.objects.length :=
    length_straddling packet.crc packet.objects
  have stream : u.bits.drop u.idx = halfBits packet.extHead ++ (packet.misread.flatMap wordBits ++
        (halfBits (highHalf packet.crc) ++ symbolBits PdSym.eop)) := by
    have halves := straddling_bits packet.crc packet.objects some
    rw [behind.ahead, PdPacket.extHead, PdPacket.misread, ← List.append_assoc (halfBits _), halves,
      wordBits]
    simp only [List.append_assoc]
  have edgedU := behind.edged bits edged
  have header := readExtHead_half edgedU stream (append_ne_nil_of_right_ne_nil _ (back_ne_nil _))
  have loop : u.readPayload = readLoop readObject packet.misread.length 0 u.readExtHead := by
    have counted : u.readExtHead.headCount = packet.misread.length := by
      rw [headCount, header.head, ← headCount, behind.count, length]
    simp only [readPayload, isExtended, if_true, counted]
  obtain ⟨words, -, data⟩ := readLoop_words readsObject_extended packet.misread 0
    (header.edged edgedU) (header.ahead stream (length_halfBits _)) (back_ne_nil _)
  have behindWords := words.ahead (header.ahead stream (length_halfBits _))
    (length_flatMap_wordBits _)
  rw [← loop] at words data behindWords
  have whole := header.trans words
  have spanU := span_congr behind.edges
  rw [objectAnns_congr header.span, objectAnns_congr spanU, spanU, header.idx, behind.idx,
    length] at whole
  rw [length, Nat.zero_add] at data
  exact ⟨whole, data, behindWords⟩

/-- An extended message decoded as it was sent: the header and all objects are read and
checked before the transmitted check, and the end is found. -/
structure DecodesAsSent (s : PdState) (packet : PdPacket) : Prop where
  consumed : (s.beginPacket.scanEop.2.readBody 84).idx = 84 + (20 + 40 * packet.objects.length)
  covered : ({ s.beginPacket.scanEop.2.readBody 84 with
    numData := packet.objects.length } : PdState).crcBuf = packet.bytes
  good : s.span (104 + 40 * packet.objects.length) (144 + 40 * packet.objects.length)
    (.crc packet.crc) ∈ s.decodePacket.shown
  unwarned : ∀ computed,
    s.wholePacket (.warning (.badCrc packet.crc computed)) ∉ s.decodePacket.shown
  ended : s.span (144 + 40 * packet.objects.length) (149 + 40 * packet.objects.length) .eop ∈
    s.decodePacket.shown

theorem readBody_extended_idx (packet : PdPacket)
    (extended : packet.head.getLsbD 15 = true) (some : packet.objects ≠ [])
    (bits : s.bits = packet.bits) (edged : s.edges.length = s.bits.length + 1) :
    (s.beginPacket.scanEop.2.readBody 84).idx ≠ 84 + (20 + 40 * packet.objects.length) := by
  obtain ⟨u, behind, -, body, -⟩ := decodePacket_front bits edged
  obtain ⟨payload, -, -⟩ := readPayload_extended extended some bits edged behind
  rw [body, payload.idx, behind.idx]
  omega

theorem decodePacket_extended_misread (packet : PdPacket)
    (extended : packet.head.getLsbD 15 = true) (some : packet.objects ≠ []) (s : PdState)
    (bits : s.bits = packet.bits) (edged : s.edges.length = s.bits.length + 1) :
    ¬s.DecodesAsSent packet :=
  fun asSent => readBody_extended_idx packet extended some bits edged asSent.consumed

/-- A `Status` message of two data bytes in one chunk. -/
def status : PdPacket :=
  { firstBit := false
    name := .sop
    head := 0x9082#16
    objects := [0x12348002#32]
    starts := isReset_sop
    counted := rfl }

theorem decodePacket_extended_misread_status : ¬(received status).DecodesAsSent status :=
  decodePacket_extended_misread status rfl (cons_ne_nil _ _) (received status) rfl
    (received_edged status)

/-- The upper half of the object and the lower half of the check count as the object, and the
end of the packet as the upper half of the check. -/
theorem decodePacket_status : (received status).decodePacket.shown =
        [⟨0, 64, .preamble⟩, ⟨64, 84, .sop .sop⟩, ⟨84, 104, .header 0x9082#16⟩,
          ⟨104, 124, .extHeader 0x8002#16⟩, ⟨124, 164, .data 0 0x62D41234#32⟩,
          ⟨0, 189, .warning .truncated⟩,
          ⟨0, 189, .warning (.badCrc 0x0BAD3013#32 0x15BF2BE7#32)⟩,
          ⟨144, 184, .crc 0x0BAD3013#32⟩, ⟨184, 189, .eop⟩] ∧
      ¬(received status).DecodesAsSent status := by
  refine ⟨by decide +kernel, fun asSent => ?_⟩
  exact readBody_extended_idx status rfl (cons_ne_nil _ _) rfl
    (received_edged status) asSent.consumed

end PdState

end SigrokDecode
