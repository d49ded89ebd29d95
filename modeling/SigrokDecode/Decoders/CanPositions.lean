import SigrokDecode.Decoders.Can
import SigrokDecode.Decoders.CanSteps

/-!
# The steps of `can_c`, position by position
-/

namespace SigrokDecode

open Foundation

/-! ## The bits behind the identifier -/

namespace CanState

section Typed

variable (s : CanState) (canRx : Bool) (samplenum : Nat) {bitnum : Nat}

theorem decodeRest_header (header : bitnum ≤ s.dlcStart + 3)
    (inside : bitnum ≤ s.lastDatabit) (notLast : s.dlc = 0 ∨ bitnum ≠ s.lastDatabit) :
    s.decodeRest canRx bitnum samplenum = (s, false) := by
  have outside := dataField_outside s samplenum 64 8 (Or.inl header) notLast
  simp only [decodeRest, decodeDataField, outside]
  rw [if_neg (by omega)]

theorem correctDlc_valid (reports : Bool) (small : s.dlc ≤ 8)
    (data : s.dlc ≠ 0 → s.rtrType = false) : s.correctDlc samplenum reports = s := by
  have noRemote : ¬ (s.dlc ≠ 0 ∧ s.rtrType = true) := by
    rintro ⟨some, remote⟩
    rw [data some] at remote
    exact Bool.false_ne_true remote
  rw [correctDlc, if_neg noRemote, if_neg (Nat.not_lt.mpr small)]

theorem dlcLast_valid (reports : Bool) (last : bitnum = s.dlcStart + 3)
    (small : s.readDlc ≤ 8) (data : s.readDlc ≠ 0 → s.rtrType = false) :
    s.dlcLast bitnum samplenum reports =
      { s.putDlc samplenum with lastDatabit := s.dlcStart + 3 + 8 * s.readDlc } := by
  have valid := correctDlc_valid (s.putDlc samplenum) samplenum reports small data
  have length : (s.putDlc samplenum).dlcStart + 3 + dlc2len (s.putDlc samplenum).dlc * 8 =
      s.dlcStart + 3 + 8 * s.readDlc := by
    have digits : dlc2len s.readDlc * 8 = 8 * s.readDlc := by rw [dlc2len_small small, Nat.mul_comm]
    exact congrArg (fun bits => s.dlcStart + 3 + bits) digits
  rw [dlcLast, if_pos last]
  simp only [valid, length]

theorem dlcLast_other (reports : Bool) (other : bitnum ≠ s.dlcStart + 3) :
    s.dlcLast bitnum samplenum reports = s :=
  if_neg other

theorem dlcFirst_other (other : bitnum ≠ s.dlcStart) : s.dlcFirst bitnum samplenum = s :=
  if_neg other

theorem control_open (reports : Bool) (inner : bitnum < s.dlcStart + 3)
    (early : s.lastDatabit = 999) (header : bitnum < 999) :
    ((s.dlcFirst bitnum samplenum).dlcLast bitnum samplenum reports).decodeRest canRx
        bitnum samplenum = (s.dlcFirst bitnum samplenum, false) := by
  have kept : (s.dlcFirst bitnum samplenum).dlcStart = s.dlcStart ∧
      (s.dlcFirst bitnum samplenum).lastDatabit = 999 := by
    simp only [dlcFirst]
    split
    · exact ⟨rfl, early⟩
    · exact ⟨rfl, early⟩
  rw [dlcLast_other _ _ _ (by omega),
    decodeRest_header _ _ _ (by omega) (by omega) (Or.inr (by omega))]

theorem control_read (reports : Bool) (last : bitnum = s.dlcStart + 3)
    (small : s.readDlc ≤ 8) (data : s.readDlc ≠ 0 → s.rtrType = false) :
    ((s.dlcFirst bitnum samplenum).dlcLast bitnum samplenum reports).decodeRest canRx
        bitnum samplenum =
      ({ s.putDlc samplenum with lastDatabit := s.dlcStart + 3 + 8 * s.readDlc },
        false) := by
  rw [dlcFirst_other _ _ (by omega), dlcLast_valid _ _ _ last small data]
  refine decodeRest_header _ _ _ (Nat.le_of_eq last) ?_ ?_
  · rw [last]
    exact Nat.le_add_right _ _
  · rcases Nat.eq_zero_or_pos s.readDlc with zero | positive
    · exact Or.inl zero
    · refine Or.inr ?_
      simp only
      omega

def extendedControl (bitnum : Nat) : CanState :=
  let s := s.extendedStart bitnum samplenum
  let s := s.extendedIdent bitnum samplenum
  let s := s.extendedRtr canRx bitnum samplenum
  let s := s.flagBit canRx bitnum samplenum 33 .reserved1
  s.flagBit canRx bitnum samplenum 34 .reserved0

theorem standardControl_start : s.standardControl canRx 14 samplenum =
      { (s.putx samplenum (.reservedBit .reserved0 canRx)).putg s.ssBit12 s.ssBit12
          (.rtr (s.bits.getD 12 false)) with
        rtrType := s.bits.getD 12 false
        dlcStart := 15 } :=
  rfl

theorem standardControl_other (other : bitnum ≠ 14) :
    s.standardControl canRx bitnum samplenum = s :=
  if_neg other

theorem extendedControl_ident (early : bitnum < 32) : s.extendedControl canRx samplenum bitnum =
      (s.extendedStart bitnum samplenum).extendedIdent bitnum samplenum := by
  have no32 : bitnum ≠ 32 := by omega
  have no33 : bitnum ≠ 33 := by omega
  have no34 : bitnum ≠ 34 := by omega
  simp [extendedControl, extendedRtr, flagBit, no32, no33, no34]

theorem extendedControl_rtr : s.extendedControl canRx samplenum 32 =
      { { s with ssBit32 := samplenum }.putx samplenum (.rtr canRx) with
        rtrType := canRx } :=
  rfl

theorem extendedControl_reserved1 : s.extendedControl canRx samplenum 33 =
      s.putx samplenum (.reservedBit .reserved1 canRx) :=
  rfl

theorem extendedControl_reserved0 : s.extendedControl canRx samplenum 34 =
      s.putx samplenum (.reservedBit .reserved0 canRx) :=
  rfl

theorem extendedControl_other (other : 34 < bitnum) :
    s.extendedControl canRx samplenum bitnum = s := by
  have no14 : bitnum ≠ 14 := by omega
  have no31 : bitnum ≠ 31 := by omega
  have no32 : bitnum ≠ 32 := by omega
  have no33 : bitnum ≠ 33 := by omega
  have no34 : bitnum ≠ 34 := by omega
  simp [extendedControl, extendedStart, extendedIdent, extendedRtr, flagBit, no14, no31,
    no32, no33, no34]

theorem control_over (reports : Bool) (beyond : s.dlcStart + 3 < bitnum) :
    ((s.dlcFirst bitnum samplenum).dlcLast bitnum samplenum reports).decodeRest canRx
        bitnum samplenum = s.decodeRest canRx bitnum samplenum := by
  rw [dlcFirst_other _ _ (by omega), dlcLast_other _ _ _ (by omega)]

theorem decodeTyped_standard (type : s.frameType = some .standard) :
    s.decodeTyped canRx bitnum samplenum =
      (((s.standardControl canRx bitnum samplenum).dlcFirst bitnum samplenum).dlcLast bitnum samplenum
        true).decodeRest canRx bitnum samplenum := by
  rw [decodeTyped, type]
  rfl

theorem decodeTyped_extended (type : s.frameType = some .extended) :
    s.decodeTyped canRx bitnum samplenum =
      (((s.extendedControl canRx samplenum bitnum).dlcFirst bitnum samplenum).dlcLast bitnum samplenum
        false).decodeRest canRx bitnum samplenum := by
  rw [decodeTyped, type]
  rfl

section End

variable {canRx}

theorem decodeFrameEnd_start : s.decodeFrameEnd canRx (s.lastDatabit + 1) samplenum =
      ({ s with ssBlock := samplenum, crcLen := 15 }, false) := by
  simp [decodeFrameEnd, crcStart, crcSequence, crcDelimiter, ackSlot, ackDelimiter, eofStart]

section

variable (length : s.crcLen = 15)
include length

theorem decodeFrameEnd_crc (read : s.lastDatabit + 16 ≤ s.bits.length) :
    s.decodeFrameEnd canRx (s.lastDatabit + 15) samplenum =
      let crc := bitpackMsb s.bits (s.lastDatabit + 1) 15
      ({ s with crc }.putb samplenum (.crcSequence 15 crc), false) := by
  have room : s.lastDatabit + 1 + 15 ≤ s.bits.length := read
  simp [decodeFrameEnd, crcStart, crcSequence, crcDelimiter, ackSlot, ackDelimiter,
    eofStart, putb, putg, length, room]

theorem decodeFrameEnd_delimiter : s.decodeFrameEnd true (s.lastDatabit + 16) samplenum =
      (s.putx samplenum (.crcDelimiter true), false) := by
  simp [decodeFrameEnd, crcStart, crcSequence, crcDelimiter, ackSlot, ackDelimiter,
    eofStart, putx, putg, length]

theorem decodeFrameEnd_ackSlot : s.decodeFrameEnd canRx (s.lastDatabit + 17) samplenum =
      (s.putx samplenum (.ackSlot canRx), false) := by
  simp [decodeFrameEnd, crcStart, crcSequence, crcDelimiter, ackSlot, ackDelimiter,
    eofStart, putx, putg, length]

theorem decodeFrameEnd_ackDelimiter : s.decodeFrameEnd true (s.lastDatabit + 18) samplenum =
      (s.putx samplenum (.ackDelimiter true), false) := by
  simp [decodeFrameEnd, crcStart, crcSequence, crcDelimiter, ackSlot, ackDelimiter,
    eofStart, putx, putg, length]

theorem decodeFrameEnd_eof : s.decodeFrameEnd canRx (s.lastDatabit + 19) samplenum =
      ({ s with ssBlock := samplenum }, false) := by
  simp [decodeFrameEnd, crcStart, crcSequence, crcDelimiter, ackSlot, ackDelimiter,
    eofStart, length]

theorem decodeFrameEnd_last : s.decodeFrameEnd canRx (s.lastDatabit + 25) samplenum =
      ((s.endOfFrame samplenum).resetVariables, true) := by
  simp [decodeFrameEnd, crcStart, crcSequence, crcDelimiter, ackSlot, ackDelimiter,
    eofStart, length]

theorem decodeFrameEnd_other {distance : Nat}
    (other : 1 < distance ∧ distance < 15 ∨ 19 < distance ∧ distance < 25) :
    s.decodeFrameEnd canRx (s.lastDatabit + distance) samplenum = (s, false) := by
  have no1 : distance ≠ 1 := by omega
  have no15 : distance ≠ 15 := by omega
  have no16 : distance ≠ 16 := by omega
  have no17 : distance ≠ 17 := by omega
  have no18 : distance ≠ 18 := by omega
  have no19 : distance ≠ 19 := by omega
  have no25 : distance ≠ 25 := by omega
  simp [decodeFrameEnd, crcStart, crcSequence, crcDelimiter, ackSlot, ackDelimiter,
    eofStart, length, Nat.add_assoc, no1, no15, no16, no17, no18, no19, no25]

end

end End

theorem decodeRest_over (beyond : s.lastDatabit < bitnum) :
    s.decodeRest canRx bitnum samplenum = s.decodeFrameEnd canRx bitnum samplenum := by
  have outside := dataField_outside s samplenum 64 8 (Or.inr beyond) (Or.inr (by omega))
  rw [decodeRest, decodeDataField, outside]
  exact if_pos beyond

variable (bitnum)

theorem kept_decodeFrameEnd (going : (s.decodeFrameEnd canRx bitnum samplenum).2 = false) :
    Kept s (s.decodeFrameEnd canRx bitnum samplenum).1 := by
  have start : ∀ t : CanState, Kept t (t.crcStart bitnum samplenum) :=
    fun t => .ite ⟨rfl, rfl, rfl, rfl, rfl⟩ (.refl t)
  have sequence : ∀ t : CanState, Kept t (t.crcSequence bitnum samplenum) := by
    intro t
    have update : ∀ crc, Kept t { t with crc } := fun crc => ⟨rfl, rfl, rfl, rfl, rfl⟩
    exact .ite ((update _).putg _ _ rfl) (.refl t)
  have delimiter : ∀ t : CanState, Kept t (t.crcDelimiter canRx bitnum samplenum) := by
    intro t
    have put : Kept t (t.putx samplenum (.crcDelimiter canRx)) := (Kept.refl t).putg _ _ rfl
    exact .ite (.ite (put.putg _ _ rfl) put) (.refl t)
  have slot : ∀ t : CanState, Kept t (t.ackSlot canRx bitnum samplenum) :=
    fun t => .ite ((Kept.refl t).putg _ _ rfl) (.refl t)
  have ack : ∀ t : CanState, Kept t (t.ackDelimiter canRx bitnum samplenum) := by
    intro t
    have put : Kept t (t.putx samplenum (.ackDelimiter canRx)) := (Kept.refl t).putg _ _ rfl
    exact .ite (.ite (put.putg _ _ rfl) put) (.refl t)
  have eof : ∀ t : CanState, Kept t (t.eofStart bitnum samplenum) :=
    fun t => .ite ⟨rfl, rfl, rfl, rfl, rfl⟩ (.refl t)
  have all := (((((start s).trans (sequence _)).trans (delimiter _)).trans (slot _)).trans
    (ack _)).trans (eof _)
  simp only [decodeFrameEnd] at going ⊢
  split at going
  · exact absurd going (by simp)
  · rename_i inner
    rw [if_neg inner]
    exact all

theorem kept_decodeRest (going : (s.decodeRest canRx bitnum samplenum).2 = false) :
    Kept s (s.decodeRest canRx bitnum samplenum).1 := by
  have field : Kept s (s.decodeDataField bitnum samplenum) := kept_dataField s bitnum samplenum 64 8
  simp only [decodeRest] at going ⊢
  by_cases beyond : bitnum > (s.decodeDataField bitnum samplenum).lastDatabit
  · rw [if_pos beyond] at going ⊢
    exact field.trans (kept_decodeFrameEnd _ _ _ _ going)
  · rw [if_neg beyond]
    exact field

theorem kept_dlcLast (reports : Bool) : Kept s (s.dlcLast bitnum samplenum reports) := by
  have correct : ∀ t : CanState, Kept t (t.correctDlc samplenum reports) := by
    intro t
    have warned : ∀ warning, Kept t
        (if reports then t.putb samplenum (.warning warning) else t) :=
      fun warning => .ite ((Kept.refl t).putg _ _ rfl) (.refl t)
    exact .ite ((warned _).trans ⟨rfl, rfl, rfl, rfl, rfl⟩)
      (.ite ((warned _).trans ⟨rfl, rfl, rfl, rfl, rfl⟩) (.refl t))
  have all := (kept_putDlc s samplenum).trans (correct _)
  exact .ite (all.trans ⟨rfl, rfl, rfl, rfl, rfl⟩) (.refl s)

theorem kept_decodeTyped (going : (s.decodeTyped canRx bitnum samplenum).2 = false) :
    Kept s (s.decodeTyped canRx bitnum samplenum).1 := by
  cases type : s.frameType with
  | none =>
      rw [decodeTyped, type]
      exact .refl s
  | some frameType =>
      cases frameType with
      | standard =>
          rw [decodeTyped_standard s _ _ type] at going ⊢
          have control : Kept s (s.standardControl canRx bitnum samplenum) := by
            have reserved : Kept s (s.putx samplenum (.reservedBit .reserved0 canRx)) :=
              (Kept.refl s).putg _ _ rfl
            have put : Kept s ((s.putx samplenum (.reservedBit .reserved0 canRx)).putg
                s.ssBit12 s.ssBit12 (.rtr (s.bits.getD 12 false))) :=
              reserved.putg _ _ rfl
            exact .ite (put.trans ⟨rfl, rfl, rfl, rfl, rfl⟩) (.refl s)
          exact ((control.trans (kept_dlcFirst _ _ _)).trans
            (kept_dlcLast _ _ _ _)).trans (kept_decodeRest _ _ _ _ going)
      | extended =>
          rw [decodeTyped_extended s _ _ type] at going ⊢
          have rtr : ∀ t : CanState, Kept t (t.extendedRtr canRx bitnum samplenum) := by
            intro t
            have update : Kept t { t with ssBit32 := samplenum } := ⟨rfl, rfl, rfl, rfl, rfl⟩
            have put : Kept t ({ t with ssBit32 := samplenum }.putx samplenum (.rtr canRx)) :=
              update.putg _ _ rfl
            exact .ite (put.trans ⟨rfl, rfl, rfl, rfl, rfl⟩) (.refl t)
          have control : Kept s (s.extendedControl canRx samplenum bitnum) :=
            ((((kept_extendedStart s _ _).trans (kept_extendedIdent _ _ _)).trans
              (rtr _)).trans (kept_flagBit _ _ _ _ _ _)).trans (kept_flagBit _ _ _ _ _ _)
          exact ((control.trans (kept_dlcFirst _ _ _)).trans
            (kept_dlcLast _ _ _ _)).trans (kept_decodeRest _ _ _ _ going)

end Typed

end CanState

end SigrokDecode
