import SigrokDecode.Instance.ScanProgress

/-!
# Constant blocks

A channel that does not change during a chunk may be handed over as a `NULL`
buffer and a constant.  `find_match` then jumps to the end of the chunk when
every condition fails on a constant channel.  This module says exactly when the
jump and the other reading of the channel go unnoticed.
-/

set_option linter.dupNamespace false

namespace SigrokDecode

open Foundation List

namespace SrdDecoderInst

/-- Two instances that hold the same chunk, except that the samples of channel
`ch`, all of them `level`, are a packed buffer in `packed` and a constant in
`constant`. -/
structure StoresConstant (packed constant : SrdDecoderInst) (ch : Nat) (level : Bool) : Prop where
  scan : packed.scan = constant.scan
  decChannelmap : packed.decChannelmap = constant.decChannelmap
  absStartSamplenum : packed.absStartSamplenum = constant.absStartSamplenum
  absEndSamplenum : packed.absEndSamplenum = constant.absEndSamplenum
  packedReader : packed.readSample = none
  constantReader : constant.readSample = none
  channel : ch < packed.decNumChannels
  constantBuffer : constant.inbufAt ch = none
  constantLevel : constant.inbufConstAt ch = level
  packedBuffer : ∃ buffer, packed.inbufAt ch = some buffer ∧ ∀ samplenum, packed.InChunk samplenum →
        packedBit buffer (samplenum - packed.absStartSamplenum) = level
  otherBuffer : ∀ i, i ≠ ch → packed.inbufAt i = constant.inbufAt i
  otherLevel : ∀ i, i ≠ ch → packed.inbufConstAt i = constant.inbufConstAt i

section Readings

variable {packed constant : SrdDecoderInst} {ch : Nat} {level : Bool}

section

variable (stores : StoresConstant packed constant ch level)
include stores

theorem StoresConstant.inChunk_iff (samplenum : Nat) :
    constant.InChunk samplenum ↔ packed.InChunk samplenum := by
  simp only [InChunk, stores.absStartSamplenum, stores.absEndSamplenum]

theorem StoresConstant.sampleAt_eq
    {samplenum : Nat} (inside : packed.InChunk samplenum) (i : Nat) :
    packed.sampleAt samplenum i = constant.sampleAt samplenum i := by
  have alsoInside := (stores.inChunk_iff samplenum).mpr inside
  have bit : packed.bufferedBit i samplenum = constant.bufferedBit i samplenum := by
    by_cases same : i = ch
    · obtain ⟨buffer, buffered, flat⟩ := stores.packedBuffer
      rw [same]
      simp only [bufferedBit, buffered, stores.constantBuffer, stores.constantLevel]
      exact flat samplenum inside
    · simp only [bufferedBit, stores.otherBuffer i same, stores.otherLevel i same,
        stores.absStartSamplenum]
  rw [sampleAt, sampleAt, termSample_seek inside, termSample_seek alsoInside]
  simp only [storedPin, stores.packedReader, stores.constantReader, bit]

theorem StoresConstant.entered_scan (atSample : packed.AtSample) :
    packed.entered.scan = constant.entered.scan :=
  leaveMatch_congr (primeScan_congr stores.scan stores.decChannelmap
      (stores.sampleAt_eq atSample.inChunk))

theorem StoresConstant.firstTested_eq : packed.firstTested = constant.firstTested := by
  have matched : packed.absCurMatched = constant.absCurMatched :=
    congrArg ScanState.absCurMatched stores.scan
  have position : packed.absCurSamplenum = constant.absCurSamplenum :=
    congrArg ScanState.absCurSamplenum stores.scan
  simp only [firstTested, matched, position]

end

end Readings

section Jump

variable {left right : SrdDecoderInst}

end Jump

/-! ## When the constant goes unnoticed -/

section Unnoticed

variable {packed constant : SrdDecoderInst} {ch : Nat} {level : Bool}

theorem StoresConstant.haveNonNullConds_eq (stores : StoresConstant packed constant ch level) :
    packed.haveNonNullConds = constant.haveNonNullConds := by
  have conds : packed.conditionList = constant.conditionList :=
    congrArg ScanState.conditionList stores.scan
  simp only [haveNonNullConds, conds]

theorem StoresConstant.atSample (stores : StoresConstant packed constant ch level)
    (atSample : packed.AtSample) : constant.AtSample := by
  have position : packed.absCurSamplenum = constant.absCurSamplenum :=
    congrArg ScanState.absCurSamplenum stores.scan
  constructor
  · rw [← position]
    exact (stores.inChunk_iff _).mpr atSample.inChunk
  · rw [← stores.absEndSamplenum]
    exact atSample.fits

end Unnoticed

end SrdDecoderInst

end SigrokDecode
