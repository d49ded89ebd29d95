import SigrokDecode.Instance.Pins

/-!
# Do all readers see the same pin?

A chunk stores a channel as a packed buffer, as a constant (a `NULL` buffer)
or behind the `read_sample` callback.  This module says what each reader of
`SigrokDecode.Instance.Pins` returns in each of the three modes, and derives
exactly when they agree.
-/

set_option linter.dupNamespace false

namespace SigrokDecode

open Foundation

namespace SrdDecoderInst

/-- The instance holds a chunk that the worker may still read. -/
structure HoldsChunk (di : SrdDecoderInst) : Prop where
  gotNewSamples : di.gotNewSamples = true
  notTerminating : di.wantWaitTerminate = false

def bufferedBit (di : SrdDecoderInst) (ch samplenum : Nat) : Bool :=
  match di.inbufAt ch with
  | none => di.inbufConstAt ch
  | some buffer => packedBit buffer (samplenum - di.absStartSamplenum)

def storedPin (di : SrdDecoderInst) (ch samplenum : Nat) : UInt8 :=
  match di.readSample with
  | some readSample => readSample ch samplenum
  | none => bitByte (di.bufferedBit ch samplenum)

/-- Every reader returns `value` for the sample `samplenum` of channel `ch`:
the matcher, the old pin arrays, the pin cache filled by a match at that sample
with its two users, `c_decoder_get_pin_impl` without a matching cache entry,
the Python tuple, and every packed block that covers the sample. -/
structure ReadersSee (di : SrdDecoderInst) (ch samplenum : Nat) (value : UInt8) : Prop where
  matcher : (di.seek samplenum).termSample ch = some value
  oldPins : (di.seek samplenum).updateOldPinsArray.oldPin ch = value
  initialPins : di.oldpinsArraySeed.oldPin ch = srdInitialPinSameAsSample0 →
      (di.seek samplenum).updateOldPinsArrayInitialPins.oldPin ch = value
  cachedGetPin : (di.seek samplenum).fillPinCache.cDecoderGetPinImpl ch samplenum = value
  cachedPin : (di.seek samplenum).fillPinCache.cPin ch = value
  uncachedGetPin : ∀ cache cacheSamplenum, cache = none ∨ samplenum ≠ cacheSamplenum →
        { di with
            cPinCache := cache
            cPinCacheSamplenum := cacheSamplenum }.cDecoderGetPinImpl
          ch samplenum = value
  pyPin : (di.seek samplenum).getCurrentPinvalues.getD ch 0 = value
  fetched : ∀ cur channels index maxSamples block after,
      di.absStartSamplenum ≤ cur → cur ≤ samplenum →
      channels[index]? = some ch →
      (di.seek cur).cFetchPackedMulti channels maxSamples = some (some block, after) →
      samplenum < block.startSample + block.count →
        block.sampleAt index (samplenum - block.startSample) = value

def StorageAgrees (di : SrdDecoderInst) (ch samplenum : Nat) : Prop :=
  match di.readSample with
  | some readSample =>
      readSample ch samplenum = bitByte (di.bufferedBit ch samplenum)
  | none =>
      match di.inbufAt ch with
      | none => di.inbufConstAt ch = false
      | some buffer =>
          samplenum - di.absStartSamplenum < di.inbuflen ∨
            packedBit buffer (samplenum - di.absStartSamplenum) = false

private theorem masked_sample (buffer : List UInt8) (offset : Nat) :
    (if buffer.getD (offset / 8) 0 &&&
        (1 <<< UInt8.ofNat (offset % 8)) ≠ 0 then (1 : UInt8) else 0) =
      bitByte (packedBit buffer offset) := by
  have small : offset % 8 < 8 := Nat.mod_lt _ (by decide)
  rw [if_congr (byte_and_mask_ne_zero _ small) rfl rfl]
  rfl

private theorem shifted_sample (buffer : List UInt8) (offset : Nat) :
    (buffer.getD (offset / 8) 0 >>> UInt8.ofNat (offset % 8)) &&& 1 =
      bitByte (packedBit buffer offset) :=
  byte_shift_and_one _ (Nat.mod_lt _ (by decide))

private theorem getD_map_range
    {count index : Nat} (values : Nat → UInt8) (inside : index < count) :
    ((List.range count).map values).getD index 0 = values index := by
  simp [List.getD_eq_getElem?_getD, inside]

theorem lt_of_mapped {di : SrdDecoderInst} {ch : Nat} (mapped : di.Mapped ch) :
    ch < di.decNumChannels := by
  by_contra outside
  have unmapped : di.channelmapAt ch = -1 := by
    unfold channelmapAt
    exact List.getD_eq_default _ _ (by simpa [decNumChannels] using outside)
  unfold Mapped at mapped
  omega

section InsideTheChunk

variable {di : SrdDecoderInst} {ch samplenum : Nat}

theorem termSample_seek (inside : di.InChunk samplenum) : (di.seek samplenum).termSample ch =
      some (di.storedPin ch samplenum) := by
  obtain ⟨lower, upper⟩ := inside
  unfold termSample storedPin seek
  cases di.readSample with
  | some readSample => rfl
  | none =>
      unfold bufferedBit inbufAt inbufConstAt
      cases di.inbuf.bind fun buffers => buffers.getD ch none with
      | none => rfl
      | some buffer =>
          have notOutside : ¬ (samplenum < di.absStartSamplenum ∨
                di.absEndSamplenum ≤ samplenum) := by omega
          simp only [if_neg notOutside, masked_sample]

theorem oldPinSample_seek (inside : di.InChunk samplenum) :
    (di.seek samplenum).oldPinSample ch = di.storedPin ch samplenum := by
  obtain ⟨lower, upper⟩ := inside
  unfold oldPinSample storedPin seek
  cases di.readSample with
  | some readSample => rfl
  | none =>
      unfold bufferedBit inbufAt inbufConstAt
      cases di.inbuf.bind fun buffers => buffers.getD ch none with
      | none => rfl
      | some buffer =>
          have notOutside : ¬ (samplenum < di.absStartSamplenum ∨
                di.absEndSamplenum ≤ samplenum) := by omega
          simp only [if_neg notOutside, masked_sample]

theorem updateOldPinsArray_oldPin (di : SrdDecoderInst) (inside : ch < di.decNumChannels) :
    di.updateOldPinsArray.oldPin ch = di.oldPinSample ch := by
  simp only [updateOldPinsArray, oldPin, Option.getD_some]
  exact getD_map_range _ inside

theorem updateOldPinsArrayInitialPins_oldPin (di : SrdDecoderInst) (inside : ch < di.decNumChannels)
    (unset : di.oldpinsArraySeed.oldPin ch = srdInitialPinSameAsSample0) :
    di.updateOldPinsArrayInitialPins.oldPin ch = di.oldPinSample ch := by
  have stored : di.updateOldPinsArrayInitialPins.oldPin ch =
        if di.oldpinsArraySeed.oldPin ch = srdInitialPinSameAsSample0 then
          di.oldPinSample ch
        else
          di.oldpinsArraySeed.oldPin ch := by
    simp only [updateOldPinsArrayInitialPins, oldPin, Option.getD_some]
    exact getD_map_range _ inside
  rw [stored, if_pos unset]

theorem oldpinsArraySeed_oldPin_seek : (di.seek samplenum).oldpinsArraySeed.oldPin ch =
      di.oldpinsArraySeed.oldPin ch := by
  unfold oldpinsArraySeed seek oldPin
  cases seeded : di.oldPinsArray <;> simp [seeded, decNumChannels]

theorem fillPinCache_entry (mapped : di.Mapped ch) :
    di.fillPinCache.cPin ch = di.cPinCacheEntry ch ∧
      di.fillPinCache.cDecoderGetPinImpl ch di.absCurSamplenum =
        di.cPinCacheEntry ch := by
  have inside := lt_of_mapped mapped
  have notOutside : ¬ di.decNumChannels ≤ ch := by omega
  have notUnmapped : ¬ di.channelmapAt ch < 0 := by
    unfold Mapped at mapped
    omega
  have allocated : ¬ (di.cPinCache = none ∧ di.decNumChannels = 0) := by
    rintro ⟨_, empty⟩
    omega
  have filled : di.fillPinCache =
        { di with
          cPinCache := some ((List.range di.decNumChannels).map di.cPinCacheEntry)
          cPinCacheSamplenum := di.absCurSamplenum } := if_neg allocated
  have entry : ((List.range di.decNumChannels).map di.cPinCacheEntry).getD ch 0 =
        di.cPinCacheEntry ch := getD_map_range _ inside
  rw [filled]
  constructor
  · have connected : ¬ (di.decNumChannels ≤ ch ∨ di.channelmapAt ch < 0) := by
      omega
    exact (if_neg connected).trans entry
  · exact ((if_neg notOutside).trans (if_neg notUnmapped)).trans ((if_pos rfl).trans entry)

/-- Whatever the cache holds for other samples, `c_decoder_get_pin_impl` reads
the chunk for a sample the cache does not have. -/
theorem cDecoderGetPinImpl_uncached (mapped : di.Mapped ch)
    (cache : Option (List UInt8)) (cacheSamplenum : Nat)
    (missing : cache = none ∨ samplenum ≠ cacheSamplenum) :
    { di with
        cPinCache := cache
        cPinCacheSamplenum := cacheSamplenum }.cDecoderGetPinImpl
        ch samplenum =
      di.cDecoderGetPinUncached ch samplenum := by
  have inside := lt_of_mapped mapped
  have notOutside : ¬ di.decNumChannels ≤ ch := by omega
  have notUnmapped : ¬ di.channelmapAt ch < 0 := by
    unfold Mapped at mapped
    omega
  apply (if_neg notOutside).trans
  apply (if_neg notUnmapped).trans
  cases cache with
  | none => rfl
  | some entries =>
      have stale : samplenum ≠ cacheSamplenum := by
        rcases missing with absent | stale
        · cases absent
        · exact stale
      exact if_neg stale

theorem cDecoderGetPinUncached_eq (inside : di.InChunk samplenum) :
    di.cDecoderGetPinUncached ch samplenum =
      match di.readSample with
      | some readSample => readSample ch samplenum
      | none =>
          match di.inbufAt ch with
          | none => 0
          | some buffer =>
              if samplenum - di.absStartSamplenum < di.inbuflen then
                bitByte (packedBit buffer (samplenum - di.absStartSamplenum))
              else
                0 := by
  obtain ⟨lower, _⟩ := inside
  unfold cDecoderGetPinUncached
  cases di.readSample with
  | some readSample => rfl
  | none =>
      cases di.inbufAt ch with
      | none => rfl
      | some buffer =>
          simp only [if_neg (Nat.not_lt.mpr lower), shifted_sample]
          by_cases covered : samplenum - di.absStartSamplenum < di.inbuflen
          · simp [covered, Nat.not_le.mpr covered]
          · simp [covered, Nat.not_lt.mp covered]

theorem cPinCacheEntry_seek (mapped : di.Mapped ch) (covered :
      di.readSample = none → ∀ buffer, di.inbufAt ch = some buffer →
        samplenum - di.absStartSamplenum < di.inbuflen ∨
          packedBit buffer (samplenum - di.absStartSamplenum) = false) :
    (di.seek samplenum).cPinCacheEntry ch = di.storedPin ch samplenum := by
  have notUnmapped : ¬ di.channelmapAt ch < 0 := by
    unfold Mapped at mapped
    omega
  unfold cPinCacheEntry storedPin
  rw [if_neg (by simpa [seek, channelmapAt] using notUnmapped)]
  simp only [seek]
  cases reader : di.readSample with
  | some readSample => rfl
  | none =>
      unfold bufferedBit
      unfold inbufAt inbufConstAt at *
      cases stored : di.inbuf.bind fun buffers => buffers.getD ch none with
      | none => rfl
      | some buffer =>
          simp only [shifted_sample]
          rcases covered reader buffer stored with short | clear
          · have bytes : (samplenum - di.absStartSamplenum) / 8 <
                  (di.inbuflen + 7) / 8 := by omega
            rw [if_pos bytes]
          · rw [clear]
            simp

theorem pyPinValue_seek (mapped : di.Mapped ch) (inside : di.InChunk samplenum) :
    (di.seek samplenum).pyPinValue ch = di.storedPin ch samplenum := by
  have notUnmapped : (di.seek samplenum).channelmapAt ch ≠ -1 := by
    have same : (di.seek samplenum).channelmapAt ch = di.channelmapAt ch := rfl
    unfold Mapped at mapped
    omega
  rw [← oldPinSample_seek inside]
  unfold pyPinValue
  rw [if_neg notUnmapped]
  rfl

theorem getCurrentPinvalues_seek (mapped : di.Mapped ch) (inside : di.InChunk samplenum) :
    (di.seek samplenum).getCurrentPinvalues.getD ch 0 =
      di.storedPin ch samplenum := by
  rw [← pyPinValue_seek mapped inside]
  have inside : ch < (di.seek samplenum).decNumChannels := lt_of_mapped mapped
  exact getD_map_range _ inside

theorem cFetchPackedMulti_block
    {channels : List Nat} {maxSamples : Nat} {block : PackedBlock}
    {after : SrdDecoderInst}
    (fetched : di.cFetchPackedMulti channels maxSamples = some (some block, after)) :
    di.wantWaitTerminate = false ∧
      max di.absCurSamplenum di.absStartSamplenum < di.absEndSamplenum ∧
      block = {
        count := min (di.absEndSamplenum - max di.absCurSamplenum di.absStartSamplenum) maxSamples
        startSample := max di.absCurSamplenum di.absStartSamplenum
        bitOffset := (max di.absCurSamplenum di.absStartSamplenum - di.absStartSamplenum) % 8
        buffers :=
          (channels.map (di.fetchChannel ((max di.absCurSamplenum di.absStartSamplenum -
              di.absStartSamplenum) / 8))).map Prod.fst
        constValues :=
          (channels.map (di.fetchChannel ((max di.absCurSamplenum di.absStartSamplenum -
              di.absStartSamplenum) / 8))).map Prod.snd } ∧
      after = { di with firstPos := false } := by
  unfold cFetchPackedMulti at fetched
  split at fetched
  · simp at fetched
  · split at fetched
    · simp at fetched
    · cases result : di.fetchBlock channels maxSamples with
      | none => simp [result] at fetched
      | some found =>
          simp only [result, Option.some.injEq, Prod.mk.injEq] at fetched
          obtain ⟨rfl, rfl⟩ := fetched
          unfold fetchBlock at result
          split at result
          · cases result
          · rename_i running
            dsimp only at result
            split at result
            · cases result
            · rename_i short
              exact ⟨by simpa using running, by omega,
                (Option.some.inj result).symm, rfl⟩

theorem sampleAt_fetched
    {cur index maxSamples : Nat} {channels : List Nat} {block : PackedBlock}
    {after : SrdDecoderInst}
    (mapped : di.Mapped ch)
    (start_le : di.absStartSamplenum ≤ cur) (le_sample : cur ≤ samplenum)
    (requested : channels[index]? = some ch)
    (fetched : (di.seek cur).cFetchPackedMulti channels maxSamples = some (some block, after)) :
    block.sampleAt index (samplenum - block.startSample) =
      bitByte (di.bufferedBit ch samplenum) := by
  obtain ⟨_, _, rfl, _⟩ := cFetchPackedMulti_block fetched
  have position : max cur di.absStartSamplenum = cur := by omega
  have notOutside : ¬ (di.decNumChannels ≤ ch ∨ di.channelmapAt ch < 0) := by
    have inside := lt_of_mapped mapped
    unfold Mapped at mapped
    omega
  have entry (byteOff : Nat) : (di.seek cur).fetchChannel byteOff ch =
        match di.inbufAt ch with
        | none => (none, if di.inbufConstAt ch then 1 else 0)
        | some buffer => (some (buffer.drop byteOff), 0) := by
    unfold fetchChannel
    rw [if_neg (by simpa [seek, decNumChannels, channelmapAt] using notOutside)]
    rfl
  unfold PackedBlock.sampleAt bufferedBit
  simp only [seek, position, List.getD_eq_getElem?_getD, List.getElem?_map,
    requested, Option.map_some, Option.getD_some]
  simp only [seek] at entry
  rw [entry]
  cases di.inbufAt ch with
  | none => cases di.inbufConstAt ch <;> rfl
  | some buffer =>
      simp only []
      rw [← List.getD_eq_getElem?_getD, shifted_sample, packedBit_drop]
      congr 2
      omega

end InsideTheChunk

private theorem fetch_one
    {di : SrdDecoderInst} {ch samplenum : Nat}
    (holds : di.HoldsChunk) (inside : di.InChunk samplenum) :
    ∃ block after, (di.seek samplenum).cFetchPackedMulti [ch] 1 = some (some block, after) ∧
      block.startSample = samplenum ∧
      samplenum < block.startSample + block.count := by
  obtain ⟨lower, upper⟩ := inside
  have position : max samplenum di.absStartSamplenum = samplenum := by omega
  have short : ¬ di.absEndSamplenum ≤ samplenum := by omega
  simp only [cFetchPackedMulti, fetchBlock, seek, holds.gotNewSamples,
    holds.notTerminating, position, if_neg short]
  exact ⟨_, _, rfl, rfl, by dsimp only; omega⟩

theorem readersSee_storedPin
    {di : SrdDecoderInst} {ch samplenum : Nat}
    (mapped : di.Mapped ch) (inside : di.InChunk samplenum)
    (agrees : di.StorageAgrees ch samplenum) :
    di.ReadersSee ch samplenum (di.storedPin ch samplenum) := by
  have inRange : ch < (di.seek samplenum).decNumChannels := lt_of_mapped mapped
  have entry : (di.seek samplenum).cPinCacheEntry ch = di.storedPin ch samplenum := by
    apply cPinCacheEntry_seek mapped
    intro reader buffer stored
    simpa only [StorageAgrees, reader, stored] using agrees
  have cache := @fillPinCache_entry (di.seek samplenum) ch mapped
  constructor
  case matcher => exact termSample_seek inside
  case oldPins =>
      rw [updateOldPinsArray_oldPin _ inRange, oldPinSample_seek inside]
  case initialPins =>
      intro unset
      rw [updateOldPinsArrayInitialPins_oldPin _ inRange
        (oldpinsArraySeed_oldPin_seek.trans unset), oldPinSample_seek inside]
  case cachedGetPin => exact cache.2.trans entry
  case cachedPin => exact cache.1.trans entry
  case uncachedGetPin =>
      intro cache cacheSamplenum missing
      rw [cDecoderGetPinImpl_uncached mapped cache cacheSamplenum missing,
        cDecoderGetPinUncached_eq inside]
      unfold StorageAgrees at agrees
      unfold storedPin bufferedBit
      unfold inbufAt inbufConstAt at *
      cases reader : di.readSample with
      | some readSample => rfl
      | none =>
          simp only [reader] at agrees
          cases stored : di.inbuf.bind fun buffers => buffers.getD ch none with
          | none =>
              simp only [stored] at agrees
              dsimp only
              rw [agrees]
              rfl
          | some buffer =>
              simp only [stored] at agrees
              rcases agrees with short | clear
              · simp [short]
              · simp [clear]
  case pyPin => exact getCurrentPinvalues_seek mapped inside
  case fetched =>
      intro cur channels index maxSamples block after start_le le_sample requested fetched _
      rw [sampleAt_fetched mapped start_le le_sample requested fetched]
      unfold StorageAgrees at agrees
      unfold storedPin
      cases reader : di.readSample with
      | none => rfl
      | some readSample =>
          simp only [reader] at agrees
          exact agrees.symm

/-- All readers agree on a sample of the chunk exactly where its storage
agrees. -/
theorem readers_agree_iff (di : SrdDecoderInst) (ch samplenum : Nat)
    (holds : di.HoldsChunk) (mapped : di.Mapped ch)
    (inside : di.InChunk samplenum) :
    (∃ value, di.ReadersSee ch samplenum value) ↔
      di.StorageAgrees ch samplenum := by
  constructor
  · rintro ⟨value, sees⟩
    have stored : value = di.storedPin ch samplenum :=
      Option.some.inj (sees.matcher.symm.trans (termSample_seek inside))
    have uncached : di.cDecoderGetPinUncached ch samplenum = value :=
      (cDecoderGetPinImpl_uncached mapped none 0 (Or.inl rfl)).symm.trans
        (sees.uncachedGetPin none 0 (Or.inl rfl))
    rw [cDecoderGetPinUncached_eq inside, stored] at uncached
    obtain ⟨block, after, fetched, first, covered⟩ :=
      @fetch_one _ ch _ holds inside
    have shown :=
      sees.fetched samplenum [ch] 0 1 block after inside.1 (Nat.le_refl _) rfl fetched covered
    rw [sampleAt_fetched mapped inside.1 (Nat.le_refl _) rfl fetched, stored] at shown
    unfold StorageAgrees
    unfold storedPin at shown uncached
    cases reader : di.readSample with
    | some readSample =>
        simp only [reader] at shown
        exact shown.symm
    | none =>
        simp only [reader] at uncached
        unfold bufferedBit at uncached
        cases buffered : di.inbufAt ch with
        | none =>
            simp only [buffered] at uncached
            exact bitByte_eq_zero.mp uncached.symm
        | some buffer =>
            simp only [buffered] at uncached
            by_cases short : samplenum - di.absStartSamplenum < di.inbuflen
            · exact Or.inl short
            · rw [if_neg short] at uncached
              exact Or.inr (bitByte_eq_zero.mp uncached.symm)
  · intro agrees
    exact ⟨_, readersSee_storedPin mapped inside agrees⟩

def constantHighChunk : SrdDecoderInst :=
  { decChannelmap := [0]
    conditionList := []
    matchArray := 0
    absStartSamplenum := 0
    absEndSamplenum := 2
    inbuf := some [none]
    inbufConst := some [1]
    inbuflen := 2
    absCurSamplenum := 0
    absCurMatched := false
    oldPinsArray := none
    gotNewSamples := true
    handledAllSamples := false
    wantWaitTerminate := false
    firstPos := true
    skipZero := false
    cPinCache := none
    cPinCacheSamplenum := 0
    readSample := none }

/-- The uncached pin reader shows a constant one as zero, so the readers
disagree on it. -/
theorem constantHighChunk_disagrees : constantHighChunk.HoldsChunk ∧ constantHighChunk.Mapped 0 ∧
      constantHighChunk.InChunk 0 ∧
      ¬ ∃ value, constantHighChunk.ReadersSee 0 0 value := by
  refine ⟨⟨rfl, rfl⟩, by decide, by decide, ?_⟩
  rintro ⟨value, sees⟩
  have high : value = 1 := (Option.some.inj sees.matcher).symm
  have low : value = 0 := (sees.uncachedGetPin none 0 (Or.inl rfl)).symm
  rw [high] at low
  exact absurd low (by decide)

/-- The same chunk with its samples in a packed buffer. -/
theorem readers_agree_iff_packed : ∃ value,
      { constantHighChunk with inbuf := some [some [3]] }.ReadersSee 0 1 value :=
  (readers_agree_iff _ 0 1 ⟨rfl, rfl⟩ (by decide) (by decide)).mpr
    (Or.inl (by decide))

end SrdDecoderInst

end SigrokDecode
