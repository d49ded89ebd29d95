import SigrokDecode.Foundation.PackedBits
import SigrokDecode.Instance.Types

/-!
# Reading one pin

The matcher, the pin cache, `c_decoder_get_pin_impl`, the Python pin tuple and
`c_fetch_packed_multi` each extract samples from the current chunk with their
own code.  They are kept apart here, as in the source, and compared at the end.
-/

namespace SigrokDecode

open Foundation

namespace SrdDecoderInst

/-- The sample `term_matches` compares; `none` is its defensive `return FALSE`
for a position outside of the chunk. -/
def termSample (di : SrdDecoderInst) (ch : Nat) : Option UInt8 :=
  match di.readSample with
  | some readSample => some (readSample ch di.absCurSamplenum)
  | none =>
      match di.inbufAt ch with
      | none => some (if di.inbufConstAt ch then 1 else 0)
      | some buffer =>
          if di.absCurSamplenum < di.absStartSamplenum ∨
              di.absEndSamplenum ≤ di.absCurSamplenum then
            none
          else
            let offset := di.absCurSamplenum - di.absStartSamplenum
            let sample := buffer.getD (offset / 8) 0
            some (if sample &&& (1 <<< UInt8.ofNat (offset % 8)) ≠ 0 then 1 else 0)

/-- The `skip_allow` flag `term_matches` leaves for a term on the channel. -/
def termSkipAllow (di : SrdDecoderInst) (ch : Nat) : Bool :=
  match di.readSample with
  | some _ => false
  | none =>
      match di.inbufAt ch with
      | none => true
      | some _ =>
          di.absCurSamplenum < di.absStartSamplenum ∨ di.absEndSamplenum ≤ di.absCurSamplenum

/-- The value the loops of `update_old_pins_array` and
`update_old_pins_array_initial_pins` store for channel `i`. -/
def oldPinSample (di : SrdDecoderInst) (i : Nat) : UInt8 :=
  match di.readSample with
  | some readSample => readSample i di.absCurSamplenum
  | none =>
      match di.inbufAt i with
      | none => if di.inbufConstAt i then 1 else 0
      | some buffer =>
          if di.absCurSamplenum < di.absStartSamplenum ∨
              di.absEndSamplenum ≤ di.absCurSamplenum then
            0
          else
            let offset := di.absCurSamplenum - di.absStartSamplenum
            let sample := buffer.getD (offset / 8) 0
            if sample &&& (1 <<< UInt8.ofNat (offset % 8)) ≠ 0 then 1 else 0

def oldpinsArraySeed (di : SrdDecoderInst) : SrdDecoderInst :=
  match di.oldPinsArray with
  | some _ => di
  | none =>
      { di with
        oldPinsArray :=
          some (List.replicate di.decNumChannels srdInitialPinSameAsSample0) }

def updateOldPinsArray (di : SrdDecoderInst) : SrdDecoderInst :=
  { di.oldpinsArraySeed with
    oldPinsArray := some ((List.range di.decNumChannels).map di.oldPinSample) }

def updateOldPinsArrayInitialPins (di : SrdDecoderInst) : SrdDecoderInst :=
  let seeded := di.oldpinsArraySeed
  { seeded with
    oldPinsArray :=
      some ((List.range di.decNumChannels).map fun i =>
        if seeded.oldPin i = srdInitialPinSameAsSample0 then
          di.oldPinSample i
        else
          seeded.oldPin i) }

/-- The cache entry `c_decoder_wait_impl` stores for channel `i` after a
match. -/
def cPinCacheEntry (di : SrdDecoderInst) (i : Nat) : UInt8 :=
  if di.channelmapAt i < 0 then
    0xFF
  else
    match di.readSample with
    | some readSample => readSample i di.absCurSamplenum
    | none =>
        match di.inbufAt i with
        | none => if di.inbufConstAt i then 1 else 0
        | some buffer =>
            let off := di.absCurSamplenum - di.absStartSamplenum
            let bo := off / 8
            if bo < (di.inbuflen + 7) / 8 then
              (buffer.getD bo 0 >>> UInt8.ofNat (off % 8)) &&& 1
            else
              0

/-- The pin cache update in `c_decoder_wait_impl`; an instance without
channels never allocates a cache. -/
def fillPinCache (di : SrdDecoderInst) : SrdDecoderInst :=
  if di.cPinCache = none ∧ di.decNumChannels = 0 then
    di
  else
    { di with
      cPinCache := some ((List.range di.decNumChannels).map di.cPinCacheEntry)
      cPinCacheSamplenum := di.absCurSamplenum }

/-- The part of `c_decoder_get_pin_impl` behind the cache lookup. -/
def cDecoderGetPinUncached (di : SrdDecoderInst) (ch samplenum : Nat) : UInt8 :=
  match di.readSample with
  | some readSample => readSample ch samplenum
  | none =>
      match di.inbufAt ch with
      | none => 0
      | some buffer =>
          if samplenum < di.absStartSamplenum then
            0
          else
            let offset := samplenum - di.absStartSamplenum
            if di.inbuflen ≤ offset then
              0
            else
              (buffer.getD (offset / 8) 0 >>> UInt8.ofNat (offset % 8)) &&& 1

def cDecoderGetPinImpl (di : SrdDecoderInst) (ch samplenum : Nat) : UInt8 :=
  if di.decNumChannels ≤ ch then
    0
  else if di.channelmapAt ch < 0 then
    0xFF
  else
    match di.cPinCache with
    | some cache =>
        if samplenum = di.cPinCacheSamplenum then
          cache.getD ch 0
        else
          di.cDecoderGetPinUncached ch samplenum
    | none => di.cDecoderGetPinUncached ch samplenum

def cPin (di : SrdDecoderInst) (ch : Nat) : UInt8 :=
  if di.decNumChannels ≤ ch ∨ di.channelmapAt ch < 0 then
    0xFF
  else
    match di.cPinCache with
    | some cache => cache.getD ch 0
    | none => 0xFF

/-- One element of the tuple `get_current_pinvalues` builds. -/
def pyPinValue (di : SrdDecoderInst) (i : Nat) : UInt8 :=
  if di.channelmapAt i = -1 then
    0xFF
  else
    match di.readSample with
    | some readSample => readSample i di.absCurSamplenum
    | none =>
        match di.inbufAt i with
        | none => if di.inbufConstAt i then 1 else 0
        | some buffer =>
            if di.absCurSamplenum < di.absStartSamplenum ∨
                di.absEndSamplenum ≤ di.absCurSamplenum then
              0
            else
              let offset := di.absCurSamplenum - di.absStartSamplenum
              let sample := buffer.getD (offset / 8) 0
              if sample &&& (1 <<< UInt8.ofNat (offset % 8)) ≠ 0 then 1 else 0

def getCurrentPinvalues (di : SrdDecoderInst) : List UInt8 :=
  (List.range di.decNumChannels).map di.pyPinValue

/-- What `c_fetch_packed_multi` hands out: for each requested channel a pointer
into the packed chunk or a constant, and the position of the first sample. -/
structure PackedBlock where
  count : Nat
  startSample : Nat
  bitOffset : Nat
  buffers : List (Option (List UInt8))
  constValues : List UInt8

/-- The buffer and constant `c_fetch_packed_multi` stores for one channel. -/
def fetchChannel (di : SrdDecoderInst) (byteOff ch : Nat) : Option (List UInt8) × UInt8 :=
  if di.decNumChannels ≤ ch ∨ di.channelmapAt ch < 0 then
    (none, 0xFF)
  else
    match di.inbufAt ch with
    | none => (none, if di.inbufConstAt ch then 1 else 0)
    | some buffer => (some (buffer.drop byteOff), 0)

/-- The block `c_fetch_packed_multi` returns once it need not wait any longer;
`none` is the return value zero. -/
def fetchBlock (di : SrdDecoderInst) (channels : List Nat) (maxSamples : Nat) :
    Option PackedBlock :=
  if di.wantWaitTerminate then
    none
  else
    let cur := max di.absCurSamplenum di.absStartSamplenum
    if di.absEndSamplenum ≤ cur then
      none
    else
      let off := cur - di.absStartSamplenum
      let entries := channels.map (di.fetchChannel (off / 8))
      some {
        count := min (di.absEndSamplenum - cur) maxSamples
        startSample := cur
        bitOffset := off % 8
        buffers := entries.map Prod.fst
        constValues := entries.map Prod.snd }

/-- `c_fetch_packed_multi`.  The outer `none` says that the call blocks, since
no samples have been handed over; the inner one is the return value zero. -/
def cFetchPackedMulti (di : SrdDecoderInst) (channels : List Nat) (maxSamples : Nat) :
    Option (Option PackedBlock × SrdDecoderInst) :=
  if channels = [] ∨ maxSamples = 0 then
    some (none, di)
  else if ¬ di.gotNewSamples ∧ ¬ di.wantWaitTerminate then
    none
  else
    match di.fetchBlock channels maxSamples with
    | none => some (none, di)
    | some block => some (some block, { di with firstPos := false })

namespace PackedBlock

/-- Sample `index` of a fetched channel, as the packed decoders read it. -/
def sampleAt (block : PackedBlock) (channelIndex index : Nat) : UInt8 :=
  match block.buffers.getD channelIndex none with
  | none => if block.constValues.getD channelIndex 0 ≠ 0 then 1 else 0
  | some buffer =>
      let bit := block.bitOffset + index
      (buffer.getD (bit / 8) 0 >>> UInt8.ofNat (bit % 8)) &&& 1

end PackedBlock

end SrdDecoderInst

end SigrokDecode
