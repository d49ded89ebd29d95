import Mathlib.Data.List.Basic
import Mathlib.Data.List.GetD

/-!
# Decoder instances

The parts of `struct srd_decoder_inst` and `struct srd_term` that the sample
matcher, the pin readers and the hand-off between the host and the worker
thread use.  Pointers that may be `NULL` are options.
-/

namespace SigrokDecode

/-- `enum srd_term_type`; `unknown` is any other value of the `int` field. -/
inductive SrdTermType where
  | high
  | low
  | risingEdge
  | fallingEdge
  | eitherEdge
  | noEdge
  | skip
  | unknown
  deriving DecidableEq

structure SrdTerm where
  type : SrdTermType
  channel : Nat
  numSamplesToSkip : Nat
  numSamplesAlreadySkipped : Nat
  deriving DecidableEq

namespace SrdTerm

/-- A term on a channel, as `c_wait` builds it. -/
def onChannel (type : SrdTermType) (channel : Nat) : SrdTerm :=
  { type, channel, numSamplesToSkip := 0, numSamplesAlreadySkipped := 0 }

/-- A `SKIP` term, as `c_wait` builds it. -/
def skipping (count : Nat) : SrdTerm :=
  { type := .skip, channel := 0, numSamplesToSkip := count,
    numSamplesAlreadySkipped := 0 }

end SrdTerm

/-- A condition is the conjunction of its terms; `[]` is the `NULL` condition. -/
abbrev Condition := List SrdTerm

/-- A sample stream: the level of each channel at each sample number. -/
abbrev SampleStream := Nat → Nat → Bool

/-- Return codes of the library that the modelled functions use. -/
inductive SrdStatus where
  | ok
  | errArg
  | errTermReq
  deriving DecidableEq

def srdInitialPinSameAsSample0 : UInt8 := 2

/-- `struct srd_decoder_inst`.  `dec_num_channels` is the length of
`dec_channelmap`, which is allocated with one entry for each channel. -/
structure SrdDecoderInst where
  decChannelmap : List Int
  conditionList : List Condition
  matchArray : BitVec 64
  absStartSamplenum : Nat
  absEndSamplenum : Nat
  inbuf : Option (List (Option (List UInt8)))
  inbufConst : Option (List UInt8)
  inbuflen : Nat
  absCurSamplenum : Nat
  absCurMatched : Bool
  oldPinsArray : Option (List UInt8)
  gotNewSamples : Bool
  handledAllSamples : Bool
  wantWaitTerminate : Bool
  firstPos : Bool
  skipZero : Bool
  cPinCache : Option (List UInt8)
  cPinCacheSamplenum : Nat
  readSample : Option (Nat → Nat → UInt8)

namespace SrdDecoderInst

variable (di : SrdDecoderInst)

def decNumChannels : Nat :=
  di.decChannelmap.length

/-- `dec_channelmap[ch]`; an index outside the table reads as unmapped. -/
def channelmapAt (ch : Nat) : Int :=
  di.decChannelmap.getD ch (-1)

/-- `inbuf[ch]`, or `none` where `!inbuf || !inbuf[ch]` holds. -/
def inbufAt (ch : Nat) : Option (List UInt8) :=
  di.inbuf.bind fun buffers => buffers.getD ch none

/-- `inbuf_const && inbuf_const[ch]`. -/
def inbufConstAt (ch : Nat) : Bool :=
  match di.inbufConst with
  | none => false
  | some constants => constants.getD ch 0 != 0

/-- `old_pins_array->data[ch]`. -/
def oldPin (ch : Nat) : UInt8 :=
  (di.oldPinsArray.getD []).getD ch 0

/-- The instance with its position moved to a sample. -/
def seek (samplenum : Nat) : SrdDecoderInst :=
  { di with absCurSamplenum := samplenum }

@[simp]
theorem seek_absCurSamplenum (samplenum : Nat) :
    (di.seek samplenum).absCurSamplenum = samplenum := rfl

@[simp]
theorem seek_absEndSamplenum (samplenum : Nat) :
    (di.seek samplenum).absEndSamplenum = di.absEndSamplenum := rfl

/-- The instance with its `skip_zero` flag set or cleared. -/
def noteSkipZero (skipZero : Bool) : SrdDecoderInst :=
  { di with skipZero }

/-- The channel has an input. -/
def Mapped (ch : Nat) : Prop :=
  0 ≤ di.channelmapAt ch

def InChunk (samplenum : Nat) : Prop :=
  di.absStartSamplenum ≤ samplenum ∧ samplenum < di.absEndSamplenum

instance (ch : Nat) : Decidable (di.Mapped ch) :=
  inferInstanceAs (Decidable (0 ≤ di.channelmapAt ch))

instance (samplenum : Nat) : Decidable (di.InChunk samplenum) :=
  inferInstanceAs (Decidable (di.absStartSamplenum ≤ samplenum ∧ samplenum < di.absEndSamplenum))

end SrdDecoderInst

end SigrokDecode
