import Mathlib.Tactic.NormNum
import SigrokDecode.Decoders.DpAuxRecovery
import SigrokDecode.Foundation.ShiftSearch

/-!
# The idle limit of `uart_c`

`uart_start` and `uart_metadata` derive the timing of a frame from the samplerate, and double its
length until it covers a second.
-/

namespace SigrokDecode

open Foundation

/-- Doubles with `(uint64_t)round(x)`, which is undefined where the result does not fit. -/
class CDoubleRound (D : Type) extends CDouble D where
  roundUInt64 : D → Option Nat
  roundUInt64_lt {x : D} {n : Nat} : roundUInt64 x = some n → n < 2 ^ 64
  roundUInt64_zero {x : D} {n : Nat} : roundUInt64 x = some n → (n = 0 ↔ lt x 0.5 = true)

inductive UartParity
  | none
  | odd
  | even
  | zero
  | one
  | ignore
  deriving DecidableEq

structure UartOptions (D : Type) where
  baudrate : Nat
  dataBits : Nat
  stopBits : D
  parity : String
  samplePoint : D

structure UartState (D : Type) where
  samplerate : Nat
  baudrate : D
  dataBits : Nat
  stopBits : D
  parityType : UartParity
  samplePointPct : D
  bitWidth : D
  halfBitWidth : D
  bitSamplenum : D
  frameLenSamples : D
  frameLenSamplesInt : Nat
  breakMinSamples : Nat
  idleNumMax : Nat

def idleNumWithoutGrowth : Nat := 2

def uartParity (parity : String) : UartParity :=
  if parity = "odd" then .odd
  else if parity = "even" then .even
  else if parity = "zero" then .zero
  else if parity = "one" then .one
  else if parity = "ignore" then .ignore
  else .none

namespace UartState

variable {D : Type} [CDoubleRound D]

/-- `uart_reset_impl` -/
def uartReset : UartState D :=
  { samplerate := 0
    baudrate := 0.0
    dataBits := 0
    stopBits := 0.0
    parityType := .none
    samplePointPct := 0.0
    bitWidth := 0.0
    halfBitWidth := 0.0
    bitSamplenum := 0.0
    frameLenSamples := 0.0
    frameLenSamplesInt := 0
    breakMinSamples := 0
    idleNumMax := 0 }

/-- `frame_samples` for a bit of `bitWidth` samples. -/
def frameSamples (s : UartState D) (bitWidth : D) : D :=
  ((1.0 : D) + (s.dataBits : D) + (if s.parityType ≠ .none then 1.0 else 0.0) + s.stopBits) *
    bitWidth

/-- `bit_width` -/
def widthAt (s : UartState D) (samplerate : Nat) : D :=
  (samplerate : D) / s.baudrate

/-- The length of a frame and `idle_num_max`.  A shift of `1ULL` by 64 is undefined. -/
def setIdleNumMax (s : UartState D) : Option (UartState D) :=
  let frameSamples := s.frameSamples s.bitWidth
  (CDoubleRound.roundUInt64 frameSamples).bind fun frameLen =>
    (searchUp (fun maxn => !decide (frameLen * 2 ^ maxn % 2 ^ 64 < s.samplerate)) 64 0).map
      fun maxn =>
        { s with
          frameLenSamples := frameSamples
          frameLenSamplesInt := frameLen
          breakMinSamples := (frameLen + 1) % 2 ^ 64
          idleNumMax := maxn + (idleNumWithoutGrowth - 1) }

/-- The options that `uart_start` reads. -/
def readOptions (s : UartState D) (options : UartOptions D) (samplerate : Nat) : UartState D :=
  { s with
    baudrate := (options.baudrate : D)
    dataBits := options.dataBits
    stopBits := options.stopBits
    parityType := uartParity options.parity
    samplePointPct := options.samplePoint
    samplerate }

/-- `uart_start`, up to the state machine. -/
def uartStart (s : UartState D) (options : UartOptions D) (samplerate : Nat) :
    Option (UartState D) :=
  let s := s.readOptions options samplerate
  if 0 < s.samplerate ∧ CDouble.lt 0.0 s.baudrate ∧
      CDouble.le s.bitWidth 0.0 ∧ CDouble.le 0.0 s.bitWidth then
    let bitWidth := s.widthAt s.samplerate
    setIdleNumMax { s with
      bitWidth
      halfBitWidth := bitWidth * 0.5
      bitSamplenum := bitWidth * s.samplePointPct * 0.01 }
  else
    some s

/-- `uart_metadata` for a samplerate, up to the state machine. -/
def uartMetadata (s : UartState D) (value : Nat) : Option (UartState D) :=
  let s := { s with samplerate := value }
  if 0 < s.samplerate ∧ CDouble.lt 0.0 s.baudrate then
    let bitWidth := s.widthAt s.samplerate
    let perc :=
      if CDouble.lt s.samplePointPct 1.0 || CDouble.lt 99.0 s.samplePointPct then 50.0
      else s.samplePointPct
    setIdleNumMax { s with
      bitWidth
      halfBitWidth := bitWidth * 0.5
      bitSamplenum := bitWidth * perc * 0.01 }
  else
    some s

def LoopEnds (result : Option (UartState D)) : Prop :=
  ∃ after maxn, result = some after ∧ maxn < 64 ∧
    after.idleNumMax = maxn + (idleNumWithoutGrowth - 1) ∧
    after.samplerate ≤ after.frameLenSamplesInt * 2 ^ maxn % 2 ^ 64

/-- A frame of so many samples takes half a sample or more, and it is short enough for a `uint64_t`;
a samplerate above `2 ^ 63` is reached by one of its shifts. -/
structure FrameReaches (frameSamples : D) (samplerate : Nat) : Prop where
  half : CDouble.lt frameSamples 0.5 = false
  reaches : ∃ frameLen, CDoubleRound.roundUInt64 frameSamples = some frameLen ∧
    (samplerate ≤ 2 ^ 63 ∨ ∃ shift ≤ 63, samplerate ≤ frameLen * 2 ^ shift % 2 ^ 64)

variable {s : UartState D}

theorem setIdleNumMax_iff (positive : 0 < s.samplerate) :
    LoopEnds s.setIdleNumMax ↔ FrameReaches (s.frameSamples s.bitWidth) s.samplerate := by
  unfold setIdleNumMax
  dsimp only
  cases rounded : CDoubleRound.roundUInt64 (s.frameSamples s.bitWidth) with
  | none =>
      constructor
      · rintro ⟨after, maxn, impossible, -⟩
        cases impossible
      · rintro ⟨-, frameLen, defined, -⟩
        rw [rounded] at defined
        cases defined
  | some frameLen =>
      have fits : frameLen < 2 ^ 64 := CDoubleRound.roundUInt64_lt rounded
      have zero := CDoubleRound.roundUInt64_zero rounded
      have shifts := exists_shift_reaches_iff fits positive.ne'
      rw [Option.bind_some]
      constructor
      · rintro ⟨after, maxn, ended, inside, -, reached⟩
        obtain ⟨first, -, rfl⟩ := Option.map_eq_some_iff.mp ended
        obtain ⟨notZero, reaches⟩ := shifts.mp ⟨maxn, Nat.le_of_lt_succ inside, reached⟩
        refine ⟨?_, frameLen, rounded, reaches⟩
        exact Bool.eq_false_iff.mpr fun short => notZero (zero.mpr short)
      · rintro ⟨half, other, same, reaches⟩
        obtain rfl : frameLen = other := Option.some.inj (rounded.symm.trans same)
        have notZero : frameLen ≠ 0 := fun isZero =>
          Bool.false_ne_true (half.symm.trans (zero.mp isZero))
        obtain ⟨shift, inside, reached⟩ := shifts.mpr ⟨notZero, reaches⟩
        have here : (!decide (frameLen * 2 ^ shift % 2 ^ 64 < s.samplerate)) = true :=
          Bool.not_eq_true' _ ▸ decide_eq_false (Nat.not_lt.mpr reached)
        obtain ⟨maxn, found⟩ : ∃ maxn, searchUp
            (fun maxn => !decide (frameLen * 2 ^ maxn % 2 ^ 64 < s.samplerate)) 64 0 = some maxn :=
          searchUp_isSome here (Nat.zero_le _) (by omega)
        obtain ⟨ended, -, small, -⟩ := searchUp_eq_some found
        rw [found]
        refine ⟨_, maxn, rfl, by omega, rfl, ?_⟩
        exact Nat.not_lt.mp (of_decide_eq_false ((Bool.not_eq_true' _).mp ended))

theorem uartStart_iff {samplerate : Nat} (positive : 0 < samplerate)
    (unset : s.bitWidth = 0.0) {options : UartOptions D}
    (baud : CDouble.lt 0.0 (options.baudrate : D) = true) :
    LoopEnds (s.uartStart options samplerate) ↔
      FrameReaches ((s.readOptions options samplerate).frameSamples
        ((samplerate : D) / (options.baudrate : D))) samplerate := by
  have zero : CDouble.le s.bitWidth 0.0 = true ∧ CDouble.le 0.0 s.bitWidth = true := by
    rw [unset]
    exact ⟨CDouble.zero_le_zero, CDouble.zero_le_zero⟩
  unfold uartStart
  dsimp only
  rw [if_pos ⟨positive, baud, zero⟩]
  exact setIdleNumMax_iff positive

theorem uartMetadata_iff {samplerate : Nat} (positive : 0 < samplerate)
    (baud : CDouble.lt 0.0 s.baudrate = true) :
    LoopEnds (s.uartMetadata samplerate) ↔
      FrameReaches (s.frameSamples ((samplerate : D) / s.baudrate)) samplerate := by
  unfold uartMetadata
  dsimp only
  rw [if_pos ⟨positive, baud⟩]
  exact setIdleNumMax_iff positive

/-- In both functions the loop ends exactly if the frame is long enough. -/
theorem idleNumMax_iff {samplerate : Nat} (positive : 0 < samplerate) (s : UartState D) :
    (∀ options : UartOptions D, s.bitWidth = 0.0 → CDouble.lt 0.0 (options.baudrate : D) = true →
        (LoopEnds (s.uartStart options samplerate) ↔
          FrameReaches ((s.readOptions options samplerate).frameSamples
            ((samplerate : D) / (options.baudrate : D))) samplerate)) ∧
      (CDouble.lt 0.0 s.baudrate = true → (LoopEnds (s.uartMetadata samplerate) ↔
          FrameReaches (s.frameSamples ((samplerate : D) / s.baudrate)) samplerate)) :=
  ⟨fun _ unset baud => uartStart_iff positive unset baud, fun baud => uartMetadata_iff positive baud⟩

end UartState

theorem floor_half_eq_zero {x : ℚ} (notNegative : 0 ≤ ⌊x + 1 / 2⌋) :
    ⌊x + 1 / 2⌋.toNat = 0 ↔ decide (x < 0.5) = true := by
  have half : (0.5 : ℚ) = 1 / 2 := by norm_num
  rw [decide_eq_true_iff, half]
  constructor
  · intro zero
    have below : ⌊x + 1 / 2⌋ < 1 := by omega
    have less := Int.floor_lt.mp below
    rw [Int.cast_one] at less
    linarith only [less]
  · intro short
    have below : ⌊x + 1 / 2⌋ < 1 := by
      rw [Int.floor_lt, Int.cast_one]
      linarith only [short]
    omega

instance : CDoubleRound ℚ where
  roundUInt64 x :=
    if 0 ≤ ⌊x + 1 / 2⌋ ∧ ⌊x + 1 / 2⌋ < 2 ^ 64 then some ⌊x + 1 / 2⌋.toNat else none
  roundUInt64_lt {x n} rounded := by
    split at rounded
    · rename_i fits
      obtain rfl := Option.some.inj rounded
      omega
    · cases rounded
  roundUInt64_zero {x n} rounded := by
    split at rounded
    · rename_i fits
      obtain rfl := Option.some.inj rounded
      exact floor_half_eq_zero fits.1
    · cases rounded

namespace UartState

def eightDataBits (baudrate : Nat) : UartOptions ℚ :=
  ⟨baudrate, 8, 1, "none", 50⟩

theorem frameSamples_eightDataBits (s : UartState ℚ) (baudrate samplerate : Nat) (bitWidth : ℚ) :
    (s.readOptions (eightDataBits baudrate) samplerate).frameSamples bitWidth = 10 * bitWidth := by
  have none : uartParity "none" = .none := by decide
  unfold frameSamples readOptions eightDataBits
  dsimp only
  rw [none, if_neg (fun different => different rfl)]
  norm_num

theorem idleNumMax_iff_usual :
    LoopEnds ((uartReset : UartState ℚ).uartStart (eightDataBits 115200) 1000000) := by
  apply ((idleNumMax_iff (by decide) uartReset).1 (eightDataBits 115200) rfl
    (decide_eq_true (by norm_num [eightDataBits]))).mpr
  rw [frameSamples_eightDataBits]
  have rounded : CDoubleRound.roundUInt64
      (10 * (((1000000 : Nat) : ℚ) / ((eightDataBits 115200).baudrate : ℚ))) = some 87 := by
    decide +kernel
  exact ⟨decide_eq_false (by norm_num [eightDataBits]), 87, rounded, Or.inl (by decide)⟩

/-- At 10 kHz a frame of 230400 baud takes less than half a sample. -/
theorem idleNumMax_unbounded :
    ¬∀ (options : UartOptions ℚ) (samplerate : Nat), 0 < samplerate → 0 < options.baudrate →
      LoopEnds ((uartReset : UartState ℚ).uartStart options samplerate) := by
  intro ends
  have short := ends (eightDataBits 230400) 10000 (by decide) (by decide)
  have baud : CDouble.lt 0.0 (((eightDataBits 230400).baudrate : Nat) : ℚ) = true :=
    decide_eq_true (by norm_num [eightDataBits])
  rw [uartStart_iff (by decide) rfl baud, frameSamples_eightDataBits] at short
  apply of_decide_eq_false short.half
  norm_num [eightDataBits]

end UartState

end SigrokDecode
