import SigrokDecode.Decoders.Spi

/-!
# Where the two SPI decoders agree

The two decoders are compared on one capture.  They collect the same bits, but `spi_c` loses the
first clock edge when there is no CS, and it does not know the end of a word without data lines.
-/

set_option linter.dupNamespace false

namespace SigrokDecode

open Foundation List SpiConfig

def SpiProto.isWord : SpiProto → Bool
  | .csChange _ _ => false
  | .bits _ _ => true
  | .data _ _ => true
  | .transfer _ _ => false

def spiWords (protos : List (SpiOut SpiProto)) : List (SpiOut SpiProto) :=
  protos.filter fun out => out.content.isWord

/-- The data words of `spi_c`; the initial pins are those in front of the capture. -/
def spiRun (config : SpiConfig) (initial : SpiPins) (samples : List SpiPins) :
    List (SpiOut SpiProto) :=
  match samples with
  | [] => []
  | first :: _ =>
      spiWords ((spiDecode config).scan (SpiState.start config first) initial 0 samples).protos

/-- The data words of `spi_fast_c`. -/
def spiFastRun (config : SpiConfig) (initial : SpiPins) (samples : List SpiPins) :
    List (SpiOut SpiProto) :=
  match samples with
  | [] => []
  | first :: _ =>
      spiWords
        ((spiFastDecode config).scan (SpiFastState.start config first) initial 0 samples).protos

namespace SpiConfig

variable (config : SpiConfig)

def firstEdgeSamples : SpiPins → List SpiPins → Bool
  | _, [] => false
  | old, new :: samples =>
      if clkEdge old new then config.correctEdge new.clk else firstEdgeSamples new samples

def bitsKept (old new : SpiPins) (count : Nat) : Nat :=
  if config.csEdge old new then 0 else count

def sampled (old new : SpiPins) : Bool :=
  config.selected new && config.sampleEdge old new

/-- The first and the last sampling edge of each word, with `count` bits received since
`start`. -/
def wordSpans : Nat → Nat → SpiPins → Nat → List SpiPins → List (Nat × Nat)
  | _, _, _, _, [] => []
  | count, start, old, samplenum, new :: samples =>
      let count := config.bitsKept old new count
      if config.sampled old new then
        let start := if count = 0 then samplenum else start
        if count + 1 = config.wordsize then
          (start, samplenum) :: wordSpans 0 start new (samplenum + 1) samples
        else
          wordSpans (count + 1) start new (samplenum + 1) samples
      else
        wordSpans count start new (samplenum + 1) samples

/-- Without data lines `spi_c` ends a word at sample 0. -/
def spiEnd (out : SpiOut SpiProto) : SpiOut SpiProto :=
  if config.haveMosi || config.haveMiso then out else { out with es := 0 }

theorem sampleEdge_eq (old new : SpiPins) :
    config.sampleEdge old new = (clkEdge old new && config.correctEdge new.clk) := by
  obtain ⟨cpol, cpha⟩ := config
  obtain ⟨oldClk⟩ := old
  obtain ⟨newClk⟩ := new
  cases cpol <;> cases cpha <;> cases oldClk <;> cases newClk <;> rfl

variable {config}

theorem csEdge_eq_false (noCs : config.haveCs = false) (old new : SpiPins) :
    config.csEdge old new = false := by
  rw [csEdge, noCs, Bool.false_and]

theorem selected_eq_true (noCs : config.haveCs = false) (pins : SpiPins) :
    config.selected pins = true := by
  rw [selected, noCs, Bool.not_false, Bool.true_or]

theorem bitsKept_le (old new : SpiPins) (count : Nat) : config.bitsKept old new count ≤ count := by
  unfold bitsKept
  split
  · exact Nat.zero_le count
  · exact Nat.le_refl count

variable {count start samplenum : Nat} {old : SpiPins} {samples : List SpiPins}

theorem bitsKept_le_bitsKept (old new : SpiPins) {fewer : Nat} (le : fewer ≤ count) :
    config.bitsKept old new fewer ≤ config.bitsKept old new count := by
  unfold bitsKept
  split
  · exact Nat.le_refl 0
  · exact le

section Cons

variable {count start samplenum : Nat} {old new : SpiPins} {samples : List SpiPins}

theorem wordSpans_idle (idle : config.sampled old new = false) :
    config.wordSpans count start old samplenum (new :: samples) =
      config.wordSpans (config.bitsKept old new count) start new (samplenum + 1) samples := by
  simp only [wordSpans, idle, Bool.false_eq_true, if_false]

theorem wordSpans_last (sampled : config.sampled old new = true)
    (full : config.bitsKept old new count + 1 = config.wordsize) :
    config.wordSpans count start old samplenum (new :: samples) =
      (if config.bitsKept old new count = 0 then samplenum else start, samplenum) ::
        config.wordSpans 0 (if config.bitsKept old new count = 0 then samplenum else start) new
          (samplenum + 1) samples := by
  simp only [wordSpans, sampled, if_true, if_pos full]

theorem wordSpans_bit (sampled : config.sampled old new = true)
    (room : config.bitsKept old new count + 1 ≠ config.wordsize) :
    config.wordSpans count start old samplenum (new :: samples) =
      config.wordSpans (config.bitsKept old new count + 1)
        (if config.bitsKept old new count = 0 then samplenum else start) new
          (samplenum + 1) samples := by
  simp only [wordSpans, sampled, if_true, if_neg room]

end Cons

theorem wordSpans_eq_nil_of_le {fewer : Nat} (le : fewer ≤ count)
    (room : count < config.wordsize) {start' : Nat}
    (noWord : config.wordSpans count start old samplenum samples = []) :
    config.wordSpans fewer start' old samplenum samples = [] := by
  induction samples generalizing fewer count start start' samplenum old with
  | nil => rfl
  | cons new samples ih =>
      have keptLe := config.bitsKept_le_bitsKept old new le
      have keptRoom := Nat.lt_of_le_of_lt (config.bitsKept_le old new count) room
      cases edge : config.sampled old new with
      | false =>
          rw [wordSpans_idle edge] at noWord ⊢
          exact ih keptLe keptRoom noWord
      | true =>
          rcases Nat.lt_or_eq_of_le keptRoom with early | full
          · rw [wordSpans_bit edge (Nat.ne_of_lt early)] at noWord
            rw [wordSpans_bit edge (by omega)]
            exact ih (Nat.succ_le_succ keptLe) early noWord
          · rw [wordSpans_last edge full] at noWord
            exact absurd noWord (cons_ne_nil _ _)

theorem wordSpans_start_ge {bound : Nat} (boundNow : bound ≤ samplenum)
    (boundStart : 0 < count → bound ≤ start) {span : Nat × Nat}
    (member : span ∈ config.wordSpans count start old samplenum samples) : bound ≤ span.1 := by
  induction samples generalizing count start samplenum old with
  | nil => exact absurd member not_mem_nil
  | cons new samples ih =>
      have later : bound ≤ samplenum + 1 := Nat.le_succ_of_le boundNow
      have keptStart : 0 < config.bitsKept old new count → bound ≤ start := fun kept =>
        boundStart (Nat.lt_of_lt_of_le kept (config.bitsKept_le old new count))
      have startBound : bound ≤ if config.bitsKept old new count = 0 then samplenum else start := by
        split
        · exact boundNow
        · next some => exact keptStart (Nat.pos_of_ne_zero some)
      cases edge : config.sampled old new with
      | false =>
          rw [wordSpans_idle edge] at member
          exact ih later keptStart member
      | true =>
          by_cases full : config.bitsKept old new count + 1 = config.wordsize
          · rw [wordSpans_last edge full] at member
            rcases mem_cons.1 member with rfl | member
            · exact startBound
            · exact ih later (fun some => absurd some (Nat.lt_irrefl 0)) member
          · rw [wordSpans_bit edge full] at member
            exact ih later (fun _ => startBound) member

theorem wordSpans_head (noCs : config.haveCs = false) (some : 0 < count) {span : Nat × Nat}
    {spans : List (Nat × Nat)}
    (words : config.wordSpans count start old samplenum samples = span :: spans) :
    span.1 = start := by
  induction samples generalizing count samplenum old with
  | nil => cases words
  | cons new samples ih =>
      have kept : config.bitsKept old new count = count :=
        if_neg (by rw [csEdge_eq_false noCs]; exact Bool.false_ne_true)
      have sameStart : (if count = 0 then samplenum else start) = start :=
        if_neg (Nat.ne_of_gt some)
      cases edge : config.sampled old new with
      | false =>
          rw [wordSpans_idle edge, kept] at words
          exact ih some words
      | true =>
          by_cases full : config.bitsKept old new count + 1 = config.wordsize
          · rw [wordSpans_last edge full, kept, sameStart] at words
            injection words with headEquality
            rw [← headEquality]
          · rw [wordSpans_bit edge full, kept, sameStart] at words
            exact ih (Nat.succ_pos count) words

end SpiConfig

namespace SpiLine

variable {line : SpiLine} {bitcount : Nat}

theorem length_storeBit (line : SpiLine) (bitcount samplenum : Nat) (value : Bool) :
    (line.storeBit bitcount samplenum value).length = line.bits.length := by
  unfold storeBit
  split
  · rw [length_set, length_modify]
  · rw [length_set]

theorem storeBit_first (filled : 0 < line.bits.length) (samplenum : Nat) (value : Bool) :
    ((line.storeBit bitcount samplenum value)[0]?).elim 0 SpiBit.ss =
      if bitcount = 0 then samplenum else (line.bits[0]?).elim 0 SpiBit.ss := by
  cases bitcount with
  | zero =>
      rw [storeBit, if_neg (Nat.lt_irrefl 0), if_pos rfl, getElem?_set_self filled]
      rfl
  | succ bitcount =>
      rw [storeBit, if_pos (Nat.succ_pos bitcount), if_neg (Nat.succ_ne_zero bitcount),
        getElem?_set_ne (Nat.succ_ne_zero bitcount), getElem?_modify,
        getElem?_eq_getElem filled]
      split <;> rfl

theorem storeBit_last (filled : bitcount < line.bits.length) (samplenum : Nat) (value : Bool) :
    ((line.storeBit bitcount samplenum value)[bitcount]?).elim 0 SpiBit.es = samplenum := by
  unfold storeBit
  split
  · rw [getElem?_set_self (by rw [length_modify]; exact filled)]
    rfl
  · rw [getElem?_set_self filled]
    rfl

/-- The bits of a line that has received its `bitcount` bits since `start`. -/
structure Filled (line : SpiLine) (bitcount start : Nat) : Prop where
  length : line.bits.length = 64
  first : 0 < bitcount → (line.bits[0]?).elim 0 SpiBit.ss = start

variable {start : Nat}

theorem Filled.empty (filled : line.Filled bitcount start) (data : BitVec 64)
    (start' : Nat) : ({ line with data := data } : SpiLine).Filled 0 start' where
  length := filled.length
  first some := absurd some (Nat.lt_irrefl 0)

theorem Filled.receiveFast (filled : line.Filled bitcount start)
    (config : SpiConfig) (samplenum : Nat) (value : Bool) :
    (line.receiveFast config bitcount samplenum value).Filled (bitcount + 1)
      (if bitcount = 0 then samplenum else start) where
  length := (length_storeBit line bitcount samplenum value).trans filled.length
  first _ := by
    have present : 0 < line.bits.length := by rw [filled.length]; decide
    rw [SpiLine.receiveFast, storeBit_first present]
    split
    · rfl
    · next some => exact filled.first (Nat.pos_of_ne_zero some)

theorem span_receiveFast (filled : line.Filled bitcount start)
    {config : SpiConfig} (full : bitcount + 1 = config.wordsize) (samplenum : Nat)
    (value : Bool) :
    (line.receiveFast config bitcount samplenum value).span config =
      (if bitcount = 0 then samplenum else start, samplenum) := by
  have last : config.wordsize - 1 = bitcount := by omega
  have inside : bitcount < line.bits.length := by
    have small := config.valid.2
    rw [filled.length]
    omega
  have first := (filled.receiveFast config samplenum value).first (Nat.succ_pos bitcount)
  rw [span, first, last]
  exact congrArg (Prod.mk _) (storeBit_last inside samplenum value)

end SpiLine

theorem spiWords_append (front back : List (SpiOut SpiProto)) :
    spiWords (front ++ back) = spiWords front ++ spiWords back :=
  filter_append front back

def SpiOut.span {Content : Type} (out : SpiOut Content) : Nat × Nat :=
  (out.ss, out.es)

namespace SpiFastState

variable {config : SpiConfig} {f : SpiFastState}

variable (config f) in
/-- The loop in front of the bit. -/
def atCs (old new : SpiPins) (samplenum : Nat) : SpiFastState :=
  if config.csEdge old new then
    csChange config { f with csActive := config.selected new } new.cs samplenum
  else
    { f with csActive := config.selected new }

variable (config) in
theorem csChange_view (f : SpiFastState) (cs : Bool) (samplenum : Nat) :
    (f.csChange config cs samplenum).csActive = f.csActive ∧
      (f.csChange config cs samplenum).bitCount = 0 ∧
      (f.csChange config cs samplenum).startSample = f.startSample ∧
      (f.csChange config cs samplenum).mosi = { f.mosi with data := 0 } ∧
      (f.csChange config cs samplenum).miso = { f.miso with data := 0 } ∧
      spiWords (f.csChange config cs samplenum).protos = spiWords f.protos := by
  simp only [csChange]
  split
  · refine ⟨rfl, rfl, rfl, rfl, rfl, ?_⟩
    exact (spiWords_append _ _).trans (List.append_nil _)
  · split
    · refine ⟨rfl, rfl, rfl, rfl, rfl, ?_⟩
      refine (spiWords_append _ _).trans ((List.append_nil _).trans ?_)
      exact (spiWords_append _ _).trans (List.append_nil _)
    · refine ⟨rfl, rfl, rfl, rfl, rfl, ?_⟩
      exact (spiWords_append _ _).trans (List.append_nil _)

theorem handle_eq (f : SpiFastState) (old new : SpiPins) (samplenum : Nat) :
    f.handle config old new samplenum =
      if config.sampled old new then
        handleBit config (f.atCs config old new samplenum) new samplenum
      else
        f.atCs config old new samplenum := by
  have active : (f.atCs config old new samplenum).csActive = config.selected new := by
    unfold atCs
    split
    · exact (csChange_view config _ new.cs samplenum).1
    · rfl
  have edge : (config.selected new && config.sampleEdge old new &&
      config.correctEdge new.clk) = config.sampled old new := by
    rw [SpiConfig.sampled, config.sampleEdge_eq]
    cases config.selected new <;> cases SpiConfig.clkEdge old new <;>
      cases config.correctEdge new.clk <;> rfl
  have unfolded : f.handle config old new samplenum =
      if (f.atCs config old new samplenum).csActive && config.sampleEdge old new &&
          config.correctEdge new.clk then
        handleBit config (f.atCs config old new samplenum) new samplenum
      else
        f.atCs config old new samplenum := rfl
  rw [unfolded, active, edge]

variable (config f) in
structure Filled : Prop where
  room : f.bitCount < config.wordsize
  mosi : config.haveMosi = true → f.mosi.Filled f.bitCount f.startSample
  miso : config.haveMiso = true → f.miso.Filled f.bitCount f.startSample

theorem Filled.atCs (filled : f.Filled config) (old new : SpiPins) (samplenum : Nat) :
    (f.atCs config old new samplenum).Filled config := by
  unfold SpiFastState.atCs
  split
  · obtain ⟨-, count, start, mosi, miso, -⟩ :=
      csChange_view config { f with csActive := config.selected new } new.cs samplenum
    refine ⟨?_, fun present => ?_, fun present => ?_⟩
    · rw [count]
      exact config.valid.1
    · rw [count, mosi]
      exact (filled.mosi present).empty 0 _
    · rw [count, miso]
      exact (filled.miso present).empty 0 _
  · exact { filled with }

variable (config) in
theorem atCs_view (f : SpiFastState) (old new : SpiPins) (samplenum : Nat) :
    (f.atCs config old new samplenum).bitCount = config.bitsKept old new f.bitCount ∧
      (f.atCs config old new samplenum).startSample = f.startSample ∧
      spiWords (f.atCs config old new samplenum).protos = spiWords f.protos := by
  unfold atCs SpiConfig.bitsKept
  split
  · obtain ⟨-, count, start, -, -, words⟩ :=
      csChange_view config { f with csActive := config.selected new } new.cs samplenum
    exact ⟨count, start, words⟩
  · exact ⟨rfl, rfl, rfl⟩

theorem handleBit_of_ne (f : SpiFastState) (pins : SpiPins) (samplenum : Nat)
    (room : f.bitCount + 1 ≠ config.wordsize) :
    f.handleBit config pins samplenum = f.receiveBit config pins samplenum := by
  simp only [handleBit]
  exact if_pos room

theorem handleBit_of_eq (f : SpiFastState) (pins : SpiPins) (samplenum : Nat)
    (full : f.bitCount + 1 = config.wordsize) :
    f.handleBit config pins samplenum =
      (putData config (f.receiveBit config pins samplenum)).resetWord := by
  simp only [handleBit]
  exact if_neg (fun room => room full)

theorem Filled.receiveBit (filled : f.Filled config) (pins : SpiPins) (samplenum : Nat)
    (room : f.bitCount + 1 < config.wordsize) :
    (f.receiveBit config pins samplenum).Filled config where
  room := room
  mosi present := by
    simp only [SpiFastState.receiveBit, if_pos present]
    exact (filled.mosi present).receiveFast config samplenum pins.mosi
  miso present := by
    simp only [SpiFastState.receiveBit, if_pos present]
    exact (filled.miso present).receiveFast config samplenum pins.miso

theorem Filled.wordSpan (filled : f.Filled config) (pins : SpiPins) (samplenum : Nat)
    (full : f.bitCount + 1 = config.wordsize) :
    config.wordSpan (f.receiveBit config pins samplenum).startSample
        (f.receiveBit config pins samplenum).lastBitSample
        (f.receiveBit config pins samplenum).mosi (f.receiveBit config pins samplenum).miso =
      (if f.bitCount = 0 then samplenum else f.startSample, samplenum) := by
  unfold SpiConfig.wordSpan
  split
  · next present =>
      simp only [SpiFastState.receiveBit, if_pos present]
      exact SpiLine.span_receiveFast (filled.mosi present) full samplenum pins.mosi
  · split
    · next present =>
        simp only [SpiFastState.receiveBit, if_pos present]
        exact SpiLine.span_receiveFast (filled.miso present) full samplenum pins.miso
    · rfl

theorem Filled.resetWord {f : SpiFastState}
    (mosi : config.haveMosi = true → f.mosi.bits.length = 64)
    (miso : config.haveMiso = true → f.miso.bits.length = 64) :
    f.resetWord.Filled config where
  room := config.valid.1
  mosi present := ⟨mosi present, fun some => absurd some (Nat.lt_irrefl 0)⟩
  miso present := ⟨miso present, fun some => absurd some (Nat.lt_irrefl 0)⟩

theorem Filled.length_receiveBit (filled : f.Filled config) (pins : SpiPins) (samplenum : Nat) :
    (config.haveMosi = true → (f.receiveBit config pins samplenum).mosi.bits.length = 64) ∧
      (config.haveMiso = true →
        (f.receiveBit config pins samplenum).miso.bits.length = 64) := by
  constructor
  · intro present
    simp only [SpiFastState.receiveBit, if_pos present]
    exact ((filled.mosi present).receiveFast config samplenum pins.mosi).length
  · intro present
    simp only [SpiFastState.receiveBit, if_pos present]
    exact ((filled.miso present).receiveFast config samplenum pins.miso).length

theorem spiWords_putData (f : SpiFastState) : spiWords (f.putData config).resetWord.protos =
      spiWords f.protos ++
        config.wordProtos (config.wordSpan f.startSample f.lastBitSample f.mosi f.miso) f.mosi
          f.miso :=
  spiWords_append _ _

theorem Filled.step (filled : f.Filled config) (old new : SpiPins) (samplenum : Nat) :
    ((spiFastDecode config).step f old new samplenum).Filled config ∧ ∀ samples,
        (spiWords ((spiFastDecode config).step f old new samplenum).protos).map SpiOut.span ++
            (config.wordSpans ((spiFastDecode config).step f old new samplenum).bitCount
              ((spiFastDecode config).step f old new samplenum).startSample new (samplenum + 1)
              samples).flatMap (fun span => [span, span]) =
          (spiWords f.protos).map SpiOut.span ++
            (config.wordSpans f.bitCount f.startSample old samplenum
              (new :: samples)).flatMap (fun span => [span, span]) := by
  cases awake : (spiFastDecode config).wakes f old new with
  | false =>
      obtain ⟨still, same⟩ := Bool.or_eq_false_iff.1 awake
      have idle : config.sampled old new = false := by rw [SpiConfig.sampled, still, Bool.and_false]
      have kept : config.bitsKept old new f.bitCount = f.bitCount :=
        if_neg (by rw [same]; exact Bool.false_ne_true)
      rw [(spiFastDecode config).step_asleep awake]
      refine ⟨filled, fun samples => ?_⟩
      rw [wordSpans_idle idle, kept]
  | true =>
      have handled : (spiFastDecode config).step f old new samplenum =
          f.handle config old new samplenum := (spiFastDecode config).step_awake awake samplenum
      rw [handled, handle_eq]
      have filledCs := filled.atCs old new samplenum
      obtain ⟨count, start, words⟩ := atCs_view config f old new samplenum
      generalize f.atCs config old new samplenum = g at filledCs count start words
      cases edge : config.sampled old new with
      | false =>
          refine ⟨filledCs, fun samples => ?_⟩
          rw [wordSpans_idle edge, if_neg Bool.false_ne_true, count, start, words]
      | true =>
          rw [if_pos rfl]
          by_cases full : g.bitCount + 1 = config.wordsize
          · rw [g.handleBit_of_eq new samplenum full]
            obtain ⟨mosi, miso⟩ := filledCs.length_receiveBit new samplenum
            refine ⟨Filled.resetWord mosi miso, fun samples => ?_⟩
            rw [spiWords_putData, filledCs.wordSpan new samplenum full,
              wordSpans_last edge (count ▸ full), ← count, ← start, ← words,
              flatMap_cons, map_append, List.append_assoc]
            rfl
          · rw [g.handleBit_of_ne new samplenum full]
            have room : g.bitCount + 1 < config.wordsize := Nat.lt_of_le_of_ne filledCs.room full
            refine ⟨filledCs.receiveBit new samplenum room, fun samples => ?_⟩
            rw [wordSpans_bit edge (count ▸ full), ← count, ← start, ← words]
            rfl

theorem Filled.scan (filled : f.Filled config) (old : SpiPins) (samplenum : Nat)
    (samples : List SpiPins) :
    (spiWords ((spiFastDecode config).scan f old samplenum samples).protos).map SpiOut.span =
      (spiWords f.protos).map SpiOut.span ++
        (config.wordSpans f.bitCount f.startSample old samplenum samples).flatMap
          (fun span => [span, span]) := by
  induction samples generalizing f old samplenum with
  | nil => exact (List.append_nil _).symm
  | cons new samples ih =>
      obtain ⟨filledNext, spans⟩ := filled.step old new samplenum
      rw [SampleDecoder.scan_cons, ih filledNext, spans]

end SpiFastState

/-! ## The two decoders on the same samples -/

namespace SpiState

variable {config : SpiConfig}

variable (config) in
theorem csChange_view (s : SpiState) (cs : Bool) (samplenum : Nat) :
    (s.csChange config cs samplenum).firstWait = s.firstWait ∧
      (s.csChange config cs samplenum).bitcount = 0 ∧
      (s.csChange config cs samplenum).ssBlock = s.ssBlock ∧
      (s.csChange config cs samplenum).mosi = { s.mosi with data := 0 } ∧
      (s.csChange config cs samplenum).miso = { s.miso with data := 0 } ∧
      spiWords (s.csChange config cs samplenum).protos = spiWords s.protos := by
  simp only [csChange]
  split
  · refine ⟨rfl, rfl, rfl, rfl, rfl, ?_⟩
    exact (spiWords_append _ _).trans (List.append_nil _)
  · split
    · refine ⟨rfl, rfl, rfl, rfl, rfl, ?_⟩
      refine (spiWords_append _ _).trans ((List.append_nil _).trans ?_)
      exact (spiWords_append _ _).trans (List.append_nil _)
    · refine ⟨rfl, rfl, rfl, rfl, rfl, ?_⟩
      exact (spiWords_append _ _).trans (List.append_nil _)

variable (config) in
/-- The loop in front of the bit. -/
def atCs (s : SpiState) (old new : SpiPins) (samplenum : Nat) : SpiState :=
  if config.csEdge old new then s.csChange config new.cs samplenum else s

theorem handle_eq (s : SpiState) (old new : SpiPins) (samplenum : Nat) :
    s.handle config old new samplenum =
      if config.sampled old new then
        handleBit config (s.atCs config old new samplenum) new samplenum
      else
        s.atCs config old new samplenum := by
  have unfolded : s.handle config old new samplenum =
      if config.selected new && SpiConfig.clkEdge old new && config.correctEdge new.clk then
        handleBit config (s.atCs config old new samplenum) new samplenum
      else
        s.atCs config old new samplenum := rfl
  rw [unfolded, SpiConfig.sampled, config.sampleEdge_eq, Bool.and_assoc]

/-- Once the first edge has passed, `spi_c` also does what its loop does while it sleeps. -/
theorem step_eq_handle {s : SpiState} (started : s.firstWait = false) (old new : SpiPins)
    (samplenum : Nat) :
    (spiDecode config).step s old new samplenum = s.handle config old new samplenum := by
  cases awake : (spiDecode config).wakes s old new with
  | false =>
      have quiet : SpiConfig.clkEdge old new = false ∧ config.csEdge old new = false := by
        simpa [spiDecode, started] using awake
      have idle : config.sampled old new = false := by
        rw [SpiConfig.sampled, config.sampleEdge_eq, quiet.1, Bool.false_and, Bool.and_false]
      rw [(spiDecode config).step_asleep awake, handle_eq, idle, if_neg Bool.false_ne_true]
      exact (if_neg (by rw [quiet.2]; exact Bool.false_ne_true)).symm
  | true =>
      rw [(spiDecode config).step_awake awake]
      exact if_neg (by rw [started]; exact Bool.false_ne_true)

theorem handleBit_of_ne (s : SpiState) (pins : SpiPins) (samplenum : Nat)
    (room : s.bitcount + 1 ≠ config.wordsize) :
    s.handleBit config pins samplenum = s.receiveBit config pins samplenum := by
  simp only [handleBit]
  exact if_pos room

theorem handleBit_of_eq (s : SpiState) (pins : SpiPins) (samplenum : Nat)
    (full : s.bitcount + 1 = config.wordsize) :
    s.handleBit config pins samplenum =
      (putWarning config (putData config (s.receiveBit config pins samplenum))
        samplenum).resetWord := by
  simp only [handleBit]
  exact if_neg (fun room => room full)

end SpiState

namespace SpiLine

/-- The register of `spi_c` is ahead by the bits that are still to come. -/
structure Mirrors (config : SpiConfig) (bitcount : Nat) (slow fast : SpiLine) : Prop where
  bits : slow.bits = fast.bits
  data : slow.data =
    if config.msbFirst then fast.data <<< (config.wordsize - bitcount) else fast.data

variable {config : SpiConfig} {bitcount : Nat} {slow fast : SpiLine}

theorem Mirrors.empty (mirrors : Mirrors config bitcount slow fast) :
    Mirrors config 0 { slow with data := 0 } { fast with data := 0 } where
  bits := mirrors.bits
  data := by
    split
    · exact (BitVec.zero_shiftLeft _).symm
    · rfl

theorem Mirrors.receive (mirrors : Mirrors config bitcount slow fast)
    (room : bitcount < config.wordsize) (samplenum : Nat) (value : Bool) :
    Mirrors config (bitcount + 1) (slow.receive config bitcount samplenum value)
      (fast.receiveFast config bitcount samplenum value) where
  bits := by
    unfold SpiLine.receive SpiLine.receiveFast SpiLine.storeBit
    rw [mirrors.bits]
  data := by
    have data := mirrors.data
    unfold SpiLine.receive SpiLine.receiveFast
    dsimp only
    split
    · next msb =>
        rw [if_pos msb] at data
        rw [data, placeMsb_shift room]
    · next lsb =>
        rw [if_neg lsb] at data
        rw [data]

theorem Mirrors.eq (mirrors : Mirrors config config.wordsize slow fast) : slow = fast := by
  obtain ⟨bits, data⟩ := mirrors
  rw [Nat.sub_self, BitVec.shiftLeft_zero, ite_self] at data
  cases slow
  cases fast
  cases bits
  cases data
  rfl

end SpiLine

/-- `spi_c` is where `spi_fast_c` is. -/
structure SpiState.Agrees (config : SpiConfig) (s : SpiState) (f : SpiFastState) : Prop where
  count : s.bitcount = f.bitCount
  room : f.bitCount < config.wordsize
  start : s.ssBlock = f.startSample
  mosi : config.haveMosi = true → SpiLine.Mirrors config f.bitCount s.mosi f.mosi
  miso : config.haveMiso = true → SpiLine.Mirrors config f.bitCount s.miso f.miso
  words : spiWords s.protos = (spiWords f.protos).map config.spiEnd

namespace SpiState

variable {config : SpiConfig} {s : SpiState} {f : SpiFastState}

theorem Agrees.atCs (agrees : s.Agrees config f) (old new : SpiPins) (samplenum : Nat) :
    Agrees config (s.atCs config old new samplenum) (f.atCs config old new samplenum) := by
  unfold SpiState.atCs SpiFastState.atCs
  split
  · obtain ⟨-, count, start, mosi, miso, words⟩ :=
      csChange_view config s new.cs samplenum
    obtain ⟨-, fastCount, fastStart, fastMosi, fastMiso, fastWords⟩ :=
      SpiFastState.csChange_view config
        { f with csActive := config.selected new } new.cs samplenum
    refine ⟨?_, ?_, ?_, fun present => ?_, fun present => ?_, ?_⟩
    · rw [count, fastCount]
    · rw [fastCount]
      exact config.valid.1
    · rw [start, fastStart]
      exact agrees.start
    · rw [fastCount, mosi, fastMosi]
      exact (agrees.mosi present).empty
    · rw [fastCount, miso, fastMiso]
      exact (agrees.miso present).empty
    · rw [words, fastWords]
      exact agrees.words
  · exact { agrees with }

theorem Agrees.receiveBit_lines (agrees : s.Agrees config f) (pins : SpiPins) (samplenum : Nat) :
    (s.receiveBit config pins samplenum).ssBlock =
        (f.receiveBit config pins samplenum).startSample ∧
      (config.haveMosi = true → SpiLine.Mirrors config (f.bitCount + 1)
        (s.receiveBit config pins samplenum).mosi
        (f.receiveBit config pins samplenum).mosi) ∧
      (config.haveMiso = true → SpiLine.Mirrors config (f.bitCount + 1)
        (s.receiveBit config pins samplenum).miso
        (f.receiveBit config pins samplenum).miso) ∧
      spiWords (s.receiveBit config pins samplenum).protos =
        (spiWords (f.receiveBit config pins samplenum).protos).map config.spiEnd := by
  refine ⟨?_, fun present => ?_, fun present => ?_, agrees.words⟩
  · simp only [SpiState.receiveBit, SpiFastState.receiveBit, agrees.count, agrees.start]
  · simp only [SpiState.receiveBit, SpiFastState.receiveBit, if_pos present, agrees.count]
    exact (agrees.mosi present).receive agrees.room samplenum pins.mosi
  · simp only [SpiState.receiveBit, SpiFastState.receiveBit, if_pos present, agrees.count]
    exact (agrees.miso present).receive agrees.room samplenum pins.miso

theorem Agrees.receiveBit (agrees : s.Agrees config f) (pins : SpiPins) (samplenum : Nat)
    (room : f.bitCount + 1 < config.wordsize) :
    Agrees config (s.receiveBit config pins samplenum)
      (f.receiveBit config pins samplenum) := by
  obtain ⟨start, mosi, miso, words⟩ := agrees.receiveBit_lines pins samplenum
  exact ⟨congrArg (· + 1) agrees.count, room, start, mosi, miso, words⟩

variable (config) in
theorem putData_view (s : SpiState) (samplenum : Nat) :
    ((putWarning config (s.putData config) samplenum).resetWord).bitcount = 0 ∧
      ((putWarning config (s.putData config) samplenum).resetWord).ssBlock = s.ssBlock ∧
      ((putWarning config (s.putData config) samplenum).resetWord).mosi =
        { s.mosi with data := 0 } ∧
      ((putWarning config (s.putData config) samplenum).resetWord).miso =
        { s.miso with data := 0 } ∧
      spiWords ((putWarning config (s.putData config) samplenum).resetWord).protos =
        spiWords s.protos ++
          config.wordProtos (config.wordSpan s.ssBlock 0 s.mosi s.miso) s.mosi s.miso := by
  simp only [putWarning]
  split
  · exact ⟨rfl, rfl, rfl, rfl, spiWords_append _ _⟩
  · exact ⟨rfl, rfl, rfl, rfl, spiWords_append _ _⟩

theorem wordProtos_spiEnd {mosi mosi' miso miso' : SpiLine}
    (sameMosi : config.haveMosi = true → mosi = mosi')
    (sameMiso : config.haveMiso = true → miso = miso') (start samplenum : Nat) :
    config.wordProtos (config.wordSpan start 0 mosi miso) mosi miso =
      (config.wordProtos (config.wordSpan start samplenum mosi' miso') mosi' miso').map
        config.spiEnd := by
  unfold wordProtos wordSpan SpiConfig.spiEnd
  cases mosiPresent : config.haveMosi with
  | true =>
      cases misoPresent : config.haveMiso with
      | true =>
          rw [sameMosi mosiPresent, sameMiso misoPresent]
          rfl
      | false =>
          rw [sameMosi mosiPresent]
          rfl
  | false =>
      cases misoPresent : config.haveMiso with
      | true =>
          rw [sameMiso misoPresent]
          rfl
      | false => rfl

theorem Agrees.handleBit (agrees : s.Agrees config f) (pins : SpiPins) (samplenum : Nat) :
    Agrees config (s.handleBit config pins samplenum)
      (f.handleBit config pins samplenum) := by
  by_cases full : f.bitCount + 1 = config.wordsize
  · rw [s.handleBit_of_eq pins samplenum (by rw [agrees.count]; exact full),
      f.handleBit_of_eq pins samplenum full]
    obtain ⟨start, mosi, miso, words⟩ := agrees.receiveBit_lines pins samplenum
    rw [full] at mosi miso
    generalize s.receiveBit config pins samplenum = s' at start mosi miso words
    generalize f.receiveBit config pins samplenum = f' at start mosi miso words
    obtain ⟨count, slowStart, slowMosi, slowMiso, slowWords⟩ := putData_view config s' samplenum
    refine ⟨count, config.valid.1, ?_, fun present => ?_, fun present => ?_, ?_⟩
    · rw [slowStart, start]
      rfl
    · rw [slowMosi]
      exact (mosi present).empty
    · rw [slowMiso]
      exact (miso present).empty
    · rw [slowWords, f'.spiWords_putData, map_append, words, start]
      exact congrArg _ (wordProtos_spiEnd (fun present => (mosi present).eq)
        (fun present => (miso present).eq) f'.startSample f'.lastBitSample)
  · have room : f.bitCount + 1 < config.wordsize := Nat.lt_of_le_of_ne agrees.room full
    rw [s.handleBit_of_ne pins samplenum (by rw [agrees.count]; exact full),
      f.handleBit_of_ne pins samplenum full]
    exact agrees.receiveBit pins samplenum room

theorem Agrees.handle (agrees : s.Agrees config f) (old new : SpiPins) (samplenum : Nat) :
    Agrees config (s.handle config old new samplenum) (f.handle config old new samplenum) := by
  rw [handle_eq, SpiFastState.handle_eq]
  have agreesCs := agrees.atCs old new samplenum
  split
  · exact agreesCs.handleBit new samplenum
  · exact agreesCs

theorem Agrees.step (agrees : s.Agrees config f) (started : s.firstWait = false)
    (old new : SpiPins) (samplenum : Nat) :
    Agrees config ((spiDecode config).step s old new samplenum)
      ((spiFastDecode config).step f old new samplenum) := by
  rw [step_eq_handle started]
  cases awake : (spiFastDecode config).wakes f old new with
  | false =>
      obtain ⟨still, same⟩ := Bool.or_eq_false_iff.1 awake
      have idle : config.sampled old new = false := by rw [SpiConfig.sampled, still, Bool.and_false]
      have atCs : s.atCs config old new samplenum = s :=
        if_neg (by rw [same]; exact Bool.false_ne_true)
      rw [(spiFastDecode config).step_asleep awake, handle_eq, idle,
        if_neg Bool.false_ne_true, atCs]
      exact agrees
  | true =>
      rw [(spiFastDecode config).step_awake awake]
      exact agrees.handle old new samplenum

theorem started_step (started : s.firstWait = false) (old new : SpiPins) (samplenum : Nat) :
    ((spiDecode config).step s old new samplenum).firstWait = false := by
  rw [step_eq_handle started, handle_eq]
  have startedCs : (s.atCs config old new samplenum).firstWait = false := by
    unfold atCs
    split
    · exact (csChange_view config s new.cs samplenum).1.trans started
    · exact started
  generalize s.atCs config old new samplenum = s' at startedCs
  split
  · simp only [handleBit, putWarning]
    split
    · exact startedCs
    · split <;> exact startedCs
  · exact startedCs

theorem Agrees.scan (agrees : s.Agrees config f) (started : s.firstWait = false)
    (old : SpiPins) (samplenum : Nat) (samples : List SpiPins) :
    Agrees config ((spiDecode config).scan s old samplenum samples)
      ((spiFastDecode config).scan f old samplenum samples) :=
  (SampleDecoder.scan_related (spiDecode config) (spiFastDecode config)
    (fun s f old new samplenum (related : s.firstWait = false ∧ s.Agrees config f) =>
      ⟨started_step related.1 old new samplenum, related.2.step related.1 old new samplenum⟩)
    ⟨started, agrees⟩ old samplenum samples).2

section FirstEdge

variable (noCs : config.haveCs = false) (waiting : s.firstWait = true)

variable {old new : SpiPins}

include waiting in
theorem step_wait (still : SpiConfig.clkEdge old new = false)
    (samplenum : Nat) : (spiDecode config).step s old new samplenum = s :=
  (spiDecode config).step_asleep (by
    simp only [spiDecode, still, waiting, Bool.not_true, Bool.false_and, Bool.false_or])
    samplenum

include waiting in
theorem step_firstEdge (edge : SpiConfig.clkEdge old new = true) (samplenum : Nat) :
    (spiDecode config).step s old new samplenum = { s with firstWait := false } := by
  rw [(spiDecode config).step_awake (by simp only [spiDecode, edge, Bool.true_or])]
  exact if_pos waiting

include noCs in
theorem fast_step_idle (idle : config.sampleEdge old new = false)
    (samplenum : Nat) : (spiFastDecode config).step f old new samplenum = f :=
  (spiFastDecode config).step_asleep (by
    simp only [spiFastDecode, idle, csEdge_eq_false noCs, Bool.false_or]) samplenum

include noCs waiting in
theorem Agrees.scan_wait (agrees : s.Agrees config f) {samples : List SpiPins}
    (first : config.firstEdgeSamples old samples = false) (samplenum : Nat) :
    Agrees config ((spiDecode config).scan s old samplenum samples)
      ((spiFastDecode config).scan f old samplenum samples) := by
  induction samples generalizing old samplenum with
  | nil => exact agrees
  | cons new samples ih =>
      rw [SampleDecoder.scan_cons, SampleDecoder.scan_cons]
      cases edge : SpiConfig.clkEdge old new with
      | false =>
          rw [SpiConfig.firstEdgeSamples, edge, if_neg Bool.false_ne_true] at first
          rw [step_wait waiting edge, fast_step_idle noCs (by
            rw [config.sampleEdge_eq, edge, Bool.false_and])]
          exact ih first (samplenum + 1)
      | true =>
          rw [SpiConfig.firstEdgeSamples, edge, if_pos rfl] at first
          rw [step_firstEdge waiting edge, fast_step_idle noCs (by
            rw [config.sampleEdge_eq, first, Bool.and_false])]
          have started : Agrees config { s with firstWait := false } f :=
            { agrees with }
          exact started.scan rfl new (samplenum + 1) samples

include noCs waiting in
theorem firstEdge_lost {samples : List SpiPins}
    (first : config.firstEdgeSamples old samples = true) (samplenum : Nat) :
    ∃ front new edge rest, config.sampled front new = true ∧
        (spiDecode config).scan s old samplenum samples =
          (spiDecode config).scan { s with firstWait := false } new (edge + 1) rest ∧
        (spiFastDecode config).scan f old samplenum samples =
          (spiFastDecode config).scan f front edge (new :: rest) ∧
        ∀ start, config.wordSpans 0 start old samplenum samples =
          config.wordSpans 0 start front edge (new :: rest) := by
  induction samples generalizing old samplenum with
  | nil => exact absurd first Bool.false_ne_true
  | cons new samples ih =>
      cases edge : SpiConfig.clkEdge old new with
      | false =>
          rw [SpiConfig.firstEdgeSamples, edge, if_neg Bool.false_ne_true] at first
          have idle : config.sampleEdge old new = false := by
            rw [config.sampleEdge_eq, edge, Bool.false_and]
          obtain ⟨front, next, samplenum', rest, sampled, slow, fast, spans⟩ :=
            ih first (samplenum + 1)
          refine ⟨front, next, samplenum', rest, sampled, ?_, ?_, fun start => ?_⟩
          · rw [SampleDecoder.scan_cons, step_wait waiting edge, slow]
          · rw [SampleDecoder.scan_cons, fast_step_idle noCs idle, fast]
          · rw [wordSpans_idle (by rw [SpiConfig.sampled, idle, Bool.and_false]),
              SpiConfig.bitsKept, ite_self, spans]
      | true =>
          rw [SpiConfig.firstEdgeSamples, edge, if_pos rfl] at first
          refine ⟨old, new, samplenum, samples, ?_, ?_, rfl, fun _ => rfl⟩
          · rw [SpiConfig.sampled, selected_eq_true noCs, config.sampleEdge_eq, edge, first]
            rfl
          · rw [SampleDecoder.scan_cons, step_firstEdge waiting edge]

end FirstEdge

theorem start_view (config : SpiConfig) (pins : SpiPins) :
    (start config pins).firstWait = (!config.haveCs) ∧ (start config pins).bitcount = 0 ∧
      (start config pins).ssBlock = 0 ∧ (start config pins).mosi = SpiLine.reset ∧
      (start config pins).miso = SpiLine.reset ∧ spiWords (start config pins).protos = [] := by
  simp only [start]
  cases config.haveCs with
  | false => exact ⟨rfl, rfl, rfl, rfl, rfl, rfl⟩
  | true =>
      rw [if_pos rfl]
      split <;> exact ⟨rfl, rfl, rfl, rfl, rfl, rfl⟩

end SpiState

namespace SpiFastState

theorem start_view (config : SpiConfig) (pins : SpiPins) :
    (start config pins).bitCount = 0 ∧ (start config pins).startSample = 0 ∧
      (start config pins).mosi = SpiLine.reset ∧ (start config pins).miso = SpiLine.reset ∧
      spiWords (start config pins).protos = [] := by
  simp only [start]
  split
  · split <;> exact ⟨rfl, rfl, rfl, rfl, rfl⟩
  · exact ⟨rfl, rfl, rfl, rfl, rfl⟩

theorem start_filled (config : SpiConfig) (pins : SpiPins) : (start config pins).Filled config := by
  obtain ⟨count, first, mosi, miso, -⟩ := start_view config pins
  have empty : SpiLine.reset.Filled 0 0 :=
    ⟨length_replicate, fun some => absurd some (Nat.lt_irrefl 0)⟩
  refine ⟨?_, fun _ => ?_, fun _ => ?_⟩
  · rw [count]
    exact config.valid.1
  · rw [count, first, mosi]
    exact empty
  · rw [count, first, miso]
    exact empty

theorem scan_start (config : SpiConfig) (pins old : SpiPins) (samplenum : Nat)
    (samples : List SpiPins) :
    (spiWords ((spiFastDecode config).scan (start config pins) old samplenum
        samples).protos).map SpiOut.span =
      (config.wordSpans 0 0 old samplenum samples).flatMap (fun span => [span, span]) := by
  obtain ⟨count, first, -, -, words⟩ := start_view config pins
  rw [(start_filled config pins).scan, count, first, words, map_nil, nil_append]

end SpiFastState

theorem SpiState.start_agrees (config : SpiConfig) (pins : SpiPins) :
    Agrees config (start config pins) (SpiFastState.start config pins) := by
  obtain ⟨-, count, first, mosi, miso, words⟩ := start_view config pins
  obtain ⟨fastCount, fastFirst, fastMosi, fastMiso, fastWords⟩ :=
    SpiFastState.start_view config pins
  have empty : SpiLine.Mirrors config 0 SpiLine.reset SpiLine.reset :=
    ⟨rfl, by
      split
      · exact (BitVec.zero_shiftLeft _).symm
      · rfl⟩
  refine ⟨?_, ?_, ?_, fun _ => ?_, fun _ => ?_, ?_⟩
  · rw [count, fastCount]
  · rw [fastCount]
    exact config.valid.1
  · rw [first, fastFirst]
  · rw [fastCount, mosi, fastMosi]
    exact empty
  · rw [fastCount, miso, fastMiso]
    exact empty
  · rw [words, fastWords, map_nil]

section Comparison

variable {config : SpiConfig}

theorem map_span_eq_nil {words : List (SpiOut SpiProto)} {spans : List (Nat × Nat)}
    (span : words.map SpiOut.span = spans.flatMap (fun span => [span, span])) :
    words = [] ↔ spans = [] := by
  constructor
  · rintro rfl
    cases spans with
    | nil => rfl
    | cons _ _ => cases span
  · rintro rfl
    exact map_eq_nil_iff.1 span

theorem map_spiEnd_eq_self {words : List (SpiOut SpiProto)} {spans : List (Nat × Nat)}
    (span : words.map SpiOut.span = spans.flatMap (fun span => [span, span])) :
    words.map config.spiEnd = words ↔
      config.haveMosi = true ∨ config.haveMiso = true ∨ ∀ span ∈ spans, span.2 = 0 := by
  have ends : (∀ word ∈ words, word.es = 0) ↔ ∀ span ∈ spans, span.2 = 0 := by
    have memberSpans : ∀ pair, pair ∈ words.map SpiOut.span ↔ pair ∈ spans := by
      intro pair
      rw [span, mem_flatMap]
      constructor
      · rintro ⟨pair', member, same⟩
        have samePair : pair = pair' := by simpa using same
        exact samePair ▸ member
      · intro member
        exact ⟨pair, member, mem_cons_self⟩
    constructor
    · intro zero pair member
      obtain ⟨word, wordMember, rfl⟩ := mem_map.1 ((memberSpans pair).2 member)
      exact zero word wordMember
    · intro zero word member
      exact zero word.span ((memberSpans word.span).1 (mem_map_of_mem member))
  rw [← ends]
  have self : words.map config.spiEnd = words ↔ ∀ word ∈ words, config.spiEnd word = word := by
    conv_lhs => rhs; rw [← map_id words]
    exact map_inj_left
  rw [self]
  cases mosi : config.haveMosi with
  | true => simp [SpiConfig.spiEnd, mosi]
  | false =>
      cases miso : config.haveMiso with
      | true => simp [SpiConfig.spiEnd, miso]
      | false =>
          simp only [SpiConfig.spiEnd, mosi, miso, Bool.or_self, Bool.false_eq_true, if_false,
            false_or]
          refine forall₂_congr fun word _ => ?_
          constructor
          · intro same
            exact (congrArg SpiOut.es same).symm
          · rintro zero
            rw [← zero]

theorem late_words_eq_iff (noCs : config.haveCs = false) (pins : SpiPins) {old : SpiPins}
    {samples : List SpiPins} (first : config.firstEdgeSamples old samples = true)
    (samplenum : Nat) :
    spiWords ((spiDecode config).scan (SpiState.start config pins) old samplenum samples).protos =
      spiWords ((spiFastDecode config).scan (SpiFastState.start config pins) old samplenum
        samples).protos ↔
      config.wordSpans 0 0 old samplenum samples = [] := by
  have waiting : (SpiState.start config pins).firstWait = true := by
    rw [(SpiState.start_view config pins).1, noCs]
    rfl
  have fastSpans := SpiFastState.scan_start config pins old samplenum samples
  obtain ⟨front, new, edge, rest, sampled, slow, fast, spans⟩ :=
    SpiState.firstEdge_lost (f := SpiFastState.start config pins) noCs waiting first samplenum
  have lateSpans := SpiFastState.scan_start config pins new (edge + 1) rest
  have started := SpiState.start_agrees config pins
  have late : spiWords ((spiDecode config).scan (SpiState.start config pins) old samplenum
      samples).protos =
      (spiWords ((spiFastDecode config).scan (SpiFastState.start config pins) new (edge + 1)
        rest).protos).map config.spiEnd := by
    rw [slow]
    have startedLate : SpiState.Agrees config
        { SpiState.start config pins with firstWait := false }
        (SpiFastState.start config pins) :=
      { started with }
    exact (startedLate.scan rfl new (edge + 1) rest).words
  rw [late]
  have kept : config.bitsKept front new 0 = 0 := Nat.le_zero.1 (config.bitsKept_le front new 0)
  constructor
  · intro same
    cases words : config.wordSpans 0 0 old samplenum samples with
    | nil => rfl
    | cons span more =>
        -- The first word of `spi_fast_c` starts at the lost edge, those of `spi_c` behind it.
        have atEdge : span.1 = edge := by
          rw [spans] at words
          by_cases full : config.bitsKept front new 0 + 1 = config.wordsize
          · rw [wordSpans_last sampled full, if_pos kept] at words
            injection words with headEquality
            rw [← headEquality]
          · rw [wordSpans_bit sampled full, if_pos kept] at words
            exact wordSpans_head noCs (Nat.succ_pos _) words
        rw [words, ← same, map_map] at fastSpans
        have member : span ∈ (spiWords ((spiFastDecode config).scan
            (SpiFastState.start config pins) new (edge + 1) rest).protos).map
              (SpiOut.span ∘ config.spiEnd) := by
          rw [fastSpans]
          exact mem_cons_self
        obtain ⟨word, wordMember, rfl⟩ := mem_map.1 member
        have sameStart : ((SpiOut.span ∘ config.spiEnd) word).1 = word.span.1 := by
          simp only [Function.comp_apply, SpiConfig.spiEnd]
          split <;> rfl
        have later := mem_map_of_mem (f := SpiOut.span) wordMember
        rw [lateSpans] at later
        obtain ⟨lateSpan, spanMember, pair⟩ := mem_flatMap.1 later
        have sameSpan : word.span = lateSpan := by simpa using pair
        have bound := wordSpans_start_ge (Nat.le_refl (edge + 1))
          (fun some => absurd some (Nat.lt_irrefl 0)) spanMember
        rw [← sameSpan, ← sameStart, atEdge] at bound
        exact absurd bound (Nat.not_succ_le_self edge)
  · intro noWord
    rw [noWord] at fastSpans
    rw [(map_span_eq_nil fastSpans).2 rfl]
    rw [spans] at noWord
    by_cases full : config.bitsKept front new 0 + 1 = config.wordsize
    · rw [wordSpans_last sampled full] at noWord
      exact absurd noWord (cons_ne_nil _ _)
    · rw [wordSpans_bit sampled full] at noWord
      have room : config.bitsKept front new 0 + 1 < config.wordsize :=
        Nat.lt_of_le_of_ne (by rw [kept]; exact config.valid.1) full
      have none : config.wordSpans 0 0 new (edge + 1) rest = [] :=
        wordSpans_eq_nil_of_le (Nat.zero_le _) room noWord
      rw [(map_span_eq_nil lateSpans).2 none, map_nil]

end Comparison

theorem spiRun_eq_spiFastRun_iff (config : SpiConfig) (initial : SpiPins) (samples : List SpiPins) :
    spiRun config initial samples = spiFastRun config initial samples ↔
      (config.haveCs = true ∨ config.firstEdgeSamples initial samples = false ∨
          config.wordSpans 0 0 initial 0 samples = []) ∧
        (config.haveMosi = true ∨ config.haveMiso = true ∨
          ∀ span ∈ config.wordSpans 0 0 initial 0 samples, span.2 = 0) := by
  cases samples with
  | nil => simp [spiRun, spiFastRun, SpiConfig.wordSpans]
  | cons first rest =>
      have spans := SpiFastState.scan_start config first initial 0 (first :: rest)
      have agreed : ∀ {s : SpiState} {f : SpiFastState}, s.Agrees config f →
          (spiWords f.protos).map SpiOut.span =
            (config.wordSpans 0 0 initial 0 (first :: rest)).flatMap (fun span => [span, span]) →
          (spiWords s.protos = spiWords f.protos ↔
            (config.haveMosi = true ∨ config.haveMiso = true ∨
              ∀ span ∈ config.wordSpans 0 0 initial 0 (first :: rest), span.2 = 0)) := by
        intro s f agrees span
        rw [agrees.words]
        exact map_spiEnd_eq_self span
      have started := SpiState.start_agrees config first
      have waits := (SpiState.start_view config first).1
      unfold spiRun spiFastRun
      dsimp only
      cases noCs : config.haveCs with
      | true =>
          rw [noCs] at waits
          rw [agreed (started.scan waits initial 0 (first :: rest)) spans]
          simp only [true_or, true_and]
      | false =>
          rw [noCs] at waits
          cases firstEdge : config.firstEdgeSamples initial (first :: rest) with
          | false =>
              rw [agreed (started.scan_wait noCs waits firstEdge 0) spans]
              simp only [true_or, or_true, true_and]
          | true =>
              rw [late_words_eq_iff noCs first firstEdge 0]
              constructor
              · intro none
                refine ⟨Or.inr (Or.inr none), Or.inr (Or.inr ?_)⟩
                rw [none]
                exact fun span member => absurd member not_mem_nil
              · rintro ⟨noCs' | firstEdge' | none, -⟩
                · cases noCs'
                · cases firstEdge'
                · exact none

def mosiConfig : SpiConfig :=
  { cpol := false
    cpha := false
    wordsize := 8
    msbFirst := true
    csActiveHigh := false
    haveMiso := false
    haveMosi := true
    haveCs := false
    valid := by decide }

def eightClocks : List SpiPins :=
  (List.replicate 8 [⟨false, false, true, true⟩, ⟨true, false, true, true⟩]).flatten

theorem spiRun_eightClocks : ¬∀ (config : SpiConfig) (initial : SpiPins) (samples : List SpiPins),
      spiRun config initial samples = spiFastRun config initial samples := by
  intro agree
  have same := congrArg List.length (agree mosiConfig ⟨false, false, true, true⟩ eightClocks)
  revert same
  decide +kernel

end SigrokDecode
