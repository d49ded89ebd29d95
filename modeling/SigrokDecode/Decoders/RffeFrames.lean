import SigrokDecode.Decoders.Rffe

/-!
# RFFE frames are reported as sent

Every wait of the decoder ends at one of the events on the lines, and every field takes as many
of them as it has bits.
-/

set_option linter.dupNamespace false

namespace SigrokDecode

open Foundation List RffePins

namespace RffeState

def onRise (s : RffeState) (samplenum : Nat) : RffeState :=
  match s.wait with
  | .sscPulse => { s with wait := .sscStart }
  | .sscClock => s.foundSsc samplenum
  | .bitRise => s.endBit samplenum
  | .commandFirstRise => (s.cmdset .r0w .findData samplenum).resume samplenum
  | .commandRise => { s with bitcount := s.bitcount + 1 }.resume samplenum
  | _ => s

def onFall (s : RffeState) (samplenum : Nat) (level : Bool) : RffeState :=
  match s.wait with
  | .bitFall =>
      { s with
        latched := level
        wait := .bitRise }
  | .bitFallAgain =>
      { s.illegalEdge samplenum with
        latched := level
        wait := .bitRise }
  | .commandFirst =>
      if level then { s with wait := .commandFirstRise } else { s with wait := .commandFall }
  | .commandFall =>
      { s with
        sdata := level
        wait := .commandRise }
  | .commandFallAgain =>
      { s.illegalEdge samplenum with
        sdata := level
        wait := .commandRise }
  | .busPark => if level then s else s.endBusPark samplenum
  | _ => s

def onSdata (s : RffeState) (samplenum : Nat) (level : Bool) : RffeState :=
  rffeDecode.step s ⟨false, !level⟩ ⟨false, level⟩ samplenum

theorem step_rise (s : RffeState) (before level : Bool) (samplenum : Nat) :
    rffeDecode.step s ⟨false, before⟩ ⟨true, level⟩ samplenum = s.onRise samplenum := by
  unfold SampleDecoder.step rffeDecode
  cases waits : s.wait <;>
    simp [wakes, wake, onRise, waits, falls, jumps, rises]

theorem step_fall (s : RffeState) (level : Bool) (samplenum : Nat) :
    rffeDecode.step s ⟨true, level⟩ ⟨false, level⟩ samplenum = s.onFall samplenum level := by
  unfold SampleDecoder.step rffeDecode
  cases waits : s.wait <;> cases level <;>
    simp [wakes, wake, onFall, waits, falls, jumps, rises]

/-- These things have happened at some samples. -/
inductive Reads : RffeState → List RffeEvent → RffeState → Prop
  | done (s : RffeState) : Reads s [] s
  | rise (samplenum : Nat) {s t : RffeState} {events : List RffeEvent}
      (behind : Reads (s.onRise samplenum) events t) : Reads s (.rise :: events) t
  | fall (samplenum : Nat) {s t : RffeState} {level : Bool} {events : List RffeEvent}
      (behind : Reads (s.onFall samplenum level) events t) : Reads s (.fall level :: events) t
  | sdata (samplenum : Nat) {s t : RffeState} {level : Bool} {events : List RffeEvent}
      (behind : Reads (s.onSdata samplenum level) events t) : Reads s (.sdata level :: events) t

variable {s : RffeState}

theorem Reads.split {front back : List RffeEvent} {t : RffeState}
    (reads : Reads s (front ++ back) t) : ∃ middle, Reads s front middle ∧ Reads middle back t := by
  induction front generalizing s with
  | nil => exact ⟨s, .done s, reads⟩
  | cons event front ih =>
      cases reads with
      | rise samplenum behind =>
          obtain ⟨middle, first, last⟩ := ih behind
          exact ⟨middle, .rise samplenum first, last⟩
      | fall samplenum behind =>
          obtain ⟨middle, first, last⟩ := ih behind
          exact ⟨middle, .fall samplenum first, last⟩
      | sdata samplenum behind =>
          obtain ⟨middle, first, last⟩ := ih behind
          exact ⟨middle, .sdata samplenum first, last⟩

/-- While nothing happens the decoder sleeps. -/
structure Rests (s : RffeState) (pins : RffePins) : Prop where
  pulse : s.wait = .sscPulse → pins = ⟨false, true⟩
  park : s.wait = .busPark → pins ≠ ⟨false, false⟩

theorem wait_readCommand (s : RffeState) (samplenum : Nat) :
    (s.readCommand samplenum).wait ∈ [.sscStart, .bitFall, .commandFall] := by
  rw [readCommand]
  repeat' split
  all_goals exact of_decide_eq_true rfl

theorem wait_resume (s : RffeState) (samplenum : Nat) :
    (s.resume samplenum).wait ∈ [.sscStart, .bitFall, .commandFirst, .commandFall, .busPark] := by
  rw [resume]
  cases s.state with
  | findCommand =>
      show (s.startCommand samplenum).wait ∈ _
      rw [startCommand]
      dsimp only
      split
      · exact of_decide_eq_true rfl
      · have waits := wait_readCommand { s with busParkStart := samplenum } samplenum
        simp only [mem_cons, not_mem_nil, or_false] at waits ⊢
        tauto
  | findSsc | findSlaveAddress | findByteCount | findAddress | findData | findParity
  | findBusPark => exact of_decide_eq_true rfl

theorem wait_endBusPark (s : RffeState) (samplenum : Nat) :
    (s.endBusPark samplenum).wait ∈ [.sscStart, .bitFall] := by
  rw [endBusPark, leaveBusPark]
  repeat' split
  all_goals exact of_decide_eq_true rfl

theorem ne_of_mem_waits {wait other : RffeWait} {waits : List RffeWait} (member : wait ∈ waits)
    (absent : other ∉ waits) : wait ≠ other := by
  rintro rfl
  exact absent member

theorem rests_onRise (s : RffeState) (samplenum : Nat) (level : Bool) :
    (s.onRise samplenum).Rests ⟨true, level⟩ := by
  refine ⟨fun pulse => ?_, fun _ => nofun⟩
  have resumed : ∀ t : RffeState, (t.resume samplenum).wait ≠ .sscPulse := fun t =>
    ne_of_mem_waits (wait_resume t samplenum) (by decide)
  revert pulse
  unfold onRise
  cases waits : s.wait with
  | sscPulse => exact nofun
  | sscClock | bitRise | commandFirstRise | commandRise =>
      exact fun pulse => absurd pulse (resumed _)
  | sscStart | bitFall | bitFallAgain | commandFirst | commandFall | commandFallAgain | busPark =>
      exact fun pulse => absurd (waits.symm.trans pulse) nofun

theorem rests_onFall (level : Bool) (rests : s.Rests ⟨true, level⟩)
    (samplenum : Nat) : (s.onFall samplenum level).Rests ⟨false, level⟩ := by
  have parked := wait_endBusPark s samplenum
  unfold onFall
  cases waits : s.wait with
  | sscPulse => exact absurd (rests.pulse waits) nofun
  | busPark =>
      cases level with
      | false =>
          exact ⟨fun pulse => absurd pulse (ne_of_mem_waits parked (by decide)),
            fun park => absurd park (ne_of_mem_waits parked (by decide))⟩
      | true => exact ⟨fun pulse => absurd (waits.symm.trans pulse) nofun, fun _ => nofun⟩
  | commandFirst => cases level <;> exact ⟨nofun, nofun⟩
  | bitFall | bitFallAgain | commandFall | commandFallAgain => exact ⟨nofun, nofun⟩
  | sscStart | sscClock | bitRise | commandFirstRise | commandRise =>
      exact ⟨fun pulse => absurd (waits.symm.trans pulse) nofun,
        fun park => absurd (waits.symm.trans park) nofun⟩

theorem rests_of_wait {wait : RffeWait} (waits : s.wait = wait)
    (pulse : wait ≠ .sscPulse) (park : wait ≠ .busPark) (pins : RffePins) : s.Rests pins :=
  ⟨fun same => absurd (waits.symm.trans same) pulse,
    fun same => absurd (waits.symm.trans same) park⟩

theorem wait_wake_sdata (s : RffeState) (level : Bool) (samplenum : Nat)
    (awake : s.wakes ⟨false, !level⟩ ⟨false, level⟩ = true) :
    (s.wake ⟨false, !level⟩ ⟨false, level⟩ samplenum).wait ∈
      [.sscStart, .sscPulse, .sscClock, .bitFall, .bitFallAgain, .commandFallAgain,
        .commandRise] := by
  have parked := wait_endBusPark s samplenum
  cases waits : s.wait with
  | busPark =>
      simp only [wake, waits, mem_cons, not_mem_nil, or_false] at parked ⊢
      tauto
  | bitRise | commandFirst | commandFirstRise | commandRise =>
      simp [wakes, waits, falls, rises] at awake
  | commandFall =>
      have display : s.display = true := by
        cases level <;> simpa [wakes, waits, falls, jumps] using awake
      cases level <;> simp [wake, waits, display, falls, jumps]
  | sscStart | sscPulse | sscClock | bitFall | bitFallAgain | commandFallAgain =>
      cases level <;> simp [wake, waits, falls, jumps]

theorem rests_onSdata (level : Bool) (rests : s.Rests ⟨false, !level⟩)
    (samplenum : Nat) : (s.onSdata samplenum level).Rests ⟨false, level⟩ := by
  rw [onSdata]
  by_cases awake : rffeDecode.wakes s ⟨false, !level⟩ ⟨false, level⟩ = true
  · rw [SampleDecoder.step_awake _ awake]
    have behind := wait_wake_sdata s level samplenum awake
    refine ⟨fun pulse => ?_, fun park => absurd park (ne_of_mem_waits behind (by decide))⟩
    cases level with
    | true => rfl
    | false =>
        have parked := wait_endBusPark s samplenum
        change s.wakes ⟨false, true⟩ ⟨false, false⟩ = true at awake
        change (s.wake ⟨false, true⟩ ⟨false, false⟩ samplenum).wait = .sscPulse at pulse
        cases waits : s.wait with
        | busPark =>
            rw [wake, waits] at pulse
            exact absurd pulse (ne_of_mem_waits parked (by decide))
        | sscStart | bitRise | commandFirst | commandFirstRise | commandRise =>
            simp [wakes, waits, falls, rises] at awake
        | sscPulse | sscClock | bitFall | bitFallAgain | commandFallAgain =>
            simp [wake, waits, falls, jumps] at pulse
        | commandFall =>
            cases display : s.display <;>
              simp [wake, waits, display, falls, jumps] at pulse
  · have asleep := Bool.eq_false_of_not_eq_true awake
    rw [SampleDecoder.step_asleep _ asleep]
    change s.wakes ⟨false, !level⟩ ⟨false, level⟩ = false at asleep
    refine ⟨fun pulse => ?_, fun park => ?_⟩
    · have high := (RffePins.mk.inj (rests.pulse pulse)).2
      cases level with
      | true => cases high
      | false => simp [wakes, pulse] at asleep
    · cases level with
      | true => exact nofun
      | false => simp [wakes, park] at asleep

theorem wakes_still {pins : RffePins} (rests : s.Rests pins) : s.wakes pins pins = false := by
  obtain ⟨sclk, sdata⟩ := pins
  cases waits : s.wait with
  | sscPulse =>
      obtain ⟨rfl, rfl⟩ := RffePins.mk.inj (rests.pulse waits)
      simp [wakes, waits]
  | busPark =>
      have park := rests.park waits
      cases sclk <;> cases sdata <;> simp_all [wakes]
  | sscStart | sscClock | bitFall | bitFallAgain | bitRise | commandFirst | commandFirstRise
  | commandFall | commandFallAgain | commandRise =>
      simp [wakes, waits, falls, jumps, rises]

theorem wakes_change {before : Bool} (rests : s.Rests ⟨true, before⟩)
    (level : Bool) : s.wakes ⟨true, before⟩ ⟨true, level⟩ = false := by
  cases waits : s.wait with
  | sscPulse => exact absurd (rests.pulse waits) nofun
  | sscStart | sscClock | bitFall | bitFallAgain | bitRise | commandFirst | commandFirstRise
  | commandFall | commandFallAgain | commandRise | busPark =>
      simp [wakes, waits, falls, jumps, rises]

end RffeState

theorem RffeLine.reads {pins : RffePins} {events : List RffeEvent} {samples : List RffePins}
    (line : RffeLine pins events samples) {s : RffeState} (rests : s.Rests pins)
    (samplenum : Nat) : s.Reads events (rffeDecode.scan s pins samplenum samples) := by
  induction line generalizing s samplenum with
  | done pins => exact .done s
  | still behind ih =>
      rw [SampleDecoder.scan_cons, SampleDecoder.step_asleep _ (RffeState.wakes_still rests)]
      exact ih rests (samplenum + 1)
  | @change before level events samples behind ih =>
      have still : s.Rests ⟨true, level⟩ :=
        ⟨fun pulse => absurd (rests.pulse pulse) nofun, fun _ => nofun⟩
      rw [SampleDecoder.scan_cons, SampleDecoder.step_asleep _ (RffeState.wakes_change rests level)]
      exact ih still (samplenum + 1)
  | rise behind ih =>
      rw [SampleDecoder.scan_cons, RffeState.step_rise]
      exact .rise samplenum (ih (RffeState.rests_onRise s samplenum _) (samplenum + 1))
  | fall behind ih =>
      rw [SampleDecoder.scan_cons, RffeState.step_fall]
      exact .fall samplenum (ih (RffeState.rests_onFall _ rests samplenum) (samplenum + 1))
  | sdata behind ih =>
      exact .sdata samplenum (ih (RffeState.rests_onSdata _ rests samplenum) (samplenum + 1))

namespace RffeState

theorem texts_put (s : RffeState) {text : RffeText} (shown : text ≠ .parityWarning) :
    (s.put text).texts = s.texts ++ [text] := by
  rw [texts, put, map_append, filter_append]
  exact congrArg (s.texts ++ ·) (filter_cons_of_pos (decide_eq_true shown))

theorem texts_put_parityWarning (s : RffeState) : (s.put .parityWarning).texts = s.texts := by
  rw [texts, put, map_append, filter_append]
  exact List.append_nil _

/-- A field is being read; this many bits of it are in.  The number of bits that are still to come is
set behind each bit of the byte count. -/
structure Collects (s : RffeState) (wait : RffeWait) (phase : RffePhase) (cmd : RffeCmd)
    (byteCount bits : Int) (parityCount busParkCount : Nat) (front : List Bool)
    (texts : List RffeText) : Prop where
  wait : s.wait = wait
  state : s.state = phase
  cmdkey : s.cmdkey = cmd
  byteCount : s.byteCount = byteCount
  bits : phase ≠ .findByteCount → s.bits = bits
  parityCount : s.parityCount = parityCount
  busParkCount : s.busParkCount = busParkCount
  bitcount : s.bitcount = front.length
  databyte : s.databyte = front.foldl shiftIn 0
  texts : s.texts = texts

/-- The last bit of a field has been shifted in. -/
structure Completes (s : RffeState) (phase : RffePhase) (cmd : RffeCmd) (byteCount bits : Int)
    (parityCount busParkCount : Nat) (value : Nat) (texts : List RffeText) : Prop where
  state : s.state = phase
  cmdkey : s.cmdkey = cmd
  byteCount : s.byteCount = byteCount
  bits : phase ≠ .findByteCount → s.bits = bits
  parityCount : s.parityCount = parityCount
  busParkCount : s.busParkCount = busParkCount
  databyte : s.databyte = BitVec.ofNat 32 value
  texts : s.texts = texts

variable {s t : RffeState} {wait : RffeWait} {phase : RffePhase} {cmd : RffeCmd} {byteCount bits : Int}
  {parityCount busParkCount : Nat} {front : List Bool} {texts : List RffeText}

/-- The states in which `rffe_handle` reads more than one bit. -/
def fieldPhases : List RffePhase :=
  [.findSlaveAddress, .findByteCount, .findAddress, .findData]

theorem resume_field (field : s.state ∈ fieldPhases) (samplenum : Nat) :
    s.resume samplenum = s.startField samplenum := by
  rw [resume]
  cases phase : s.state with
  | findSlaveAddress | findByteCount | findAddress | findData => rfl
  | findSsc | findCommand | findParity | findBusPark =>
      rw [phase] at field
      exact absurd field (by decide)

theorem args_congr (state : t.state = s.state) (cmdkey : t.cmdkey = s.cmdkey)
    (parityCount : t.parityCount = s.parityCount)
    (bits : s.state ≠ .findByteCount → t.bits = s.bits) : t.args = s.args := by
  rw [args, args, state, cmdkey, parityCount]
  cases phase : s.state with
  | findByteCount => rfl
  | findSsc | findSlaveAddress | findCommand | findAddress | findData | findParity
  | findBusPark => rw [bits (by rw [phase]; exact nofun)]

theorem afterHandle_eq (s : RffeState) {phase : RffePhase} (other : phase ≠ .findParity) :
    s.afterHandle phase =
      { s with bits := if phase = .findByteCount then s.byteCount * 8 else s.bits } := by
  cases phase with
  | findParity => exact absurd rfl other
  | findSsc | findSlaveAddress | findCommand | findByteCount | findAddress | findData
  | findBusPark => rfl

theorem Collects.fall
    (collects : s.Collects .bitFall phase cmd byteCount bits parityCount busParkCount front texts)
    (samplenum : Nat) (bit : Bool) :
    (s.onFall samplenum bit).Collects .bitRise phase cmd byteCount bits parityCount busParkCount
        front texts ∧
      (s.onFall samplenum bit).latched = bit ∧ (s.onFall samplenum bit).args = s.args := by
  have fallen : s.onFall samplenum bit =
      { s with
        latched := bit
        wait := .bitRise } := by
    rw [onFall, collects.wait]
  rw [fallen]
  exact ⟨{ collects with wait := rfl }, rfl, rfl⟩

theorem Collects.onRise
    (collects : s.Collects .bitRise phase cmd byteCount bits parityCount busParkCount front texts)
    (samplenum : Nat) : s.onRise samplenum = s.endBit samplenum := by
  rw [RffeState.onRise, collects.wait]

theorem Collects.early
    (collects : s.Collects .bitRise phase cmd byteCount bits parityCount busParkCount front texts)
    (field : phase ∈ fieldPhases) (more : (front.length : Int) < lastBit s.args)
    (samplenum : Nat) :
    (s.endBit samplenum).Collects .bitFall phase cmd byteCount bits parityCount busParkCount
        (front ++ [s.latched]) texts ∧
      (s.endBit samplenum).args = s.args := by
  have other : phase ≠ .findParity := by
    rintro rfl
    exact absurd field (by decide)
  have handled : s.handle samplenum =
      { s with
        databyte := shiftIn s.databyte s.latched
        bitcount := s.bitcount + 1 } := by
    rw [handle, decide_eq_true (by rw [collects.bitcount]; exact more)]
    rfl
  have ended : s.endBit samplenum =
      { s with
        databyte := shiftIn s.databyte s.latched
        bitcount := s.bitcount + 1
        bits := if phase = .findByteCount then s.byteCount * 8 else s.bits
        busParkStart := samplenum
        dataStart := if s.bitcount + 1 = 0 then samplenum else s.dataStart
        wait := .bitFall } := by
    have split : s.endBit samplenum =
        ((s.handle samplenum).afterHandle phase).resume samplenum := by
      rw [endBit, collects.state]
    rw [split, handled, afterHandle_eq _ other,
      resume_field (by rw [show _ = phase from collects.state]; exact field)]
    rfl
  rw [ended]
  refine ⟨⟨rfl, collects.state, collects.cmdkey, collects.byteCount, fun different => ?_,
    collects.parityCount, collects.busParkCount, ?_, ?_, collects.texts⟩,
    args_congr rfl rfl rfl fun different => ?_⟩
  · exact (if_neg different).trans (collects.bits different)
  · rw [length_append, length_singleton]
    exact congrArg (· + 1) collects.bitcount
  · rw [foldl_append, foldl_cons, foldl_nil, ← collects.databyte]
  · rw [collects.state] at different
    exact if_neg different

variable {bits' : List Bool} {value : Nat} {args : RffeArgs}

theorem Collects.takes (reads : Reads s (rffeBits bits') t)
    (collects : s.Collects .bitFall phase cmd byteCount bits parityCount busParkCount front texts)
    (field : 0 < lastBit s.args → phase ∈ fieldPhases)
    (fits : ((front ++ bits').length : Int) ≤ lastBit s.args) :
    t.Collects .bitFall phase cmd byteCount bits parityCount busParkCount (front ++ bits') texts ∧
      t.args = s.args := by
  induction bits' generalizing s front with
  | nil =>
      obtain _ | _ | _ | _ := reads
      rw [List.append_nil]
      exact ⟨collects, rfl⟩
  | cons bit later ih =>
      obtain _ | _ | ⟨fallAt, behind⟩ | _ := reads
      obtain _ | ⟨riseAt, behind⟩ | _ | _ := behind
      obtain ⟨fallen, latched, sameArgs⟩ := collects.fall fallAt bit
      have more : (front.length : Int) < lastBit s.args := by
        rw [length_append, length_cons] at fits
        omega
      obtain ⟨risen, keptArgs⟩ := fallen.early (field (by omega)) (sameArgs ▸ more) riseAt
      rw [fallen.onRise] at behind
      rw [latched] at risen
      rw [sameArgs] at keptArgs
      rw [append_cons] at fits ⊢
      obtain ⟨taken, args⟩ := ih behind risen (keptArgs ▸ field) (keptArgs ▸ fits)
      exact ⟨taken, args.trans keptArgs⟩

theorem Collects.last
    (collects : s.Collects .bitRise phase cmd byteCount bits parityCount busParkCount front texts)
    (whole : (front.length : Int) = lastBit s.args) (samplenum : Nat) :
    ∃ u : RffeState, u.Completes phase cmd byteCount bits parityCount busParkCount
        (packMsb (front ++ [s.latched])) texts ∧
      s.endBit samplenum = ((u.finishField s.args samplenum).afterHandle phase).resume samplenum := by
  have handled : s.handle samplenum =
      { s with databyte := shiftIn s.databyte s.latched }.finishField s.args samplenum := by
    rw [handle, decide_eq_false (by rw [collects.bitcount, whole]; exact lt_irrefl _)]
    rfl
  have split : s.endBit samplenum = ((s.handle samplenum).afterHandle phase).resume samplenum := by
    rw [endBit, collects.state]
  refine ⟨{ s with databyte := shiftIn s.databyte s.latched }, { collects with databyte := ?_ }, ?_⟩
  · rw [← foldl_shiftIn, foldl_append, foldl_cons, foldl_nil, ← collects.databyte]
  · rw [split, handled]

theorem rffeBits_append (front back : List Bool) :
    rffeBits (front ++ back) = rffeBits front ++ rffeBits back :=
  flatMap_append

theorem Collects.whole (reads : Reads s (rffeBits bits') t)
    (collects : s.Collects .bitFall phase cmd byteCount bits parityCount busParkCount [] texts)
    (field : 0 < lastBit s.args → phase ∈ fieldPhases) (some : 0 ≤ lastBit s.args)
    (length : (bits'.length : Int) = lastBit s.args + 1) :
    ∃ (u : RffeState) (samplenum : Nat),
      u.Completes phase cmd byteCount bits parityCount busParkCount (packMsb bits') texts ∧
        t = ((u.finishField s.args samplenum).afterHandle phase).resume samplenum := by
  obtain ⟨front, bit, rfl⟩ : ∃ front bit, bits' = front ++ [bit] := by
    rcases eq_nil_or_concat bits' with rfl | ⟨front, bit, rfl⟩
    · exact absurd length (by rw [length_nil]; omega)
    · exact ⟨front, bit, concat_eq_append⟩
  rw [length_append, length_singleton] at length
  rw [rffeBits_append] at reads
  obtain ⟨middle, front', last⟩ := reads.split
  obtain ⟨taken, args⟩ := collects.takes front' field (by rw [nil_append]; omega)
  obtain _ | _ | ⟨fallAt, behind⟩ | _ := last
  obtain _ | ⟨riseAt, behind⟩ | _ | _ := behind
  obtain _ | _ | _ | _ := behind
  obtain ⟨fallen, latched, sameArgs⟩ := taken.fall fallAt bit
  have place : ((([] : List Bool) ++ front).length : Int) =
      lastBit (middle.onFall fallAt bit).args := by
    rw [sameArgs, args, nil_append]
    omega
  obtain ⟨u, completes, ended⟩ := fallen.last place riseAt
  rw [latched, nil_append] at completes
  rw [sameArgs, args] at ended
  exact ⟨u, riseAt, completes, (fallen.onRise riseAt).trans ended⟩

theorem resume_parity (parity : s.state = .findParity) (samplenum : Nat) : s.resume samplenum =
      { s with parityCount := s.parityCount + 1 }.startField samplenum := by
  rw [resume, parity]

theorem Completes.shown
    (completes : s.Completes phase cmd byteCount bits parityCount busParkCount value texts) (next : args.next = .findParity)
    (kind : args.field = .address ∨ args.field = .data) (small : value < 2 ^ 32)
    (other : phase ≠ .findByteCount) (different : phase ≠ .findParity) (samplenum : Nat) :
    (((s.finishField args samplenum).afterHandle phase).resume samplenum).Collects .bitFall
      .findParity cmd byteCount (if args.field = .data then bits - 8 else bits) (parityCount + 1)
      busParkCount [] (texts ++ [RffeText.field args.field args.key args.key0 value]) := by
  have notParity : ¬ args.field = .parity := by
    rcases kind with same | same <;> rw [same] <;> exact nofun
  have notCount : ¬ args.field = .byteCount := by
    rcases kind with same | same <;> rw [same] <;> exact nofun
  have finished : (s.finishField args samplenum).afterHandle phase =
      { s with
        ss := s.dataStart
        es := samplenum
        parityData := s.databyte
        parityKey := lastBit args }.putField args := by
    rw [finishField, if_neg notParity, afterHandle_eq _ different]
    dsimp only
    rw [if_neg notCount, if_neg other]
  have showsValue : s.databyte.toNat = value := by
    rw [completes.databyte, BitVec.toNat_ofNat, Nat.mod_eq_of_lt small]
  rw [finished]
  rw [resume_parity (show _ = RffePhase.findParity from next)]
  refine ⟨rfl, next, completes.cmdkey, completes.byteCount, fun _ => ?_,
    congrArg (· + 1) completes.parityCount, completes.busParkCount, rfl, rfl, ?_⟩
  · rw [← completes.bits other]
    rfl
  · rw [← completes.texts, ← showsValue]
    exact texts_put _ nofun

theorem Completes.counted
    (completes : s.Completes .findByteCount cmd byteCount bits parityCount busParkCount value texts) (next : args.next = .findParity) (kind : args.field = .byteCount)
    (few : (value : Int) < maxByteCount cmd) (samplenum : Nat) :
    (((s.finishField args samplenum).afterHandle .findByteCount).resume samplenum).Collects .bitFall
      .findParity cmd (value + 1) ((value + 1) * 8) (parityCount + 1) busParkCount []
      (texts ++ [RffeText.field .byteCount args.key args.key0 value]) := by
  have most : maxByteCount cmd ≤ 16 := by
    rw [maxByteCount]
    split <;> decide
  have small : value < 16 := by omega
  have showsValue : s.databyte.toNat = value := by
    rw [completes.databyte, BitVec.toNat_ofNat, Nat.mod_eq_of_lt (by omega)]
  have next' : (s.databyte + 1).toNat = value + 1 := by
    rw [BitVec.toNat_add, showsValue, show (1 : BitVec 32).toNat = 1 from rfl]
    omega
  have count : (s.databyte + 1).toInt = value + 1 := by
    rw [BitVec.toInt_eq_toNat_of_lt (by rw [next']; omega), next']
    rfl
  have finished : (s.finishField args samplenum).afterHandle .findByteCount =
      { { s with
            ss := s.dataStart
            es := samplenum
            parityData := s.databyte
            parityKey := lastBit args
            byteCount := (s.databyte + 1).toInt }.putField args with
        bits := (s.databyte + 1).toInt * 8 } := by
    have inRange : ¬ ((s.databyte + 1).toInt < 1 ∨
        maxByteCount s.cmdkey < (s.databyte + 1).toInt) := by
      rw [count, completes.cmdkey]
      omega
    rw [finishField, if_neg (by rw [kind]; exact nofun)]
    dsimp only
    rw [if_pos kind, putByteCount]
    dsimp only
    rw [if_neg inRange]
    rfl
  rw [finished, resume_parity (show _ = RffePhase.findParity from next)]
  refine ⟨rfl, next, completes.cmdkey, count, fun _ => ?_,
    congrArg (· + 1) completes.parityCount, completes.busParkCount, rfl, rfl, ?_⟩
  · exact congrArg (· * 8) count
  · rw [← completes.texts, ← showsValue, ← kind]
    exact texts_put _ nofun

theorem checkParity_eq (s : RffeState) : ∃ parity parityData parityKey anns, s.checkParity =
          { s with
            parity := parity
            parityData := parityData
            parityKey := parityKey
            anns := anns } ∧
        s.checkParity.texts = s.texts := by
  rw [checkParity]
  split
  · dsimp only
    split
    · exact ⟨_, _, _, _, rfl, texts_put_parityWarning _⟩
    · exact ⟨_, _, _, s.anns, rfl, rfl⟩
  · exact ⟨s.parity, s.parityData, s.parityKey, s.anns, rfl, rfl⟩

structure Checked (s : RffeState) (cmd : RffeCmd) (byteCount bits : Int)
    (parityCount busParkCount : Nat) (texts : List RffeText) : Prop where
  cmdkey : s.cmdkey = cmd
  byteCount : s.byteCount = byteCount
  bits : s.bits = bits
  parityCount : s.parityCount = parityCount
  busParkCount : s.busParkCount = busParkCount
  bitcount : s.bitcount = 0
  databyte : s.databyte = 0
  texts : s.texts = texts

theorem Completes.checked {bit : Bool}
    (completes : s.Completes .findParity cmd byteCount bits parityCount busParkCount bit.toNat texts) (kind : args.field = .parity) (samplenum : Nat) :
    (s.finishField args samplenum).Checked cmd byteCount bits parityCount busParkCount
      (texts ++ [.parity bit.toNat]) := by
  have showsBit : s.databyte.toNat = bit.toNat := by
    rw [completes.databyte, BitVec.toNat_ofNat]
    cases bit <;> rfl
  have finished : s.finishField args samplenum =
      { s with
        ss := s.dataStart
        es := samplenum }.putParity args.next := by
    rw [finishField, if_pos kind]
  obtain ⟨t, same⟩ : ∃ t, t = { s with
    ss := s.dataStart
    es := samplenum
    parityEnd := s.busParkStart } := ⟨_, rfl⟩
  obtain ⟨parity, parityData, parityKey, anns, checked, shown⟩ := t.checkParity_eq
  have put : s.finishField args samplenum =
      { t.checkParity.put (.parity bit.toNat) with
        bitcount := 0
        databyte := 0
        state := args.next } := by
    rw [finished, putParity, same, ← showsBit]
  have before : t.texts = texts := by
    rw [same]
    exact completes.texts
  have after : (t.checkParity.put (.parity bit.toNat)).texts = texts ++ [.parity bit.toNat] := by
    have bitText : RffeText.parity bit.toNat ≠ .parityWarning := nofun
    rw [texts_put _ bitText, shown, before]
  rw [checked, same] at after
  rw [put, checked, same]
  exact { completes with
      bits := completes.bits nofun
      bitcount := rfl
      databyte := rfl
      texts := after }

structure Parks (s : RffeState) (cmd : RffeCmd) (byteCount bits : Int)
    (parityCount busParkCount : Nat) (texts : List RffeText) : Prop where
  wait : s.wait = .busPark
  checked : s.Checked cmd byteCount bits parityCount busParkCount texts

theorem Collects.parity {bit : Bool} (reads : Reads s [.fall bit, .rise] t)
    (collects : s.Collects .bitFall .findParity cmd byteCount bits parityCount busParkCount []
      texts) :
    ∃ (u : RffeState) (samplenum : Nat),
      u.Checked cmd byteCount bits parityCount busParkCount (texts ++ [.parity bit.toNat]) ∧
        t = u.afterParity.resume samplenum := by
  have args : s.args = ⟨.parity, .findParity, 0, 0⟩ := by rw [RffeState.args, collects.state]
  have last : lastBit s.args = 0 := by
    rw [args]
    rfl
  have single : Reads s (rffeBits [bit]) t := reads
  obtain ⟨u, samplenum, completes, ended⟩ := collects.whole single
    (by rw [last]; exact fun impossible => absurd impossible (lt_irrefl 0)) (by rw [last])
    (by rw [last]; rfl)
  have value : packMsb [bit] = bit.toNat := by
    cases bit <;> rfl
  rw [value] at completes
  exact ⟨_, samplenum, completes.checked (by rw [args]) samplenum, ended⟩

theorem Checked.field
    (checked : s.Checked cmd byteCount bits parityCount busParkCount texts) {phase : RffePhase}
    (field : phase ∈ fieldPhases) {addCount : Nat} (samplenum : Nat) :
    ({ s with
        addCount := addCount
        state := phase }.resume samplenum).Collects .bitFall phase cmd byteCount bits parityCount
      busParkCount [] texts := by
  rw [resume_field field]
  exact { checked with wait := rfl, state := rfl, bits := fun _ => checked.bits }

theorem Checked.park
    (checked : s.Checked cmd byteCount bits parityCount busParkCount texts) (count samplenum : Nat) :
    ({ s with
        busParkCount := count
        state := .findBusPark }.resume samplenum).Parks cmd byteCount bits parityCount count
      texts :=
  ⟨rfl, checked.cmdkey, checked.byteCount, checked.bits, checked.parityCount, rfl,
    checked.bitcount, checked.databyte, checked.texts⟩

/-! ## Commands -/

structure Commands (s : RffeState) (wait : RffeWait) (bitcount : Nat) (bits : Int)
    (texts : List RffeText) : Prop where
  wait : s.wait = wait
  state : s.state = .findCommand
  cmdkey : s.cmdkey = .none
  byteCount : s.byteCount = 0
  bits : s.bits = bits
  parityCount : s.parityCount = 0
  busParkCount : s.busParkCount = 0
  bitcount : s.bitcount = bitcount
  databyte : s.databyte = 0
  texts : s.texts = texts

variable {bitcount : Nat}

theorem Collects.slaveAddress (reads : Reads s (rffeBits bits') t)
    (collects : s.Collects .bitFall .findSlaveAddress .none 0 bits 0 0 [] texts)
    (four : bits'.length = 4) :
    t.Commands .commandFirst 0 bits
      (texts ++ [RffeText.field .slaveAddress 3 0 (packMsb bits')]) := by
  have args : s.args = ⟨.slaveAddress, .findCommand, 3, 0⟩ := by rw [RffeState.args, collects.state]
  have last : lastBit s.args = 3 := by
    rw [args]
    rfl
  obtain ⟨u, samplenum, completes, ended⟩ := collects.whole reads (fun _ => by decide)
    (by rw [last]; decide) (by rw [last, four]; rfl)
  have value : u.databyte.toNat = packMsb bits' := by
    have small := packMsb_lt bits'
    rw [four] at small
    rw [completes.databyte, BitVec.toNat_ofNat, Nat.mod_eq_of_lt (by omega)]
  rw [ended, args, ← value]
  refine { completes with
      wait := rfl
      state := rfl
      bits := completes.bits nofun
      bitcount := rfl
      databyte := rfl
      texts := ?_ }
  rw [← completes.texts]
  exact texts_put _ nofun

theorem Commands.cmdset (commands : s.Commands wait bitcount bits texts) (cmd : RffeCmd)
    (phase : RffePhase) (samplenum : Nat) :
    ((s.cmdset cmd phase samplenum).startField samplenum).Collects .bitFall phase cmd 0 bits 0 0 []
      (texts ++ [RffeText.command cmd]) := by
  refine { commands with
      wait := rfl
      state := rfl
      cmdkey := rfl
      bits := fun _ => commands.bits
      bitcount := rfl
      texts := ?_ }
  rw [← commands.texts]
  exact texts_put _ nofun

theorem Commands.register0 (reads : Reads s [.fall true, .rise] t)
    (commands : s.Commands .commandFirst 0 bits texts) :
    t.Collects .bitFall .findData .r0w 0 bits 0 0 [] (texts ++ [RffeText.command .r0w]) := by
  obtain _ | _ | ⟨fallAt, behind⟩ | _ := reads
  obtain _ | ⟨riseAt, behind⟩ | _ | _ := behind
  obtain _ | _ | _ | _ := behind
  have fallen : s.onFall fallAt true = { s with wait := .commandFirstRise } := by
    rw [onFall, commands.wait]
    rfl
  rw [fallen]
  have waits : { s with wait := .commandFirstRise }.Commands .commandFirstRise 0 bits texts :=
    { commands with wait := rfl }
  exact waits.cmdset .r0w .findData riseAt

theorem Commands.first (reads : Reads s [.fall false, .rise] t)
    (commands : s.Commands .commandFirst 0 bits texts) : t.Commands .commandFall 0 bits texts := by
  obtain _ | _ | ⟨fallAt, behind⟩ | _ := reads
  obtain _ | ⟨riseAt, behind⟩ | _ | _ := behind
  obtain _ | _ | _ | _ := behind
  have fallen : s.onFall fallAt false = { s with wait := .commandFall } := by
    rw [onFall, commands.wait]
    rfl
  rw [fallen]
  exact { commands with wait := rfl }

theorem Commands.bit {bit : Bool} (reads : Reads s [.fall bit, .rise] t)
    (commands : s.Commands .commandFall bitcount bits texts) :
    ∃ (u : RffeState) (samplenum : Nat),
      u.Commands .commandRise (bitcount + 1) bits texts ∧ u.sdata = bit ∧
        u.extended = s.extended ∧ u.isWrite = s.isWrite ∧ t = u.readCommand samplenum := by
  obtain _ | _ | ⟨fallAt, behind⟩ | _ := reads
  obtain _ | ⟨riseAt, behind⟩ | _ | _ := behind
  obtain _ | _ | _ | _ := behind
  have fallen : s.onFall fallAt bit =
      { s with
        sdata := bit
        wait := .commandRise } := by
    rw [onFall, commands.wait]
  refine ⟨{ s with
    sdata := bit
    wait := .commandRise
    bitcount := s.bitcount + 1
    busParkStart := riseAt }, riseAt, { commands with
        wait := rfl
        bitcount := congrArg (· + 1) commands.bitcount }, rfl, rfl, rfl, ?_⟩
  rw [fallen, onRise]
  dsimp only
  rw [resume]
  dsimp only
  rw [commands.state]
  dsimp only
  rw [startCommand]
  dsimp only
  rw [if_neg (Nat.succ_ne_zero _), ← commands.state]

theorem Reads.splitBits (front back : List Bool) (reads : Reads s (rffeBits (front ++ back)) t) :
    ∃ middle, Reads s (rffeBits front) middle ∧ Reads middle (rffeBits back) t := by
  rw [rffeBits_append] at reads
  exact reads.split

theorem Reads.head {bit : Bool} {later : List Bool} (reads : Reads s (rffeBits (bit :: later)) t) :
    ∃ middle, Reads s [.fall bit, .rise] middle ∧ Reads middle (rffeBits later) t :=
  Reads.splitBits [bit] later reads

theorem Commands.second {bit : Bool} (reads : Reads s [.fall bit, .rise] t)
    (commands : s.Commands .commandFall 0 bits texts) :
    t.Commands .commandFall 1 bits texts ∧ t.extended = if bit then 0 else 1 := by
  obtain ⟨u, samplenum, read, sdata, -, -, ended⟩ := commands.bit reads
  rw [readCommand, if_pos read.bitcount, sdata] at ended
  rw [ended]
  exact ⟨{ read with wait := rfl }, rfl⟩

theorem Commands.register {read : Bool} (reads : Reads s (rffeBits [false, true, read]) t)
    (commands : s.Commands .commandFirst 0 bits texts) :
    t.Collects .bitFall .findAddress (if read then .rr else .rw) 0 bits 0 0 []
      (texts ++ [RffeText.command (if read then .rr else .rw)]) := by
  obtain ⟨behind1, first, reads⟩ := reads.head
  obtain ⟨behind2, second, reads⟩ := reads.head
  obtain ⟨two, extended⟩ := (commands.first first).second second
  obtain ⟨u, samplenum, three, sdata, kept, -, ended⟩ := two.bit reads
  have isBasic : u.extended = 0 := kept.trans extended
  rw [readCommand, if_neg (by rw [three.bitcount]; decide), if_pos three.bitcount,
    if_pos isBasic, sdata] at ended
  rw [ended]
  exact three.cmdset _ .findAddress samplenum

theorem Commands.third {read : Bool} (reads : Reads s (rffeBits [false, false, read]) t)
    (commands : s.Commands .commandFirst 0 bits texts) :
    t.Commands .commandFall 2 bits texts ∧ t.extended = 1 ∧ t.isWrite = !read := by
  obtain ⟨behind1, first, reads⟩ := reads.head
  obtain ⟨behind2, second, reads⟩ := reads.head
  obtain ⟨two, extended⟩ := (commands.first first).second second
  obtain ⟨u, samplenum, three, sdata, kept, -, ended⟩ := two.bit reads
  have isExtended : u.extended = 1 := kept.trans extended
  rw [readCommand, if_neg (by rw [three.bitcount]; decide), if_pos three.bitcount,
    if_neg (by rw [isExtended]; decide), sdata] at ended
  rw [ended]
  exact ⟨{ three with wait := rfl }, isExtended, rfl⟩

theorem Commands.extended {read : Bool} (reads : Reads s (rffeBits [false, false, read, false]) t)
    (commands : s.Commands .commandFirst 0 bits texts) :
    t.Collects .bitFall .findByteCount (if read then .err else .erw) 0 bits 0 0 []
      (texts ++ [RffeText.command (if read then .err else .erw)]) := by
  obtain ⟨behind, front, reads⟩ := Reads.splitBits [false, false, read] [false] reads
  obtain ⟨three, isExtended, isWrite⟩ := commands.third front
  obtain ⟨u, samplenum, four, sdata, keptExtended, keptWrite, ended⟩ := three.bit reads
  rw [readCommand, if_neg (by rw [four.bitcount]; decide),
    if_neg (by rw [four.bitcount]; decide), if_pos four.bitcount,
    if_pos (by rw [keptExtended, isExtended]; decide), sdata, if_neg Bool.false_ne_true, keptWrite,
    isWrite] at ended
  rw [ended]
  cases read with
  | false => exact four.cmdset .erw .findByteCount samplenum
  | true => exact four.cmdset .err .findByteCount samplenum

theorem Commands.extendedLong {read : Bool}
    (reads : Reads s (rffeBits [false, false, true, true, read]) t)
    (commands : s.Commands .commandFirst 0 bits texts) :
    t.Collects .bitFall .findByteCount (if read then .errl else .erwl) 0 bits 0 0 []
      (texts ++ [RffeText.command (if read then .errl else .erwl)]) := by
  obtain ⟨behind, front, reads⟩ := Reads.splitBits [false, false, true] [true, read] reads
  obtain ⟨three, isExtended, -⟩ := commands.third front
  obtain ⟨middle, fourth, reads⟩ := reads.head
  obtain ⟨u, samplenum, four, sdata, keptExtended, -, ended⟩ := three.bit fourth
  rw [readCommand, if_neg (by rw [four.bitcount]; decide),
    if_neg (by rw [four.bitcount]; decide), if_pos four.bitcount,
    if_pos (by rw [keptExtended, isExtended]; decide), sdata, if_pos rfl] at ended
  have last : middle.Commands .commandFall 3 bits texts := by
    rw [ended]
    exact { four with wait := rfl }
  obtain ⟨v, lastAt, five, lastBit, -, -, done⟩ := last.bit reads
  rw [readCommand, if_neg (by rw [five.bitcount]; decide), if_neg (by rw [five.bitcount]; decide),
    if_neg (by rw [five.bitcount]; decide), if_pos five.bitcount, lastBit] at done
  rw [done]
  exact five.cmdset _ .findByteCount lastAt

theorem Collects.byte {width : Nat} {parity : Bool}
    (reads : Reads s (rffeBits (msbBits width value ++ [parity])) t)
    (collects : s.Collects .bitFall phase cmd byteCount bits parityCount busParkCount [] texts)
    (field : phase = .findAddress ∨ phase = .findData) (same : s.args = args)
    (next : args.next = .findParity) (kind : args.field = .address ∨ args.field = .data)
    (wide : lastBit args + 1 = width) (small : width ≤ 32) (some : 0 < width)
    (fits : value < 2 ^ width) :
    ∃ (u : RffeState) (samplenum : Nat),
      u.Checked cmd byteCount (if args.field = .data then bits - 8 else bits) (parityCount + 1)
          busParkCount
          (texts ++ [RffeText.field args.field args.key args.key0 value, .parity parity.toNat]) ∧
        t = u.afterParity.resume samplenum := by
  obtain ⟨middle, front, last⟩ := reads.splitBits (msbBits width value) [parity]
  obtain ⟨u, samplenum, completes, ended⟩ := collects.whole front
    (fun _ => by rcases field with rfl | rfl <;> decide) (by rw [same]; omega)
    (by rw [length_msbBits, same, wide])
  rw [packMsb_msbBits fits] at completes
  rw [same] at ended
  have small : value < 2 ^ 32 := Nat.lt_of_lt_of_le fits (Nat.pow_le_pow_right (by decide) small)
  have shown := completes.shown next kind small (by rcases field with rfl | rfl <;> exact nofun)
    (by rcases field with rfl | rfl <;> exact nofun) samplenum
  rw [← ended] at shown
  obtain ⟨v, checkedAt, checked, done⟩ := shown.parity last
  rw [List.append_assoc] at checked
  exact ⟨v, checkedAt, checked, done⟩

theorem Collects.count {width : Nat} {parity : Bool}
    (reads : Reads s (rffeBits (msbBits width value ++ [parity])) t)
    (collects : s.Collects .bitFall .findByteCount cmd byteCount bits parityCount busParkCount []
      texts) (same : s.args = args) (next : args.next = .findParity)
    (kind : args.field = .byteCount) (wide : lastBit args + 1 = width) (some : 0 < width)
    (fits : value < 2 ^ width) (few : (value : Int) < maxByteCount cmd) :
    ∃ (u : RffeState) (samplenum : Nat),
      u.Checked cmd (value + 1) ((value + 1) * 8) (parityCount + 1) busParkCount
          (texts ++ [RffeText.field .byteCount args.key args.key0 value, .parity parity.toNat]) ∧
        t = u.afterParity.resume samplenum := by
  obtain ⟨middle, front, last⟩ := reads.splitBits (msbBits width value) [parity]
  obtain ⟨u, samplenum, completes, ended⟩ := collects.whole front (fun _ => by decide)
    (by rw [same]; omega) (by rw [length_msbBits, same, wide])
  rw [packMsb_msbBits fits] at completes
  rw [same] at ended
  have counted := completes.counted next kind few samplenum
  rw [← ended] at counted
  obtain ⟨v, checkedAt, checked, done⟩ := counted.parity last
  rw [List.append_assoc] at checked
  exact ⟨v, checkedAt, checked, done⟩

/-- The search for the next start condition. -/
structure Idles (s : RffeState) (texts : List RffeText) : Prop where
  wait : s.wait = .sscStart
  state : s.state = .findSsc
  cmdkey : s.cmdkey = .none
  byteCount : s.byteCount = 0
  parityCount : s.parityCount = 0
  busParkCount : s.busParkCount = 0
  bitcount : s.bitcount = 0
  databyte : s.databyte = 0
  texts : s.texts = texts

theorem Parks.onFall
    (parks : s.Parks cmd byteCount bits parityCount busParkCount texts) (samplenum : Nat) :
    s.onFall samplenum false = s.endBusPark samplenum := by
  rw [RffeState.onFall, parks.wait]
  rfl

theorem Parks.last (reads : Reads s [.fall false] t)
    (parks : s.Parks cmd byteCount bits parityCount busParkCount texts)
    (done : cmd ∈ [.err, .errl, .rr] → busParkCount ≠ 1) : t.Idles (texts ++ [.busPark]) := by
  obtain _ | _ | ⟨fallAt, behind⟩ | _ := reads
  obtain _ | _ | _ | _ := behind
  have left : ∀ u : RffeState, u.cmdkey = cmd → u.busParkCount = busParkCount →
      u.leaveBusPark = u.init := by
    intro u cmdkey count
    rw [leaveBusPark, cmdkey, count]
    by_cases slave : cmd = .err ∨ cmd = .errl ∨ cmd = .rr
    · rw [if_pos slave, if_neg (done (by simpa using slave))]
    · rw [if_neg slave]
  have leaves := left ({ s with
    ss := fallAt
    es := fallAt }.put .busPark) parks.checked.cmdkey parks.checked.busParkCount
  rw [parks.onFall, endBusPark, leaves]
  refine ⟨rfl, rfl, rfl, rfl, rfl, rfl, rfl, rfl, ?_⟩
  rw [← parks.checked.texts]
  exact texts_put _ nofun

theorem Parks.handover (reads : Reads s [.fall false, .rise] t)
    (parks : s.Parks cmd byteCount bits parityCount 1 texts) (slave : cmd ∈ [.err, .errl, .rr]) :
    t.Collects .bitFall .findData cmd byteCount bits parityCount 1 [] (texts ++ [.busPark]) := by
  obtain _ | _ | ⟨fallAt, behind⟩ | _ := reads
  obtain _ | ⟨riseAt, behind⟩ | _ | _ := behind
  obtain _ | _ | _ | _ := behind
  have left : ∀ u : RffeState, u.cmdkey = cmd → u.busParkCount = 1 →
      u.leaveBusPark = { u with state := .findData } := by
    intro u cmdkey count
    rw [leaveBusPark, cmdkey, count, if_pos (by simpa using slave), if_pos rfl]
  have checked := parks.checked
  have leaves := left ({ s with
    ss := fallAt
    es := fallAt }.put .busPark) checked.cmdkey checked.busParkCount
  have resumes : ∀ u : RffeState, { u with state := .findData }.resume fallAt =
      { u with state := .findData }.startField fallAt := fun _ => rfl
  rw [parks.onFall, endBusPark, leaves, resumes]
  refine { checked with wait := rfl, state := rfl, bits := fun _ => checked.bits, texts := ?_ }
  rw [← checked.texts]
  exact texts_put _ nofun

theorem Idles.start (reads : Reads s [.sdata true, .sdata false, .rise] t) (idles : s.Idles texts) :
    t.Collects .bitFall .findSlaveAddress .none 0 s.bits 0 0 [] (texts ++ [RffeText.ssc]) := by
  obtain _ | _ | _ | ⟨startAt, behind⟩ := reads
  obtain _ | _ | _ | ⟨stopAt, behind⟩ := behind
  obtain _ | ⟨riseAt, behind⟩ | _ | _ := behind
  obtain _ | _ | _ | _ := behind
  obtain ⟨pulse, found⟩ : ∃ pulse, pulse = { s with
    busParkStart := startAt
    wait := .sscPulse } := ⟨_, rfl⟩
  have started : s.onSdata startAt true = pulse := by
    have awake : rffeDecode.wakes s ⟨false, false⟩ ⟨false, true⟩ = true := by
      simp [rffeDecode, wakes, idles.wait]
    rw [onSdata, Bool.not_true, SampleDecoder.step_awake _ awake, found]
    simp only [rffeDecode, wake, idles.wait]
  have stopped : pulse.onSdata stopAt false = { pulse with wait := .sscClock } := by
    rw [found]
    rfl
  rw [started, stopped, found]
  refine { idles with wait := rfl, state := rfl, bits := fun _ => rfl, texts := ?_ }
  rw [← idles.texts]
  exact texts_put _ nofun

/-- The extended commands, and the number of parity bits in front of their data. -/
def addressParities : RffeCmd → Nat
  | .erwl | .errl => 3
  | _ => 2

def extendedCmds : List RffeCmd :=
  [.erw, .err, .erwl, .errl]

def slaveCmds : List RffeCmd :=
  [.err, .errl, .rr]

variable {samplenum : Nat}

theorem Checked.address (checked : s.Checked cmd byteCount bits parityCount busParkCount texts)
    (extended : cmd ∈ extendedCmds) (some : 0 < parityCount)
    (early : parityCount < addressParities cmd) (samplenum : Nat) :
    (s.afterParity.resume samplenum).Collects .bitFall .findAddress cmd byteCount bits parityCount
      busParkCount [] texts := by
  have next : ∃ addCount, s.afterParity =
      { s with
        addCount := addCount
        state := .findAddress } := by
    rw [afterParity, checked.cmdkey, checked.parityCount]
    cases cmd with
    | none | rw | rr | r0w => exact absurd extended (by decide)
    | erw | err =>
        have one : parityCount = 1 := Nat.le_antisymm (Nat.le_of_lt_succ early) some
        exact ⟨1, by dsimp only; rw [if_pos one]⟩
    | erwl | errl =>
        by_cases one : parityCount = 1
        · exact ⟨2, by dsimp only; rw [if_pos one]⟩
        · have two : parityCount = 2 := by
            have small : parityCount < 3 := early
            omega
          exact ⟨1, by dsimp only; rw [if_neg one, if_pos two]⟩
  obtain ⟨addCount, next⟩ := next
  rw [next]
  exact checked.field (by decide) samplenum

theorem Checked.write (checked : s.Checked cmd byteCount bits parityCount busParkCount texts)
    (write : cmd = .erw ∨ cmd = .erwl) (last : parityCount = addressParities cmd)
    (samplenum : Nat) :
    (s.afterParity.resume samplenum).Collects .bitFall .findData cmd byteCount bits parityCount
      busParkCount [] texts := by
  have next : s.afterParity = { s with state := .findData } := by
    rw [afterParity, checked.cmdkey, checked.parityCount, last]
    rcases write with rfl | rfl <;> rfl
  rw [next]
  exact checked.field (by decide) samplenum

theorem Checked.read (checked : s.Checked cmd byteCount bits parityCount busParkCount texts)
    (read : cmd = .err ∨ cmd = .errl) (last : parityCount = addressParities cmd)
    (samplenum : Nat) :
    (s.afterParity.resume samplenum).Parks cmd byteCount bits parityCount 1 texts := by
  have next : s.afterParity =
      { s with
        busParkCount := 1
        state := .findBusPark } := by
    rw [afterParity, checked.cmdkey, checked.parityCount, last]
    rcases read with rfl | rfl <;> rfl
  rw [next]
  exact checked.park 1 samplenum

theorem Checked.more (checked : s.Checked cmd byteCount bits parityCount busParkCount texts)
    (extended : cmd ∈ extendedCmds) (late : addressParities cmd < parityCount)
    (more : (parityCount : Int) ≠ byteCount + addressParities cmd) (samplenum : Nat) :
    (s.afterParity.resume samplenum).Collects .bitFall .findData cmd byteCount bits parityCount
      busParkCount [] texts := by
  have next : s.afterParity = { s with state := .findData } := by
    rw [afterParity, checked.cmdkey, checked.parityCount, checked.byteCount]
    cases cmd with
    | none | rw | rr | r0w => exact absurd extended (by decide)
    | erw | err =>
        have behind : 2 < parityCount := late
        have other : (parityCount : Int) ≠ byteCount + 2 := more
        dsimp only
        rw [if_neg (by omega), if_neg (by omega), if_neg other, if_pos behind]
    | erwl | errl =>
        have behind : 3 < parityCount := late
        have other : (parityCount : Int) ≠ byteCount + 3 := more
        dsimp only
        rw [if_neg (by omega), if_neg (by omega), if_neg (by omega), if_neg other, if_pos behind]
  rw [next]
  exact checked.field (by decide) samplenum

theorem Checked.last (checked : s.Checked cmd byteCount bits parityCount busParkCount texts)
    (extended : cmd ∈ extendedCmds) (late : addressParities cmd < parityCount)
    (done : (parityCount : Int) = byteCount + addressParities cmd) (samplenum : Nat) :
    (s.afterParity.resume samplenum).Parks cmd byteCount bits parityCount
      (if cmd ∈ slaveCmds then 2 else busParkCount) texts := by
  have next : s.afterParity =
      { s with
        busParkCount := if cmd ∈ slaveCmds then 2 else s.busParkCount
        state := .findBusPark } := by
    rw [afterParity, checked.cmdkey, checked.parityCount, checked.byteCount]
    cases cmd with
    | none | rw | rr | r0w => exact absurd extended (by decide)
    | erw | err =>
        have behind : 2 < parityCount := late
        have whole : (parityCount : Int) = byteCount + 2 := done
        dsimp only
        rw [if_neg (by omega), if_neg (by omega), if_pos whole]
        rfl
    | erwl | errl =>
        have behind : 3 < parityCount := late
        have whole : (parityCount : Int) = byteCount + 3 := done
        dsimp only
        rw [if_neg (by omega), if_neg (by omega), if_neg (by omega), if_pos whole]
        rfl
  rw [next, checked.busParkCount]
  exact checked.park _ samplenum

theorem Collects.dataByte {byte : RffeByte} {key : Int} (eight : 7 ≤ key)
    (reads : Reads s (rffeBits byte.bits) t)
    (collects : s.Collects .bitFall phase cmd byteCount bits parityCount busParkCount [] texts)
    (field : phase = .findAddress ∨ phase = .findData) {kind : RffeField} {key0 : Int}
    (same : s.args = ⟨kind, .findParity, key, key0⟩) (kinds : kind = .address ∨ kind = .data) :
    ∃ (u : RffeState) (samplenum : Nat),
      u.Checked cmd byteCount (if kind = .data then bits - 8 else bits) (parityCount + 1)
          busParkCount (texts ++ byte.texts kind key key0) ∧
        t = u.afterParity.resume samplenum := by
  have wide : lastBit ⟨kind, .findParity, key, key0⟩ + 1 = ((8 : Nat) : Int) := by
    rw [lastBit]
    dsimp only
    split <;> omega
  exact collects.byte reads field same rfl kinds wide (by decide) (by decide) byte.value.isLt

theorem Collects.dataBytes (extended : cmd ∈ extendedCmds) (bytes : List RffeByte)
    (some : bytes ≠ []) (reads : Reads s (rffeBits (bytes.flatMap RffeByte.bits)) t)
    (collects : s.Collects .bitFall .findData cmd byteCount (8 * bytes.length) parityCount
      busParkCount [] texts)
    (before : (parityCount : Int) + bytes.length = byteCount + addressParities cmd)
    (late : addressParities cmd ≤ parityCount) :
    ∃ bits' parityCount', t.Parks cmd byteCount bits' parityCount'
      (if cmd ∈ slaveCmds then 2 else busParkCount) (texts ++ rffeDataTexts bytes) := by
  induction bytes generalizing s parityCount texts with
  | nil => exact absurd rfl some
  | cons byte bytes ih =>
      have args : s.args = ⟨.data, .findParity, 8 * (bytes.length + 1) - 1,
          8 * (bytes.length + 1) - 8⟩ := by
        have total := collects.bits nofun
        rw [length_cons] at total
        rw [RffeState.args, collects.state, collects.cmdkey, total]
        cases cmd with
        | none | rw | rr | r0w => exact absurd extended (by decide)
        | erw | err | erwl | errl => rfl
      rw [flatMap_cons] at reads
      obtain ⟨middle, front, back⟩ := reads.splitBits _ _
      obtain ⟨u, samplenum, checked, ended⟩ := collects.dataByte (by omega) front (Or.inr rfl) args
        (Or.inr rfl)
      rw [if_pos rfl] at checked
      rw [length_cons] at before
      by_cases last : bytes = []
      · subst last
        obtain _ | _ | _ | _ := back
        have parks := checked.last extended (by omega) (by
          rw [length_nil] at before
          omega) samplenum
        rw [ended]
        exact ⟨_, _, parks⟩
      · have more := length_pos_iff.mpr last
        have next := checked.more extended (by omega) (by omega) samplenum
        rw [← ended, length_cons,
          show 8 * ((bytes.length + 1 : Nat) : Int) - 8 = 8 * bytes.length by omega] at next
        obtain ⟨bits', parityCount', parks⟩ := ih last back next (by omega)
          (by omega)
        rw [List.append_assoc] at parks
        exact ⟨bits', parityCount', parks⟩

/-! ## Frames -/

def Sent (s : RffeState) (cmd : RffeCmd) (texts : List RffeText) : Prop :=
  ∃ byteCount bits parityCount busParkCount,
    s.Parks cmd byteCount bits parityCount busParkCount texts ∧ (cmd ∈ slaveCmds → busParkCount ≠ 1)

theorem Parks.sent (parks : s.Parks cmd byteCount bits parityCount busParkCount texts)
    (done : cmd ∈ slaveCmds → busParkCount ≠ 1) : s.Sent cmd texts :=
  ⟨_, _, _, _, parks, done⟩

theorem sent_register0 {data : BitVec 7} {parity : Bool}
    (reads : Reads s (rffeBits (RffeRequest.register0 data parity).bits) t)
    (commands : s.Commands .commandFirst 0 bits texts) :
    t.Sent .r0w (texts ++ .command .r0w :: (RffeRequest.register0 data parity).texts) := by
  obtain ⟨middle, front, back⟩ := reads.splitBits [true] _
  have collects := commands.register0 front
  have args : middle.args = ⟨.data, .findParity, 6, 0⟩ := by
    rw [RffeState.args, collects.state, collects.cmdkey]
    rfl
  obtain ⟨u, samplenum, checked, ended⟩ := collects.byte back (Or.inr rfl) args rfl (Or.inr rfl)
    (by decide) (by decide) (by decide) data.isLt
  have next : u.afterParity =
      { u with
        busParkCount := u.busParkCount
        state := .findBusPark } := by
    rw [afterParity, checked.cmdkey]
  rw [ended, next]
  have parks := checked.park u.busParkCount samplenum
  rw [List.append_assoc] at parks
  exact parks.sent fun slave => absurd slave (by decide)

theorem sent_register {read parity : Bool} {address : BitVec 5} {data : RffeByte}
    (reads : Reads s (rffeBits (RffeRequest.register read address parity data).bits) t)
    (commands : s.Commands .commandFirst 0 bits texts) :
    t.Sent (if read then .rr else .rw)
      (texts ++ .command (if read then .rr else .rw) ::
        (RffeRequest.register read address parity data).texts) := by
  obtain ⟨behind1, front, reads⟩ := reads.splitBits [false, true, read] _
  obtain ⟨behind2, reads, dataReads⟩ := reads.splitBits _ data.bits
  obtain ⟨behind3, reads, handover⟩ := reads.splitBits _ (RffeRequest.handover read)
  have collects := commands.register front
  have args : behind1.args = ⟨.address, .findParity, 4, 0⟩ := by
    rw [RffeState.args, collects.state, collects.cmdkey]
    cases read <;> rfl
  obtain ⟨u, samplenum, checked, ended⟩ := collects.byte reads (Or.inl rfl) args rfl (Or.inl rfl)
    (by decide) (by decide) (by decide) address.isLt
  rw [if_neg (show ¬ RffeField.address = .data from nofun)] at checked
  have ready : ∃ busParkCount, behind2.Collects .bitFall .findData (if read then .rr else .rw) 0
      bits 1 busParkCount [] (texts ++ [RffeText.command (if read then .rr else .rw)] ++
        [RffeText.field .address 4 0 address.toNat, .parity parity.toNat] ++
        RffeRequest.handoverText read) := by
    cases read with
    | false =>
        obtain _ | _ | _ | _ := handover
        have next : u.afterParity = { u with state := .findData } := by
          rw [afterParity, checked.cmdkey]
          exact if_pos checked.parityCount
        rw [ended, next]
        refine ⟨0, ?_⟩
        rw [show RffeRequest.handoverText false = [] from rfl, List.append_nil]
        exact checked.field (by decide) samplenum
    | true =>
        have next : u.afterParity =
            { u with
              busParkCount := 1
              state := .findBusPark } := by
          rw [afterParity, checked.cmdkey, checked.parityCount]
          rfl
        have parks := checked.park 1 samplenum
        rw [← next, ← ended] at parks
        exact ⟨1, parks.handover handover (by decide)⟩
  obtain ⟨busParkCount, ready⟩ := ready
  have dataArgs : behind2.args = ⟨.data, .findParity, 7, 0⟩ := by
    rw [RffeState.args, ready.state, ready.cmdkey]
    cases read <;> rfl
  obtain ⟨v, lastAt, done, finished⟩ := ready.dataByte (by decide) dataReads (Or.inr rfl) dataArgs
    (Or.inr rfl)
  have next : v.afterParity =
      { v with
        busParkCount := if read then 2 else 1
        state := .findBusPark } := by
    rw [afterParity, done.cmdkey, done.parityCount]
    cases read <;> rfl
  rw [finished, next]
  have parks := done.park (if read then 2 else 1) lastAt
  simp only [List.append_assoc, cons_append, nil_append] at parks
  refine parks.sent ?_
  cases read with
  | false => exact fun slave => absurd slave (by decide)
  | true => exact fun _ => by decide

theorem Checked.rest {read : Bool} {bytes : List RffeByte}
    (checked : s.Checked cmd byteCount (8 * bytes.length) parityCount 0 texts)
    (kind : cmd = (if read then .err else .erw) ∨ cmd = (if read then .errl else .erwl))
    (last : parityCount = addressParities cmd) (count : byteCount = bytes.length)
    (some : bytes ≠ []) (samplenum : Nat)
    (reads : Reads (s.afterParity.resume samplenum)
      (rffeBits (RffeRequest.handover read ++ bytes.flatMap RffeByte.bits)) t) :
    t.Sent cmd (texts ++ RffeRequest.handoverText read ++ rffeDataTexts bytes) := by
  obtain ⟨middle, handover, data⟩ := reads.splitBits _ _
  have extended : cmd ∈ extendedCmds := by
    rcases kind with rfl | rfl <;> cases read <;> decide
  have ready : ∃ busParkCount, middle.Collects .bitFall .findData cmd byteCount (8 * bytes.length)
      parityCount busParkCount [] (texts ++ RffeRequest.handoverText read) := by
    cases read with
    | false =>
        obtain _ | _ | _ | _ := handover
        have next := checked.write kind last samplenum
        refine ⟨0, ?_⟩
        rw [show RffeRequest.handoverText false = [] from rfl, List.append_nil]
        exact next
    | true =>
        have parks := checked.read kind last samplenum
        refine ⟨1, parks.handover handover ?_⟩
        rcases kind with rfl | rfl <;> decide
  obtain ⟨busParkCount, ready⟩ := ready
  obtain ⟨bits', parityCount', parks⟩ := ready.dataBytes extended bytes some data
    (by rw [last, count]; exact Int.add_comm _ _) (Nat.le_of_eq last.symm)
  refine parks.sent fun slave => ?_
  rw [if_pos slave]
  decide

theorem sent_extended {read parity : Bool} {address : RffeByte} {data : List RffeByte}
    {some : 0 < data.length} {few : data.length ≤ 16}
    (reads : Reads s (rffeBits (RffeRequest.extended read parity address data some few).bits) t)
    (commands : s.Commands .commandFirst 0 bits texts) :
    t.Sent (if read then .err else .erw)
      (texts ++ .command (if read then .err else .erw) ::
        (RffeRequest.extended read parity address data some few).texts) := by
  obtain ⟨behind1, front, reads⟩ := reads.splitBits [false, false, read, false] _
  rw [List.append_assoc] at reads
  obtain ⟨behind2, reads, rest⟩ := reads.splitBits _ (RffeRequest.handover read ++ _)
  obtain ⟨behind3, count, addressReads⟩ := reads.splitBits _ address.bits
  have collects := commands.extended front
  have args : behind1.args = ⟨.byteCount, .findParity, 3, 0⟩ := by
    rw [RffeState.args, collects.state, collects.cmdkey]
    cases read <;> rfl
  have parities : addressParities (if read then .err else .erw) = 2 := by
    cases read <;> rfl
  have extended : (if read then RffeCmd.err else .erw) ∈ extendedCmds := by
    cases read <;> decide
  have small : ((data.length - 1 : Nat) : Int) < maxByteCount (if read then .err else .erw) := by
    have most : maxByteCount (if read then .err else .erw) = 16 := by
      cases read <;> rfl
    omega
  obtain ⟨u, countAt, counted, ended⟩ := collects.count count args rfl rfl rfl (by decide)
    (by omega) small
  have next := counted.address extended (by decide) (by rw [parities]; decide) countAt
  rw [← ended] at next
  have addressArgs : behind3.args = ⟨.address, .findParity, 7, 0⟩ := by
    rw [RffeState.args, next.state, next.cmdkey]
    cases read <;> rfl
  obtain ⟨v, addressAt, checked, ended⟩ := next.dataByte (by decide) addressReads (Or.inl rfl)
    addressArgs (Or.inl rfl)
  rw [if_neg (show ¬ RffeField.address = .data from nofun),
    show ((data.length - 1 : Nat) + 1 : Int) * 8 = 8 * data.length by omega] at checked
  rw [ended] at rest
  have sent := checked.rest (Or.inl rfl) parities.symm (by omega) (length_pos_iff.mp some)
    addressAt rest
  simp only [List.append_assoc, cons_append, nil_append] at sent
  exact sent

theorem sent_extendedLong {read parity : Bool} {high low : RffeByte} {data : List RffeByte}
    {some : 0 < data.length} {few : data.length ≤ 8}
    (reads : Reads s (rffeBits (RffeRequest.extendedLong read parity high low data some few).bits) t)
    (commands : s.Commands .commandFirst 0 bits texts) :
    t.Sent (if read then .errl else .erwl)
      (texts ++ .command (if read then .errl else .erwl) ::
        (RffeRequest.extendedLong read parity high low data some few).texts) := by
  obtain ⟨behind1, front, reads⟩ := reads.splitBits [false, false, true, true, read] _
  rw [List.append_assoc] at reads
  obtain ⟨behind2, reads, rest⟩ := reads.splitBits _ (RffeRequest.handover read ++ _)
  obtain ⟨behind3, reads, lowReads⟩ := reads.splitBits _ low.bits
  obtain ⟨behind4, count, highReads⟩ := reads.splitBits _ high.bits
  have collects := commands.extendedLong front
  have args : behind1.args = ⟨.byteCount, .findParity, 2, 0⟩ := by
    rw [RffeState.args, collects.state, collects.cmdkey]
    cases read <;> rfl
  have parities : addressParities (if read then .errl else .erwl) = 3 := by
    cases read <;> rfl
  have extended : (if read then RffeCmd.errl else .erwl) ∈ extendedCmds := by
    cases read <;> decide
  have small : ((data.length - 1 : Nat) : Int) < maxByteCount (if read then .errl else .erwl) := by
    have most : maxByteCount (if read then .errl else .erwl) = 8 := by
      cases read <;> rfl
    omega
  obtain ⟨u, countAt, counted, ended⟩ := collects.count count args rfl rfl rfl (by decide)
    (by omega) small
  have next := counted.address extended (by decide) (by rw [parities]; decide) countAt
  rw [← ended] at next
  have highArgs : behind4.args = ⟨.address, .findParity, 15, 8⟩ := by
    rw [RffeState.args, next.state, next.cmdkey, next.parityCount]
    cases read <;> rfl
  obtain ⟨v, highAt, checked, ended⟩ := next.dataByte (by decide) highReads (Or.inl rfl)
    highArgs (Or.inl rfl)
  rw [if_neg (show ¬ RffeField.address = .data from nofun)] at checked
  have next := checked.address extended (by decide) (by rw [parities]; decide) highAt
  rw [← ended] at next
  have lowArgs : behind3.args = ⟨.address, .findParity, 7, 0⟩ := by
    rw [RffeState.args, next.state, next.cmdkey, next.parityCount]
    cases read <;> rfl
  obtain ⟨w, lowAt, checked, ended⟩ := next.dataByte (by decide) lowReads (Or.inl rfl)
    lowArgs (Or.inl rfl)
  rw [if_neg (show ¬ RffeField.address = .data from nofun),
    show ((data.length - 1 : Nat) + 1 : Int) * 8 = 8 * data.length by omega] at checked
  rw [ended] at rest
  have sent := checked.rest (Or.inr rfl) parities.symm (by omega) (length_pos_iff.mp some)
    lowAt rest
  simp only [List.append_assoc, cons_append, nil_append] at sent
  exact sent

theorem sent_request (request : RffeRequest) (reads : Reads s (rffeBits request.bits) t)
    (commands : s.Commands .commandFirst 0 bits texts) :
    t.Sent request.cmd (texts ++ .command request.cmd :: request.texts) := by
  cases request with
  | register0 data parity => exact sent_register0 reads commands
  | register read address parity data => exact sent_register reads commands
  | extended read parity address data some few => exact sent_extended reads commands
  | extendedLong read parity high low data some few => exact sent_extendedLong reads commands

def isWarning : RffeText → Bool
  | .commandWarning | .byteCountWarning | .illegalEdge => true
  | _ => false

theorem Idles.frame (frame : RffeFrame) (reads : Reads s frame.events t)
    (idles : s.Idles texts) : t.Idles (texts ++ frame.texts) := by
  obtain ⟨behind, front, last⟩ := reads.split
  obtain ⟨started, start, sent⟩ := front.split
  obtain ⟨named, slave, request⟩ := sent.splitBits _ _
  have commands := (idles.start start).slaveAddress slave (length_msbBits 4 _)
  rw [packMsb_msbBits frame.slave.isLt] at commands
  obtain ⟨byteCount, bits, parityCount, busParkCount, parks, done⟩ :=
    sent_request frame.request request commands
  have idle := parks.last last done
  simp only [List.append_assoc, cons_append, nil_append] at idle
  exact idle

theorem Idles.frames (frames : List RffeFrame)
    (reads : Reads s (frames.flatMap RffeFrame.events) t) (idles : s.Idles texts) :
    t.Idles (texts ++ frames.flatMap RffeFrame.texts) := by
  induction frames generalizing s texts with
  | nil =>
      obtain _ | _ | _ | _ := reads
      rw [flatMap_nil, List.append_nil]
      exact idles
  | cons frame frames ih =>
      rw [flatMap_cons] at reads
      obtain ⟨middle, front, back⟩ := reads.split
      rw [flatMap_cons, ← List.append_assoc]
      exact ih back (idles.frame frame front)

theorem any_dataTexts (data : List RffeByte) : (rffeDataTexts data).any isWarning = false := by
  induction data with
  | nil => rfl
  | cons byte data ih =>
      rw [rffeDataTexts, any_append, ih]
      rfl

theorem any_requestTexts (request : RffeRequest) : request.texts.any isWarning = false := by
  have park : ∀ read, (RffeRequest.handoverText read).any isWarning = false := by decide
  cases request with
  | register0 data parity => rfl
  | register read address parity data =>
      rw [RffeRequest.texts, any_append, any_append, park]
      rfl
  | extended read parity address data some few =>
      rw [RffeRequest.texts, any_append, any_append, any_append, park, any_dataTexts]
      rfl
  | extendedLong read parity high low data some few =>
      rw [RffeRequest.texts, any_append, any_append, any_append, any_append, park, any_dataTexts]
      rfl

theorem any_frameTexts (frame : RffeFrame) : frame.texts.any isWarning = false := by
  rw [RffeFrame.texts, any_append, any_append, any_requestTexts]
  rfl

theorem idles_reset (display : Bool) : (reset display).Idles [] :=
  ⟨rfl, rfl, rfl, rfl, rfl, rfl, rfl, rfl, rfl⟩

/-- Every frame is reported as it was sent, and behind the last one the decoder looks for the next
start condition. -/
theorem rffe_roundTrip (display : Bool) (frames : List RffeFrame) {samples : List RffePins}
    (line : RffeLine ⟨false, false⟩ (frames.flatMap RffeFrame.events) samples) :
    (rffeDecode.scan (reset display) ⟨false, false⟩ 0 samples).texts =
        frames.flatMap RffeFrame.texts ∧
      (∀ ann ∈ (rffeDecode.scan (reset display) ⟨false, false⟩ 0 samples).anns,
        isWarning ann.text = false) ∧
      (rffeDecode.scan (reset display) ⟨false, false⟩ 0 samples).state = .findSsc ∧
      (rffeDecode.scan (reset display) ⟨false, false⟩ 0 samples).wait = .sscStart := by
  have waits : (reset display).wait = .sscStart := rfl
  have rests := rests_of_wait waits (by decide) (by decide) ⟨false, false⟩
  have idle := (idles_reset display).frames frames (line.reads rests 0)
  refine ⟨idle.texts, ?_, idle.state, idle.wait⟩
  intro ann member
  by_cases parity : ann.text = .parityWarning
  · rw [parity]
    rfl
  · have shown : ann.text ∈ (rffeDecode.scan (reset display) ⟨false, false⟩ 0 samples).texts :=
      mem_filter.mpr ⟨mem_map_of_mem member, decide_eq_true parity⟩
    rw [idle.texts] at shown
    obtain ⟨frame, -, shown⟩ := mem_flatMap.mp shown
    exact Bool.eq_false_iff.mpr fun warning =>
      absurd (any_eq_true.mpr ⟨_, shown, warning⟩) (by rw [any_frameTexts]; decide)

/-- SDATA takes its level while SCLK is high. -/
def sampleBits (bits : List Bool) : List RffePins :=
  bits.flatMap fun bit => [⟨true, bit⟩, ⟨false, bit⟩, ⟨true, bit⟩]

def sampleFrame (frame : RffeFrame) : List RffePins :=
  [⟨false, true⟩, ⟨false, false⟩, ⟨true, false⟩] ++
    sampleBits (msbBits 4 frame.slave.toNat ++ frame.request.bits) ++
    [⟨true, false⟩, ⟨false, false⟩]

theorem RffeLine.sampleBits (bits : List Bool) {events : List RffeEvent}
    {samples : List RffePins} (behind : ∀ level, RffeLine ⟨true, level⟩ events samples)
    (before : Bool) :
    RffeLine ⟨true, before⟩ (rffeBits bits ++ events) (RffeState.sampleBits bits ++ samples) := by
  induction bits generalizing before with
  | nil => exact behind before
  | cons bit bits ih => exact .change (.fall (.rise (ih bit)))

theorem RffeLine.sampleFrames (frames : List RffeFrame) :
    RffeLine ⟨false, false⟩ (frames.flatMap RffeFrame.events) (frames.flatMap sampleFrame) := by
  induction frames with
  | nil => exact .done _
  | cons frame frames ih =>
      rw [flatMap_cons, flatMap_cons, RffeFrame.events, sampleFrame]
      simp only [List.append_assoc, cons_append, nil_append]
      have park : ∀ level, RffeLine ⟨true, level⟩ (.fall false :: frames.flatMap RffeFrame.events)
          (⟨true, false⟩ :: ⟨false, false⟩ :: frames.flatMap sampleFrame) :=
        fun _ => .change (.fall ih)
      exact @RffeLine.sdata true _ _ (@RffeLine.sdata false _ _
        (.rise (RffeLine.sampleBits _ park false)))

def writeAndRead : List RffeFrame :=
  [⟨0x5, .extended false true ⟨0x1C, false⟩ [⟨0xA7, true⟩, ⟨0x03, false⟩] (by decide) (by decide)⟩,
    ⟨0xE, .register true 0x11 false ⟨0x80, true⟩⟩]

theorem rffe_roundTrip_writeAndRead :
    (rffeDecode.scan (reset true) ⟨false, false⟩ 0 (writeAndRead.flatMap sampleFrame)).texts =
        [.ssc, .field .slaveAddress 3 0 0x5, .command .erw, .field .byteCount 3 0 1, .parity 1,
          .field .address 7 0 0x1C, .parity 0, .field .data 15 8 0xA7, .parity 1,
          .field .data 7 0 0x03, .parity 0, .busPark,
          .ssc, .field .slaveAddress 3 0 0xE, .command .rr, .field .address 4 0 0x11, .parity 0,
          .busPark, .field .data 7 0 0x80, .parity 1, .busPark] ∧
      (∀ ann ∈ (rffeDecode.scan (reset true) ⟨false, false⟩ 0
        (writeAndRead.flatMap sampleFrame)).anns, isWarning ann.text = false) ∧
      (rffeDecode.scan (reset true) ⟨false, false⟩ 0
        (writeAndRead.flatMap sampleFrame)).state = .findSsc ∧
      (rffeDecode.scan (reset true) ⟨false, false⟩ 0
        (writeAndRead.flatMap sampleFrame)).wait = .sscStart :=
  rffe_roundTrip true writeAndRead (RffeLine.sampleFrames _)

end RffeState

end SigrokDecode
