import SigrokDecode.Decoders.RffeFrames

/-!
# Parity warnings of the RFFE decoder

Which parity bits are warned about follows from what is reported in front of them.
-/

set_option linter.dupNamespace false

namespace SigrokDecode

open Foundation List

/-- What the texts of a frame tell about its next parity bit, and the texts with the warnings. -/
structure RffeTold where
  cmd : RffeCmd
  parities : Nat
  data : BitVec 32
  key : Int
  texts : List RffeText

namespace RffeTold

def start : RffeTold where
  cmd := .none
  parities := 0
  data := 0
  key := 0
  texts := []

/-- The word whose ones are counted; the command is in front of the first field only. -/
def word (told : RffeTold) : BitVec 32 :=
  if told.parities = 0 then
    told.data + BitVec.ofNat 32 (told.cmd.parityBits * 2 ^ (told.key + 1).toNat)
  else told.data

def warnings (told : RffeTold) (bit : Nat) : List RffeText :=
  if BitVec.ofNat 32 (RffeState.clearOnes 32 told.word true).toNat = BitVec.ofNat 32 bit then []
  else [.parityWarning]

def tell (told : RffeTold) (text : RffeText) : RffeTold :=
  match text with
  | .parityWarning => told
  | .ssc => { start with texts := told.texts ++ [RffeText.ssc] }
  | .command cmd =>
      { told with
        cmd := cmd
        texts := told.texts ++ [RffeText.command cmd] }
  | .field field key key0 value =>
      { told with
        data := BitVec.ofNat 32 value
        key := if 7 < key then 7 else key
        texts := told.texts ++ [RffeText.field field key key0 value] }
  | .parity bit =>
      { told with
        parities := told.parities + 1
        data := 0
        key := 0
        texts := told.texts ++ (told.warnings bit ++ [.parity bit]) }
  | text => { told with texts := told.texts ++ [text] }

/-- What the registers of the decoder hold in a state; the next parity bit is counted before it is
read. -/
def expected (told : RffeTold) : RffePhase → RffeTold
  | .findSsc => { start with texts := told.texts }
  | .findParity => { told with parities := told.parities + 1 }
  | _ => told

/-- What they hold before the next wait. -/
def settled (told : RffeTold) : RffePhase → RffeTold
  | .findSsc => { start with texts := told.texts }
  | _ => told

end RffeTold

namespace RffeState

def told (s : RffeState) : RffeTold :=
  (s.anns.map RffeAnn.text).foldl RffeTold.tell .start

def seen (s : RffeState) : RffeTold where
  cmd := s.cmdkey
  parities := s.parityCount
  data := s.parityData
  key := s.parityKey
  texts := s.anns.map RffeAnn.text

def waitPhases : RffeWait → List RffePhase
  | .sscStart | .sscPulse | .sscClock => [.findSsc]
  | .bitFall | .bitFallAgain | .bitRise => .findParity :: fieldPhases
  | .busPark => [.findBusPark]
  | _ => [.findCommand]

/-- In a `c_wait`, with the errors displayed. -/
structure Watched (s : RffeState) : Prop where
  display : s.display = true
  phase : s.state ∈ waitPhases s.wait
  seen : s.seen = s.told.expected s.state

/-- Between two of them. -/
structure Settled (s : RffeState) : Prop where
  display : s.display = true
  seen : s.seen = s.told.settled s.state

variable {s t : RffeState}

theorem told_put (s : RffeState) (text : RffeText) : (s.put text).told = s.told.tell text := by
  rw [told, put, map_append, foldl_append]
  rfl

theorem seen_put (s : RffeState) (text : RffeText) :
    (s.put text).seen = { s.seen with texts := s.seen.texts ++ [text] } := by
  rw [seen, put, map_append]
  rfl

variable {phase : RffePhase}

theorem settled_eq (told : RffeTold) (busy : phase ≠ .findSsc) : told.settled phase = told := by
  cases phase with
  | findSsc => exact absurd rfl busy
  | findSlaveAddress | findCommand | findByteCount | findAddress | findData | findParity
  | findBusPark => rfl

theorem settled_of_busy (display : s.display = true) (busy : s.state ≠ .findSsc)
    (seen : s.seen = s.told) : s.Settled :=
  ⟨display, seen.trans (settled_eq _ busy).symm⟩

theorem Settled.init (display : s.display = true) (texts : s.seen.texts = s.told.texts) :
    s.init.Settled := by
  refine ⟨display, ?_⟩
  show { RffeTold.start with texts := s.seen.texts } = { RffeTold.start with texts := s.told.texts }
  rw [texts]

theorem ne_findSsc (field : phase ∈ fieldPhases) : phase ≠ .findSsc := by
  rintro rfl
  exact absurd field (by decide)

theorem expected_field (told : RffeTold) (field : phase ∈ fieldPhases) :
    told.expected phase = told := by
  cases phase with
  | findSlaveAddress | findByteCount | findAddress | findData => rfl
  | findSsc | findCommand | findParity | findBusPark => exact absurd field (by decide)

theorem Settled.startField (settled : s.Settled) (field : s.state ∈ fieldPhases)
    (samplenum : Nat) : (s.startField samplenum).Watched := by
  refine ⟨settled.display, mem_cons_of_mem _ field, ?_⟩
  show s.seen = s.told.expected s.state
  rw [settled.seen, settled_eq _ (ne_findSsc field), expected_field _ field]

theorem settled_cmdset (display : s.display = true) (seen : s.seen = s.told) (cmd : RffeCmd) (field : phase ∈ fieldPhases) (samplenum : Nat) :
    (s.cmdset cmd phase samplenum).Settled := by
  obtain ⟨u, same⟩ : ∃ u, u = { s with
    ss := s.dataStart
    es := samplenum } := ⟨_, rfl⟩
  have puts := seen_put u (.command cmd)
  have tells := told_put u (.command cmd)
  have seenBefore : u.seen = u.told := by
    rw [same]
    exact seen
  have shown : (s.cmdset cmd phase samplenum).display = true := display
  apply settled_of_busy shown (ne_findSsc field)
  rw [RffeState.cmdset, ← same]
  show { (u.put (.command cmd)).seen with cmd := cmd } = (u.put (.command cmd)).told
  rw [puts, tells, seenBefore]
  rfl

theorem watched_warnCommand (display : s.display = true) (seen : s.seen = s.told) :
    s.warnCommand.Watched := by
  obtain ⟨u, same⟩ : ∃ u, u = { s with
    ss := s.dataStart
    es := s.busParkStart } := ⟨_, rfl⟩
  have puts := seen_put u .commandWarning
  have tells := told_put u .commandWarning
  have seenBefore : u.seen = u.told := by
    rw [same]
    exact seen
  have texts : (u.put .commandWarning).seen.texts = (u.put .commandWarning).told.texts := by
    rw [puts, tells, seenBefore]
    rfl
  rw [warnCommand, ← same]
  have displayed : (u.put .commandWarning).display = true := by
    rw [same]
    exact display
  have settled := Settled.init displayed texts
  exact ⟨settled.display, mem_singleton.mpr rfl, settled.seen⟩

theorem watched_command (display : s.display = true) (state : s.state = .findCommand)
    (phase : .findCommand ∈ waitPhases s.wait) (seen : s.seen = s.told) : s.Watched :=
  ⟨display, state ▸ phase, by rw [state]; exact seen⟩

theorem watched_readCommand (display : s.display = true) (state : s.state = .findCommand)
    (seen : s.seen = s.told) (samplenum : Nat) : (s.readCommand samplenum).Watched := by
  have found : ∀ (cmd : RffeCmd) (phase : RffePhase), phase ∈ fieldPhases →
      ((s.cmdset cmd phase samplenum).startField samplenum).Watched := fun cmd phase field =>
    (settled_cmdset display seen cmd field samplenum).startField field samplenum
  rw [readCommand]
  split
  · exact watched_command display state (mem_singleton.mpr rfl) seen
  · split
    · split
      · exact found _ _ (by decide)
      · exact watched_command display state (mem_singleton.mpr rfl) seen
    · split
      · split
        · split
          · exact watched_command display state (mem_singleton.mpr rfl) seen
          · exact found _ _ (by decide)
        · exact watched_warnCommand display seen
      · split
        · exact found _ _ (by decide)
        · exact watched_command display state (mem_singleton.mpr rfl) seen

theorem Settled.resume (settled : s.Settled) (samplenum : Nat) : (s.resume samplenum).Watched := by
  have seen := settled.seen
  by_cases field : s.state ∈ fieldPhases
  · rw [resume_field field]
    exact settled.startField field samplenum
  rw [RffeState.resume]
  cases state : s.state with
  | findSlaveAddress | findByteCount | findAddress | findData =>
      exact absurd state fun state => field (by rw [state]; decide)
  | findSsc | findBusPark =>
      rw [state] at seen
      exact ⟨settled.display, mem_cons_self, seen⟩
  | findParity =>
      rw [state] at seen
      refine ⟨settled.display, mem_cons_self, ?_⟩
      show { s.seen with parities := s.seen.parities + 1 } = s.told.expected .findParity
      rw [seen]
      rfl
  | findCommand =>
      rw [state] at seen
      show (s.startCommand samplenum).Watched
      rw [startCommand]
      split
      · exact watched_command settled.display state (mem_singleton.mpr rfl) seen
      · apply watched_readCommand
        · exact settled.display
        · exact state
        · exact seen

theorem parity_findParity (seen : s.seen = s.told.expected .findParity) :
    s.findParity.parity = clearOnes 32 s.told.word true := by
  have cmd : s.cmdkey = s.told.cmd := congrArg RffeTold.cmd seen
  have parities : s.parityCount = s.told.parities + 1 := congrArg RffeTold.parities seen
  have data : s.parityData = s.told.data := congrArg RffeTold.data seen
  have key : s.parityKey = s.told.key := congrArg RffeTold.key seen
  rw [findParity, RffeTold.word, cmd, parities, data, key]
  simp only [Nat.add_eq_right]

theorem checkParity_seen (display : s.display = true)
    (seen : s.seen = s.told.expected .findParity) :
    s.checkParity.told = s.told ∧ s.checkParity.seen =
      { s.told with
        parities := s.told.parities + 1
        data := 0
        key := 0
        texts := s.told.texts ++ s.told.warnings s.databyte.toNat } := by
  have parity := parity_findParity seen
  have found : s.findParity.seen = { s.seen with
    data := 0
    key := 0 } := rfl
  rw [seen] at found
  rw [checkParity, if_pos display, RffeTold.warnings, ← parity, BitVec.ofNat_toNat,
    BitVec.setWidth_eq]
  dsimp only
  by_cases right : BitVec.ofNat 32 s.findParity.parity.toNat = s.databyte
  · rw [if_neg (not_not.mpr right), if_pos right, List.append_nil]
    exact ⟨rfl, found⟩
  · rw [if_pos right, if_neg right]
    refine ⟨told_put _ _, ?_⟩
    rw [seen_put, found]
    rfl

theorem settled_putParity (display : s.display = true)
    (seen : s.seen = s.told.expected .findParity) {next : RffePhase} (busy : next ≠ .findSsc) :
    (s.putParity next).Settled := by
  obtain ⟨u, same⟩ : ∃ u, u = { s with parityEnd := s.busParkStart } := ⟨_, rfl⟩
  have before : u.seen = u.told.expected .findParity := by
    rw [same]
    exact seen
  rcases checkParity_seen (by rw [same]; exact display) before with ⟨told, checked⟩
  have bit : s.databyte = u.databyte := by rw [same]
  have puts := seen_put u.checkParity (.parity u.databyte.toNat)
  have tells := told_put u.checkParity (.parity u.databyte.toNat)
  rw [told] at tells
  rw [checked] at puts
  have shown : (s.putParity next).display = true := by
    rcases u.checkParity_eq with ⟨_, _, _, _, kept, -⟩
    rw [putParity, ← same]
    show u.checkParity.display = true
    rw [kept, same]
    exact display
  apply settled_of_busy shown busy
  rw [putParity, ← same, bit]
  show (u.checkParity.put (.parity u.databyte.toNat)).seen =
    (u.checkParity.put (.parity u.databyte.toNat)).told
  rw [puts, tells]
  dsimp only
  rw [List.append_assoc]
  rfl

theorem settled_putField (display : s.display = true) {args : RffeArgs}
    (seen : s.seen = { s.told with
      data := s.databyte
      key := lastBit args }) (busy : args.next ≠ .findSsc) : (s.putField args).Settled := by
  have puts := seen_put s (.field args.field args.key args.key0 s.databyte.toNat)
  have tells := told_put s (.field args.field args.key args.key0 s.databyte.toNat)
  have shown : (s.putField args).display = true := display
  apply settled_of_busy shown busy
  show (s.put (.field args.field args.key args.key0 s.databyte.toNat)).seen =
    (s.put (.field args.field args.key args.key0 s.databyte.toNat)).told
  rw [puts, tells, seen, RffeTold.tell, BitVec.ofNat_toNat, BitVec.setWidth_eq]
  rfl

theorem settled_finishField (display : s.display = true) {args : RffeArgs}
    (kind : args.field ≠ .parity) (seen : s.seen = s.told) (busy : args.next ≠ .findSsc)
    (samplenum : Nat) : (s.finishField args samplenum).Settled := by
  obtain ⟨u, same⟩ : ∃ u, u = { s with
    ss := s.dataStart
    es := samplenum
    parityData := s.databyte
    parityKey := lastBit args } := ⟨_, rfl⟩
  have fields : u.seen = { u.told with
    data := u.databyte
    key := lastBit args } := by
    rw [same]
    show { s.seen with
      data := s.databyte
      key := lastBit args } = _
    rw [seen]
    rfl
  have displayed : u.display = true := by
    rw [same]
    exact display
  rw [finishField]
  dsimp only
  rw [if_neg kind, ← same]
  split
  · rw [putByteCount]
    dsimp only
    split
    · apply Settled.init
      · exact displayed
      · rw [seen_put, told_put]
        exact congrArg (fun told => told.texts ++ [RffeText.byteCountWarning]) fields
    · apply settled_putField
      · exact displayed
      · exact fields
      · exact busy
  · exact settled_putField displayed fields busy

theorem Settled.afterParity (settled : s.Settled) (busy : s.state ≠ .findSsc) :
    s.afterParity.Settled := by
  have seen := settled.seen.trans (settled_eq _ busy)
  have moved : ∀ {t : RffeState}, t.display = s.display → t.seen = s.seen → t.told = s.told →
      t.state ≠ .findSsc → t.Settled := by
    intro t display same told busy
    exact settled_of_busy (display.trans settled.display) busy (same.trans (seen.trans told.symm))
  rw [RffeState.afterParity]
  repeat' split
  all_goals first | exact settled | exact moved rfl rfl rfl (by simp)

theorem args_kind (phase : s.state ∈ fieldPhases) :
    s.args.field ≠ .parity ∧ s.args.next ≠ .findSsc := by
  rw [args]
  cases state : s.state with
  | findSlaveAddress => simp
  | findByteCount | findAddress | findData =>
      dsimp only
      repeat' split
      all_goals simp
  | findSsc | findCommand | findParity | findBusPark =>
      rw [state] at phase
      exact absurd phase (by decide)

theorem Watched.endBit (watched : s.Watched) (waits : s.wait = .bitRise) (samplenum : Nat) :
    (s.endBit samplenum).Watched := by
  have display := watched.display
  have phase := watched.phase
  have seen := watched.seen
  rw [waits] at phase
  apply Settled.resume
  rcases mem_cons.mp phase with parity | field
  · have args : s.args = ⟨.parity, .findParity, 0, 0⟩ := by
      rw [RffeState.args, parity]
    have last : decide ((s.bitcount : Int) < 0) = false := decide_eq_false (by omega)
    rw [parity] at seen
    rw [parity, handle, args]
    show (RffeState.afterParity (if decide ((s.bitcount : Int) < 0) then _ else _)).Settled
    rw [last]
    apply Settled.afterParity
    · apply settled_putParity
      · exact display
      · exact seen
      · simp
    · exact RffePhase.noConfusion
  · rcases args_kind field with ⟨kind, busy⟩
    rw [expected_field _ field] at seen
    have handled : (s.handle samplenum).Settled := by
      rw [handle]
      dsimp only
      split
      · apply settled_of_busy
        · exact display
        · exact ne_findSsc field
        · exact seen
      · apply settled_finishField
        · exact display
        · exact kind
        · exact seen
        · exact busy
    have other : s.state ≠ .findParity := by
      intro parity
      rw [parity] at field
      exact absurd field (by decide)
    rw [afterHandle_eq _ other]
    exact ⟨handled.display, handled.seen⟩

theorem Watched.endBusPark (watched : s.Watched) (waits : s.wait = .busPark) (samplenum : Nat) :
    (s.endBusPark samplenum).Watched := by
  have phase := watched.phase
  have seen := watched.seen
  rw [waits] at phase
  have state : s.state = .findBusPark := mem_singleton.mp phase
  rw [state] at seen
  obtain ⟨u, same⟩ : ∃ u, u = { s with
    ss := samplenum
    es := samplenum }.put .busPark := ⟨_, rfl⟩
  have parked : u.seen = u.told := by
    rw [same, seen_put, told_put]
    exact congrArg (RffeTold.tell · .busPark) seen
  have displayed : u.display = true := by
    rw [same]
    exact watched.display
  have left := Settled.init displayed (congrArg RffeTold.texts parked)
  rw [RffeState.endBusPark, ← same]
  apply Settled.resume
  rw [leaveBusPark]
  split
  · split
    · apply settled_of_busy
      · exact displayed
      · simp
      · exact parked
    · exact left
  · exact left

theorem settled_ssc (display : s.display = true) (seen : s.seen = s.told.expected .findSsc) :
    { s.put .ssc with state := .findSlaveAddress }.Settled := by
  apply settled_of_busy
  · exact display
  · exact nofun
  · show (s.put .ssc).seen = (s.put .ssc).told
    rw [seen_put, told_put, seen]
    rfl

theorem Watched.foundSsc (watched : s.Watched) (waits : s.wait = .sscClock) (samplenum : Nat) :
    (s.foundSsc samplenum).Watched := by
  have phase := watched.phase
  have seen := watched.seen
  rw [waits] at phase
  rw [mem_singleton.mp phase] at seen
  rw [RffeState.foundSsc]
  apply Settled.resume
  apply settled_ssc
  · exact watched.display
  · exact seen

theorem Watched.illegalEdge (watched : s.Watched) (samplenum : Nat) :
    (s.illegalEdge samplenum).Watched := by
  refine ⟨watched.display, watched.phase, ?_⟩
  have edge : ∀ phase, (s.told.tell .illegalEdge).expected phase =
      { s.told.expected phase with
        texts := (s.told.expected phase).texts ++ [RffeText.illegalEdge] } := by
    intro phase
    cases phase <;> rfl
  rw [RffeState.illegalEdge, seen_put, told_put]
  exact (congrArg (fun told : RffeTold =>
    { told with texts := told.texts ++ [RffeText.illegalEdge] }) watched.seen).trans (edge _).symm

theorem Watched.moved (watched : s.Watched) {wait : RffeWait} (waits : s.wait = wait)
    (group : waitPhases t.wait = waitPhases wait) (display : t.display = s.display)
    (state : t.state = s.state) (seen : t.seen = s.seen) (told : t.told = s.told) : t.Watched :=
  ⟨display.trans watched.display, by rw [state, group, ← waits]; exact watched.phase,
    by rw [seen, told, state]; exact watched.seen⟩

theorem Watched.command (watched : s.Watched) {wait : RffeWait} (waits : s.wait = wait)
    (phase : waitPhases wait = [.findCommand]) : s.state = .findCommand ∧ s.seen = s.told := by
  have state := watched.phase
  have seen := watched.seen
  rw [waits, phase] at state
  rw [mem_singleton.mp state] at seen
  exact ⟨mem_singleton.mp state, seen⟩

theorem Watched.wake (watched : s.Watched) (old new : RffePins) (samplenum : Nat) :
    (s.wake old new samplenum).Watched := by
  rw [RffeState.wake]
  cases waits : s.wait with
  | sscStart => exact watched.moved waits rfl rfl rfl rfl rfl
  | sscPulse | bitFall | commandFirst =>
      dsimp only
      split
      · exact watched.moved waits rfl rfl rfl rfl rfl
      · exact watched.moved waits rfl rfl rfl rfl rfl
  | sscClock =>
      dsimp only
      split
      · exact watched.moved waits rfl rfl rfl rfl rfl
      · exact watched.foundSsc waits samplenum
  | bitFallAgain =>
      have edge := watched.illegalEdge samplenum
      dsimp only
      split
      · exact edge.moved waits rfl rfl rfl rfl rfl
      · exact edge.moved waits rfl rfl rfl rfl rfl
  | bitRise => exact watched.endBit waits samplenum
  | commandFirstRise =>
      rcases watched.command waits rfl with ⟨-, seen⟩
      exact (settled_cmdset watched.display seen .r0w (by decide) samplenum).resume samplenum
  | commandFall =>
      dsimp only
      repeat' split
      all_goals exact watched.moved waits rfl rfl rfl rfl rfl
  | commandFallAgain =>
      have edge := watched.illegalEdge samplenum
      have sampled : { s.illegalEdge samplenum with sdata := new.sdata }.Watched :=
        edge.moved waits (by rw [← waits]; rfl) rfl rfl rfl rfl
      dsimp only
      split
      · split
        · exact (sampled.illegalEdge samplenum).moved waits rfl rfl rfl rfl rfl
        · exact edge.moved waits rfl rfl rfl rfl rfl
      · split
        · exact sampled.moved waits rfl rfl rfl rfl rfl
        · exact watched.moved waits rfl rfl rfl rfl rfl
  | commandRise =>
      rcases watched.command waits rfl with ⟨state, seen⟩
      apply Settled.resume
      apply settled_of_busy
      · exact watched.display
      · show s.state ≠ .findSsc
        rw [state]
        simp
      · exact seen
  | busPark => exact watched.endBusPark waits samplenum

theorem watched_step (old new : RffePins) (samplenum : Nat) (watched : s.Watched) :
    (rffeDecode.step s old new samplenum).Watched := by
  rw [SampleDecoder.step]
  split
  · exact watched.wake old new samplenum
  · exact watched

theorem told_eq (s : RffeState) : s.told = s.texts.foldl RffeTold.tell .start := by
  rw [texts, foldl_filter, told]
  congr
  funext told text
  by_cases warning : text = .parityWarning
  · rw [warning]
    rfl
  · rw [if_pos (decide_eq_true warning)]

theorem texts_scan (old : RffePins) (samplenum : Nat) (samples : List RffePins) :
    (rffeDecode.scan (reset true) old samplenum samples).anns.map RffeAnn.text =
      ((rffeDecode.scan (reset true) old samplenum samples).texts.foldl RffeTold.tell
        .start).texts := by
  have watched := rffeDecode.scan_keeps (fun _ => watched_step)
    (⟨rfl, by decide, rfl⟩ : (reset true).Watched) old samplenum samples
  have texts := congrArg RffeTold.texts watched.seen
  rw [← told_eq]
  refine texts.trans ?_
  cases (rffeDecode.scan (reset true) old samplenum samples).state <;> rfl

end RffeState

end SigrokDecode
