import SigrokDecode.Decoders.Eeprom24xxReading

/-!
# The buffers of the EEPROM decoder

How many bytes of a transaction are kept depends on the messages alone.  The decoder stays within
its buffers as long as no transaction has more of them than there is room for.
-/

set_option linter.dupNamespace false

namespace SigrokDecode

open Foundation EepromState List

namespace EepromPhase

/-- Whether a byte is taken, and the state behind it. -/
def takes : EepromPhase → I2cProto → Option EepromPhase
  | .getControlWord, .address write _ =>
      some (if write then .wGetAckNackAfterCw else .rGetAckNackAfterCw)
  | .rGetWordAddrOrByte, .data false _ => some .rGetAckNackAfterWordAddrOrByte
  | .rReadByte, .data false _ => some .rGetAckNackAfterByteRead
  | .wGetWordAddr, .data true _ => some .wGetAckAfterWordAddr
  | .wDetermineReadOrWrite, .data true _ => some .wGetAckNackAfterByteWritten
  | .wWriteByte, .data true _ => some .wGetAckNackAfterByteWritten
  | .r2GetControlWord, .address false _ => some .r2GetAckAfterAddrRead
  | .r2ReadByte, .data false _ => some .r2GetAckNackAfterByteRead
  | _, _ => none

/-- The state behind a message that goes on with the transaction and has no byte. -/
def goesOn : EepromPhase → I2cProto → Option EepromPhase
  | .rGetAckNackAfterCw, .ack => some .rGetWordAddrOrByte
  | .rGetAckNackAfterWordAddrOrByte, .ack => some .rGetRestart
  | .rGetAckNackAfterWordAddrOrByte, .nack => some .getStopAfterLastByte
  | .rGetRestart, .startRepeat => some .rReadByte
  | .rGetAckNackAfterByteRead, .ack => some .rReadByte
  | .rGetAckNackAfterByteRead, .nack => some .getStopAfterLastByte
  | .wGetAckNackAfterCw, .ack => some .wGetWordAddr
  | .wGetAckAfterWordAddr, .ack => some .wDetermineReadOrWrite
  | .wDetermineReadOrWrite, .startRepeat => some .r2GetControlWord
  | .wWriteByte, .startRepeat => some .r2GetControlWord
  | .wGetAckNackAfterByteWritten, .ack => some .wWriteByte
  | .r2GetAckAfterAddrRead, .ack => some .r2ReadByte
  | .r2GetAckNackAfterByteRead, .ack => some .r2ReadByte
  | .r2GetAckNackAfterByteRead, .nack => some .getStopAfterLastByte
  | _, _ => none

/-- A transaction begins, behind an idle bus or behind another one. -/
def begins : EepromPhase → I2cProto → Bool
  | .waitForStart, .start | .waitForStart, .startRepeat => true
  | .getStopAfterLastByte, .startRepeat => true
  | _, _ => false

end EepromPhase

/-- Where a transaction is, and how many of its bytes have been taken. -/
structure EepromProgress where
  phase : EepromPhase
  bytes : Nat

namespace EepromProgress

def idle : EepromProgress := ⟨.waitForStart, 0⟩

def next (p : EepromProgress) (cmd : I2cProto) : EepromProgress :=
  match cmd with
  | .bits _ => p
  | cmd =>
      match p.phase.takes cmd, p.phase.goesOn cmd with
      | some phase, _ => ⟨phase, p.bytes + 1⟩
      | none, some phase => ⟨phase, p.bytes⟩
      | none, none => if p.phase.begins cmd then ⟨.getControlWord, 0⟩ else idle

def behind (events : List (Nat × Nat × I2cProto)) : EepromProgress :=
  events.foldl (fun p event => p.next event.2.2) idle

theorem next_eq (p : EepromProgress) {cmd : I2cProto} (message : ∀ bits, cmd ≠ .bits bits) :
    p.next cmd =
      match p.phase.takes cmd, p.phase.goesOn cmd with
      | some phase, _ => ⟨phase, p.bytes + 1⟩
      | none, some phase => ⟨phase, p.bytes⟩
      | none, none => if p.phase.begins cmd then ⟨.getControlWord, 0⟩ else idle := by
  cases cmd
  case bits bits => exact absurd rfl (message bits)
  all_goals rfl

theorem behind_append (front : List (Nat × Nat × I2cProto)) (event : Nat × Nat × I2cProto) :
    behind (front ++ [event]) = (behind front).next event.2.2 :=
  foldl_append

end EepromProgress

/-- No transaction has more bytes than the buffers have room for; the bytes of the control words
and of the word address count too. -/
def NoLongTransaction (events : List (Nat × Nat × I2cProto)) : Prop :=
  ∀ front, front <+: events →
    (EepromProgress.behind front).bytes ≤ eepromMaxPackets

/-- Every write goes to a place of its array, in every state of a run. -/
def WithinBuffers (chip : EepromChip) (addrCounter : Int) (events : List (Nat × Nat × I2cProto)) :
    Prop :=
  ∀ front, front <+: events → ∃ s, run chip (start addrCounter) front = some s ∧
    s.bytebuf.length ≤ eepromMaxPackets ∧ s.packets.length ≤ eepromMaxPackets

namespace EepromState

variable {chip : EepromChip} {s : EepromState} {p : EepromProgress}

/-- How many bytes there are at least. -/
def least : EepromPhase → Nat
  | .r2GetControlWord | .r2GetAckAfterAddrRead | .r2ReadByte | .r2GetAckNackAfterByteRead => 2
  | .wGetAckAfterWordAddr | .wDetermineReadOrWrite | .wWriteByte
  | .wGetAckNackAfterByteWritten => 2
  | .wGetAckNackAfterCw | .wGetWordAddr => 1
  | _ => 0

/-- The buffers hold the bytes of the transaction, and nothing else. -/
structure Tracks (s : EepromState) (p : EepromProgress) : Prop where
  state : s.state = p.phase
  bytebuf : s.bytebuf.length = p.bytes
  packets : s.packets.length = p.bytes
  room : p.bytes ≤ eepromMaxPackets
  least : least p.phase ≤ p.bytes
  idle : p.phase = .waitForStart → p.bytes = 0

/-- There is no state where a byte was written behind the end of `bytebuf`. -/
def Follows (result : Option EepromState) (p : EepromProgress) : Prop :=
  match result with
  | some t => Tracks t p
  | none => eepromMaxPackets < p.bytes

theorem tracks_start (addrCounter : Int) : Tracks (start addrCounter) .idle :=
  ⟨rfl, rfl, rfl, Nat.zero_le _, Nat.le_refl _, fun _ => rfl⟩

theorem tracks_resetVariables (s : EepromState) : Tracks s.resetVariables .idle :=
  ⟨rfl, rfl, rfl, Nat.zero_le _, Nat.le_refl _, fun _ => rfl⟩

theorem packetAppend_follows (tracks : Tracks s p) (byte : BitVec 8) {phase : EepromPhase}
    {after : EepromState → EepromState} (state : ∀ t, (after t).state = phase)
    (buffers : ∀ t, (after t).bytebuf = t.bytebuf ∧ (after t).packets = t.packets)
    (least : least phase ≤ p.bytes + 1) (busy : phase ≠ .waitForStart) :
    Follows ((s.packetAppend byte).map after) ⟨phase, p.bytes + 1⟩ := by
  unfold packetAppend
  by_cases room : s.bytebuf.length < eepromMaxPackets
  · have space : p.bytes < eepromMaxPackets := tracks.bytebuf ▸ room
    have fits : s.packets.length < eepromMaxPackets := by
      rw [tracks.packets]
      exact space
    rw [if_pos room, if_pos fits]
    refine ⟨state _, ?_, ?_, space, least, fun same => absurd same busy⟩
    · rw [(buffers _).1, length_append, tracks.bytebuf]
      rfl
    · rw [(buffers _).2, length_append, tracks.packets]
      rfl
  · rw [if_neg room]
    have full : eepromMaxPackets ≤ p.bytes := tracks.bytebuf ▸ Nat.not_lt.mp room
    exact Nat.lt_succ_of_le full

theorem keep_follows (tracks : Tracks s p) (byte : BitVec 8) {phase : EepromPhase}
    (least : least phase ≤ p.bytes + 1) (busy : phase ≠ .waitForStart) :
    Follows (s.keep byte phase) ⟨phase, p.bytes + 1⟩ :=
  packetAppend_follows tracks byte (fun _ => rfl) (fun _ => ⟨rfl, rfl⟩) least busy

theorem goto_tracks (tracks : Tracks s p) {phase : EepromPhase} (least : least phase ≤ p.bytes)
    (busy : phase ≠ .waitForStart) : Tracks (s.goto phase) ⟨phase, p.bytes⟩ :=
  ⟨rfl, tracks.bytebuf, tracks.packets, tracks.room, least, fun same => absurd same busy⟩

theorem decideOnSeqOrRndRead_tracks (tracks : Tracks s p) (enough : 2 ≤ p.bytes) :
    Tracks s.decideOnSeqOrRndRead p := by
  have many : ¬s.bytebuf.length < 2 := by
    rw [tracks.bytebuf]
    exact Nat.not_lt.mpr enough
  unfold decideOnSeqOrRndRead
  rw [if_neg many]
  split <;>
    exact ⟨tracks.state, tracks.bytebuf, tracks.packets, tracks.room, tracks.least, tracks.idle⟩

theorem controlWordKept_eq (write : Bool) (t : EepromState) :
    ∃ outs, controlWordKept chip write t =
      { t with
        outs
        state := if write then .wGetAckNackAfterCw else .rGetAckNackAfterCw } := by
  obtain ⟨outs, same⟩ : ∃ outs, t.putControlWord chip = { t with outs } := putControlWord_eq t
  refine ⟨outs, ?_⟩
  rw [controlWordKept, same]
  rfl

/-! ## One message -/

variable {cmd : I2cProto} {phase : EepromPhase} (ss es : Nat)

theorem dispatch_takes (tracks : Tracks s p) (takes : p.phase.takes cmd = some phase) :
    Follows (s.dispatch chip ss es cmd) ⟨phase, p.bytes + 1⟩ := by
  have state := tracks.state
  have least := tracks.least
  unfold EepromPhase.takes at takes
  split at takes
  case h_1 write byte held =>
    cases takes
    rw [held] at state
    have same := @controlWordKept_eq chip write
    unfold dispatch
    rw [state]
    apply packetAppend_follows tracks byte
    · intro t
      obtain ⟨outs, same⟩ := same t
      rw [same]
    · intro t
      obtain ⟨outs, same⟩ := same t
      rw [same]
      exact ⟨rfl, rfl⟩
    · cases write
      · exact Nat.zero_le _
      · exact Nat.le_add_left _ _
    · cases write <;> decide
  case h_9 => cases takes
  all_goals
    rename_i held
    cases takes
    rw [held] at state least
    unfold dispatch
    rw [state]
    refine keep_follows tracks _ ?_ (by decide)
    first
      | exact Nat.zero_le _
      | exact Nat.le_succ_of_le least
      | exact Nat.succ_le_succ least

theorem dispatch_goesOn (tracks : Tracks s p) (goesOn : p.phase.goesOn cmd = some phase) :
    ∃ t, s.dispatch chip ss es cmd = some t ∧ Tracks t ⟨phase, p.bytes⟩ := by
  have state := tracks.state
  have least := tracks.least
  unfold EepromPhase.goesOn at goesOn
  split at goesOn
  case h_15 => cases goesOn
  case h_3 held =>
    cases goesOn
    rw [held] at state
    unfold dispatch
    rw [state]
    exact ⟨_, rfl, rfl, tracks.bytebuf, tracks.packets, tracks.room, Nat.zero_le _,
      fun same => nomatch same⟩
  case h_14 held =>
    cases goesOn
    rw [held] at state least
    unfold dispatch
    rw [state]
    exact ⟨_, rfl, goto_tracks (decideOnSeqOrRndRead_tracks tracks least) (Nat.zero_le _)
      (by decide)⟩
  all_goals
    rename_i held
    cases goesOn
    rw [held] at state least
    unfold dispatch
    rw [state]
    refine ⟨_, rfl, goto_tracks tracks ?_ (by decide)⟩
    first
      | exact Nat.zero_le _
      | exact least

theorem dispatch_begins (tracks : Tracks s p) (begins : p.phase.begins cmd = true) :
    ∃ t, s.dispatch chip ss es cmd = some t ∧ Tracks t ⟨.getControlWord, 0⟩ := by
  have state := tracks.state
  unfold EepromPhase.begins at begins
  split at begins
  case h_4 => cases begins
  case h_3 held =>
    rw [held] at state
    unfold dispatch
    rw [state]
    exact ⟨_, rfl, rfl, rfl, rfl, Nat.zero_le _, Nat.zero_le _, nofun⟩
  all_goals
    rename_i held
    have bytes := tracks.idle held
    rw [held] at state
    unfold dispatch
    rw [state]
    have tracked : Tracks _ ⟨.getControlWord, p.bytes⟩ :=
      @goto_tracks { s with ssBlock := ss } _ { tracks with } _ (Nat.zero_le _) (by decide)
    rw [bytes] at tracked
    exact ⟨_, rfl, tracked⟩

/-- Where nothing is left of the transaction. -/
def Ends (result : Option EepromState) : Prop :=
  ∃ t, result = some t ∧ Tracks t .idle

theorem ends_resetVariables (s : EepromState) : Ends (some s.resetVariables) :=
  ⟨_, rfl, tracks_resetVariables s⟩

theorem ends_stopWrite (s : EepromState) : Ends (some (s.stopWrite chip es)) := by
  unfold stopWrite
  split <;> exact ends_resetVariables _

theorem dispatch_ends (tracks : Tracks s p) (message : ∀ bits, cmd ≠ .bits bits)
    (takes : p.phase.takes cmd = none) (goesOn : p.phase.goesOn cmd = none)
    (begins : p.phase.begins cmd = false) : Ends (s.dispatch chip ss es cmd) := by
  have state := tracks.state
  unfold dispatch
  generalize held : p.phase = phase at state takes goesOn begins
  rw [state]
  cases phase with
  | waitForStart =>
      have idle : p = .idle := by
        rw [EepromProgress.idle, ← held, ← tracks.idle held]
      cases cmd
      case start | startRepeat => cases begins
      all_goals exact ⟨s, rfl, idle ▸ tracks⟩
  | _ =>
      cases cmd
      all_goals first
        | exact ends_resetVariables _
        | (cases takes; done)
        | (cases goesOn; done)
        | (cases begins; done)
        | exact ends_stopWrite es _
        | (rename_i write byte; cases write <;> first | exact ends_resetVariables _ | cases takes)

theorem dispatch_follows (tracks : Tracks s p) (message : ∀ bits, cmd ≠ .bits bits) :
    Follows (s.dispatch chip ss es cmd) (p.next cmd) := by
  rw [p.next_eq message]
  cases takes : p.phase.takes cmd with
  | some phase => exact dispatch_takes ss es tracks takes
  | none =>
      cases goesOn : p.phase.goesOn cmd with
      | some phase =>
          obtain ⟨t, same, tracked⟩ := @dispatch_goesOn chip _ _ _ _ ss es tracks goesOn
          rw [same]
          exact tracked
      | none =>
          cases begins : p.phase.begins cmd with
          | true =>
              obtain ⟨t, same, tracked⟩ := @dispatch_begins chip _ _ _ ss es tracks begins
              rw [same]
              exact tracked
          | false =>
              obtain ⟨t, same, tracked⟩ :=
                @dispatch_ends chip _ _ _ ss es tracks message takes goesOn begins
              rw [same]
              exact tracked

theorem takes_stop (phase : EepromPhase) : phase.takes .stop = none := by
  cases phase <;> rfl

theorem goesOn_stop (phase : EepromPhase) : phase.goesOn .stop = none := by
  cases phase <;> rfl

theorem begins_stop (phase : EepromPhase) : phase.begins .stop = false := by
  cases phase <;> rfl

theorem recvProto_follows (tracks : Tracks s p) (cmd : I2cProto) :
    Follows (s.recvProto chip ss es cmd) (p.next cmd) := by
  have placed : Tracks { s with ss, es } p :=
    ⟨tracks.state, tracks.bytebuf, tracks.packets, tracks.room, tracks.least, tracks.idle⟩
  cases cmd with
  | bits bits =>
      exact ⟨tracks.state, tracks.bytebuf, tracks.packets, tracks.room, tracks.least, tracks.idle⟩
  | stop =>
      have message : ∀ bits, I2cProto.stop ≠ .bits bits := fun bits => nofun
      obtain ⟨t, same, tracked⟩ := @dispatch_ends chip _ _ _ ss es placed message
        (takes_stop _) (goesOn_stop _) (begins_stop _)
      have waits : ¬t.state ≠ .waitForStart := not_not_intro tracked.state
      rw [p.next_eq message, takes_stop, goesOn_stop, begins_stop]
      change Follows ((dispatch chip { s with ss, es } ss es .stop).map _) .idle
      rw [same, Option.map_some, if_neg waits]
      exact tracked
  | start | startRepeat | ack | nack => exact dispatch_follows ss es placed nofun
  | address write byte | data write byte => exact dispatch_follows ss es placed nofun

/-! ## Runs -/

variable {addrCounter : Int} {events : List (Nat × Nat × I2cProto)}

theorem run_concat (s : EepromState) (front : List (Nat × Nat × I2cProto))
    (event : Nat × Nat × I2cProto) :
    run chip s (front ++ [event]) =
      (run chip s front).bind fun t => t.recvProto chip event.1 event.2.1 event.2.2 := by
  rw [run_append]
  cases run chip s front with
  | none => rfl
  | some t =>
      change (t.recvProto chip event.1 event.2.1 event.2.2).bind some = _
      exact Option.bind_fun_some _

theorem tracks_run (runs : run chip (start addrCounter) events = some s) :
    Tracks s (.behind events) := by
  induction events using reverseRecOn generalizing s with
  | nil =>
      cases runs
      exact tracks_start addrCounter
  | append_singleton front event ih =>
      rw [run_concat] at runs
      obtain ⟨t, earlier, last⟩ := Option.bind_eq_some_iff.mp runs
      have follows := @recvProto_follows chip _ _ event.1 event.2.1 (ih earlier) event.2.2
      rw [last] at follows
      rw [EepromProgress.behind_append]
      exact follows

theorem exists_run (short : NoLongTransaction events) :
    ∃ s, run chip (start addrCounter) events = some s := by
  induction events using reverseRecOn with
  | nil => exact ⟨_, rfl⟩
  | append_singleton front event ih =>
      have earlier : NoLongTransaction front := fun part inFront =>
        short part (inFront.trans (prefix_append front [event]))
      obtain ⟨t, runs⟩ := ih earlier
      have follows :=
        @recvProto_follows chip _ _ event.1 event.2.1 (tracks_run runs) event.2.2
      have room := short (front ++ [event]) prefix_rfl
      rw [EepromProgress.behind_append] at room
      rw [run_concat, runs, Option.bind_some]
      cases last : t.recvProto chip event.1 event.2.1 event.2.2 with
      | some u => exact ⟨u, rfl⟩
      | none =>
          rw [last] at follows
          exact absurd room (Nat.not_le.mpr follows)

theorem noLongTransaction_of_withinBuffers (within : WithinBuffers chip addrCounter events) :
    NoLongTransaction events := by
  intro front inEvents
  obtain ⟨s, runs, _⟩ := within front inEvents
  exact (tracks_run runs).room

theorem withinBuffers_iff :
    WithinBuffers chip addrCounter events ↔ NoLongTransaction events := by
  constructor
  · exact noLongTransaction_of_withinBuffers
  · intro short front inEvents
    have earlier : NoLongTransaction front := fun part inFront =>
      short part (inFront.trans inEvents)
    obtain ⟨s, runs⟩ := @exists_run chip addrCounter _ earlier
    have tracks := tracks_run runs
    refine ⟨s, runs, ?_, ?_⟩
    · rw [tracks.bytebuf]
      exact tracks.room
    · rw [tracks.packets]
      exact tracks.room

/-- A write of a byte, and of `more` ones behind it. -/
def longWrite (more : Nat) : List (Nat × Nat × I2cProto) :=
  [((0, 0, .start) : Nat × Nat × I2cProto), (0, 0, .address true 0x50), (0, 0, .ack),
    (0, 0, .data true 0), (0, 0, .ack), (0, 0, .data true 0), (0, 0, .ack)] ++
    (List.replicate more [((0, 0, .data true 0) : Nat × Nat × I2cProto), (0, 0, .ack)]).flatten

theorem behind_longWrite (more : Nat) :
    EepromProgress.behind (longWrite more) = ⟨.wWriteByte, 3 + more⟩ := by
  induction more with
  | zero => rfl
  | succ more ih =>
      have longer : longWrite (more + 1) =
          (longWrite more ++ [(0, 0, .data true 0)]) ++ [(0, 0, .ack)] := by
        rw [List.append_assoc, longWrite, replicate_succ', flatten_append,
          ← List.append_assoc, flatten_singleton]
        rfl
      rw [longer, EepromProgress.behind_append, EepromProgress.behind_append, ih]
      rfl

theorem longWrite_leaves_bytebuf : ¬WithinBuffers genericChip 0 (longWrite 1022) := by
  intro within
  have room := noLongTransaction_of_withinBuffers within _ prefix_rfl
  rw [behind_longWrite] at room
  exact absurd room (by decide)

end EepromState

end SigrokDecode
