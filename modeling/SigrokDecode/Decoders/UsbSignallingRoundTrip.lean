import SigrokDecode.Decoders.UsbSignalling
import SigrokDecode.Foundation.BitStuffing

/-!
# Round trip of a USB packet on the line

The decoder takes back what a sender does to a packet: a zero behind every six ones,
then a change of level for every zero.
-/

namespace SigrokDecode

open Foundation List

def usbSync : List Bool :=
  [false, false, false, false, false, false, false, true]

/-- The bits of a `PRE`. -/
def usbPre : List Bool :=
  [false, false, true, true, true, true, false, false]

/-- The bits on the wire; stuff bits are marked. -/
def usbSent (bits : List Bool) : List (Bool × Bool) :=
  (onesRule 6).send 0 (usbSync ++ bits)

def nrziNext (level : UsbSym) (bit : Bool) : UsbSym :=
  if bit then level else if level = .j then .k else .j

def nrzi : UsbSym → List Bool → List UsbSym
  | _, [] => []
  | level, bit :: bits => nrziNext level bit :: nrzi (nrziNext level bit) bits

def packetSymbols (bits : List Bool) : List UsbSym :=
  .j :: .k :: nrzi .j ((usbSent bits).map Prod.fst) ++ [UsbSym.se0, .se0, .j]

def reportOf (bit : Bool × Bool) : UsbSigProto :=
  if bit.2 then .stuffBit else .bit bit.1

def UsbSigProto.isSym : UsbSigProto → Bool
  | .sym _ => true
  | _ => false

theorem nrziNext_data {level : UsbSym} (bit : Bool) (data : level = .j ∨ level = .k) :
    (nrziNext level bit = .j ∨ nrziNext level bit = .k) ∧
      decide (level = nrziNext level bit) = bit := by
  rcases data with rfl | rfl
  · cases bit <;> decide
  · cases bit <;> decide

namespace UsbSigState

/-- What goes out to stacked decoders, without the symbols. -/
def shown (s : UsbSigState) : List UsbSigProto :=
  (s.outs.map fun out => out.proto).filter fun proto => !proto.isSym

/-- The symbols at some wake-ups. -/
def lineSymbols (mode : UsbSignalling) (wakes : List UsbWake) : List UsbSym :=
  wakes.map fun wake => getSymbol mode wake.dp wake.dm

theorem shown_proto (s : UsbSigState) (ss es : Nat) (proto : UsbSigProto)
    (notSym : proto.isSym = false) : (s.proto ss es proto).shown = s.shown ++ [proto] := by
  simp [shown, UsbSigState.proto, notSym]

theorem shown_report (s : UsbSigState) (ss es : Nat) (field : UsbSigField) (proto : UsbSigProto)
    (notSym : proto.isSym = false) : (s.report ss es field proto).shown = s.shown ++ [proto] :=
  shown_proto (s.put ss es field) ss es proto notSym

theorem shown_putSym (s : UsbSigState) (symbol : UsbSym) : (s.putSym symbol).shown = s.shown := by
  simp [shown, putSym, report, proto, put, UsbSigProto.isSym]

variable {s : UsbSigState}

theorem handleBit_obeying {bit : Bool}
    (obeys : ∀ extra, (onesRule 6).due s.consecutiveOnes = some extra → bit = extra) :
    (s.handleBit bit).state = s.state ∧ (s.handleBit bit).signalling = s.signalling ∧
      (s.handleBit bit).oldsym = s.oldsym ∧ (s.handleBit bit).bits = s.bits ∧
      (s.handleBit bit).consecutiveOnes = (onesRule 6).next s.consecutiveOnes bit ∧
      (s.handleBit bit).shown =
        s.shown ++ [reportOf (bit, ((onesRule 6).due s.consecutiveOnes).isSome)] := by
  by_cases full : s.consecutiveOnes = 6
  · have due : (onesRule 6).due s.consecutiveOnes = some false := if_pos full
    have low : bit = false := obeys false due
    subst low
    rw [handleBit, if_pos full, if_pos rfl, due]
    exact ⟨rfl, rfl, rfl, rfl, rfl, shown_report s _ _ _ _ rfl⟩
  · have due : (onesRule 6).due s.consecutiveOnes = none := if_neg full
    rw [handleBit, if_neg full, due]
    exact ⟨rfl, rfl, rfl, rfl, rfl, shown_report s _ _ _ _ rfl⟩

theorem getBit_obeying (symbol : UsbSym) (bit : Bool) (nextEdge : Nat)
    (reading : s.state = .getBit) (data : symbol ≠ .se0)
    (changed : decide (s.oldsym = symbol) = bit)
    (obeys : ∀ extra, (onesRule 6).due s.consecutiveOnes = some extra → bit = extra) :
    ∃ u : UsbSigState, s.getBit symbol nextEdge = u.seePreamble bit ∧ u.state = .getBit ∧
      u.signalling = s.signalling ∧ u.oldsym = symbol ∧ u.bits = s.bits ∧
      u.consecutiveOnes = (onesRule 6).next s.consecutiveOnes bit ∧
      u.shown = s.shown ++ [reportOf (bit, ((onesRule 6).due s.consecutiveOnes).isSome)] := by
  obtain ⟨state, signalling, oldsym, bits, ones, shown⟩ :=
    handleBit_obeying (s := { s.setNewTarget nextEdge with oldsym := symbol }) obeys
  refine ⟨(({ s.setNewTarget nextEdge with oldsym := symbol } : UsbSigState).handleBit
    bit).putSym symbol, ?_, state.trans reading, signalling, oldsym, bits, ones, ?_⟩
  · have stays : ((({ s.setNewTarget nextEdge with oldsym := symbol } : UsbSigState).handleBit
        bit).putSym symbol).state ≠ .idle := by
      intro idle
      have same : UsbSigPhase.getBit = .idle := (state.trans reading).symm.trans idle
      cases same
    have same : decide ((s.setNewTarget nextEdge).oldsym = symbol) = bit := changed
    unfold getBit
    simp only [if_neg data, same]
    rw [if_neg stays]
  · rw [shown_putSym]
    exact shown

theorem seePreamble_other {u : UsbSigState} {read : List Bool} {bit : Bool}
    (buffer : u.bits = read.take 16) (other : ¬preambleSeen <+: read ++ [bit]) :
    u.seePreamble bit = { u with bits := (read ++ [bit]).take 16 } := by
  have length : u.bits.length = min 16 read.length := by rw [buffer, length_take]
  have next : (if u.bits.length < 16 then { u with bits := u.bits ++ [bit] } else u) =
      { u with bits := (read ++ [bit]).take 16 } := by
    by_cases room : read.length < 16
    · have whole : u.bits = read := by rw [buffer, take_of_length_le (by omega)]
      rw [if_pos (by omega), take_of_length_le (by
        rw [length_append, length_singleton]
        omega), whole]
    · rw [if_neg (by omega), take_append_of_le_length (by omega), ← buffer]
  have different : (read ++ [bit]).take 16 ≠ preambleSeen := by
    intro same
    exact other (same ▸ take_prefix 16 _)
  unfold seePreamble
  rw [next]
  simp only [if_neg different]

/-- The decoder inverts NRZI and takes the stuff bits out as long as it sees no `PRE`. -/
theorem getBit_run (raw read : List Bool) (wakes : List UsbWake) (s : UsbSigState)
    (isReset isKeepAlive : Nat → Bool) (reading : s.state = .getBit)
    (level : s.oldsym = .j ∨ s.oldsym = .k) (buffer : s.bits = read.take 16)
    (obeys : (onesRule 6).Obeys s.consecutiveOnes raw) (other : ¬preambleSeen <+: read ++ raw)
    (line : lineSymbols s.signalling wakes = nrzi s.oldsym raw) :
    (wakes.foldl (wake isReset isKeepAlive) s).state = .getBit ∧
      (wakes.foldl (wake isReset isKeepAlive) s).signalling = s.signalling ∧
      (wakes.foldl (wake isReset isKeepAlive) s).oldsym = raw.foldl nrziNext s.oldsym ∧
      (wakes.foldl (wake isReset isKeepAlive) s).consecutiveOnes =
        raw.foldl (onesRule 6).next s.consecutiveOnes ∧
      (wakes.foldl (wake isReset isKeepAlive) s).bits = (read ++ raw).take 16 ∧
      (wakes.foldl (wake isReset isKeepAlive) s).shown =
        s.shown ++ ((onesRule 6).mark s.consecutiveOnes raw).map reportOf := by
  induction raw generalizing read wakes s with
  | nil =>
      have none : wakes = [] := map_eq_nil_iff.mp line
      subst none
      rw [List.append_nil]
      exact ⟨reading, rfl, rfl, rfl, buffer, (List.append_nil _).symm⟩
  | cons bit raw ih =>
      obtain ⟨first, rest, rfl, here, later⟩ := map_eq_cons_iff.mp line
      obtain ⟨data, changed⟩ := nrziNext_data bit level
      have notSe0 : nrziNext s.oldsym bit ≠ .se0 := by
        rcases data with same | same
        · rw [same]
          decide
        · rw [same]
          decide
      obtain ⟨u, step, state, signalling, oldsym, bits, ones, shown⟩ :=
        getBit_obeying (nrziNext s.oldsym bit) bit first.nextEdge reading notSe0 changed obeys.1
      have otherHere : ¬preambleSeen <+: read ++ [bit] := by
        intro seen
        apply other
        have longer : read ++ [bit] <+: read ++ bit :: raw := ⟨raw, by simp⟩
        exact seen.trans longer
      have stepped : s.wake isReset isKeepAlive first =
          { u with bits := (read ++ [bit]).take 16 } := by
        simp only [wake, reading, here, step]
        exact seePreamble_other (bits.trans buffer) otherHere
      have next := ih (read ++ [bit]) rest
        { u with bits := (read ++ [bit]).take 16 } state (by rw [oldsym]; exact data) rfl
        (by rw [ones]; exact obeys.2) (by rw [List.append_assoc]; exact other)
        (by rw [oldsym, signalling]; exact later)
      rw [foldl_cons, stepped]
      obtain ⟨stateAfter, signallingAfter, levelAfter, onesAfter, bitsAfter, shownAfter⟩ := next
      refine ⟨stateAfter, signallingAfter.trans signalling, ?_, ?_, ?_, ?_⟩
      · rw [levelAfter, foldl_cons, ← oldsym]
      · rw [onesAfter, foldl_cons, ← ones]
      · rw [bitsAfter, List.append_assoc]
        rfl
      · rw [shownAfter, StuffRule.mark, map_cons]
        have before : ({ u with bits := (read ++ [bit]).take 16 } : UsbSigState).shown = u.shown :=
          rfl
        rw [before, shown, ones, List.append_assoc]
        rfl

/-- Between packets, as `usb_handle_idle` leaves the decoder on a line that it knows. -/
structure AtRest (s : UsbSigState) : Prop where
  state : s.state = .idle
  oldsym : s.oldsym = .j
  known : s.signalling ≠ .auto

theorem wake_start (rest : s.AtRest) (isReset isKeepAlive : Nat → Bool)
    {idle first : UsbWake} (high : getSymbol s.signalling idle.dp idle.dm = .j)
    (edge : getSymbol s.signalling first.dp first.dm = .k) :
    ∃ u : UsbSigState, (s.wake isReset isKeepAlive idle).wake isReset isKeepAlive first = u ∧
      u.state = .getBit ∧ u.signalling = s.signalling ∧ u.oldsym = .j ∧ u.bits = [] ∧
      u.consecutiveOnes = 0 ∧ u.shown = s.shown ++ [.sop] := by
  have stays : s.wake isReset isKeepAlive idle = s := by
    simp only [wake, rest.state, idleEdge, high, waitForSop, symIsK]
    simp
  have isK : symIsK .k s.signalling = true := by simp [symIsK, rest.known]
  have isJ : symIsJ s.oldsym s.signalling = true := by simp [symIsJ, rest.oldsym, rest.known]
  rw [stays]
  simp only [wake, rest.state, idleEdge, edge, waitForSop, isK, isJ]
  exact ⟨_, rfl, rfl, rfl, rest.oldsym, rfl, rfl, shown_report _ _ _ _ _ rfl⟩

theorem getBit_se0 (s : UsbSigState) (nextEdge : Nat) : (s.getBit .se0 nextEdge).state = .getEop ∧
      (s.getBit .se0 nextEdge).signalling = s.signalling ∧
      (s.getBit .se0 nextEdge).shown = s.shown :=
  ⟨rfl, rfl, shown_putSym _ _⟩

theorem getEop_se0 (s : UsbSigState) (nextEdge : Nat) : (s.getEop .se0 nextEdge).state = s.state ∧
      (s.getEop .se0 nextEdge).signalling = s.signalling ∧
      (s.getEop .se0 nextEdge).shown = s.shown :=
  ⟨rfl, rfl, shown_putSym (s.setNewTarget nextEdge) .se0⟩

theorem getEop_j (nextEdge : Nat) (known : s.signalling ≠ .auto) :
    (s.getEop .j nextEdge).state = .waitIdle ∧
      (s.getEop .j nextEdge).shown = s.shown ++ [.eop] := by
  have isJ : symIsJ .j s.signalling = true := by simp [symIsJ, known]
  have shown := shown_putSym (s.setNewTarget nextEdge) .j
  have sameMode : ((s.setNewTarget nextEdge).putSym .j).signalling = s.signalling := rfl
  unfold getEop
  simp only [reduceCtorEq, if_false, sameMode, isJ, if_true]
  refine ⟨trivial, ?_⟩
  have reported := shown_report { (s.setNewTarget nextEdge).putSym .j with oldsym := .j }
    s.ssBlock nextEdge .eop .eop rfl
  exact reported.trans (congrArg (· ++ [UsbSigProto.eop]) shown)

theorem wake_end (reading : s.state = .getBit) (known : s.signalling ≠ .auto)
    (isReset isKeepAlive : Nat → Bool) (wakes : List UsbWake)
    (line : lineSymbols s.signalling wakes = [.se0, .se0, .j]) :
    (wakes.foldl (wake isReset isKeepAlive) s).state = .waitIdle ∧
      (wakes.foldl (wake isReset isKeepAlive) s).shown = s.shown ++ [.eop] := by
  obtain ⟨first, rest, rfl, here, later⟩ := map_eq_cons_iff.mp line
  obtain ⟨second, rest, rfl, next, last⟩ := map_eq_cons_iff.mp later
  obtain ⟨third, rest, rfl, idle, none⟩ := map_eq_cons_iff.mp last
  have empty : rest = [] := map_eq_nil_iff.mp none
  subst empty
  obtain ⟨state1, mode1, shown1⟩ := getBit_se0 s first.nextEdge
  have step1 : s.wake isReset isKeepAlive first = s.getBit .se0 first.nextEdge := by
    simp only [wake, reading, here]
  rw [foldl_cons, step1]
  generalize s.getBit .se0 first.nextEdge = t at state1 mode1 shown1
  obtain ⟨state2, mode2, shown2⟩ := getEop_se0 t second.nextEdge
  have step2 : t.wake isReset isKeepAlive second = t.getEop .se0 second.nextEdge := by
    simp only [wake, state1, mode1, next]
  rw [foldl_cons, step2]
  generalize t.getEop .se0 second.nextEdge = u at state2 mode2 shown2
  obtain ⟨state3, shown3⟩ := getEop_j (s := u) third.nextEdge (by rw [mode2, mode1]; exact known)
  have step3 : u.wake isReset isKeepAlive third = u.getEop .j third.nextEdge := by
    simp only [wake, state2, state1, mode2, mode1, idle]
  rw [foldl_cons, step3]
  exact ⟨state3, by rw [foldl_nil, shown3, shown2, shown1]⟩

def packetReport (bits : List Bool) : List UsbSigProto :=
  .sop :: (usbSent bits).map reportOf ++ [.eop]

end UsbSigState

/-- The value of a `BIT`. -/
def UsbSigProto.data : UsbSigProto → Option Bool
  | .bit value => some value
  | _ => none

theorem nrzi_append (level : UsbSym) (front back : List Bool) :
    nrzi level (front ++ back) = nrzi level front ++ nrzi (front.foldl nrziNext level) back := by
  induction front generalizing level with
  | nil => rfl
  | cons bit front ih =>
      rw [cons_append, nrzi, ih]
      rfl

theorem packetReport_data (bits : List Bool) :
    (UsbSigState.packetReport bits).filterMap UsbSigProto.data = usbSync ++ bits := by
  have reported : ∀ wire : List (Bool × Bool), (wire.map reportOf).filterMap UsbSigProto.data =
      (wire.filter fun bit => !bit.2).map Prod.fst := by
    intro wire
    induction wire with
    | nil => rfl
    | cons bit wire ih =>
        obtain ⟨value, stuffed⟩ := bit
        cases stuffed with
        | true => exact ih
        | false => simpa [reportOf, UsbSigProto.data] using ih
  have unmarked := (onesRule 6).send_unmarked 0 (usbSync ++ bits)
  unfold UsbSigState.packetReport
  rw [cons_append, filterMap_cons_none rfl, filterMap_append, reported, usbSent, unmarked]
  exact List.append_nil _

theorem preambleSeen_isPrefix_iff (bits : List Bool) :
    preambleSeen <+: (usbSent bits).map Prod.fst ↔ usbPre <+: bits := by
  have quiet : StuffRule.Quiet (onesRule 6) 0 preambleSeen := by
    simp [preambleSeen, StuffRule.Quiet, onesRule]
  have split : preambleSeen = usbSync ++ usbPre := rfl
  rw [usbSent, StuffRule.isPrefix_send_iff quiet, split, prefix_append_right_inj]

namespace UsbSigState

theorem getBit_preamble {u : UsbSigState} (isReset isKeepAlive : Nat → Bool)
    (state : u.state = .getBit) (oldsym : u.oldsym = .j) (empty : u.bits = [])
    (zero : u.consecutiveOnes = 0) (wakes : List UsbWake)
    (line : lineSymbols u.signalling wakes = nrzi .j preambleSeen) :
    (wakes.foldl (wake isReset isKeepAlive) u).shown =
        u.shown ++ (usbSync ++ usbPre).map UsbSigProto.bit ++ [.eop] ∧
      (wakes.foldl (wake isReset isKeepAlive) u).state = .idle ∧
      (wakes.foldl (wake isReset isKeepAlive) u).signalling = .lowSpeedRp := by
  have split : preambleSeen = preambleSeen.take 15 ++ [false] := rfl
  rw [split, nrzi_append] at line
  obtain ⟨inputs, final, rfl, data, last⟩ := map_eq_append_iff.mp line
  obtain ⟨wake16, none, rfl, symbol, nothing⟩ := map_eq_cons_iff.mp last
  have empty16 : none = [] := map_eq_nil_iff.mp nothing
  subst empty16
  have obeys : (onesRule 6).Obeys 0 (preambleSeen.take 15) := by
    simp [preambleSeen, StuffRule.Obeys, onesRule]
  have run := getBit_run (preambleSeen.take 15) [] inputs u isReset isKeepAlive state
    (Or.inl oldsym) empty (by rw [zero]; exact obeys) (by decide) (by rw [oldsym]; exact data)
  obtain ⟨reading, mode, level, ones, buffer, reported⟩ := run
  rw [foldl_append]
  generalize inputs.foldl (wake isReset isKeepAlive) u = t at reading mode level ones buffer reported
  have levelJ : t.oldsym = .j := by
    rw [level, oldsym]
    rfl
  have onesZero : t.consecutiveOnes = 0 := by
    rw [ones, zero]
    rfl
  have buffer15 : t.bits = preambleSeen.take 15 := buffer
  have isK : getSymbol t.signalling wake16.dp wake16.dm = .k := by
    rw [mode, symbol]
    rfl
  obtain ⟨v, step, -, -, -, bits, -, shown⟩ := getBit_obeying .k false wake16.nextEdge
    reading (by decide) (by rw [levelJ]; decide) (by rw [onesZero]; decide)
  have filled : (if v.bits.length < 16 then { v with bits := v.bits ++ [false] } else v) =
      { v with bits := preambleSeen } := by
    rw [bits, buffer15]
    rfl
  have stepped : t.wake isReset isKeepAlive wake16 =
      { ({ v with bits := preambleSeen } : UsbSigState).proto v.samplenumEdge v.samplenumEdge
          .eop with
        signalling := .lowSpeedRp
        oldsym := .j
        state := .idle } := by
    simp only [wake, reading, isK, step, seePreamble, filled, if_true]
  rw [foldl_cons, stepped]
  refine ⟨?_, rfl, rfl⟩
  have reportedEop := shown_proto { v with bits := preambleSeen } v.samplenumEdge v.samplenumEdge
    .eop rfl
  refine reportedEop.trans ?_
  have same : ({ v with bits := preambleSeen } : UsbSigState).shown = v.shown := rfl
  rw [same, shown, reported, onesZero, zero, List.append_assoc u.shown]
  rfl

/-- The decoder inverts NRZI and bit stuffing for every packet but those that begin with a
`PRE`; behind a `PRE` it reports the end of the packet and turns to low speed. -/
theorem wakes_roundTrip (bits : List Bool) (s : UsbSigState) (rest : s.AtRest)
    (isReset isKeepAlive : Nat → Bool) (wakes : List UsbWake)
    (line : lineSymbols s.signalling wakes = packetSymbols bits) :
    (¬usbPre <+: bits →
        (wakes.foldl (wake isReset isKeepAlive) s).shown = s.shown ++ packetReport bits ∧
          (packetReport bits).filterMap UsbSigProto.data = usbSync ++ bits ∧
          (wakes.foldl (wake isReset isKeepAlive) s).state = .waitIdle) ∧
      (usbPre <+: bits → ((wakes.take 18).foldl (wake isReset isKeepAlive) s).shown =
            s.shown ++ .sop :: (usbSync ++ usbPre).map UsbSigProto.bit ++ [.eop] ∧
          ((wakes.take 18).foldl (wake isReset isKeepAlive) s).state = .idle ∧
          ((wakes.take 18).foldl (wake isReset isKeepAlive) s).signalling = .lowSpeedRp) := by
  have parts : packetSymbols bits =
      .j :: .k :: (nrzi .j ((usbSent bits).map Prod.fst) ++ [UsbSym.se0, .se0, .j]) := rfl
  rw [parts] at line
  obtain ⟨idle, later, rfl, high, line⟩ := map_eq_cons_iff.mp line
  obtain ⟨first, later, rfl, edge, line⟩ := map_eq_cons_iff.mp line
  obtain ⟨u, started, state, signalling, oldsym, empty, zero, shown⟩ :=
    wake_start rest isReset isKeepAlive high edge
  have known : u.signalling ≠ .auto := by
    rw [signalling]
    exact rest.known
  rw [← signalling] at line
  obtain ⟨marks, obeys⟩ := StuffRule.mark_send (@onesRule_single 6 (by decide)) 0 (usbSync ++ bits)
  constructor
  · intro other
    obtain ⟨inputs, ending, rfl, data, last⟩ := map_eq_append_iff.mp line
    have run := getBit_run ((usbSent bits).map Prod.fst) [] inputs u isReset isKeepAlive state
      (Or.inl oldsym) empty (by rw [zero]; exact obeys)
      (by rw [nil_append, preambleSeen_isPrefix_iff]; exact other)
      (by rw [oldsym]; exact data)
    obtain ⟨reading, mode, -, -, -, reported⟩ := run
    have ended := wake_end reading (by rw [mode]; exact known) isReset isKeepAlive ending
      (by rw [mode]; exact last)
    rw [foldl_cons, foldl_cons, started, foldl_append]
    refine ⟨?_, packetReport_data bits, ended.1⟩
    rw [ended.2, reported, shown, zero, usbSent, marks, packetReport, usbSent]
    simp only [List.append_assoc, cons_append, nil_append]
  · intro seen
    obtain ⟨more, raw⟩ := (preambleSeen_isPrefix_iff bits).mpr seen
    have symbols : lineSymbols u.signalling (later.take 16) = nrzi .j preambleSeen := by
      have length : (nrzi .j preambleSeen).length = 16 := by decide
      rw [lineSymbols, map_take]
      refine (congrArg (List.take 16) line).trans ?_
      rw [← raw, nrzi_append, List.append_assoc, take_left' length]
    obtain ⟨reported, idleAgain, slow⟩ :=
      getBit_preamble isReset isKeepAlive state oldsym empty zero (later.take 16) symbols
    rw [take_succ_cons, take_succ_cons, foldl_cons, foldl_cons, started]
    refine ⟨?_, idleAgain, slow⟩
    rw [reported, shown]
    simp only [List.append_assoc, cons_append, nil_append]

def fullSpeedLines : UsbSym → Bool × Bool
  | .j => (true, false)
  | .k => (false, true)
  | .se1 => (true, true)
  | _ => (false, false)

def fullSpeedWakes (symbols : List UsbSym) : List UsbWake :=
  symbols.zipIdx.map fun sampled =>
    { samplenum := 8 * sampled.2
      nextEdge := 8 * sampled.2 + 4
      dp := (fullSpeedLines sampled.1).1
      dm := (fullSpeedLines sampled.1).2 }

def fullSpeedAtRest : UsbSigState :=
  { option := .fullSpeed
    state := .idle
    signalling := .fullSpeed
    oldsym := .j
    samplenumEdge := 0
    samplenumLastedge := 0
    consecutiveOnes := 0
    bits := []
    ssBlock := 0
    anns := []
    outs := [] }

/-- Seven ones, the last two behind a stuff bit. -/
theorem wakes_roundTrip_ones :
    ((fullSpeedWakes (packetSymbols [true, true, true, true, true, true, true])).foldl
        (wake (fun _ => false) (fun _ => false)) fullSpeedAtRest).shown =
      packetReport [true, true, true, true, true, true, true] :=
  ((wakes_roundTrip [true, true, true, true, true, true, true] fullSpeedAtRest
    ⟨rfl, rfl, by decide⟩ (fun _ => false) (fun _ => false) _ (by decide)).1 (by decide)).1

/-- The bit behind a `PRE` is lost. -/
theorem wakes_preamble :
    lineSymbols .fullSpeed (fullSpeedWakes (packetSymbols (usbPre ++ [true]))) =
        packetSymbols (usbPre ++ [true]) ∧
      ((fullSpeedWakes (packetSymbols (usbPre ++ [true]))).foldl
          (wake (fun _ => false) (fun _ => false)) fullSpeedAtRest).shown =
        .sop :: (usbSync ++ usbPre).map UsbSigProto.bit ++ [UsbSigProto.eop] ∧
      ((fullSpeedWakes (packetSymbols (usbPre ++ [true]))).foldl
          (wake (fun _ => false) (fun _ => false)) fullSpeedAtRest).shown ≠
        packetReport (usbPre ++ [true]) := by
  refine ⟨by decide, by decide +kernel, by decide +kernel⟩

end UsbSigState

end SigrokDecode
