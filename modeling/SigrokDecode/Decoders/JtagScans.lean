import SigrokDecode.Decoders.Jtag

/-!
# JTAG scans

The Python decoder reports every state and every scan; the C decoder drops the first bit of a scan,
and a state wherever it puts out a bit string.
-/

namespace SigrokDecode

open Foundation List JtagState

def JtagView.append (front back : JtagView) : JtagView :=
  ⟨front.states ++ back.states, front.newStates ++ back.newStates,
    front.displayed ++ back.displayed, front.strings ++ back.strings⟩

theorem jtagView_append (front back : List JtagOut) :
    jtagView (front ++ back) = (jtagView front).append (jtagView back) := by
  simp only [jtagView, JtagView.append, filterMap_append]

theorem JtagView.append_assoc (a b c : JtagView) : (a.append b).append c = a.append (b.append c) := by
  simp only [append, List.append_assoc]

theorem JtagView.append_nil (view : JtagView) : view.append ⟨[], [], [], []⟩ = view := by
  simp only [append, List.append_nil]

theorem jtagView_bits (ss es : Nat) (tdi tdo : Bool) :
    jtagView [.bit ss es .tdi tdi, .bit ss es .tdo tdo] = ⟨[], [], [], []⟩ := rfl

def jtagStateView (samplenum : Nat) (old next : JtagState) : JtagView :=
  ⟨[(samplenum, old)], [(samplenum, next)], [], []⟩

def jtagScanView (scans : List JtagScan) : JtagView :=
  ⟨[], [], scans.flatMap JtagScan.displayed, scans.flatMap JtagScan.strings⟩

def jtagExpectedFrom (state : JtagState) (bits : List (Bool × Bool)) (edges : List JtagEdge) :
    JtagView :=
  let states := jtagStates state edges
  let scans := jtagScans state bits edges
  ⟨states.map fun state => (state.1, state.2.1), states.map fun state => (state.1, state.2.2),
    scans.flatMap JtagScan.displayed, scans.flatMap JtagScan.strings⟩

namespace JtagState

variable {state : JtagState}

theorem advance_shift (shift : state.isShift = true) (tms : Bool) :
    (state.advance tms).isShift = !tms ∧ (state.advance tms).isExit1 = tms ∧
      state.isExit1 = false ∧ state.isExit = false := by
  revert shift
  cases state <;> cases tms <;> decide

theorem advance_exit1 (exit1 : state.isExit1 = true) (tms : Bool) :
    (state.advance tms).isShift = false ∧ (state.advance tms).isExit1 = false ∧
      state.isShift = false ∧ state.isExit = true ∧ (state.advance tms).isIr = state.isIr ∧
      state.advance tms ≠ state := by
  revert exit1
  cases state <;> cases tms <;> decide

theorem not_exit1_of_shift (shift : state.isShift = true) : state.isExit1 = false := by
  revert shift
  cases state <;> decide

end JtagState

/-! ## Python -/

namespace JtagPy

variable {s : JtagPy} {bits : List (Bool × Bool)} {edge : JtagEdge}

/-- Where the Python decoder is when `bits` have been shifted. -/
structure Tracks (s : JtagPy) (bits : List (Bool × Bool)) : Prop where
  tdi : s.bitsTdi = (bits.map Prod.fst).reverse
  tdo : s.bitsTdo = (bits.map Prod.snd).reverse
  count : s.bitsCnt = if s.state.isShift then bits.length + 1 else 0
  ready : s.dataReady = (s.state.isExit1 && !bits.isEmpty)
  inside : bits ≠ [] → s.state.isShift = true ∨ s.state.isExit1 = true

def shifted (state : JtagState) (bits : List (Bool × Bool)) (edge : JtagEdge) :
    List (Bool × Bool) :=
  if state.isShift then bits ++ [(edge.tdi, edge.tdo)]
  else if state.isExit1 then [] else bits

theorem inShift_spec (s : JtagPy) (edge : JtagEdge) :
    (s.inShift edge).state = s.state ∧ (s.inShift edge).oldstate = s.oldstate ∧
      (s.inShift edge).dataReady = s.dataReady ∧ (s.inShift edge).first = s.first ∧
      (s.inShift edge).bitsCnt = s.bitsCnt + 1 ∧
      (s.inShift edge).bitsTdi = (if 0 < s.bitsCnt then edge.tdi :: s.bitsTdi else s.bitsTdi) ∧
      (s.inShift edge).bitsTdo = (if 0 < s.bitsCnt then edge.tdo :: s.bitsTdo else s.bitsTdo) ∧
      jtagView (s.inShift edge).outs = jtagView s.outs := by
  rw [inShift]
  by_cases some : 0 < s.bitsCnt
  · by_cases one : s.bitsCnt = 1
    · simp only [one, if_true, Nat.lt_irrefl, if_false, insertBits, insertSamples]
      and_intros <;> trivial
    · have more : 1 < s.bitsCnt := by omega
      simp only [if_pos some, if_neg one, if_pos more, insertBits, insertSamples]
      have bits : jtagView (s.outs ++ [JtagOut.bit s.ssItem s.esItem .tdi (s.bitsTdi.headD false),
          .bit s.ssItem s.esItem .tdo (s.bitsTdo.headD false)]) = jtagView s.outs := by
        rw [jtagView_append, jtagView_bits, JtagView.append_nil]
      and_intros <;> trivial
  · simp only [if_neg some]
    and_intros <;> trivial

theorem leaveShift_spec (s : JtagPy) (edge : JtagEdge) :
    (s.leaveShift edge).state = s.state ∧ (s.leaveShift edge).oldstate = s.oldstate ∧
      (s.leaveShift edge).dataReady = (decide (0 < s.bitsCnt) || s.dataReady) ∧
      (s.leaveShift edge).first = s.first ∧
      (s.leaveShift edge).bitsCnt = 0 ∧
      (s.leaveShift edge).bitsTdi = (if 0 < s.bitsCnt then edge.tdi :: s.bitsTdi else s.bitsTdi) ∧
      (s.leaveShift edge).bitsTdo = (if 0 < s.bitsCnt then edge.tdo :: s.bitsTdo else s.bitsTdo) ∧
      jtagView (s.leaveShift edge).outs = jtagView s.outs := by
  rw [leaveShift]
  by_cases some : 0 < s.bitsCnt
  · by_cases one : s.bitsCnt = 1
    · simp only [one, if_true, insertBits, insertSamples, Nat.zero_lt_one]
      and_intros <;> trivial
    · simp only [if_pos some, if_neg one, decide_eq_true some, insertBits, insertSamples]
      have bits : jtagView (s.outs ++ [JtagOut.bit s.ssItem s.esItem .tdi (s.bitsTdi.headD false),
          .bit s.ssItem s.esItem .tdo (s.bitsTdo.headD false)]) = jtagView s.outs := by
        rw [jtagView_append, jtagView_bits, JtagView.append_nil]
      and_intros <;> trivial
  · simp only [if_neg some, decide_eq_false some, Bool.false_or]
    and_intros <;> trivial

theorem putStrings_view (s : JtagPy) (samplenum : Nat) :
    jtagView (s.putStrings samplenum).outs = (jtagView s.outs).append ⟨[], [],
        [(samplenum, .tdi, s.state.isIr, binary s.bitsTdi, s.bitsTdi.length),
          (samplenum, .tdo, s.state.isIr, binary s.bitsTdo, s.bitsTdo.length)],
        [(samplenum, .tdi, s.state.isIr, s.bitsTdi), (samplenum, .tdo, s.state.isIr, s.bitsTdo)]⟩ := by
  simp only [putStrings, put, List.append_assoc, cons_append, nil_append]
  rw [jtagView_append]
  rfl

theorem putStrings_spec (s : JtagPy) (samplenum : Nat) :
    (s.putStrings samplenum).state = s.state ∧ (s.putStrings samplenum).dataReady = false ∧
      (s.putStrings samplenum).first = s.first ∧ (s.putStrings samplenum).bitsCnt = s.bitsCnt ∧
      (s.putStrings samplenum).bitsTdi = [] ∧ (s.putStrings samplenum).bitsTdo = [] := by
  simp only [putStrings, put]
  and_intros <;> trivial

theorem putState_spec (s : JtagPy) (samplenum : Nat) :
    (s.putState samplenum).state = s.state ∧ (s.putState samplenum).oldstate = s.oldstate ∧
      (s.putState samplenum).dataReady = s.dataReady ∧ (s.putState samplenum).first = false ∧
      (s.putState samplenum).bitsCnt = s.bitsCnt ∧ (s.putState samplenum).bitsTdi = s.bitsTdi ∧
      (s.putState samplenum).bitsTdo = s.bitsTdo ∧
      jtagView (s.putState samplenum).outs = (jtagView s.outs).append
        (if s.first then ⟨[], [], [], []⟩ else jtagStateView samplenum s.oldstate s.state) := by
  rw [putState]
  by_cases first : s.first = true
  · simp only [first, if_true, JtagView.append_nil]
    and_intros <;> trivial
  · simp only [first, Bool.false_eq_true, if_false]
    have view : jtagView (s.outs ++ [JtagOut.state s.ssItem samplenum s.oldstate,
        .newState s.ssItem samplenum s.state]) =
        (jtagView s.outs).append (jtagStateView samplenum s.oldstate s.state) := by
      rw [jtagView_append]
      rfl
    have later : s.first = false := Bool.eq_false_iff.mpr first
    and_intros <;> trivial

def ended (state : JtagState) (bits : List (Bool × Bool)) (edge : JtagEdge) : List JtagScan :=
  if state.isExit1 ∧ bits ≠ [] then [⟨edge.samplenum, state.isIr, bits⟩] else []

theorem binary_reverse (bits : List Bool) : binary bits.reverse = packLsb bits := by
  induction bits with
  | nil => rfl
  | cons bit bits ih =>
      rw [binary] at ih
      rw [binary, reverse_cons, packMsb_concat, ih, packLsb]
      omega

theorem jtagView_append_none (view : JtagView) : view.append (jtagScanView []) = view :=
  JtagView.append_nil view

theorem collect_shift (shift : s.state.isShift = true) : s.collect edge = s.inShift edge :=
  if_pos shift

theorem collect_other (other : s.state.isShift = false) : s.collect edge = s :=
  if_neg (by rw [other]; exact Bool.false_ne_true)

theorem endShift_other (other : s.oldstate.isShift = false ∨ s.state.isExit1 = false) :
    s.endShift edge = s := by
  refine if_neg ?_
  rcases other with other | other
  · rw [other]
    simp
  · rw [other]
    simp

theorem endExit_other {samplenum : Nat} (other : s.oldstate.isExit = false ∨ s.dataReady = false) :
    s.endExit samplenum = s := by
  refine if_neg ?_
  rcases other with other | other
  · rw [other]
    simp
  · rw [other]
    simp

/-- What an edge is in the eyes of the decoder, behind the report of the state. -/
structure Edge (s b : JtagPy) (bits : List (Bool × Bool)) (edge : JtagEdge) : Prop where
  state : b.state = s.state.advance edge.tms
  oldstate : b.oldstate = s.state
  ready : b.dataReady = (s.state.isExit1 && !bits.isEmpty)
  count : b.bitsCnt = if s.state.isShift then bits.length + 1 else 0
  tdi : b.bitsTdi = (bits.map Prod.fst).reverse
  tdo : b.bitsTdo = (bits.map Prod.snd).reverse
  inside : bits ≠ [] → s.state.isShift = true ∨ s.state.isExit1 = true

def rest (b : JtagPy) (edge : JtagEdge) : JtagPy :=
  ((b.collect edge).endShift edge).endExit edge.samplenum

variable {b : JtagPy}

theorem Edge.shift (before : Edge s b bits edge) (shift : s.state.isShift = true) :
    Tracks (b.rest edge) (bits ++ [(edge.tdi, edge.tdo)]) ∧
      (b.rest edge).state = b.state ∧ (b.rest edge).first = b.first ∧
      jtagView (b.rest edge).outs = jtagView b.outs := by
  obtain ⟨again, out, no_exit1, no_exit⟩ := advance_shift shift edge.tms
  rw [← before.state] at again out
  have count := before.count
  rw [if_pos shift] at count
  have some : 0 < b.bitsCnt := by omega
  cases tms : edge.tms with
  | false =>
      rw [tms] at again out
      obtain ⟨state', old', ready', first', count', tdi', tdo', view'⟩ := inShift_spec b edge
      have whole : b.rest edge = b.inShift edge := by
        rw [rest, collect_shift again, endShift_other (Or.inr (by rw [state', out])),
          endExit_other (Or.inl (by rw [old', before.oldstate, no_exit]))]
      rw [whole]
      refine ⟨⟨?_, ?_, ?_, ?_, fun _ => Or.inl (by rw [state', again]; rfl)⟩, state', first', view'⟩
      · rw [tdi', if_pos some, before.tdi, map_append, reverse_append]
        rfl
      · rw [tdo', if_pos some, before.tdo, map_append, reverse_append]
        rfl
      · rw [state', again, count', count, length_append, length_singleton]
        rfl
      · rw [state', out, ready', before.ready, no_exit1]
        rfl
  | true =>
      rw [tms] at again out
      obtain ⟨state', old', ready', first', count', tdi', tdo', view'⟩ := leaveShift_spec b edge
      have leaves : b.endShift edge = b.leaveShift edge := by
        rw [endShift, before.oldstate, shift, out]
        rfl
      have whole : b.rest edge = b.leaveShift edge := by
        rw [rest, collect_other again, leaves,
          endExit_other (Or.inl (by rw [old', before.oldstate, no_exit]))]
      rw [whole]
      refine ⟨⟨?_, ?_, ?_, ?_, fun _ => Or.inr (by rw [state', out])⟩, state', first', view'⟩
      · rw [tdi', if_pos some, before.tdi, map_append, reverse_append]
        rfl
      · rw [tdo', if_pos some, before.tdo, map_append, reverse_append]
        rfl
      · rw [state', again, count']
        rfl
      · rw [state', out, ready', decide_eq_true some]
        cases bits <;> rfl

theorem Edge.exit1 (before : Edge s b bits edge) (exit1 : s.state.isExit1 = true) :
    Tracks (b.rest edge) [] ∧ (b.rest edge).state = b.state ∧ (b.rest edge).first = b.first ∧
      jtagView (b.rest edge).outs =
        (jtagView b.outs).append (jtagScanView (ended s.state bits edge)) := by
  obtain ⟨again, out, no_shift, exit, same, -⟩ := advance_exit1 exit1 edge.tms
  rw [← before.state] at again out same
  have count := before.count
  rw [no_shift] at count
  have begun : (b.collect edge).endShift edge = b := by
    rw [collect_other again, endShift_other (Or.inr out)]
  by_cases empty : bits = []
  · subst empty
    have ready : b.dataReady = false := by
      rw [before.ready, exit1]
      rfl
    have whole : b.rest edge = b := by rw [rest, begun, endExit_other (Or.inr ready)]
    have none : ended s.state [] edge = [] := by
      rw [ended]
      simp
    rw [whole, none, jtagView_append_none]
    refine ⟨⟨before.tdi, before.tdo, ?_, ?_, fun some => absurd rfl some⟩, rfl, rfl, rfl⟩
    · rw [again, count]
    · rw [out, ready]
      rfl
  · have ready : b.dataReady = true := by
      rw [before.ready, exit1]
      cases bits with
      | nil => exact absurd rfl empty
      | cons => rfl
    have whole : b.rest edge = b.putStrings edge.samplenum := by
      rw [rest, begun, endExit, before.oldstate, exit, ready]
      rfl
    obtain ⟨state', ready', first', count', tdi', tdo'⟩ := putStrings_spec b edge.samplenum
    have scan : ended s.state bits edge = [⟨edge.samplenum, s.state.isIr, bits⟩] := by
      rw [ended, if_pos ⟨exit1, empty⟩]
    rw [whole, scan]
    refine ⟨⟨tdi', tdo', ?_, ?_, fun some => absurd rfl some⟩, state', first', ?_⟩
    · rw [state', again, count', count]
      rfl
    · rw [state', out, ready']
      rfl
    · rw [putStrings_view, same, before.tdi, before.tdo, binary_reverse, binary_reverse,
        length_reverse, length_reverse, length_map, length_map]
      rfl

theorem Edge.other (before : Edge s b bits edge) (no_shift : s.state.isShift = false)
    (no_exit1 : s.state.isExit1 = false) :
    Tracks (b.rest edge) bits ∧ (b.rest edge).state = b.state ∧ (b.rest edge).first = b.first ∧
      jtagView (b.rest edge).outs = jtagView b.outs := by
  have empty : bits = [] := by
    by_contra some
    rcases before.inside some with shift | exit1
    · rw [no_shift] at shift
      cases shift
    · rw [no_exit1] at exit1
      cases exit1
  subst empty
  have ready : b.dataReady = false := by
    rw [before.ready, no_exit1]
    rfl
  have count := before.count
  rw [no_shift] at count
  have count : b.bitsCnt = 0 := count
  cases shift : b.state.isShift with
  | true =>
      obtain ⟨state', old', ready', first', count', tdi', tdo', view'⟩ := inShift_spec b edge
      have no_exit1' := not_exit1_of_shift shift
      have whole : b.rest edge = b.inShift edge := by
        rw [rest, collect_shift shift, endShift_other (Or.inr (by rw [state', no_exit1'])),
          endExit_other (Or.inr (by rw [ready', ready]))]
      rw [whole]
      refine ⟨⟨?_, ?_, ?_, ?_, fun some => absurd rfl some⟩, state', first', view'⟩
      · rw [tdi', if_neg (by omega), before.tdi]
      · rw [tdo', if_neg (by omega), before.tdo]
      · rw [state', shift, count', count]
        rfl
      · rw [state', no_exit1', ready', ready]
        rfl
  | false =>
      have whole : b.rest edge = b := by
        rw [rest, collect_other shift,
          endShift_other (Or.inl (by rw [before.oldstate, no_shift])),
          endExit_other (Or.inr ready)]
      rw [whole]
      refine ⟨⟨before.tdi, before.tdo, ?_, ?_, fun some => absurd rfl some⟩, rfl, rfl, rfl⟩
      · rw [shift, count]
        rfl
      · rw [ready]
        simp

theorem Tracks.step (tracks : Tracks s bits) (edge : JtagEdge) :
    Tracks (s.handleRisingTckEdge edge) (shifted s.state bits edge) ∧
      (s.handleRisingTckEdge edge).state = s.state.advance edge.tms ∧
      (s.handleRisingTckEdge edge).first = false ∧
      jtagView (s.handleRisingTckEdge edge).outs =
        ((jtagView s.outs).append (if s.first then ⟨[], [], [], []⟩
          else jtagStateView edge.samplenum s.state (s.state.advance edge.tms))).append
          (jtagScanView (ended s.state bits edge)) := by
  obtain ⟨state, old, ready, first, count, tdi, tdo, view⟩ := putState_spec
    (s.advanceStateMachine edge.tms) edge.samplenum
  have whole : s.handleRisingTckEdge edge =
      (((s.advanceStateMachine edge.tms).putState edge.samplenum).rest edge).saveItem
        edge.samplenum := rfl
  rw [whole]
  generalize (s.advanceStateMachine edge.tms).putState edge.samplenum = b at *
  have before : Edge s b bits edge :=
    ⟨state, old, ready.trans tracks.ready, count.trans tracks.count, tdi.trans tracks.tdi,
      tdo.trans tracks.tdo, tracks.inside⟩
  have saved : ∀ {t : JtagPy} {bits}, Tracks t bits →
      Tracks (t.saveItem edge.samplenum) bits := fun tracks =>
    { tracks with }
  have kept : ∀ t : JtagPy, (t.saveItem edge.samplenum).state = t.state ∧
      (t.saveItem edge.samplenum).first = t.first ∧ (t.saveItem edge.samplenum).outs = t.outs :=
    fun _ => ⟨rfl, rfl, rfl⟩
  obtain ⟨sameState, sameFirst, sameOuts⟩ := kept (b.rest edge)
  rw [shifted, sameState, sameFirst, sameOuts]
  cases shift : s.state.isShift with
  | true =>
      obtain ⟨next, state', first', view'⟩ := before.shift shift
      have none : ended s.state bits edge = [] := by
        rw [ended, not_exit1_of_shift shift]
        simp
      rw [none, jtagView_append_none]
      exact ⟨saved next, state'.trans state, first'.trans first, view'.trans view⟩
  | false =>
      cases exit1 : s.state.isExit1 with
      | true =>
          obtain ⟨next, state', first', view'⟩ := before.exit1 exit1
          exact ⟨saved next, state'.trans state, first'.trans first,
            view'.trans (congrArg (fun view => JtagView.append view _) view)⟩
      | false =>
          obtain ⟨next, state', first', view'⟩ := before.other shift exit1
          have none : ended s.state bits edge = [] := by
            rw [ended, exit1]
            simp
          rw [none, jtagView_append_none]
          exact ⟨saved next, state'.trans state, first'.trans first, view'.trans view⟩

end JtagPy

theorem jtagScans_cons (state : JtagState) (bits : List (Bool × Bool)) (edge : JtagEdge)
    (edges : List JtagEdge) :
    jtagScans state bits (edge :: edges) = JtagPy.ended state bits edge ++
      jtagScans (state.advance edge.tms) (JtagPy.shifted state bits edge) edges := by
  rw [jtagScans, JtagPy.ended, JtagPy.shifted]
  cases shift : state.isShift with
  | true =>
      rw [not_exit1_of_shift shift]
      simp
  | false =>
      cases exit1 : state.isExit1 with
      | false => simp
      | true =>
          by_cases empty : bits = []
          · simp [empty]
          · simp [empty]

theorem jtagExpectedFrom_cons (state : JtagState) (bits : List (Bool × Bool)) (edge : JtagEdge)
    (edges : List JtagEdge) :
    jtagExpectedFrom state bits (edge :: edges) =
      ((jtagStateView edge.samplenum state (state.advance edge.tms)).append
        (jtagScanView (JtagPy.ended state bits edge))).append
        (jtagExpectedFrom (state.advance edge.tms) (JtagPy.shifted state bits edge) edges) := by
  rw [jtagExpectedFrom, jtagScans_cons, flatMap_append, flatMap_append]
  rfl

namespace JtagPy

theorem Tracks.foldl {s : JtagPy} {bits : List (Bool × Bool)} (tracks : Tracks s bits)
    (later : s.first = false) (edges : List JtagEdge) :
    jtagView (edges.foldl handleRisingTckEdge s).outs =
      (jtagView s.outs).append (jtagExpectedFrom s.state bits edges) := by
  induction edges generalizing s bits with
  | nil => exact (JtagView.append_nil _).symm
  | cons edge edges ih =>
      obtain ⟨next, state, first, view⟩ := tracks.step edge
      rw [foldl_cons, ih next first, view, state, later,
        jtagExpectedFrom_cons, JtagView.append_assoc, JtagView.append_assoc, JtagView.append_assoc]
      rfl

theorem outs_eq (edges : List JtagEdge) :
    jtagView (edges.foldl handleRisingTckEdge reset).outs = jtagExpected edges := by
  have initial : Tracks reset [] := ⟨rfl, rfl, rfl, rfl, fun some => absurd rfl some⟩
  cases edges with
  | nil => rfl
  | cons edge edges =>
      obtain ⟨next, state, first, view⟩ := initial.step edge
      rw [foldl_cons, next.foldl first, view, state, jtagExpected, jtagScans_cons]
      rfl

end JtagPy

namespace JtagC

variable {shifts : CShifts} {s : JtagC} {bits : List (Bool × Bool)} {edge : JtagEdge}

def Puts (s : JtagC) (edge : JtagEdge) : Prop :=
  s.state.isExit = true ∧ s.state.nextState edge.tms ≠ s.state ∧ s.dataReady = true ∧ 0 < s.bitsCnt

theorem collect_spec (s : JtagC) (newstate : JtagState) (edge : JtagEdge) :
    (s.collect newstate edge).state = s.state ∧ (s.collect newstate edge).first = s.first ∧
      jtagView (s.collect newstate edge).outs = jtagView s.outs := by
  rw [collect]
  split
  · exact ⟨rfl, rfl, rfl⟩
  · cases newstate.isExit1 with
    | true =>
        by_cases room : s.bitsCnt < 256
        · simp only [if_pos room, if_true]
          and_intros <;> trivial
        · simp only [if_neg room, if_true]
          and_intros <;> trivial
    | false =>
        have view : ∀ outs, jtagView (s.outs ++ outs) = (jtagView s.outs).append (jtagView outs) :=
          fun outs => jtagView_append _ _
        by_cases room : s.bitsCnt < 256
        · simp only [if_pos room, Bool.false_eq_true, if_false, put]
          refine ⟨trivial, trivial, ?_⟩
          rw [view, jtagView_bits, JtagView.append_nil]
        · simp only [if_neg room, Bool.false_eq_true, if_false, put]
          refine ⟨trivial, trivial, ?_⟩
          rw [view, jtagView_bits, JtagView.append_nil]

theorem shiftEdge_spec (s : JtagC) (newstate : JtagState) (edge : JtagEdge) :
    ((s.enterShift newstate).shiftEdge newstate edge).state = s.state ∧
      ((s.enterShift newstate).shiftEdge newstate edge).first = s.first ∧
      jtagView ((s.enterShift newstate).shiftEdge newstate edge).outs = jtagView s.outs ∧
      (s.state.isShift = false →
        ((s.enterShift newstate).shiftEdge newstate edge).bitsCnt = s.bitsCnt ∧
        ((s.enterShift newstate).shiftEdge newstate edge).dataReady = s.dataReady) := by
  have entered : (s.enterShift newstate).state = s.state ∧
      (s.enterShift newstate).first = s.first ∧ (s.enterShift newstate).outs = s.outs ∧
      (s.enterShift newstate).bitsCnt = s.bitsCnt ∧
      (s.enterShift newstate).dataReady = s.dataReady := by
    rw [enterShift]
    split
    · exact ⟨rfl, rfl, rfl, rfl, rfl⟩
    · exact ⟨rfl, rfl, rfl, rfl, rfl⟩
  obtain ⟨state, first, outs, count, ready⟩ := entered
  rw [shiftEdge, state]
  cases s.state.isShift with
  | true =>
      obtain ⟨state', first', view'⟩ := collect_spec (s.enterShift newstate) newstate edge
      rw [outs] at view'
      exact ⟨state'.trans state, first'.trans first, view', fun other => Bool.noConfusion other⟩
  | false => exact ⟨state, first, congrArg jtagView outs, fun _ => ⟨count, ready⟩⟩

theorem putState_view (s : JtagC) (newstate : JtagState) (samplenum : Nat) :
    jtagView (s.putState newstate samplenum).outs = (jtagView s.outs).append
      (if s.first then ⟨[], [], [], []⟩ else jtagStateView samplenum s.state newstate) := by
  rw [putState]
  split
  · exact (JtagView.append_nil _).symm
  · show jtagView (s.outs ++ _) = _
    rw [jtagView_append]
    rfl

theorem putState_spec (s : JtagC) (newstate : JtagState) (samplenum : Nat) :
    (s.putState newstate samplenum).first = false ∧
      (s.putState newstate samplenum).bitsCnt = s.bitsCnt := by
  rw [putState]
  split
  · exact ⟨rfl, rfl⟩
  next later => exact ⟨Bool.eq_false_iff.mpr later, rfl⟩

variable (shifts) in
theorem exitEdge_eq (s : JtagC) (edge : JtagEdge) : let newstate := s.state.nextState edge.tms
    let t := (s.enterShift newstate).shiftEdge newstate edge
    (s.Puts edge → t.exitEdge shifts newstate edge.samplenum =
      t.putStrings shifts t.state.isIr edge.samplenum) ∧
    (¬s.Puts edge → t.exitEdge shifts newstate edge.samplenum = t) := by
  intro newstate t
  obtain ⟨state, -, -, other⟩ := shiftEdge_spec s newstate edge
  have exit_shift : s.state.isExit = true → s.state.isShift = false := by
    cases s.state <;> decide
  constructor
  · rintro ⟨exit, leaves, ready, some⟩
    obtain ⟨count, same⟩ := other (exit_shift exit)
    rw [exitEdge, if_pos ⟨by rw [state]; exact exit, by rw [state]; exact leaves⟩, leaveExit,
      if_pos ⟨same.trans ready, by rw [count]; exact some⟩]
  · intro plain
    rw [exitEdge]
    split
    next leaves =>
      rw [state] at leaves
      obtain ⟨count, same⟩ := other (exit_shift leaves.1)
      rw [leaveExit, if_neg]
      rintro ⟨ready, some⟩
      exact plain ⟨leaves.1, leaves.2, same.symm.trans ready, by rw [← count]; exact some⟩
    next => rfl

variable (shifts) in
theorem decodeEdge_plain (plain : ¬s.Puts edge) :
    (s.decodeEdge shifts edge).state = s.state.advance edge.tms ∧
      (s.decodeEdge shifts edge).first = false ∧
      (s.state.isShift = false → (s.decodeEdge shifts edge).bitsCnt = s.bitsCnt) ∧
      jtagView (s.decodeEdge shifts edge).outs = (jtagView s.outs).append
        (if s.first then ⟨[], [], [], []⟩
          else jtagStateView edge.samplenum s.state (s.state.advance edge.tms)) := by
  have exit := (exitEdge_eq shifts s edge).2 plain
  obtain ⟨state, first, view, other⟩ := shiftEdge_spec s (s.state.nextState edge.tms) edge
  obtain ⟨later, count⟩ := putState_spec ((s.enterShift (s.state.nextState edge.tms)).shiftEdge
    (s.state.nextState edge.tms) edge) (s.state.nextState edge.tms) edge.samplenum
  rw [decodeEdge, exit, ← nextState_eq]
  refine ⟨rfl, later, fun no_shift => count.trans (other no_shift).1, ?_⟩
  show jtagView (putState _ _ _).outs = _
  rw [putState_view, view, first, state]

variable (shifts) in
theorem decodeEdge_puts (puts : s.Puts edge) : (s.decodeEdge shifts edge).first = false ∧
      (jtagView (s.decodeEdge shifts edge).outs).newStates = (jtagView s.outs).newStates := by
  have exit := (exitEdge_eq shifts s edge).1 puts
  obtain ⟨state, -, view, -⟩ := shiftEdge_spec s (s.state.nextState edge.tms) edge
  rw [decodeEdge, exit]
  refine ⟨rfl, ?_⟩
  have first : ∀ (t : JtagC) (ir : Bool) (samplenum : Nat),
      (t.putStrings shifts ir samplenum).first = true := fun _ _ _ => rfl
  have silent : ∀ (t : JtagC) (ir : Bool) (samplenum : Nat),
      (jtagView (t.putStrings shifts ir samplenum).outs).newStates = (jtagView t.outs).newStates := by
    intro t ir samplenum
    rw [putStrings, put, jtagView_append]
    exact List.append_nil _
  show (jtagView (putState _ _ _).outs).newStates = _
  rw [putState_view, first, if_pos rfl, JtagView.append_nil, silent, view]

variable (shifts) in
theorem foldl_newStates (later : s.first = false) (edges : List JtagEdge) :
    ((jtagView (edges.foldl (decodeEdge shifts) s).outs).newStates.length ≤
      (jtagView s.outs).newStates.length + edges.length) ∧
    ((jtagView (edges.foldl (decodeEdge shifts) s).outs).newStates.length =
        (jtagView s.outs).newStates.length + edges.length →
      (jtagView (edges.foldl (decodeEdge shifts) s).outs).displayed =
        (jtagView s.outs).displayed) := by
  induction edges generalizing s with
  | nil => exact ⟨Nat.le_refl _, fun _ => rfl⟩
  | cons edge edges ih =>
      rw [foldl_cons, length_cons]
      by_cases puts : s.Puts edge
      · obtain ⟨first, same⟩ := decodeEdge_puts shifts puts
        obtain ⟨bound, -⟩ := ih first
        rw [same] at bound
        exact ⟨by omega, fun all => by omega⟩
      · obtain ⟨-, first, -, view⟩ := decodeEdge_plain shifts puts
        obtain ⟨bound, displayed⟩ := ih first
        have one : (jtagView (s.decodeEdge shifts edge).outs).newStates.length =
            (jtagView s.outs).newStates.length + 1 := by
          rw [view, later]
          exact length_append
        have same : (jtagView (s.decodeEdge shifts edge).outs).displayed =
            (jtagView s.outs).displayed := by
          rw [view, later]
          exact List.append_nil _
        rw [one] at bound displayed
        exact ⟨by omega, fun all => (displayed (by omega)).trans same⟩

/-- Where the C decoder is when `bits` have been shifted and no scan has ended. -/
structure Counts (s : JtagC) (bits : List (Bool × Bool)) : Prop where
  count : 0 < s.bitsCnt → bits ≠ []
  inside : bits ≠ [] → s.state.isShift = true ∨ s.state.isExit1 = true

theorem Counts.plain (counts : Counts s bits) (none : JtagPy.ended s.state bits edge = []) :
    ¬s.Puts edge := by
  rintro ⟨exit, -, -, some⟩
  have bits_some := counts.count some
  have exit1 : s.state.isExit1 = true := by
    rcases counts.inside bits_some with shift | exit1
    · have no_exit := (advance_shift shift false).2.2.2
      rw [no_exit] at exit
      cases exit
    · exact exit1
  rw [JtagPy.ended, if_pos ⟨exit1, bits_some⟩] at none
  cases none

theorem Counts.step (counts : Counts s bits) (none : JtagPy.ended s.state bits edge = []) :
    Counts (s.decodeEdge shifts edge) (JtagPy.shifted s.state bits edge) := by
  obtain ⟨state, -, count, -⟩ := decodeEdge_plain shifts (counts.plain none)
  rw [JtagPy.shifted]
  cases shift : s.state.isShift with
  | true =>
      obtain ⟨again, out, -, -⟩ := advance_shift shift edge.tms
      refine ⟨fun _ => by simp, fun _ => ?_⟩
      rw [state, again, out]
      cases edge.tms
      · exact Or.inl rfl
      · exact Or.inr rfl
  | false =>
      have count := count shift
      have empty : bits = [] := by
        by_contra some
        rcases counts.inside some with here | exit1
        · rw [shift] at here
          cases here
        · rw [JtagPy.ended, if_pos ⟨exit1, some⟩] at none
          cases none
      have zero : ¬0 < (s.decodeEdge shifts edge).bitsCnt := fun some =>
        counts.count (by rw [← count]; exact some) empty
      rw [empty]
      refine ⟨fun some => absurd some zero, fun some => absurd ?_ some⟩
      split
      · contradiction
      · split
        · rfl
        · rfl

theorem Counts.foldl (counts : Counts s bits) (later : s.first = false) (edges : List JtagEdge)
    (none : jtagScans s.state bits edges = []) :
    jtagView (edges.foldl (decodeEdge shifts) s).outs =
      (jtagView s.outs).append (jtagExpectedFrom s.state bits edges) := by
  induction edges generalizing s bits with
  | nil => exact (JtagView.append_nil _).symm
  | cons edge edges ih =>
      rw [jtagScans_cons] at none
      obtain ⟨ended, rest⟩ := append_eq_nil_iff.mp none
      obtain ⟨state, first, -, view⟩ := decodeEdge_plain shifts (counts.plain ended)
      rw [foldl_cons, ih (counts.step ended) first (by rw [state]; exact rest),
        view, state, later, jtagExpectedFrom_cons, ended, JtagPy.jtagView_append_none,
        JtagView.append_assoc]
      rfl

theorem length_jtagStates (state : JtagState) (edges : List JtagEdge) :
    (jtagStates state edges).length = edges.length := by
  induction edges generalizing state with
  | nil => rfl
  | cons edge edges ih =>
      rw [jtagStates, length_cons, length_cons, ih]

/-- Python reports every state and every scan; C does so exactly when no scan ends. -/
theorem scans_reported (shifts : CShifts) (edges : List JtagEdge) :
    jtagView (edges.foldl JtagPy.handleRisingTckEdge .reset).outs = jtagExpected edges ∧
      (jtagView (edges.foldl (decodeEdge shifts) start).outs = jtagExpected edges ↔
        jtagScans .runTestIdle [] edges = []) := by
  refine ⟨JtagPy.outs_eq edges, ?_⟩
  have initial : Counts start [] :=
    ⟨fun some => absurd some (Nat.lt_irrefl 0), fun some => absurd rfl some⟩
  cases edges with
  | nil => exact ⟨fun _ => rfl, fun _ => rfl⟩
  | cons edge edges =>
      have ended : JtagPy.ended start.state [] edge = [] := rfl
      obtain ⟨state, first, -, view⟩ := decodeEdge_plain shifts (initial.plain ended)
      have view : jtagView (start.decodeEdge shifts edge).outs = ⟨[], [], [], []⟩ := view
      rw [foldl_cons]
      constructor
      · intro right
        obtain ⟨-, displayed⟩ := foldl_newStates shifts first edges
        rw [right, view] at displayed
        have length : (jtagExpected (edge :: edges)).newStates.length = 0 + edges.length := by
          rw [jtagExpected]
          show (((jtagStates _ edges)).map _).length = _
          rw [length_map, length_jtagStates, Nat.zero_add]
        have none : (jtagScans .runTestIdle [] (edge :: edges)).flatMap JtagScan.displayed = [] :=
          displayed length
        by_contra some
        obtain ⟨scan, scans, parts⟩ := exists_cons_of_ne_nil some
        rw [parts, flatMap_cons] at none
        cases (append_eq_nil_iff.mp none).1
      · intro none
        rw [jtagScans_cons] at none
        obtain ⟨-, rest⟩ := append_eq_nil_iff.mp none
        rw [(initial.step ended).foldl first edges (by rw [state]; exact rest), view, state,
          jtagExpected, jtagScans_cons]
        rfl

/-- Two bits are shifted, and the TAP goes back to Run-Test/Idle: of the scan only one bit comes
out, and one state is missing. -/
def twoBitScan : List JtagEdge :=
  [⟨10, true, false, false⟩, ⟨20, false, false, false⟩, ⟨30, false, false, false⟩,
    ⟨40, false, true, false⟩, ⟨50, true, false, true⟩, ⟨60, true, false, false⟩,
    ⟨70, false, false, false⟩]

theorem twoBitScan_misreported :
    jtagScans .runTestIdle [] twoBitScan = [⟨60, false, [(true, false), (false, true)]⟩] ∧
      jtagView (twoBitScan.foldl (decodeEdge .modular) start).outs ≠ jtagExpected twoBitScan ∧
      (jtagView (twoBitScan.foldl (decodeEdge .modular) start).outs).strings =
        [(60, .tdi, false, [false]), (60, .tdo, false, [true])] := by
  decide +kernel

end JtagC

end SigrokDecode
