import SigrokDecode.Decoders.Swd

/-!
# The SWD decoders side by side

While no request ends behind more than 128 bits the C decoder annotates what the Python decoder
does.
-/

namespace SigrokDecode

open List

def SwdQuiet (bits : List SwdBit) : Prop :=
  isSwdSwitch bits = false ∧ swdRequest bits = none

/-- How many bits a state waits for, those apart that may wait forever. -/
def swdLength : SwdPhase → Option Nat
  | .ack => some 3
  | .data => some 32
  | .dparity => some 1
  | _ => none

/-- The C decoder is where the Python decoder is. -/
structure SwdAgrees (c : SwdC) (p : SwdPy) : Prop where
  state : c.state = p.state
  sampleEdge : c.sampleEdge = p.sampleEdge
  turnaround : c.turnaround = p.turnaround
  lineresetCount : c.lineresetCount = p.lineresetCount
  port : c.port = p.port
  bits : c.bits = p.bits.take 128
  short : ∀ length, swdLength p.state = some length → p.bits.length < length
  quiet : p.state = .req → SwdQuiet c.bits
  annotations : swdAnnotations c.outs = swdAnnotations p.outs

section Agreement

variable {c : SwdC} {p : SwdPy} {edge : SwdEdge} {samplenum : Nat}

theorem swdAnnotations_append (front back : List SwdOut) :
    swdAnnotations (front ++ back) = swdAnnotations front ++ swdAnnotations back :=
  filterMap_append

theorem swdQuiet_nil : SwdQuiet [] := ⟨rfl, rfl⟩

theorem swdAgrees_fresh (state : c.state = p.state) (sampleEdge : c.sampleEdge = p.sampleEdge)
    (turnaround : c.turnaround = p.turnaround)
    (lineresetCount : c.lineresetCount = p.lineresetCount) (port : c.port = p.port)
    (bits_c : c.bits = []) (bits : p.bits = [])
    (annotations : swdAnnotations c.outs = swdAnnotations p.outs) : SwdAgrees c p where
  state := state
  sampleEdge := sampleEdge
  turnaround := turnaround
  lineresetCount := lineresetCount
  port := port
  bits := by rw [bits_c, bits, take_nil]
  short length waits := by
    rw [bits]
    cases here : p.state <;> rw [here] at waits <;> cases waits <;> decide
  quiet _ := by
    rw [bits_c]
    exact swdQuiet_nil
  annotations := annotations

theorem swdAgrees_start (strictStart : Bool) :
    SwdAgrees (.start strictStart) (.start strictStart) :=
  swdAgrees_fresh rfl rfl rfl rfl rfl rfl rfl rfl

theorem resetState_agrees (port : c.port = p.port)
    (annotations : swdAnnotations c.outs = swdAnnotations p.outs) :
    SwdAgrees c.resetState p.resetState :=
  swdAgrees_fresh rfl rfl rfl rfl port rfl rfl annotations

theorem nextState_agrees (state : c.state = p.state) (sampleEdge : c.sampleEdge = p.sampleEdge)
    (turnaround : c.turnaround = p.turnaround) (port : c.port = p.port)
    (annotations : swdAnnotations c.outs = swdAnnotations p.outs) :
    SwdAgrees c.nextState p.nextState := by
  rw [SwdC.nextState, SwdPy.nextState]
  dsimp only
  rw [state]
  cases p.state with
  | unknown => exact swdAgrees_fresh rfl rfl rfl rfl port rfl rfl annotations
  | req => exact swdAgrees_fresh rfl rfl rfl rfl port rfl rfl annotations
  | ack =>
      dsimp only
      rw [port]
      cases read : p.port.read with
      | true => exact swdAgrees_fresh rfl rfl rfl rfl rfl rfl rfl annotations
      | false => exact swdAgrees_fresh rfl rfl rfl rfl rfl rfl rfl annotations
  | data => exact swdAgrees_fresh rfl sampleEdge turnaround rfl port rfl rfl annotations
  | dparity =>
      refine swdAgrees_fresh rfl rfl ?_ rfl port rfl rfl annotations
      show (if c.port.read then 1 else 0) = if p.port.read then 1 else 0
      rw [port]

theorem afterAck_agrees (state : c.state = p.state) (sampleEdge : c.sampleEdge = p.sampleEdge)
    (turnaround : c.turnaround = p.turnaround) (port : c.port = p.port)
    (annotations : swdAnnotations c.outs = swdAnnotations p.outs) (ack : SwdAck) :
    SwdAgrees (c.afterAck ack) (p.afterAck ack) := by
  have next := nextState_agrees state sampleEdge turnaround port annotations
  have reset := resetState_agrees port annotations
  have turn : ∀ {c' : SwdC} {p' : SwdPy}, SwdAgrees c' p' →
      SwdAgrees { c' with turnaround := 1 } { p' with turnaround := 1 } := fun agrees =>
    { agrees with turnaround := rfl }
  have stop : SwdAgrees (if c.port.orundetect = 1 then c.nextState else c.resetState)
      (if p.port.orundetect = 1 then p.nextState else p.resetState) := by
    rw [port]
    split
    · exact next
    · exact reset
  cases ack with
  | ok => exact next
  | fault => exact turn stop
  | wait => exact turn stop
  | noReply => exact reset
  | error => exact reset

theorem SwdAgrees.countLinereset (agrees : SwdAgrees c p) (edge : SwdEdge) :
    SwdAgrees (c.countLinereset edge) (p.countLinereset edge) := by
  rw [SwdC.countLinereset, SwdPy.countLinereset]
  split
  · split
    · exact { agrees with lineresetCount := congrArg (· + 1) agrees.lineresetCount }
    · dsimp only
      rw [agrees.lineresetCount]
      split
      · refine swdAgrees_fresh rfl rfl rfl rfl agrees.port rfl rfl ?_
        show swdAnnotations (c.outs ++ [_] ++ [_]) = swdAnnotations (p.outs ++ [_] ++ [_])
        rw [swdAnnotations_append, swdAnnotations_append, swdAnnotations_append,
          swdAnnotations_append, agrees.annotations]
        rfl
      · exact { agrees with lineresetCount := rfl }
  · exact agrees

theorem put_annotations (samplenum : Nat)
    (annotations : swdAnnotations c.outs = swdAnnotations p.outs) (ss length : Nat) (text : SwdText) :
    swdAnnotations (c.put ss samplenum text).outs =
      swdAnnotations (p.putx length samplenum text).outs := by
  show swdAnnotations (c.outs ++ [_]) = swdAnnotations (p.outs ++ [_])
  rw [swdAnnotations_append, swdAnnotations_append, annotations]
  rfl

theorem lastBits_of_le {count : Nat} {bits : List SwdBit} (few : bits.length ≤ count) :
    lastBits count bits = bits := by
  rw [lastBits, Nat.sub_eq_zero_of_le few, drop_zero]

/-- Behind the bit, before it is looked at. -/
structure SwdAppended (c : SwdC) (p : SwdPy) : Prop where
  state : c.state = p.state
  sampleEdge : c.sampleEdge = p.sampleEdge
  turnaround : c.turnaround = p.turnaround
  lineresetCount : c.lineresetCount = p.lineresetCount
  port : c.port = p.port
  bits : c.bits = p.bits.take 128
  short : ∀ length, swdLength p.state = some length → p.bits.length ≤ length
  some : p.bits ≠ []
  annotations : swdAnnotations c.outs = swdAnnotations p.outs

theorem SwdAgrees.append (agrees : SwdAgrees c p) (edge : SwdEdge) :
    SwdAppended (c.append edge) (p.append edge) := by
  have length : c.bits.length = min 128 p.bits.length := by rw [agrees.bits, length_take]
  have rest : (p.append edge).bits = p.bits ++ [⟨edge.dio, edge.samplenum⟩] := rfl
  have short : ∀ length, swdLength p.state = Option.some length →
      (p.append edge).bits.length ≤ length := by
    intro length waits
    have few := agrees.short length waits
    rw [rest, length_append, length_singleton]
    omega
  have some : (p.append edge).bits ≠ [] := by
    rw [rest]
    exact append_ne_nil_of_right_ne_nil _ (cons_ne_nil _ _)
  rw [SwdC.append]
  split
  next room =>
    have whole : p.bits.take 128 = p.bits := take_of_length_le (by omega)
    refine { agrees with bits := ?_, short := short, some := some }
    show c.bits ++ _ = (p.bits ++ _).take 128
    rw [agrees.bits, whole, take_of_length_le]
    rw [length_append, length_singleton]
    omega
  next full =>
    refine { agrees with bits := ?_, short := short, some := some }
    show c.bits = (p.bits ++ _).take 128
    rw [agrees.bits, take_append_of_le_length (by omega)]

theorem SwdAppended.handleAck (after : SwdAppended c p) (here : p.state = .ack) :
    SwdAgrees (c.handleAck samplenum) (p.handleAckEdge samplenum) := by
  have short := after.short 3 (by rw [here]; rfl)
  have bits : c.bits = p.bits := by rw [after.bits, take_of_length_le (by omega)]
  rw [SwdC.handleAck, SwdPy.handleAckEdge, bits]
  split
  next few =>
    refine { after with short := fun length waits => ?_, quiet := fun req => ?_ }
    · rw [here] at waits
      cases waits
      exact few
    · rw [here] at req
      cases req
  next enough =>
    rw [lastBits_of_le (by omega)]
    have said := put_annotations samplenum after.annotations (SwdC.firstSample p.bits) 3
      (.ack (swdAck p.bits))
    have port : ({ c.port with ack := swdAck p.bits } : SwdPort) =
        { p.port with ack := swdAck p.bits } := by
      rw [after.port]
    exact afterAck_agrees (c := { c.put _ _ _ with port := { c.port with ack := _ } })
      (p := { p.putx _ _ _ with port := { p.port with ack := _ } }) after.state after.sampleEdge
      after.turnaround port said _

theorem SwdAppended.handleData (after : SwdAppended c p) (here : p.state = .data) :
    SwdAgrees (c.handleData samplenum) (p.handleDataEdge samplenum) := by
  have short := after.short 32 (by rw [here]; rfl)
  have bits : c.bits = p.bits := by rw [after.bits, take_of_length_le (by omega)]
  rw [SwdC.handleData, SwdPy.handleDataEdge, bits]
  split
  next few =>
    refine { after with short := fun length waits => ?_, quiet := fun req => ?_ }
    · rw [here] at waits
      cases waits
      exact few
    · rw [here] at req
      cases req
  next enough =>
    rw [lastBits_of_le (by omega), take_of_length_le (by omega), after.port]
    exact nextState_agrees after.state after.sampleEdge after.turnaround rfl
      (put_annotations (c := { c with port := _ }) (p := { p with port := _ }) samplenum
        after.annotations _ 32 _)

theorem SwdAppended.handleDparity (after : SwdAppended c p) (here : p.state = .dparity) :
    SwdAgrees (c.handleDparity samplenum) (p.handleDparityEdge samplenum) := by
  have short := after.short 1 (by rw [here]; rfl)
  have bits : c.bits = p.bits := by rw [after.bits, take_of_length_le (by omega)]
  obtain ⟨bit, one⟩ : ∃ bit, p.bits = [bit] := by
    have some := length_pos_iff.mpr after.some
    exact length_eq_one_iff.mp (by omega)
  rw [SwdC.handleDparity, SwdPy.handleDparityEdge, bits, one]
  have last : lastBits 1 [bit] = [bit] := rfl
  have received : [bit].any SwdBit.dio = bit.dio := Bool.or_false _
  rw [last, received, after.port]
  dsimp only
  by_cases same : p.port.dparity = bit.dio
  · have same_py : [p.port.dparity] = [bit].map SwdBit.dio := by
      rw [same]
      rfl
    rw [if_neg (not_not.mpr same), if_neg (not_not.mpr same_py)]
    have silent : ∀ read, swdAnnotations (c.outs ++ [SwdOut.transfer c.ssReq samplenum p.port.ap
        read p.port.addr p.port.data p.port.ack]) = swdAnnotations p.outs := by
      intro read
      rw [swdAnnotations_append, after.annotations]
      exact List.append_nil _
    have read : (c.packet (.transfer c.ssReq samplenum p.port.ap p.port.read p.port.addr
        p.port.data p.port.ack)).port.read = p.port.read := congrArg SwdPort.read after.port
    rw [read]
    cases p.port.read with
    | true =>
        exact nextState_agrees after.state after.sampleEdge after.turnaround after.port (silent _)
    | false =>
        exact nextState_agrees after.state after.sampleEdge after.turnaround
          (congrArg SwdPort.handleCompletedWrite after.port) (silent _)
  · have differ : [p.port.dparity] ≠ [bit].map SwdBit.dio := by
      intro equal
      exact same (List.cons.inj equal).1
    rw [if_pos same, if_pos differ]
    exact nextState_agrees after.state after.sampleEdge after.turnaround after.port
      (put_annotations samplenum after.annotations _ 1 _)

theorem SwdAppended.handleReq_few (after : SwdAppended c p) (here : p.state = .req)
    (few : p.bits.length ≤ 128) :
    SwdAgrees (c.handleReq samplenum) (p.handleReqEdge samplenum) := by
  have bits : c.bits = p.bits := by rw [after.bits, take_of_length_le few]
  rw [SwdC.handleReq, SwdPy.handleReqEdge, bits]
  cases switch : isSwdSwitch p.bits with
  | true =>
      exact resetState_agrees after.port (put_annotations samplenum after.annotations _ 16 _)
  | false =>
      simp only [Bool.false_eq_true, if_false]
      cases request : swdRequest p.bits with
      | some request =>
          dsimp only
          rw [after.port]
          exact nextState_agrees after.state after.sampleEdge after.turnaround rfl
            (put_annotations (c := { c with port := _, ssReq := _ }) (p := { p with port := _ })
              samplenum after.annotations _ 8 _)
      | none =>
          refine { after with short := fun length waits => ?_, quiet := fun _ => ?_ }
          · rw [here] at waits
            cases waits
          · rw [bits]
            exact ⟨switch, request⟩

theorem SwdAppended.handleReq_many (after : SwdAppended c p) (here : p.state = .req)
    (full : SwdQuiet c.bits) (quiet : SwdQuiet p.bits) :
    SwdAgrees (c.handleReq samplenum) (p.handleReqEdge samplenum) := by
  rw [SwdC.handleReq, SwdPy.handleReqEdge, full.1, full.2, quiet.1, quiet.2]
  simp only [Bool.false_eq_true, if_false]
  refine { after with short := fun length waits => ?_, quiet := fun _ => full }
  rw [here] at waits
  cases waits

theorem SwdAgrees.decodeEdge (agrees : SwdAgrees c p) (early : ¬p.EndsLate edge) :
    SwdAgrees (c.decodeEdge edge) (p.decodeEdge edge) := by
  have counted := agrees.countLinereset edge
  rw [SwdPy.EndsLate] at early
  rw [SwdC.decodeEdge, SwdPy.decodeEdge]
  generalize c.countLinereset edge = c at counted ⊢
  generalize p.countLinereset edge = p at counted early ⊢
  rw [SwdC.sample, SwdPy.sample, counted.sampleEdge]
  split
  · exact counted
  next sampled =>
    rw [counted.turnaround]
    split
    · exact { counted with sampleEdge := rfl, turnaround := rfl }
    next taken =>
      have after := counted.append edge
      rw [SwdC.handle, SwdPy.handle, after.state]
      cases here : (p.append edge).state with
      | unknown =>
          refine { after with short := fun length waits => ?_, quiet := fun req => ?_ }
          · rw [here] at waits
            cases waits
          · rw [here] at req
            cases req
      | ack => exact after.handleAck here
      | data => exact after.handleData here
      | dparity => exact after.handleDparity here
      | req =>
          rcases Nat.lt_or_ge 128 (p.append edge).bits.length with many | few
          · have length : (p.append edge).bits.length = p.bits.length + 1 := length_append
            have kept : (c.append edge).bits = c.bits := by
              rw [SwdC.append, if_neg]
              rw [counted.bits, length_take]
              omega
            refine after.handleReq_many here (by rw [kept]; exact counted.quiet here) ?_
            by_contra ends
            refine early ⟨here, not_not.mp sampled, by omega, by omega, ?_⟩
            by_contra none
            refine ends ⟨?_, ?_⟩
            · exact Bool.eq_false_iff.mpr fun switch => none (Or.inl switch)
            · exact Option.not_isSome_iff_eq_none.mp fun request => none (Or.inr request)
          · exact after.handleReq_few here few

end Agreement

end SigrokDecode
