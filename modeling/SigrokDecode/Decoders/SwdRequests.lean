import SigrokDecode.Decoders.SwdAgreement

/-!
# Requests that the SWD decoder misses

A full buffer stays as it is, so a request behind it is not seen; what comes out next is a line
reset.
-/

namespace SigrokDecode

open List

theorem swdAnnotations_grow {front back : List SwdOut} (grow : front <+: back) :
    ∃ more, swdAnnotations back = swdAnnotations front ++ more := by
  obtain ⟨new, rfl⟩ := grow
  exact ⟨swdAnnotations new, swdAnnotations_append front new⟩

namespace SwdC

variable (s : SwdC) (edge : SwdEdge) (samplenum : Nat)

theorem nextState_outs : s.nextState.outs = s.outs := by
  rw [nextState]
  dsimp only
  cases s.state with
  | unknown => rfl
  | req => rfl
  | ack =>
      dsimp only
      split <;> rfl
  | data => rfl
  | dparity => rfl

theorem afterAck_outs (ack : SwdAck) : (s.afterAck ack).outs = s.outs := by
  have stop : (if s.port.orundetect = 1 then s.nextState else s.resetState).outs = s.outs := by
    split
    · exact s.nextState_outs
    · rfl
  cases ack with
  | ok => exact s.nextState_outs
  | fault => exact stop
  | wait => exact stop
  | noReply => rfl
  | error => rfl

theorem countLinereset_grows : s.outs <+: (s.countLinereset edge).outs := by
  rw [countLinereset]
  split
  · split
    · exact prefix_refl _
    · dsimp only
      split
      · exact (prefix_append _ _).trans (prefix_append _ _)
      · exact prefix_refl _
  · exact prefix_refl _

theorem handleReq_grows : s.outs <+: (s.handleReq samplenum).outs := by
  rw [handleReq]
  split
  · exact prefix_append _ _
  · split
    · dsimp only
      rw [nextState_outs]
      exact prefix_append _ _
    · exact prefix_refl _

theorem handleAck_grows : s.outs <+: (s.handleAck samplenum).outs := by
  rw [handleAck]
  split
  · exact prefix_refl _
  · dsimp only
    rw [afterAck_outs]
    exact prefix_append _ _

theorem handleData_grows : s.outs <+: (s.handleData samplenum).outs := by
  rw [handleData]
  split
  · exact prefix_refl _
  · dsimp only
    rw [nextState_outs]
    exact prefix_append _ _

theorem handleDparity_grows : s.outs <+: (s.handleDparity samplenum).outs := by
  rw [handleDparity]
  dsimp only
  rw [nextState_outs]
  split
  · exact prefix_append _ _
  · split
    · exact prefix_append _ _
    · exact prefix_append _ _

theorem append_outs : (s.append edge).outs = s.outs := by
  rw [append]
  split <;> rfl

theorem handle_grows : s.outs <+: (s.handle samplenum).outs := by
  rw [handle]
  split
  · exact prefix_refl _
  · exact s.handleReq_grows samplenum
  · exact s.handleAck_grows samplenum
  · exact s.handleData_grows samplenum
  · exact s.handleDparity_grows samplenum

theorem sample_grows : s.outs <+: (s.sample edge).outs := by
  rw [sample]
  split
  · exact prefix_refl _
  · split
    · exact prefix_refl _
    · have grow := (s.append edge).handle_grows edge.samplenum
      rw [append_outs] at grow
      exact grow

theorem decodeEdge_grows : s.outs <+: (s.decodeEdge edge).outs :=
  (s.countLinereset_grows edge).trans (sample_grows _ edge)

theorem foldl_grows (edges : List SwdEdge) : s.outs <+: (edges.foldl decodeEdge s).outs := by
  induction edges generalizing s with
  | nil => exact prefix_refl _
  | cons edge edges ih =>
      exact (s.decodeEdge_grows edge).trans (ih _)

end SwdC

namespace SwdPy

variable (s : SwdPy) (edge : SwdEdge) (samplenum : Nat)

theorem nextState_outs : s.nextState.outs = s.outs := by
  rw [nextState]
  dsimp only
  cases s.state with
  | unknown => rfl
  | req => rfl
  | ack => rfl
  | data => rfl
  | dparity => rfl

theorem afterAck_outs (ack : SwdAck) : (s.afterAck ack).outs = s.outs := by
  have stop : (if s.port.orundetect = 1 then s.nextState else s.resetState).outs = s.outs := by
    split
    · exact s.nextState_outs
    · rfl
  cases ack with
  | ok => exact s.nextState_outs
  | fault => exact stop
  | wait => exact stop
  | noReply => rfl
  | error => rfl

theorem countLinereset_grows : s.outs <+: (s.countLinereset edge).outs := by
  rw [countLinereset]
  split
  · split
    · exact prefix_refl _
    · dsimp only
      split
      · exact (prefix_append _ _).trans (prefix_append _ _)
      · exact prefix_refl _
  · exact prefix_refl _

theorem handleReqEdge_grows : s.outs <+: (s.handleReqEdge samplenum).outs := by
  rw [handleReqEdge]
  split
  · exact prefix_append _ _
  · split
    · dsimp only
      rw [nextState_outs]
      exact prefix_append _ _
    · exact prefix_refl _

theorem handleAckEdge_grows : s.outs <+: (s.handleAckEdge samplenum).outs := by
  rw [handleAckEdge]
  split
  · exact prefix_refl _
  · dsimp only
    rw [afterAck_outs]
    exact prefix_append _ _

theorem handleDataEdge_grows : s.outs <+: (s.handleDataEdge samplenum).outs := by
  rw [handleDataEdge]
  split
  · exact prefix_refl _
  · dsimp only
    rw [nextState_outs]
    exact prefix_append _ _

theorem handleDparityEdge_grows : s.outs <+: (s.handleDparityEdge samplenum).outs := by
  rw [handleDparityEdge, nextState_outs]
  split
  · exact prefix_append _ _
  · split
    · exact prefix_refl _
    · exact prefix_refl _

theorem handle_grows : s.outs <+: (s.handle samplenum).outs := by
  rw [handle]
  split
  · exact prefix_refl _
  · exact s.handleReqEdge_grows samplenum
  · exact s.handleAckEdge_grows samplenum
  · exact s.handleDataEdge_grows samplenum
  · exact s.handleDparityEdge_grows samplenum

theorem decodeEdge_grows : s.outs <+: (s.decodeEdge edge).outs := by
  refine (s.countLinereset_grows edge).trans ?_
  rw [decodeEdge, sample]
  split
  · exact prefix_refl _
  · split
    · exact prefix_refl _
    · exact ((s.countLinereset edge).append edge).handle_grows edge.samplenum

theorem foldl_grows (edges : List SwdEdge) : s.outs <+: (edges.foldl decodeEdge s).outs := by
  induction edges generalizing s with
  | nil => exact prefix_refl _
  | cons edge edges ih =>
      exact (s.decodeEdge_grows edge).trans (ih _)

end SwdPy

/-- The C decoder looks for a request and has no room for one. -/
structure SwdC.Full (c : SwdC) : Prop where
  state : c.state = .req
  bits : c.bits.length = 128
  quiet : SwdQuiet c.bits

namespace SwdC.Full

variable {c : SwdC}

theorem sample (full : c.Full) (edge : SwdEdge) :
    (c.sample edge).Full ∧ (c.sample edge).outs = c.outs := by
  rw [SwdC.sample]
  split
  · exact ⟨full, rfl⟩
  · split
    · exact ⟨{ full with }, rfl⟩
    · have appended : c.append edge = c := by
        rw [SwdC.append, full.bits]
        exact if_neg (Nat.lt_irrefl 128)
      rw [appended, SwdC.handle, full.state]
      have handled : c.handleReq edge.samplenum = c := by
        rw [SwdC.handleReq, full.quiet.1, full.quiet.2]
        rfl
      rw [handled]
      exact ⟨full, rfl⟩

theorem countLinereset (full : c.Full) (edge : SwdEdge) :
    ((c.countLinereset edge).Full ∧ (c.countLinereset edge).outs = c.outs) ∨
      ∃ es more, swdAnnotations (c.countLinereset edge).outs =
        swdAnnotations c.outs ++ (es, .lineReset) :: more := by
  rw [SwdC.countLinereset]
  split
  · split
    · exact Or.inl ⟨{ full with }, rfl⟩
    · dsimp only
      split
      · refine Or.inr ⟨edge.samplenum, [], ?_⟩
        show swdAnnotations (c.outs ++ [_] ++ [_]) = _
        rw [swdAnnotations_append, swdAnnotations_append]
        exact List.append_nil _
      · exact Or.inl ⟨{ full with }, rfl⟩
  · exact Or.inl ⟨full, rfl⟩

theorem foldl (full : c.Full) (edges : List SwdEdge) :
    swdAnnotations (edges.foldl SwdC.decodeEdge c).outs = swdAnnotations c.outs ∨
      ∃ es more, swdAnnotations (edges.foldl SwdC.decodeEdge c).outs =
        swdAnnotations c.outs ++ (es, .lineReset) :: more := by
  induction edges generalizing c with
  | nil => exact Or.inl rfl
  | cons edge edges ih =>
      rw [foldl_cons]
      rcases full.countLinereset edge with ⟨still, silent⟩ | ⟨es, more, reset⟩
      · obtain ⟨after, outs⟩ := still.sample edge
        have outs : (c.decodeEdge edge).outs = c.outs := outs.trans silent
        have rest := ih (c := c.decodeEdge edge) after
        rw [outs] at rest
        exact rest
      · obtain ⟨rest, grown⟩ := swdAnnotations_grow
          (((c.countLinereset edge).sample_grows edge).trans
            ((c.decodeEdge edge).foldl_grows edges))
        refine Or.inr ⟨es, more ++ rest, ?_⟩
        rw [grown, reset, List.append_assoc, cons_append]

end SwdC.Full

variable {p : SwdPy} {c : SwdC}

theorem SwdPy.EndsLate.annotates {edge : SwdEdge} (late : p.EndsLate edge) :
    ∃ said, said ≠ .lineReset ∧ swdAnnotations (p.decodeEdge edge).outs =
      swdAnnotations (p.countLinereset edge).outs ++ [(edge.samplenum, said)] := by
  obtain ⟨here, sampled, taken, -, ends⟩ := late
  rw [SwdPy.decodeEdge]
  generalize p.countLinereset edge = p at here sampled taken ends ⊢
  have request : (p.append edge).state = .req := here
  have sample : p.sample edge = (p.append edge).handleReqEdge edge.samplenum := by
    rw [SwdPy.sample, if_neg (not_not.mpr sampled), if_neg (by rw [taken]; exact Nat.lt_irrefl 0),
      SwdPy.handle, request]
  rw [sample, SwdPy.handleReqEdge]
  cases switch : isSwdSwitch (p.append edge).bits with
  | true => exact ⟨.jtagToSwd, by simp, swdAnnotations_append p.outs _⟩
  | false =>
      rw [switch] at ends
      obtain ⟨request, requested⟩ := Option.isSome_iff_exists.mp (ends.resolve_left (by simp))
      rw [requested]
      simp only [Bool.false_eq_true, if_false]
      rw [SwdPy.nextState_outs]
      have other : ∀ read description, SwdText.request read description ≠ .lineReset := by simp
      exact ⟨_, other _ _, swdAnnotations_append p.outs [.text _ _ _]⟩

theorem SwdAgrees.parts {edge : SwdEdge} (agrees : SwdAgrees c p)
    (late : p.EndsLate edge) (edges : List SwdEdge) :
    swdAnnotations ((edge :: edges).foldl SwdC.decodeEdge c).outs ≠
      swdAnnotations ((edge :: edges).foldl SwdPy.decodeEdge p).outs := by
  obtain ⟨said, other, saying⟩ := late.annotates
  obtain ⟨rest, grown⟩ := swdAnnotations_grow ((p.decodeEdge edge).foldl_grows edges)
  rw [saying] at grown
  have counted := agrees.countLinereset edge
  obtain ⟨here, sampled, taken, many, -⟩ := late
  have full : (c.countLinereset edge).Full := by
    refine ⟨counted.state.trans here, ?_, counted.quiet here⟩
    rw [counted.bits, length_take]
    omega
  obtain ⟨after, outs⟩ := full.sample edge
  intro same
  rw [foldl_cons, foldl_cons] at same
  rw [grown] at same
  have next := after.foldl edges
  rw [outs, counted.annotations] at next
  rw [List.append_assoc] at same
  rcases next with nothing | ⟨es, more, reset⟩
  · have empty := self_eq_append_right.mp (nothing.symm.trans same)
    cases empty
  · have equal := append_cancel_left (reset.symm.trans same)
    cases equal
    exact other rfl

theorem SwdAgrees.foldl (agrees : SwdAgrees c p) (edges : List SwdEdge)
    (early : ∀ before edge after, edges = before ++ edge :: after →
      ¬(before.foldl SwdPy.decodeEdge p).EndsLate edge) :
    SwdAgrees (edges.foldl SwdC.decodeEdge c) (edges.foldl SwdPy.decodeEdge p) := by
  induction edges generalizing c p with
  | nil => exact agrees
  | cons edge edges ih =>
      refine ih (agrees.decodeEdge (early [] edge edges rfl)) ?_
      intro before next after parts
      exact early (edge :: before) next after (by rw [parts]; rfl)

theorem SwdAgrees.same_annotations (agrees : SwdAgrees c p) (edges : List SwdEdge) :
    swdAnnotations (edges.foldl SwdC.decodeEdge c).outs =
        swdAnnotations (edges.foldl SwdPy.decodeEdge p).outs ↔
      ∀ before edge after, edges = before ++ edge :: after →
        ¬(before.foldl SwdPy.decodeEdge p).EndsLate edge := by
  refine ⟨?_, fun early => (agrees.foldl edges early).annotations⟩
  intro same
  induction edges generalizing c p with
  | nil =>
      intro before edge after parts
      exact absurd parts.symm (append_ne_nil_of_right_ne_nil _ (cons_ne_nil _ _))
  | cons edge edges ih =>
      by_cases late : p.EndsLate edge
      · exact absurd same (agrees.parts late edges)
      · intro before next after parts
        cases before with
        | nil =>
            cases parts
            exact late
        | cons first before =>
            cases parts
            exact ih (agrees.decodeEdge late) same before next after rfl

namespace SwdC

/-- The decoders annotate the same exactly when no request ends behind more than 128 bits. -/
theorem requests_annotated (strictStart : Bool) (edges : List SwdEdge) :
    swdAnnotations (edges.foldl decodeEdge (start strictStart)).outs =
        swdAnnotations (edges.foldl SwdPy.decodeEdge (.start strictStart)).outs ↔
      ∀ before edge after, edges = before ++ edge :: after →
        ¬(before.foldl SwdPy.decodeEdge (.start strictStart)).EndsLate edge :=
  (swdAgrees_start strictStart).same_annotations edges

def clocks (samplenum : Nat) : List Bool → List SwdEdge
  | [] => []
  | dio :: bits =>
      ⟨samplenum, true, dio⟩ :: ⟨samplenum + 5, false, dio⟩ :: clocks (samplenum + 10) bits

def idleThenRequest : List SwdEdge :=
  clocks 10 (List.replicate 121 false ++ [true, false, true, false, false, true, false, true])

theorem idleThenRequest_missed :
    swdAnnotations (idleThenRequest.foldl SwdPy.decodeEdge (.start false)).outs =
        [(1290, .request true "IDCODE")] ∧
      swdAnnotations (idleThenRequest.foldl decodeEdge (start false)).outs = [] := by
  constructor
  · decide +kernel
  · decide +kernel

end SwdC

end SigrokDecode
