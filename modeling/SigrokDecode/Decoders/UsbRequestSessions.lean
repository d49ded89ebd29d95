import SigrokDecode.Decoders.UsbRequestPairs

/-!
# Sessions with many endpoints

Whole interleavings of transactions, and what the decoder reports for each endpoint.
-/

namespace SigrokDecode

open Foundation List

namespace UsbReqState

def transact (s : UsbReqState) (t : UsbTransaction) : UsbReqState :=
  t.packets.foldl recvProto s

/-- The registers in front of the transfer. -/
def received (s : UsbReqState) (t : UsbTransaction) : UsbReqState :=
  { s with
    transactionState := .idle
    transactionType := t.token
    transactionEp := t.key.2
    transactionAddr := t.key.1
    transactionData := t.bytes.take usbReqMaxData
    handshake := t.answer.handshake
    ssTransaction := t.tokenSpan.ss
    esTransaction := t.answerSpan.es }

def tokenReceived (s : UsbReqState) (t : UsbTransaction) : UsbReqState :=
  { s with
    transactionState := .tokenReceived
    transactionType := t.token
    transactionEp := t.key.2
    transactionAddr := t.key.1
    transactionData := []
    ssTransaction := t.tokenSpan.ss
    esTransaction := t.tokenSpan.es }

variable {s : UsbReqState}

theorem recvToken_eq (idle : s.transactionState = .idle) (t : UsbTransaction) :
    s.recvToken t.tokenPacket = s.tokenReceived t := by
  have intime : s.checkTimeout t.tokenSpan.ss = s := by
    rw [checkTimeout, if_neg]
    rw [idle]
    exact fun both => absurd both.1 (by decide)
  unfold recvToken tokenReceived UsbTransaction.key UsbTransaction.tokenPacket
  dsimp only
  rw [intime]
  cases t.token with
  | «in» =>
      rw [if_neg (by decide), if_neg (not_not.mpr idle)]
      simp only [UsbReqToken.pid, true_and]
  | out =>
      rw [if_neg (by decide), if_neg (not_not.mpr idle)]
      simp only [UsbReqToken.pid, reduceCtorEq, false_and, if_false]
  | setup =>
      rw [if_neg (by decide), if_neg (not_not.mpr idle)]
      simp only [UsbReqToken.pid, reduceCtorEq, false_and, if_false]

theorem recvData_eq (busy : s.transactionState = .tokenReceived) (t : UsbTransaction) :
    s.recvData t.dataPacket =
      { s with
        transactionData := t.bytes.take usbReqMaxData
        transactionState := .dataReceived } := by
  rw [recvData, if_neg (not_not.mpr busy)]
  rfl

theorem recvHandshake_eq
    (busy : s.transactionState = .tokenReceived ∨ s.transactionState = .dataReceived)
    (t : UsbTransaction) :
    s.recvHandshake t.answerPacket =
      handleTransfer { s with
        handshake := t.answer.handshake
        transactionState := .idle
        esTransaction := t.answerSpan.es } := by
  rw [recvHandshake, if_neg]
  · unfold UsbTransaction.answerPacket
    cases t.answer <;> rfl
  · intro both
    rcases busy with token | data
    · exact both.1 token
    · exact both.2 data

theorem transact_eq (idle : s.transactionState = .idle) (t : UsbTransaction) :
    s.transact t = (s.received t).handleTransfer := by
  cases sent : t.data with
  | none =>
      have empty : t.bytes = [] := by
        rw [UsbTransaction.bytes, sent]
        rfl
      have ran : s.transact t = (s.recvToken t.tokenPacket).recvHandshake t.answerPacket := by
        rw [transact, UsbTransaction.packets, sent]
        rfl
      rw [ran, recvToken_eq idle, recvHandshake_eq (.inl rfl), received, empty]
      rfl
  | some bytes =>
      have ran : s.transact t =
          ((s.recvToken t.tokenPacket).recvData t.dataPacket).recvHandshake t.answerPacket := by
        rw [transact, UsbTransaction.packets, sent]
        rfl
      rw [ran, recvToken_eq idle, recvData_eq rfl, recvHandshake_eq (.inr rfl)]
      rfl

theorem carries_received (s : UsbReqState) (t : UsbTransaction) : Carries (s.received t) t :=
  ⟨rfl, rfl, rfl, rfl⟩

/-- Between two transactions the array holds what is pending for every endpoint. -/
structure Serves (keys : Finset (Nat × Nat)) (s : UsbReqState)
    (pending : Nat × Nat → Option UsbRequest) : Prop where
  idle : s.transactionState = .idle
  table : Table keys s
  entries : ∀ key, UsbReqRequest.Pending (lookup UsbReqRequest.key s.requests key) (pending key)

def run (s : UsbReqState) (stream : List UsbTransaction) : UsbReqState :=
  stream.foldl transact s

def own (key : Nat × Nat) (stream : List UsbTransaction) : List UsbTransaction :=
  stream.filter fun t => t.key = key

section Sessions

variable {keys : Finset (Nat × Nat)} {s : UsbReqState} {pending : Nat × Nat → Option UsbRequest}

theorem serves_start (keys : Finset (Nat × Nat)) (firstAck : Bool) :
    Serves keys (start firstAck) fun _ => none where
  idle := rfl
  table := ⟨nodup_nil, fun _ member => absurd member not_mem_nil⟩
  entries _ := True.intro

theorem serves_transact (few : keys.card ≤ usbReqMaxPending) (serves : Serves keys s pending)
    {t : UsbTransaction} (member : t.key ∈ keys) :
    Serves keys (s.transact t)
        (Function.update pending t.key (UsbRequest.step (pending t.key) t).2) ∧
      (∃ told, reports t.key (s.transact t).outs = reports t.key s.outs ++ told ∧
        Forall₂ Told told (UsbRequest.step (pending t.key) t).1) ∧
      ∀ other ≠ t.key, reports other (s.transact t).outs = reports other s.outs := by
  have table : Table keys (s.received t) := ⟨serves.table.distinct, serves.table.known⟩
  obtain ⟨told, moved, listed, held⟩ := answers_handleTransfer table few (s.carries_received t)
    member (serves.entries t.key)
  rw [transact_eq serves.idle]
  refine ⟨⟨moved.transaction.state, moved.table, ?_⟩, ⟨told, moved.own, listed⟩,
    fun other differs => (moved.others other differs).1⟩
  intro key
  by_cases here : key = t.key
  · rw [here, Function.update_self]
    exact held
  · rw [Function.update_of_ne here, (moved.others key here).2]
    exact serves.entries key

theorem reports_run (few : keys.card ≤ usbReqMaxPending) (serves : Serves keys s pending)
    {stream : List UsbTransaction} (known : ∀ t ∈ stream, t.key ∈ keys) (key : Nat × Nat) :
    ∃ told, reports key (s.run stream).outs = reports key s.outs ++ told ∧
      Forall₂ Told told (UsbRequest.formed (pending key) (own key stream)) := by
  induction stream generalizing s pending with
  | nil =>
      exact ⟨[], (List.append_nil _).symm, .nil⟩
  | cons t rest ih =>
      obtain ⟨next, ⟨told, answered, listed⟩, others⟩ :=
        serves_transact few serves (known t mem_cons_self)
      obtain ⟨later, further, formed⟩ := ih next
        fun other member => known other (mem_cons_of_mem t member)
      have unfolded : s.run (t :: rest) = (s.transact t).run rest := rfl
      rw [unfolded, further]
      by_cases here : t.key = key
      · subst here
        have kept : own t.key (t :: rest) = t :: own t.key rest :=
          filter_cons_of_pos (decide_eq_true rfl)
        rw [Function.update_self] at formed
        rw [answered, kept, UsbRequest.formed, List.append_assoc]
        exact ⟨told ++ later, rfl, rel_append listed formed⟩
      · have dropped : own key (t :: rest) = own key rest :=
          filter_cons_of_neg (by simpa using here)
        rw [Function.update_of_ne (Ne.symm here)] at formed
        rw [others key (Ne.symm here), dropped]
        exact ⟨later, rfl, formed⟩

end Sessions

end UsbReqState

open UsbReqState

theorem UsbReqState.Told.eq_report_iff {out : UsbReqClass × List Char} {p : UsbRequest}
    (told : Told out p) : out = p.report ↔ p.Fits := by
  obtain ⟨r, shows, rfl⟩ := told
  rw [← shows.summary_eq_iff, toldOf, UsbRequest.report, Prod.mk.injEq, append_right_inj]
  exact and_iff_right rfl

theorem eq_reports_iff {outs : List (UsbReqClass × List Char)} {requests : List UsbRequest}
    (told : Forall₂ Told outs requests) :
    outs = requests.map UsbRequest.report ↔ ∀ p ∈ requests, p.Fits := by
  induction told with
  | nil =>
      exact ⟨fun _ p member => absurd member not_mem_nil, fun _ => rfl⟩
  | cons first _ ih =>
      rw [map_cons, List.cons.injEq, first.eq_report_iff, ih, forall_mem_cons]

def UsbReported (firstAck : Bool) (stream : List UsbTransaction) : Prop :=
  ∀ key, reports key ((start firstAck).run stream).outs =
      (UsbRequest.formed none (own key stream)).map UsbRequest.report ∧
    reports key ((start firstAck).run stream).outs =
      reports key ((start firstAck).run (own key stream)).outs

section Reported

variable {firstAck : Bool} {stream : List UsbTransaction}

def usbEndpoints (stream : List UsbTransaction) : Finset (Nat × Nat) :=
  (stream.map UsbTransaction.key).toFinset

theorem told_start (firstAck : Bool) (few : (usbEndpoints stream).card ≤ usbReqMaxPending)
    {part : List UsbTransaction} (inside : ∀ t ∈ part, t ∈ stream) (key : Nat × Nat) :
    Forall₂ Told (reports key ((start firstAck).run part).outs)
      (UsbRequest.formed none (own key part)) := by
  have known : ∀ t ∈ part, t.key ∈ usbEndpoints stream := fun t member =>
    mem_toFinset.mpr (mem_map_of_mem (inside t member))
  obtain ⟨told, written, formed⟩ := reports_run few (serves_start _ firstAck) known key
  rw [written]
  exact formed

theorem sound_own (key : Nat × Nat) (stream : List UsbTransaction) :
    ∀ p ∈ UsbRequest.formed none (own key stream), p.Sound :=
  UsbRequest.sound_formed (fun p member => absurd member (by rintro ⟨⟩)) _

theorem short_of_reported (few : (usbEndpoints stream).card ≤ usbReqMaxPending)
    (reported : UsbReported firstAck stream) (key : Nat × Nat) :
    ∀ p ∈ UsbRequest.formed none (own key stream), p.Short := by
  intro p member
  have told := told_start firstAck few (fun _ member => member) key
  have fits := (eq_reports_iff told).mp (reported key).1 p member
  exact (sound_own key stream p member).fits_iff.mp fits

theorem usbReported_iff (firstAck : Bool) (stream : List UsbTransaction)
    (few : (usbEndpoints stream).card ≤ usbReqMaxPending) :
    UsbReported firstAck stream ↔
      ∀ key, ∀ p ∈ UsbRequest.formed none (own key stream), p.Short := by
  constructor
  · exact short_of_reported few
  · intro short key
    have fits : ∀ p ∈ UsbRequest.formed none (own key stream), p.Fits := fun p member =>
      (sound_own key stream p member).fits_iff.mpr (short key p member)
    have whole := (eq_reports_iff (told_start firstAck few (fun _ member => member) key)).mpr fits
    have alone := told_start firstAck few
      (fun t (member : t ∈ own key stream) => mem_of_mem_filter member) key
    have same : own key (own key stream) = own key stream := by
      rw [own, own, filter_filter]
      simp only [Bool.and_self]
    rw [same] at alone
    exact ⟨whole, whole.trans ((eq_reports_iff alone).mpr fits).symm⟩

end Reported

/-- A descriptor is asked for, and a bulk endpoint refuses in between. -/
def descriptorSession : List UsbTransaction :=
  [{ token := .setup, addr := 5, ep := 0, toggle := false,
     data := some [0x80, 0x06, 0x00, 0x01, 0x00, 0x00, 0x02, 0x00], answer := .ack,
     tokenSpan := ⟨0, 35⟩, dataSpan := ⟨40, 140⟩, answerSpan := ⟨150, 170⟩,
     setup_taken := by decide, in_taken := by decide },
   { token := .in, addr := 5, ep := 1, toggle := false, data := none, answer := .nak,
     tokenSpan := ⟨200, 235⟩, dataSpan := ⟨235, 235⟩, answerSpan := ⟨240, 260⟩,
     setup_taken := by decide, in_taken := by decide },
   { token := .in, addr := 5, ep := 0, toggle := true, data := some [0x12, 0x01], answer := .ack,
     tokenSpan := ⟨300, 335⟩, dataSpan := ⟨340, 390⟩, answerSpan := ⟨400, 420⟩,
     setup_taken := by decide, in_taken := by decide },
   { token := .out, addr := 5, ep := 0, toggle := true, data := some [], answer := .ack,
     tokenSpan := ⟨500, 535⟩, dataSpan := ⟨540, 570⟩, answerSpan := ⟨580, 600⟩,
     setup_taken := by decide, in_taken := by decide }]

theorem usbReported_iff_descriptor : UsbReported false descriptorSession := by
  refine (usbReported_iff false descriptorSession (by decide)).mpr ?_
  intro key
  by_cases control : key = (5, 0)
  · rw [control]
    decide
  · by_cases bulk : key = (5, 0x81)
    · rw [bulk]
      decide
    · have nothing : own key descriptorSession = [] := by
        have keys : ∀ t ∈ descriptorSession, t.key = (5, 0) ∨ t.key = (5, 0x81) := by decide
        refine filter_eq_nil_iff.mpr fun t member => ?_
        rw [decide_eq_true_eq]
        rintro rfl
        exact (keys t member).elim control bulk
      rw [nothing]
      exact fun p member => absurd member not_mem_nil

def longWrite : UsbTransaction where
  token := .out
  addr := 5
  ep := 1
  toggle := false
  data := some (List.replicate 168 0x55)
  answer := .ack
  tokenSpan := ⟨0, 35⟩
  dataSpan := ⟨40, 1450⟩
  answerSpan := ⟨1460, 1480⟩
  setup_taken := by decide
  in_taken := by decide

/-- The last byte is missing in what is shown of it. -/
theorem longWrite_cut : ¬UsbReported false [longWrite] := by
  intro reported
  have short := short_of_reported (by decide) reported (5, 1)
    ⟨.bulkOut, [], replicate 168 0x55, .ack⟩ (by decide +kernel)
  exact absurd short (by decide +kernel)

end SigrokDecode
