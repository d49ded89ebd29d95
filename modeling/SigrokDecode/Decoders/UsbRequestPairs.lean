import SigrokDecode.Decoders.UsbTransactions

/-!
# The requests of every endpoint

The array of pending requests is a table over the endpoints, a transfer touches the entry of its
own endpoint only, and it reports what the transactions of that endpoint form.
-/

set_option linter.dupNamespace false

namespace SigrokDecode

open Foundation List UsbRequest UsbReqRequest

namespace UsbReqRequest

section Entries

variable {r : UsbReqRequest} {p : UsbRequest} {t : UsbTransaction}

theorem append_type (r : UsbReqRequest) (bytes : List Nat) : (r.append bytes).type = r.type := by
  unfold append
  split <;> rfl

theorem append_key (r : UsbReqRequest) (bytes : List Nat) : (r.append bytes).key = r.key := by
  unfold append
  split <;> rfl

theorem append_setupData (r : UsbReqRequest) (bytes : List Nat) :
    (r.append bytes).setupData = r.setupData := by
  unfold append
  split <;> rfl

theorem append_handshake (r : UsbReqRequest) (bytes : List Nat) :
    (r.append bytes).handshake = r.handshake := by
  unfold append
  split <;> rfl

theorem append_data {data bytes : List Nat} (same : data.length ≤ usbReqMaxData → r.data = data)
    (few : (data ++ bytes).length ≤ usbReqMaxData) :
    (r.append (bytes.take usbReqMaxData)).data = data ++ bytes := by
  rw [length_append] at few
  have stored : r.data = data := same (by omega)
  have whole : bytes.take usbReqMaxData = bytes := take_of_length_le (by omega)
  rw [append, whole, stored, if_pos few]

/-- An entry of a pending request. What a final answer was matters for control requests only. -/
structure Represents (r : UsbReqRequest) (p : UsbRequest) : Prop where
  type : r.type = p.kind.type
  setup : p.kind.isControl = true → r.setupData = p.setup
  data : p.data.length ≤ usbReqMaxData → r.data = p.data
  handshake : p.kind.isControl = true → r.handshake = p.handshake

theorem Represents.shows (represents : r.Represents p) (same : r.handshake = p.handshake) :
    r.Shows p :=
  { represents with handshake := same }

/-- The entry that stands for what is pending; a new one stands for nothing. -/
def Pending : Option UsbReqRequest → Option UsbRequest → Prop
  | none, none => True
  | some r, none => r.type = .none ∧ r.data = []
  | some r, some p => r.Represents p
  | none, some _ => False

end Entries

end UsbReqRequest

namespace UsbReqState

def reports (key : Nat × Nat) (outs : List UsbReqOut) : List (UsbReqClass × List Char) :=
  outs.filterMap fun out =>
    match out with
    | .request entry _ _ ann text => if entry = key then some (ann, text) else none
    | _ => none

/-- The entries have different keys, out of the known ones. -/
structure Table (keys : Finset (Nat × Nat)) (s : UsbReqState) : Prop where
  distinct : (s.requests.map UsbReqRequest.key).Nodup
  known : ∀ r ∈ s.requests, r.key ∈ keys

/-- The registers that hold the transaction. -/
structure SameTransaction (s t : UsbReqState) : Prop where
  state : t.transactionState = s.transactionState
  token : t.transactionType = s.transactionType
  addr : t.transactionAddr = s.transactionAddr
  ep : t.transactionEp = s.transactionEp
  data : t.transactionData = s.transactionData
  handshake : t.handshake = s.handshake

/-- From `s` to `t` nothing has happened but at the entry of `key`, and `told` has been said about
that. -/
structure Moves (keys : Finset (Nat × Nat)) (key : Nat × Nat)
    (told : List (UsbReqClass × List Char)) (s t : UsbReqState) : Prop where
  table : Table keys t
  transaction : SameTransaction s t
  own : reports key t.outs = reports key s.outs ++ told
  others : ∀ other ≠ key, reports other t.outs = reports other s.outs ∧
    lookup UsbReqRequest.key t.requests other = lookup UsbReqRequest.key s.requests other

section Moves

variable {keys : Finset (Nat × Nat)} {key : Nat × Nat} {s t u : UsbReqState}
  {told later : List (UsbReqClass × List Char)} {i : Nat} {r changed : UsbReqRequest}

theorem SameTransaction.refl (s : UsbReqState) : SameTransaction s s :=
  ⟨rfl, rfl, rfl, rfl, rfl, rfl⟩

theorem SameTransaction.trans (first : SameTransaction s t) (second : SameTransaction t u) :
    SameTransaction s u where
  state := second.state.trans first.state
  token := second.token.trans first.token
  addr := second.addr.trans first.addr
  ep := second.ep.trans first.ep
  data := second.data.trans first.data
  handshake := second.handshake.trans first.handshake

theorem Moves.refl (table : Table keys s) : Moves keys key [] s s where
  table := table
  transaction := .refl s
  own := (List.append_nil _).symm
  others _ _ := ⟨rfl, rfl⟩

theorem Moves.trans (first : Moves keys key told s t) (second : Moves keys key later t u) :
    Moves keys key (told ++ later) s u where
  table := second.table
  transaction := first.transaction.trans second.transaction
  own := by rw [second.own, first.own, List.append_assoc]
  others other differs := by
    have before := first.others other differs
    have behind := second.others other differs
    exact ⟨behind.1.trans before.1, behind.2.trans before.2⟩

theorem requestAt_eq (place : EntryAt UsbReqRequest.key s.requests key i r) :
    s.requestAt i = r := by
  rw [requestAt, getD_eq_getElem?_getD, place.getElem?, Option.getD_some]

theorem moves_store (table : Table keys s)
    (place : EntryAt UsbReqRequest.key s.requests key i r) (same : changed.key = key) :
    Moves keys key [] s (s.store i changed) ∧
      EntryAt UsbReqRequest.key (s.store i changed).requests key i changed := by
  refine ⟨?_, place.set same⟩
  refine ⟨⟨?_, ?_⟩, ⟨rfl, rfl, rfl, rfl, rfl, rfl⟩, (List.append_nil _).symm, ?_⟩
  · rw [store, place.map_set same]
    exact table.distinct
  · intro entry member
    have inside : entry.key ∈ (s.store i changed).requests.map UsbReqRequest.key :=
      mem_map_of_mem member
    rw [store, place.map_set same] at inside
    obtain ⟨old, stored, equal⟩ := mem_map.mp inside
    rw [← equal]
    exact table.known old stored
  · intro other differs
    exact ⟨rfl, place.lookup_set_of_ne same differs⟩

theorem findOrCreate_moves (table : Table keys s) (few : keys.card ≤ usbReqMaxPending)
    (member : key ∈ keys) :
    ∃ t i r, s.findOrCreate key.1 key.2 = (t, some i) ∧ Moves keys key [] s t ∧
      EntryAt UsbReqRequest.key t.requests key i r ∧
      (lookup UsbReqRequest.key s.requests key = some r ∨
        lookup UsbReqRequest.key s.requests key = none ∧ r = s.newRequest key.1 key.2) := by
  cases found : s.requests.findIdx? fun r => r.key = (key.1, key.2) with
  | some i =>
      obtain ⟨r, place⟩ := entryAt_of_findIdx? table.distinct found
      refine ⟨s, i, r, ?_, .refl table, place, .inl place.lookup⟩
      rw [findOrCreate, found]
  | none =>
      have missing : ∀ r ∈ s.requests, r.key ≠ key := by
        intro r stored
        have passed := findIdx?_eq_none_iff.mp found r stored
        rw [decide_eq_false_iff_not] at passed
        exact passed
      have room : ¬usbReqMaxPending ≤ s.requests.length := by
        have shorter := length_lt_of_keys table.distinct table.known member missing
        omega
      refine ⟨{ s with
          requests := s.requests ++ [s.newRequest key.1 key.2]
          requestId := s.requestId + 1 }, s.requests.length, s.newRequest key.1 key.2, ?_, ?_,
        entryAt_append missing rfl, .inr ⟨lookup_eq_none.mpr missing, rfl⟩⟩
      · rw [findOrCreate, found]
        exact if_neg room
      · refine ⟨⟨?_, ?_⟩, ⟨rfl, rfl, rfl, rfl, rfl, rfl⟩, (List.append_nil _).symm, ?_⟩
        · dsimp only
          rw [map_append, nodup_append]
          refine ⟨table.distinct, nodup_singleton _, ?_⟩
          intro old inside new last same
          obtain ⟨r, stored, rfl⟩ := mem_map.mp inside
          rw [map_singleton, mem_singleton] at last
          exact missing r stored (same.trans last)
        · intro r stored
          rcases mem_append.mp stored with old | new
          · exact table.known r old
          · rw [mem_singleton.mp new]
            exact member
        · intro other differs
          refine ⟨rfl, ?_⟩
          have fresh : (s.newRequest key.1 key.2).key ≠ other := fun same => differs same.symm
          dsimp only
          rw [lookup_insert_of_ne _ _ fresh, List.append_nil]

theorem reports_put (key : Nat × Nat) (out : UsbReqOut) :
    reports key (s.put out).outs = reports key s.outs ++ reports key [out] := by
  rw [put, reports, filterMap_append]
  rfl

theorem moves_writePcapHeader (key : Nat × Nat) (table : Table keys s) :
    Moves keys key [] s s.writePcapHeader ∧ s.writePcapHeader.requests = s.requests := by
  unfold writePcapHeader
  split
  · exact ⟨.refl table, rfl⟩
  · refine ⟨⟨⟨table.distinct, table.known⟩, ⟨rfl, rfl, rfl, rfl, rfl, rfl⟩, ?_, ?_⟩, rfl⟩
    · exact reports_put key .pcapHeader
    · intro other _
      refine ⟨?_, rfl⟩
      rw [reports_put other .pcapHeader]
      exact List.append_nil _

/-- What `usb_req_handle_request` writes at the end of a request. -/
def toldOf (kind : UsbRequestKind) (r : UsbReqRequest) : UsbReqClass × List Char :=
  (kind.ann, kind.title ++ usbReqSummary r)

theorem putRequest_eq {kind : UsbRequestKind} (type : r.type = kind.type) : ∃ ss, s.putRequest r =
      s.put (.request r.key ss r.es kind.ann (kind.title ++ usbReqSummary r)) := by
  unfold putRequest
  rw [type]
  cases kind with
  | bulkIn => exact ⟨_, rfl⟩
  | bulkOut => exact ⟨_, rfl⟩
  | setupIn => exact ⟨_, rfl⟩
  | setupOut => exact ⟨_, rfl⟩

theorem moves_handleRequest {kind : UsbRequestKind} (table : Table keys s)
    (place : EntryAt UsbReqRequest.key s.requests key i r) (type : r.type = kind.type)
    (requestStart requestEnd : Bool) :
    Moves keys key (if requestEnd then [toldOf kind r] else []) s
        (s.handleRequest i requestStart requestEnd) ∧
      lookup UsbReqRequest.key (s.handleRequest i requestStart requestEnd).requests key =
        if requestEnd then none else some r := by
  obtain ⟨headed, same⟩ := moves_writePcapHeader key table
  have placed : EntryAt UsbReqRequest.key s.writePcapHeader.requests key i r := by
    rw [same]
    exact place
  cases requestEnd with
  | false =>
      rw [if_neg Bool.false_ne_true, if_neg Bool.false_ne_true]
      cases requestStart with
      | false => exact ⟨.refl table, place.lookup⟩
      | true => exact ⟨headed, placed.lookup⟩
  | true =>
      have run : s.handleRequest i requestStart true =
          (s.writePcapHeader.putRequest r).remove r.addr r.ep := by
        cases requestStart with
        | false =>
            rw [handleRequest, if_neg (by decide), if_pos rfl, requestAt_eq placed]
        | true =>
            rw [handleRequest, if_neg (by decide), if_pos rfl, requestAt_eq placed]
      obtain rfl : r.key = key := place.key_eq
      obtain ⟨ss, written⟩ := putRequest_eq (s := s.writePcapHeader) type
      obtain ⟨gone, kept⟩ := placed.eraseP
      rw [run, written, if_pos rfl, if_pos rfl]
      refine ⟨headed.trans ⟨⟨?_, ?_⟩, ⟨rfl, rfl, rfl, rfl, rfl, rfl⟩, ?_, ?_⟩, gone⟩
      · exact headed.table.distinct.sublist (eraseP_sublist.map _)
      · intro entry member
        exact headed.table.known entry (mem_of_mem_eraseP member)
      · rw [remove, reports_put]
        simp only [reports, filterMap_cons, filterMap_nil, if_pos, toldOf]
      · intro other differs
        refine ⟨?_, kept other differs⟩
        rw [remove, reports_put]
        simp only [reports, filterMap_cons, filterMap_nil, if_neg differs.symm, List.append_nil]

/-! ## One transfer -/

/-- The annotation `out` is about `p`. -/
def Told (out : UsbReqClass × List Char) (p : UsbRequest) : Prop :=
  ∃ r : UsbReqRequest, r.Shows p ∧ out = toldOf p.kind r

/-- From `s` to `t` the requests of `result` have been reported, and the rest of it is pending. -/
def Answers (keys : Finset (Nat × Nat)) (key : Nat × Nat) (s t : UsbReqState)
    (result : List UsbRequest × Option UsbRequest) : Prop :=
  ∃ told, Moves keys key told s t ∧ List.Forall₂ Told told result.1 ∧
    UsbReqRequest.Pending (lookup UsbReqRequest.key t.requests key) result.2

variable {p : UsbRequest} {transaction : UsbTransaction}

theorem Moves.answers {result : List UsbRequest × Option UsbRequest}
    (first : Moves keys key [] s t) (second : Answers keys key t u result) :
    Answers keys key s u result := by
  obtain ⟨told, moved, listed, pending⟩ := second
  exact ⟨told, first.trans moved, listed, pending⟩

theorem answers_kept (table : Table keys s)
    (place : EntryAt UsbReqRequest.key s.requests key i r) (represents : r.Represents p) :
    Answers keys key s s ([], some p) := by
  refine ⟨[], .refl table, .nil, ?_⟩
  rw [place.lookup]
  exact represents

theorem answers_handleRequest (table : Table keys s)
    (place : EntryAt UsbReqRequest.key s.requests key i r) (represents : r.Represents p)
    (requestStart requestEnd : Bool) (same : requestEnd = true → r.handshake = p.handshake) :
    Answers keys key s (s.handleRequest i requestStart requestEnd)
      (if requestEnd then ([p], none) else ([], some p)) := by
  obtain ⟨moved, found⟩ := moves_handleRequest table place represents.type requestStart requestEnd
  refine ⟨_, moved, ?_, ?_⟩
  · cases requestEnd with
    | false => exact .nil
    | true => exact .cons ⟨r, represents.shows (same rfl), rfl⟩ .nil
  · rw [found]
    cases requestEnd with
    | false => exact represents
    | true => exact True.intro

/-- The registers hold this transaction. -/
structure Carries (s : UsbReqState) (transaction : UsbTransaction) : Prop where
  token : s.transactionType = transaction.token
  key : (s.transactionAddr, s.transactionEp) = transaction.key
  data : s.transactionData = transaction.bytes.take usbReqMaxData
  handshake : s.handshake = transaction.answer.handshake

theorem Carries.ends (carries : Carries s transaction) : s.handshake.ends = transaction.final := by
  rw [carries.handshake, UsbTransaction.final]
  cases transaction.answer <;> rfl

theorem Carries.same (carries : Carries s transaction) (kept : SameTransaction s t) :
    Carries t transaction where
  token := kept.token.trans carries.token
  key := by rw [kept.addr, kept.ep, carries.key]
  data := kept.data.trans carries.data
  handshake := kept.handshake.trans carries.handshake

theorem bytes_eq_acked (input : transaction.token = .in) :
    transaction.bytes = transaction.acked := by
  rw [UsbTransaction.acked]
  by_cases taken : transaction.answer = .ack
  · rw [if_pos taken]
  · rw [if_neg taken, UsbTransaction.bytes, transaction.in_taken input taken]
    rfl

/-- The entry of `p`, with the final answer of the transaction in it. -/
structure Stamped (r : UsbReqRequest) (p : UsbRequest) (transaction : UsbTransaction) : Prop where
  type : r.type = p.kind.type ∨ r.type = .none ∧ p.kind.isControl = false
  setup : p.kind.isControl = true → r.setupData = p.setup
  data : p.data.length ≤ usbReqMaxData → r.data = p.data
  handshake : p.kind.isControl = true ∨ transaction.final = true →
    r.handshake = (p.advance transaction).handshake

namespace Stamped

theorem type_eq (stamped : Stamped r p transaction) (control : p.kind.isControl = true) :
    r.type = p.kind.type := by
  rcases stamped.type with type | ⟨-, bulk⟩
  · exact type
  · rw [control] at bulk
    exact absurd bulk (by decide)

theorem represents (stamped : Stamped r p transaction) (type : r.type = p.kind.type)
    (apart : p.kind.stage transaction.token ≠ .data) : r.Represents (p.advance transaction) where
  type := type
  setup := stamped.setup
  data few := by
    rw [advance, if_neg apart] at few ⊢
    exact stamped.data few
  handshake control := stamped.handshake (.inl control)

theorem represents_data (stamped : Stamped r p transaction)
    (stage : p.kind.stage transaction.token = .data) (type : changed.type = p.kind.type)
    (setup : changed.setupData = r.setupData) (handshake : changed.handshake = r.handshake)
    (joined : (p.data ++ transaction.acked).length ≤ usbReqMaxData →
      changed.data = p.data ++ transaction.acked) :
    changed.Represents (p.advance transaction) where
  type := type
  setup control := setup.trans (stamped.setup control)
  data few := by
    rw [advance, if_pos stage] at few ⊢
    exact joined few
  handshake control := handshake.trans (stamped.handshake (.inl control))

end Stamped

def withInput (s : UsbReqState) (r : UsbReqRequest) : UsbReqRequest :=
  r.append s.transactionData

/-- The data that goes out, when it has been acknowledged. -/
def withOutput (s : UsbReqState) (r : UsbReqRequest) : UsbReqRequest :=
  if s.handshake = .ack then r.append s.transactionData else r

theorem withInput_data (carries : Carries s transaction) (input : transaction.token = .in)
    (same : p.data.length ≤ usbReqMaxData → r.data = p.data)
    (few : (p.data ++ transaction.acked).length ≤ usbReqMaxData) :
    (s.withInput r).data = p.data ++ transaction.acked := by
  rw [← bytes_eq_acked input] at few ⊢
  rw [withInput, carries.data]
  exact append_data same few

theorem withOutput_data (carries : Carries s transaction)
    (same : p.data.length ≤ usbReqMaxData → r.data = p.data)
    (few : (p.data ++ transaction.acked).length ≤ usbReqMaxData) :
    (s.withOutput r).data = p.data ++ transaction.acked := by
  rw [withOutput, carries.handshake, carries.data]
  unfold UsbTransaction.acked at few ⊢
  cases answer : transaction.answer with
  | ack =>
      rw [answer, if_pos rfl] at few
      rw [UsbAnswer.handshake, if_pos rfl, if_pos rfl]
      exact append_data same few
  | nak =>
      rw [answer, if_neg (by decide), List.append_nil] at few
      rw [UsbAnswer.handshake, if_neg (by decide), if_neg (by decide), List.append_nil]
      exact same few
  | stall =>
      rw [answer, if_neg (by decide), List.append_nil] at few
      rw [UsbAnswer.handshake, if_neg (by decide), if_neg (by decide), List.append_nil]
      exact same few
  | nyet =>
      rw [answer, if_neg (by decide), List.append_nil] at few
      rw [UsbAnswer.handshake, if_neg (by decide), if_neg (by decide), List.append_nil]
      exact same few

theorem withOutput_cases (s : UsbReqState) (r : UsbReqRequest) :
    (s.withOutput r).type = r.type ∧ (s.withOutput r).key = r.key ∧
      (s.withOutput r).setupData = r.setupData ∧ (s.withOutput r).handshake = r.handshake := by
  unfold withOutput
  split
  · exact ⟨r.append_type _, r.append_key _, r.append_setupData _, r.append_handshake _⟩
  · exact ⟨rfl, rfl, rfl, rfl⟩

section Stages

variable (table : Table keys s) (place : EntryAt UsbReqRequest.key s.requests key i r)
  (stamped : Stamped r p transaction) (started : Bool)

include table place stamped

theorem answers_bulk (bulk : p.kind.isControl = false)
    (stage : p.kind.stage transaction.token = .data) (same : changed.key = key)
    (represents : changed.Represents (p.advance transaction))
    (handshake : changed.handshake = r.handshake) :
    Answers keys key s ((s.store i changed).handleRequest i started transaction.final)
      (p.take transaction) := by
  obtain ⟨moved, stored⟩ := moves_store table place same
  have answered := answers_handleRequest moved.table stored represents started transaction.final
    (fun final => handshake.trans (stamped.handshake (.inr final)))
  have result : p.take transaction = if transaction.final then
      ([p.advance transaction], none) else ([], some (p.advance transaction)) := by
    simp only [UsbRequest.take, stage, bulk, and_true]
  rw [result]
  exact moved.answers answered

variable (carries : Carries s transaction)

include carries

theorem answers_bulkIn (kind : p.kind = .bulkIn) (token : transaction.token = .in) :
    Answers keys key s (s.transferStage i started transaction.final) (p.take transaction) := by
  have input : s.transactionType = .in := carries.token.trans token
  have stage : p.kind.stage transaction.token = .data := by
    rw [kind, token]
    rfl
  have bulk : p.kind.isControl = false := by
    rw [kind]
    rfl
  obtain ⟨ssData, run⟩ : ∃ ssData, s.transferStage i started transaction.final =
      (s.store i (s.withInput { r with type := .bulkIn, ssData })).handleRequest i started
        transaction.final := by
    refine ⟨if r.data = [] ∧ s.transactionData ≠ [] then s.ssTransaction else r.ssData, ?_⟩
    rcases stamped.type with type | ⟨type, -⟩
    · rw [kind] at type
      simp only [transferStage, requestAt_eq place, type, input, UsbRequestKind.type, withInput]
    · simp only [transferStage, requestAt_eq place, type, input, withInput]
  rw [run]
  refine answers_bulk table place stamped started bulk stage ?_ ?_ ?_
  · rw [withInput, append_key]
    exact place.key_eq
  · refine stamped.represents_data stage ?_ ?_ ?_ (withInput_data carries token ?_)
    · rw [withInput, append_type, kind]
      rfl
    · rw [withInput, append_setupData]
    · rw [withInput, append_handshake]
    · exact stamped.data
  · rw [withInput, append_handshake]

theorem answers_bulkOut (kind : p.kind = .bulkOut) (token : transaction.token = .out) :
    Answers keys key s (s.transferStage i started transaction.final) (p.take transaction) := by
  have output : s.transactionType = .out := carries.token.trans token
  have stage : p.kind.stage transaction.token = .data := by
    rw [kind, token]
    rfl
  have bulk : p.kind.isControl = false := by
    rw [kind]
    rfl
  have run : s.transferStage i started transaction.final =
      (s.store i (s.withOutput { r with type := .bulkOut })).handleRequest i started
        transaction.final := by
    rcases stamped.type with type | ⟨type, -⟩
    · rw [kind] at type
      simp only [transferStage, requestAt_eq place, type, output, UsbRequestKind.type, withOutput]
    · simp only [transferStage, requestAt_eq place, type, output, withOutput]
  obtain ⟨type, same, setup, handshake⟩ := s.withOutput_cases { r with type := .bulkOut }
  rw [run]
  refine answers_bulk table place stamped started bulk stage (same.trans place.key_eq) ?_ handshake
  refine stamped.represents_data stage ?_ setup handshake (withOutput_data carries stamped.data)
  rw [type, kind]
  rfl

theorem answers_setupIn (kind : p.kind = .setupIn) (token : transaction.token = .in) :
    Answers keys key s (s.transferStage i started transaction.final) (p.take transaction) := by
  have input : s.transactionType = .in := carries.token.trans token
  have stage : p.kind.stage transaction.token = .data := by
    rw [kind, token]
    rfl
  have control : p.kind.isControl = true := by
    rw [kind]
    rfl
  have type : r.type = .setupIn := by
    rw [stamped.type_eq control, kind]
    rfl
  have run : s.transferStage i started transaction.final = s.store i (s.withInput r) := by
    simp only [transferStage, requestAt_eq place, type, input, withInput]
  have result : p.take transaction = ([], some (p.advance transaction)) := by
    simp only [UsbRequest.take, stage, control, reduceCtorEq, and_false, if_false]
  have same : (s.withInput r).key = key := (append_key r _).trans place.key_eq
  obtain ⟨moved, stored⟩ := moves_store table place same
  rw [run, result]
  refine moved.answers (answers_kept moved.table stored ?_)
  refine stamped.represents_data stage ?_ (append_setupData r _)
    (append_handshake r _) (withInput_data carries token stamped.data)
  rw [withInput, append_type, type, kind]
  rfl

theorem answers_setupOut (kind : p.kind = .setupOut) (token : transaction.token = .out) :
    Answers keys key s (s.transferStage i started transaction.final) (p.take transaction) := by
  have output : s.transactionType = .out := carries.token.trans token
  have stage : p.kind.stage transaction.token = .data := by
    rw [kind, token]
    rfl
  have control : p.kind.isControl = true := by
    rw [kind]
    rfl
  have type : r.type = .setupOut := by
    rw [stamped.type_eq control, kind]
    rfl
  obtain ⟨kept, same, setup, handshake⟩ := s.withOutput_cases r
  have run : s.transferStage i started transaction.final =
      if (s.withOutput r).wLength = (s.withOutput r).data.length then
        (s.store i (s.withOutput r)).handleRequest i true false
      else
        s.store i (s.withOutput r) := by
    simp only [transferStage, requestAt_eq place, type, output, withOutput]
    rfl
  have result : p.take transaction = ([], some (p.advance transaction)) := by
    simp only [UsbRequest.take, stage, control, reduceCtorEq, and_false, if_false]
  obtain ⟨moved, stored⟩ := moves_store table place (same.trans place.key_eq)
  have represents : (s.withOutput r).Represents (p.advance transaction) := by
    refine stamped.represents_data stage ?_ setup handshake (withOutput_data carries stamped.data)
    rw [kept, type, kind]
    rfl
  rw [run, result]
  split
  · have answered := answers_handleRequest moved.table stored represents true false
      (fun final => absurd final (by decide))
    exact moved.answers answered
  · exact moved.answers (answers_kept moved.table stored represents)

theorem answers_status (status : p.kind.stage transaction.token = .status) :
    Answers keys key s (s.transferStage i started transaction.final) (p.take transaction) := by
  have apart : p.kind.stage transaction.token ≠ .data := by
    rw [status]
    decide
  have result : p.take transaction = if transaction.final then
      ([p.advance transaction], none) else ([], some (p.advance transaction)) := by
    simp only [UsbRequest.take, status]
  have control : p.kind.isControl = true := by
    revert status
    cases p.kind <;> cases transaction.token <;> decide
  have type : r.type = p.kind.type := stamped.type_eq control
  have run : s.transferStage i started transaction.final =
      s.handleRequest i false transaction.final := by
    have token := carries.token
    cases kind : p.kind with
    | bulkIn =>
        rw [kind] at control
        exact absurd control (by decide)
    | bulkOut =>
        rw [kind] at control
        exact absurd control (by decide)
    | setupIn =>
        rw [kind] at type status
        cases direction : transaction.token with
        | out =>
            rw [direction] at token
            simp only [transferStage, requestAt_eq place, type, token, UsbRequestKind.type]
        | _ =>
            rw [direction] at status
            exact absurd status (by decide)
    | setupOut =>
        rw [kind] at type status
        cases direction : transaction.token with
        | «in» =>
            rw [direction] at token
            simp only [transferStage, requestAt_eq place, type, token, UsbRequestKind.type]
        | _ =>
            rw [direction] at status
            exact absurd status (by decide)
  rw [run, result]
  exact answers_handleRequest table place (stamped.represents type apart) false _
    (fun final => stamped.handshake (.inr final))

theorem answers_foreign (bulk : p.kind.isControl = false) (type : r.type = p.kind.type)
    (foreign : p.kind.stage transaction.token = .foreign) :
    Answers keys key s (s.transferStage i started transaction.final) (p.take transaction) := by
  have result : p.take transaction = ([], some p) := by simp only [UsbRequest.take, foreign]
  have run : s.transferStage i started transaction.final = s := by
    have token := carries.token
    cases kind : p.kind <;> cases direction : transaction.token <;>
      simp only [kind, direction, UsbRequestKind.stage, UsbRequestKind.isControl, reduceCtorEq]
        at foreign bulk <;>
      rw [kind] at type <;> rw [direction] at token <;>
      simp only [transferStage, requestAt_eq place, type, token, UsbRequestKind.type]
  rw [run, result]
  refine answers_kept table place ⟨type, stamped.setup, stamped.data, ?_⟩
  intro control
  rw [bulk] at control
  exact absurd control (by decide)

theorem answers_take (opened : r.type = p.kind.type ∨ p.kind.stage transaction.token = .data)
    (closed : p.kind.isControl = true → transaction.token ≠ .setup) :
    Answers keys key s (s.transferStage i started transaction.final) (p.take transaction) := by
  cases stage : p.kind.stage transaction.token with
  | data =>
      cases kind : p.kind <;> cases token : transaction.token <;>
        simp only [kind, token, UsbRequestKind.stage, reduceCtorEq] at stage
      · exact answers_bulkIn table place stamped started carries kind token
      · exact answers_bulkOut table place stamped started carries kind token
      · exact answers_setupIn table place stamped started carries kind token
      · exact answers_setupOut table place stamped started carries kind token
  | status =>
      exact answers_status table place stamped started carries stage
  | foreign =>
      rw [stage] at opened
      have type := opened.resolve_right (by decide)
      have bulk : p.kind.isControl = false := by
        rw [Bool.eq_false_iff]
        intro control
        have token := closed control
        revert stage control
        cases p.kind <;> cases direction : transaction.token <;>
          first | exact absurd direction token | decide
      exact answers_foreign table place stamped started carries bulk type stage

end Stages

theorem answers_setupStage (table : Table keys s)
    (place : EntryAt UsbReqRequest.key s.requests key i r) (carries : Carries s transaction)
    (token : transaction.token = .setup) (type : r.type = .none) (empty : r.data = [])
    (handshake : r.handshake = .ack) (started ended : Bool) :
    Answers keys key s (s.transferStage i started ended)
      ([], some ((UsbRequest.fresh transaction).advance transaction)) := by
  obtain ⟨taken, eight⟩ := transaction.setup_taken token
  have setup : s.transactionType = .setup := carries.token.trans token
  have long : transaction.bytes.length = 8 := by rw [UsbTransaction.bytes, length_map, eight]
  have whole : s.transactionData.take 8 = transaction.bytes := by
    rw [carries.data, take_take, take_of_length_le]
    rw [long]
    decide
  have run : s.transferStage i started ended = s.setupStage i := by
    simp only [transferStage, requestAt_eq place, type, setup]
  have final : transaction.final = true := by
    rw [UsbTransaction.final, taken]
    rfl
  have apart : (UsbRequest.fresh transaction).kind.stage transaction.token ≠ .data := by
    rw [token]
    cases (UsbRequest.fresh transaction).kind <;> decide
  have unmoved : ((UsbRequest.fresh transaction).advance transaction).data = [] := if_neg apart
  have answered : ((UsbRequest.fresh transaction).advance transaction).handshake = .ack := by
    rw [advance, if_pos final, taken]
    rfl
  have bytes : ((UsbRequest.fresh transaction).advance transaction).setup = transaction.bytes :=
    if_pos token
  obtain ⟨changed, start, stored, same, represents⟩ : ∃ changed start,
      s.setupStage i = (s.store i changed).handleRequest i start false ∧ changed.key = r.key ∧
        changed.Represents ((UsbRequest.fresh transaction).advance transaction) := by
    rw [setupStage, requestAt_eq place, whole]
    by_cases top : transaction.bytes.getD 0 0 &&& 0x80 ≠ 0
    · have kind : ((UsbRequest.fresh transaction).advance transaction).kind = .setupIn := by
        simp only [advance, UsbRequest.fresh, token, if_pos top]
      refine ⟨_, _, if_pos top, rfl, ?_, fun _ => bytes.symm, fun _ => ?_, fun _ => ?_⟩
      · rw [kind]
        rfl
      · rw [unmoved]
        exact empty
      · rw [answered]
        exact handshake
    · have kind : ((UsbRequest.fresh transaction).advance transaction).kind = .setupOut := by
        simp only [advance, UsbRequest.fresh, token, if_neg top]
      refine ⟨_, _, if_neg top, rfl, ?_, fun _ => bytes.symm, fun _ => ?_, fun _ => ?_⟩
      · rw [kind]
        rfl
      · rw [unmoved]
        exact empty
      · rw [answered]
        exact handshake
  obtain ⟨moved, placed⟩ := moves_store table place (same.trans place.key_eq)
  rw [run, stored]
  exact moved.answers (answers_handleRequest moved.table placed represents start false
    (fun final => absurd final (by decide)))

variable {pending : Option UsbRequest}

theorem Answers.trans {closed : List UsbRequest}
    {result : List UsbRequest × Option UsbRequest}
    (first : Answers keys key s t (closed, pending)) (second : Answers keys key t u result) :
    Answers keys key s u (closed ++ result.1, result.2) := by
  obtain ⟨told, moved, listed, -⟩ := first
  obtain ⟨later, further, added, found⟩ := second
  exact ⟨told ++ later, moved.trans further, rel_append listed added, found⟩

theorem findOrCreate_pending (table : Table keys s) (few : keys.card ≤ usbReqMaxPending)
    (member : key ∈ keys)
    (stored : UsbReqRequest.Pending (lookup UsbReqRequest.key s.requests key) pending) :
    ∃ t i r, s.findOrCreate key.1 key.2 = (t, some i) ∧ Moves keys key [] s t ∧
      EntryAt UsbReqRequest.key t.requests key i r ∧
      UsbReqRequest.Pending (some r) pending := by
  obtain ⟨t, i, r, ran, moved, place, found⟩ := findOrCreate_moves table few member
  refine ⟨t, i, r, ran, moved, place, ?_⟩
  rcases found with old | ⟨missing, rfl⟩
  · rw [← old]
    exact stored
  · rw [missing] at stored
    cases pending with
    | none => exact ⟨rfl, rfl⟩
    | some p => exact False.elim stored

theorem answers_closeSetup (table : Table keys s) (few : keys.card ≤ usbReqMaxPending)
    (carries : Carries s transaction) (member : transaction.key ∈ keys)
    (token : transaction.token = .setup)
    (stored : UsbReqRequest.Pending (lookup UsbReqRequest.key s.requests transaction.key) pending) :
    Answers keys transaction.key s s.closeSetup (closedBy pending transaction) := by
  obtain ⟨t, i, r, ran, moved, place, held⟩ := findOrCreate_pending table few member stored
  rw [← carries.key] at ran
  have run : s.closeSetup = if r.isSetup then
      (t.store i { r with es := t.ssTransaction }).handleRequest i false true else t := by
    rw [closeSetup, ran]
    dsimp only
    rw [requestAt_eq place]
  rw [run]
  cases pending with
  | none =>
      obtain ⟨type, empty⟩ := held
      have apart : r.isSetup = false := by
        rw [isSetup, type]
        rfl
      rw [apart, if_neg Bool.false_ne_true]
      refine ⟨[], moved, .nil, ?_⟩
      rw [place.lookup]
      exact ⟨type, empty⟩
  | some p =>
      have represents : r.Represents p := held
      have kind : r.isSetup = p.kind.isControl := by
        rw [isSetup, represents.type]
        cases p.kind <;> rfl
      rw [kind, closedBy]
      by_cases control : p.kind.isControl = true
      · rw [if_pos control, if_pos ⟨token, control⟩]
        have same : ({ r with es := t.ssTransaction } : UsbReqRequest).key = transaction.key :=
          place.key_eq
        obtain ⟨changed, placed⟩ := moves_store moved.table place same
        have closed := answers_handleRequest (p := p) changed.table placed
          { represents with } false true
          (fun _ => represents.handshake control)
        exact moved.answers (changed.answers closed)
      · rw [if_neg control, if_neg (fun both => control both.2)]
        exact moved.answers (answers_kept moved.table place represents)

/-- The entry behind `stamp`. -/
def stamped (s : UsbReqState) (r : UsbReqRequest) (requestStarted requestEnd : Bool) :
    UsbReqRequest :=
  let r := if requestStarted then { r with ss := s.ssTransaction } else r
  if requestEnd then { r with es := s.esTransaction, handshake := s.handshake } else r

theorem stamped_cases (s : UsbReqState) (r : UsbReqRequest) (requestStarted requestEnd : Bool) :
    (s.stamped r requestStarted requestEnd).type = r.type ∧
      (s.stamped r requestStarted requestEnd).key = r.key ∧
      (s.stamped r requestStarted requestEnd).setupData = r.setupData ∧
      (s.stamped r requestStarted requestEnd).data = r.data ∧
      (s.stamped r requestStarted requestEnd).handshake =
        if requestEnd then s.handshake else r.handshake := by
  cases requestStarted <;> cases requestEnd <;> exact ⟨rfl, rfl, rfl, rfl, rfl⟩

theorem answers_proceed (table : Table keys s) (few : keys.card ≤ usbReqMaxPending)
    (carries : Carries s transaction) (member : transaction.key ∈ keys)
    (stored : UsbReqRequest.Pending (lookup UsbReqRequest.key s.requests transaction.key) pending)
    (closed : ∀ p ∈ pending, p.kind.isControl = true → transaction.token ≠ .setup) :
    ∃ t i, s.findOrCreate s.transactionAddr s.transactionEp = (t, some i) ∧
      Answers keys transaction.key s
        ((t.stamp i ((t.requestAt i).type = .none) transaction.final).transferStage i
          ((t.requestAt i).type = .none) transaction.final)
        (proceed pending transaction) := by
  obtain ⟨t, i, r, ran, moved, place, held⟩ := findOrCreate_pending table few member stored
  rw [← carries.key] at ran
  refine ⟨t, i, ran, ?_⟩
  have ended := carries.ends
  have carried := carries.same moved.transaction
  rw [requestAt_eq place]
  have marked : t.stamp i (decide (r.type = .none)) transaction.final =
      t.store i (t.stamped r (decide (r.type = .none)) transaction.final) := by
    rw [stamp, requestAt_eq place]
    rfl
  obtain ⟨type, same, setup, data, handshake⟩ :=
    t.stamped_cases r (decide (r.type = .none)) transaction.final
  obtain ⟨changed, placed⟩ := moves_store moved.table place (same.trans place.key_eq)
  have carriedOn := carried.same changed.transaction
  rw [marked]
  refine moved.answers (changed.answers ?_)
  rw [carried.handshake] at handshake
  cases pending with
  | none =>
      obtain ⟨new, empty⟩ := held
      rw [proceed]
      by_cases token : transaction.token = .setup
      · rw [if_pos token]
        obtain ⟨taken, -⟩ := transaction.setup_taken token
        refine answers_setupStage changed.table placed carriedOn token (type.trans new)
          (data.trans empty) ?_ _ _
        rw [handshake, UsbTransaction.final, taken]
        rfl
      · rw [if_neg token]
        have bulk := fresh_bulk token
        refine answers_take changed.table placed ⟨.inr ⟨type.trans new, bulk.1⟩, ?_, ?_, ?_⟩ _ carriedOn
          (.inr bulk.2) ?_
        · intro control
          rw [bulk.1] at control
          exact absurd control (by decide)
        · intro _
          exact data.trans empty
        · rintro (control | final)
          · rw [bulk.1] at control
            exact absurd control (by decide)
          · rw [handshake, advance, if_pos final, if_pos final]
        · intro control
          rw [bulk.1] at control
          exact absurd control (by decide)
  | some p =>
      have represents : r.Represents p := held
      refine answers_take changed.table placed
        ⟨.inl (type.trans represents.type), ?_, ?_, ?_⟩ _ carriedOn
        (.inl (type.trans represents.type)) (closed p rfl)
      · intro control
        exact setup.trans (represents.setup control)
      · intro few
        exact data.trans (represents.data few)
      · intro asked
        rw [handshake, advance]
        by_cases final : transaction.final = true
        · rw [if_pos final, if_pos final]
        · rw [if_neg final, if_neg final]
          exact represents.handshake (asked.resolve_right final)

theorem answers_handleTransfer (table : Table keys s) (few : keys.card ≤ usbReqMaxPending)
    (carries : Carries s transaction) (member : transaction.key ∈ keys)
    (stored : UsbReqRequest.Pending (lookup UsbReqRequest.key s.requests transaction.key) pending) :
    Answers keys transaction.key s s.handleTransfer (step pending transaction) := by
  have first : Answers keys transaction.key s
      (if s.transactionType = .setup then s.closeSetup else s)
      (closedBy pending transaction) := by
    by_cases token : transaction.token = .setup
    · rw [if_pos (carries.token.trans token)]
      exact answers_closeSetup table few carries member token stored
    · rw [if_neg (fun setup => token (carries.token.symm.trans setup))]
      have untouched : closedBy pending transaction = ([], pending) := by
        cases pending with
        | none => rfl
        | some p => exact if_neg (fun both => token both.1)
      rw [untouched]
      exact ⟨[], .refl table, .nil, stored⟩
  have closed : ∀ p ∈ (closedBy pending transaction).2,
      p.kind.isControl = true → transaction.token ≠ .setup := by
    intro p member control token
    cases pending with
    | none => exact absurd member (by rintro ⟨⟩)
    | some q =>
        rw [closedBy] at member
        split at member
        · exact absurd member (by rintro ⟨⟩)
        next other =>
          obtain rfl : q = p := Option.some.inj member
          exact other ⟨token, control⟩
  obtain ⟨told, moved, listed, held⟩ := first
  obtain ⟨t, i, ran, answered⟩ := answers_proceed moved.table few
    (carries.same moved.transaction) member held closed
  have run : s.handleTransfer =
      (t.stamp i ((t.requestAt i).type = .none) transaction.final).transferStage i
        ((t.requestAt i).type = .none) transaction.final := by
    rw [handleTransfer, carries.ends]
    dsimp only
    rw [ran]
  rw [run]
  exact Answers.trans ⟨told, moved, listed, held⟩ answered

end Moves

end UsbReqState

end SigrokDecode
