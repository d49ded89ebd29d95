import SigrokDecode.Decoders.UsbRequest

/-!
# Transactions and the requests that they form

What the requests of an endpoint are, said without the array and without the buffers of the
decoder.
-/

set_option linter.dupNamespace false

namespace SigrokDecode

open Foundation List

inductive UsbAnswer
  | ack
  | nak
  | stall
  | nyet
  deriving DecidableEq

namespace UsbAnswer

def pid : UsbAnswer → UsbPid
  | .ack => .ack
  | .nak => .nak
  | .stall => .stall
  | .nyet => .nyet

def handshake : UsbAnswer → UsbReqHandshake
  | .ack => .ack
  | .nak => .nak
  | .stall => .stall
  | .nyet => .nyet

end UsbAnswer

def UsbReqToken.pid : UsbReqToken → UsbPid
  | .in => .in
  | .out => .out
  | .setup => .setup

/-- Where a packet lies. -/
structure UsbSpan where
  ss : Nat
  es : Nat

/-- A token, perhaps data, and a handshake. A device takes every SETUP, with its eight bytes, and
a host acknowledges what comes in; who has no data to send refuses. -/
structure UsbTransaction where
  token : UsbReqToken
  addr : BitVec 7
  ep : BitVec 4
  /-- Whether the data goes in a `DATA1`. -/
  toggle : Bool
  data : Option (List (BitVec 8))
  answer : UsbAnswer
  tokenSpan : UsbSpan
  dataSpan : UsbSpan
  answerSpan : UsbSpan
  setup_taken : token = .setup → answer = .ack ∧ (data.getD []).length = 8
  in_taken : token = .in → answer ≠ .ack → data = none

namespace UsbTransaction

def bytes (t : UsbTransaction) : List Nat :=
  (t.data.getD []).map BitVec.toNat

/-- The endpoint with its direction: an IN endpoint has the highest bit, but for the control
endpoint. -/
def key (t : UsbTransaction) : Nat × Nat :=
  (t.addr.toNat, if t.token = .in ∧ 0 < t.ep.toNat then t.ep.toNat + 0x80 else t.ep.toNat)

def tokenPacket (t : UsbTransaction) : UsbPktProto where
  ss := t.tokenSpan.ss
  es := t.tokenSpan.es
  category := .token
  name := t.token.pid
  fields := .token t.addr.toNat t.ep.toNat

def dataPacket (t : UsbTransaction) : UsbPktProto where
  ss := t.dataSpan.ss
  es := t.dataSpan.es
  category := .data
  name := if t.toggle then .data1 else .data0
  fields := .data t.bytes

def answerPacket (t : UsbTransaction) : UsbPktProto where
  ss := t.answerSpan.ss
  es := t.answerSpan.es
  category := .handshake
  name := t.answer.pid
  fields := .none

/-- What `usb_packet_c` sends for it. -/
def packets (t : UsbTransaction) : List UsbPktProto :=
  t.tokenPacket :: ((t.data.map fun _ => t.dataPacket).toList ++ [t.answerPacket])

/-- The bytes that have come over. -/
def acked (t : UsbTransaction) : List Nat :=
  if t.answer = .ack then t.bytes else []

def final (t : UsbTransaction) : Bool :=
  t.answer = .ack ∨ t.answer = .stall

end UsbTransaction

inductive UsbRequestKind
  | bulkIn
  | bulkOut
  | setupIn
  | setupOut
  deriving DecidableEq

/-- What a transaction is to a pending request of its endpoint. -/
inductive UsbStage
  | data
  | status
  | foreign
  deriving DecidableEq

namespace UsbRequestKind

def isControl : UsbRequestKind → Bool
  | .bulkIn => false
  | .bulkOut => false
  | .setupIn => true
  | .setupOut => true

def stage : UsbRequestKind → UsbReqToken → UsbStage
  | .bulkIn, .in => .data
  | .bulkOut, .out => .data
  | .setupIn, .in => .data
  | .setupIn, .out => .status
  | .setupOut, .out => .data
  | .setupOut, .in => .status
  | _, _ => .foreign

def ann : UsbRequestKind → UsbReqClass
  | .bulkIn => .bulkRead
  | .bulkOut => .bulkWrite
  | .setupIn => .setupRead
  | .setupOut => .setupWrite

def type : UsbRequestKind → UsbReqType
  | .bulkIn => .bulkIn
  | .bulkOut => .bulkOut
  | .setupIn => .setupIn
  | .setupOut => .setupOut

def title : UsbRequestKind → List Char
  | .bulkIn => "BULK in: ".toList
  | .bulkOut => "BULK out: ".toList
  | .setupIn => "SETUP in: ".toList
  | .setupOut => "SETUP out: ".toList

end UsbRequestKind

structure UsbRequest where
  kind : UsbRequestKind
  setup : List Nat
  data : List Nat
  handshake : UsbReqHandshake
  deriving DecidableEq

namespace UsbRequest

/-- The request that a transaction begins. The top bit of the first byte of a SETUP says which way
the data goes. -/
def fresh (t : UsbTransaction) : UsbRequest where
  kind :=
    match t.token with
    | .in => .bulkIn
    | .out => .bulkOut
    | .setup => if t.bytes.getD 0 0 &&& 0x80 ≠ 0 then .setupIn else .setupOut
  setup := if t.token = .setup then t.bytes else []
  data := []
  handshake := .none

def advance (r : UsbRequest) (t : UsbTransaction) : UsbRequest :=
  { r with
    data := if r.kind.stage t.token = .data then r.data ++ t.acked else r.data
    handshake := if t.final then t.answer.handshake else r.handshake }

def take (r : UsbRequest) (t : UsbTransaction) : List UsbRequest × Option UsbRequest :=
  match r.kind.stage t.token with
  | .data =>
      if t.final ∧ r.kind.isControl = false then
        ([r.advance t], none)
      else
        ([], some (r.advance t))
  | .status => if t.final then ([r.advance t], none) else ([], some (r.advance t))
  | .foreign => ([], some r)

/-- A pending control request is over where the next SETUP begins. -/
def closedBy (pending : Option UsbRequest) (t : UsbTransaction) :
    List UsbRequest × Option UsbRequest :=
  match pending with
  | none => ([], none)
  | some r => if t.token = .setup ∧ r.kind.isControl then ([r], none) else ([], some r)

def proceed (pending : Option UsbRequest) (t : UsbTransaction) :
    List UsbRequest × Option UsbRequest :=
  match pending with
  | none => if t.token = .setup then ([], some ((fresh t).advance t)) else (fresh t).take t
  | some r => r.take t

def step (pending : Option UsbRequest) (t : UsbTransaction) : List UsbRequest × Option UsbRequest :=
  ((closedBy pending t).1 ++ (proceed (closedBy pending t).2 t).1,
    (proceed (closedBy pending t).2 t).2)

def formed (pending : Option UsbRequest) : List UsbTransaction → List UsbRequest
  | [] => []
  | t :: rest => (step pending t).1 ++ formed (step pending t).2 rest

def bytesText (bytes : List Nat) : List Char :=
  bytes.flatMap usbReqByteText

def summary (r : UsbRequest) : List Char :=
  (['['] ++ (if r.kind.isControl then bytesText r.setup ++ [' ', ']', '['] else [])) ++
    bytesText r.data ++ ([' ', ']', ' ', ':', ' '] ++ r.handshake.name)

def report (r : UsbRequest) : UsbReqClass × List Char :=
  (r.kind.ann, r.kind.title ++ r.summary)

/-- The summary and the zero behind it have room in the buffer of `usb_req_handle_request`. -/
def Fits (r : UsbRequest) : Prop :=
  r.summary.length < usbReqSummarySize

instance (r : UsbRequest) : Decidable r.Fits :=
  inferInstanceAs (Decidable (_ < _))

end UsbRequest

theorem inside_summaryBytes {buffer : TextBuffer} (inside : buffer.Inside usbReqSummarySize)
    (bytes : List Nat) : (usbReqSummaryBytes buffer bytes).Inside usbReqSummarySize := by
  induction bytes generalizing buffer with
  | nil =>
      exact inside
  | cons byte bytes ih =>
      rw [usbReqSummaryBytes]
      split
      · exact ih (inside.print _)
      · exact inside

theorem usbReqSummary_length (r : UsbReqRequest) :
    (usbReqSummary r).length < usbReqSummarySize := by
  have opened : (TextBuffer.empty.print usbReqSummarySize ['[']).Inside usbReqSummarySize := by
    refine TextBuffer.Inside.print ⟨?_, ?_⟩ _
    · exact Nat.le_refl 0
    · exact Nat.zero_le _
  have headed : (if r.isSetup then
      (usbReqSummaryBytes (TextBuffer.empty.print usbReqSummarySize ['[']) r.setupData).print
        usbReqSummarySize [' ', ']', '[']
      else TextBuffer.empty.print usbReqSummarySize ['[']).Inside usbReqSummarySize := by
    split
    · exact (inside_summaryBytes opened _).print _
    · exact opened
  have bounded := ((inside_summaryBytes headed r.data).print
    ([' ', ']', ' ', ':', ' '] ++ r.handshake.name)).terminated
  have positive : 0 < usbReqSummarySize := by decide
  unfold usbReqSummary
  dsimp only
  omega

theorem UsbReqHandshake.three_le_length_name (handshake : UsbReqHandshake) :
    3 ≤ handshake.name.length := by
  cases handshake <;> decide

theorem three_le_length_byteText (byte : Nat) : 3 ≤ (usbReqByteText byte).length := by
  simp only [usbReqByteText, upperHexDigits, String.toList_ofList, length_cons,
    length_append, length_replicate, length_map]
  omega

theorem UsbRequest.length_le_bytesText (bytes : List Nat) :
    3 * bytes.length ≤ (bytesText bytes).length := by
  induction bytes with
  | nil =>
      exact Nat.le_refl 0
  | cons byte bytes ih =>
      have wide := three_le_length_byteText byte
      rw [bytesText, flatMap_cons, length_append, length_cons]
      unfold bytesText at ih
      omega

theorem whole_summaryBytes {buffer : TextBuffer} {text : List Char} (whole : buffer.Whole text)
    {bytes : List Nat}
    (room : (text ++ UsbRequest.bytesText bytes).length + 8 < usbReqSummarySize) :
    (usbReqSummaryBytes buffer bytes).Whole (text ++ UsbRequest.bytesText bytes) := by
  induction bytes generalizing buffer text with
  | nil =>
      rw [UsbRequest.bytesText, flatMap_nil, List.append_nil]
      exact whole
  | cons byte bytes ih =>
      have split : text ++ UsbRequest.bytesText (byte :: bytes) =
          (text ++ usbReqByteText byte) ++ UsbRequest.bytesText bytes := by
        rw [UsbRequest.bytesText, flatMap_cons, ← List.append_assoc]
        rfl
      rw [split] at room ⊢
      have place : buffer.pos < usbReqSummarySize - 10 := by
        have written := whole.2
        have wide := three_le_length_byteText byte
        simp only [length_append] at room
        omega
      rw [usbReqSummaryBytes, if_pos place]
      refine ih (whole.print ?_) room
      rw [length_append] at room
      omega

/-- An entry that is written out as `p`, as far as its buffer takes the data of `p`. -/
structure UsbReqRequest.Shows (r : UsbReqRequest) (p : UsbRequest) : Prop where
  type : r.type = p.kind.type
  setup : p.kind.isControl = true → r.setupData = p.setup
  data : p.data.length ≤ usbReqMaxData → r.data = p.data
  handshake : r.handshake = p.handshake

namespace UsbReqRequest.Shows

variable {r : UsbReqRequest} {p : UsbRequest}

theorem isSetup (shows : r.Shows p) : r.isSetup = p.kind.isControl := by
  rw [UsbReqRequest.isSetup, shows.type]
  cases p.kind <;> rfl

theorem summary_of_fits (shows : r.Shows p) (fits : p.Fits) : usbReqSummary r = p.summary := by
  have room : p.summary.length < usbReqSummarySize := fits
  have answer := p.handshake.three_le_length_name
  have wide := UsbRequest.length_le_bytesText p.data
  rw [UsbRequest.summary] at room
  have tail : ([' ', ']', ' ', ':', ' '] ++ p.handshake.name).length =
      5 + p.handshake.name.length := by
    rw [length_append]
    rfl
  have sizes := room
  rw [length_append, length_append, tail] at sizes
  have size : usbReqSummarySize = 512 := rfl
  have few : p.data.length ≤ usbReqMaxData := by
    have limit : usbReqMaxData = 2048 := rfl
    omega
  have opened : (TextBuffer.empty.print usbReqSummarySize ['[']).Whole ['['] := by
    have nothing : TextBuffer.empty.Whole [] := ⟨rfl, rfl⟩
    exact nothing.print (by decide)
  have headed : (if r.isSetup then
      (usbReqSummaryBytes (TextBuffer.empty.print usbReqSummarySize ['[']) r.setupData).print
        usbReqSummarySize [' ', ']', '[']
      else TextBuffer.empty.print usbReqSummarySize ['[']).Whole
        (['['] ++ if p.kind.isControl then
          UsbRequest.bytesText p.setup ++ [' ', ']', '['] else []) := by
    rw [shows.isSetup]
    by_cases control : p.kind.isControl = true
    · rw [if_pos control] at sizes
      rw [if_pos control, if_pos control, shows.setup control, ← List.append_assoc]
      rw [length_append, length_append] at sizes
      have three : [' ', ']', '['].length = 3 := rfl
      have one : ['['].length = 1 := rfl
      refine (whole_summaryBytes opened ?_).print ?_
      · rw [length_append]
        omega
      · rw [length_append, length_append]
        omega
    · rw [if_neg control, if_neg control, List.append_nil]
      exact opened
  have written := (whole_summaryBytes headed (by
    rw [length_append]
    omega)).print room
  rw [usbReqSummary, shows.data few, shows.handshake]
  exact written.1

theorem summary_eq_iff (shows : r.Shows p) : usbReqSummary r = p.summary ↔ p.Fits := by
  constructor
  · intro same
    rw [UsbRequest.Fits, ← same]
    exact usbReqSummary_length r
  · exact shows.summary_of_fits

end UsbReqRequest.Shows

theorem length_byteText {byte : Nat} (small : byte < 256) : (usbReqByteText byte).length = 3 := by
  have digits : (Nat.toDigits 16 byte).length ≤ 2 :=
    (Nat.length_toDigits_le_iff (by decide) (by decide)).mpr small
  simp only [usbReqByteText, upperHexDigits, String.toList_ofList, length_cons,
    length_append, length_replicate, length_map]
  omega

namespace UsbRequest

theorem length_bytesText {bytes : List Nat} (small : ∀ byte ∈ bytes, byte < 256) :
    (bytesText bytes).length = 3 * bytes.length := by
  induction bytes with
  | nil =>
      rfl
  | cons byte bytes ih =>
      have first := length_byteText (small byte mem_cons_self)
      have rest := ih fun other member =>
        small other (mem_cons_of_mem byte member)
      unfold bytesText at rest ⊢
      rw [flatMap_cons, length_append, length_cons, rest, first]
      omega

structure Sound (r : UsbRequest) : Prop where
  bytes : ∀ byte ∈ r.data, byte < 256
  setupBytes : ∀ byte ∈ r.setup, byte < 256
  eight : r.kind.isControl = true → r.setup.length = 8

/-- The request has at most 167 bytes of data, or 158 behind a SETUP; before the longer name of a
STALL it is one less. -/
def Short (r : UsbRequest) : Prop :=
  3 * r.data.length + r.handshake.name.length ≤ if r.kind.isControl then 478 else 505

instance (r : UsbRequest) : Decidable r.Short :=
  inferInstanceAs (Decidable (_ ≤ _))

variable {r : UsbRequest} {t : UsbTransaction}

theorem Sound.fits_iff (sound : r.Sound) : r.Fits ↔ r.Short := by
  have data := length_bytesText sound.bytes
  have setup := length_bytesText sound.setupBytes
  have size : usbReqSummarySize = 512 := rfl
  unfold Fits Short summary
  by_cases control : r.kind.isControl = true
  · have eight := sound.eight control
    rw [if_pos control, if_pos control]
    simp only [length_append, length_cons, length_nil]
    omega
  · rw [if_neg control, if_neg control]
    simp only [length_append, length_cons, length_nil]
    omega

theorem bytes_small (t : UsbTransaction) : ∀ byte ∈ t.bytes, byte < 256 := by
  intro byte member
  obtain ⟨value, -, rfl⟩ := mem_map.mp member
  exact value.isLt

theorem fresh_setup (t : UsbTransaction) :
    (fresh t).setup = if t.token = .setup then t.bytes else [] :=
  rfl

theorem fresh_bulk (apart : t.token ≠ .setup) :
    (fresh t).kind.isControl = false ∧ (fresh t).kind.stage t.token = .data := by
  unfold fresh
  cases direction : t.token with
  | «in» => exact ⟨rfl, rfl⟩
  | out => exact ⟨rfl, rfl⟩
  | setup => exact absurd direction apart

theorem sound_fresh (t : UsbTransaction) : (fresh t).Sound := by
  refine ⟨fun byte member => absurd member not_mem_nil, ?_, ?_⟩
  · intro byte member
    rw [fresh_setup] at member
    split at member
    · exact bytes_small t byte member
    · exact absurd member not_mem_nil
  · intro control
    by_cases token : t.token = .setup
    · rw [fresh_setup, if_pos token, UsbTransaction.bytes, length_map, (t.setup_taken token).2]
    · rw [(fresh_bulk token).1] at control
      exact absurd control (by decide)

theorem Sound.advance (sound : r.Sound) (t : UsbTransaction) : (r.advance t).Sound := by
  refine ⟨?_, sound.setupBytes, sound.eight⟩
  intro byte member
  rw [UsbRequest.advance] at member
  split at member
  · rcases mem_append.mp member with old | new
    · exact sound.bytes byte old
    · rw [UsbTransaction.acked] at new
      split at new
      · exact bytes_small t byte new
      · exact absurd new not_mem_nil
  · exact sound.bytes byte member

theorem Sound.take (sound : r.Sound) (t : UsbTransaction) :
    (∀ p ∈ (r.take t).1, p.Sound) ∧ ∀ p ∈ (r.take t).2, p.Sound := by
  have advanced := sound.advance t
  have ended : (∀ p ∈ [r.advance t], p.Sound) ∧ ∀ p ∈ (none : Option UsbRequest), p.Sound := by
    refine ⟨?_, ?_⟩
    · rintro p (_ | ⟨_, ⟨⟩⟩)
      exact advanced
    · rintro p ⟨⟩
  have kept : ∀ q : UsbRequest, q.Sound →
      (∀ p ∈ ([] : List UsbRequest), p.Sound) ∧ ∀ p ∈ some q, p.Sound := by
    refine fun q fine => ⟨?_, ?_⟩
    · rintro p ⟨⟩
    · rintro p ⟨⟩
      exact fine
  unfold UsbRequest.take
  split
  · split
    · exact ended
    · exact kept _ advanced
  · split
    · exact ended
    · exact kept _ advanced
  · exact kept _ sound

theorem sound_step {pending : Option UsbRequest} (sound : ∀ p ∈ pending, p.Sound)
    (t : UsbTransaction) :
    (∀ p ∈ (step pending t).1, p.Sound) ∧ ∀ p ∈ (step pending t).2, p.Sound := by
  have closed : (∀ p ∈ (closedBy pending t).1, p.Sound) ∧
      ∀ p ∈ (closedBy pending t).2, p.Sound := by
    cases pending with
    | none => exact ⟨fun p member => absurd member not_mem_nil, sound⟩
    | some r =>
        rw [closedBy]
        split
        · refine ⟨?_, by rintro p ⟨⟩⟩
          rintro p (_ | ⟨_, ⟨⟩⟩)
          exact sound r rfl
        · exact ⟨fun p member => absurd member not_mem_nil, sound⟩
  have proceeded : (∀ p ∈ (proceed (closedBy pending t).2 t).1, p.Sound) ∧
      ∀ p ∈ (proceed (closedBy pending t).2 t).2, p.Sound := by
    cases held : (closedBy pending t).2 with
    | none =>
        rw [proceed]
        split
        · refine ⟨fun p member => absurd member not_mem_nil, ?_⟩
          rintro p ⟨⟩
          exact (sound_fresh t).advance t
        · exact (sound_fresh t).take t
    | some r =>
        exact (closed.2 r held).take t
  refine ⟨?_, proceeded.2⟩
  intro p member
  rcases mem_append.mp member with first | second
  · exact closed.1 p first
  · exact proceeded.1 p second

theorem sound_formed {pending : Option UsbRequest} (sound : ∀ p ∈ pending, p.Sound)
    (stream : List UsbTransaction) : ∀ p ∈ formed pending stream, p.Sound := by
  induction stream generalizing pending with
  | nil =>
      rintro p ⟨⟩
  | cons t rest ih =>
      intro p member
      obtain ⟨completed, later⟩ := sound_step sound t
      rcases mem_append.mp member with first | second
      · exact completed p first
      · exact ih later p second

end UsbRequest

end SigrokDecode
