import SigrokDecode.Decoders.Pjon

/-!
# The fields of PJON frames

The start of an annotation is only set while it is zero, and no field sets it back.
-/

namespace SigrokDecode

open Foundation List

structure PjonField where
  cls : PjonClass
  text : String
  raw : List UInt8

def bigEndian (width value : Nat) : List UInt8 :=
  (List.range width).reverse.map fun place => UInt8.ofNat (value / 256 ^ place)

structure PjonFrame where
  rxId : UInt8
  header : UInt8
  /-- Bus numbers, sender, service and packet. -/
  optional : List (List UInt8)
  payload : List UInt8
  widths : optional.map List.length = (PjonConfig.ofByte header).optionalWidths
  fits : (PjonConfig.ofByte header).overhead + payload.length <
    256 ^ (PjonConfig.ofByte header).lenSize

namespace PjonFrame

variable (frame : PjonFrame)

def cfg : PjonConfig :=
  .ofByte frame.header

def length : Nat :=
  frame.cfg.overhead + frame.payload.length

def lengthBytes : List UInt8 :=
  bigEndian frame.cfg.lenSize frame.length

def metaCrc : Nat :=
  calcCrc8 (frame.rxId :: frame.header :: frame.lengthBytes)

def endCrc : Nat :=
  let checked := frame.rxId :: frame.header ::
    (frame.lengthBytes ++ UInt8.ofNat frame.metaCrc :: (frame.optional.flatten ++ frame.payload))
  if frame.cfg.crc32 then calcCrc32 checked else calcCrc8 checked

def fields : List PjonField :=
  ⟨.rxInfo, "RX_ID " ++ rxIdText frame.rxId, [frame.rxId]⟩ ::
    ⟨.hdrCfg, frame.cfg.flagsText, [frame.header]⟩ ::
    ⟨.pktLen, pktLenText frame.length frame.payload.length, frame.lengthBytes⟩ ::
    ⟨.metaCrc, "META_CRC " ++ lowerHexDigits 2 frame.metaCrc, [UInt8.ofNat frame.metaCrc]⟩ ::
    (frame.optional.map (fun raw => ⟨.anonData, hexBytes raw, raw⟩) ++
      [⟨.payload, "PAYLOAD " ++ hexBytes frame.payload, frame.payload⟩,
        ⟨.endCrc, "END_CRC " ++ lowerHexDigits (2 * frame.cfg.crcSize) frame.endCrc,
          bigEndian frame.cfg.crcSize frame.endCrc⟩])

def bytes : List UInt8 :=
  frame.fields.flatMap PjonField.raw

end PjonFrame

/-- Each field with the samples from its first byte to its last one. -/
def pjonFieldAnns : List PjonField → List (Nat × Nat) → List PjonAnn
  | [], _ => []
  | field :: fields, spans =>
      let own := spans.take field.raw.length
      (own.head?.bind fun first =>
          own.getLast?.map fun last => (⟨first.1, last.2, field.cls, field.text⟩ : PjonAnn)).toList ++
        pjonFieldAnns fields (spans.drop field.raw.length)

theorem pjonFieldAnns_first (cls : PjonClass) (text : String) (high : UInt8) (low : List UInt8)
    (fields : List PjonField) (span : Nat × Nat) (spans : List (Nat × Nat)) :
    ∃ ann ∈ pjonFieldAnns (⟨cls, text, high :: low⟩ :: fields) (span :: spans), ann.ss = span.1 := by
  rw [pjonFieldAnns]
  simp only [length_cons, take_succ_cons, head?_cons, getLast?_cons,
    Option.bind_some, Option.map_some, Option.toList_some]
  exact ⟨_, mem_cons_self, rfl⟩

/-- A frame and the samples of its bytes. -/
structure PjonTransmission where
  frame : PjonFrame
  init : Nat × Nat
  spans : List (Nat × Nat)
  length_spans : spans.length = frame.bytes.length
  lasting : ∀ span ∈ spans, span.1 < span.2
  ordered : spans.IsChain fun earlier later => earlier.2 ≤ later.1

def dataBytes (spans : List (Nat × Nat)) (bytes : List UInt8) : List PjonEvent :=
  List.zipWith (fun span b => .dataByte span.1 span.2 b) spans bytes

theorem dataBytes_cons (span : Nat × Nat) (spans : List (Nat × Nat)) (b : UInt8)
    (bytes : List UInt8) :
    dataBytes (span :: spans) (b :: bytes) = .dataByte span.1 span.2 b :: dataBytes spans bytes :=
  rfl

namespace PjonTransmission

variable (sent : PjonTransmission)

def told (s : PjonState) : List PjonAnn :=
  let started := s.recvProto (.frameInit sent.init.1 sent.init.2)
  ((dataBytes sent.spans sent.frame.bytes).foldl PjonState.recvProto started).anns.drop
    started.anns.length

/-- Every field is reported once, with its bytes and its samples, and no check fails. -/
def Reported (s : PjonState) : Prop :=
  ((sent.told s).filter fun ann => ann.cls ≠ .warn) = pjonFieldAnns sent.frame.fields sent.spans ∧
    ∀ ann ∈ sent.told s, ann.cls = .warn → ¬"CRC mismatch".toList <:+: ann.text.toList

end PjonTransmission

namespace PjonState

variable {s t : PjonState}

/-- What the handlers leave as it is, and where they put their annotations. -/
structure Handled (s t : PjonState) : Prop where
  bytes : t.frameBytes = s.frameBytes
  cap : t.frameByteCap = s.frameByteCap
  acks : t.ackBytes = s.ackBytes
  state : t.state = s.state
  annSs : t.annSs = s.annSs
  anns : ∃ later, t.anns = s.anns ++ later ∧ ∀ ann ∈ later, ann.ss = s.annSs

theorem Handled.refl (s : PjonState) : s.Handled s :=
  ⟨rfl, rfl, rfl, rfl, rfl, [], (List.append_nil _).symm, nofun⟩

theorem Handled.put (handled : s.Handled t) (cls : PjonClass) (text : String) :
    s.Handled (t.put cls text) := by
  rcases handled.anns with ⟨later, same, starts⟩
  refine ⟨handled.bytes, handled.cap, handled.acks, handled.state, handled.annSs,
    later ++ [⟨t.annSs, t.annEs, cls, text⟩], ?_, ?_⟩
  · rw [← List.append_assoc, ← same]
    rfl
  · intro ann member
    rcases mem_append.mp member with old | new
    · exact starts ann old
    · rw [mem_singleton.mp new]
      exact handled.annSs

theorem Handled.putWarnings (handled : s.Handled t) (checks : List (Bool × String)) :
    s.Handled (t.putWarnings checks) := by
  rw [PjonState.putWarnings]
  split
  · exact handled
  · exact handled.put _ _

theorem handled_putCrc (s : PjonState) (cls : PjonClass) (name : String)
    (digits want found : Nat) : s.Handled (s.putCrc cls name digits want found) := by
  apply Handled.put
  split
  · exact .refl s
  · exact (Handled.refl s).put _ _

theorem handled_handleField (s : PjonState) (raw : List UInt8) : s.Handled (s.handleField raw) := by
  rw [handleField]
  split
  · apply Handled.put
    exact ⟨rfl, rfl, rfl, rfl, rfl, (Handled.refl s).anns⟩
  · apply Handled.putWarnings
    apply Handled.put
    exact ⟨rfl, rfl, rfl, rfl, rfl, (Handled.refl s).anns⟩
  · apply Handled.put
    have warned := (Handled.refl s).putWarnings
    exact ⟨(warned _).bytes, (warned _).cap, (warned _).acks, (warned _).state, (warned _).annSs,
      (warned _).anns⟩
  · exact handled_putCrc s _ _ _ _ _
  · split
    · rw [handleFieldEndCrc]
      split
      · exact handled_putCrc s _ _ _ _ _
      · exact handled_putCrc s _ _ _ _ _
    · split
      · apply Handled.put
        exact ⟨rfl, rfl, rfl, rfl, rfl, (Handled.refl s).anns⟩
      · have told := (Handled.refl s).put .anonData (hexBytes (raw.take 85))
        rw [handleFieldAnon]
        split
        · exact { told with }
        · exact told

theorem handled_collectByte (s : PjonState) : s.Handled s.collectByte := by
  rw [collectByte]
  split
  · exact .refl s
  · dsimp only
    have counted : s.Handled { s with fieldGot := s.fieldGot + 1 } :=
      ⟨rfl, rfl, rfl, rfl, rfl, (Handled.refl s).anns⟩
    split
    · rw [processField]
      split
      · exact counted
      · split
        · exact counted
        · have handled := handled_handleField { s with fieldGot := s.fieldGot + 1 }
          exact ⟨(handled _).bytes, (handled _).cap, (handled _).acks, (handled _).state,
            (handled _).annSs, (handled _).anns⟩
    · exact counted

/-- Bytes are collected, and since `front` everything has been put from `limit` at the latest. -/
structure Early (front : List PjonAnn) (limit : Nat) (s : PjonState) : Prop where
  collecting : s.state = .collecting
  annSs : s.annSs ≤ limit
  anns : ∃ later, s.anns = front ++ later ∧ ∀ ann ∈ later, ann.ss ≤ limit

variable {front : List PjonAnn} {limit : Nat}

theorem Early.dataByte (early : s.Early front limit) (ss es : Nat) (b : UInt8)
    (begun : s.annSs ≠ 0 ∨ ss ≤ limit) :
    (s.recvProto (.dataByte ss es b)).Early front limit ∧
      (s.recvProto (.dataByte ss es b)).annSs = if s.annSs = 0 then ss else s.annSs := by
  have handled := handled_collectByte (s.storeByte ss es b)
  have early_ : (if s.annSs = 0 then ss else s.annSs) ≤ limit := by
    split
    · exact begun.resolve_left (absurd ‹_› ·)
    · exact early.annSs
  rw [recvProto, early.collecting]
  refine ⟨⟨handled.state.trans early.collecting, handled.annSs.trans_le early_, ?_⟩, handled.annSs⟩
  rcases early.anns with ⟨later, same, starts⟩
  rcases handled.anns with ⟨more, added, startsMore⟩
  refine ⟨later ++ more, ?_, ?_⟩
  · rw [added, ← List.append_assoc, ← same]
    rfl
  · intro ann member
    rcases mem_append.mp member with old | new
    · exact starts ann old
    · exact (startsMore ann new).trans_le early_

theorem Early.dataBytes (early : s.Early front limit) (begun : s.annSs ≠ 0)
    (spans : List (Nat × Nat)) (bytes : List UInt8) :
    ((dataBytes spans bytes).foldl recvProto s).Early front limit := by
  induction spans generalizing s bytes with
  | nil => exact early
  | cons span spans ih =>
      cases bytes with
      | nil => exact early
      | cons b bytes =>
          rcases early.dataByte span.1 span.2 b (.inl begun) with ⟨next, same⟩
          rw [if_neg begun] at same
          exact ih next (same.trans_ne begun) bytes

end PjonState

namespace PjonTransmission

/-- The packet length is reported from the first or the second byte on. -/
theorem not_reported (sent : PjonTransmission) (s : PjonState) : ¬sent.Reported s := by
  rintro ⟨fields, -⟩
  have many := sent.length_spans
  have lasting := sent.lasting
  have ordered := sent.ordered
  rcases lengthBytes : sent.frame.lengthBytes with _ | ⟨high, low⟩
  · have empty := congrArg List.length lengthBytes
    rw [PjonFrame.lengthBytes, bigEndian, length_map, length_reverse, length_range,
      PjonConfig.lenSize] at empty
    split at empty <;> cases empty
  have bytes : sent.frame.bytes = sent.frame.rxId :: sent.frame.header :: high ::
      sent.frame.bytes.drop 3 := by
    rw [PjonFrame.bytes, PjonFrame.fields, lengthBytes]
    rfl
  rw [bytes] at many
  rcases spans : sent.spans with _ | ⟨first, _ | ⟨second, _ | ⟨third, rest⟩⟩⟩
  · cases spans ▸ many
  · cases spans ▸ many
  · cases spans ▸ many
  rw [spans] at lasting ordered fields
  have early : first.1 < second.1 :=
    (lasting first mem_cons_self).trans_le (isChain_cons_cons.mp ordered).1
  have late : second.1 < third.1 :=
    (lasting second (mem_cons_of_mem _ mem_cons_self)).trans_le
      (isChain_cons_cons.mp (isChain_cons_cons.mp ordered).2).1
  obtain ⟨ann, member, start⟩ : ∃ ann ∈ pjonFieldAnns sent.frame.fields
      (first :: second :: third :: rest), ann.ss = third.1 := by
    rw [PjonFrame.fields, lengthBytes]
    rcases pjonFieldAnns_first .pktLen _ high low _ third rest with ⟨ann, member, start⟩
    exact ⟨ann, mem_append_right _ (mem_append_right _ member), start⟩
  rw [← fields] at member
  have begun : (s.recvProto (.frameInit sent.init.1 sent.init.2)).Early
      (s.recvProto (.frameInit sent.init.1 sent.init.2)).anns second.1 :=
    ⟨rfl, Nat.zero_le _, [], (List.append_nil _).symm, nofun⟩
  rcases begun.dataByte first.1 first.2 sent.frame.rxId (.inr early.le) with ⟨one, oneStart⟩
  rcases one.dataByte second.1 second.2 sent.frame.header (.inr le_rfl) with ⟨two, twoStart⟩
  have run := two.dataBytes (by rw [twoStart]; split <;> omega) (third :: rest)
    (high :: sent.frame.bytes.drop 3)
  rcases run.anns with ⟨later, same, starts⟩
  have told : sent.told s = later := by
    rw [PjonTransmission.told, spans, bytes, dataBytes_cons, dataBytes_cons, foldl_cons, foldl_cons]
    rw [same, drop_left]
  have bounded := starts ann (told ▸ mem_of_mem_filter member)
  omega

/-- A frame with one byte of payload, in six bytes of ten samples each. -/
def letter : PjonTransmission where
  frame :=
    { rxId := 44
      header := 0
      optional := []
      payload := [0x41]
      widths := rfl
      fits := by decide }
  init := (1, 11)
  spans := [(11, 21), (21, 31), (31, 41), (41, 51), (51, 61), (61, 71)]
  length_spans := rfl
  lasting := by decide
  ordered := by decide

theorem not_reported_letter : ¬letter.Reported .start := by
  rintro ⟨fields, -⟩
  have second := congrArg (fun anns => anns[1]?.map PjonAnn.ss) fields
  exact absurd second (by decide +kernel)

end PjonTransmission

end SigrokDecode
