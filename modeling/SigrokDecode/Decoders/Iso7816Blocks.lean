import SigrokDecode.Decoders.Iso7816
import Mathlib.Data.List.Infix

/-!
# What the T=1 blocks of a smart card are read as
-/

set_option linter.dupNamespace false

namespace SigrokDecode

open Foundation Stopping

namespace Iso7816

variable {options : Iso7816Options}

/-! ## Outputs only come to the others -/

/-- The outputs in front are there behind. -/
def Extends (s t : Iso7816State) : Prop :=
  s.outs <+: t.outs

instance : Std.Refl Extends :=
  ⟨fun s => List.prefix_refl s.outs⟩

instance : IsTrans Iso7816State Extends :=
  ⟨fun _ _ _ first second => List.IsPrefix.trans first second⟩

theorem extends_modify {change : Iso7816State → Iso7816State}
    (more : ∀ s, ∃ outs, (change s).outs = s.outs ++ outs) :
    Relates Extends (modify change) :=
  relates_modify fun s => by
    obtain ⟨outs, same⟩ := more s
    exact ⟨outs, same.symm⟩

theorem extends_putHere (ss : Nat) (cls : Iso7816Class) (texts : List String) :
    Relates Extends (putHere ss cls texts) :=
  extends_modify fun _ => ⟨_, rfl⟩

theorem extends_warnIf (wrong : Bool) (ss : Nat) (text : String) :
    Relates Extends (warnIf wrong ss text) := by
  cases wrong
  · exact relates_pure _
  · exact extends_putHere _ _ _

theorem extends_writePcapHeader : Relates Extends writePcapHeader := by
  refine extends_modify fun s => ?_
  split
  · exact ⟨[], (List.append_nil _).symm⟩
  · exact ⟨_, rfl⟩

theorem extends_writePcapPacket (ss : Nat) (about : Iso7816Record) (data : List (BitVec 8)) :
    Relates Extends (writePcapPacket ss about data) :=
  extends_writePcapHeader.bind fun _ => extends_modify fun _ => ⟨_, rfl⟩

theorem extends_nextByte : Relates Extends nextByte := by
  intro s
  rw [nextByte]
  split
  · exact List.prefix_refl _
  · exact List.prefix_append _ _

theorem extends_readByte : Relates Extends readByte := by
  intro s
  rw [readByte]
  split
  · exact List.prefix_refl _
  · exact (extends_nextByte.bind fun byte => relates_pure byte.byte) s

theorem extends_peekByte : Relates Extends peekByte :=
  extends_nextByte.bind fun _ =>
    Relates.bind (extends_modify fun _ => ⟨[], (List.append_nil _).symm⟩) fun _ =>
      relates_pure _

theorem extends_readBytes (count : Nat) : Relates Extends (readBytes count) := by
  induction count with
  | zero => exact relates_pure _
  | succ count ih =>
      exact extends_readByte.bind fun _ => ih.bind fun _ => relates_pure _

theorem extends_readByteIf (there : Bool) : Relates Extends (readByteIf there) := by
  cases there
  · exact relates_pure _
  · exact extends_readByte.bind fun _ => relates_pure _

theorem extends_quiet {change : Iso7816State → Iso7816State}
    (quiet : ∀ s, (change s).outs = s.outs) : Relates Extends (modify change) :=
  extends_modify fun s => ⟨[], (quiet s).trans (List.append_nil _).symm⟩

theorem extends_readInterface (ss count : Nat) (td : BitVec 8) :
    Relates Extends (readInterface ss count td) := by
  induction count generalizing td with
  | zero => exact relates_pure _
  | succ count ih =>
      rw [readInterface]
      split
      · exact relates_pure _
      · refine (extends_readByteIf _).bind fun _ => (extends_readByteIf _).bind fun _ =>
          (extends_readByteIf _).bind fun _ => ?_
        split
        · refine extends_readByte.bind fun next => ?_
          have rest : ∀ front : List (BitVec 8), Relates Extends (do
              let back ← readInterface ss count next
              pure (front ++ next :: back)) :=
            fun _ => (ih next).bind fun _ => relates_pure _
          dsimp only
          split
          · exact Relates.bind (extends_quiet fun _ => rfl) fun _ => rest _
          · split
            · exact Relates.bind (extends_quiet fun _ => rfl) fun _ => rest _
            · split
              · exact Relates.bind (extends_quiet fun _ => rfl) fun _ => rest _
              · exact (extends_putHere _ _ _).bind fun _ => rest _
        · exact relates_pure _

theorem extends_readTck (ss : Nat) (atr : List (BitVec 8)) : Relates Extends (readTck ss atr) := by
  refine Relates.bind relates_get fun s => ?_
  split
  · exact extends_readByte.bind fun _ => (extends_warnIf _ _ _).bind fun _ => relates_pure _
  · exact relates_pure _

theorem extends_chooseProtocol : Relates Extends (chooseProtocol options) :=
  extends_quiet fun s => by split <;> rfl

theorem extends_handleAtr : Relates Extends (handleAtr options) := by
  refine Relates.bind relates_get fun s => ?_
  refine extends_readByte.bind fun _ => extends_readByte.bind fun _ => ?_
  refine Relates.bind (extends_quiet fun _ => rfl) fun _ => ?_
  refine (extends_readInterface _ _ _).bind fun _ => (extends_readBytes _).bind fun _ => ?_
  refine Relates.bind (extends_quiet fun _ => rfl) fun _ => ?_
  refine (extends_readTck _ _).bind fun _ => (extends_putHere _ _ _).bind fun _ => ?_
  refine Relates.bind (extends_modify fun _ => ⟨_, rfl⟩) fun _ => ?_
  refine (extends_writePcapPacket _ _ _).bind fun _ => ?_
  exact Relates.bind (extends_quiet fun _ => rfl) fun _ => extends_chooseProtocol

theorem extends_readPpsRest (pps : BitVec 8) : Relates Extends (readPpsRest pps) :=
  extends_readByte.bind fun _ => (extends_readByteIf _).bind fun _ =>
    (extends_readByteIf _).bind fun _ => (extends_readByteIf _).bind fun _ =>
      extends_readByte.bind fun _ => relates_pure _

theorem extends_handlePps : Relates Extends (handlePps options) := by
  refine Relates.bind relates_get fun s => ?_
  refine extends_readByte.bind fun _ => (extends_readPpsRest _).bind fun _ => ?_
  refine (extends_warnIf _ _ _).bind fun _ => extends_readByte.bind fun _ => ?_
  refine (extends_warnIf _ _ _).bind fun _ => (extends_readPpsRest _).bind fun _ => ?_
  refine (extends_warnIf _ _ _).bind fun _ => ?_
  have told : Relates Extends (do
      let t ← get
      putHere s.peekedSamplenum .pps
        ["PPS", s!"PPS DI={t.di} FI={t.fi} clock_skip={t.clockSkip}"]) :=
    Relates.bind relates_get fun _ => extends_putHere _ _ _
  split
  · exact Relates.bind (extends_quiet fun _ => rfl) fun _ => told
  · exact (extends_putHere _ _ _).bind fun _ => told

variable (ss : Nat)

theorem extends_readT0Status (bIns p3 procByte : BitVec 8) :
    Relates Extends (readT0Status ss bIns p3 procByte) := by
  rw [readT0Status]
  split
  · exact (extends_readBytes _).bind fun _ => extends_readByte.bind fun _ =>
      extends_readByte.bind fun _ => relates_pure _
  · split
    · exact extends_readByte.bind fun _ => relates_pure _
    · exact (extends_putHere _ _ _).bind fun _ => relates_pure _

theorem extends_handleT0Packet : Relates Extends (handleT0Packet ss) := by
  refine extends_readByte.bind fun _ => extends_readByte.bind fun _ => ?_
  refine extends_readByte.bind fun _ => extends_readByte.bind fun _ => ?_
  refine extends_readByte.bind fun _ => extends_readByte.bind fun _ => ?_
  refine (extends_readT0Status _ _ _ _).bind fun _ => (extends_putHere _ _ _).bind fun _ => ?_
  exact (extends_putHere _ _ _).bind fun _ => extends_writePcapPacket _ _ _

theorem extends_putApdu (apdu : List (BitVec 8)) : Relates Extends (putApdu ss apdu) := by
  rw [putApdu]
  split
  · exact (extends_putHere _ _ _).bind fun _ => extends_writePcapPacket _ _ _
  · exact extends_writePcapPacket _ _ _

theorem extends_endChain (data : List (BitVec 8)) : Relates Extends (endChain ss data) := by
  refine Relates.bind relates_get fun _ => (extends_putHere _ _ _).bind fun _ => ?_
  exact (extends_putApdu _ _).bind fun _ => extends_quiet fun _ => rfl

theorem extends_putT1Block (nad pcb bLen : BitVec 8) (data : List (BitVec 8)) :
    Relates Extends (putT1Block ss nad pcb bLen data) := by
  rw [putT1Block]
  split
  · exact (extends_putHere _ _ _).bind fun _ => (extends_putHere _ _ _).bind fun _ =>
      (extends_writePcapPacket _ _ _).bind fun _ => relates_pure _
  · split
    · exact (extends_putHere _ _ _).bind fun _ => (extends_putHere _ _ _).bind fun _ =>
        (extends_writePcapPacket _ _ _).bind fun _ => relates_pure _
    · refine (extends_putHere _ _ _).bind fun _ => ?_
      split
      · exact Relates.bind (extends_quiet fun _ => rfl) fun _ => relates_pure _
      · exact (extends_endChain _ _).bind fun _ => relates_pure _

theorem extends_handleT1Block : Relates Extends (handleT1Block ss) := by
  refine extends_readByte.bind fun nad => extends_readByte.bind fun pcb => ?_
  refine extends_readByte.bind fun bLen => (extends_readBytes _).bind fun data => ?_
  refine extends_readByte.bind fun bLrc => (extends_warnIf _ _ _).bind fun _ => ?_
  exact extends_putT1Block _ _ _ _ _

theorem extends_putPair (packet : List (BitVec 8))
    (second : Option (List (BitVec 8))) : Relates Extends (putPair ss packet second) := by
  rcases second with _ | _ | _
  · exact relates_pure _
  · exact relates_pure _
  · exact extends_putApdu _ _

theorem extends_pairBlocks (packet : List (BitVec 8)) : Relates Extends (pairBlocks ss packet) := by
  refine extends_peekByte.bind fun _ => Relates.bind relates_get fun _ => ?_
  exact (extends_handleT1Block _).bind fun second => extends_putPair _ _ second

theorem extends_handleT1Packet : Relates Extends (handleT1Packet ss) := by
  refine (extends_handleT1Block _).bind fun packet => ?_
  split
  · exact extends_pairBlocks _ _
  · exact relates_pure _

theorem extends_decodeStep : Relates Extends (decodeStep options) := by
  refine Relates.bind relates_get fun s => ?_
  split
  · refine Relates.bind (fun s => ?_) fun _ => extends_handleAtr
    rw [waitForFall]
    split
    · exact List.prefix_refl _
    · exact List.prefix_refl _
  · refine extends_peekByte.bind fun _ => ?_
    split
    · exact extends_handlePps
    · split
      · exact Relates.bind (extends_quiet fun _ => rfl) fun _ => extends_handleAtr
      · refine Relates.bind relates_get fun t => ?_
        split
        · exact extends_handleT0Packet _
        · split
          · exact extends_handleT1Packet _
          · exact relates_pure _

theorem extends_decodeLoop (count : Nat) : Relates Extends (decodeLoop options count) := by
  induction count with
  | zero => exact relates_pure _
  | succ count ih =>
      exact extends_decodeStep.bind fun _ => ih

def apduRecord : Iso7816Out → Option (List (BitVec 8))
  | .pcapRecord _ _ .apdu data => some data
  | _ => none

def apduRecords (s : Iso7816State) : List (List (BitVec 8)) :=
  s.outs.filterMap apduRecord

/-- What is known of a state between two bytes. -/
structure T1At (peeked : Option (BitVec 8)) (line chain : List (BitVec 8))
    (records : List (List (BitVec 8))) (s : Iso7816State) : Prop where
  begun : s.findStart = false
  noT0 : s.hasT0 = false
  onlyT1 : s.hasT1 = true
  peeked : s.peeked = peeked
  line : s.input.map Iso7816Byte.byte = line
  chain : s.t1ChainBuf = chain
  records : apduRecords s = records

section Steps

variable {peeked : Option (BitVec 8)} {line chain : List (BitVec 8)}
  {records : List (List (BitVec 8))}

theorem apduRecords_eq {s : Iso7816State} {outs : List Iso7816Out} (more : List Iso7816Out)
    (same : outs = s.outs ++ more) :
    outs.filterMap apduRecord =
      apduRecords s ++ more.filterMap apduRecord := by
  rw [same, List.filterMap_append]
  rfl

theorem yields_putHere (ss : Nat) (cls : Iso7816Class) (texts : List String) :
    Yields (T1At peeked line chain records) (putHere ss cls texts)
      fun _ => T1At peeked line chain records := by
  refine yields_modify fun s known => ?_
  refine { known with records := ?_ }
  exact (apduRecords_eq _ rfl).trans ((List.append_nil _).trans known.records)

theorem yields_warnIf (wrong : Bool) (ss : Nat) (text : String) :
    Yields (T1At peeked line chain records) (warnIf wrong ss text)
      fun _ => T1At peeked line chain records := by
  cases wrong
  · exact yields_pure () fun _ => id
  · exact yields_putHere _ _ _

theorem yields_writePcapHeader : Yields (T1At peeked line chain records) writePcapHeader
      fun _ => T1At peeked line chain records := by
  refine yields_modify fun s known => ?_
  split
  · exact known
  · refine { known with records := ?_ }
    exact (apduRecords_eq [.pcapHeader] rfl).trans ((List.append_nil _).trans known.records)

theorem yields_writePcapPacket (ss : Nat) (about : Iso7816Record) (data : List (BitVec 8)) :
    Yields (T1At peeked line chain records) (writePcapPacket ss about data)
      fun _ => T1At peeked line chain (records ++ if about = .apdu then [data] else []) := by
  refine yields_writePcapHeader.bind fun _ => yields_modify fun s known => ?_
  refine { known with records := ?_ }
  refine (apduRecords_eq [.pcapRecord ss s.samplenum about data] rfl).trans ?_
  rw [known.records]
  cases about <;> rfl

variable (byte : BitVec 8)

theorem yields_nextByte :
    Yields (T1At peeked (byte :: line) chain records) nextByte
      fun value s => value.byte = byte ∧ T1At peeked line chain records s := by
  intro s known
  obtain ⟨first, input, inputIs, firstIs, restIs⟩ := List.map_eq_cons_iff.mp known.line
  rw [nextByte, inputIs]
  refine ⟨first, _, rfl, firstIs, ?_⟩
  refine { known with line := restIs, records := ?_ }
  exact (apduRecords_eq _ rfl).trans ((List.append_nil _).trans known.records)

theorem yields_readByte : Yields (T1At none (byte :: line) chain records) readByte
      fun value s => value = byte ∧ T1At none line chain records s := by
  intro s known
  have given : ∀ value : Iso7816Byte,
      Yields (fun s => value.byte = byte ∧ T1At none line chain records s)
        (pure value.byte : Iso7816M (BitVec 8))
        fun value s => value = byte ∧ T1At none line chain records s :=
    fun value => yields_pure value.byte fun _ => id
  rw [readByte, known.peeked]
  exact ((yields_nextByte byte).bind given) s known

theorem yields_readPeeked : Yields (T1At (some byte) line chain records) readByte
      fun value s => value = byte ∧ T1At none line chain records s := by
  intro s known
  rw [readByte, known.peeked]
  exact ⟨byte, _, rfl, rfl, known.begun, known.noT0, known.onlyT1, rfl, known.line, known.chain,
    known.records⟩

theorem yields_peekByte : Yields (T1At none (byte :: line) chain records) peekByte
      fun value s => value = byte ∧ T1At (some byte) line chain records s := by
  refine (yields_nextByte byte).bind fun value => ?_
  have kept : Yields (fun s => value.byte = byte ∧ T1At none line chain records s)
      (modify fun s => { s with
        peeked := some value.byte
        peekedSamplenum := value.ss })
      fun _ s => value.byte = byte ∧ T1At (some byte) line chain records s := by
    refine yields_modify ?_
    rintro s ⟨rfl, known⟩
    exact ⟨rfl, known.begun, known.noT0, known.onlyT1, rfl, known.line, known.chain, known.records⟩
  exact kept.bind fun _ => yields_pure value.byte fun _ => id

theorem yields_readBytes (bytes : List (BitVec 8)) :
    Yields (T1At none (bytes ++ line) chain records) (readBytes bytes.length)
      fun value s => value = bytes ∧ T1At none line chain records s := by
  induction bytes with
  | nil => exact yields_pure [] fun _ known => ⟨rfl, known⟩
  | cons byte bytes ih =>
      exact (yields_readByte byte).bind_value (ih.bind_value
        (yields_pure (byte :: bytes) fun _ known => ⟨rfl, known⟩))

theorem yields_putApdu (ss : Nat) (apdu : List (BitVec 8)) :
    Yields (T1At peeked line chain records) (putApdu ss apdu)
      fun _ => T1At peeked line chain (records ++ [apdu]) := by
  rw [putApdu]
  split
  · exact (yields_putHere _ _ _).bind fun _ => yields_writePcapPacket _ _ _
  · exact yields_writePcapPacket _ _ _

theorem yields_chainBlock (ss : Nat) (seq : Bool) (data : List (BitVec 8)) :
    Yields (T1At peeked line chain records) (chainBlock ss seq data)
      fun _ => T1At peeked line (chainWith chain data) records :=
  yields_modify fun _ known => { known with chain := congrArg (chainWith · data) known.chain }

def chainEnd (chain data : List (BitVec 8)) : List (BitVec 8) :=
  if chain = [] then data else chainWith chain data

theorem yields_endChain (ss : Nat) (data : List (BitVec 8)) :
    Yields (T1At peeked line chain records) (endChain ss data)
      fun _ => T1At peeked line [] (records ++ [chainEnd chain data]) := by
  intro s known
  have ended : ∀ ss, Yields (T1At peeked line chain records) (do
      putHere ss .t1 ["T=1", "T=1 (reassembled)"]
      putApdu ss (chainEnd chain data)
      modify fun s => { s with t1ChainBuf := [] })
      fun _ => T1At peeked line [] (records ++ [chainEnd chain data]) := by
    intro ss
    refine (yields_putHere _ _ _).bind fun _ => (yields_putApdu _ _).bind fun _ => ?_
    exact yields_modify fun _ known => { known with chain := rfl }
  rw [endChain, bind_some (show get s = (some s, s) from rfl), known.chain]
  rw [chainEnd] at ended ⊢
  by_cases none : chain = []
  · simp only [if_pos none] at ended ⊢
    exact ended ss s known
  · simp only [if_neg none] at ended ⊢
    exact ended s.t1ChainSs s known

def blockBytes (nad pcb : BitVec 8) (info : List (BitVec 8)) : List (BitVec 8) :=
  let front := [nad, pcb, BitVec.ofNat 8 info.length] ++ info
  front ++ [xorBytes front]

variable {pcb : BitVec 8}

theorem yields_handleT1Block {ss : Nat} {nad : BitVec 8} {info : List (BitVec 8)}
    (short : info.length < 256) {after : Option (List (BitVec 8)) → Iso7816State → Prop}
    (puts : Yields (T1At none line chain records)
      (putT1Block ss nad pcb (BitVec.ofNat 8 info.length) info) after) :
    Yields (T1At (some nad) ((blockBytes nad pcb info).tail ++ line) chain records)
      (handleT1Block ss) after := by
  have length : (BitVec.ofNat 8 info.length).toNat = info.length := by
    rw [BitVec.toNat_ofNat]
    exact Nat.mod_eq_of_lt short
  have data : Yields
      (T1At none (info ++ ([xorBytes ([nad, pcb, BitVec.ofNat 8 info.length] ++ info)] ++ line))
        chain records)
      (readBytes (BitVec.ofNat 8 info.length).toNat)
      fun value s => value = info ∧ T1At none
        ([xorBytes ([nad, pcb, BitVec.ofNat 8 info.length] ++ info)] ++ line) chain records s := by
    rw [length]
    exact yields_readBytes info
  have bytes : (blockBytes nad pcb info).tail ++ line = pcb :: BitVec.ofNat 8 info.length ::
        (info ++ ([xorBytes ([nad, pcb, BitVec.ofNat 8 info.length] ++ info)] ++ line)) := by
    rw [blockBytes]
    simp only [List.cons_append, List.tail_cons, List.append_assoc, List.nil_append]
  rw [bytes]
  refine (yields_readPeeked nad).bind_value ((yields_readByte pcb).bind_value
    ((yields_readByte _).bind_value (data.bind_value ?_)))
  exact (yields_readByte _).bind_value ((yields_warnIf _ _ _).bind fun _ => puts)

theorem yields_putInfo (info : pcb.getLsbD 7 = false) (ss : Nat)
    (nad bLen : BitVec 8) (data : List (BitVec 8)) :
    Yields (T1At none line chain records) (putT1Block ss nad pcb bLen data) fun value s =>
      value = some data ∧
        if pcb.getLsbD 5 then T1At none line (chainWith chain data) records s
        else T1At none line [] (records ++ [chainEnd chain data]) s := by
  have single : ¬ pcb &&& 0xC0 = 0xC0 := by
    intro same
    have bit := congrArg (fun word => word.getLsbD 7) same
    simp only [BitVec.getLsbD_and, info, Bool.false_and] at bit
    exact absurd bit (by decide)
  rw [putT1Block, if_neg single, info, if_neg Bool.false_ne_true]
  refine (yields_putHere _ _ _).bind fun _ => ?_
  cases pcb.getLsbD 5 with
  | true => exact (yields_chainBlock _ _ _).bind fun _ =>
      yields_pure (some data) fun _ known => ⟨rfl, known⟩
  | false => exact (yields_endChain _ _).bind fun _ =>
      yields_pure (some data) fun _ known => ⟨rfl, known⟩

theorem yields_putAck (ack : pcb.getLsbD 7 = true)
    (single : pcb.getLsbD 6 = false) (ss : Nat) (nad bLen : BitVec 8) (data : List (BitVec 8)) :
    Yields (T1At none line chain records) (putT1Block ss nad pcb bLen data) fun value s =>
      value = none ∧ T1At none line chain records s := by
  have notBoth : ¬ pcb &&& 0xC0 = 0xC0 := by
    intro same
    have bit := congrArg (fun word => word.getLsbD 6) same
    simp only [BitVec.getLsbD_and, single, Bool.false_and] at bit
    exact absurd bit (by decide)
  rw [putT1Block, if_neg notBoth, ack, if_pos rfl]
  refine (yields_putHere _ _ _).bind fun _ => (yields_putHere _ _ _).bind fun _ => ?_
  refine (yields_writePcapPacket _ _ _).bind fun _ => yields_pure none fun s known => ⟨rfl, ?_⟩
  rwa [if_neg (by decide), List.append_nil] at known

end Steps

end Iso7816

end SigrokDecode
