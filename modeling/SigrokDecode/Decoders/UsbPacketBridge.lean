import SigrokDecode.Decoders.UsbPacket
import SigrokDecode.Decoders.UsbSignalling
import SigrokDecode.Session.PythonBridge

/-!
# USB packets from the Python decoder

`usb_packet_c` takes bits as bytes, and the Python decoder `usb_signalling` gives them as texts.
-/

set_option linter.dupNamespace false

namespace SigrokDecode

open Foundation List

def literal (text : String) : List UInt8 :=
  text.toList.map fun c => UInt8.ofNat c.toNat

def UsbSym.name : UsbSym → String
  | .j => "J"
  | .k => "K"
  | .se0 => "SE0"
  | .se1 => "SE1"
  | .fsJ => "J"
  | .lsJ => "J"

/-- The names in `symbols`. -/
def UsbSym.pyName : UsbSym → String
  | .fsJ => "FS_J"
  | .lsJ => "LS_J"
  | symbol => symbol.name

/-- The commands of both decoders. -/
def UsbSigProto.cmdText : UsbSigProto → List UInt8
  | .sop => literal "SOP"
  | .bit _ => literal "BIT"
  | .stuffBit => literal "STUFF BIT"
  | .sym _ => literal "SYM"
  | .eop => literal "EOP"
  | .err => literal "ERR"
  | .reset => literal "RESET"
  | .keepAlive => literal "KEEP ALIVE"

/-- The last arguments of `c_proto` in `usb_signalling_c`. -/
def UsbSigProto.cFields : UsbSigProto → List ProtoField
  | .bit value => [.u8 (if value then 1 else 0)]
  | .sym symbol => [.str (.live (literal symbol.name))]
  | _ => []

def UsbSigProto.cCall (proto : UsbSigProto) : UpperCall :=
  ⟨.live proto.cmdText, proto.cFields⟩

/-- The values that the methods of `usb_signalling` put. -/
def UsbSigProto.pyValue : UsbSigProto → PyItem
  | .bit value => .str (some (literal (if value then "1" else "0")))
  | .sym symbol => .str (some (literal symbol.pyName))
  | _ => .none

def UsbSigProto.pyOutput (proto : UsbSigProto) : PyOutput :=
  { sequence := .list, cmd := .str (some proto.cmdText), values := [proto.pyValue] }

/-- `fields[0]`, if it is a byte. -/
def firstByte : List ProtoField → Option (BitVec 8)
  | .u8 value :: _ => some value.toBitVec
  | _ => none

/-- The comparisons of the command; there is no defined behaviour with a pointer to freed
memory. -/
def UpperCall.usbCommand (call : UpperCall) : Option UsbCommand :=
  match call.cmd with
  | .freed => none
  | .live cmd =>
      some (
        if cmd = literal "SOP" then .sop
        else if cmd = literal "BIT" then .bit (firstByte call.fields)
        else if cmd = literal "EOP" then .eop
        else if cmd = literal "ERR" then .err
        else .other)

/-- A call with its sample numbers. -/
structure TimedCall where
  ss : Nat
  es : Nat
  call : UpperCall

namespace UsbPktState

def decodeCalls (s : UsbPktState) : List TimedCall → Option UsbPktState
  | [] => some s
  | timed :: rest =>
      timed.call.usbCommand.bind fun command =>
        (s.decodeUpper timed.ss timed.es command).decodeCalls rest

end UsbPktState

/-- The calls that come from `usb_signalling_c`. -/
def callsFromC (outs : List UsbSigOut) : List TimedCall :=
  outs.map fun out => ⟨out.ss, out.es, out.proto.cCall⟩

/-- The calls that come from the Python decoder. -/
def callsFromPython (keeps : List UInt8 → Bool) (outs : List UsbSigOut) : List TimedCall :=
  outs.map fun out => ⟨out.ss, out.es, bridgeOutput keeps out.proto.pyOutput⟩

/-- The bits of the packets in such an output, from `SOP` to `EOP` or `ERR`; `inside` are those of
a packet that has begun. -/
def signalledPackets (inside : Option (List Bool)) : List UsbSigOut → List (List Bool)
  | [] => []
  | out :: outs =>
      match inside, out.proto with
      | none, .sop => signalledPackets (some []) outs
      | none, _ => signalledPackets none outs
      | some bits, .bit value => signalledPackets (some (bits ++ [value])) outs
      | some bits, .eop => bits :: signalledPackets none outs
      | some bits, .err => bits :: signalledPackets none outs
      | some bits, _ => signalledPackets (some bits) outs

/-- A packet too short for the synchronisation, or without a one in it. -/
def Silent (bits : List Bool) : Prop :=
  8 ≤ bits.length → bits.take 8 = List.replicate 8 false

/-- The command that the decoder sees. -/
def UsbSigProto.command : UsbSigProto → UsbCommand
  | .sop => .sop
  | .bit value => .bit (some (if value then 1#8 else 0#8))
  | .eop => .eop
  | .err => .err
  | _ => .other

def UsbCommand.withoutByte : UsbCommand → UsbCommand
  | .bit _ => .bit none
  | command => command

theorem usbCommand_cCall (proto : UsbSigProto) : proto.cCall.usbCommand = some proto.command := by
  cases proto with
  | bit value =>
      cases value with
      | false => rfl
      | true => rfl
  | sym symbol => rfl
  | sop => rfl
  | stuffBit => rfl
  | eop => rfl
  | err => rfl
  | reset => rfl
  | keepAlive => rfl

theorem usbCommand_without_byte {cmd : List UInt8} (fields : List ProtoField)
    (none : firstByte fields = none) :
    UpperCall.usbCommand ⟨.live cmd, fields⟩ = UpperCall.usbCommand ⟨.live cmd, []⟩ := by
  unfold UpperCall.usbCommand
  dsimp only
  rw [none]
  rfl

section Bridge

variable {keeps : List UInt8 → Bool}

theorem firstByte_bridgeItems (proto : UsbSigProto) :
    firstByte (bridgeItems keeps 0 [proto.pyValue]) = none := by
  cases proto with
  | bit value => rfl
  | sym symbol => rfl
  | sop => rfl
  | stuffBit => rfl
  | eop => rfl
  | err => rfl
  | reset => rfl
  | keepAlive => rfl

theorem usbCommand_pyOutput {proto : UsbSigProto} (kept : keeps proto.cmdText = true) :
    (bridgeOutput keeps proto.pyOutput).usbCommand = some proto.command.withoutByte := by
  have call : bridgeOutput keeps proto.pyOutput =
      ⟨.live (cString proto.cmdText), bridgeItems keeps 0 [proto.pyValue]⟩ :=
    congrArg (UpperCall.mk · _) (if_pos kept)
  rw [call, usbCommand_without_byte _ (firstByte_bridgeItems proto)]
  cases proto with
  | bit value => rfl
  | sym symbol => rfl
  | sop => rfl
  | stuffBit => rfl
  | eop => rfl
  | err => rfl
  | reset => rfl
  | keepAlive => rfl

theorem usbCommand_freed {proto : UsbSigProto} (given : keeps proto.cmdText = false) :
    (bridgeOutput keeps proto.pyOutput).usbCommand = none := by
  have call : bridgeOutput keeps proto.pyOutput = ⟨.freed, bridgeItems keeps 0 [proto.pyValue]⟩ :=
    congrArg (UpperCall.mk · _) (if_neg (by rw [given]; exact Bool.false_ne_true))
  rw [call]
  rfl

end Bridge

namespace UsbPktState

/-- The annotations of the first state are the first ones of the second. -/
def Extends (later earlier : UsbPktState) : Prop :=
  earlier.anns <+: later.anns

theorem Extends.refl (s : UsbPktState) : s.Extends s := prefix_rfl

theorem Extends.trans {first second third : UsbPktState} (later : third.Extends second)
    (earlier : second.Extends first) : third.Extends first :=
  IsPrefix.trans earlier later

variable (s : UsbPktState)

theorem extends_put (ss es : Nat) (field : UsbPktField) : (s.put ss es field).Extends s :=
  prefix_append _ _

theorem extends_putBits (first last : Nat) (field : UsbPktField) :
    (s.putBits first last field).Extends s :=
  extends_put s _ _ _

theorem extends_putPacket (field : UsbPktField) : (s.putPacket field).Extends s :=
  extends_put s _ _ _

theorem extends_handleToken (pid : UsbPid) : (s.handleToken pid).Extends s := by
  unfold handleToken
  split
  · exact extends_putPacket s _
  · split
    · refine Extends.trans (extends_putPacket _ _) ?_
      refine Extends.trans (extends_putBits _ _ _ _) ?_
      exact extends_putBits s _ _ _
    · dsimp only
      refine Extends.trans (extends_putPacket _ _) ?_
      refine Extends.trans (extends_putBits _ _ _ _) ?_
      refine Extends.trans (extends_putBits _ _ _ _) ?_
      exact extends_putBits s _ _ _

theorem extends_foldl_putDataByte (indices : List Nat) :
    (indices.foldl putDataByte s).Extends s := by
  induction indices generalizing s with
  | nil => exact Extends.refl s
  | cons i indices ih =>
      exact Extends.trans (ih _) (extends_putBits s _ _ _)

theorem extends_handleData (pid : UsbPid) : (s.handleData pid).Extends s := by
  unfold handleData
  split
  · exact extends_putPacket s _
  · dsimp only
    refine Extends.trans (extends_putPacket _ _) ?_
    refine Extends.trans (extends_putBits _ _ _ _) ?_
    exact extends_foldl_putDataByte s _

theorem extends_handlePid (pid : UsbPid) : (s.handlePid pid).Extends s := by
  have named := extends_putBits s 8 15 (.pid pid)
  unfold handlePid
  dsimp only
  split
  · exact Extends.trans (extends_handleToken _ _) named
  · exact Extends.trans (extends_handleData _ _) named
  · exact Extends.trans (extends_putPacket _ _) named
  · exact Extends.trans (extends_putPacket _ _) named

variable {s : UsbPktState}

theorem extends_handlePacket (long : 8 ≤ s.bits.length) : s.handlePacket.Extends (s.putBits 0 7
        (if s.bits.take 8 = syncBits then .syncOk else .syncErr (s.bits.take 8))) := by
  unfold handlePacket
  rw [if_neg (Nat.not_lt.mpr long)]
  dsimp only
  generalize s.putBits 0 7
    (if s.bits.take 8 = syncBits then .syncOk else .syncErr (s.bits.take 8)) = first
  split
  · exact extends_putPacket _ _
  · split
    · exact extends_putPacket _ _
    · split
      · refine Extends.trans (extends_putPacket _ _) ?_
        exact extends_putBits _ _ _ _
      · exact extends_handlePid _ _

theorem extends_handlePacket_self (s : UsbPktState) : s.handlePacket.Extends s := by
  by_cases long : 8 ≤ s.bits.length
  · exact Extends.trans (extends_handlePacket long) (extends_putBits s _ _ _)
  · unfold handlePacket
    rw [if_pos (Nat.lt_of_not_le long)]
    exact Extends.refl s

theorem extends_pushBit (s : UsbPktState) (ss es : Nat) (bit : Bool) :
    (s.pushBit ss es bit).Extends s := by
  unfold pushBit
  split
  · exact Extends.refl s
  · exact Extends.refl s

theorem extends_decodeUpper (s : UsbPktState) (ss es : Nat) (command : UsbCommand) :
    (s.decodeUpper ss es command).Extends s := by
  unfold decodeUpper
  cases s.state with
  | waitSop =>
      cases command with
      | sop => exact Extends.refl s
      | bit value => exact Extends.refl s
      | eop => exact Extends.refl s
      | err => exact Extends.refl s
      | other => exact Extends.refl s
  | getBit =>
      cases command with
      | sop => exact Extends.refl s
      | bit value => exact extends_pushBit s ss es _
      | eop => exact extends_handlePacket_self { s with esPacket := es }
      | err => exact extends_handlePacket_self { s with esPacket := es }
      | other => exact Extends.refl s

def decodeCommands (s : UsbPktState) (view : UsbCommand → UsbCommand) : List UsbSigOut → UsbPktState
  | [] => s
  | out :: outs =>
      (s.decodeUpper out.ss out.es (view out.proto.command)).decodeCommands view outs

theorem extends_decodeCommands (s : UsbPktState) (view : UsbCommand → UsbCommand)
    (outs : List UsbSigOut) : (s.decodeCommands view outs).Extends s := by
  induction outs generalizing s with
  | nil => exact Extends.refl s
  | cons out outs ih =>
      exact Extends.trans (ih _) (extends_decodeUpper s _ _ _)

theorem decodeCalls_callsFromC (s : UsbPktState) (outs : List UsbSigOut) :
    s.decodeCalls (callsFromC outs) = some (s.decodeCommands id outs) := by
  induction outs generalizing s with
  | nil => rfl
  | cons out outs ih =>
      unfold callsFromC at ih ⊢
      rw [map_cons, decodeCalls, usbCommand_cCall, Option.bind_some, ih]
      rfl

theorem decodeCalls_callsFromPython {keeps : List UInt8 → Bool} (s : UsbPktState)
    (outs : List UsbSigOut) :
    s.decodeCalls (callsFromPython keeps outs) =
      if ∀ out ∈ outs, keeps out.proto.cmdText = true then
        some (s.decodeCommands UsbCommand.withoutByte outs)
      else
        none := by
  induction outs generalizing s with
  | nil => exact (if_pos fun out member => absurd member not_mem_nil).symm
  | cons out outs ih =>
      unfold callsFromPython at ih ⊢
      rw [map_cons, decodeCalls]
      dsimp only
      cases kept : keeps out.proto.cmdText with
      | true =>
          rw [usbCommand_pyOutput kept, Option.bind_some, ih]
          refine if_congr ?_ rfl rfl
          rw [forall_mem_cons, and_iff_right kept]
      | false =>
          rw [usbCommand_freed kept, Option.bind_none, if_neg]
          intro all
          exact Bool.false_ne_true (kept.symm.trans (all out mem_cons_self))

/-- The decoder over the bridge: its bits are zeros. -/
def blank (s : UsbPktState) : UsbPktState :=
  { s with bits := List.replicate s.bits.length false }

/-- A packet without synchronisation is reported by its first bits and its length. -/
theorem handlePacket_unsynchronised (long : 8 ≤ s.bits.length) (other : s.bits.take 8 ≠ syncBits) :
    s.handlePacket = (s.putBits 0 7 (.syncErr (s.bits.take 8))).putPacket
        (.invalid (if s.bits.length < 16 then .shorterThan16 else .syncError)) := by
  unfold handlePacket
  rw [if_neg (Nat.not_lt.mpr long)]
  dsimp only
  rw [if_neg other]
  change (if s.bits.length < 16 then _ else _) = _
  split
  · rfl
  · rfl

theorem zeros_ne_syncBits : replicate 8 false ≠ syncBits := by decide

theorem take_blank (long : 8 ≤ s.bits.length) : s.blank.bits.take 8 = replicate 8 false := by
  change (replicate s.bits.length false).take 8 = _
  rw [take_replicate, Nat.min_eq_left long]

theorem length_blank (s : UsbPktState) : s.blank.bits.length = s.bits.length := length_replicate

def clear (s : UsbPktState) : UsbPktState :=
  { s with bits := [], bitSs := [], bitEs := [], state := .waitSop }

theorem endPacket_eq (s : UsbPktState) (es : Nat) :
    s.endPacket es = ({ s with esPacket := es } : UsbPktState).handlePacket.clear := rfl

theorem handlePacket_blank (silent : Silent s.bits) :
    s.blank.handlePacket.clear = s.handlePacket.clear := by
  by_cases long : 8 ≤ s.bits.length
  · have zeros := silent long
    have blankZeros := take_blank long
    have plain := handlePacket_unsynchronised long (by rw [zeros]; exact zeros_ne_syncBits)
    have blanked := handlePacket_unsynchronised (s := s.blank)
      (by rw [length_blank]; exact long) (by rw [blankZeros]; exact zeros_ne_syncBits)
    rw [blankZeros, length_blank] at blanked
    rw [zeros] at plain
    rw [plain, blanked]
    rfl
  · have short := Nat.lt_of_not_le long
    have blankShort : s.blank.bits.length < 8 := (length_blank s).symm ▸ short
    unfold handlePacket
    rw [if_pos short, if_pos blankShort]
    rfl

theorem endPacket_blank (silent : Silent s.bits) (es : Nat) :
    s.blank.endPacket es = (s.endPacket es).blank := by
  rw [endPacket_eq, endPacket_eq]
  exact handlePacket_blank (s := { s with esPacket := es }) silent

theorem endPacket_blank_differs (told : ¬Silent s.bits) (es : Nat) :
    ∃ field other, field ≠ other ∧ s.anns ++ [field] <+: (s.endPacket es).anns ∧
      s.anns ++ [other] <+: (s.blank.endPacket es).anns := by
  unfold Silent at told
  rw [not_forall] at told
  obtain ⟨long, ones⟩ := told
  have plain := extends_handlePacket (s := { s with esPacket := es }) long
  have blanked := extends_handlePacket (s := ({ s with esPacket := es } : UsbPktState).blank)
    (by rw [length_blank]; exact long)
  rw [take_blank (s := { s with esPacket := es }) long, if_neg zeros_ne_syncBits] at blanked
  refine ⟨_, _, ?_, plain, blanked⟩
  intro same
  have field := congrArg UsbPktAnn.field same
  dsimp only at field
  split at field
  · cases field
  · exact ones (UsbPktField.syncErr.inj field)

/-- Where the decoder stands among the packets; it holds no more than 4096 bits. -/
def Tracks (s : UsbPktState) (inside : Option (List Bool)) : Prop :=
  match s.state with
  | .waitSop => inside = none
  | .getBit => ∃ bits, inside = some bits ∧ s.bits = bits.take usbPktMaxBits

theorem silent_take_iff (bits : List Bool) : Silent (bits.take usbPktMaxBits) ↔ Silent bits := by
  unfold Silent
  have front : (bits.take usbPktMaxBits).take 8 = bits.take 8 := by
    rw [take_take]
    rfl
  rw [front, length_take]
  refine imp_congr ?_ Iff.rfl
  unfold usbPktMaxBits
  omega

theorem pushBit_take {bits : List Bool}
    (same : s.bits = bits.take usbPktMaxBits) (ss es : Nat) (bit : Bool) :
    (s.pushBit ss es bit).bits = (bits ++ [bit]).take usbPktMaxBits := by
  unfold pushBit
  rw [same, length_take]
  split
  · rename_i room
    have short : bits.length < usbPktMaxBits := by omega
    change bits.take usbPktMaxBits ++ [bit] = _
    rw [take_of_length_le (Nat.le_of_lt short), take_of_length_le]
    rw [length_append]
    exact short
  · rename_i full
    have long : usbPktMaxBits ≤ bits.length := by omega
    rw [same, take_append_of_le_length long]

theorem pushBit_blank (s : UsbPktState) (ss es : Nat) (bit : Bool) :
    s.blank.pushBit ss es false = (s.pushBit ss es bit).blank := by
  unfold pushBit
  rw [length_blank]
  split
  · unfold blank
    dsimp only
    rw [length_append, length_singleton, replicate_succ']
  · rfl

def SameReports (left right : UsbPktState) : Prop :=
  left.anns = right.anns ∧ left.protos = right.protos

theorem reports_differ {left right earlierLeft earlierRight : UsbPktState}
    (later : left.Extends earlierLeft) (other : right.Extends earlierRight)
    {anns : List UsbPktAnn} {first second : UsbPktAnn} (differ : first ≠ second)
    (leftFirst : anns ++ [first] <+: earlierLeft.anns)
    (rightFirst : anns ++ [second] <+: earlierRight.anns) : ¬SameReports left right := by
  rintro ⟨same, -⟩
  obtain ⟨leftRest, leftWhole⟩ := leftFirst.trans later
  obtain ⟨rightRest, rightWhole⟩ := rightFirst.trans other
  rw [same, ← rightWhole, List.append_assoc, List.append_assoc] at leftWhole
  have heads := append_cancel_left leftWhole
  rw [singleton_append, singleton_append] at heads
  exact differ (List.cons.inj heads).1

theorem decodeUpper_waitSop (phase : s.state = .waitSop) (ss es : Nat) (command : UsbCommand) :
    s.decodeUpper ss es command =
      match command with
      | .sop => s.startPacket ss
      | _ => s := by
  unfold decodeUpper
  rw [phase]
  cases command with
  | sop => rfl
  | bit value => rfl
  | eop => rfl
  | err => rfl
  | other => rfl

theorem decodeUpper_getBit (phase : s.state = .getBit) (ss es : Nat) (command : UsbCommand) :
    s.decodeUpper ss es command =
      match command with
      | .bit value => s.pushBit ss es (value.getD 0 = 1#8)
      | .eop => s.endPacket es
      | .err => s.endPacket es
      | _ => s := by
  unfold decodeUpper
  rw [phase]
  cases command with
  | sop => rfl
  | bit value => rfl
  | eop => rfl
  | err => rfl
  | other => rfl

theorem pushBit_state (s : UsbPktState) (ss es : Nat) (bit : Bool) :
    (s.pushBit ss es bit).state = s.state := by
  unfold pushBit
  split
  · rfl
  · rfl

theorem endPacket_agree_iff {bits : List Bool}
    (same : s.bits = bits.take usbPktMaxBits) (es : Nat) (outs : List UsbSigOut)
    (later : SameReports ((s.endPacket es).decodeCommands id outs)
        ((s.endPacket es).blank.decodeCommands UsbCommand.withoutByte outs) ↔
      ∀ packet ∈ signalledPackets none outs, Silent packet) :
    SameReports ((s.endPacket es).decodeCommands id outs)
        ((s.blank.endPacket es).decodeCommands UsbCommand.withoutByte outs) ↔
      ∀ packet ∈ bits :: signalledPackets none outs, Silent packet := by
  rw [forall_mem_cons]
  by_cases silent : Silent bits
  · have here : Silent s.bits := by
      rw [same]
      exact (silent_take_iff bits).mpr silent
    rw [endPacket_blank here, and_iff_right silent]
    exact later
  · refine iff_of_false ?_ fun both => silent both.1
    have told : ¬Silent s.bits := by
      rw [same, silent_take_iff]
      exact silent
    obtain ⟨field, other, differ, left, right⟩ := endPacket_blank_differs told es
    exact reports_differ (extends_decodeCommands _ _ _) (extends_decodeCommands _ _ _) differ
      left right

theorem decodeCommands_agree_iff {inside : Option (List Bool)}
    (tracks : s.Tracks inside) (outs : List UsbSigOut) :
    SameReports (s.decodeCommands id outs) (s.blank.decodeCommands UsbCommand.withoutByte outs) ↔
      ∀ packet ∈ signalledPackets inside outs, Silent packet := by
  induction outs generalizing s inside with
  | nil => exact iff_of_true ⟨rfl, rfl⟩ fun packet member => absurd member not_mem_nil
  | cons out outs ih =>
      obtain ⟨ss, es, proto⟩ := out
      have standing := tracks
      unfold Tracks at tracks
      unfold decodeCommands signalledPackets
      cases phase : s.state with
      | waitSop =>
          rw [phase] at tracks
          subst tracks
          rw [decodeUpper_waitSop phase, decodeUpper_waitSop (s := s.blank) phase]
          cases proto with
          | sop => exact ih (s := s.startPacket ss) ⟨[], rfl, rfl⟩
          | bit value => exact ih standing
          | stuffBit => exact ih standing
          | sym symbol => exact ih standing
          | eop => exact ih standing
          | err => exact ih standing
          | reset => exact ih standing
          | keepAlive => exact ih standing
      | getBit =>
          rw [phase] at tracks
          obtain ⟨bits, rfl, same⟩ := tracks
          rw [decodeUpper_getBit phase, decodeUpper_getBit (s := s.blank) phase]
          cases proto with
          | sop => exact ih standing
          | bit value =>
              have byte : decide ((some (if value then 1#8 else 0#8)).getD 0 = 1#8) = value := by
                cases value with
                | false => rfl
                | true => rfl
              have pushed : (s.pushBit ss es value).Tracks (some (bits ++ [value])) := by
                unfold Tracks
                rw [pushBit_state, phase]
                exact ⟨_, rfl, pushBit_take same ss es value⟩
              have later := ih pushed
              rw [← pushBit_blank] at later
              change SameReports ((s.pushBit ss es (decide _)).decodeCommands id outs) _ ↔ _
              rw [byte]
              exact later
          | stuffBit => exact ih standing
          | sym symbol => exact ih standing
          | eop => exact endPacket_agree_iff same es outs (ih rfl)
          | err => exact endPacket_agree_iff same es outs (ih rfl)
          | reset => exact ih standing
          | keepAlive => exact ih standing

end UsbPktState

/-- What `usb_packet_c` puts out. -/
def usbReports (calls : List TimedCall) : Option (List UsbPktAnn × List UsbPktProto) :=
  (UsbPktState.idle.decodeCalls calls).map fun s => (s.anns, s.protos)

/-- Both lower decoders give the same packets exactly if all of them are silent and no command is
freed. -/
theorem usbReports_agree_iff (keeps : List UInt8 → Bool) (outs : List UsbSigOut) :
    usbReports (callsFromPython keeps outs) = usbReports (callsFromC outs) ↔
      (∀ out ∈ outs, keeps out.proto.cmdText = true) ∧
        ∀ packet ∈ signalledPackets none outs, Silent packet := by
  unfold usbReports
  rw [UsbPktState.decodeCalls_callsFromC, UsbPktState.decodeCalls_callsFromPython]
  split
  · rename_i kept
    rw [and_iff_right kept,
      ← UsbPktState.decodeCommands_agree_iff (s := UsbPktState.idle) rfl outs, Option.map_some,
      Option.map_some, Option.some_inj, Prod.mk.injEq]
    exact and_congr eq_comm eq_comm
  · rename_i freed
    exact iff_of_false nofun fun both => freed both.1

/-- Over the bridge an output arrives as it should exactly if it is bridgeable, and so do the bits
of USB packets. -/
theorem pythonBridge_iff (keeps : List UInt8 → Bool) (types : Nat → CFieldType)
    (output : PyOutput) (outs : List UsbSigOut) :
    (Arrives types output (bridgeOutput keeps output) ↔ Bridgeable keeps types output) ∧
      (usbReports (callsFromPython keeps outs) = usbReports (callsFromC outs) ↔
        (∀ out ∈ outs, keeps out.proto.cmdText = true) ∧
          ∀ packet ∈ signalledPackets none outs, Silent packet) :=
  ⟨arrives_iff types output, usbReports_agree_iff keeps outs⟩

/-- A one arrives as a text, and the decoder takes it for a zero. -/
theorem pythonBit_misread : ¬Arrives (fun _ => .u8) (UsbSigProto.bit true).pyOutput
        (bridgeOutput (fun _ => true) (UsbSigProto.bit true).pyOutput) ∧
      (bridgeOutput (fun _ => true) (UsbSigProto.bit true).pyOutput).usbCommand = some (.bit none) ∧
        (UsbSigProto.bit true).cCall.usbCommand = some (.bit (some 1#8)) := by
  refine ⟨fun arrives => ?_, rfl, rfl⟩
  have text := (arrives.each 0 _ _ rfl rfl).1
  cases text

end SigrokDecode
