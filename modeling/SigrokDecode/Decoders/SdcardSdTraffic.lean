import SigrokDecode.Decoders.SdcardSdTokens

/-!
# Commands and responses on the CMD line

When the reports of `sdcard_sd_c` are what the traffic is.
-/

namespace SigrokDecode

open List

namespace SdcardSd

section Growth

variable (s : SdcardSd) (cmdPin : Bool)

theorem put_grows (out : SdOut) : s.outs <+: (s.put out).outs := prefix_append _ _

theorem handler_grows (fields : List (Nat × Nat × String)) (text : String) (next : Nat) :
    s.outs <+: (s.handler fields text next).outs :=
  (prefix_append _ _).trans (prefix_append _ _)

theorem handleCmdState_grows (index : Nat) : s.outs <+: (s.handleCmdState index).outs := by
  unfold handleCmdState
  split
  case h_11 => exact (prefix_append _ _).trans (prefix_append _ _)
  all_goals first | exact s.handler_grows _ _ _ | exact prefix_refl _

theorem handleAcmdState_grows (index : Nat) : s.outs <+: (s.handleAcmdState index).outs := by
  unfold handleAcmdState
  split <;> first | exact s.handler_grows _ _ _ | exact prefix_refl _

theorem leaveAcmd_outs (index : Nat) : (s.leaveAcmd index).outs = s.outs := by
  rw [leaveAcmd]
  split <;> rfl

theorem enterHandler_grows : s.outs <+: s.enterHandler.outs := by
  rw [enterHandler]
  split
  · exact prefix_refl _
  · split
    · split
      · exact prefix_refl _
      · exact prefix_append _ _
    · exact prefix_append _ _

theorem handleCmd_grows : s.outs <+: s.handleCmd.outs :=
  (prefix_append _ _).trans s.handleCommonTokenFields.enterHandler_grows

theorem pushBit_outs : (s.pushBit cmdPin).outs = s.outs := by
  rw [pushBit]
  split <;> rfl

theorem getCommandToken_grows : s.outs <+: (s.getCommandToken cmdPin).outs := by
  rw [getCommandToken, ← s.pushBit_outs cmdPin]
  split
  · exact prefix_refl _
  · split
    · exact handleCmd_grows _
    · exact prefix_refl _

theorem handleResponse_grows {annotate : SdcardSd → SdcardSd}
    (grows : ∀ s : SdcardSd, s.outs <+: (annotate s).outs) :
    s.outs <+: (s.handleResponse annotate cmdPin).outs := by
  rw [handleResponse, ← s.pushBit_outs cmdPin]
  split
  · exact prefix_refl _
  · split
    · exact (prefix_append _ _).trans (grows (handleCommonTokenFields _))
    · exact handleCmd_grows _

theorem putRegister_grows : s.outs <+: s.putRegister.outs := by
  rw [putRegister]
  split
  · exact prefix_append _ _
  · split
    · exact prefix_append _ _
    · exact prefix_refl _

theorem handleResponseR2_grows : s.outs <+: (s.handleResponseR2 cmdPin).outs := by
  rw [handleResponseR2, ← s.pushBit_outs cmdPin]
  split
  · exact prefix_refl _
  · exact (((put_grows _ _).trans (put_grows _ _)).trans (put_grows _ _)).trans
      (putRegister_grows _)

theorem handleResponseR3_grows : s.outs <+: (s.handleResponseR3 cmdPin).outs := by
  rw [handleResponseR3, ← s.pushBit_outs cmdPin]
  split
  · exact prefix_refl _
  · exact ((put_grows _ _).trans (put_grows _ _)).trans (prefix_append _ _)

theorem handleState_grows : s.outs <+: (s.handleState cmdPin).outs := by
  have two : ∀ (s : SdcardSd) (fields : List (Nat × Nat × String)) (out : SdOut),
      s.outs <+: ((s.puta fields).put out).outs := fun s fields out =>
    (prefix_append _ _).trans (prefix_append _ _)
  have back : ∀ (s : SdcardSd) (fields : List (Nat × Nat × String)) (out : SdOut),
      s.outs <+: ((s.put out).puta fields).outs := fun s fields out =>
    (prefix_append _ _).trans (prefix_append _ _)
  have either : ∀ {p : Prop} [Decidable p] {t u : SdcardSd}, s.outs <+: t.outs →
      s.outs <+: u.outs → s.outs <+: (if p then t else u).outs := by
    intro p _ t u first second
    by_cases holds : p
    · rwa [if_pos holds]
    · rwa [if_neg holds]
  rw [handleState]
  refine either (s.getCommandToken_grows cmdPin) (either ?_ (either ?_ ?_))
  · refine either ?_ (s.handleCmdState_grows _)
    rw [leaveAcmd_outs]
    exact s.handleCmdState_grows _
  · dsimp only
    rw [leaveAcmd_outs]
    exact s.handleAcmdState_grows _
  refine either (prefix_refl _) (either (prefix_refl _) (either ?_ (either ?_ ?_)))
  · exact s.handleResponse_grows cmdPin fun s => (back s _ _).trans (put_grows _ _)
  · exact s.handleResponse_grows cmdPin fun s => two s _ _
  refine either (s.handleResponseR2_grows cmdPin) (either (s.handleResponseR3_grows cmdPin) ?_)
  refine either ?_ (either ?_ (prefix_refl _))
  · exact s.handleResponse_grows cmdPin fun s => two s _ _
  · exact s.handleResponse_grows cmdPin fun s => back s _ _

theorem clock_grows : s.outs <+: (s.clock cmdPin).outs := by
  rw [clock]
  split
  · exact prefix_refl _
  · exact s.handleState_grows cmdPin

theorem foldl_grows (clocks : List Bool) : s.outs <+: (clocks.foldl clock s).outs := by
  induction clocks generalizing s with
  | nil => exact prefix_refl _
  | cons cmdPin clocks ih =>
      exact (s.clock_grows cmdPin).trans (ih _)

theorem foldl_items (clocks : List Bool) :
    ∃ more, sdItems (clocks.foldl clock s).outs = sdItems s.outs ++ more := by
  obtain ⟨new, grown⟩ := s.foldl_grows clocks
  exact ⟨sdItems new, by rw [← grown, sdItems_append]⟩

end Growth

def Next (s s' : SdcardSd) (ok : SdItem → Prop) : Prop :=
  sdItems s'.outs = sdItems s.outs ∨
    ∃ item more, ok item ∧ sdItems s'.outs = sdItems s.outs ++ item :: more

section Next

variable {s s' : SdcardSd} {ok : SdItem → Prop} {cmdPin : Bool}

theorem Next.ne (next : Next s s' ok) {item : SdItem} (other : ¬ok item) (rest : List SdItem) :
    sdItems s'.outs ≠ sdItems s.outs ++ item :: rest := by
  intro same
  rcases next with nothing | ⟨first, more, fine, items⟩
  · cases self_eq_append_right.mp (nothing.symm.trans same)
  · cases append_cancel_left (items.symm.trans same)
    exact other fine

theorem Next.of_items {item : SdItem} {items : List SdItem} (fine : ok item)
    (put : sdItems s'.outs = sdItems s.outs ++ item :: items) (clocks : List Bool) :
    Next s (clocks.foldl clock s') ok := by
  obtain ⟨more, grown⟩ := s'.foldl_items clocks
  refine Or.inr ⟨item, items ++ more, fine, ?_⟩
  rw [grown, put, List.append_assoc, cons_append]

theorem next_foldl (property : SdcardSd → Prop) (step : ∀ s cmdPin, property s →
      (property (s.clock cmdPin) ∧ sdItems (s.clock cmdPin).outs = sdItems s.outs) ∨
        ∃ item more, ok item ∧ sdItems (s.clock cmdPin).outs = sdItems s.outs ++ item :: more)
    (initial : property s) (clocks : List Bool) : Next s (clocks.foldl clock s) ok := by
  induction clocks generalizing s with
  | nil => exact Or.inl rfl
  | cons cmdPin clocks ih =>
      rcases step s cmdPin initial with ⟨still, same⟩ | ⟨item, more, fine, put⟩
      · have rest := ih still
        rw [Next, same] at rest
        exact rest
      · exact Next.of_items fine put clocks

theorem next_r2 (state : s.state = waiting (some .r2)) (clocks : List Bool) :
    Next s (clocks.foldl clock s) (· = .response .r2) := by
  refine next_foldl (fun s => s.state = waiting (some .r2)) ?_ state clocks
  intro s cmdPin state
  rw [clock]
  split
  · exact Or.inl ⟨state, rfl⟩
  rw [handleState_waiting state, receive, handleResponseR2]
  split
  · refine Or.inl ⟨?_, congrArg sdItems (s.pushBit_outs cmdPin)⟩
    rw [pushBit]
    split <;> exact state
  · refine Or.inr ⟨.response .r2, [], rfl, ?_⟩
    refine (sdItems_putRegister _).trans ?_
    rw [sdItems_put, sdItems_put, sdItems_put, pushBit_outs]
    exact congrArg (· ++ _) ((List.append_nil _).trans (List.append_nil _))

theorem next_command (state : s.state = waiting none) (clocks : List Bool) :
    Next s (clocks.foldl clock s) (fun item => ∀ format, item ≠ .response format) := by
  refine next_foldl (fun s => s.state = waiting none) ?_ state clocks
  intro s cmdPin state
  rw [clock]
  split
  · exact Or.inl ⟨state, rfl⟩
  rw [handleState_waiting state, receive, getCommandToken]
  have outs := s.pushBit_outs cmdPin
  split
  · refine Or.inl ⟨?_, congrArg sdItems outs⟩
    rw [pushBit]
    split <;> exact state
  split
  next host =>
    obtain ⟨new, grown⟩ := (s.pushBit cmdPin).handleCommonTokenFields.enterHandler_grows
    have fields := fields_host host
    rw [outs] at fields
    have after := congrArg sdItems grown
    rw [sdItems_append, fields, List.append_assoc, singleton_append] at after
    have other : ∀ isAcmd index arg crc format,
        SdItem.token isAcmd index arg crc ≠ .response format := by simp
    exact Or.inr ⟨_, _, other _ _ _ _, after.symm⟩
  next card =>
    exact Or.inl ⟨rfl, congrArg sdItems outs⟩

end Next

def misread : List Nat := [0, 2, 3, 7, 8, 9, 10]

/-- The ACMDs behind which the mode is left. -/
def leaves : List Nat := [0, 2, 3, 6, 7, 8, 9, 10, 13, 16, 41, 51]

/-- Without its response the next command is taken for it. -/
def swallows (isAcmd : Bool) (index : Nat) : Prop :=
  index ∈ [2, 9, 10] ∨ (isAcmd = true ∧ index = 41)

end SdcardSd

open SdcardSd in
structure SdExchange.Met (exchange : SdExchange) (isAcmd : Bool) (rest : List SdExchange) :
    Prop where
  answer : isAcmd = true → exchange.command.index ∈ misread → exchange.response = none
  mode : rest ≠ [] → isAcmd = true → exchange.command.index ∈ leaves
  answered : rest ≠ [] → swallows isAcmd exchange.command.index → exchange.response ≠ none

def SdMet : Bool → List SdExchange → Prop
  | _, [] => True
  | isAcmd, exchange :: rest =>
      exchange.Met isAcmd rest ∧ SdMet (sdNext isAcmd exchange.command.index) rest

namespace SdcardSd

section Traffic

variable {s : SdcardSd} {isAcmd : Bool} {index : Nat}

theorem commandStays_eq_sdNext :
    commandStays isAcmd index = sdNext isAcmd index ↔ (isAcmd = true → index ∈ leaves) := by
  cases isAcmd with
  | false =>
      refine iff_of_true ?_ nofun
      rw [commandStays, sdNext]
      simp only [Bool.false_eq_true, false_and, or_false, Bool.not_false, Bool.true_and]
      rfl
  | true =>
      have next : sdNext true index = false := rfl
      rw [next, commandStays, decide_eq_false_iff_not, not_or, not_and]
      constructor
      · intro left _
        exact not_not.mp (left.2 rfl)
      · intro left
        have left := left rfl
        refine ⟨fun app => ?_, fun _ => not_not.mpr left⟩
        rw [app] at left
        exact absurd left (by decide)

theorem commandWaits_swallows : swallows isAcmd index ↔
      (commandWaits isAcmd index = some .r2 ∨ commandWaits isAcmd index = some .r3) := by
  rw [swallows, commandWaits]
  simp only [mem_cons, not_mem_nil, or_false]
  split_ifs <;> grind

/-- A response that is expected is read as such, but for some of the ACMDs. -/
theorem commandWaits_format {format : SdFormat} (expected : sdFormat isAcmd index = some format) :
    (commandWaits isAcmd index = some format ∧ ¬(isAcmd = true ∧ index ∈ misread)) ∨
      (isAcmd = true ∧ index ∈ misread ∧ format = .r1 ∧ (commandWaits isAcmd index = none ∨
        commandWaits isAcmd index = some .r2 ∨ commandWaits isAcmd index = some .r6 ∨
          commandWaits isAcmd index = some .r7)) := by
  rw [sdFormat] at expected
  rw [commandWaits, misread]
  simp only [mem_cons, not_mem_nil, or_false] at expected ⊢
  cases isAcmd with
  | true =>
      rw [if_pos rfl] at expected
      split_ifs at expected ⊢ <;> grind
  | false =>
      rw [if_neg Bool.false_ne_true] at expected
      split_ifs at expected ⊢ <;> grind

variable {waits : Option SdFormat}

theorem Reaches.ahead {s' s'' : SdcardSd} {items more : List SdItem}
    (reaches : Reaches s s' waits isAcmd items) :
    sdItems s''.outs = sdItems s.outs ++ (items ++ more) ↔
      sdItems s''.outs = sdItems s'.outs ++ more := by
  rw [reaches.items, List.append_assoc]

theorem met_iff {exchange : SdExchange} {rest : List SdExchange}
    (answer : isAcmd = true → exchange.command.index ∈ misread → exchange.response = none)
    (answered : swallows isAcmd exchange.command.index → exchange.response ≠ none) :
    exchange.Met isAcmd rest ↔ (rest ≠ [] → commandStays isAcmd exchange.command.index =
        sdNext isAcmd exchange.command.index) := by
  rw [commandStays_eq_sdNext]
  exact ⟨fun met => met.mode, fun mode => ⟨answer, mode, fun _ => answered⟩⟩

theorem next_r3 (state : s.state = waiting (some .r3)) (token : s.token = []) (command : SdCommand)
    (clocks : List Bool) :
    Next s ((command.bits ++ clocks).foldl clock s) (· = .response .r3) := by
  obtain ⟨rest, parts, length⟩ := command_bits command
  rw [foldl_append, parts, foldl_token _ state token (by rw [length_cons]; exact length)]
  have reaches : Reaches s ({ s with token := false :: true :: rest }.receive command.endBit
      (some .r3)) none s.isAcmd [.response .r3] := receive_r3 length
  refine Next.of_items ?_ reaches.items clocks
  rfl

theorem next_swallowed (state : s.state = waiting waits)
    (token : s.token = []) (swallow : waits = some .r2 ∨ waits = some .r3)
    (exchange : SdExchange) (clocks : List Bool) :
    Next s ((exchange.clocks ++ clocks).foldl clock s)
      (fun item => ∃ format, item = .response format) := by
  rcases swallow with rfl | rfl
  · rcases next_r2 state (exchange.clocks ++ clocks) with same | ⟨item, more, rfl, put⟩
    · exact Or.inl same
    · exact Or.inr ⟨_, more, ⟨_, rfl⟩, put⟩
  · rw [SdExchange.clocks, List.append_assoc, List.append_assoc]
    rcases next_r3 state token exchange.command _ with same | ⟨item, more, rfl, put⟩
    · exact Or.inl same
    · exact Or.inr ⟨_, more, ⟨_, rfl⟩, put⟩

theorem next_misread (state : s.state = waiting waits)
    (token : s.token = []) {response : SdResponse} (length : response.rest.length + 2 = 48)
    (wrong : waits = none ∨ waits = some .r2 ∨ waits = some .r6 ∨ waits = some .r7)
    (clocks : List Bool) :
    Next s ((response.clocks ++ clocks).foldl clock s) (· ≠ .response .r1) := by
  have read : ∀ format, waits = some format → format.length = 48 → format ≠ .r1 →
      Next s ((response.clocks ++ clocks).foldl clock s) (· ≠ .response .r1) := by
    intro format waits_eq whole other
    rw [foldl_append]
    have reaches := response_reaches (waits_eq ▸ state) token (length.trans whole.symm)
    exact Next.of_items (fun same => other (SdItem.response.inj same)) reaches.items clocks
  rcases wrong with rfl | rfl | rfl | rfl
  · rcases next_command state (response.clocks ++ clocks) with same | ⟨item, more, fine, put⟩
    · exact Or.inl same
    · exact Or.inr ⟨item, more, fine .r1, put⟩
  · rcases next_r2 state (response.clocks ++ clocks) with same | ⟨item, more, rfl, put⟩
    · exact Or.inl same
    · have other : SdItem.response .r2 ≠ .response .r1 := nofun
      exact Or.inr ⟨_, more, other, put⟩
  · exact read .r6 rfl rfl nofun
  · exact read .r7 rfl rfl nofun

theorem traffic_items (waits : Option SdFormat) {exchanges : List SdExchange}
    (valid : SdValid isAcmd exchanges) (state : s.state = waiting waits) (token : s.token = [])
    (notR2 : waits ≠ some .r2) (notR3 : waits ≠ some .r3) :
    sdItems ((exchanges.flatMap SdExchange.clocks).foldl clock s).outs =
        sdItems s.outs ++ sdExpected isAcmd exchanges ↔
      (exchanges ≠ [] → s.isAcmd = isAcmd) ∧ SdMet isAcmd exchanges := by
  induction exchanges generalizing s isAcmd waits with
  | nil => exact iff_of_true (List.append_nil _).symm ⟨absurd rfl, trivial⟩
  | cons exchange rest ih =>
      obtain ⟨answer, valid⟩ := valid
      have command := command_reaches state token notR2 notR3 exchange.command exchange.idle
      rw [flatMap_cons, SdExchange.clocks, List.append_assoc, foldl_append]
      generalize (exchange.command.bits ++ sdIdle exchange.idle).foldl clock s = s' at command ⊢
      rw [sdExpected, SdExchange.expected]
      by_cases mode : s.isAcmd = isAcmd
      · rw [mode] at command
        have flag := command.isAcmd
        rw [imp_iff_right (cons_ne_nil _ _), and_iff_right mode, SdMet]
        cases response : exchange.response with
        | none =>
            refine command.ahead.trans ?_
            rw [Option.elim_none, nil_append]
            by_cases swallow : swallows isAcmd exchange.command.index
            · cases rest with
              | nil =>
                  refine iff_of_true (List.append_nil _).symm ⟨?_, trivial⟩
                  exact ⟨fun _ _ => response, fun some => absurd rfl some,
                    fun some => absurd rfl some⟩
              | cons next rest =>
                  refine iff_of_false ?_ fun met =>
                    met.1.answered (cons_ne_nil _ _) swallow response
                  have other : ∀ isAcmd index arg crc,
                      ¬∃ format, SdItem.token isAcmd index arg crc = .response format := by
                    rintro isAcmd index arg crc ⟨format, same⟩
                    cases same
                  exact (next_swallowed command.state command.token
                    (commandWaits_swallows.mp swallow) next _).ne (other _ _ _ _) _
            · have kept := not_or.mp (commandWaits_swallows.not.mp swallow)
              rw [ih _ valid command.state command.token kept.1 kept.2, flag,
                met_iff (fun _ _ => response) (absurd · swallow)]
        | some response' =>
            obtain ⟨format, expected, length⟩ := answer response' response
            rw [expected]
            have some : exchange.response ≠ none := by
              rw [response]
              exact Option.some_ne_none _
            rcases commandWaits_format expected with ⟨waits', right⟩ | ⟨acmd, listed, rfl, wrong⟩
            · have state' := command.state
              rw [waits'] at state'
              have answered := response_reaches state' command.token length
              rw [Option.elim_some, foldl_append]
              refine command.ahead.trans ((answered.ahead (s := s')).trans ?_)
              rw [ih _ valid answered.state answered.token nofun nofun, answered.isAcmd, flag,
                met_iff (fun acmd listed => absurd ⟨acmd, listed⟩ right) fun _ => some]
            · refine iff_of_false ?_ fun met => some (met.1.answer acmd listed)
              rw [Option.elim_some]
              exact command.ahead.not.mpr
                ((next_misread command.state command.token length wrong _).ne (absurd rfl ·) _)
      · refine iff_of_false ?_ fun met => mode (met.1 (cons_ne_nil _ _))
        have first : Next s _ (· ≠ .token isAcmd exchange.command.index exchange.command.arg
            exchange.command.crc) :=
          Next.of_items (fun same => mode (SdItem.token.inj same).1) command.items
            (exchange.response.elim [] SdResponse.clocks ++ rest.flatMap SdExchange.clocks)
        exact first.ne (absurd rfl ·) _

/-- The commands and the responses are reported as what they are exactly where every exchange is
met. -/
theorem commands_reported (idle : Nat) (exchanges : List SdExchange)
    (valid : SdValid false exchanges) :
    sdItems ((List.replicate idle true ++ exchanges.flatMap SdExchange.clocks).foldl clock
        reset).outs = sdExpected false exchanges ↔
      SdMet false exchanges := by
  have state : reset.state = waiting none := rfl
  rw [foldl_append, foldl_idle state rfl]
  refine (traffic_items (s := reset) none valid rfl rfl nofun nofun).trans ?_
  exact and_iff_right fun _ => rfl

def plainCommand (index : Nat) (index_lt : index < 2 ^ 6) : SdCommand :=
  ⟨index, 0, 0, true, index_lt, by decide, by decide⟩

def cardStatus : SdResponse :=
  ⟨List.replicate 46 false, 0⟩

def sendNumWrBlocks : List SdExchange :=
  [⟨plainCommand 55 (by decide), 0, some cardStatus⟩,
    ⟨plainCommand 22 (by decide), 0, some cardStatus⟩,
    ⟨plainCommand 17 (by decide), 0, some cardStatus⟩]

theorem sendNumWrBlocks_valid : SdValid false sendNumWrBlocks :=
  ⟨fun _ some => ⟨.r1, rfl, by cases some; rfl⟩, fun _ some => ⟨.r1, rfl, by cases some; rfl⟩,
    fun _ some => ⟨.r1, rfl, by cases some; rfl⟩, trivial⟩

theorem commands_reported_sendNumWrBlocks : SdValid false sendNumWrBlocks ∧
      (sdItems ((List.replicate 3 true ++ sendNumWrBlocks.flatMap SdExchange.clocks).foldl clock
          reset).outs = sdExpected false sendNumWrBlocks ↔ SdMet false sendNumWrBlocks) :=
  ⟨sendNumWrBlocks_valid, commands_reported 3 sendNumWrBlocks sendNumWrBlocks_valid⟩

/-- The mode is not left behind the ACMD, and CMD17 is reported as an ACMD. -/
theorem sendNumWrBlocks_misreported : SdValid false sendNumWrBlocks ∧
      sdItems ((sendNumWrBlocks.flatMap SdExchange.clocks).foldl clock reset).outs ≠
        sdExpected false sendNumWrBlocks ∧
      SdItem.command true 17 ∈
        sdItems ((sendNumWrBlocks.flatMap SdExchange.clocks).foldl clock reset).outs := by
  refine ⟨sendNumWrBlocks_valid, ?_, ?_⟩ <;> decide +kernel

end Traffic

end SdcardSd

end SigrokDecode
