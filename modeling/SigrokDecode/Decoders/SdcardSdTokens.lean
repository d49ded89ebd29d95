import SigrokDecode.Decoders.SdcardSd

/-!
# The tokens that `sdcard_sd_c` reads

A token of the host, and one of the card, read from the start bit to the idle clocks behind it.
-/

namespace SigrokDecode

open Foundation List

theorem sdItems_append (front back : List SdOut) :
    sdItems (front ++ back) = sdItems front ++ sdItems back :=
  filterMap_append

theorem sdItems_decoded (fields : List (Nat × Nat × String)) :
    sdItems (fields.map fun field => .decoded field.1 field.2.1 field.2.2) = [] := by
  induction fields with
  | nil => rfl
  | cons field fields ih => exact ih

namespace SdcardSd

def waiting : Option SdFormat → Nat
  | none => stateGetCommandToken
  | some format => stateGetResponse format

def waitingLength (waits : Option SdFormat) : Nat :=
  waits.elim 48 SdFormat.length

def receive (s : SdcardSd) (cmdPin : Bool) : Option SdFormat → SdcardSd
  | none => s.getCommandToken cmdPin
  | some .r1 => s.handleResponseR1 cmdPin
  | some .r1b => s.handleResponseR1b cmdPin
  | some .r2 => s.handleResponseR2 cmdPin
  | some .r3 => s.handleResponseR3 cmdPin
  | some .r6 => s.handleResponseR6 cmdPin
  | some .r7 => s.handleResponseR7 cmdPin

def commandWaits (isAcmd : Bool) (index : Nat) : Option SdFormat :=
  if index = 0 then none
  else if index ∈ [2, 9, 10] then some .r2
  else if index ∈ [3, 7] then some .r6
  else if index = 8 then some .r7
  else if isAcmd = true ∧ index = 41 then some .r3
  else some .r1

def commandStays (isAcmd : Bool) (index : Nat) : Bool :=
  index = 55 ∨ (isAcmd = true ∧ index ∉ [0, 2, 3, 6, 7, 8, 9, 10, 13, 16, 41, 51])

structure Reaches (s s' : SdcardSd) (waits : Option SdFormat) (isAcmd : Bool)
    (items : List SdItem) : Prop where
  state : s'.state = waiting waits
  token : s'.token = []
  isAcmd : s'.isAcmd = isAcmd
  items : sdItems s'.outs = sdItems s.outs ++ items

section Tokens

variable {s : SdcardSd} {waits : Option SdFormat} {bits : List Bool} {bit : Bool}

theorem handleState_waiting (state : s.state = waiting waits) :
    s.handleState bit = s.receive bit waits := by
  rw [handleState, state]
  cases waits with
  | none => rfl
  | some format => cases format <;> rfl

theorem awaitsStart_waiting (state : s.state = waiting waits) :
    s.awaitsStart = s.token.isEmpty := by
  rw [awaitsStart, state]
  cases waits with
  | none => rfl
  | some format => cases format <;> rfl

theorem clock_idle (state : s.state = waiting waits) (token : s.token = []) : s.clock true = s := by
  rw [clock, awaitsStart_waiting state, token]
  rfl

theorem foldl_idle (state : s.state = waiting waits) (token : s.token = []) (count : Nat) :
    (replicate count true).foldl clock s = s := by
  induction count with
  | zero => rfl
  | succ count ih =>
      rw [replicate_succ, foldl_cons, clock_idle state token, ih]

theorem clock_receive (state : s.state = waiting waits) (started : s.token = [] → bit = false) :
    s.clock bit = s.receive bit waits := by
  rw [clock, awaitsStart_waiting state, if_neg, handleState_waiting state]
  intro skipped
  obtain ⟨empty, high⟩ := Bool.and_eq_true_iff.mp skipped
  rw [started (List.isEmpty_iff.mp empty)] at high
  cases high

theorem length_le (format : SdFormat) : format.length ≤ 136 := by
  cases format <;> decide

theorem waitingLength_le (waits : Option SdFormat) : waitingLength waits ≤ 136 := by
  cases waits with
  | none => decide
  | some format => exact length_le format

variable (bit) in
theorem pushBit_room (room : s.token.length < 136) :
    s.pushBit bit = { s with token := s.token ++ [bit] } :=
  if_pos room

theorem receive_few (few : s.token.length + 1 < waitingLength waits) :
    s.receive bit waits = { s with token := s.token ++ [bit] } := by
  have push := pushBit_room bit (Nat.lt_of_lt_of_le (Nat.lt_of_succ_lt few)
    (waitingLength_le waits))
  have length : (s.pushBit bit).token.length = s.token.length + 1 := by
    rw [push, length_append]
    rfl
  rw [← push]
  cases waits with
  | none => exact if_pos (by rw [length]; exact few)
  | some format => cases format <;> exact if_pos (by rw [length]; exact few)

variable (bits) in
theorem foldl_collect (state : s.state = waiting waits) (started : s.token ≠ [])
    (few : s.token.length + bits.length < waitingLength waits) :
    bits.foldl clock s = { s with token := s.token ++ bits } := by
  induction bits generalizing s with
  | nil => rw [List.append_nil]; rfl
  | cons bit bits ih =>
      rw [length_cons] at few
      rw [foldl_cons, clock_receive state (fun empty => absurd empty started),
        receive_few (by omega)]
      have rest := ih (s := { s with token := s.token ++ [bit] }) state
        (append_ne_nil_of_right_ne_nil _ (cons_ne_nil _ _))
        (by rw [length_append, length_singleton]; omega)
      rw [rest, List.append_assoc]
      rfl

variable (bits) in
theorem foldl_token (state : s.state = waiting waits) (token : s.token = [])
    (length : bits.length + 2 = waitingLength waits) :
    (false :: bits ++ [bit]).foldl clock s =
      { s with token := false :: bits }.receive bit waits := by
  have few : s.token.length + 1 < waitingLength waits := by
    rw [token, length_nil, ← length]
    omega
  have first : s.clock false = { s with token := [false] } := by
    rw [clock_receive state (fun _ => rfl), receive_few few, token]
    rfl
  have collected := foldl_collect (s := { s with token := [false] }) bits state
    (cons_ne_nil _ _) (by simp only [length_singleton]; omega)
  have front : (false :: bits).foldl clock s = { s with token := false :: bits } := by
    rw [foldl_cons, first, collected]
    rfl
  rw [foldl_append, front]
  exact clock_receive state nofun

variable (waits bits bit) in
theorem pushBit_last (length : bits.length + 2 = waitingLength waits) :
    { s with token := false :: bits }.pushBit bit = { s with token := false :: bits ++ [bit] } := by
  have most := waitingLength_le waits
  exact pushBit_room _ (by rw [length_cons]; omega)

theorem Reaches.idle {s' : SdcardSd} {isAcmd : Bool} {items : List SdItem}
    (reaches : Reaches s s' waits isAcmd items) (count : Nat) :
    (replicate count true).foldl clock s' = s' :=
  foldl_idle reaches.state reaches.token count

end Tokens

section Responses

variable {s : SdcardSd} {isAcmd bit : Bool} {rest : List Bool} {items : List SdItem}

theorem receive_host {waits : Option SdFormat} (notR2 : waits ≠ some .r2)
    (notR3 : waits ≠ some .r3) (length : rest.length + 3 = 48) :
    { s with token := false :: true :: rest }.receive bit waits =
      { s with token := false :: true :: rest ++ [bit] }.handleCmd := by
  have short : waitingLength waits = 48 := by
    cases waits with
    | none => rfl
    | some format => cases format <;> first | rfl | contradiction
  have push := pushBit_last (s := s) waits (true :: rest) bit
    (by rw [short, length_cons]; exact length)
  have whole : ¬(false :: true :: rest ++ [bit]).length < 48 := by
    rw [length_append, length_cons, length_cons, length_singleton]
    omega
  cases waits with
  | none =>
      show SdcardSd.getCommandToken _ _ = _
      rw [SdcardSd.getCommandToken, push]
      exact (if_neg whole).trans (if_pos rfl)
  | some format =>
      have respond : ∀ annotate, { s with token := false :: true :: rest }.handleResponse annotate bit
          = { s with token := false :: true :: rest ++ [bit] }.handleCmd := by
        intro annotate
        rw [handleResponse, push]
        refine (if_neg whole).trans (if_neg ?_)
        rw [isFromCard]
        exact fun card => Bool.noConfusion (Bool.and_eq_true_iff.mp card).2
      cases format with
      | r1 =>
          rw [receive, handleResponseR1]
          exact respond _
      | r1b =>
          rw [receive, handleResponseR1b]
          exact respond _
      | r2 => exact absurd rfl notR2
      | r3 => exact absurd rfl notR3
      | r6 =>
          rw [receive, handleResponseR6]
          exact respond _
      | r7 =>
          rw [receive, handleResponseR7]
          exact respond _

theorem sdItems_put (out : SdOut) :
    sdItems (s.put out).outs = sdItems s.outs ++ out.item.toList := by
  show sdItems (s.outs ++ [out]) = _
  rw [sdItems_append]
  refine congrArg (sdItems s.outs ++ ·) ?_
  rw [sdItems, filterMap_cons]
  cases out.item <;> rfl

theorem sdItems_puta (fields : List (Nat × Nat × String)) :
    sdItems (s.puta fields).outs = sdItems s.outs := by
  show sdItems (s.outs ++ _) = _
  rw [sdItems_append, sdItems_decoded, List.append_nil]

theorem fields_host (host : s.isFromHost = true) : sdItems s.handleCommonTokenFields.outs =
      sdItems s.outs ++ [SdItem.token s.isAcmd (s.number 2 6) (s.number 8 32) (s.number 40 7)] := by
  have item : SdOut.item (.commonFields s.token s.isAcmd (s.number 2 6) (s.number 8 32)
      (s.number 40 7)) = some (.token s.isAcmd (s.number 2 6) (s.number 8 32) (s.number 40 7)) :=
    if_pos host
  rw [handleCommonTokenFields, sdItems_put, item]
  rfl

theorem sdItems_putRegister (s : SdcardSd) : sdItems s.putRegister.outs = sdItems s.outs := by
  rw [putRegister]
  split
  · exact (sdItems_put _).trans (List.append_nil _)
  · split
    · exact (sdItems_put _).trans (List.append_nil _)
    · rfl

theorem putRegister_isAcmd (s : SdcardSd) : s.putRegister.isAcmd = s.isAcmd := by
  rw [putRegister]
  split
  · rfl
  · split <;> rfl

theorem handleResponse_card {annotate : SdcardSd → SdcardSd} (length : rest.length + 3 = 48)
    (flag : ∀ s, (annotate s).isAcmd = s.isAcmd)
    (reports : ∀ s, sdItems (annotate s).outs = sdItems s.outs ++ items) :
    Reaches s ({ s with token := false :: false :: rest }.handleResponse annotate bit) none s.isAcmd
      items := by
  have push := pushBit_last (s := s) none (false :: rest) bit length
  have whole : (false :: false :: rest ++ [bit]).length = 48 := by
    rw [length_append, length_cons, length_cons, length_singleton]
    omega
  rw [handleResponse, push]
  dsimp only
  rw [if_neg (by rw [whole]; exact Nat.lt_irrefl 48), if_pos]
  · refine ⟨rfl, rfl, flag _, ?_⟩
    refine (reports _).trans ?_
    rw [handleCommonTokenFields, sdItems_put]
    exact congrArg (· ++ items) (List.append_nil _)
  · rw [isFromCard, whole]
    rfl

theorem receive_r3 {host : Bool} (length : rest.length + 3 = 48) :
    Reaches s ({ s with token := false :: host :: rest }.receive bit (some .r3)) none s.isAcmd
      [.response .r3] := by
  have push := pushBit_last (s := s) none (host :: rest) bit length
  have whole : ¬(false :: host :: rest ++ [bit]).length < 48 := by
    rw [length_append, length_cons, length_cons, length_singleton]
    omega
  rw [receive, handleResponseR3, push]
  dsimp only
  rw [if_neg whole]
  refine ⟨rfl, rfl, rfl, ?_⟩
  refine (sdItems_puta _).trans ?_
  rw [sdItems_put, sdItems_put]
  exact List.append_nil _

variable (rest bit) in
theorem receive_card (format : SdFormat) (length : rest.length + 3 = format.length) :
    Reaches s ({ s with token := false :: false :: rest }.receive bit (some format)) none s.isAcmd
      [.response format] := by
  cases format with
  | r1 =>
      rw [receive, handleResponseR1]
      refine handleResponse_card length (fun _ => rfl) fun s => ?_
      rw [sdItems_put, sdItems_puta, sdItems_put]
      exact List.append_nil _
  | r1b =>
      rw [receive, handleResponseR1b]
      refine handleResponse_card length (fun _ => rfl) fun s => ?_
      rw [sdItems_put, sdItems_puta]
      rfl
  | r6 =>
      rw [receive, handleResponseR6]
      refine handleResponse_card length (fun _ => rfl) fun s => ?_
      rw [sdItems_put, sdItems_puta]
      rfl
  | r7 =>
      rw [receive, handleResponseR7]
      refine handleResponse_card length (fun _ => rfl) fun s => ?_
      rw [sdItems_puta, sdItems_put]
      rfl
  | r3 => exact receive_r3 length
  | r2 =>
      have push := pushBit_last (s := s) (some .r2) (false :: rest) bit length
      have whole : ¬(false :: false :: rest ++ [bit]).length < 136 := by
        rw [length_append, length_cons, length_cons, length_singleton]
        have sum : rest.length + 3 = 136 := length
        omega
      rw [receive, handleResponseR2, push]
      dsimp only
      rw [if_neg whole]
      refine ⟨rfl, rfl, putRegister_isAcmd _, ?_⟩
      refine (sdItems_putRegister _).trans ?_
      rw [sdItems_put, sdItems_put, sdItems_put]
      exact congrArg (· ++ _) ((List.append_nil _).trans (List.append_nil _))

end Responses

section Commands

variable {s s' : SdcardSd} {waits : Option SdFormat} {isAcmd : Bool} {items : List SdItem}
  {index : Nat}

variable (index) in
theorem clock_handleCmd (small : index ≤ 63) (state : s.state = stateHandleCmd0 + index) :
    s.clock true =
      if (s.handleCmdState index).isAcmd then (s.handleCmdState index).leaveAcmd index
      else s.handleCmdState index := by
  have cmd0 : stateHandleCmd0 = 1 := rfl
  have token : stateGetCommandToken = 0 := rfl
  have r1 : stateGetResponse .r1 = 131 := rfl
  have busy : s.awaitsStart = false := by
    rw [awaitsStart, state, cmd0, token, r1, decide_eq_false (by omega), Bool.false_or,
      decide_eq_false (by omega)]
    rfl
  rw [clock, busy, Bool.false_and, if_neg Bool.false_ne_true, handleState, if_neg (by omega),
    if_pos (by omega), state, Nat.add_sub_cancel_left]

variable (index) in
theorem clock_handleAcmd (small : index ≤ 63) (state : s.state = stateHandleAcmd0 + index) :
    s.clock true = (s.handleAcmdState index).leaveAcmd index := by
  have cmd0 : stateHandleCmd0 = 1 := rfl
  have acmd0 : stateHandleAcmd0 = 65 := rfl
  have token : stateGetCommandToken = 0 := rfl
  have r1 : stateGetResponse .r1 = 131 := rfl
  have busy : s.awaitsStart = false := by
    rw [awaitsStart, state, acmd0, token, r1, decide_eq_false (by omega), Bool.false_or,
      decide_eq_false (by omega)]
    rfl
  rw [clock, busy, Bool.false_and, if_neg Bool.false_ne_true, handleState, if_neg (by omega),
    if_neg (by omega), if_pos (by omega), state, Nat.add_sub_cancel_left]

theorem leaveAcmd_isAcmd (s : SdcardSd) (index : Nat) :
    (s.leaveAcmd index).isAcmd = (s.isAcmd && (index == 55 || index == 63)) := by
  rw [leaveAcmd]
  split
  next left =>
    rw [beq_eq_false_iff_ne.mpr left.1, beq_eq_false_iff_ne.mpr left.2]
    exact (Bool.and_false _).symm
  next kept =>
    have stays : (index == 55 || index == 63) = true := by
      rw [Bool.or_eq_true, beq_iff_eq, beq_iff_eq]
      by_contra neither
      exact kept (not_or.mp neither)
    rw [stays, Bool.and_true]

theorem Reaches.leaveAcmd (reaches : Reaches s s' waits isAcmd items) (index : Nat) :
    Reaches s (s'.leaveAcmd index) waits (isAcmd && (index == 55 || index == 63)) items := by
  refine ⟨?_, ?_, by rw [leaveAcmd_isAcmd, reaches.isAcmd], ?_⟩
  · rw [SdcardSd.leaveAcmd]
    split <;> exact reaches.state
  · rw [SdcardSd.leaveAcmd]
    split <;> exact reaches.token
  · rw [SdcardSd.leaveAcmd]
    split <;> exact reaches.items

theorem handler_reaches (fields : List (Nat × Nat × String)) (text : String)
    (waits : Option SdFormat) :
    Reaches s (s.handler fields text (waiting waits)) waits (s.isAcmd || false)
      [.command s.isAcmd s.cmd] := by
  refine ⟨rfl, rfl, (Bool.or_false _).symm, ?_⟩
  refine (sdItems_put _).trans ?_
  rw [sdItems_puta]
  rfl

theorem handleCmdState_reaches (handled : index ∈ [0, 2, 3, 6, 7, 8, 9, 10, 13, 16, 55]) :
    Reaches s (s.handleCmdState index) (commandWaits false index) (s.isAcmd || index == 55)
      [.command s.isAcmd s.cmd] := by
  simp only [mem_cons, not_mem_nil, or_false] at handled
  rcases handled with rfl | rfl | rfl | rfl | rfl | rfl | rfl | rfl | rfl | rfl | rfl
  case inr.inr.inr.inr.inr.inr.inr.inr.inr.inr =>
    have reaches := handler_reaches (s := s) [(16, 31, "RCA"), (0, 15, "Stuff bits")]
      "Next command is an application-specific command" (some .r1)
    exact { reaches with isAcmd := (Bool.or_true _).symm }
  case inl => exact handler_reaches _ _ none
  case inr.inl => exact handler_reaches _ _ (some .r2)
  case inr.inr.inl => exact handler_reaches _ _ (some .r6)
  case inr.inr.inr.inl => exact handler_reaches _ _ (some .r1)
  case inr.inr.inr.inr.inl => exact handler_reaches _ _ (some .r6)
  case inr.inr.inr.inr.inr.inl => exact handler_reaches _ _ (some .r7)
  case inr.inr.inr.inr.inr.inr.inl => exact handler_reaches _ _ (some .r2)
  case inr.inr.inr.inr.inr.inr.inr.inl => exact handler_reaches _ _ (some .r2)
  case inr.inr.inr.inr.inr.inr.inr.inr.inl => exact handler_reaches _ _ (some .r1)
  case inr.inr.inr.inr.inr.inr.inr.inr.inr.inl => exact handler_reaches _ _ (some .r1)

theorem commandWaits_false (notOcr : index ≠ 41) :
    commandWaits isAcmd index = commandWaits false index := by
  rw [commandWaits, commandWaits, if_neg (c := isAcmd = true ∧ index = 41) fun ocr => notOcr ocr.2,
    if_neg (c := false = true ∧ index = 41) fun ocr => notOcr ocr.2]

variable (isAcmd) in
theorem commandStays_handled (handled : index ∈ [0, 2, 3, 6, 7, 8, 9, 10, 13, 16, 55]) :
    index ≤ 63 ∧ index ≠ 41 ∧
      ((isAcmd || index == 55) && (index == 55 || index == 63)) = commandStays isAcmd index := by
  simp only [mem_cons, not_mem_nil, or_false] at handled
  rcases handled with rfl | rfl | rfl | rfl | rfl | rfl | rfl | rfl | rfl | rfl | rfl <;>
    cases isAcmd <;> decide

theorem commandWaits_unhandled (unhandled : index ∉ [0, 2, 3, 6, 7, 8, 9, 10, 13, 16, 55])
    (notOcr : ¬(isAcmd = true ∧ index = 41)) : commandWaits isAcmd index = some .r1 := by
  simp only [mem_cons, not_mem_nil, or_false, not_or] at unhandled
  rw [commandWaits, if_neg (by omega), if_neg, if_neg, if_neg (by omega), if_neg notOcr]
  · simp only [mem_cons, not_mem_nil, or_false, not_or]
    omega
  · simp only [mem_cons, not_mem_nil, or_false, not_or]
    omega

theorem enterHandler_reaches : Reaches s (s.enterHandler.clock true) (commandWaits s.isAcmd s.cmd)
      (commandStays s.isAcmd s.cmd) [.command s.isAcmd s.cmd] := by
  rw [enterHandler]
  by_cases handled : s.cmd ∈ [0, 2, 3, 6, 7, 8, 9, 10, 13, 16, 55]
  · obtain ⟨small, notOcr, stays⟩ := commandStays_handled s.isAcmd handled
    rw [if_pos handled, clock_handleCmd _ small rfl, commandWaits_false notOcr, ← stays]
    have reaches := handleCmdState_reaches (s := { s with state := stateHandleCmd0 + s.cmd }) handled
    split
    · have left := reaches.leaveAcmd s.cmd
      exact { left with }
    next none =>
      rw [reaches.isAcmd] at none
      have none : (s.isAcmd || s.cmd == 55) = false := Bool.eq_false_iff.mpr none
      rw [none, Bool.false_and]
      exact { reaches with isAcmd := reaches.isAcmd.trans none }
  · rw [if_neg handled]
    cases mode : s.isAcmd with
    | true =>
        rw [if_pos rfl]
        split
        next acmd =>
          have acmd : s.cmd = 41 ∨ s.cmd = 51 := by
            simp only [mem_cons, not_mem_nil, or_false] at acmd handled
            omega
          rw [clock_handleAcmd s.cmd (by omega) rfl]
          have reaches : ∀ fields text waits,
              Reaches s ((handler fields text (waiting waits) { s with
                state := stateHandleAcmd0 + s.cmd }).leaveAcmd s.cmd) waits false
                [.command true s.cmd] := by
            intro fields text waits
            have left := (handler_reaches (s := { s with state := stateHandleAcmd0 + s.cmd })
              fields text waits).leaveAcmd s.cmd
            have other : (s.cmd == 55 || s.cmd == 63) = false := by
              rcases acmd with ocr | scr
              · rw [ocr]; rfl
              · rw [scr]; rfl
            rw [other, Bool.and_false] at left
            exact { left with items := by rw [← mode]; exact left.items }
          rcases acmd with ocr | scr
          · rw [ocr, mode] at reaches
            rw [ocr]
            exact reaches _ _ (some .r3)
          · rw [scr, mode] at reaches
            rw [scr]
            exact reaches _ _ (some .r1)
        next unhandled =>
          have notOcr : s.cmd ≠ 41 := by
            intro ocr
            rw [ocr] at unhandled
            exact unhandled (by decide)
          have stays : commandStays true s.cmd = true := by
            rw [commandStays, decide_eq_true_eq]
            refine Or.inr ⟨rfl, fun listed => ?_⟩
            simp only [mem_cons, not_mem_nil, or_false] at listed handled unhandled
            omega
          rw [commandWaits_unhandled handled fun ocr => notOcr ocr.2, stays,
            clock_handleAcmd 63 (Nat.le_refl 63) rfl]
          exact ⟨rfl, rfl, rfl, sdItems_append _ _⟩
    | false =>
        rw [if_neg Bool.false_ne_true]
        have stays : commandStays false s.cmd = false := by
          rw [commandStays, decide_eq_false_iff_not]
          rintro (app | ⟨acmd, -⟩)
          · rw [app] at handled
            exact handled (by decide)
          · cases acmd
        rw [commandWaits_unhandled handled fun ocr => Bool.false_ne_true ocr.1, stays,
          clock_handleCmd 63 (Nat.le_refl 63) rfl]
        exact ⟨rfl, rfl, rfl, sdItems_append _ _⟩

theorem command_bits (command : SdCommand) :
    ∃ rest : List Bool, command.bits = false :: (true :: rest) ++ [command.endBit] ∧
      rest.length + 3 = 48 := by
  refine ⟨msbBits 6 command.index ++ msbBits 32 command.arg ++ msbBits 7 command.crc, rfl, ?_⟩
  rw [length_append, length_append, length_msbBits, length_msbBits, length_msbBits]

theorem number_command {command : SdCommand} (token : s.token = command.bits) :
    s.number 2 6 = command.index ∧ s.number 8 32 = command.arg ∧ s.number 40 7 = command.crc := by
  have back : s.token.drop 2 = msbBits 6 command.index ++ (msbBits 32 command.arg ++
      (msbBits 7 command.crc ++ [command.endBit])) := by
    rw [token, SdCommand.bits, List.append_assoc, List.append_assoc]
    rfl
  have behind : ∀ first, s.token.drop (2 + first) = (s.token.drop 2).drop first :=
    fun first => (drop_drop ..).symm
  refine ⟨?_, ?_, ?_⟩
  · rw [number, back, take_left' (length_msbBits 6 _), packMsb_msbBits command.index_lt]
  · rw [number, behind 6, back, drop_left' (length_msbBits 6 _),
      take_left' (length_msbBits 32 _), packMsb_msbBits command.arg_lt]
  · rw [number, behind 38, back, ← drop_drop (i := 32) (j := 6),
      drop_left' (length_msbBits 6 _), drop_left' (length_msbBits 32 _),
      take_left' (length_msbBits 7 _), packMsb_msbBits command.crc_lt]

theorem command_reaches (state : s.state = waiting waits) (token : s.token = [])
    (notR2 : waits ≠ some .r2) (notR3 : waits ≠ some .r3) (command : SdCommand) (idle : Nat) :
    Reaches s ((command.bits ++ sdIdle idle).foldl clock s) (commandWaits s.isAcmd command.index)
      (commandStays s.isAcmd command.index)
      [.token s.isAcmd command.index command.arg command.crc,
        .command s.isAcmd command.index] := by
  obtain ⟨rest, parts, length⟩ := command_bits command
  have short : waitingLength waits = 48 := by
    cases waits with
    | none => rfl
    | some format => cases format <;> first | rfl | contradiction
  have front : command.bits.foldl clock s = { s with token := command.bits }.handleCmd := by
    rw [parts, foldl_token _ state token (by rw [short, length_cons]; exact length)]
    exact receive_host notR2 notR3 length
  obtain ⟨index, arg, crc⟩ := number_command (s := { s with token := command.bits }) rfl
  have clocks : sdIdle idle = true :: replicate (1 + idle) true := by
    rw [sdIdle, ← replicate_succ]
    exact congrArg (replicate · true) (by omega)
  rw [foldl_append, front, handleCmd, clocks, foldl_cons]
  have fields : sdItems ({ s with token := command.bits }.handleCommonTokenFields).outs =
      sdItems s.outs ++ [SdItem.token s.isAcmd command.index command.arg command.crc] := by
    rw [fields_host rfl, index, arg, crc]
  have cmd : ({ s with token := command.bits }.handleCommonTokenFields).cmd = command.index := index
  have reaches := enterHandler_reaches (s := { s with token := command.bits }.handleCommonTokenFields)
  rw [cmd] at reaches
  rw [reaches.idle]
  refine { reaches with items := ?_ }
  rw [reaches.items, fields, List.append_assoc]
  rfl

theorem response_bits (rest : List Bool) (some : 0 < rest.length) :
    ∃ mid last, rest = mid ++ [last] ∧ rest.length = mid.length + 1 := by
  refine ⟨rest.dropLast, rest.getLast (length_pos_iff.mp some), ?_, ?_⟩
  · exact (dropLast_concat_getLast _).symm
  · rw [length_dropLast]
    omega

theorem response_reaches {format : SdFormat} (state : s.state = waiting (some format))
    (token : s.token = []) {response : SdResponse}
    (length : response.rest.length + 2 = format.length) :
    Reaches s (response.clocks.foldl clock s) none s.isAcmd [.response format] := by
  have atLeast : 48 ≤ format.length := by
    cases format <;> decide
  obtain ⟨mid, last, parts, count⟩ := response_bits response.rest (by omega)
  have reaches := receive_card (s := s) last mid format (by omega)
  have front : (false :: false :: response.rest).foldl clock s =
      { s with token := false :: false :: mid }.receive last (some format) := by
    rw [parts]
    exact foldl_token (false :: mid) state token
      (by rw [length_cons]; exact (by omega : mid.length + 1 + 2 = format.length))
  rw [SdResponse.clocks, foldl_append, front, sdIdle, reaches.idle]
  exact reaches

end Commands

end SdcardSd

end SigrokDecode
