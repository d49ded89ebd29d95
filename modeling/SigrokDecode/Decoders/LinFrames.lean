import SigrokDecode.Decoders.Lin

/-!
# What the LIN decoders say of frames

Each frame is read from the break on, and what is said of it depends on how it ends.
-/

namespace SigrokDecode

open Foundation List

theorem linReports_append (front back : List LinOut) :
    linReports (front ++ back) = linReports front ++ linReports back :=
  filterMap_append

theorem linReports_frames (reports : List LinReport) :
    linReports (reports.map .frame) = reports := by
  induction reports with
  | nil => rfl
  | cons report reports ih => exact congrArg (report :: ·) ih

def LinFrame.opening (frame : LinFrame) : List LinPacket :=
  [.data frame.null, .break frame.breakSs frame.breakEs]

def LinFrame.bytes (frame : LinFrame) : List LinPacket :=
  .data frame.sync :: .data frame.pid :: frame.rsp.map .data

def LinFrame.dataLen (frame : LinFrame) : Nat :=
  pidToDataLen frame.pid.val

namespace LinC

/-- A break has come, and nothing behind it. -/
structure Fresh (version : Nat) (s : LinC) : Prop where
  state : s.state = .sync
  version : s.version = version
  header : s.header = []
  rsp : s.rsp = []
  doneBreak : s.doneBreak = true

def followedReport (version : Nat) (frame : LinFrame) (null : LinByte) : List LinReport :=
  (report version [frame.sync, frame.pid]
    (if frame.rsp.length = frame.dataLen then frame.rsp ++ [null]
      else frame.rsp.take (frame.dataLen + 1))).toList

def lastReport (version : Nat) (frame : LinFrame) : List LinReport :=
  (report version [frame.sync, frame.pid] (frame.rsp.take (frame.dataLen + 1))).toList

section Frames

variable {s : LinC} {version : Nat} {frame : LinFrame}

theorem outputChecksum_reports (s : LinC) : linReports s.outputChecksum.outs =
      linReports s.outs ++ (report s.version s.header s.rsp).toList := by
  show linReports (s.outs ++ _) = _
  rw [linReports_append, linReports_frames]

theorem report_nil (version : Nat) (header : List LinByte) : report version header [] = none := by
  cases header with
  | nil => rfl
  | cons sync header => cases header <;> rfl

theorem startFrame_fresh (header : s.header = []) (rsp : s.rsp = []) (ss es : Nat) :
    Fresh s.version (s.startFrame ss es) ∧
      linReports (s.startFrame ss es).outs = linReports s.outs := by
  refine ⟨⟨rfl, rfl, header, rsp, rfl⟩, ?_⟩
  show linReports (if s.doneBreak then _ else _) = _
  split
  · rfl
  · rw [linReports_append]
    exact List.append_nil _

theorem foldl_ignored (state : s.state = .findBreak) (bytes : List LinByte) :
    (bytes.map .data).foldl recvProto s = s := by
  induction bytes with
  | nil => rfl
  | cons byte bytes ih =>
      have ignored : s.recvProto (.data byte) = s := by rw [recvProto, handleData, state]
      rw [map_cons, foldl_cons, ignored, ih]

theorem break_idle (state : s.state = .findBreak) (ss es : Nat) :
    Fresh s.version (s.recvProto (.break ss es)) ∧
      linReports (s.recvProto (.break ss es)).outs = linReports s.outs := by
  rw [recvProto, handleBreak, endFrame, if_pos state]
  exact startFrame_fresh (s := s.resetState) rfl rfl ss es

theorem break_between (state : s.state = .findBreak) (null : LinByte) (ss es : Nat) :
    Fresh s.version ((s.recvProto (.data null)).recvProto (.break ss es)) ∧
      linReports ((s.recvProto (.data null)).recvProto (.break ss es)).outs =
        linReports s.outs := by
  have ignored : s.recvProto (.data null) = s := by rw [recvProto, handleData, state]
  rw [ignored]
  exact break_idle state ss es

theorem break_within {rsp : List LinByte} (null : LinByte) (state : s.state ≠ .findBreak)
    (bytes : s.rsp = rsp ++ [null]) (ss es : Nat) :
    Fresh s.version (s.recvProto (.break ss es)) ∧ linReports (s.recvProto (.break ss es)).outs =
        linReports s.outs ++ (report s.version s.header rsp).toList := by
  have some : s.rsp ≠ [] := by
    rw [bytes]
    exact append_ne_nil_of_right_ne_nil _ (cons_ne_nil _ _)
  rw [recvProto, handleBreak, endFrame, if_neg state, if_pos some, bytes, dropLast_concat]
  obtain ⟨fresh, same⟩ := startFrame_fresh
    (s := (({ s with rsp := rsp } : LinC).outputChecksum).resetState) rfl rfl ss es
  exact ⟨fresh, same.trans (outputChecksum_reports { s with rsp })⟩

/-- How a frame leaves the decoder. -/
inductive Behind (version : Nat) (frame : LinFrame) (before : List LinReport) (s : LinC) : Prop
  | within (state : s.state = if frame.rsp.length < frame.dataLen then .data else .checksum)
      (few : frame.rsp.length ≤ frame.dataLen) (version_eq : s.version = version)
      (header : s.header = [frame.sync, frame.pid]) (rsp : s.rsp = frame.rsp)
      (doneBreak : s.doneBreak = true) (reports : linReports s.outs = before)
  | complete (state : s.state = .findBreak) (many : frame.dataLen < frame.rsp.length)
      (version_eq : s.version = version) (rsp : s.rsp = [])
      (reports : linReports s.outs = before ++ lastReport version frame)

theorem foldl_response (got : List LinByte) {bytes : List LinByte} (state : s.state = .data)
    (version_eq : s.version = version) (header : s.header = [frame.sync, frame.pid])
    (rsp : s.rsp = got) (few : got.length < frame.dataLen) (parts : frame.rsp = got ++ bytes)
    (doneBreak : s.doneBreak = true) :
    Behind version frame (linReports s.outs) ((bytes.map .data).foldl recvProto s) := by
  induction bytes generalizing s got with
  | nil =>
      rw [List.append_nil] at parts
      rw [← parts] at few rsp
      exact .within (by rw [if_pos few]; exact state) (Nat.le_of_lt few) version_eq header rsp
        doneBreak rfl
  | cons byte bytes ih =>
      have pid : ((s.header.map LinByte.val).getD 1 0) = frame.pid.val := by
        rw [header]
        rfl
      have step : s.recvProto (.data byte) =
          if frame.dataLen ≤ (got ++ [byte]).length then
            { s with rsp := got ++ [byte], state := .checksum }
          else { s with rsp := got ++ [byte] } := by
        rw [recvProto, handleData, state]
        dsimp only
        rw [pid, rsp]
        rfl
      have parts' : frame.rsp = (got ++ [byte]) ++ bytes := by
        rw [parts, List.append_assoc, singleton_append]
      have grown : (got ++ [byte]).length = got.length + 1 := length_append
      rw [map_cons, foldl_cons, step]
      split
      next whole =>
        have length : frame.rsp.length = got.length + 1 + bytes.length := by
          rw [parts', length_append, grown]
        cases bytes with
        | nil =>
            rw [List.append_nil] at parts'
            rw [length_nil] at length
            exact .within (by rw [if_neg (by omega)]; rfl) (by omega) version_eq header parts'.symm
              doneBreak rfl
        | cons checksum ignored =>
            rw [length_cons] at length
            rw [map_cons, foldl_cons]
            have taken : frame.rsp.take (frame.dataLen + 1) = (got ++ [byte]) ++ [checksum] := by
              have front : frame.dataLen + 1 = ((got ++ [byte]) ++ [checksum]).length := by
                rw [length_append, grown, length_singleton]
                omega
              have parts'' : frame.rsp = ((got ++ [byte]) ++ [checksum]) ++ ignored := by
                rw [parts', List.append_assoc, List.append_assoc, List.append_assoc]
                rfl
              rw [front, parts'', take_left]
            have complete := foldl_ignored
              (s := ({ s with rsp := got ++ [byte], state := .checksum } : LinC).recvProto
                (.data checksum)) rfl ignored
            rw [complete]
            refine .complete rfl (by omega) version_eq rfl ?_
            refine (outputChecksum_reports _).trans ?_
            rw [lastReport, taken, ← version_eq, ← header]
      next more =>
        have rest := ih (s := { s with rsp := got ++ [byte] }) _ state version_eq
          header rfl (Nat.lt_of_not_le more) parts' doneBreak
        exact rest

theorem Fresh.foldl (fresh : Fresh version s) (frame : LinFrame) :
    Behind version frame (linReports s.outs) (frame.bytes.foldl recvProto s) := by
  have first : (s.recvProto (.data frame.sync)).recvProto (.data frame.pid) =
      { s with header := [frame.sync, frame.pid], state := .data } := by
    have sync : s.recvProto (.data frame.sync) =
        { s with header := [frame.sync], state := .pid } := by
      rw [recvProto, handleData, fresh.state, fresh.header]
      rfl
    rw [sync]
    rfl
  have long : 0 < frame.dataLen := by
    rw [LinFrame.dataLen, pidToDataLen]
    split
    · decide
    · split <;> decide
  rw [LinFrame.bytes, foldl_cons, foldl_cons, first]
  exact foldl_response (s := { s with header := [frame.sync, frame.pid], state := .data }) [] rfl
    fresh.version rfl fresh.rsp long rfl fresh.doneBreak

theorem Behind.finish {before : List LinReport} (behind : Behind version frame before s) :
    linReports s.finish.outs = before ++ lastReport version frame := by
  cases behind with
  | within state few version_eq header rsp doneBreak reports =>
      have taken : frame.rsp.take (frame.dataLen + 1) = frame.rsp :=
        take_of_length_le (Nat.le_succ_of_le few)
      rw [lastReport, taken, LinC.finish]
      split
      · rw [outputChecksum_reports, version_eq, header, rsp, reports]
      next none =>
        have empty : frame.rsp = [] := by
          rw [← rsp]
          by_contra some
          exact none ⟨doneBreak, some⟩
        rw [empty, report_nil, reports]
        exact (List.append_nil _).symm
  | complete state many version_eq rsp reports =>
      rw [LinC.finish, if_neg fun some => some.2 rsp, reports]

theorem Behind.next {before : List LinReport} (behind : Behind version frame before s)
    (null : LinByte) (ss es : Nat) :
    Fresh version ((s.recvProto (.data null)).recvProto (.break ss es)) ∧
      linReports ((s.recvProto (.data null)).recvProto (.break ss es)).outs =
        before ++ followedReport version frame null := by
  cases behind with
  | complete state many version_eq rsp reports =>
      obtain ⟨fresh, same⟩ := break_between state null ss es
      rw [version_eq] at fresh
      refine ⟨fresh, ?_⟩
      rw [same, reports, followedReport, if_neg (by omega), lastReport]
  | within state few version_eq header rsp doneBreak reports =>
      have taken : frame.rsp.take (frame.dataLen + 1) = frame.rsp :=
        take_of_length_le (Nat.le_succ_of_le few)
      rw [followedReport, taken]
      split at state
      next short =>
        rw [if_neg (by omega)]
        have pid : ((s.header.map LinByte.val).getD 1 0) = frame.pid.val := by
          rw [header]
          rfl
        have step : ∃ state', state' ≠ LinState.findBreak ∧
            s.recvProto (.data null) = { s with rsp := frame.rsp ++ [null], state := state' } := by
          rw [recvProto, handleData, state]
          dsimp only
          rw [rsp]
          split
          · exact ⟨.checksum, nofun, rfl⟩
          · exact ⟨.data, nofun, by rw [← state]⟩
        obtain ⟨state', within, step⟩ := step
        rw [step]
        obtain ⟨fresh, same⟩ := break_within
          (s := { s with rsp := frame.rsp ++ [null], state := state' }) null within rfl ss es
        refine ⟨version_eq ▸ fresh, same.trans ?_⟩
        rw [reports, version_eq, header]
      next whole =>
        have whole : frame.rsp.length = frame.dataLen := by omega
        rw [if_pos whole]
        have step : s.recvProto (.data null) =
            ({ s with rsp := frame.rsp ++ [null] } : LinC).outputChecksum.resetState := by
          rw [recvProto, handleData, state, rsp]
        have same := outputChecksum_reports { s with rsp := frame.rsp ++ [null] }
        rw [step]
        obtain ⟨fresh, kept⟩ := break_idle
          (s := ({ s with rsp := frame.rsp ++ [null] } : LinC).outputChecksum.resetState) rfl ss es
        refine ⟨version_eq ▸ fresh, kept.trans (same.trans ?_)⟩
        rw [reports, version_eq, header]

def framesReports (version : Nat) : LinFrame → List LinFrame → List LinReport
  | frame, [] => lastReport version frame
  | frame, next :: rest =>
      followedReport version frame next.null ++ framesReports version next rest

theorem Fresh.frames (fresh : Fresh version s) (frame : LinFrame) (rest : List LinFrame) :
    linReports ((frame.bytes ++ rest.flatMap LinFrame.packets).foldl recvProto s).finish.outs =
      linReports s.outs ++ framesReports version frame rest := by
  induction rest generalizing s frame with
  | nil =>
      rw [flatMap_nil, List.append_nil, (fresh.foldl frame).finish, framesReports]
  | cons next rest ih =>
      obtain ⟨fresh', reports⟩ := (fresh.foldl frame).next next.null next.breakSs next.breakEs
      have rest' := ih fresh' next
      rw [reports] at rest'
      rw [flatMap_cons, foldl_append, framesReports, ← List.append_assoc]
      exact rest'

theorem reports_cons (version : Nat) (frame : LinFrame) (rest : List LinFrame) :
    LinC.reports version (frame :: rest) = framesReports version frame rest := by
  obtain ⟨fresh, reports⟩ := break_between (s := start version) rfl frame.null frame.breakSs
    frame.breakEs
  have rest' := fresh.frames frame rest
  rw [reports] at rest'
  exact rest'

end Frames

end LinC

end SigrokDecode
