import SigrokDecode.Decoders.LinFrames

/-!
# Where the LIN decoders say the same

The reports of Python, the verdicts on the checksum, and the frames of which both say the same.
-/

namespace SigrokDecode

open Foundation List Option

namespace LinPy

/-- A break has come, and nothing behind it. -/
structure Fresh (version : Nat) (s : LinPy) : Prop where
  fsm : s.fsm = .sync
  version : s.version = version
  header : s.header = []
  rsp : s.rsp = []
  doneBreak : s.doneBreak = true

/-- What is put out for a frame: whatever its response, if another one follows. -/
def followedReport (version : Nat) (frame : LinFrame) : List LinReport :=
  (report version [frame.sync, frame.pid] frame.rsp).toList

def lastReport (version : Nat) (frame : LinFrame) : List LinReport :=
  if frame.rsp = [] then [] else followedReport version frame

def framesReports (version : Nat) : LinFrame → List LinFrame → List LinReport
  | frame, [] => lastReport version frame
  | frame, next :: rest => followedReport version frame ++ framesReports version next rest

section Frames

variable {s : LinPy} {version : Nat} {frame : LinFrame}

theorem foldlM_response (fsm : s.fsm = .data) (bytes : List LinByte) :
    (bytes.map .data).foldlM decode s = some { s with rsp := s.rsp ++ bytes } := by
  induction bytes generalizing s with
  | nil =>
      rw [List.append_nil]
      rfl
  | cons byte bytes ih =>
      have kept : s.decode (.data byte) = some { s with rsp := s.rsp ++ [byte] } := by
        rw [decode, handleData, fsm]
      have rest := ih (s := { s with rsp := s.rsp ++ [byte] }) fsm
      rw [map_cons, foldlM_cons, kept, bind_eq_bind, Option.bind_some, rest, List.append_assoc]
      rfl

theorem Fresh.foldlM (fresh : Fresh version s) (frame : LinFrame) : frame.bytes.foldlM decode s =
      some { s with fsm := .data, header := [frame.sync, frame.pid], rsp := frame.rsp } := by
  have sync : s.decode (.data frame.sync) =
      some { s with fsm := .pid, header := [frame.sync] } := by
    rw [decode, handleData, fresh.fsm, fresh.header]
    rfl
  have pid : ({ s with fsm := .pid, header := [frame.sync] } : LinPy).decode (.data frame.pid) =
      some { s with fsm := .data, header := [frame.sync, frame.pid] } := rfl
  have response := foldlM_response
    (s := { s with fsm := .data, header := [frame.sync, frame.pid] }) rfl frame.rsp
  rw [LinFrame.bytes, foldlM_cons, sync, bind_eq_bind, Option.bind_some,
    foldlM_cons, pid, bind_eq_bind, Option.bind_some, response]
  dsimp only
  rw [fresh.rsp, nil_append]

variable (frame) in
theorem break_within {null : LinByte} (fsm : s.fsm = .data)
    (version_eq : s.version = version) (header : s.header = [frame.sync, frame.pid])
    (bytes : s.rsp = frame.rsp ++ [null]) (zero : null.val = 0) (ss es : Nat) :
    ∃ s', s.decode (.break ss es) = some s' ∧ Fresh version s' ∧
      linReports s'.outs = linReports s.outs ++ followedReport version frame := by
  obtain ⟨report', reported⟩ : ∃ report', report version [frame.sync, frame.pid] frame.rsp =
      some report' := ⟨_, rfl⟩
  have wiped : s.wipeBreakNullByte ss es = some ({ s with rsp := frame.rsp }, true) := by
    rw [wipeBreakNullByte, bytes, getLast?_concat, dropLast_concat]
    exact if_pos zero
  have ended : s.endFrame ss es = some { s with
      fsm := .checksum, header := [], rsp := [], outs := s.outs ++ [LinOut.frame report'] } := by
    rw [endFrame, fsm, if_neg (by decide), wiped, Option.bind_some]
    dsimp only
    rw [handleChecksum, fsm, version_eq, header, reported]
    rfl
  rw [decode, handleBreak, ended]
  refine ⟨_, rfl, ⟨rfl, version_eq, rfl, rfl, rfl⟩, ?_⟩
  show linReports (s.outs ++ [_] ++ [_]) = _
  rw [linReports_append, linReports_append, followedReport, reported]
  exact List.append_nil _

theorem Fresh.next (fresh : Fresh version s) (frame next : LinFrame) :
    ∃ s', (frame.bytes ++ next.opening).foldlM decode s = some s' ∧ Fresh version s' ∧
      linReports s'.outs = linReports s.outs ++ followedReport version frame := by
  obtain ⟨s', ended, fresh', reports⟩ := break_within frame
    (s := { s with fsm := .data, header := [frame.sync, frame.pid], rsp := frame.rsp ++ [next.null] })
    rfl fresh.version rfl rfl next.null_val next.breakSs next.breakEs
  refine ⟨s', ?_, fresh', reports⟩
  rw [foldlM_append, fresh.foldlM frame]
  exact congrArg (Option.bind · some) ended

theorem Fresh.frames (fresh : Fresh version s) (frame : LinFrame) (rest : List LinFrame) :
    (((frame.bytes ++ rest.flatMap LinFrame.packets).foldlM decode s).bind finish).map
        (fun s => linReports s.outs) =
      some (linReports s.outs ++ framesReports version frame rest) := by
  induction rest generalizing s frame with
  | nil =>
      rw [flatMap_nil, List.append_nil, fresh.foldlM frame, Option.bind_some, finish,
        framesReports, lastReport]
      split
      next answered =>
        rw [if_neg answered.2, handleChecksum, followedReport, fresh.version]
        show Option.map _ (some _) = _
        rw [map_some]
        dsimp only
        rw [linReports_append]
        rfl
      next none =>
        have empty : frame.rsp = [] := by
          by_contra some
          exact none ⟨fresh.doneBreak, some⟩
        rw [if_pos empty, List.append_nil]
        rfl
  | cons next rest ih =>
      obtain ⟨s', step, fresh', reports⟩ := fresh.next frame next
      have parts : frame.bytes ++ (next :: rest).flatMap LinFrame.packets =
          (frame.bytes ++ next.opening) ++
            (next.bytes ++ rest.flatMap LinFrame.packets) := by
        rw [flatMap_cons, List.append_assoc]
        rfl
      have rest' := ih fresh' next
      rw [reports, List.append_assoc] at rest'
      rw [parts, foldlM_append, step]
      exact rest'

theorem reports_cons (version : Nat) (frame : LinFrame) (rest : List LinFrame) :
    LinPy.reports version (frame :: rest) = some (framesReports version frame rest) := by
  have null : (start version).decode (.data frame.null) = some (start version) :=
    congrArg some (if_pos frame.null_val)
  have fresh : Fresh version { start version with
      fsm := .sync, doneBreak := true, outs := [.break frame.breakSs frame.breakEs] } :=
    ⟨rfl, rfl, rfl, rfl, rfl⟩
  have rest' := fresh.frames frame rest
  have parts : (frame :: rest).flatMap LinFrame.packets =
      frame.opening ++ (frame.bytes ++ rest.flatMap LinFrame.packets) := rfl
  have opened : frame.opening.foldlM decode (start version) = some { start version with
      fsm := .sync, doneBreak := true, outs := [.break frame.breakSs frame.breakEs] } := by
    rw [LinFrame.opening, foldlM_cons, null]
    rfl
  rw [LinPy.reports, parts, foldlM_append, opened]
  exact rest'

end Frames

end LinPy

theorem foldl_linBytes (data : List LinByte) (start : Nat) :
    data.foldl (fun sum byte => sum + byte.val.toNat) start =
      start + data.foldl (fun sum byte => sum + byte.val.toNat) 0 := by
  induction data generalizing start with
  | nil => rfl
  | cons byte data ih =>
      rw [foldl_cons, foldl_cons, ih, ih (0 + _)]
      omega

theorem foldl_linBytes_le (data : List LinByte) :
    data.foldl (fun sum byte => sum + byte.val.toNat) 0 ≤ 255 * data.length := by
  induction data with
  | nil => exact Nat.le_refl 0
  | cons byte data ih =>
      have small : byte.val.toNat < 256 := byte.val.toNat_lt
      rw [foldl_cons, foldl_linBytes, length_cons]
      omega

/-- The checksum stands for a sum of zero in the one way that `lin_c` does not take. -/
def LinOverlooked (version : Nat) (pid : UInt8) (data : List LinByte) (checksum : UInt8) : Prop :=
  checksum = 255 ∧ linSum version pid data ≠ 0 ∧ linSum version pid data % 255 = 0

section Verdicts

variable {version : Nat} {pid checksum : UInt8} {data : List LinByte}

variable (version pid data checksum) in
theorem checksumCompute_iff : checksum.toNat = LinC.checksumCompute version pid data ↔
      (linSum version pid data + checksum.toNat ≠ 0 ∧
        (linSum version pid data + checksum.toNat) % 255 = 0) ∧
        ¬LinOverlooked version pid data checksum := by
  have byte : checksum.toNat < 256 := checksum.toNat_lt
  have all_ones : checksum = 255 ↔ checksum.toNat = 255 := UInt8.toNat_inj.symm
  rw [LinC.checksumCompute, LinOverlooked, all_ones]
  generalize linSum version pid data = sum
  have small : foldCarries 256 sum sum < 256 := foldCarries_lt (by decide) (Nat.le_add_left _ _)
  have same : foldCarries 256 sum sum % 255 = sum % 255 := foldCarries_mod 255 sum sum
  have zero : foldCarries 256 sum sum = 0 ↔ sum = 0 := foldCarries_eq_zero
  generalize foldCarries 256 sum sum = word at small same zero
  omega

variable (pid checksum) in
theorem checksumIsValid_iff (versions : version = 1 ∨ version = 2) (few : data.length ≤ 8) :
    LinPy.checksumIsValid version pid data checksum = true ↔
      linSum version pid data + checksum.toNat ≠ 0 ∧
        (linSum version pid data + checksum.toNat) % 255 = 0 := by
  have byte : checksum.toNat < 256 := checksum.toNat_lt
  have pid_byte : pid.toNat < 256 := pid.toNat_lt
  have bound := foldl_linBytes_le data
  have enhanced : linEnhanced version pid = true ↔
      version = 2 ∧ linId pid ≠ 60 ∧ linId pid ≠ 61 := by
    rw [linEnhanced, Bool.and_eq_true, Bool.and_eq_true, decide_eq_true_eq, bne_iff_ne, bne_iff_ne,
      and_assoc]
    omega
  have sum : data.foldl (fun sum byte => sum + byte.val.toNat)
      (if version = 2 ∧ linId pid ≠ 60 ∧ linId pid ≠ 61 then checksum.toNat + pid.toNat
        else checksum.toNat) = linSum version pid data + checksum.toNat := by
    rw [linSum, foldl_linBytes, foldl_linBytes data (if linEnhanced version pid then _ else _)]
    simp only [enhanced]
    split <;> omega
  have most : linSum version pid data + checksum.toNat ≤ 2550 := by
    rw [linSum, foldl_linBytes]
    split <;> omega
  rw [LinPy.checksumIsValid, sum, beq_iff_eq]
  have carries : (linSum version pid data + checksum.toNat +
      (linSum version pid data + checksum.toNat) / 256) % 256 =
        addCarries 256 (linSum version pid data + checksum.toNat) % 256 := by
    rw [addCarries]
    omega
  rw [carries]
  exact addCarries_eq_base _ (by omega)

theorem verdicts_same (versions : version = 1 ∨ version = 2) (few : data.length ≤ 8) :
    (checksum.toNat == LinC.checksumCompute version pid data) =
        LinPy.checksumIsValid version pid data checksum ↔
      ¬LinOverlooked version pid data checksum := by
  have valid := checksumIsValid_iff pid checksum versions few
  have computed := checksumCompute_iff version pid checksum data
  rw [Bool.eq_iff_iff, beq_iff_eq, computed, valid]
  constructor
  · intro same overlooked
    have whole : linSum version pid data + checksum.toNat ≠ 0 ∧
        (linSum version pid data + checksum.toNat) % 255 = 0 := by
      obtain ⟨rfl, some, multiple⟩ := overlooked
      have ones : (255 : UInt8).toNat = 255 := rfl
      omega
    exact (same.mpr whole).2 overlooked
  · exact fun seen => and_iff_left seen

theorem reports_same (sync : LinByte) (pid : LinByte) (checksum : LinByte)
    (versions : version = 1 ∨ version = 2)
    (few : data.length ≤ 8) :
    LinC.report version [sync, pid] (data ++ [checksum]) =
        LinPy.report version [sync, pid] (data ++ [checksum]) ↔
      (data ≠ [] → ¬LinOverlooked version pid.val data checksum.val) := by
  simp only [LinC.report, LinPy.report, getLast?_concat, dropLast_concat,
    Option.bind_some, Option.some.injEq, LinReport.mk.injEq, true_and]
  cases data with
  | nil => exact iff_of_true rfl fun some => absurd rfl some
  | cons byte data =>
      rw [imp_iff_right (cons_ne_nil _ _), ← verdicts_same versions few]
      simp only [isEmpty_cons, Bool.false_eq_true, if_false, Option.some.injEq, Prod.mk.injEq,
        true_and]

end Verdicts

/-- What a frame must be for `lin_c` to say of it what Python says. -/
structure LinFrame.Met (frame : LinFrame) (version : Nat) (followed : Bool) : Prop where
  length : frame.rsp.length ≤ frame.dataLen + 1
  answered : followed = true → frame.rsp ≠ []
  whole : followed = true → frame.rsp.length ≠ frame.dataLen
  checksum : ∀ data checksum, frame.rsp = data ++ [checksum] → data ≠ [] →
    ¬LinOverlooked version frame.pid.val data checksum.val

def LinMet (version : Nat) : List LinFrame → Prop
  | [] => True
  | [frame] => frame.Met version false
  | frame :: next :: rest => frame.Met version true ∧ LinMet version (next :: rest)

section Frames

variable {version : Nat} {frame : LinFrame}

theorem length_of_report {rsp : List LinByte} (some : rsp ≠ []) (answered : frame.rsp ≠ [])
    (same : (LinC.report version [frame.sync, frame.pid] rsp).toList =
      LinPy.followedReport version frame) : rsp.length = frame.rsp.length := by
  obtain ⟨data, checksum, rfl⟩ : ∃ data checksum, rsp = data ++ [checksum] :=
    ⟨_, _, (dropLast_concat_getLast some).symm⟩
  simp only [LinPy.followedReport, LinPy.report, LinC.report, getLast?_concat,
    dropLast_concat, toList_some] at same
  have length := congrArg (fun report => report.data.length) (List.cons.inj same).1
  dsimp only at length
  have more := length_pos_iff.mpr answered
  rw [length_dropLast] at length
  rw [length_append, length_singleton]
  omega

theorem report_rsp (versions : version = 1 ∨ version = 2) (answered : frame.rsp ≠ []) :
    (LinC.report version [frame.sync, frame.pid] frame.rsp).toList =
        LinPy.followedReport version frame ↔
      ∀ data checksum, frame.rsp = data ++ [checksum] → data ≠ [] →
        ¬LinOverlooked version frame.pid.val data checksum.val := by
  have parts := dropLast_concat_getLast answered
  have few : frame.rsp.dropLast.length ≤ 8 := by
    have most := frame.length_rsp
    rw [length_dropLast]
    omega
  have same := reports_same frame.sync frame.pid (frame.rsp.getLast answered) versions few
  rw [parts] at same
  have lists : (LinC.report version [frame.sync, frame.pid] frame.rsp).toList =
        LinPy.followedReport version frame ↔
      LinC.report version [frame.sync, frame.pid] frame.rsp =
        LinPy.report version [frame.sync, frame.pid] frame.rsp :=
    toList_eq_singleton_iff
  rw [lists, same]
  constructor
  · intro seen data checksum cut
    have ends := append_inj' (parts.trans cut) rfl
    rw [← ends.1, ← (List.cons.inj ends.2).1]
    exact seen
  · exact fun seen => seen _ _ parts.symm

/-- The length that the identifier announces, with the checksum, is enough. -/
theorem report_take (versions : version = 1 ∨ version = 2) (answered : frame.rsp ≠ []) :
    (LinC.report version [frame.sync, frame.pid]
        (frame.rsp.take (frame.dataLen + 1))).toList = LinPy.followedReport version frame ↔
      frame.Met version false := by
  rcases Nat.lt_or_ge (frame.dataLen + 1) frame.rsp.length with long | short
  · refine iff_of_false (fun same => ?_) fun met => absurd met.length (Nat.not_le_of_lt long)
    have some : frame.rsp.take (frame.dataLen + 1) ≠ [] := by
      rw [← length_pos_iff, length_take]
      omega
    have length := length_of_report some answered same
    rw [length_take] at length
    omega
  · rw [take_of_length_le short, report_rsp versions answered]
    exact ⟨fun seen => ⟨short, nofun, nofun, seen⟩, fun met => met.checksum⟩

theorem lastReport_iff (versions : version = 1 ∨ version = 2) :
    LinC.lastReport version frame = LinPy.lastReport version frame ↔ frame.Met version false := by
  rw [LinC.lastReport, LinPy.lastReport]
  by_cases answered : frame.rsp = []
  · rw [if_pos answered, answered, take_nil, LinC.report_nil]
    refine iff_of_true rfl ⟨by rw [answered]; exact Nat.zero_le _, by simp, by simp, ?_⟩
    intro data checksum cut
    rw [answered] at cut
    exact absurd cut.symm (append_ne_nil_of_right_ne_nil _ (cons_ne_nil _ _))
  · rw [if_neg answered]
    exact report_take versions answered

theorem followedReport_iff (versions : version = 1 ∨ version = 2) (null : LinByte) :
    LinC.followedReport version frame null = LinPy.followedReport version frame ↔
      frame.Met version true := by
  rw [LinC.followedReport]
  by_cases answered : frame.rsp = []
  · refine iff_of_false ?_ fun met => met.answered rfl answered
    have long : frame.rsp.length ≠ frame.dataLen := by
      rw [answered, LinFrame.dataLen, pidToDataLen]
      split
      · decide
      · split <;> decide
    rw [if_neg long, answered, take_nil, LinC.report_nil]
    exact (cons_ne_nil _ _).symm
  · split
    next whole =>
      refine iff_of_false (fun same => ?_) fun met => met.whole rfl whole
      have length := length_of_report
        (append_ne_nil_of_right_ne_nil _ (cons_ne_nil _ _)) answered same
      rw [length_append, length_singleton] at length
      omega
    next other =>
      rw [report_take versions answered]
      exact ⟨fun met => ⟨met.length, fun _ => answered, fun _ => other, met.checksum⟩,
        fun met => ⟨met.length, by simp, by simp, met.checksum⟩⟩

variable (version) in
theorem length_framesReports (frame : LinFrame) (rest : List LinFrame) :
    (LinC.framesReports version frame rest).length ≤
      (LinPy.framesReports version frame rest).length := by
  induction rest generalizing frame with
  | nil =>
      rw [LinC.framesReports, LinPy.framesReports, LinC.lastReport, LinPy.lastReport]
      by_cases answered : frame.rsp = []
      · rw [if_pos answered, answered, take_nil, LinC.report_nil]
        exact Nat.le_refl 0
      · rw [if_neg answered]
        exact length_toList_le
  | cons next rest ih =>
      rw [LinC.framesReports, LinPy.framesReports, length_append, length_append]
      exact Nat.add_le_add length_toList_le (ih next)

theorem framesReports_iff (versions : version = 1 ∨ version = 2) (frame : LinFrame)
    (rest : List LinFrame) :
    LinC.framesReports version frame rest = LinPy.framesReports version frame rest ↔
      LinMet version (frame :: rest) := by
  induction rest generalizing frame with
  | nil => exact lastReport_iff versions
  | cons next rest ih =>
      rw [LinC.framesReports, LinPy.framesReports, LinMet, ← ih next,
        ← followedReport_iff versions next.null]
      constructor
      · intro same
        have length := congrArg List.length same
        have others := length_framesReports version next rest
        have one : (LinPy.followedReport version frame).length = 1 := rfl
        rw [length_append, length_append, one] at length
        have most : (LinC.followedReport version frame next.null).length ≤ 1 := length_toList_le
        exact append_inj same (by omega)
      · rintro ⟨first, others⟩
        rw [first, others]

end Frames

namespace LinC

/-- Both decoders say the same of all the frames exactly when every frame is met. -/
theorem frames_reported (version : Nat) (versions : version = 1 ∨ version = 2)
    (frames : List LinFrame) :
    LinPy.reports version frames = some (reports version frames) ↔ LinMet version frames := by
  cases frames with
  | nil => exact iff_of_true rfl trivial
  | cons frame rest =>
      rw [LinPy.reports_cons, reports_cons, Option.some.injEq, eq_comm]
      exact framesReports_iff versions frame rest

def frameOf (rsp : List UInt8) (short : (rsp.map (LinByte.mk 50 60)).length ≤ 9) : LinFrame :=
  { null := ⟨0, 10, 0⟩
    breakSs := 0
    breakEs := 13
    sync := ⟨20, 30, 0x55⟩
    pid := ⟨30, 40, 0x50⟩
    rsp := rsp.map (LinByte.mk 50 60)
    null_val := rfl
    length_rsp := short }

def twoFrames : List LinFrame :=
  [frameOf [1, 2, 0xAC] (by decide), frameOf [1, 2, 0xAC] (by decide)]

theorem frames_reported_twoFrames :
    LinPy.reports 2 twoFrames = some (reports 2 twoFrames) ↔ LinMet 2 twoFrames :=
  frames_reported 2 (Or.inr rfl) twoFrames

/-- Four data bytes, of which two are put out, and the third is taken for the checksum. -/
def fourBytes : LinFrame :=
  frameOf [1, 2, 3, 4, 0xA5] (by decide)

theorem fourBytes_misreported : LinPy.reports 2 [fourBytes] ≠ some (reports 2 [fourBytes]) ∧
      (reports 2 [fourBytes]).map (fun report => report.data.map LinByte.val) = [[1, 2]] := by
  decide +kernel

end LinC

end SigrokDecode
