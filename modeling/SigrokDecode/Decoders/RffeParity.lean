import SigrokDecode.Decoders.RffeVerdicts

/-!
# Parity bits of RFFE frames

A command frame is the slave address, the command with its first field and a parity bit; the others
are a byte and a parity bit.  The decoder leaves the slave address out.
-/

set_option linter.dupNamespace false

namespace SigrokDecode

open Foundation List

/-- A parity bit behind these bits; the number of ones should be odd. -/
def parityTexts (ones : List Bool) (bit : Bool) : List RffeText :=
  (if (ones ++ [bit]).count true % 2 = 1 then [] else [RffeText.parityWarning]) ++
    [RffeText.parity bit.toNat]

def RffeByte.checked (field : RffeField) (key key0 : Int) (byte : RffeByte) : List RffeText :=
  .field field key key0 byte.value.toNat :: parityTexts (msbBits 8 byte.value.toNat) byte.parity

def rffeDataChecked : List RffeByte → List RffeText
  | [] => []
  | byte :: bytes =>
      byte.checked .data (8 * (bytes.length + 1) - 1) (8 * (bytes.length + 1) - 8) ++
        rffeDataChecked bytes

namespace RffeRequest

def payload : RffeRequest → List Bool
  | .register0 data _ => [true] ++ msbBits 7 data.toNat
  | .register read address _ _ => [false, true, read] ++ msbBits 5 address.toNat
  | .extended read _ _ data _ _ => [false, false, read, false] ++ msbBits 4 (data.length - 1)
  | .extendedLong read _ _ _ data _ _ =>
      [false, false, true, true, read] ++ msbBits 3 (data.length - 1)

def first : RffeRequest → RffeText
  | .register0 data _ => .field .data 6 0 data.toNat
  | .register _ address _ _ => .field .address 4 0 address.toNat
  | .extended _ _ _ data _ _ => .field .byteCount 3 0 (data.length - 1)
  | .extendedLong _ _ _ _ data _ _ => .field .byteCount 2 0 (data.length - 1)

def parity : RffeRequest → Bool
  | .register0 _ parity | .register _ _ parity _ | .extended _ parity _ _ _ _
  | .extendedLong _ parity _ _ _ _ _ => parity

def rest : RffeRequest → List RffeText
  | .register0 _ _ => []
  | .register read _ _ data => handoverText read ++ data.checked .data 7 0
  | .extended read _ address data _ _ =>
      address.checked .address 7 0 ++ handoverText read ++ rffeDataChecked data
  | .extendedLong read _ high low data _ _ =>
      high.checked .address 15 8 ++ low.checked .address 7 0 ++ handoverText read ++
        rffeDataChecked data

end RffeRequest

/-- The texts of a frame, with these bits in front of its command. -/
def RffeFrame.checked (slave : List Bool) (frame : RffeFrame) : List RffeText :=
  [RffeText.ssc, .field .slaveAddress 3 0 frame.slave.toNat, .command frame.request.cmd,
      frame.request.first] ++
    (parityTexts (slave ++ frame.request.payload) frame.request.parity ++
      (frame.request.rest ++ [RffeText.busPark]))

namespace RffeTold

theorem clearOnes_byte (value : Fin 256) : RffeState.clearOnes 32 (BitVec.ofNat 32 value) true =
      decide ((msbBits 8 value).count true % 2 = 0) := by
  revert value
  decide +kernel

theorem warnings_eq {told : RffeTold} {ones : List Bool} (eight : ones.length = 8)
    (word : told.word = BitVec.ofNat 32 (packMsb ones)) (bit : Bool) :
    told.warnings bit.toNat ++ [RffeText.parity bit.toNat] = parityTexts ones bit := by
  have small := packMsb_lt ones
  rw [eight] at small
  have verdict := clearOnes_byte ⟨packMsb ones, small⟩
  have back := msbBits_packMsb ones
  rw [eight] at back
  dsimp only at verdict
  rw [back] at verdict
  rw [warnings, word, verdict, parityTexts, count_append]
  congr 1
  rcases Nat.mod_two_eq_zero_or_one (ones.count true) with even | odd
  · cases bit <;> simp [even, Nat.add_mod]
  · cases bit <;> simp [odd, Nat.add_mod]

/-- Behind the first parity bit of a frame, these texts are told with these warnings. -/
def Adds (texts checked : List RffeText) : Prop :=
  ∀ told : RffeTold, told.parities ≠ 0 → (texts.foldl tell told).texts = told.texts ++ checked ∧
      (texts.foldl tell told).parities ≠ 0

theorem Adds.append {texts checked texts' checked' : List RffeText} (front : Adds texts checked)
    (back : Adds texts' checked') : Adds (texts ++ texts') (checked ++ checked') := by
  intro told later
  rcases front told later with ⟨first, behind⟩
  rcases back _ behind with ⟨second, last⟩
  rw [foldl_append]
  refine ⟨?_, last⟩
  rw [second, first, List.append_assoc]

theorem adds_park : Adds [.busPark] [.busPark] :=
  fun _ later => ⟨rfl, later⟩

theorem adds_handover (read : Bool) :
    Adds (RffeRequest.handoverText read) (RffeRequest.handoverText read) := by
  cases read with
  | false => exact fun told later => ⟨(List.append_nil told.texts).symm, later⟩
  | true => exact adds_park

theorem adds_byte (byte : RffeByte) (field : RffeField) (key key0 : Int) :
    Adds (byte.texts field key key0) (byte.checked field key key0) := by
  intro told later
  have word : (told.tell (.field field key key0 byte.value.toNat)).word =
      BitVec.ofNat 32 (packMsb (msbBits 8 byte.value.toNat)) := by
    rw [packMsb_msbBits byte.value.isLt]
    exact if_neg later
  have warned := warnings_eq (length_msbBits 8 _) word byte.parity
  refine ⟨?_, Nat.succ_ne_zero _⟩
  show told.texts ++ [_] ++ _ = _
  rw [warned, List.append_assoc]
  rfl

theorem adds_data (bytes : List RffeByte) : Adds (rffeDataTexts bytes) (rffeDataChecked bytes) := by
  induction bytes with
  | nil => exact fun told later => ⟨(List.append_nil told.texts).symm, later⟩
  | cons byte bytes ih => exact (adds_byte byte _ _ _).append ih

theorem adds_request (request : RffeRequest) : ∃ texts,
    request.texts = request.first :: .parity request.parity.toNat :: texts ∧
      Adds texts request.rest := by
  cases request with
  | register0 data parity => exact ⟨_, rfl, fun told later => ⟨(List.append_nil _).symm, later⟩⟩
  | register read address parity data =>
      exact ⟨_, rfl, (adds_handover read).append (adds_byte data _ _ _)⟩
  | extended read parity address data some few =>
      exact ⟨_, rfl, ((adds_byte address _ _ _).append (adds_handover read)).append
        (adds_data data)⟩
  | extendedLong read parity high low data some few =>
      exact ⟨_, rfl, (((adds_byte high _ _ _).append (adds_byte low _ _ _)).append
        (adds_handover read)).append (adds_data data)⟩

theorem word_eq {told : RffeTold} (early : told.parities = 0) {front : List Bool}
    {width value : Nat} (bits : told.cmd.parityBits = packMsb front)
    (key : (told.key + 1).toNat = width) (data : told.data = BitVec.ofNat 32 value)
    (fits : value < 2 ^ width) :
    told.word = BitVec.ofNat 32 (packMsb (front ++ msbBits width value)) := by
  rw [word, if_pos early, bits, key, data, packMsb_append, packMsb_msbBits fits, length_msbBits,
    ← Nat.shiftLeft_add_eq_or_of_lt fits, Nat.shiftLeft_eq, Nat.add_comm, BitVec.ofNat_add]

theorem word_first (told : RffeTold) (early : told.parities = 0) (request : RffeRequest) :
    ((told.tell (.command request.cmd)).tell request.first).word =
      BitVec.ofNat 32 (packMsb request.payload) := by
  have early : ((told.tell (.command request.cmd)).tell request.first).parities = 0 := by
    cases request <;> exact early
  cases request with
  | register0 data parity => exact @word_eq _ early [true] 7 data.toNat rfl rfl rfl data.isLt
  | register read address parity data =>
      exact @word_eq _ early [false, true, read] 5 address.toNat (by cases read <;> rfl) rfl rfl
        address.isLt
  | extended read parity address data some few =>
      exact @word_eq _ early [false, false, read, false] 4 (data.length - 1)
        (by cases read <;> rfl) rfl rfl (by omega)
  | extendedLong read parity high low data some few =>
      exact @word_eq _ early [false, false, true, true, read] 3 (data.length - 1)
        (by cases read <;> rfl) rfl rfl (by omega)

theorem length_payload (request : RffeRequest) : request.payload.length = 8 := by
  cases request <;> simp [RffeRequest.payload]

theorem tell_first (told : RffeTold) (request : RffeRequest) :
    (told.tell request.first).texts = told.texts ++ [request.first] := by
  cases request <;> rfl

/-- The decoder counts the ones of the command without the slave address. -/
theorem foldl_frame (told : RffeTold) (frame : RffeFrame) :
    (frame.texts.foldl tell told).texts = told.texts ++ frame.checked [] := by
  rcases adds_request frame.request with ⟨texts, same, adds⟩
  obtain ⟨named, start⟩ : ∃ named, named =
      (told.tell .ssc).tell (.field .slaveAddress 3 0 frame.slave.toNat) := ⟨_, rfl⟩
  have early : named.parities = 0 := by
    rw [start]
    rfl
  have warned := warnings_eq (length_payload frame.request) (named.word_first early frame.request)
    frame.request.parity
  have parked := ((adds.append adds_park) (((named.tell (.command frame.request.cmd)).tell
    frame.request.first).tell (.parity frame.request.parity.toNat)) (Nat.succ_ne_zero _)).1
  have split : frame.texts.foldl tell told = (texts ++ [RffeText.busPark]).foldl tell
      (((named.tell (.command frame.request.cmd)).tell frame.request.first).tell
        (.parity frame.request.parity.toNat)) := by
    rw [RffeFrame.texts, same, start]
    simp only [foldl_append, foldl_cons, foldl_nil]
  rw [split, parked]
  show ((named.tell _).tell frame.request.first).texts ++ _ ++ _ = _
  rw [warned, tell_first, start, RffeFrame.checked, nil_append]
  simp only [tell, List.append_assoc, cons_append, nil_append]

theorem foldl_frames (told : RffeTold) (frames : List RffeFrame) :
    ((frames.flatMap RffeFrame.texts).foldl tell told).texts =
      told.texts ++ frames.flatMap (RffeFrame.checked []) := by
  induction frames generalizing told with
  | nil => exact (List.append_nil _).symm
  | cons frame frames ih =>
      rw [flatMap_cons, foldl_append, ih, foldl_frame, flatMap_cons, List.append_assoc]

end RffeTold

/-- Even numbers of ones in front change no verdict. -/
theorem parityTexts_append (slave ones : List Bool) (bit : Bool)
    (even : slave.count true % 2 = 0) : parityTexts (slave ++ ones) bit = parityTexts ones bit := by
  rw [parityTexts, parityTexts, List.append_assoc, count_append, Nat.add_mod, even,
    Nat.zero_add, Nat.mod_mod]

theorem parityTexts_append_ne (slave ones : List Bool) (bit : Bool)
    (odd : slave.count true % 2 ≠ 0) (back back' : List RffeText) :
    parityTexts ones bit ++ back ≠ parityTexts (slave ++ ones) bit ++ back' := by
  have odd : slave.count true % 2 = 1 := by omega
  rw [parityTexts, parityTexts, List.append_assoc slave]
  generalize ones ++ [bit] = all
  rw [count_append, Nat.add_mod, odd]
  rcases Nat.mod_two_eq_zero_or_one (all.count true) with verdict | verdict
  · rw [verdict]
    exact nofun
  · rw [verdict]
    exact nofun

theorem flatMap_checked_iff (frames : List RffeFrame) : frames.flatMap (RffeFrame.checked []) =
        frames.flatMap (fun frame => frame.checked (msbBits 4 frame.slave.toNat)) ↔
      ∀ frame ∈ frames, (msbBits 4 frame.slave.toNat).count true % 2 = 0 := by
  induction frames with
  | nil => exact ⟨fun _ => nofun, fun _ => rfl⟩
  | cons frame frames ih =>
      rw [flatMap_cons, flatMap_cons, forall_mem_cons, ← ih, RffeFrame.checked,
        RffeFrame.checked, nil_append]
      by_cases even : (msbBits 4 frame.slave.toNat).count true % 2 = 0
      · rw [parityTexts_append _ _ _ even, append_right_inj]
        exact (and_iff_right even).symm
      · refine iff_of_false (fun same => ?_) fun both => even both.1
        simp only [List.append_assoc, append_right_inj] at same
        exact parityTexts_append_ne _ _ _ even _ _ same

namespace RffeState

/-- There is a parity warning exactly for the frames without an odd number of ones. -/
def ParityVerdicts (frames : List RffeFrame) (samples : List RffePins) : Prop :=
  (rffeDecode.scan (reset true) ⟨false, false⟩ 0 samples).anns.map RffeAnn.text =
    frames.flatMap fun frame => frame.checked (msbBits 4 frame.slave.toNat)

theorem texts_frames (frames : List RffeFrame) {samples : List RffePins}
    (line : RffeLine ⟨false, false⟩ (frames.flatMap RffeFrame.events) samples) :
    (rffeDecode.scan (reset true) ⟨false, false⟩ 0 samples).anns.map RffeAnn.text =
      frames.flatMap (RffeFrame.checked []) := by
  have waits : (reset true).wait = .sscStart := rfl
  have rests := rests_of_wait waits (by decide) (by decide) ⟨false, false⟩
  have idle := (idles_reset true).frames frames (line.reads rests 0)
  rw [texts_scan, idle.texts, nil_append, RffeTold.foldl_frames]
  rfl

theorem parityVerdicts_iff (frames : List RffeFrame) {samples : List RffePins}
    (line : RffeLine ⟨false, false⟩ (frames.flatMap RffeFrame.events) samples) :
    ParityVerdicts frames samples ↔
      ∀ frame ∈ frames, (msbBits 4 frame.slave.toNat).count true % 2 = 0 := by
  rw [ParityVerdicts, texts_frames frames line]
  exact flatMap_checked_iff frames

/-- Slave address 5 has two ones. -/
theorem parityVerdicts_five :
    ParityVerdicts (writeAndRead.take 1) ((writeAndRead.take 1).flatMap sampleFrame) :=
  (parityVerdicts_iff _ (RffeLine.sampleFrames _)).mpr (by decide)

/-- Slave address 14 has three. -/
theorem parityVerdicts_fourteen :
    ¬ParityVerdicts writeAndRead (writeAndRead.flatMap sampleFrame) := by
  intro verdicts
  have told := texts_frames writeAndRead (RffeLine.sampleFrames _)
  exact absurd ((flatMap_checked_iff _).mp (told.symm.trans verdicts)) (by decide)

end RffeState

end SigrokDecode
