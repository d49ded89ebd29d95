import SigrokDecode.Decoders.Spacewire

/-!
# What is reported of SpaceWire characters

Behind the first null `spacewire_c` stands at the parity bit of each character when it has reported
the character in front of it.
-/

set_option linter.dupNamespace false

namespace SigrokDecode

open Foundation List

namespace SpacewireState

theorem texts_put (s : SpacewireState) (first last : Nat) (text : SpacewireText) :
    (s.put first last text).texts = s.texts ++ [text] := by
  rw [texts, put, map_append]
  rfl

theorem putBits_eq (s : SpacewireState) (count : Nat) :
    ∃ anns, s.putBits count = { s with anns := anns } ∧ anns.map SpacewireAnn.text =
        s.texts ++ (range count).reverse.map (fun i => .data (s.dataVal.getLsbD i)) := by
  rw [putBits]
  generalize (range count).reverse = places
  induction places generalizing s with
  | nil => exact ⟨s.anns, rfl, (List.append_nil _).symm⟩
  | cons i places ih =>
      obtain ⟨anns, same, more⟩ := ih (s.put (i + 1) i (.data (s.dataVal.getLsbD i)))
      refine ⟨anns, same, ?_⟩
      rw [more, texts_put, List.append_assoc]
      rfl

variable {bits : List Bool} {t : SpacewireState}

theorem range_reverse_getLsbD {word : BitVec 32}
    (low : word.toNat % 2 ^ bits.length = packMsb bits) :
    (range bits.length).reverse.map word.getLsbD = bits := by
  have places : (range bits.length).reverse.map word.getLsbD =
      (range bits.length).reverse.map (packMsb bits).testBit := by
    refine map_congr_left fun i member => ?_
    have inside : i < bits.length := mem_range.mp (mem_reverse.mp member)
    rw [← low, Nat.testBit_mod_two_pow, decide_eq_true inside, Bool.true_and]
    rfl
  exact places.trans (range_reverse_packMsb bits)

theorem foldl_range_getLsbD {word : BitVec 32} (low : word.toNat % 2 ^ bits.length = packMsb bits) :
    (range bits.length).foldl (fun parity i => parity ^^ word.getLsbD i) false =
      bits.foldr (fun bit parity => parity ^^ bit) false := by
  have backward : (range bits.length).map word.getLsbD = bits.reverse := by
    rw [← range_reverse_getLsbD low, length_map, length_reverse, length_range,
      map_reverse, List.reverse_reverse]
  rw [← foldl_reverse, ← backward, foldl_map]

theorem getLsbD_shiftIn_zero (word : BitVec 32) (bit : Bool) :
    (shiftIn word bit).getLsbD 0 = bit := by
  rw [shiftIn, BitVec.getLsbD_or, BitVec.getLsbD_shiftLeft]
  cases bit <;> rfl

theorem getLsbD_shiftIn_one (word : BitVec 32) (bit : Bool) :
    (shiftIn word bit).getLsbD 1 = word.getLsbD 0 := by
  rw [shiftIn, BitVec.getLsbD_or, BitVec.getLsbD_shiftLeft]
  cases bit <;> simp

theorem controlCharOf_eq {word : BitVec 32} (bits : List Bool) (three : bits.length = 3)
    (low : word.toNat % 2 ^ bits.length = packMsb bits) :
    (word &&& 0b111).toNat = packMsb bits ∧ controlCharOf word = reverse3 (packMsb bits) := by
  have masked : (word &&& 0b111).toNat = packMsb bits := by
    rw [BitVec.toNat_and, ← low, three]
    exact Nat.and_two_pow_sub_one_eq_mod word.toNat 3
  exact ⟨masked, congrArg reverse3 masked⟩

/-! ## Steps -/

/-- The decoder is at this place of a character. -/
structure Follows (s : SpacewireState) (index charLen : Nat) (before : SpacewireChar)
    (word : BitVec 32) (texts : List SpacewireText) : Prop where
  state : s.state = .sync
  index : s.index = index
  charLen : s.charLen = charLen
  lastLen : s.lastLen = before.payload.length + 1
  lastBits : s.lastDataVal.toNat % 2 ^ before.payload.length = packMsb before.payload
  lastEsc : s.lastLen = charLenControl → (controlCharOf s.lastDataVal = escCode ↔ before = .esc)
  dataVal : s.dataVal = word
  texts : s.texts = texts

variable {s : SpacewireState} {index charLen : Nat} {before : SpacewireChar} {word : BitVec 32}
  {texts : List SpacewireText}

theorem Follows.snInsert (follows : s.Follows index charLen before word texts) (samplenum : Nat) :
    (s.snInsert samplenum).Follows index charLen before word texts :=
  { follows with }

theorem handleEdge_sync (sync : s.state = .sync) (samplenum : Nat) (data : Bool) :
    s.handleEdge samplenum data =
      { (s.snInsert samplenum).followChar with
        dataVal := shiftIn (s.snInsert samplenum).followChar.dataVal data } := by
  have still : (s.snInsert samplenum).state = .sync := sync
  rw [handleEdge, examine]
  simp only [still]

section

variable (follows : s.Follows index charLen before word texts)
include follows

theorem Follows.count (other : index ≠ 1)
    (early : index ≠ charLen) (samplenum : Nat) (data : Bool) :
    (s.handleEdge samplenum data).Follows (index + 1) charLen before (shiftIn word data)
      texts := by
  have follows := follows.snInsert samplenum
  rw [handleEdge_sync (s := s) follows.state]
  generalize s.snInsert samplenum = s at follows
  have counted : s.followChar = { s with index := s.index + 1 } := by
    rw [followChar, if_neg (by rw [follows.index]; exact other),
      if_neg (by rw [follows.index, follows.charLen]; exact early)]
  rw [counted]
  exact { follows with
      index := congrArg (· + 1) follows.index
      dataVal := congrArg (shiftIn · data) follows.dataVal }

theorem Follows.put (first last : Nat) (text : SpacewireText) :
    (s.put first last text).Follows index charLen before word (texts ++ [text]) := by
  refine { follows with texts := ?_ }
  rw [texts_put, follows.texts]

theorem Follows.parity {char : SpacewireChar}
    (flag : word.getLsbD 0 = char.flag) : s.parity = before.parityBit char := by
  rw [SpacewireState.parity, follows.lastLen, Nat.add_sub_cancel,
    foldl_range_getLsbD follows.lastBits, follows.dataVal, flag, Bool.xor_true]
  rfl

theorem Follows.checkParity
    {char : SpacewireChar} (flag : word.getLsbD 0 = char.flag) :
    s.checkParity.Follows index charLen before word (texts ++ .parity (word.getLsbD 1) ::
        if word.getLsbD 1 = before.parityBit char then [] else [.parityError]) := by
  have shown := follows.put 2 1 (.parity (word.getLsbD 1))
  have checked := shown.parity flag
  rw [SpacewireState.checkParity, follows.dataVal]
  generalize s.put 2 1 (.parity (word.getLsbD 1)) = t at shown checked
  rw [checked, shown.dataVal]
  by_cases right : word.getLsbD 1 = before.parityBit char
  · rw [if_neg (fun wrong => wrong right.symm), if_pos right]
    exact shown
  · rw [if_pos (fun same => right same.symm), if_neg right, append_cons]
    exact shown.put 2 1 .parityError

end

theorem Follows.flag (follows : s.Follows 1 charLen before word texts) (samplenum : Nat)
    (data : Bool) {char : SpacewireChar} (flag : word.getLsbD 0 = char.flag) :
    (s.handleEdge samplenum data).Follows 2 (char.payload.length + 1) before (shiftIn word data)
      (texts ++ .dcf char.flag :: .parity (word.getLsbD 1) ::
        if word.getLsbD 1 = before.parityBit char then [] else [.parityError]) := by
  have follows := follows.snInsert samplenum
  rw [handleEdge_sync (s := s) follows.state]
  generalize s.snInsert samplenum = s at follows
  have wide : (if s.dataVal.getLsbD 0 then charLenControl else charLenData) =
      char.payload.length + 1 := by
    rw [follows.dataVal, flag]
    cases char <;> rfl
  obtain ⟨t, sized⟩ : ∃ t, t = { s with charLen := char.payload.length + 1 } := ⟨_, rfl⟩
  have widened : t.Follows 1 (char.payload.length + 1) before word texts := by
    rw [sized]
    exact { follows with charLen := rfl }
  have read : s.followChar =
      { (t.put 1 0 (.dcf (t.dataVal.getLsbD 0))).checkParity with
        index := (t.put 1 0 (.dcf (t.dataVal.getLsbD 0))).checkParity.index + 1 } := by
    rw [followChar, if_pos follows.index, readFlag, sized, ← wide]
  have checked := (widened.put 1 0 (.dcf char.flag)).checkParity flag
  rw [read, widened.dataVal, flag, append_cons]
  generalize (t.put 1 0 (.dcf char.flag)).checkParity = u at checked
  exact { checked with
      index := congrArg (· + 1) checked.index
      dataVal := congrArg (shiftIn · data) checked.dataVal }

theorem Follows.escape_iff (follows : s.Follows index charLen before word texts) :
    s.lastLen = charLenControl ∧ controlCharOf s.lastDataVal = escCode ↔ before = .esc := by
  constructor
  · rintro ⟨control, escape⟩
    exact (follows.lastEsc control).mp escape
  · rintro rfl
    exact ⟨follows.lastLen, (follows.lastEsc follows.lastLen).mpr rfl⟩

theorem Follows.putCode (follows : s.Follows index charLen before word texts)
    (right : Prop) [Decidable right] (first : Nat) (text : SpacewireText) :
    (if s.lastLen = charLenControl then
        if controlCharOf s.lastDataVal = escCode ∧ right then s.put first 0 text else s
      else s).Follows index charLen before word
        (texts ++ if before = .esc ∧ right then [text] else []) := by
  by_cases escape : before = .esc ∧ right
  · have marked := follows.escape_iff.mpr escape.1
    rw [if_pos marked.1, if_pos ⟨marked.2, escape.2⟩, if_pos escape]
    exact follows.put first 0 text
  · rw [if_neg escape, List.append_nil]
    split
    next control =>
      rw [if_neg fun both => escape ⟨follows.escape_iff.mp ⟨control, both.1⟩, both.2⟩]
      exact follows
    next => exact follows

theorem reverseBits_lsbBits (byte : BitVec 8) :
    reverseBits (packMsb (lsbBits 8 byte.toNat)) 8 = byte.toNat := by
  have all : ∀ byte : BitVec 8, reverseBits (packMsb (lsbBits 8 byte.toNat)) 8 = byte.toNat := by
    decide +kernel
  exact all byte

theorem Follows.putData {byte : BitVec 8} (follows : s.Follows index charLenData before word texts)
    (low : word.toNat % 2 ^ 8 = packMsb (lsbBits 8 byte.toNat)) :
    s.putData.Follows index charLenData before word
      (texts ++ .dataChar byte.toNat :: before.code (.data byte)) := by
  have value : reverseBits (s.dataVal &&& 0xff).toNat 8 = byte.toNat := by
    rw [follows.dataVal, BitVec.toNat_and, ← reverseBits_lsbBits, ← low]
    exact congrArg (reverseBits · 8) (Nat.and_two_pow_sub_one_eq_mod word.toNat 8)
  have code : before.code (.data byte) = if before = .esc ∧ True then [.time] else [] := by
    cases before <;> rfl
  have shown := follows.put (s.charLen + 1) 0 (.dataChar byte.toNat)
  rw [SpacewireState.putData, value, code, append_cons]
  generalize s.put (s.charLen + 1) 0 (.dataChar byte.toNat) = t at shown
  have coded := shown.putCode True (charLenControl + t.charLen + 2) .time
  simpa only [and_true] using coded

theorem Follows.putControl {char : SpacewireChar} (control : char.flag = true)
    (follows : s.Follows index charLenControl before word texts)
    (low : word.toNat % 2 ^ 3 = packMsb (char.flag :: char.payload)) :
    s.putControl.Follows index charLenControl before word
      (texts ++ char.text :: before.code char) := by
  have three : (char.flag :: char.payload).length = 3 := by
    cases char with
    | data byte => cases control
    | fct | eop | eep | esc => rfl
  obtain ⟨masked, value⟩ := controlCharOf_eq (char.flag :: char.payload) three (three ▸ low)
  have code : before.code char =
      if before = .esc ∧ controlCharOf word = fctCode then [.null] else [] := by
    rw [value]
    cases char with
    | data byte => cases control
    | fct | eop | eep | esc => cases before <;> rfl
  have shownText : .ctrlChar (controlCharText (controlCharOf word) (word &&& 0b111).toNat) =
      char.text := by
    rw [value, masked]
    cases char with
    | data byte => cases control
    | fct | eop | eep | esc => rfl
  have shown := follows.put (s.charLen + 1) 0 char.text
  rw [SpacewireState.putControl, follows.dataVal, shownText, code, append_cons]
  generalize s.put (s.charLen + 1) 0 char.text = t at shown
  exact shown.putCode (controlCharOf word = fctCode) (charLenControl * 2 + 2) .null

theorem Follows.putChar {char : SpacewireChar}
    (follows : s.Follows index (char.payload.length + 1) before word texts)
    (low : word.toNat % 2 ^ (char.payload.length + 1) = packMsb (char.flag :: char.payload))
    (lowPayload : word.toNat % 2 ^ char.payload.length = packMsb char.payload) :
    (if s.charLen = charLenControl then s.putControl
      else if s.charLen = charLenData then s.putData
      else s).Follows index (char.payload.length + 1) before word
        (texts ++ char.text :: before.code char) := by
  rw [follows.charLen]
  cases char with
  | data byte => exact follows.putData lowPayload
  | fct | eop | eep | esc => exact follows.putControl rfl low

theorem Follows.putBits (follows : s.Follows index charLen before word texts)
    (low : word.toNat % 2 ^ bits.length = packMsb bits) :
    (s.putBits bits.length).Follows index charLen before word (texts ++ bits.map .data) := by
  obtain ⟨anns, same, shown⟩ := s.putBits_eq bits.length
  rw [same]
  refine { follows with texts := shown.trans ?_ }
  have read := congrArg (List.map SpacewireText.data) (range_reverse_getLsbD low)
  rw [map_map] at read
  rw [follows.texts, follows.dataVal, ← read]
  rfl

theorem two_le_payload (char : SpacewireChar) : 2 ≤ char.payload.length := by
  cases char with
  | data byte =>
      rw [SpacewireChar.payload, length_lsbBits]
      decide
  | fct | eop | eep | esc => exact Nat.le_refl 2

theorem controlCharOf_esc {char : SpacewireChar}
    (control : char.payload.length + 1 = charLenControl)
    (low : word.toNat % 2 ^ (char.payload.length + 1) = packMsb (char.flag :: char.payload)) :
    controlCharOf word = escCode ↔ char = .esc := by
  have value := (controlCharOf_eq (char.flag :: char.payload) control low).2
  rw [value]
  cases char with
  | data byte =>
      rw [SpacewireChar.payload, length_lsbBits] at control
      cases control
  | fct | eop | eep | esc => decide

theorem Follows.complete {char : SpacewireChar}
    (follows : s.Follows (char.payload.length + 1) (char.payload.length + 1) before word texts)
    (low : word.toNat % 2 ^ (char.payload.length + 1) = packMsb (char.flag :: char.payload))
    (lowPayload : word.toNat % 2 ^ char.payload.length = packMsb char.payload)
    (samplenum : Nat) (data : Bool) :
    (s.handleEdge samplenum data).Follows 0 (char.payload.length + 1) char (shiftIn word data)
      (texts ++ char.payload.map .data ++ char.text :: before.code char) := by
  have follows := follows.snInsert samplenum
  rw [handleEdge_sync (s := s) follows.state]
  generalize s.snInsert samplenum = s at follows
  have late : ¬ s.index = 1 := by
    have some := two_le_payload char
    rw [follows.index]
    omega
  have whole : s.index = s.charLen := follows.index.trans follows.charLen.symm
  have shown := (follows.putBits lowPayload).putChar low lowPayload
  have counted : s.charLen - 1 = char.payload.length := by rw [follows.charLen, Nat.add_sub_cancel]
  rw [followChar, if_neg late, if_pos whole, SpacewireState.complete, counted]
  dsimp only
  generalize (if (s.putBits char.payload.length).charLen = charLenControl then
      (s.putBits char.payload.length).putControl
    else if (s.putBits char.payload.length).charLen = charLenData then
      (s.putBits char.payload.length).putData
    else s.putBits char.payload.length) = t at shown ⊢
  refine ⟨shown.state, rfl, shown.charLen, shown.charLen, ?_, ?_,
    congrArg (shiftIn · data) shown.dataVal, shown.texts⟩
  · exact shown.dataVal ▸ lowPayload
  · intro control
    rw [shown.dataVal]
    exact controlCharOf_esc (shown.charLen.symm.trans control) low

inductive Reads : SpacewireState → List Bool → SpacewireState → Prop
  | done (s : SpacewireState) : Reads s [] s
  | edge (samplenum : Nat) {s t : SpacewireState} {bit : Bool} {bits : List Bool}
      (behind : Reads (s.handleEdge samplenum bit) bits t) : Reads s (bit :: bits) t

theorem Reads.split {front back : List Bool} {s : SpacewireState}
    (reads : Reads s (front ++ back) t) : ∃ middle, Reads s front middle ∧ Reads middle back t := by
  induction front generalizing s with
  | nil => exact ⟨s, .done s, reads⟩
  | cons bit front ih =>
      obtain _ | ⟨samplenum, behind⟩ := reads
      obtain ⟨middle, first, last⟩ := ih behind
      exact ⟨middle, .edge samplenum first, last⟩

theorem Follows.counts (reads : Reads s bits t)
    (follows : s.Follows index charLen before word texts) (behind : 1 < index)
    (fits : index + bits.length ≤ charLen) :
    t.Follows (index + bits.length) charLen before (bits.foldl shiftIn word) texts := by
  induction bits generalizing s index word with
  | nil =>
      obtain _ | _ := reads
      exact follows
  | cons bit bits ih =>
      obtain _ | ⟨samplenum, reads⟩ := reads
      rw [length_cons] at fits ⊢
      have counted := follows.count (by omega) (by omega) samplenum bit
      have run := ih reads counted (by omega) (by omega)
      rwa [show index + (bits.length + 1) = index + 1 + bits.length by omega]

/-- The parity bit behind `before` has been shifted in. -/
structure Begins (s : SpacewireState) (before : SpacewireChar) (parity : Bool)
    (texts : List SpacewireText) : Prop where
  long : 1 < s.charLen
  follows : s.Follows 0 s.charLen before s.dataVal texts
  parity : s.dataVal.getLsbD 0 = parity

theorem Begins.char {parity next : Bool} (begins : s.Begins before parity texts)
    (char : SpacewireChar)
    (reads : Reads s (char.flag :: char.payload ++ [next]) t) :
    t.Begins char next (texts ++ before.report char parity) := by
  have some := two_le_payload char
  obtain ⟨first, later, payload⟩ : ∃ first later, char.payload = first :: later := by
    match char.payload, some with
    | first :: later, _ => exact ⟨first, later, rfl⟩
  obtain ⟨atEnd, front, last⟩ := reads.split
  rw [payload] at front
  obtain _ | ⟨flagAt, front⟩ := front
  obtain _ | ⟨firstAt, front⟩ := front
  obtain _ | ⟨lastAt, last⟩ := last
  obtain _ | _ := last
  have early : 0 ≠ s.charLen := Nat.ne_of_lt (Nat.lt_of_succ_lt begins.long)
  have flagged := begins.follows.count Nat.zero_ne_one early flagAt char.flag
  have opened := flagged.flag firstAt first (getLsbD_shiftIn_zero _ _)
  have length : char.payload.length = later.length + 1 := by rw [payload, length_cons]
  have counted := Follows.counts front opened (by decide) (by omega)
  have place : 2 + later.length = char.payload.length + 1 := by omega
  rw [place] at counted
  have word : later.foldl shiftIn (shiftIn (shiftIn s.dataVal char.flag) first) =
      (char.flag :: char.payload).foldl shiftIn s.dataVal := by
    rw [payload]
    rfl
  have wordPayload : later.foldl shiftIn (shiftIn (shiftIn s.dataVal char.flag) first) =
      char.payload.foldl shiftIn (shiftIn s.dataVal char.flag) := by
    rw [payload]
    rfl
  have short : char.payload.length ≤ 8 := by
    cases char with
    | data byte => exact Nat.le_of_eq (length_lsbBits 8 byte.toNat)
    | fct | eop | eep | esc => decide
  have low := foldl_shiftIn_mod s.dataVal (char.flag :: char.payload)
    (Nat.le_trans (Nat.succ_le_succ short) (by decide))
  have lowPayload := foldl_shiftIn_mod (shiftIn s.dataVal char.flag) char.payload
    (Nat.le_trans short (by decide))
  have completed := counted.complete (word ▸ low) (wordPayload ▸ lowPayload) lastAt next
  rw [getLsbD_shiftIn_one, begins.parity] at completed
  refine ⟨?_, { completed with charLen := rfl, dataVal := rfl, texts := ?_ }, ?_⟩
  · rw [completed.charLen]
    exact Nat.lt_succ_of_le (Nat.le_of_succ_le some)
  · rw [completed.texts, SpacewireChar.report]
    simp only [List.append_assoc, cons_append, nil_append]
  · rw [completed.dataVal]
    exact getLsbD_shiftIn_zero _ _

theorem headD_cons_tail (bits : List Bool) (last : Bool) :
    bits.headD last :: (bits ++ [last]).tail = bits ++ [last] := by
  cases bits <;> rfl

theorem Begins.chars {before : SpacewireChar} {last : Bool} {texts : List SpacewireText}
    (chars : List (SpacewireChar × Bool)) {s : SpacewireState}
    (begins : s.Begins before (((before.sentBits chars).headD last)) texts)
    (reads : Reads s ((before.sentBits chars ++ [last]).tail) t) :
    t.texts = texts ++ before.expected chars := by
  induction chars generalizing s before texts with
  | nil =>
      obtain _ | _ := reads
      exact begins.follows.texts.trans (List.append_nil _).symm
  | cons first chars ih =>
      obtain ⟨char, wrong⟩ := first
      have split : (before.sentBits ((char, wrong) :: chars) ++ [last]).tail =
          (char.flag :: char.payload ++ [(char.sentBits chars).headD last]) ++
            (char.sentBits chars ++ [last]).tail := by
        rw [List.append_assoc, singleton_append, headD_cons_tail]
        exact (List.append_assoc _ _ _)
      rw [split] at reads
      obtain ⟨middle, front, back⟩ := reads.split
      have next := begins.char char front
      rw [ih next back, List.append_assoc]
      rfl

/-- Nothing has been found yet. -/
structure Searches (s : SpacewireState) (word : BitVec 32) : Prop where
  state : s.state = .idle
  charLen : s.charLen = charLenControl
  dataVal : s.dataVal = word
  lastDataVal : s.lastDataVal = 0
  texts : s.texts = []

theorem Searches.edge (searches : s.Searches word) (other : word &&& 0b1111111 ≠ 0b1110100)
    (samplenum : Nat) (data : Bool) :
    (s.handleEdge samplenum data).Searches (shiftIn word data) := by
  have idle : (s.snInsert samplenum).state = .idle := searches.state
  have missed : ¬ (s.snInsert samplenum).dataVal &&& 0b1111111 = 0b1110100 := by
    rw [show (s.snInsert samplenum).dataVal = word from searches.dataVal]
    exact other
  rw [handleEdge, examine]
  simp only [idle]
  rw [searchNull, if_neg missed]
  exact { searches with dataVal := congrArg (shiftIn · data) searches.dataVal }

theorem searchNull_found (null : s.dataVal &&& 0b1111111 = 0b1110100) : ∃ anns, s.searchNull =
          { s with
            state := .sync
            lastLen := charLenControl
            index := 0
            anns := anns } ∧
        anns.map SpacewireAnn.text = s.texts ++ .parity (s.dataVal.getLsbD 7) ::
            (range 7).reverse.map (fun i => .data (s.dataVal.getLsbD i)) ++
              [SpacewireText.null] := by
  obtain ⟨anns, same, shown⟩ := (s.put (7 + 1) 7 (.parity (s.dataVal.getLsbD 7))).putBits_eq 7
  rw [searchNull, if_pos null]
  dsimp only
  rw [same]
  refine ⟨_, rfl, (texts_put _ _ _ _).trans ?_⟩
  rw [texts, shown, texts_put, List.append_assoc s.texts]
  rfl

theorem Searches.found (searches : s.Searches word) (null : word &&& 0b1111111 = 0b1110100)
    (samplenum : Nat) (data : Bool) :
    (s.handleEdge samplenum data).Begins .fct data
      (.parity (word.getLsbD 7) :: (range 7).reverse.map (fun i => .data (word.getLsbD i)) ++
        [SpacewireText.null]) := by
  have searches : (s.snInsert samplenum).Searches word :=
    { searches with }
  rw [handleEdge]
  generalize s.snInsert samplenum = s at searches
  obtain ⟨anns, same, shown⟩ := searchNull_found (searches.dataVal ▸ null)
  have examined : s.examine = s.searchNull := by rw [examine, searches.state]
  rw [examined, same]
  refine ⟨?_, ⟨rfl, rfl, rfl, rfl, ?_, ?_, rfl, ?_⟩, getLsbD_shiftIn_zero _ _⟩
  · rw [searches.charLen]
    decide
  · rw [searches.lastDataVal]
    rfl
  · intro _
    rw [searches.lastDataVal]
    decide
  · exact shown.trans (by rw [searches.texts, searches.dataVal, nil_append])

theorem Searches.reads (reads : Reads s bits t) (searches : s.Searches word)
    (never : ∀ count < bits.length,
      (bits.take count).foldl shiftIn word &&& 0b1111111 ≠ 0b1110100) :
    t.Searches (bits.foldl shiftIn word) := by
  induction bits generalizing s word with
  | nil =>
      obtain _ | _ := reads
      exact searches
  | cons bit bits ih =>
      obtain _ | ⟨samplenum, reads⟩ := reads
      have next := searches.edge (never 0 (Nat.succ_pos _)) samplenum bit
      exact ih reads next fun count fits =>
        never (count + 1) (Nat.succ_lt_succ fits)

theorem begins_null (parity next : Bool) (reads : Reads reset (nullBits parity ++ [next]) t) :
    t.Begins .fct next (nullTexts parity) := by
  obtain ⟨behind, front, last⟩ := reads.split
  obtain _ | ⟨lastAt, last⟩ := last
  obtain _ | _ := last
  have start : reset.Searches 0 := ⟨rfl, rfl, rfl, rfl, rfl⟩
  have searched := Searches.reads front start (by cases parity <;> decide)
  have found := searched.found (by cases parity <;> decide) lastAt next
  have shown : nullTexts parity =
      .parity (((nullBits parity).foldl shiftIn (0 : BitVec 32)).getLsbD 7) :: (range 7).reverse.map
          (fun i => .data (((nullBits parity).foldl shiftIn (0 : BitVec 32)).getLsbD i)) ++
        [SpacewireText.null] := by
    cases parity <;> decide
  rw [shown]
  exact found

end SpacewireState

def sendAll : SpacewirePins → List Bool → List SpacewirePins
  | _, [] => []
  | pins, bit :: bits => pins.send bit :: sendAll (pins.send bit) bits

theorem SpacewireLine.sendAll (pins : SpacewirePins) (bits : List Bool) :
    SpacewireLine pins bits (sendAll pins bits) := by
  induction bits generalizing pins with
  | nil => exact .done pins
  | cons bit bits ih => exact .bit bit (ih (pins.send bit))

theorem SpacewireLine.reads {pins : SpacewirePins} {bits : List Bool}
    {samples : List SpacewirePins} (line : SpacewireLine pins bits samples) (s : SpacewireState)
    (samplenum : Nat) :
    s.Reads bits (spacewireDecode.scan s pins samplenum samples) := by
  induction line generalizing s samplenum with
  | done pins => exact .done s
  | @still pins bits samples behind ih =>
      have asleep : spacewireDecode.wakes s pins pins = false := by simp [spacewireDecode]
      rw [SampleDecoder.scan_cons, SampleDecoder.step_asleep _ asleep]
      exact ih s (samplenum + 1)
  | @bit pins bit bits samples behind ih =>
      have awake : spacewireDecode.wakes s pins (pins.send bit) = true := by
        obtain ⟨data, strobe⟩ := pins
        cases data <;> cases strobe <;> cases bit <;> rfl
      rw [SampleDecoder.scan_cons, SampleDecoder.step_awake _ awake]
      exact .edge samplenum (ih _ (samplenum + 1))

namespace SpacewireChar

def reported : SpacewireChar → List SpacewireChar → List SpacewireText
  | _, [] => []
  | before, char :: chars => char.text :: before.code char ++ reported char chars

theorem count_report (before char : SpacewireChar) (wrong : Bool) :
    (before.report char (before.parityBit char ^^ wrong)).count .parityError = wrong.toNat := by
  have bits : (char.payload.map SpacewireText.data).count .parityError = 0 :=
    count_eq_zero.mpr (by simp)
  have text : (char.text :: before.code char).count .parityError = 0 := by
    cases char <;> cases before <;> rfl
  rw [report, count_append, count_append, count_append, bits, text]
  cases wrong <;> simp

theorem count_expected (before : SpacewireChar) (chars : List (SpacewireChar × Bool)) :
    (before.expected chars).count .parityError = chars.countP Prod.snd := by
  induction chars generalizing before with
  | nil => rfl
  | cons first chars ih =>
      obtain ⟨char, wrong⟩ := first
      rw [expected, count_append, count_report, ih, countP_cons, Nat.add_comm]
      cases wrong <;> rfl

theorem filter_report (before char : SpacewireChar) (parity : Bool) :
    (before.report char parity).filter SpacewireText.isCharacter =
      char.text :: before.code char := by
  have bits : (char.payload.map SpacewireText.data).filter SpacewireText.isCharacter = [] := by
    refine filter_eq_nil_iff.mpr fun text member => ?_
    obtain ⟨bit, _, rfl⟩ := mem_map.mp member
    exact Bool.false_ne_true
  have text : (char.text :: before.code char).filter SpacewireText.isCharacter =
      char.text :: before.code char := by
    cases char <;> cases before <;> rfl
  rw [report, filter_append, filter_append, filter_append, bits, text]
  split <;> rfl

theorem filter_expected (before : SpacewireChar) (chars : List (SpacewireChar × Bool)) :
    (before.expected chars).filter SpacewireText.isCharacter =
      before.reported (chars.map Prod.fst) := by
  induction chars generalizing before with
  | nil => rfl
  | cons first chars ih =>
      rw [expected, filter_append, filter_report, ih]
      rfl

end SpacewireChar

namespace SpacewireState

/-- Whatever is sent behind the first null is reported, each wrong parity bit once. -/
theorem spacewire_roundTrip (pins : SpacewirePins) (parity last : Bool)
    (chars : List (SpacewireChar × Bool)) {samples : List SpacewirePins}
    (line : SpacewireLine pins
      (nullBits parity ++ SpacewireChar.sentBits .fct chars ++ [last]) samples) :
    (spacewireDecode.scan reset pins 0 samples).texts =
        nullTexts parity ++ SpacewireChar.expected .fct chars ∧
      (spacewireDecode.scan reset pins 0 samples).texts.filter SpacewireText.isCharacter =
        .null :: SpacewireChar.reported .fct (chars.map Prod.fst) ∧
      (spacewireDecode.scan reset pins 0 samples).texts.count .parityError =
        chars.countP Prod.snd := by
  have reads := line.reads reset 0
  rw [List.append_assoc, ← headD_cons_tail, append_cons] at reads
  obtain ⟨middle, front, back⟩ := reads.split
  have whole := (begins_null parity _ front).chars chars back
  rw [whole, filter_append, count_append, SpacewireChar.filter_expected,
    SpacewireChar.count_expected]
  refine ⟨rfl, ?_, ?_⟩
  · cases parity <;> rfl
  · cases parity <;> exact Nat.zero_add _

/-- A time code, a data character with a wrong parity bit, and the end of a packet. -/
def timeAndData : List (SpacewireChar × Bool) :=
  [(.esc, false), (.data 0x2A, false), (.data 0xC5, true), (.eop, false)]

theorem spacewire_roundTrip_timeAndData : (spacewireDecode.scan reset ⟨false, false⟩ 0
        (sendAll ⟨false, false⟩
          (nullBits true ++ SpacewireChar.sentBits .fct timeAndData ++ [true]))).texts =
        nullTexts true ++ SpacewireChar.expected .fct timeAndData ∧
      (spacewireDecode.scan reset ⟨false, false⟩ 0 (sendAll ⟨false, false⟩
          (nullBits true ++ SpacewireChar.sentBits .fct timeAndData ++ [true]))).texts.filter
            SpacewireText.isCharacter =
        [.null, .ctrlChar "ESC", .dataChar 0x2A, .time, .dataChar 0xC5, .ctrlChar "EOP"] ∧
      (spacewireDecode.scan reset ⟨false, false⟩ 0 (sendAll ⟨false, false⟩
          (nullBits true ++ SpacewireChar.sentBits .fct timeAndData ++ [true]))).texts.count
            .parityError = 1 :=
  spacewire_roundTrip ⟨false, false⟩ true true timeAndData (SpacewireLine.sendAll _ _)

def wrongNullBits : List Bool :=
  true :: SpacewireChar.esc.flag :: SpacewireChar.esc.payload ++
    SpacewireChar.sentBits .esc [(.fct, true)]

/-- Such a null is not found, so that no parity is checked behind it. -/
theorem wrongNull_silent : (spacewireDecode.scan reset ⟨false, false⟩ 0 (sendAll ⟨false, false⟩
          (wrongNullBits ++ SpacewireChar.sentBits .fct [(.data 0x2A, false)] ++
            [true]))).texts.count .parityError ≠ 1 := by
  decide +kernel

end SpacewireState

end SigrokDecode
