import Mathlib.Data.List.Basic
import SigrokDecode.Decoders.FourB5B

/-!
# Frames behind other symbols

A start delimiter sets the flags for data symbols, but it does not drop half a byte
that an earlier frame has left.
-/

namespace SigrokDecode

open Foundation List

/-- Where a decoder stands between two symbols. -/
structure FourB5BView where
  j : Bool
  k : Bool
  half : Option (BitVec 4)
  protos : List FourB5BProto

namespace FourB5BView

def takeNibble (view : FourB5BView) (nibble : BitVec 4) : FourB5BView :=
  match view.half with
  | some low =>
      { view with
        half := none
        protos := view.protos ++ [FourB5BProto.data (nibble ++ low)] }
  | none => { view with half := some nibble }

def take (view : FourB5BView) (symbol : BitVec 5) : FourB5BView :=
  match ctrlSym.getD symbol.toNat none with
  | some control =>
      { view with
        j := decide (symbol.toNat = 24) || view.j
        k := decide (symbol.toNat = 17) || view.k
        protos := view.protos ++ [FourB5BProto.ctrl control] }
  | none =>
      match dataSym.getD symbol.toNat none with
      | none => view
      | some nibble => if view.j && view.k then view.takeNibble nibble else view

end FourB5BView

namespace FourB5BState

def protos (s : FourB5BState) : List FourB5BProto :=
  s.outs.map FourB5BOut.proto

def view (s : FourB5BState) : FourB5BView :=
  { j := s.jkSeenJ, k := s.jkSeenK, half := s.lastNibble, protos := s.protos }

theorem halfByte_view (s : FourB5BState) (nibble : BitVec 4) (endSample : Nat) :
    (s.halfByte nibble endSample).view = s.view.takeNibble nibble := by
  unfold halfByte FourB5BView.takeNibble
  cases half : s.lastNibble with
  | none =>
      have viewHalf : s.view.half = none := half
      rw [viewHalf]
      rfl
  | some low =>
      have viewHalf : s.view.half = some low := half
      rw [viewHalf]
      simp [view, protos, proto, put]

variable {s : FourB5BState}

theorem handleSymbol_view {symbol : BitVec 5} (same : s.symbol = symbol.toNat) (endSample : Nat) :
    (s.handleSymbol endSample).view = s.view.take symbol := by
  unfold handleSymbol FourB5BView.take
  rw [same]
  cases ctrlSym.getD symbol.toNat none with
  | some control => simp [FourB5BState.control, view, protos, proto, put, same]
  | none =>
      cases dataSym.getD symbol.toNat none with
      | none => rfl
      | some nibble =>
          by_cases seen : (s.jkSeenJ && s.jkSeenK) = true
          · have viewSeen : (s.view.j && s.view.k) = true := seen
            simp only [if_pos seen, if_pos viewSeen]
            exact halfByte_view _ nibble endSample
          · have viewSeen : ¬(s.view.j && s.view.k) = true := seen
            simp only [if_neg seen, if_neg viewSeen]

/-- Between two symbols. -/
structure Aligned (s : FourB5BState) : Prop where
  offset : s.bitOffset = 0
  count : s.bitCount = 0
  symbol : s.symbol = 0

theorem shifted_bit (symbol : Nat) (value : Bool) :
    symbol <<< 1 ||| value.toNat = 2 * symbol + value.toNat := by
  have digit : value.toNat < 2 ^ 1 := Nat.lt_of_le_of_lt (Bool.toNat_le value) (by decide)
  rw [← Nat.shiftLeft_add_eq_or_of_lt digit, Nat.shiftLeft_eq, Nat.mul_comm]

theorem recvProto_bit (offset : s.bitOffset = 0) (early : s.bitCount < 4) (bit : FourB5BBit) :
    (s.recvProto bit).bitOffset = 0 ∧ (s.recvProto bit).bitCount = s.bitCount + 1 ∧
      (s.recvProto bit).symbol = 2 * s.symbol + bit.value.toNat ∧
      (s.recvProto bit).view = s.view := by
  have begun : (s.beginSymbol bit.ss).bitOffset = 0 ∧ (s.beginSymbol bit.ss).bitCount = s.bitCount ∧
      (s.beginSymbol bit.ss).symbol = s.symbol ∧ (s.beginSymbol bit.ss).view = s.view := by
    unfold beginSymbol
    split
    · exact ⟨offset, rfl, rfl, rfl⟩
    · exact ⟨offset, rfl, rfl, rfl⟩
  have noOffset : ¬0 < s.bitOffset := by omega
  obtain ⟨offsetBegun, countBegun, symbolBegun, viewBegun⟩ := begun
  have notFull : ((s.beginSymbol bit.ss).shift bit.value).bitCount ≠ 5 := by
    rw [shift, countBegun]
    simp only
    omega
  rw [recvProto, if_neg noOffset, endSymbol, if_neg notFull]
  refine ⟨offsetBegun, congrArg (· + 1) countBegun, ?_, viewBegun⟩
  rw [← symbolBegun]
  exact shifted_bit _ _

theorem recvProto_last (offset : s.bitOffset = 0) (last : s.bitCount = 4)
    (bit : FourB5BBit) {symbol : BitVec 5}
    (same : 2 * s.symbol + bit.value.toNat = symbol.toNat) :
    (s.recvProto bit).Aligned ∧ (s.recvProto bit).view = s.view.take symbol := by
  have noOffset : ¬0 < s.bitOffset := by omega
  have notFirst : s.bitCount ≠ 0 := by omega
  have begun : s.beginSymbol bit.ss = s := if_neg notFirst
  have full : (s.shift bit.value).bitCount = 5 := congrArg (· + 1) last
  have joined : (s.shift bit.value).symbol = symbol.toNat := by
    rw [← same]
    exact shifted_bit _ _
  rw [recvProto, if_neg noOffset, begun, endSymbol, if_pos full]
  have kept : ∀ t : FourB5BState, (t.handleSymbol bit.es).bitOffset = t.bitOffset := by
    intro t
    unfold handleSymbol control dataSymbol halfByte
    split
    · rfl
    · split
      · rfl
      · split
        · simp only
          split <;> rfl
        · rfl
  exact ⟨⟨(kept _).trans offset, rfl, rfl⟩, handleSymbol_view joined bit.es⟩

theorem receive_symbol (aligned : s.Aligned) (symbol : BitVec 5)
    {bits : List FourB5BBit}
    (values : bits.map FourB5BBit.value = msbBits 5 symbol.toNat) :
    (bits.foldl recvProto s).Aligned ∧
      (bits.foldl recvProto s).view = s.view.take symbol := by
  have packed := packMsb_msbBits symbol.isLt
  rw [← values] at packed
  have length : bits.length = 5 := by
    have lengths := congrArg List.length values
    rwa [length_map, length_msbBits] at lengths
  match bits, length with
  | [a, b, c, d, e], _ =>
      obtain ⟨offset1, count1, symbol1, view1⟩ :=
        recvProto_bit aligned.offset (by rw [aligned.count]; decide) a
      rw [aligned.count] at count1
      obtain ⟨offset2, count2, symbol2, view2⟩ :=
        recvProto_bit offset1 (by rw [count1]; decide) b
      rw [count1] at count2
      obtain ⟨offset3, count3, symbol3, view3⟩ :=
        recvProto_bit offset2 (by rw [count2]; decide) c
      rw [count2] at count3
      obtain ⟨offset4, count4, symbol4, view4⟩ :=
        recvProto_bit offset3 (by rw [count3]; decide) d
      rw [count3] at count4
      have same : 2 * ((((s.recvProto a).recvProto b).recvProto c).recvProto d).symbol +
          e.value.toNat = symbol.toNat := by
        rw [symbol4, symbol3, symbol2, symbol1, aligned.symbol, ← packed]
        rfl
      obtain ⟨alignedBehind, view5⟩ := recvProto_last offset4 count4 e same
      refine ⟨alignedBehind, ?_⟩
      rw [foldl_cons, foldl_cons, foldl_cons, foldl_cons, foldl_cons,
        foldl_nil, view5, view4, view3, view2, view1]

def symbolBits5 (symbols : List (BitVec 5)) : List Bool :=
  symbols.flatMap fun symbol => msbBits 5 symbol.toNat

theorem receive_symbols (aligned : s.Aligned) (symbols : List (BitVec 5))
    {bits : List FourB5BBit} (values : bits.map FourB5BBit.value = symbolBits5 symbols) :
    (bits.foldl recvProto s).Aligned ∧
      (bits.foldl recvProto s).view = symbols.foldl FourB5BView.take s.view := by
  induction symbols generalizing s bits with
  | nil =>
      have none : bits = [] := map_eq_nil_iff.mp values
      rw [none]
      exact ⟨aligned, rfl⟩
  | cons symbol symbols ih =>
      rw [symbolBits5, flatMap_cons] at values
      obtain ⟨first, rest, rfl, here, later⟩ := map_eq_append_iff.mp values
      obtain ⟨alignedHere, view⟩ := receive_symbol aligned symbol here
      obtain ⟨alignedBehind, viewBehind⟩ := ih alignedHere later
      rw [foldl_append, foldl_cons]
      exact ⟨alignedBehind, by rw [viewBehind, view]⟩

theorem skip_offset (offset : Nat) (skipped : List FourB5BBit) (length : skipped.length = offset)
    (waiting : s.bitOffset = offset) (count : s.bitCount = 0)
    (symbol : s.symbol = 0) :
    (skipped.foldl recvProto s).Aligned ∧ (skipped.foldl recvProto s).view = s.view := by
  induction skipped generalizing s offset with
  | nil => exact ⟨⟨waiting.trans length.symm, count, symbol⟩, rfl⟩
  | cons bit skipped ih =>
      have some : 0 < s.bitOffset := by
        rw [waiting, ← length, length_cons]
        exact Nat.succ_pos _
      have left : ({ s with bitOffset := s.bitOffset - 1 } : FourB5BState).bitOffset =
          skipped.length := by
        simp only [waiting, ← length, length_cons, Nat.add_sub_cancel]
      rw [foldl_cons, recvProto, if_pos some]
      exact ih skipped.length rfl left count symbol

end FourB5BState

def nibbleSymbol (nibble : BitVec 4) : BitVec 5 :=
  BitVec.ofNat 5 (dataSym.idxOf (some nibble))

/-- The lower half goes first. -/
def byteSymbols (byte : BitVec 8) : List (BitVec 5) :=
  [nibbleSymbol (byte.setWidth 4), nibbleSymbol ((byte >>> 4).setWidth 4)]

/-- `J`, `K`, the bytes, `T` and `R`. -/
def frameSymbols (bytes : List (BitVec 8)) : List (BitVec 5) :=
  [24, 17] ++ bytes.flatMap byteSymbols ++ [13, 7]

def frameProtos (bytes : List (BitVec 8)) : List FourB5BProto :=
  [FourB5BProto.ctrl .j, .ctrl .k] ++ bytes.map FourB5BProto.data ++
    [FourB5BProto.ctrl .terminate, .ctrl .reset]

/-- The halves of bytes behind both symbols of a start delimiter. -/
def heardNibbles : Bool → Bool → List (BitVec 5) → List (BitVec 4)
  | _, _, [] => []
  | j, k, symbol :: symbols =>
      match ctrlSym.getD symbol.toNat none with
      | some _ =>
          heardNibbles (decide (symbol.toNat = 24) || j) (decide (symbol.toNat = 17) || k) symbols
      | none =>
          match dataSym.getD symbol.toNat none with
          | none => heardNibbles j k symbols
          | some nibble =>
              if j && k then nibble :: heardNibbles j k symbols else heardNibbles j k symbols

def pairUp (half : Option (BitVec 4)) (nibble : BitVec 4) : Option (BitVec 4) :=
  if half.isNone then some nibble else none

/-- The half that stays when an odd number of halves has come. -/
def leftover (symbols : List (BitVec 5)) : Option (BitVec 4) :=
  (heardNibbles false false symbols).foldl pairUp none

namespace FourB5BView

theorem take_nibble {view : FourB5BView} (seen : (view.j && view.k) = true)
    (nibble : BitVec 4) : view.take (nibbleSymbol nibble) = view.takeNibble nibble := by
  have known : ∀ nibble : BitVec 4, ctrlSym.getD (nibbleSymbol nibble).toNat none = none ∧
        dataSym.getD (nibbleSymbol nibble).toNat none = some nibble := by
    decide
  obtain ⟨control, data⟩ := known nibble
  rw [take, control, data]
  exact if_pos seen

theorem takeNibble_half (view : FourB5BView) (nibble : BitVec 4) :
    (view.takeNibble nibble).half = pairUp view.half nibble ∧
      (view.takeNibble nibble).j = view.j ∧ (view.takeNibble nibble).k = view.k := by
  unfold takeNibble
  cases half : view.half with
  | none => exact ⟨rfl, rfl, rfl⟩
  | some low => exact ⟨rfl, rfl, rfl⟩

theorem half_foldl (view : FourB5BView) (symbols : List (BitVec 5)) :
    (symbols.foldl take view).half =
      (heardNibbles view.j view.k symbols).foldl pairUp view.half := by
  induction symbols generalizing view with
  | nil => rfl
  | cons symbol symbols ih =>
      rw [foldl_cons, ih, heardNibbles, take]
      cases ctrlSym.getD symbol.toNat none with
      | some control => rfl
      | none =>
          cases dataSym.getD symbol.toNat none with
          | none => rfl
          | some nibble =>
              by_cases seen : (view.j && view.k) = true
              · obtain ⟨half, j, k⟩ := takeNibble_half view nibble
                simp only [if_pos seen, foldl_cons, half, j, k]
              · simp only [if_neg seen]

/-- What goes out for halves when one has been kept. -/
def pairedBytes : Option (BitVec 4) → List (BitVec 4) → List (BitVec 8)
  | _, [] => []
  | none, nibble :: nibbles => pairedBytes (some nibble) nibbles
  | some low, nibble :: nibbles => (nibble ++ low) :: pairedBytes none nibbles

def byteNibbles (byte : BitVec 8) : List (BitVec 4) :=
  [byte.setWidth 4, (byte >>> 4).setWidth 4]

theorem nibbles_foldl (view : FourB5BView) (seen : (view.j && view.k) = true)
    (nibbles : List (BitVec 4)) :
    ((nibbles.map nibbleSymbol).foldl take view).j = view.j ∧
      ((nibbles.map nibbleSymbol).foldl take view).k = view.k ∧
      ((nibbles.map nibbleSymbol).foldl take view).protos =
        view.protos ++ (pairedBytes view.half nibbles).map FourB5BProto.data := by
  induction nibbles generalizing view with
  | nil =>
      cases half : view.half <;> simp [pairedBytes]
  | cons nibble nibbles ih =>
      obtain ⟨_, j, k⟩ := takeNibble_half view nibble
      have seenBehind : ((view.takeNibble nibble).j && (view.takeNibble nibble).k) = true := by
        rw [j, k]
        exact seen
      obtain ⟨jBehind, kBehind, protos⟩ := ih (view.takeNibble nibble) seenBehind
      rw [map_cons, foldl_cons, take_nibble seen]
      refine ⟨jBehind.trans j, kBehind.trans k, ?_⟩
      rw [protos, takeNibble]
      cases half : view.half with
      | none => simp [pairedBytes]
      | some low => simp [pairedBytes]

theorem halves_append (byte : BitVec 8) : (byte >>> 4).setWidth 4 ++ byte.setWidth 4 = byte := by
  revert byte
  decide

theorem pairedBytes_none (bytes : List (BitVec 8)) :
    pairedBytes none (bytes.flatMap byteNibbles) = bytes := by
  induction bytes with
  | nil => rfl
  | cons byte bytes ih =>
      rw [flatMap_cons, byteNibbles]
      simp only [cons_append, nil_append, pairedBytes, ih, halves_append]

theorem pairedBytes_some (half : BitVec 4) (bytes : List (BitVec 8)) :
    pairedBytes (some half) (bytes.flatMap byteNibbles) = bytes ↔
      ∀ byte ∈ bytes, byte = half ++ half := by
  induction bytes generalizing half with
  | nil => simp [pairedBytes]
  | cons byte bytes ih =>
      rw [flatMap_cons, byteNibbles]
      simp only [cons_append, nil_append, pairedBytes, List.cons.injEq, forall_mem_cons]
      have upper (half : BitVec 4) : ((half ++ half) >>> 4).setWidth 4 = half := by
        revert half
        decide
      have lower (half : BitVec 4) : (half ++ half).setWidth 4 = half := by
        revert half
        decide
      have first : byte.setWidth 4 ++ half = byte ↔ byte = half ++ half := by
        constructor
        · intro same
          have own : byte.setWidth 4 = half := by
            rw [← same]
            exact BitVec.setWidth_append_eq_right
          rw [← same, own]
        · intro same
          rw [same, lower]
      rw [first, ih]
      constructor
      · rintro ⟨same, rest⟩
        rw [same, upper] at rest
        exact ⟨same, rest⟩
      · rintro ⟨same, rest⟩
        rw [same, upper]
        exact ⟨rfl, rest⟩

theorem frame_foldl (view : FourB5BView) (bytes : List (BitVec 8)) :
    ((frameSymbols bytes).foldl take view).protos = view.protos ++ frameProtos bytes ↔
      pairedBytes view.half (bytes.flatMap byteNibbles) = bytes := by
  have delimiter : ([24, 17] : List (BitVec 5)).foldl take view =
      { j := true
        k := true
        half := view.half
        protos := view.protos ++ [FourB5BProto.ctrl .j, .ctrl .k] } := by
    simp [take, ctrlSym]
  have symbols : bytes.flatMap byteSymbols = (bytes.flatMap byteNibbles).map nibbleSymbol := by
    rw [map_flatMap]
    rfl
  have ended : ∀ view : FourB5BView, (([13, 7] : List (BitVec 5)).foldl take view).protos =
      view.protos ++ [FourB5BProto.ctrl .terminate, .ctrl .reset] := by
    intro view
    simp [take, ctrlSym]
  have injective : Function.Injective FourB5BProto.data := by
    intro first second same
    injection same
  rw [frameSymbols, foldl_append, foldl_append, ended, delimiter, symbols]
  obtain ⟨_, _, protos⟩ := nibbles_foldl
    { j := true
      k := true
      half := view.half
      protos := view.protos ++ [FourB5BProto.ctrl .j, .ctrl .k] } rfl (bytes.flatMap byteNibbles)
  rw [protos, frameProtos]
  simp only [List.append_assoc, append_cancel_left_eq, append_cancel_right_eq]
  exact (map_injective_iff.mpr injective).eq_iff

end FourB5BView

/-- Behind any symbols, a frame goes out as it is exactly if they have left no half of a byte,
or if every half of the frame is the one that they have left. -/
theorem fourB5B_framing_iff (bitOffset : Nat) (preceding : List (BitVec 5))
    (bytes : List (BitVec 8)) (skipped before frame : List FourB5BBit)
    (offset : skipped.length = bitOffset)
    (symbolsBefore : before.map FourB5BBit.value = FourB5BState.symbolBits5 preceding)
    (symbolsFrame : frame.map FourB5BBit.value = FourB5BState.symbolBits5 (frameSymbols bytes)) :
    ((skipped ++ before ++ frame).foldl FourB5BState.recvProto
          (FourB5BState.start bitOffset)).protos =
        ((skipped ++ before).foldl FourB5BState.recvProto
          (FourB5BState.start bitOffset)).protos ++ frameProtos bytes ↔
      ∀ half ∈ leftover preceding, ∀ byte ∈ bytes, byte = half ++ half := by
  obtain ⟨alignedStart, viewStart⟩ :=
    FourB5BState.skip_offset bitOffset skipped offset
      (show (FourB5BState.start bitOffset).bitOffset = bitOffset from rfl) rfl rfl
  obtain ⟨aligned, view⟩ := FourB5BState.receive_symbols alignedStart preceding symbolsBefore
  obtain ⟨_, viewFrame⟩ := FourB5BState.receive_symbols aligned (frameSymbols bytes) symbolsFrame
  have half : (preceding.foldl FourB5BView.take
      (skipped.foldl FourB5BState.recvProto (FourB5BState.start bitOffset)).view).half =
        leftover preceding := by
    rw [viewStart]
    exact FourB5BView.half_foldl _ preceding
  have heard := FourB5BView.frame_foldl (preceding.foldl FourB5BView.take
      (skipped.foldl FourB5BState.recvProto (FourB5BState.start bitOffset)).view) bytes
  rw [half, ← view, ← viewFrame] at heard
  rw [foldl_append, foldl_append]
  refine heard.trans ?_
  cases leftover preceding with
  | none => simp [FourB5BView.pairedBytes_none]
  | some half => simp [FourB5BView.pairedBytes_some]

def bitsAt (values : List Bool) : List FourB5BBit :=
  values.zipIdx.map fun value => { ss := value.2, es := value.2 + 1, value := value.1 }

theorem bitsAt_values (values : List Bool) : (bitsAt values).map FourB5BBit.value = values := by
  rw [bitsAt, map_map]
  exact zipIdx_map_fst 0 values

theorem fourB5B_framing_iff_idle : (([] ++ bitsAt (FourB5BState.symbolBits5 [31, 31]) ++
          bitsAt (FourB5BState.symbolBits5 (frameSymbols [0x5A]))).foldl
            FourB5BState.recvProto (FourB5BState.start 0)).protos =
        (([] ++ bitsAt (FourB5BState.symbolBits5 [31, 31])).foldl
          FourB5BState.recvProto (FourB5BState.start 0)).protos ++ frameProtos [0x5A] ↔
      ∀ half ∈ leftover [31, 31], ∀ byte ∈ [0x5A#8], byte = half ++ half :=
  fourB5B_framing_iff 0 [31, 31] [0x5A] [] _ _ rfl (bitsAt_values _) (bitsAt_values _)

/-- Behind a frame that ends in the middle of a byte, the next one has other bytes. -/
theorem fourB5B_framing_half :
    ((bitsAt (FourB5BState.symbolBits5 [24, 17, nibbleSymbol 0x3, 13, 7]) ++
          bitsAt (FourB5BState.symbolBits5 (frameSymbols [0x5A]))).foldl
            FourB5BState.recvProto (FourB5BState.start 0)).protos ≠
      ((bitsAt (FourB5BState.symbolBits5 [24, 17, nibbleSymbol 0x3, 13, 7])).foldl
          FourB5BState.recvProto (FourB5BState.start 0)).protos ++ frameProtos [0x5A] := by
  decide +kernel

end SigrokDecode
