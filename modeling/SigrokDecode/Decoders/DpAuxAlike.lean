import SigrokDecode.Decoders.DpAux

/-!
# States of the AUX decoder that put the same annotations

Two states of the decoder are alike if they differ in places only that are written before they are
read again. Alike states put the same annotations, whatever comes.
-/

namespace SigrokDecode

variable {D : Type}

/-- Entries behind those in use are written before they are read. -/
structure TableAlike (left right : SyncTable D) : Prop where
  counted : left.used = left.count
  used : left.used = right.used
  count : left.count = right.count
  entries : ∀ i ≤ left.used, left.entries i = right.entries i

theorem setEntry_congr {left right : Nat → Nat} {i j : Nat} (value : Nat)
    (same : j ≠ i → left j = right j) :
    setEntry left i value j = setEntry right i value j := by
  unfold setEntry
  split
  · rfl
  · rename_i other
    exact same other

namespace TableAlike

variable {left right : SyncTable D}

theorem clear (alike : TableAlike left right) : TableAlike left.clear right.clear where
  counted := rfl
  used := rfl
  count := rfl
  entries i least := alike.entries i (Nat.le_trans least (Nat.zero_le _))

theorem push (alike : TableAlike left right) (width : Nat) :
    TableAlike (left.push width) (right.push width) where
  counted := congrArg (· + 1) alike.counted
  used := congrArg (· + 1) alike.used
  count := congrArg (· + 1) alike.count
  entries i inside := by
    unfold SyncTable.push at inside ⊢
    dsimp only at inside ⊢
    rw [← alike.used]
    refine setEntry_congr width fun other => alike.entries i ?_
    omega

/-- The entry behind the first has been written, as the table is in use. -/
theorem restart (alike : TableAlike left right) (some : 0 < left.used) (width : Nat) :
    TableAlike (left.restart width) (right.restart width) where
  counted := rfl
  used := rfl
  count := rfl
  entries i inside := by
    unfold SyncTable.restart at inside ⊢
    dsimp only at inside ⊢
    exact setEntry_congr width fun _ => alike.entries i (inside.trans some)

variable [CDouble D]

theorem average (alike : TableAlike left right) : left.average = right.average := by
  have total : left.total = right.total := by
    unfold SyncTable.total
    rw [← alike.used]
    refine List.foldl_ext _ _ _ fun sum i member => ?_
    rw [alike.entries i (Nat.le_of_lt (List.mem_range.mp member))]
  unfold SyncTable.average
  rw [total, alike.count]

end TableAlike

section Pulse

variable [CDouble D]

end Pulse

namespace DpAuxState

/-- What every state reads; the decoder knows requests only. The format is read from state 6 on. -/
structure Common (sameFormat : Prop) (s t : DpAuxState D) : Prop where
  state : s.state = t.state
  pin : s.currPinVal = t.currPinVal
  high : TableAlike s.high t.high
  low : TableAlike s.low t.low
  altFormat : sameFormat → s.isAltFormat = t.isAltFormat
  abortFlag : s.abortFlag = t.abortFlag
  asked : s.isRequest = true
  request : t.isRequest = true
  last : s.lastEdgeSamp = t.lastEdgeSamp
  samplerate : s.samplerate = t.samplerate
  overflow : 255 < s.byteCounter ↔ 255 < t.byteCounter

/-- What the states of a transaction read as well. -/
structure FrameAlike (s t : DpAuxState D) : Prop where
  highMean : s.high.mean = t.high.mean
  lowMean : s.low.mean = t.low.mean
  edgeType : s.edgeType = t.edgeType
  accum : s.halfUiAccum = t.halfUiAccum
  fields : s.fields = t.fields
  valid : s.isValid = t.isValid
  command : 5 < s.state → s.syncEndValid = t.syncEndValid ∧
    s.annStartSamps 0 = t.annStartSamps 0 ∧ s.isAltFormat = t.isAltFormat
  address : 6 < s.state → s.addrPhaseStart = t.addrPhaseStart
  data : 8 < s.state → s.byteCounter = t.byteCounter ∧ s.dataByteIdx = t.dataByteIdx ∧
    s.annStartSamps (9 + s.byteCounter) = t.annStartSamps (9 + s.byteCounter)

/-- Before a high pulse can end the synchronisation there is a low one, so that the mean of the
low pulses is learned again. -/
structure SyncAlike (s t : DpAuxState D) : Prop where
  highMean : s.high.mean = t.high.mean ∨ s.low.count = 0 ∨ (s.low.count = 1 ∧ s.currPinVal = true)
  lowMean : s.low.mean = t.low.mean ∨ s.high.count = 0 ∨ (s.high.count = 1 ∧ s.currPinVal = false)

/-- Between two edges no transaction is in state 4. -/
structure Alike (sameFormat : Prop) (s t : DpAuxState D) : Prop extends Common sameFormat s t where
  syncing : s.state ≤ 3 → SyncAlike s t
  framing : 3 < s.state → 4 < s.state ∧ FrameAlike s t

variable {s t : DpAuxState D} {sameFormat : Prop}

/-! ## The states of a transaction -/

section

variable (common : Common sameFormat s t)
include common

end

variable {u : DpAuxState D}

section Step

variable [CDouble D]

end Step

end DpAuxState

end SigrokDecode
