import SigrokDecode.Decoders.DpAuxAlike

/-!
# What a given-up AUX transaction leaves behind

A decoder that has given up is back in state 0, and its pulse tables are unused. It is alike to a
decoder that starts there if the abort flag and the first entries of the pulse tables are clear,
and the byte counter has not overflowed.
-/

namespace SigrokDecode

variable {D : Type}

namespace DpAuxState

def Unused (s : DpAuxState D) : Prop :=
  s.high.count = 0 ∧ s.low.count = 0

/-- What holds between two edges. -/
structure Settled (s : DpAuxState D) : Prop where
  alike : Alike True s s
  unused : 3 < s.state → s.Unused

section Run

variable [CDouble D]

variable {s : DpAuxState D}

variable {deltaSamp : D} {width : Nat}

end Run

end DpAuxState

instance : CDouble ℚ where
  lt left right := decide (left < right)
  le left right := decide (left ≤ right)
  fabs := abs
  toUInt64 x := ⌊x⌋.toNat
  zero_le_zero := decide_eq_true le_rfl

namespace DpAuxState

end DpAuxState

end SigrokDecode
