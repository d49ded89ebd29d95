import Mathlib.Data.Nat.Notation

/-!
# Shifts of C

What a left shift gives by the width of its operand, or more, is undefined.
-/

namespace SigrokDecode.Foundation

/-- Left shifts of an `int` and of a `uint64_t`; other counts give anything. -/
structure CShifts where
  int : BitVec 32 → Nat → BitVec 32
  long : BitVec 64 → Nat → BitVec 64
  int_eq : ∀ (value : BitVec 32) (count : Nat), count < 31 → int value count = value <<< count
  long_eq : ∀ (value : BitVec 64) (count : Nat), count < 64 → long value count = value <<< count

def CShifts.modular : CShifts where
  int value count := value <<< (count % 32)
  long value count := value <<< (count % 64)
  int_eq value count few := by rw [Nat.mod_eq_of_lt (by omega)]
  long_eq value count few := by rw [Nat.mod_eq_of_lt few]

end SigrokDecode.Foundation
