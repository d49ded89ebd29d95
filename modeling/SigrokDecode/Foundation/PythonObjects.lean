import SigrokDecode.Foundation.CStrings

/-!
# Python objects

What C code can find out about a Python object.
-/

namespace SigrokDecode.Foundation

inductive PyObject where
  | str (utf8 : Option (List UInt8))
  | int (value : Int)
  | list (items : List PyObject)
  | tuple (items : List PyObject)
  | other

/-- `PyUnicode_Check` -/
def PyObject.isStr : PyObject → Bool
  | .str _ => true
  | _ => false

/-- `PyLong_AsLong` and `PyLong_AsLongLong`; both have 64 bits. -/
def pyLongAsLong (value : Int) : Int64 :=
  if -2 ^ 63 ≤ value ∧ value < 2 ^ 63 then Int64.ofInt value else -1

/-- The format `%d`. -/
def decimalText (value : Int) : List UInt8 :=
  (toString value).toList.map fun c => UInt8.ofNat c.toNat

end SigrokDecode.Foundation
