import Mathlib.Algebra.Order.Ring.Int
import Mathlib.Data.List.TakeWhile

/-!
# Strings of C

A string is its bytes in front of the first zero. `atoi` reads the number that a string begins
with; `snprintf` writes texts.
-/

namespace SigrokDecode.Foundation

def cString (bytes : List UInt8) : List UInt8 :=
  bytes.takeWhile (· ≠ 0)

theorem zero_notMem_cString (bytes : List UInt8) : 0 ∉ cString bytes := by
  intro member
  exact absurd (List.mem_takeWhile_imp member) (by decide)

/-- The strings in front of the null pointer of an array. -/
def cStrv (strv : List (Option (List UInt8))) : List (List UInt8) :=
  (strv.takeWhile Option.isSome).filterMap id

def isSpace (c : UInt8) : Bool :=
  c = 32 || (9 ≤ c && c ≤ 13)

def isDigit (c : UInt8) : Bool :=
  48 ≤ c && c ≤ 57

def decimalValue (digits : List UInt8) : Nat :=
  digits.foldl (fun value c => 10 * value + (c.toNat - 48)) 0

/-- `strtol` to the base ten; a `long` has 64 bits. -/
def strtol (text : List UInt8) : Int :=
  match text.dropWhile isSpace with
  | 45 :: rest => max (-2 ^ 63) (-(decimalValue (rest.takeWhile isDigit) : Int))
  | 43 :: rest => min (2 ^ 63 - 1) (decimalValue (rest.takeWhile isDigit))
  | rest => min (2 ^ 63 - 1) (decimalValue (rest.takeWhile isDigit))

def atoi (text : List UInt8) : Int32 :=
  Int32.ofInt (strtol text)

/-- `%0*X` -/
def upperHexDigits (width value : Nat) : String :=
  let digits := (Nat.toDigits 16 value).map Char.toUpper
  String.ofList (List.replicate (width - digits.length) '0' ++ digits)

/-- `%0*x` -/
def lowerHexDigits (width value : Nat) : String :=
  let digits := Nat.toDigits 16 value
  String.ofList (List.replicate (width - digits.length) '0' ++ digits)

/-- A buffer that calls of `snprintf` fill one behind the other: what stands in it, and the sum of
what they have returned. -/
structure TextBuffer where
  text : List Char
  pos : Nat

namespace TextBuffer

def empty : TextBuffer where
  text := []
  pos := 0

/-- `pos += snprintf(buf + pos, size - pos, …)`; the zero at the end needs a place. -/
def print (buffer : TextBuffer) (size : Nat) (piece : List Char) : TextBuffer where
  text := buffer.text ++ piece.take (size - 1 - buffer.pos)
  pos := buffer.pos + piece.length

/-- The text stands in front of the end of a buffer of `size` bytes. -/
structure Inside (buffer : TextBuffer) (size : Nat) : Prop where
  behind : buffer.text.length ≤ buffer.pos
  terminated : buffer.text.length ≤ size - 1

variable {buffer : TextBuffer} {size : Nat}

theorem Inside.print (inside : buffer.Inside size) (piece : List Char) :
    (buffer.print size piece).Inside size := by
  have behind := inside.behind
  have terminated := inside.terminated
  constructor
  · simp only [TextBuffer.print, List.length_append, List.length_take]
    omega
  · simp only [TextBuffer.print, List.length_append, List.length_take]
    omega

/-- Nothing has been cut off. -/
def Whole (buffer : TextBuffer) (text : List Char) : Prop :=
  buffer.text = text ∧ buffer.pos = text.length

theorem Whole.print {text : List Char} (whole : buffer.Whole text) {piece : List Char}
    (room : (text ++ piece).length < size) : (buffer.print size piece).Whole (text ++ piece) := by
  obtain ⟨same, place⟩ := whole
  rw [List.length_append] at room
  have all : piece.take (size - 1 - buffer.pos) = piece := by
    rw [List.take_of_length_le]
    omega
  constructor
  · rw [TextBuffer.print, all, same]
  · rw [TextBuffer.print, place, List.length_append]

end TextBuffer

end SigrokDecode.Foundation
