import Mathlib.Algebra.Order.Round
import Mathlib.Data.Rat.Floor
import SigrokDecode.Foundation.EdgeRuns
import SigrokDecode.Foundation.PackedBits

/-!
# The Miller decoder

`miller_c` tells the bits of a message from the time between two edges of its line.
A bit may have no edge, so that it is only known at the next edge or at the time-out.
-/

namespace SigrokDecode

open Foundation

/-- The option `edge`. -/
inductive MillerEdge where
  | rising
  | falling
  | either
  deriving DecidableEq

def MillerEdge.matches : MillerEdge → Bool → Bool → Bool
  | .rising, old, new => !old && new
  | .falling, old, new => old && !new
  | .either, old, new => old != new

/-- What the decoder puts out. -/
inductive MillerOut where
  | bit (ss es : Nat) (bit : Bool)
  | bitstring (ss es : Nat) (text : List Char)
  | error (ss es : Nat)
  | raw (ss es : Nat) (data : List UInt8)

/-- The part of `bits` in use, `numbits` long. -/
structure MillerBits where
  bits : List Bool
  fits : bits.length ≤ 256

namespace MillerBits

def empty : MillerBits :=
  ⟨[], Nat.zero_le 256⟩

def push (buffer : MillerBits) (bit : Bool) : MillerBits :=
  if room : buffer.bits.length < 256 then
    ⟨buffer.bits ++ [bit], by rw [List.length_append]; exact room⟩
  else
    buffer

end MillerBits

/-- The call of `c_wait` in which the decoder sleeps. -/
inductive MillerWait where
  | first
  | next
  deriving DecidableEq

/-- `bitvalue` is left out: it is never read. -/
structure MillerState where
  wait : MillerWait
  prevedge : Nat
  prevbit : Bool
  expectedstart : Nat
  buffer : MillerBits
  stringstart : Nat
  stringend : Nat
  outs : List MillerOut

/-- The digit that `%d` prints for a bit. -/
def bitDigit (bit : Bool) : Char :=
  if bit then '1' else '0'

/-- The loop that writes `bs`, with a blank in front of each group of four digits but the
first. -/
def bitstringText : Nat → List Char → List Bool → List Char
  | _, bs, [] => bs
  | i, bs, bit :: bits =>
      if bs.length < 500 then
        bitstringText (i + 1)
          (bs ++ (if 0 < i ∧ i % 4 = 0 then [' '] else []) ++ [bitDigit bit]) bits
      else
        bs

/-- One round of the loop that fills `bdata`. -/
def setBinaryBit (bdata : List UInt8) (bit : Bool × Nat) : List UInt8 :=
  if bit.1 then bdata.modify (bit.2 / 8) (· ||| 1 <<< UInt8.ofNat (bit.2 % 8)) else bdata

def binaryData (bits : List Bool) : List UInt8 :=
  (bits.zipIdx.foldl setBinaryBit (List.replicate 32 0)).take ((bits.length + 7) / 8)

/-- A distance in units, rounded to the nearest half; the quotient of two numbers of samples
stands for the double of the source. -/
def millerTimedelta (timeunit sampledelta : Nat) : ℚ :=
  round ((sampledelta : ℚ) / timeunit * 2) / 2

/-- The length of a unit, rounded to samples. -/
def millerTimeunit (samplerate : Nat) (baudrate : Int) : Nat :=
  ⌊((if samplerate = 0 then 1 else samplerate : Nat) : ℚ) /
    (if baudrate ≤ 0 then 106000 else baudrate : Int) + 1 / 2⌋₊

namespace MillerState

def reset : MillerState :=
  { wait := .first
    prevedge := 0
    prevbit := false
    expectedstart := 0
    buffer := .empty
    stringstart := 0
    stringend := 0
    outs := [] }

def put (s : MillerState) (out : MillerOut) : MillerState :=
  { s with outs := s.outs ++ [out] }

def outputBit (s : MillerState) (bit : Bool) (ss es : Nat) : MillerState :=
  { s.put (.bit ss es bit) with
    stringstart := if s.buffer.bits = [] then ss else s.stringstart
    stringend := es
    buffer := s.buffer.push bit }

def flushBitstring (s : MillerState) : MillerState :=
  if s.buffer.bits = [] then
    s
  else
    { (s.put (.bitstring s.stringstart s.stringend (bitstringText 0 [] s.buffer.bits))).put
        (.raw s.stringstart s.stringend (binaryData s.buffer.bits)) with
      buffer := .empty }

def firstEdge (timeunit : Nat) (s : MillerState) (samplenum : Nat) : MillerState :=
  { s with
      wait := .next
      prevedge := samplenum
      prevbit := false
      expectedstart := samplenum + timeunit }.outputBit false samplenum (samplenum + timeunit)

/-- The inner loop is left. -/
def leave (s : MillerState) : MillerState :=
  { s with wait := .first }

/-- An annotation instead of the message. -/
def giveUp (s : MillerState) (ss es : Nat) : MillerState :=
  { s.put (.error ss es) with buffer := .empty }

/-- A space with its edge at `samplenum`. -/
def space (timeunit : Nat) (s : MillerState) (samplenum : Nat) : MillerState :=
  { s.outputBit false samplenum (samplenum + timeunit) with
    prevbit := false
    expectedstart := samplenum + timeunit }

/-- A mark that begins at `ss`, with its edge at `samplenum`. -/
def mark (timeunit : Nat) (s : MillerState) (ss samplenum : Nat) : MillerState :=
  { s.outputBit true ss (samplenum + timeunit / 2) with
    prevbit := true
    expectedstart := samplenum + timeunit / 2 }

def atMatch (s : MillerState) (samplenum : Nat) : MillerState :=
  { s with prevedge := samplenum }

/-- A match in the inner loop that comes `sampledelta` samples behind the last one. -/
def nextMatch (timeunit : Nat) (s : MillerState) (samplenum sampledelta : Nat) : MillerState :=
  let timedelta := millerTimedelta timeunit sampledelta
  if s.prevbit = false then
    if timedelta = 1 then
      s.space timeunit samplenum
    else if timedelta = 3 / 2 then
      s.mark timeunit s.expectedstart samplenum
    else if 2 ≤ timedelta then
      s.flushBitstring.leave
    else
      (s.giveUp (samplenum - sampledelta) samplenum).leave
  else
    if timedelta ≤ 1 / 2 then
      (s.giveUp (samplenum - sampledelta) samplenum).leave
    else if timedelta = 1 then
      s.mark timeunit s.expectedstart samplenum
    else if timedelta = 3 / 2 then
      (s.outputBit false s.expectedstart samplenum).space timeunit samplenum
    else if timedelta = 2 then
      (s.outputBit false s.expectedstart (s.expectedstart + timeunit)).mark timeunit
        (samplenum - timeunit / 2) samplenum
    else
      (s.outputBit false s.expectedstart (s.expectedstart + timeunit)).flushBitstring.leave

end MillerState

open MillerState in
/-- `miller_decode`, from one call of `c_wait` to the next. -/
def millerDecoder (timeunit : Nat) : EdgeDecoder MillerState where
  deadline s :=
    match s.wait with
    | .first => none
    | .next => some (s.prevedge + 3 * timeunit)
  handle s samplenum :=
    match s.wait with
    | .first => s.firstEdge timeunit samplenum
    | .next =>
        (s.atMatch samplenum).nextMatch timeunit samplenum (samplenum - s.prevedge)

/-- What `miller_decode` puts out for a stream, with the level in front of it. -/
def millerDecode (samplerate : Nat) (baudrate : Int) (edge : MillerEdge) (old : Bool)
    (samples : List Bool) : List MillerOut :=
  let timeunit := millerTimeunit samplerate baudrate
  if timeunit = 0 then
    []
  else
    ((millerDecoder timeunit).scan edge.matches .reset old 0 samples).flushBitstring.outs

end SigrokDecode
