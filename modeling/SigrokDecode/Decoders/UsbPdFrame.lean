import SigrokDecode.Decoders.UsbPd

/-!
# The bits of a USB Power Delivery packet

A packet as its sender makes it: preamble, ordered set, header, objects, check and
end of packet, everything but the preamble in 4b5b symbols.
-/

namespace SigrokDecode

open Foundation

def symbolBits (symbol : Nat) : List Bool :=
  lsbBits 5 (dec4b5b.idxOf symbol)

/-- The four nibbles of a half word, the lowest one first. -/
def nibbles (half : BitVec 16) : List Nat :=
  [half.toNat % 16, half.toNat / 16 % 16, half.toNat / 256 % 16, half.toNat / 4096 % 16]

def halfBits (half : BitVec 16) : List Bool :=
  (nibbles half).flatMap symbolBits

def lowHalf (word : BitVec 32) : BitVec 16 :=
  word.setWidth 16

def highHalf (word : BitVec 32) : BitVec 16 :=
  (word >>> 16).setWidth 16

def wordBits (word : BitVec 32) : List Bool :=
  halfBits (lowHalf word) ++ halfBits (highHalf word)

def preambleBits (first : Bool) : List Bool :=
  (List.replicate 32 [first, !first]).flatten

def sopBits (name : PdSop) : List Bool :=
  name.sequence.flatMap symbolBits

theorem isReset_sop : PdSop.sop.isReset = false := rfl

/-- A message behind one of the ordered sets that start one. -/
structure PdPacket where
  firstBit : Bool
  name : PdSop
  head : BitVec 16
  objects : List (BitVec 32)
  starts : name.isReset = false
  counted : objects.length = (head >>> 12 &&& 7#16).toNat

namespace PdPacket

variable (packet : PdPacket)

def bytes : List (BitVec 8) :=
  PdState.headBytes packet.head ++ packet.objects.flatMap PdState.wordBytes

def crc : BitVec 32 :=
  ethernetCrc packet.bytes

def front : List Bool :=
  preambleBits packet.firstBit ++ sopBits packet.name

def bits : List Bool :=
  packet.front ++ (halfBits packet.head ++ (packet.objects.flatMap wordBits ++
    (wordBits packet.crc ++ symbolBits PdSym.eop)))

end PdPacket

end SigrokDecode
