import SigrokDecode.Decoders.Udp

/-!
# The checksums of IPv4 and UDP

The decoders add the words in 32 bits, and their carries once.
-/

namespace SigrokDecode

open Foundation List BitVec

/-- The loops over the words; a last byte without a partner is a high one. -/
def sumWords (sum : BitVec 32) : List UInt8 → BitVec 32
  | high :: low :: rest =>
      sumWords (sum + (BitVec.ofNat 32 high.toNat <<< 8 ||| BitVec.ofNat 32 low.toNat)) rest
  | [high] => sum + BitVec.ofNat 32 high.toNat <<< 8
  | [] => sum

/-- `(sum + (sum >> 16)) & 0xFFFF` -/
def foldOnce (sum : BitVec 32) : BitVec 32 :=
  (sum + sum >>> 16) &&& 0xFFFF#32

def ipChecksumOk (header : List UInt8) : Bool :=
  foldOnce (sumWords 0#32 header) == 0xFFFF#32

/-- The check in `udp_recv_proto`: of the pseudo header, and of the datagram. -/
def udpChecksumOk (srcIp dstIp : List UInt8) (udpLength : Nat) (datagram : List UInt8) : Bool :=
  let sum := sumWords (sumWords 0#32 srcIp) dstIp + 0x0011#32 + BitVec.ofNat 32 udpLength
  foldOnce (sumWords sum datagram) == 0xFFFF#32

/-- The sum in one's complement: no carry is left. -/
def onesSum (sum : Nat) : Nat :=
  foldCarries 65536 sum sum

theorem wordSum_le (bytes : List UInt8) : wordSum bytes ≤ 65535 * ((bytes.length + 1) / 2) := by
  induction bytes using wordSum.induct with
  | case1 high low rest ih =>
      have top := high.toNat_lt
      have bottom := low.toNat_lt
      simp only [wordSum, length_cons]
      omega
  | case2 high =>
      have top := high.toNat_lt
      simp only [wordSum, length_cons, length_nil]
      omega
  | case3 => exact Nat.zero_le _

theorem highByte_toNat (high : UInt8) :
    (BitVec.ofNat 32 high.toNat <<< 8).toNat = high.toNat * 256 := by
  have top := high.toNat_lt
  rw [toNat_shiftLeft, toNat_ofNat, Nat.shiftLeft_eq, Nat.mod_eq_of_lt (by omega),
    Nat.mod_eq_of_lt (by omega)]

theorem word_toNat (high low : UInt8) :
    (BitVec.ofNat 32 high.toNat <<< 8 ||| BitVec.ofNat 32 low.toNat).toNat =
      high.toNat * 256 + low.toNat := by
  have bottom := low.toNat_lt
  rw [toNat_or, highByte_toNat, toNat_ofNat, Nat.mod_eq_of_lt (by omega)]
  have disjoint := Nat.shiftLeft_add_eq_or_of_lt (i := 8) bottom high.toNat
  rw [Nat.shiftLeft_eq] at disjoint
  exact disjoint.symm

theorem sumWords_toNat (sum : BitVec 32) (bytes : List UInt8)
    (fits : sum.toNat + wordSum bytes < 2 ^ 32) :
    (sumWords sum bytes).toNat = sum.toNat + wordSum bytes := by
  induction bytes using wordSum.induct generalizing sum with
  | case1 high low rest ih =>
      rw [wordSum] at fits ⊢
      have added : (sum + (BitVec.ofNat 32 high.toNat <<< 8 |||
          BitVec.ofNat 32 low.toNat)).toNat = sum.toNat + (high.toNat * 256 + low.toNat) := by
        rw [toNat_add, word_toNat]
        exact Nat.mod_eq_of_lt (Nat.lt_of_le_of_lt (by rw [← Nat.add_assoc]; omega) fits)
      rw [← Nat.add_assoc, ← added] at fits ⊢
      rw [sumWords, ih _ fits]
  | case2 high =>
      rw [wordSum] at fits ⊢
      have byte := highByte_toNat high
      rw [sumWords, toNat_add_of_lt (by rw [byte]; exact fits), byte]
  | case3 => rfl

theorem foldOnce_toNat {sum : BitVec 32} (fits : sum.toNat < 2 ^ 32 - 2 ^ 16) :
    (foldOnce sum).toNat = (sum.toNat + sum.toNat / 65536) % 65536 := by
  have mask : (0xFFFF#32).toNat = 2 ^ 16 - 1 := rfl
  have carries : (sum >>> 16).toNat = sum.toNat / 65536 := by
    rw [toNat_ushiftRight, Nat.shiftRight_eq_div_pow]
  rw [foldOnce, toNat_and, mask, Nat.and_two_pow_sub_one_eq_mod,
    toNat_add_of_lt (by rw [carries]; omega), carries]

theorem foldOnce_eq {sum : BitVec 32} (fits : sum.toNat < 2 ^ 32 - 2 ^ 16) :
    (foldOnce sum == 0xFFFF#32) = checksumOk sum.toNat := by
  rw [Bool.eq_iff_iff, beq_iff_eq, checksumOk, beq_iff_eq, ← foldOnce_toNat fits, ← toNat_inj]
  rfl

/-- One turn is enough to tell whether all ones are left in the end. -/
theorem checksumOk_eq_onesSum {sum : Nat} (few : sum < 65535 * 65536) :
    checksumOk sum = (onesSum sum == 65535) := by
  have once : checksumOk sum = true ↔ sum ≠ 0 ∧ sum % 65535 = 0 := by
    rw [← addCarries_eq_base 65535 (by omega), checksumOk, beq_iff_eq, addCarries]
    have parts := Nat.mod_add_div sum 65536
    omega
  have small : onesSum sum < 65536 := foldCarries_lt (by decide) (Nat.le_add_left _ _)
  have same : onesSum sum % 65535 = sum % 65535 := foldCarries_mod 65535 sum sum
  have zero : onesSum sum = 0 ↔ sum = 0 := foldCarries_eq_zero
  rw [Bool.eq_iff_iff, once, beq_iff_eq]
  omega

theorem sumWords_zero (bytes : List UInt8) (fits : wordSum bytes < 2 ^ 32) :
    (sumWords 0#32 bytes).toNat = wordSum bytes := by
  have zero : (0#32).toNat = 0 := rfl
  rw [sumWords_toNat _ _ (by rw [zero]; omega), zero, Nat.zero_add]

theorem ipChecksumOk_eq {header : List UInt8} (fits : wordSum header < 2 ^ 32 - 2 ^ 16) :
    ipChecksumOk header = checksumOk (wordSum header) := by
  have sum := sumWords_zero header (by omega)
  rw [ipChecksumOk, foldOnce_eq (by omega), sum]

theorem udpChecksumOk_eq {srcIp dstIp datagram : List UInt8} {udpLength : Nat}
    (fits : wordSum srcIp + wordSum dstIp + 17 + udpLength + wordSum datagram < 2 ^ 32 - 2 ^ 16) :
    udpChecksumOk srcIp dstIp udpLength datagram =
      checksumOk (wordSum srcIp + wordSum dstIp + 17 + udpLength + wordSum datagram) := by
  have source := sumWords_zero srcIp (by omega)
  have addresses := sumWords_toNat (sumWords 0#32 srcIp) dstIp (by omega)
  have length : (BitVec.ofNat 32 udpLength).toNat = udpLength := Nat.mod_eq_of_lt (by omega)
  have protocol : (0x0011#32).toNat = 17 := rfl
  have pseudo : (sumWords (sumWords 0#32 srcIp) dstIp + 0x0011#32 +
      BitVec.ofNat 32 udpLength).toNat = wordSum srcIp + wordSum dstIp + 17 + udpLength := by
    have front := toNat_add_of_lt (x := sumWords (sumWords 0#32 srcIp) dstIp)
      (y := 0x0011#32) (by omega)
    rw [toNat_add_of_lt (by omega)]
    omega
  have sum := sumWords_toNat (sumWords (sumWords 0#32 srcIp) dstIp + 0x0011#32 +
    BitVec.ofNat 32 udpLength) datagram (by omega)
  rw [udpChecksumOk, foldOnce_eq (by omega), sum, pseudo]

theorem wordSum_append {front : List UInt8} (even : front.length % 2 = 0) (back : List UInt8) :
    wordSum (front ++ back) = wordSum front + wordSum back := by
  induction front using wordSum.induct with
  | case1 high low rest ih =>
      simp only [length_cons] at even
      simp only [List.cons_append, wordSum]
      rw [ih (by omega)]
      omega
  | case2 high => simp at even
  | case3 => simp [wordSum]

theorem ipv4DecodeUpper_checksum {address blocksAddress : Nat} {payload blocks : List UInt8}
    {rest : List CField} {ok : Bool}
    (shown : .headerChecksum ok ∈
      ipv4DecodeUpper (.bytes address payload :: .bytes blocksAddress blocks :: rest)) :
    ok = ipChecksumOk (payload.take 20) := by
  have bound := wordSum_le (payload.take 20)
  have short : (payload.take 20).length ≤ 20 := length_take_le 20 payload
  rw [ipChecksumOk_eq (by omega)]
  rw [ipv4DecodeUpper] at shown
  dsimp only at shown
  split at shown
  · cases shown
  · rw [mem_append, mem_append] at shown
    rcases shown with (header | data) | message
    · simpa using header
    · obtain ⟨byte, _, same⟩ := mem_map.mp data
      cases same
    · split at message
      · simp at message
      · cases message

theorem udpDatagram_checksum {payload addresses : List UInt8} {payloadLen blockCount : Nat}
    {ok : Bool} (shown : .checksum ok ∈ udpDatagram payload payloadLen blockCount addresses) :
    ok = checksumOk (wordSum addresses + 17 + word16 payload 4 +
      wordSum (payload.take (min (word16 payload 4) payloadLen))) := by
  rw [udpDatagram] at shown
  dsimp only at shown
  split at shown
  · cases shown
  · rw [mem_append] at shown
    rcases shown with header | data
    · simpa using header
    · rw [udpPayload, mem_append] at data
      rcases data with byte | message
      · obtain ⟨_, _, same⟩ := mem_map.mp byte
        cases same
      · split at message
        · cases message
        · simp at message

/-- The test of both decoders: one turn of adding the carries tells what all turns would. -/
theorem checksumVerdicts : (∀ header : List UInt8, header.length = 20 →
      ipChecksumOk header = (onesSum (wordSum header) == 65535)) ∧
    ∀ (srcIp dstIp datagram : List UInt8) (udpLength : Nat), srcIp.length = 4 →
      dstIp.length = 4 → udpLength < 65536 → datagram.length ≤ 65535 →
      udpChecksumOk srcIp dstIp udpLength datagram =
        (onesSum (wordSum (srcIp ++ dstIp ++ [0, 17] ++ be16 udpLength ++ datagram)) == 65535) := by
  constructor
  · intro header length
    have bound := wordSum_le header
    rw [ipChecksumOk_eq (by omega), checksumOk_eq_onesSum (by omega)]
  · intro srcIp dstIp datagram udpLength source destination short long
    have sourceBound := wordSum_le srcIp
    have destinationBound := wordSum_le dstIp
    have bound := wordSum_le datagram
    have count : wordSum (be16 udpLength) = udpLength := by
      simp only [be16, wordSum, UInt8.toNat_ofNat', Nat.add_zero]
      omega
    have whole : wordSum (srcIp ++ dstIp ++ [0, 17] ++ be16 udpLength ++ datagram) =
        wordSum srcIp + wordSum dstIp + 17 + udpLength + wordSum datagram := by
      simp only [List.append_assoc]
      rw [wordSum_append (by omega), wordSum_append (by omega), wordSum_append (by decide),
        wordSum_append (by simp [be16]), count]
      have protocol : wordSum [0, 17] = 17 := rfl
      omega
    rw [udpChecksumOk_eq (by omega), checksumOk_eq_onesSum (by omega), whole]

/-- A header whose sum carries, and a datagram of nine bytes. -/
theorem checksumVerdicts_odd :
    ipChecksumOk [0x45, 0, 0, 0x73, 0, 0, 0x40, 0, 0x40, 0x11, 0xb8, 0x61, 0xc0, 0xa8, 0, 1, 0xc0,
      0xa8, 0, 0xc7] =
        (onesSum (wordSum [0x45, 0, 0, 0x73, 0, 0, 0x40, 0, 0x40, 0x11, 0xb8, 0x61, 0xc0, 0xa8, 0,
          1, 0xc0, 0xa8, 0, 0xc7]) == 65535) ∧
      udpChecksumOk [10, 0, 0, 1] [10, 0, 0, 2] 9 [0, 1, 0, 2, 0, 9, 0, 0, 0xff] =
        (onesSum (wordSum ([10, 0, 0, 1] ++ [10, 0, 0, 2] ++ [0, 17] ++ be16 9 ++
          [0, 1, 0, 2, 0, 9, 0, 0, 0xff])) == 65535) :=
  ⟨checksumVerdicts.1 _ rfl, checksumVerdicts.2 _ _ _ _ rfl rfl (by decide) (by decide)⟩

end SigrokDecode
