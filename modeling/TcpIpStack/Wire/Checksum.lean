/-
# The Internet checksum

`internet_checksum` of `src/src/utils.cpp` (RFC 1071): the 16-bit words of the
data are added up in a `uint32_t`, the carries are folded back in, and the
result is complemented.

Folding keeps the sum modulo `2^16 - 1`, and only zero becomes zero
(`foldCarries_spec`).  So a sum that its own complement has been added to folds
to all ones, and data that holds its checksum has checksum zero
(`internetChecksum_self`).

TCP and UDP put a pseudo-header of addresses, protocol and length in front of
the data (`transport_checksum`).  UDP sends a checksum of zero as all ones, and the
data verifies all the same (`internetChecksum_ones`).
-/

import TcpIpStack.Wire.Addresses

namespace TcpIpStack

/-- The 16-bit words of the data, added up; an odd octet at the end is the upper
half of a word. -/
def wordSum : Bytes → ℕ
  | hi :: lo :: rest => hi.toNat * 256 + lo.toNat + wordSum rest
  | [hi] => hi.toNat * 256
  | [] => 0

/-- The loop that folds the carries back in.  Two turns are enough. -/
def foldCarries : ℕ → ℕ → ℕ
  | 0, sum => sum
  | fuel + 1, sum => if sum / 2 ^ 16 ≠ 0 then foldCarries fuel (sum % 2 ^ 16 + sum / 2 ^ 16) else sum

/-- `internet_checksum`. -/
def internetChecksum (data : Bytes) : UInt16 :=
  UInt16.ofNat (0xFFFF - foldCarries 2 (wordSum data % 2 ^ 32))

/-- `transport_checksum`. -/
def transportChecksum (src dest : IPv4Address) (protocol : UInt8) (segment : Bytes) : UInt16 :=
  internetChecksum (src.octets ++ dest.octets ++ [0, protocol] ++
    intToBytes16 (UInt16.ofNat segment.length) ++ segment)

/-! ### Sums -/

theorem wordSum_append {front : Bytes} (rest : Bytes) (h : front.length % 2 = 0) :
    wordSum (front ++ rest) = wordSum front + wordSum rest := by
  induction front using wordSum.induct with
  | case1 hi lo front ih =>
    have hfront : front.length % 2 = 0 := by
      simp only [List.length_cons] at h
      omega
    rw [List.cons_append, List.cons_append, wordSum, wordSum, ih hfront]
    omega
  | case2 hi => simp at h
  | case3 => rw [List.nil_append, wordSum, Nat.zero_add]

theorem wordSum_int16 (v : UInt16) : wordSum (intToBytes16 v) = v.toNat := by
  have hv : v.toNat < 65536 := v.toNat_lt
  simp only [intToBytes16, BigEndian.bytes, wordSum, UInt8.toNat_ofNat']
  omega

theorem wordSum_le (data : Bytes) : wordSum data ≤ 0xFFFF * (data.length / 2 + 1) := by
  induction data using wordSum.induct with
  | case1 hi lo rest ih =>
    have hhi : hi.toNat < 256 := hi.toNat_lt
    have hlo : lo.toNat < 256 := lo.toNat_lt
    have hlen : (hi :: lo :: rest).length / 2 = rest.length / 2 + 1 := by
      simp only [List.length_cons]
      omega
    rw [wordSum, hlen]
    omega
  | case2 hi =>
    have hhi : hi.toNat < 256 := hi.toNat_lt
    simp only [wordSum, List.length_singleton]
    omega
  | case3 => simp [wordSum]

/-! ### Folding -/

/-- **What folding keeps.** -/
theorem foldCarries_spec (sum : ℕ) (h : sum < 2 ^ 32) :
    foldCarries 2 sum ≤ 0xFFFF ∧ foldCarries 2 sum % 0xFFFF = sum % 0xFFFF ∧
      (foldCarries 2 sum = 0 ↔ sum = 0) := by
  simp only [foldCarries]
  split_ifs
  all_goals omega

/-- Data verifies if its words add up to a positive multiple of `2^16 - 1`. -/
theorem internetChecksum_eq_zero_iff {data : Bytes} (h : wordSum data < 2 ^ 32) :
    internetChecksum data = 0 ↔ wordSum data ≠ 0 ∧ wordSum data % 0xFFFF = 0 := by
  obtain ⟨hle, hmod, hzero⟩ := foldCarries_spec (wordSum data) h
  rw [internetChecksum, Nat.mod_eq_of_lt h, ← UInt16.toNat_inj, UInt16.toNat_ofNat', UInt16.toNat_zero]
  omega

theorem wordSum_checksum {front : Bytes} (rest : Bytes) (heven : front.length % 2 = 0) (v : UInt16) :
    wordSum (front ++ (intToBytes16 v ++ rest)) = v.toNat + (wordSum front + wordSum rest) := by
  rw [wordSum_append _ heven, wordSum_append _ (by simp), wordSum_int16]
  omega

section

variable {front rest : Bytes}

theorem wordSum_lt (hlength : front.length + rest.length < 2 ^ 16) :
    wordSum front + wordSum rest < 2 ^ 32 - 2 ^ 16 := by
  have hfront := wordSum_le front
  have hrest := wordSum_le rest
  omega

/-- **Data that holds its own checksum has checksum zero.** -/
theorem internetChecksum_self (front rest : Bytes) (heven : front.length % 2 = 0)
    (hlength : front.length + rest.length < 2 ^ 16) :
    internetChecksum (front ++ (intToBytes16 (internetChecksum (front ++ (intToBytes16 0 ++ rest))) ++
      rest)) = 0 := by
  have hsum := wordSum_checksum rest heven
  have hlt := wordSum_lt hlength
  generalize wordSum front + wordSum rest = s at hsum hlt
  obtain ⟨hle, hmod, hzero⟩ := foldCarries_spec s (by omega)
  have hc : (internetChecksum (front ++ (intToBytes16 0 ++ rest))).toNat = 0xFFFF - foldCarries 2 s := by
    rw [internetChecksum, hsum, UInt16.toNat_zero, Nat.zero_add, Nat.mod_eq_of_lt (by omega),
      UInt16.toNat_ofNat']
    omega
  -- the complement makes the sum a positive multiple of `2^16 - 1`
  have htotal := hsum (internetChecksum (front ++ (intToBytes16 0 ++ rest)))
  rw [internetChecksum_eq_zero_iff (by omega)]
  omega

/-- **All ones in the place of the checksum are as good as zero.** -/
theorem internetChecksum_ones (heven : front.length % 2 = 0) (hlength : front.length + rest.length < 2 ^ 16)
    (h : internetChecksum (front ++ (intToBytes16 0 ++ rest)) = 0) :
    internetChecksum (front ++ (intToBytes16 0xFFFF ++ rest)) = 0 := by
  have hlt := wordSum_lt hlength
  have hzero := wordSum_checksum rest heven 0
  have hones := wordSum_checksum rest heven 0xFFFF
  rw [UInt16.toNat_zero] at hzero
  simp only [UInt16.reduceToNat] at hones
  rw [internetChecksum_eq_zero_iff (by omega)] at h
  rw [internetChecksum_eq_zero_iff (by omega)]
  omega

end

end TcpIpStack
