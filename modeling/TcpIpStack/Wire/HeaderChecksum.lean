/-
# The checksum of a header with options

`verify_checksum` writes the header once more before it adds it up, and what is
written has no options.  So it covers the options only when they do not matter to
the sum (`Ip.verifyChecksum_exact_iff`): a packet with options is dropped although
its checksum is right, or taken although it is wrong.
-/

import TcpIpStack.Wire.Ip

namespace TcpIpStack

namespace Ip

/-- The words of the header without its options. -/
def headerSum (data : Bytes) : ℕ := wordSum (data.take 20)

/-- The words of its options. -/
def optionSum (data : Bytes) (ip : Ip) : ℕ := wordSum ((data.drop 20).take (4 * ip.ihl.toNat - 20))

/-- **The checksum that is verified is the one over the whole header exactly when the
options add up to nothing modulo `2^16 - 1`**, or when neither verifies. -/
theorem verifyChecksum_exact_iff {data : Bytes} {ip : Ip} (h : fromBytes data = .ok ip) :
    (ip.verifyChecksum = true ↔ internetChecksum (data.take (4 * ip.ihl.toNat)) = 0) ↔
      optionSum data ip % 0xFFFF = 0 ∨
        headerSum data % 0xFFFF ≠ 0 ∧ (headerSum data + optionSum data ip) % 0xFFFF ≠ 0 := by
  obtain ⟨hihl, -, -, -⟩ := layer_of_fromBytes h
  obtain ⟨hlength, hheader⟩ := headerToBytes_of_fromBytes h
  have hsmall := ip.ihl.toNat_lt
  have htake : (data.take 20).length = 20 := by
    rw [List.length_take]
    omega
  -- the first octet holds the length of the header, so the sum is not zero
  have hpos : headerSum data ≠ 0 := by
    have hfirst : ip.ihl.toNat ≤ (ip.version <<< 4 ||| ip.ihl).toNat := by
      rw [UInt8.toNat_or]
      exact Nat.right_le_or
    rw [headerSum, ← hheader, headerToBytes, wordSum]
    omega
  have hwhole : wordSum (data.take (4 * ip.ihl.toNat)) = headerSum data + optionSum data ip := by
    rw [headerSum, optionSum, ← wordSum_append _ (by rw [htake]), ← List.drop_zero (l := data), List.drop_drop,
      ← take_add_drop data 0 20, Nat.add_sub_cancel' (by omega)]
  have hlt := wordSum_le (data.take (4 * ip.ihl.toNat))
  have hshort : (data.take (4 * ip.ihl.toNat)).length ≤ 4 * ip.ihl.toNat := List.length_take_le ..
  rw [verifyChecksum, decide_eq_true_iff, hheader, internetChecksum_eq_zero_iff (by rw [← headerSum]; omega),
    internetChecksum_eq_zero_iff (by omega), hwhole, ← headerSum]
  omega

/-- A header with four octets of options and this checksum, and nothing behind it. -/
def optionPacket (high low : UInt8) (options : Bytes) : Bytes :=
  [0x46, 0, 0, 24, 0, 0, 0, 0, 64, 255, high, low, 10, 0, 0, 1, 10, 0, 0, 2] ++ options

/-- Options of zeros do not matter. -/
theorem zero_options_verified :
    (fromBytes (optionPacket 0x64 0xE5 [0, 0, 0, 0])).map verifyChecksum = .ok true ∧
      internetChecksum (optionPacket 0x64 0xE5 [0, 0, 0, 0]) = 0 := by
  have hread : ∃ ip, fromBytes (optionPacket 0x64 0xE5 [0, 0, 0, 0]) = .ok ip ∧ ip.ihl = 6 ∧
      ip.verifyChecksum = true := ⟨_, rfl, rfl, by decide⟩
  obtain ⟨ip, hip, hihl, hverified⟩ := hread
  have hexact := (verifyChecksum_exact_iff hip).2 (.inl (by rw [optionSum, hihl]; decide))
  rw [hihl] at hexact
  exact ⟨by rw [hip, map_ok, hverified], hexact.1 hverified⟩

/-- **A right checksum over the whole header is dropped, and a wrong one is taken.** -/
theorem options_not_covered :
    (internetChecksum (optionPacket 0x62 0xE3 [1, 1, 1, 1]) = 0 ∧
      (fromBytes (optionPacket 0x62 0xE3 [1, 1, 1, 1])).map verifyChecksum = .ok false) ∧
    internetChecksum (optionPacket 0x64 0xE5 [1, 1, 1, 1]) ≠ 0 ∧
      (fromBytes (optionPacket 0x64 0xE5 [1, 1, 1, 1])).map verifyChecksum = .ok true := by
  decide

end Ip

end TcpIpStack
