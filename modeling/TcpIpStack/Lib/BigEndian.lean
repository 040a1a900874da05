/-
# Big-endian numbers

`bytes n v` is the number `v` written in `n` octets, most significant first, and
`value` reads such a string back.  A number that does not fit loses its upper
part (`value_bytes`); a string of octets is written back as it was read
(`bytes_value`).
-/

import Mathlib

namespace BigEndian

/-- `v` in `n` octets. -/
def bytes : ℕ → ℕ → List UInt8
  | 0, _ => []
  | n + 1, v => UInt8.ofNat (v / 256 ^ n) :: bytes n v

/-- The number a string of octets spells. -/
def value : List UInt8 → ℕ
  | [] => 0
  | b :: rest => b.toNat * 256 ^ rest.length + value rest

@[simp] theorem length_bytes (n v : ℕ) : (bytes n v).length = n := by
  induction n with
  | zero => rfl
  | succ n ih => rw [bytes, List.length_cons, ih]

/-- **Reading back what was written.** -/
theorem value_bytes (n v : ℕ) : value (bytes n v) = v % 256 ^ n := by
  induction n with
  | zero => exact (Nat.mod_one v).symm
  | succ n ih =>
    have hdigit : (UInt8.ofNat (v / 256 ^ n)).toNat = v / 256 ^ n % 256 := UInt8.toNat_ofNat' ..
    calc value (bytes (n + 1) v)
        = v / 256 ^ n % 256 * 256 ^ n + v % 256 ^ n := by rw [bytes, value, length_bytes, hdigit, ih]
      _ = v % 256 ^ (n + 1) := by rw [Nat.mod_pow_succ]; ring

theorem value_lt (l : List UInt8) : value l < 256 ^ l.length := by
  induction l with
  | nil => exact Nat.one_pos
  | cons b l ih =>
    have hb : b.toNat + 1 ≤ 256 := b.toNat_lt
    calc value (b :: l) < b.toNat * 256 ^ l.length + 256 ^ l.length := Nat.add_lt_add_left ih _
      _ = (b.toNat + 1) * 256 ^ l.length := by ring
      _ ≤ 256 * 256 ^ l.length := Nat.mul_le_mul_right _ hb
      _ = 256 ^ (b :: l).length := by rw [List.length_cons]; ring

theorem bytes_add (n k v : ℕ) : bytes n (k * 256 ^ n + v) = bytes n v := by
  induction n generalizing k with
  | zero => rfl
  | succ n ih =>
    have hdiv : (k * 256 ^ (n + 1) + v) / 256 ^ n = k * 256 + v / 256 ^ n := by
      rw [show k * 256 ^ (n + 1) = 256 ^ n * (k * 256) by ring,
        Nat.mul_add_div (Nat.pow_pos (by decide))]
    have hdigit : UInt8.ofNat (k * 256 + v / 256 ^ n) = UInt8.ofNat (v / 256 ^ n) := by
      rw [← UInt8.toNat_inj, UInt8.toNat_ofNat', UInt8.toNat_ofNat']
      omega
    rw [bytes, bytes, hdiv, hdigit, show k * 256 ^ (n + 1) = k * 256 * 256 ^ n by ring, ih]

/-- **Writing back what was read.** -/
theorem bytes_value (l : List UInt8) : bytes l.length (value l) = l := by
  induction l with
  | nil => rfl
  | cons b l ih =>
    have hdiv : (b.toNat * 256 ^ l.length + value l) / 256 ^ l.length = b.toNat := by
      rw [Nat.mul_comm, Nat.mul_add_div (Nat.pow_pos (by decide)), Nat.div_eq_of_lt (value_lt l),
        Nat.add_zero]
    rw [List.length_cons, value, bytes, hdiv, bytes_add, ih, UInt8.ofNat_toNat]

end BigEndian
