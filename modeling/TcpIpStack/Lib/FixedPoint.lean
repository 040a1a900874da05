/-
# Fixed-point smoothing in 32 bits

An exponential filter in integers keeps a mean scaled by `k`: each sample decays
the old value by one `k`th and adds one `k`th of the new one, both rounded down
(`smooth`).  Rounding does not carry the mean out of an interval whose ends are
multiples of `k`.

`add`, `sub` and `mul` are the operations on 32-bit words that have no result
where the machine's would wrap, so that a computation written with them has a
result exactly if none of its steps wraps.
-/

import Mathlib

namespace FixedPoint

/-! ### Operations that do not wrap -/

def add (a b : UInt32) : Option UInt32 := if a.toNat + b.toNat < 2 ^ 32 then some (a + b) else none

def sub (a b : UInt32) : Option UInt32 := if b ≤ a then some (a - b) else none

def mul (a b : UInt32) : Option UInt32 := if a.toNat * b.toNat < 2 ^ 32 then some (a * b) else none

section Checked

variable {a b : UInt32}

theorem add_of_lt (h : a.toNat + b.toNat < 2 ^ 32) : add a b = some (a + b) := if_pos h

theorem sub_of_le (h : b ≤ a) : sub a b = some (a - b) := if_pos h

theorem mul_of_lt (h : a.toNat * b.toNat < 2 ^ 32) : mul a b = some (a * b) := if_pos h

theorem toNat_add_of_lt (h : a.toNat + b.toNat < 2 ^ 32) : (a + b).toNat = a.toNat + b.toNat := by
  rw [UInt32.toNat_add, Nat.mod_eq_of_lt h]

theorem toNat_mul_of_lt (h : a.toNat * b.toNat < 2 ^ 32) : (a * b).toNat = a.toNat * b.toNat := by
  rw [UInt32.toNat_mul, Nat.mod_eq_of_lt h]

end Checked

/-! ### Smoothing -/

/-- The old value decays by one `k`th, and one `k`th of the sample is added. -/
def smooth (k value sample : ℕ) : ℕ := value - value / k + sample / k

section Smooth

variable {k value sample m : ℕ}

theorem decay_le (hk : 0 < k) (h : value ≤ k * m) : value - value / k ≤ k * m - m := by
  have hdiv := Nat.div_add_mod value k
  have hmod := Nat.mod_lt value hk
  have hq : value / k ≤ m := Nat.div_le_of_le_mul h
  obtain ⟨k, rfl⟩ : ∃ j, k = j + 1 := ⟨k - 1, by omega⟩
  obtain ⟨d, rfl⟩ : ∃ d, m = value / (k + 1) + d := ⟨m - value / (k + 1), by omega⟩
  generalize value / (k + 1) = q at *
  cases d with
  | zero =>
    have hle : value ≤ (k + 1) * q := h
    omega
  | succ d =>
    have hexpand : (k + 1) * (q + (d + 1)) = (k + 1) * q + (k * d + k) + (d + 1) := by ring
    omega

theorem le_decay (h : k * m ≤ value) : k * m - m ≤ value - value / k := by
  rcases Nat.eq_zero_or_pos k with rfl | hk
  · simp
  · have hdiv := Nat.div_add_mod value k
    have hq : m ≤ value / k := (Nat.le_div_iff_mul_le hk).2 (by rwa [Nat.mul_comm])
    obtain ⟨k, rfl⟩ : ∃ j, k = j + 1 := ⟨k - 1, by omega⟩
    obtain ⟨d, hd⟩ : ∃ d, value / (k + 1) = m + d := ⟨value / (k + 1) - m, by omega⟩
    rw [hd] at hdiv ⊢
    have hexpand : (k + 1) * (m + d) = (k + 1) * m + k * d + d := by ring
    have hexpand' : (k + 1) * m = k * m + m := by ring
    omega

theorem smooth_le (hk : 0 < k) (hvalue : value ≤ k * m) (hsample : sample ≤ k * m) :
    smooth k value sample ≤ k * m := by
  have hdecay := decay_le hk hvalue
  have hadd : sample / k ≤ m := Nat.div_le_of_le_mul hsample
  have hm : m ≤ k * m := Nat.le_mul_of_pos_left m hk
  unfold smooth
  omega

theorem le_smooth (hk : 0 < k) (hvalue : k * m ≤ value) (hsample : k * m ≤ sample) :
    k * m ≤ smooth k value sample := by
  have hdecay := le_decay hvalue
  have hadd : m ≤ sample / k := (Nat.le_div_iff_mul_le hk).2 (by rwa [Nat.mul_comm])
  have hm : m ≤ k * m := Nat.le_mul_of_pos_left m hk
  unfold smooth
  omega

theorem smooth_zero_le (k value : ℕ) : smooth k value 0 ≤ value := by
  unfold smooth
  rw [Nat.zero_div, Nat.add_zero]
  exact Nat.sub_le ..

end Smooth

/-! ### Smoothing by shifts -/

section Shift

variable {s : UInt32} {shift : ℕ} (value sample : UInt32)

theorem toNat_shiftRight_of (hs : s.toNat = shift) (hlt : shift < 32) :
    (value >>> s).toNat = value.toNat / 2 ^ shift := by
  rw [UInt32.toNat_shiftRight, hs, Nat.mod_eq_of_lt hlt, Nat.shiftRight_eq_div_pow]

/-- The filter in 32 bits, where it does not wrap: each of its three steps is
exact. -/
theorem smooth_of_shift (hs : s.toNat = shift) (hlt : shift < 32)
    (h : value.toNat + sample.toNat / 2 ^ shift < 2 ^ 32) :
    (sub value (value >>> s)).bind (add · (sample >>> s)) = some (value - (value >>> s) + (sample >>> s)) ∧
      (value - (value >>> s) + (sample >>> s)).toNat = smooth (2 ^ shift) value.toNat sample.toNat := by
  have hvalue := toNat_shiftRight_of value hs hlt
  have hsample := toNat_shiftRight_of sample hs hlt
  have hle : value >>> s ≤ value := by
    rw [UInt32.le_iff_toNat_le, hvalue]
    exact Nat.div_le_self ..
  have hdecay : (value - (value >>> s)).toNat = value.toNat - value.toNat / 2 ^ shift := by
    rw [UInt32.toNat_sub_of_le _ _ hle, hvalue]
  have hsum : (value - (value >>> s)).toNat + (sample >>> s).toNat < 2 ^ 32 := by
    rw [hdecay, hsample]
    omega
  refine ⟨?_, ?_⟩
  · rw [sub_of_le hle, Option.bind_some, add_of_lt hsum]
  · rw [toNat_add_of_lt hsum, hdecay, hsample, smooth]

end Shift

end FixedPoint
