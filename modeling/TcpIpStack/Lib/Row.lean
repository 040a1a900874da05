/-
# Things laid in a row

The members of a list have sizes and lie one after the other.  `start size l i`
is where the one at index `i` begins.  Members at different indices do not
overlap (`start_add_le`), what is taken off the front shifts the rest
(`start_drop`), and what is put at the end leaves the rest where it is
(`start_append`).
-/

import Mathlib

namespace Row

variable {α : Type} (size : α → ℕ) {l m : List α} {i j : ℕ} {a : α}

/-- Where the member at index `i` begins. -/
def start (l : List α) (i : ℕ) : ℕ := ((l.take i).map size).sum

theorem start_succ (h : l[i]? = some a) : start size l (i + 1) = start size l i + size a := by
  rw [start, start, List.take_add_one, h]
  simp

theorem start_mono (h : i ≤ j) : start size l i ≤ start size l j := by
  obtain ⟨k, rfl⟩ := Nat.exists_eq_add_of_le h
  rw [start, start, List.take_add, List.map_append, List.sum_append]
  exact Nat.le_add_right ..

theorem start_add_le (h : l[i]? = some a) (hij : i < j) : start size l i + size a ≤ start size l j := by
  rw [← start_succ size h]
  exact start_mono size hij

theorem start_append (h : i ≤ l.length) : start size (l ++ m) i = start size l i := by
  rw [start, start, List.take_append_of_le_length h]

theorem start_drop (k i : ℕ) : start size l (k + i) = start size l k + start size (l.drop k) i := by
  rw [start, start, start, List.take_add, List.map_append, List.sum_append]

theorem start_congr (h : m.map size = l.map size) (i : ℕ) : start size m i = start size l i := by
  rw [start, start, List.map_take, List.map_take, h]

end Row
