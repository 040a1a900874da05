/-
# Chunks of a stream

A stream is a list that grows at its end.  `At s n p` says that the chunk `p`
is what stands in the stream `s` from position `n` on.  A chunk that is there
stays there while the stream grows (`At.append`), its parts are there too
(`At.drop`, `At.take`), and a reader that holds the first `n` elements and is
handed the chunk at `n` holds the first `n + |p|` (`At.take_append`).  That is
all a receiver needs to rebuild a stream from chunks that arrive in any order
and any number of times.
-/

import Mathlib

namespace Chunk

variable {α : Type}

/-- `p` stands in `s` at position `n`. -/
def At (s : List α) (n : ℕ) (p : List α) : Prop := p <+: s.drop n

theorem at_middle (a p b : List α) : At (a ++ p ++ b) a.length p := by
  rw [At, List.append_assoc, List.drop_left]
  exact List.prefix_append p b

theorem at_end (a p : List α) : At (a ++ p) a.length p := by
  simpa using at_middle a p []

variable {s p : List α} {n : ℕ}

theorem At.append (h : At s n p) (t : List α) : At (s ++ t) n p := by
  rw [At, List.drop_append]
  exact h.trans (List.prefix_append _ _)

theorem At.prepend (h : At s n p) (r : List α) : At (r ++ s) (r.length + n) p := by
  rwa [At, ← List.drop_drop, List.drop_left]

theorem At.take (h : At s n p) (k : ℕ) : At s n (p.take k) :=
  (List.take_prefix k p).trans h

theorem At.drop (h : At s n p) (k : ℕ) : At s (n + k) (p.drop k) := by
  rw [At, ← List.drop_drop]
  exact List.IsPrefix.drop h k

/-- The first `n` elements and the chunk at `n` are the first `n + |p|`. -/
theorem At.take_append (h : At s n p) : s.take n ++ p = s.take (n + p.length) := by
  rw [List.take_add, ← List.prefix_iff_eq_take.1 h]

theorem At.length_le (h : At s n p) (hp : p ≠ []) : n + p.length ≤ s.length := by
  have hle : p.length ≤ (s.drop n).length := List.IsPrefix.length_le h
  have hpos := List.length_pos_iff.2 hp
  rw [List.length_drop] at hle
  omega

/-- A reader of `s` that is handed the chunk where it stopped reads on. -/
theorem At.prefix_append {r : List α} (h : At s r.length p) (hr : r <+: s) : r ++ p <+: s := by
  have htake : s.take r.length = r := (List.prefix_iff_eq_take.1 hr).symm
  have := h.take_append
  rw [htake] at this
  rw [this]
  exact List.take_prefix _ _

end Chunk
