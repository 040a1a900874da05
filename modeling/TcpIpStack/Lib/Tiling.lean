/-
# Cutting a list into tiles

A tile is a piece of a list together with the position it was cut at.  Tiles are
contiguous from `n` when the first starts at `n` and each one where the one
before it stops (`Contiguous`).  Then they do not overlap (`Contiguous.pairwise`)
and stay within the length they add up to (`Contiguous.bounds`).

`cut width l` cuts a list into tiles of `width` and a last one that may be
shorter: they are contiguous, none is empty, they join to the list, and there are
as many as the length over the width, rounded up (`contiguous_cut`,
`ne_nil_of_mem_cut`, `join_cut`, `length_cut`).
-/

import Mathlib

namespace Tiling

variable {α : Type}

/-- Each tile starts where the one before it stops, the first at `n`. -/
def Contiguous : ℕ → List (ℕ × List α) → Prop
  | _, [] => True
  | n, t :: ts => t.1 = n ∧ Contiguous (n + t.2.length) ts

/-- The elements of the tiles, one after the other. -/
def join (ts : List (ℕ × List α)) : List α := ts.flatMap Prod.snd

@[simp] theorem join_nil : join ([] : List (ℕ × List α)) = [] := rfl

@[simp] theorem join_cons (t : ℕ × List α) (ts : List (ℕ × List α)) :
    join (t :: ts) = t.2 ++ join ts := List.flatMap_cons

variable {n fuel offset : ℕ} {ts : List (ℕ × List α)}

theorem Contiguous.bounds (h : Contiguous n ts) :
    ∀ t ∈ ts, n ≤ t.1 ∧ t.1 + t.2.length ≤ n + (join ts).length := by
  induction ts generalizing n with
  | nil => exact List.forall_mem_nil _
  | cons t ts ih =>
    obtain ⟨rfl, hrest⟩ := h
    rw [join_cons, List.length_append]
    refine List.forall_mem_cons.2 ⟨⟨le_rfl, by omega⟩, fun u hu => ?_⟩
    have hbounds := ih hrest u hu
    omega

theorem Contiguous.pairwise (h : Contiguous n ts) : ts.Pairwise fun t u => t.1 + t.2.length ≤ u.1 := by
  induction ts generalizing n with
  | nil => exact List.Pairwise.nil
  | cons t ts ih =>
    obtain ⟨rfl, hrest⟩ := h
    exact List.pairwise_cons.2 ⟨fun u hu => (hrest.bounds u hu).1, ih hrest⟩

variable {t : ℕ × List α}

theorem Contiguous.disjoint (h : Contiguous n ts) {u : ℕ × List α} (ht : t ∈ ts) (hu : u ∈ ts) (hne : t ≠ u) :
    t.1 + t.2.length ≤ u.1 ∨ u.1 + u.2.length ≤ t.1 := by
  have hsymm : Std.Symm fun t u : ℕ × List α =>
      t.1 + t.2.length ≤ u.1 ∨ u.1 + u.2.length ≤ t.1 := ⟨fun _ _ => Or.symm⟩
  have hpairwise : ts.Pairwise fun t u => t.1 + t.2.length ≤ u.1 ∨ u.1 + u.2.length ≤ t.1 :=
    h.pairwise.imp Or.inl
  exact hpairwise.forall ht hu hne

theorem Contiguous.nodup (h : Contiguous n ts) (hne : ∀ t ∈ ts, t.2 ≠ []) : ts.Nodup := by
  refine h.pairwise.imp_of_mem fun {t u} ht _ hle heq => ?_
  subst heq
  have hpos := List.length_pos_iff.2 (hne t ht)
  omega

theorem Contiguous.exists_stop (h : Contiguous n ts) (hne : ts ≠ []) :
    ∃ t ∈ ts, t.1 + t.2.length = n + (join ts).length := by
  induction ts generalizing n with
  | nil => exact absurd rfl hne
  | cons t ts ih =>
    obtain ⟨rfl, hrest⟩ := h
    rw [join_cons, List.length_append]
    cases ts with
    | nil => exact ⟨t, List.mem_cons_self, by simp⟩
    | cons u us =>
      obtain ⟨v, hv, hstop⟩ := ih hrest (List.cons_ne_nil _ _)
      exact ⟨v, List.mem_cons_of_mem _ hv, by omega⟩

theorem length_join_perm {us : List (ℕ × List α)} (h : ts.Perm us) :
    (join ts).length = (join us).length := (h.flatMap_right _).length_eq

/-! ### Cutting -/

/-- The tiles of a list from a position on. -/
def cutFrom (width : ℕ) (l : List α) : ℕ → ℕ → List (ℕ × List α)
  | 0, _ => []
  | fuel + 1, offset =>
    if l.length ≤ offset then []
    else (offset, (l.drop offset).take width) :: cutFrom width l fuel (offset + width)

/-- The tiles of a list. -/
def cut (width : ℕ) (l : List α) : List (ℕ × List α) := cutFrom width l l.length 0

variable {width : ℕ} {l : List α}

theorem cutFrom_of_length_le (h : l.length ≤ offset) : cutFrom width l fuel offset = [] := by
  cases fuel with
  | zero => rfl
  | succ fuel => rw [cutFrom, if_pos h]

theorem mem_cutFrom (h : t ∈ cutFrom width l fuel offset) :
    t.1 < l.length ∧ t.2 = (l.drop t.1).take width ∧ width ∣ t.1 - offset ∧ offset ≤ t.1 := by
  induction fuel generalizing offset with
  | zero => exact absurd h List.not_mem_nil
  | succ fuel ih =>
    rw [cutFrom] at h
    split_ifs at h with hstop
    · exact absurd h List.not_mem_nil
    · rcases List.mem_cons.1 h with rfl | hrest
      · exact ⟨by omega, rfl, by simp, le_rfl⟩
      · obtain ⟨hlt, heq, hdvd, hle⟩ := ih hrest
        refine ⟨hlt, heq, ?_, by omega⟩
        have hsplit : t.1 - offset = t.1 - (offset + width) + width := by omega
        rw [hsplit]
        exact Nat.dvd_add hdvd dvd_rfl

theorem mem_cut (h : t ∈ cut width l) : t.1 < l.length ∧ t.2 = (l.drop t.1).take width ∧ width ∣ t.1 := by
  obtain ⟨hlt, heq, hdvd, -⟩ := mem_cutFrom h
  exact ⟨hlt, heq, hdvd⟩

theorem ne_nil_of_mem_cut (hwidth : 0 < width) (h : t ∈ cut width l) : t.2 ≠ [] := by
  obtain ⟨hlt, heq, -⟩ := mem_cut h
  rw [heq, ← List.length_pos_iff, List.length_take, List.length_drop]
  omega

theorem join_cutFrom (hwidth : 0 < width) (h : l.length ≤ offset + fuel) :
    join (cutFrom width l fuel offset) = l.drop offset := by
  induction fuel generalizing offset with
  | zero =>
    rw [cutFrom, join_nil, List.drop_of_length_le (by omega)]
  | succ fuel ih =>
    rw [cutFrom]
    split_ifs with hstop
    · rw [join_nil, List.drop_of_length_le hstop]
    · rw [join_cons, ih (by omega), ← List.drop_drop, List.take_append_drop]

theorem join_cut (hwidth : 0 < width) : join (cut width l) = l := by
  rw [cut, join_cutFrom hwidth (by omega), List.drop_zero]

theorem length_cutFrom (hwidth : 0 < width) (h : l.length ≤ offset + fuel) :
    (cutFrom width l fuel offset).length = (l.length - offset + width - 1) / width := by
  have hnone (hstop : l.length ≤ offset) : (l.length - offset + width - 1) / width = 0 :=
    Nat.div_eq_of_lt (by omega)
  induction fuel generalizing offset with
  | zero => exact (hnone (by omega)).symm
  | succ fuel ih =>
    rw [cutFrom]
    split_ifs with hstop
    · exact (hnone hstop).symm
    · have hnext : l.length - offset + width - 1 = l.length - offset - 1 + width := by omega
      rw [List.length_cons, ih (by omega) fun _ => Nat.div_eq_of_lt (by omega), hnext,
        Nat.add_div_right _ hwidth]
      rcases Nat.lt_or_ge (offset + width) l.length with hlt | hge
      · congr 2
        omega
      · -- the last tile: both counts after it are zero
        rw [Nat.div_eq_of_lt (by omega), Nat.div_eq_of_lt (by omega)]

/-- As many tiles as it takes: the length over the width, rounded up. -/
theorem length_cut (hwidth : 0 < width) : (cut width l).length = (l.length + width - 1) / width :=
  length_cutFrom hwidth (by omega)

theorem contiguous_cutFrom (hwidth : 0 < width) (h : l.length ≤ offset + fuel) :
    Contiguous offset (cutFrom width l fuel offset) := by
  induction fuel generalizing offset with
  | zero => trivial
  | succ fuel ih =>
    rw [cutFrom]
    split_ifs with hstop
    · trivial
    · refine ⟨rfl, ?_⟩
      dsimp only
      rcases Nat.lt_or_ge (offset + width) l.length with hlt | hge
      · have hfull : ((l.drop offset).take width).length = width := by
          rw [List.length_take, List.length_drop]
          omega
        rw [hfull]
        exact ih (by omega)
      · -- the last tile: nothing follows it
        rw [cutFrom_of_length_le hge]
        trivial

theorem contiguous_cut (hwidth : 0 < width) : Contiguous 0 (cut width l) :=
  contiguous_cutFrom hwidth (by omega)

end Tiling
