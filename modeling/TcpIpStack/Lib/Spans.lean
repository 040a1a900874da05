/-
# Spans on a circle

A span is a stretch of the circle of `2^32` numbers, given by where it starts and
how many numbers it has.  `Covers` says that a number is in it, and two spans
overlap when a number is in both; that can be read off their starts
(`overlap_iff`).

Seen from a base that is in neither of them, spans are intervals of natural
numbers: `covers_iff` translates, and what does not overlap is then one before
the other (`le_of_not_overlap`, `not_overlap_of_le`).  Moving the base forward
lowers all distances by as much (`toNat_sub_add`).  Spans that do not overlap
have as many numbers together as they have in all (`ncard_covered`).
-/

import Mathlib

namespace Spans

/-- `q` is one of the `len` numbers from `start` on. -/
def Covers (start : UInt32) (len : ℕ) (q : UInt32) : Prop := (q - start).toNat < len

/-- The two spans have a number in common. -/
def Overlap (s : UInt32) (m : ℕ) (s' : UInt32) (m' : ℕ) : Prop := ∃ q, Covers s m q ∧ Covers s' m' q

instance (start : UInt32) (len : ℕ) (q : UInt32) : Decidable (Covers start len q) :=
  inferInstanceAs (Decidable (_ < _))

variable {b s s' q : UInt32} {m m' n : ℕ}

theorem covers_start (h : 0 < m) : Covers s m s := by
  rw [Covers, UInt32.sub_self]
  exact h

theorem overlap_iff : Overlap s m s' m' ↔ (s' - s).toNat < m ∧ 0 < m' ∨ (s - s').toNat < m' ∧ 0 < m := by
  constructor
  · rintro ⟨q, hq, hq'⟩
    unfold Covers at hq hq'
    rw [UInt32.toNat_sub] at hq hq' ⊢
    rw [UInt32.toNat_sub]
    have := q.toNat_lt
    have := s.toNat_lt
    have := s'.toNat_lt
    omega
  · rintro (⟨hin, hpos⟩ | ⟨hin, hpos⟩)
    · exact ⟨s', hin, covers_start hpos⟩
    · exact ⟨s, covers_start hpos, hin⟩

instance : Decidable (Overlap s m s' m') := decidable_of_iff _ overlap_iff.symm

/-! ### Seen from a base -/

theorem toNat_sub_add (h : n ≤ (s - b).toNat) : (s - (b + UInt32.ofNat n)).toNat = (s - b).toNat - n := by
  have hlt := (s - b).toNat_lt
  have hn : (UInt32.ofNat n).toNat = n := UInt32.toNat_ofNat_of_lt' (show n < 2 ^ 32 by omega)
  have hle : UInt32.ofNat n ≤ s - b := by
    rw [UInt32.le_iff_toNat_le, hn]
    exact h
  rw [show s - (b + UInt32.ofNat n) = s - b - UInt32.ofNat n by grind, UInt32.toNat_sub_of_le _ _ hle, hn]

theorem covers_iff (b : UInt32) (h : (s - b).toNat + m ≤ 2 ^ 32) :
    Covers s m q ↔ (s - b).toNat ≤ (q - b).toNat ∧ (q - b).toNat < (s - b).toNat + m := by
  have hq := (q - b).toNat_lt
  have hs := (s - b).toNat_lt
  rw [Covers, show q - s = q - b - (s - b) by grind, UInt32.toNat_sub]
  omega

theorem le_of_not_overlap (h : ¬ Overlap s m s' m') (b : UInt32) (hfits : (s - b).toNat + m ≤ 2 ^ 32)
    (hpos : 0 < m') (hlt : (s - b).toNat < (s' - b).toNat) : (s - b).toNat + m ≤ (s' - b).toNat := by
  by_contra hnot
  exact h ⟨s', (covers_iff b hfits).2 ⟨hlt.le, by omega⟩, covers_start hpos⟩

theorem not_overlap_of_le (b : UInt32) (hfits : (s' - b).toNat + m' ≤ 2 ^ 32)
    (h : (s - b).toNat + m ≤ (s' - b).toNat) : ¬ Overlap s m s' m' := by
  rintro ⟨q, hq, hq'⟩
  rw [covers_iff b (by omega)] at hq
  rw [covers_iff b hfits] at hq'
  omega

theorem Overlap.symm (h : Overlap s m s' m') : Overlap s' m' s m := by
  obtain ⟨q, hq, hq'⟩ := h
  exact ⟨q, hq', hq⟩

/-! ### How many numbers -/

theorem ncard_covers (s : UInt32) (h : m ≤ 2 ^ 32) : {q | Covers s m q}.ncard = m := by
  have himage : {q | Covers s m q} = (fun k => s + UInt32.ofNat k) '' Set.Iio m := by
    ext q
    constructor
    · intro hq
      refine ⟨(q - s).toNat, hq, ?_⟩
      show s + UInt32.ofNat (q - s).toNat = q
      rw [UInt32.ofNat_toNat]
      grind
    · rintro ⟨k, hk, rfl⟩
      show (s + UInt32.ofNat k - s).toNat < m
      rw [show s + UInt32.ofNat k - s = UInt32.ofNat k by grind, UInt32.toNat_ofNat']
      exact lt_of_le_of_lt (Nat.mod_le ..) hk
  have hinj : Set.InjOn (fun k => s + UInt32.ofNat k) (Set.Iio m) := by
    intro j hj k hk heq
    have hj' : j < 2 ^ 32 := lt_of_lt_of_le hj h
    have hk' : k < 2 ^ 32 := lt_of_lt_of_le hk h
    have hnat := congrArg UInt32.toNat (UInt32.add_right_inj s |>.1 heq)
    rwa [UInt32.toNat_ofNat_of_lt' hj', UInt32.toNat_ofNat_of_lt' hk'] at hnat
  rw [himage, hinj.ncard_image, Set.ncard_Iio_nat]

variable {α : Type} {start : α → UInt32} {len : α → ℕ}

/-- Spans that do not overlap: the numbers in them add up. -/
theorem ncard_covered {l : List α} (hsmall : ∀ a ∈ l, len a ≤ 2 ^ 32)
    (hapart : l.Pairwise fun a a' => ¬ Overlap (start a) (len a) (start a') (len a')) :
    {q | ∃ a ∈ l, Covers (start a) (len a) q}.ncard = (l.map len).sum := by
  induction l with
  | nil => simp
  | cons a l ih =>
    obtain ⟨ha, hl⟩ := List.pairwise_cons.1 hapart
    obtain ⟨hsmall₁, hsmall₂⟩ := List.forall_mem_cons.1 hsmall
    have hunion : {q | ∃ a' ∈ a :: l, Covers (start a') (len a') q} =
        {q | Covers (start a) (len a) q} ∪ {q | ∃ a' ∈ l, Covers (start a') (len a') q} := by
      ext q
      simp
    have hdisjoint : Disjoint {q | Covers (start a) (len a) q}
        {q | ∃ a' ∈ l, Covers (start a') (len a') q} := by
      rw [Set.disjoint_left]
      rintro q hq ⟨a', hmem, hq'⟩
      exact ha a' hmem ⟨q, hq, hq'⟩
    rw [hunion, Set.ncard_union_eq hdisjoint (Set.toFinite _) (Set.toFinite _),
      ncard_covers _ hsmall₁, ih hsmall₂ hl, List.map_cons, List.sum_cons]

end Spans
