/-
# Joining intervals

An interval is a pair of bounds, the upper one not included.  `push` adds an
interval at the end of a list of them: it extends the last one if it starts where
that one stops, and stands by itself otherwise.  Pushed one after the other,
intervals that come in order become their maximal runs: the results are apart,
with something missing between any two of them (`Apart`), and together they
cover what the intervals cover (`foldl_push`).

The bounds can be taken from any linear order.
-/

import Mathlib

namespace Intervals

variable {α : Type} [LinearOrder α]

/-- `x` is in the interval. -/
def Contains (a : α × α) (x : α) : Prop := a.1 ≤ x ∧ x < a.2

/-- One more interval at the end. -/
def push (runs : List (α × α)) (a : α × α) : List (α × α) :=
  match runs.getLast? with
  | some last => if last.2 = a.1 then runs.dropLast ++ [(last.1, a.2)] else runs ++ [a]
  | none => [a]

/-- No interval is empty, and they come in order with something missing between
them. -/
structure Apart (runs : List (α × α)) : Prop where
  proper : ∀ r ∈ runs, r.1 < r.2
  ordered : runs.Pairwise fun r r' => r.2 < r'.1

variable {runs l : List (α × α)} {a last : α × α} {x : α}

@[simp] theorem push_nil : push [] a = [a] := rfl

theorem push_concat :
    push (runs ++ [last]) a = if last.2 = a.1 then runs ++ [(last.1, a.2)] else runs ++ [last, a] := by
  rw [push, List.getLast?_concat, List.dropLast_concat]
  dsimp only
  rw [List.append_assoc, List.singleton_append]

theorem apart_singleton (h : a.1 < a.2) : Apart [a] :=
  ⟨fun r hr => by rwa [List.mem_singleton.1 hr], List.pairwise_singleton ..⟩

theorem apart_concat : Apart (runs ++ [last]) ↔
    Apart runs ∧ last.1 < last.2 ∧ ∀ r ∈ runs, r.2 < last.1 := by
  constructor
  · rintro ⟨hproper, hordered⟩
    obtain ⟨hruns, -, hlast⟩ := List.pairwise_append.1 hordered
    exact ⟨⟨fun r hr => hproper r (List.mem_append_left _ hr), hruns⟩, hproper last (by simp),
      fun r hr => hlast r hr last (List.mem_singleton_self _)⟩
  · rintro ⟨⟨hproper, hordered⟩, hlast, hbefore⟩
    refine ⟨fun r hr => ?_, List.pairwise_append.2 ⟨hordered, List.pairwise_singleton .., fun r hr r' hr' => ?_⟩⟩
    · rcases List.mem_append.1 hr with hr | hr
      · exact hproper r hr
      · rwa [List.mem_singleton.1 hr]
    · rw [List.mem_singleton.1 hr']
      exact hbefore r hr

/-- An interval that starts where the others stop, or later. -/
theorem Apart.push (h : Apart runs) (ha : a.1 < a.2) (hle : ∀ r ∈ runs, r.2 ≤ a.1) :
    Apart (push runs a) ∧ (∀ r ∈ push runs a, r.2 ≤ a.2) ∧
      ∀ x, (∃ r ∈ push runs a, Contains r x) ↔ (∃ r ∈ runs, Contains r x) ∨ Contains a x := by
  rcases List.eq_nil_or_concat' runs with rfl | ⟨init, last, rfl⟩
  · simp [apart_singleton ha]
  obtain ⟨hinit, hlast, hbefore⟩ := apart_concat.1 h
  have hlastle : last.2 ≤ a.1 := hle last (by simp)
  rw [push_concat]
  split_ifs with hmeets
  · -- the last run grows
    refine ⟨apart_concat.2 ⟨hinit, by order, hbefore⟩, fun r hr => ?_, fun x => ?_⟩
    · rcases List.mem_append.1 hr with hr | hr
      · exact (hle r (by simp [hr])).trans ha.le
      · rw [List.mem_singleton.1 hr]
    · have hgrown : Contains (last.1, a.2) x ↔ Contains last x ∨ Contains a x := by
        unfold Contains
        dsimp only
        constructor
        · rintro ⟨hlow, hhigh⟩
          rcases lt_or_ge x last.2 with hx | hx
          · exact .inl ⟨hlow, hx⟩
          · exact .inr ⟨hmeets ▸ hx, hhigh⟩
        · rintro (⟨hlow, hhigh⟩ | ⟨hlow, hhigh⟩)
          · exact ⟨hlow, by order⟩
          · exact ⟨by order, hhigh⟩
      simp only [List.mem_append, List.mem_singleton, or_and_right, exists_or, exists_eq_left, hgrown, or_assoc]
  · -- a run of its own
    have hlt : last.2 < a.1 := lt_of_le_of_ne hlastle hmeets
    rw [show init ++ [last, a] = (init ++ [last]) ++ [a] by simp]
    refine ⟨apart_concat.2 ⟨h, ha, fun r hr => ?_⟩, fun r hr => ?_, fun x => ?_⟩
    · rcases List.mem_append.1 hr with hr | hr
      · have := hbefore r hr
        order
      · rwa [List.mem_singleton.1 hr]
    · rcases List.mem_append.1 hr with hr | hr
      · exact (hle r hr).trans ha.le
      · rw [List.mem_singleton.1 hr]
    · simp only [List.mem_append, List.mem_singleton, or_and_right, exists_or, exists_eq_left]

/-- **The runs of intervals that come in order.** -/
theorem foldl_push (hproper : ∀ a ∈ l, a.1 < a.2) (hordered : l.Pairwise fun a a' => a.2 ≤ a'.1) :
    Apart (l.foldl push []) ∧
      ∀ x, (∃ r ∈ l.foldl push [], Contains r x) ↔ ∃ a ∈ l, Contains a x := by
  suffices h : ∀ runs, Apart runs → (∀ r ∈ runs, ∀ a ∈ l, r.2 ≤ a.1) →
      Apart (l.foldl push runs) ∧
        ∀ x, (∃ r ∈ l.foldl push runs, Contains r x) ↔
          (∃ r ∈ runs, Contains r x) ∨ ∃ a ∈ l, Contains a x by
    simpa using h [] ⟨nofun, List.Pairwise.nil⟩ nofun
  -- the invariant: what has been joined stops before what is still to come
  intro runs hruns hle
  induction l generalizing runs with
  | nil => simpa using hruns
  | cons a l ih =>
    obtain ⟨ha, hl⟩ := List.forall_mem_cons.1 hproper
    obtain ⟨hahead, hrest⟩ := List.pairwise_cons.1 hordered
    obtain ⟨hpushed, hstop, hcover⟩ := hruns.push ha fun r hr => hle r hr a (List.mem_cons_self ..)
    obtain ⟨hapart, hcovers⟩ := ih hl hrest (push runs a) hpushed fun r hr a' ha' =>
      (hstop r hr).trans (hahead a' ha')
    refine ⟨hapart, fun x => ?_⟩
    rw [List.foldl_cons, hcovers x, hcover x]
    simp [or_assoc]

/-! ### Maximal runs -/

/-- Something is missing between the two. -/
def Separate (r r' : α × α) : Prop := r.2 < r'.1 ∨ r'.2 < r.1

instance : Std.Symm (Separate (α := α)) := ⟨fun _ _ => Or.symm⟩

theorem Apart.separate (h : Apart runs) : runs.Pairwise Separate := h.ordered.imp Or.inl

variable {r : α × α}

theorem eq_or_separate (h : runs.Pairwise Separate) (hr : r ∈ runs) {r' : α × α} (hr' : r' ∈ runs) :
    r = r' ∨ Separate r r' :=
  or_iff_not_imp_left.2 fun hne => h.forall hr hr' hne

section Maximal

variable (hproper : ∀ r ∈ runs, r.1 < r.2) (h : runs.Pairwise Separate) (hr : r ∈ runs)

include hproper h hr

theorem not_contains_stop {r' : α × α} (hr' : r' ∈ runs) : ¬ Contains r' r.2 := by
  rintro ⟨hlow, hhigh⟩
  have hpos := hproper r hr
  rcases eq_or_separate h hr hr' with rfl | hseparate | hseparate <;> order

theorem not_contains_before (hx : x ⋖ r.1) {r' : α × α} (hr' : r' ∈ runs) : ¬ Contains r' x := by
  rintro ⟨hlow, hhigh⟩
  have hlt := hx.lt
  have hpos := hproper r hr
  rcases eq_or_separate h hr hr' with rfl | hseparate | hseparate
  · order
  · order
  · exact hx.2 hhigh hseparate

theorem le_stop_of_covered {z : α} (hx : Contains r x)
    (hcovered : ∀ y, x ≤ y → y < z → ∃ r' ∈ runs, Contains r' y) : z ≤ r.2 := by
  by_contra hlt
  obtain ⟨r', hr', hcontains⟩ := hcovered r.2 hx.2.le (not_le.1 hlt)
  exact not_contains_stop hproper h hr hr' hcontains

end Maximal

end Intervals
