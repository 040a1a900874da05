/-
# Maps kept in key order

A finite map as the list of its entries in ascending key order, the order in
which a balanced search tree iterates.  The order is a field of the structure,
so a value out of order cannot be built, and a key has at most one entry.

`find?`, `insert` (which replaces an entry of the same key) and `erase` are the
three operations, each with what it does to the entries: `mem_insert`,
`mem_erase`, `mem_of_find?`, and `insertEntry_perm` for a key that is new.
`total` adds up a number per entry; `total_of_find?` and `total_insert` say what
one entry has to do with it, so that what is conserved is a matter of arithmetic.
-/

import Mathlib

/-- A map whose entries stand in ascending key order. -/
@[ext] structure OrderedMap (κ α : Type) [LT κ] where
  entries : List (κ × α)
  sorted : entries.Pairwise fun a b => a.1 < b.1
deriving DecidableEq

namespace OrderedMap

variable {κ α : Type} [LT κ]

/-- The map with no entries. -/
def empty : OrderedMap κ α := ⟨[], List.Pairwise.nil⟩

/-- Every value changed, under the same keys. -/
def mapValues (f : α → α) (m : OrderedMap κ α) : OrderedMap κ α :=
  ⟨m.entries.map fun e => (e.1, f e.2), List.pairwise_map.2 m.sorted⟩

/-- The entries whose values are kept. -/
def filterValues (p : α → Bool) (m : OrderedMap κ α) : OrderedMap κ α :=
  ⟨m.entries.filter fun e => p e.2, m.sorted.filter _⟩

/-- A number per entry, added up. -/
def total (f : κ × α → ℕ) (m : OrderedMap κ α) : ℕ := (m.entries.map f).sum

theorem total_mapValues {f : κ × α → ℕ} {g : α → α} (h : ∀ e, f (e.1, g e.2) = f e)
    (m : OrderedMap κ α) : (m.mapValues g).total f = m.total f := by
  unfold total mapValues
  rw [List.map_map]
  exact congrArg List.sum (List.map_congr_left fun e _ => h e)

/-- The keys that have an entry. -/
def keys (m : OrderedMap κ α) : Set κ := {k | ∃ v, (k, v) ∈ m.entries}

theorem keys_mapValues (g : α → α) (m : OrderedMap κ α) : (m.mapValues g).keys = m.keys := by
  ext k
  constructor
  · rintro ⟨v, hv⟩
    obtain ⟨e, he, heq⟩ := List.mem_map.1 hv
    exact ⟨e.2, (Prod.mk.inj heq).1 ▸ he⟩
  · rintro ⟨v, hv⟩
    exact ⟨g v, List.mem_map.2 ⟨(k, v), hv, rfl⟩⟩

section Lookup

variable [DecidableEq κ]

/-- The value stored under `k`. -/
def find? (m : OrderedMap κ α) (k : κ) : Option α :=
  (m.entries.find? fun e => decide (e.1 = k)).map Prod.snd

/-- Drop the entry of `k`. -/
def erase (m : OrderedMap κ α) (k : κ) : OrderedMap κ α :=
  ⟨m.entries.filter fun e => decide (e.1 ≠ k), m.sorted.filter _⟩

variable {m : OrderedMap κ α} {k : κ} {v : α}

theorem mem_erase {a : κ × α} (h : a ∈ (m.erase k).entries) : a ∈ m.entries :=
  List.mem_of_mem_filter h

theorem mem_of_find? (h : m.find? k = some v) : (k, v) ∈ m.entries := by
  obtain ⟨⟨k', v'⟩, hfind, rfl⟩ := Option.map_eq_some_iff.1 h
  obtain rfl : k' = k := by simpa using List.find?_some hfind
  exact List.mem_of_find?_eq_some hfind

/-- Erasing a key that is there makes the map smaller: what a loop that takes
entries out one by one counts down. -/
theorem length_erase_lt (h : m.find? k = some v) : (m.erase k).entries.length < m.entries.length :=
  List.length_filter_lt_length_iff_exists.2 ⟨(k, v), mem_of_find? h, by simp⟩

theorem mem_keys_of_find? (h : m.find? k = some v) : k ∈ m.keys :=
  ⟨v, mem_of_find? h⟩

theorem find?_eq_none_iff : m.find? k = none ↔ k ∉ m.keys := by
  rw [find?, Option.map_eq_none_iff, List.find?_eq_none]
  constructor
  · rintro h ⟨v, hv⟩
    exact h _ hv (decide_eq_true rfl)
  · rintro h ⟨k', v⟩ hv heq
    exact h ⟨v, of_decide_eq_true heq ▸ hv⟩

theorem keys_erase (m : OrderedMap κ α) (k : κ) : (m.erase k).keys = m.keys \ {k} := by
  ext k'
  constructor
  · rintro ⟨v, hv⟩
    obtain ⟨hmem, hne⟩ := List.mem_filter.1 hv
    exact ⟨⟨v, hmem⟩, of_decide_eq_true hne⟩
  · rintro ⟨⟨v, hv⟩, hne⟩
    exact ⟨v, List.mem_filter.2 ⟨hv, decide_eq_true hne⟩⟩

variable [DecidableLT κ]

/-- Insertion into the list of entries: replace the entry of the same key, or
stop in front of the first larger key. -/
def insertEntry (k : κ) (v : α) : List (κ × α) → List (κ × α)
  | [] => [(k, v)]
  | (k', v') :: rest =>
    if k < k' then (k, v) :: (k', v') :: rest
    else if k = k' then (k, v) :: rest
    else (k', v') :: insertEntry k v rest

theorem mem_of_mem_insertEntry {a : κ × α} {l : List (κ × α)}
    (h : a ∈ insertEntry k v l) : a = (k, v) ∨ a ∈ l := by
  induction l with
  | nil => simpa [insertEntry] using h
  | cons hd tl ih =>
    obtain ⟨k', v'⟩ := hd
    rw [insertEntry] at h
    split_ifs at h with h₁ h₂
    · simpa using h
    · rcases List.mem_cons.1 h with rfl | h
      · exact Or.inl rfl
      · exact Or.inr (List.mem_cons_of_mem _ h)
    · rcases List.mem_cons.1 h with rfl | h
      · exact Or.inr (List.mem_cons_self ..)
      · exact (ih h).imp id (List.mem_cons_of_mem _)

theorem insertEntry_perm {l : List (κ × α)} (h : ∀ a ∈ l, a.1 ≠ k) :
    (insertEntry k v l).Perm ((k, v) :: l) := by
  induction l with
  | nil => exact List.Perm.refl _
  | cons hd tl ih =>
    obtain ⟨k', v'⟩ := hd
    obtain ⟨hhd, htl⟩ := List.forall_mem_cons.1 h
    rw [insertEntry]
    split_ifs with h₁ h₂
    · exact List.Perm.refl _
    · exact absurd h₂.symm hhd
    · exact ((ih htl).cons _).trans (List.Perm.swap ..)

end Lookup

section Insert

variable [LE κ] [DecidableLT κ] [DecidableEq κ] [Std.IsLinearOrder κ] [Std.LawfulOrderLT κ]
  {l : List (κ × α)} {m : OrderedMap κ α} {k : κ} {v : α}

theorem insertEntry_sorted (k : κ) (v : α) (h : l.Pairwise fun a b => a.1 < b.1) :
    (insertEntry k v l).Pairwise fun a b => a.1 < b.1 := by
  induction l with
  | nil => simp [insertEntry]
  | cons hd tl ih =>
    obtain ⟨k', v'⟩ := hd
    obtain ⟨hhd, htl⟩ := List.pairwise_cons.1 h
    rw [insertEntry]
    split_ifs with h₁ h₂
    · refine List.pairwise_cons.2 ⟨fun a ha => ?_, h⟩
      rcases List.mem_cons.1 ha with rfl | ha
      · exact h₁
      · exact Std.lt_trans h₁ (hhd a ha)
    · subst h₂
      exact List.pairwise_cons.2 ⟨hhd, htl⟩
    · refine List.pairwise_cons.2 ⟨fun a ha => ?_, ih htl⟩
      rcases mem_of_mem_insertEntry ha with rfl | ha
      · exact Std.lt_of_le_of_ne (Std.not_lt.1 h₁) (Ne.symm h₂)
      · exact hhd a ha

/-- Store `v` under `k`. -/
def insert (m : OrderedMap κ α) (k : κ) (v : α) : OrderedMap κ α :=
  ⟨insertEntry k v m.entries, insertEntry_sorted k v m.sorted⟩

theorem mem_insert {a : κ × α} (h : a ∈ (m.insert k v).entries) : a = (k, v) ∨ a ∈ m.entries :=
  mem_of_mem_insertEntry h

omit [Std.IsLinearOrder κ] in
theorem insertEntry_of_lt (h : ∀ a ∈ l, a.1 < k) : insertEntry k v l = l ++ [(k, v)] := by
  induction l with
  | nil => rfl
  | cons hd tl ih =>
    obtain ⟨k', v'⟩ := hd
    obtain ⟨hhd, htl⟩ := List.forall_mem_cons.1 h
    have hne : k ≠ k' := fun heq => Std.lt_irrefl (heq ▸ hhd)
    rw [insertEntry, if_neg (Std.not_gt_of_lt hhd), if_neg hne, ih htl, List.cons_append]

omit [DecidableLT κ] [Std.IsLinearOrder κ] in
theorem find?_eq_none_of_lt (h : ∀ a ∈ m.entries, a.1 < k) : m.find? k = none := by
  rw [find?, Option.map_eq_none_iff, List.find?_eq_none]
  intro a ha heq
  exact Std.lt_irrefl (of_decide_eq_true heq ▸ h a ha)

/-- What is found after a value was stored. -/
@[simp] theorem find?_insert (m : OrderedMap κ α) (k k' : κ) (v : α) :
    (m.insert k v).find? k' = if k = k' then some v else m.find? k' := by
  suffices h : ∀ l : List (κ × α), (insertEntry k v l).find? (fun e => decide (e.1 = k')) =
      if k = k' then some (k, v) else l.find? fun e => decide (e.1 = k') by
    rw [find?, insert, h]
    split_ifs <;> rfl
  intro l
  induction l with
  | nil => by_cases hk : k = k' <;> simp [insertEntry, hk]
  | cons hd tl ih =>
    obtain ⟨k₁, v₁⟩ := hd
    by_cases hlt : k < k₁
    · rw [insertEntry, if_pos hlt]
      by_cases hk : k = k' <;> simp [hk]
    by_cases heq : k = k₁
    · subst heq
      rw [insertEntry, if_neg hlt, if_pos rfl]
      by_cases hk : k = k' <;> simp [hk]
    · rw [insertEntry, if_neg hlt, if_neg heq]
      by_cases hk : k₁ = k'
      · subst hk
        simp [heq]
      · simp [hk, ih]

omit [DecidableLT κ] [Std.IsLinearOrder κ] in
theorem filter_ne_of_lt (h : ∀ a ∈ l, k < a.1) : l.filter (fun e => decide (e.1 ≠ k)) = l := by
  rw [List.filter_eq_self]
  intro a ha
  exact decide_eq_true fun heq => Std.lt_irrefl (heq ▸ h a ha)

omit [DecidableLT κ] [Std.IsLinearOrder κ] in
theorem find?_of_mem (h : (k, v) ∈ m.entries) : m.find? k = some v := by
  suffices hfind : ∀ l : List (κ × α), l.Pairwise (fun a b => a.1 < b.1) → (k, v) ∈ l →
      l.find? (fun e => decide (e.1 = k)) = some (k, v) by
    rw [find?, hfind m.entries m.sorted h, Option.map_some]
  intro l hl hmem
  induction l with
  | nil => cases hmem
  | cons hd tl ih =>
    obtain ⟨hhd, htl⟩ := List.pairwise_cons.1 hl
    rcases List.mem_cons.1 hmem with rfl | htail
    · simp
    · have hne : hd.1 ≠ k := fun heq => Std.lt_irrefl (heq ▸ hhd _ htail)
      rw [List.find?_cons_of_neg (by simpa using hne), ih htl htail]

/-- Storing a value: the entry of the key, and the entries of the others. -/
theorem insert_perm (m : OrderedMap κ α) (k : κ) (v : α) :
    (m.insert k v).entries.Perm ((k, v) :: (m.erase k).entries) := by
  suffices h : ∀ l : List (κ × α), l.Pairwise (fun a b => a.1 < b.1) →
      (insertEntry k v l).Perm ((k, v) :: l.filter fun e => decide (e.1 ≠ k)) from
    h m.entries m.sorted
  intro l hl
  induction l with
  | nil => exact List.Perm.refl _
  | cons hd tl ih =>
    obtain ⟨k', v'⟩ := hd
    obtain ⟨hhd, htl⟩ := List.pairwise_cons.1 hl
    by_cases hlt : k < k'
    · have hall : ∀ a ∈ (k', v') :: tl, k < a.1 := by
        intro a ha
        rcases List.mem_cons.1 ha with rfl | ha
        · exact hlt
        · exact Std.lt_trans hlt (hhd a ha)
      rw [insertEntry, if_pos hlt, filter_ne_of_lt hall]
    by_cases heq : k = k'
    · subst heq
      rw [insertEntry, if_neg hlt, if_pos rfl, List.filter_cons_of_neg (by simp),
        filter_ne_of_lt hhd]
    · rw [insertEntry, if_neg hlt, if_neg heq,
        List.filter_cons_of_pos (by simpa using fun h => heq h.symm)]
      exact ((ih htl).cons _).trans (List.Perm.swap ..)

theorem keys_insert (m : OrderedMap κ α) (k : κ) (v : α) : (m.insert k v).keys = Insert.insert k m.keys := by
  ext k'
  constructor
  · rintro ⟨v', hv'⟩
    rcases mem_insert hv' with heq | hmem
    · exact .inl (Prod.mk.inj heq).1
    · exact .inr ⟨v', hmem⟩
  · intro hk'
    have hfind := find?_insert m k k' v
    by_cases hk : k = k'
    · rw [if_pos hk] at hfind
      exact mem_keys_of_find? hfind
    · obtain ⟨v', hv'⟩ := hk'.resolve_left fun heq => hk heq.symm
      rw [if_neg hk, find?_of_mem hv'] at hfind
      exact mem_keys_of_find? hfind

omit [DecidableLT κ] [Std.IsLinearOrder κ] in
theorem perm_of_find? (h : m.find? k = some v) : m.entries.Perm ((k, v) :: (m.erase k).entries) := by
  suffices h : ∀ l : List (κ × α), l.Pairwise (fun a b => a.1 < b.1) → (k, v) ∈ l →
      l.Perm ((k, v) :: l.filter fun e => decide (e.1 ≠ k)) from
    h m.entries m.sorted (mem_of_find? ‹_›)
  intro l hl hmem
  induction l with
  | nil => cases hmem
  | cons hd tl ih =>
    obtain ⟨hhd, htl⟩ := List.pairwise_cons.1 hl
    rcases List.mem_cons.1 hmem with rfl | htail
    · rw [List.filter_cons_of_neg (by simp), filter_ne_of_lt hhd]
    · have hne : hd.1 ≠ k := fun heq => Std.lt_irrefl (heq ▸ hhd _ htail)
      rw [List.filter_cons_of_pos (by simpa using hne)]
      exact ((ih htl htail).cons _).trans (List.Perm.swap ..)

omit [DecidableLT κ] [Std.IsLinearOrder κ] in
theorem total_of_find? (h : m.find? k = some v) (f : κ × α → ℕ) : m.total f = f (k, v) + (m.erase k).total f :=
  ((perm_of_find? h).map f).sum_eq

theorem total_insert (m : OrderedMap κ α) (k : κ) (v : α) (f : κ × α → ℕ) :
    (m.insert k v).total f = f (k, v) + (m.erase k).total f :=
  ((m.insert_perm k v).map f).sum_eq

omit [LE κ] [DecidableLT κ] [Std.IsLinearOrder κ] [Std.LawfulOrderLT κ] in
theorem erase_eq_self (h : m.find? k = none) : m.erase k = m := by
  rw [find?, Option.map_eq_none_iff, List.find?_eq_none] at h
  refine OrderedMap.ext (List.filter_eq_self.2 fun a ha => ?_)
  simpa using h a ha

/-- The last value stored under a key counts. -/
theorem insert_insert (m : OrderedMap κ α) (k : κ) (v w : α) : (m.insert k v).insert k w = m.insert k w := by
  suffices h : ∀ l : List (κ × α), insertEntry k w (insertEntry k v l) = insertEntry k w l from
    OrderedMap.ext (h m.entries)
  have hirrefl : ¬ k < k := Std.lt_irrefl
  intro l
  induction l with
  | nil => simp [insertEntry, hirrefl]
  | cons hd tl ih =>
    obtain ⟨k', v'⟩ := hd
    by_cases hlt : k < k'
    · simp [insertEntry, hlt, hirrefl]
    by_cases heq : k = k'
    · subst heq
      simp [insertEntry, hirrefl]
    · simp [insertEntry, hlt, heq, ih]

theorem insert_ne_nil (m : OrderedMap κ α) (k : κ) (v : α) : (m.insert k v).entries ≠ [] := by
  show insertEntry k v m.entries ≠ []
  unfold insertEntry
  split
  · simp
  · split_ifs <;> simp

end Insert

end OrderedMap
