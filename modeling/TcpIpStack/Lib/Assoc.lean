/-
# Maps with constant values, as association lists

`AList` with values that do not depend on the key: what a hash table holds, in
some order.  Lookup after an insertion and after an erasure as one equation
each, and the operation that visits every entry and keeps it with a new value
or drops it (`filterMap`).
-/

import Mathlib

/-- A map from `κ` to `α`. -/
abbrev Assoc (κ α : Type) := AList fun _ : κ => α

namespace Assoc

variable {κ α : Type} [DecidableEq κ]

theorem lookup_insert_eq (k k' : κ) (v : α) (m : Assoc κ α) :
    (m.insert k' v).lookup k = if k = k' then some v else m.lookup k := by
  split_ifs with h
  · subst h
    exact AList.lookup_insert m
  · exact AList.lookup_insert_ne h

theorem lookup_erase_eq (k k' : κ) (m : Assoc κ α) :
    (m.erase k').lookup k = if k = k' then none else m.lookup k := by
  split_ifs with h
  · subst h
    exact AList.lookup_erase k m
  · exact AList.lookup_erase_ne h

variable {m : Assoc κ α}

theorem lookup_insert_cases {k k' : κ} {v v' : α}
    (h : (m.insert k' v').lookup k = some v) : k = k' ∧ v' = v ∨ k ≠ k' ∧ m.lookup k = some v := by
  rw [lookup_insert_eq] at h
  split_ifs at h with hk
  · exact .inl ⟨hk, Option.some.inj h⟩
  · exact .inr ⟨hk, h⟩

theorem lookup_of_erase {k k' : κ} {v : α} (h : (m.erase k').lookup k = some v) :
    k ≠ k' ∧ m.lookup k = some v := by
  rw [lookup_erase_eq] at h
  split_ifs at h with hk
  exact ⟨hk, h⟩

theorem entries_perm_of_lookup {k : κ} {v : α} (h : m.lookup k = some v) :
    m.entries.Perm (⟨k, v⟩ :: (m.erase k).entries) := by
  have hmem : k ∈ m.entries.keys := by
    rw [← AList.keys, ← AList.mem_keys, ← AList.lookup_isSome, h]
    rfl
  obtain ⟨v', l₁, l₂, hnot, hentries, herase⟩ := List.exists_of_kerase hmem
  have hv : m.lookup k = some v' := by
    rw [← Option.mem_def, AList.mem_lookup_iff, hentries]
    exact List.mem_append_right _ List.mem_cons_self
  obtain rfl := Option.some.inj (h.symm.trans hv)
  change m.entries.Perm (⟨k, v⟩ :: m.entries.kerase k)
  rw [herase, hentries]
  exact List.perm_middle

theorem entries_erase_of_lookup_eq_none {k : κ} (h : m.lookup k = none) :
    (m.erase k).entries = m.entries :=
  List.kerase_of_notMem_keys (AList.lookup_eq_none.1 h)

section Count

variable (p : (_ : κ) × α → Bool)

variable {m : Assoc κ α}

theorem countP_insert_of_lookup {k : κ} {v : α} (h : m.lookup k = some v) (v' : α) :
    (m.insert k v').entries.countP p + (if p ⟨k, v⟩ then 1 else 0) =
      m.entries.countP p + (if p ⟨k, v'⟩ then 1 else 0) := by
  rw [(entries_perm_of_lookup h).countP_eq, AList.entries_insert, List.countP_cons, List.countP_cons]
  change (m.erase k).entries.countP p + _ + _ = (m.erase k).entries.countP p + _ + _
  omega

theorem countP_insert_of_lookup_eq_none {k : κ} {v : α} (h : m.lookup k = none) :
    (m.insert k v).entries.countP p = m.entries.countP p + (if p ⟨k, v⟩ then 1 else 0) := by
  rw [AList.entries_insert, List.countP_cons]
  change (m.erase k).entries.countP p + _ = _
  rw [entries_erase_of_lookup_eq_none h]

theorem countP_erase_le (k : κ) (m : Assoc κ α) : (m.erase k).entries.countP p ≤ m.entries.countP p :=
  (List.kerase_sublist k m.entries).countP_le

theorem countP_le_length {l : List κ}
    (h : ∀ k v, m.lookup k = some v → p ⟨k, v⟩ = true → k ∈ l) : m.entries.countP p ≤ l.length := by
  have hkeys : (m.entries.filter p).keys.Nodup :=
    m.nodupKeys.sublist List.filter_sublist
  have hsubset : (m.entries.filter p).keys ⊆ l := by
    intro k hk
    obtain ⟨⟨k, v⟩, hmem, rfl⟩ := List.mem_map.1 hk
    obtain ⟨hentry, hp⟩ := List.mem_filter.1 hmem
    exact h k v (AList.mem_lookup_iff.2 hentry) hp
  rw [List.countP_eq_length_filter, ← List.length_map Sigma.fst]
  exact (hkeys.subperm hsubset).length_le

theorem countP_le_add {β : Type} {p q r : β → Bool} (h : ∀ b, p b = true → q b = true ∨ r b = true)
    (l : List β) : l.countP p ≤ l.countP q + l.countP r := by
  induction l with
  | nil => simp
  | cons b l ih =>
    have hb := h b
    simp only [List.countP_cons]
    split_ifs <;> first | omega | simp_all

end Count

/-- The number of entries. -/
def size (m : Assoc κ α) : ℕ := m.entries.length

/-- Visit every entry: it gets a new value, or is dropped. -/
def filterMap (f : κ → α → Option α) (m : Assoc κ α) : Assoc κ α where
  entries := m.entries.filterMap fun e => (f e.1 e.2).map (Sigma.mk e.1)
  nodupKeys := by
    rw [List.nodupKeys_iff_pairwise, List.pairwise_filterMap]
    refine (List.nodupKeys_iff_pairwise.1 m.nodupKeys).imp fun {a b} hne a' ha' b' hb' => ?_
    obtain ⟨v, -, rfl⟩ := Option.map_eq_some_iff.1 ha'
    obtain ⟨w, -, rfl⟩ := Option.map_eq_some_iff.1 hb'
    exact hne

theorem lookup_filterMap (f : κ → α → Option α) (m : Assoc κ α) (k : κ) :
    (filterMap f m).lookup k = (m.lookup k).bind (f k) := by
  ext v
  rw [← Option.mem_def, AList.mem_lookup_iff, filterMap]
  simp only [List.mem_filterMap, Option.map_eq_some_iff, Option.bind_eq_some_iff]
  constructor
  · rintro ⟨⟨k', w⟩, hmem, v', hv, heq⟩
    cases heq
    exact ⟨w, AList.mem_lookup_iff.2 hmem, hv⟩
  · rintro ⟨w, hw, hv⟩
    exact ⟨⟨k, w⟩, AList.mem_lookup_iff.1 hw, v, hv, rfl⟩

end Assoc
