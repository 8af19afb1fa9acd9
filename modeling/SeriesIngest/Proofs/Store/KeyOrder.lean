import SeriesIngest.Proofs.Store.Commute

/-!
# Stores list keys in order

A map keyed by byte strings lists its entries with strictly increasing keys
(`BytesMap.Sorted`), and an insert keeps them so: a new key goes before the first greater one.
So a store whose tables list their rows, and whose rows list their cells, in key order
(`Store.Sorted`) stays so through every put, append and table creation; a row read from it
lists its cells in column order (`Store.Sorted.row?`).
-/

namespace SeriesIngest

namespace BytesMap

variable {α : Type}

/-- Entries listed with strictly increasing keys, as a map keeps them. -/
def Sorted (m : BytesMap α) : Prop := m.Pairwise fun a b => a.1 < b.1

/-- An entry of a map after an insert is the new one or an old one. -/
theorem mem_insert {m : BytesMap α} {k : Bytes} {v : α} {e : Bytes × α}
    (h : e ∈ m.insert k v) : e = (k, v) ∨ e ∈ m := by
  induction m with
  | nil => simpa [insert] using h
  | cons e' m ih =>
    obtain ⟨k', v'⟩ := e'
    rw [insert_cons] at h
    split_ifs at h
    · simp only [List.mem_cons] at h ⊢
      tauto
    · simp only [List.mem_cons] at h ⊢
      tauto
    · simp only [List.mem_cons] at h ⊢
      rcases h with h | h
      · exact .inr (.inl h)
      · rcases ih h with h | h
        · exact .inl h
        · exact .inr (.inr h)

/-- An insert keeps the keys in order: a new key goes before the first greater one. -/
theorem sorted_insert {m : BytesMap α} (hm : m.Sorted) (k : Bytes) (v : α) :
    (m.insert k v).Sorted := by
  induction m with
  | nil => simp [Sorted, insert]
  | cons e m ih =>
    obtain ⟨k', v'⟩ := e
    rw [Sorted, List.pairwise_cons] at hm
    obtain ⟨hhead, hrest⟩ := hm
    rw [insert_cons]
    split_ifs with h₁ h₂
    · subst h₁
      exact List.pairwise_cons.2 ⟨hhead, hrest⟩
    · refine List.pairwise_cons.2 ⟨fun e he => ?_, List.pairwise_cons.2 ⟨hhead, hrest⟩⟩
      rcases List.mem_cons.1 he with rfl | he
      · exact h₂
      · exact List.lt_trans h₂ (hhead e he)
    · have hk' : k' < k := by
        rcases List.le_iff_lt_or_eq.1 (List.not_lt.1 h₂) with h | h
        · exact h
        · exact absurd h.symm h₁
      refine List.pairwise_cons.2 ⟨fun e he => ?_, ih hrest⟩
      rcases mem_insert he with rfl | he
      · exact hk'
      · exact hhead e he

/-- A value found in a map is one of its entries. -/
theorem mem_of_find? {m : BytesMap α} {k : Bytes} {v : α} (h : m.find? k = some v) :
    (k, v) ∈ m := by
  simp only [find?, Option.map_eq_some_iff] at h
  obtain ⟨e, he, rfl⟩ := h
  have hk : e.1 = k := by simpa using List.find?_some he
  rw [← hk]
  exact List.mem_of_find?_eq_some he

end BytesMap

namespace Table

/-- A table lists its rows, and every row its cells, in key order. -/
def Sorted (t : Table) : Prop := t.rows.Sorted ∧ ∀ r ∈ t.rows, r.2.Sorted

/-- Setting a cell of a sorted table, to any bytes, leaves it sorted. -/
theorem Sorted.setCell {t : Table} (ht : t.Sorted) (key column cell : Bytes) :
    ({ t with rows := t.rows.insert key (((t.rows.find? key).getD []).insert column cell) } :
      Table).Sorted := by
  have hrow : ((t.rows.find? key).getD []).Sorted := by
    cases h : t.rows.find? key with
    | none => exact List.Pairwise.nil
    | some r => exact ht.2 _ (BytesMap.mem_of_find? h)
  refine ⟨BytesMap.sorted_insert ht.1 _ _, fun r hr => ?_⟩
  rcases BytesMap.mem_insert hr with rfl | hr
  · exact BytesMap.sorted_insert hrow _ _
  · exact ht.2 r hr

end Table

namespace Store

variable {s s' : Store} {w : CellWrite}

/-- Every table lists its rows, and every row its cells, in key order. -/
def Sorted (s : Store) : Prop := ∀ e ∈ s.tables, e.2.Sorted

/-- A table found in a sorted store is sorted. -/
theorem Sorted.table? (hs : s.Sorted) {name : Bytes} {t : Table} (h : s.table? name = some t) :
    t.Sorted := by
  simp only [Store.table?, Option.map_eq_some_iff] at h
  obtain ⟨e, he, rfl⟩ := h
  exact hs e (List.mem_of_find?_eq_some he)

/-- A row found in a sorted store lists its cells in column order. -/
theorem Sorted.row? (hs : s.Sorted) {table key : Bytes} {r : Row}
    (h : s.row? table key = some r) : r.Sorted := by
  simp only [Store.row?, Option.bind_eq_some_iff] at h
  obtain ⟨t, ht, hr⟩ := h
  exact (hs.table? ht).2 _ (BytesMap.mem_of_find? hr)

/-- A sorted table put in place of another in a sorted store leaves it sorted. -/
theorem Sorted.commit (hs : s.Sorted) {t : Table} (ht : t.Sorted) (name : Bytes) (d : Bool) :
    (s.commit name t d).Sorted := by
  intro e he
  simp only [Store.commit, List.mem_map] at he
  obtain ⟨e', he', rfl⟩ := he
  split_ifs
  · exact ht
  · exact hs e' he'

/-- A put keeps a store sorted. -/
theorem Sorted.put (hs : s.Sorted) (h : s.put w = .ok s') : s'.Sorted := by
  simp only [Store.put, bind, Except.bind, pure, Except.pure] at h
  split at h
  · cases h
  · next t ht =>
    cases h
    exact hs.commit ((hs.table? (table?_of_target ht)).setCell _ _ _) _ _

/-- An append keeps a store sorted. -/
theorem Sorted.append (hs : s.Sorted) (h : s.append w = .ok s') : s'.Sorted := by
  simp only [Store.append, bind, Except.bind, pure, Except.pure] at h
  split at h
  · cases h
  · next t ht =>
    cases h
    exact hs.commit ((hs.table? (table?_of_target ht)).setCell _ _ _) _ _

/-- A new table has no rows, so creating it keeps a store sorted. -/
theorem Sorted.createTable (hs : s.Sorted) (name family : Bytes) : (s.createTable name family).Sorted := by
  unfold Store.createTable
  split
  · exact hs
  · intro e he
    rcases List.mem_append.1 he with he | he
    · exact hs e he
    · simp only [List.mem_singleton] at he
      subst he
      exact ⟨List.Pairwise.nil, by simp⟩

end Store

end SeriesIngest
