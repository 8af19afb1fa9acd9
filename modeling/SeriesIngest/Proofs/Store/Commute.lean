import SeriesIngest.Proofs.Client.AppendMode

/-!
# Puts to distinct cells commute

A table's rows, and a row's cells, are association lists sorted by key; inserting two distinct
keys gives one list in either order, and inserting a key twice keeps the second value. So two
puts to one table that write different cells leave the same store in either order, whether the
store takes them or refuses them: a put changes no failure switch and no table's family, so the
store takes any write after it exactly when it took it before.

Main statement: `Store.putOr_comm`.
-/

namespace SeriesIngest

namespace BytesMap

variable {α : Type}

theorem insert_cons (k' : Bytes) (w : α) (m : BytesMap α) (k : Bytes) (v : α) :
    BytesMap.insert ((k', w) :: m) k v =
      if k = k' then (k, v) :: m else if k < k' then (k, v) :: (k', w) :: m
      else (k', w) :: BytesMap.insert m k v := rfl

/-- Inserting a key twice keeps the second value. -/
theorem insert_insert_self (m : BytesMap α) (k : Bytes) (v v' : α) :
    (m.insert k v).insert k v' = m.insert k v' := by
  induction m with
  | nil => simp [insert]
  | cons e m ih =>
    obtain ⟨k', w⟩ := e
    rw [insert_cons, insert_cons]
    split_ifs with h₁ h₂
    · simp [insert_cons]
    · simp [insert_cons]
    · simp [insert_cons, h₁, h₂, ih]

/-- Inserting two distinct keys gives one map in either order. -/
theorem insert_comm (m : BytesMap α) {k₁ k₂ : Bytes} (hk : k₁ ≠ k₂) (v₁ v₂ : α) :
    (m.insert k₁ v₁).insert k₂ v₂ = (m.insert k₂ v₂).insert k₁ v₁ := by
  induction m with
  | nil =>
    rcases Decidable.em (k₁ < k₂) with h | h
    · simp [insert, hk, Ne.symm hk, h, List.lt_asymm h]
    · simp [insert, hk, Ne.symm hk, h, Std.lt_of_le_of_ne h (Ne.symm hk)]
  | cons e m ih =>
    obtain ⟨k, w⟩ := e
    -- where each key falls against the head `k`: on it, before it or after it
    by_cases h₁ : k₁ = k
    · subst h₁
      by_cases h₂ : k₂ < k₁
      · simp [insert_cons, hk, Ne.symm hk, h₂, List.lt_asymm h₂]
      · simp [insert_cons, Ne.symm hk, h₂]
    · by_cases h₂ : k₂ = k
      · subst h₂
        by_cases h₁' : k₁ < k₂
        · simp [insert_cons, hk, Ne.symm hk, h₁', List.lt_asymm h₁']
        · simp [insert_cons, hk, h₁']
      · by_cases h₁' : k₁ < k <;> by_cases h₂' : k₂ < k
        · rcases Decidable.em (k₁ < k₂) with h | h
          · simp [insert_cons, hk, Ne.symm hk, h₁, h₂, h₁', h₂', h, List.lt_asymm h]
          · simp [insert_cons, hk, Ne.symm hk, h₁, h₂, h₁', h₂', h,
              Std.lt_of_le_of_ne h (Ne.symm hk)]
        · have h₂₁ : ¬ k₂ < k₁ := fun h => h₂' (List.lt_trans h h₁')
          simp [insert_cons, Ne.symm hk, h₁, h₂, h₁', h₂', h₂₁]
        · have h₁₂ : ¬ k₁ < k₂ := fun h => h₁' (List.lt_trans h h₂')
          simp [insert_cons, hk, h₁, h₂, h₁', h₂', h₁₂]
        · simp [insert_cons, h₁, h₂, h₁', h₂', ih]

end BytesMap

namespace Table

/-- The table with one cell written, replacing what was there. -/
def put (t : Table) (key column value : Bytes) : Table :=
  { t with rows := t.rows.insert key (((t.rows.find? key).getD []).insert column value) }

@[simp] theorem family_put (t : Table) (key column value : Bytes) :
    (t.put key column value).family = t.family := rfl

/-- Writing two different cells gives one table in either order. -/
theorem put_comm (t : Table) {k₁ k₂ c₁ c₂ : Bytes} (h : (k₁, c₁) ≠ (k₂, c₂)) (v₁ v₂ : Bytes) :
    (t.put k₁ c₁ v₁).put k₂ c₂ v₂ = (t.put k₂ c₂ v₂).put k₁ c₁ v₁ := by
  by_cases hk : k₁ = k₂
  · subst hk
    have hc : c₁ ≠ c₂ := fun hc => h (by rw [hc])
    simp [put, BytesMap.find?_insert_self, BytesMap.insert_insert_self,
      BytesMap.insert_comm _ hc]
  · simp [put, BytesMap.find?_insert_of_ne _ _ hk, BytesMap.find?_insert_of_ne _ _ (Ne.symm hk),
      BytesMap.insert_comm _ hk]

end Table

namespace Store

variable {s : Store} {w : CellWrite} {t : Table}

/-- The store after a put, or as it was when it refuses the put. -/
def putOr (s : Store) (w : CellWrite) : Store :=
  match s.put w with
  | .ok s' => s'
  | .error _ => s

/-- The store's answer to a write reads only the write's table and family. -/
theorem target_congr {w' : CellWrite} (ht : w'.table = w.table) (hf : w'.family = w.family) :
    s.target w' = s.target w := by
  simp [target, ht, hf]

theorem put_of_target (h : s.target w = .ok t) :
    s.put w = .ok (s.commit w.table (t.put w.key w.column w.value) w.durable) := by
  simp [put, h, bind, Except.bind, pure, Except.pure, Table.put]

theorem putOr_of_target (h : s.target w = .ok t) :
    s.putOr w = s.commit w.table (t.put w.key w.column w.value) w.durable := by
  simp [putOr, put_of_target h]

theorem putOr_of_error {e : StoreError} (h : s.target w = .error e) : s.putOr w = s := by
  simp [putOr, put, h, bind, Except.bind]

/-- A put the store takes writes its value to its cell. -/
theorem cell?_putOr_self (h : (s.target w).toBool = true) :
    (s.putOr w).cell? w.table w.key w.column = some w.value := by
  rcases ht : s.target w with e | t
  · simp [ht, Except.toBool] at h
  · rw [putOr_of_target ht]
    simp [cell?, row?, table?_commit (table?_of_target ht), Table.put, BytesMap.find?_insert_self]

theorem family_of_target (h : s.target w = .ok t) : t.family = w.family := by
  unfold target at h
  split_ifs at h
  split at h
  · cases h
  · split_ifs at h with hf
    cases h
    exact hf

/-- After a write commits a table of the same family, the store answers every write as before. -/
theorem target_commit (h : s.target w = .ok t) {t' : Table} (hf : t'.family = t.family) (d : Bool)
    (w' : CellWrite) :
    (s.commit w.table t' d).target w' =
      if w'.table = w.table then (if t.family = w'.family then .ok t' else s.target w')
      else s.target w' := by
  have htab := table?_of_target h
  have hfail : s.failing = false := by
    unfold target at h
    split_ifs at h with hs
    simpa using hs
  have hfail' : (s.commit w.table t' d).failing = false := hfail
  unfold target
  rw [hfail', hfail, table?_commit htab]
  by_cases hw : w'.table = w.table
  · simp only [hw, htab, if_true, Bool.false_eq_true, if_false, hf]
    split_ifs <;> rfl
  · simp only [hw, if_false]

/-- Committing a table twice is committing the second table, with both writes counted. -/
theorem commit_commit (s : Store) (name : Bytes) (t₁ t₂ t : Table) (d₁ d₂ : Bool) :
    (s.commit name t₁ d₁).commit name t d₂ = (s.commit name t₂ d₂).commit name t d₁ := by
  have hmap : ∀ t' : Table, (s.tables.map fun e => if e.1 = name then (name, t') else e).map
      (fun e => if e.1 = name then (name, t) else e) =
        s.tables.map fun e => if e.1 = name then (name, t) else e := by
    intro t'
    rw [List.map_map]
    congr 1
    funext e
    by_cases he : e.1 = name <;> simp [he]
  cases d₁ <;> cases d₂ <;> simp only [commit, hmap] <;> simp

/-- Two puts to one table and family that write different cells commute. -/
theorem putOr_comm {w₁ w₂ : CellWrite} (ht : w₂.table = w₁.table) (hf : w₂.family = w₁.family)
    (hc : (w₁.key, w₁.column) ≠ (w₂.key, w₂.column)) (s : Store) :
    (s.putOr w₁).putOr w₂ = (s.putOr w₂).putOr w₁ := by
  rcases h₁ : s.target w₁ with e | t
  · have h₂ : s.target w₂ = .error e := by rw [target_congr ht hf, h₁]
    rw [putOr_of_error h₁, putOr_of_error h₂, putOr_of_error h₁]
  · have h₂ : s.target w₂ = .ok t := by rw [target_congr ht hf, h₁]
    have hfam := family_of_target h₁
    -- each second put finds the table the first put committed
    have h₁₂ : (s.commit w₁.table (t.put w₁.key w₁.column w₁.value) w₁.durable).target w₂ =
        .ok (t.put w₁.key w₁.column w₁.value) := by
      simp [target_commit h₁ (Table.family_put _ _ _ _), ht, hf, hfam]
    have h₂₁ : (s.commit w₂.table (t.put w₂.key w₂.column w₂.value) w₂.durable).target w₁ =
        .ok (t.put w₂.key w₂.column w₂.value) := by
      rw [target_commit h₂ (Table.family_put _ _ _ _)]
      simp [ht, hfam]
    rw [putOr_of_target h₁, putOr_of_target h₂, putOr_of_target h₁₂, putOr_of_target h₂₁, ht,
      Table.put_comm t hc, commit_commit]

end Store

end SeriesIngest
