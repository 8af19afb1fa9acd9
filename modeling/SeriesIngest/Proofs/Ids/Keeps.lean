import SeriesIngest.Row.Key

/-!
# Ids once given are kept

A registry only ever adds names: asking for the id of a name that has one gives that id back and
changes nothing, and a new name is appended. So a registry keeps every id it has given out, and
building a key template again later, after any other templates were built, gives the same key
as long as the metric had an id: every id the first build read or made is still there.

Main statement: `KeyRules.buildTemplate_stable`.
-/

namespace SeriesIngest

namespace IdSpace

/-- `s'` has every id that `s` has. -/
def Keeps (s s' : IdSpace) : Prop := ∀ name id, s.id? name = some id → s'.id? name = some id

/-- A name with an id gets it back, and the space is unchanged. -/
theorem getOrCreate_of_id? {s : IdSpace} {kind : IdKind} {name : String} {id : Bytes}
    (h : s.id? name = some id) : s.getOrCreate kind name = (s, .ok id) := by
  simp [getOrCreate, h]

/-- Appending an entry for a name without an id keeps every id. -/
theorem keeps_append (s : IdSpace) (name : String) (next : UInt64) (e : Bytes) :
    s.Keeps { s with next := next, entries := s.entries ++ [(name, e)] } := by
  intro n id hn
  simp only [id?, Option.map_eq_some_iff] at hn ⊢
  obtain ⟨x, hx, rfl⟩ := hn
  exact ⟨x, by rw [List.find?_append, hx]; rfl, rfl⟩

/-- Asking for an id keeps every id, and afterwards the name has the id given. -/
theorem getOrCreate_keeps {s s' : IdSpace} {kind : IdKind} {name : String}
    {r : Except WriteError Bytes} (h : s.getOrCreate kind name = (s', r)) :
    s.Keeps s' ∧ ∀ id, r = .ok id → s'.id? name = some id := by
  unfold getOrCreate at h
  dsimp only at h
  split at h
  · next id hid =>
    cases h
    exact ⟨fun _ _ h => h, fun _ hi => by cases hi; exact hid⟩
  · next hnone =>
    split at h
    · cases h
      exact ⟨fun n id hn => by simpa [id?] using hn, fun _ hi => by cases hi⟩
    · cases h
      refine ⟨keeps_append _ _ _ _, ?_⟩
      intro id hi
      cases hi
      simp [id?, List.find?_append, show s.entries.find? (fun e => e.1 = name) = none by
        simpa [id?] using hnone]

end IdSpace

namespace IdRegistry

/-- `r'` has every id that `r` has, in every space. -/
def Keeps (r r' : IdRegistry) : Prop := ∀ k, (r.space k).Keeps (r'.space k)

theorem Keeps.refl (r : IdRegistry) : r.Keeps r := fun _ _ _ h => h

theorem Keeps.trans {r r' r'' : IdRegistry} (h₁ : r.Keeps r') (h₂ : r'.Keeps r'') : r.Keeps r'' :=
  fun k n id h => h₂ k n id (h₁ k n id h)

/-- Replacing one space by a space that keeps its ids keeps every id. -/
theorem keeps_setSpace {r : IdRegistry} {k : IdKind} {s : IdSpace} (h : (r.space k).Keeps s) :
    r.Keeps (r.setSpace k s) := by
  intro k'
  cases k <;> cases k' <;> first | exact h | exact fun _ _ h => h

@[simp] theorem space_setSpace (r : IdRegistry) (k : IdKind) (s : IdSpace) :
    (r.setSpace k s).space k = s := by
  cases k <;> rfl

/-- A name with an id gets it back, and the registry is unchanged. -/
theorem getOrCreate_of_id? {r : IdRegistry} {k : IdKind} {name : String} {id : Bytes}
    (h : r.id? k name = some id) : r.getOrCreate k name = (r, .ok id) := by
  have hs : (r.space k).getOrCreate k name = (r.space k, .ok id) := IdSpace.getOrCreate_of_id? h
  simp only [getOrCreate, hs, Prod.mk.injEq, and_true]
  cases k <;> rfl

/-- Asking for an id keeps every id, and afterwards the name has the id given. -/
theorem getOrCreate_keeps {r r' : IdRegistry} {k : IdKind} {name : String}
    {res : Except WriteError Bytes} (h : r.getOrCreate k name = (r', res)) :
    r.Keeps r' ∧ ∀ id, res = .ok id → r'.id? k name = some id := by
  simp only [getOrCreate] at h
  have hg : (r.space k).getOrCreate k name = (((r.space k).getOrCreate k name).1, res) := by
    rw [← (Prod.mk.inj h).2]
  obtain ⟨hk, hid⟩ := IdSpace.getOrCreate_keeps hg
  obtain ⟨rfl, rfl⟩ := Prod.mk.inj h
  refine ⟨keeps_setSpace hk, fun id hi => ?_⟩
  simpa [id?] using hid id hi

end IdRegistry

namespace KeyRules

variable (r : KeyRules)

/-- Resolving a tag name keeps every id, and a resolved name keeps its id. -/
theorem resolve_keeps {ids ids' : IdRegistry} {k : IdKind} {name : String}
    {res : Except WriteError Bytes} (h : r.resolve ids k name = (ids', res)) :
    ids.Keeps ids' ∧ ∀ id, res = .ok id → ids'.id? k name = some id := by
  unfold resolve at h
  split at h
  · exact IdRegistry.getOrCreate_keeps h
  · split at h <;> cases h
    · next id hid => exact ⟨IdRegistry.Keeps.refl _, fun _ hi => by cases hi; exact hid⟩
    · exact ⟨IdRegistry.Keeps.refl _, fun _ hi => by cases hi⟩

/-- A name that has an id resolves to it without change. -/
theorem resolve_of_id? {ids : IdRegistry} {k : IdKind} {name : String} {id : Bytes}
    (h : ids.id? k name = some id) : r.resolve ids k name = (ids, .ok id) := by
  unfold resolve
  split
  · exact IdRegistry.getOrCreate_of_id? h
  · simp [h]

/-- Resolving tags keeps every id. -/
theorem resolveTags_keeps (ids : IdRegistry) (ts : List Tag) :
    ids.Keeps (r.resolveTags ids ts).1 := by
  induction ts generalizing ids with
  | nil => exact IdRegistry.Keeps.refl _
  | cons t ts ih =>
    rcases hk : r.resolve ids .tagKey t.key with ⟨ids₁, _ | kid⟩
    · simpa [resolveTags, hk] using (r.resolve_keeps hk).1
    have h₁ := (r.resolve_keeps hk).1
    rcases hv : r.resolve ids₁ .tagValue t.value with ⟨ids₂, _ | vid⟩
    · simpa [resolveTags, hk, hv] using h₁.trans (r.resolve_keeps hv).1
    have h₂ := h₁.trans (r.resolve_keeps hv).1
    rcases hr : r.resolveTags ids₂ ts with ⟨ids₃, _ | ps⟩
    · simpa [resolveTags, hk, hv, hr] using h₂.trans (by simpa [hr] using ih ids₂)
    · simpa [resolveTags, hk, hv, hr] using h₂.trans (by simpa [hr] using ih ids₂)

/-- Tags that resolved once resolve again to the same ids in any registry that kept the ids. -/
theorem resolveTags_stable {ids ids' ids'' : IdRegistry} {ts : List Tag}
    {ps : List (Bytes × Bytes)} (h : r.resolveTags ids ts = (ids', .ok ps))
    (hk : ids'.Keeps ids'') : r.resolveTags ids'' ts = (ids'', .ok ps) := by
  induction ts generalizing ids ps with
  | nil =>
    simp only [resolveTags, Prod.mk.injEq] at h
    obtain ⟨rfl, h⟩ := h
    cases h
    rfl
  | cons t ts ih =>
    rcases hkey : r.resolve ids .tagKey t.key with ⟨ids₁, _ | kid⟩
    · simp [resolveTags, hkey] at h
    rcases hval : r.resolve ids₁ .tagValue t.value with ⟨ids₂, _ | vid⟩
    · simp [resolveTags, hkey, hval] at h
    rcases hrest : r.resolveTags ids₂ ts with ⟨ids₃, _ | rest⟩
    · simp [resolveTags, hkey, hval, hrest] at h
    simp only [resolveTags, hkey, hval, hrest, Prod.mk.injEq, Except.ok.injEq] at h
    obtain ⟨rfl, rfl⟩ := h
    -- every id read on the way is still in the final registry, and from there in `ids''`
    have h₃ : ids₂.Keeps ids'' :=
      (by simpa [hrest] using r.resolveTags_keeps ids₂ ts : ids₂.Keeps ids₃).trans hk
    have hkid := (r.resolve_keeps hkey).2 kid rfl
    have hvid := (r.resolve_keeps hval).2 vid rfl
    simp only [resolveTags,
      r.resolve_of_id? (h₃ .tagKey _ _ ((r.resolve_keeps hval).1 .tagKey _ _ hkid)),
      r.resolve_of_id? (h₃ .tagValue _ _ hvid), ih hrest]

/-- Building a template keeps every id. -/
theorem buildTemplate_keeps (ids : IdRegistry) (metric : String) (tags : Tags) :
    ids.Keeps (r.buildTemplate ids metric tags).1 := by
  have htags : ∀ ids₁, ids.Keeps ids₁ → ids.Keeps (r.resolveTags ids₁ tags.toList).1 :=
    fun ids₁ h => h.trans (r.resolveTags_keeps ids₁ tags.toList)
  unfold buildTemplate
  split
  · exact IdRegistry.Keeps.refl _
  · by_cases ha : r.autoCreateMetrics
    · rcases hg : ids.getOrCreate .metric metric with ⟨ids₁, _ | mid⟩
      · simpa [ha, hg] using (IdRegistry.getOrCreate_keeps hg).1
      · have := htags ids₁ (IdRegistry.getOrCreate_keeps hg).1
        rcases hr : r.resolveTags ids₁ tags.toList with ⟨ids₂, _ | ps⟩ <;>
          simpa [ha, hg, hr] using this
    · have := htags ids (IdRegistry.Keeps.refl _)
      rcases hr : r.resolveTags ids tags.toList with ⟨ids₂, _ | ps⟩ <;>
        simpa [ha, hr] using this

/-- A template whose metric had an id is built again, unchanged and without new ids, from any
registry that kept the ids of the first build. -/
theorem buildTemplate_stable {ids ids' ids'' : IdRegistry} {metric : String} {tags : Tags}
    {T : RowKey} (h : r.buildTemplate ids metric tags = (ids', .ok T))
    (hT : T.metricResolved = true) (hk : ids'.Keeps ids'') :
    r.buildTemplate ids'' metric tags = (ids'', .ok T) := by
  unfold buildTemplate at h ⊢
  split at h
  · simp at h
  by_cases ha : r.autoCreateMetrics
  · rcases hg : ids.getOrCreate .metric metric with ⟨ids₁, _ | mid⟩
    · simp [ha, hg] at h
    rcases hr : r.resolveTags ids₁ tags.toList with ⟨ids₂, _ | ps⟩
    · simp [ha, hg, hr] at h
    simp only [ha, hg, hr, if_true, Prod.mk.injEq, Except.ok.injEq] at h
    obtain ⟨rfl, rfl⟩ := h
    -- the metric's id survives the tags' ids and every later build
    have h₁₂ : ids₁.Keeps ids₂ := by simpa [hr] using r.resolveTags_keeps ids₁ tags.toList
    have hmid := h₁₂.trans hk .metric _ _ ((IdRegistry.getOrCreate_keeps hg).2 mid rfl)
    simp [ha, IdRegistry.getOrCreate_of_id? hmid, r.resolveTags_stable hr hk]
  · rcases hr : r.resolveTags ids tags.toList with ⟨ids₂, _ | ps⟩
    · simp [ha, hr] at h
    simp only [ha, hr, Bool.false_eq_true, if_false, Prod.mk.injEq, Except.ok.injEq] at h
    obtain ⟨rfl, rfl⟩ := h
    obtain ⟨mid, hmid⟩ := Option.isSome_iff_exists.1 hT
    have h₀₂ : ids.Keeps ids₂ := by simpa [hr] using r.resolveTags_keeps ids tags.toList
    have hmid'' : ids''.id? .metric metric = some mid := h₀₂.trans hk .metric _ _ hmid
    simp [ha, hmid, hmid'', r.resolveTags_stable hr hk]

end KeyRules

end SeriesIngest
