import SeriesIngest.Proofs.Write.Invariant
import SeriesIngest.Proofs.Codec.Samples

/-!
# Distinct points are written to distinct cells

The handle writes a point to the cell of its row key and column name. When the registry's ids
tell names apart, that cell gives the point's series and time back. Past the salt the key holds
the metric id, the base time and the tag id pairs in byte order. The column name holds the
offset from the base time and the value flags. So two points meet in one cell only when they
have one metric, the same tags in some order, one timestamp and the same value flags
(`AddedPoint.Collides`). The order of the tags is lost, since the pairs are sorted, and points
that meet are indeed placed in one cell (`Db.Places.cell_eq_of_collides`).

Main statements: `Db.Places.collides`, `Db.Places.collides_iff`.
-/

namespace SeriesIngest

/-- Lists whose images are permutations of each other are permutations of each other, when the
map tells their elements apart. -/
theorem perm_of_perm_map {α β : Type} [DecidableEq α] {f : α → β} {l₁ l₂ : List α}
    (hf : ∀ a ∈ l₁, ∀ b ∈ l₂, f a = f b → a = b) (h : (l₁.map f).Perm (l₂.map f)) : l₁.Perm l₂ := by
  induction l₁ generalizing l₂ with
  | nil =>
    have : l₂.map f = [] := List.Perm.nil_eq h |>.symm
    simp_all
  | cons a l ih =>
    -- `a` has a twin in `l₂`, which the map tells apart from all else: take it out of both
    obtain ⟨b, hb, hba⟩ := List.mem_map.1 (h.subset List.mem_cons_self)
    have ha : a ∈ l₂ := hf a List.mem_cons_self b hb hba.symm ▸ hb
    have hl₂ := List.perm_cons_erase ha
    have hrest : (l.map f).Perm ((l₂.erase a).map f) := by
      have := h.trans (hl₂.map f)
      simpa using this
    have hf' : ∀ x ∈ l, ∀ y ∈ l₂.erase a, f x = f y → x = y :=
      fun x hx y hy => hf x (List.mem_cons_of_mem _ hx) y (List.mem_of_mem_erase hy)
    exact ((ih hf' hrest).cons a).trans hl₂.symm

/-- Pairs whose first parts are of one positive length, and whose second parts are of one
length, are told apart by their bytes laid end to end. -/
theorem eq_of_flatten_pairs {l₁ l₂ : List (Bytes × Bytes)}
    (hlen : ∀ x ∈ l₁ ++ l₂, ∀ y ∈ l₁ ++ l₂, x.1.length = y.1.length ∧ x.2.length = y.2.length)
    (hpos : ∀ x ∈ l₁ ++ l₂, 0 < x.1.length)
    (h : (l₁.map fun (k, v) => k ++ v).flatten = (l₂.map fun (k, v) => k ++ v).flatten) :
    l₁ = l₂ := by
  induction l₁ generalizing l₂ with
  | nil =>
    cases l₂ with
    | nil => rfl
    | cons y ys =>
      have hy := hpos y (by simp)
      have hl := congrArg List.length h
      simp only [List.map_nil, List.flatten_nil, List.length_nil, List.map_cons, List.flatten_cons,
        List.length_append] at hl
      omega
  | cons x xs ih =>
    cases l₂ with
    | nil =>
      have hx := hpos x (by simp)
      have hl := congrArg List.length h
      simp only [List.map_nil, List.flatten_nil, List.length_nil, List.map_cons, List.flatten_cons,
        List.length_append] at hl
      omega
    | cons y ys =>
      obtain ⟨h₁, h₂⟩ := hlen x (by simp) y (by simp)
      simp only [List.map_cons, List.flatten_cons] at h
      obtain ⟨hxy, hrest⟩ := List.append_inj h
        (by rw [List.length_append, List.length_append, h₁, h₂])
      obtain ⟨hk, hv⟩ := List.append_inj hxy h₁
      have hx : x = y := Prod.ext hk hv
      subst hx
      have hsub : ∀ a ∈ xs ++ ys, a ∈ (x :: xs) ++ (x :: ys) := by
        intro a ha
        simp only [List.mem_append, List.mem_cons] at ha ⊢
        tauto
      congr 1
      exact ih (fun a ha b hb => hlen a (hsub a ha) b (hsub b hb)) (fun a ha => hpos a (hsub a ha))
        hrest

/-- A field padded with zeros to a width it fits gives back its contents, among contents of one
length. -/
theorem eq_of_padded {m m' : Bytes} {w : Nat} (hlen : m.length = m'.length) (hw : m.length ≤ w)
    (h : (m ++ List.replicate (w - m.length) 0).take w = (m' ++ List.replicate (w - m'.length) 0).take w) :
    m = m' := by
  rw [List.take_of_length_le (by simp; omega), List.take_of_length_le (by simp; omega)] at h
  exact (List.append_inj h hlen).1

/-- Stored values have their flags within the mask. -/
theorem flags_mask_of_encodeValue {value : DataValue} {ev : EncodedValue}
    (h : encodeValue value = .ok ev) : ev.flags &&& flagsMask = ev.flags := by
  cases value with
  | integer v =>
    cases h
    unfold encodeLong integerWidth
    split_ifs <;> dsimp only <;> decide
  | float x =>
    simp only [encodeValue, encodeFloat] at h
    split_ifs at h
    cases h
    dsimp only
    decide

namespace IdRegistry

/-- Both names of a tag have ids. -/
def HasTag (ids : IdRegistry) (t : Tag) : Prop :=
  (ids.id? .tagKey t.key).isSome ∧ (ids.id? .tagValue t.value).isSome

/-- Every name of a series has an id: the metric, and each tag's key and value. -/
structure Names (ids : IdRegistry) (metric : String) (tags : Tags) : Prop where
  metric : (ids.id? .metric metric).isSome
  tags : ∀ t ∈ tags.toList, ids.HasTag t

/-- A tag's key id and value id. -/
def tagIds (ids : IdRegistry) (t : Tag) : Bytes × Bytes :=
  ((ids.id? .tagKey t.key).getD [], (ids.id? .tagValue t.value).getD [])

instance (ids : IdRegistry) (t : Tag) : Decidable (ids.HasTag t) :=
  inferInstanceAs (Decidable (_ ∧ _))

instance (ids : IdRegistry) (metric : String) (tags : Tags) : Decidable (ids.Names metric tags) :=
  decidable_of_iff (_ ∧ ∀ t ∈ tags.toList, ids.HasTag t)
    ⟨fun ⟨h₁, h₂⟩ => ⟨h₁, h₂⟩, fun ⟨h₁, h₂⟩ => ⟨h₁, h₂⟩⟩

/-- A name with an id is listed with it in the space of its kind. -/
theorem mem_of_id? {ids : IdRegistry} {k : IdKind} {n : String} {i : Bytes}
    (h : ids.id? k n = some i) : (n, i) ∈ (ids.space k).entries := by
  obtain ⟨e, he, rfl⟩ := Option.map_eq_some_iff.1 h
  have hn : e.1 = n := by simpa using List.find?_some he
  rw [← hn]
  exact List.mem_of_find?_eq_some he

theorem tagIds_of_hasTag {ids : IdRegistry} {t : Tag} (h : ids.HasTag t) :
    ids.id? .tagKey t.key = some (ids.tagIds t).1 ∧ ids.id? .tagValue t.value = some (ids.tagIds t).2 := by
  obtain ⟨k, hk⟩ := Option.isSome_iff_exists.1 h.1
  obtain ⟨v, hv⟩ := Option.isSome_iff_exists.1 h.2
  simp [tagIds, hk, hv]

end IdRegistry

/-- Ids that tell names apart in the keys of the rules: one name per id within a kind, the ids
of a kind all of one length, metric ids within the key's metric field, and tag key ids not
empty. -/
structure KeyRules.Separates (r : KeyRules) (ids : IdRegistry) : Prop where
  injective : ∀ k n₁ n₂ i, ids.id? k n₁ = some i → ids.id? k n₂ = some i → n₁ = n₂
  uniform : ∀ k n₁ n₂ i₁ i₂, ids.id? k n₁ = some i₁ → ids.id? k n₂ = some i₂ →
    i₁.length = i₂.length
  metric_fits : ∀ n i, ids.id? .metric n = some i → i.length ≤ r.layout.metricWidth
  tagKey_pos : ∀ n i, ids.id? .tagKey n = some i → 0 < i.length

/-- Ids separate names when, in each space, no id is given twice and every id has the space's
width, metric ids fit the key's metric field and tag key ids are not empty. -/
theorem KeyRules.separates_of_entries {r : KeyRules} {ids : IdRegistry}
    (hnodup : ∀ k, ((ids.space k).entries.map Prod.snd).Nodup)
    (hwidth : ∀ k, ∀ e ∈ (ids.space k).entries, e.2.length = ids.width k)
    (hmetric : ids.width .metric ≤ r.layout.metricWidth) (htagKey : 0 < ids.width .tagKey) :
    r.Separates ids where
  injective k _ _ _ h₁ h₂ := congrArg Prod.fst
    (List.inj_on_of_nodup_map (hnodup k) (IdRegistry.mem_of_id? h₁) (IdRegistry.mem_of_id? h₂) rfl)
  uniform k _ _ _ _ h₁ h₂ :=
    (hwidth k _ (IdRegistry.mem_of_id? h₁)).trans (hwidth k _ (IdRegistry.mem_of_id? h₂)).symm
  metric_fits _ _ h := (hwidth .metric _ (IdRegistry.mem_of_id? h)).trans_le hmetric
  tagKey_pos _ _ h := (hwidth .tagKey _ (IdRegistry.mem_of_id? h)) ▸ htagKey

/-- Two points meet in one cell: one metric, the same tags in some order, one timestamp and the
same value flags. -/
def AddedPoint.Collides (p q : AddedPoint) : Prop :=
  p.metric = q.metric ∧ p.tags.toList.Perm q.tags.toList ∧ p.ts = q.ts ∧
    (encodeValue p.value).map EncodedValue.flags = (encodeValue q.value).map EncodedValue.flags

namespace KeyRules

variable (r : KeyRules)

/-- Tags whose names have ids resolve to them, and the registry is unchanged. -/
theorem resolveTags_of_hasTag {ids : IdRegistry} {ts : List Tag} (h : ∀ t ∈ ts, ids.HasTag t) :
    r.resolveTags ids ts = (ids, .ok (ts.map ids.tagIds)) := by
  induction ts with
  | nil => rfl
  | cons t ts ih =>
    obtain ⟨hk, hv⟩ := IdRegistry.tagIds_of_hasTag (h t List.mem_cons_self)
    simp [resolveTags, r.resolve_of_id? hk, r.resolve_of_id? hv,
      ih fun t' ht' => h t' (List.mem_cons_of_mem _ ht')]

/-- Tags resolve to the ids that the registry after them holds. -/
theorem resolveTags_ids {ids ids' : IdRegistry} {ts : List Tag} {ps : List (Bytes × Bytes)}
    (h : r.resolveTags ids ts = (ids', .ok ps)) : (∀ t ∈ ts, ids'.HasTag t) ∧ ps = ts.map ids'.tagIds := by
  induction ts generalizing ids ps with
  | nil =>
    simp only [resolveTags, Prod.mk.injEq] at h
    obtain ⟨rfl, h⟩ := h
    cases h
    simp
  | cons t ts ih =>
    rcases hkey : r.resolve ids .tagKey t.key with ⟨ids₁, _ | kid⟩
    · simp [resolveTags, hkey] at h
    rcases hval : r.resolve ids₁ .tagValue t.value with ⟨ids₂, _ | vid⟩
    · simp [resolveTags, hkey, hval] at h
    rcases hrest : r.resolveTags ids₂ ts with ⟨ids₃, _ | rest⟩
    · simp [resolveTags, hkey, hval, hrest] at h
    simp only [resolveTags, hkey, hval, hrest, Prod.mk.injEq, Except.ok.injEq] at h
    obtain ⟨rfl, rfl⟩ := h
    have h₂₃ : ids₂.Keeps ids₃ := by simpa [hrest] using r.resolveTags_keeps ids₂ ts
    have hk : ids₃.id? .tagKey t.key = some kid :=
      h₂₃ .tagKey _ _ ((r.resolve_keeps hval).1 .tagKey _ _ ((r.resolve_keeps hkey).2 kid rfl))
    have hv : ids₃.id? .tagValue t.value = some vid := h₂₃ .tagValue _ _ ((r.resolve_keeps hval).2 vid rfl)
    obtain ⟨hts, rfl⟩ := ih hrest
    refine ⟨?_, by simp [IdRegistry.tagIds, hk, hv]⟩
    intro t' ht'
    rcases List.mem_cons.1 ht' with rfl | ht'
    · exact ⟨by simp [hk], by simp [hv]⟩
    · exact hts t' ht'

/-- Id pairs sort by key id, then by value id: a total order, so the sorted list is ordered. -/
theorem sortPairs_pairwise (ps : List (Bytes × Bytes)) :
    (sortPairs ps).Pairwise fun a b => a.1 < b.1 ∨ (a.1 = b.1 ∧ a.2 ≤ b.2) := by
  have htrans : ∀ a b c : Bytes × Bytes, decide (a.1 < b.1 ∨ (a.1 = b.1 ∧ a.2 ≤ b.2)) = true →
      decide (b.1 < c.1 ∨ (b.1 = c.1 ∧ b.2 ≤ c.2)) = true →
        decide (a.1 < c.1 ∨ (a.1 = c.1 ∧ a.2 ≤ c.2)) = true := by
    intro a b c hab hbc
    simp only [decide_eq_true_eq] at hab hbc ⊢
    rcases hab with h₁ | ⟨e₁, l₁⟩ <;> rcases hbc with h₂ | ⟨e₂, l₂⟩
    · exact .inl (List.lt_trans h₁ h₂)
    · exact .inl (e₂ ▸ h₁)
    · exact .inl (e₁ ▸ h₂)
    · exact .inr ⟨e₁.trans e₂, List.le_trans l₁ l₂⟩
  have htotal : ∀ a b : Bytes × Bytes, (decide (a.1 < b.1 ∨ (a.1 = b.1 ∧ a.2 ≤ b.2)) ||
      decide (b.1 < a.1 ∨ (b.1 = a.1 ∧ b.2 ≤ a.2))) = true := by
    intro a b
    simp only [Bool.or_eq_true, decide_eq_true_eq]
    rcases Decidable.em (a.1 < b.1) with h₁ | h₁
    · exact .inl (.inl h₁)
    rcases Decidable.em (b.1 < a.1) with h₂ | h₂
    · exact .inr (.inl h₂)
    have e : a.1 = b.1 := Std.le_antisymm h₂ h₁
    rcases List.le_total a.2 b.2 with l | l
    · exact .inl (.inr ⟨e, l⟩)
    · exact .inr (.inr ⟨e.symm, l⟩)
  exact (List.pairwise_mergeSort htrans htotal ps).imp fun h => of_decide_eq_true h

/-- Id pairs that are permutations of each other sort to one list: pairs are ordered by key id,
then by value id, a total order. -/
theorem sortPairs_perm {ps ps' : List (Bytes × Bytes)} (h : ps.Perm ps') :
    sortPairs ps = sortPairs ps' := by
  have hantisymm : ∀ a b : Bytes × Bytes, a ∈ sortPairs ps → b ∈ sortPairs ps' →
      (a.1 < b.1 ∨ (a.1 = b.1 ∧ a.2 ≤ b.2)) → (b.1 < a.1 ∨ (b.1 = a.1 ∧ b.2 ≤ a.2)) → a = b := by
    intro a b _ _ hab hba
    rcases hab with h₁ | ⟨e₁, l₁⟩
    · rcases hba with h₂ | ⟨e₂, -⟩
      · exact absurd h₂ (List.lt_asymm h₁)
      · exact absurd (e₂ ▸ h₁) (List.lt_irrefl _)
    · rcases hba with h₂ | ⟨-, l₂⟩
      · exact absurd (e₁ ▸ h₂) (List.lt_irrefl _)
      · exact Prod.ext e₁ (Std.le_antisymm l₁ l₂)
  exact List.Perm.eq_of_pairwise hantisymm (sortPairs_pairwise ps) (sortPairs_pairwise ps')
    ((List.mergeSort_perm _ _).trans (h.trans (List.mergeSort_perm _ _).symm))

/-- The bytes of a template before salting: the salt's zeros, the metric id padded to its field,
a zero base time, and the tag id pairs in byte order. -/
def templateBody (mid : Bytes) (ps : List (Bytes × Bytes)) : Bytes :=
  List.replicate r.layout.saltWidth 0 ++
    (mid ++ List.replicate (r.layout.metricWidth - mid.length) 0).take r.layout.metricWidth ++
    List.replicate RowLayout.timestampBytes 0 ++ ((sortPairs ps).map fun (k, v) => k ++ v).flatten

theorem fits_templateBody (hr : r.SaltFits) (mid : Bytes) (ps : List (Bytes × Bytes)) :
    r.Fits ⟨r.salter.apply (r.templateBody mid ps), r.layout, true⟩ :=
  fits_template hr (some mid) ps true

/-- Building the template of a series whose names all have ids gives no new ids. -/
theorem buildTemplate_of_names {ids : IdRegistry} {metric : String} {tags : Tags}
    (h : ids.Names metric tags) : (r.buildTemplate ids metric tags).1 = ids := by
  obtain ⟨mid, hmid⟩ := Option.isSome_iff_exists.1 h.metric
  unfold buildTemplate
  split
  · rfl
  · by_cases ha : r.autoCreateMetrics <;>
      simp [ha, hmid, IdRegistry.getOrCreate_of_id? hmid, r.resolveTags_of_hasTag h.tags]

/-- A valid series whose names all have ids has a template with its metric resolved, built with
no new ids. -/
theorem buildTemplate_ok_of_names {ids : IdRegistry} {metric : String} {tags : Tags}
    (hn : ids.Names metric tags) (hc : checkIdentity metric tags r.maxTags r.allowed = .ok ()) :
    ∃ T, r.buildTemplate ids metric tags = (ids, .ok T) ∧ T.metricResolved = true := by
  obtain ⟨mid, hmid⟩ := Option.isSome_iff_exists.1 hn.metric
  unfold buildTemplate
  rw [hc]
  by_cases ha : r.autoCreateMetrics <;>
    simp [ha, hmid, IdRegistry.getOrCreate_of_id? hmid, r.resolveTags_of_hasTag hn.tags]

/-- A series with a template passed the identity checks. -/
theorem checkIdentity_of_buildTemplate {ids ids' : IdRegistry} {metric : String} {tags : Tags}
    {T : RowKey} (h : r.buildTemplate ids metric tags = (ids', .ok T)) :
    checkIdentity metric tags r.maxTags r.allowed = .ok () := by
  rcases hc : checkIdentity metric tags r.maxTags r.allowed with e | ⟨⟩
  · simp [buildTemplate, hc] at h
  · rfl

/-- The template of a series whose names all have ids does not depend on the order of its tags. -/
theorem buildTemplate_perm {ids : IdRegistry} {metric : String} {tags tags' : Tags}
    (hn : ids.Names metric tags) (hn' : ids.Names metric tags') (hp : tags.toList.Perm tags'.toList)
    (hc : checkIdentity metric tags r.maxTags r.allowed = .ok ())
    (hc' : checkIdentity metric tags' r.maxTags r.allowed = .ok ()) :
    r.buildTemplate ids metric tags = r.buildTemplate ids metric tags' := by
  obtain ⟨mid, hmid⟩ := Option.isSome_iff_exists.1 hn.metric
  unfold buildTemplate
  rw [hc, hc']
  by_cases ha : r.autoCreateMetrics <;>
    simp [ha, hmid, IdRegistry.getOrCreate_of_id? hmid, r.resolveTags_of_hasTag hn.tags,
      r.resolveTags_of_hasTag hn'.tags, sortPairs_perm (hp.map ids.tagIds)]

/-- A template built with no new ids, for a metric with an id, is the salted template of the
metric's id and the tags' ids. -/
theorem eq_template_of_buildTemplate {ids : IdRegistry} {metric : String} {tags : Tags}
    {T : RowKey} (h : r.buildTemplate ids metric tags = (ids, .ok T))
    (hres : T.metricResolved = true) :
    ∃ mid, ids.id? .metric metric = some mid ∧ (∀ t ∈ tags.toList, ids.HasTag t) ∧
      T = ⟨r.salter.apply (r.templateBody mid (tags.toList.map ids.tagIds)), r.layout, true⟩ := by
  unfold buildTemplate at h
  split at h
  · simp at h
  by_cases ha : r.autoCreateMetrics
  · rcases hg : ids.getOrCreate .metric metric with ⟨ids₁, _ | mid⟩
    · simp [ha, hg] at h
    rcases hr : r.resolveTags ids₁ tags.toList with ⟨ids₂, _ | ps⟩
    · simp [ha, hg, hr] at h
    simp only [ha, hg, hr, if_true, Prod.mk.injEq, Except.ok.injEq] at h
    obtain ⟨rfl, rfl⟩ := h
    have h₁₂ : ids₁.Keeps ids₂ := by simpa [hr] using r.resolveTags_keeps ids₁ tags.toList
    obtain ⟨htags, rfl⟩ := r.resolveTags_ids hr
    exact ⟨mid, h₁₂ .metric _ _ ((IdRegistry.getOrCreate_keeps hg).2 mid rfl), htags, rfl⟩
  · rcases hr : r.resolveTags ids tags.toList with ⟨ids₂, _ | ps⟩
    · simp [ha, hr] at h
    simp only [ha, hr, Bool.false_eq_true, if_false, Prod.mk.injEq, Except.ok.injEq] at h
    obtain ⟨rfl, rfl⟩ := h
    obtain ⟨mid, hmid⟩ := Option.isSome_iff_exists.1 hres
    obtain ⟨htags, rfl⟩ := r.resolveTags_ids hr
    refine ⟨mid, hmid, htags, ?_⟩
    simp only [hmid]
    rfl

/-- A metric id padded and cut to its field fills the field. -/
theorem length_metricField (mid : Bytes) (w : Nat) :
    ((mid ++ List.replicate (w - mid.length) 0).take w).length = w := by
  simp only [List.length_take, List.length_append, List.length_replicate]
  omega

/-- Salting leaves the metric field, the base time and the pairs of a template where they were. -/
theorem drop_salt_templateBody (hr : r.SaltFits) (mid : Bytes) (ps : List (Bytes × Bytes)) :
    (r.salter.apply (r.templateBody mid ps)).drop r.layout.saltWidth =
      (mid ++ List.replicate (r.layout.metricWidth - mid.length) 0).take r.layout.metricWidth ++
        (List.replicate RowLayout.timestampBytes 0 ++
          ((sortPairs ps).map fun (k, v) => k ++ v).flatten) := by
  rw [← hr, Salter.drop_apply _ (by rw [hr]; simp [templateBody]), hr]
  simp [templateBody]

/-- Past the salt, a key gives its identity back: the metric field holds the metric's id, and the
tag id pairs, sorted, hold the tags up to their order, when the ids tell names apart. `B` and `B'`
stand for the base time fields, of one length. -/
theorem identity_of_body {ids : IdRegistry} (hsep : r.Separates ids) {metric metric' : String}
    {tags tags' : Tags} {m m' B B' : Bytes} (hm : ids.id? .metric metric = some m)
    (hm' : ids.id? .metric metric' = some m') (htags : ∀ t ∈ tags.toList, ids.HasTag t)
    (htags' : ∀ t ∈ tags'.toList, ids.HasTag t) (hB : B.length = B'.length)
    (h : (m ++ List.replicate (r.layout.metricWidth - m.length) 0).take r.layout.metricWidth ++
        (B ++ ((sortPairs (tags.toList.map ids.tagIds)).map fun (k, v) => k ++ v).flatten) =
      (m' ++ List.replicate (r.layout.metricWidth - m'.length) 0).take r.layout.metricWidth ++
        (B' ++ ((sortPairs (tags'.toList.map ids.tagIds)).map fun (k, v) => k ++ v).flatten)) :
    metric = metric' ∧ tags.toList.Perm tags'.toList := by
  have hlen : m.length = m'.length := hsep.uniform .metric _ _ _ _ hm hm'
  obtain ⟨hfield, hrest⟩ := List.append_inj h (by simp [hlen])
  have hmid : m = m' := eq_of_padded hlen (hsep.metric_fits _ _ hm) hfield
  subst hmid
  have hpairs := (List.append_inj hrest hB).2
  have hmem : ∀ x ∈ sortPairs (tags.toList.map ids.tagIds) ++ sortPairs (tags'.toList.map ids.tagIds),
      ∃ t, ids.HasTag t ∧ x = ids.tagIds t := by
    intro x hx
    simp only [List.mem_append, sortPairs, (List.mergeSort_perm _ _).mem_iff, List.mem_map] at hx
    rcases hx with ⟨t, ht, rfl⟩ | ⟨t, ht, rfl⟩
    · exact ⟨t, htags t ht, rfl⟩
    · exact ⟨t, htags' t ht, rfl⟩
  have hsorted := eq_of_flatten_pairs
    (fun x hx y hy => by
      obtain ⟨t, ht, rfl⟩ := hmem x hx
      obtain ⟨u, hu, rfl⟩ := hmem y hy
      exact ⟨hsep.uniform .tagKey _ _ _ _ (IdRegistry.tagIds_of_hasTag ht).1
          (IdRegistry.tagIds_of_hasTag hu).1,
        hsep.uniform .tagValue _ _ _ _ (IdRegistry.tagIds_of_hasTag ht).2
          (IdRegistry.tagIds_of_hasTag hu).2⟩)
    (fun x hx => by
      obtain ⟨t, ht, rfl⟩ := hmem x hx
      exact hsep.tagKey_pos _ _ (IdRegistry.tagIds_of_hasTag ht).1)
    hpairs
  -- sorting lost only the order, and the ids tell the tags apart
  have hperm : (tags.toList.map ids.tagIds).Perm (tags'.toList.map ids.tagIds) := by
    have e : (sortPairs (tags.toList.map ids.tagIds)).Perm (tags.toList.map ids.tagIds) :=
      List.mergeSort_perm _ _
    have e' : (sortPairs (tags'.toList.map ids.tagIds)).Perm (tags'.toList.map ids.tagIds) :=
      List.mergeSort_perm _ _
    rw [hsorted] at e
    exact e.symm.trans e'
  refine ⟨hsep.injective .metric _ _ _ hm hm', perm_of_perm_map (fun t ht u hu htu => ?_) hperm⟩
  obtain ⟨hk, hv⟩ := IdRegistry.tagIds_of_hasTag (htags t ht)
  obtain ⟨hk', hv'⟩ := IdRegistry.tagIds_of_hasTag (htags' u hu)
  rw [htu] at hk hv
  have hkey := hsep.injective .tagKey _ _ _ hk hk'
  have hval := hsep.injective .tagValue _ _ _ hv hv'
  cases t
  cases u
  simp_all

/-- Past the salt, a template moved to a base time holds the metric field, the base time and the
tag id pairs in byte order. -/
theorem drop_withBaseTime_template (hr : r.SaltFits) (mid : Bytes) (ps : List (Bytes × Bytes))
    (b : UInt32) :
    (r.withBaseTime ⟨r.salter.apply (r.templateBody mid ps), r.layout, true⟩ b).bytes.drop
        r.layout.saltWidth =
      (mid ++ List.replicate (r.layout.metricWidth - mid.length) 0).take r.layout.metricWidth ++
        Bytes.ofNatBE RowLayout.timestampBytes b.toNat ++
        ((sortPairs ps).map fun (k, v) => k ++ v).flatten := by
  rw [drop_withBaseTime hr (r.fits_templateBody hr mid ps) b]
  have hbody := r.drop_salt_templateBody hr mid ps
  have hfield := length_metricField mid r.layout.metricWidth
  have hoff : r.layout.timestampOffset = r.layout.saltWidth + r.layout.metricWidth := rfl
  have hmetric : ((r.salter.apply (r.templateBody mid ps)).take r.layout.timestampOffset).drop
      r.layout.saltWidth =
        (mid ++ List.replicate (r.layout.metricWidth - mid.length) 0).take r.layout.metricWidth := by
    rw [List.drop_take, hoff, Nat.add_sub_cancel_left, hbody, List.take_left' hfield]
  have htail : (r.salter.apply (r.templateBody mid ps)).drop
      (r.layout.timestampOffset + RowLayout.timestampBytes) =
        ((sortPairs ps).map fun (k, v) => k ++ v).flatten := by
    rw [hoff, Nat.add_assoc, ← List.drop_drop, hbody, ← List.drop_drop, List.drop_left' hfield,
      List.drop_left' (List.length_replicate ..)]
  rw [hmetric, htail]

end KeyRules

namespace Db

variable {db : Db}

/-- Adding a point whose names all have ids changes nothing of the database. -/
theorem addPoint_of_names {metric : String} {tags : Tags} (h : db.ids.Names metric tags)
    (ts : Int) (value : DataValue) : (db.addPoint metric ts value tags).1 = db := by
  have hb : db.buildTemplate metric tags = (db, (db.rules.buildTemplate db.ids metric tags).2) := by
    simp only [buildTemplate]
    rw [db.rules.buildTemplate_of_names h]
  unfold addPoint addEncodedPoint
  split
  · rfl
  · split
    · rfl
    · rw [hb]
      generalize (db.rules.buildTemplate db.ids metric tags).2 = res
      cases res with
      | error e => rfl
      | ok T =>
        dsimp only
        split <;> rfl

/-- Adding a point whose series has a template built with no new ids hands the point over with
the template at the base time of the timestamp, or refuses it for its column name. -/
theorem addPoint_of_template (hd : db.Sound) {metric : String} {ts : Int} {value : DataValue}
    {tags : Tags} {ev : EncodedValue} {T : RowKey} (henc : encodeValue value = .ok ev)
    (hts : checkTimestamp ts = .ok ()) (hT : db.rules.buildTemplate db.ids metric tags = (db.ids, .ok T)) :
    db.addPoint metric ts value tags =
      (db, (buildQualifier ts (db.baseTimeOf ts) ev.flags).map fun q =>
        .point metric tags ts ev (db.withBaseTime T (db.baseTimeOf ts)) q) := by
  have hbase := hd.baseTime_withBaseTime (KeyRules.buildTemplate_fits hd.salt hT) (db.baseTimeOf ts)
  simp only [addPoint, henc, addEncodedPoint, hts, buildTemplate, hT]
  simp only [withBaseTime] at hbase ⊢
  rw [hbase]
  cases buildQualifier ts (db.baseTimeOf ts) ev.flags <;> rfl

/-- Points that meet are placed in one cell: their series have one template, their timestamp
moves it to one base time, and their timestamp and flags give one column name. -/
theorem Places.cell_eq_of_collides {p p' : AddedPoint} {row row' : RowKey} {q q' : Qualifier}
    {ev ev' : EncodedValue} (h : db.Places p row q ev) (h' : db.Places p' row' q' ev')
    (hc : p.Collides p') : row = row' ∧ q = q' := by
  obtain ⟨hm, hperm, hts, hflags⟩ := hc
  obtain ⟨T, hres, hT, rfl⟩ := h.template
  obtain ⟨T', hres', hT', rfl⟩ := h'.template
  have hT₁ : db.rules.buildTemplate db.ids p.metric p.tags = (db.ids, .ok T) := hT
  have hT₂ : db.rules.buildTemplate db.ids p.metric p'.tags = (db.ids, .ok T') := hm ▸ hT'
  -- the tags are sorted by id, so their order does not reach the template
  have hsame : T = T' := by
    obtain ⟨_, hn₁, htags₁, -⟩ := db.rules.eq_template_of_buildTemplate hT₁ hres
    obtain ⟨_, -, htags₂, -⟩ := db.rules.eq_template_of_buildTemplate hT₂ hres'
    have e := db.rules.buildTemplate_perm ⟨by simp [hn₁], htags₁⟩ ⟨by simp [hn₁], htags₂⟩ hperm
      (db.rules.checkIdentity_of_buildTemplate hT₁) (db.rules.checkIdentity_of_buildTemplate hT₂)
    rw [hT₁, hT₂] at e
    simpa using e
  have hev : ev.flags = ev'.flags := by
    rw [h.encoded, h'.encoded] at hflags
    simpa [Except.map] using hflags
  have hq := h.qualifier
  rw [hts, hev, h'.qualifier] at hq
  exact ⟨by rw [hsame, hts], (Except.ok.inj hq).symm⟩

/-- Points placed in one cell have one timestamp and the same value flags, whatever their
series: the row key holds the base time, and the column name the offset from it and the flags. -/
theorem Places.ts_flags_eq (hd : db.Sound) {p p' : AddedPoint} {row row' : RowKey} {q : Qualifier}
    {ev ev' : EncodedValue} (h : db.Places p row q ev) (h' : db.Places p' row' q ev')
    (hrow : row.bytes = row'.bytes) : p.ts = p'.ts ∧ ev.flags = ev'.flags := by
  obtain ⟨T, hres, hT, rfl⟩ := h.template
  obtain ⟨T', hres', hT', rfl⟩ := h'.template
  obtain ⟨m, -, -, rfl⟩ := db.rules.eq_template_of_buildTemplate hT hres
  obtain ⟨m', -, -, rfl⟩ := db.rules.eq_template_of_buildTemplate hT' hres'
  -- one base time: the key reads it back
  have hbase : db.baseTimeOf p.ts = db.baseTimeOf p'.ts := by
    rw [← hd.baseTime_withBaseTime (db.rules.fits_templateBody hd.salt m _) (db.baseTimeOf p.ts),
      ← hd.baseTime_withBaseTime (db.rules.fits_templateBody hd.salt m'
        (p'.tags.toList.map db.ids.tagIds)) (db.baseTimeOf p'.ts)]
    unfold RowKey.baseTime
    rw [hrow]
    simp only [Db.withBaseTime, KeyRules.layout_withBaseTime]
  refine ⟨?_, ?_⟩
  · have ht := Qualifier.time_of_buildQualifier h.checked h.qualifier
    have ht' := Qualifier.time_of_buildQualifier h'.checked h'.qualifier
    rw [← hbase] at ht'
    cases hms : q.isMillis
    · rw [← ht.2.1 hms, ← ht'.2.1 hms]
    · rw [← ht.2.2 hms, ← ht'.2.2 hms]
  · have hf := (Qualifier.flags_of_buildQualifier h.qualifier).symm.trans
      (Qualifier.flags_of_buildQualifier h'.qualifier)
    rwa [flags_mask_of_encodeValue h.encoded, flags_mask_of_encodeValue h'.encoded] at hf

/-- Two points the handle places in one cell meet there: one metric, the same tags in some
order, one timestamp and the same value flags. -/
theorem Places.collides (hd : db.Sound) (hsep : db.rules.Separates db.ids) {p p' : AddedPoint}
    {row row' : RowKey} {q : Qualifier} {ev ev' : EncodedValue} (h : db.Places p row q ev)
    (h' : db.Places p' row' q ev') (hrow : row.bytes = row'.bytes) : p.Collides p' := by
  obtain ⟨hts, hflags⟩ := h.ts_flags_eq hd h' hrow
  obtain ⟨T, hres, hT, rfl⟩ := h.template
  obtain ⟨T', hres', hT', rfl⟩ := h'.template
  obtain ⟨m, hm, htags, rfl⟩ := db.rules.eq_template_of_buildTemplate hT hres
  obtain ⟨m', hm', htags', rfl⟩ := db.rules.eq_template_of_buildTemplate hT' hres'
  -- past the salt the keys hold the metric field, the base time and the pairs
  have hparts := congrArg (List.drop db.rules.layout.saltWidth) hrow
  simp only [Db.withBaseTime, db.rules.drop_withBaseTime_template hd.salt, List.append_assoc] at hparts
  obtain ⟨hmetric, htagperm⟩ := db.rules.identity_of_body hsep hm hm' htags htags' (by simp) hparts
  exact ⟨hmetric, htagperm, hts, by simp [h.encoded, h'.encoded, Except.map, hflags]⟩

/-- Under ids that tell names apart, two placed points meet exactly when they are placed in one
cell. -/
theorem Places.collides_iff (hd : db.Sound) (hsep : db.rules.Separates db.ids) {p p' : AddedPoint}
    {row row' : RowKey} {q q' : Qualifier} {ev ev' : EncodedValue} (h : db.Places p row q ev)
    (h' : db.Places p' row' q' ev') : p.Collides p' ↔ row.bytes = row'.bytes ∧ q = q' := by
  constructor
  · intro hc
    obtain ⟨rfl, rfl⟩ := h.cell_eq_of_collides h' hc
    exact ⟨rfl, rfl⟩
  · rintro ⟨hrow, rfl⟩
    exact h.collides hd hsep h' hrow

end Db

end SeriesIngest
