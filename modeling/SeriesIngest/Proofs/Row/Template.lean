import SeriesIngest.Proofs.Ids.Allocation
import SeriesIngest.Proofs.Row.Separation

/-!
# A row key is a canonical encoding of its identity

A key builder is made for an id registry: the layout takes the salt width from the salter and the
id widths from the registry (`KeyRules.BuiltFor`). Over every registry that calls lead to, a
template built for a valid identity is exactly as long as the layout says, carries as its salt the
bucket of the bytes after it, the metric's id (or zeros when lookups find none), a zero base time,
and the tag id pairs in ascending order. Every failure of a valid identity is a failure of its ids
(`KeyRules.IdFault`), and an invalid identity is refused before any id is handed out.

The pairs are sorted, so the order of the tags is lost once their names have ids: every later
build of the identity, with its tags in any order, gives the same key, and within one registry's
history different identities get different keys.

Main statement: `KeyRules.template_canonical`.
-/

namespace SeriesIngest

/-! ### Valid identities -/

/-- Tags pass their checks exactly when each name passes its own, no key is used twice, and no
key was seen before. -/
theorem checkTags_eq_ok_iff {allowed : String} {seen : List String} {ts : List Tag} :
    checkTags allowed seen ts = .ok () ↔
      (∀ t ∈ ts, checkName ("tag name with value [" ++ t.value ++ "]") t.key allowed = .ok () ∧
        checkName ("tag value with key [" ++ t.key ++ "]") t.value allowed = .ok ()) ∧
      (ts.map Tag.key).Nodup ∧ ∀ t ∈ ts, t.key ∉ seen := by
  induction ts generalizing seen with
  | nil => simp [checkTags]
  | cons t ts ih =>
    rcases hk : checkName ("tag name with value [" ++ t.value ++ "]") t.key allowed with e | ⟨⟩
    · simp [checkTags, hk, bind, Except.bind]
    rcases hv : checkName ("tag value with key [" ++ t.key ++ "]") t.value allowed with e | ⟨⟩
    · simp [checkTags, hk, hv, bind, Except.bind]
    by_cases hs : t.key ∈ seen
    · simp [checkTags, hk, hv, bind, Except.bind, hs]
    · have hstep : checkTags allowed seen (t :: ts) = checkTags allowed (t.key :: seen) ts := by
        simp [checkTags, hk, hv, bind, Except.bind, hs]
      rw [hstep, ih, List.forall_mem_cons, List.map_cons, List.nodup_cons, List.forall_mem_cons]
      constructor
      · rintro ⟨hts, hnd, hseen⟩
        refine ⟨⟨⟨hk, hv⟩, hts⟩, ⟨fun hm => ?_, hnd⟩, hs, fun u hu hm => hseen u hu (.tail _ hm)⟩
        obtain ⟨u, hu, hku⟩ := List.mem_map.1 hm
        exact hseen u hu (hku ▸ List.mem_cons_self)
      · rintro ⟨⟨-, hts⟩, ⟨hnew, hnd⟩, -, hseen⟩
        refine ⟨hts, hnd, fun u hu hm => ?_⟩
        rcases List.mem_cons.1 hm with hku | hm
        · exact hnew (hku ▸ List.mem_map_of_mem hu)
        · exact hseen u hu hm

/-- A valid identity has no tag key twice. -/
theorem keys_nodup_of_checkIdentity {metric : String} {tags : Tags} {maxTags : Nat}
    {allowed : String} (h : checkIdentity metric tags maxTags allowed = .ok ()) :
    (tags.toList.map Tag.key).Nodup := by
  unfold checkIdentity at h
  split_ifs at h
  rcases hm : checkName "metric name" metric allowed with e | ⟨⟩
  · simp [hm, bind, Except.bind] at h
  simp only [hm, bind, Except.bind] at h
  exact (checkTags_eq_ok_iff.1 h).2.1

/-- Whether an identity is valid does not depend on the order of its tags. -/
theorem checkIdentity_perm {metric : String} {tags tags' : Tags} {maxTags : Nat}
    {allowed : String} (hp : tags.toList.Perm tags'.toList)
    (h : checkIdentity metric tags maxTags allowed = .ok ()) :
    checkIdentity metric tags' maxTags allowed = .ok () := by
  have hlen : tags'.length = tags.length := by simp [Tags.length, hp.length_eq]
  unfold checkIdentity at h ⊢
  rw [hlen]
  split_ifs at h ⊢
  rcases hm : checkName "metric name" metric allowed with e | ⟨⟩
  · simp [hm, bind, Except.bind] at h
  simp only [hm, bind, Except.bind] at h ⊢
  -- each condition on the tags is one on their members, or on their keys up to order
  obtain ⟨hnames, hnd, hseen⟩ := checkTags_eq_ok_iff.1 h
  exact checkTags_eq_ok_iff.2 ⟨fun t ht => hnames t (hp.mem_iff.2 ht),
    (hp.map Tag.key).nodup_iff.1 hnd, fun t ht => hseen t (hp.mem_iff.2 ht)⟩

/-! ### Rules built for a registry -/

/-- The names of an identity of one kind: its metric, its tag keys, or its tag values. -/
def identityNames (metric : String) (tags : Tags) : IdKind → List String
  | .metric => [metric]
  | .tagKey => tags.toList.map Tag.key
  | .tagValue => tags.toList.map Tag.value

namespace KeyRules

/-- Rules made for a registry, as a key builder is: the layout takes its salt width from the
salter and its id widths from the registry, and every id width is positive. -/
structure BuiltFor (r : KeyRules) (ids : IdRegistry) : Prop where
  layout : r.layout = ⟨r.salter.width, ids.width .metric, ids.width .tagKey, ids.width .tagValue⟩
  metric_pos : 0 < ids.width .metric
  tagKey_pos : 0 < ids.width .tagKey
  tagValue_pos : 0 < ids.width .tagValue

/-- Why the ids of an identity do not resolve: one of its names has no id, and either it is a tag
name that may only be looked up, or the space of its kind is full. -/
def IdFault (r : KeyRules) (ids : IdRegistry) (metric : String) (tags : Tags) (e : WriteError) :
    Prop :=
  ∃ k, ∃ n ∈ identityNames metric tags k, ids.id? k n = none ∧
    ((k ≠ .metric ∧ r.autoCreateTags = false ∧ e = .unresolved k n) ∨
      (256 ^ ids.width k ≤ ids.count k + 1 ∧ e = .idsExhausted k (ids.width k)))

variable {r : KeyRules} {ids : IdRegistry}

theorem BuiltFor.saltFits (h : r.BuiltFor ids) : r.SaltFits := by
  rw [SaltFits, h.layout]

/-- Rules made for a registry are made for every later one: the widths never change. -/
theorem BuiltFor.grows (h : r.BuiltFor ids) {ids' : IdRegistry} (hg : ids.Grows ids') :
    r.BuiltFor ids' := by
  have hw := IdRegistry.Grows.width_eq hg
  exact ⟨by rw [h.layout, hw, hw, hw], hw .metric ▸ h.metric_pos, hw .tagKey ▸ h.tagKey_pos,
    hw .tagValue ▸ h.tagValue_pos⟩

end KeyRules

namespace IdRegistry

variable {ids : IdRegistry}

theorem Numbered.length_of_id? (h : ids.Numbered) {k : IdKind} {n : String} {i : Bytes}
    (hi : ids.id? k n = some i) : i.length = ids.width k :=
  (h k).length_of_mem ((h k).id?_eq_some_iff.1 hi)

/-- In a numbered registry an id names one name of its kind. -/
theorem Numbered.id?_inj (h : ids.Numbered) {k : IdKind} {n₁ n₂ : String} {i : Bytes}
    (h₁ : ids.id? k n₁ = some i) (h₂ : ids.id? k n₂ = some i) : n₁ = n₂ := by
  have e₁ := (h k).id?_iff_name?.1 h₁
  have e₂ := (h k).id?_iff_name?.1 h₂
  exact Option.some.inj (e₁.symm.trans e₂)

/-- A numbered registry tells names apart in the keys of rules made for it. -/
theorem Numbered.separates (h : ids.Numbered) {r : KeyRules} (hr : r.BuiltFor ids) :
    r.Separates ids where
  injective _ _ _ _ h₁ h₂ := h.id?_inj h₁ h₂
  uniform _ _ _ _ _ h₁ h₂ := (h.length_of_id? h₁).trans (h.length_of_id? h₂).symm
  metric_fits _ _ hi := by rw [h.length_of_id? hi, hr.layout]
  tagKey_pos _ _ hi := by rw [h.length_of_id? hi]; exact hr.tagKey_pos

end IdRegistry

/-! ### Resolving the ids of an identity -/

namespace KeyRules

variable (r : KeyRules)

theorem resolve_grows {ids ids' : IdRegistry} {k : IdKind} {name : String}
    {res : Except WriteError Bytes} (h : r.resolve ids k name = (ids', res))
    (hfew : ids.attempts k + 1 < 2 ^ 64) : ids.Grows ids' := by
  unfold resolve at h
  split at h
  · rw [show ids' = (ids.getOrCreate k name).1 by rw [h]]
    exact IdRegistry.grows_getOrCreate _ _ _ fun _ => hfew
  · split at h <;> cases h <;> exact IdRegistry.Grows.refl _

/-- Resolving a tag name leaves the metric ids alone. -/
theorem resolve_metric (ids : IdRegistry) {k : IdKind} (hk : k ≠ .metric) (name : String) :
    (r.resolve ids k name).1.space .metric = ids.space .metric := by
  unfold resolve
  split
  · rw [IdRegistry.space_getOrCreate, if_neg (Ne.symm hk)]
  · split <;> rfl

/-- Resolving a name moves the attempts of its kind on by one at most, and those of the other
kinds not at all. -/
theorem attempts_resolve (ids : IdRegistry) (k k' : IdKind) (name : String) :
    (r.resolve ids k name).1.attempts k' ≤ ids.attempts k' + 1 ∧
      (k' ≠ k → (r.resolve ids k name).1.attempts k' = ids.attempts k') := by
  unfold resolve
  split
  · exact IdRegistry.attempts_getOrCreate ids k k' name
  · split <;> exact ⟨Nat.le_succ _, fun _ => rfl⟩

/-- With room for one more attempt of each kind, resolving a tag's key and then its value grows
the registry twice and leaves room for one attempt less. -/
theorem resolveTag_grows {ids : IdRegistry} {n : Nat} (hfits : ids.Fits (n + 1)) (t : Tag) :
    ids.Grows (r.resolve ids .tagKey t.key).1 ∧
      (r.resolve ids .tagKey t.key).1.Grows
        (r.resolve (r.resolve ids .tagKey t.key).1 .tagValue t.value).1 ∧
      (r.resolve (r.resolve ids .tagKey t.key).1 .tagValue t.value).1.Fits n := by
  have hkey (k : IdKind) := r.attempts_resolve ids .tagKey k t.key
  have hval (k : IdKind) := r.attempts_resolve (r.resolve ids .tagKey t.key).1 .tagValue k t.value
  have hroom (k : IdKind) : ids.attempts k + 1 < 2 ^ 64 := by
    have := hfits k
    omega
  refine ⟨r.resolve_grows rfl (hroom .tagKey), r.resolve_grows rfl ?_,
    hfits.of_attempts_le fun k => ?_⟩
  · rw [(hkey .tagValue).2 (by decide)]
    exact hroom .tagValue
  · cases k with
    | metric =>
      rw [(hval .metric).2 (by decide), (hkey .metric).2 (by decide)]
      exact Nat.le_succ _
    | tagKey =>
      rw [(hval .tagKey).2 (by decide)]
      exact (hkey .tagKey).1
    | tagValue =>
      rw [← (hkey .tagValue).2 (by decide)]
      exact (hval .tagValue).1

theorem resolveTags_metric (ids : IdRegistry) (ts : List Tag) :
    (r.resolveTags ids ts).1.space .metric = ids.space .metric := by
  induction ts generalizing ids with
  | nil => rfl
  | cons t ts ih =>
    have hk := r.resolve_metric ids (k := .tagKey) (by decide) t.key
    rcases hkey : r.resolve ids .tagKey t.key with ⟨ids₁, _ | kid⟩
    · rw [hkey] at hk
      simpa [resolveTags, hkey] using hk
    have hv := r.resolve_metric ids₁ (k := .tagValue) (by decide) t.value
    rw [hkey] at hk
    rcases hval : r.resolve ids₁ .tagValue t.value with ⟨ids₂, _ | vid⟩
    · rw [hval] at hv
      simpa [resolveTags, hkey, hval] using hv.trans hk
    rw [hval] at hv
    have hm₃ := ih ids₂
    rcases hrest : r.resolveTags ids₂ ts with ⟨ids₃, _ | ps⟩ <;> rw [hrest] at hm₃ <;>
      simpa [resolveTags, hkey, hval, hrest] using hm₃.trans (hv.trans hk)

theorem resolveTags_grows (ids : IdRegistry) (ts : List Tag) (hfits : ids.Fits ts.length) :
    ids.Grows (r.resolveTags ids ts).1 := by
  induction ts generalizing ids with
  | nil => exact IdRegistry.Grows.refl _
  | cons t ts ih =>
    obtain ⟨h₁, h₂, hfits₂⟩ := r.resolveTag_grows hfits t
    rcases hkey : r.resolve ids .tagKey t.key with ⟨ids₁, _ | kid⟩
    · rw [hkey] at h₁
      simpa [resolveTags, hkey] using h₁
    simp only [hkey] at h₁ h₂ hfits₂
    rcases hval : r.resolve ids₁ .tagValue t.value with ⟨ids₂, _ | vid⟩
    · rw [hval] at h₂
      simpa [resolveTags, hkey, hval] using h₁.trans h₂
    rw [hval] at h₂ hfits₂
    have h₃ := ih ids₂ hfits₂
    rcases hrest : r.resolveTags ids₂ ts with ⟨ids₃, _ | ps⟩ <;> rw [hrest] at h₃ <;>
      simpa [resolveTags, hkey, hval, hrest] using (h₁.trans h₂).trans h₃

/-- Resolving a name fails only when it has no id: it may only be looked up, or its space is
full. -/
theorem resolve_eq_error {ids ids' : IdRegistry} (h : ids.Numbered) {k : IdKind} {name : String}
    {e : WriteError} (he : r.resolve ids k name = (ids', .error e)) :
    ids'.id? k name = none ∧ ((r.autoCreateTags = false ∧ e = .unresolved k name) ∨
      (256 ^ ids'.width k ≤ ids'.count k + 1 ∧ e = .idsExhausted k (ids'.width k))) := by
  unfold resolve at he
  split at he
  · obtain ⟨hid, hfull, rfl⟩ := IdRegistry.getOrCreate_eq_error h he
    exact ⟨hid, .inr ⟨hfull, rfl⟩⟩
  · next ha =>
    split at he
    · cases he
    · next hid =>
      simp only [Prod.mk.injEq, Except.error.injEq] at he
      obtain ⟨rfl, rfl⟩ := he
      exact ⟨hid, .inl ⟨by simpa using ha, rfl⟩⟩

/-- Resolving tags fails only at a tag name without an id, which may only be looked up or whose
space is full. -/
theorem resolveTags_eq_error {ids ids' : IdRegistry} (h : ids.Numbered) {ts : List Tag}
    (hfits : ids.Fits ts.length) {e : WriteError} (he : r.resolveTags ids ts = (ids', .error e)) :
    ∃ t ∈ ts, ∃ k name, ((k = .tagKey ∧ name = t.key) ∨ (k = .tagValue ∧ name = t.value)) ∧
      ids'.id? k name = none ∧ ((r.autoCreateTags = false ∧ e = .unresolved k name) ∨
        (256 ^ ids'.width k ≤ ids'.count k + 1 ∧ e = .idsExhausted k (ids'.width k))) := by
  induction ts generalizing ids with
  | nil => simp [resolveTags] at he
  | cons t ts ih =>
    obtain ⟨hg₁, hg₂, hfits₂⟩ := r.resolveTag_grows hfits t
    rcases hkey : r.resolve ids .tagKey t.key with ⟨ids₁, _ | kid⟩
    · simp only [resolveTags, hkey, Prod.mk.injEq, Except.error.injEq] at he
      obtain ⟨rfl, rfl⟩ := he
      exact ⟨t, List.mem_cons_self, .tagKey, t.key, .inl ⟨rfl, rfl⟩, r.resolve_eq_error h hkey⟩
    simp only [hkey] at hg₁ hg₂ hfits₂
    have h₁ := h.of_grows hg₁
    rcases hval : r.resolve ids₁ .tagValue t.value with ⟨ids₂, _ | vid⟩
    · simp only [resolveTags, hkey, hval, Prod.mk.injEq, Except.error.injEq] at he
      obtain ⟨rfl, rfl⟩ := he
      exact ⟨t, List.mem_cons_self, .tagValue, t.value, .inr ⟨rfl, rfl⟩, r.resolve_eq_error h₁ hval⟩
    rw [hval] at hg₂ hfits₂
    have h₂ := h₁.of_grows hg₂
    rcases hrest : r.resolveTags ids₂ ts with ⟨ids₃, _ | ps⟩
    · simp only [resolveTags, hkey, hval, hrest, Prod.mk.injEq, Except.error.injEq] at he
      obtain ⟨rfl, rfl⟩ := he
      obtain ⟨u, hu, hfault⟩ := ih h₂ hfits₂ hrest
      exact ⟨u, .tail _ hu, hfault⟩
    · simp [resolveTags, hkey, hval, hrest] at he

/-- A valid identity fails to get a key only for its ids. -/
theorem buildTemplate_eq_error {ids ids' : IdRegistry} (h : ids.Numbered) {metric : String}
    {tags : Tags} (hfits : ids.Fits (tags.length + 1))
    (hc : checkIdentity metric tags r.maxTags r.allowed = .ok ()) {e : WriteError}
    (he : r.buildTemplate ids metric tags = (ids', .error e)) : r.IdFault ids' metric tags e := by
  unfold buildTemplate at he
  rw [hc] at he
  have hfault : ∀ {ids₀ : IdRegistry}, ids₀.Numbered → ids₀.Fits tags.length →
      r.resolveTags ids₀ tags.toList = (ids', .error e) → r.IdFault ids' metric tags e := by
    intro ids₀ h₀ hf₀ hrt
    obtain ⟨t, ht, k, name, hk, hid, hcase⟩ := r.resolveTags_eq_error h₀ hf₀ hrt
    have hname : name ∈ identityNames metric tags k ∧ k ≠ .metric := by
      rcases hk with ⟨rfl, rfl⟩ | ⟨rfl, rfl⟩
      · exact ⟨List.mem_map_of_mem ht, by decide⟩
      · exact ⟨List.mem_map_of_mem ht, by decide⟩
    refine ⟨k, name, hname.1, hid, ?_⟩
    rcases hcase with ⟨ha, rfl⟩ | hfull
    · exact .inl ⟨hname.2, ha, rfl⟩
    · exact .inr hfull
  by_cases ha : r.autoCreateMetrics
  · rcases hg : ids.getOrCreate .metric metric with ⟨ids₁, _ | mid⟩
    · simp only [ha, hg, if_true, Prod.mk.injEq, Except.error.injEq] at he
      obtain ⟨rfl, rfl⟩ := he
      obtain ⟨hid, hfull, rfl⟩ := IdRegistry.getOrCreate_eq_error h hg
      exact ⟨.metric, metric, List.mem_singleton_self _, hid, .inr ⟨hfull, rfl⟩⟩
    rcases hrt : r.resolveTags ids₁ tags.toList with ⟨ids₂, _ | ps⟩
    · simp only [ha, hg, hrt, if_true, Prod.mk.injEq, Except.error.injEq] at he
      obtain ⟨rfl, rfl⟩ := he
      have h₁ : ids₁.Numbered := by
        have h' := h.getOrCreate .metric metric fun _ => by have := hfits .metric; omega
        rwa [hg] at h'
      have hf₁ : ids₁.Fits tags.length := by
        have h' := hfits.getOrCreate .metric metric
        rwa [hg] at h'
      exact hfault h₁ hf₁ hrt
    · simp [ha, hg, hrt] at he
  · rcases hrt : r.resolveTags ids tags.toList with ⟨ids₂, _ | ps⟩
    · simp only [ha, hrt, Bool.false_eq_true, if_false, Prod.mk.injEq, Except.error.injEq] at he
      obtain ⟨rfl, rfl⟩ := he
      exact hfault h (hfits.mono (Nat.le_succ _)) hrt
    · simp [ha, hrt] at he

/-- What a built template is. The identity passed its checks, the tags' names have ids, the
metric has an id when ids are created for it and keeps the one it had when they are looked up, and
the key is the salted template of the metric's id (no bytes when it has none) and the tags' ids. -/
theorem buildTemplate_eq_ok {ids ids' : IdRegistry} {metric : String} {tags : Tags} {T : RowKey}
    (h : r.buildTemplate ids metric tags = (ids', .ok T)) :
    checkIdentity metric tags r.maxTags r.allowed = .ok () ∧
      (∀ t ∈ tags.toList, ids'.HasTag t) ∧
      (r.autoCreateMetrics = true → (ids'.id? .metric metric).isSome) ∧
      (r.autoCreateMetrics = false → ids'.id? .metric metric = ids.id? .metric metric) ∧
      T = ⟨r.salter.apply (r.templateBody ((ids'.id? .metric metric).getD [])
        (tags.toList.map ids'.tagIds)), r.layout, (ids'.id? .metric metric).isSome⟩ := by
  have hc := r.checkIdentity_of_buildTemplate h
  unfold buildTemplate at h
  split at h
  · cases h
  by_cases ha : r.autoCreateMetrics
  · rcases hg : ids.getOrCreate .metric metric with ⟨ids₁, _ | mid⟩
    · simp [ha, hg] at h
    rcases hrt : r.resolveTags ids₁ tags.toList with ⟨ids₂, _ | ps⟩
    · simp [ha, hg, hrt] at h
    simp only [ha, hg, hrt, if_true, Prod.mk.injEq, Except.ok.injEq] at h
    obtain ⟨rfl, rfl⟩ := h
    have hmetric := r.resolveTags_metric ids₁ tags.toList
    rw [hrt] at hmetric
    have hmid : ids₂.id? .metric metric = some mid := by
      simp only [IdRegistry.id?, hmetric]
      exact (IdRegistry.getOrCreate_keeps hg).2 mid rfl
    obtain ⟨htags, rfl⟩ := r.resolveTags_ids hrt
    refine ⟨hc, htags, fun _ => by simp [hmid], fun hf => absurd ha (by simp [hf]), ?_⟩
    simp only [hmid, Option.getD_some, Option.isSome_some, templateBody]
  · rcases hrt : r.resolveTags ids tags.toList with ⟨ids₂, _ | ps⟩
    · simp [ha, hrt] at h
    simp only [ha, hrt, Bool.false_eq_true, if_false, Prod.mk.injEq, Except.ok.injEq] at h
    obtain ⟨rfl, rfl⟩ := h
    have hmetric := r.resolveTags_metric ids tags.toList
    rw [hrt] at hmetric
    have hmid : ids₂.id? .metric metric = ids.id? .metric metric := by
      simp only [IdRegistry.id?, hmetric]
    obtain ⟨htags, rfl⟩ := r.resolveTags_ids hrt
    refine ⟨hc, htags, fun hf => absurd hf ha, fun _ => hmid, ?_⟩
    simp only [hmid, templateBody]

/-- A build with room for one more attempt of each kind than it has tags only grows the
registry, whatever it gives. -/
theorem buildTemplate_grows {ids ids' : IdRegistry} {metric : String} {tags : Tags}
    {res : Except WriteError RowKey} (hfits : ids.Fits (tags.length + 1))
    (h : r.buildTemplate ids metric tags = (ids', res)) : ids.Grows ids' := by
  unfold buildTemplate at h
  split at h
  · obtain ⟨rfl, -⟩ := Prod.mk.inj h
    exact IdRegistry.Grows.refl _
  by_cases ha : r.autoCreateMetrics
  · have hg₁ := IdRegistry.grows_getOrCreate ids .metric metric fun _ => by
      have := hfits .metric
      omega
    have hf₁ := hfits.getOrCreate .metric metric
    rcases hg : ids.getOrCreate .metric metric with ⟨ids₁, _ | mid⟩
    · simp only [ha, hg, if_true, Prod.mk.injEq] at h
      rw [hg] at hg₁
      rw [← h.1]
      exact hg₁
    rw [hg] at hg₁ hf₁
    have hg₂ := r.resolveTags_grows ids₁ tags.toList hf₁
    rcases hrt : r.resolveTags ids₁ tags.toList with ⟨ids₂, _ | ps⟩ <;>
      simp only [ha, hg, hrt, if_true, Prod.mk.injEq] at h <;> rw [hrt] at hg₂ <;> rw [← h.1] <;>
      exact hg₁.trans hg₂
  · have hg₂ := r.resolveTags_grows ids tags.toList (hfits.mono (Nat.le_succ _))
    rcases hrt : r.resolveTags ids tags.toList with ⟨ids₂, _ | ps⟩ <;>
      simp only [ha, hrt, Bool.false_eq_true, if_false, Prod.mk.injEq] at h <;> rw [hrt] at hg₂ <;>
      rw [← h.1] <;> exact hg₂

end KeyRules

/-! ### The layout of a template -/

/-- Pairs whose parts have widths `a` and `b`, laid end to end, take `a + b` bytes each. -/
theorem length_flatten_pairs {ps : List (Bytes × Bytes)} {a b : Nat}
    (h : ∀ p ∈ ps, p.1.length = a ∧ p.2.length = b) :
    ((ps.map fun (k, v) => k ++ v).flatten).length = ps.length * (a + b) := by
  induction ps with
  | nil => simp
  | cons p ps ih =>
    obtain ⟨h₁, h₂⟩ := h p List.mem_cons_self
    simp only [List.map_cons, List.flatten_cons, List.length_append, List.length_cons,
      ih fun q hq => h q (.tail _ hq), h₁, h₂]
    ring

/-- Cutting pairs laid end to end at the layout's widths gives them back, when the fuel counts
at least the pairs. -/
theorem pairsOf_flatten {l : RowLayout} (hw : 0 < l.tagPairWidth) {ps : List (Bytes × Bytes)}
    (h : ∀ p ∈ ps, p.1.length = l.tagNameWidth ∧ p.2.length = l.tagValueWidth) {fuel : Nat}
    (hf : ps.length ≤ fuel) :
    RowKey.pairsOf l fuel ((ps.map fun (k, v) => k ++ v).flatten) = ps := by
  induction ps generalizing fuel with
  | nil =>
    cases fuel with
    | zero => rfl
    | succ fuel => simp [RowKey.pairsOf, hw]
  | cons p ps ih =>
    obtain ⟨fuel, rfl⟩ : ∃ f, fuel = f + 1 := ⟨fuel - 1, by simp at hf; omega⟩
    obtain ⟨k, v⟩ := p
    obtain ⟨h₁, h₂⟩ := h (k, v) List.mem_cons_self
    have hkv : (k ++ v).length = l.tagPairWidth := by
      simp [RowLayout.tagPairWidth, h₁, h₂]
    have hrest : RowKey.pairsOf l fuel ((ps.map fun (k, v) => k ++ v).flatten) = ps :=
      ih (fun q hq => h q (.tail _ hq)) (by simp at hf; omega)
    simp only [List.map_cons, List.flatten_cons]
    -- the first pair is cut off by its widths, the rest by the fuel left
    have hnot : ¬ (l.tagPairWidth = 0 ∨ (k ++ v ++ (ps.map fun (k, v) => k ++ v).flatten).length <
        l.tagPairWidth) := by
      simp only [RowLayout.tagPairWidth, List.length_append, h₁, h₂] at hw ⊢
      omega
    rw [RowKey.pairsOf, if_neg hnot, List.append_assoc, List.take_left' h₁, List.drop_left' h₁,
      List.take_left' h₂, ← List.append_assoc, List.drop_left' hkv, hrest]

namespace KeyRules

@[simp] theorem length_sortPairs (ps : List (Bytes × Bytes)) : (sortPairs ps).length = ps.length :=
  (List.mergeSort_perm _ _).length_eq

theorem mem_sortPairs {ps : List (Bytes × Bytes)} {p : Bytes × Bytes} : p ∈ sortPairs ps ↔ p ∈ ps :=
  (List.mergeSort_perm _ _).mem_iff

variable {r : KeyRules}

/-- A template whose ids have the layout's widths is as long as the layout says for its pairs. -/
theorem length_template (hr : r.SaltFits) (mid : Bytes) {ps : List (Bytes × Bytes)}
    (hps : ∀ p ∈ ps, p.1.length = r.layout.tagNameWidth ∧ p.2.length = r.layout.tagValueWidth) :
    (r.salter.apply (r.templateBody mid ps)).length = r.layout.rowLen ps.length := by
  have hsorted : ∀ p ∈ sortPairs ps, p.1.length = r.layout.tagNameWidth ∧
      p.2.length = r.layout.tagValueWidth := fun p hp => hps p (mem_sortPairs.1 hp)
  rw [Salter.length_apply _ (by rw [hr]; simp [templateBody])]
  simp only [templateBody, List.length_append, List.length_replicate, List.length_take,
    length_flatten_pairs hsorted, length_sortPairs, RowLayout.rowLen,
    RowLayout.tagsOffset, RowLayout.timestampOffset, RowLayout.tagPairWidth]
  omega

/-- Past the salt, a template's metric field holds its metric's id padded to the field. -/
theorem metricField_template (hr : r.SaltFits) (mid : Bytes) (ps : List (Bytes × Bytes)) :
    ((r.salter.apply (r.templateBody mid ps)).drop r.layout.metricStart).take r.layout.metricWidth =
      (mid ++ List.replicate (r.layout.metricWidth - mid.length) 0).take r.layout.metricWidth := by
  rw [RowLayout.metricStart, r.drop_salt_templateBody hr,
    List.take_left' (length_metricField mid r.layout.metricWidth)]

/-- A template holds a zero base time, and its tag id pairs after it in byte order. -/
theorem drop_timestamp_template (hr : r.SaltFits) (mid : Bytes) (ps : List (Bytes × Bytes)) :
    (r.salter.apply (r.templateBody mid ps)).drop r.layout.timestampOffset =
      List.replicate RowLayout.timestampBytes 0 ++
        ((sortPairs ps).map fun (k, v) => k ++ v).flatten := by
  rw [RowLayout.timestampOffset, ← List.drop_drop, r.drop_salt_templateBody hr,
    List.drop_left' (length_metricField mid r.layout.metricWidth)]

theorem baseTime_template (hr : r.SaltFits) (mid : Bytes) (ps : List (Bytes × Bytes)) (b : Bool) :
    RowKey.baseTime ⟨r.salter.apply (r.templateBody mid ps), r.layout, b⟩ = 0 := by
  simp only [RowKey.baseTime, r.drop_timestamp_template hr mid ps,
    List.take_left' (List.length_replicate ..)]
  rfl

theorem tagUids_template (hr : r.SaltFits) (hw : 0 < r.layout.tagPairWidth) (mid : Bytes)
    {ps : List (Bytes × Bytes)}
    (hps : ∀ p ∈ ps, p.1.length = r.layout.tagNameWidth ∧ p.2.length = r.layout.tagValueWidth)
    (b : Bool) :
    RowKey.tagUids ⟨r.salter.apply (r.templateBody mid ps), r.layout, b⟩ = sortPairs ps := by
  have hsorted : ∀ p ∈ sortPairs ps, p.1.length = r.layout.tagNameWidth ∧
      p.2.length = r.layout.tagValueWidth := fun p hp => hps p (mem_sortPairs.1 hp)
  have hdrop : (r.salter.apply (r.templateBody mid ps)).drop r.layout.tagsOffset =
      ((sortPairs ps).map fun (k, v) => k ++ v).flatten := by
    rw [RowLayout.tagsOffset, ← List.drop_drop, r.drop_timestamp_template hr,
      List.drop_left' (List.length_replicate ..)]
  have hfuel :
      (sortPairs ps).length ≤ (((sortPairs ps).map fun (k, v) => k ++ v).flatten).length := by
    rw [length_flatten_pairs hsorted, ← RowLayout.tagPairWidth]
    exact Nat.le_mul_of_pos_right _ hw
  simp only [RowKey.tagUids, hdrop]
  exact pairsOf_flatten hw hsorted hfuel

end KeyRules

namespace Salter

/-- A bucket salter writes, as the salt, the bucket of the bytes after it. -/
theorem take_apply_bucket {w m : Nat} {b : UInt32} {hash : Bytes → UInt64} {row : Bytes}
    (h : w ≤ row.length) :
    ((Salter.bucket w b m hash).apply row).take w =
      Bytes.ofNatBE w (bucketOf w b m hash ((Salter.bucket w b m hash).apply row)) := by
  have hcongr : bucketOf w b m hash ((Salter.bucket w b m hash).apply row) = bucketOf w b m hash row :=
    bucketOf_congr ((Salter.bucket w b m hash).drop_apply h)
  rw [hcongr]
  by_cases hw : w = 0
  · subst hw
    rfl
  · simp only [apply, hw, if_false]
    exact List.take_left' (Bytes.length_ofNatBE _ _)

end Salter

/-! ### Built templates -/

theorem IdRegistry.HasTag.keeps {ids ids' : IdRegistry} {t : Tag} (h : ids.HasTag t)
    (hk : ids.Keeps ids') : ids'.HasTag t := by
  obtain ⟨hkey, hval⟩ := IdRegistry.tagIds_of_hasTag h
  have hkey' : ids'.id? .tagKey t.key = some (ids.tagIds t).1 := hk _ _ _ hkey
  have hval' : ids'.id? .tagValue t.value = some (ids.tagIds t).2 := hk _ _ _ hval
  exact ⟨by simp [hkey'], by simp [hval']⟩

namespace KeyRules

variable {r : KeyRules} {ids ids' : IdRegistry} {metric : String} {tags : Tags} {T : RowKey}

/-- In a registry the rules are built for, tag ids have the widths of the layout's tag fields. -/
theorem BuiltFor.widths_tagIds (hr : r.BuiltFor ids) (h : ids.Numbered)
    (htags : ∀ t ∈ tags.toList, ids.HasTag t) :
    ∀ p ∈ tags.toList.map ids.tagIds,
      p.1.length = r.layout.tagNameWidth ∧ p.2.length = r.layout.tagValueWidth := by
  intro p hp
  obtain ⟨t, ht, rfl⟩ := List.mem_map.1 hp
  obtain ⟨hk, hv⟩ := IdRegistry.tagIds_of_hasTag (htags t ht)
  rw [h.length_of_id? hk, h.length_of_id? hv, hr.layout]
  exact ⟨rfl, rfl⟩

theorem BuiltFor.length_metric (hr : r.BuiltFor ids) (h : ids.Numbered) {n : String} {m : Bytes}
    (hm : ids.id? .metric n = some m) : m.length = r.layout.metricWidth := by
  rw [h.length_of_id? hm, hr.layout]

/-- Pairs with distinct key ids sort into strictly ascending key ids. -/
theorem sortPairs_keys_lt {ps : List (Bytes × Bytes)} (hnd : (ps.map Prod.fst).Nodup) :
    (sortPairs ps).Pairwise fun a b => a.1 < b.1 := by
  have hp : (sortPairs ps).Perm ps := List.mergeSort_perm _ _
  have hne : (sortPairs ps).Pairwise fun a b => a.1 ≠ b.1 :=
    List.pairwise_map.1 ((hp.map Prod.fst).nodup_iff.2 hnd)
  refine ((sortPairs_pairwise ps).and hne).imp ?_
  rintro a b ⟨hle | ⟨e, -⟩, hab⟩
  · exact hle
  · exact absurd e hab

/-- Tags with distinct keys have distinct key ids. -/
theorem tagKeyIds_nodup (h : ids.Numbered) (htags : ∀ t ∈ tags.toList, ids.HasTag t)
    (hnd : (tags.toList.map Tag.key).Nodup) :
    ((tags.toList.map ids.tagIds).map Prod.fst).Nodup := by
  have hkeys : (tags.toList.map ids.tagIds).map Prod.fst =
      (tags.toList.map Tag.key).map fun k => (ids.id? .tagKey k).getD [] := by
    simp [List.map_map, Function.comp_def, IdRegistry.tagIds]
  rw [hkeys]
  refine hnd.map_on fun x hx y hy hxy => ?_
  obtain ⟨t, ht, rfl⟩ := List.mem_map.1 hx
  obtain ⟨u, hu, rfl⟩ := List.mem_map.1 hy
  have hk := (IdRegistry.tagIds_of_hasTag (htags t ht)).1
  have hk' := (IdRegistry.tagIds_of_hasTag (htags u hu)).1
  exact h.id?_inj hk (hk'.trans (congrArg some hxy.symm))

section Built

variable (h : r.buildTemplate ids metric tags = (ids', .ok T))
include h

/-- A built template is as long as the layout makes a key with its number of tags. -/
theorem length_of_buildTemplate (hids : ids.Numbered) (hfits : ids.Fits (tags.length + 1))
    (hr : r.BuiltFor ids) : T.bytes.length = r.layout.rowLen tags.length := by
  have hg := r.buildTemplate_grows hfits h
  obtain ⟨-, htags, -, -, rfl⟩ := r.buildTemplate_eq_ok h
  rw [length_template hr.saltFits _ ((hr.grows hg).widths_tagIds (hids.of_grows hg) htags),
    List.length_map, Tags.length]

/-- Without a salter a built template has no salt; a bucket salter writes as the salt the bucket
of the bytes after it. -/
theorem salt_of_buildTemplate (hr : r.BuiltFor ids) :
    (r.salter = .none → T.salt = []) ∧
      ∀ w b m hash, r.salter = .bucket w b m hash →
        T.salt = Bytes.ofNatBE w (Salter.bucketOf w b m hash T.bytes) := by
  obtain ⟨-, -, -, -, rfl⟩ := r.buildTemplate_eq_ok h
  have hsw : r.salter.width = r.layout.saltWidth := hr.saltFits
  refine ⟨fun hs => ?_, fun w b m hash hs => ?_⟩
  · simp only [RowKey.salt]
    rw [← hsw, hs, Salter.width]
    exact List.take_zero
  · have hw : w = r.layout.saltWidth := by rw [← hsw, hs, Salter.width]
    have hlen : w ≤ (r.templateBody ((ids'.id? .metric metric).getD [])
        (tags.toList.map ids'.tagIds)).length := by
      rw [hw]
      simp [templateBody]
    simp only [RowKey.salt]
    rw [← hw, hs]
    exact Salter.take_apply_bucket hlen

/-- A built template's metric id is the metric's id in the registry after the build. -/
theorem metricUid_of_buildTemplate (hids : ids.Numbered) (hfits : ids.Fits (tags.length + 1))
    (hr : r.BuiltFor ids) : T.metricUid = ids'.id? .metric metric := by
  have hg := r.buildTemplate_grows hfits h
  obtain ⟨-, -, -, -, rfl⟩ := r.buildTemplate_eq_ok h
  rcases hm : ids'.id? .metric metric with _ | m
  · simp [RowKey.metricUid]
  · have hlen := (hr.grows hg).length_metric (hids.of_grows hg) hm
    simp only [RowKey.metricUid, Option.isSome_some, if_true, Option.getD_some]
    rw [metricField_template hr.saltFits, hlen, Nat.sub_self, List.replicate_zero, List.append_nil,
      ← hlen, List.take_length]

/-- A built template has no metric id exactly when ids are only looked up for metrics and the
metric had none. -/
theorem metric_none_of_buildTemplate :
    ids'.id? .metric metric = none ↔
      r.autoCreateMetrics = false ∧ ids.id? .metric metric = none := by
  obtain ⟨-, -, hauto, hlookup, -⟩ := r.buildTemplate_eq_ok h
  cases ha : r.autoCreateMetrics
  · rw [hlookup ha]
    exact ⟨fun hn => ⟨rfl, hn⟩, fun hn => hn.2⟩
  · exact ⟨fun hn => absurd hn (Option.isSome_iff_ne_none.1 (hauto ha)), fun hn => by cases hn.1⟩

/-- A built template without a metric id holds zeros in the metric field. -/
theorem metricField_of_buildTemplate (hr : r.BuiltFor ids) (hm : ids'.id? .metric metric = none) :
    (T.bytes.drop r.layout.metricStart).take r.layout.metricWidth =
      List.replicate r.layout.metricWidth 0 := by
  obtain ⟨-, -, -, -, rfl⟩ := r.buildTemplate_eq_ok h
  rw [hm, Option.getD_none]
  simp only [metricField_template hr.saltFits, List.length_nil, Nat.sub_zero, List.nil_append]
  exact List.take_of_length_le (List.length_replicate ..).le

theorem baseTime_of_buildTemplate (hr : r.BuiltFor ids) : T.baseTime = 0 := by
  obtain ⟨-, -, -, -, rfl⟩ := r.buildTemplate_eq_ok h
  exact baseTime_template hr.saltFits _ _ _

/-- A built template's tag ids are the tags' ids in byte order. -/
theorem tagUids_of_buildTemplate (hids : ids.Numbered) (hfits : ids.Fits (tags.length + 1))
    (hr : r.BuiltFor ids) : T.tagUids = sortPairs (tags.toList.map ids'.tagIds) := by
  have hg := r.buildTemplate_grows hfits h
  obtain ⟨-, htags, -, -, rfl⟩ := r.buildTemplate_eq_ok h
  have hw : 0 < r.layout.tagPairWidth := by
    have := hr.tagKey_pos
    simp only [hr.layout, RowLayout.tagPairWidth]
    omega
  exact tagUids_template hr.saltFits hw _ ((hr.grows hg).widths_tagIds (hids.of_grows hg) htags) _

/-- A built template's tag ids ascend strictly by key id: a valid identity has no key twice. -/
theorem tagUids_lt_of_buildTemplate (hids : ids.Numbered) (hfits : ids.Fits (tags.length + 1))
    (hr : r.BuiltFor ids) : T.tagUids.Pairwise fun a b => a.1 < b.1 := by
  have hc := r.checkIdentity_of_buildTemplate h
  have hg := r.buildTemplate_grows hfits h
  obtain ⟨-, htags, -, -, -⟩ := r.buildTemplate_eq_ok h
  rw [tagUids_of_buildTemplate h hids hfits hr]
  exact sortPairs_keys_lt
    (tagKeyIds_nodup (hids.of_grows hg) htags (keys_nodup_of_checkIdentity hc))

end Built

/-- Once the tags of a valid identity have ids, the order of its tags does not change what a
build gives, whether or not its metric has an id. -/
theorem buildTemplate_perm_of_hasTag {tags' : Tags}
    (hc : checkIdentity metric tags r.maxTags r.allowed = .ok ())
    (htags : ∀ t ∈ tags.toList, ids.HasTag t) (hp : tags.toList.Perm tags'.toList) :
    r.buildTemplate ids metric tags' = r.buildTemplate ids metric tags := by
  have htags' : ∀ t ∈ tags'.toList, ids.HasTag t := fun t ht => htags t (hp.mem_iff.2 ht)
  unfold buildTemplate
  rw [hc, checkIdentity_perm hp hc]
  by_cases ha : r.autoCreateMetrics
  · rcases hg : ids.getOrCreate .metric metric with ⟨ids₁, _ | mid⟩
    · simp [ha]
    · have hk := (IdRegistry.getOrCreate_keeps hg).1
      simp [ha, r.resolveTags_of_hasTag fun t ht => (htags t ht).keeps hk,
        r.resolveTags_of_hasTag fun t ht => (htags' t ht).keeps hk,
        sortPairs_perm (hp.map ids₁.tagIds).symm]
  · simp [ha, r.resolveTags_of_hasTag htags, r.resolveTags_of_hasTag htags',
      sortPairs_perm (hp.map ids.tagIds).symm]

/-- A template whose metric had an id is what every later registry builds for its identity, with
the tags in any order, and no id is created for it. -/
theorem buildTemplate_stable_perm (h : r.buildTemplate ids metric tags = (ids', .ok T))
    (hT : T.metricResolved = true) {ids'' : IdRegistry} (hg : ids'.Grows ids'') {tags' : Tags}
    (hp : tags.toList.Perm tags'.toList) : r.buildTemplate ids'' metric tags' = (ids'', .ok T) := by
  have h'' := r.buildTemplate_stable h hT (IdRegistry.Grows.keeps hg)
  obtain ⟨-, -, htags, -⟩ := r.eq_template_of_buildTemplate h'' hT
  rw [r.buildTemplate_perm_of_hasTag (r.checkIdentity_of_buildTemplate h) htags hp, h'']

/-- Within one registry's history, two resolved identities with one key are one identity: the
same metric, and the same tags up to order. -/
theorem identity_of_buildTemplate (hids : ids.Numbered) (hfits : ids.Fits (tags.length + 1))
    (hr : r.BuiltFor ids) (h : r.buildTemplate ids metric tags = (ids', .ok T))
    (hT : T.metricResolved = true) {ids₁ ids₂ : IdRegistry} (hg : ids'.Grows ids₁) {metric' : String}
    {tags' : Tags} (hfits' : ids₁.Fits (tags'.length + 1))
    (h' : r.buildTemplate ids₁ metric' tags' = (ids₂, .ok T)) :
    metric = metric' ∧ tags.toList.Perm tags'.toList := by
  have hg₁ : ids'.Grows ids₂ := hg.trans (r.buildTemplate_grows hfits' h')
  have hg₀ : ids.Grows ids₂ := (r.buildTemplate_grows hfits h).trans hg₁
  have hsep := (hids.of_grows hg₀).separates (hr.grows hg₀)
  -- both identities build to the key in the last registry, where both resolve
  obtain ⟨m, hm, htags, hT₁⟩ :=
    r.eq_template_of_buildTemplate (r.buildTemplate_stable h hT (IdRegistry.Grows.keeps hg₁)) hT
  obtain ⟨m', hm', htags', hT₂⟩ :=
    r.eq_template_of_buildTemplate (r.buildTemplate_stable h' hT (IdRegistry.Keeps.refl _)) hT
  have hbytes := congrArg (fun k : RowKey => k.bytes.drop r.layout.saltWidth) (hT₁.symm.trans hT₂)
  simp only [r.drop_salt_templateBody hr.saltFits] at hbytes
  exact r.identity_of_body hsep hm hm' htags htags' rfl hbytes

/-- A key builder made for a registry that calls lead to, with room left for the build's
attempts, encodes identities canonically: the template has the layout's length, salt, metric id,
zero base time and ascending tag ids, and no other resolved identity of the history shares it. -/
theorem template_canonical {r : KeyRules} {ids : IdRegistry} (hids : ids.Reachable)
    (hr : r.BuiltFor ids) (metric : String) (tags : Tags) (hfits : ids.Fits (tags.length + 1)) :
    (∀ ve, checkIdentity metric tags r.maxTags r.allowed = .error ve →
      r.buildTemplate ids metric tags = (ids, .error (.invalidSeries ve))) ∧
    (checkIdentity metric tags r.maxTags r.allowed = .ok () → ∀ ids' e,
      r.buildTemplate ids metric tags = (ids', .error e) → r.IdFault ids' metric tags e) ∧
    (checkIdentity metric tags r.maxTags r.allowed = .ok () → (∀ t ∈ tags.toList, ids.HasTag t) →
      ∀ tags' : Tags, tags.toList.Perm tags'.toList →
        r.buildTemplate ids metric tags' = r.buildTemplate ids metric tags) ∧
    ∀ ids' T, r.buildTemplate ids metric tags = (ids', .ok T) →
      T.bytes.length = r.layout.rowLen tags.length ∧
      (r.salter = .none → T.salt = []) ∧
      (∀ w b m hash, r.salter = .bucket w b m hash →
        T.salt = Bytes.ofNatBE w (Salter.bucketOf w b m hash T.bytes)) ∧
      T.metricUid = ids'.id? .metric metric ∧
      (T.metricUid = none ↔ r.autoCreateMetrics = false ∧ ids.id? .metric metric = none) ∧
      (T.metricUid = none → (T.bytes.drop r.layout.metricStart).take r.layout.metricWidth =
        List.replicate r.layout.metricWidth 0) ∧
      T.baseTime = 0 ∧
      (∀ t ∈ tags.toList, ids'.HasTag t) ∧
      T.tagUids.Perm (tags.toList.map ids'.tagIds) ∧
      T.tagUids.Pairwise (fun a b => a.1 < b.1) ∧
      (T.metricResolved = true → ∀ ids'', ids'.Grows ids'' → ∀ tags' : Tags,
        tags.toList.Perm tags'.toList → r.buildTemplate ids'' metric tags' = (ids'', .ok T)) ∧
      (T.metricResolved = true → ∀ ids₁ ids₂ metric' (tags' : Tags), ids'.Grows ids₁ →
        ids₁.Fits (tags'.length + 1) → r.buildTemplate ids₁ metric' tags' = (ids₂, .ok T) →
          metric = metric' ∧ tags.toList.Perm tags'.toList) := by
  have hnum := hids.numbered
  refine ⟨fun ve hc => by simp [buildTemplate, hc],
    fun hc _ _ he => r.buildTemplate_eq_error hnum hfits hc he,
    fun hc htags _ hp => r.buildTemplate_perm_of_hasTag hc htags hp, fun ids' T h => ?_⟩
  have huid := metricUid_of_buildTemplate h hnum hfits hr
  have hsalt := salt_of_buildTemplate h hr
  refine ⟨length_of_buildTemplate h hnum hfits hr, hsalt.1, hsalt.2, huid,
    huid ▸ metric_none_of_buildTemplate h, fun hn => metricField_of_buildTemplate h hr (huid ▸ hn),
    baseTime_of_buildTemplate h hr, (r.buildTemplate_eq_ok h).2.1, ?_,
    tagUids_lt_of_buildTemplate h hnum hfits hr,
    fun hT _ hg _ hp => buildTemplate_stable_perm h hT hg hp,
    fun hT _ _ _ _ hg hfits' h' => identity_of_buildTemplate hnum hfits hr h hT hg hfits' h'⟩
  rw [tagUids_of_buildTemplate h hnum hfits hr]
  exact List.mergeSort_perm _ _

/-- Key rules as a database with the default settings has them: no salt, 3-byte ids, and ids
created for new names. -/
def defaultRules : KeyRules := ⟨⟨0, 3, 3, 3⟩, 8, "", true, true, .none⟩

theorem defaultRules_builtFor : defaultRules.BuiltFor (IdRegistry.ofWidths 3 3 3) :=
  ⟨rfl, by decide, by decide, by decide⟩

/-- The tags of a one-tag series. -/
def cpuTags : Tags := Tags.ofPairs [("host", "web01")]

theorem cpu_template_canonical : (IdRegistry.ofWidths 3 3 3).Reachable ∧
    defaultRules.BuiltFor (IdRegistry.ofWidths 3 3 3) ∧
    (IdRegistry.ofWidths 3 3 3).Fits (cpuTags.length + 1) ∧
    (∀ ve, checkIdentity "sys.cpu" cpuTags defaultRules.maxTags defaultRules.allowed = .error ve →
      defaultRules.buildTemplate (IdRegistry.ofWidths 3 3 3) "sys.cpu" cpuTags =
        (IdRegistry.ofWidths 3 3 3, .error (.invalidSeries ve))) ∧
    (checkIdentity "sys.cpu" cpuTags defaultRules.maxTags defaultRules.allowed = .ok () → ∀ ids' e,
      defaultRules.buildTemplate (IdRegistry.ofWidths 3 3 3) "sys.cpu" cpuTags = (ids', .error e) →
        defaultRules.IdFault ids' "sys.cpu" cpuTags e) ∧
    (checkIdentity "sys.cpu" cpuTags defaultRules.maxTags defaultRules.allowed = .ok () →
      (∀ t ∈ cpuTags.toList, (IdRegistry.ofWidths 3 3 3).HasTag t) →
      ∀ tags' : Tags, cpuTags.toList.Perm tags'.toList →
        defaultRules.buildTemplate (IdRegistry.ofWidths 3 3 3) "sys.cpu" tags' =
          defaultRules.buildTemplate (IdRegistry.ofWidths 3 3 3) "sys.cpu" cpuTags) ∧
    ∀ ids' T,
      defaultRules.buildTemplate (IdRegistry.ofWidths 3 3 3) "sys.cpu" cpuTags = (ids', .ok T) →
      T.bytes.length = defaultRules.layout.rowLen cpuTags.length ∧
      (defaultRules.salter = .none → T.salt = []) ∧
      (∀ w b m hash, defaultRules.salter = .bucket w b m hash →
        T.salt = Bytes.ofNatBE w (Salter.bucketOf w b m hash T.bytes)) ∧
      T.metricUid = ids'.id? .metric "sys.cpu" ∧
      (T.metricUid = none ↔ defaultRules.autoCreateMetrics = false ∧
        (IdRegistry.ofWidths 3 3 3).id? .metric "sys.cpu" = none) ∧
      (T.metricUid = none →
        (T.bytes.drop defaultRules.layout.metricStart).take defaultRules.layout.metricWidth =
          List.replicate defaultRules.layout.metricWidth 0) ∧
      T.baseTime = 0 ∧
      (∀ t ∈ cpuTags.toList, ids'.HasTag t) ∧
      T.tagUids.Perm (cpuTags.toList.map ids'.tagIds) ∧
      T.tagUids.Pairwise (fun a b => a.1 < b.1) ∧
      (T.metricResolved = true → ∀ ids'', ids'.Grows ids'' → ∀ tags' : Tags,
        cpuTags.toList.Perm tags'.toList →
          defaultRules.buildTemplate ids'' "sys.cpu" tags' = (ids'', .ok T)) ∧
      (T.metricResolved = true → ∀ ids₁ ids₂ metric' (tags' : Tags), ids'.Grows ids₁ →
        ids₁.Fits (tags'.length + 1) →
        defaultRules.buildTemplate ids₁ metric' tags' = (ids₂, .ok T) →
          "sys.cpu" = metric' ∧ cpuTags.toList.Perm tags'.toList) :=
  have hids : (IdRegistry.ofWidths 3 3 3).Reachable :=
    ⟨3, 3, 3, by decide, by decide, by decide, .refl _⟩
  have hfits : (IdRegistry.ofWidths 3 3 3).Fits (cpuTags.length + 1) := fun k => by
    cases k <;> decide
  ⟨hids, defaultRules_builtFor, hfits,
    template_canonical hids defaultRules_builtFor "sys.cpu" cpuTags hfits⟩

end KeyRules

end SeriesIngest
