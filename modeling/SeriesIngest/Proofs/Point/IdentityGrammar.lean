import SeriesIngest.Point.Identity

/-!
# The grammar of series identities

A name is valid when it is not empty and made of name characters: alphanumeric ones, the four
marks `-_./`, and extra allowed characters that are not control characters (`ValidName`). A
refused name is empty or has a first character outside that set (`NameFault`). An identity is
valid when it has from one tag up to the maximum, a valid metric name, valid tag keys and values,
and no key twice (`ValidIdentity`).

The check accepts exactly the valid names and identities, and it refuses an identity with its
first fault in the order of the checks: no tag, too many tags, the metric name, and then tag by
tag in the order given, the key, the value and a key that an earlier tag holds
(`IdentityFault`). The check keeps the keys it has passed in a list, the latest first; the tags
passed so far carry the induction (`checkTags_passed_eq_ok_iff`, `checkTags_passed_eq_error_iff`).

Main statement: `checkIdentity_exact`.
-/

namespace SeriesIngest

/-! ### Names -/

/-- A character a name may hold, given the extra allowed characters. -/
def NameChar (allowed : String) (c : Char) : Prop :=
  Text.isAlphanumeric c = true ∨ c ∈ defaultSpecialChars ∨
    (isControl c = false ∧ c ∈ allowed.toList)

/-- A valid name: not empty, and made of name characters. -/
def ValidName (allowed s : String) : Prop :=
  s ≠ "" ∧ ∀ c ∈ s.toList, NameChar allowed c

/-- How the check of a name (`what` says which name) refuses it: the name is empty, or it has a
first character that is no name character. -/
inductive NameFault (what allowed s : String) : ValidationError → Prop
  | empty : s = "" → NameFault what allowed s (.invalidString what s "empty string")
  | illegal (pre : List Char) (c : Char) (post : List Char) :
      s.toList = pre ++ c :: post → (∀ d ∈ pre, NameChar allowed d) → ¬ NameChar allowed c →
      NameFault what allowed s (.invalidString what s ("illegal character " ++ Text.charLiteral c))

@[simp] theorem nameChar_eq_true_iff (allowed : String) (c : Char) :
    nameChar allowed c = true ↔ NameChar allowed c := by
  simp [nameChar, NameChar, or_assoc]

theorem nameChar_eq_false_iff (allowed : String) (c : Char) :
    nameChar allowed c = false ↔ ¬ NameChar allowed c := by
  rw [← nameChar_eq_true_iff, Bool.not_eq_true]

/-- The first character of a name that is no name character. -/
theorem find?_illegal_eq_some_iff (allowed s : String) (c : Char) :
    s.toList.find? (fun c => !nameChar allowed c) = some c ↔
      ∃ pre post, s.toList = pre ++ c :: post ∧ (∀ d ∈ pre, NameChar allowed d) ∧
        ¬ NameChar allowed c := by
  simp only [List.find?_eq_some_iff_append, Bool.not_eq_true', Bool.not_not,
    nameChar_eq_true_iff, nameChar_eq_false_iff]
  constructor
  · rintro ⟨hc, pre, post, hs, hpre⟩
    exact ⟨pre, post, hs, hpre, hc⟩
  · rintro ⟨pre, post, hs, hpre, hc⟩
    exact ⟨hc, pre, post, hs, hpre⟩

theorem checkName_eq_ok_iff (what allowed s : String) :
    checkName what s allowed = .ok () ↔ ValidName allowed s := by
  unfold checkName ValidName
  by_cases hs : s = ""
  · simp [hs]
  · have hne : s.isEmpty = false := by simpa [String.isEmpty_iff] using hs
    rw [if_neg (by simp [hne])]
    cases hfind : s.toList.find? (fun c => !nameChar allowed c) with
    | none =>
      simp only [List.find?_eq_none, Bool.not_eq_true', Bool.not_eq_false,
        nameChar_eq_true_iff] at hfind
      simpa [hs] using hfind
    | some c =>
      obtain ⟨pre, post, hsplit, -, hc⟩ := (find?_illegal_eq_some_iff allowed s c).1 hfind
      simp only [reduceCtorEq, false_iff, not_and]
      intro _ hall
      exact hc (hall c (by simp [hsplit]))

theorem checkName_eq_error_iff (what allowed s : String) (e : ValidationError) :
    checkName what s allowed = .error e ↔ NameFault what allowed s e := by
  constructor
  · intro h
    unfold checkName at h
    split at h
    · next hs =>
      cases h
      exact .empty (String.isEmpty_iff.1 hs)
    · split at h
      · next c hfind =>
        cases h
        obtain ⟨pre, post, hsplit, hpre, hc⟩ := (find?_illegal_eq_some_iff allowed s c).1 hfind
        exact .illegal pre c post hsplit hpre hc
      · cases h
  · intro h
    cases h with
    | empty hs => simp [checkName, hs]
    | illegal pre c post hsplit hpre hc =>
      have hne : s.isEmpty = false := by
        cases h : s.isEmpty
        · rfl
        · simp [String.isEmpty_iff.1 h] at hsplit
      have hfind := (find?_illegal_eq_some_iff allowed s c).2 ⟨pre, post, hsplit, hpre, hc⟩
      simp [checkName, hne, hfind]

/-- Control characters stay refused even when listed as extra characters. -/
example : checkName "metric name" "sys\ncpu" "\n" =
    .error (.invalidString "metric name" "sys\ncpu" "illegal character '\\n'") := by rfl

theorem not_validName_of_checkName_eq_error {what allowed s : String} {e : ValidationError}
    (h : checkName what s allowed = .error e) : ¬ ValidName allowed s := by
  rw [← checkName_eq_ok_iff what, h]
  simp

namespace NameFault

variable {what allowed s : String} {e e' : ValidationError}

theorem not_validName (h : NameFault what allowed s e) : ¬ ValidName allowed s :=
  not_validName_of_checkName_eq_error ((checkName_eq_error_iff ..).2 h)

/-- A name has one fault: the one its check reports. -/
theorem unique (h : NameFault what allowed s e) (h' : NameFault what allowed s e') : e = e' := by
  have := ((checkName_eq_error_iff ..).2 h).symm.trans ((checkName_eq_error_iff ..).2 h')
  exact Except.error.inj this

end NameFault

/-! ### Tags -/

/-- Tags that pass the check: every key and value is a valid name, and no key comes twice. -/
def TagsPass (allowed : String) (ts : List Tag) : Prop :=
  (∀ t ∈ ts, ValidName allowed t.key ∧ ValidName allowed t.value) ∧ (ts.map Tag.key).Nodup

/-- A tag that passes after the tags `earlier`: a valid key and value, and a key none of them
holds. -/
def TagPasses (allowed : String) (earlier : List Tag) (t : Tag) : Prop :=
  ValidName allowed t.key ∧ ValidName allowed t.value ∧ t.key ∉ earlier.map Tag.key

/-- How the check refuses a tag after the tags `earlier`: by its key, else by its value, else
because an earlier tag holds its key. -/
inductive TagFault (allowed : String) (earlier : List Tag) (t : Tag) : ValidationError → Prop
  | key {e : ValidationError} :
      NameFault ("tag name with value [" ++ t.value ++ "]") allowed t.key e →
      TagFault allowed earlier t e
  | value {e : ValidationError} : ValidName allowed t.key →
      NameFault ("tag value with key [" ++ t.key ++ "]") allowed t.value e →
      TagFault allowed earlier t e
  | repeated : ValidName allowed t.key → ValidName allowed t.value →
      t.key ∈ earlier.map Tag.key → TagFault allowed earlier t (.duplicateTag t.key)

namespace TagFault

variable {allowed : String} {earlier : List Tag} {t : Tag} {e e' : ValidationError}

theorem not_passes (h : TagFault allowed earlier t e) : ¬ TagPasses allowed earlier t := by
  rintro ⟨hk, hv, hnew⟩
  cases h with
  | key hf => exact hf.not_validName hk
  | value _ hf => exact hf.not_validName hv
  | repeated _ _ hdup => exact hnew hdup

/-- A tag has one fault: its key's, else its value's, else the repeat of its key. -/
theorem unique (h : TagFault allowed earlier t e) (h' : TagFault allowed earlier t e') :
    e = e' := by
  cases h with
  | key hf =>
    cases h' with
    | key hf' => exact hf.unique hf'
    | value hk _ | repeated hk _ _ => exact absurd hk hf.not_validName
  | value hk hf =>
    cases h' with
    | key hf' => exact absurd hk hf'.not_validName
    | value _ hf' => exact hf.unique hf'
    | repeated _ hv _ => exact absurd hv hf.not_validName
  | repeated hk hv _ =>
    cases h' with
    | key hf' => exact absurd hk hf'.not_validName
    | value _ hf' => exact absurd hv hf'.not_validName
    | repeated => rfl

end TagFault

@[simp] theorem tagsPass_nil (allowed : String) : TagsPass allowed [] := by
  simp [TagsPass]

theorem TagsPass.of_append {allowed : String} {xs ys : List Tag}
    (h : TagsPass allowed (xs ++ ys)) : TagsPass allowed xs := by
  refine ⟨fun t ht => h.1 t (List.mem_append_left ys ht), ?_⟩
  have hnd := h.2
  rw [List.map_append] at hnd
  exact (List.nodup_append.1 hnd).1

/-- Tags that pass up to some tag pass up to it and with it. -/
theorem TagsPass.of_append_cons {allowed : String} {done rest : List Tag} {t : Tag}
    (h : TagsPass allowed (done ++ t :: rest)) : TagsPass allowed (done ++ [t]) := by
  rw [← List.singleton_append, ← List.append_assoc] at h
  exact h.of_append

theorem tagsPass_append_singleton (allowed : String) (done : List Tag) (t : Tag) :
    TagsPass allowed (done ++ [t]) ↔ TagsPass allowed done ∧ TagPasses allowed done t := by
  simp only [TagsPass, TagPasses, List.mem_append, List.mem_singleton, List.map_append,
    List.map_cons, List.map_nil, List.nodup_append]
  constructor
  · rintro ⟨hall, hnd, -, hdisj⟩
    exact ⟨⟨fun u hu => hall u (.inl hu), hnd⟩, (hall t (.inr rfl)).1, (hall t (.inr rfl)).2,
      fun hk => hdisj _ hk _ rfl rfl⟩
  · rintro ⟨⟨hall, hnd⟩, hk, hv, hnew⟩
    refine ⟨fun u hu => hu.elim (hall u) (fun h => h ▸ ⟨hk, hv⟩), hnd, by simp, ?_⟩
    intro a ha b hb hab
    exact hnew (hb ▸ hab ▸ ha)

/-- The keys the check has kept, the latest first, after one more tag. -/
theorem keys_append_singleton (done : List Tag) (t : Tag) :
    t.key :: (done.map Tag.key).reverse = ((done ++ [t]).map Tag.key).reverse := by
  simp

/-- One tag of the check, after the tags `done` passed: it passes and the check goes on with its
key kept, or the check refuses it. -/
theorem checkTags_cons (allowed : String) (done : List Tag) (t : Tag) (ts : List Tag) :
    (TagPasses allowed done t ∧
      checkTags allowed (t.key :: (done.map Tag.key).reverse) ts =
        checkTags allowed (done.map Tag.key).reverse (t :: ts)) ∨
    (∃ e, TagFault allowed done t e ∧ ¬ TagPasses allowed done t ∧
      checkTags allowed (done.map Tag.key).reverse (t :: ts) = .error e) := by
  simp only [checkTags]
  cases hk : checkName ("tag name with value [" ++ t.value ++ "]") t.key allowed with
  | error e =>
    refine .inr ⟨e, .key ((checkName_eq_error_iff ..).1 hk), fun hp => ?_, rfl⟩
    exact not_validName_of_checkName_eq_error hk hp.1
  | ok =>
    have hkey := (checkName_eq_ok_iff ..).1 hk
    cases hv : checkName ("tag value with key [" ++ t.key ++ "]") t.value allowed with
    | error e =>
      refine .inr ⟨e, .value hkey ((checkName_eq_error_iff ..).1 hv), fun hp => ?_, rfl⟩
      exact not_validName_of_checkName_eq_error hv hp.2.1
    | ok =>
      have hval := (checkName_eq_ok_iff ..).1 hv
      by_cases hdup : t.key ∈ done.map Tag.key
      · refine .inr ⟨_, .repeated hkey hval hdup, fun hp => hp.2.2 hdup, ?_⟩
        simp [hdup, bind, Except.bind]
      · exact .inl ⟨⟨hkey, hval, hdup⟩, by simp [hdup, bind, Except.bind]⟩

/-- After the tags `done` passed, the check passes the rest exactly when all of them pass. -/
theorem checkTags_passed_eq_ok_iff (allowed : String) {done : List Tag} (hd : TagsPass allowed done)
    (ts : List Tag) :
    checkTags allowed (done.map Tag.key).reverse ts = .ok () ↔ TagsPass allowed (done ++ ts) := by
  induction ts generalizing done with
  | nil => simp [checkTags, hd]
  | cons t ts ih =>
    rcases checkTags_cons allowed done t ts with ⟨hp, hrest⟩ | ⟨e, -, hnp, herr⟩
    · have hd' := (tagsPass_append_singleton allowed done t).2 ⟨hd, hp⟩
      rw [← hrest, keys_append_singleton, ih hd', List.append_assoc, List.singleton_append]
    · simp only [herr, reduceCtorEq, false_iff]
      intro hall
      -- the tags up to `t` are a prefix of tags that pass, so `t` passes after `done`
      exact hnp ((tagsPass_append_singleton allowed done t).1 hall.of_append_cons).2

/-- After the tags `done` passed, the check refuses the rest exactly with the fault of a tag
whose earlier tags all pass. -/
theorem checkTags_passed_eq_error_iff (allowed : String) {done : List Tag}
    (hd : TagsPass allowed done) (ts : List Tag) (e : ValidationError) :
    checkTags allowed (done.map Tag.key).reverse ts = .error e ↔
      ∃ pre t post, ts = pre ++ t :: post ∧ TagsPass allowed (done ++ pre) ∧
        TagFault allowed (done ++ pre) t e := by
  induction ts generalizing done with
  | nil => simp [checkTags]
  | cons t ts ih =>
    rcases checkTags_cons allowed done t ts with ⟨hp, hrest⟩ | ⟨e', hf, hnp, herr⟩
    · have hd' := (tagsPass_append_singleton allowed done t).2 ⟨hd, hp⟩
      rw [← hrest, keys_append_singleton, ih hd']
      constructor
      · rintro ⟨pre, u, post, rfl, hpass, hfault⟩
        exact ⟨t :: pre, u, post, rfl, by simpa using hpass, by simpa using hfault⟩
      · rintro ⟨pre, u, post, hsplit, hpass, hfault⟩
        cases pre with
        | nil =>
          simp only [List.nil_append, List.cons.injEq] at hsplit
          obtain ⟨rfl, rfl⟩ := hsplit
          exact absurd hp (by simpa using hfault.not_passes)
        | cons v pre =>
          simp only [List.cons_append, List.cons.injEq] at hsplit
          obtain ⟨rfl, rfl⟩ := hsplit
          exact ⟨pre, u, post, rfl, by simpa using hpass, by simpa using hfault⟩
    · rw [herr]
      constructor
      · rintro ⟨⟩
        exact ⟨[], t, ts, rfl, by simpa using hd, by simpa using hf⟩
      · rintro ⟨pre, u, post, hsplit, hpass, hfault⟩
        cases pre with
        | nil =>
          simp only [List.nil_append, List.cons.injEq] at hsplit
          obtain ⟨rfl, rfl⟩ := hsplit
          rw [hf.unique (by simpa using hfault)]
        | cons v pre =>
          simp only [List.cons_append, List.cons.injEq] at hsplit
          obtain ⟨rfl, rfl⟩ := hsplit
          -- the tags up to `t` pass, yet `t` does not
          exact absurd ((tagsPass_append_singleton allowed done t).1 hpass.of_append_cons).2 hnp

/-! ### Identities -/

/-- A valid identity: from one tag up to the maximum, a valid metric name, and tags that pass. -/
def ValidIdentity (metric : String) (tags : Tags) (maxTags : Nat) (allowed : String) : Prop :=
  0 < tags.length ∧ tags.length ≤ maxTags ∧ ValidName allowed metric ∧
    TagsPass allowed tags.toList

/-- The first fault of an identity in the order of the checks: no tag, too many tags, the metric
name, then the fault of a tag whose earlier tags all pass. -/
inductive IdentityFault (metric : String) (tags : Tags) (maxTags : Nat) (allowed : String) :
    ValidationError → Prop
  | noTags : tags.length = 0 → IdentityFault metric tags maxTags allowed (.noTags metric)
  | tooManyTags : 0 < tags.length → maxTags < tags.length →
      IdentityFault metric tags maxTags allowed (.tooManyTags tags.length maxTags)
  | metric {e : ValidationError} : 0 < tags.length → tags.length ≤ maxTags →
      NameFault "metric name" allowed metric e → IdentityFault metric tags maxTags allowed e
  | tag {e : ValidationError} (pre : List Tag) (t : Tag) (post : List Tag) :
      0 < tags.length → tags.length ≤ maxTags → ValidName allowed metric →
      tags.toList = pre ++ t :: post → TagsPass allowed pre → TagFault allowed pre t e →
      IdentityFault metric tags maxTags allowed e

section Identity

variable (metric : String) (tags : Tags) (maxTags : Nat) (allowed : String)

/-- With the tag count in range, the check is the metric name's, then the tags'. -/
theorem checkIdentity_of_length (hpos : 0 < tags.length) (hle : tags.length ≤ maxTags) :
    checkIdentity metric tags maxTags allowed =
      (checkName "metric name" metric allowed).bind fun _ => checkTags allowed [] tags.toList := by
  rw [checkIdentity, if_neg (by omega), if_neg (by omega)]
  rfl

theorem checkIdentity_eq_ok_iff :
    checkIdentity metric tags maxTags allowed = .ok () ↔
      ValidIdentity metric tags maxTags allowed := by
  by_cases h0 : tags.length = 0
  · simp [checkIdentity, ValidIdentity, h0]
  by_cases hmax : maxTags < tags.length
  · simp only [checkIdentity, h0, if_false, gt_iff_lt, hmax, if_true, reduceCtorEq, false_iff]
    exact fun h => absurd h.2.1 (by omega)
  rw [checkIdentity_of_length metric tags maxTags allowed (by omega) (by omega)]
  have htags := checkTags_passed_eq_ok_iff allowed (tagsPass_nil allowed) tags.toList
  simp only [List.map_nil, List.reverse_nil, List.nil_append] at htags
  cases hm : checkName "metric name" metric allowed with
  | error e =>
    simp only [Except.bind, reduceCtorEq, false_iff]
    exact fun h => (not_validName_of_checkName_eq_error hm) h.2.2.1
  | ok =>
    simp only [Except.bind, htags, ValidIdentity, (checkName_eq_ok_iff ..).1 hm, true_and]
    exact ⟨fun h => ⟨by omega, by omega, h⟩, fun h => h.2.2⟩

theorem checkIdentity_eq_error_iff (e : ValidationError) :
    checkIdentity metric tags maxTags allowed = .error e ↔
      IdentityFault metric tags maxTags allowed e := by
  by_cases h0 : tags.length = 0
  · simp only [checkIdentity, h0, if_true, Except.error.injEq]
    constructor
    · rintro rfl
      exact .noTags h0
    · rintro (_ | ⟨hpos⟩ | ⟨hpos⟩ | ⟨_, _, _, hpos⟩) <;> first | rfl | omega
  by_cases hmax : maxTags < tags.length
  · simp only [checkIdentity, h0, if_false, gt_iff_lt, hmax, if_true, Except.error.injEq]
    constructor
    · rintro rfl
      exact .tooManyTags (by omega) hmax
    · rintro (_ | _ | ⟨_, hle⟩ | ⟨_, _, _, _, hle⟩) <;> first | rfl | omega
  rw [checkIdentity_of_length metric tags maxTags allowed (by omega) (by omega)]
  have htags := checkTags_passed_eq_error_iff allowed (tagsPass_nil allowed) tags.toList e
  simp only [List.map_nil, List.reverse_nil, List.nil_append] at htags
  cases hm : checkName "metric name" metric allowed with
  | error e' =>
    have hf := (checkName_eq_error_iff ..).1 hm
    simp only [Except.bind, Except.error.injEq]
    constructor
    · rintro rfl
      exact .metric (by omega) (by omega) hf
    · rintro (h | ⟨-, h⟩ | ⟨_, _, hf'⟩ | ⟨_, _, _, _, _, hm', -⟩)
      · exact absurd h h0
      · exact absurd h hmax
      · exact hf.unique hf'
      · exact absurd hm' hf.not_validName
  | ok =>
    have hvalid := (checkName_eq_ok_iff ..).1 hm
    simp only [Except.bind, htags]
    constructor
    · rintro ⟨pre, t, post, hsplit, hpass, hfault⟩
      exact .tag pre t post (by omega) (by omega) hvalid hsplit hpass hfault
    · rintro (h | ⟨-, h⟩ | ⟨_, _, hf⟩ | ⟨pre, t, post, _, _, _, hsplit, hpass, hfault⟩)
      · exact absurd h h0
      · exact absurd h hmax
      · exact absurd hvalid hf.not_validName
      · exact ⟨pre, t, post, hsplit, hpass, hfault⟩

/-- The second tag repeats the key of the first. -/
example : checkIdentity "sys.cpu" (Tags.ofPairs [("host", "a"), ("host", "b")]) 8 "" =
    .error (.duplicateTag "host") := by rfl

end Identity

/-- An identity passes the checks exactly when it is valid, and a refused one is refused with its
first fault in the order the checks run. -/
theorem checkIdentity_exact (metric : String) (tags : Tags) (maxTags : Nat) (allowed : String) :
    (∀ what s, checkName what s allowed = .ok () ↔ ValidName allowed s) ∧
    (∀ what s e, checkName what s allowed = .error e ↔ NameFault what allowed s e) ∧
    (checkIdentity metric tags maxTags allowed = .ok () ↔
      ValidIdentity metric tags maxTags allowed) ∧
    ∀ e, checkIdentity metric tags maxTags allowed = .error e ↔
      IdentityFault metric tags maxTags allowed e :=
  ⟨fun what s => checkName_eq_ok_iff what allowed s,
    fun what s e => checkName_eq_error_iff what allowed s e,
    checkIdentity_eq_ok_iff metric tags maxTags allowed,
    checkIdentity_eq_error_iff metric tags maxTags allowed⟩

end SeriesIngest
