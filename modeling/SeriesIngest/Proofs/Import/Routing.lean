import SeriesIngest.Proofs.Import.Report

/-!
# Where the import tool writes a line

The tool keeps its writers under the series string of their identity (`Tags.seriesString`): a
line's point goes to the writer found under the series string of the line's own identity, and an
identity is checked only when a writer is set up for it. The series string reads back to the metric
and the tags, up to their order, when no name holds a character that delimits its parts: `,`
between tags, `=` between a key and its value, `{` after the metric. The names of an identity that
passes the checks hold none of them unless the extra characters a name may hold do.

So a point the tool writes goes to the row of a checked identity with the line's series string, and
to the row of the line's own identity when that identity passes the checks and the extra characters
are undelimited. Without the checks a tag value may hold `,` and `=`: the line `m 1001 2 a=b,c=d`
has the series string of `m 1000 1 a=b c=d`, and an import of the two lines writes both points to
the series of the first, counting the second as imported although its identity fails the checks.

Main statements: `Import.Run.imported_point_row`, `Import.comma_tag_value_counted`.
-/

namespace SeriesIngest

/-! ## Reading a series string back -/

/-- Lists that agree up to a first mark that neither prefix holds agree on the prefix and on the
rest. Unlike in `List.append_cons_inj_of_notMem`, the mark may come back in the rest. -/
theorem eq_of_append_cons_of_not_mem {α : Type} {a : α} {l₁ l₂ r₁ r₂ : List α} (h₁ : a ∉ l₁)
    (h₂ : a ∉ l₂) (h : l₁ ++ a :: r₁ = l₂ ++ a :: r₂) : l₁ = l₂ ∧ r₁ = r₂ := by
  induction l₁ generalizing l₂ with
  | nil =>
    cases l₂ with
    | nil => simpa using h
    | cons b l₂ =>
      simp only [List.nil_append, List.cons_append, List.cons.injEq] at h
      exact absurd (h.1 ▸ List.mem_cons_self) h₂
  | cons b l₁ ih =>
    cases l₂ with
    | nil =>
      simp only [List.nil_append, List.cons_append, List.cons.injEq] at h
      exact absurd (h.1 ▸ List.mem_cons_self) h₁
    | cons c l₂ =>
      simp only [List.cons_append, List.cons.injEq] at h
      obtain ⟨rfl, h⟩ := h
      obtain ⟨rfl, rfl⟩ := ih (fun hm => h₁ (List.mem_cons_of_mem _ hm))
        (fun hm => h₂ (List.mem_cons_of_mem _ hm)) h
      exact ⟨rfl, rfl⟩

/-- A name with none of the characters that delimit the parts of a series string: `,` between
tags, `=` between a key and its value, and `{` after the metric. -/
def Undelimited (s : String) : Prop := ∀ c ∈ s.toList, c ≠ ',' ∧ c ≠ '=' ∧ c ≠ '{'

/-- An identity whose names are undelimited and which has tags: its series string reads back. -/
structure PlainIdentity (metric : String) (tags : Tags) : Prop where
  metric : Undelimited metric
  keys : ∀ t ∈ tags.toList, Undelimited t.key
  values : ∀ t ∈ tags.toList, Undelimited t.value
  nonempty : tags.toList ≠ []

/-- With undelimited extra characters, no name holds a delimiter. -/
theorem undelimited_of_nameChar {allowed : String} (ha : Undelimited allowed) {c : Char}
    (h : nameChar allowed c = true) : c ≠ ',' ∧ c ≠ '=' ∧ c ≠ '{' := by
  have hnot : ∀ d ∈ [',', '=', '{'], nameChar allowed d = false := by
    intro d hd
    have hd' : allowed.toList.contains d = false := by
      simp only [List.contains_eq_mem, decide_eq_false_iff_not]
      intro hm
      simp only [List.mem_cons, List.not_mem_nil, or_false] at hd
      rcases hd with rfl | rfl | rfl
      · exact (ha _ hm).1 rfl
      · exact (ha _ hm).2.1 rfl
      · exact (ha _ hm).2.2 rfl
    simp only [List.mem_cons, List.not_mem_nil, or_false] at hd
    rcases hd with rfl | rfl | rfl <;> simp only [nameChar, hd', Bool.and_false, Bool.or_false] <;>
      decide
  refine ⟨?_, ?_, ?_⟩ <;> rintro rfl <;> simp [hnot] at h

/-- A name that passes its check holds only characters a name may hold. -/
theorem nameChar_of_checkName {what s allowed : String} (h : checkName what s allowed = .ok ()) :
    ∀ c ∈ s.toList, nameChar allowed c = true := by
  unfold checkName at h
  split at h
  · cases h
  split at h
  · cases h
  · next hf =>
    intro c hc
    simpa using List.find?_eq_none.1 hf c hc

/-- Tags that pass their checks have names that pass theirs. -/
theorem checkName_of_checkTags {allowed : String} {seen : List String} {ts : List Tag}
    (h : checkTags allowed seen ts = .ok ()) : ∀ t ∈ ts,
      checkName ("tag name with value [" ++ t.value ++ "]") t.key allowed = .ok () ∧
        checkName ("tag value with key [" ++ t.key ++ "]") t.value allowed = .ok () := by
  induction ts generalizing seen with
  | nil => simp
  | cons t ts ih =>
    rcases hk : checkName ("tag name with value [" ++ t.value ++ "]") t.key allowed with e | ⟨⟩
    · simp [checkTags, hk, bind, Except.bind] at h
    rcases hv : checkName ("tag value with key [" ++ t.key ++ "]") t.value allowed with e | ⟨⟩
    · simp [checkTags, hk, hv, bind, Except.bind] at h
    simp only [checkTags, hk, hv, bind, Except.bind] at h
    split at h
    · cases h
    intro t' ht'
    rcases List.mem_cons.1 ht' with rfl | ht'
    · exact ⟨hk, hv⟩
    · exact ih h t' ht'

/-- An identity that passes the checks, with undelimited extra characters, has undelimited names
and at least one tag. -/
theorem plainIdentity_of_checkIdentity {metric : String} {tags : Tags} {maxTags : Nat}
    {allowed : String} (ha : Undelimited allowed)
    (h : checkIdentity metric tags maxTags allowed = .ok ()) : PlainIdentity metric tags := by
  unfold checkIdentity at h
  split at h
  · cases h
  split at h
  · cases h
  next hlen _ =>
  rcases hm : checkName "metric name" metric allowed with e | ⟨⟩
  · simp [hm, bind, Except.bind] at h
  simp only [hm, bind, Except.bind] at h
  have hts := checkName_of_checkTags h
  refine ⟨fun c hc => undelimited_of_nameChar ha (nameChar_of_checkName hm c hc),
    fun t ht c hc => undelimited_of_nameChar ha (nameChar_of_checkName (hts t ht).1 c hc),
    fun t ht c hc => undelimited_of_nameChar ha (nameChar_of_checkName (hts t ht).2 c hc), ?_⟩
  intro hnil
  exact hlen (by simp [Tags.length, hnil])

namespace Tag

/-- The text of a tag with an undelimited key reads back to the tag. -/
theorem text_injective {t t' : Tag} (h : Undelimited t.key) (h' : Undelimited t'.key)
    (he : t.text = t'.text) : t = t' := by
  have hl := congrArg String.toList he
  simp only [text, String.toList_append] at hl
  simp at hl
  obtain ⟨hk, hv⟩ := eq_of_append_cons_of_not_mem (fun hm => (h _ hm).2.1 rfl)
    (fun hm => (h' _ hm).2.1 rfl) hl
  cases t
  cases t'
  simp only [Tag.mk.injEq]
  exact ⟨String.toList_injective hk, String.toList_injective hv⟩

end Tag

/-- Lists whose images agree, under a map that tells their elements apart, agree. -/
theorem eq_of_map_eq {α β : Type} {f : α → β} {l₁ l₂ : List α}
    (hf : ∀ a ∈ l₁, ∀ b ∈ l₂, f a = f b → a = b) (h : l₁.map f = l₂.map f) : l₁ = l₂ := by
  induction l₁ generalizing l₂ with
  | nil => simpa [eq_comm] using h
  | cons a l₁ ih =>
    cases l₂ with
    | nil => simp at h
    | cons b l₂ =>
      simp only [List.map_cons, List.cons.injEq] at h
      rw [hf a List.mem_cons_self b List.mem_cons_self h.1,
        ih (fun a' ha' b' hb' => hf a' (List.mem_cons_of_mem _ ha') b' (List.mem_cons_of_mem _ hb'))
          h.2]

namespace Tags

theorem perm_sortedByKey (ts : Tags) : ts.sortedByKey.Perm ts.toList := List.mergeSort_perm _ _

/-- The texts of the tags of an identity with undelimited names, in key order: there is one at
least, and none holds a `,`. -/
theorem texts_of_plain {m : String} {ts : Tags} (h : PlainIdentity m ts) :
    (∀ l ∈ ts.sortedByKey.map (String.toList ∘ Tag.text), ',' ∉ l) ∧
      ts.sortedByKey.map (String.toList ∘ Tag.text) ≠ [] := by
  refine ⟨fun l hl => ?_, ?_⟩
  · obtain ⟨t, ht, rfl⟩ := List.mem_map.1 hl
    have ht' := (perm_sortedByKey ts).subset ht
    simp only [Function.comp_apply, Tag.text, String.toList_append]
    simp only [List.mem_append, not_or]
    exact ⟨⟨fun hc => (h.keys t ht' _ hc).1 rfl, by simp⟩, fun hc => (h.values t ht' _ hc).1 rfl⟩
  · intro hnil
    rw [List.map_eq_nil_iff] at hnil
    exact h.nonempty (List.Perm.eq_nil (hnil ▸ (perm_sortedByKey ts).symm))

/-- The series string of an identity with undelimited names reads back to its metric and its tags
in key order; the tags are the other's up to their order. -/
theorem seriesString_injective {m m' : String} {ts ts' : Tags} (h : PlainIdentity m ts)
    (h' : PlainIdentity m' ts') (he : ts.seriesString m = ts'.seriesString m') :
    m = m' ∧ ts.toList.Perm ts'.toList := by
  have hl := congrArg String.toList he
  simp [seriesString] at hl
  obtain ⟨hm, hb⟩ := eq_of_append_cons_of_not_mem (fun hc => (h.metric _ hc).2.2 rfl)
    (fun hc => (h'.metric _ hc).2.2 rfl) hl
  have htexts := congrArg (fun l => l.splitOn ',') ((List.append_left_inj ['}']).1 hb)
  obtain ⟨hc, hne⟩ := texts_of_plain h
  obtain ⟨hc', hne'⟩ := texts_of_plain h'
  simp only [List.splitOn_intercalate _ hc hne, List.splitOn_intercalate _ hc' hne'] at htexts
  have hsorted : ts.sortedByKey = ts'.sortedByKey := eq_of_map_eq (fun a ha b hb hab =>
    Tag.text_injective (h.keys a ((perm_sortedByKey ts).subset ha))
      (h'.keys b ((perm_sortedByKey ts').subset hb)) (String.toList_injective hab)) htexts
  exact ⟨String.toList_injective hm,
    (perm_sortedByKey ts).symm.trans (hsorted ▸ perm_sortedByKey ts')⟩

end Tags

/-! ## The row of an imported point -/

namespace Import

namespace Run

variable {r : Run}

/-- A line's point goes to the row of a checked identity with the line's series string, at the
point's base time; with undelimited extra characters that identity is the line's own up to tag
order. -/
theorem imported_point_row (h : r.Inv) {n : Nat} {p : DataPoint} {r₁ : Run} {w : Writer}
    (hw : r.writerFor n (p.tags.seriesString p.metric) p = (r₁, some w)) {db : Db}
    {pw : PendingWrite} (ha : r₁.db.addValue w p.timestamp p.value = (db, .ok pw))
    {req : WriteRequest} (hi : db.issued pw = some req) :
    w.tags.seriesString w.metric = p.tags.seriesString p.metric ∧
      checkIdentity w.metric w.tags db.rules.maxTags db.rules.allowed = .ok () ∧
      ∃ T, db.TemplateOf w.metric w.tags T ∧
        req.row = (db.withBaseTime T (db.baseTimeOf p.timestamp)).bytes ∧
        (checkIdentity p.metric p.tags db.rules.maxTags db.rules.allowed = .ok () →
          Undelimited db.rules.allowed → db.TemplateOf p.metric p.tags T) := by
  obtain ⟨h₁, -, hmem⟩ := h.writerFor hw
  have hwmem := hmem w rfl
  obtain ⟨ps, -, hcl⟩ := h₁.clients
  simp only [Run.clients] at hcl
  have hserves := hcl.writers w (List.mem_map.2 ⟨_, hwmem, rfl⟩)
  obtain ⟨hc, hpend⟩ := Db.addValue_continues hcl.sound p.timestamp p.value
    (fun hrow => (hserves hrow).1)
  rw [ha] at hc hpend
  have hsound : db.Sound := hcl.sound.congr hc.config hc.rules
  obtain ⟨row, ev, hpl, hrow, -⟩ := (hpend pw rfl).issued hsound hi
  obtain ⟨T, hres, htpl, rfl⟩ := hpl.template
  have hseries := h₁.series _ hwmem
  have hvalid : checkIdentity w.metric w.tags db.rules.maxTags db.rules.allowed = .ok () :=
    hc.rules ▸ h₁.valid _ hwmem
  refine ⟨hseries.symm, hvalid, T, htpl, hrow, fun hcp hund => ?_⟩
  -- the line's identity reads back from the series string it shares with the writer's
  obtain ⟨hm, hperm⟩ := Tags.seriesString_injective (plainIdentity_of_checkIdentity hund hcp)
    (plainIdentity_of_checkIdentity hund hvalid) hseries
  obtain ⟨mid, hmid, htags, -⟩ := db.rules.eq_template_of_buildTemplate htpl hres
  have hnw : db.ids.Names w.metric w.tags := ⟨by simp [hmid], htags⟩
  have hnp : db.ids.Names w.metric p.tags := ⟨by simp [hmid], fun t ht => htags t (hperm.subset ht)⟩
  rw [hm] at hcp ⊢
  unfold Db.TemplateOf
  rw [db.rules.buildTemplate_perm hnp hnw hperm hcp hvalid]
  exact htpl

end Run

/-- The database the tool builds over its fresh table under the default settings. -/
def importDb : Db :=
  (Db.build {} (({} : Store).createTable (Bytes.ofString ({} : Config).table) dataFamily) {}).toOption.get
    (by decide)

theorem build_importDb :
    Db.build {} (({} : Store).createTable (Bytes.ofString ({} : Config).table) dataFamily) {} =
      .ok importDb := rfl

theorem inv_importDb : ({ db := importDb } : Run).Inv :=
  Run.inv_start build_importDb (Db.takesWrites_of_created (by
    rw [(Db.build_parts build_importDb).1, Db.table, (Db.build_sound build_importDb).2.1]))

/-- A line of one point of `sys.cpu` on host `web01`. -/
def cpuLine : DataPoint := ⟨"sys.cpu", 1000, .integer 1, ⟨[⟨"host", "web01"⟩]⟩⟩

/-- The first line of an import goes to the row of its own series. -/
theorem cpu_line_row : ∃ (r₁ : Run) (w : Writer) (db : Db) (pw : PendingWrite) (req : WriteRequest),
    ({ db := importDb } : Run).Inv ∧
    ({ db := importDb } : Run).writerFor 1 (cpuLine.tags.seriesString cpuLine.metric) cpuLine =
      (r₁, some w) ∧
    r₁.db.addValue w cpuLine.timestamp cpuLine.value = (db, .ok pw) ∧ db.issued pw = some req ∧
    (w.tags.seriesString w.metric = cpuLine.tags.seriesString cpuLine.metric ∧
      checkIdentity w.metric w.tags db.rules.maxTags db.rules.allowed = .ok () ∧
      ∃ T, db.TemplateOf w.metric w.tags T ∧
        req.row = (db.withBaseTime T (db.baseTimeOf cpuLine.timestamp)).bytes ∧
        (checkIdentity cpuLine.metric cpuLine.tags db.rules.maxTags db.rules.allowed = .ok () →
          Undelimited db.rules.allowed → db.TemplateOf cpuLine.metric cpuLine.tags T)) := by
  have hs : (({ db := importDb } : Run).writerFor 1 (cpuLine.tags.seriesString cpuLine.metric)
      cpuLine).2.isSome = true := by decide +kernel
  set o := ({ db := importDb } : Run).writerFor 1 (cpuLine.tags.seriesString cpuLine.metric)
    cpuLine with ho
  have hw : o = (o.1, some (o.2.getD ⟨"", ⟨[]⟩, 0, false⟩)) := by
    obtain ⟨w, hw⟩ := Option.isSome_iff_exists.1 hs
    exact Prod.ext rfl (by simp [hw])
  have hadd : ((o.1.db.addValue (o.2.getD ⟨"", ⟨[]⟩, 0, false⟩) cpuLine.timestamp
      cpuLine.value).2.toOption.bind (o.1.db.addValue (o.2.getD ⟨"", ⟨[]⟩, 0, false⟩)
        cpuLine.timestamp cpuLine.value).1.issued).isSome = true := by
    decide +kernel
  rcases ha : o.1.db.addValue (o.2.getD ⟨"", ⟨[]⟩, 0, false⟩) cpuLine.timestamp cpuLine.value
    with ⟨db, _ | pw⟩
  · simp [ha, Except.toOption] at hadd
  simp only [ha, Except.toOption, Option.bind_some] at hadd
  obtain ⟨req, hi⟩ := Option.isSome_iff_exists.1 hadd
  exact ⟨_, _, db, pw, req, inv_importDb, hw, ha, hi, Run.imported_point_row inv_importDb hw ha hi⟩


/-! ## Two identities with one series string -/

namespace Run


/-- The writers after finding the writer of a series: those before, or those before and a new one
under the series string looked up. -/
theorem writers_writerFor (r : Run) (n : Nat) (s : String) (p : DataPoint) :
    (r.writerFor n s p).1.writers = r.writers ∨
      ∃ w, (r.writerFor n s p).1.writers = r.writers ++ [(s, w)] := by
  unfold Run.writerFor
  split
  · exact .inl rfl
  · dsimp only
    split
    · exact .inl rfl
    · exact .inr ⟨_, rfl⟩

theorem writers_settleNext {sched : Schedule} {r r' : Run} (h : r.settleNext sched = .ok r') :
    r'.writers = r.writers := by
  unfold settleNext at h
  split at h
  · cases h
    rfl
  · unfold settleWrite at h
    split at h
    · cases h
      rfl
    · split at h
      · cases h
        rfl
      · cases h

/-- Writing a point changes the writers only by finding the writer of its series. -/
theorem writers_writePoint {sched : Schedule} {r r' : Run} {n : Nat} {p : DataPoint}
    (h : r.writePoint sched n p = .ok r') :
    r'.writers = (r.writerFor n (p.tags.seriesString p.metric) p).1.writers := by
  unfold writePoint at h
  rcases hw : r.writerFor n (p.tags.seriesString p.metric) p with ⟨r₁, _ | w⟩ <;> rw [hw] at h
  · cases h
    rfl
  · dsimp only at h
    split at h
    · split at h
      · rw [writers_settleNext h]
      · cases h
        rfl
    · split at h
      · cases h
        rfl
      · cases h

/-- The output of an import that feeds and drains without an error. -/
theorem run_of_imported (sched : Schedule) (o : Options) (read : String → FileRead)
    {config : Config} {db : Db}
    {text : String} {r : Run} (hpath : o.path.isEmpty = false)
    (hconfig : loadConfig o read = .ok config)
    (hb : Db.build config (({} : Store).createTable (Bytes.ofString config.table) dataFamily) {} =
      .ok db)
    (hread : read o.path = .contents text)
    (himport : (({ db := db } : Run).feed sched 1 (fileLines text) >>= Run.drain sched) = .ok r) :
    run sched o read = ⟨0, ("config: " ++ o.debugText) :: r.finish.log.toList.map LogLine.text ++
      (if o.dump then dumpLines r.finish else []), []⟩ := by
  simp only [run, hpath, hconfig, hb, hread, himport, Bool.false_eq_true, if_false]

end Run

/-- The point of the line `m 1000 1 a=b c=d`. -/
def twoTagPoint : DataPoint := ⟨"m", 1000, .integer 1, ⟨[⟨"a", "b"⟩, ⟨"c", "d"⟩]⟩⟩

/-- The run after writing `twoTagPoint` first, with the series string its one writer is kept under
written out; the kernel does not sort the two tags of that string itself. -/
def afterTwoTagPoint : Run :=
  let r := (({ db := importDb } : Run).writePoint .budgeted 1 twoTagPoint).toOption.getD
    { db := importDb }
  { r with writers := [("m{a=b,c=d}", (r.writers.headD ("", ⟨"", ⟨[]⟩, 0, false⟩)).2)] }

theorem writePoint_twoTagPoint :
    ({ db := importDb } : Run).writePoint .budgeted 1 twoTagPoint = .ok afterTwoTagPoint := by
  have hok : (({ db := importDb } : Run).writePoint .budgeted 1 twoTagPoint).toBool = true := by
    decide +kernel
  rcases hw : ({ db := importDb } : Run).writePoint .budgeted 1 twoTagPoint with e | r
  · rw [hw] at hok
    cases hok
  have hlen : r.writers.length = 1 := by
    have h : ((({ db := importDb } : Run).writePoint .budgeted 1 twoTagPoint).toOption.map
        (fun r => r.writers.length)) = some 1 := by
      decide +kernel
    simpa [hw, Except.toOption] using h
  have hs : twoTagPoint.tags.seriesString twoTagPoint.metric = "m{a=b,c=d}" := by
    simp [twoTagPoint, Tags.seriesString, Tags.sortedByKey, List.mergeSort, Tag.text]
  rw [Run.writers_writePoint hw] at hlen
  rcases Run.writers_writerFor ({ db := importDb } : Run) 1
      (twoTagPoint.tags.seriesString twoTagPoint.metric) twoTagPoint with hws | ⟨w, hws⟩
  · rw [hws] at hlen
    simp at hlen
  rw [← Run.writers_writePoint hw, hs, List.nil_append] at hws
  unfold afterTwoTagPoint
  simp only [hw, Except.toOption, Option.getD_some, hws, List.headD_cons]
  rw [← hws]

/-- Importing `m 1000 1 a=b c=d` and then `m 1001 2 a=b,c=d` counts two points, no refusal and one
series. -/
theorem import_commaTagFile : ∃ r : Run,
    (({ db := importDb } : Run).feed .budgeted 1
      (fileLines "m 1000 1 a=b c=d\nm 1001 2 a=b,c=d\n") >>= Run.drain .budgeted) = .ok r ∧
      r.points = 2 ∧ r.rejected = 0 ∧ r.writers.length = 1 := by
  have hlines : fileLines "m 1000 1 a=b c=d\nm 1001 2 a=b,c=d\n" =
      [("m 1000 1 a=b c=d", true), ("m 1001 2 a=b,c=d", false)] := by
    have hsplit : "m 1000 1 a=b c=d\nm 1001 2 a=b,c=d\n".splitOn "\n" =
        ["m 1000 1 a=b c=d", "m 1001 2 a=b,c=d", ""] := by
      simp +decide [String.splitOn, String.splitOnAux]
    rw [fileLines, hsplit]
    decide +kernel
  have hfirst : ({ db := importDb } : Run).step .budgeted 1 "m 1000 1 a=b c=d" =
      .ok afterTwoTagPoint := by
    have hparse : parseImportLine "m 1000 1 a=b c=d" = .ok (some twoTagPoint) := by decide +kernel
    rw [Run.step, hparse]
    exact writePoint_twoTagPoint
  -- from there the kernel runs the second line and the drain
  have hrest : ((afterTwoTagPoint.step .budgeted 2 "m 1001 2 a=b,c=d" >>=
      Run.drain .budgeted).toOption.map
      (fun r => (r.points, r.rejected, r.writers.length))) = some (2, 0, 1) := by
    decide +kernel
  rw [hlines]
  simp only [Run.feed, if_true, Bool.false_eq_true, if_false, Nat.reduceAdd, hfirst]
  change ∃ r, ((afterTwoTagPoint.step .budgeted 2 "m 1001 2 a=b,c=d" >>= fun r => Except.ok r) >>=
    Run.drain .budgeted) = .ok r ∧ _
  rcases h₂ : afterTwoTagPoint.step .budgeted 2 "m 1001 2 a=b,c=d" with e | r₂
  · simp [h₂, bind, Except.bind, Except.toOption] at hrest
  rcases h₃ : r₂.drain .budgeted with e | r₃
  · simp [h₂, h₃, bind, Except.bind, Except.toOption] at hrest
  simp only [h₂, h₃, bind, Except.bind, Except.toOption, Option.map_some, Option.some.injEq,
    Prod.mk.injEq] at hrest
  exact ⟨r₃, h₃, hrest⟩

/-- The line `m 1001 2 a=b,c=d` has one tag, whose value holds `,` and `=`, and the checks refuse
it. Its series string is that of the earlier line `m 1000 1 a=b c=d`, so the import writes it
with the writer of that series and counts it as imported: two points, no refusal, one series. -/
theorem comma_tag_value_counted :
    parseImportLine "m 1001 2 a=b,c=d" = .ok (some ⟨"m", 1001, .integer 2, ⟨[⟨"a", "b,c=d"⟩]⟩⟩) ∧
      checkIdentity "m" ⟨[⟨"a", "b,c=d"⟩]⟩ importDb.rules.maxTags importDb.rules.allowed ≠
        .ok () ∧
      ∃ rows : Nat,
        LogLine.text ⟨.info, logTarget, "imported 2 points (0 rejected) into " ++
            toString rows ++ " rows of 1 series"⟩ ∈
          (run .budgeted { path := "import.txt", dump := true }
            (fun _ => .contents "m 1000 1 a=b c=d\nm 1001 2 a=b,c=d\n")).stdout := by
  refine ⟨by decide +kernel, by decide +kernel, ?_⟩
  obtain ⟨r, himport, hp, hrj, hws⟩ := import_commaTagFile
  obtain ⟨pre, rows, filtered, late, rollovers, unknown, hlog⟩ := r.finish_log
  rw [Run.run_of_imported .budgeted { path := "import.txt", dump := true }
    (fun _ => .contents "m 1000 1 a=b c=d\nm 1001 2 a=b,c=d\n") (by decide) rfl build_importDb rfl
    himport]
  refine ⟨rows, List.mem_cons_of_mem _ (List.mem_append_left _ ?_)⟩
  have h2 : toString 2 = "2" := rfl
  have h1 : toString 1 = "1" := rfl
  have h0 : toString 0 = "0" := rfl
  rw [hlog, hp, hrj, hws, h2, h1, h0]
  simp only [String.append_assoc, String.reduceAppend]
  simp

end Import

end SeriesIngest
