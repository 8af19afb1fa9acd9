import SeriesIngest.Proofs.Ids.Keeps
import SeriesIngest.Proofs.Write.Filling

/-!
# What every run of a writer keeps

A run of a writer changes the database in few ways. Ids are only ever added, so a template
whose metric had an id is built again unchanged. Sessions are only ever added, and a write
keeps each session filling the rows of its template (`Db.Filling`). So, whatever the calls and
the order in which pending writes are awaited:

* every session with a row fills the rows of a template that fits the key rules;
* the writer's session serves the writer's series (`Db.Serves`);
* every pending write holds to its point (`Db.PendingOk`): a request decided at once targets
  the row and column the handle would write the point to (`Db.Places`), a point handed to the
  handle has the handle's row and column, and a write waiting for the filter names a session
  that serves the point's series.

Main statements: `WriterRun.Reachable.inv`, the invariant of every run, and
`Db.PendingOk.issued`, that whatever request a pending write issues when it runs targets the
row and column the handle would write its point to.
-/

namespace SeriesIngest

namespace Db

/-- `db'` builds keys as `db` does: the same settings and key rules, and every id of `db`
kept. -/
structure Extends (db db' : Db) : Prop where
  config : db'.config = db.config
  rules : db'.rules = db.rules
  ids : db.ids.Keeps db'.ids

theorem Extends.refl (db : Db) : Extends db db := ⟨rfl, rfl, IdRegistry.Keeps.refl _⟩

theorem Extends.trans {db db' db'' : Db} (h₁ : Extends db db') (h₂ : Extends db' db'') :
    Extends db db'' :=
  ⟨h₂.config.trans h₁.config, h₂.rules.trans h₁.rules, h₁.ids.trans h₂.ids⟩

/-- The bookkeeping of a write builds keys as before. -/
theorem Frame.toExtends {db db' : Db} (h : Frame db db') : Extends db db' := by
  refine ⟨h.config, h.rules, ?_⟩
  rw [h.ids]
  exact IdRegistry.Keeps.refl _

/-- The bookkeeping of a write can be undone as far as keys go. -/
theorem Frame.back {db db' : Db} (h : Frame db db') : Extends db' db := by
  refine ⟨h.config.symm, h.rules.symm, ?_⟩
  rw [h.ids]
  exact IdRegistry.Keeps.refl _

/-- `T` is the template of a series, and building it gives no new ids. -/
def TemplateOf (db : Db) (metric : String) (tags : Tags) (T : RowKey) : Prop :=
  db.rules.buildTemplate db.ids metric tags = (db.ids, .ok T)

section Template

variable {db db' : Db} {metric : String} {tags : Tags} {T : RowKey}

/-- A template whose metric has an id stays the series' template. -/
theorem TemplateOf.of_extends (h : db.TemplateOf metric tags T) (hres : T.metricResolved = true)
    (he : Extends db db') : db'.TemplateOf metric tags T := by
  unfold TemplateOf
  rw [he.rules]
  exact db.rules.buildTemplate_stable h hres he.ids

/-- The template of a series fits the key rules. -/
theorem TemplateOf.fits (hd : db.Sound) (h : db.TemplateOf metric tags T) : db.rules.Fits T :=
  KeyRules.buildTemplate_fits hd.salt h

/-- The handle builds the template of a series without change. -/
theorem TemplateOf.buildTemplate (h : db.TemplateOf metric tags T) :
    db.buildTemplate metric tags = (db, .ok T) := by
  unfold TemplateOf at h
  simp only [Db.buildTemplate, h]

/-- A template built with ids of its own is the series' template afterwards. -/
theorem templateOf_buildTemplate (h : db.buildTemplate metric tags = (db', .ok T))
    (hres : T.metricResolved = true) : db'.TemplateOf metric tags T := by
  simp only [Db.buildTemplate, Prod.mk.injEq] at h
  obtain ⟨rfl, hT⟩ := h
  exact db.rules.buildTemplate_stable (Prod.ext rfl hT) hres (IdRegistry.Keeps.refl _)

/-- A template the handle builds fits the key rules. -/
theorem fits_buildTemplate (hd : db.Sound) (h : db.buildTemplate metric tags = (db', .ok T)) :
    db'.rules.Fits T := by
  simp only [Db.buildTemplate, Prod.mk.injEq] at h
  obtain ⟨rfl, hT⟩ := h
  exact KeyRules.buildTemplate_fits hd.salt (Prod.ext rfl hT)

end Template

/-- The database writes the point `p` to the row `row` at the column `q`, with the encoded value
`ev`: as the handle writes it, the template of its series moved to its base time and the column
name against that base time. Only a metric with an id is written. -/
structure Places (db : Db) (p : AddedPoint) (row : RowKey) (q : Qualifier) (ev : EncodedValue) :
    Prop where
  encoded : encodeValue p.value = .ok ev
  checked : checkTimestamp p.ts = .ok ()
  template : ∃ T, T.metricResolved = true ∧ db.TemplateOf p.metric p.tags T ∧
    row = db.withBaseTime T (db.baseTimeOf p.ts)
  qualifier : buildQualifier p.ts (db.baseTimeOf p.ts) ev.flags = .ok q

section Places

variable {db db' : Db} {p : AddedPoint} {row : RowKey} {q : Qualifier} {ev : EncodedValue}

theorem Places.of_extends (h : db.Places p row q ev) (he : Extends db db') :
    db'.Places p row q ev := by
  obtain ⟨T, hres, htpl, hrow⟩ := h.template
  have hb : db'.baseTimeOf p.ts = db.baseTimeOf p.ts := by simp [baseTimeOf, he.config]
  refine ⟨h.encoded, h.checked, ⟨T, hres, htpl.of_extends hres he, ?_⟩, hb ▸ h.qualifier⟩
  simp [withBaseTime, he.rules, hb, hrow]

/-- The handle, asked to add the point, adds it at that row and column without changing the
database. -/
theorem Places.addPoint (hd : db.Sound) (h : db.Places p row q ev) :
    db.addPoint p.metric p.ts p.value p.tags = (db, .ok (.point p.metric p.tags p.ts ev row q)) := by
  obtain ⟨T, -, htpl, rfl⟩ := h.template
  have hq : buildQualifier p.ts (db.withBaseTime T (db.baseTimeOf p.ts)).baseTime ev.flags =
      .ok q := by
    rw [hd.baseTime_withBaseTime (htpl.fits hd)]
    exact h.qualifier
  simp only [Db.addPoint, h.encoded, addEncodedPoint, h.checked, htpl.buildTemplate, hq]

end Places

/-- The session `sid` serves the series `metric`, `tags`: it fills the rows of a template that
fits the key rules and that, once its metric has an id, is the series' template. -/
def Serves (db : Db) (sid : Nat) (metric : String) (tags : Tags) : Prop :=
  ∃ T, db.rules.Fits T ∧ (T.metricResolved = true → db.TemplateOf metric tags T) ∧
    db.Filling T (db.session sid)

/-- What a pending write holds to, for the point it was made for: a request decided at once
places the point; a point handed to the handle is placed by its row and column once its metric
has an id; a write waiting for the filter has the point's checked time and encoded value, and
names a session that serves the point's series. -/
def PendingOk (db : Db) (p : AddedPoint) : PendingWrite → Prop
  | .failed _ => True
  | .issue r => ∃ row ev, db.Places p row r.qualifier ev ∧ r.row = row.bytes ∧ r.value = ev.bytes
  | .point _ _ _ ev row q => row.metricResolved = true → db.Places p row q ev
  | .admitted sid _ _ ts ev _ =>
    ts = p.ts ∧ checkTimestamp ts = .ok () ∧ encodeValue p.value = .ok ev ∧
      db.Serves sid p.metric p.tags

/-- What a pending write holds to carries over to a database that builds keys alike and keeps
every session serving its series. -/
theorem PendingOk.transport {db db' : Db} {p : AddedPoint} {pw : PendingWrite}
    (h : db.PendingOk p pw) (he : Extends db db')
    (hs : ∀ sid metric tags, db.Serves sid metric tags → db'.Serves sid metric tags) :
    db'.PendingOk p pw := by
  cases pw with
  | failed e => trivial
  | issue r =>
    obtain ⟨row, ev, hpl, hrow, hval⟩ := h
    exact ⟨row, ev, hpl.of_extends he, hrow, hval⟩
  | point metric tags ts ev row q => exact fun hres => (h hres).of_extends he
  | admitted sid metric tags ts ev durable =>
    obtain ⟨hts, hck, henc, hserve⟩ := h
    exact ⟨hts, hck, henc, hs _ _ _ hserve⟩

/-- `db'` continues `db`: it builds keys alike and keeps every id, it opens no session that had
no row, and every session filling the rows of a template that fits the rules goes on doing
so. -/
structure Continues (db db' : Db) : Prop extends Extends db db' where
  rows : ∀ sid, (db'.session sid).row.isSome → (db.session sid).row.isSome
  filling : ∀ sid T, db.rules.Fits T → db.Filling T (db.session sid) →
    db.Filling T (db'.session sid)

section Continues

variable {db db' db'' : Db}

theorem Continues.refl (db : Db) : Continues db db :=
  ⟨Extends.refl db, fun _ h => h, fun _ _ _ h => h⟩

theorem Continues.trans (h₁ : Continues db db') (h₂ : Continues db' db'') : Continues db db'' where
  toExtends := h₁.toExtends.trans h₂.toExtends
  rows sid h := h₁.rows sid (h₂.rows sid h)
  filling sid T hT h := by
    have h' := (h₂.filling sid T (h₁.rules ▸ hT)
      ((h₁.filling sid T hT h).congr h₁.config h₁.rules))
    exact h'.congr h₁.config.symm h₁.rules.symm

/-- A change that leaves the sessions alone continues the database. -/
theorem continues_of_sessions (he : Extends db db') (hs : db'.sessions = db.sessions) :
    Continues db db' := by
  have hsess : ∀ sid, db'.session sid = db.session sid := fun sid => by simp [session, hs]
  exact ⟨he, fun sid h => hsess sid ▸ h, fun sid _ _ h => hsess sid ▸ h⟩

/-- A session keeps serving its series. -/
theorem Serves.of_continues {sid : Nat} {metric : String} {tags : Tags}
    (h : db.Serves sid metric tags) (hc : Continues db db') : db'.Serves sid metric tags := by
  obtain ⟨T, hT, htpl, hfill⟩ := h
  exact ⟨T, hc.rules ▸ hT, fun hres => (htpl hres).of_extends hres hc.toExtends,
    (hc.filling sid T hT hfill).congr hc.config hc.rules⟩

theorem PendingOk.of_continues {p : AddedPoint} {pw : PendingWrite} (h : db.PendingOk p pw)
    (hc : Continues db db') : db'.PendingOk p pw :=
  h.transport hc.toExtends fun _ _ _ hs => hs.of_continues hc

/-- Building a template adds ids only. -/
theorem continues_buildTemplate (db : Db) (metric : String) (tags : Tags) :
    Continues db (db.buildTemplate metric tags).1 :=
  continues_of_sessions ⟨rfl, rfl, db.rules.buildTemplate_keeps db.ids metric tags⟩ rfl

/-- Issuing a request changes the store and the counters only. -/
theorem continues_dispatch (db : Db) (r : WriteRequest) : Continues db (db.dispatch r).1 := by
  refine continues_of_sessions ?_ (sessions_dispatch db r)
  unfold dispatch
  dsimp only
  split
  · exact Extends.refl db
  · exact ⟨rfl, rfl, IdRegistry.Keeps.refl _⟩

/-- Counting changes the counters only. -/
theorem continues_stats (db : Db) (stats : WriteStats) : Continues db { db with stats := stats } :=
  continues_of_sessions ⟨rfl, rfl, IdRegistry.Keeps.refl _⟩ rfl

/-- A write to a session, at a checked time, continues the database. -/
theorem continues_writeAllowed (hd : db.Sound) (sid : Nat) (metric : String) {ts : Int}
    (value : EncodedValue) (hts : checkTimestamp ts = .ok ()) :
    Continues db (db.writeAllowed sid metric ts value).1 where
  toExtends := (frame_writeAllowed db sid metric ts value).toExtends
  rows sid' h := by
    by_cases hsid : sid = sid'
    · subst hsid
      rcases writeAllowed_cases db sid metric ts value with ⟨hrow, -, -⟩ | ⟨hs, -⟩
      · exact hrow
      · simpa [session, hs] using h
    · rwa [session_writeAllowed_ne hsid] at h
  filling sid' T hT h := by
    by_cases hsid : sid = sid'
    · subst hsid
      exact writeAllowed_filling hd hT hts h
    · rwa [session_writeAllowed_ne hsid]

/-- Running a pending write continues the database. -/
theorem continues_settle (hd : db.Sound) {p : AddedPoint} {pw : PendingWrite}
    (hp : db.PendingOk p pw) : Continues db (db.settle pw).1 := by
  have hconsult : ∀ metric ts value tags, Continues db (db.consult metric ts value tags).1 :=
    fun metric ts value tags => continues_of_sessions
      (frame_consult db metric ts value tags).toExtends (sessions_consult _ _ _ _ _)
  cases pw with
  | failed e => exact Continues.refl db
  | issue r => exact continues_dispatch db r
  | point metric tags ts value row q =>
    have h₁ := hconsult metric ts value tags
    dsimp only [settle]
    rcases hc : db.consult metric ts value tags with ⟨db₁, e | _ | _⟩ <;> rw [hc] at h₁
    · exact h₁
    · exact h₁
    · dsimp only
      split
      · exact h₁.trans (continues_of_sessions (frame_rejectMetric db₁ metric).toExtends rfl)
      · exact h₁.trans (continues_dispatch db₁ _)
  | admitted sid metric tags ts value durable =>
    obtain ⟨-, hts, -, -⟩ := hp
    have h₁ := hconsult metric ts value tags
    dsimp only [settle]
    rcases hc : db.consult metric ts value tags with ⟨db₁, e | _ | _⟩ <;> rw [hc] at h₁
    · exact h₁
    · exact h₁
    · have h₂ := h₁.trans
        (continues_writeAllowed (hd.congr h₁.config h₁.rules) sid metric value hts)
      dsimp only
      rcases hw : db₁.writeAllowed sid metric ts value with ⟨db₂, e | _⟩ <;> rw [hw] at h₂
      · exact h₂
      · exact h₂.trans (continues_dispatch db₂ _)

end Continues

section Add

variable {db : Db} {w : Writer} {ts : Int} {value : DataValue} {ev : EncodedValue}

/-- The handle adds a point of its own: the ids of its series, at most, are added, and the
pending write places the point once its metric has an id. -/
theorem addEncodedPoint_continues (hd : db.Sound) (p : AddedPoint)
    (henc : encodeValue p.value = .ok ev) :
    Continues db (db.addEncodedPoint p.metric p.ts ev p.tags).1 ∧
      ∀ pw, (db.addEncodedPoint p.metric p.ts ev p.tags).2 = .ok pw →
        (db.addEncodedPoint p.metric p.ts ev p.tags).1.PendingOk p pw := by
  unfold addEncodedPoint
  split
  · exact ⟨Continues.refl db, fun _ h => by cases h⟩
  · next hts =>
    have h₁ := continues_buildTemplate db p.metric p.tags
    rcases hb : db.buildTemplate p.metric p.tags with ⟨db₁, e | T⟩ <;> rw [hb] at h₁
    · exact ⟨h₁, fun _ h => by cases h⟩
    · have hd₁ : db₁.Sound := hd.congr h₁.config h₁.rules
      have hT := fits_buildTemplate hd hb
      dsimp only
      split
      · exact ⟨h₁, fun _ h => by cases h⟩
      · next q hq =>
        refine ⟨h₁, fun pw h => ?_⟩
        cases h
        intro hres
        refine ⟨henc, hts, ⟨T, hres, templateOf_buildTemplate hb hres, rfl⟩, ?_⟩
        rwa [hd₁.baseTime_withBaseTime hT] at hq

/-- Placing a point after the watermark: at once without an active filter, deciding the request,
or later with one, naming the writer's session. -/
theorem placeNow_continues (hd : db.Sound) (hserve : db.Serves w.session w.metric w.tags)
    (hts : checkTimestamp ts = .ok ()) (henc : encodeValue value = .ok ev) :
    Continues db (db.placeNow w ts ev).1 ∧
      ∀ pw, (db.placeNow w ts ev).2 = .ok pw →
        (db.placeNow w ts ev).1.PendingOk ⟨w.metric, w.tags, ts, value⟩ pw := by
  unfold placeNow
  dsimp only
  split
  · have hc := continues_writeAllowed hd w.session w.metric ev hts
    rcases hw : db.writeAllowed w.session w.metric ts ev with ⟨db₁, e | ⟨row, q⟩⟩
    · refine ⟨by simpa [hw] using hc, fun pw h => ?_⟩
      cases h
      trivial
    · refine ⟨by simpa [hw] using hc, fun pw h => ?_⟩
      cases h
      obtain ⟨T, hT, htpl, hfill⟩ := hserve
      obtain ⟨hres, rfl, hq⟩ := writeAllowed_request hd hT hts hfill (by rw [hw])
      have he : Extends db db₁ := by simpa [hw] using hc.toExtends
      exact ⟨_, ev, (Places.mk henc hts ⟨T, hres, htpl hres, rfl⟩ hq).of_extends he, rfl, rfl⟩
  · exact ⟨Continues.refl db, fun pw h => by cases h; exact ⟨rfl, hts, henc, hserve⟩⟩

/-- Adding a value to a writer whose session serves its series, if it has a row. -/
theorem addValue_continues (hd : db.Sound) (ts : Int) (value : DataValue)
    (hw : (db.session w.session).row.isSome → db.Serves w.session w.metric w.tags) :
    Continues db (db.addValue w ts value).1 ∧
      ∀ pw, (db.addValue w ts value).2 = .ok pw →
        (db.addValue w ts value).1.PendingOk ⟨w.metric, w.tags, ts, value⟩ pw := by
  unfold addValue
  split
  · exact ⟨Continues.refl db, fun _ h => by cases h⟩
  · next ev henc =>
    unfold addEncoded
    dsimp only
    split
    · exact ⟨Continues.refl db, fun _ h => by cases h⟩
    · next hrow =>
      have hserve := hw (Option.ne_none_iff_isSome.1 (by simpa using hrow))
      split
      · exact ⟨Continues.refl db, fun _ h => by cases h⟩
      · next hts =>
        split
        · split
          · split
            · have h₁ := continues_stats db
                { db.stats with outOfOrderDelegated := db.stats.outOfOrderDelegated + 1 }
              obtain ⟨h₂, hpend⟩ := addEncodedPoint_continues (hd.congr h₁.config h₁.rules)
                ⟨w.metric, w.tags, ts, value⟩ henc
              exact ⟨h₁.trans h₂, hpend⟩
            · exact ⟨Continues.refl db, fun _ h => by cases h⟩
          · exact placeNow_continues hd hserve hts henc
        · exact placeNow_continues hd hserve hts henc

end Add

end Db

namespace WriterRun

/-- What every run keeps: the database is sound; every session with a row fills the rows of a
template that fits the key rules; the writer's session, once it has a row, serves the writer's
series; and every pending write holds to its point. -/
structure Inv (r : WriterRun) : Prop where
  sound : r.db.Sound
  sessions : ∀ sid, (r.db.session sid).row.isSome →
    ∃ T, r.db.rules.Fits T ∧ r.db.Filling T (r.db.session sid)
  writer : (r.db.session r.writer.session).row.isSome →
    r.db.Serves r.writer.session r.writer.metric r.writer.tags
  pending : ∀ e ∈ r.pending, r.db.PendingOk e.1 e.2

section Inv

variable {r : WriterRun}

/-- A database that continues the run's keeps its invariant. -/
theorem Inv.of_continues (h : r.Inv) {db : Db} (hc : Db.Continues r.db db) :
    Inv { r with db := db } where
  sound := h.sound.congr hc.config hc.rules
  sessions sid hrow := by
    obtain ⟨T, hT, hfill⟩ := h.sessions sid (hc.rows sid hrow)
    exact ⟨T, hc.rules ▸ hT, (hc.filling sid T hT hfill).congr hc.config hc.rules⟩
  writer hrow := (h.writer (hc.rows _ hrow)).of_continues hc
  pending e he := (h.pending e he).of_continues hc

/-- A new writer of a built database keeps the invariant. -/
theorem inv_start {config : Config} {store : Store} {parts : DbParts} {db : Db}
    (h : Db.build config store parts = .ok db) : (start db).Inv := by
  obtain ⟨hd, -, hs⟩ := Db.build_sound h
  have hnone : ∀ sid, ((start db).db.session sid).row = none := by
    intro sid
    simp only [start, Db.newWriter, hs, Db.session, Array.getD]
    split
    · next hlt =>
      simp only [List.push_toArray, List.nil_append, List.size_toArray, List.length_singleton,
        Nat.lt_one_iff] at hlt
      subst hlt
      rfl
    · rfl
  exact ⟨hd.congr rfl rfl, fun sid h => by simp [hnone] at h, fun h => by simp [hnone] at h,
    fun _ h => by cases h⟩

/-- Setting the series keeps the invariant: a template that is refused adds ids only, and a new
session of the series' template serves it from the start. -/
theorem inv_setSeries (h : r.Inv) (metric : String) (tags : Tags) :
    (r.step (.setSeries metric tags)).Inv := by
  have hc := Db.continues_buildTemplate r.db metric tags
  simp only [step, Db.setSeries]
  rcases hb : r.db.buildTemplate metric tags with ⟨db₁, e | T⟩
  · simpa [hb] using h.of_continues (by simpa [hb] using hc)
  · have h₁ : Db.Continues r.db db₁ := by simpa [hb] using hc
    have hd₁ : db₁.Sound := h.sound.congr h₁.config h₁.rules
    have hT := Db.fits_buildTemplate h.sound hb
    have h₁' := h.of_continues h₁
    dsimp only
    set s₀ := Session.start (some T) db₁.window (db₁.session r.writer.session).watermark
    set db₂ : Db := { db₁ with sessions := db₁.sessions.push s₀ }
    have hpush : ∀ sid, db₂.session sid = if sid = db₁.sessions.size then s₀ else db₁.session sid :=
      Db.session_push db₁ s₀
    have hold : ∀ sid, sid ≠ db₁.sessions.size → db₂.session sid = db₁.session sid := by
      intro sid hsid
      rw [hpush, if_neg hsid]
    have hnew : db₂.session db₁.sessions.size = s₀ := by
      rw [hpush, if_pos rfl]
    have he : Db.Extends db₁ db₂ := ⟨rfl, rfl, IdRegistry.Keeps.refl _⟩
    have hserves : ∀ sid metric tags, db₁.Serves sid metric tags → db₂.Serves sid metric tags := by
      rintro sid metric tags ⟨T', hT', htpl, hfill⟩
      refine ⟨T', hT', fun hres => (htpl hres).of_extends hres he, ?_⟩
      rw [hold sid (Nat.ne_of_lt hfill.lt_size)]
      exact hfill.congr rfl rfl
    refine ⟨hd₁.congr rfl rfl, fun sid hrow => ?_, fun _ => ?_, fun e he' => ?_⟩
    · by_cases hsid : sid = db₁.sessions.size
      · rw [hsid, hnew]
        exact ⟨T, hT, Db.filling_start _ T _⟩
      · rw [hold sid hsid] at hrow ⊢
        obtain ⟨T', hT', hfill⟩ := h₁'.sessions sid hrow
        exact ⟨T', hT', hfill.congr rfl rfl⟩
    · refine ⟨T, hT, fun hres => (Db.templateOf_buildTemplate hb hres).of_extends hres he, ?_⟩
      show db₂.Filling T (db₂.session db₁.sessions.size)
      rw [hnew]
      exact Db.filling_start _ T _
    · exact (h₁'.pending e he').transport he hserves

/-- Adding a point keeps the invariant, and the pending write it returns holds to the point. -/
theorem inv_add (h : r.Inv) (ts : Int) (value : DataValue) : (r.step (.add ts value)).Inv := by
  obtain ⟨hc, hpend⟩ := Db.addValue_continues h.sound ts value h.writer
  simp only [step]
  rcases ha : r.db.addValue r.writer ts value with ⟨db₁, e | pw⟩
  · simpa [ha] using h.of_continues (by simpa [ha] using hc)
  · have hc₁ : Db.Continues r.db db₁ := by simpa [ha] using hc
    have h₁ := h.of_continues hc₁
    have hp := hpend pw (by rw [ha])
    rw [ha] at hp
    refine ⟨h₁.sound, h₁.sessions, h₁.writer, fun e he => ?_⟩
    rcases List.mem_append.1 he with he | he
    · exact h₁.pending e he
    · rw [List.mem_singleton.1 he]
      exact hp

/-- Awaiting a pending write keeps the invariant. -/
theorem inv_await (h : r.Inv) (i : Nat) : (r.step (.await i)).Inv := by
  simp only [step]
  split
  · next p pw hi =>
    have hp : r.db.PendingOk p pw := h.pending (p, pw) (List.mem_of_getElem? hi)
    have h₁ := h.of_continues (Db.continues_settle h.sound hp)
    exact ⟨h₁.sound, h₁.sessions, h₁.writer,
      fun e he => h₁.pending e (List.mem_of_mem_eraseIdx he)⟩
  · exact h

/-- The writer's mode is no part of the invariant. -/
theorem Inv.withBatchImport (h : r.Inv) (on : Bool) :
    Inv { r with writer := { r.writer with batchImport := on } } :=
  ⟨h.sound, h.sessions, h.writer, h.pending⟩

/-- Switching batch import keeps the invariant: it changes the store's flush interval and the
writer's mode only. -/
theorem inv_setBatchImport (h : r.Inv) (on : Bool) : (r.step (.setBatchImport on)).Inv := by
  have hstore : ∀ ms : UInt16, Db.Continues r.db (r.db.setBufferingTime ms) :=
    fun _ => Db.continues_of_sessions ⟨rfl, rfl, IdRegistry.Keeps.refl _⟩ rfl
  simp only [step, Db.setBatchImport]
  split
  · exact h
  · split
    · split
      · exact (h.of_continues (hstore _)).withBatchImport on
      · exact h.withBatchImport on
    · split
      · exact (h.of_continues (hstore _)).withBatchImport on
      · exact h.withBatchImport on

/-- Every call keeps the invariant. -/
theorem Inv.step (h : r.Inv) (c : WriterCall) : (r.step c).Inv := by
  cases c with
  | setSeries metric tags => exact inv_setSeries h metric tags
  | add ts value => exact inv_add h ts value
  | setBatchImport on => exact inv_setBatchImport h on
  | setBufferingTime ms =>
    exact h.of_continues (Db.continues_of_sessions ⟨rfl, rfl, IdRegistry.Keeps.refl _⟩ rfl)
  | await i => exact inv_await h i
  | answer verdict =>
    exact h.of_continues (Db.continues_of_sessions ⟨rfl, rfl, IdRegistry.Keeps.refl _⟩ rfl)

/-- Every run keeps the invariant. -/
theorem Reachable.inv (h : r.Reachable) : r.Inv := by
  induction h with
  | start hb => exact inv_start hb
  | step c _ ih => exact ih.step c

/-- A late point whose row's metric has an id finds its session ready once the watermark is raised
and the row opened or rolled, in every database in frame with the run's and with its sessions. -/
theorem Inv.ready (h : r.Inv) {db : Db} (hf : Db.Frame r.db db) (hs : db.sessions = r.db.sessions)
    {sid : Nat} {ts : Int} (hts : Db.checkTimestamp ts = .ok ()) {row : RowKey}
    (hrow : (db.session sid).row = some row) (hres : row.metricResolved = true)
    (hlate : Db.notAfter (db.session sid).watermark (Time.toMillis ts) = false) :
    ∃ T, db.Sound ∧ db.rules.Fits T ∧ T.metricResolved = true ∧
      db.Ready T ts ((db.raiseAndRoll sid ts).session sid) := by
  have hd : db.Sound := h.sound.congr hf.config hf.rules
  have hsess : db.session sid = r.db.session sid := by simp [Db.session, hs]
  -- the session fills the rows of a template, whose metric has an id as the row's has
  obtain ⟨T, hT, hfill⟩ := h.sessions sid (by rw [← hsess, hrow]; rfl)
  rw [← hsess] at hfill
  have hfill' := hfill.congr hf.config hf.rules
  have hT' : db.rules.Fits T := hf.rules ▸ hT
  have hTres : T.metricResolved = true := (hfill'.metricResolved_row hrow).symm.trans hres
  exact ⟨T, hd, hT', hTres, hfill'.ready hd hT' hts hlate⟩

end Inv

end WriterRun

namespace Db

/-- Whatever request a pending write issues when it runs places its point: the row is the
template of the point's series moved to the point's base time, the column name is built against
that base time, and the value is the point's encoded value. -/
theorem PendingOk.issued {db : Db} (hd : db.Sound) {p : AddedPoint} {pw : PendingWrite}
    {r : WriteRequest} (h : db.PendingOk p pw) (hr : db.issued pw = some r) :
    ∃ row ev, db.Places p row r.qualifier ev ∧ r.row = row.bytes ∧ r.value = ev.bytes := by
  cases pw with
  | failed e => cases hr
  | issue r' =>
    cases hr
    exact h
  | point metric tags ts value row q =>
    simp only [Db.issued] at hr
    split at hr
    · split at hr
      · next hres =>
        cases hr
        exact ⟨row, value, h hres, rfl, rfl⟩
      · cases hr
    · cases hr
  | admitted sid metric tags ts value durable =>
    obtain ⟨rfl, hts, henc, hserve⟩ := h
    simp only [Db.issued] at hr
    split at hr
    · next db₁ hc =>
      have hf : Frame db db₁ := by simpa [hc] using frame_consult db metric p.ts value tags
      have hserve₁ := hserve.of_continues
        (continues_of_sessions hf.toExtends (by simpa [hc] using sessions_consult db metric p.ts value tags))
      obtain ⟨T, hT, htpl, hfill⟩ := hserve₁
      split at hr
      · next row q hw =>
        cases hr
        obtain ⟨hres, rfl, hq⟩ := writeAllowed_request (hd.congr hf.config hf.rules) hT hts hfill
          (by rw [hw])
        exact ⟨_, value, (Places.mk henc hts ⟨T, hres, htpl hres, rfl⟩ hq).of_extends hf.back,
          rfl, rfl⟩
      · cases hr
    · cases hr

end Db

end SeriesIngest
