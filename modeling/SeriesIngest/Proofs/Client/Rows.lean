import SeriesIngest.Proofs.Client.Atomicity

/-!
# What a call does to the rows

The row of a session, its buffer, the count of rollovers and the compaction queue change only when
a session accepts a point in order: a writer's point placed at once, with the filter off, or a
point that waited for the filter, placed by its session when its write is awaited
(`ClientRun.acceptedBy`, `ClientRun.step_rows`). Every other call leaves the sessions there are as
they were, and may add new ones, not yet opened and with empty buffers.

The in-order path does one of four things to the session it runs on
(`Db.acceptInOrder_of_unresolved`, `_of_closed`, `_of_near`, `_of_far`): for a metric without an
id it raises the watermark only; otherwise it opens the row at the point's base time, or keeps the
row, or rolls it over, and buffers the point. Only the rollover counts, empties the buffer first,
and queues the row it leaves for compaction with that row's base time.
-/

namespace SeriesIngest

namespace Db

section Accept

variable {db : Db} {sid : Nat} {ts : Int} {k : RowKey} {q : Qualifier}

/-- A metric without an id: the watermark is raised, and the point refused. -/
theorem acceptInOrder_of_unresolved (metric : String) (value : EncodedValue)
    (hsid : sid < db.sessions.size)
    (hrow : (db.session sid).row = some k) (hres : k.metricResolved = false) :
    let db' := (db.acceptInOrder sid metric ts value).1
    db'.session sid = { db.session sid with watermark := some (Time.toMillis ts) } ∧
      db'.stats.rollovers = db.stats.rollovers ∧ db'.compaction = db.compaction := by
  simp only [acceptInOrder, hrow, hres, Bool.not_false, if_true, rejectMetric]
  exact ⟨session_setSession_self hsid _, rfl, rfl⟩

/-- The first point of a row opens it at the point's base time, without a rollover. -/
theorem acceptInOrder_of_closed (metric : String) (value : EncodedValue)
    (hsid : sid < db.sessions.size)
    (hrow : (db.session sid).row = some k) (hres : k.metricResolved = true)
    (ho : (db.session sid).opened = false)
    (hq : buildQualifier ts (db.withBaseTime k (db.baseTimeOf ts)).baseTime value.flags = .ok q)
    (happ : (((db.raiseAndRoll sid ts).session sid).buffer.append q value.raw).2 = .ok ()) :
    let db' := (db.acceptInOrder sid metric ts value).1
    db'.session sid = { db.session sid with
        watermark := some (Time.toMillis ts)
        row := some (db.withBaseTime k (db.baseTimeOf ts))
        opened := true
        buffer := ((db.session sid).buffer.append q value.raw).1 } ∧
      db'.stats.rollovers = db.stats.rollovers ∧ db'.compaction = db.compaction := by
  set s₁ : Session := { db.session sid with watermark := some (Time.toMillis ts) }
  have hraised : (db.setSession sid s₁).session sid = s₁ := session_setSession_self hsid s₁
  have hroll : db.raiseAndRoll sid ts = (db.setSession sid s₁).setSession sid
      { s₁ with row := some (db.withBaseTime k (db.baseTimeOf ts)), opened := true } := by
    rw [raiseAndRoll, rollIfNeeded_of_closed (by rw [hraised]; exact hrow)
      (by rw [hraised]; exact ho), hraised]
    rfl
  rw [hroll, session_setSession_self (by simpa using hsid)] at happ
  have happ' : ((db.session sid).buffer.append q value.raw).2 = .ok () := happ
  rw [acceptInOrder_of_resolved hrow hres, hroll]
  simp only [session_setSession_self, size_setSession, hsid, Option.getD_some, hq]
  rcases hb : (db.session sid).buffer.append q value.raw with ⟨b, e | u⟩
  · rw [hb] at happ'
    cases happ'
  · cases u
    simp only [session_setSession_self, size_setSession, hsid]
    exact ⟨rfl, rfl, rfl⟩

/-- A point less than a window past the row's base time is buffered into the row. -/
theorem acceptInOrder_of_near (metric : String) (value : EncodedValue)
    (hsid : sid < db.sessions.size)
    (hrow : (db.session sid).row = some k) (hres : k.metricResolved = true)
    (ho : (db.session sid).opened = true)
    (hnear : ((db.baseTimeOf ts).toNat : Int) - k.baseTime.toNat < db.window)
    (hq : buildQualifier ts k.baseTime value.flags = .ok q)
    (happ : (((db.raiseAndRoll sid ts).session sid).buffer.append q value.raw).2 = .ok ()) :
    let db' := (db.acceptInOrder sid metric ts value).1
    db'.session sid = { db.session sid with
        watermark := some (Time.toMillis ts)
        buffer := ((db.session sid).buffer.append q value.raw).1 } ∧
      db'.stats.rollovers = db.stats.rollovers ∧ db'.compaction = db.compaction := by
  set s₁ : Session := { db.session sid with watermark := some (Time.toMillis ts) }
  have hraised : (db.setSession sid s₁).session sid = s₁ := session_setSession_self hsid s₁
  have hroll : db.raiseAndRoll sid ts = db.setSession sid s₁ := by
    rw [raiseAndRoll, rollIfNeeded_of_near (by rw [hraised]; exact hrow) (by rw [hraised]; exact ho)]
    exact hnear
  have heq : (db.acceptInOrder sid metric ts value).1 =
      (db.setSession sid s₁).setSession sid { s₁ with buffer := (s₁.buffer.append q value.raw).1 } := by
    have hrow₁ : s₁.row = some k := hrow
    rw [hroll, hraised] at happ
    rw [acceptInOrder_of_resolved hrow hres, hroll]
    simp only [hraised, hrow₁, Option.getD_some, hq]
    rcases hb : s₁.buffer.append q value.raw with ⟨b, e | u⟩
    · rw [hb] at happ
      cases happ
    · rfl
  rw [heq]
  exact ⟨session_setSession_self (by simpa using hsid) _, rfl, rfl⟩

/-- Rolling the row over to a base time a window or more past it: the rollover is counted, and
the row left is queued for compaction with its own base time. -/
theorem rollIfNeeded_of_far (hrow : (db.session sid).row = some k)
    (ho : (db.session sid).opened = true)
    (hfar : (db.window : Int) ≤ (db.baseTimeOf ts).toNat - k.baseTime.toNat) :
    db.rollIfNeeded sid ts = ({ db with
        compaction := db.compaction.map fun c => c.schedule k.bytes k.baseTime
        stats := { db.stats with rollovers := db.stats.rollovers + 1 } } : Db).setSession sid
      { db.session sid with
        row := some (db.withBaseTime k (db.baseTimeOf ts))
        buffer := (db.session sid).buffer.reset } := by
  simp only [rollIfNeeded, hrow, ho, Bool.not_true, Bool.false_eq_true, if_false, ge_iff_le, hfar,
    if_true, rollToBaseTime]

/-- A point a window or more past the row's base time rolls the row over: the buffer is emptied
before the point goes in, the rollover is counted, and the row left is queued for compaction with
its base time. -/
theorem acceptInOrder_of_far (metric : String) (value : EncodedValue)
    (hsid : sid < db.sessions.size)
    (hrow : (db.session sid).row = some k) (hres : k.metricResolved = true)
    (ho : (db.session sid).opened = true)
    (hfar : (db.window : Int) ≤ (db.baseTimeOf ts).toNat - k.baseTime.toNat)
    (hq : buildQualifier ts (db.withBaseTime k (db.baseTimeOf ts)).baseTime value.flags = .ok q)
    (happ : (((db.raiseAndRoll sid ts).session sid).buffer.append q value.raw).2 = .ok ()) :
    let db' := (db.acceptInOrder sid metric ts value).1
    db'.session sid = { db.session sid with
        watermark := some (Time.toMillis ts)
        row := some (db.withBaseTime k (db.baseTimeOf ts))
        buffer := ((db.session sid).buffer.reset.append q value.raw).1 } ∧
      db'.stats.rollovers = db.stats.rollovers + 1 ∧
      db'.compaction = db.compaction.map fun c => c.schedule k.bytes k.baseTime := by
  set s₁ : Session := { db.session sid with watermark := some (Time.toMillis ts) }
  have hraised : (db.setSession sid s₁).session sid = s₁ := session_setSession_self hsid s₁
  have hfar₁ : ((db.setSession sid s₁).window : Int) ≤
      ((db.setSession sid s₁).baseTimeOf ts).toNat - k.baseTime.toNat := hfar
  set db₁ : Db := { db.setSession sid s₁ with
    compaction := db.compaction.map fun c => c.schedule k.bytes k.baseTime
    stats := { db.stats with rollovers := db.stats.rollovers + 1 } }
  set s₂ : Session := { s₁ with
    row := some (db.withBaseTime k (db.baseTimeOf ts))
    buffer := s₁.buffer.reset }
  have hsid₁ : sid < db₁.sessions.size := by simpa [db₁] using hsid
  have hroll : db.raiseAndRoll sid ts = db₁.setSession sid s₂ := by
    rw [raiseAndRoll, rollIfNeeded_of_far (by rw [hraised]; exact hrow) (by rw [hraised]; exact ho)
      hfar₁, hraised]
    rfl
  rw [hroll, session_setSession_self hsid₁] at happ
  have heq : (db.acceptInOrder sid metric ts value).1 =
      (db₁.setSession sid s₂).setSession sid { s₂ with buffer := (s₂.buffer.append q value.raw).1 } := by
    rw [acceptInOrder_of_resolved hrow hres, raiseAndRoll,
      rollIfNeeded_of_far (by rw [hraised]; exact hrow) (by rw [hraised]; exact ho) hfar₁]
    have hq₁ : buildQualifier ts ((db.setSession sid s₁).withBaseTime k
        ((db.setSession sid s₁).baseTimeOf ts)).baseTime value.flags = .ok q := hq
    simp only [hraised, session_setSession_self, size_setSession, hsid, Option.getD_some, hq₁]
    rcases hb : s₂.buffer.append q value.raw with ⟨b, e | u⟩
    · rw [hb] at happ
      cases happ
    · rfl
  rw [heq]
  exact ⟨session_setSession_self (by simpa using hsid₁) _, rfl, rfl⟩

end Accept

section Filling

variable {db : Db} {T : RowKey} {sid : Nat} {metric : String} {ts : Int} {value : EncodedValue}

/-- In a filling session opened by an earlier point, a later point with another base time is a
whole window or more past it: base times are multiples of the window. -/
theorem Filling.far_of_ne (hd : db.Sound) (hts : checkTimestamp ts = .ok ()) {s : Session} {t : Int}
    (ht : checkTimestamp t = .ok ()) (hwm : s.watermark = some (Time.toMillis t))
    (hlate : notAfter s.watermark (Time.toMillis ts) = false)
    (hne : db.baseTimeOf ts ≠ db.baseTimeOf t) :
    (db.window : Int) ≤ (db.baseTimeOf ts).toNat - (db.baseTimeOf t).toNat := by
  have hlt : Time.toMillis t < Time.toMillis ts := by simpa [notAfter, hwm] using hlate
  by_contra hnear
  exact hne (Config.baseTimeOf_eq_of_lt_window _ ht hts hlt.le hd.window_pos
    (by simp only [baseTimeOf, window] at hnear ⊢; omega))

/-- How the in-order path takes a point at `ts` with the encoded value `ev` into the session
`sid`, moving `db` to `db'`: it refuses a metric without an id, raising the watermark only; or,
with the column name `q` built against the point's base time, it opens the row at that base time,
keeps the row of that base time, or rolls the row over to that later base time, and buffers the
point; a row opened or rolled over has the point's base time. Only a rollover empties the buffer first, counts, and queues the row it leaves for
compaction with that row's base time. -/
inductive InOrder (db db' : Db) (sid : Nat) (ts : Int) (ev : EncodedValue) : Prop
  | refuses {k : RowKey} : (db.session sid).row = some k → k.metricResolved = false →
      db'.session sid = { db.session sid with watermark := some (Time.toMillis ts) } →
      db'.stats.rollovers = db.stats.rollovers → db'.compaction = db.compaction →
      InOrder db db' sid ts ev
  | opens {k : RowKey} {q : Qualifier} : (db.session sid).row = some k →
      k.metricResolved = true → (db.session sid).opened = false →
      (db.withBaseTime k (db.baseTimeOf ts)).baseTime = db.baseTimeOf ts →
      buildQualifier ts (db.baseTimeOf ts) ev.flags = .ok q →
      db'.session sid = { db.session sid with
        watermark := some (Time.toMillis ts)
        row := some (db.withBaseTime k (db.baseTimeOf ts))
        opened := true
        buffer := ((db.session sid).buffer.append q ev.raw).1 } →
      db'.stats.rollovers = db.stats.rollovers → db'.compaction = db.compaction →
      InOrder db db' sid ts ev
  | stays {k : RowKey} {q : Qualifier} : (db.session sid).row = some k →
      k.metricResolved = true → (db.session sid).opened = true → db.baseTimeOf ts = k.baseTime →
      buildQualifier ts (db.baseTimeOf ts) ev.flags = .ok q →
      db'.session sid = { db.session sid with
        watermark := some (Time.toMillis ts)
        buffer := ((db.session sid).buffer.append q ev.raw).1 } →
      db'.stats.rollovers = db.stats.rollovers → db'.compaction = db.compaction →
      InOrder db db' sid ts ev
  | rolls {k : RowKey} {q : Qualifier} : (db.session sid).row = some k →
      k.metricResolved = true → (db.session sid).opened = true → k.baseTime < db.baseTimeOf ts →
      (db.withBaseTime k (db.baseTimeOf ts)).baseTime = db.baseTimeOf ts →
      buildQualifier ts (db.baseTimeOf ts) ev.flags = .ok q →
      db'.session sid = { db.session sid with
        watermark := some (Time.toMillis ts)
        row := some (db.withBaseTime k (db.baseTimeOf ts))
        buffer := ((db.session sid).buffer.reset.append q ev.raw).1 } →
      db'.stats.rollovers = db.stats.rollovers + 1 →
      db'.compaction = db.compaction.map (fun c => c.schedule k.bytes k.baseTime) →
      InOrder db db' sid ts ev

/-- The in-order path on a filling session, for a point after its watermark at a checked time,
is one of the four moves of `InOrder`. -/
theorem inOrder_acceptInOrder (hd : db.Sound) (hT : db.rules.Fits T)
    (hts : checkTimestamp ts = .ok ()) (h : Filling db T (db.session sid))
    (hlate : notAfter (db.session sid).watermark (Time.toMillis ts) = false) (ev : EncodedValue) :
    InOrder db (db.acceptInOrder sid metric ts ev).1 sid ts ev := by
  have hsid := h.lt_size
  obtain ⟨k, hk⟩ := h.exists_row
  obtain ⟨q, hq⟩ := hd.buildQualifier_ok hts ev.flags
  have hok := (h.ready hd hT hts hlate).append_ok hd hts hq ev.raw
  cases hres : k.metricResolved with
  | false =>
    obtain ⟨hs, hr, hc⟩ := acceptInOrder_of_unresolved metric ev hsid hk hres
    exact .refuses hk hres hs hr hc
  | true =>
  cases h with
  | fresh ho hrow _ =>
    rw [hk] at hrow
    cases hrow
    obtain ⟨hs, hr, hc⟩ := acceptInOrder_of_closed metric ev hsid hk hres ho
      (by rwa [hd.baseTime_withBaseTime hT]) hok
    exact .opens hk hres ho (hd.baseTime_withBaseTime hT _) hq hs hr hc
  | opened t ho _ ht hwm hrow _ =>
    rw [hk] at hrow
    cases hrow
    have hbase := hd.baseTime_withBaseTime hT (db.baseTimeOf t)
    by_cases hsame : db.baseTimeOf ts = db.baseTimeOf t
    · have hnear : ((db.baseTimeOf ts).toNat : Int) - (db.withBaseTime T (db.baseTimeOf t)).baseTime.toNat <
          db.window := by
        rw [hbase, hsame]
        simpa using hd.window_pos
      obtain ⟨hs, hr, hc⟩ := acceptInOrder_of_near metric ev hsid hk hres ho hnear
        (by rwa [hbase, ← hsame]) hok
      exact .stays hk hres ho (hsame.trans hbase.symm) hq hs hr hc
    · have hfar := Filling.far_of_ne hd hts ht hwm hlate hsame
      obtain ⟨hs, hr, hc⟩ := acceptInOrder_of_far metric ev hsid hk hres ho
        (by rwa [hbase]) (by rwa [hd.withBaseTime_withBaseTime hT, hd.baseTime_withBaseTime hT]) hok
      refine .rolls hk hres ho ?_ (by rw [hd.withBaseTime_withBaseTime hT,
        hd.baseTime_withBaseTime hT]) hq hs hr hc
      rw [hbase]
      have := hd.window_pos
      simp only [UInt32.lt_iff_toNat_lt]
      omega

/-- The moves of the in-order path are read off the sessions, the counts of rollovers, the
compaction queue, the settings and the key rules: they carry over to databases that agree on
those. -/
theorem InOrder.congr {db₀ db₁ db₂ db₃ : Db} {sid : Nat} {ts : Int} {ev : EncodedValue}
    (h : InOrder db₁ db₂ sid ts ev) (hf : Frame db₀ db₁) (hs : SameRows db₀ db₁)
    (hs' : SameRows db₂ db₃) : InOrder db₀ db₃ sid ts ev := by
  have hb : db₁.baseTimeOf = db₀.baseTimeOf := by funext t; simp [baseTimeOf, hf.config]
  have hk : db₁.withBaseTime = db₀.withBaseTime := by funext k b; simp [withBaseTime, hf.rules]
  have hsess := hs.session sid
  cases h with
  | refuses hrow hres hse hr hc =>
    rw [hsess] at hrow hse
    exact .refuses hrow hres (hs'.session sid ▸ hse) (hs'.rollovers.trans (hr.trans hs.rollovers))
      (hs'.compaction.trans (hc.trans hs.compaction))
  | opens hrow hres ho hbt hq hse hr hc =>
    rw [hsess] at hrow ho hse
    rw [hb] at hq
    rw [hb, hk] at hse hbt
    exact .opens hrow hres ho hbt hq (hs'.session sid ▸ hse)
      (hs'.rollovers.trans (hr.trans hs.rollovers)) (hs'.compaction.trans (hc.trans hs.compaction))
  | stays hrow hres ho hbase hq hse hr hc =>
    rw [hsess] at hrow ho hse
    rw [hb] at hq hbase
    exact .stays hrow hres ho hbase hq (hs'.session sid ▸ hse)
      (hs'.rollovers.trans (hr.trans hs.rollovers)) (hs'.compaction.trans (hc.trans hs.compaction))
  | rolls hrow hres ho hlt hbt hq hse hr hc =>
    rw [hsess] at hrow ho hse
    rw [hb] at hq hlt
    rw [hb, hk] at hse hbt
    exact .rolls hrow hres ho hlt hbt hq (hs'.session sid ▸ hse)
      (by rw [hs'.rollovers, hr, hs.rollovers]) (by rw [hs'.compaction, hc, hs.compaction])

end Filling

/-- `db'` keeps the rows of `db`: every session of `db` as it was, the same count of rollovers
and compaction queue; sessions added after them are not opened and have empty buffers. -/
structure Grows (db db' : Db) : Prop where
  session : ∀ sid < db.sessions.size, db'.session sid = db.session sid
  fresh : ∀ sid, db.sessions.size ≤ sid →
    (db'.session sid).opened = false ∧ (db'.session sid).buffer.samples = []
  rollovers : db'.stats.rollovers = db.stats.rollovers
  compaction : db'.compaction = db.compaction

theorem SameRows.grows {db db' : Db} (h : SameRows db db') : Grows db db' where
  session sid _ := h.session sid
  fresh sid hsid := by
    rw [h.session, session_of_size_le hsid]
    exact ⟨rfl, rfl⟩
  rollovers := h.rollovers
  compaction := h.compaction

/-- Pushing a session that is not opened and has an empty buffer keeps the rows. -/
theorem grows_push (db : Db) {s : Session} (ho : s.opened = false) (hb : s.buffer.samples = []) :
    Grows db { db with sessions := db.sessions.push s } where
  session sid hsid := by rw [session_push, if_neg (Nat.ne_of_lt hsid)]
  fresh sid hsid := by
    rw [session_push]
    split
    · exact ⟨ho, hb⟩
    · rw [session_of_size_le hsid]
      exact ⟨rfl, rfl⟩
  rollovers := rfl
  compaction := rfl

theorem sameRows_addPoint (db : Db) (metric : String) (ts : Int) (value : DataValue) (tags : Tags) :
    SameRows db (db.addPoint metric ts value tags).1 := by
  unfold addPoint
  split
  · exact SameRows.refl db
  · exact sameRows_addEncodedPoint _ _ _ _ _

theorem sameRows_setBatchImport (db : Db) (w : Writer) (on : Bool) :
    SameRows db (db.setBatchImport w on).1 := by
  unfold setBatchImport
  split
  · exact SameRows.refl db
  · dsimp only
    split
    · split <;> exact ⟨rfl, rfl, rfl⟩
    · split <;> exact ⟨rfl, rfl, rfl⟩

theorem Grows.trans {db db' db'' : Db} (h₁ : SameRows db db') (h₂ : Grows db' db'') :
    Grows db db'' where
  session sid hsid := by
    rw [h₂.session sid (by rw [h₁.sessions]; exact hsid), h₁.session]
  fresh sid hsid := h₂.fresh sid (by rw [h₁.sessions]; exact hsid)
  rollovers := h₂.rollovers.trans h₁.rollovers
  compaction := h₂.compaction.trans h₁.compaction

/-- Setting a series adds a session that is not opened yet, at most. -/
theorem grows_setSeries (db : Db) (w : Writer) (metric : String) (tags : Tags) :
    Grows db (db.setSeries w metric tags).1 := by
  unfold setSeries
  have hs := sameRows_buildTemplate db metric tags
  rcases hb : db.buildTemplate metric tags with ⟨db₁, e | T⟩ <;> rw [hb] at hs
  · exact hs.grows
  · exact Grows.trans hs (grows_push db₁ rfl rfl)

end Db

namespace ClientRun

/-- The point a call offers to the in-order path of a session: a writer's point, placed at once
when the filter is off, or a point that waited for the filter, placed by its session when its
write is awaited. -/
def offered (R : ClientRun) : ClientCall → Option (Nat × AddedPoint)
  | .add i ts value => R.writers[i]?.map fun w => (w.session, ⟨w.metric, w.tags, ts, value⟩)
  | .await i =>
    match R.pending[i]? with
    | some (p, .admitted sid _ _ _ _ _) => some (sid, p)
    | _ => none
  | _ => none

/-- The point that a call accepts in order in the session `sid`: the point it offers there, when
it raises the session's watermark to the point's time. -/
def acceptedBy (R : ClientRun) (c : ClientCall) (sid : Nat) : Option AddedPoint :=
  match R.offered c with
  | some (s, p) =>
    if s = sid ∧ Db.notAfter (R.db.session sid).watermark (Time.toMillis p.ts) = false ∧
        ((R.step c).db.session sid).watermark = some (Time.toMillis p.ts) then some p
    else none
  | none => none

section Accepted

variable {R : ClientRun} {c : ClientCall} {sid : Nat}

theorem acceptedBy_of_offered (h : R.offered c = none) : R.acceptedBy c sid = none := by
  simp [acceptedBy, h]

/-- A call that leaves a session's watermark where it was accepts no point there. -/
theorem acceptedBy_of_watermark
    (h : ((R.step c).db.session sid).watermark = (R.db.session sid).watermark) :
    R.acceptedBy c sid = none := by
  unfold acceptedBy
  split
  · rw [if_neg]
    rintro ⟨-, hlate, hw⟩
    rw [h] at hw
    simp [hw, Db.notAfter] at hlate
  · rfl

/-- A call accepts a point in order in the session it offers it to, and there only. -/
theorem acceptedBy_eq_some {p : AddedPoint} (h : R.acceptedBy c sid = some p) :
    R.offered c = some (sid, p) ∧
      Db.notAfter (R.db.session sid).watermark (Time.toMillis p.ts) = false ∧
      ((R.step c).db.session sid).watermark = some (Time.toMillis p.ts) := by
  unfold acceptedBy at h
  split at h
  · next s p' hoff =>
    split at h
    · next hc =>
      cases h
      obtain ⟨rfl, hlate, hw⟩ := hc
      exact ⟨hoff, hlate, hw⟩
    · cases h
  · cases h

end Accepted

/-- What a call does to the rows: it keeps them, accepting no point anywhere; or it accepts one
point in order in one session, whose series the session serves, by the in-order path run on a
database that has the run's rows and differs from it at most in what asking the filter changes. -/
inductive RowStep (R : ClientRun) (c : ClientCall) : Prop
  | keep : Db.Grows R.db (R.step c).db → (∀ sid, R.acceptedBy c sid = none) → RowStep R c
  | accept {sid : Nat} {p : AddedPoint} {ev : EncodedValue} {db₁ : Db} :
      R.acceptedBy c sid = some p → encodeValue p.value = .ok ev → Db.checkTimestamp p.ts = .ok () →
      R.db.Serves sid p.metric p.tags → Db.Frame R.db db₁ → Db.SameRows R.db db₁ →
      Db.notAfter (R.db.session sid).watermark (Time.toMillis p.ts) = false →
      Db.SameRows (db₁.acceptInOrder sid p.metric p.ts ev).1 (R.step c).db → RowStep R c

section Steps

variable {R : ClientRun}

theorem RowStep.of_sameRows {c : ClientCall} (h : Db.SameRows R.db (R.step c).db)
    (hoff : R.offered c = none) : RowStep R c :=
  .keep h.grows fun _ => acceptedBy_of_offered hoff

theorem rowStep_add (h : R.Inv) (i : Nat) (ts : Int) (value : DataValue) :
    RowStep R (.add i ts value) := by
  rcases hwi : R.writers[i]? with _ | w
  · have hstep : R.step (.add i ts value) = R := by simp [step, hwi]
    exact .of_sameRows (by rw [hstep]; exact Db.SameRows.refl _) (by simp [offered, hwi])
  have hdb : (R.step (.add i ts value)).db = (R.db.addValue w ts value).1 := by
    simp only [step, hwi]
    rcases R.db.addValue w ts value with ⟨db, _ | _⟩ <;> rfl
  rcases Db.addValue_cases R.db w ts value with hs | ⟨ev, henc, hts, hrow, hlate, -, heq⟩
  · refine .keep (hdb ▸ hs.grows) fun sid => acceptedBy_of_watermark ?_
    rw [hdb, hs.session]
  · have hsid := Db.lt_size_of_row_isSome hrow
    have hoff : R.offered (.add i ts value) = some (w.session, ⟨w.metric, w.tags, ts, value⟩) := by
      simp [offered, hwi]
    have hacc : R.acceptedBy (.add i ts value) w.session = some ⟨w.metric, w.tags, ts, value⟩ := by
      rw [acceptedBy, hoff]
      exact if_pos ⟨rfl, hlate, by rw [hdb, heq]; exact Db.watermark_acceptInOrder hsid _ _ _⟩
    exact .accept hacc henc hts (h.writers w (List.mem_of_getElem? hwi) hrow).1
      (Db.Frame.refl _) (Db.SameRows.refl _) hlate (by rw [hdb, heq]; exact Db.SameRows.refl _)

theorem rowStep_await (h : R.Inv) (i : Nat) : RowStep R (.await i) := by
  rcases hpi : R.pending[i]? with _ | ⟨p, pw⟩
  · have hstep : R.step (.await i) = R := by simp [step, hpi]
    exact .of_sameRows (by rw [hstep]; exact Db.SameRows.refl _) (by simp [offered, hpi])
  have hmem := List.mem_of_getElem? hpi
  have hdb : (R.step (.await i)).db = (R.db.settle pw).1 := by simp [step, hpi]
  rcases Db.settle_cases R.db pw with hs | ⟨sid, metric, tags, ts, ev, durable, db₁, rfl, hc, hrow,
    hlate, hsame⟩
  · refine .keep (hdb ▸ hs.grows) fun sid => acceptedBy_of_watermark ?_
    rw [hdb, hs.session]
  · have hcar : (PendingWrite.admitted sid metric tags ts ev durable).Carries p := h.carries _ hmem
    have hok : R.db.PendingOk p (.admitted sid metric tags ts ev durable) := h.pending _ hmem
    obtain ⟨rfl, -, rfl, henc⟩ := hcar
    obtain ⟨-, hts, -, hserve⟩ := hok
    have hf : Db.Frame R.db db₁ := by simpa [hc] using Db.frame_consult R.db p.metric p.ts ev tags
    have hs₁ : Db.SameRows R.db db₁ := by simpa [hc] using Db.sameRows_consult R.db p.metric p.ts ev tags
    rw [hs₁.session] at hrow hlate
    have hsid := Db.lt_size_of_row_isSome hrow
    have hoff : R.offered (.await i) = some (sid, p) := by simp [offered, hpi]
    have hw : ((R.step (.await i)).db.session sid).watermark = some (Time.toMillis p.ts) := by
      rw [hdb, hsame.session]
      exact Db.watermark_acceptInOrder (by rw [hs₁.sessions]; exact hsid) _ _ _
    have hacc : R.acceptedBy (.await i) sid = some p := by
      rw [acceptedBy, hoff]
      exact if_pos ⟨rfl, hlate, hw⟩
    exact .accept hacc henc hts hserve hf hs₁ hlate (hdb ▸ hsame)

/-- Every call keeps the rows or accepts one point in order in one session. -/
theorem Inv.rowStep (h : R.Inv) (c : ClientCall) : RowStep R c := by
  cases c with
  | newWriter =>
    exact .keep (Db.grows_push R.db rfl rfl) fun _ => acceptedBy_of_offered rfl
  | setSeries i metric tags =>
    rcases hwi : R.writers[i]? with _ | w
    · have hstep : R.step (.setSeries i metric tags) = R := by simp [ClientRun.step, hwi]
      exact .of_sameRows (by rw [hstep]; exact Db.SameRows.refl _) rfl
    · have hdb : (R.step (.setSeries i metric tags)).db = (R.db.setSeries w metric tags).1 := by
        simp only [ClientRun.step, hwi]
        rcases R.db.setSeries w metric tags with ⟨db, _ | _⟩ <;> rfl
      exact .keep (hdb ▸ Db.grows_setSeries _ _ _ _) fun _ => acceptedBy_of_offered rfl
  | add i ts value => exact rowStep_add h i ts value
  | addPoint metric ts value tags =>
    have hdb : (R.step (.addPoint metric ts value tags)).db = (R.db.addPoint metric ts value tags).1 := by
      simp only [ClientRun.step]
      rcases R.db.addPoint metric ts value tags with ⟨db, _ | _⟩ <;> rfl
    exact .of_sameRows (hdb ▸ Db.sameRows_addPoint _ _ _ _ _) rfl
  | setBatchImport i on =>
    rcases hwi : R.writers[i]? with _ | w
    · have hstep : R.step (.setBatchImport i on) = R := by simp [ClientRun.step, hwi]
      exact .of_sameRows (by rw [hstep]; exact Db.SameRows.refl _) rfl
    · have hdb : (R.step (.setBatchImport i on)).db = (R.db.setBatchImport w on).1 := by
        simp [ClientRun.step, hwi]
      exact .of_sameRows (hdb ▸ Db.sameRows_setBatchImport _ _ _) rfl
  | setBufferingTime ms => exact .of_sameRows ⟨rfl, rfl, rfl⟩ rfl
  | await i => exact rowStep_await h i
  | answer verdict => exact .of_sameRows ⟨rfl, rfl, rfl⟩ rfl
  | failWrites on => exact .of_sameRows ⟨rfl, rfl, rfl⟩ rfl

/-- A point that a call accepts in order is checked, encoded, of the series the session serves,
after its watermark, and taken by one of the four moves of the in-order path. -/
theorem Inv.inOrder_of_accepted (h : R.Inv) {c : ClientCall} {sid : Nat} {p : AddedPoint}
    (hacc : R.acceptedBy c sid = some p) :
    ∃ ev, encodeValue p.value = .ok ev ∧ Db.checkTimestamp p.ts = .ok () ∧
      R.db.Serves sid p.metric p.tags ∧
      Db.notAfter (R.db.session sid).watermark (Time.toMillis p.ts) = false ∧
      Db.InOrder R.db (R.step c).db sid p.ts ev := by
  cases h.rowStep c with
  | keep _ hnone =>
    rw [hnone sid] at hacc
    cases hacc
  | @accept sid' p' ev db₁ hacc' henc hts hserve hf hs hlate hsame =>
    -- the call offers its point to one session only
    have hoff : some (sid, p) = some (sid', p') :=
      (acceptedBy_eq_some hacc).1.symm.trans (acceptedBy_eq_some hacc').1
    simp only [Option.some.injEq, Prod.mk.injEq] at hoff
    obtain ⟨rfl, rfl⟩ := hoff
    obtain ⟨T, hT, htpl, hfill⟩ := hserve
    have hd₁ : db₁.Sound := h.sound.congr hf.config hf.rules
    have hfill₁ : db₁.Filling T (db₁.session sid) := hs.session sid ▸ hfill.congr hf.config hf.rules
    refine ⟨ev, henc, hts, ⟨T, hT, htpl, hfill⟩, hlate, ?_⟩
    exact (Db.inOrder_acceptInOrder hd₁ (hf.rules ▸ hT) hts hfill₁ (hs.session sid ▸ hlate) ev).congr
      hf hs hsame

/-- A session where a call accepts no point stays as it was, or, added by the call, is not opened
and has an empty buffer. -/
theorem Inv.session_of_unaccepted (h : R.Inv) {c : ClientCall} {sid : Nat}
    (hnone : R.acceptedBy c sid = none) :
    (sid < R.db.sessions.size → (R.step c).db.session sid = R.db.session sid) ∧
      (R.db.sessions.size ≤ sid → ((R.step c).db.session sid).opened = false ∧
        ((R.step c).db.session sid).buffer.samples = []) := by
  cases h.rowStep c with
  | keep hg _ => exact ⟨hg.session sid, hg.fresh sid⟩
  | @accept sid' p' ev db₁ hacc' _ _ _ _ hs _ hsame =>
    have hne : sid' ≠ sid := by
      rintro rfl
      rw [hacc'] at hnone
      cases hnone
    have heq : (R.step c).db.session sid = R.db.session sid := by
      rw [hsame.session, Db.session_acceptInOrder_ne hne, hs.session]
    refine ⟨fun _ => heq, fun hsid => ?_⟩
    rw [heq, Db.session_of_size_le hsid]
    exact ⟨rfl, rfl⟩

end Steps

end ClientRun

end SeriesIngest
