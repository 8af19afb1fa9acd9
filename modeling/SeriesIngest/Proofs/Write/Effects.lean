import SeriesIngest.Proofs.Write.PerSession

/-!
# What each operation of the write path changes

Most of what the write path does touches a few fields of the database. Asking the filter records
the question and counts a dropped point; issuing a request changes the store and counts the
point; refusing a metric counts and logs the refusal. The sessions, the count of rollovers and
the compaction queue, which together make up the rows the writers fill, change on one path only:
the in-order path of a write, taken by a point after its session's watermark, which opens or
rolls the row and buffers the point.

Main statements: `Db.addValue_cases` and `Db.settle_cases`. An add, and a pending write when it
runs, either leave the rows alone (`Db.SameRows`) or run the in-order path for their point in
one session, without a filter for an add and after the filter admitted the point for a pending
write.
-/

namespace SeriesIngest

namespace Db

/-- `db'` has the rows of `db`: the same sessions, count of rollovers and compaction queue. -/
structure SameRows (db db' : Db) : Prop where
  sessions : db'.sessions = db.sessions
  rollovers : db'.stats.rollovers = db.stats.rollovers
  compaction : db'.compaction = db.compaction

section SameRows

variable {db db' db'' : Db}

theorem SameRows.refl (db : Db) : SameRows db db := ⟨rfl, rfl, rfl⟩

theorem SameRows.trans (h₁ : SameRows db db') (h₂ : SameRows db' db'') : SameRows db db'' :=
  ⟨h₂.sessions.trans h₁.sessions, h₂.rollovers.trans h₁.rollovers,
    h₂.compaction.trans h₁.compaction⟩

/-- Databases with the same rows have the same session at every id. -/
theorem SameRows.session (h : SameRows db db') (sid : Nat) : db'.session sid = db.session sid :=
  session_of_sessions h.sessions sid

/-- Counting a point handed on, a refused metric or a dropped point leaves the rows alone. -/
theorem sameRows_stats (db : Db) (stats : WriteStats) (h : stats.rollovers = db.stats.rollovers) :
    SameRows db { db with stats := stats } :=
  ⟨rfl, h, rfl⟩

theorem sameRows_rejectMetric (db : Db) (metric : String) :
    SameRows db (db.rejectMetric metric).1 :=
  ⟨rfl, rfl, rfl⟩

theorem sameRows_buildTemplate (db : Db) (metric : String) (tags : Tags) :
    SameRows db (db.buildTemplate metric tags).1 :=
  ⟨rfl, rfl, rfl⟩

end SameRows

/-! ### Asking the filter and issuing a request -/

/-- Asking the filter changes only the questions asked and the count of dropped points. -/
theorem consult_eq (db : Db) (metric : String) (ts : Int) (value : EncodedValue) (tags : Tags) :
    ∃ asked dropped, (db.consult metric ts value tags).1 =
      { db with admissions := asked, stats := { db.stats with pointsFiltered := dropped } } := by
  unfold consult
  split
  · split
    · dsimp only
      split
      · exact ⟨_, db.stats.pointsFiltered, rfl⟩
      · exact ⟨_, db.stats.pointsFiltered, rfl⟩
      · exact ⟨_, _, rfl⟩
    · exact ⟨db.admissions, db.stats.pointsFiltered, rfl⟩
  · exact ⟨db.admissions, db.stats.pointsFiltered, rfl⟩

theorem sameRows_consult (db : Db) (metric : String) (ts : Int) (value : EncodedValue)
    (tags : Tags) : SameRows db (db.consult metric ts value tags).1 := by
  obtain ⟨asked, dropped, h⟩ := db.consult_eq metric ts value tags
  rw [h]
  exact ⟨rfl, rfl, rfl⟩

/-- Issuing a request changes nothing, or the store and the count of points written. -/
theorem dispatch_eq (db : Db) (r : WriteRequest) :
    (db.dispatch r).1 = db ∨ ∃ store, (db.dispatch r).1 =
      { db with store := store, stats := { db.stats with pointsWritten := db.stats.pointsWritten + 1 } } := by
  unfold dispatch
  dsimp only
  split
  · exact .inl rfl
  · exact .inr ⟨_, rfl⟩

theorem sameRows_dispatch (db : Db) (r : WriteRequest) : SameRows db (db.dispatch r).1 := by
  rcases db.dispatch_eq r with h | ⟨store, h⟩ <;> rw [h]
  · exact SameRows.refl db
  · exact ⟨rfl, rfl, rfl⟩

/-- A timestamp is at or before a watermark only when there is one. -/
theorem notAfter_eq_true {watermark : Option Int} {t : Int} :
    notAfter watermark t = true ↔ ∃ last, watermark = some last ∧ t ≤ last := by
  cases watermark <;> simp [notAfter]

/-! ### The write of a session -/

section Write

variable {db : Db} {sid : Nat} {metric : String} {ts : Int} {value : EncodedValue}

/-- A point after the watermark of a session with a row takes the in-order path. -/
theorem writeAllowed_of_late (hrow : (db.session sid).row.isSome)
    (hlate : notAfter (db.session sid).watermark (Time.toMillis ts) = false) :
    db.writeAllowed sid metric ts value = db.acceptInOrder sid metric ts value := by
  obtain ⟨row, hr⟩ := Option.isSome_iff_exists.1 hrow
  unfold writeAllowed
  dsimp only
  rw [hr]
  dsimp only
  split
  · next last hwm =>
    have hlt : ¬ Time.toMillis ts ≤ last := by simpa [notAfter, hwm] using hlate
    rw [if_neg hlt]
  · rfl

/-- Away from the in-order path, a write leaves the rows alone: it is refused, or written on its
own to the row of the point's base time. -/
theorem writeAllowed_aside
    (h : ¬((db.session sid).row.isSome ∧
      notAfter (db.session sid).watermark (Time.toMillis ts) = false)) :
    SameRows db (db.writeAllowed sid metric ts value).1 := by
  unfold writeAllowed
  dsimp only
  split
  · exact SameRows.refl db
  · next row hrow =>
    split
    · next last hwm =>
      split
      · split
        · exact SameRows.refl db
        · split
          · exact sameRows_rejectMetric db metric
          · exact sameRows_stats db _ rfl
      · next hlt =>
        -- a point after the watermark of a row is on the in-order path
        exact absurd ⟨by simp [hrow], by simpa [notAfter, hwm] using hlt⟩ h
    · next hwm => exact absurd ⟨by simp [hrow], by simp [notAfter, hwm]⟩ h

end Write

/-! ### Adding a point and running a pending write -/

theorem sameRows_addEncodedPoint (db : Db) (metric : String) (ts : Int) (value : EncodedValue)
    (tags : Tags) : SameRows db (db.addEncodedPoint metric ts value tags).1 := by
  unfold addEncodedPoint
  split
  · exact SameRows.refl db
  · have h := sameRows_buildTemplate db metric tags
    rcases hb : db.buildTemplate metric tags with ⟨db₁, e | T⟩ <;> rw [hb] at h
    · exact h
    · dsimp only
      split <;> exact h

/-- Placing a point after the watermark of the writer's session: at once, on the in-order path,
without an active filter; with one, the point waits and nothing changes yet. -/
theorem placeNow_cases (db : Db) (w : Writer) (ts : Int) (value : EncodedValue)
    (hrow : (db.session w.session).row.isSome)
    (hlate : notAfter (db.session w.session).watermark (Time.toMillis ts) = false) :
    (db.placeNow w ts value).1 = db ∨
      db.filtersPoints = false ∧
        (db.placeNow w ts value).1 = (db.acceptInOrder w.session w.metric ts value).1 := by
  unfold placeNow
  dsimp only
  split
  · next hoff =>
    right
    refine ⟨by simpa using hoff, ?_⟩
    rw [← @writeAllowed_of_late db w.session w.metric ts value hrow hlate]
    rcases db.writeAllowed w.session w.metric ts value with ⟨db₁, _ | ⟨row, q⟩⟩ <;> rfl
  · exact .inl rfl

section Add

variable {db : Db} {w : Writer} {ts : Int} {ev : EncodedValue}

/-- A checked point after the watermark of the writer's session goes to `placeNow`. -/
theorem addEncoded_of_late (hrow : (db.session w.session).row.isSome)
    (hts : checkTimestamp ts = .ok ())
    (hlate : notAfter (db.session w.session).watermark (Time.toMillis ts) = false) :
    db.addEncoded w ts ev = db.placeNow w ts ev := by
  obtain ⟨row, hr⟩ := Option.isSome_iff_exists.1 hrow
  cases hwm : (db.session w.session).watermark with
  | none => simp [addEncoded, hr, hts, hwm]
  | some last =>
    have hlt : ¬ Time.toMillis ts ≤ last := by simpa [notAfter, hwm] using hlate
    simp [addEncoded, hr, hts, hwm, hlt]

/-- A checked point at or before the watermark of the writer's session is handed to the handle,
after counting it, where out-of-order points are allowed, and refused otherwise. -/
theorem addEncoded_of_notAfter (hrow : (db.session w.session).row.isSome)
    (hts : checkTimestamp ts = .ok ()) {last : Int}
    (hwm : (db.session w.session).watermark = some last) (hle : Time.toMillis ts ≤ last) :
    db.addEncoded w ts ev =
      if db.config.allowOutOfOrder then
        ({ db with stats := { db.stats with outOfOrderDelegated := db.stats.outOfOrderDelegated + 1 } }
          : Db).addEncodedPoint w.metric ts ev w.tags
      else (db, .error (.outOfOrder (Time.toMillis ts) last)) := by
  obtain ⟨row, hr⟩ := Option.isSome_iff_exists.1 hrow
  simp only [addEncoded, hr, Option.isNone_some, Bool.false_eq_true, if_false, hts, hwm, hle,
    if_true]

/-- An add of an encoded value either leaves the rows alone, or, for a checked point after the
watermark of the writer's session and without an active filter, runs the in-order path. -/
theorem addEncoded_cases (db : Db) (w : Writer) (ts : Int) (ev : EncodedValue) :
    SameRows db (db.addEncoded w ts ev).1 ∨
      checkTimestamp ts = .ok () ∧ (db.session w.session).row.isSome ∧
        notAfter (db.session w.session).watermark (Time.toMillis ts) = false ∧
        db.filtersPoints = false ∧
        (db.addEncoded w ts ev).1 = (db.acceptInOrder w.session w.metric ts ev).1 := by
  by_cases hrow : (db.session w.session).row.isSome
  · obtain ⟨row, hr⟩ := Option.isSome_iff_exists.1 hrow
    rcases hts : checkTimestamp ts with e | ⟨⟩
    · left
      simp only [addEncoded, hr, Option.isNone_some, Bool.false_eq_true, if_false, hts]
      exact SameRows.refl db
    · cases hlate : notAfter (db.session w.session).watermark (Time.toMillis ts)
      · rw [addEncoded_of_late hrow hts hlate]
        rcases db.placeNow_cases w ts ev hrow hlate with h | ⟨hoff, h⟩
        · left
          rw [h]
          exact SameRows.refl db
        · exact .inr ⟨rfl, hrow, rfl, hoff, h⟩
      · left
        obtain ⟨last, hwm, hle⟩ := notAfter_eq_true.1 hlate
        rw [addEncoded_of_notAfter hrow hts hwm hle]
        split
        · exact (sameRows_stats db { db.stats with
            outOfOrderDelegated := db.stats.outOfOrderDelegated + 1 } rfl).trans
            (sameRows_addEncodedPoint _ w.metric ts ev w.tags)
        · exact SameRows.refl db
  · left
    have hnone : (db.session w.session).row = none := by simpa using hrow
    simp only [addEncoded, hnone, Option.isNone_none, if_true]
    exact SameRows.refl db

end Add

/-- An add either leaves the rows alone, or, for a point after the watermark of the writer's
session with a row and without an active filter, runs the in-order path for it. -/
theorem addValue_cases (db : Db) (w : Writer) (ts : Int) (value : DataValue) :
    SameRows db (db.addValue w ts value).1 ∨
      ∃ ev, encodeValue value = .ok ev ∧ checkTimestamp ts = .ok () ∧
        (db.session w.session).row.isSome ∧
        notAfter (db.session w.session).watermark (Time.toMillis ts) = false ∧
        db.filtersPoints = false ∧
        (db.addValue w ts value).1 = (db.acceptInOrder w.session w.metric ts ev).1 := by
  rcases henc : encodeValue value with e | ev
  · left
    simp only [addValue, henc]
    exact SameRows.refl db
  · have hadd : db.addValue w ts value = db.addEncoded w ts ev := by simp [addValue, henc]
    rw [hadd]
    rcases db.addEncoded_cases w ts ev with h | ⟨hts, hrow, hlate, hoff, h⟩
    · exact .inl h
    · exact .inr ⟨ev, rfl, hts, hrow, hlate, hoff, h⟩

/-- A pending write, when it runs, either leaves the rows alone, or, for a point waiting for the
filter that the filter admits and that is still after the watermark of its session, runs the
in-order path for it on the database as the filter leaves it. -/
theorem settle_cases (db : Db) (pw : PendingWrite) :
    SameRows db (db.settle pw).1 ∨
      ∃ sid metric tags ts ev durable db₁, pw = .admitted sid metric tags ts ev durable ∧
        db.consult metric ts ev tags = (db₁, .ok true) ∧
        (db₁.session sid).row.isSome ∧
        notAfter (db₁.session sid).watermark (Time.toMillis ts) = false ∧
        SameRows (db₁.acceptInOrder sid metric ts ev).1 (db.settle pw).1 := by
  cases pw with
  | failed e => exact .inl (SameRows.refl db)
  | issue r => exact .inl (sameRows_dispatch db r)
  | point metric tags ts value row q =>
    left
    have h₁ := sameRows_consult db metric ts value tags
    dsimp only [settle]
    rcases hc : db.consult metric ts value tags with ⟨db₁, e | _ | _⟩ <;> rw [hc] at h₁
    · exact h₁
    · exact h₁
    · dsimp only
      split
      · exact h₁.trans (sameRows_rejectMetric db₁ metric)
      · exact h₁.trans (sameRows_dispatch db₁ _)
  | admitted sid metric tags ts value durable =>
    have h₁ := sameRows_consult db metric ts value tags
    dsimp only [settle]
    rcases hc : db.consult metric ts value tags with ⟨db₁, e | _ | _⟩ <;> rw [hc] at h₁
    · exact .inl h₁
    · exact .inl h₁
    · dsimp only
      by_cases hpath : (db₁.session sid).row.isSome ∧
          notAfter (db₁.session sid).watermark (Time.toMillis ts) = false
      · refine .inr ⟨sid, metric, tags, ts, value, durable, db₁, rfl, hc, hpath.1, hpath.2, ?_⟩
        rw [@writeAllowed_of_late db₁ sid metric ts value hpath.1 hpath.2]
        rcases db₁.acceptInOrder sid metric ts value with ⟨db₂, _ | ⟨row, q⟩⟩
        · exact SameRows.refl db₂
        · exact sameRows_dispatch db₂ _
      · left
        have h₂ := h₁.trans (@writeAllowed_aside db₁ sid metric ts value hpath)
        rcases hw : db₁.writeAllowed sid metric ts value with ⟨db₂, _ | ⟨row, q⟩⟩ <;> rw [hw] at h₂
        · exact h₂
        · exact h₂.trans (sameRows_dispatch db₂ _)

theorem size_addValue (db : Db) (w : Writer) (ts : Int) (value : DataValue) :
    (db.addValue w ts value).1.sessions.size = db.sessions.size := by
  rcases db.addValue_cases w ts value with h | ⟨ev, -, -, -, -, -, h⟩
  · rw [h.sessions]
  · rw [h, size_acceptInOrder]

theorem size_settle (db : Db) (pw : PendingWrite) :
    (db.settle pw).1.sessions.size = db.sessions.size := by
  rcases db.settle_cases pw with h | ⟨sid, metric, tags, ts, ev, durable, db₁, -, hc, -, -, h⟩
  · rw [h.sessions]
  · have h₁ := sameRows_consult db metric ts ev tags
    rw [hc] at h₁
    rw [h.sessions, size_acceptInOrder, h₁.sessions]

end Db

end SeriesIngest
