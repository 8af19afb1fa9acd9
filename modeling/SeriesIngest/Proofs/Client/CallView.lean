import SeriesIngest.Proofs.Import.Loop

/-!
# What the calls of a writer see of a database

A writer's calls (setting its series, adding a point, switching batch import, setting the
buffering time) read and change the sessions, the ids, the compaction queue and some counters,
and add log lines; none of them reads the tables of the store, the counts of points written or
of metrics refused, or the log. Awaiting a write that waits for no filter changes only those:
when points pass no filter, a writer's point is placed when it is added, and its write only
issues the request decided then. `Db.callView` is the database without them, and `Db.SameCalls`
relates two databases with one view: every call gives the same result on both and keeps them
related (`Db.SameCalls.addValue`, `Db.SameCalls.setSeries`, ...), while awaiting such a write
keeps the view (`Db.sameCalls_settle`).

The answer such a write gets reads only the settings, the filter and which table of which family
the store finds for it (`Db.Answers`), which the calls and the awaits all keep
(`Db.settle_answers`). Awaiting it counts a point written exactly when it gives `Ok`.
-/

namespace SeriesIngest

namespace Store

variable {s s' : Store} {w : CellWrite}

/-- A write the store takes commits, in place of the table it found, a table of the same
family. -/
theorem exists_commit_of_put (h : s.put w = .ok s') :
    ∃ t t', s.target w = .ok t ∧ t'.family = t.family ∧ s' = s.commit w.table t' w.durable := by
  rcases ht : s.target w with e | t
  · simp [put, ht, bind, Except.bind] at h
  · rw [put_of_target ht] at h
    exact ⟨t, _, rfl, by rfl, (Except.ok.inj h).symm⟩

theorem exists_commit_of_append (h : s.append w = .ok s') :
    ∃ t t', s.target w = .ok t ∧ t'.family = t.family ∧ s' = s.commit w.table t' w.durable := by
  rcases ht : s.target w with e | t
  · simp [append, ht, bind, Except.bind] at h
  · simp only [append, ht, bind, Except.bind, pure, Except.pure, Except.ok.injEq] at h
    exact ⟨t, _, rfl, by rfl, h.symm⟩

/-- A write the store takes keeps the flush interval, its handle and the failure switch. -/
theorem switches_put (h : s.put w = .ok s') :
    s'.flushInterval = s.flushInterval ∧ s'.flushHandle = s.flushHandle ∧ s'.failing = s.failing := by
  obtain ⟨t, t', -, -, rfl⟩ := exists_commit_of_put h
  exact ⟨rfl, rfl, rfl⟩

theorem switches_append (h : s.append w = .ok s') :
    s'.flushInterval = s.flushInterval ∧ s'.flushHandle = s.flushHandle ∧ s'.failing = s.failing := by
  obtain ⟨t, t', -, -, rfl⟩ := exists_commit_of_append h
  exact ⟨rfl, rfl, rfl⟩

/-- After a write commits a table of the same family, every write finds a table of the family it
found before, or is refused as before. -/
theorem family_target_commit {t : Table} (h : s.target w = .ok t) {t' : Table}
    (hf : t'.family = t.family) (d : Bool) (w' : CellWrite) :
    ((s.commit w.table t' d).target w').map Table.family = (s.target w').map Table.family := by
  rw [target_commit h hf]
  split_ifs with ht hfam
  · rw [target_congr ht (hfam.symm.trans (family_of_target h)), h]
    simp [Except.map, hf]
  · rfl
  · rfl

theorem family_target_put (h : s.put w = .ok s') (w' : CellWrite) :
    (s'.target w').map Table.family = (s.target w').map Table.family := by
  obtain ⟨t, t', ht, hf, rfl⟩ := exists_commit_of_put h
  exact family_target_commit ht hf _ w'

theorem family_target_append (h : s.append w = .ok s') (w' : CellWrite) :
    (s'.target w').map Table.family = (s.target w').map Table.family := by
  obtain ⟨t, t', ht, hf, rfl⟩ := exists_commit_of_append h
  exact family_target_commit ht hf _ w'

end Store

namespace Db

/-- The database as the calls of a writer see it. Awaiting a write changes only what this leaves
out: the tables of the store and its counts of writes, the counts of points written and of
metrics refused, and the log. -/
def callView (db : Db) : Db :=
  { db with
    store := { db.store with tables := [], durableWrites := 0, deferredWrites := 0 }
    stats := { db.stats with pointsWritten := 0, metricRejections := 0 }
    log := #[] }

/-- Two databases that the calls of a writer cannot tell apart. -/
def SameCalls (db db' : Db) : Prop := db.callView = db'.callView

/-- Two answers of an operation: from databases the calls cannot tell apart, with the same
result. -/
def SameOutcome {α : Type} (x y : Db × α) : Prop := SameCalls x.1 y.1 ∧ x.2 = y.2

section SameCalls

variable {db₁ db₂ db₃ : Db}

theorem SameCalls.refl (db : Db) : SameCalls db db := rfl

theorem SameCalls.symm (h : SameCalls db₁ db₂) : SameCalls db₂ db₁ := Eq.symm h

theorem SameCalls.trans (h₁ : SameCalls db₁ db₂) (h₂ : SameCalls db₂ db₃) : SameCalls db₁ db₃ :=
  Eq.trans h₁ h₂

/-! What the calls read is kept by the view. -/

theorem SameCalls.sessions (h : SameCalls db₁ db₂) : db₁.sessions = db₂.sessions :=
  congrArg (fun db => db.sessions) h

theorem SameCalls.session (h : SameCalls db₁ db₂) (sid : Nat) : db₁.session sid = db₂.session sid :=
  congrArg (fun db => db.session sid) h

theorem SameCalls.config (h : SameCalls db₁ db₂) : db₁.config = db₂.config :=
  congrArg (fun db => db.config) h

theorem SameCalls.rules (h : SameCalls db₁ db₂) : db₁.rules = db₂.rules :=
  congrArg (fun db => db.rules) h

theorem SameCalls.ids (h : SameCalls db₁ db₂) : db₁.ids = db₂.ids :=
  congrArg (fun db => db.ids) h

theorem SameCalls.filter (h : SameCalls db₁ db₂) : db₁.filter = db₂.filter :=
  congrArg (fun db => db.filter) h

theorem SameCalls.flushInterval (h : SameCalls db₁ db₂) :
    db₁.store.flushInterval = db₂.store.flushInterval :=
  congrArg (fun db => db.store.flushInterval) h

/-- The view hides only the counts of points written and of metrics refused. -/
theorem SameCalls.stats (h : SameCalls db₁ db₂)
    (hw : db₁.stats.pointsWritten = db₂.stats.pointsWritten)
    (hr : db₁.stats.metricRejections = db₂.stats.metricRejections) : db₁.stats = db₂.stats := by
  have hs : ({ db₁.stats with pointsWritten := 0, metricRejections := 0 } : WriteStats) =
      { db₂.stats with pointsWritten := 0, metricRejections := 0 } :=
    congrArg (fun db => db.stats) h
  cases h₁ : db₁.stats
  cases h₂ : db₂.stats
  simp_all

/-- The two answers name their databases and share their result. -/
theorem SameOutcome.exists_eq {α : Type} {x y : Db × α} (h : SameOutcome x y) :
    ∃ d₁ d₂ r, x = (d₁, r) ∧ y = (d₂, r) ∧ SameCalls d₁ d₂ :=
  ⟨x.1, y.1, x.2, rfl, Prod.ext rfl h.2.symm, h.1⟩

/-! The updates the calls make keep the view apart from what they add to it. -/

theorem SameCalls.setSession (h : SameCalls db₁ db₂) (sid : Nat) (s : Session) :
    SameCalls (db₁.setSession sid s) (db₂.setSession sid s) := by
  show (db₁.callView.setSession sid s).callView = (db₂.callView.setSession sid s).callView
  rw [h]

theorem SameCalls.push (h : SameCalls db₁ db₂) (s : Session) :
    SameCalls { db₁ with sessions := db₁.sessions.push s } { db₂ with sessions := db₂.sessions.push s } := by
  show ({ db₁.callView with sessions := db₁.callView.sessions.push s } : Db).callView =
    ({ db₂.callView with sessions := db₂.callView.sessions.push s } : Db).callView
  rw [h]

theorem SameCalls.rejectMetric (h : SameCalls db₁ db₂) (metric : String) :
    SameOutcome (db₁.rejectMetric metric) (db₂.rejectMetric metric) := by
  refine ⟨?_, rfl⟩
  show (db₁.callView.rejectMetric metric).1.callView = (db₂.callView.rejectMetric metric).1.callView
  rw [h]

theorem SameCalls.delegate (h : SameCalls db₁ db₂) :
    SameCalls { db₁ with stats := { db₁.stats with outOfOrderDelegated := db₁.stats.outOfOrderDelegated + 1 } }
      { db₂ with stats := { db₂.stats with outOfOrderDelegated := db₂.stats.outOfOrderDelegated + 1 } } := by
  show ({ db₁.callView with stats := { db₁.callView.stats with
      outOfOrderDelegated := db₁.callView.stats.outOfOrderDelegated + 1 } } : Db).callView =
    ({ db₂.callView with stats := { db₂.callView.stats with
      outOfOrderDelegated := db₂.callView.stats.outOfOrderDelegated + 1 } } : Db).callView
  rw [h]

theorem SameCalls.buildTemplate (h : SameCalls db₁ db₂) (metric : String) (tags : Tags) :
    SameOutcome (db₁.buildTemplate metric tags) (db₂.buildTemplate metric tags) := by
  have hb : db₁.rules.buildTemplate db₁.ids metric tags = db₂.rules.buildTemplate db₂.ids metric tags := by
    rw [h.rules, h.ids]
  refine ⟨?_, by simp only [Db.buildTemplate, hb]⟩
  show (db₁.callView.buildTemplate metric tags).1.callView =
    (db₂.callView.buildTemplate metric tags).1.callView
  rw [h]

theorem SameCalls.baseTimeOf (h : SameCalls db₁ db₂) (ts : Int) :
    db₁.baseTimeOf ts = db₂.baseTimeOf ts := by
  rw [Db.baseTimeOf, Db.baseTimeOf, h.config]

theorem SameCalls.withBaseTime (h : SameCalls db₁ db₂) (k : RowKey) (base : UInt32) :
    db₁.withBaseTime k base = db₂.withBaseTime k base := by
  rw [Db.withBaseTime, Db.withBaseTime, h.rules]

theorem SameCalls.window (h : SameCalls db₁ db₂) : db₁.window = db₂.window := by
  rw [Db.window, Db.window, h.config]

theorem SameCalls.rollToBaseTime (h : SameCalls db₁ db₂) (k : RowKey) (base : UInt32) :
    SameOutcome (db₁.rollToBaseTime k base) (db₂.rollToBaseTime k base) := by
  refine ⟨?_, h.withBaseTime k base⟩
  show (db₁.callView.rollToBaseTime k base).1.callView = (db₂.callView.rollToBaseTime k base).1.callView
  rw [h]

theorem SameCalls.rollover (h : SameCalls db₁ db₂) :
    SameCalls { db₁ with stats := { db₁.stats with rollovers := db₁.stats.rollovers + 1 } }
      { db₂ with stats := { db₂.stats with rollovers := db₂.stats.rollovers + 1 } } := by
  show ({ db₁.callView with stats := { db₁.callView.stats with
      rollovers := db₁.callView.stats.rollovers + 1 } } : Db).callView =
    ({ db₂.callView with stats := { db₂.callView.stats with
      rollovers := db₂.callView.stats.rollovers + 1 } } : Db).callView
  rw [h]

theorem SameCalls.rollIfNeeded (h : SameCalls db₁ db₂) (sid : Nat) (ts : Int) :
    SameCalls (db₁.rollIfNeeded sid ts) (db₂.rollIfNeeded sid ts) := by
  unfold Db.rollIfNeeded
  simp only [h.session sid, h.baseTimeOf ts, h.withBaseTime, h.window]
  rcases (db₂.session sid).row with _ | row
  · exact h
  · dsimp only
    split
    · exact h.setSession _ _
    · split
      · have h₁ := h.rollToBaseTime row (db₂.baseTimeOf ts)
        rw [h₁.2]
        exact h₁.1.rollover.setSession _ _
      · exact h

theorem SameCalls.acceptInOrder (h : SameCalls db₁ db₂) (sid : Nat) (metric : String) (ts : Int)
    (value : EncodedValue) :
    SameOutcome (db₁.acceptInOrder sid metric ts value) (db₂.acceptInOrder sid metric ts value) := by
  unfold Db.acceptInOrder
  simp only [h.session sid]
  generalize db₂.session sid = s
  obtain ⟨_ | row, opened, buffer, watermark⟩ := s
  · exact ⟨h.setSession _ _, rfl⟩
  · dsimp only
    have h₁ := h.setSession sid ⟨some row, opened, buffer, some (Time.toMillis ts)⟩
    split
    · have h₃ := h₁.rejectMetric metric
      exact ⟨h₃.1, by rw [h₃.2]⟩
    · have h₂ := h₁.rollIfNeeded sid ts
      simp only [h₂.session sid]
      split
      · exact ⟨h₂, rfl⟩
      · split
        · exact ⟨h₂.setSession _ _, rfl⟩
        · exact ⟨h₂, rfl⟩

theorem SameCalls.filtersPoints (h : SameCalls db₁ db₂) : db₁.filtersPoints = db₂.filtersPoints := by
  rw [Db.filtersPoints, Db.filtersPoints, h.filter]

theorem SameCalls.writeAllowed (h : SameCalls db₁ db₂) (sid : Nat) (metric : String) (ts : Int)
    (value : EncodedValue) :
    SameOutcome (db₁.writeAllowed sid metric ts value) (db₂.writeAllowed sid metric ts value) := by
  have hooo : db₁.config.allowOutOfOrder = db₂.config.allowOutOfOrder := by rw [h.config]
  unfold Db.writeAllowed
  simp only [h.session sid, hooo]
  generalize db₂.session sid = s
  obtain ⟨_ | row, opened, buffer, _ | last⟩ := s
  · exact ⟨h, rfl⟩
  · exact ⟨h, rfl⟩
  · exact h.acceptInOrder sid metric ts value
  · dsimp only
    split
    · split
      · exact ⟨h, rfl⟩
      · split
        · have h₁ := h.rejectMetric metric
          exact ⟨h₁.1, by rw [h₁.2]⟩
        · refine ⟨h.delegate, ?_⟩
          simp only [h.delegate.baseTimeOf ts, h.delegate.withBaseTime]
    · exact h.acceptInOrder sid metric ts value

theorem SameCalls.placeNow (h : SameCalls db₁ db₂) (w : Writer) (ts : Int) (value : EncodedValue) :
    SameOutcome (db₁.placeNow w ts value) (db₂.placeNow w ts value) := by
  unfold Db.placeNow
  simp only [h.filtersPoints]
  split
  · obtain ⟨d₁, d₂, r, hw₁, hw₂, hd⟩ := (h.writeAllowed w.session w.metric ts value).exists_eq
    rw [hw₁, hw₂]
    rcases r with e | ⟨row, q⟩
    · exact ⟨hd, rfl⟩
    · exact ⟨hd, rfl⟩
  · exact ⟨h, rfl⟩

theorem SameCalls.addEncodedPoint (h : SameCalls db₁ db₂) (metric : String) (ts : Int)
    (value : EncodedValue) (tags : Tags) :
    SameOutcome (db₁.addEncodedPoint metric ts value tags) (db₂.addEncodedPoint metric ts value tags) := by
  unfold Db.addEncodedPoint
  split
  · exact ⟨h, rfl⟩
  · obtain ⟨d₁, d₂, r, hb₁, hb₂, hd⟩ := (h.buildTemplate metric tags).exists_eq
    rw [hb₁, hb₂]
    rcases r with e | T
    · exact ⟨hd, rfl⟩
    · dsimp only
      simp only [hd.baseTimeOf ts, hd.withBaseTime]
      split
      · exact ⟨hd, rfl⟩
      · exact ⟨hd, rfl⟩

theorem SameCalls.addValue (h : SameCalls db₁ db₂) (w : Writer) (ts : Int) (value : DataValue) :
    SameOutcome (db₁.addValue w ts value) (db₂.addValue w ts value) := by
  have hooo : db₁.config.allowOutOfOrder = db₂.config.allowOutOfOrder := by rw [h.config]
  unfold Db.addValue
  split
  · exact ⟨h, rfl⟩
  · unfold Db.addEncoded
    simp only [h.session w.session, hooo]
    generalize db₂.session w.session = s
    obtain ⟨_ | row, opened, buffer, watermark⟩ := s
    · exact ⟨h, rfl⟩
    · simp only [Option.isNone_some, Bool.false_eq_true, if_false]
      split
      · exact ⟨h, rfl⟩
      · rcases watermark with _ | last
        · exact h.placeNow w ts _
        · dsimp only
          split
          · split
            · exact h.delegate.addEncodedPoint _ _ _ _
            · exact ⟨h, rfl⟩
          · exact h.placeNow w ts _

theorem SameCalls.setSeries (h : SameCalls db₁ db₂) (w : Writer) (metric : String) (tags : Tags) :
    SameOutcome (db₁.setSeries w metric tags) (db₂.setSeries w metric tags) := by
  unfold Db.setSeries
  obtain ⟨d₁, d₂, r, hb₁, hb₂, hd⟩ := (h.buildTemplate metric tags).exists_eq
  rw [hb₁, hb₂]
  rcases r with e | T
  · exact ⟨hd, rfl⟩
  · dsimp only
    simp only [hd.session w.session, hd.window]
    refine ⟨hd.push _, ?_⟩
    simp only [hd.sessions]

theorem SameCalls.setBufferingTime (h : SameCalls db₁ db₂) (ms : UInt16) :
    SameCalls (db₁.setBufferingTime ms) (db₂.setBufferingTime ms) := by
  show (db₁.callView.setBufferingTime ms).callView = (db₂.callView.setBufferingTime ms).callView
  rw [h]

theorem SameCalls.setBatchImport (h : SameCalls db₁ db₂) (w : Writer) (on : Bool) :
    SameOutcome (db₁.setBatchImport w on) (db₂.setBatchImport w on) := by
  have hdefault : db₁.config.defaultBatchBufferMs = db₂.config.defaultBatchBufferMs := by
    rw [h.config]
  unfold Db.setBatchImport
  simp only [h.flushInterval, hdefault]
  split
  · exact ⟨h, rfl⟩
  · split
    · split
      · exact ⟨h.setBufferingTime _, rfl⟩
      · exact ⟨h, rfl⟩
    · split
      · exact ⟨h.setBufferingTime _, rfl⟩
      · exact ⟨h, rfl⟩

end SameCalls

/-! ### Awaiting a write is not seen by the calls -/

theorem consult_of_filtersPoints {db : Db} (hf : db.filtersPoints = false) (metric : String)
    (ts : Int) (value : EncodedValue) (tags : Tags) :
    db.consult metric ts value tags = (db, .ok true) := by
  unfold consult
  unfold filtersPoints at hf
  split
  · next f hfilter =>
    rw [hfilter] at hf
    simp [hf]
  · rfl

/-- Issuing a request changes the tables of the store and the count of points written only. -/
theorem sameCalls_dispatch (db : Db) (r : WriteRequest) : SameCalls db (db.dispatch r).1 := by
  unfold dispatch
  dsimp only
  split
  · exact SameCalls.refl db
  · next store hs =>
    have hkeep : store.flushInterval = db.store.flushInterval ∧
        store.flushHandle = db.store.flushHandle ∧ store.failing = db.store.failing := by
      split at hs
      · exact Store.switches_append hs
      · exact Store.switches_put hs
    simp only [SameCalls, callView, hkeep.1, hkeep.2.1, hkeep.2.2]

/-- Awaiting a write that waits for no filter, when points pass no filter, changes nothing the
calls see. -/
theorem sameCalls_settle {db : Db} (hf : db.filtersPoints = false) {pw : PendingWrite}
    (hpw : pw.MadeWith false) : SameCalls db (db.settle pw).1 := by
  cases pw with
  | failed e => exact SameCalls.refl db
  | issue r => exact sameCalls_dispatch db r
  | point metric tags ts value row q =>
    simp only [settle, consult_of_filtersPoints hf]
    split
    · rfl
    · exact sameCalls_dispatch db _
  | admitted sid metric tags ts value durable => cases hpw

/-! ### The answer a write gets -/

/-- `db'` gives every write the answer `db` gives: the same settings and filter, and a store that
finds a table of the same family for every write, or refuses it alike. -/
structure Answers (db db' : Db) : Prop where
  config : db'.config = db.config
  filter : db'.filter = db.filter
  target : ∀ w, (db'.store.target w).map Table.family = (db.store.target w).map Table.family

section Answers

variable {db db' db'' : Db}

theorem Answers.refl (db : Db) : Answers db db := ⟨rfl, rfl, fun _ => rfl⟩

theorem Answers.trans (h₁ : Answers db db') (h₂ : Answers db' db'') : Answers db db'' :=
  ⟨h₂.config.trans h₁.config, h₂.filter.trans h₁.filter, fun w => (h₂.target w).trans (h₁.target w)⟩

theorem Answers.filtersPoints (h : Answers db db') : db'.filtersPoints = db.filtersPoints := by
  rw [Db.filtersPoints, Db.filtersPoints, h.filter]

/-- A change that keeps the settings, the filter and the store's answers keeps every answer. -/
theorem answers_of_target (hc : db'.config = db.config) (hf : db'.filter = db.filter)
    (ht : ∀ w, db'.store.target w = db.store.target w) : Answers db db' :=
  ⟨hc, hf, fun w => by rw [ht w]⟩

theorem answers_dispatch (db : Db) (r : WriteRequest) : Answers db (db.dispatch r).1 := by
  unfold dispatch
  dsimp only
  split
  · exact Answers.refl db
  · next store hs =>
    refine ⟨rfl, rfl, fun w => ?_⟩
    split at hs
    · exact Store.family_target_append hs w
    · exact Store.family_target_put hs w

theorem answers_settle (db : Db) (pw : PendingWrite) : Answers db (db.settle pw).1 := by
  obtain ⟨db₁, hf, -, ⟨-, h⟩ | ⟨r, -, h⟩⟩ := settle_stages db pw
  · rw [h]
    exact answers_of_target hf.config hf.filter (fun w => by rw [hf.store])
  · rw [h]
    exact (answers_of_target hf.config hf.filter (fun w => by rw [hf.store])).trans
      (answers_dispatch db₁ r)

/-- The result of a request: `Ok` when the store takes its write, the store's refusal
otherwise. -/
theorem dispatch_answer (db : Db) (r : WriteRequest) :
    (db.dispatch r).2 = match (db.store.target (db.cellWrite r)).map Table.family with
      | .ok _ => .ok ()
      | .error e => .error (.store e) := by
  rcases ht : db.store.target (db.cellWrite r) with e | t <;>
    by_cases happ : db.config.useAppendWrites <;>
    simp [dispatch, happ, Store.append, Store.put, ht, bind, Except.bind, pure, Except.pure,
      Except.map]

/-- A write that waits for no filter gets the same answer from databases that answer alike, when
points pass no filter. -/
theorem settle_answers (h : Answers db db') (hf : db.filtersPoints = false) {pw : PendingWrite}
    (hpw : pw.MadeWith false) : (db'.settle pw).2 = (db.settle pw).2 := by
  have hf' : db'.filtersPoints = false := h.filtersPoints.trans hf
  have hd : ∀ r, (db'.dispatch r).2 = (db.dispatch r).2 := fun r => by
    rw [dispatch_answer, dispatch_answer, cellWrite_congr h.config, h.target]
  cases pw with
  | failed e => rfl
  | issue r => exact hd _
  | point metric tags ts value row q =>
    simp only [settle, consult_of_filtersPoints hf, consult_of_filtersPoints hf']
    split
    · rfl
    · exact hd _
  | admitted sid metric tags ts value durable => cases hpw

theorem stored_answers (h : Answers db db') (hf : db.filtersPoints = false) {pw : PendingWrite}
    (hpw : pw.MadeWith false) : db'.stored pw = db.stored pw := by
  have hf' : db'.filtersPoints = false := h.filtersPoints.trans hf
  have hi : db'.issued pw = db.issued pw := by
    cases pw with
    | point metric tags ts value row q =>
      simp only [issued, consult_of_filtersPoints hf, consult_of_filtersPoints hf']
    | admitted sid metric tags ts value durable => cases hpw
    | _ => rfl
  rw [stored, stored, settle_answers h hf hpw, hi]

/-! The calls of a writer keep the answers: they change the store's flush interval at most. -/

theorem store_setSeries (db : Db) (w : Writer) (metric : String) (tags : Tags) :
    (db.setSeries w metric tags).1.store = db.store := by
  unfold setSeries
  rcases hb : db.buildTemplate metric tags with ⟨db₁, e | T⟩ <;>
    simp only [buildTemplate, Prod.mk.injEq] at hb <;> obtain ⟨rfl, -⟩ := hb <;> rfl

theorem target_setBatchImport (db : Db) (w : Writer) (on : Bool) (w' : CellWrite) :
    (db.setBatchImport w on).1.store.target w' = db.store.target w' := by
  unfold setBatchImport
  split
  · rfl
  · dsimp only
    split <;> (try split) <;> rfl

theorem answers_addValue (db : Db) (w : Writer) (ts : Int) (value : DataValue) :
    Answers db (db.addValue w ts value).1 :=
  answers_of_target (keepsCells_addValue db w ts value).config (unasked_addValue db w ts value).filter
    (fun _ => by rw [store_addValue])

theorem answers_setSeries (db : Db) (w : Writer) (metric : String) (tags : Tags) :
    Answers db (db.setSeries w metric tags).1 :=
  answers_of_target (keepsCells_setSeries db w metric tags).config
    (unasked_setSeries db w metric tags).filter (fun _ => by rw [store_setSeries])

theorem answers_setBatchImport (db : Db) (w : Writer) (on : Bool) :
    Answers db (db.setBatchImport w on).1 :=
  answers_of_target (keepsCells_setBatchImport db w on).config
    (unasked_setBatchImport db w on).filter (target_setBatchImport db w on)

end Answers

/-! ### What awaiting a write counts -/

section Counted

variable {db : Db} {pw : PendingWrite}

/-- A write that waits for no filter, awaited when points pass no filter, counts a point written
exactly when it gives `Ok`. -/
theorem written_settle (hf : db.filtersPoints = false) (hpw : pw.MadeWith false) :
    (db.settle pw).1.stats.pointsWritten = db.stats.pointsWritten + (db.settle pw).2.toBool.toNat := by
  have ht := tallies_settle db pw
  have hdrop : (db.settle pw).1.stats.pointsFiltered = db.stats.pointsFiltered :=
    congrArg (fun d => d.stats.pointsFiltered) (sameCalls_settle hf hpw).symm
  rcases hres : (db.settle pw).2 with e | ⟨⟩
  · simpa [Except.toBool] using (ht.error e hres).written
  · rcases ht.ok hres with hc | hc
    · simpa [Except.toBool] using hc.written
    · have := hc.dropped
      omega

/-- It counts a refused metric exactly when it gives that refusal and its call did not count it
already. -/
theorem refused_settle (hf : db.filtersPoints = false) (hpw : pw.MadeWith false) :
    (db.settle pw).1.stats.metricRejections =
      db.stats.metricRejections + (refusedMetric (db.settle pw).2 && !pw.counted).toNat := by
  have ht := tallies_settle db pw
  have hdrop : (db.settle pw).1.stats.pointsFiltered = db.stats.pointsFiltered :=
    congrArg (fun d => d.stats.pointsFiltered) (sameCalls_settle hf hpw).symm
  rcases hres : (db.settle pw).2 with e | ⟨⟩
  · simpa [refusedMetric] using (ht.error e hres).refused
  · rcases ht.ok hres with hc | hc
    · simpa [refusedMetric] using hc.refused
    · have := hc.dropped
      omega

end Counted

end Db

end SeriesIngest
