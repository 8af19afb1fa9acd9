import SeriesIngest.Write.Writer

/-!
# Runs of a series writer

A client of a database holds a writer and makes calls on it: it sets the series, adds points,
switches batch import and sets the buffering time, and it awaits the pending writes its calls
returned, each when it likes, some never. The admission filter is code outside the library, so
its answers may change from one point to the next. Beside each pending write a run keeps the
point the call was made for, as the call received it.

`Db.issued` reads off a pending write the store request it makes if it runs now, and
`Db.settle_of_issued` says that running it makes exactly that request. `Db.Frame` says what the
bookkeeping of a write leaves alone: settings, key rules, ids, store and filter.
-/

namespace SeriesIngest

/-- A point as an add call received it: the writer's series at the time, the timestamp and the
value. -/
structure AddedPoint where
  metric : String
  tags : Tags
  ts : Int
  value : DataValue

/-- What a client does next with its writer. -/
inductive WriterCall where
  | setSeries (metric : String) (tags : Tags)
  | add (ts : Int) (value : DataValue)
  | setBatchImport (on : Bool)
  | setBufferingTime (ms : UInt16)
  /-- Awaits the pending write at this index. -/
  | await (i : Nat)
  /-- The filter gives other answers from now on. -/
  | answer (verdict : Admission → Except String Bool)

/-- A writer of a database, and the pending writes its calls returned that are not awaited yet,
each beside its point. -/
structure WriterRun where
  db : Db
  writer : Writer
  pending : List (AddedPoint × PendingWrite)

namespace Db

/-- The database whose filter, if it has one, gives these answers. -/
def withVerdict (db : Db) (verdict : Admission → Except String Bool) : Db :=
  { db with filter := db.filter.map fun f => { f with verdict := verdict } }

/-- The store request a pending write makes if it runs now, when it gets that far. -/
def issued (db : Db) : PendingWrite → Option WriteRequest
  | .failed _ => none
  | .issue r => some r
  | .point metric tags ts value row q =>
    match db.consult metric ts value tags with
    | (_, .ok true) => if row.metricResolved then some ⟨row.bytes, q, value.bytes, true⟩ else none
    | _ => none
  | .admitted sid metric tags ts value durable =>
    match db.consult metric ts value tags with
    | (db, .ok true) =>
      match db.writeAllowed sid metric ts value with
      | (_, .ok (row, q)) => some ⟨row, q, value.bytes, durable⟩
      | _ => none
    | _ => none

/-- `db'` has the settings, key rules, ids, store and filter of `db`: it differs at most in the
sessions, the counters, the compaction queue, the admissions asked and the log. -/
structure Frame (db db' : Db) : Prop where
  config : db'.config = db.config
  rules : db'.rules = db.rules
  ids : db'.ids = db.ids
  store : db'.store = db.store
  filter : db'.filter = db.filter

theorem Frame.refl (db : Db) : Frame db db := ⟨rfl, rfl, rfl, rfl, rfl⟩

theorem Frame.trans {db db' db'' : Db} (h₁ : Frame db db') (h₂ : Frame db' db'') :
    Frame db db'' :=
  ⟨h₂.config.trans h₁.config, h₂.rules.trans h₁.rules, h₂.ids.trans h₁.ids,
    h₂.store.trans h₁.store, h₂.filter.trans h₁.filter⟩

theorem frame_setSession (db : Db) (sid : Nat) (s : Session) : Frame db (db.setSession sid s) :=
  ⟨rfl, rfl, rfl, rfl, rfl⟩

theorem frame_rejectMetric (db : Db) (metric : String) : Frame db (db.rejectMetric metric).1 :=
  ⟨rfl, rfl, rfl, rfl, rfl⟩

theorem frame_consult (db : Db) (metric : String) (ts : Int) (value : EncodedValue)
    (tags : Tags) : Frame db (db.consult metric ts value tags).1 := by
  unfold consult
  dsimp only
  split
  · split
    · split <;> exact ⟨rfl, rfl, rfl, rfl, rfl⟩
    · exact ⟨rfl, rfl, rfl, rfl, rfl⟩
  · exact Frame.refl _

theorem frame_rollIfNeeded (db : Db) (sid : Nat) (ts : Int) : Frame db (db.rollIfNeeded sid ts) := by
  unfold rollIfNeeded
  dsimp only
  split
  · exact Frame.refl db
  · split
    · exact frame_setSession _ _ _
    · split
      · exact ⟨rfl, rfl, rfl, rfl, rfl⟩
      · exact Frame.refl db

theorem frame_acceptInOrder (db : Db) (sid : Nat) (metric : String) (ts : Int)
    (value : EncodedValue) : Frame db (db.acceptInOrder sid metric ts value).1 := by
  -- every branch is the raised watermark, then possibly a rollover and a new buffer
  have h₁ := frame_setSession db sid { db.session sid with watermark := some (Time.toMillis ts) }
  unfold acceptInOrder
  dsimp only
  split
  · exact h₁
  · split
    · exact h₁.trans (frame_rejectMetric _ _)
    · have h₂ := h₁.trans (frame_rollIfNeeded _ sid ts)
      split
      · exact h₂
      · split
        · exact h₂.trans (frame_setSession _ _ _)
        · exact h₂

theorem frame_writeAllowed (db : Db) (sid : Nat) (metric : String) (ts : Int)
    (value : EncodedValue) : Frame db (db.writeAllowed sid metric ts value).1 := by
  unfold writeAllowed
  dsimp only
  split
  · exact Frame.refl db
  · split
    · split
      · split
        · exact Frame.refl db
        · split
          · exact frame_rejectMetric _ _
          · exact ⟨rfl, rfl, rfl, rfl, rfl⟩
      · exact frame_acceptInOrder _ _ _ _ _
    · exact frame_acceptInOrder _ _ _ _ _

@[simp] theorem sessions_consult (db : Db) (metric : String) (ts : Int) (value : EncodedValue)
    (tags : Tags) : (db.consult metric ts value tags).1.sessions = db.sessions := by
  unfold consult
  dsimp only
  split
  · split
    · split <;> rfl
    · rfl
  · rfl

@[simp] theorem sessions_buildTemplate (db : Db) (metric : String) (tags : Tags) :
    (db.buildTemplate metric tags).1.sessions = db.sessions := rfl

@[simp] theorem sessions_rejectMetric (db : Db) (metric : String) :
    (db.rejectMetric metric).1.sessions = db.sessions := rfl

@[simp] theorem session_rejectMetric (db : Db) (metric : String) (sid : Nat) :
    (db.rejectMetric metric).1.session sid = db.session sid := rfl

@[simp] theorem sessions_dispatch (db : Db) (r : WriteRequest) :
    (db.dispatch r).1.sessions = db.sessions := by
  unfold dispatch
  dsimp only
  split <;> rfl

@[simp] theorem size_setSession (db : Db) (sid : Nat) (s : Session) :
    (db.setSession sid s).sessions.size = db.sessions.size := by
  simp [setSession]

@[simp] theorem session_setSession_self {db : Db} {sid : Nat} (h : sid < db.sessions.size)
    (s : Session) : (db.setSession sid s).session sid = s := by
  simp [session, setSession, Array.getElem?_setIfInBounds_self_of_lt h]

@[simp] theorem session_setSession_ne (db : Db) {sid sid' : Nat} (h : sid ≠ sid') (s : Session) :
    (db.setSession sid s).session sid' = db.session sid' := by
  simp [session, setSession, Array.getElem?_setIfInBounds_ne h]

/-- A session pushed after the others takes the next id; every other session stays. -/
theorem session_push (db : Db) (s : Session) (sid : Nat) :
    ({ db with sessions := db.sessions.push s } : Db).session sid =
      if sid = db.sessions.size then s else db.session sid := by
  split
  · next h =>
    subst h
    simp [session, Array.getD]
  · next h =>
    rcases Nat.lt_or_gt_of_ne h with hlt | hgt
    · simp [session, Array.getD, hlt, Array.getElem_push_lt, Nat.lt_succ_of_lt hlt]
    · simp [session, Array.getD, Nat.not_lt.2 (Nat.le_of_lt hgt), Nat.not_lt.2 (Nat.succ_le_of_lt hgt)]

/-- Running a pending write makes the request `issued` reads off it: the bookkeeping before the
request leaves the store and the settings alone, and the request then goes to the store. -/
theorem settle_of_issued {db : Db} {pw : PendingWrite} {r : WriteRequest}
    (h : db.issued pw = some r) : ∃ db₁, Frame db db₁ ∧ db.settle pw = db₁.dispatch r := by
  cases pw with
  | failed e => cases h
  | issue r' =>
    cases h
    exact ⟨db, Frame.refl db, rfl⟩
  | point metric tags ts value row q =>
    simp only [issued] at h
    rcases hc : db.consult metric ts value tags with ⟨db₁, _ | _ | _⟩ <;> rw [hc] at h <;>
      simp only [reduceCtorEq] at h
    have hf : Frame db db₁ := by simpa [hc] using frame_consult db metric ts value tags
    split at h
    · next hres =>
      cases h
      exact ⟨db₁, hf, by simp [settle, hc, hres]⟩
    · cases h
  | admitted sid metric tags ts value durable =>
    simp only [issued] at h
    rcases hc : db.consult metric ts value tags with ⟨db₁, _ | _ | _⟩ <;> rw [hc] at h <;>
      simp only [reduceCtorEq] at h
    have hf : Frame db db₁ := by simpa [hc] using frame_consult db metric ts value tags
    rcases hw : db₁.writeAllowed sid metric ts value with ⟨db₂, _ | ⟨row, q⟩⟩ <;> rw [hw] at h
    · cases h
    cases h
    exact ⟨db₂, hf.trans (by simpa [hw] using frame_writeAllowed db₁ sid metric ts value),
      by simp [settle, hc, hw]⟩

/-- A pending write that issues no request when it runs leaves the store alone: `issued` misses
no request. -/
theorem store_settle_of_issued_none {db : Db} {pw : PendingWrite} (h : db.issued pw = none) :
    (db.settle pw).1.store = db.store := by
  cases pw with
  | failed e => rfl
  | issue r => cases h
  | point metric tags ts value row q =>
    have hf := frame_consult db metric ts value tags
    dsimp only [Db.issued] at h
    dsimp only [settle]
    rcases hc : db.consult metric ts value tags with ⟨db₁, e | _ | _⟩ <;> rw [hc] at hf h
    · exact hf.store
    · exact hf.store
    · dsimp only at h ⊢
      split at h
      · cases h
      · next hres =>
        simp only [Bool.not_eq_true] at hres
        simp only [hres, Bool.not_false, if_true]
        exact hf.store
  | admitted sid metric tags ts value durable =>
    have hf := frame_consult db metric ts value tags
    dsimp only [Db.issued] at h
    dsimp only [settle]
    rcases hc : db.consult metric ts value tags with ⟨db₁, e | _ | _⟩ <;> rw [hc] at hf h
    · exact hf.store
    · exact hf.store
    · have hw := frame_writeAllowed db₁ sid metric ts value
      dsimp only at h ⊢
      rcases hwa : db₁.writeAllowed sid metric ts value with ⟨db₂, e | _⟩ <;> rw [hwa] at h hw
      · exact hw.store.trans hf.store
      · cases h

end Db

namespace WriterRun

/-- A new writer of a database, with nothing pending. -/
def start (db : Db) : WriterRun :=
  let (db, w) := db.newWriter
  ⟨db, w, []⟩

/-- The run after one more call. A call that fails leaves what it changed on the way, such as
ids given to the names of a series it refused. -/
def step (r : WriterRun) : WriterCall → WriterRun
  | .setSeries metric tags =>
    match r.db.setSeries r.writer metric tags with
    | (db, .ok w) => { r with db := db, writer := w }
    | (db, .error _) => { r with db := db }
  | .add ts value =>
    match r.db.addValue r.writer ts value with
    | (db, .ok pw) =>
      { r with db := db, pending := r.pending ++ [(⟨r.writer.metric, r.writer.tags, ts, value⟩, pw)] }
    | (db, .error _) => { r with db := db }
  | .setBatchImport on =>
    let (db, w) := r.db.setBatchImport r.writer on
    { r with db := db, writer := w }
  | .setBufferingTime ms => { r with db := r.db.setBufferingTime ms }
  | .await i =>
    match r.pending[i]? with
    | some (_, pw) => { r with db := (r.db.settle pw).1, pending := r.pending.eraseIdx i }
    | none => r
  | .answer verdict => { r with db := r.db.withVerdict verdict }

/-- Whatever an add returns, the run goes on with the database it leaves. -/
@[simp] theorem db_step_add (r : WriterRun) (ts : Int) (value : DataValue) :
    (r.step (.add ts value)).db = (r.db.addValue r.writer ts value).1 := by
  rcases h : r.db.addValue r.writer ts value with ⟨db, _ | pw⟩ <;> simp [step, h]

/-- The states that runs of a new writer of a built database reach. -/
inductive Reachable : WriterRun → Prop
  | start {config : Config} {store : Store} {parts : DbParts} {db : Db} :
      Db.build config store parts = .ok db → Reachable (start db)
  | step {r : WriterRun} (c : WriterCall) : Reachable r → Reachable (r.step c)

end WriterRun

end SeriesIngest
