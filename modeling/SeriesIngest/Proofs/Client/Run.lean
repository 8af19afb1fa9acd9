import SeriesIngest.Proofs.Write.Effects

/-!
# Runs of the clients of a database

A database serves many clients at once: writers, each with its series and its session, and
points added through the handle. A client run keeps the database, the writers the clients hold,
the pending writes their calls returned and have not awaited yet, each beside its point, and the
writes awaited so far, in the order they were awaited, each beside its point and what it gave.
The admission filter is code outside the library, so its answers may change from one point to
the next; whether it filters at all is fixed when the database is built. The store may be switched
to refuse every write, and back.

What every run keeps (`ClientRun.Inv`) is what every run of one writer keeps, for every writer
at once: every session with a row fills the rows of a template that fits the key rules; the
session of each writer serves the writer's series, whose template builds again without new ids;
and every pending write holds to its point (`Db.PendingOk`) and carries it (`PendingWrite.Carries`),
asking the filter about it exactly when the filter is on (`PendingWrite.MadeWith`).

Main statement: `ClientRun.Reachable.inv`.
-/

namespace SeriesIngest

/-- What the clients of a database do next; a writer is named by its place among the writers. -/
inductive ClientCall where
  | newWriter
  | setSeries (writer : Nat) (metric : String) (tags : Tags)
  | add (writer : Nat) (ts : Int) (value : DataValue)
  /-- Adds a point through the database handle. -/
  | addPoint (metric : String) (ts : Int) (value : DataValue) (tags : Tags)
  | setBatchImport (writer : Nat) (on : Bool)
  | setBufferingTime (ms : UInt16)
  /-- Awaits the pending write at this index. -/
  | await (i : Nat)
  /-- The filter gives other answers from now on. -/
  | answer (verdict : Admission → Except String Bool)
  /-- The store refuses every write from now on, or takes them again. -/
  | failWrites (on : Bool)

/-- The clients of a database: their writers, the pending writes not awaited yet and the writes
awaited so far, with what each gave. -/
structure ClientRun where
  db : Db
  writers : List Writer
  pending : List (AddedPoint × PendingWrite)
  done : List (AddedPoint × Except WriteError Unit)

namespace ClientRun

/-- The clients of a new database: no writers, nothing pending. -/
def start (db : Db) : ClientRun := ⟨db, [], [], []⟩

/-- The clients after one more call. A call that fails leaves what it changed on the way, such
as ids given to the names of a series it refused; a call naming a writer or a pending write that
is not there does nothing. -/
def step (R : ClientRun) : ClientCall → ClientRun
  | .newWriter =>
    let (db, w) := R.db.newWriter
    { R with db := db, writers := R.writers ++ [w] }
  | .setSeries i metric tags =>
    match R.writers[i]? with
    | some w =>
      match R.db.setSeries w metric tags with
      | (db, .ok w') => { R with db := db, writers := R.writers.set i w' }
      | (db, .error _) => { R with db := db }
    | none => R
  | .add i ts value =>
    match R.writers[i]? with
    | some w =>
      match R.db.addValue w ts value with
      | (db, .ok pw) =>
        { R with db := db, pending := R.pending ++ [(⟨w.metric, w.tags, ts, value⟩, pw)] }
      | (db, .error _) => { R with db := db }
    | none => R
  | .addPoint metric ts value tags =>
    match R.db.addPoint metric ts value tags with
    | (db, .ok pw) => { R with db := db, pending := R.pending ++ [(⟨metric, tags, ts, value⟩, pw)] }
    | (db, .error _) => { R with db := db }
  | .setBatchImport i on =>
    match R.writers[i]? with
    | some w =>
      let (db, w') := R.db.setBatchImport w on
      { R with db := db, writers := R.writers.set i w' }
    | none => R
  | .setBufferingTime ms => { R with db := R.db.setBufferingTime ms }
  | .await i =>
    match R.pending[i]? with
    | some (p, pw) =>
      let (db, res) := R.db.settle pw
      { R with db := db, pending := R.pending.eraseIdx i, done := R.done ++ [(p, res)] }
    | none => R
  | .answer verdict => { R with db := R.db.withVerdict verdict }
  | .failWrites on => { R with db := { R.db with store := R.db.store.setFailing on } }

/-- The clients after a list of calls. -/
def run (R : ClientRun) (cs : List ClientCall) : ClientRun := cs.foldl step R

@[simp] theorem run_nil (R : ClientRun) : R.run [] = R := rfl

@[simp] theorem run_cons (R : ClientRun) (c : ClientCall) (cs : List ClientCall) :
    R.run (c :: cs) = (R.step c).run cs := rfl

/-- The states that the clients of a built database reach. -/
inductive Reachable : ClientRun → Prop
  | start {config : Config} {store : Store} {parts : DbParts} {db : Db} :
      Db.build config store parts = .ok db → Reachable (start db)
  | step {R : ClientRun} (c : ClientCall) : Reachable R → Reachable (R.step c)

theorem Reachable.run {R : ClientRun} (h : R.Reachable) (cs : List ClientCall) :
    (R.run cs).Reachable := by
  induction cs generalizing R with
  | nil => exact h
  | cons c cs ih => exact ih (h.step c)

end ClientRun

/-! ### What asks the filter -/

namespace Db

/-- `db'` has the filter of `db`, and has asked it nothing more. -/
structure Unasked (db db' : Db) : Prop where
  filter : db'.filter = db.filter
  admissions : db'.admissions = db.admissions

section Unasked

variable {db db' db'' : Db}

theorem Unasked.refl (db : Db) : Unasked db db := ⟨rfl, rfl⟩

theorem Unasked.trans (h₁ : Unasked db db') (h₂ : Unasked db' db'') : Unasked db db'' :=
  ⟨h₂.filter.trans h₁.filter, h₂.admissions.trans h₁.admissions⟩

/-- Only asking the filter changes the questions asked: moving a session on, counting, and
issuing a request do not. -/
theorem unasked_rollIfNeeded (db : Db) (sid : Nat) (ts : Int) :
    Unasked db (db.rollIfNeeded sid ts) := by
  unfold rollIfNeeded
  dsimp only
  split
  · exact Unasked.refl db
  · split
    · exact ⟨rfl, rfl⟩
    · split
      · exact ⟨rfl, rfl⟩
      · exact Unasked.refl db

theorem unasked_acceptInOrder (db : Db) (sid : Nat) (metric : String) (ts : Int)
    (value : EncodedValue) : Unasked db (db.acceptInOrder sid metric ts value).1 := by
  have h₁ : Unasked db
      (db.setSession sid { db.session sid with watermark := some (Time.toMillis ts) }) := ⟨rfl, rfl⟩
  unfold acceptInOrder
  dsimp only
  split
  · exact h₁
  · split
    · exact h₁.trans ⟨rfl, rfl⟩
    · have h₂ := h₁.trans (unasked_rollIfNeeded _ sid ts)
      split
      · exact h₂
      · split
        · exact h₂.trans ⟨rfl, rfl⟩
        · exact h₂

theorem unasked_writeAllowed (db : Db) (sid : Nat) (metric : String) (ts : Int)
    (value : EncodedValue) : Unasked db (db.writeAllowed sid metric ts value).1 := by
  unfold writeAllowed
  dsimp only
  split
  · exact Unasked.refl db
  · split
    · split
      · split
        · exact Unasked.refl db
        · split
          · exact ⟨rfl, rfl⟩
          · exact ⟨rfl, rfl⟩
      · exact unasked_acceptInOrder _ _ _ _ _
    · exact unasked_acceptInOrder _ _ _ _ _

theorem unasked_dispatch (db : Db) (r : WriteRequest) : Unasked db (db.dispatch r).1 := by
  rcases db.dispatch_eq r with h | ⟨store, h⟩ <;> rw [h]
  · exact Unasked.refl db
  · exact ⟨rfl, rfl⟩

theorem unasked_buildTemplate (db : Db) (metric : String) (tags : Tags) :
    Unasked db (db.buildTemplate metric tags).1 :=
  ⟨rfl, rfl⟩

/-- The calls of the clients ask the filter nothing: only awaiting a write does. -/
theorem unasked_addEncodedPoint (db : Db) (metric : String) (ts : Int) (value : EncodedValue)
    (tags : Tags) : Unasked db (db.addEncodedPoint metric ts value tags).1 := by
  unfold addEncodedPoint
  split
  · exact Unasked.refl db
  · have h₁ := unasked_buildTemplate db metric tags
    rcases hb : db.buildTemplate metric tags with ⟨db₁, e | T⟩ <;> rw [hb] at h₁
    · exact h₁
    · dsimp only
      split <;> exact h₁

theorem unasked_addPoint (db : Db) (metric : String) (ts : Int) (value : DataValue)
    (tags : Tags) : Unasked db (db.addPoint metric ts value tags).1 := by
  unfold addPoint
  split
  · exact Unasked.refl db
  · exact unasked_addEncodedPoint _ _ _ _ _

theorem unasked_placeNow (db : Db) (w : Writer) (ts : Int) (value : EncodedValue) :
    Unasked db (db.placeNow w ts value).1 := by
  unfold placeNow
  dsimp only
  split
  · have h₁ := unasked_writeAllowed db w.session w.metric ts value
    rcases hw : db.writeAllowed w.session w.metric ts value with ⟨db₁, _ | _⟩ <;> rw [hw] at h₁ <;>
      exact h₁
  · exact Unasked.refl db

theorem unasked_addValue (db : Db) (w : Writer) (ts : Int) (value : DataValue) :
    Unasked db (db.addValue w ts value).1 := by
  unfold addValue
  split
  · exact Unasked.refl db
  · next ev _ =>
    unfold addEncoded
    dsimp only
    split
    · exact Unasked.refl db
    · split
      · exact Unasked.refl db
      · split
        · split
          · split
            · exact ⟨(unasked_addEncodedPoint _ w.metric ts ev w.tags).filter,
                (unasked_addEncodedPoint _ w.metric ts ev w.tags).admissions⟩
            · exact Unasked.refl db
          · exact unasked_placeNow db w ts ev
        · exact unasked_placeNow db w ts ev

theorem unasked_setSeries (db : Db) (w : Writer) (metric : String) (tags : Tags) :
    Unasked db (db.setSeries w metric tags).1 := by
  unfold setSeries
  have h₁ := unasked_buildTemplate db metric tags
  rcases hb : db.buildTemplate metric tags with ⟨db₁, e | T⟩ <;> rw [hb] at h₁
  · exact h₁
  · exact ⟨h₁.filter, h₁.admissions⟩

theorem unasked_setBatchImport (db : Db) (w : Writer) (on : Bool) :
    Unasked db (db.setBatchImport w on).1 := by
  unfold setBatchImport
  split
  · exact Unasked.refl db
  · dsimp only
    split
    · split <;> exact ⟨rfl, rfl⟩
    · split <;> exact ⟨rfl, rfl⟩

end Unasked

/-- Awaiting a write keeps the filter. -/
theorem filter_settle (db : Db) (pw : PendingWrite) : (db.settle pw).1.filter = db.filter := by
  cases pw with
  | failed e => rfl
  | issue r => exact (unasked_dispatch db r).filter
  | point metric tags ts value row q =>
    have h₁ := (frame_consult db metric ts value tags).filter
    dsimp only [settle]
    rcases hc : db.consult metric ts value tags with ⟨db₁, e | _ | _⟩ <;> rw [hc] at h₁
    · exact h₁
    · exact h₁
    · dsimp only
      split
      · exact h₁
      · exact (unasked_dispatch db₁ _).filter.trans h₁
  | admitted sid metric tags ts value durable =>
    have h₁ := (frame_consult db metric ts value tags).filter
    dsimp only [settle]
    rcases hc : db.consult metric ts value tags with ⟨db₁, e | _ | _⟩ <;> rw [hc] at h₁
    · exact h₁
    · exact h₁
    · have h₂ := (frame_writeAllowed db₁ sid metric ts value).filter.trans h₁
      dsimp only
      rcases hw : db₁.writeAllowed sid metric ts value with ⟨db₂, _ | _⟩ <;> rw [hw] at h₂
      · exact h₂
      · exact (unasked_dispatch db₂ _).filter.trans h₂

@[simp] theorem filtersPoints_withVerdict (db : Db) (verdict : Admission → Except String Bool) :
    (db.withVerdict verdict).filtersPoints = db.filtersPoints := by
  unfold withVerdict filtersPoints
  cases db.filter <;> rfl

end Db

namespace ClientRun

/-- Whether the filter filters never changes. -/
theorem filtersPoints_step (R : ClientRun) (c : ClientCall) :
    (R.step c).db.filtersPoints = R.db.filtersPoints := by
  have hf : ∀ db : Db, db.filter = R.db.filter → db.filtersPoints = R.db.filtersPoints :=
    fun db h => by simp only [Db.filtersPoints, h]
  cases c with
  | newWriter => rfl
  | setSeries i metric tags =>
    simp only [step]
    split
    · next w _ =>
      have h := (Db.unasked_setSeries R.db w metric tags).filter
      rcases hs : R.db.setSeries w metric tags with ⟨db, _ | _⟩ <;> rw [hs] at h <;> exact hf db h
    · rfl
  | add i ts value =>
    simp only [step]
    split
    · next w _ =>
      have h := (Db.unasked_addValue R.db w ts value).filter
      rcases ha : R.db.addValue w ts value with ⟨db, _ | _⟩ <;> rw [ha] at h <;> exact hf db h
    · rfl
  | addPoint metric ts value tags =>
    have h := (Db.unasked_addPoint R.db metric ts value tags).filter
    simp only [step]
    rcases ha : R.db.addPoint metric ts value tags with ⟨db, _ | _⟩ <;> rw [ha] at h <;>
      exact hf db h
  | setBatchImport i on =>
    simp only [step]
    split
    · exact hf _ (Db.unasked_setBatchImport _ _ _).filter
    · rfl
  | setBufferingTime ms => rfl
  | await i =>
    simp only [step]
    split
    · exact hf _ (Db.filter_settle _ _)
    · rfl
  | answer verdict => exact Db.filtersPoints_withVerdict _ _
  | failWrites on => rfl

end ClientRun

/-! ### What every run keeps -/

namespace KeyRules

variable (r : KeyRules)

/-- A template built once is built again, without new ids, from any registry that kept the ids
of the first build; its metric may have found an id since. -/
theorem buildTemplate_rebuilds {ids ids' ids'' : IdRegistry} {metric : String} {tags : Tags}
    {T : RowKey} (h : r.buildTemplate ids metric tags = (ids', .ok T)) (hk : ids'.Keeps ids'') :
    ∃ T', r.buildTemplate ids'' metric tags = (ids'', .ok T') := by
  cases hT : T.metricResolved with
  | true => exact ⟨T, r.buildTemplate_stable h hT hk⟩
  | false =>
    rcases hcheck : checkIdentity metric tags r.maxTags r.allowed with e | ⟨⟩
    · simp [buildTemplate, hcheck] at h
    by_cases ha : r.autoCreateMetrics
    · exfalso
      rcases hg : ids.getOrCreate .metric metric with ⟨ids₁, _ | mid⟩
      · simp [buildTemplate, hcheck, ha, hg] at h
      rcases hr : r.resolveTags ids₁ tags.toList with ⟨ids₂, _ | ps⟩
      · simp [buildTemplate, hcheck, ha, hg, hr] at h
      simp only [buildTemplate, hcheck, ha, hg, hr, if_true, Prod.mk.injEq, Except.ok.injEq] at h
      obtain ⟨-, rfl⟩ := h
      simp at hT
    · rcases hr : r.resolveTags ids tags.toList with ⟨ids₂, _ | ps⟩
      · simp [buildTemplate, hcheck, ha, hr] at h
      simp only [buildTemplate, hcheck, ha, hr, Bool.false_eq_true, if_false, Prod.mk.injEq] at h
      obtain ⟨rfl, -⟩ := h
      simp [buildTemplate, hcheck, ha, r.resolveTags_stable hr hk]

end KeyRules

namespace Db

/-- The template of a series builds without new ids. -/
def Builds (db : Db) (metric : String) (tags : Tags) : Prop :=
  ∃ T, db.rules.buildTemplate db.ids metric tags = (db.ids, .ok T)

theorem Builds.of_extends {db db' : Db} {metric : String} {tags : Tags}
    (h : db.Builds metric tags) (he : Extends db db') : db'.Builds metric tags := by
  obtain ⟨T, hT⟩ := h
  rw [Builds, he.rules]
  exact db.rules.buildTemplate_rebuilds hT he.ids

/-- A series whose template was just built builds again without new ids. -/
theorem builds_buildTemplate {db db' : Db} {metric : String} {tags : Tags} {T : RowKey}
    (h : db.buildTemplate metric tags = (db', .ok T)) : db'.Builds metric tags := by
  simp only [Db.buildTemplate, Prod.mk.injEq] at h
  obtain ⟨rfl, hT⟩ := h
  exact db.rules.buildTemplate_rebuilds (Prod.ext rfl hT) (IdRegistry.Keeps.refl _)

/-- The in-order path on a filling session fails only for a metric without an id. -/
theorem acceptInOrder_error {db : Db} {T : RowKey} {sid : Nat} {metric : String} {ts : Int}
    {value : EncodedValue} {e : WriteError} (hd : db.Sound) (hT : db.rules.Fits T)
    (hts : checkTimestamp ts = .ok ()) (h : Filling db T (db.session sid))
    (hlate : notAfter (db.session sid).watermark (Time.toMillis ts) = false)
    (he : (db.acceptInOrder sid metric ts value).2 = .error e) :
    e = .unresolved .metric metric := by
  cases hres : T.metricResolved with
  | true =>
    obtain ⟨q, -, hok, -⟩ := acceptInOrder_of_filling metric value hd hT hres hts h hlate
    rw [hok] at he
    cases he
  | false =>
    obtain ⟨k, hk⟩ := h.exists_row
    have hkres : k.metricResolved = false := (h.metricResolved_row hk).trans hres
    simp only [acceptInOrder, hk, hkres, Bool.not_false, if_true, rejectMetric] at he
    exact (Except.error.inj he).symm

end Db

/-- What a pending write keeps of its point whatever the database does meanwhile: a write that
failed at once failed for its metric, and a point handed to the handle, or waiting for the filter,
has the point's series, time and encoded value. -/
def PendingWrite.Carries (p : AddedPoint) : PendingWrite → Prop
  | .failed e => e = .unresolved .metric p.metric
  | .issue _ => True
  | .point metric tags ts ev _ _ =>
    metric = p.metric ∧ tags = p.tags ∧ ts = p.ts ∧ encodeValue p.value = .ok ev
  | .admitted _ metric tags ts ev _ =>
    metric = p.metric ∧ tags = p.tags ∧ ts = p.ts ∧ encodeValue p.value = .ok ev

/-- A pending write made while the filter was on or off: with it on every write asks it, with it
off no write waits for it. -/
def PendingWrite.MadeWith (filtering : Bool) : PendingWrite → Prop
  | .failed _ => filtering = false
  | .issue _ => filtering = false
  | .point .. => True
  | .admitted .. => filtering = true

namespace Db

section Add

variable {db : Db} {w : Writer} {ts : Int} {value : DataValue} {pw : PendingWrite}

/-- The handle's pending write carries its point, which asks the filter whenever it filters. -/
theorem addEncodedPoint_carries {metric : String} {ev : EncodedValue} {tags : Tags}
    (henc : encodeValue value = .ok ev)
    (h : (db.addEncodedPoint metric ts ev tags).2 = .ok pw) (filtering : Bool) :
    pw.Carries ⟨metric, tags, ts, value⟩ ∧ pw.MadeWith filtering := by
  unfold addEncodedPoint at h
  split at h
  · cases h
  · rcases hb : db.buildTemplate metric tags with ⟨db₁, e | T⟩ <;> rw [hb] at h
    · cases h
    · dsimp only at h
      split at h
      · cases h
      · cases h
        exact ⟨⟨rfl, rfl, rfl, henc⟩, trivial⟩

/-- A writer's pending write carries its point, and asks the filter exactly when it filters. -/
theorem addValue_carries (hd : db.Sound)
    (hw : (db.session w.session).row.isSome → db.Serves w.session w.metric w.tags)
    (h : (db.addValue w ts value).2 = .ok pw) :
    pw.Carries ⟨w.metric, w.tags, ts, value⟩ ∧ pw.MadeWith db.filtersPoints := by
  rcases henc : encodeValue value with e | ev
  · simp [addValue, henc] at h
  have hadd : db.addValue w ts value = db.addEncoded w ts ev := by simp [addValue, henc]
  rw [hadd] at h
  by_cases hrow : (db.session w.session).row.isSome
  · obtain ⟨row, hr⟩ := Option.isSome_iff_exists.1 hrow
    rcases hts : checkTimestamp ts with e | ⟨⟩
    · simp [addEncoded, hr, hts] at h
    cases hlate : notAfter (db.session w.session).watermark (Time.toMillis ts)
    · rw [addEncoded_of_late hrow hts hlate] at h
      unfold placeNow at h
      dsimp only at h
      split at h
      · next hoff =>
        have hoff' : db.filtersPoints = false := by simpa using hoff
        rcases hwa : db.writeAllowed w.session w.metric ts ev with ⟨db₁, e | ⟨row', q⟩⟩ <;>
          rw [hwa] at h <;> cases h
        · obtain ⟨T, hT, -, hfill⟩ := hw hrow
          have he : (db.acceptInOrder w.session w.metric ts ev).2 = .error e := by
            rw [← writeAllowed_of_late hrow hlate, hwa]
          exact ⟨acceptInOrder_error hd hT hts hfill hlate he, hoff'⟩
        · exact ⟨trivial, hoff'⟩
      · next hon =>
        cases h
        exact ⟨⟨rfl, rfl, rfl, henc⟩, show db.filtersPoints = true by simpa using hon⟩
    · obtain ⟨last, hwm, hle⟩ := notAfter_eq_true.1 hlate
      rw [addEncoded_of_notAfter hrow hts hwm hle] at h
      split at h
      · exact addEncodedPoint_carries henc h _
      · cases h
  · have hnone : (db.session w.session).row = none := by simpa using hrow
    simp [addEncoded, hnone] at h

end Add

end Db

namespace ClientRun

/-- What every run of the clients keeps: the database is sound; every session with a row fills
the rows of a template that fits the key rules; every writer's session is one of the database's
and, once it has a row, serves the writer's series, whose template builds again without new ids;
and every pending write holds to its point, carries it, and asks the filter exactly when the
filter is on. -/
structure Inv (R : ClientRun) : Prop where
  sound : R.db.Sound
  sessions : ∀ sid, (R.db.session sid).row.isSome →
    ∃ T, R.db.rules.Fits T ∧ R.db.Filling T (R.db.session sid)
  bounded : ∀ w ∈ R.writers, w.session < R.db.sessions.size
  writers : ∀ w ∈ R.writers, (R.db.session w.session).row.isSome →
    R.db.Serves w.session w.metric w.tags ∧ R.db.Builds w.metric w.tags
  pending : ∀ e ∈ R.pending, R.db.PendingOk e.1 e.2
  carries : ∀ e ∈ R.pending, e.2.Carries e.1
  madeWith : ∀ e ∈ R.pending, e.2.MadeWith R.db.filtersPoints

section Inv

variable {R : ClientRun}

/-- A database that continues the run's, with as many sessions or more and the same filtering,
keeps the invariant. -/
theorem Inv.of_continues (h : R.Inv) {db : Db} (hc : Db.Continues R.db db)
    (hsize : R.db.sessions.size ≤ db.sessions.size)
    (hf : db.filtersPoints = R.db.filtersPoints) : Inv { R with db := db } where
  sound := h.sound.congr hc.config hc.rules
  sessions sid hrow := by
    obtain ⟨T, hT, hfill⟩ := h.sessions sid (hc.rows sid hrow)
    exact ⟨T, hc.rules ▸ hT, (hc.filling sid T hT hfill).congr hc.config hc.rules⟩
  bounded w hw := Nat.lt_of_lt_of_le (h.bounded w hw) hsize
  writers w hw hrow := by
    obtain ⟨hserve, hbuild⟩ := h.writers w hw (hc.rows _ hrow)
    exact ⟨hserve.of_continues hc, hbuild.of_extends hc.toExtends⟩
  pending e he := (h.pending e he).of_continues hc
  carries := h.carries
  madeWith e he := hf ▸ h.madeWith e he

/-- The clients of a built database keep the invariant from the start. -/
theorem inv_start {config : Config} {store : Store} {parts : DbParts} {db : Db}
    (h : Db.build config store parts = .ok db) : (start db).Inv := by
  obtain ⟨hd, -, hs⟩ := Db.build_sound h
  have hnone : ∀ sid, (db.session sid).row = none := by
    intro sid
    simp [Db.session, hs, Session.start]
  refine ⟨hd, fun sid h => ?_, fun _ hw => ?_, fun _ hw => ?_, fun _ he => ?_, fun _ he => ?_,
    fun _ he => ?_⟩
  · simp [start, hnone] at h
  · cases hw
  · cases hw
  · cases he
  · cases he
  · cases he

/-- A new writer has a session without a row, pushed after the others. -/
theorem inv_newWriter (h : R.Inv) : (R.step .newWriter).Inv := by
  set s₀ := Session.start none R.db.window none
  set db₁ : Db := { R.db with sessions := R.db.sessions.push s₀ }
  have hstep : R.step .newWriter =
      { R with db := db₁, writers := R.writers ++ [⟨"", ⟨[]⟩, R.db.sessions.size, false⟩] } := rfl
  have hpush := Db.session_push R.db s₀
  have hc : Db.Continues R.db db₁ := by
    refine ⟨⟨rfl, rfl, IdRegistry.Keeps.refl _⟩, fun sid hrow => ?_, fun sid T _ hfill => ?_⟩
    · rw [hpush] at hrow
      split at hrow
      · cases hrow
      · exact hrow
    · have hlt := hfill.lt_size
      show R.db.Filling T (db₁.session sid)
      rw [hpush, if_neg (Nat.ne_of_lt hlt)]
      exact hfill
  have h₁ := h.of_continues hc (by simp [db₁]) rfl
  rw [hstep]
  refine ⟨h₁.sound, h₁.sessions, fun w hw => ?_, fun w hw hrow => ?_, h₁.pending, h₁.carries,
    h₁.madeWith⟩
  · rcases List.mem_append.1 hw with hw | hw
    · exact h₁.bounded w hw
    · rw [List.mem_singleton.1 hw]
      simp [db₁]
  · rcases List.mem_append.1 hw with hw | hw
    · exact h₁.writers w hw hrow
    · rw [List.mem_singleton.1 hw] at hrow
      have hnew : (db₁.session R.db.sessions.size).row = none := by
        rw [hpush, if_pos rfl]
        rfl
      simp [hnew] at hrow

/-- Setting a writer's series keeps the invariant: a refused template adds ids only, and a new
session of the series' template serves it from the start; the other writers keep theirs. -/
theorem inv_setSeries (h : R.Inv) (i : Nat) (metric : String) (tags : Tags) :
    (R.step (.setSeries i metric tags)).Inv := by
  simp only [step]
  split
  · next w hwi =>
    have hc := Db.continues_buildTemplate R.db metric tags
    unfold Db.setSeries
    rcases hb : R.db.buildTemplate metric tags with ⟨db₁, e | T⟩ <;> rw [hb] at hc <;>
      dsimp only
    -- building a template changes the ids only
    all_goals
      have hdb := congrArg Prod.fst hb
      simp only [Db.buildTemplate] at hdb
      have hs₁ : db₁.sessions = R.db.sessions := by rw [← hdb]
      have hf₁ : db₁.filtersPoints = R.db.filtersPoints := by rw [← hdb]; rfl
    · exact h.of_continues hc (le_of_eq (congrArg Array.size hs₁).symm) hf₁
    · have hd₁ : db₁.Sound := h.sound.congr hc.config hc.rules
      have hT := Db.fits_buildTemplate h.sound hb
      have h₁ := h.of_continues hc (le_of_eq (congrArg Array.size hs₁).symm) hf₁
      set s₀ := Session.start (some T) db₁.window (db₁.session w.session).watermark
      set db₂ : Db := { db₁ with sessions := db₁.sessions.push s₀ }
      have hpush : ∀ sid, db₂.session sid =
          if sid = db₁.sessions.size then s₀ else db₁.session sid :=
        Db.session_push db₁ s₀
      have hold : ∀ sid, sid ≠ db₁.sessions.size → db₂.session sid = db₁.session sid := by
        intro sid hsid
        rw [hpush, if_neg hsid]
      have hnew : db₂.session db₁.sessions.size = s₀ := by
        rw [hpush, if_pos rfl]
      have he : Db.Extends db₁ db₂ := ⟨rfl, rfl, IdRegistry.Keeps.refl _⟩
      have hserves : ∀ sid metric tags, db₁.Serves sid metric tags →
          db₂.Serves sid metric tags := by
        rintro sid metric tags ⟨T', hT', htpl, hfill⟩
        refine ⟨T', hT', fun hres => (htpl hres).of_extends hres he, ?_⟩
        rw [hold sid (Nat.ne_of_lt hfill.lt_size)]
        exact hfill.congr rfl rfl
      refine ⟨hd₁.congr rfl rfl, fun sid hrow => ?_, fun w' hw' => ?_, fun w' hw' hrow => ?_,
        fun e he' => ?_, h₁.carries, h₁.madeWith⟩
      · by_cases hsid : sid = db₁.sessions.size
        · rw [hsid, hnew]
          exact ⟨T, hT, Db.filling_start _ T _⟩
        · rw [hold sid hsid] at hrow ⊢
          obtain ⟨T', hT', hfill⟩ := h₁.sessions sid hrow
          exact ⟨T', hT', hfill.congr rfl rfl⟩
      · show w'.session < (db₁.sessions.push s₀).size
        rw [Array.size_push]
        rcases List.mem_or_eq_of_mem_set hw' with hw' | rfl
        · exact Nat.lt_succ_of_lt (h₁.bounded w' hw')
        · exact Nat.lt_succ_self _
      · rcases List.mem_or_eq_of_mem_set hw' with hw' | rfl
        · rw [hold _ (Nat.ne_of_lt (h₁.bounded w' hw'))] at hrow
          obtain ⟨hserve, hbuild⟩ := h₁.writers w' hw' hrow
          exact ⟨hserves _ _ _ hserve, hbuild.of_extends he⟩
        · refine ⟨⟨T, hT, fun hres => (Db.templateOf_buildTemplate hb hres).of_extends hres he, ?_⟩,
            (Db.builds_buildTemplate hb).of_extends he⟩
          show db₂.Filling T (db₂.session db₁.sessions.size)
          rw [hnew]
          exact Db.filling_start _ T _
      · exact (h₁.pending e he').transport he hserves
  · exact h

/-- A pending write added to the run keeps the invariant if it holds to its point, carries it and
asks the filter as the filter is. -/
theorem Inv.push (h : R.Inv) {p : AddedPoint} {pw : PendingWrite} (hp : R.db.PendingOk p pw)
    (hcar : pw.Carries p) (hmade : pw.MadeWith R.db.filtersPoints) :
    Inv { R with pending := R.pending ++ [(p, pw)] } := by
  refine ⟨h.sound, h.sessions, h.bounded, h.writers, fun e he => ?_, fun e he => ?_,
    fun e he => ?_⟩ <;> rcases List.mem_append.1 he with he | he
  · exact h.pending e he
  · rw [List.mem_singleton.1 he]
    exact hp
  · exact h.carries e he
  · rw [List.mem_singleton.1 he]
    exact hcar
  · exact h.madeWith e he
  · rw [List.mem_singleton.1 he]
    exact hmade

/-- Adding a point to a writer keeps the invariant, and the pending write it returns holds to the
point and carries it. -/
theorem inv_add (h : R.Inv) (i : Nat) (ts : Int) (value : DataValue) :
    (R.step (.add i ts value)).Inv := by
  simp only [step]
  split
  · next w hwi =>
    have hw := h.writers w (List.mem_of_getElem? hwi)
    obtain ⟨hc, hpend⟩ := Db.addValue_continues h.sound ts value fun hrow => (hw hrow).1
    have hcarry := fun pw => @Db.addValue_carries R.db w ts value pw h.sound
      fun hrow => (hw hrow).1
    rcases ha : R.db.addValue w ts value with ⟨db₁, e | pw⟩ <;> rw [ha] at hc hpend hcarry
    all_goals
      have hf₁ : db₁.filtersPoints = R.db.filtersPoints := by
        have hf := (Db.unasked_addValue R.db w ts value).filter
        rw [ha] at hf
        simp only [Db.filtersPoints, ← hf]
      have hsize : R.db.sessions.size ≤ db₁.sessions.size := by
        have hs := Db.size_addValue R.db w ts value
        rw [ha] at hs
        exact le_of_eq hs.symm
    · exact h.of_continues hc hsize hf₁
    · obtain ⟨hcar, hmade⟩ := hcarry pw rfl
      exact (h.of_continues hc hsize hf₁).push (hpend pw rfl) hcar (hf₁ ▸ hmade)
  · exact h

/-- Adding a point through the handle keeps the invariant. -/
theorem inv_addPoint (h : R.Inv) (metric : String) (ts : Int) (value : DataValue) (tags : Tags) :
    (R.step (.addPoint metric ts value tags)).Inv := by
  simp only [step]
  rcases henc : encodeValue value with e | ev
  · have ha : R.db.addPoint metric ts value tags = (R.db, .error e) := by simp [Db.addPoint, henc]
    rw [ha]
    exact h
  have ha₀ : R.db.addPoint metric ts value tags = R.db.addEncodedPoint metric ts ev tags := by
    simp [Db.addPoint, henc]
  rw [ha₀]
  obtain ⟨hc, hpend⟩ := Db.addEncodedPoint_continues h.sound ⟨metric, tags, ts, value⟩ henc
  have hcarry := fun pw => @Db.addEncodedPoint_carries R.db ts value pw metric ev tags henc
  rcases ha : R.db.addEncodedPoint metric ts ev tags with ⟨db₁, e | pw⟩ <;>
    rw [ha] at hc hpend hcarry
  all_goals
    have hf₁ : db₁.filtersPoints = R.db.filtersPoints := by
      have hf := (Db.unasked_addEncodedPoint R.db metric ts ev tags).filter
      rw [ha] at hf
      simp only [Db.filtersPoints, ← hf]
    have hsize : R.db.sessions.size ≤ db₁.sessions.size := by
      have hs := Db.sessions_addEncodedPoint R.db metric ts ev tags
      rw [ha] at hs
      exact le_of_eq (congrArg Array.size hs).symm
  · exact h.of_continues hc hsize hf₁
  · obtain ⟨hcar, hmade⟩ := hcarry pw rfl db₁.filtersPoints
    exact (h.of_continues hc hsize hf₁).push (hpend pw rfl) hcar hmade

/-- Switching a writer's batch import changes its mode and the store's flush interval only. -/
theorem inv_setBatchImport (h : R.Inv) (i : Nat) (on : Bool) :
    (R.step (.setBatchImport i on)).Inv := by
  simp only [step]
  split
  · next w hwi =>
    have hdb : ∃ store, (R.db.setBatchImport w on).1 = { R.db with store := store } := by
      unfold Db.setBatchImport
      split
      · exact ⟨R.db.store, rfl⟩
      · dsimp only
        split
        · split
          · exact ⟨_, rfl⟩
          · exact ⟨R.db.store, rfl⟩
        · split
          · exact ⟨_, rfl⟩
          · exact ⟨R.db.store, rfl⟩
    have hw' : (R.db.setBatchImport w on).2 = { w with batchImport := on } ∨
        (R.db.setBatchImport w on).2 = w := by
      unfold Db.setBatchImport
      split
      · exact .inr rfl
      · dsimp only
        split
        · split <;> exact .inl rfl
        · split <;> exact .inl rfl
    obtain ⟨store, hstore⟩ := hdb
    have hc : Db.Continues R.db { R.db with store := store } :=
      Db.continues_of_sessions ⟨rfl, rfl, IdRegistry.Keeps.refl _⟩ rfl
    have h₁ := h.of_continues hc le_rfl rfl
    rw [hstore]
    refine ⟨h₁.sound, h₁.sessions, fun w' hmem => ?_, fun w' hmem hrow => ?_, h₁.pending,
      h₁.carries, h₁.madeWith⟩ <;> rcases List.mem_or_eq_of_mem_set hmem with hmem | heq
    · exact h₁.bounded w' hmem
    · rcases hw' with hw' | hw' <;> rw [hw'] at heq <;> rw [heq] <;>
        exact h₁.bounded w (List.mem_of_getElem? hwi)
    · exact h₁.writers w' hmem hrow
    · rcases hw' with hw' | hw' <;> rw [hw'] at heq <;> rw [heq] at hrow ⊢ <;>
        exact h₁.writers w (List.mem_of_getElem? hwi) hrow
  · exact h

/-- Awaiting a pending write keeps the invariant. -/
theorem inv_await (h : R.Inv) (i : Nat) : (R.step (.await i)).Inv := by
  simp only [step]
  split
  · next p pw hi =>
    have hmem := List.mem_of_getElem? hi
    have h₁ := h.of_continues (Db.continues_settle h.sound (h.pending _ hmem))
      (Db.size_settle R.db pw).ge (by simp only [Db.filtersPoints, Db.filter_settle])
    exact ⟨h₁.sound, h₁.sessions, h₁.bounded, h₁.writers,
      fun e he => h₁.pending e (List.mem_of_mem_eraseIdx he),
      fun e he => h₁.carries e (List.mem_of_mem_eraseIdx he),
      fun e he => h₁.madeWith e (List.mem_of_mem_eraseIdx he)⟩
  · exact h

/-- Every call keeps the invariant. -/
theorem Inv.step (h : R.Inv) (c : ClientCall) : (R.step c).Inv := by
  cases c with
  | newWriter => exact inv_newWriter h
  | setSeries i metric tags => exact inv_setSeries h i metric tags
  | add i ts value => exact inv_add h i ts value
  | addPoint metric ts value tags => exact inv_addPoint h metric ts value tags
  | setBatchImport i on => exact inv_setBatchImport h i on
  | setBufferingTime ms =>
    exact h.of_continues (Db.continues_of_sessions ⟨rfl, rfl, IdRegistry.Keeps.refl _⟩ rfl)
      le_rfl rfl
  | await i => exact inv_await h i
  | answer verdict =>
    exact h.of_continues (Db.continues_of_sessions ⟨rfl, rfl, IdRegistry.Keeps.refl _⟩ rfl)
      le_rfl (Db.filtersPoints_withVerdict _ _)
  | failWrites on =>
    exact h.of_continues (Db.continues_of_sessions ⟨rfl, rfl, IdRegistry.Keeps.refl _⟩ rfl)
      le_rfl rfl

/-- Every run of the clients keeps the invariant. -/
theorem Reachable.inv (h : R.Reachable) : R.Inv := by
  induction h with
  | start hb => exact inv_start hb
  | step c _ ih => exact ih.step c

end Inv

end ClientRun

end SeriesIngest
