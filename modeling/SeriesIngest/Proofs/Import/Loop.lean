import Mathlib.Data.List.Perm.Basic
import SeriesIngest.Import.Tool
import SeriesIngest.Proofs.Client.HandleOrder

/-!
# What every run of the import loop keeps

The import tool is a client of the database it builds: it holds one writer per series string it
has met and keeps the writes its points returned pending. Seen as clients of the database
(`Import.Run.clients`), its writers and pending writes keep what every run of clients keeps
(`ClientRun.Inv`). The tool keeps facts of its own besides (`Import.Run.Inv`): each writer sits
under the series string of its own series, whose identity passed the checks; no filter is
installed; the store takes every write of the table, which the tool created and never switches
off; and the points the tool counted are the points the database wrote.

So handling a line never stops the run. A line without a point is skipped; one that does not
parse, whose series cannot be set, or whose point the writer refuses at once is counted as
rejected; and one whose point the writer takes leaves a pending write. Awaiting a pending write
never stops the run either: it gives `Ok` and is counted as a point, or it refuses the point's
metric and is counted as rejected. Every line that holds a point is therefore counted exactly
once, as rejected or pending, and every pending write once more, as a point or rejected
(`Import.Run.tally`).

Main statements: `Import.Run.feed_ok` and `Import.Run.drain_ok`.
-/

namespace SeriesIngest

/-- Usable settings give every id a positive width. -/
theorem Config.widths_of_validate {c : Config} (h : c.validate = .ok ()) :
    0 < c.metricWidth ∧ 0 < c.tagNameWidth ∧ 0 < c.tagValueWidth := by
  unfold Config.validate Config.checkWidth at h
  simp only [bind, Except.bind, throw, throwThe, MonadExceptOf.throw, pure, Except.pure] at h
  -- the failing checks are refuted by `h`; what passed them has the widths
  split_ifs at h <;> omega

namespace Db

/-- The store takes the write of every request of the database. -/
def TakesWrites (db : Db) : Prop :=
  ∀ r : WriteRequest, (db.store.target (db.cellWrite r)).toBool = true

theorem TakesWrites.of_alike {db db' : Db} (h : db.TakesWrites) (ha : Alike db db') :
    db'.TakesWrites := fun r => by
  rw [ha.takes, cellWrite_congr ha.config]
  exact h r

/-- Usable settings build a database. -/
theorem build_ok {config : Config} (store : Store) (h : config.validate = .ok ()) :
    ∃ db, Db.build config store {} = .ok db := by
  have hw := Config.widths_of_validate h
  simp only [build, h, bind, Except.bind]
  rw [if_neg (by simp [IdRegistry.width, IdRegistry.space, IdRegistry.ofWidths]; omega)]
  exact ⟨_, rfl⟩

/-- A built database holds the given store and the given filter. -/
theorem build_parts {config : Config} {store : Store} {parts : DbParts} {db : Db}
    (h : Db.build config store parts = .ok db) : db.store = store ∧ db.filter = parts.filter := by
  rcases hv : config.validate with e | ⟨⟩
  · simp [build, hv, bind, Except.bind] at h
  simp only [build, hv, bind, Except.bind] at h
  split at h
  · cases h
  · simp only [pure, Except.pure, Except.ok.injEq] at h
    subst h
    exact ⟨rfl, rfl⟩

/-- A store whose only table is the database's, created with the data family, takes every write
of the database. -/
theorem takesWrites_of_created {db : Db}
    (hs : db.store = ({} : Store).createTable db.table dataFamily) : db.TakesWrites := by
  intro r
  rw [hs]
  unfold cellWrite
  split <;> simp [Store.target, Store.createTable, Store.table?, Except.toBool]

/-- Adding a point through the handle leaves the store as it is: only awaiting the write does. -/
theorem store_addEncodedPoint (db : Db) (metric : String) (ts : Int) (value : EncodedValue)
    (tags : Tags) : (db.addEncodedPoint metric ts value tags).1.store = db.store := by
  unfold addEncodedPoint
  split
  · rfl
  · rcases hb : db.buildTemplate metric tags with ⟨db₁, e | T⟩ <;>
      simp only [buildTemplate, Prod.mk.injEq] at hb <;> obtain ⟨rfl, -⟩ := hb
    · rfl
    · dsimp only
      split <;> rfl

theorem store_placeNow (db : Db) (w : Writer) (ts : Int) (value : EncodedValue) :
    (db.placeNow w ts value).1.store = db.store := by
  unfold placeNow
  dsimp only
  split
  · have h₁ := (frame_writeAllowed db w.session w.metric ts value).store
    rcases hw : db.writeAllowed w.session w.metric ts value with ⟨db₁, _ | _⟩ <;> rw [hw] at h₁ <;>
      exact h₁
  · rfl

/-- A writer's point leaves the store as it is, whichever way the writer takes it. -/
theorem store_addValue (db : Db) (w : Writer) (ts : Int) (value : DataValue) :
    (db.addValue w ts value).1.store = db.store := by
  unfold addValue addEncoded
  split
  · rfl
  · dsimp only
    split
    · rfl
    · split
      · rfl
      · split
        · split
          · split
            · exact store_addEncodedPoint _ _ _ _ _
            · rfl
          · exact store_placeNow db w ts _
        · exact store_placeNow db w ts _

/-- From `db` to `db'` nothing was written, and nothing changed that decides how a write is made:
the settings, the key rules, the filter and the writes the store takes stay. The ids, the sessions,
the log and the other counters may change. -/
structure WroteNothing (db db' : Db) : Prop where
  config : db'.config = db.config
  rules : db'.rules = db.rules
  filter : db'.filter = db.filter
  takes : ∀ w, (db'.store.target w).toBool = (db.store.target w).toBool
  written : db'.stats.pointsWritten = db.stats.pointsWritten

section WroteNothing

variable {db db' db'' : Db}

theorem WroteNothing.refl (db : Db) : WroteNothing db db := ⟨rfl, rfl, rfl, fun _ => rfl, rfl⟩

theorem WroteNothing.trans (h₁ : WroteNothing db db') (h₂ : WroteNothing db' db'') :
    WroteNothing db db'' :=
  ⟨h₂.config.trans h₁.config, h₂.rules.trans h₁.rules, h₂.filter.trans h₁.filter,
    fun w => (h₂.takes w).trans (h₁.takes w), h₂.written.trans h₁.written⟩

theorem TakesWrites.of_wroteNothing (h : db.TakesWrites) (hn : WroteNothing db db') :
    db'.TakesWrites := fun r => by
  rw [hn.takes, cellWrite_congr hn.config]
  exact h r

theorem wroteNothing_say (db : Db) (level : LogLevel) (target message : String) :
    WroteNothing db (db.say level target message) :=
  ⟨rfl, rfl, rfl, fun _ => rfl, rfl⟩

theorem wroteNothing_newWriter (db : Db) : WroteNothing db db.newWriter.1 :=
  ⟨rfl, rfl, rfl, fun _ => rfl, rfl⟩

theorem wroteNothing_setSeries (db : Db) (w : Writer) (metric : String) (tags : Tags) :
    WroteNothing db (db.setSeries w metric tags).1 := by
  unfold setSeries
  -- building the template changes the ids only
  rcases hb : db.buildTemplate metric tags with ⟨db₁, e | T⟩ <;>
    simp only [buildTemplate, Prod.mk.injEq] at hb <;> obtain ⟨rfl, -⟩ := hb <;>
    exact ⟨rfl, rfl, rfl, fun _ => rfl, rfl⟩

theorem wroteNothing_setBatchImport (db : Db) (w : Writer) (on : Bool) :
    WroteNothing db (db.setBatchImport w on).1 := by
  unfold setBatchImport
  split
  · exact WroteNothing.refl db
  · dsimp only
    split <;> (try split) <;> exact ⟨rfl, rfl, rfl, fun _ => rfl, rfl⟩

theorem wroteNothing_addValue (hd : db.Sound) (w : Writer) (ts : Int) (value : DataValue)
    (hw : (db.session w.session).row.isSome → db.Serves w.session w.metric w.tags) :
    WroteNothing db (db.addValue w ts value).1 := by
  have hc := (addValue_continues hd ts value hw).1
  have hwritten : (db.addValue w ts value).1.stats.pointsWritten = db.stats.pointsWritten := by
    obtain ⟨hok, herr⟩ := counts_addValue db w ts value
    rcases ha : (db.addValue w ts value).2 with e | pw
    · exact (herr e ha).written
    · exact (hok pw ha).written
  exact ⟨hc.config, hc.rules, (unasked_addValue db w ts value).filter,
    fun _ => by rw [store_addValue], hwritten⟩

end WroteNothing

/-- A series that is set passed the checks, and the writer takes its identity. -/
theorem setSeries_ok {db db' : Db} {w w' : Writer} {metric : String} {tags : Tags}
    (h : db.setSeries w metric tags = (db', .ok w')) :
    w'.metric = metric ∧ w'.tags = tags ∧
      checkIdentity metric tags db.rules.maxTags db.rules.allowed = .ok () := by
  unfold setSeries at h
  rcases hb : db.buildTemplate metric tags with ⟨db₁, e | T⟩ <;> rw [hb] at h
  · cases h
  · simp only [Prod.mk.injEq, Except.ok.injEq] at h
    obtain ⟨-, rfl⟩ := h
    simp only [buildTemplate, Prod.mk.injEq] at hb
    exact ⟨rfl, rfl, db.rules.checkIdentity_of_buildTemplate (Prod.ext rfl hb.2)⟩

/-- Switching batch-import mode keeps the writer's series. -/
theorem series_setBatchImport (db : Db) (w : Writer) (on : Bool) :
    (db.setBatchImport w on).2.metric = w.metric ∧ (db.setBatchImport w on).2.tags = w.tags := by
  unfold setBatchImport
  split
  · exact ⟨rfl, rfl⟩
  · dsimp only
    split <;> (try split) <;> exact ⟨rfl, rfl⟩

/-- Without a filter, the filter lets every point through and changes nothing. -/
theorem consult_of_unfiltered {db : Db} (hf : db.filter = none) (metric : String) (ts : Int)
    (value : EncodedValue) (tags : Tags) : db.consult metric ts value tags = (db, .ok true) := by
  simp [consult, hf]

/-- A request of a database whose store takes every write is written and counted. -/
theorem dispatch_of_takes {db : Db} (ht : db.TakesWrites) (r : WriteRequest) :
    (db.dispatch r).2 = .ok () ∧
      (db.dispatch r).1.stats.pointsWritten = db.stats.pointsWritten + 1 := by
  have hok : (db.dispatch r).2.toBool = true := (toBool_dispatch db r).trans (ht r)
  have hc := counts_dispatch db r
  rw [hok] at hc
  refine ⟨?_, hc.written⟩
  rcases hres : (db.dispatch r).2 with e | ⟨⟩
  · rw [hres] at hok
    cases hok
  · rfl

/-- Without a filter, awaiting a write made without one, against a store that takes every write,
either gives `Ok` and counts one point written, or refuses the point's metric and counts no
point. -/
theorem settle_unfiltered {db : Db} {p : AddedPoint} {pw : PendingWrite} (hf : db.filter = none)
    (ht : db.TakesWrites) (hcar : pw.Carries p) (hmade : pw.MadeWith false) :
    ((db.settle pw).2 = .ok () ∧
        (db.settle pw).1.stats.pointsWritten = db.stats.pointsWritten + 1) ∨
      ((db.settle pw).2 = .error (.unresolved .metric p.metric) ∧
        (db.settle pw).1.stats.pointsWritten = db.stats.pointsWritten) := by
  cases pw with
  | failed e =>
    -- a write that failed at once failed for its metric
    exact .inr ⟨by rw [show e = _ from hcar]; rfl, rfl⟩
  | issue r => exact .inl (dispatch_of_takes ht r)
  | point metric tags ts ev row q =>
    obtain ⟨rfl, -, -, -⟩ := hcar
    cases hres : row.metricResolved
    · exact .inr (by simp [settle, consult_of_unfiltered hf, hres, rejectMetric, say])
    · refine .inl ?_
      simpa [settle, consult_of_unfiltered hf, hres] using
        dispatch_of_takes ht ⟨row.bytes, q, ev.bytes, true⟩
  | admitted sid metric tags ts ev durable => exact absurd hmade Bool.false_ne_true

end Db

namespace ClientRun

/-- A log line changes nothing the invariant of clients speaks of. -/
theorem Inv.say {R : ClientRun} (h : R.Inv) (level : LogLevel) (target message : String) :
    Inv { R with db := R.db.say level target message } :=
  h.of_continues (Db.continues_of_sessions ⟨rfl, rfl, IdRegistry.Keeps.refl _⟩ rfl) le_rfl rfl

/-- Clients that drop some writers, or some pending writes, keep the invariant. -/
theorem Inv.sub {R : ClientRun} (h : R.Inv) {ws : List Writer} {ps : List (AddedPoint × PendingWrite)}
    (hws : ∀ w ∈ ws, w ∈ R.writers) (hps : ∀ e ∈ ps, e ∈ R.pending) (done) :
    Inv ⟨R.db, ws, ps, done⟩ :=
  ⟨h.sound, h.sessions, fun w hw => h.bounded w (hws w hw),
    fun w hw => h.writers w (hws w hw), fun e he => h.pending e (hps e he),
    fun e he => h.carries e (hps e he), fun e he => h.madeWith e (hps e he)⟩

end ClientRun

namespace Import

/-- A line holds a point when, without the blanks at its ends, it is neither empty nor a `#`
comment. -/
def holdsPoint (line : String) : Bool :=
  let t := Text.trimBlank line
  !(t.isEmpty || t.startsWith "#")

/-- Reading a line gives no point exactly when the line holds none: a line that holds one gives
its point or an error. -/
theorem parseImportLine_eq_none_iff (line : String) :
    parseImportLine line = .ok none ↔ holdsPoint line = false := by
  unfold parseImportLine holdsPoint
  by_cases ht : (Text.trimBlank line).isEmpty = true ∨ (Text.trimBlank line).startsWith "#" = true
  · simp only [ht, if_true, true_iff]
    rcases ht with h | h <;> simp [h]
  · simp only [ht, if_false]
    have hb : ((Text.trimBlank line).isEmpty || (Text.trimBlank line).startsWith "#") = false := by
      simpa using ht
    simp only [hb, Bool.not_false, Bool.true_eq_false, iff_false]
    split
    · next metric ts value rest _ =>
      -- every way through reading the fields ends with a point or an error
      rcases Number.parseInt64 ts with e | t <;> simp only [bind, Except.bind, pure, Except.pure]
      · simp
      · rcases readValue value with e | v <;> simp only [reduceCtorEq, not_false_eq_true]
        rcases List.mapM tagOfWord rest with e | tags <;> simp
    · simp

theorem holdsPoint_of_parse (line : String) (h : parseImportLine line ≠ .ok none) :
    holdsPoint line = true := by
  simpa [parseImportLine_eq_none_iff] using h

/-- A write taken out of a queue of writes beside their points sits at some index of it, and the
queue without that index holds the rest. -/
theorem exists_index_of_perm {ps : List (AddedPoint × PendingWrite)} {p : PendingWrite}
    {rest : List PendingWrite} (h : (p :: rest).Perm (ps.map Prod.snd)) :
    ∃ i a, ps[i]? = some (a, p) ∧ ((ps.eraseIdx i).map Prod.snd).Perm rest := by
  obtain ⟨⟨a, p'⟩, hmem, rfl⟩ := List.mem_map.1 (h.subset List.mem_cons_self)
  obtain ⟨i, hi⟩ := List.mem_iff_getElem?.1 hmem
  obtain ⟨hlt, hget⟩ := List.getElem?_eq_some_iff.1 hi
  have hcons : ((a, p') :: ps.eraseIdx i).Perm ps := hget ▸ List.getElem_cons_eraseIdx_perm hlt
  refine ⟨i, a, hi, (List.perm_cons p').1 ?_⟩
  simpa using (hcons.map Prod.snd).trans h.symm

namespace Run

/-- The tool's writers and pending writes as clients of its database, each pending write beside a
point. -/
def clients (r : Run) (ps : List (AddedPoint × PendingWrite)) : ClientRun :=
  ⟨r.db, r.writers.map Prod.snd, ps, []⟩

/-- The points and refusals counted, with the writes still pending. -/
def tally (r : Run) : Nat := r.points + r.rejected + r.pending.length

/-- What every run of the import loop keeps. -/
structure Inv (r : Run) : Prop where
  clients : ∃ ps, (ps.map Prod.snd).Perm r.pending ∧ (r.clients ps).Inv
  series : ∀ e ∈ r.writers, e.1 = e.2.tags.seriesString e.2.metric
  valid : ∀ e ∈ r.writers,
    checkIdentity e.2.metric e.2.tags r.db.rules.maxTags r.db.rules.allowed = .ok ()
  filter : r.db.filter = none
  takes : r.db.TakesWrites
  written : r.db.stats.pointsWritten = r.points

section Inv

variable {r : Run} (sched : Schedule)

/-- The tool's run over a database it built holds the invariant from the start. -/
theorem inv_start {config : Config} {store : Store} {db : Db}
    (h : Db.build config store {} = .ok db) (ht : db.TakesWrites) : ({ db := db } : Run).Inv :=
  ⟨⟨[], List.Perm.nil, ClientRun.inv_start h⟩, by simp, by simp, (Db.build_parts h).2, ht,
    by simp [Db.build_stats h]⟩

/-- A refusal on a line is counted once and changes nothing else the invariant speaks of. -/
theorem Inv.reject (h : r.Inv) (n : Nat) (message : String) : (r.reject n message).Inv := by
  obtain ⟨ps, hp, hcl⟩ := h.clients
  exact ⟨⟨ps, hp, hcl.say _ _ _⟩, h.series, h.valid, h.filter, h.takes, h.written⟩

@[simp]
theorem tally_reject (r : Run) (n : Nat) (message : String) :
    (r.reject n message).tally = r.tally + 1 := by
  simp only [tally, reject]
  omega

theorem Inv.withBudget (h : r.Inv) (b : Nat) : Inv { r with budget := b } :=
  ⟨h.clients, h.series, h.valid, h.filter, h.takes, h.written⟩

/-- Calls that write nothing, made by the tool's writers and leaving the invariant of its clients,
keep the tool's invariant. -/
theorem Inv.of_wroteNothing (h : r.Inv) {db : Db} (hn : Db.WroteNothing r.db db)
    {pending : List PendingWrite} {ps : List (AddedPoint × PendingWrite)}
    (hp : (ps.map Prod.snd).Perm pending)
    (hcl : ClientRun.Inv ⟨db, r.writers.map Prod.snd, ps, []⟩) :
    Inv { r with db := db, pending := pending } where
  clients := ⟨ps, hp, hcl⟩
  series := h.series
  valid e he := hn.rules ▸ h.valid e he
  filter := hn.filter.trans h.filter
  takes := h.takes.of_wroteNothing hn
  written := hn.written.trans h.written

/-- The writer of a point's series: the one the tool has for the series, or one set up for it by
the calls of clients that make a writer, set its series and switch it to batch-import mode. When
the series cannot be set, the line is counted as rejected. -/
theorem Inv.writerFor (h : r.Inv) {n : Nat} {p : DataPoint} {r' : Run} {o : Option Writer}
    (hw : r.writerFor n (p.tags.seriesString p.metric) p = (r', o)) :
    r'.Inv ∧ r'.tally = r.tally + o.isNone.toNat ∧
      ∀ w, o = some w → (p.tags.seriesString p.metric, w) ∈ r'.writers := by
  unfold Run.writerFor at hw
  split at hw
  · next w hl =>
    obtain ⟨rfl, rfl⟩ := Prod.mk.inj hw
    refine ⟨h, by simp, fun w' hw' => ?_⟩
    obtain ⟨l₁, l₂, he, -⟩ := List.lookup_eq_some_iff.1 hl
    cases hw'
    rw [he]
    simp
  · obtain ⟨ps, hp, hcl⟩ := h.clients
    rcases hnw : r.db.newWriter with ⟨db₁, w₀⟩
    have hn₁ : Db.WroteNothing r.db db₁ := by
      have h₀ := Db.wroteNothing_newWriter r.db
      rwa [hnw] at h₀
    have hstep : (r.clients ps).step .newWriter = ⟨db₁, r.writers.map Prod.snd ++ [w₀], ps, []⟩ := by
      simp only [ClientRun.step, Run.clients, hnw]
    have hcl₁ := hcl.step .newWriter
    rw [hstep] at hcl₁
    have hk : (r.writers.map Prod.snd ++ [w₀])[r.writers.length]? = some w₀ := by simp
    have hset := hcl₁.step (.setSeries r.writers.length p.metric p.tags)
    have hn₂ := hn₁.trans (Db.wroteNothing_setSeries db₁ w₀ p.metric p.tags)
    rw [hnw] at hw
    simp only [ClientRun.step, hk] at hset
    rcases hs : db₁.setSeries w₀ p.metric p.tags with ⟨db₂, e | w₁⟩ <;>
      simp only [hs] at hw hset hn₂
    · obtain ⟨rfl, rfl⟩ := Prod.mk.inj hw
      have hcl₂ : ClientRun.Inv ⟨db₂, r.writers.map Prod.snd, ps, []⟩ :=
        hset.sub (fun w hw => List.mem_append_left _ hw) (fun e he => he) []
      exact ⟨(h.of_wroteNothing hn₂ hp hcl₂).reject n e.message, by rw [tally_reject]; rfl, by simp⟩
    · obtain ⟨hm, ht, hid⟩ := Db.setSeries_ok hs
      have hw₁ : (r.writers.map Prod.snd ++ [w₀]).set r.writers.length w₁ =
          r.writers.map Prod.snd ++ [w₁] := by simp
      rw [hw₁] at hset
      have hk₁ : (r.writers.map Prod.snd ++ [w₁])[r.writers.length]? = some w₁ := by simp
      have hbi := hset.step (.setBatchImport r.writers.length true)
      simp only [ClientRun.step, hk₁] at hbi
      rcases hb : db₂.setBatchImport w₁ true with ⟨db₃, w₂⟩
      have hn₃ := hn₂.trans (Db.wroteNothing_setBatchImport db₂ w₁ true)
      have hser := Db.series_setBatchImport db₂ w₁ true
      simp only [hb] at hw hbi hn₃ hser
      obtain ⟨rfl, rfl⟩ := Prod.mk.inj hw
      have hw₂ : (r.writers.map Prod.snd ++ [w₁]).set r.writers.length w₂ =
          (r.writers ++ [(p.tags.seriesString p.metric, w₂)]).map Prod.snd := by simp
      rw [hw₂] at hbi
      have hnew : p.tags.seriesString p.metric = w₂.tags.seriesString w₂.metric ∧
          checkIdentity w₂.metric w₂.tags db₃.rules.maxTags db₃.rules.allowed = .ok () := by
        rw [hser.1, hser.2, hm, ht, hn₃.rules, ← hn₁.rules]
        exact ⟨rfl, hid⟩
      refine ⟨⟨⟨ps, hp, hbi⟩, fun e he => ?_, fun e he => ?_, hn₃.filter.trans h.filter,
        h.takes.of_wroteNothing hn₃, hn₃.written.trans h.written⟩, rfl, fun w hw => ?_⟩
      · rcases List.mem_append.1 he with he | he
        · exact h.series e he
        · rw [List.mem_singleton.1 he]
          exact hnew.1
      · rcases List.mem_append.1 he with he | he
        · exact hn₃.rules ▸ h.valid e he
        · rw [List.mem_singleton.1 he]
          exact hnew.2
      · cases hw
        simp
/-- Waiting for a pending write never stops the run: the write is counted as a point or as
rejected, and one write fewer is pending. -/
theorem Inv.settleNext (h : r.Inv) :
    ∃ r', r.settleNext sched = .ok r' ∧ r'.Inv ∧ r'.tally = r.tally ∧
      r'.pending.length = r.pending.length - 1 := by
  unfold Run.settleNext
  rcases hn : sched.next r.db r.budget r.pending with _ | ⟨p, rest, b⟩
  · exact ⟨r, rfl, h, rfl, by simp [sched.progress hn]⟩
  have hperm := sched.perm hn
  have hlen : r.pending.length = rest.length + 1 := by simp [← hperm.length_eq]
  obtain ⟨ps, hp, hcl⟩ := h.clients
  obtain ⟨i, a, hi, hrest⟩ := exists_index_of_perm (hperm.trans hp.symm)
  have hmem := List.mem_of_getElem? hi
  have hmade : p.MadeWith false := by
    have hf : r.db.filtersPoints = false := by simp [Db.filtersPoints, h.filter]
    exact hf ▸ hcl.madeWith _ hmem
  -- as clients, the tool awaits the write at that index
  have hawait := hcl.step (.await i)
  simp only [ClientRun.step, Run.clients, hi] at hawait
  have hcl' := hawait.sub (fun w hw => hw) (fun e he => he) []
  have hal := Db.alike_settle r.db p
  have hset := Db.settle_unfiltered h.filter h.takes (hcl.carries _ hmem) hmade
  simp only [settleWrite]
  rcases hs : r.db.settle p with ⟨db, res⟩
  simp only [hs] at hcl' hal hset
  have hvalid : ∀ e ∈ r.writers,
      checkIdentity e.2.metric e.2.tags db.rules.maxTags db.rules.allowed = .ok () :=
    fun e he => hal.rules ▸ h.valid e he
  rcases hset with ⟨rfl, hw⟩ | ⟨rfl, hw⟩
  · refine ⟨_, rfl, ⟨⟨_, hrest, hcl'⟩, h.series, hvalid, hal.filter.trans h.filter,
      h.takes.of_alike hal, by rw [hw, h.written]⟩, ?_, by simp [hlen]⟩
    simp only [tally]
    omega
  · refine ⟨_, rfl, ⟨⟨_, hrest, hcl'.say _ _ _⟩, h.series, hvalid, hal.filter.trans h.filter,
      (h.takes.of_alike hal).of_wroteNothing (Db.wroteNothing_say _ _ _ _), hw.trans h.written⟩,
      ?_, by simp [hlen]⟩
    simp only [tally]
    omega
/-- Writing the point of a line never stops the run, and counts the line once: as rejected, or
as a pending write. -/
theorem Inv.writePoint (h : r.Inv) (n : Nat) (p : DataPoint) :
    ∃ r', r.writePoint sched n p = .ok r' ∧ r'.Inv ∧ r'.tally = r.tally + 1 := by
  unfold Run.writePoint
  rcases hw : r.writerFor n (p.tags.seriesString p.metric) p with ⟨r₁, _ | w⟩
  · obtain ⟨h₁, ht, -⟩ := h.writerFor hw
    exact ⟨r₁, rfl, h₁, ht⟩
  obtain ⟨h₁, ht, hmem⟩ := h.writerFor hw
  simp only [Option.isNone_some, Bool.toNat_false, Nat.add_zero] at ht
  obtain ⟨ps, hp, hcl⟩ := h₁.clients
  simp only [Run.clients] at hcl
  have hw₁ : w ∈ r₁.writers.map Prod.snd := List.mem_map.2 ⟨_, hmem w rfl, rfl⟩
  obtain ⟨i, hi⟩ := List.mem_iff_getElem?.1 hw₁
  have hserves := hcl.writers w hw₁
  rcases ha : r₁.db.addValue w p.timestamp p.value with ⟨db, e | pw⟩
  · obtain ⟨he, rfl⟩ := Db.addValue_error hcl.sound (fun hrow => (hserves hrow).2) ha
    have hrej : e.isPointRejected = true := by simp [WriteError.isPointRejected, he]
    refine ⟨_, by simp only [ha, hrej, if_true], h₁.reject n e.message, ?_⟩
    rw [tally_reject, ht]
  · have hadd := hcl.step (.add i p.timestamp p.value)
    simp only [ClientRun.step, hi, ha] at hadd
    have hn := Db.wroteNothing_addValue hcl.sound w p.timestamp p.value
      (fun hrow => (hserves hrow).1)
    rw [ha] at hn
    have h₂ : Inv { r₁ with db := db, pending := r₁.pending ++ [pw] } :=
      h₁.of_wroteNothing hn (by simpa using hp.append_right [pw]) hadd
    have ht₂ : Run.tally { r₁ with db := db, pending := r₁.pending ++ [pw] } = r.tally + 1 := by
      simp only [tally, List.length_append, List.length_singleton] at ht ⊢
      omega
    by_cases hfull : (r₁.pending ++ [pw]).length ≥ maxInFlight
    · obtain ⟨r₃, hs, h₃, ht₃, -⟩ := h₂.settleNext sched
      exact ⟨r₃, by simp only [ha, hfull, if_true]; exact hs, h₃, ht₃.trans ht₂⟩
    · exact ⟨_, by simp only [ha, hfull, if_false], h₂, ht₂⟩

/-- Handling a line never stops the run, and counts the line once when it holds a point. -/
theorem Inv.step (h : r.Inv) (n : Nat) (line : String) :
    ∃ r', r.step sched n line = .ok r' ∧ r'.Inv ∧ r'.tally = r.tally + (holdsPoint line).toNat := by
  unfold Run.step
  rcases hl : parseImportLine line with e | _ | p
  · have hp := holdsPoint_of_parse line (by simp [hl])
    exact ⟨_, rfl, h.reject n e.message, by simp [hp]⟩
  · have hp := (parseImportLine_eq_none_iff line).1 hl
    exact ⟨r, rfl, h, by simp [hp]⟩
  · have hp := holdsPoint_of_parse line (by simp [hl])
    obtain ⟨r', hw, h', ht⟩ := h.writePoint sched n p
    exact ⟨r', hw, h', by simp [ht, hp]⟩

/-- Feeding lines never stops the run, and counts every line that holds a point once. -/
theorem feed_ok (h : r.Inv) (n : Nat) (lines : List (String × Bool)) :
    ∃ r', r.feed sched n lines = .ok r' ∧ r'.Inv ∧
      r'.tally = r.tally + (lines.map Prod.fst).countP holdsPoint := by
  induction lines generalizing r n with
  | nil => exact ⟨r, rfl, h, by simp⟩
  | cons line rest ih =>
    obtain ⟨line, reads⟩ := line
    -- a line that reads the file starts a new turn, which changes nothing the count reads
    have h₀ : (if reads then { r with budget := afterRead } else r).Inv ∧
        (if reads then { r with budget := afterRead } else r).tally = r.tally := by
      cases reads
      · exact ⟨h, rfl⟩
      · exact ⟨h.withBudget _, rfl⟩
    obtain ⟨r₁, hs, h₁, ht₁⟩ := h₀.1.step sched n line
    obtain ⟨r₂, hf, h₂, ht₂⟩ := ih h₁ (n + 1)
    refine ⟨r₂, by simp only [feed, hs, hf, bind, Except.bind], h₂, ?_⟩
    rw [ht₂, ht₁, h₀.2, List.map_cons, List.countP_cons]
    cases holdsPoint line
    · simp
    · simp only [Bool.toNat_true, if_true]
      omega

/-- Awaiting at least as many writes as are pending never stops the run, and leaves none
pending. -/
theorem drainFrom_ok (h : r.Inv) {n : Nat} (hn : r.pending.length ≤ n) :
    ∃ r', r.drainFrom sched n = .ok r' ∧ r'.Inv ∧ r'.tally = r.tally ∧ r'.pending = [] := by
  induction n generalizing r with
  | zero => exact ⟨r, rfl, h, rfl, List.eq_nil_of_length_eq_zero (Nat.le_zero.1 hn)⟩
  | succ n ih =>
    obtain ⟨r₁, hs, h₁, ht₁, hl₁⟩ := h.settleNext sched
    obtain ⟨r₂, hd, h₂, ht₂, hp₂⟩ := ih h₁ (by omega)
    exact ⟨r₂, by simp only [drainFrom, hs, hd, bind, Except.bind], h₂, ht₂.trans ht₁, hp₂⟩

/-- The end of the import never stops the run: every pending write is awaited and counted. -/
theorem drain_ok (h : r.Inv) :
    ∃ r', r.drain sched = .ok r' ∧ r'.Inv ∧ r'.tally = r.tally ∧ r'.pending = [] :=
  drainFrom_ok sched (h.withBudget afterRead) le_rfl
end Inv

end Run

end Import

end SeriesIngest
