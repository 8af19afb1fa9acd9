import SeriesIngest.Proofs.Write.Invariant

/-!
# What every run of a writer guarantees

A point added to a writer reaches the store by one of three ways: placed in the session's row at
once, handed to the database handle when it is at or before the watermark and out-of-order points
are allowed, or placed by the session only when the write is awaited, after the admission filter
let it through. The writer never builds a key for a point: it keeps the session's row, opened at
the base time of a first point and rolled over a window at a time. Still, whichever way a point
goes, whatever the run before it, and in whatever order its pending write is awaited, the store
request it makes is the one the handle makes for the same point: the template of the point's
series moved to the point's base time, the column name built against that base time, and the
point's encoded value. Only the durability may differ, which batch import sets.

A session buffers the samples of its row, and the buffer cannot grow past one sample per second
of the window, or per millisecond once a millisecond sample came. It never has to: a point after
the watermark is later than every sample of the row and, once the row is rolled over, inside its
window, so it always finds room.

Main statements: `pending_request_matches_handle` and `inOrder_append_within_limit`.
-/

namespace SeriesIngest

/-- The cell write of a request is that of the durable request to the same cell, with the
request's durability. -/
theorem Db.cellWrite_durable (db : Db) (r : WriteRequest) :
    db.cellWrite r = { db.cellWrite ⟨r.row, r.qualifier, r.value, true⟩ with durable := r.durable } := by
  unfold cellWrite
  split <;> rfl

/-- Every store request a pending write of a writer's run issues targets the cell, and carries the
value, that the handle would write for the same point now. -/
theorem pending_request_matches_handle {R : WriterRun} (hR : R.Reachable) {p : AddedPoint}
    {pw : PendingWrite} (hp : (p, pw) ∈ R.pending) {r : WriteRequest}
    (hr : R.db.issued pw = some r) :
    ∃ T ev q, R.db.buildTemplate p.metric p.tags = (R.db, .ok T) ∧
      buildQualifier p.ts (R.db.baseTimeOf p.ts) ev.flags = .ok q ∧
      R.db.addPoint p.metric p.ts p.value p.tags = (R.db, .ok (.point p.metric p.tags p.ts ev
        (R.db.withBaseTime T (R.db.baseTimeOf p.ts)) q)) ∧
      R.db.cellWrite r = { R.db.cellWrite ⟨(R.db.withBaseTime T (R.db.baseTimeOf p.ts)).bytes, q,
        ev.bytes, true⟩ with durable := r.durable } := by
  have hinv := hR.inv
  obtain ⟨row, ev, hpl, hrow, hval⟩ := (hinv.pending _ hp).issued hinv.sound hr
  obtain ⟨T, -, htpl, rfl⟩ := hpl.template
  refine ⟨T, ev, r.qualifier, htpl.buildTemplate, hpl.qualifier, hpl.addPoint hinv.sound, ?_⟩
  rw [R.db.cellWrite_durable r, hrow, hval]

/-- The database built with the default settings and no parts of its own. -/
def freshDb : Db := (Db.build {} {} {}).toOption.get (by decide)

theorem build_freshDb : Db.build {} {} {} = .ok freshDb := rfl

/-- A writer of the fresh database that sets a series and adds one point. -/
def cpuRun : WriterRun :=
  ((WriterRun.start freshDb).step (.setSeries "sys.cpu" ⟨[⟨"host", "web01"⟩]⟩)).step
    (.add 1000 (.integer 1))

/-- The first point of a writer issues the request the handle issues for it. -/
theorem cpu_point_request_matches_handle :
    ∃ e ∈ cpuRun.pending, ∃ r, cpuRun.db.issued e.2 = some r ∧
      ∃ T ev q, cpuRun.db.buildTemplate e.1.metric e.1.tags = (cpuRun.db, .ok T) ∧
        buildQualifier e.1.ts (cpuRun.db.baseTimeOf e.1.ts) ev.flags = .ok q ∧
        cpuRun.db.addPoint e.1.metric e.1.ts e.1.value e.1.tags =
          (cpuRun.db, .ok (.point e.1.metric e.1.tags e.1.ts ev
            (cpuRun.db.withBaseTime T (cpuRun.db.baseTimeOf e.1.ts)) q)) ∧
        cpuRun.db.cellWrite r = { cpuRun.db.cellWrite
          ⟨(cpuRun.db.withBaseTime T (cpuRun.db.baseTimeOf e.1.ts)).bytes, q, ev.bytes, true⟩ with
            durable := r.durable } := by
  have hR : cpuRun.Reachable := .step _ (.step _ (.start build_freshDb))
  have hsome : (cpuRun.db.issued (cpuRun.pending.get ⟨0, by decide⟩).2).isSome := by decide
  exact ⟨_, List.get_mem _ _, _, (Option.some_get hsome).symm,
    pending_request_matches_handle hR (List.get_mem _ _) (Option.some_get hsome).symm⟩

/-- No sample buffer of a run overflows: a late point whose metric has an id is buffered below the
buffer's limit, and its append succeeds. -/
theorem inOrder_append_within_limit {R : WriterRun} (hR : R.Reachable) {db : Db}
    (hf : Db.Frame R.db db) (hs : db.sessions = R.db.sessions) {sid : Nat} (metric : String)
    {ts : Int} (hts : Db.checkTimestamp ts = .ok ()) {row : RowKey}
    (hrow : (db.session sid).row = some row) (hres : row.metricResolved = true)
    (hlate : Db.notAfter (db.session sid).watermark (Time.toMillis ts) = false)
    (value : EncodedValue) :
    let s := (db.raiseAndRoll sid ts).session sid
    ∃ q, buildQualifier ts (s.row.getD row).baseTime value.flags = .ok q ∧
      s.buffer.size < (s.buffer.noting q).limit ∧ (s.buffer.append q value.raw).2 = .ok () ∧
      db.acceptInOrder sid metric ts value =
        ((db.raiseAndRoll sid ts).setSession sid { s with buffer := (s.buffer.append q value.raw).1 },
          .ok ((s.row.getD row).bytes, q)) := by
  dsimp only
  obtain ⟨T, hd, hT, hTres, hready⟩ := hR.inv.ready hf hs hts hrow hres hlate
  obtain ⟨q, hq, -, hlt, hok, -, -⟩ := hready.append hd hTres hts value.flags value.raw
  refine ⟨q, by rw [hready.row_getD, hd.baseTime_withBaseTime hT]; exact hq, hlt, hok, ?_⟩
  rw [Db.acceptInOrder_of_ready metric value hd hT hrow hres hts hready hq, hready.row_getD]

/-- A writer of the fresh database that sets a series. -/
def cpuSeriesRun : WriterRun := (WriterRun.start freshDb).step (.setSeries "sys.cpu" ⟨[⟨"host", "web01"⟩]⟩)

/-- The first point of a series finds room in its row's buffer. -/
theorem first_sample_within_limit :
    ∃ row, (cpuSeriesRun.db.session 1).row = some row ∧ row.metricResolved = true ∧
      Db.notAfter (cpuSeriesRun.db.session 1).watermark (Time.toMillis 1000) = false ∧
      let s := (cpuSeriesRun.db.raiseAndRoll 1 1000).session 1
      ∃ q, buildQualifier 1000 (s.row.getD row).baseTime (encodeLong 1).flags = .ok q ∧
        s.buffer.size < (s.buffer.noting q).limit ∧ (s.buffer.append q (encodeLong 1).raw).2 = .ok () ∧
        cpuSeriesRun.db.acceptInOrder 1 "sys.cpu" 1000 (encodeLong 1) =
          ((cpuSeriesRun.db.raiseAndRoll 1 1000).setSession 1
            { s with buffer := (s.buffer.append q (encodeLong 1).raw).1 },
            .ok ((s.row.getD row).bytes, q)) := by
  have hR : cpuSeriesRun.Reachable := .step _ (.start build_freshDb)
  refine ⟨(cpuSeriesRun.db.session 1).row.get (by decide), (Option.some_get _).symm, by decide,
    by decide, ?_⟩
  exact inOrder_append_within_limit hR (Db.Frame.refl _) rfl "sys.cpu" (by decide)
    (Option.some_get _).symm (by decide) (by decide) (encodeLong 1)

end SeriesIngest
