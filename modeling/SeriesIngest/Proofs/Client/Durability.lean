import SeriesIngest.Proofs.Client.Outcomes

/-!
# Durable and deferred writes

Every store request asks to be durable or deferred, and the store counts every write it takes as
one or the other. A pending write fixes the durability of its request when it is made
(`PendingWrite.durability`): a writer's point placed at once or left waiting for the filter asks
for durability exactly when its writer is out of batch import, and a point written through the
handle, including a writer's point handed to the handle as out of order, always asks for it. So
whenever the write is awaited, and whatever the database has done meanwhile, its request has the
durability of the call, and the store counts it once, in the counter that durability names.

A point that waits for the filter and is overtaken by a later point of its session is written on
its own, like a point handed to the handle; it keeps the writer's durability all the same
(`overtaken_import_write_deferred`).

Main statement: `Db.durability_fixed_when_added`.
-/

namespace SeriesIngest

namespace Store

/-- `s'` has counted `k` more writes than `s`, all of them durable or all deferred. -/
structure Records (s s' : Store) (d : Bool) (k : Nat) : Prop where
  durable : s'.durableWrites = s.durableWrites + if d then k else 0
  deferred : s'.deferredWrites = s.deferredWrites + if d then 0 else k

theorem Records.refl (s : Store) (d : Bool) : Records s s d 0 :=
  ⟨by simp, by simp⟩

theorem records_commit (s : Store) (name : Bytes) (t : Table) (durable : Bool) :
    Records s (s.commit name t durable) durable 1 := by
  cases durable <;> exact ⟨rfl, rfl⟩

/-- A write the store takes, put or append, commits its table once, as it asked. -/
theorem records_of_target {s s' : Store} {w : CellWrite} {f : Table → Table}
    (h : (s.target w >>= fun t => pure (s.commit w.table (f t) w.durable)) = .ok s') :
    Records s s' w.durable 1 := by
  rcases ht : s.target w with e | t <;> simp only [ht, bind, Except.bind, pure, Except.pure,
    reduceCtorEq, Except.ok.injEq] at h
  rw [← h]
  exact records_commit _ _ _ _

theorem records_put {s s' : Store} {w : CellWrite} (h : s.put w = .ok s') :
    Records s s' w.durable 1 :=
  records_of_target h

theorem records_append {s s' : Store} {w : CellWrite} (h : s.append w = .ok s') :
    Records s s' w.durable 1 :=
  records_of_target h

end Store

/-- The durability a pending write asks of the request it issues, fixed when the write was made;
none for a write that failed at once and issues nothing. -/
def PendingWrite.durability : PendingWrite → Option Bool
  | .failed _ => none
  | .issue r => some r.durable
  | .point .. => some true
  | .admitted _ _ _ _ _ durable => some durable

namespace Db

@[simp] theorem durable_cellWrite (db : Db) (r : WriteRequest) :
    (db.cellWrite r).durable = r.durable := by
  unfold cellWrite
  split <;> rfl

/-- Issuing a request changes nothing, or counts the point written and has the store count the
write, as durable or deferred as the request asks. -/
theorem dispatch_records (db : Db) (r : WriteRequest) :
    (db.dispatch r).1 = db ∨
      (db.dispatch r).1.stats.pointsWritten = db.stats.pointsWritten + 1 ∧
        Store.Records db.store (db.dispatch r).1.store r.durable 1 := by
  unfold dispatch
  dsimp only
  split
  · exact .inl rfl
  · next store hres =>
    refine .inr ⟨rfl, ?_⟩
    rw [← db.durable_cellWrite r]
    split at hres
    · exact Store.records_append hres
    · exact Store.records_put hres

/-- Asking the filter writes nothing. -/
theorem written_consult {db db₁ : Db} {metric : String} {ts : Int} {value : EncodedValue}
    {tags : Tags} {res : Except WriteError Bool} (h : db.consult metric ts value tags = (db₁, res)) :
    db₁.stats.pointsWritten = db.stats.pointsWritten := by
  by_cases hres : res = .ok false
  · exact ((counts_consult h).1 hres).written
  · exact ((counts_consult h).2 hres).written

/-- Awaiting a pending write first does its bookkeeping, which leaves the settings, the store and
the count of points written alone, and then issues the request `issued` reads off the write, if
any. -/
theorem settle_stages (db : Db) (pw : PendingWrite) :
    ∃ db₁ : Db, Frame db db₁ ∧ db₁.stats.pointsWritten = db.stats.pointsWritten ∧
      (db.issued pw = none ∧ (db.settle pw).1 = db₁ ∨
        ∃ r, db.issued pw = some r ∧ db.settle pw = db₁.dispatch r) := by
  cases pw with
  | failed e => exact ⟨db, Frame.refl db, rfl, .inl ⟨rfl, rfl⟩⟩
  | issue r => exact ⟨db, Frame.refl db, rfl, .inr ⟨r, rfl, rfl⟩⟩
  | point metric tags ts value row q =>
    have hf := frame_consult db metric ts value tags
    rcases hc : db.consult metric ts value tags with ⟨db₁, e | _ | _⟩ <;> rw [hc] at hf
    · exact ⟨db₁, hf, written_consult hc, .inl ⟨by simp [issued, hc], by simp [settle, hc]⟩⟩
    · exact ⟨db₁, hf, written_consult hc, .inl ⟨by simp [issued, hc], by simp [settle, hc]⟩⟩
    · cases hres : row.metricResolved
      · exact ⟨(db₁.rejectMetric metric).1, hf.trans (frame_rejectMetric db₁ metric),
          (counts_rejectMetric db₁ metric).written.trans (written_consult hc),
          .inl ⟨by simp [issued, hc, hres], by simp [settle, hc, hres]⟩⟩
      · exact ⟨db₁, hf, written_consult hc,
          .inr ⟨⟨row.bytes, q, value.bytes, true⟩, by simp [issued, hc, hres],
            by simp [settle, hc, hres]⟩⟩
  | admitted sid metric tags ts value durable =>
    have hf := frame_consult db metric ts value tags
    rcases hc : db.consult metric ts value tags with ⟨db₁, e | _ | _⟩ <;> rw [hc] at hf
    · exact ⟨db₁, hf, written_consult hc, .inl ⟨by simp [issued, hc], by simp [settle, hc]⟩⟩
    · exact ⟨db₁, hf, written_consult hc, .inl ⟨by simp [issued, hc], by simp [settle, hc]⟩⟩
    · have hw := frame_writeAllowed db₁ sid metric ts value
      have hn := (counts_writeAllowed db₁ sid metric ts value).written
      rcases hwa : db₁.writeAllowed sid metric ts value with ⟨db₂, e | ⟨row, q⟩⟩ <;>
        rw [hwa] at hw hn
      · exact ⟨db₂, hf.trans hw, hn.trans (written_consult hc),
          .inl ⟨by simp [issued, hc, hwa], by simp [settle, hc, hwa]⟩⟩
      · exact ⟨db₂, hf.trans hw, hn.trans (written_consult hc),
          .inr ⟨⟨row, q, value.bytes, durable⟩, by simp [issued, hc, hwa],
            by simp [settle, hc, hwa]⟩⟩

/-- Whatever database a pending write runs in, the request it issues has the durability the
write fixed when it was made. -/
theorem durability_of_issued {db : Db} {pw : PendingWrite} {r : WriteRequest}
    (h : db.issued pw = some r) : pw.durability = some r.durable := by
  cases pw with
  | failed e => cases h
  | issue r' =>
    cases h
    rfl
  | point metric tags ts value row q =>
    simp only [issued] at h
    split at h
    · split at h
      · cases h
        rfl
      · cases h
    · cases h
  | admitted sid metric tags ts value durable =>
    simp only [issued] at h
    split at h
    · split at h
      · cases h
        rfl
      · cases h
    · cases h

/-- Awaiting a write whose every request would be durable, or every one deferred, counts at most
one point written, and the store counts it in the counter that durability names. -/
theorem settle_records (db : Db) {pw : PendingWrite} {durable : Bool}
    (hd : ∀ r, db.issued pw = some r → r.durable = durable) :
    ∃ k ≤ 1, (db.settle pw).1.stats.pointsWritten = db.stats.pointsWritten + k ∧
      Store.Records db.store (db.settle pw).1.store durable k := by
  obtain ⟨db₁, hf, hn, ⟨-, h⟩ | ⟨r, hr, h⟩⟩ := settle_stages db pw
  · rw [h, hf.store, hn]
    exact ⟨0, Nat.zero_le 1, rfl, Store.Records.refl _ _⟩
  · rw [h, ← hf.store, ← hn, ← hd r hr]
    rcases db₁.dispatch_records r with h₁ | ⟨hw, hrec⟩
    · rw [h₁]
      exact ⟨0, Nat.zero_le 1, rfl, Store.Records.refl _ _⟩
    · exact ⟨1, le_rfl, hw, hrec⟩

/-- A write whose durability is fixed is issued with it whenever it runs, and counted once, in
the counter it names, by the store that takes it. -/
theorem settle_durable_as {pw : PendingWrite} {durable : Bool}
    (hd : ∀ d, pw.durability = some d → d = durable) (db : Db) :
    (∀ r, db.issued pw = some r → r.durable = durable) ∧
      ∃ k ≤ 1, (db.settle pw).1.stats.pointsWritten = db.stats.pointsWritten + k ∧
        Store.Records db.store (db.settle pw).1.store durable k := by
  have hr : ∀ r, db.issued pw = some r → r.durable = durable :=
    fun r h => hd r.durable (durability_of_issued h)
  exact ⟨hr, settle_records db hr⟩

section Add

variable {db : Db} {pw : PendingWrite}

/-- The handle's pending writes are durable. -/
theorem durability_addEncodedPoint {metric : String} {ts : Int} {ev : EncodedValue} {tags : Tags}
    (h : (db.addEncodedPoint metric ts ev tags).2 = .ok pw) : pw.durability = some true := by
  unfold addEncodedPoint at h
  split at h
  · cases h
  · rcases hb : db.buildTemplate metric tags with ⟨db₁, e | T⟩ <;> rw [hb] at h
    · cases h
    · dsimp only at h
      split at h
      · cases h
      · cases h
        rfl

theorem durability_addPoint {metric : String} {ts : Int} {value : DataValue} {tags : Tags}
    (h : (db.addPoint metric ts value tags).2 = .ok pw) : pw.durability = some true := by
  unfold addPoint at h
  split at h
  · cases h
  · exact durability_addEncodedPoint h

/-- A writer's pending write is durable exactly when the writer is out of batch import, unless
the point was at or before the watermark and went to the handle, which writes durably. -/
theorem durability_addValue {w : Writer} {ts : Int} {value : DataValue}
    (h : (db.addValue w ts value).2 = .ok pw) {d : Bool} (hd : pw.durability = some d) :
    d = (!w.batchImport || notAfter (db.session w.session).watermark (Time.toMillis ts)) := by
  rcases henc : encodeValue value with e | ev
  · simp [addValue, henc] at h
  have hadd : db.addValue w ts value = db.addEncoded w ts ev := by simp [addValue, henc]
  rw [hadd] at h
  by_cases hrow : (db.session w.session).row.isSome
  · obtain ⟨row, hr⟩ := Option.isSome_iff_exists.1 hrow
    rcases hts : checkTimestamp ts with e | ⟨⟩
    · simp [addEncoded, hr, hts] at h
    cases hlate : notAfter (db.session w.session).watermark (Time.toMillis ts)
    · rw [addEncoded_of_late hrow hts hlate] at h
      unfold placeNow at h
      dsimp only at h
      split at h
      · rcases hwa : db.writeAllowed w.session w.metric ts ev with ⟨db₁, e | ⟨row', q⟩⟩ <;>
          rw [hwa] at h <;> cases h
        · cases hd
        · cases hd
          simp
      · cases h
        cases hd
        simp
    · obtain ⟨last, hwm, hle⟩ := notAfter_eq_true.1 hlate
      rw [addEncoded_of_notAfter hrow hts hwm hle] at h
      split at h
      · rw [durability_addEncodedPoint h] at hd
        cases hd
        simp
      · cases h
  · have hnone : (db.session w.session).row = none := by simpa using hrow
    simp [addEncoded, hnone] at h

/-- A point written through the handle is written durably whenever it runs. -/
theorem handle_writes_durable {metric : String} {ts : Int} {value : DataValue} {tags : Tags}
    (h : (db.addPoint metric ts value tags).2 = .ok pw) (db' : Db) :
    (∀ r, db'.issued pw = some r → r.durable = true) ∧
      ∃ k ≤ 1, (db'.settle pw).1.stats.pointsWritten = db'.stats.pointsWritten + k ∧
        Store.Records db'.store (db'.settle pw).1.store true k :=
  settle_durable_as (fun _ hd => by rw [durability_addPoint h] at hd; cases hd; rfl) db'

/-- The durability of a writer's point is fixed when it is added, whatever the database the write
later runs in; its await counts at most one point, durable or deferred to match. -/
theorem durability_fixed_when_added {w : Writer} {ts : Int} {value : DataValue}
    (h : (db.addValue w ts value).2 = .ok pw) (db' : Db) :
    (∀ r, db'.issued pw = some r →
      r.durable = (!w.batchImport || notAfter (db.session w.session).watermark (Time.toMillis ts))) ∧
    ∃ k ≤ 1, (db'.settle pw).1.stats.pointsWritten = db'.stats.pointsWritten + k ∧
      Store.Records db'.store (db'.settle pw).1.store
        (!w.batchImport || notAfter (db.session w.session).watermark (Time.toMillis ts)) k :=
  settle_durable_as (fun _ hd => durability_addValue h hd) db'

end Add

end Db

/-- The default table, out-of-order points allowed, and a filter that admits every point. -/
def delegatingDb : Db :=
  (Db.build { allowOutOfOrder := true } tsdbStore { filter := some admitAll }).toOption.get
    (by decide)

/-- A writer in batch import, with its series set. -/
def importWriter : Writer := ⟨"sys.cpu", ⟨[⟨"host", "web01"⟩]⟩, 1, true⟩

/-- The clients of `delegatingDb` once a writer has set its series and entered batch import. -/
def importClients : ClientRun :=
  (ClientRun.start delegatingDb).run
    [.newWriter, .setSeries 0 "sys.cpu" ⟨[⟨"host", "web01"⟩]⟩, .setBatchImport 0 true]

example : importClients.writers = [importWriter] := by decide +kernel

/-- The writer adds two points, which wait for the filter, and the later one is awaited first. -/
def importOvertaking : ClientRun :=
  importClients.run [.add 0 2000 (.integer 1), .add 0 3000 (.integer 2), .await 1]

/-- The first point of the writer in batch import is added before the watermark: run after the
later point has overtaken it, its request is still the deferred one of its call. -/
theorem overtaken_write_durability_fixed :
    ∃ pw, (importClients.db.addValue importWriter 2000 (.integer 1)).2 = .ok pw ∧
      (∀ r, importOvertaking.db.issued pw = some r →
        r.durable = (!importWriter.batchImport ||
          Db.notAfter (importClients.db.session importWriter.session).watermark
            (Time.toMillis 2000))) ∧
      ∃ k ≤ 1, (importOvertaking.db.settle pw).1.stats.pointsWritten =
          importOvertaking.db.stats.pointsWritten + k ∧
        Store.Records importOvertaking.db.store (importOvertaking.db.settle pw).1.store
          (!importWriter.batchImport ||
            Db.notAfter (importClients.db.session importWriter.session).watermark
              (Time.toMillis 2000)) k := by
  rcases h : (importClients.db.addValue importWriter 2000 (.integer 1)).2 with e | pw
  · have hok : (importClients.db.addValue importWriter 2000 (.integer 1)).2.toBool = true := by
      decide +kernel
    rw [h] at hok
    cases hok
  · exact ⟨pw, rfl, Db.durability_fixed_when_added h importOvertaking.db⟩

/-- The overtaken point is then awaited and written on its own as out of order. -/
def overtakenImport : ClientRun := importOvertaking.step (.await 0)

/-- The store counts both writes of `overtakenImport` as deferred: the overtaken point keeps the
durability of its writer, where the handle would write it durably. -/
theorem overtaken_import_write_deferred :
    overtakenImport.db.stats.outOfOrderDelegated = 1 ∧ overtakenImport.db.stats.pointsWritten = 2 ∧
      overtakenImport.db.store.durableWrites = 0 ∧ overtakenImport.db.store.deferredWrites = 2 := by
  decide +kernel

end SeriesIngest
