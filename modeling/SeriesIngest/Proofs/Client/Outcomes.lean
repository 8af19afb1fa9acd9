import Mathlib.Data.List.Perm.Basic
import SeriesIngest.Proofs.Client.Rollover

/-!
# What the counters count

Three counters tell what became of the points written: the points the store took, the points the
filter dropped, and the writes refused for a metric without an id. Every write that a call returns
ends in exactly one way, and is counted by exactly one of the three or, when the store or the
filter fails it or its session's order refuses it, by none (`WriteOutcome`). A writer's point
placed at once, without a filter, has its metric refused there and then: its refusal is counted by
the call that made the write, and awaiting the write only gives it back (`PendingWrite.counted`).
Every other write is counted when it is awaited.

So over every run of the clients the points written and dropped are the writes awaited with `Ok`,
the metrics refused are the refusals given back or still pending, and with the failures the
counters count every awaited write once. A rollover is counted exactly when a row is handed to the
compaction queue.

Main statement: `ClientRun.outcomes_partition_writes`.
-/

namespace SeriesIngest

namespace WriteError

/-- The refusal of a metric without an id. -/
def refusesMetric : WriteError → Bool
  | .unresolved .metric _ => true
  | _ => false

/-- A failure that no counter of points counts: the store or the filter failed the write, or its
session's order refused it. -/
def uncounted : WriteError → Bool
  | .store _ | .filter _ | .outOfOrder .. => true
  | _ => false

end WriteError

/-- Whether a result refuses a metric without an id. -/
def refusedMetric {α : Type} : Except WriteError α → Bool
  | .error e => e.refusesMetric
  | .ok _ => false

/-- Whether a result is a failure that no counter of points counts. -/
def failedUncounted {α : Type} : Except WriteError α → Bool
  | .error e => e.uncounted
  | .ok _ => false

/-- Whether the call that made a pending write has counted it already: a writer's point whose
metric was refused when it was placed at once. -/
def PendingWrite.counted : PendingWrite → Bool
  | .failed e => e.refusesMetric
  | _ => false

/-- How a write ends, and what it adds to the counters of points written, points the filter
dropped and metrics refused: a write the store takes gives `Ok` and is written, a point the
filter drops gives `Ok` and is dropped, a point whose metric has no id is refused, and a write
that the store or the filter fails, or that its session's order refuses, is counted by none. -/
inductive WriteOutcome (p : AddedPoint) : Except WriteError Unit → Nat → Nat → Nat → Prop
  | written : WriteOutcome p (.ok ()) 1 0 0
  | dropped : WriteOutcome p (.ok ()) 0 1 0
  | refused : WriteOutcome p (.error (.unresolved .metric p.metric)) 0 0 1
  | failed {e : WriteError} : e.uncounted = true → WriteOutcome p (.error e) 0 0 0

namespace Db

/-- `db'` has counted `w` more points written than `db`, `d` more points dropped by the filter
and `r` more metrics refused. -/
structure Counts (db db' : Db) (w d r : Nat) : Prop where
  written : db'.stats.pointsWritten = db.stats.pointsWritten + w
  dropped : db'.stats.pointsFiltered = db.stats.pointsFiltered + d
  refused : db'.stats.metricRejections = db.stats.metricRejections + r

section Counts

variable {db db' db'' : Db} {w d r w' d' r' : Nat}

theorem Counts.refl (db : Db) : Counts db db 0 0 0 := ⟨rfl, rfl, rfl⟩

theorem Counts.trans (h₁ : Counts db db' w d r) (h₂ : Counts db' db'' w' d' r') :
    Counts db db'' (w + w') (d + d') (r + r') :=
  ⟨by rw [h₂.written, h₁.written, Nat.add_assoc], by rw [h₂.dropped, h₁.dropped, Nat.add_assoc],
    by rw [h₂.refused, h₁.refused, Nat.add_assoc]⟩

theorem Counts.congr (h : Counts db db' w d r) (hw : w = w') (hd : d = d') (hr : r = r') :
    Counts db db' w' d' r' :=
  hw ▸ hd ▸ hr ▸ h

/-- Moving a session on, rolling a row over and building a template count nothing. -/
theorem counts_setSession (db : Db) (sid : Nat) (s : Session) :
    Counts db (db.setSession sid s) 0 0 0 :=
  ⟨rfl, rfl, rfl⟩

theorem counts_rollIfNeeded (db : Db) (sid : Nat) (ts : Int) :
    Counts db (db.rollIfNeeded sid ts) 0 0 0 := by
  unfold rollIfNeeded
  dsimp only
  split
  · exact Counts.refl db
  · split
    · exact counts_setSession _ _ _
    · split
      · exact ⟨rfl, rfl, rfl⟩
      · exact Counts.refl db

theorem counts_buildTemplate (db : Db) (metric : String) (tags : Tags) :
    Counts db (db.buildTemplate metric tags).1 0 0 0 :=
  ⟨rfl, rfl, rfl⟩

theorem counts_rejectMetric (db : Db) (metric : String) :
    Counts db (db.rejectMetric metric).1 0 0 1 :=
  ⟨rfl, rfl, rfl⟩

end Counts

/-- Building a column name fails only for an offset out of range, never for a metric. -/
theorem refusesMetric_of_buildQualifier {ts : Int} {base : UInt32} {flags : UInt16}
    {e : WriteError} (h : buildQualifier ts base flags = .error e) : e.refusesMetric = false := by
  unfold buildQualifier encodeMillisQualifier encodeSecondsQualifier checkDelta at h
  split at h
  · generalize Number.wrap64 (ts - base.toNat * 1000) = d at h
    by_cases hd : d < 0 ∨ d > maxMillisDelta
    · simp only [hd, if_true, Except.map] at h
      cases h
      rfl
    · simp [hd, Except.map] at h
  · generalize Number.wrap64 (ts - base.toNat) = d at h
    by_cases hd : d < 0 ∨ d > maxSecondDelta
    · simp only [hd, if_true, Except.map] at h
      cases h
      rfl
    · simp [hd, Except.map] at h

theorem refusedMetric_map_buildQualifier {α : Type} (f : Qualifier → α) (ts : Int) (base : UInt32)
    (flags : UInt16) : refusedMetric ((buildQualifier ts base flags).map f) = false := by
  rcases h : buildQualifier ts base flags with e | q
  · simp [Except.map, refusedMetric, refusesMetric_of_buildQualifier h]
  · rfl

/-- The in-order path counts a refused metric exactly when it refuses the point's metric. -/
theorem counts_acceptInOrder (db : Db) (sid : Nat) (metric : String) (ts : Int)
    (value : EncodedValue) :
    Counts db (db.acceptInOrder sid metric ts value).1 0 0
      (refusedMetric (db.acceptInOrder sid metric ts value).2).toNat := by
  have h₁ := counts_setSession db sid { db.session sid with watermark := some (Time.toMillis ts) }
  unfold acceptInOrder
  dsimp only
  split
  · exact h₁
  · split
    · exact (h₁.trans (counts_rejectMetric _ metric)).congr rfl rfl rfl
    · have h₂ := (h₁.trans (counts_rollIfNeeded _ sid ts)).congr rfl rfl rfl
      split
      · next e he =>
        simpa [refusedMetric, refusesMetric_of_buildQualifier he] using h₂
      · split
        · exact (h₂.trans (counts_setSession _ _ _)).congr rfl rfl rfl
        · simpa [refusedMetric, WriteError.refusesMetric] using h₂

/-- A session's write counts a refused metric exactly when it refuses the point's metric. -/
theorem counts_writeAllowed (db : Db) (sid : Nat) (metric : String) (ts : Int)
    (value : EncodedValue) :
    Counts db (db.writeAllowed sid metric ts value).1 0 0
      (refusedMetric (db.writeAllowed sid metric ts value).2).toNat := by
  unfold writeAllowed
  dsimp only
  split
  · exact Counts.refl db
  · split
    · split
      · split
        · exact Counts.refl db
        · split
          · exact counts_rejectMetric db metric
          · refine (⟨rfl, rfl, rfl⟩ : Counts db { db with stats := { db.stats with
              outOfOrderDelegated := db.stats.outOfOrderDelegated + 1 } } 0 0 0).congr rfl rfl ?_
            simp only [refusedMetric_map_buildQualifier, Bool.toNat_false]
      · exact counts_acceptInOrder _ _ _ _ _
    · exact counts_acceptInOrder _ _ _ _ _

/-- Asking the filter counts the point when the filter drops it, and nothing else. -/
theorem counts_consult {db db₁ : Db} {metric : String} {ts : Int} {value : EncodedValue}
    {tags : Tags} {res : Except WriteError Bool} (h : db.consult metric ts value tags = (db₁, res)) :
    (res = .ok false → Counts db db₁ 0 1 0) ∧ (res ≠ .ok false → Counts db db₁ 0 0 0) := by
  unfold consult at h
  split at h
  · split at h
    · dsimp only at h
      split at h <;> cases h
      · exact ⟨(fun h => by cases h), fun _ => ⟨rfl, rfl, rfl⟩⟩
      · exact ⟨(fun h => by cases h), fun _ => ⟨rfl, rfl, rfl⟩⟩
      · exact ⟨fun _ => ⟨rfl, rfl, rfl⟩, (fun h => absurd rfl h)⟩
    · cases h
      exact ⟨(fun h => by cases h), fun _ => Counts.refl db⟩
  · cases h
    exact ⟨(fun h => by cases h), fun _ => Counts.refl db⟩

/-- Issuing a request counts a point written when the store takes it. -/
theorem counts_dispatch (db : Db) (r : WriteRequest) :
    Counts db (db.dispatch r).1 (db.dispatch r).2.toBool.toNat 0 0 := by
  unfold dispatch
  dsimp only
  split
  · exact Counts.refl db
  · exact ⟨rfl, rfl, rfl⟩

/-- What an await counts for the result it gives: one point, written or dropped, for `Ok`, and a
refused metric for a refusal that the call making the write has not counted already. The store
changes only for a point written. -/
structure Tallies (db db' : Db) (res : Except WriteError Unit) (counted : Bool) : Prop where
  ok : res = .ok () → Counts db db' 1 0 0 ∨ Counts db db' 0 1 0
  error : ∀ e, res = .error e → Counts db db' 0 0 (e.refusesMetric && !counted).toNat
  store : db'.stats.pointsWritten = db.stats.pointsWritten → db'.store = db.store

section Tallies

variable {db db₁ db₂ : Db} {res : Except WriteError Unit} {counted : Bool}

/-- Bookkeeping that counts nothing and leaves the store alone before an await keeps what the
await counts. -/
theorem Tallies.pre (h₀ : Counts db db₁ 0 0 0) (hs : db₁.store = db.store)
    (h : Tallies db₁ db₂ res counted) : Tallies db db₂ res counted where
  ok hres := (h.ok hres).imp (fun h₁ => (h₀.trans h₁).congr rfl rfl rfl)
    (fun h₁ => (h₀.trans h₁).congr rfl rfl rfl)
  error e hres := (h₀.trans (h.error e hres)).congr rfl rfl (Nat.zero_add _)
  store hw := (h.store (hw.trans h₀.written.symm)).trans hs

theorem tallies_error {e : WriteError}
    (h : Counts db db₁ 0 0 (e.refusesMetric && !counted).toNat) (hs : db₁.store = db.store) :
    Tallies db db₁ (.error e) counted :=
  ⟨(fun hres => by cases hres), (fun _ he => by cases he; exact h), fun _ => hs⟩

theorem tallies_dropped (h : Counts db db₁ 0 1 0) (hs : db₁.store = db.store) :
    Tallies db db₁ (.ok ()) counted :=
  ⟨fun _ => .inr h, (fun _ he => by cases he), fun _ => hs⟩

/-- A request the store takes counts a point written; one it refuses counts nothing and changes
nothing. -/
theorem tallies_dispatch (db : Db) (r : WriteRequest) :
    Tallies db (db.dispatch r).1 (db.dispatch r).2 false := by
  unfold dispatch
  dsimp only
  split
  · exact tallies_error (Counts.refl db) rfl
  · exact ⟨fun _ => .inl ⟨rfl, rfl, rfl⟩, (fun _ he => by cases he),
      fun hw => absurd hw (Nat.succ_ne_self _)⟩

/-- A metric refused as the write runs is counted then. -/
theorem tallies_rejectMetric (db : Db) (metric : String) :
    Tallies db (db.rejectMetric metric).1 (.error (.unresolved .metric metric)) false :=
  tallies_error (counts_rejectMetric db metric) rfl

/-- A session that refuses a point counts a refused metric exactly when it refuses the metric. -/
theorem tallies_writeAllowed_error {sid : Nat} {metric : String} {ts : Int}
    {value : EncodedValue} {e : WriteError}
    (h : (db.writeAllowed sid metric ts value).2 = .error e) :
    Tallies db (db.writeAllowed sid metric ts value).1 (.error e) false := by
  have hc := counts_writeAllowed db sid metric ts value
  rw [h] at hc
  exact tallies_error (by simpa [refusedMetric] using hc) (frame_writeAllowed db sid metric ts value).store

end Tallies

/-- Awaiting a write counts it once when it gives `Ok`, as written or as dropped, and counts a
refused metric exactly when it gives one that the call making the write did not count; it writes
to the store only a point it counts as written. -/
theorem tallies_settle (db : Db) (pw : PendingWrite) :
    Tallies db (db.settle pw).1 (db.settle pw).2 pw.counted := by
  cases pw with
  | failed e =>
    dsimp only [settle]
    exact tallies_error (by simpa [PendingWrite.counted] using Counts.refl db) rfl
  | issue r => exact tallies_dispatch db r
  | point metric tags ts value row q =>
    dsimp only [settle, PendingWrite.counted]
    have hf := frame_consult db metric ts value tags
    rcases hcr : db.consult metric ts value tags with ⟨db₁, e | _ | _⟩ <;> rw [hcr] at hf <;>
      have hc := counts_consult hcr
    · obtain ⟨reason, rfl⟩ := consult_error (show (db.consult metric ts value tags).2 = .error e by
        rw [hcr])
      exact tallies_error (by simpa [WriteError.refusesMetric] using hc.2 (fun h => by cases h))
        hf.store
    · exact tallies_dropped (hc.1 rfl) hf.store
    · dsimp only
      split
      · exact (tallies_rejectMetric db₁ metric).pre (hc.2 (fun h => by cases h)) hf.store
      · exact (tallies_dispatch db₁ _).pre (hc.2 (fun h => by cases h)) hf.store
  | admitted sid metric tags ts value durable =>
    dsimp only [settle, PendingWrite.counted]
    have hf := frame_consult db metric ts value tags
    rcases hcr : db.consult metric ts value tags with ⟨db₁, e | _ | _⟩ <;> rw [hcr] at hf <;>
      have hc := counts_consult hcr
    · obtain ⟨reason, rfl⟩ := consult_error (show (db.consult metric ts value tags).2 = .error e by
        rw [hcr])
      exact tallies_error (by simpa [WriteError.refusesMetric] using hc.2 (fun h => by cases h))
        hf.store
    · exact tallies_dropped (hc.1 rfl) hf.store
    · have hc₁ := hc.2 (fun h => by cases h)
      have hf₁ := frame_writeAllowed db₁ sid metric ts value
      dsimp only
      rcases hw : db₁.writeAllowed sid metric ts value with ⟨db₂, e | ⟨row, q⟩⟩ <;> rw [hw] at hf₁
      · have ht := tallies_writeAllowed_error
          (show (db₁.writeAllowed sid metric ts value).2 = .error e by rw [hw])
        rw [hw] at ht
        exact ht.pre hc₁ hf.store
      · have hc₂ : Counts db₁ db₂ 0 0 0 := by
          simpa [refusedMetric, hw] using counts_writeAllowed db₁ sid metric ts value
        exact (tallies_dispatch db₂ _).pre ((hc₁.trans hc₂).congr rfl rfl rfl)
          (hf₁.store.trans hf.store)

/-! ### The calls that make writes -/

section Calls

theorem counts_addEncodedPoint (db : Db) (metric : String) (ts : Int) (value : EncodedValue)
    (tags : Tags) : Counts db (db.addEncodedPoint metric ts value tags).1 0 0 0 := by
  unfold addEncodedPoint
  split
  · exact Counts.refl db
  · have h := counts_buildTemplate db metric tags
    rcases hb : db.buildTemplate metric tags with ⟨db₁, e | T⟩ <;> rw [hb] at h
    · exact h
    · dsimp only
      split <;> exact h

/-- Placing a point after the watermark counts its metric refused exactly when the pending write
it returns failed at once for the metric. -/
theorem counts_placeNow (db : Db) (w : Writer) (ts : Int) (value : EncodedValue)
    {pw : PendingWrite} (h : (db.placeNow w ts value).2 = .ok pw) :
    Counts db (db.placeNow w ts value).1 0 0 pw.counted.toNat := by
  unfold placeNow at h ⊢
  dsimp only at h ⊢
  split at h
  · next hoff =>
    rw [if_pos hoff]
    have hc := counts_writeAllowed db w.session w.metric ts value
    rcases hw : db.writeAllowed w.session w.metric ts value with ⟨db₁, e | ⟨row, q⟩⟩ <;>
      rw [hw] at h hc <;> cases h
    · simpa [refusedMetric, PendingWrite.counted] using hc
    · simpa [refusedMetric, PendingWrite.counted] using hc
  · next hon =>
    rw [if_neg hon]
    cases h
    exact Counts.refl db

/-- A writer's call counts a refused metric only for a pending write that failed at once for
its metric, and counts nothing when it fails. -/
theorem counts_addValue (db : Db) (w : Writer) (ts : Int) (value : DataValue) :
    (∀ pw, (db.addValue w ts value).2 = .ok pw →
        Counts db (db.addValue w ts value).1 0 0 pw.counted.toNat) ∧
      ∀ e, (db.addValue w ts value).2 = .error e → Counts db (db.addValue w ts value).1 0 0 0 := by
  rcases henc : encodeValue value with e | ev
  · simp only [addValue, henc]
    exact ⟨(fun _ h => by cases h), fun _ _ => Counts.refl db⟩
  have hadd : db.addValue w ts value = db.addEncoded w ts ev := by simp [addValue, henc]
  rw [hadd]
  by_cases hrow : (db.session w.session).row.isSome
  · obtain ⟨row, hr⟩ := Option.isSome_iff_exists.1 hrow
    rcases hts : checkTimestamp ts with e | ⟨⟩
    · simp only [addEncoded, hr, Option.isNone_some, Bool.false_eq_true, if_false, hts]
      exact ⟨(fun _ h => by cases h), fun _ _ => Counts.refl db⟩
    cases hlate : notAfter (db.session w.session).watermark (Time.toMillis ts)
    · rw [addEncoded_of_late hrow hts hlate]
      refine ⟨fun pw h => counts_placeNow db w ts ev h, fun e h => ?_⟩
      obtain ⟨pw, hpw⟩ := placeNow_ok db w ts ev
      rw [hpw] at h
      cases h
    · obtain ⟨last, hwm, hle⟩ := notAfter_eq_true.1 hlate
      rw [addEncoded_of_notAfter hrow hts hwm hle]
      split
      · have hc := (⟨rfl, rfl, rfl⟩ : Counts db { db with stats := { db.stats with
          outOfOrderDelegated := db.stats.outOfOrderDelegated + 1 } } 0 0 0).trans
          (counts_addEncodedPoint _ w.metric ts ev w.tags)
        refine ⟨fun pw h => ?_, fun _ _ => hc⟩
        obtain ⟨row', q, rfl⟩ := addEncodedPoint_ok h
        exact hc
      · exact ⟨(fun _ h => by cases h), fun _ _ => Counts.refl db⟩
  · have hnone : (db.session w.session).row = none := by simpa using hrow
    simp only [addEncoded, hnone, Option.isNone_none, if_true]
    exact ⟨(fun _ h => by cases h), fun _ _ => Counts.refl db⟩

/-- A call through the handle counts nothing: its pending write asks the filter and the metric
when it runs. -/
theorem counts_addPoint (db : Db) (metric : String) (ts : Int) (value : DataValue) (tags : Tags) :
    (∀ pw, (db.addPoint metric ts value tags).2 = .ok pw →
        Counts db (db.addPoint metric ts value tags).1 0 0 pw.counted.toNat) ∧
      ∀ e, (db.addPoint metric ts value tags).2 = .error e →
        Counts db (db.addPoint metric ts value tags).1 0 0 0 := by
  unfold addPoint
  split
  · exact ⟨(fun _ h => by cases h), fun _ _ => Counts.refl db⟩
  · refine ⟨fun pw h => ?_, fun _ _ => counts_addEncodedPoint _ _ _ _ _⟩
    obtain ⟨row, q, rfl⟩ := addEncodedPoint_ok h
    exact counts_addEncodedPoint _ _ _ _ _

theorem counts_setSeries (db : Db) (w : Writer) (metric : String) (tags : Tags) :
    Counts db (db.setSeries w metric tags).1 0 0 0 := by
  unfold setSeries
  have h := counts_buildTemplate db metric tags
  rcases hb : db.buildTemplate metric tags with ⟨db₁, e | T⟩ <;> rw [hb] at h
  · exact h
  · exact ⟨h.written, h.dropped, h.refused⟩

theorem counts_setBatchImport (db : Db) (w : Writer) (on : Bool) :
    Counts db (db.setBatchImport w on).1 0 0 0 := by
  unfold setBatchImport
  split
  · exact Counts.refl db
  · dsimp only
    split
    · split <;> exact ⟨rfl, rfl, rfl⟩
    · split <;> exact ⟨rfl, rfl, rfl⟩

/-- A built database has counted nothing. -/
theorem build_stats {config : Config} {store : Store} {parts : DbParts} {db : Db}
    (h : Db.build config store parts = .ok db) : db.stats = {} := by
  rcases hv : config.validate with e | ⟨⟩
  · simp [build, hv, bind, Except.bind] at h
  simp only [build, hv, bind, Except.bind] at h
  split at h
  · cases h
  · simp only [pure, Except.pure, Except.ok.injEq] at h
    subst h
    rfl

end Calls

end Db

/-- What an ended write adds up to: one point written or dropped for `Ok`, one refused metric for
a refusal, nothing for the other failures; and each result is exactly one of the three. -/
theorem WriteOutcome.tally {p : AddedPoint} {res : Except WriteError Unit} {w d r : Nat}
    (h : WriteOutcome p res w d r) :
    w + d = (if res.toBool then 1 else 0) ∧ r = (if refusedMetric res then 1 else 0) ∧
      (if res.toBool then 1 else 0) + (if refusedMetric res then 1 else 0) +
        (if failedUncounted res then 1 else 0) = 1 := by
  cases h with
  | written => exact ⟨rfl, rfl, rfl⟩
  | dropped => exact ⟨rfl, rfl, rfl⟩
  | refused => exact ⟨rfl, rfl, rfl⟩
  | @failed e he =>
    -- a failure no counter counts is no refusal of a metric
    have hm : e.refusesMetric = false := by
      cases e <;> simp_all [WriteError.uncounted, WriteError.refusesMetric]
    simp [Except.toBool, refusedMetric, failedUncounted, hm, he]

/-- Counting by a property over a list, the element at an index counts once, and the rest of the
list without it. -/
theorem countP_eq_eraseIdx {α : Type} {l : List α} {i : Nat} {a : α} (h : l[i]? = some a)
    (f : α → Bool) : l.countP f = (l.eraseIdx i).countP f + if f a then 1 else 0 := by
  obtain ⟨hi, rfl⟩ := List.getElem?_eq_some_iff.1 h
  rw [← (List.getElem_cons_eraseIdx_perm hi).countP_eq f, List.countP_cons]

namespace ClientRun

/-- A call either finishes no write, and then counts only the refusals of the writes it returns
that failed at once, or it awaits one pending write. -/
theorem counts_or_awaits (R : ClientRun) (c : ClientCall) :
    ((R.step c).done = R.done ∧ ∃ new, (R.step c).pending = R.pending ++ new ∧
        Db.Counts R.db (R.step c).db 0 0 (new.countP (·.2.counted))) ∨
      ∃ i p pw, R.pending[i]? = some (p, pw) ∧ R.step c = { R with
        db := (R.db.settle pw).1, pending := R.pending.eraseIdx i,
        done := R.done ++ [(p, (R.db.settle pw).2)] } := by
  have hnone : R.pending = R.pending ++ [] := (List.append_nil _).symm
  cases c with
  | newWriter => exact .inl ⟨rfl, [], hnone, ⟨rfl, rfl, rfl⟩⟩
  | setSeries i metric tags =>
    left
    simp only [step]
    split
    · next w _ =>
      have hc := Db.counts_setSeries R.db w metric tags
      rcases hs : R.db.setSeries w metric tags with ⟨db, _ | _⟩ <;> rw [hs] at hc <;>
        exact ⟨rfl, [], hnone, hc⟩
    · exact ⟨rfl, [], hnone, Db.Counts.refl _⟩
  | add i ts value =>
    left
    simp only [step]
    split
    · next w _ =>
      obtain ⟨hok, herr⟩ := Db.counts_addValue R.db w ts value
      rcases ha : R.db.addValue w ts value with ⟨db, e | pw⟩ <;> rw [ha] at hok herr
      · exact ⟨rfl, [], hnone, herr e rfl⟩
      · refine ⟨rfl, [(⟨w.metric, w.tags, ts, value⟩, pw)], rfl, ?_⟩
        cases hcnt : pw.counted <;> simpa [hcnt] using hok pw rfl
    · exact ⟨rfl, [], hnone, Db.Counts.refl _⟩
  | addPoint metric ts value tags =>
    left
    obtain ⟨hok, herr⟩ := Db.counts_addPoint R.db metric ts value tags
    simp only [step]
    rcases ha : R.db.addPoint metric ts value tags with ⟨db, e | pw⟩ <;> rw [ha] at hok herr
    · exact ⟨rfl, [], hnone, herr e rfl⟩
    · refine ⟨rfl, [(⟨metric, tags, ts, value⟩, pw)], rfl, ?_⟩
      cases hcnt : pw.counted <;> simpa [hcnt] using hok pw rfl
  | setBatchImport i on =>
    left
    simp only [step]
    split
    · exact ⟨rfl, [], hnone, Db.counts_setBatchImport _ _ _⟩
    · exact ⟨rfl, [], hnone, Db.Counts.refl _⟩
  | setBufferingTime ms => exact .inl ⟨rfl, [], hnone, ⟨rfl, rfl, rfl⟩⟩
  | await i =>
    rcases hi : R.pending[i]? with _ | ⟨p, pw⟩
    · have hstep : R.step (.await i) = R := by simp [step, hi]
      rw [hstep]
      exact .inl ⟨rfl, [], hnone, Db.Counts.refl _⟩
    · exact .inr ⟨i, p, pw, hi, by simp [step, hi]⟩
  | answer verdict => exact .inl ⟨rfl, [], hnone, ⟨rfl, rfl, rfl⟩⟩
  | failWrites on => exact .inl ⟨rfl, [], hnone, ⟨rfl, rfl, rfl⟩⟩

section Ends

variable {R : ClientRun}

/-- Awaiting a pending write ends it in one `WriteOutcome`, counted once; a write refused at once
for its metric was counted when it was made, and the store changes only for a point written. -/
theorem Inv.outcome_settle (h : R.Inv) {p : AddedPoint} {pw : PendingWrite}
    (hmem : (p, pw) ∈ R.pending) :
    if pw.counted then R.db.settle pw = (R.db, .error (.unresolved .metric p.metric))
    else ∃ w d r, WriteOutcome p (R.db.settle pw).2 w d r ∧
      Db.Counts R.db (R.db.settle pw).1 w d r ∧ (w = 0 → (R.db.settle pw).1.store = R.db.store) := by
  have hcar := h.carries _ hmem
  cases hc : pw.counted
  · simp only [Bool.false_eq_true, if_false]
    have ht := Db.tallies_settle R.db pw
    rw [hc] at ht
    suffices hout : ∃ w d r, WriteOutcome p (R.db.settle pw).2 w d r ∧
        Db.Counts R.db (R.db.settle pw).1 w d r by
      obtain ⟨w, d, r, ho, hcnt⟩ := hout
      exact ⟨w, d, r, ho, hcnt, fun hw => ht.store (by rw [hcnt.written, hw, Nat.add_zero])⟩
    rcases hres : (R.db.settle pw).2 with e | u
    · have hcnt := ht.error e hres
      cases Db.settle_error h.sound (h.pending _ hmem) hcar (h.madeWith _ hmem) hres with
      | metric => exact ⟨0, 0, 1, .refused, by simpa [WriteError.refusesMetric] using hcnt⟩
      | store s => exact ⟨0, 0, 0, .failed rfl, by simpa [WriteError.refusesMetric] using hcnt⟩
      | filter reason =>
        exact ⟨0, 0, 0, .failed rfl, by simpa [WriteError.refusesMetric] using hcnt⟩
      | overtaken _ _ _ _ =>
        exact ⟨0, 0, 0, .failed rfl, by simpa [WriteError.refusesMetric] using hcnt⟩
    · cases u
      rcases ht.ok hres with hw | hd
      · exact ⟨1, 0, 0, .written, hw⟩
      · exact ⟨0, 1, 0, .dropped, hd⟩
  · cases pw with
    | failed e =>
      rw [if_pos rfl, show e = .unresolved .metric p.metric from hcar]
      rfl
    | issue r => cases hc
    | point _ _ _ _ _ _ => cases hc
    | admitted _ _ _ _ _ _ => cases hc

/-- The await of a pending write and the call that made it count together what the write's
outcome says. -/
theorem Inv.ends_settle (h : R.Inv) {p : AddedPoint} {pw : PendingWrite}
    (hmem : (p, pw) ∈ R.pending) :
    ∃ w d r, WriteOutcome p (R.db.settle pw).2 w d (r + if pw.counted then 1 else 0) ∧
      Db.Counts R.db (R.db.settle pw).1 w d r := by
  have ho := h.outcome_settle hmem
  cases hc : pw.counted <;> rw [hc] at ho <;> simp only [Bool.false_eq_true, if_true, if_false] at ho
  · obtain ⟨w, d, r, hw, hcnt, -⟩ := ho
    exact ⟨w, d, r, hw, hcnt⟩
  · rw [ho]
    exact ⟨0, 0, 0, .refused, Db.Counts.refl _⟩

/-- Over every run, every awaited write ended in one of the ways `WriteOutcome` lists; the points
written and dropped are the writes awaited with `Ok`; and the metrics refused are the refusals
given back, or still pending after the call that made them counted them. -/
theorem Reachable.tally (hR : R.Reachable) :
    (∀ e ∈ R.done, ∃ w d r, WriteOutcome e.1 e.2 w d r) ∧
      R.db.stats.pointsWritten + R.db.stats.pointsFiltered = R.done.countP (·.2.toBool) ∧
      R.db.stats.metricRejections =
        R.done.countP (refusedMetric ·.2) + R.pending.countP (·.2.counted) := by
  induction hR with
  | start hb => simp [ClientRun.start, Db.build_stats hb]
  | @step R c hR ih =>
    obtain ⟨hends, hwd, hrej⟩ := ih
    rcases counts_or_awaits R c with ⟨hdone, new, hpend, hc⟩ | ⟨i, p, pw, hi, hstep⟩
    · refine ⟨hdone ▸ hends, ?_, ?_⟩
      · rw [hc.written, hc.dropped, hdone]
        exact hwd
      · rw [hc.refused, hdone, hpend, List.countP_append, hrej]
        omega
    · -- the awaited write ends one way, counted by its call and its await together
      have hmem := List.mem_of_getElem? hi
      obtain ⟨w, d, r, ho, hc⟩ := hR.inv.ends_settle hmem
      obtain ⟨hwd', hr', -⟩ := ho.tally
      have hcount : R.pending.countP (·.2.counted) =
          (R.pending.eraseIdx i).countP (·.2.counted) + if pw.counted then 1 else 0 :=
        countP_eq_eraseIdx hi _
      rw [hstep]
      refine ⟨fun e he => ?_, ?_, ?_⟩
      · rcases List.mem_append.1 he with he | he
        · exact hends e he
        · rw [List.mem_singleton.1 he]
          exact ⟨w, d, _, ho⟩
      · simp only [List.countP_append, List.countP_singleton]
        rw [hc.written, hc.dropped]
        omega
      · simp only [List.countP_append, List.countP_singleton]
        rw [hc.refused]
        omega

/-- A call counts a rollover exactly when it hands a row to the compaction queue, once. -/
theorem Inv.rollover_step (h : R.Inv) (c : ClientCall) :
    ((R.step c).db.stats.rollovers = R.db.stats.rollovers ∧
        (R.step c).db.compaction = R.db.compaction) ∨
      ∃ k : RowKey, (R.step c).db.stats.rollovers = R.db.stats.rollovers + 1 ∧
        (R.step c).db.compaction = R.db.compaction.map fun q => q.schedule k.bytes k.baseTime := by
  obtain ⟨hr, hc⟩ := h.stats_step c
  rcases hl : R.leftBy c with _ | ⟨sid, k⟩ <;> rw [hl] at hr hc
  · exact .inl ⟨hr, hc⟩
  · exact .inr ⟨k, hr, hc⟩

end Ends

/-- The awaited writes are each exactly one of: a result `Ok`, a refused metric, a failure that
no counter counts. -/
theorem length_eq_of_ends {l : List (AddedPoint × Except WriteError Unit)}
    (h : ∀ e ∈ l, ∃ w d r, WriteOutcome e.1 e.2 w d r) :
    l.countP (·.2.toBool) + l.countP (refusedMetric ·.2) + l.countP (failedUncounted ·.2) =
      l.length := by
  induction l with
  | nil => rfl
  | cons e l ih =>
    obtain ⟨w, d, r, ho⟩ := h e List.mem_cons_self
    have hone := ho.tally.2.2
    have hrest := ih fun e' he' => h e' (List.mem_cons_of_mem _ he')
    simp only [List.countP_cons, List.length_cons]
    omega

/-- Over every run each awaited write ends in exactly one `WriteOutcome` and is counted once: the
counters and the uncounted failures add up to the awaited writes and the pending refusals, and a
call counts a rollover exactly when it queues one row for compaction. -/
theorem outcomes_partition_writes {R : ClientRun} (hR : R.Reachable) :
    (∀ p pw, (p, pw) ∈ R.pending →
      if pw.counted then R.db.settle pw = (R.db, .error (.unresolved .metric p.metric))
      else ∃ w d r, WriteOutcome p (R.db.settle pw).2 w d r ∧
        Db.Counts R.db (R.db.settle pw).1 w d r ∧
        (w = 0 → (R.db.settle pw).1.store = R.db.store)) ∧
    (∀ c, ((R.step c).done = R.done ∧ ∃ new, (R.step c).pending = R.pending ++ new ∧
        Db.Counts R.db (R.step c).db 0 0 (new.countP (·.2.counted))) ∨
      ∃ i p pw, R.pending[i]? = some (p, pw) ∧ R.step c = { R with
        db := (R.db.settle pw).1, pending := R.pending.eraseIdx i,
        done := R.done ++ [(p, (R.db.settle pw).2)] }) ∧
    (∀ e ∈ R.done, ∃ w d r, WriteOutcome e.1 e.2 w d r) ∧
    R.db.stats.pointsWritten + R.db.stats.pointsFiltered = R.done.countP (·.2.toBool) ∧
    R.db.stats.metricRejections =
      R.done.countP (refusedMetric ·.2) + R.pending.countP (·.2.counted) ∧
    R.db.stats.pointsWritten + R.db.stats.pointsFiltered + R.db.stats.metricRejections +
        R.done.countP (failedUncounted ·.2) = R.done.length + R.pending.countP (·.2.counted) ∧
    (∀ c, ((R.step c).db.stats.rollovers = R.db.stats.rollovers ∧
        (R.step c).db.compaction = R.db.compaction) ∨
      ∃ k : RowKey, (R.step c).db.stats.rollovers = R.db.stats.rollovers + 1 ∧
        (R.step c).db.compaction = R.db.compaction.map fun q => q.schedule k.bytes k.baseTime) := by
  have h := hR.inv
  obtain ⟨hends, hwd, hrej⟩ := hR.tally
  have hlen := length_eq_of_ends hends
  refine ⟨fun p pw hmem => h.outcome_settle hmem, counts_or_awaits R, hends, hwd, hrej, ?_,
    h.rollover_step⟩
  omega

/-- A writer of a database whose filter admits every point adds two points; the store refuses the
first write when it is awaited, and takes the second. -/
def storeFailureClients : ClientRun :=
  (start filteredDb).run [.newWriter, .setSeries 0 "sys.cpu" ⟨[⟨"host", "web01"⟩]⟩,
    .add 0 1000 (.integer 1), .add 0 1001 (.integer 2), .failWrites true, .await 0,
    .failWrites false, .await 0]

example : storeFailureClients.db.stats.pointsWritten = 1 ∧
    storeFailureClients.done.countP (failedUncounted ·.2) = 1 := by
  decide +kernel

theorem store_failure_clients_counted :
    storeFailureClients.Reachable ∧
    (∀ p pw, (p, pw) ∈ storeFailureClients.pending →
      if pw.counted then
        storeFailureClients.db.settle pw =
          (storeFailureClients.db, .error (.unresolved .metric p.metric))
      else ∃ w d r, WriteOutcome p (storeFailureClients.db.settle pw).2 w d r ∧
        Db.Counts storeFailureClients.db (storeFailureClients.db.settle pw).1 w d r ∧
        (w = 0 → (storeFailureClients.db.settle pw).1.store = storeFailureClients.db.store)) ∧
    (∀ c, ((storeFailureClients.step c).done = storeFailureClients.done ∧
        ∃ new, (storeFailureClients.step c).pending = storeFailureClients.pending ++ new ∧
        Db.Counts storeFailureClients.db (storeFailureClients.step c).db 0 0
          (new.countP (·.2.counted))) ∨
      ∃ i p pw, storeFailureClients.pending[i]? = some (p, pw) ∧
        storeFailureClients.step c = { storeFailureClients with
          db := (storeFailureClients.db.settle pw).1,
          pending := storeFailureClients.pending.eraseIdx i,
          done := storeFailureClients.done ++ [(p, (storeFailureClients.db.settle pw).2)] }) ∧
    (∀ e ∈ storeFailureClients.done, ∃ w d r, WriteOutcome e.1 e.2 w d r) ∧
    storeFailureClients.db.stats.pointsWritten + storeFailureClients.db.stats.pointsFiltered =
      storeFailureClients.done.countP (·.2.toBool) ∧
    storeFailureClients.db.stats.metricRejections =
      storeFailureClients.done.countP (refusedMetric ·.2) +
        storeFailureClients.pending.countP (·.2.counted) ∧
    storeFailureClients.db.stats.pointsWritten + storeFailureClients.db.stats.pointsFiltered +
        storeFailureClients.db.stats.metricRejections +
        storeFailureClients.done.countP (failedUncounted ·.2) =
      storeFailureClients.done.length + storeFailureClients.pending.countP (·.2.counted) ∧
    (∀ c, ((storeFailureClients.step c).db.stats.rollovers =
          storeFailureClients.db.stats.rollovers ∧
        (storeFailureClients.step c).db.compaction = storeFailureClients.db.compaction) ∨
      ∃ k : RowKey, (storeFailureClients.step c).db.stats.rollovers =
          storeFailureClients.db.stats.rollovers + 1 ∧
        (storeFailureClients.step c).db.compaction =
          storeFailureClients.db.compaction.map fun q => q.schedule k.bytes k.baseTime) := by
  have hR : storeFailureClients.Reachable :=
    (Reachable.start (show Db.build {} tsdbStore { filter := some admitAll } = .ok filteredDb
      from rfl)).run _
  exact ⟨hR, outcomes_partition_writes hR⟩

end ClientRun

end SeriesIngest
