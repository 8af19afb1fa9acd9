import SeriesIngest.Proofs.Client.Run

/-!
# Failing calls

A writer's call fails at once only for a fault of the point itself: a value that cannot be
stored, a writer without a series, a timestamp out of range, or a point at or before the watermark
where out-of-order points are refused. Such a failure changes nothing: not the sessions, the ids,
the store, the counters, and the filter is not asked. A point at or before the watermark that is
handed to the handle cannot fail there: the writer's series built its template before, and builds
it again without new ids.

Setting a series that cannot be built leaves the writer and every session as they were, and adds
ids at most; an identity that the checks refuse gets none.

A pending write fails, when awaited, only for its metric having no id, for the store or the filter
refusing it, or, for a writer's point waiting for the filter where out-of-order points are refused,
for the session's watermark having reached the point meanwhile. A writer's point waits for the
filter only when it is after the watermark, so such a point was overtaken while it waited.

Main statement: `ClientRun.errors_atomic_and_classified`.
-/

namespace SeriesIngest

namespace WriteError

theorem isRejected_of_encodeValue {value : DataValue} {e : WriteError}
    (h : encodeValue value = .error e) : e.isRejected = true := by
  cases value with
  | integer v => cases h
  | float x =>
    simp only [encodeValue, encodeFloat] at h
    split at h
    · cases h
      rfl
    · cases h

theorem isRejected_of_checkTimestamp {ts : Int} {e : WriteError}
    (h : Db.checkTimestamp ts = .error e) : e.isRejected = true := by
  simp only [Db.checkTimestamp] at h
  split_ifs at h <;> cases h <;> rfl

end WriteError

/-- The errors that awaiting a pending write of the point `p` can give back: its metric has no
id, the store or the filter refuses the write, or, where out-of-order points are refused, the write
waited for the filter under a session whose watermark has since reached the point. -/
inductive LateFault (db : Db) (p : AddedPoint) : PendingWrite → WriteError → Prop
  | metric {pw : PendingWrite} : LateFault db p pw (.unresolved .metric p.metric)
  | store {pw : PendingWrite} (e : StoreError) : LateFault db p pw (.store e)
  | filter {pw : PendingWrite} (reason : String) : LateFault db p pw (.filter reason)
  | overtaken {sid : Nat} {metric : String} {tags : Tags} {ts : Int} {ev : EncodedValue}
      {durable : Bool} {last : Int} : db.filtersPoints = true → db.config.allowOutOfOrder = false →
      (db.session sid).watermark = some last → Time.toMillis p.ts ≤ last →
      LateFault db p (.admitted sid metric tags ts ev durable) (.outOfOrder (Time.toMillis p.ts) last)

namespace Db

variable {db db' : Db}

/-- A sound database builds the column name of every checked timestamp against its base time. -/
theorem Sound.buildQualifier_ok (hd : db.Sound) {ts : Int} (hts : checkTimestamp ts = .ok ())
    (flags : UInt16) : ∃ q, buildQualifier ts (db.baseTimeOf ts) flags = .ok q := by
  obtain ⟨h0, h1⟩ := (checkTimestamp_eq_ok_iff ts).1 hts
  obtain ⟨q, hq, -⟩ := db.config.buildQualifier_baseTimeOf h0 h1 hd.window_pos hd.window_le flags
  exact ⟨q, hq⟩

theorem consult_error {metric : String} {ts : Int} {value : EncodedValue} {tags : Tags}
    {e : WriteError} (h : (db.consult metric ts value tags).2 = .error e) :
    ∃ reason, e = .filter reason := by
  unfold consult at h
  split at h
  · split at h
    · dsimp only at h
      split at h
      · exact ⟨_, (Except.error.inj h).symm⟩
      · cases h
      · cases h
    · cases h
  · cases h

theorem dispatch_error {r : WriteRequest} {e : WriteError} (h : (db.dispatch r).2 = .error e) :
    ∃ s, e = .store s := by
  unfold dispatch at h
  dsimp only at h
  split at h
  · exact ⟨_, (Except.error.inj h).symm⟩
  · cases h

/-- A write to a filling session fails only for a metric without an id, or, where out-of-order
points are refused, for a point at or before the watermark. -/
theorem writeAllowed_error {T : RowKey} {sid : Nat} {metric : String} {ts : Int}
    {value : EncodedValue} {e : WriteError} (hd : db.Sound) (hT : db.rules.Fits T)
    (hts : checkTimestamp ts = .ok ()) (h : Filling db T (db.session sid))
    (he : (db.writeAllowed sid metric ts value).2 = .error e) :
    e = .unresolved .metric metric ∨ db.config.allowOutOfOrder = false ∧
      ∃ last, (db.session sid).watermark = some last ∧ Time.toMillis ts ≤ last ∧
        e = .outOfOrder (Time.toMillis ts) last := by
  obtain ⟨k, hk⟩ := h.exists_row
  have hrow : (db.session sid).row.isSome := by simp [hk]
  cases hlate : notAfter (db.session sid).watermark (Time.toMillis ts)
  · rw [writeAllowed_of_late hrow hlate] at he
    exact .inl (acceptInOrder_error hd hT hts h hlate he)
  · obtain ⟨last, hwm, hle⟩ := notAfter_eq_true.1 hlate
    simp only [writeAllowed, hk, hwm, hle, if_true] at he
    split at he
    · next hoff => exact .inr ⟨by simpa using hoff, last, hwm, hle, (Except.error.inj he).symm⟩
    · split at he
      · exact .inl (Except.error.inj he).symm
      · obtain ⟨q, hq⟩ := hd.buildQualifier_ok hts value.flags
        have hown : buildQualifier ts (db.withBaseTime k (db.baseTimeOf ts)).baseTime value.flags =
            .ok q := by
          rw [h.withBaseTime_row hd hT hk, hd.baseTime_withBaseTime hT, hq]
        simp only [withBaseTime, baseTimeOf] at he hown
        simp [hown, Except.map] at he

/-- The handle adds a point of a series whose template builds without new ids, at a checked
time, without changing the database. -/
theorem addEncodedPoint_of_builds {metric : String} {ts : Int} {tags : Tags} (hd : db.Sound)
    (hts : checkTimestamp ts = .ok ()) (hb : db.Builds metric tags) (ev : EncodedValue) :
    ∃ pw, db.addEncodedPoint metric ts ev tags = (db, .ok pw) := by
  obtain ⟨T, hT⟩ := hb
  have hbt : db.buildTemplate metric tags = (db, .ok T) := by
    simp only [buildTemplate, hT]
  obtain ⟨q, hq⟩ := hd.buildQualifier_ok hts ev.flags
  refine ⟨.point metric tags ts ev (db.withBaseTime T (db.baseTimeOf ts)) q, ?_⟩
  simp only [addEncodedPoint, hts, hbt, hd.baseTime_withBaseTime (fits_buildTemplate hd hbt), hq]

/-- The handle's pending write is a point handed to it. -/
theorem addEncodedPoint_ok {metric : String} {ts : Int} {ev : EncodedValue} {tags : Tags}
    {pw : PendingWrite} (h : (db.addEncodedPoint metric ts ev tags).2 = .ok pw) :
    ∃ row q, pw = .point metric tags ts ev row q := by
  unfold addEncodedPoint at h
  split at h
  · cases h
  · rcases hb : db.buildTemplate metric tags with ⟨db₁, e | T⟩ <;> rw [hb] at h
    · cases h
    · dsimp only at h
      split at h
      · cases h
      · cases h
        exact ⟨_, _, rfl⟩

theorem placeNow_ok (db : Db) (w : Writer) (ts : Int) (ev : EncodedValue) :
    ∃ pw, (db.placeNow w ts ev).2 = .ok pw := by
  unfold placeNow
  dsimp only
  split
  · rcases db.writeAllowed w.session w.metric ts ev with ⟨db₁, _ | _⟩ <;> exact ⟨_, rfl⟩
  · exact ⟨_, rfl⟩

section Add

variable {w : Writer} {ts : Int} {value : DataValue}

/-- A writer's call that fails at once fails for a fault of the point, and changes nothing: the
point is not handed to the handle and the filter is not asked. -/
theorem addValue_error {e : WriteError} (hd : db.Sound)
    (hw : (db.session w.session).row.isSome → db.Builds w.metric w.tags)
    (h : db.addValue w ts value = (db', .error e)) : e.isRejected = true ∧ db' = db := by
  rcases henc : encodeValue value with e' | ev
  · simp only [addValue, henc, Prod.mk.injEq, Except.error.injEq] at h
    obtain ⟨rfl, rfl⟩ := h
    exact ⟨WriteError.isRejected_of_encodeValue henc, rfl⟩
  have hadd : db.addValue w ts value = db.addEncoded w ts ev := by simp [addValue, henc]
  rw [hadd] at h
  by_cases hrow : (db.session w.session).row.isSome
  · obtain ⟨row, hr⟩ := Option.isSome_iff_exists.1 hrow
    rcases hts : checkTimestamp ts with e' | ⟨⟩
    · simp only [addEncoded, hr, hts, Option.isNone_some, Bool.false_eq_true, if_false,
        Prod.mk.injEq, Except.error.injEq] at h
      obtain ⟨rfl, rfl⟩ := h
      exact ⟨WriteError.isRejected_of_checkTimestamp hts, rfl⟩
    cases hlate : notAfter (db.session w.session).watermark (Time.toMillis ts)
    · rw [addEncoded_of_late hrow hts hlate] at h
      obtain ⟨pw, hpw⟩ := placeNow_ok db w ts ev
      rw [h] at hpw
      cases hpw
    · obtain ⟨last, hwm, hle⟩ := notAfter_eq_true.1 hlate
      rw [addEncoded_of_notAfter hrow hts hwm hle] at h
      split at h
      · let db₁ : Db :=
          { db with stats := { db.stats with outOfOrderDelegated := db.stats.outOfOrderDelegated + 1 } }
        have hb : db₁.Builds w.metric w.tags := hw hrow
        obtain ⟨pw, hpw⟩ := addEncodedPoint_of_builds (hd.congr rfl rfl : db₁.Sound) hts hb ev
        rw [hpw] at h
        simp at h
      · simp only [Prod.mk.injEq, Except.error.injEq] at h
        obtain ⟨rfl, rfl⟩ := h
        exact ⟨rfl, rfl⟩
  · have hnone : (db.session w.session).row = none := by simpa using hrow
    simp only [addEncoded, hnone, Option.isNone_none, if_true, Prod.mk.injEq,
      Except.error.injEq] at h
    obtain ⟨rfl, rfl⟩ := h
    exact ⟨rfl, rfl⟩

/-- A writer's point waits for the filter only when the filter is on and the point is after the
session's watermark, and the call leaves the database as it was. -/
theorem addValue_admitted {sid : Nat} {metric : String} {tags : Tags} {ts' : Int}
    {ev : EncodedValue} {durable : Bool}
    (h : db.addValue w ts value = (db', .ok (.admitted sid metric tags ts' ev durable))) :
    db' = db ∧ sid = w.session ∧ db.filtersPoints = true ∧
      notAfter (db.session w.session).watermark (Time.toMillis ts) = false := by
  rcases henc : encodeValue value with e | ev'
  · simp [addValue, henc] at h
  have hadd : db.addValue w ts value = db.addEncoded w ts ev' := by simp [addValue, henc]
  rw [hadd] at h
  by_cases hrow : (db.session w.session).row.isSome
  · obtain ⟨row, hr⟩ := Option.isSome_iff_exists.1 hrow
    rcases hts : checkTimestamp ts with e | ⟨⟩
    · simp [addEncoded, hr, hts] at h
    cases hlate : notAfter (db.session w.session).watermark (Time.toMillis ts)
    · rw [addEncoded_of_late hrow hts hlate] at h
      unfold placeNow at h
      dsimp only at h
      split at h
      · rcases hwa : db.writeAllowed w.session w.metric ts ev' with ⟨db₁, e | ⟨row', q⟩⟩ <;>
          rw [hwa] at h <;> cases h
      · next hon =>
        simp only [Prod.mk.injEq, Except.ok.injEq, PendingWrite.admitted.injEq] at h
        obtain ⟨rfl, rfl, -⟩ := h
        exact ⟨rfl, rfl, by simpa using hon, rfl⟩
    · obtain ⟨last, hwm, hle⟩ := notAfter_eq_true.1 hlate
      rw [addEncoded_of_notAfter hrow hts hwm hle] at h
      split at h
      · obtain ⟨row', q, hpw⟩ := addEncodedPoint_ok (congrArg Prod.snd h)
        cases hpw
      · cases h
  · have hnone : (db.session w.session).row = none := by simpa using hrow
    simp [addEncoded, hnone] at h

end Add

/-- Setting a series that cannot be built changes the ids at most. -/
theorem setSeries_error {w : Writer} {metric : String} {tags : Tags} {e : WriteError}
    (h : db.setSeries w metric tags = (db', .error e)) : db' = { db with ids := db'.ids } := by
  unfold setSeries at h
  rcases hb : db.buildTemplate metric tags with ⟨db₁, e' | T⟩ <;> rw [hb] at h
  · simp only [Prod.mk.injEq] at h
    obtain ⟨rfl, -⟩ := h
    simp only [buildTemplate, Prod.mk.injEq] at hb
    rw [← hb.1]
  · cases h

/-- An identity that the checks refuse gets no id, and the call changes nothing. -/
theorem setSeries_of_checkIdentity {w : Writer} {metric : String} {tags : Tags}
    {ve : ValidationError}
    (h : checkIdentity metric tags db.rules.maxTags db.rules.allowed = .error ve) :
    db.setSeries w metric tags = (db, .error (.invalidSeries ve)) := by
  simp [setSeries, buildTemplate, KeyRules.buildTemplate, h]

/-- Awaiting a pending write that holds to its point, carries it, and asks the filter as the
filter is, fails only in the ways `LateFault` lists. -/
theorem settle_error {p : AddedPoint} {pw : PendingWrite} {e : WriteError} (hd : db.Sound)
    (hp : db.PendingOk p pw) (hcar : pw.Carries p) (hmade : pw.MadeWith db.filtersPoints)
    (h : (db.settle pw).2 = .error e) : LateFault db p pw e := by
  cases pw with
  | failed e' =>
    cases h
    rw [show e = _ from hcar]
    exact .metric
  | issue r =>
    obtain ⟨s, rfl⟩ := dispatch_error h
    exact .store s
  | point metric tags ts ev row q =>
    obtain ⟨rfl, -, -, -⟩ := hcar
    simp only [settle] at h
    rcases hc : db.consult p.metric ts ev tags with ⟨db₁, e' | _ | _⟩ <;> rw [hc] at h
    · obtain ⟨reason, rfl⟩ := consult_error (show (db.consult p.metric ts ev tags).2 = .error e' by
        rw [hc])
      cases h
      exact .filter reason
    · cases h
    · dsimp only at h
      split at h
      · cases h
        exact .metric
      · obtain ⟨s, rfl⟩ := dispatch_error h
        exact .store s
  | admitted sid metric tags ts ev durable =>
    obtain ⟨rfl, -, rfl, -⟩ := hcar
    obtain ⟨-, hts, -, T, hT, -, hfill⟩ := hp
    simp only [settle] at h
    rcases hc : db.consult p.metric p.ts ev tags with ⟨db₁, e' | _ | _⟩ <;> rw [hc] at h
    · obtain ⟨reason, rfl⟩ := consult_error (show (db.consult p.metric p.ts ev tags).2 = .error e'
        by rw [hc])
      cases h
      exact .filter reason
    · cases h
    · have hf : Frame db db₁ := by simpa [hc] using frame_consult db p.metric p.ts ev tags
      have hs : db₁.sessions = db.sessions := by simpa [hc] using sessions_consult db p.metric p.ts ev tags
      have hsess : db₁.session sid = db.session sid := by simp [session, hs]
      have hfill₁ : Filling db₁ T (db₁.session sid) := hsess ▸ hfill.congr hf.config hf.rules
      dsimp only at h
      rcases hw : db₁.writeAllowed sid p.metric p.ts ev with ⟨db₂, e' | ⟨row, q⟩⟩ <;> rw [hw] at h
      · cases h
        rcases writeAllowed_error (hd.congr hf.config hf.rules) (hf.rules ▸ hT) hts hfill₁
            (by rw [hw]) with he | ⟨hoff, last, hwm, hle, rfl⟩
        · rw [he]
          exact .metric
        · exact .overtaken hmade (hf.config ▸ hoff) (hsess ▸ hwm) hle
      · obtain ⟨s, rfl⟩ := dispatch_error h
        exact .store s

end Db

namespace ClientRun

/-- A call that fails at once fails for a fault of the point and changes nothing but ids; a point
waits for the filter only when it is on and the point is late; an await fails only with a
`LateFault`. -/
theorem errors_atomic_and_classified {R : ClientRun} (hR : R.Reachable) :
    (∀ w ∈ R.writers, ∀ ts value db e, R.db.addValue w ts value = (db, .error e) →
      e.isRejected = true ∧ db = R.db) ∧
    (∀ i w metric tags db e, R.writers[i]? = some w → R.db.setSeries w metric tags = (db, .error e) →
      R.step (.setSeries i metric tags) = { R with db := db } ∧ db = { R.db with ids := db.ids } ∧
      ∀ ve, checkIdentity metric tags R.db.rules.maxTags R.db.rules.allowed = .error ve →
        db = R.db ∧ e = .invalidSeries ve) ∧
    (∀ w ∈ R.writers, ∀ ts value db sid metric tags ts' ev durable,
      R.db.addValue w ts value = (db, .ok (.admitted sid metric tags ts' ev durable)) →
      db = R.db ∧ sid = w.session ∧ R.db.filtersPoints = true ∧
        Db.notAfter (R.db.session sid).watermark (Time.toMillis ts) = false) ∧
    (∀ e ∈ R.pending, ∀ err, (R.db.settle e.2).2 = .error err → LateFault R.db e.1 e.2 err) := by
  have h := hR.inv
  refine ⟨fun w hw ts value db e ha => ?_, fun i w metric tags db e hi hs => ?_,
    fun w _ ts value db sid metric tags ts' ev durable ha => ?_,
    fun e he err hs => Db.settle_error h.sound (h.pending e he) (h.carries e he) (h.madeWith e he) hs⟩
  · exact Db.addValue_error h.sound (fun hrow => (h.writers w hw hrow).2) ha
  · refine ⟨by simp only [step, hi, hs], Db.setSeries_error hs, fun ve hve => ?_⟩
    rw [Db.setSeries_of_checkIdentity hve, Prod.mk.injEq] at hs
    obtain ⟨rfl, he⟩ := hs
    exact ⟨rfl, (Except.error.inj he).symm⟩
  · obtain ⟨rfl, rfl, hon, hlate⟩ := Db.addValue_admitted ha
    exact ⟨rfl, rfl, hon, hlate⟩

/-- The fresh database with one writer that sets a series and adds one point. -/
def cpuClients : ClientRun :=
  (start freshDb).run [.newWriter, .setSeries 0 "sys.cpu" ⟨[⟨"host", "web01"⟩]⟩,
    .add 0 1000 (.integer 1)]

theorem cpu_clients_fail_atomically :
    cpuClients.Reachable ∧
    (∀ w ∈ cpuClients.writers, ∀ ts value db e, cpuClients.db.addValue w ts value = (db, .error e) →
      e.isRejected = true ∧ db = cpuClients.db) ∧
    (∀ i w metric tags db e, cpuClients.writers[i]? = some w →
      cpuClients.db.setSeries w metric tags = (db, .error e) →
      cpuClients.step (.setSeries i metric tags) = { cpuClients with db := db } ∧
      db = { cpuClients.db with ids := db.ids } ∧
      ∀ ve, checkIdentity metric tags cpuClients.db.rules.maxTags cpuClients.db.rules.allowed =
        .error ve → db = cpuClients.db ∧ e = .invalidSeries ve) ∧
    (∀ w ∈ cpuClients.writers, ∀ ts value db sid metric tags ts' ev durable,
      cpuClients.db.addValue w ts value = (db, .ok (.admitted sid metric tags ts' ev durable)) →
      db = cpuClients.db ∧ sid = w.session ∧ cpuClients.db.filtersPoints = true ∧
        Db.notAfter (cpuClients.db.session sid).watermark (Time.toMillis ts) = false) ∧
    (∀ e ∈ cpuClients.pending, ∀ err, (cpuClients.db.settle e.2).2 = .error err →
      LateFault cpuClients.db e.1 e.2 err) := by
  have hR : cpuClients.Reachable := (Reachable.start build_freshDb).run _
  exact ⟨hR, errors_atomic_and_classified hR⟩

end ClientRun

end SeriesIngest
