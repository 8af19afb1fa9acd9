import SeriesIngest.Proofs.Client.Rows
import SeriesIngest.Proofs.Codec.Samples

/-!
# Reading back the samples of a row

A writer reads back the samples of its current row: how many there are, and each one's
timestamp, kind and value. The points in the row are those its session accepted in order with a
metric that has an id, since the row was opened or last rolled over (`ClientRun.buffered`); a
session serves one series, so a new series starts with none. Whatever becomes of their store
writes, the buffer holds exactly these points, each as its column name against the row's base
time and its raw value (`Session.Buffers`).

So the size is their number; each sample reads back its point's timestamp in the resolution it
was given in, whether it is an integer, the integer or the float widened to a double, and refuses
the accessor of the other kind; past the last sample every accessor fails with the index and the
size.

Main statement: `ClientRun.samples_read_back`.
-/

namespace SeriesIngest

/-- A point buffered in a row of base time `base` as the sample `x`: its timestamp passed the
check, and the sample is its column name against the base with the raw value of its stored
value. -/
structure AddedPoint.BufferedAs (p : AddedPoint) (base : UInt32) (x : Qualifier × Int) : Prop where
  checked : Db.checkTimestamp p.ts = .ok ()
  stored : ∃ ev, encodeValue p.value = .ok ev ∧ buildQualifier p.ts base ev.flags = .ok x.1 ∧
    x.2 = ev.raw

/-- The samples of a session are the points `ps`, in order, against the base time of its row. -/
def Session.Buffers (s : Session) (ps : List AddedPoint) : Prop :=
  List.Forall₂ (fun p x => p.BufferedAs s.baseTime x) ps s.buffer.samples

namespace Session

variable {s s' : Session} {ps : List AddedPoint} {p : AddedPoint}

theorem baseTime_of_row {k : RowKey} (h : s.row = some k) : s.baseTime = k.baseTime := by
  simp [baseTime, h]

theorem Buffers.length_eq (h : s.Buffers ps) : s.buffer.size = ps.length :=
  (List.Forall₂.length_eq h).symm

/-- The `i`-th sample of a session is the buffered `i`-th point. -/
theorem Buffers.get (h : s.Buffers ps) {i : Nat} (hi : i < ps.length) :
    ∃ x, s.buffer.get i = .ok x ∧ ps[i].BufferedAs s.baseTime x := by
  have hi' : i < s.buffer.samples.length := by
    rw [← SampleBuffer.size, h.length_eq]
    exact hi
  refine ⟨s.buffer.samples[i], SampleBuffer.get_of_lt hi', ?_⟩
  simpa using List.Forall₂.get h hi hi'

/-- A session whose only sample is a point's buffers that point. -/
theorem buffers_single {base : UInt32} {x : Qualifier × Int} (hs : s.buffer.samples = [x])
    (hbase : s.baseTime = base) (hp : p.BufferedAs base x) : s.Buffers [p] := by
  unfold Buffers
  rw [hbase, hs]
  exact .cons hp .nil

/-- A session that takes a point's sample after the others, in the same row, buffers that point
after the others. -/
theorem Buffers.snoc (h : s.Buffers ps) {x : Qualifier × Int}
    (hs : s'.buffer.samples = s.buffer.samples ++ [x]) (hbase : s'.baseTime = s.baseTime)
    (hp : p.BufferedAs s.baseTime x) : s'.Buffers (ps ++ [p]) := by
  unfold Buffers
  rw [hbase, hs]
  exact List.rel_append h (.cons hp .nil)

end Session

namespace Db

section Appending

variable {db : Db} {T : RowKey} {s : Session} {ts : Int} {q : Qualifier} {f : UInt16}

/-- The sample of a checked point, at the base time of its timestamp, goes after the samples of a
buffer ordered before the point. -/
theorem Sound.append_samples (hd : db.Sound) (hts : checkTimestamp ts = .ok ())
    (hq : buildQualifier ts (db.baseTimeOf ts) f = .ok q) {b : SampleBuffer} {last : Int}
    (hb : b.Ordered db.window (db.baseTimeOf ts).toNat last) (hlt : last < Time.toMillis ts)
    (raw : Int) : (b.append q raw).1.samples = b.samples ++ [(q, raw)] := by
  obtain ⟨ht0, ht1⟩ := (checkTimestamp_eq_ok_iff ts).1 hts
  obtain ⟨q', hq', -, hoff, -, hwin⟩ :=
    db.config.buildQualifier_baseTimeOf ht0 ht1 hd.window_pos hd.window_le f
  have hqq : q' = q := Except.ok.inj (hq'.symm.trans hq)
  subst hqq
  have hin : q'.offsetMs < db.window * 1000 := by
    simp only [window] at hwin ⊢
    omega
  have hlater : last < (1000 * (db.baseTimeOf ts).toNat + q'.offsetMs : Int) := by
    change (q'.offsetMs : Int) = Time.toMillis ts - 1000 * (db.baseTimeOf ts).toNat at hoff
    omega
  exact (hb.append hin hlater raw).2.1

/-- The buffer of a filling session is of the database's window. -/
theorem Filling.window_eq (h : Filling db T s) : s.buffer.window = db.window := by
  cases h with
  | fresh _ _ hb =>
    rw [hb]
    rfl
  | opened _ _ _ _ _ _ hbuf => exact hbuf.window_eq

/-- The buffer of a session whose row is not opened is empty, as emptying leaves it. -/
theorem Filling.reset_of_closed (h : Filling db T s) (ho : s.opened = false) :
    s.buffer.reset = s.buffer := by
  cases h with
  | fresh _ _ hb =>
    rw [hb]
    rfl
  | opened _ ho' _ _ _ _ _ =>
    rw [ho] at ho'
    cases ho'

/-- An emptied buffer takes the sample of a checked point as its only one. -/
theorem Filling.reset_append (hd : db.Sound) (h : Filling db T s)
    (hts : checkTimestamp ts = .ok ()) (hq : buildQualifier ts (db.baseTimeOf ts) f = .ok q)
    (raw : Int) : (s.buffer.reset.append q raw).1.samples = [(q, raw)] := by
  have hempty : s.buffer.reset = SampleBuffer.empty db.window := by
    rw [SampleBuffer.reset, h.window_eq]
  rw [hempty, hd.append_samples hts hq
    (SampleBuffer.ordered_empty hd.window_pos _ (Time.toMillis ts - 1)) (by omega) raw]
  rfl

/-- A checked point after the watermark, of the base time of the session's row, takes its sample
after the others. -/
theorem Filling.append_of_same (hd : db.Sound) (hT : db.rules.Fits T) (h : Filling db T s)
    {k : RowKey} (hk : s.row = some k) (hbase : db.baseTimeOf ts = k.baseTime)
    (hlate : notAfter s.watermark (Time.toMillis ts) = false) (hts : checkTimestamp ts = .ok ())
    (hq : buildQualifier ts (db.baseTimeOf ts) f = .ok q) (raw : Int) :
    (s.buffer.append q raw).1.samples = s.buffer.samples ++ [(q, raw)] := by
  cases h with
  | fresh _ _ hb =>
    rw [hb]
    exact hd.append_samples hts hq
      (SampleBuffer.ordered_empty hd.window_pos _ (Time.toMillis ts - 1)) (by omega) raw
  | opened t _ _ _ hwm hrow hbuf =>
    rw [hk, Option.some.injEq] at hrow
    -- the row is the template at the base time of the last point, which is the point's own
    have hsame : db.baseTimeOf ts = db.baseTimeOf t := by
      rw [hbase, hrow, hd.baseTime_withBaseTime hT]
    have hlt : Time.toMillis t < Time.toMillis ts := by simpa [notAfter, hwm] using hlate
    rw [← hsame] at hbuf
    exact hd.append_samples hts hq hbuf hlt raw

end Appending

end Db

namespace ClientRun

/-- The points in the row of a session after a call: a point that the call accepts there in
order, with a metric that has an id, joins them when it has the opened row's base time, and
starts them afresh when it opens the row or rolls it over. -/
def bufferedBy (R : ClientRun) (c : ClientCall) (sid : Nat) (ps : List AddedPoint) :
    List AddedPoint :=
  match R.acceptedBy c sid, (R.db.session sid).row with
  | some p, some k =>
    if k.metricResolved = false then ps
    else if (R.db.session sid).opened = true ∧ R.db.baseTimeOf p.ts = k.baseTime then ps ++ [p]
    else [p]
  | _, _ => ps

/-- The points in the row of a session over the calls of a run, from the points `ps` in it. -/
def buffered : ClientRun → List ClientCall → Nat → List AddedPoint → List AddedPoint
  | _, [], _, ps => ps
  | R, c :: cs, sid, ps => buffered (R.step c) cs sid (R.bufferedBy c sid ps)

section Buffered

variable {R : ClientRun} {c : ClientCall} {sid : Nat} {ps : List AddedPoint}

theorem bufferedBy_of_none (h : R.acceptedBy c sid = none) : R.bufferedBy c sid ps = ps := by
  simp [bufferedBy, h]

theorem bufferedBy_of_accepted {p : AddedPoint} {k : RowKey} (hacc : R.acceptedBy c sid = some p)
    (hk : (R.db.session sid).row = some k) :
    R.bufferedBy c sid ps = if k.metricResolved = false then ps
      else if (R.db.session sid).opened = true ∧ R.db.baseTimeOf p.ts = k.baseTime then ps ++ [p]
      else [p] := by
  simp only [bufferedBy, hacc, hk]

/-- A call keeps the buffer of every session holding the points in its row. -/
theorem Inv.buffers_step (h : R.Inv) (c : ClientCall) (hb : (R.db.session sid).Buffers ps) :
    ((R.step c).db.session sid).Buffers (R.bufferedBy c sid ps) := by
  rcases hacc : R.acceptedBy c sid with _ | p
  · rw [bufferedBy_of_none hacc]
    by_cases hsid : sid < R.db.sessions.size
    · rw [(h.session_of_unaccepted hacc).1 hsid]
      exact hb
    · have hsz := Nat.le_of_not_lt hsid
      obtain ⟨-, hs⟩ := (h.session_of_unaccepted hacc).2 hsz
      have hps : ps = [] := by
        rw [Session.Buffers, Db.session_of_size_le hsz] at hb
        exact List.forall₂_nil_right_iff.1 hb
      rw [hps, Session.Buffers, hs]
      exact .nil
  · obtain ⟨ev, hev, hts, -, hlate, hmove⟩ := h.inOrder_of_accepted hacc
    cases hmove with
    | refuses hk hres hse _ _ =>
      rw [bufferedBy_of_accepted hacc hk, if_pos hres, hse]
      exact hb
    | @opens k q hk hres ho hbt hq hse _ _ =>
      obtain ⟨T, -, hfill⟩ := h.sessions sid (by simp [hk])
      rw [bufferedBy_of_accepted hacc hk, if_neg (by simp [hres]), if_neg (by simp [ho])]
      have hs : ((R.step c).db.session sid).buffer.samples = [(q, ev.raw)] := by
        rw [hse]
        show ((R.db.session sid).buffer.append q ev.raw).1.samples = _
        rw [← hfill.reset_of_closed ho]
        exact hfill.reset_append h.sound hts hq ev.raw
      exact Session.buffers_single hs (by rw [hse, Session.baseTime_of_row rfl, hbt])
        ⟨hts, ev, hev, hq, rfl⟩
    | @stays k q hk hres ho hbase hq hse _ _ =>
      obtain ⟨T, hT, hfill⟩ := h.sessions sid (by simp [hk])
      rw [bufferedBy_of_accepted hacc hk, if_neg (by simp [hres]), if_pos ⟨ho, hbase⟩]
      have hbase' : (R.db.session sid).baseTime = R.db.baseTimeOf p.ts := by
        rw [Session.baseTime_of_row hk, hbase]
      have hs : ((R.step c).db.session sid).buffer.samples =
          (R.db.session sid).buffer.samples ++ [(q, ev.raw)] := by
        rw [hse]
        exact hfill.append_of_same h.sound hT hk hbase hlate hts hq ev.raw
      exact hb.snoc hs (by rw [hse]; rfl) ⟨hts, ev, hev, hbase' ▸ hq, rfl⟩
    | @rolls k q hk hres ho hlt hbt hq hse _ _ =>
      obtain ⟨T, -, hfill⟩ := h.sessions sid (by simp [hk])
      rw [bufferedBy_of_accepted hacc hk, if_neg (by simp [hres]),
        if_neg (fun hc => (UInt32.ne_of_lt hlt) hc.2.symm)]
      have hs : ((R.step c).db.session sid).buffer.samples = [(q, ev.raw)] := by
        rw [hse]
        exact hfill.reset_append h.sound hts hq ev.raw
      exact Session.buffers_single hs (by rw [hse, Session.baseTime_of_row rfl, hbt])
        ⟨hts, ev, hev, hq, rfl⟩

/-- Over a run, the buffer of every session holds the points in its row. -/
theorem Reachable.buffers_run (hR : R.Reachable) (cs : List ClientCall)
    (hb : (R.db.session sid).Buffers ps) :
    ((R.run cs).db.session sid).Buffers (R.buffered cs sid ps) := by
  induction cs generalizing R ps with
  | nil => exact hb
  | cons c cs ih => exact ih (hR.step c) (hR.inv.buffers_step c hb)

/-- A built database buffers nothing. -/
theorem buffers_start {config : Config} {store : Store} {parts : DbParts} {db : Db}
    (hdb : Db.build config store parts = .ok db) (sid : Nat) : ((start db).db.session sid).Buffers [] := by
  obtain ⟨-, -, hs⟩ := Db.build_sound hdb
  simp [Session.Buffers, start, Db.session, hs, Session.start, SampleBuffer.empty]

end Buffered

/-- At every point of a run each writer reads back the points in its row: their number, their
timestamps in their own resolution and their values; a read past the end or of the other kind
fails naming the index. -/
theorem samples_read_back {config : Config} {store : Store} {parts : DbParts} {db : Db}
    (hdb : Db.build config store parts = .ok db) (cs : List ClientCall) :
    ∀ w ∈ ((start db).run cs).writers,
      let R := (start db).run cs
      let ps := (start db).buffered cs w.session []
      w.size R.db = ps.length ∧
      (∀ i (hi : i < ps.length), w.timestamp R.db i = .ok ps[i].ts ∧
        w.isInteger R.db i = .ok ps[i].value.isInteger ∧
        match ps[i].value with
        | .integer v => (Number.int64Min ≤ v → v ≤ Number.int64Max → w.longValue R.db i = .ok v) ∧
            w.doubleValue R.db i = .error (.typeMismatch i .float)
        | .float x => w.doubleValue R.db i = .ok x.widen ∧
            w.longValue R.db i = .error (.typeMismatch i .long)) ∧
      ∀ i, ps.length ≤ i →
        w.timestamp R.db i = .error (.indexOutOfRange i ps.length) ∧
        w.isInteger R.db i = .error (.indexOutOfRange i ps.length) ∧
        w.longValue R.db i = .error (.indexOutOfRange i ps.length) ∧
        w.doubleValue R.db i = .error (.indexOutOfRange i ps.length) := by
  intro w _ R ps
  have hb : (R.db.session w.session).Buffers ps :=
    (Reachable.start hdb).buffers_run cs (buffers_start hdb w.session)
  have hsize := hb.length_eq
  refine ⟨hsize, fun i hi => ?_, fun i hi => ?_⟩
  · obtain ⟨x, hget, hts, ev, hev, hq, hraw⟩ := hb.get hi
    have hget' : (R.db.session w.session).buffer.get i = .ok (x.1, ev.raw) := by
      rw [hget, ← hraw]
    refine ⟨SampleBuffer.timestamp_of_get hget' hts hq,
      SampleBuffer.isInteger_of_get hget' hev hq, ?_⟩
    split
    · next v hv =>
      rw [hv] at hev
      cases hev
      obtain ⟨hlong, hdouble⟩ := SampleBuffer.integer_of_get hget' hq
      exact ⟨fun lo hi => hlong.trans (by rw [wrap64_of_mem lo hi]), hdouble⟩
    · next x hv =>
      rw [hv] at hev
      exact SampleBuffer.float_of_get hev hget' hq
  · rw [← hsize]
    exact SampleBuffer.accessors_of_le (hsize ▸ hi) _

/-- A writer of the fresh database that adds an integer at a time in seconds, then a float at a
later time in milliseconds in the same window. -/
def readBackCalls : List ClientCall :=
  [.newWriter, .setSeries 0 "sys.cpu" ⟨[⟨"host", "web01"⟩]⟩, .add 0 4294968 (.integer 300),
    .add 0 4294968500 (.float ⟨0x3FC00000⟩)]

example : ((start freshDb).buffered readBackCalls 1 []).length = 2 := by decide +kernel

example : (((start freshDb).run readBackCalls).db.session 1).buffer.timestamp 1
    (((start freshDb).run readBackCalls).db.session 1).baseTime = .ok 4294968500 := by
  decide +kernel

theorem read_back_clients_read_their_points :
    Db.build {} {} {} = .ok freshDb ∧
    ∀ w ∈ ((start freshDb).run readBackCalls).writers,
      let R := (start freshDb).run readBackCalls
      let ps := (start freshDb).buffered readBackCalls w.session []
      w.size R.db = ps.length ∧
      (∀ i (hi : i < ps.length), w.timestamp R.db i = .ok ps[i].ts ∧
        w.isInteger R.db i = .ok ps[i].value.isInteger ∧
        match ps[i].value with
        | .integer v => (Number.int64Min ≤ v → v ≤ Number.int64Max → w.longValue R.db i = .ok v) ∧
            w.doubleValue R.db i = .error (.typeMismatch i .float)
        | .float x => w.doubleValue R.db i = .ok x.widen ∧
            w.longValue R.db i = .error (.typeMismatch i .long)) ∧
      ∀ i, ps.length ≤ i →
        w.timestamp R.db i = .error (.indexOutOfRange i ps.length) ∧
        w.isInteger R.db i = .error (.indexOutOfRange i ps.length) ∧
        w.longValue R.db i = .error (.indexOutOfRange i ps.length) ∧
        w.doubleValue R.db i = .error (.indexOutOfRange i ps.length) :=
  ⟨build_freshDb, samples_read_back build_freshDb readBackCalls⟩

end ClientRun

end SeriesIngest
