import SeriesIngest.Proofs.Row.Rebase
import SeriesIngest.Proofs.Time.BaseTime
import SeriesIngest.Proofs.Write.BufferRoom
import SeriesIngest.Proofs.Write.Run

/-!
# The row a session fills

A session fills the rows of one key template. Before its first point its row is the template
itself and its buffer is empty. A point after the watermark raises the watermark to the point's
time; the first such point of a metric with an id opens the row at the point's base time, and a
later one whose base time is a window or more past the row's moves the row there and empties
the buffer. Base times are multiples of the window that grow with time, so a point that does
not move the row has the row's own base time. Hence `Db.Filling`: after its first point, a
session's row is its template moved to the base time of the last point accepted in order, whose
time is the watermark, and its buffer is ordered for that row.

Main statements: `Db.writeAllowed_filling`, that every write keeps a session filling its rows,
and `Db.writeAllowed_request`, that the row and column a write is placed at are the template
moved to the point's own base time and the column name against that base time, whichever way
the write goes.
-/

namespace SeriesIngest

/-- Of two accepted timestamps, the later one in milliseconds has the same base time as the
earlier one unless it is a whole window or more past it. -/
theorem Config.baseTimeOf_eq_of_lt_window (c : Config) {t u : Int}
    (ht : Db.checkTimestamp t = .ok ()) (hu : Db.checkTimestamp u = .ok ())
    (hle : Time.toMillis t ≤ Time.toMillis u) (hw : 0 < c.window.toNat)
    (hnear : ((c.baseTimeOf u).toNat : Int) - (c.baseTimeOf t).toNat < c.window.toNat) :
    c.baseTimeOf u = c.baseTimeOf t := by
  obtain ⟨ht0, ht1⟩ := (checkTimestamp_eq_ok_iff t).1 ht
  obtain ⟨hu0, hu1⟩ := (checkTimestamp_eq_ok_iff u).1 hu
  have hbt := c.baseTimeOf_toNat ht0 ht1
  have hbu := c.baseTimeOf_toNat hu0 hu1
  have hs : Time.toSeconds t ≤ Time.toSeconds u := by
    rw [toSeconds_eq_toMillis_div ht0, toSeconds_eq_toMillis_div hu0]
    exact Int.ediv_le_ediv (by omega) hle
  have hW : (0 : Int) < c.window.toNat := by omega
  generalize (c.window.toNat : Int) = W at hbt hbu hnear hW
  -- both base times are multiples of the window, the later one less than a window higher
  rw [Int.emod_def] at hbt hbu
  have hq : Time.toSeconds t / W ≤ Time.toSeconds u / W := Int.ediv_le_ediv hW hs
  have hgap : W * (Time.toSeconds u / W - Time.toSeconds t / W) < W * 1 := by
    rw [Int.mul_sub, Int.mul_one]
    omega
  have := Int.lt_of_mul_lt_mul_left hgap (Int.le_of_lt hW)
  have hsame : Time.toSeconds u / W = Time.toSeconds t / W := by omega
  rw [hsame] at hbu
  apply UInt32.toNat_inj.mp
  omega

namespace Db

/-- What a built database gives its writers: a window that the settings' check allows, and a
salter that writes exactly the salt of the key layout. -/
structure Sound (db : Db) : Prop where
  window_pos : 0 < db.window
  window_le : db.window ≤ maxBaseTimeWindow
  salt : db.rules.SaltFits

/-- A built database is sound, has the settings it was built with and no sessions yet. -/
theorem build_sound {config : Config} {store : Store} {parts : DbParts} {db : Db}
    (h : Db.build config store parts = .ok db) :
    db.Sound ∧ db.config = config ∧ db.sessions = #[] := by
  rcases hv : config.validate with e | ⟨⟩
  · simp [build, hv, bind, Except.bind] at h
  have hw := Config.window_of_validate hv
  simp only [build, hv, bind, Except.bind] at h
  split at h
  · cases h
  · simp only [pure, Except.pure, Except.ok.injEq] at h
    subst h
    exact ⟨⟨hw.1, hw.2, rfl⟩, rfl, rfl⟩

/-- A key of a sound database moved to a base time reads it back. -/
theorem Sound.baseTime_withBaseTime {db : Db} (hd : db.Sound) {T : RowKey} (hT : db.rules.Fits T)
    (b : UInt32) : (db.withBaseTime T b).baseTime = b :=
  KeyRules.baseTime_withBaseTime hd.salt hT b

/-- Moving a key of a sound database twice is moving it once. -/
theorem Sound.withBaseTime_withBaseTime {db : Db} (hd : db.Sound) {T : RowKey}
    (hT : db.rules.Fits T) (a b : UInt32) :
    db.withBaseTime (db.withBaseTime T a) b = db.withBaseTime T b :=
  KeyRules.withBaseTime_withBaseTime hd.salt hT a b

/-- Soundness depends on the settings and key rules only. -/
theorem Sound.congr {db db' : Db} (h : db.Sound) (hc : db'.config = db.config)
    (hr : db'.rules = db.rules) : db'.Sound := by
  have hw : db'.window = db.window := by simp [window, hc]
  exact ⟨hw ▸ h.window_pos, hw ▸ h.window_le, hr ▸ h.salt⟩

/-- The session `s` fills the rows of the template `T`: before its first point it holds `T` and
an empty buffer; after it, it holds `T` moved to the base time of the last point `t` accepted in
order, whose time is the watermark, and a buffer ordered for that row. Only a metric with an id
opens a row. -/
inductive Filling (db : Db) (T : RowKey) : Session → Prop
  | fresh {s : Session} : s.opened = false → s.row = some T →
      s.buffer = SampleBuffer.empty db.window → Filling db T s
  | opened {s : Session} (t : Int) : s.opened = true → T.metricResolved = true →
      checkTimestamp t = .ok () → s.watermark = some (Time.toMillis t) →
      s.row = some (db.withBaseTime T (db.baseTimeOf t)) →
      s.buffer.Ordered db.window (db.baseTimeOf t).toNat (Time.toMillis t) → Filling db T s

/-- A new session of a template fills its rows. -/
theorem filling_start (db : Db) (T : RowKey) (watermark : Option Int) :
    Filling db T (Session.start (some T) db.window watermark) :=
  .fresh rfl rfl rfl

/-- Filling depends on the settings and key rules only. -/
theorem Filling.congr {db db' : Db} {T : RowKey} {s : Session} (h : Filling db T s)
    (hc : db'.config = db.config) (hr : db'.rules = db.rules) : Filling db' T s := by
  have hw : db'.window = db.window := by simp [window, hc]
  have hb : db'.baseTimeOf = db.baseTimeOf := by funext t; simp [baseTimeOf, hc]
  have hk : db'.withBaseTime = db.withBaseTime := by funext k b; simp [withBaseTime, hr]
  cases h with
  | fresh ho hrow hbuf => exact .fresh ho hrow (hw ▸ hbuf)
  | opened t ho hres ht hwm hrow hbuf =>
    exact .opened t ho hres ht hwm (hk ▸ hb ▸ hrow) (hw ▸ hb ▸ hbuf)

section Rows

variable {db : Db} {T : RowKey} {s : Session}

/-- The row of a filling session moves to the same keys as its template. -/
theorem Filling.withBaseTime_row (hd : db.Sound) (hT : db.rules.Fits T) (h : Filling db T s)
    {k : RowKey} (hk : s.row = some k) (b : UInt32) : db.withBaseTime k b = db.withBaseTime T b := by
  cases h with
  | fresh _ hr _ =>
    rw [hr] at hk
    cases hk
    rfl
  | opened t _ _ _ _ hr _ =>
    rw [hr] at hk
    cases hk
    exact KeyRules.withBaseTime_withBaseTime hd.salt hT _ _

/-- The row of a filling session has its template's metric. -/
theorem Filling.metricResolved_row (h : Filling db T s) {k : RowKey} (hk : s.row = some k) :
    k.metricResolved = T.metricResolved := by
  cases h with
  | fresh _ hr _ =>
    rw [hr] at hk
    cases hk
    rfl
  | opened t _ _ _ _ hr _ =>
    rw [hr] at hk
    cases hk
    rfl

/-- A filling session has a row. -/
theorem Filling.exists_row (h : Filling db T s) : ∃ k, s.row = some k := by
  cases h with
  | fresh _ hr _ => exact ⟨T, hr⟩
  | opened t _ _ _ _ hr _ => exact ⟨_, hr⟩

/-- A session of a template whose metric has no id is never opened, so raising its watermark
keeps it filling its rows. -/
theorem Filling.watermark_of_unresolved (h : Filling db T s) (hres : T.metricResolved = false)
    (w : Option Int) : Filling db T { s with watermark := w } := by
  cases h with
  | fresh ho hr hb => exact .fresh ho hr hb
  | opened _ _ hres' _ _ _ _ => simp [hres] at hres'

/-- A session past the last one is the empty session, which has no row. -/
theorem session_of_size_le {sid : Nat} (h : db.sessions.size ≤ sid) :
    db.session sid = Session.start none 0 none := by
  simp [session, Array.getD, Nat.not_lt.2 h]

/-- A filling session is one of the database's sessions. -/
theorem Filling.lt_size {sid : Nat} (h : Filling db T (db.session sid)) :
    sid < db.sessions.size := by
  by_contra hge
  rw [session_of_size_le (Nat.le_of_not_lt hge)] at h
  cases h with
  | fresh _ hr _ => cases hr
  | opened _ _ _ _ _ hr _ => cases hr

end Rows

section Roll

variable {db : Db} {sid : Nat} {ts : Int} {row : RowKey}

/-- The first point after the watermark opens the row at its base time. -/
theorem rollIfNeeded_of_closed (hrow : (db.session sid).row = some row)
    (ho : (db.session sid).opened = false) :
    db.rollIfNeeded sid ts = db.setSession sid
      { db.session sid with row := some (db.withBaseTime row (db.baseTimeOf ts)), opened := true } := by
  simp [rollIfNeeded, hrow, ho]

/-- A point a window or more past the row's base time moves the row to its own base time and
empties the buffer. -/
theorem session_rollIfNeeded_of_far (hsid : sid < db.sessions.size)
    (hrow : (db.session sid).row = some row) (ho : (db.session sid).opened = true)
    (hfar : (db.window : Int) ≤ (db.baseTimeOf ts).toNat - row.baseTime.toNat) :
    (db.rollIfNeeded sid ts).session sid = { db.session sid with
      row := some (db.withBaseTime row (db.baseTimeOf ts)), buffer := (db.session sid).buffer.reset } := by
  simp only [rollIfNeeded, hrow, ho, Bool.not_true, Bool.false_eq_true, if_false, ge_iff_le, hfar,
    if_true, rollToBaseTime]
  exact session_setSession_self hsid _

/-- A point less than a window past the row's base time leaves the row where it is. -/
theorem rollIfNeeded_of_near (hrow : (db.session sid).row = some row)
    (ho : (db.session sid).opened = true)
    (hnear : ((db.baseTimeOf ts).toNat : Int) - row.baseTime.toNat < db.window) :
    db.rollIfNeeded sid ts = db := by
  simp [rollIfNeeded, hrow, ho, Int.not_le.2 hnear]

/-- Rolling over touches the session of its id only. -/
theorem session_rollIfNeeded_ne {sid' : Nat} (h : sid ≠ sid') :
    (db.rollIfNeeded sid ts).session sid' = db.session sid' := by
  unfold rollIfNeeded
  dsimp only
  split
  · rfl
  · split
    · exact session_setSession_ne _ h _
    · split
      · exact session_setSession_ne _ h _
      · rfl

@[simp] theorem size_rollIfNeeded : (db.rollIfNeeded sid ts).sessions.size = db.sessions.size := by
  unfold rollIfNeeded
  dsimp only
  split
  · rfl
  · split
    · exact size_setSession _ _ _
    · split
      · exact size_setSession _ _ _
      · rfl

end Roll

/-- The database as a point after the watermark finds it when its sample is buffered: the
session's watermark raised to the point's time, and its row opened or rolled over as needed. -/
def raiseAndRoll (db : Db) (sid : Nat) (ts : Int) : Db :=
  (db.setSession sid { db.session sid with watermark := some (Time.toMillis ts) }).rollIfNeeded sid ts

/-- A session ready to buffer the point at `ts` into a row of the template `T`: opened, its
watermark at the point, its row the template at the point's base time, and its buffer ordered
for that row with every sample before the point. -/
structure Ready (db : Db) (T : RowKey) (ts : Int) (s : Session) : Prop where
  opened : s.opened = true
  watermark : s.watermark = some (Time.toMillis ts)
  row : s.row = some (db.withBaseTime T (db.baseTimeOf ts))
  buffer : ∃ last < Time.toMillis ts, s.buffer.Ordered db.window (db.baseTimeOf ts).toNat last

section Ready

variable {db : Db} {T : RowKey} {sid : Nat} {ts : Int}

/-- A point after the watermark of a filling session finds it ready for the point once the
watermark is raised and the row opened or rolled: a row that is not rolled has the point's own
base time, since base times are multiples of the window that grow with time. -/
theorem Filling.ready (hd : db.Sound) (hT : db.rules.Fits T)
    (hts : checkTimestamp ts = .ok ()) (h : Filling db T (db.session sid))
    (hlate : notAfter (db.session sid).watermark (Time.toMillis ts) = false) :
    Ready db T ts ((db.raiseAndRoll sid ts).session sid) := by
  have hsid := h.lt_size
  have hraised := session_setSession_self hsid
    { db.session sid with watermark := some (Time.toMillis ts) }
  cases h with
  | fresh ho hr hb =>
    rw [raiseAndRoll, rollIfNeeded_of_closed (by rw [hraised]; exact hr) (by rw [hraised]; exact ho),
      session_setSession_self (by simpa using hsid), hraised]
    exact ⟨rfl, rfl, rfl, ⟨Time.toMillis ts - 1, by omega,
      hb ▸ SampleBuffer.ordered_empty hd.window_pos _ _⟩⟩
  | opened t ho _ ht hwm hr hbuf =>
    have hlt : Time.toMillis t < Time.toMillis ts := by simpa [notAfter, hwm] using hlate
    have hbase := hd.baseTime_withBaseTime hT (db.baseTimeOf t)
    by_cases hfar : (db.window : Int) ≤ (db.baseTimeOf ts).toNat - (db.baseTimeOf t).toNat
    · rw [raiseAndRoll, session_rollIfNeeded_of_far (by simpa using hsid)
        (by rw [hraised]; exact hr) (by rw [hraised]; exact ho) (by rw [hbase]; exact hfar), hraised]
      refine ⟨ho, rfl, ?_, ⟨Time.toMillis ts - 1, by omega, ?_⟩⟩
      · exact congrArg some (hd.withBaseTime_withBaseTime hT _ _)
      · rw [SampleBuffer.reset, hbuf.window_eq]
        exact SampleBuffer.ordered_empty hd.window_pos _ _
    · have hsame : db.baseTimeOf ts = db.baseTimeOf t :=
        Config.baseTimeOf_eq_of_lt_window _ ht hts hlt.le hd.window_pos
          (by simp only [baseTimeOf, window] at hfar; omega)
      rw [raiseAndRoll, rollIfNeeded_of_near (by rw [hraised]; exact hr) (by rw [hraised]; exact ho)
        (by rw [hbase]; exact Int.lt_of_not_ge hfar), hraised]
      exact ⟨ho, rfl, hsame ▸ hr, ⟨_, hlt, hsame ▸ hbuf⟩⟩

/-- A ready session whose point is not buffered still fills its rows, with the point as the
last. -/
theorem Ready.filling {s : Session} (h : Ready db T ts s) (hres : T.metricResolved = true)
    (hts : checkTimestamp ts = .ok ()) : Filling db T s := by
  obtain ⟨last, hlt, hbuf⟩ := h.buffer
  exact .opened ts h.opened hres hts h.watermark h.row (hbuf.later hlt.le)

/-- The row of a ready session is the template at the point's base time. -/
theorem Ready.row_getD {s : Session} (h : Ready db T ts s) (row : RowKey) :
    s.row.getD row = db.withBaseTime T (db.baseTimeOf ts) := by
  rw [h.row]
  rfl

/-- Buffering the point into a ready session: the column name against the point's base time is
built, with the point's offset from it; the buffer is below its limit, the append succeeds and
adds the point after the others, and the session fills its rows with the point as the last. -/
theorem Ready.append {s : Session} (hd : db.Sound) (h : Ready db T ts s)
    (hres : T.metricResolved = true) (hts : checkTimestamp ts = .ok ()) (flags : UInt16)
    (raw : Int) :
    ∃ q, buildQualifier ts (db.baseTimeOf ts) flags = .ok q ∧
      (1000 * (db.baseTimeOf ts).toNat + q.offsetMs : Int) = Time.toMillis ts ∧
      s.buffer.size < (s.buffer.noting q).limit ∧ (s.buffer.append q raw).2 = .ok () ∧
      (s.buffer.append q raw).1.samples = s.buffer.samples ++ [(q, raw)] ∧
      Filling db T { s with buffer := (s.buffer.append q raw).1 } := by
  obtain ⟨ht0, ht1⟩ := (checkTimestamp_eq_ok_iff ts).1 hts
  obtain ⟨q, hq, -, hoff, -, hwin⟩ :=
    db.config.buildQualifier_baseTimeOf ht0 ht1 hd.window_pos hd.window_le flags
  have hlast : (1000 * (db.baseTimeOf ts).toNat + q.offsetMs : Int) = Time.toMillis ts := by
    change (q.offsetMs : Int) = Time.toMillis ts - 1000 * (db.baseTimeOf ts).toNat at hoff
    omega
  obtain ⟨last, hlt, hbuf⟩ := h.buffer
  -- the point is the buffer's next sample: later than all of them and inside the window
  have hq' : q.offsetMs < db.window * 1000 := by simp only [window] at hwin ⊢; omega
  have hlater : last < (1000 * (db.baseTimeOf ts).toNat + q.offsetMs : Int) := by omega
  obtain ⟨hok, hsamples, hord⟩ := hbuf.append hq' hlater raw
  refine ⟨q, hq, hlast, hbuf.size_lt_limit hq' hlater, hok, hsamples,
    .opened ts h.opened hres hts h.watermark h.row ?_⟩
  rw [← hlast]
  exact hord

/-- A ready session's buffer takes the point at its column name against the point's base time. -/
theorem Ready.append_ok {s : Session} (hd : db.Sound) (h : Ready db T ts s)
    (hts : checkTimestamp ts = .ok ()) {flags : UInt16} {q : Qualifier}
    (hq : buildQualifier ts (db.baseTimeOf ts) flags = .ok q) (raw : Int) :
    (s.buffer.append q raw).2 = .ok () := by
  obtain ⟨ht0, ht1⟩ := (checkTimestamp_eq_ok_iff ts).1 hts
  obtain ⟨q', hq', -, hoff, -, hwin⟩ :=
    db.config.buildQualifier_baseTimeOf ht0 ht1 hd.window_pos hd.window_le flags
  obtain rfl : q' = q := Except.ok.inj (hq'.symm.trans hq)
  obtain ⟨last, hlt, hbuf⟩ := h.buffer
  have hq' : q'.offsetMs < db.window * 1000 := by simp only [window] at hwin ⊢; omega
  have hlater : last < (1000 * (db.baseTimeOf ts).toNat + q'.offsetMs : Int) := by
    change (q'.offsetMs : Int) = Time.toMillis ts - 1000 * (db.baseTimeOf ts).toNat at hoff
    omega
  exact (hbuf.append hq' hlater raw).1

end Ready

section Accept

variable {db : Db} {T : RowKey} {sid : Nat} {metric : String} {ts : Int} {value : EncodedValue}

/-- A point after the watermark of a row whose metric has an id is buffered into the session as
`raiseAndRoll` leaves it, at the column name against that row's base time. -/
theorem acceptInOrder_of_resolved {row : RowKey} (hrow : (db.session sid).row = some row)
    (hres : row.metricResolved = true) :
    db.acceptInOrder sid metric ts value =
      let db' := db.raiseAndRoll sid ts
      let s := db'.session sid
      let row := s.row.getD row
      match buildQualifier ts row.baseTime value.flags with
      | .error e => (db', .error e)
      | .ok q =>
        match s.buffer.append q value.raw with
        | (buffer, .ok ()) => (db'.setSession sid { s with buffer := buffer }, .ok (row.bytes, q))
        | (_, .error f) => (db', .error (.bufferFull f)) := by
  unfold acceptInOrder
  dsimp only
  split
  · next h =>
    rw [hrow] at h
    cases h
  · next row' h =>
    rw [hrow] at h
    cases h
    rw [if_neg (by simp [hres])]
    rfl

/-- The in-order path on a ready session appends the point to the session's buffer, and writes
it to the template at the point's base time, at the column name against that base time. -/
theorem acceptInOrder_of_ready (metric : String) (value : EncodedValue) (hd : db.Sound)
    (hT : db.rules.Fits T) {row : RowKey} (hrow : (db.session sid).row = some row)
    (hres : row.metricResolved = true) (hts : checkTimestamp ts = .ok ())
    (h : Ready db T ts ((db.raiseAndRoll sid ts).session sid))
    {q : Qualifier} (hq : buildQualifier ts (db.baseTimeOf ts) value.flags = .ok q) :
    db.acceptInOrder sid metric ts value =
      ((db.raiseAndRoll sid ts).setSession sid { (db.raiseAndRoll sid ts).session sid with
          buffer := (((db.raiseAndRoll sid ts).session sid).buffer.append q value.raw).1 },
        .ok ((db.withBaseTime T (db.baseTimeOf ts)).bytes, q)) := by
  have hok := h.append_ok hd hts hq value.raw
  rw [acceptInOrder_of_resolved hrow hres]
  simp only [h.row_getD, hd.baseTime_withBaseTime hT, hq]
  split
  · next b heq => rw [heq]
  · next f heq => rw [heq] at hok; cases hok

/-- A point after the watermark of a filling session whose metric has an id goes to the template
at the point's base time, at the column name against that base time, and the session goes on
filling its rows. -/
theorem acceptInOrder_of_filling (metric : String) (value : EncodedValue) (hd : db.Sound)
    (hT : db.rules.Fits T)
    (hres : T.metricResolved = true) (hts : checkTimestamp ts = .ok ())
    (h : Filling db T (db.session sid))
    (hlate : notAfter (db.session sid).watermark (Time.toMillis ts) = false) :
    ∃ q, buildQualifier ts (db.baseTimeOf ts) value.flags = .ok q ∧
      (db.acceptInOrder sid metric ts value).2 =
        .ok ((db.withBaseTime T (db.baseTimeOf ts)).bytes, q) ∧
      Filling db T ((db.acceptInOrder sid metric ts value).1.session sid) := by
  obtain ⟨k, hk⟩ := h.exists_row
  have hsid : sid < (db.raiseAndRoll sid ts).sessions.size := by simpa [raiseAndRoll] using h.lt_size
  have hready := h.ready hd hT hts hlate
  obtain ⟨q, hq, -, -, -, -, hfill⟩ := hready.append hd hres hts value.flags value.raw
  have heq := acceptInOrder_of_ready metric value hd hT hk ((h.metricResolved_row hk).trans hres)
    hts hready hq
  refine ⟨q, hq, by rw [heq], ?_⟩
  rw [heq, session_setSession_self hsid]
  exact hfill

/-- A point after the watermark keeps a filling session filling its rows. -/
theorem acceptInOrder_filling (hd : db.Sound) (hT : db.rules.Fits T)
    (hts : checkTimestamp ts = .ok ()) (h : Filling db T (db.session sid))
    (hlate : notAfter (db.session sid).watermark (Time.toMillis ts) = false) :
    Filling db T ((db.acceptInOrder sid metric ts value).1.session sid) := by
  cases hres : T.metricResolved with
  | true =>
    obtain ⟨_, _, _, hfill⟩ := acceptInOrder_of_filling metric value hd hT
      hres hts h hlate
    exact hfill
  | false =>
    obtain ⟨k, hk⟩ := h.exists_row
    have hkres : k.metricResolved = false := (h.metricResolved_row hk).trans hres
    simp only [acceptInOrder, hk, hkres, Bool.not_false, if_true, session_rejectMetric,
      session_setSession_self h.lt_size]
    rw [← hk]
    exact h.watermark_of_unresolved hres _

/-- The in-order path touches the session of its id only. -/
theorem session_acceptInOrder_ne {sid' : Nat} (h : sid ≠ sid') :
    (db.acceptInOrder sid metric ts value).1.session sid' = db.session sid' := by
  have hraised := session_setSession_ne db h { db.session sid with watermark := some (Time.toMillis ts) }
  unfold acceptInOrder
  dsimp only
  split
  · exact hraised
  · split
    · exact hraised
    · split
      · rw [session_rollIfNeeded_ne h, hraised]
      · split
        · rw [session_setSession_ne _ h, session_rollIfNeeded_ne h, hraised]
        · rw [session_rollIfNeeded_ne h, hraised]

@[simp] theorem size_acceptInOrder :
    (db.acceptInOrder sid metric ts value).1.sessions.size = db.sessions.size := by
  unfold acceptInOrder
  dsimp only
  split
  · simp
  · split
    · simp
    · split
      · simp
      · split <;> simp

end Accept

/-- What a write to a session can do: take the in-order path, for a point after the watermark of
a session with a row; or leave the sessions alone and, if it succeeds, place the point on its
own at the row's template moved to the point's base time. -/
theorem writeAllowed_cases (db : Db) (sid : Nat) (metric : String) (ts : Int)
    (value : EncodedValue) :
    ((db.session sid).row.isSome ∧
        notAfter (db.session sid).watermark (Time.toMillis ts) = false ∧
        db.writeAllowed sid metric ts value = db.acceptInOrder sid metric ts value) ∨
      ((db.writeAllowed sid metric ts value).1.sessions = db.sessions ∧
        ∀ row q, (db.writeAllowed sid metric ts value).2 = .ok (row, q) →
          ∃ k, (db.session sid).row = some k ∧ k.metricResolved = true ∧
            row = (db.withBaseTime k (db.baseTimeOf ts)).bytes ∧
            buildQualifier ts (db.withBaseTime k (db.baseTimeOf ts)).baseTime value.flags =
              .ok q) := by
  unfold writeAllowed
  dsimp only
  split
  · next hrow => exact .inr ⟨rfl, fun _ _ h => by cases h⟩
  · next k hrow =>
    split
    · next last hwm =>
      by_cases hle : Time.toMillis ts ≤ last
      · refine .inr ?_
        simp only [hle, if_true]
        split
        · exact ⟨rfl, fun _ _ h => by cases h⟩
        · split
          · exact ⟨rfl, fun _ _ h => by cases h⟩
          · next hres =>
            refine ⟨rfl, fun row q h => ⟨k, hrow, by simpa using hres, ?_⟩⟩
            simp only [Except.map] at h
            split at h
            · cases h
            · next q' hq =>
              cases h
              exact ⟨rfl, hq⟩
      · exact .inl ⟨by simp [hrow], by simp [notAfter, hwm, hle], by simp [hle]⟩
    · next hwm => exact .inl ⟨by simp [hrow], by simp [notAfter, hwm], rfl⟩

section Allowed

variable {db : Db} {T : RowKey} {sid : Nat} {metric : String} {ts : Int} {value : EncodedValue}

/-- Every write keeps a session filling its rows. -/
theorem writeAllowed_filling (hd : db.Sound) (hT : db.rules.Fits T)
    (hts : checkTimestamp ts = .ok ()) (h : Filling db T (db.session sid)) :
    Filling db T ((db.writeAllowed sid metric ts value).1.session sid) := by
  rcases writeAllowed_cases db sid metric ts value with ⟨-, hlate, heq⟩ | ⟨hs, -⟩
  · rw [heq]
    exact acceptInOrder_filling hd hT hts h hlate
  · rw [show (db.writeAllowed sid metric ts value).1.session sid = db.session sid by
      simp [session, hs]]
    exact h

/-- A write to one session leaves the others alone. -/
theorem session_writeAllowed_ne {sid' : Nat} (h : sid ≠ sid') :
    (db.writeAllowed sid metric ts value).1.session sid' = db.session sid' := by
  rcases writeAllowed_cases db sid metric ts value with ⟨-, -, heq⟩ | ⟨hs, -⟩
  · rw [heq]
    exact session_acceptInOrder_ne h
  · simp [session, hs]

@[simp] theorem size_writeAllowed :
    (db.writeAllowed sid metric ts value).1.sessions.size = db.sessions.size := by
  rcases writeAllowed_cases db sid metric ts value with ⟨-, -, heq⟩ | ⟨hs, -⟩
  · rw [heq]
    exact size_acceptInOrder
  · rw [hs]

/-- Whichever way a write to a filling session goes, a write that succeeds places the point at
the template moved to the point's own base time, at the column name against that base time; and
only a metric with an id is written. -/
theorem writeAllowed_request (hd : db.Sound) (hT : db.rules.Fits T)
    (hts : checkTimestamp ts = .ok ()) (h : Filling db T (db.session sid)) {row : Bytes}
    {q : Qualifier} (hw : (db.writeAllowed sid metric ts value).2 = .ok (row, q)) :
    T.metricResolved = true ∧ row = (db.withBaseTime T (db.baseTimeOf ts)).bytes ∧
      buildQualifier ts (db.baseTimeOf ts) value.flags = .ok q := by
  rcases writeAllowed_cases db sid metric ts value with ⟨-, hlate, heq⟩ | ⟨-, hreq⟩
  · rw [heq] at hw
    cases hres : T.metricResolved with
    | false =>
      obtain ⟨k, hk⟩ := h.exists_row
      have hkres : k.metricResolved = false := (h.metricResolved_row hk).trans hres
      simp [acceptInOrder, hk, hkres, rejectMetric] at hw
    | true =>
      obtain ⟨q', hq', hres', -⟩ := acceptInOrder_of_filling metric value
        hd hT hres hts h hlate
      rw [hres'] at hw
      cases hw
      exact ⟨rfl, rfl, hq'⟩
  · obtain ⟨k, hk, hkres, rfl, hq⟩ := hreq row q hw
    have hmove := h.withBaseTime_row hd hT hk (db.baseTimeOf ts)
    rw [hmove, hd.baseTime_withBaseTime hT] at hq
    exact ⟨(h.metricResolved_row hk).symm.trans hkres, by rw [hmove], hq⟩

end Allowed

end Db

end SeriesIngest
