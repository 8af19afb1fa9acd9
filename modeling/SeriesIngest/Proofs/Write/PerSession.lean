import SeriesIngest.Proofs.Write.Guarantees

/-!
# What each session keeps on its own

A writer's ordering watermark and the columns of its row belong to its session, and setting the
series starts a new session that copies the watermark once. A write that waits for the filter
keeps the session it was added to, so when it is awaited after the series was set again, the
older session places it: the writer's watermark does not see it, and a later point of the writer
at the same time is accepted too and written to the same cell.

What holds is per session. A session's watermark moves only when a call places a point after it
in that session, and then to that point's time (`session_watermark_step`), so over any run the
points a session accepts in order come in strictly increasing time and its watermark is the
latest of them (`WriterRun.inOrder_times_increase`). The points a session places in order into a
row take strictly increasing columns, so no two of them share a cell (`inOrder_column_fresh`).
For the writer as a whole both hold as long as every point is placed by the writer's current
session (`ClientRun.accepted_points_keep_cells`); `overtaken_write_leaves_writer_watermark` and
`overtaken_writes_share_cell` are runs in which a write waiting across a change of series breaks
them.
-/

namespace SeriesIngest

/-- The session a pending write places its point in when it runs, and the point's time: a write
waiting for the filter names its session. The others place nothing in a session. -/
def PendingWrite.target : PendingWrite → Option (Nat × Int)
  | .admitted sid _ _ ts _ _ => some (sid, ts)
  | _ => none

/-- The session a call may place a point in, and the point's time: an add, the writer's session;
awaiting a write, the session the write names. -/
def WriterCall.target (R : WriterRun) : WriterCall → Option (Nat × Int)
  | .add ts _ => some (R.writer.session, ts)
  | .await i => R.pending[i]?.bind fun e => e.2.target
  | _ => none

namespace Db

/-- Databases with the same sessions have the same session at every id. -/
theorem session_of_sessions {db db' : Db} (h : db'.sessions = db.sessions) (sid : Nat) :
    db'.session sid = db.session sid := by
  simp only [session, h]

/-- A session with a row is one of the database's sessions. -/
theorem lt_size_of_row_isSome {db : Db} {sid : Nat} (h : (db.session sid).row.isSome) :
    sid < db.sessions.size := by
  by_contra hge
  rw [session_of_size_le (Nat.le_of_not_lt hge)] at h
  cases h

/-- Replacing a session by one with its watermark keeps every watermark. -/
theorem watermark_setSession (db : Db) {sid : Nat} {s : Session}
    (hs : s.watermark = (db.session sid).watermark) (sid' : Nat) :
    ((db.setSession sid s).session sid').watermark = (db.session sid').watermark := by
  by_cases hne : sid = sid'
  · subst hne
    by_cases hlt : sid < db.sessions.size
    · rw [session_setSession_self hlt]
      exact hs
    · simp [setSession, session, Array.setIfInBounds_eq_of_size_le (Nat.le_of_not_lt hlt)]
  · rw [session_setSession_ne _ hne]

/-- Opening or rolling a row keeps every watermark. -/
@[simp] theorem watermark_rollIfNeeded (db : Db) (sid : Nat) (ts : Int) (sid' : Nat) :
    ((db.rollIfNeeded sid ts).session sid').watermark = (db.session sid').watermark := by
  unfold rollIfNeeded
  dsimp only
  split
  · rfl
  · split
    · exact watermark_setSession _ (by rfl) _
    · split
      · exact watermark_setSession _ (by rfl) _
      · rfl

/-- The in-order path raises the session's watermark to the point's time, whatever becomes of
the point. -/
theorem watermark_acceptInOrder {db : Db} {sid : Nat} (hsid : sid < db.sessions.size)
    (metric : String) (ts : Int) (value : EncodedValue) :
    ((db.acceptInOrder sid metric ts value).1.session sid).watermark = some (Time.toMillis ts) := by
  have hraised : ((db.setSession sid
      { db.session sid with watermark := some (Time.toMillis ts) }).session sid).watermark =
      some (Time.toMillis ts) := by
    rw [session_setSession_self hsid]
  unfold acceptInOrder
  dsimp only
  split
  · exact hraised
  · split
    · exact hraised
    · have hrolled := (watermark_rollIfNeeded _ sid ts sid).trans hraised
      split
      · exact hrolled
      · split
        · exact (watermark_setSession _ (by rfl) _).trans hrolled
        · exact hrolled

/-- A write moves at most the watermark of its own session, and only for a point after it, to
the point's time. -/
theorem watermark_writeAllowed (db : Db) (sid : Nat) (metric : String) (ts : Int)
    (value : EncodedValue) (sid' : Nat) :
    ((db.writeAllowed sid metric ts value).1.session sid').watermark = (db.session sid').watermark ∨
      sid' = sid ∧ notAfter (db.session sid').watermark (Time.toMillis ts) = false ∧
        ((db.writeAllowed sid metric ts value).1.session sid').watermark =
          some (Time.toMillis ts) := by
  rcases writeAllowed_cases db sid metric ts value with ⟨hrow, hlate, heq⟩ | ⟨hs, -⟩
  · rw [heq]
    by_cases hsid : sid = sid'
    · subst hsid
      exact .inr ⟨rfl, hlate, watermark_acceptInOrder (lt_size_of_row_isSome hrow) metric ts value⟩
    · left
      rw [session_acceptInOrder_ne hsid]
  · exact .inl (by rw [session_of_sessions hs])

theorem sessions_addEncodedPoint (db : Db) (metric : String) (ts : Int) (value : EncodedValue)
    (tags : Tags) : (db.addEncodedPoint metric ts value tags).1.sessions = db.sessions := by
  unfold addEncodedPoint
  split
  · rfl
  · have h := sessions_buildTemplate db metric tags
    rcases hb : db.buildTemplate metric tags with ⟨db₁, e | T⟩ <;> rw [hb] at h
    · exact h
    · dsimp only
      split <;> exact h

/-- Placing a point after the watermark moves at most the watermark of the writer's session. -/
theorem watermark_placeNow (db : Db) (w : Writer) (ts : Int) (value : EncodedValue) (sid : Nat) :
    ((db.placeNow w ts value).1.session sid).watermark = (db.session sid).watermark ∨
      sid = w.session ∧ notAfter (db.session sid).watermark (Time.toMillis ts) = false ∧
        ((db.placeNow w ts value).1.session sid).watermark = some (Time.toMillis ts) := by
  unfold placeNow
  dsimp only
  split
  · have h := watermark_writeAllowed db w.session w.metric ts value sid
    rcases hw : db.writeAllowed w.session w.metric ts value with ⟨db₁, _ | _⟩ <;> rw [hw] at h <;>
      exact h
  · exact .inl rfl

/-- Adding a value moves at most the watermark of the writer's session, and only for a point after
it, to the point's time. -/
theorem watermark_addValue (db : Db) (w : Writer) (ts : Int) (value : DataValue) (sid : Nat) :
    ((db.addValue w ts value).1.session sid).watermark = (db.session sid).watermark ∨
      sid = w.session ∧ notAfter (db.session sid).watermark (Time.toMillis ts) = false ∧
        ((db.addValue w ts value).1.session sid).watermark = some (Time.toMillis ts) := by
  unfold addValue
  split
  · exact .inl rfl
  · unfold addEncoded
    dsimp only
    split
    · exact .inl rfl
    · split
      · exact .inl rfl
      · split
        · split
          · split
            · left
              rw [session_of_sessions (sessions_addEncodedPoint ..)]
              rfl
            · exact .inl rfl
          · exact watermark_placeNow db w ts _ sid
        · exact watermark_placeNow db w ts _ sid

/-- Running a pending write moves at most the watermark of the session it names, and only for a
point after it, to the point's time. -/
theorem watermark_settle (db : Db) (pw : PendingWrite) (sid : Nat) :
    ((db.settle pw).1.session sid).watermark = (db.session sid).watermark ∨
      ∃ ts, pw.target = some (sid, ts) ∧
        notAfter (db.session sid).watermark (Time.toMillis ts) = false ∧
        ((db.settle pw).1.session sid).watermark = some (Time.toMillis ts) := by
  cases pw with
  | failed e => exact .inl rfl
  | issue r => exact .inl (by rw [settle, session_of_sessions (sessions_dispatch db r)])
  | point metric tags ts value row q =>
    left
    have h := sessions_consult db metric ts value tags
    dsimp only [settle]
    rcases hc : db.consult metric ts value tags with ⟨db₁, e | _ | _⟩ <;> rw [hc] at h <;>
      dsimp only at h
    · rw [session_of_sessions h]
    · rw [session_of_sessions h]
    · dsimp only
      split
      · simp [session, h, rejectMetric, say]
      · rw [session_of_sessions ((sessions_dispatch ..).trans h)]
  | admitted sid' metric tags ts value durable =>
    have h := sessions_consult db metric ts value tags
    dsimp only [settle]
    rcases hc : db.consult metric ts value tags with ⟨db₁, e | _ | _⟩ <;> rw [hc] at h <;>
      dsimp only at h
    · exact .inl (by rw [session_of_sessions h])
    · exact .inl (by rw [session_of_sessions h])
    · have hw := watermark_writeAllowed db₁ sid' metric ts value sid
      rw [session_of_sessions h] at hw
      dsimp only
      rcases hwa : db₁.writeAllowed sid' metric ts value with ⟨db₂, e | _⟩ <;> rw [hwa] at hw
      · rcases hw with hw | ⟨rfl, hlate, hw⟩
        · exact .inl hw
        · exact .inr ⟨ts, rfl, hlate, hw⟩
      · rw [session_of_sessions (sessions_dispatch ..)]
        rcases hw with hw | ⟨rfl, hlate, hw⟩
        · exact .inl hw
        · exact .inr ⟨ts, rfl, hlate, hw⟩

/-- A time after the watermark stays after it as the time grows. -/
theorem notAfter_of_lt {w : Option Int} {t u : Int} (h : notAfter w t = false) (htu : t < u) :
    notAfter w u = false := by
  cases w with
  | none => rfl
  | some last =>
    simp only [notAfter, decide_eq_false_iff_not] at h ⊢
    omega

theorem lt_of_notAfter_some {t u : Int} (h : notAfter (some t) u = false) : t < u := by
  simpa [notAfter] using h

theorem sessions_setBatchImport (db : Db) (w : Writer) (on : Bool) :
    (db.setBatchImport w on).1.sessions = db.sessions := by
  unfold setBatchImport
  split
  · rfl
  · dsimp only
    split
    · split <;> rfl
    · split <;> rfl

end Db

/-- A call keeps a session's watermark, starts a new session at the writer's watermark, or raises
it to the time of a point it places there after it. -/
theorem session_watermark_step (R : WriterRun) (c : WriterCall) (sid : Nat) :
    ((R.step c).db.session sid).watermark = (R.db.session sid).watermark ∨
      ((∃ metric tags, c = .setSeries metric tags) ∧ sid = R.db.sessions.size ∧
        (R.step c).writer.session = sid ∧
        ((R.step c).db.session sid).watermark = (R.db.session R.writer.session).watermark) ∨
      ∃ ts, c.target R = some (sid, ts) ∧
        Db.notAfter (R.db.session sid).watermark (Time.toMillis ts) = false ∧
        ((R.step c).db.session sid).watermark = some (Time.toMillis ts) := by
  cases c with
  | setSeries metric tags =>
    have hs₁ := Db.sessions_buildTemplate R.db metric tags
    simp only [WriterRun.step, Db.setSeries]
    rcases hb : R.db.buildTemplate metric tags with ⟨db₁, e | T⟩ <;> rw [hb] at hs₁ <;>
      dsimp only at hs₁
    · exact .inl (by rw [Db.session_of_sessions hs₁])
    · have hsess := Db.session_of_sessions hs₁
      dsimp only
      rw [Db.session_push]
      split
      · next h =>
        refine .inr (.inl ⟨⟨metric, tags, rfl⟩, by rw [h, hs₁], by rw [h], ?_⟩)
        show (db₁.session R.writer.session).watermark = _
        rw [hsess]
      · rw [hsess]
        exact .inl rfl
  | add ts value =>
    rw [WriterRun.db_step_add]
    rcases Db.watermark_addValue R.db R.writer ts value sid with h | ⟨rfl, hlate, h⟩
    · exact .inl h
    · exact .inr (.inr ⟨ts, rfl, hlate, h⟩)
  | setBatchImport on =>
    left
    show ((R.db.setBatchImport R.writer on).1.session sid).watermark = _
    rw [Db.session_of_sessions (Db.sessions_setBatchImport ..)]
  | setBufferingTime ms => exact .inl rfl
  | await i =>
    simp only [WriterRun.step]
    split
    · next p pw hi =>
      rcases Db.watermark_settle R.db pw sid with h | ⟨ts, ht, hlate, h⟩
      · exact .inl h
      · exact .inr (.inr ⟨ts, by simp [WriterCall.target, hi, ht], hlate, h⟩)
    · exact .inl rfl
  | answer verdict => exact .inl rfl

namespace WriterRun

/-- The run of a writer through a list of calls. -/
def run (R : WriterRun) (cs : List WriterCall) : WriterRun := cs.foldl step R

@[simp] theorem run_nil (R : WriterRun) : R.run [] = R := rfl

@[simp] theorem run_cons (R : WriterRun) (c : WriterCall) (cs : List WriterCall) :
    R.run (c :: cs) = (R.step c).run cs := rfl

/-- The time, in milliseconds, to which a call raises the watermark of session `sid` by placing a
point there after it: what the in-order path of a write does, whatever becomes of the point. -/
def raisedTo (R : WriterRun) (c : WriterCall) (sid : Nat) : Option Int :=
  match c.target R with
  | some (s, ts) =>
    if s = sid ∧ Db.notAfter (R.db.session sid).watermark (Time.toMillis ts) = false ∧
        ((R.step c).db.session sid).watermark = some (Time.toMillis ts) then
      some (Time.toMillis ts)
    else none
  | none => none

/-- The times, in milliseconds, of the points that a run's calls accept in order in session
`sid`, in the order accepted. -/
def inOrderTimes (sid : Nat) : WriterRun → List WriterCall → List Int
  | _, [] => []
  | R, c :: cs => (R.raisedTo c sid).toList ++ inOrderTimes sid (R.step c) cs

theorem raisedTo_eq_some {R : WriterRun} {c : WriterCall} {sid : Nat} {t : Int}
    (h : R.raisedTo c sid = some t) :
    Db.notAfter (R.db.session sid).watermark t = false ∧
      ((R.step c).db.session sid).watermark = some t := by
  unfold raisedTo at h
  split at h
  · split at h
    · next hc =>
      cases h
      exact hc.2
    · cases h
  · cases h

/-- A call that raises no watermark of session `sid` leaves it as it was, or starts the session
from none. -/
theorem watermark_step_of_raisedTo_none {R : WriterRun} {c : WriterCall} {sid : Nat}
    (h : R.raisedTo c sid = none) :
    ((R.step c).db.session sid).watermark = (R.db.session sid).watermark ∨
      (R.db.session sid).watermark = none := by
  rcases session_watermark_step R c sid with heq | ⟨-, hsid, -, -⟩ | ⟨ts, ht, hlate, hw⟩
  · exact .inl heq
  · right
    rw [Db.session_of_size_le (Nat.le_of_eq hsid.symm)]
    rfl
  · simp [raisedTo, ht, hlate, hw] at h

/-- The points a session accepts in order come in strictly increasing time, all after the
watermark it started with, and the session's watermark is the latest of them: after a run, it
is the time of the last point the run accepted in order there, or, if none, the watermark it had. -/
theorem inOrder_times_increase (R : WriterRun) (cs : List WriterCall) (sid : Nat) :
    (R.inOrderTimes sid cs).Pairwise (· < ·) ∧
      (∀ t ∈ R.inOrderTimes sid cs, Db.notAfter (R.db.session sid).watermark t = false) ∧
      ∀ t, (R.inOrderTimes sid cs).getLast?.or (R.db.session sid).watermark = some t →
        ((R.run cs).db.session sid).watermark = some t := by
  induction cs generalizing R with
  | nil => simp [inOrderTimes]
  | cons c cs ih =>
    -- what the rest of the run accepts, from the state the call leaves
    obtain ⟨hinc, hafter, hlast⟩ := ih (R.step c)
    simp only [inOrderTimes, run_cons]
    rcases hr : R.raisedTo c sid with _ | t
    · simp only [Option.toList_none, List.nil_append]
      rcases watermark_step_of_raisedTo_none hr with hw | hw
      · rw [hw] at hafter hlast
        exact ⟨hinc, hafter, hlast⟩
      · refine ⟨hinc, fun u _ => by rw [hw]; rfl, fun u hu => hlast u ?_⟩
        rw [hw, Option.or_none] at hu
        rw [hu, Option.some_or]
    · obtain ⟨hlate, hw⟩ := raisedTo_eq_some hr
      rw [hw] at hafter hlast
      have hlt : ∀ u ∈ (R.step c).inOrderTimes sid cs, t < u :=
        fun u hu => Db.lt_of_notAfter_some (hafter u hu)
      simp only [Option.toList_some, List.singleton_append]
      refine ⟨List.pairwise_cons.2 ⟨hlt, hinc⟩, fun u hu => ?_, fun u hu => hlast u ?_⟩
      · rcases List.mem_cons.1 hu with rfl | hu
        · exact hlate
        · exact Db.notAfter_of_lt hlate (hlt u hu)
      · rwa [List.getLast?_cons, Option.some_or, ← Option.or_some] at hu

end WriterRun

/-- A filter that admits every point. -/
def admitAll : AdmissionFilter := ⟨true, fun _ => .ok true⟩

/-- A store holding the default table. -/
def tsdbStore : Store := ({} : Store).createTable (Bytes.ofString "tsdb") dataFamily

/-- The database built with the default settings, the default table and a filter that admits
every point. -/
def filteredDb : Db := (Db.build {} tsdbStore { filter := some admitAll }).toOption.get (by decide)

/-- A writer that sets a series, adds a point that waits for the filter, and sets the same series
again. -/
def overtakenRun : WriterRun :=
  (((WriterRun.start filteredDb).step (.setSeries "sys.cpu" ⟨[⟨"host", "web01"⟩]⟩)).step
    (.add 1000 (.integer 1))).step (.setSeries "sys.cpu" ⟨[⟨"host", "web01"⟩]⟩)

/-- Awaited after the series was set again, the waiting point is accepted in order by session 1,
the one it was added to; the writer is on session 2 by then, and its watermark stays empty. -/
theorem overtaken_write_leaves_writer_watermark :
    overtakenRun.inOrderTimes 1 [.await 0] = [1000000] ∧
      (overtakenRun.run [.await 0]).writer.session = 2 ∧
      (overtakenRun.run [.await 0]).writer.lastTimestampMs (overtakenRun.run [.await 0]).db =
        none := by
  decide +kernel

/-- Distinct column names give distinct bytes. -/
theorem Qualifier.toBytes_injective {q q' : Qualifier} (h : q.toBytes = q'.toBytes) : q = q' := by
  have hlen := congrArg List.length h
  have hval := congrArg Bytes.toNatBE h
  cases q with
  | seconds a =>
    cases q' with
    | seconds b =>
      simp only [toBytes, Bytes.toNatBE_ofNatBE] at hval
      have ha := a.toNat_lt
      have hb := b.toNat_lt
      rw [Nat.mod_eq_of_lt (by omega), Nat.mod_eq_of_lt (by omega)] at hval
      rw [UInt16.toNat_inj.mp hval]
    | millis b => simp [toBytes] at hlen
  | millis a =>
    cases q' with
    | seconds b => simp [toBytes] at hlen
    | millis b =>
      simp only [toBytes, Bytes.toNatBE_ofNatBE] at hval
      have ha := a.toNat_lt
      have hb := b.toNat_lt
      rw [Nat.mod_eq_of_lt (by omega), Nat.mod_eq_of_lt (by omega)] at hval
      rw [UInt32.toNat_inj.mp hval]

/-- Column names at distinct offsets have distinct bytes. -/
theorem Qualifier.toBytes_ne_of_offsetMs_ne {q q' : Qualifier} (h : q.offsetMs ≠ q'.offsetMs) :
    q.toBytes ≠ q'.toBytes :=
  fun he => h (by rw [Qualifier.toBytes_injective he])

/-- A session writes the points it accepts in order into its row at distinct columns: the new
point takes a column none of the row's samples has, and joins them. -/
theorem inOrder_column_fresh {R : WriterRun} (hR : R.Reachable) {db : Db}
    (hf : Db.Frame R.db db) (hs : db.sessions = R.db.sessions) {sid : Nat} (metric : String)
    {ts : Int} (hts : Db.checkTimestamp ts = .ok ()) {row : RowKey}
    (hrow : (db.session sid).row = some row) (hres : row.metricResolved = true)
    (hlate : Db.notAfter (db.session sid).watermark (Time.toMillis ts) = false)
    (value : EncodedValue) :
    let s := (db.raiseAndRoll sid ts).session sid
    (s.buffer.samples.map fun x => x.1.toBytes).Nodup ∧
      ∃ q, (db.acceptInOrder sid metric ts value).2 = .ok ((s.row.getD row).bytes, q) ∧
        q.toBytes ∉ s.buffer.samples.map (fun x => x.1.toBytes) ∧
        ((db.acceptInOrder sid metric ts value).1.session sid).buffer.samples =
          s.buffer.samples ++ [(q, value.raw)] := by
  dsimp only
  obtain ⟨T, hd, hT, hTres, hready⟩ := hR.inv.ready hf hs hts hrow hres hlate
  obtain ⟨last, hlt, hbuf⟩ := hready.buffer
  obtain ⟨q, hq, hoff, -, -, hsamples, -⟩ := hready.append hd hTres hts value.flags value.raw
  have heq := Db.acceptInOrder_of_ready metric value hd hT hrow hres hts hready hq
  have hsid : sid < (db.raiseAndRoll sid ts).sessions.size := by
    simpa [Db.raiseAndRoll] using Db.lt_size_of_row_isSome (by rw [hrow]; rfl)
  refine ⟨?_, q, by rw [heq, hready.row_getD], ?_, ?_⟩
  · rw [List.Nodup, List.pairwise_map]
    exact (List.pairwise_map.1 hbuf.increasing).imp fun hxy =>
      Qualifier.toBytes_ne_of_offsetMs_ne (Nat.ne_of_lt hxy)
  · intro hmem
    obtain ⟨x, hx, hxq⟩ := List.mem_map.1 hmem
    have := hbuf.not_after x hx
    exact Qualifier.toBytes_ne_of_offsetMs_ne (by omega) hxq
  · rw [heq, Db.session_setSession_self hsid]
    exact hsamples

/-- A writer of `overtakenRun` that then adds a second point at the same time. -/
def lostUpdateRun : WriterRun := overtakenRun.step (.add 1000 (.integer 2))

/-- Both waiting points are accepted in order, one by each session, and both writes succeed; but
they go to the same cell, and the second one's value replaces the first's. -/
theorem overtaken_writes_share_cell :
    (lostUpdateRun.db.settle (lostUpdateRun.pending.get ⟨0, by decide⟩).2).2 = .ok () ∧
      ((lostUpdateRun.step (.await 0)).db.settle
        ((lostUpdateRun.step (.await 0)).pending.get ⟨0, by decide⟩).2).2 = .ok () ∧
      (((lostUpdateRun.step (.await 0)).step (.await 0)).db.store.row? (Bytes.ofString "tsdb")
        [0, 0, 1, 0, 0, 0, 0, 0, 0, 1, 0, 0, 1]) = some [([0x3e, 0x80], [2])] := by
  decide +kernel

end SeriesIngest
