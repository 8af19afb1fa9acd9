import SeriesIngest.Write.Pending
import SeriesIngest.Time.Civil

/-!
# Series writers

A writer writes the points of one series at a time into its session's row. Setting the series
builds the key template (failing without change), and starts a new session that keeps the
watermark. Adding a point encodes its value and checks the writer has a series and the
timestamp is valid; a point at or before the watermark is refused or, where allowed, handed to
the database handle as a point of its own. Without an active filter the session places the point
at once and the pending write only issues the request; with one, all of that waits for the write
to be awaited.

In batch-import mode writes are not durable, and the store's flush interval is raised to the
configured default when switching the mode on, and dropped to zero when switching it off while
the interval is still that default.
-/

namespace SeriesIngest

/-- A writer: its series, its session and its batch-import mode. -/
structure Writer where
  metric : String
  tags : Tags
  session : Nat
  batchImport : Bool
  deriving Repr, DecidableEq

namespace Db

/-- A new writer with no series. -/
def newWriter (db : Db) : Db × Writer :=
  let sid := db.sessions.size
  ({ db with sessions := db.sessions.push (Session.start none db.window none) },
    ⟨"", ⟨[]⟩, sid, false⟩)

/-- Sets a writer's series; on failure the writer is unchanged. -/
def setSeries (db : Db) (w : Writer) (metric : String) (tags : Tags) : Db × Except WriteError Writer :=
  match db.buildTemplate metric tags with
  | (db, .error e) => (db, .error e)
  | (db, .ok template) =>
    let sid := db.sessions.size
    let watermark := (db.session w.session).watermark
    ({ db with sessions := db.sessions.push (Session.start (some template) db.window watermark) },
      .ok { w with metric := metric, tags := tags, session := sid })

/-- A point after the watermark: placed now without an active filter, later with one. -/
def placeNow (db : Db) (w : Writer) (ts : Int) (value : EncodedValue) :
    Db × Except WriteError PendingWrite :=
  let durable := !w.batchImport
  if !db.filtersPoints then
    match db.writeAllowed w.session w.metric ts value with
    | (db, .ok (row, q)) => (db, .ok (.issue ⟨row, q, value.bytes, durable⟩))
    | (db, .error e) => (db, .ok (.failed e))
  else (db, .ok (.admitted w.session w.metric w.tags ts value durable))

/-- Adds an encoded point to a writer's series. -/
def addEncoded (db : Db) (w : Writer) (ts : Int) (value : EncodedValue) :
    Db × Except WriteError PendingWrite :=
  let s := db.session w.session
  if s.row.isNone then (db, .error .notInitialized)
  else
    match checkTimestamp ts with
    | .error e => (db, .error e)
    | .ok () =>
      let tsMs := Time.toMillis ts
      match s.watermark with
      | some last =>
        if tsMs ≤ last then
          if db.config.allowOutOfOrder then
            let db := { db with stats := { db.stats with outOfOrderDelegated := db.stats.outOfOrderDelegated + 1 } }
            db.addEncodedPoint w.metric ts value w.tags
          else (db, .error (.outOfOrder tsMs last))
        else db.placeNow w ts value
      | none => db.placeNow w ts value

/-- Adds a data value to a writer's series. -/
def addValue (db : Db) (w : Writer) (ts : Int) (value : DataValue) :
    Db × Except WriteError PendingWrite :=
  match encodeValue value with
  | .error e => (db, .error e)
  | .ok v => db.addEncoded w ts v

/-- Sets the store's flush interval. -/
def setBufferingTime (db : Db) (ms : UInt16) : Db := { db with store := db.store.setFlushInterval ms }

/-- Switches a writer's batch-import mode, adjusting the flush interval. -/
def setBatchImport (db : Db) (w : Writer) (on : Bool) : Db × Writer :=
  if w.batchImport = on then (db, w)
  else
    let current := db.store.flushInterval
    let default := db.config.defaultBatchBufferMs
    let w := { w with batchImport := on }
    if on then (if default > current then (db.setBufferingTime default, w) else (db, w))
    else if current = default then (db.setBufferingTime 0, w)
    else (db, w)

end Db

namespace Writer

/-- The writer's session. -/
def state (w : Writer) (db : Db) : Session := db.session w.session

/-- The number of samples in the current row. -/
def size (w : Writer) (db : Db) : Nat := (w.state db).buffer.size

/-- The base time of the current row, zero without a row. -/
def baseTime (w : Writer) (db : Db) : UInt32 := (w.state db).baseTime

/-- The greatest timestamp accepted, in milliseconds. -/
def lastTimestampMs (w : Writer) (db : Db) : Option Int := (w.state db).watermark

/-- The current row key. -/
def rowKey (w : Writer) (db : Db) : Option RowKey := (w.state db).row

/-- The timestamp of a sample of the current row. -/
def timestamp (w : Writer) (db : Db) (i : Nat) : Except WriteError Int :=
  (w.state db).buffer.timestamp i (w.baseTime db)

/-- Whether a sample is an integer. -/
def isInteger (w : Writer) (db : Db) (i : Nat) : Except WriteError Bool :=
  (w.state db).buffer.isInteger i

/-- An integer sample. -/
def longValue (w : Writer) (db : Db) (i : Nat) : Except WriteError Int :=
  (w.state db).buffer.longValue i

/-- A float sample as a double. -/
def doubleValue (w : Writer) (db : Db) (i : Nat) : Except WriteError Float.Binary64 :=
  (w.state db).buffer.doubleValue i

/-- One sample as the debug text shows it: `+10:long(300)`, `+30250ms:float(1.5)`. -/
def sampleText (q : Qualifier) (v : Int) : String :=
  let offset := match q with
    | .millis _ => "+" ++ toString q.offsetMs ++ "ms"
    | .seconds _ => "+" ++ toString q.deltaSeconds
  if q.isInteger then offset ++ ":long(" ++ toString v ++ ")"
  else offset ++ ":float(" ++ (Float.Binary32.widen ⟨(v % Int.pow 2 32).toNat.toUInt32⟩).toText .plain ++ ")"

/-- `SeriesWriter(<row> (metric=m), base_time=B (date), [samples])`. -/
def debugText (w : Writer) (db : Db) : String :=
  let s := w.state db
  let row := match s.row with
    | some r => r.debugText
    | none => "<null>"
  let base := s.baseTime
  let date := match Time.ofUnixSeconds base.toNat with
    | some t => if base > 0 then t.format else "no date"
    | none => "no date"
  "SeriesWriter(" ++ row ++ " (metric=" ++ w.metric ++ "), base_time=" ++ toString base.toNat ++
    " (" ++ date ++ "), [" ++ ", ".intercalate (s.buffer.samples.map fun (q, v) => sampleText q v) ++ "])"

end Writer

end SeriesIngest
