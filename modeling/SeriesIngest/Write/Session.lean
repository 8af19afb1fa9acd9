import SeriesIngest.Write.Db

/-!
# Sessions: the row a writer is filling

A session keeps the writer's current row, opened at the base time of its first point and moved
on (a rollover) when a point's base time is a whole window or more past the row's. Points must
come in increasing time: the watermark is the greatest timestamp accepted, in milliseconds.

`Db.writeAllowed` decides where a point of a session goes. A point at or before the watermark
is refused, or, where out-of-order points are allowed, written on its own to the row of its own
base time without touching the session. A later point raises the watermark; if its metric has
no id it is refused; otherwise the row is opened or rolled as needed, and the point is added to
the row's buffer. A buffer that cannot take the point is a fault that stops the program.
-/

namespace SeriesIngest

/-- The session of a fresh writer, or of a writer whose series was just set. -/
def Session.start (row : Option RowKey) (window : Nat) (watermark : Option Int) : Session :=
  ⟨row, false, SampleBuffer.empty window, watermark⟩

/-- The base time of the session's row, zero without a row. -/
def Session.baseTime (s : Session) : UInt32 :=
  match s.row with
  | some r => r.baseTime
  | none => 0

namespace Db

/-- The session of an id. -/
def session (db : Db) (sid : Nat) : Session :=
  db.sessions.getD sid (Session.start none 0 none)

/-- Replaces the session of an id. -/
def setSession (db : Db) (sid : Nat) (s : Session) : Db :=
  { db with sessions := db.sessions.set! sid s }

/-- Whether a timestamp in milliseconds is at or before the watermark. -/
def notAfter (watermark : Option Int) (tsMs : Int) : Bool :=
  match watermark with
  | some last => tsMs ≤ last
  | none => false

/-- Opens the session's row at the point's base time, or rolls it over when the point's base
time is a window or more past the row's. -/
def rollIfNeeded (db : Db) (sid : Nat) (ts : Int) : Db :=
  let s := db.session sid
  match s.row with
  | none => db
  | some row =>
    let base := db.baseTimeOf ts
    if !s.opened then db.setSession sid { s with row := some (db.withBaseTime row base), opened := true }
    else if (base.toNat : Int) - row.baseTime.toNat ≥ db.window then
      let (db, next) := db.rollToBaseTime row base
      let db := { db with stats := { db.stats with rollovers := db.stats.rollovers + 1 } }
      db.setSession sid { s with row := some next, buffer := s.buffer.reset }
    else db

/-- A point after the watermark: raise it, refuse an unknown metric, roll, and buffer; a full
buffer is a fault. -/
def acceptInOrder (db : Db) (sid : Nat) (metric : String) (ts : Int) (value : EncodedValue) :
    Db × Except WriteError (Bytes × Qualifier) :=
  let s := db.session sid
  let db := db.setSession sid { s with watermark := some (Time.toMillis ts) }
  match s.row with
  | none => (db, .error .notInitialized)
  | some row =>
    if !row.metricResolved then
      let (db, e) := db.rejectMetric metric
      (db, .error e)
    else
      let db := db.rollIfNeeded sid ts
      let s := db.session sid
      let row := s.row.getD row
      match buildQualifier ts row.baseTime value.flags with
      | .error e => (db, .error e)
      | .ok q =>
        match s.buffer.append q value.raw with
        | (buffer, .ok ()) => (db.setSession sid { s with buffer := buffer }, .ok (row.bytes, q))
        | (_, .error f) => (db, .error (.bufferFull f))

/-- Where a point of a session is written: its row and column name. -/
def writeAllowed (db : Db) (sid : Nat) (metric : String) (ts : Int) (value : EncodedValue) :
    Db × Except WriteError (Bytes × Qualifier) :=
  let s := db.session sid
  let tsMs := Time.toMillis ts
  match s.row with
  | none => (db, .error .notInitialized)
  | some row =>
    match s.watermark with
    | some last =>
      if tsMs ≤ last then
        if !db.config.allowOutOfOrder then (db, .error (.outOfOrder tsMs last))
        else if !row.metricResolved then
          let (db, e) := db.rejectMetric metric
          (db, .error e)
        else
          let db := { db with stats := { db.stats with outOfOrderDelegated := db.stats.outOfOrderDelegated + 1 } }
          let own := db.withBaseTime row (db.baseTimeOf ts)
          (db, (buildQualifier ts own.baseTime value.flags).map fun q => (own.bytes, q))
      else db.acceptInOrder sid metric ts value
    | none => db.acceptInOrder sid metric ts value

end Db

end SeriesIngest
