import SeriesIngest.Point.Tags
import SeriesIngest.Bytes.Basic
import SeriesIngest.Text.Escape

/-!
# Admission filters and log lines

An admission filter is asked about each point before it is written, with the point's metric,
timestamp in milliseconds, value bytes, tags and flags. It may turn filtering off altogether; when
on, its verdict admits the point, drops it, or fails with a reason.

The write path also reports what it does as log lines, each with a level and the component that
wrote it. A line is written as its level, its component and its message, with the characters
that could drive a terminal escaped.
-/

namespace SeriesIngest

/-- A point as an admission filter sees it. -/
structure Admission where
  metric : String
  timestampMs : Int
  value : Bytes
  tags : Tags
  flags : UInt16
  deriving Repr, DecidableEq

/-- An admission filter: whether it filters at all, and its verdict on a point. -/
structure AdmissionFilter where
  filtersPoints : Bool
  verdict : Admission → Except String Bool

/-- How much a log line matters. -/
inductive LogLevel where
  | info
  | warn
  deriving Repr, DecidableEq

/-- A log line: level, component and message. -/
structure LogLine where
  level : LogLevel
  target : String
  message : String
  deriving Repr, DecidableEq

/-- `INFO component: message`. -/
def LogLine.text (l : LogLine) : String :=
  (match l.level with | .info => "INFO " | .warn => "WARN ") ++ l.target ++ ": " ++
    Text.logText l.message

end SeriesIngest
