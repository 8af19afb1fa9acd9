import SeriesIngest.Error
import SeriesIngest.Codec.Qualifier

/-!
# Configuration of the write path

The settings of a database and their defaults, and the check that they are usable: a table
name, at least one tag allowed, a window of 1 to 3840 seconds, id widths of 1 to 8 bytes, a
salt of 0 to 8 bytes, and for a salted key a bucket count that the salt's first four bytes can
hold. The first failing check is reported. The window also sets the base time of a timestamp,
its second rounded down to a multiple of the window.
-/

namespace SeriesIngest

/-- The settings of the write path. -/
structure Config where
  table : String := "tsdb"
  allowOutOfOrder : Bool := false
  autoCreateMetrics : Bool := true
  autoCreateTags : Bool := true
  useAppendWrites : Bool := false
  maxTags : Nat := 8
  window : UInt32 := 3600
  defaultBatchBufferMs : UInt16 := 5000
  metricWidth : Nat := 3
  tagNameWidth : Nat := 3
  tagValueWidth : Nat := 3
  saltWidth : Nat := 0
  saltBuckets : UInt32 := 20
  allowedSpecialChars : String := ""
  deriving Repr, DecidableEq

/-- The column family of every write. -/
def dataFamily : Bytes := [0x74]

namespace Config

/-- Checks one id width. -/
def checkWidth (name : String) (w : Nat) : Except WriteError Unit :=
  if w = 0 ∨ w > 8 then .error (.config (name ++ " must be in 1..=8, got " ++ toString w))
  else .ok ()

/-- Checks that the settings are usable. -/
def validate (c : Config) : Except WriteError Unit := do
  if c.table.isEmpty then throw (.config "table must not be empty")
  if c.maxTags = 0 then throw (.config "max_tags must be at least 1")
  if c.window = 0 ∨ c.window.toNat > maxBaseTimeWindow then
    throw (.config ("base_time_window_seconds must be in 1..=" ++ toString maxBaseTimeWindow ++
      ", got " ++ toString c.window.toNat))
  checkWidth "metric_width" c.metricWidth
  checkWidth "tag_name_width" c.tagNameWidth
  checkWidth "tag_value_width" c.tagValueWidth
  if c.saltWidth > 8 then
    throw (.config ("salt_width must be in 0..=8, got " ++ toString c.saltWidth))
  if c.saltWidth > 0 then
    let maxBuckets := Nat.pow 2 (8 * min c.saltWidth 4)
    if c.saltBuckets = 0 ∨ c.saltBuckets.toNat > maxBuckets then
      throw (.config ("salt_buckets must be in 1..=" ++ toString maxBuckets ++ " for a " ++
        toString c.saltWidth ++ " byte salt, got " ++ toString c.saltBuckets.toNat))

/-- The base time of a timestamp: its second rounded down to the window (remainder toward
zero), as 32 bits. -/
def baseTimeOf (c : Config) (ts : Int) : UInt32 :=
  let secs := Time.toSeconds ts
  ((secs - secs.tmod c.window.toNat) % Int.pow 2 32).toNat.toUInt32

end Config

end SeriesIngest
