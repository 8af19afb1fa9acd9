/-!
# Timestamps in seconds or milliseconds

A timestamp is a signed 64-bit count since the Unix epoch. One with any of its upper 32 bits
set, so any negative one too, counts in milliseconds; the others count in seconds. Millisecond
timestamps convert to seconds by division rounded toward zero.
-/

namespace SeriesIngest.Time

/-- Milliseconds in a second. -/
def msPerSecond : Int := 1000

/-- The greatest millisecond timestamp with 13 digits. -/
def maxMsTimestamp : Int := 9999999999999

/-- Whether a timestamp counts milliseconds: it lies outside `[0, 2 ^ 32)`. -/
def isMillis (ts : Int) : Bool := !(0 ≤ ts && ts < Int.pow 2 32)

/-- The timestamp in milliseconds. -/
def toMillis (ts : Int) : Int := if isMillis ts then ts else ts * msPerSecond

/-- The timestamp in whole seconds, rounded toward zero. -/
def toSeconds (ts : Int) : Int := if isMillis ts then ts.tdiv msPerSecond else ts

end SeriesIngest.Time
