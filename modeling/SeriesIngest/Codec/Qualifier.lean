import SeriesIngest.Codec.Value
import SeriesIngest.Time.Timestamp

/-!
# Column names of data points

A data point's column name (its qualifier) holds its time offset from the row's base time and
its value flags. A second offset `d` below 3840 takes two bytes, `d * 16 + flags`; a
millisecond offset `d` below `2 ^ 22` takes four bytes, `0xF0000000 + d * 64 + flags`, whose
first byte has its upper four bits set, which no second offset reaches. Reading a column name
looks at that first byte to tell the two apart.
-/

namespace SeriesIngest

/-- The number of seconds a row spans at most. -/
def maxBaseTimeWindow : Nat := 3840

/-- The greatest second offset. -/
def maxSecondDelta : Int := 3839

/-- The greatest millisecond offset. -/
def maxMillisDelta : Int := 0x3FFFFF

/-- A column name: a second offset or a millisecond offset, with the value flags. -/
inductive Qualifier where
  | seconds (raw : UInt16)
  | millis (raw : UInt32)
  deriving Repr, DecidableEq

namespace Qualifier

/-- The number of bytes of the column name. -/
def len : Qualifier → Nat
  | .seconds _ => 2
  | .millis _ => 4

/-- Whether the offset is in milliseconds. -/
def isMillis : Qualifier → Bool
  | .seconds _ => false
  | .millis _ => true

/-- The value flags. -/
def flags : Qualifier → UInt16
  | .seconds q => q &&& flagsMask
  | .millis q => q.toUInt16 &&& flagsMask

/-- Whether the value is an integer. -/
def isInteger (q : Qualifier) : Bool := flagsInteger q.flags

/-- The byte count of the value. -/
def valueLen (q : Qualifier) : Nat := SeriesIngest.valueLen q.flags

/-- The offset in milliseconds. -/
def offsetMs : Qualifier → Nat
  | .seconds q => (q >>> 4).toNat * 1000
  | .millis q => ((q >>> 6) &&& 0x3FFFFF).toNat

/-- The offset in whole seconds. -/
def deltaSeconds : Qualifier → Nat
  | .seconds q => (q >>> 4).toNat
  | q@(.millis _) => q.offsetMs / 1000

/-- The bytes of the column name. -/
def toBytes : Qualifier → Bytes
  | .seconds q => Bytes.ofNatBE 2 q.toNat
  | .millis q => Bytes.ofNatBE 4 q.toNat

/-- Reads a column name from the front of the bytes. -/
def decode (b : Bytes) : Except WriteError Qualifier :=
  match b with
  | x :: y :: rest =>
    if x &&& 0xF0 == 0xF0 then
      match rest with
      | z :: w :: _ => .ok (.millis (Bytes.toNatBE [x, y, z, w]).toUInt32)
      | _ => .error (.invalidValue (.truncatedMillisQualifier b))
    else .ok (.seconds (Bytes.toNatBE [x, y]).toUInt16)
  | _ => .error (.invalidValue (.truncatedQualifier b))

/-- `+10s:long/2` or `+500ms:float/4`. -/
def debugText (q : Qualifier) : String :=
  let kind := if q.isInteger then "long" else "float"
  match q with
  | .seconds _ => "+" ++ toString q.deltaSeconds ++ "s:" ++ kind ++ "/" ++ toString q.valueLen
  | .millis _ => "+" ++ toString q.offsetMs ++ "ms:" ++ kind ++ "/" ++ toString q.valueLen

end Qualifier

/-- Checks that an offset lies in `[0, max]`. -/
def checkDelta (delta max : Int) : Except WriteError Unit :=
  if delta < 0 ∨ delta > max then .error (.windowOverflow delta max) else .ok ()

/-- The two-byte column name of a timestamp in seconds; the offset is taken in 64-bit
arithmetic. -/
def encodeSecondsQualifier (ts : Int) (base : UInt32) (flags : UInt16) : Except WriteError UInt16 := do
  let delta := Number.wrap64 (ts - base.toNat)
  checkDelta delta maxSecondDelta
  pure ((delta.toNat.toUInt16 <<< 4) ||| (flags &&& flagsMask))

/-- The four-byte column name of a timestamp in milliseconds; the offset is taken in 64-bit
arithmetic. -/
def encodeMillisQualifier (ts : Int) (base : UInt32) (flags : UInt16) : Except WriteError UInt32 := do
  let delta := Number.wrap64 (ts - base.toNat * 1000)
  checkDelta delta maxMillisDelta
  pure ((0xF0000000 : UInt32) ||| (delta.toNat.toUInt32 <<< 6) ||| (flags &&& flagsMask).toUInt32)

/-- The column name of a timestamp against a base time, in the timestamp's resolution. -/
def buildQualifier (ts : Int) (base : UInt32) (flags : UInt16) : Except WriteError Qualifier :=
  if Time.isMillis ts then (encodeMillisQualifier ts base flags).map .millis
  else (encodeSecondsQualifier ts base flags).map .seconds

end SeriesIngest
