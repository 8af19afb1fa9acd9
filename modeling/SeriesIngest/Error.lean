import SeriesIngest.Point.Error
import SeriesIngest.Store.Error
import SeriesIngest.Ids.Kind

/-!
# Why a write or a read is refused

`WriteError` names every cause of failure on the write path; `WriteError.message` gives its
one text. `isRejected` holds of the causes that lie in the point itself (its identity,
timestamp, order or value), and `isPointRejected` adds those that lie in the point as the
database sees it (an unknown id, an offset that does not fit).
-/

namespace SeriesIngest

/-- Why a timestamp is refused. -/
inductive TimestampFault where
  | negative
  | millisTooLarge
  | beyondBaseTime
  deriving Repr, DecidableEq

/-- The reason text of a timestamp fault. -/
def TimestampFault.reason : TimestampFault → String
  | .negative => "negative timestamp"
  | .millisTooLarge => "millisecond timestamp too large"
  | .beyondBaseTime => "beyond the range of a row base time"

/-- What is wrong with an encoded value or column. -/
inductive ValueFault where
  /-- A float that is NaN or infinite, with its text. -/
  | notFinite (text : String)
  /-- Flags that ask for another number of bytes. -/
  | lengthMismatch (flags : UInt16) (expected actual : Nat)
  /-- An integer of a width other than 1, 2, 4 or 8 bytes. -/
  | integerWidth (n : Nat)
  /-- A float of a width other than 4 or 8 bytes. -/
  | floatWidth (n : Nat)
  /-- A column name shorter than two bytes. -/
  | truncatedQualifier (b : Bytes)
  /-- A millisecond column name shorter than four bytes. -/
  | truncatedMillisQualifier (b : Bytes)
  /-- An append column whose last value is cut short. -/
  | truncatedAppend (offset need available : Nat)
  deriving Repr, DecidableEq

/-- `0x` and lowercase hexadecimal digits. -/
def hexNumber (n : Nat) : String := "0x" ++ String.ofList (Nat.toDigits 16 n)

/-- The text of a value fault. -/
def ValueFault.message : ValueFault → String
  | .notFinite text => "value is NaN or Infinite: " ++ text
  | .lengthMismatch flags e a =>
    "flags " ++ hexNumber flags.toNat ++ " expect " ++ toString e ++ " bytes, got " ++ toString a
  | .integerWidth n => "integer on " ++ toString n ++ " bytes"
  | .floatWidth n => "float on " ++ toString n ++ " bytes"
  | .truncatedQualifier b => "truncated qualifier: " ++ Bytes.listText b
  | .truncatedMillisQualifier b => "truncated millisecond qualifier: " ++ Bytes.listText b
  | .truncatedAppend offset need available =>
    "append column truncated at offset " ++ toString offset ++ ": need " ++ toString need ++
      " bytes, have " ++ toString available

/-- The two kinds of sample a column can hold. -/
inductive SampleKind where
  | long
  | float
  deriving Repr, DecidableEq

/-- `long` or `float`. -/
def SampleKind.name : SampleKind → String
  | .long => "long"
  | .float => "float"

/-- A sample buffer could not grow past its capacity. -/
structure GrowthFault where
  capacity : Nat
  deriving Repr, DecidableEq

/-- The text of a growth fault. -/
def GrowthFault.message (f : GrowthFault) : String :=
  "can't grow write buffer larger than " ++ toString f.capacity ++ " samples"

/-- Why a write or a read on the write path fails. A full sample buffer is a fault of the
program, which stops there; it is never a refusal of the point. -/
inductive WriteError where
  | invalidSeries (e : ValidationError)
  | invalidTimestamp (ts : Int) (fault : TimestampFault)
  | outOfOrder (tsMs lastMs : Int)
  | notInitialized
  | windowOverflow (delta max : Int)
  | invalidValue (fault : ValueFault)
  | typeMismatch (index : Nat) (expected : SampleKind)
  | indexOutOfRange (index size : Nat)
  | unresolved (kind : IdKind) (name : String)
  | idsExhausted (kind : IdKind) (width : Nat)
  | config (detail : String)
  | filter (detail : String)
  | store (e : StoreError)
  | bufferFull (fault : GrowthFault)
  deriving Repr, DecidableEq

namespace WriteError

/-- The text of a write error. -/
def message : WriteError → String
  | .invalidSeries e => "invalid series: " ++ e.message
  | .invalidTimestamp ts f => "invalid timestamp " ++ toString ts ++ ": " ++ f.reason
  | .outOfOrder t l =>
    "new timestamp " ++ toString t ++ "ms is less than or equal to previous " ++ toString l ++ "ms"
  | .notInitialized => "set_series() never called"
  | .windowOverflow d m =>
    "offset " ++ toString d ++ " does not fit the qualifier (max " ++ toString m ++ ")"
  | .invalidValue f => "invalid value: " ++ f.message
  | .typeMismatch i k => "value #" ++ toString i ++ " is not a " ++ k.name
  | .indexOutOfRange i n => "index " ++ toString i ++ " out of range for " ++ toString n ++ " samples"
  | .unresolved k name => "no " ++ k.name ++ " id for \"" ++ name ++ "\""
  | .idsExhausted k w => k.name ++ " id space exhausted (" ++ toString w ++ " bytes)"
  | .config d => "configuration error: " ++ d
  | .filter d => "admission filter failed: " ++ d
  | .store e => "store error: " ++ e.message
  | .bufferFull f => f.message

/-- The failure lies in the point itself: identity, timestamp, order or value. -/
def isRejected : WriteError → Bool
  | .invalidSeries _ | .invalidTimestamp .. | .outOfOrder .. | .notInitialized | .invalidValue _ => true
  | _ => false

/-- The failure lies in the point as the database sees it: also an unknown id or an offset
that does not fit. -/
def isPointRejected (e : WriteError) : Bool :=
  e.isRejected ||
    match e with
    | .unresolved .. | .windowOverflow .. => true
    | _ => false

end WriteError

end SeriesIngest
