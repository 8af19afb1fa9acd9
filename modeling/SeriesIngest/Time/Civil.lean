/-!
# Calendar dates of Unix times

The proleptic Gregorian date and time of day of a count of seconds since 1970-01-01 00:00:00
UTC, written `YYYY-MM-DD HH:MM:SS`. Years are kept from -262143 to 262142; a time outside
them has no date. Years from 0 to 9999 take four digits; the others take a sign and at least
four digits (`+10000`, `-0001`).
-/

namespace SeriesIngest.Time

/-- A date and time of day. -/
structure CivilTime where
  year : Int
  month : Nat
  day : Nat
  hour : Nat
  minute : Nat
  second : Nat
  deriving Repr, DecidableEq

/-- The least year with a date. -/
def minYear : Int := -262143

/-- The greatest year with a date. -/
def maxYear : Int := 262142

/-- The date of a day count since 1970-01-01, by eras of 400 years. -/
def civilOfDays (z : Int) : Int × Nat × Nat :=
  let z := z + 719468
  let era := z / 146097
  let doe := z - era * 146097
  let yoe := (doe - doe / 1460 + doe / 36524 - doe / 146096) / 365
  let y := yoe + era * 400
  let doy := doe - (365 * yoe + yoe / 4 - yoe / 100)
  let mp := (5 * doy + 2) / 153
  let d := doy - (153 * mp + 2) / 5 + 1
  let m := if mp < 10 then mp + 3 else mp - 9
  ((if m ≤ 2 then y + 1 else y), m.toNat, d.toNat)

/-- The date and time of a Unix time in seconds, if its year is kept. -/
def ofUnixSeconds (secs : Int) : Option CivilTime :=
  let days := secs / 86400
  let rest := (secs % 86400).toNat
  let (y, m, d) := civilOfDays days
  if minYear ≤ y ∧ y ≤ maxYear then
    some ⟨y, m, d, rest / 3600, rest / 60 % 60, rest % 60⟩
  else none

/-- `n` written with at least `w` digits. -/
def padded (w n : Nat) : String :=
  let s := toString n
  String.ofList (List.replicate (w - s.length) '0') ++ s

/-- The year: four digits from 0 to 9999, else a sign and at least four digits. -/
def yearText (y : Int) : String :=
  if 0 ≤ y ∧ y < 10000 then padded 4 y.toNat
  else (if y < 0 then "-" else "+") ++ padded 4 y.natAbs

/-- `YYYY-MM-DD HH:MM:SS`. -/
def CivilTime.format (t : CivilTime) : String :=
  yearText t.year ++ "-" ++ padded 2 t.month ++ "-" ++ padded 2 t.day ++ " " ++
    padded 2 t.hour ++ ":" ++ padded 2 t.minute ++ ":" ++ padded 2 t.second

end SeriesIngest.Time
