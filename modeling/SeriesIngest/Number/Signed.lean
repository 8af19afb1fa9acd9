/-!
# Reading signed 64-bit integers

A signed 64-bit integer is written as an optional `+` or `-` followed by decimal digits. The
digits are read from left to right; the first character that is not a digit, or the first
digit that takes the value out of the 64-bit range, ends the reading with an error. A sign with
nothing after it counts as a bad digit.
-/

namespace SeriesIngest.Number

/-- The least signed 64-bit value, `-2 ^ 63`. -/
def int64Min : Int := -(Int.pow 2 63)

/-- The greatest signed 64-bit value, `2 ^ 63 - 1`. -/
def int64Max : Int := Int.pow 2 63 - 1

/-- The signed 64-bit value congruent to `n` modulo `2 ^ 64`: the result of 64-bit arithmetic
that wraps around. -/
def wrap64 (n : Int) : Int := (n + Int.pow 2 63) % Int.pow 2 64 - Int.pow 2 63

/-- Why a text is not a signed 64-bit integer. -/
inductive IntTextError where
  | empty
  | invalidDigit
  | tooLarge
  | tooSmall
  deriving Repr, DecidableEq

/-- The message of an integer text error. -/
def IntTextError.message : IntTextError → String
  | .empty => "cannot parse integer from empty string"
  | .invalidDigit => "invalid digit found in string"
  | .tooLarge => "number too large to fit in target type"
  | .tooSmall => "number too small to fit in target type"

/-- Reads the digits `cs` onto the accumulated value `acc`, away from zero in the direction of
the sign (`neg`). -/
def readDigits (neg : Bool) : Int → List Char → Except IntTextError Int
  | acc, [] => .ok acc
  | acc, c :: cs =>
    if '0' ≤ c ∧ c ≤ '9' then
      let d : Int := c.toNat - '0'.toNat
      let next := if neg then acc * 10 - d else acc * 10 + d
      if next > int64Max then .error .tooLarge
      else if next < int64Min then .error .tooSmall
      else readDigits neg next cs
    else .error .invalidDigit

/-- Reads a signed 64-bit integer. -/
def parseInt64 (s : String) : Except IntTextError Int :=
  match s.toList with
  | [] => .error .empty
  | ['+'] | ['-'] => .error .invalidDigit
  | '+' :: cs => readDigits false 0 cs
  | '-' :: cs => readDigits true 0 cs
  | cs => readDigits false 0 cs

end SeriesIngest.Number
