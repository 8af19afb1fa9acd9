import SeriesIngest.Float.Binary

/-!
# Reading decimal text as a binary float

The accepted text is an optional sign followed either by a decimal number or by one of the
words `inf`, `infinity` and `nan` in any case. A decimal number has digits, optionally a point
and more digits (at least one digit in all), and optionally an exponent: `e` or `E`, an optional
sign and at least one digit. The value is rounded to the nearest pattern of the format, ties to
even; magnitudes too large become infinite and magnitudes too small become zero, keeping the
sign.
-/

namespace SeriesIngest.Float

/-- Why a text is not a float. -/
inductive FloatTextError where
  | empty
  | invalid
  deriving Repr, DecidableEq

/-- The message of a float text error. -/
def FloatTextError.message : FloatTextError → String
  | .empty => "cannot parse float from empty string"
  | .invalid => "invalid float literal"

/-- A decimal number as read: its digits, the number of them after the point, and the
explicit exponent. -/
structure DecimalText where
  digits : List Char
  fracLen : Nat
  exp : Int

/-- Whether a character is an ASCII decimal digit. -/
def isDigitChar (c : Char) : Bool := '0' ≤ c && c ≤ '9'

/-- The value of a list of decimal digits. -/
def digitsValue (cs : List Char) : Nat :=
  cs.foldl (fun acc c => acc * 10 + (c.toNat - '0'.toNat)) 0

/-- The exponent part after `e`: an optional sign and at least one digit, nothing after. -/
def readExponent (cs : List Char) : Option Int :=
  let (neg, rest) := match cs with
    | '-' :: r => (true, r)
    | '+' :: r => (false, r)
    | r => (false, r)
  if rest ≠ [] ∧ rest.all isDigitChar then
    let v : Int := digitsValue rest
    some (if neg then -v else v)
  else none

/-- Reads an unsigned decimal number that spans the whole list. -/
def readDecimal (cs : List Char) : Option DecimalText :=
  let whole := cs.takeWhile isDigitChar
  let rest := cs.dropWhile isDigitChar
  let (frac, rest) := match rest with
    | '.' :: r => (r.takeWhile isDigitChar, r.dropWhile isDigitChar)
    | r => ([], r)
  if whole.isEmpty ∧ frac.isEmpty then none
  else
    match rest with
    | [] => some ⟨whole ++ frac, frac.length, 0⟩
    | c :: r =>
      if c = 'e' ∨ c = 'E' then
        (readExponent r).map fun e => ⟨whole ++ frac, frac.length, e⟩
      else none

namespace BinaryFormat

/-- Decimal magnitudes at or past `10 ^ overflowDigits` are infinite in the format. -/
def overflowDigits (f : BinaryFormat) : Int := (f.bias + 2) * 3 / 10 + 2

/-- Decimal magnitudes below `10 ^ (-underflowDigits)` round to zero in the format. -/
def underflowDigits (f : BinaryFormat) : Int := (f.bias + f.fracBits + 2) * 3 / 10 + 3

/-- The pattern nearest `digits * 10 ^ exp`, negated when `neg`. -/
def ofDecimal (f : BinaryFormat) (neg : Bool) (digits : Nat) (exp : Int) : Nat :=
  if digits = 0 then f.round neg 0 1
  else
    let top := exp + decimalDigits digits
    if top > f.overflowDigits then f.infBits neg
    else if top < -f.underflowDigits then f.round neg 0 1
    else if 0 ≤ exp then f.round neg (digits * Nat.pow 10 exp.toNat) 1
    else f.round neg digits (Nat.pow 10 (-exp).toNat)
where
  /-- The number of decimal digits of a positive number. -/
  decimalDigits (n : Nat) : Nat := (Nat.toDigits 10 n).length

/-- The pattern of a NaN with only the quiet bit set. -/
def quietNaN (f : BinaryFormat) (neg : Bool) : Nat :=
  f.infBits neg + Nat.pow 2 (f.fracBits - 1)

/-- Reads a float of the format from text. -/
def parse (f : BinaryFormat) (s : String) : Except FloatTextError Nat :=
  match s.toList with
  | [] => .error .empty
  | c :: cs =>
    let (neg, body) := if c = '-' then (true, cs) else if c = '+' then (false, cs) else (false, c :: cs)
    if body.isEmpty then .error .invalid
    else
      match readDecimal body with
      | some d => .ok (f.ofDecimal neg (digitsValue d.digits) (d.exp - d.fracLen))
      | none =>
        let word := String.ofList (body.map Char.toLower)
        if word = "inf" ∨ word = "infinity" then .ok (f.infBits neg)
        else if word = "nan" then .ok (f.quietNaN neg)
        else .error .invalid

end BinaryFormat

end SeriesIngest.Float
