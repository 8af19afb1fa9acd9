import SeriesIngest.Float.Binary

/-!
# Shortest decimal digits of a binary float

Every finite non-zero pattern has an interval of reals that read back as that pattern. The
digits printed for it are those of the decimal with the fewest significant digits inside the
interval; when two decimals of that length lie inside, the nearer one to the value, and of two
equally near ones the larger.

`RoundingInterval` describes the interval as `(mant - minus) * 2 ^ exp` to
`(mant + plus) * 2 ^ exp` around the value `mant * 2 ^ exp`; its ends belong to it when the
pattern's mantissa is even. A normal number whose fraction bits are all zero has the smaller
gap below it.
-/

namespace SeriesIngest.Float

/-- A positive decimal `digits * 10 ^ exp`. -/
structure Decimal where
  digits : Nat
  exp : Int
  deriving Repr, DecidableEq

/-- The reals around `mant * 2 ^ exp` that read back as the same pattern. -/
structure RoundingInterval where
  mant : Nat
  minus : Nat
  plus : Nat
  exp : Int
  inclusive : Bool
  deriving Repr

namespace BinaryFormat

/-- The rounding interval of a finite non-zero pattern. -/
def interval (f : BinaryFormat) (bits : Nat) : RoundingInterval :=
  let frac := bits % Nat.pow 2 f.fracBits
  let field := bits / Nat.pow 2 f.fracBits % Nat.pow 2 f.expBits
  let shift : Int := (f.bias : Int) + f.fracBits
  if field = 0 then
    ⟨frac * 2, 1, 1, -shift, true⟩
  else
    let mant := frac + Nat.pow 2 f.fracBits
    let even := mant % 2 = 0
    if frac = 0 then ⟨mant * 4, 1, 2, (field : Int) - shift - 2, even⟩
    else ⟨mant * 2, 1, 1, (field : Int) - shift - 1, even⟩

end BinaryFormat

/-- `10 ^ e` for an integer `e`, as numerator and denominator. -/
def pow10Frac (e : Int) : Nat × Nat :=
  if 0 ≤ e then (Nat.pow 10 e.toNat, 1) else (1, Nat.pow 10 (-e).toNat)

/-- The number of decimal digits of `n` (one for zero). -/
def decimalLength (n : Nat) : Nat := (Nat.toDigits 10 n).length

/-- The greatest `e` with `10 ^ e ≤ n / d`, for positive `n` and `d`. -/
def floorLog10 (n d : Nat) : Int :=
  let e : Int := (decimalLength n : Int) - decimalLength d
  let (a, b) := pow10Frac e
  if n * b < a * d then e - 1 else e

/-- Removes trailing zero digits, raising the exponent: `fuel` bounds the number removed. -/
def Decimal.normalize : Nat → Decimal → Decimal
  | 0, x => x
  | fuel + 1, x =>
    if x.digits ≠ 0 ∧ x.digits % 10 = 0 then
      Decimal.normalize fuel ⟨x.digits / 10, x.exp + 1⟩
    else x

namespace RoundingInterval

/-- The decimal of `n` significant digits nearest the value that lies in the interval, if any.
At the last length tried, `last`, the nearer of the two neighbours is taken regardless. -/
def onGrid (r : RoundingInterval) (e10 : Int) (n : Nat) (last : Bool) : Option Decimal :=
  let (p, q) := pow2Frac r.exp
  let k := e10 - n + 1
  let (a, b) := pow10Frac k
  -- an interval point `x * 2 ^ exp` against a grid point `t * 10 ^ k`: `x*p*b` against `t*a*q`
  let scaled (x : Nat) : Nat := x * p * b
  let grid (t : Nat) : Nat := t * a * q
  let above (t : Nat) : Bool :=
    if r.inclusive then scaled (r.mant - r.minus) ≤ grid t else scaled (r.mant - r.minus) < grid t
  let below (t : Nat) : Bool :=
    if r.inclusive then grid t ≤ scaled (r.mant + r.plus) else grid t < scaled (r.mant + r.plus)
  let t := scaled r.mant / (a * q)
  let downOk := above t && below t
  let upOk := above (t + 1) && below (t + 1)
  let upNearer := 2 * scaled r.mant ≥ grid (2 * t + 1)
  if downOk && upOk then some ⟨if upNearer then t + 1 else t, k⟩
  else if downOk then some ⟨t, k⟩
  else if upOk then some ⟨t + 1, k⟩
  else if last then some ⟨if upNearer then t + 1 else t, k⟩
  else none

/-- Tries lengths `n`, `n + 1`, … up to `n + fuel`. -/
def search (r : RoundingInterval) (e10 : Int) (n : Nat) : Nat → Decimal
  | 0 => (r.onGrid e10 n true).getD ⟨0, 0⟩
  | fuel + 1 =>
    match r.onGrid e10 n false with
    | some d => d
    | none => r.search e10 (n + 1) fuel

/-- The shortest decimal in the interval, nearest the value, without trailing zeros. -/
def shortest (r : RoundingInterval) : Decimal :=
  let (p, q) := pow2Frac r.exp
  let e10 := floorLog10 (r.mant * p) q
  let d := r.search e10 1 16
  d.normalize (decimalLength d.digits)

end RoundingInterval

end SeriesIngest.Float
