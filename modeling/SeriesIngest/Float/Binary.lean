/-!
# Binary floating-point formats

A `BinaryFormat` is an IEEE 754 binary interchange format, given by the number of stored
fraction bits and of exponent bits. A bit pattern of the format denotes a NaN, a signed infinity
or a signed finite value `mant * 2 ^ exp` (`Unpacked`), where for subnormal numbers the
mantissa is doubled and the exponent lowered by one, so that the mantissa's parity tells
whether the number is even in the sense of rounding.

`BinaryFormat.round` is the other direction: the nearest pattern to a non-negative rational,
ties to the even pattern, with overflow to infinity. Reading decimal text and narrowing to a
smaller format both go through it.
-/

namespace SeriesIngest.Float

/-- A binary interchange format: `fracBits` stored fraction bits and `expBits` exponent bits. -/
structure BinaryFormat where
  fracBits : Nat
  expBits : Nat

namespace BinaryFormat

/-- The 32-bit format: 23 fraction bits, 8 exponent bits. -/
def single : BinaryFormat := ⟨23, 8⟩

/-- The 64-bit format: 52 fraction bits, 11 exponent bits. -/
def double : BinaryFormat := ⟨52, 11⟩

/-- The exponent bias. -/
def bias (f : BinaryFormat) : Nat := Nat.pow 2 (f.expBits - 1) - 1

/-- The biased exponent field of infinities and NaNs. -/
def maxField (f : BinaryFormat) : Nat := Nat.pow 2 f.expBits - 1

/-- Position of the sign bit. -/
def signBit (f : BinaryFormat) : Nat := f.fracBits + f.expBits

/-- The pattern of an infinity. -/
def infBits (f : BinaryFormat) (neg : Bool) : Nat :=
  (if neg then Nat.pow 2 f.signBit else 0) + f.maxField * Nat.pow 2 f.fracBits

end BinaryFormat

/-- What a bit pattern denotes. A finite value is `mant * 2 ^ exp`, negated when `neg`. -/
inductive Unpacked where
  | nan
  | inf (neg : Bool)
  | finite (neg : Bool) (mant : Nat) (exp : Int)
  deriving Repr, DecidableEq

namespace BinaryFormat

/-- Splits a bit pattern into sign, exponent and mantissa. Subnormal mantissas are doubled
(with the exponent one lower than the pattern's scale), so a number is even exactly when
`mant` is. -/
def unpack (f : BinaryFormat) (bits : Nat) : Unpacked :=
  let frac := bits % Nat.pow 2 f.fracBits
  let field := bits / Nat.pow 2 f.fracBits % Nat.pow 2 f.expBits
  let neg := bits / Nat.pow 2 f.signBit % 2 == 1
  let shift : Int := (f.bias : Int) + f.fracBits
  if field = f.maxField then
    if frac = 0 then .inf neg else .nan
  else if field = 0 then .finite neg (frac * 2) (-shift)
  else .finite neg (frac + Nat.pow 2 f.fracBits) ((field : Int) - shift)

/-- The fraction bits of a pattern. -/
def fraction (f : BinaryFormat) (bits : Nat) : Nat := bits % Nat.pow 2 f.fracBits

/-- Whether a pattern is negative, NaNs included. -/
def isNeg (f : BinaryFormat) (bits : Nat) : Bool := bits / Nat.pow 2 f.signBit % 2 == 1

end BinaryFormat

/-- `2 ^ e` for an integer `e`, as numerator and denominator. -/
def pow2Frac (e : Int) : Nat × Nat :=
  if 0 ≤ e then (Nat.pow 2 e.toNat, 1) else (1, Nat.pow 2 (-e).toNat)

/-- The quotient of `n` by `d`, rounded to the nearest integer, ties to even. -/
def roundHalfEven (n d : Nat) : Nat :=
  let q := n / d
  let r := n % d
  if 2 * r > d ∨ (2 * r = d ∧ q % 2 = 1) then q + 1 else q

/-- The greatest `e` with `2 ^ e ≤ n / d`, for positive `n` and `d`. -/
def floorLog2 (n d : Nat) : Int :=
  let e : Int := (Nat.log2 n : Int) - Nat.log2 d
  let (a, b) := pow2Frac e
  -- `n / d < a / b` means the estimate is one too high
  if n * b < a * d then e - 1 else e

namespace BinaryFormat

/-- The pattern nearest to the non-negative rational `n / d` (with `d > 0`), negated when
`neg`: ties go to the even pattern, values past the largest finite one become infinite. -/
def round (f : BinaryFormat) (neg : Bool) (n d : Nat) : Nat :=
  let sign := if neg then Nat.pow 2 f.signBit else 0
  if n = 0 then sign
  else
    let e := floorLog2 n d
    let minQuantum : Int := 1 - (f.bias : Int) - f.fracBits
    let quantum := max (e - f.fracBits) minQuantum
    let (a, b) := pow2Frac quantum
    -- `n / d` in units of `2 ^ quantum` is `(n * b) / (d * a)`
    let m := roundHalfEven (n * b) (d * a)
    let (m, quantum) := if m = Nat.pow 2 (f.fracBits + 1) then (Nat.pow 2 f.fracBits, quantum + 1)
      else (m, quantum)
    if m < Nat.pow 2 f.fracBits then sign + m
    else
      let field := quantum - minQuantum + 1
      if field ≥ (f.maxField : Int) then f.infBits neg
      else sign + field.toNat * Nat.pow 2 f.fracBits + (m - Nat.pow 2 f.fracBits)

end BinaryFormat

end SeriesIngest.Float
