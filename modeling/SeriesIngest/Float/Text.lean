import SeriesIngest.Float.Shortest

/-!
# Writing binary floats as text

A float is written with the shortest digits that read back (`RoundingInterval.shortest`), laid
out by a `FloatStyle`: either always positional, or positional only for magnitudes inside a
range and with an exponent (`1.5e16`, `1e-45`) outside it, and with a least number of fraction
digits. NaN is written `NaN`, infinities `inf` and `-inf`; a negative number, zero included,
takes a leading `-`.

Two styles are in use: `FloatStyle.plain` never writes an exponent and shows no fraction for
integral values (`1e-45` reads `0.000…001`, `1e7` reads `10000000`); `FloatStyle.detailed`
writes magnitudes from `1e-4` below `1e16` positionally with at least one fraction digit
(`10000000.0`, `-0.0`) and the others with an exponent.
-/

namespace SeriesIngest.Float

/-- How a finite float is laid out. -/
structure FloatStyle where
  /-- Magnitudes from `lo` below `hi` (both rounded into the float's format), and zero, are
  positional; the others take an exponent. `none`: every magnitude is positional. -/
  positional : Option (Decimal × Decimal)
  /-- The least number of fraction digits of a positional number. -/
  minFrac : Nat

/-- Never an exponent, no fraction digits beyond those needed. -/
def FloatStyle.plain : FloatStyle := ⟨none, 0⟩

/-- Positional from `1e-4` below `1e16`, with at least one fraction digit; else an exponent. -/
def FloatStyle.detailed : FloatStyle := ⟨some (⟨1, -4⟩, ⟨1, 16⟩), 1⟩

/-- `n` zero digits. -/
def zeros (n : Nat) : String := String.ofList (List.replicate n '0')

/-- Positional notation of `d`, with at least `minFrac` fraction digits. -/
def Decimal.positional (d : Decimal) (minFrac : Nat) : String :=
  let ds := toString d.digits
  let len := ds.length
  let point : Int := len + d.exp
  if point ≤ 0 then
    "0." ++ zeros (-point).toNat ++ ds ++ zeros (minFrac - ((-point).toNat + len))
  else if point < len then
    let whole := point.toNat
    String.ofList (ds.toList.take whole) ++ "." ++ String.ofList (ds.toList.drop whole) ++
      zeros (minFrac - (len - whole))
  else
    ds ++ zeros (point.toNat - len) ++ (if minFrac = 0 then "" else "." ++ zeros minFrac)

/-- Exponent notation of `d`: one digit before the point, `e` and the decimal exponent. -/
def Decimal.scientific (d : Decimal) : String :=
  let ds := toString d.digits
  let len := ds.length
  let head := String.ofList (ds.toList.take 1)
  let tail := String.ofList (ds.toList.drop 1)
  head ++ (if len > 1 then "." ++ tail else "") ++ "e" ++ toString ((len : Int) + d.exp - 1)

/-- The layout of doubles in serialized JSON: positional, with at least one fraction digit,
when the leading digit stands from the fifth place after the point to the sixteenth before it;
exponent notation otherwise. -/
def Decimal.compact (d : Decimal) : String :=
  let point : Int := (toString d.digits).length + d.exp
  if -5 < point ∧ point ≤ 16 then d.positional 1 else d.scientific

namespace BinaryFormat

/-- The finite value of a pattern as `mant * 2 ^ exp`, ignoring the sign. -/
def magnitude (f : BinaryFormat) (bits : Nat) : Nat × Int :=
  match f.unpack bits with
  | .finite _ m e => (m, e)
  | _ => (0, 0)

/-- Whether a finite non-zero magnitude is written positionally in `style`. -/
def positionalIn (f : BinaryFormat) (style : FloatStyle) (mant : Nat) (exp : Int) : Bool :=
  match style.positional with
  | none => true
  | some (lo, hi) =>
    let (lm, le) := f.magnitude (f.round false (lo.digits * (pow10Frac lo.exp).1) (pow10Frac lo.exp).2)
    let (hm, he) := f.magnitude (f.round false (hi.digits * (pow10Frac hi.exp).1) (pow10Frac hi.exp).2)
    let (p, q) := pow2Frac exp
    let atLeast (m : Nat) (e : Int) : Bool :=
      let (p', q') := pow2Frac e
      m * p' * q ≤ mant * p * q'
    atLeast lm le && !atLeast hm he

/-- The text of a pattern in the given style. -/
def toText (f : BinaryFormat) (style : FloatStyle) (bits : Nat) : String :=
  match f.unpack bits with
  | .nan => "NaN"
  | .inf neg => if neg then "-inf" else "inf"
  | .finite neg mant exp =>
    let sign := if neg then "-" else ""
    if mant = 0 then
      sign ++ "0" ++ (if style.minFrac = 0 then "" else "." ++ zeros style.minFrac)
    else
      let d := (f.interval bits).shortest
      if f.positionalIn style mant exp then sign ++ d.positional style.minFrac
      else sign ++ d.scientific

/-- The text of a pattern in the layout of serialized JSON doubles (`Decimal.compact`); zero is
`0.0`. -/
def compactText (f : BinaryFormat) (bits : Nat) : String :=
  match f.unpack bits with
  | .nan => "NaN"
  | .inf neg => if neg then "-inf" else "inf"
  | .finite neg mant _ =>
    (if neg then "-" else "") ++ (if mant = 0 then "0.0" else (f.interval bits).shortest.compact)

end BinaryFormat

end SeriesIngest.Float
