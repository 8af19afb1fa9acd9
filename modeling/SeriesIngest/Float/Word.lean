import SeriesIngest.Float.Text
import SeriesIngest.Float.Parse

/-!
# 32-bit and 64-bit floats as bit patterns

`Binary32` and `Binary64` hold the bit pattern of a float of the single or double format. A
single widens to the double of the same value, and a double narrows to the nearest single
(ties to even, overflow to infinity). A NaN keeps its sign and the upper bits of its payload
and becomes quiet.
-/

namespace SeriesIngest.Float

/-- A 32-bit float, by its bit pattern. -/
structure Binary32 where
  bits : UInt32
  deriving Repr, DecidableEq

/-- A 64-bit float, by its bit pattern. -/
structure Binary64 where
  bits : UInt64
  deriving Repr, DecidableEq

namespace Binary32

/-- What the pattern denotes. -/
def unpack (x : Binary32) : Unpacked := BinaryFormat.single.unpack x.bits.toNat

/-- Whether the float is a NaN. -/
def isNaN (x : Binary32) : Bool := x.unpack = .nan

/-- Whether the float is an infinity. -/
def isInfinite (x : Binary32) : Bool :=
  match x.unpack with
  | .inf _ => true
  | _ => false

/-- The text of the float in a style. -/
def toText (style : FloatStyle) (x : Binary32) : String :=
  BinaryFormat.single.toText style x.bits.toNat

/-- Reads a float from text. -/
def parse (s : String) : Except FloatTextError Binary32 :=
  (BinaryFormat.single.parse s).map fun n => ⟨n.toUInt32⟩

/-- The double of the same value. -/
def widen (x : Binary32) : Binary64 :=
  let f := BinaryFormat.double
  match x.unpack with
  | .nan =>
    let sign := if BinaryFormat.single.isNeg x.bits.toNat then Nat.pow 2 f.signBit else 0
    ⟨(sign + f.maxField * Nat.pow 2 f.fracBits + Nat.pow 2 (f.fracBits - 1) +
      BinaryFormat.single.fraction x.bits.toNat * Nat.pow 2 29 % Nat.pow 2 (f.fracBits - 1)).toUInt64⟩
  | .inf neg => ⟨(f.infBits neg).toUInt64⟩
  | .finite neg m e =>
    let (p, q) := pow2Frac e
    ⟨(f.round neg (m * p) q).toUInt64⟩

end Binary32

namespace Binary64

/-- What the pattern denotes. -/
def unpack (x : Binary64) : Unpacked := BinaryFormat.double.unpack x.bits.toNat

/-- The text of the float in a style. -/
def toText (style : FloatStyle) (x : Binary64) : String :=
  BinaryFormat.double.toText style x.bits.toNat

/-- The text of the double as serialized JSON writes it. -/
def compactText (x : Binary64) : String := BinaryFormat.double.compactText x.bits.toNat

/-- The nearest single. -/
def narrow (x : Binary64) : Binary32 :=
  let f := BinaryFormat.single
  match x.unpack with
  | .nan =>
    let sign := if BinaryFormat.double.isNeg x.bits.toNat then Nat.pow 2 f.signBit else 0
    ⟨(sign + f.maxField * Nat.pow 2 f.fracBits + Nat.pow 2 (f.fracBits - 1) +
      BinaryFormat.double.fraction x.bits.toNat / Nat.pow 2 29 % Nat.pow 2 (f.fracBits - 1)).toUInt32⟩
  | .inf neg => ⟨(f.infBits neg).toUInt32⟩
  | .finite neg m e =>
    let (p, q) := pow2Frac e
    ⟨(f.round neg (m * p) q).toUInt32⟩

end Binary64

end SeriesIngest.Float
