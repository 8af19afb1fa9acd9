import SeriesIngest.Error
import SeriesIngest.Point.Value

/-!
# The value codec

An integer is stored in the fewest of 1, 2, 4 or 8 big-endian two's-complement bytes that hold
it, and a float in the 4 big-endian bytes of its bit pattern. The flags beside a stored value
say which: bit 3 marks a float and bits 0 to 2 hold the byte count less one, so a float has
flags `0xB`. A NaN or an infinity cannot be stored.

Reading checks the float bit against the kind asked for, then the byte count against the flags,
then that the width is one of the kind's widths; floats may also be read from 8 bytes.
-/

namespace SeriesIngest

open Float

/-- The flag bit of a float value. -/
def floatFlag : UInt16 := 0x8

/-- The flag bits holding the byte count less one. -/
def lengthMask : UInt16 := 0x7

/-- All flag bits. -/
def flagsMask : UInt16 := 0xF

/-- The byte count that flags announce. -/
def valueLen (flags : UInt16) : Nat := (flags &&& lengthMask).toNat + 1

/-- Whether flags mark an integer. -/
def flagsInteger (flags : UInt16) : Bool := flags &&& floatFlag == 0

/-- A value as stored: its bytes and its flags. -/
structure EncodedValue where
  bytes : Bytes
  flags : UInt16
  deriving Repr, DecidableEq

namespace EncodedValue

/-- Whether the value is an integer. -/
def isInteger (v : EncodedValue) : Bool := flagsInteger v.flags

/-- The integer, or the float's bit pattern as a non-negative number. -/
def raw (v : EncodedValue) : Int :=
  if v.isInteger then Bytes.toIntBE (if v.bytes.length ∈ [1, 2, 4] then v.bytes else v.bytes.take 8)
  else Bytes.toNatBE (v.bytes.take 4)

end EncodedValue

/-- The fewest of 1, 2, 4 and 8 bytes that hold `v` in two's complement. -/
def integerWidth (v : Int) : Nat :=
  if -Int.pow 2 7 ≤ v ∧ v < Int.pow 2 7 then 1
  else if -Int.pow 2 15 ≤ v ∧ v < Int.pow 2 15 then 2
  else if -Int.pow 2 31 ≤ v ∧ v < Int.pow 2 31 then 4
  else 8

/-- Stores a signed 64-bit integer. -/
def encodeLong (v : Int) : EncodedValue :=
  let w := integerWidth v
  ⟨Bytes.ofIntBE w v, (w - 1).toUInt16⟩

/-- Stores a finite float. -/
def encodeFloat (x : Binary32) : Except WriteError EncodedValue :=
  if x.isNaN || x.isInfinite then .error (.invalidValue (.notFinite (x.toText .plain)))
  else .ok ⟨Bytes.ofNatBE 4 x.bits.toNat, floatFlag ||| 0x3⟩

/-- Stores a data value. -/
def encodeValue : DataValue → Except WriteError EncodedValue
  | .integer v => .ok (encodeLong v)
  | .float x => encodeFloat x

/-- Checks that the bytes are as many as the flags announce. -/
def checkLength (flags : UInt16) (b : Bytes) : Except WriteError Unit :=
  if b.length = valueLen flags then .ok ()
  else .error (.invalidValue (.lengthMismatch flags (valueLen flags) b.length))

/-- Reads a stored integer. -/
def decodeLong (flags : UInt16) (b : Bytes) : Except WriteError Int := do
  if !flagsInteger flags then throw (.typeMismatch 0 .long)
  checkLength flags b
  if b.length ∈ [1, 2, 4, 8] then pure (Bytes.toIntBE b)
  else throw (.invalidValue (.integerWidth b.length))

/-- Reads a stored float as a double: 4 bytes are a single, widened; 8 bytes a double. -/
def decodeFloat (flags : UInt16) (b : Bytes) : Except WriteError Binary64 := do
  if flagsInteger flags then throw (.typeMismatch 0 .float)
  checkLength flags b
  if b.length = 4 then pure (Binary32.widen ⟨(Bytes.toNatBE b).toUInt32⟩)
  else if b.length = 8 then pure ⟨(Bytes.toNatBE b).toUInt64⟩
  else throw (.invalidValue (.floatWidth b.length))

/-- Reads a stored value; a double is narrowed to the nearest single. -/
def decodeValue (flags : UInt16) (b : Bytes) : Except WriteError DataValue :=
  if flagsInteger flags then (decodeLong flags b).map .integer
  else (decodeFloat flags b).map fun d => .float d.narrow

end SeriesIngest
