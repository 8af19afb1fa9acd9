/-!
# Byte strings

Row keys, column names and cell values are byte strings. This module gives their lowercase
hexadecimal text, their text as a list of decimal numbers, and the big-endian reading and
writing of unsigned numbers of a fixed width.
-/

namespace SeriesIngest

/-- A byte string. -/
abbrev Bytes := List UInt8

namespace Bytes

/-- The lowercase hexadecimal digit of a number below 16. -/
def hexDigit (n : Nat) : Char :=
  if n < 10 then Char.ofNat (48 + n) else Char.ofNat (87 + n)

/-- Two lowercase hexadecimal digits of a byte. -/
def byteHex (x : UInt8) : String :=
  String.ofList [hexDigit (x.toNat / 16), hexDigit (x.toNat % 16)]

/-- Lowercase hexadecimal text, two digits a byte: `[255, 0]` is `ff00`. -/
def hex (b : Bytes) : String :=
  String.join (b.map byteHex)

/-- The bytes as a bracketed list of decimal numbers: `[255, 0]`. -/
def listText (b : Bytes) : String :=
  "[" ++ ", ".intercalate (b.map fun x => toString x.toNat) ++ "]"

/-- The `w` lowest bytes of `n`, most significant first. -/
def ofNatBE : Nat → Nat → Bytes
  | 0, _ => []
  | w + 1, n => UInt8.ofNat (n / Nat.pow 256 w % 256) :: ofNatBE w n

/-- The unsigned number whose big-endian bytes these are. -/
def toNatBE (b : Bytes) : Nat :=
  b.foldl (fun acc x => acc * 256 + x.toNat) 0

/-- The signed number whose two's-complement big-endian bytes these are. -/
def toIntBE (b : Bytes) : Int :=
  let n := toNatBE b
  if b.length > 0 ∧ n ≥ Nat.pow 2 (8 * b.length - 1) then (n : Int) - Int.pow 2 (8 * b.length) else n

/-- The `w`-byte two's-complement big-endian encoding of `v`. -/
def ofIntBE (w : Nat) (v : Int) : Bytes :=
  ofNatBE w (v % Int.pow 2 (8 * w)).toNat

@[simp] theorem length_ofNatBE (w n : Nat) : (ofNatBE w n).length = w := by
  induction w with
  | zero => rfl
  | succ w ih => simp [ofNatBE, ih]

/-- The text as UTF-8 bytes. -/
def ofString (s : String) : Bytes := s.toUTF8.toList

/-- The text that the bytes encode as UTF-8, or else the bracketed list of their values. -/
def lossyText (b : Bytes) : String :=
  match String.fromUTF8? (ByteArray.mk b.toArray) with
  | some s => s
  | none => listText b

end Bytes

end SeriesIngest
