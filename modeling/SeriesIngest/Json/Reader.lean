import SeriesIngest.Float.Word
import SeriesIngest.Text.Escape

/-!
# Reading JSON text with positions

A cursor over the bytes of a JSON text, and the readers of its parts: blanks, literal words,
strings and numbers. A fault carries its message and the byte index it is reported at; its
text adds the line (counted from 1) and the column (the bytes since the line's start) of that
index. A fault found on looking at the next byte is reported one byte further on, counting that
byte, than one found after consuming.

Numbers keep their kind: an unsigned integer that fits 64 bits, a negative integer that fits
64 bits, or a double for anything else (with a fraction, an exponent, a minus zero, or too many
digits).
-/

namespace SeriesIngest.Json

/-- A JSON fault: its message and the byte index it is reported at. -/
structure Fault where
  message : String
  index : Nat
  deriving Repr, DecidableEq

/-- Line (from 1) and column (bytes since the line start) of a byte index. -/
def lineColumn (text : Array UInt8) (i : Nat) : Nat × Nat :=
  (text.toList.take i).foldl (fun (l, c) (b : UInt8) => if b = 10 then (l + 1, 0) else (l, c + 1)) (1, 0)

/-- `message at line L column C`. -/
def Fault.text (text : Array UInt8) (f : Fault) : String :=
  let (l, c) := lineColumn text f.index
  f.message ++ " at line " ++ toString l ++ " column " ++ toString c

/-- A reader over a text: it reads at a byte index and gives the new index. -/
abbrev Reader (α : Type) := Array UInt8 → Nat → Except Fault (α × Nat)

/-- A fault at the index. -/
def failAt {α : Type} (msg : String) (i : Nat) : Except Fault α := .error ⟨msg, i⟩

/-- A fault on the byte after the index, as found by looking at it. -/
def failPeek {α : Type} (t : Array UInt8) (msg : String) (i : Nat) : Except Fault α :=
  .error ⟨msg, min t.size (i + 1)⟩

/-- The first index at or after `i` that is not a blank (space, tab, line feed, return). -/
def skipBlanks (t : Array UInt8) (i : Nat) : Nat :=
  if h : i < t.size then
    let b := t[i]
    if b = 32 ∨ b = 9 ∨ b = 10 ∨ b = 13 then skipBlanks t (i + 1) else i
  else i
termination_by t.size - i

/-- Reads the expected bytes of a literal word. -/
def expectWord (t : Array UInt8) : List UInt8 → Nat → Except Fault Nat
  | [], i => .ok i
  | c :: cs, i =>
    match t[i]? with
    | none => failAt "EOF while parsing a value" i
    | some b => if b = c then expectWord t cs (i + 1) else failAt "expected ident" (i + 1)

/-- The value of a hexadecimal digit. -/
def hexValue (b : UInt8) : Option Nat :=
  if 48 ≤ b ∧ b ≤ 57 then some (b.toNat - 48)
  else if 97 ≤ b ∧ b ≤ 102 then some (b.toNat - 87)
  else if 65 ≤ b ∧ b ≤ 70 then some (b.toNat - 55)
  else none

/-- Reads the four hexadecimal digits of a `\u` escape. -/
def readHex4 (t : Array UInt8) (i : Nat) : Except Fault (Nat × Nat) :=
  if i + 4 ≤ t.size then
    let ds := [t[i]!, t[i + 1]!, t[i + 2]!, t[i + 3]!].map hexValue
    match ds with
    | [some a, some b, some c, some d] => .ok (((a * 16 + b) * 16 + c) * 16 + d, i + 4)
    | _ => failAt "invalid escape" (i + 4)
  else failAt "EOF while parsing a string" t.size

/-- The UTF-8 bytes of a code point. -/
def utf8Of (n : Nat) : List UInt8 := (String.singleton (Char.ofNat n)).toUTF8.toList

/-- Reads a `\u` escape after the `u`, pairing surrogates. -/
def readUnicodeEscape (t : Array UInt8) (i : Nat) : Except Fault (List UInt8 × Nat) := do
  let (n, i) ← readHex4 t i
  if 0xDC00 ≤ n ∧ n ≤ 0xDFFF then failAt "lone leading surrogate in hex escape" i
  else if 0xD800 ≤ n ∧ n ≤ 0xDBFF then
    match t[i]?, t[i + 1]? with
    | some 92, some 117 =>
      let (n2, j) ← readHex4 t (i + 2)
      if n2 < 0xDC00 ∨ n2 > 0xDFFF then failAt "lone leading surrogate in hex escape" j
      else pure (utf8Of ((n - 0xD800) * 1024 + (n2 - 0xDC00) + 0x10000), j)
    | none, _ => failAt "EOF while parsing a string" i
    | some 92, none => failAt "EOF while parsing a string" (i + 1)
    | some 92, some _ => failAt "unexpected end of hex escape" (i + 2)
    | some _, _ => failAt "unexpected end of hex escape" (i + 1)
  else pure (utf8Of n, i)

/-- Reads the rest of a string after its opening quote, collecting its bytes reversed. -/
def readStringBody (t : Array UInt8) (acc : List UInt8) (i : Nat) : Except Fault (List UInt8 × Nat) :=
  if h : i < t.size then
    let b := t[i]
    if b = 34 then .ok (acc.reverse, i + 1)
    else if b = 92 then
      match t[i + 1]? with
      | none => failAt "EOF while parsing a string" (i + 1)
      | some e =>
        let simple : Option UInt8 :=
          if e = 34 then some 34 else if e = 92 then some 92 else if e = 47 then some 47
          else if e = 98 then some 8 else if e = 102 then some 12 else if e = 110 then some 10
          else if e = 114 then some 13 else if e = 116 then some 9 else none
        match simple with
        | some c => readStringBody t (c :: acc) (i + 2)
        | none =>
          if e = 117 then
            match readUnicodeEscape t (i + 2) with
            | .error f => .error f
            | .ok (bs, j) => if j > i then readStringBody t (bs.reverse ++ acc) j else .ok (acc.reverse, j)
          else failAt "invalid escape" (i + 2)
    else if b < 32 then failAt "control character (\\u0000-\\u001F) found while parsing a string" (i + 1)
    else readStringBody t (b :: acc) (i + 1)
  else failAt "EOF while parsing a string" t.size
termination_by t.size - i
decreasing_by all_goals omega

/-- Reads a string after its opening quote. -/
def readString (t : Array UInt8) (i : Nat) : Except Fault (String × Nat) := do
  let (bs, j) ← readStringBody t [] i
  pure ((String.fromUTF8? (ByteArray.mk bs.toArray)).getD "", j)

/-- A number as read. -/
inductive Number where
  | unsigned (n : Nat)
  | negative (n : Int)
  | double (x : Float.Binary64)
  deriving Repr, DecidableEq

/-- Whether a byte is a decimal digit. -/
def isDigit (b : UInt8) : Bool := 48 ≤ b && b ≤ 57

/-- The index after the decimal digits from `i`. -/
def digitsEnd (t : Array UInt8) (i : Nat) : Nat :=
  if h : i < t.size then (if isDigit t[i] then digitsEnd t (i + 1) else i) else i
termination_by t.size - i

/-- The digits of `t` from `i` to `j` as a number. -/
def digitsValue (t : Array UInt8) (i j : Nat) : Nat :=
  ((t.extract i j).toList).foldl (fun n b => n * 10 + (b.toNat - 48)) 0

/-- The significand digits kept: as many leading ones as fit 64 bits; the others are dropped,
each raising the exponent when it stands before the point. -/
def keepDigits (t : Array UInt8) (i j : Nat) (acc : Nat) (dropped : Nat) : Nat × Nat :=
  if h : i < j ∧ i < t.size then
    let d := t[i].toNat - 48
    if acc * 10 + d ≤ Nat.pow 2 64 - 1 ∧ dropped = 0 then keepDigits t (i + 1) j (acc * 10 + d) 0
    else keepDigits t (i + 1) j acc (dropped + 1)
  else (acc, dropped)
termination_by j - i

/-- A double from significand digits and a decimal exponent, or a fault when it is infinite. -/
def doubleOf (neg : Bool) (sig : Nat) (exp : Int) (i : Nat) : Except Fault Float.Binary64 :=
  let bits := Float.BinaryFormat.double.ofDecimal neg sig exp
  let x : Float.Binary64 := ⟨bits.toUInt64⟩
  match x.unpack with
  | .inf _ => failAt "number out of range" i
  | _ => .ok x

/-- Reads a number from its first digit (after any minus sign, `neg`). -/
def readNumber (t : Array UInt8) (neg : Bool) (i : Nat) : Except Fault (Number × Nat) :=
  match t[i]? with
  | none => failAt "EOF while parsing a value" i
  | some b =>
    if !isDigit b then failAt "invalid number" (i + 1)
    else
      let whole := if b = 48 then i + 1 else digitsEnd t i
      if b = 48 ∧ (t[i + 1]?.map isDigit).getD false then failPeek t "invalid number" (i + 1)
      else
        let (sig, dropped) := keepDigits t i whole 0 0
        let fracPart : Except Fault (Nat × Nat × Nat × Bool) :=
          if t[whole]? = some 46 then
            let fEnd := digitsEnd t (whole + 1)
            if fEnd = whole + 1 then
              if whole + 1 < t.size then failPeek t "invalid number" (whole + 1)
              else failPeek t "EOF while parsing a value" (whole + 1)
            else
              let (sig', dropped') := keepDigits t (whole + 1) fEnd sig dropped
              -- digits kept after the point lower the exponent
              .ok (sig', fEnd, (fEnd - (whole + 1)) - (dropped' - dropped), true)
          else .ok (sig, whole, 0, false)
        match fracPart with
        | .error f => .error f
        | .ok (sig, j, fracKept, hasFrac) =>
          let exponent : Except Fault (Int × Nat × Bool) :=
            match t[j]? with
            | some 101 | some 69 =>
              let (eneg, k) := match t[j + 1]? with
                | some 45 => (true, j + 2)
                | some 43 => (false, j + 2)
                | _ => (false, j + 1)
              match t[k]? with
              | none => failAt "EOF while parsing a value" k
              | some c =>
                if !isDigit c then failAt "invalid number" (k + 1)
                else
                  let kEnd := digitsEnd t k
                  let v : Int := digitsValue t k kEnd
                  .ok (if eneg then -v else v, kEnd, true)
            | _ => .ok (0, j, false)
          match exponent with
          | .error f => .error f
          | .ok (e, k, hasExp) =>
            let exp10 : Int := e + dropped - fracKept
            if !hasFrac ∧ !hasExp ∧ dropped = 0 then
              if !neg then .ok (.unsigned sig, k)
              else if sig = 0 then .ok (.double ⟨(Float.BinaryFormat.double.round true 0 1).toUInt64⟩, k)
              else if sig ≤ Nat.pow 2 63 then .ok (.negative (-(sig : Int)), k)
              else (doubleOf neg sig 0 k).map fun x => (.double x, k)
            else (doubleOf neg sig exp10 k).map fun x => (.double x, k)

/-- Reads a number at `i`, which holds a digit or a minus sign. -/
def readNumberAt (t : Array UInt8) (i : Nat) : Except Fault (Number × Nat) :=
  if t[i]? = some 45 then readNumber t true (i + 1) else readNumber t false i

/-- The text of a double in a type fault. -/
def doubleText (x : Float.Binary64) : String := x.compactText

/-- How a value that is not of the expected type is named in a fault. -/
def Number.unexpected : Number → String
  | .unsigned n => "integer `" ++ toString n ++ "`"
  | .negative n => "integer `" ++ toString n ++ "`"
  | .double x => "floating point `" ++ doubleText x ++ "`"

end SeriesIngest.Json
