import SeriesIngest.Text.Printable

/-!
# Quoted characters and strings

How a character or a string is written between quotes so that it can be read back: the NUL,
tab, carriage return and line feed characters, the backslash and the quote in use take a
backslash escape; a character that extends the grapheme before it, or that has no visible form,
is written `\u{hex}` with lowercase hexadecimal digits; every other character stands for itself.
A character is quoted with `'`, which is then escaped, and a string with `"`.
-/

namespace SeriesIngest.Text

/-- Lowercase hexadecimal digits of a natural number, without leading zeros. -/
def hexDigits (n : Nat) : String :=
  String.ofList (Nat.toDigits 16 n)

/-- The escape `\u{hex}` of a code point. -/
def unicodeEscape (c : Char) : String :=
  "\\u" ++ "\x7b" ++ hexDigits c.toNat ++ "\x7d"

/-- The text of one character inside a literal quoted with `quote`. -/
def escapeIn (quote : Char) (c : Char) : String :=
  if c = '\x00' then "\\0"
  else if c = '\t' then "\\t"
  else if c = '\r' then "\\r"
  else if c = '\n' then "\\n"
  else if c = '\\' then "\\\\"
  else if c = quote then String.ofList ['\\', quote]
  else if isGraphemeExtend c then unicodeEscape c
  else if isPrintable c then String.singleton c
  else unicodeEscape c

/-- A character between single quotes: `'a'`, `'\''`, `'\u{200b}'`. -/
def charLiteral (c : Char) : String :=
  "'" ++ escapeIn '\'' c ++ "'"

/-- A string between double quotes, each character escaped as in `escapeIn`. -/
def stringLiteral (s : String) : String :=
  "\"" ++ String.join (s.toList.map (escapeIn '"')) ++ "\""

/-- One character of a log message as the log sink writes it: the escape, bell, backspace,
form feed and delete characters as `\x` and two hexadecimal digits, the C1 controls
(U+0080 to U+009F) as `\u{hex}`, and every other character as itself, so that a message cannot
drive the terminal it is shown on. -/
def logChar (c : Char) : String :=
  let n := c.toNat
  if n = 0x1b ∨ n = 0x07 ∨ n = 0x08 ∨ n = 0x0c ∨ n = 0x7f then
    "\\x" ++ (if n < 16 then "0" else "") ++ hexDigits n
  else if 0x80 ≤ n ∧ n ≤ 0x9f then unicodeEscape c
  else c.toString

/-- A log message as the log sink writes it (`logChar`). -/
def logText (s : String) : String := String.join (s.toList.map logChar)

end SeriesIngest.Text
