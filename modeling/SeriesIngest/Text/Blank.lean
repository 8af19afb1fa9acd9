/-!
# Blank characters

The characters with the Unicode property `White_Space`: the ASCII tab, line feed, vertical tab,
form feed, carriage return and space, the next-line control, the no-break space, the Ogham space
mark, the typographic spaces U+2000 to U+200A, the line and paragraph separators, the narrow
no-break space, the medium mathematical space and the ideographic space. Import lines are
trimmed of them and split at them.
-/

namespace SeriesIngest.Text

/-- Whether a character has the Unicode property `White_Space`. -/
def isBlank (c : Char) : Bool :=
  let n := c.toNat
  (0x09 ≤ n && n ≤ 0x0D) || n == 0x20 || n == 0x85 || n == 0xA0 || n == 0x1680 ||
    (0x2000 ≤ n && n ≤ 0x200A) || n == 0x2028 || n == 0x2029 || n == 0x202F || n == 0x205F ||
    n == 0x3000

/-- Every character that core calls whitespace is blank. -/
theorem isBlank_of_isWhitespace (c : Char) (h : c.isWhitespace = true) : isBlank c = true := by
  simp only [Char.isWhitespace, Bool.or_eq_true, decide_eq_true_eq] at h
  simp only [isBlank, Bool.or_eq_true, Bool.and_eq_true, decide_eq_true_eq, beq_iff_eq]
  rcases h with ((h | h) | h) | h <;> subst h <;> decide

/-- Removes blank characters from both ends. -/
def trimBlank (s : String) : String :=
  String.ofList ((s.toList.dropWhile isBlank).reverse.dropWhile isBlank).reverse

/-- The words of a character list: `cur` holds the word being read, reversed. -/
def blankWordsAux : List Char → List Char → List (List Char)
  | [], cur => if cur.isEmpty then [] else [cur.reverse]
  | c :: cs, cur =>
    if isBlank c then
      if cur.isEmpty then blankWordsAux cs [] else cur.reverse :: blankWordsAux cs []
    else blankWordsAux cs (c :: cur)

/-- The maximal runs of non-blank characters, in order. -/
def blankWords (s : String) : List String :=
  (blankWordsAux s.toList []).map String.ofList

end SeriesIngest.Text
