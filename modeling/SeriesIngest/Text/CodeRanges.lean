/-!
# Sets of code points as sorted ranges

A `CodeRanges` is an array of closed intervals of code points, sorted and disjoint. It stands
for a character property of the Unicode standard; `contains` decides membership by binary
search, and `Mem` says the same thing as a plain existential.
-/

namespace SeriesIngest.Text

/-- Closed intervals `(lo, hi)` of code points, sorted and pairwise disjoint. -/
structure CodeRanges where
  ranges : Array (Nat × Nat)

namespace CodeRanges

/-- Binary search for `c` among the intervals with index in `[lo, hi)`. -/
def search (rs : Array (Nat × Nat)) (c : Nat) (lo hi : Nat) : Bool :=
  if lo < hi then
    match rs[(lo + hi) / 2]? with
    | some (a, b) =>
      if c < a then search rs c lo ((lo + hi) / 2)
      else if b < c then search rs c ((lo + hi) / 2 + 1) hi
      else true
    | none => false
  else false
termination_by hi - lo

/-- Whether a character lies in one of the intervals. -/
def contains (s : CodeRanges) (c : Char) : Bool :=
  search s.ranges c.toNat 0 s.ranges.size

/-- A character belongs to the set when some interval holds its code point. -/
def Mem (s : CodeRanges) (c : Char) : Prop :=
  ∃ r ∈ s.ranges.toList, r.1 ≤ c.toNat ∧ c.toNat ≤ r.2

end CodeRanges

end SeriesIngest.Text
