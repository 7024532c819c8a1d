/-!
# Sets of code points

The character classes of this library (word characters, digits, printable
characters, ...) are given by tables of code point ranges. This module
holds the membership test that all of them share.
-/

namespace RaceSkeletons

/-- A set of code points, written as closed ranges. -/
abbrev CodeRanges := List (Nat × Nat)

/-- Whether some range of the table covers `c`. -/
def CodeRanges.contains (ranges : CodeRanges) (c : Char) : Bool :=
  ranges.any fun range => range.1 ≤ c.toNat && c.toNat ≤ range.2

theorem CodeRanges.contains_iff (ranges : CodeRanges) (c : Char) :
    ranges.contains c = true ↔
      ∃ range ∈ ranges, range.1 ≤ c.toNat ∧ c.toNat ≤ range.2 := by
  simp [CodeRanges.contains]

end RaceSkeletons
