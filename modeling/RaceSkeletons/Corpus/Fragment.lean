import RaceSkeletons.Path.Basic
import RaceSkeletons.Text.Blank
import RaceSkeletons.Text.Lines

/-!
# Fragments and cases

A corpus holds one directory per candidate race. A *case* is such a
directory with exactly two *fragments*, the two sides of the race.
-/

namespace RaceSkeletons

def headerKeyword : String := "package"

def lineComment : List Char := ['/', '/']

/-- Whether `part` stands somewhere in a text. -/
def occursIn (part : List Char) : List Char → Bool
  | [] => part.isEmpty
  | c :: rest => part.isPrefixOf (c :: rest) || occursIn part rest

/-- Figures of one fragment that the report carries along. -/
structure FragmentStats where
  size : Nat := 0
  lineCount : Nat := 0
  hasPackage : Bool := false
  hasComments : Bool := false
  deriving Repr, DecidableEq, Inhabited

/-- Whether a line, trimmed, starts with the keyword and a space. -/
def declaresPackage (line : List Char) : Bool :=
  (headerKeyword.toList ++ [' ']).isPrefixOf (Text.trim line)

/-- The figures of a fragment of the given size and text. -/
def FragmentStats.ofContent (size : Nat) (content : String) : FragmentStats :=
  let lines := Text.lines content.toList
  { size
    lineCount := lines.length
    hasPackage := lines.any declaresPackage
    hasComments := lines.any (occursIn lineComment) }

/-- One side of a candidate race. -/
structure Fragment where
  path : Path
  name : String
  content : String
  stats : FragmentStats
  deriving Repr, DecidableEq, Inhabited

/-- A directory with its two fragments, in the order of their names. -/
structure Case where
  id : String
  dir : Path
  first : Fragment
  second : Fragment
  deriving Repr, DecidableEq, Inhabited

/-- Both fragments, first before second. -/
def Case.fragments (c : Case) : List Fragment :=
  [c.first, c.second]

end RaceSkeletons
