import RaceSkeletons.Text.CodeRanges

/-!
# White space

White space is the Unicode property of that name, not the ASCII blanks
alone: a no-break space or an ideographic space around a message is
trimmed like any other.
-/

namespace RaceSkeletons.Text

/-- The code points with the white-space property. -/
def blankRanges : CodeRanges := [
  (0x9, 0xd), (0x20, 0x20), (0x85, 0x85), (0xa0, 0xa0), (0x1680, 0x1680),
  (0x2000, 0x200a), (0x2028, 0x2029), (0x202f, 0x202f), (0x205f, 0x205f),
  (0x3000, 0x3000)]

/-- Whether `c` is white space. -/
def isBlank (c : Char) : Bool :=
  blankRanges.contains c

theorem isBlank_newline : isBlank '\n' = true := by decide

def trimStart (s : List Char) : List Char :=
  s.dropWhile isBlank

def trimEnd (s : List Char) : List Char :=
  (s.reverse.dropWhile isBlank).reverse

def trim (s : List Char) : List Char :=
  trimEnd (trimStart s)

/-- `trim` on strings. -/
def trimmed (s : String) : String :=
  String.ofList (trim s.toList)

/-- Whether a text holds nothing but white space. -/
def allBlank (s : String) : Bool :=
  s.toList.all isBlank

end RaceSkeletons.Text
