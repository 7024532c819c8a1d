import RaceSkeletons.Text.WordTable
import RaceSkeletons.Text.DigitTable

/-!
# Word characters and digits

Words are runs of word characters in the Unicode sense, so `é` continues a
word, and an Arabic-Indic digit is a digit.
-/

namespace RaceSkeletons.Text

/-- Whether `c` is an ASCII letter, an ASCII digit or the underscore. -/
def isIdentifierChar (c : Char) : Bool :=
  c.isAlphanum || c == '_'

/-- Whether `c` belongs to a word. -/
def isWordChar (c : Char) : Bool :=
  if c.toNat < 128 then isIdentifierChar c else wordRanges.contains c

/-- Whether `c` is a decimal digit of some script. -/
def isDecimalDigit (c : Char) : Bool :=
  if c.toNat < 128 then c.isDigit else digitRanges.contains c

end RaceSkeletons.Text
