import RaceSkeletons.Text.EscapeTable

/-!
# Quoted text

Diagnostics show a text between double quotes, with every character that
a reader could not see spelled by an escape: `\n` and its like for the
common controls, and `\u` with the code point in braces for the rest.
-/

namespace RaceSkeletons.Text

def hexDigits (n : Nat) : List Char :=
  Nat.toDigits 16 n

/-- Whether quoted text spells `c` by its code point. -/
def isEscaped (c : Char) : Bool :=
  c.toNat < 32 || (127 ≤ c.toNat && escapedRanges.contains c)

/-- How quoted text shows one character. -/
def quoteChar (c : Char) : List Char :=
  if c = '\x00' then ['\\', '0']
  else if c = '\t' then ['\\', 't']
  else if c = '\n' then ['\\', 'n']
  else if c = '\r' then ['\\', 'r']
  else if c = '"' then ['\\', '"']
  else if c = '\\' then ['\\', '\\']
  else if isEscaped c then ['\\', 'u', '\x7b'] ++ hexDigits c.toNat ++ ['\x7d']
  else [c]

/-- The text between double quotes. -/
def quoted (s : String) : String :=
  String.ofList ('"' :: s.toList.flatMap quoteChar ++ ['"'])

end RaceSkeletons.Text
