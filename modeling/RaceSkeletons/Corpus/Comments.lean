import RaceSkeletons.Corpus.Fragment

/-!
# Line comments and package headers

Normalization removes line comments and makes sure that a fragment starts
with a package header. Both work on the text alone: a comment is whatever
follows `//` on its line, even inside a string literal.
-/

namespace RaceSkeletons

/-- Removes every `//` with the rest of its line. `inside` says whether the
text starts within a comment. -/
def stripFrom : (inside : Bool) → List Char → List Char
  | _, [] => []
  | true, c :: rest => if c = '\n' then c :: stripFrom false rest else stripFrom true rest
  | false, [c] => [c]
  | false, c :: d :: rest =>
    if c = '/' ∧ d = '/' then stripFrom true (d :: rest)
    else c :: stripFrom false (d :: rest)

/-- The text without its line comments; line feeds stay. -/
def stripComments (content : String) : String :=
  String.ofList (stripFrom false content.toList)

/-- Whether the first line, trimmed, starts with the header keyword. -/
def hasHeader (content : String) : Bool :=
  match Text.lines content.toList with
  | [] => false
  | line :: _ => headerKeyword.toList.isPrefixOf (Text.trim line)

/-- The header given to a fragment that has none. -/
def defaultHeader : String := "package main\n\n"

/-- The text with a header in front, unless it has one. -/
def insertHeader (content : String) : String :=
  if hasHeader content then content else defaultHeader ++ content

end RaceSkeletons
