import RaceSkeletons.Render.Document

/-!
# JSON text

Documents as JSON, laid out over lines with two blanks per level, or without
any blanks. Empty lists and records take no lines of their own, and
characters beyond ASCII are written as they are.
-/

namespace RaceSkeletons.Json

def hexDigit (n : Nat) : Char :=
  Nat.digitChar n

def escapeChar (c : Char) : List Char :=
  if c = '"' then ['\\', '"']
  else if c = '\\' then ['\\', '\\']
  else if c = '\n' then ['\\', 'n']
  else if c = '\r' then ['\\', 'r']
  else if c = '\t' then ['\\', 't']
  else if c = '\x08' then ['\\', 'b']
  else if c = '\x0c' then ['\\', 'f']
  else if c.toNat < 32 then
    ['\\', 'u', '0', '0', hexDigit (c.toNat / 16), hexDigit (c.toNat % 16)]
  else [c]

def string (s : String) : String :=
  String.ofList ('"' :: s.toList.flatMap escapeChar ++ ['"'])

/-- What is written between the tokens of a document. -/
structure Layout where
  /-- The start of a line at some level. -/
  newline : (level : Nat) → String
  /-- What separates a key from its member. -/
  colon : String

/-- Over lines. -/
def Layout.lines : Layout where
  newline level := String.ofList ('\n' :: List.replicate (2 * level) ' ')
  colon := ": "

/-- Without blanks. -/
def Layout.compact : Layout where
  newline _ := ""
  colon := ":"

mutual

/-- The text of a document whose first line stands at some level. -/
def value (layout : Layout) (level : Nat) : Document → String
  | .bool b => toString b
  | .number n => toString n
  | .text s => string s
  | .list [] => "[]"
  | .list (item :: items) =>
    "[" ++ layout.newline (level + 1) ++ value layout (level + 1) item ++
      rest layout (level + 1) items ++ layout.newline level ++ "]"
  | .record [] => "\x7b\x7d"
  | .record ((key, member) :: members) =>
    "\x7b" ++ layout.newline (level + 1) ++ string key ++ layout.colon ++
      value layout (level + 1) member ++ restMembers layout (level + 1) members ++
      layout.newline level ++ "\x7d"

/-- The text of the items behind the first one. -/
def rest (layout : Layout) (level : Nat) : List Document → String
  | [] => ""
  | item :: items =>
    "," ++ layout.newline level ++ value layout level item ++ rest layout level items

/-- The text of the members behind the first one. -/
def restMembers (layout : Layout) (level : Nat) : List (String × Document) → String
  | [] => ""
  | (key, member) :: members =>
    "," ++ layout.newline level ++ string key ++ layout.colon ++ value layout level member ++
      restMembers layout level members

end

/-- A document as JSON text over lines. -/
def render (d : Document) : String :=
  value .lines 0 d

/-- A document as JSON text without blanks. -/
def renderCompact (d : Document) : String :=
  value .compact 0 d

end RaceSkeletons.Json
