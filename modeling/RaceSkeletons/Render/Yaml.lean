import RaceSkeletons.Render.Document
import RaceSkeletons.Render.YamlScalar

/-!
# YAML text

Documents as YAML in block form: one line per member, two columns per
level. The items of a list stand at the column of its key. Empty lists and
records are written with brackets.
-/

namespace RaceSkeletons.Yaml

/-- The text with its last line ended. -/
def endLine (s : List Char) : List Char :=
  if s.getLast?.any isBreak then s else s ++ ['\n']

/-- The longest key that is written on the line of its value, in bytes. -/
def maxKeyBytes : Nat := 128

def isSimpleKey (key : String) : Bool :=
  key.utf8ByteSize ≤ maxKeyBytes && !key.toList.any isBreak

/-- A key with the colon behind it. -/
def keyText (indent : Nat) (key : String) : List Char :=
  if isSimpleKey key then pad indent ++ scalar (indent + 2) key.toList ++ [':']
  else
    endLine (pad indent ++ '?' :: ' ' :: scalar (indent + 2) key.toList) ++ pad indent ++ [':']

mutual

/-- The lines of a member's value, from the place behind the colon on. -/
def memberValue (indent : Nat) : Document → List Char
  | .bool b => ' ' :: endLine (toString b).toList
  | .number n => ' ' :: endLine (toString n).toList
  | .text s => ' ' :: endLine (scalar (indent + 2) s.toList)
  | .list [] => " []\n".toList
  | .list (item :: rest) => '\n' :: items indent (item :: rest)
  | .record [] => " \x7b\x7d\n".toList
  | .record (m :: rest) => '\n' :: members (indent + 2) (m :: rest)

/-- The lines of an item, from the place behind its dash on. -/
def itemValue (indent : Nat) : Document → List Char
  | .bool b => ' ' :: endLine (toString b).toList
  | .number n => ' ' :: endLine (toString n).toList
  | .text s => ' ' :: endLine (scalar (indent + 2) s.toList)
  | .list [] => " []\n".toList
  | .list (item :: rest) => ' ' :: (items (indent + 2) (item :: rest)).drop (indent + 2)
  | .record [] => " \x7b\x7d\n".toList
  | .record (m :: rest) => ' ' :: (members (indent + 2) (m :: rest)).drop (indent + 2)

def items (indent : Nat) : List Document → List Char
  | [] => []
  | item :: rest => pad indent ++ '-' :: itemValue indent item ++ items indent rest

def members (indent : Nat) : List (String × Document) → List Char
  | [] => []
  | (key, value) :: rest =>
    keyText indent key ++ memberValue indent value ++ members indent rest

end

/-- A document as YAML text. -/
def render : Document → String
  | .record [] => "\x7b\x7d\n"
  | .record (m :: rest) => String.ofList (members 0 (m :: rest))
  | .list [] => "[]\n"
  | .list (item :: rest) => String.ofList (items 0 (item :: rest))
  | d => String.ofList ((memberValue 0 d).drop 1)

end RaceSkeletons.Yaml
