import RaceSkeletons.Text.CaseTable

/-!
# Lower case

Full lower-casing of a text: every character maps by the case table, with
two exceptions that the standard makes. `İ` becomes two characters, and a
capital sigma becomes the final form `ς` at the end of a word.
-/

namespace RaceSkeletons.Text

/-- The image of a code point under the simple lower-case mapping. -/
def lowerCode (n : Nat) : Nat :=
  match lowerRuns.find? fun (first, last, step, _) =>
      first ≤ n && n ≤ last && (n - first) % step == 0 with
  | some (first, _, _, image) => image + (n - first)
  | none => n

/-- Lower case of a character outside any context. -/
def lowerChar (c : Char) : List Char :=
  if c.toNat < 128 then [c.toLower]
  else if c = '\u0130' then ['i', '\u0307']
  else [Char.ofNat (lowerCode c.toNat)]

/-- Whether the first character that is not skipped has case. -/
def reachesCased (s : List Char) : Bool :=
  match s.dropWhile caseIgnorableRanges.contains with
  | [] => false
  | c :: _ => casedRanges.contains c

/-- Lower case of a capital sigma: the final form when it ends a word.
`before` is the text before it, nearest character first. -/
def lowerSigma (before after : List Char) : Char :=
  if reachesCased before && !reachesCased after then '\u03c2' else '\u03c3'

/-- Lower case of a text whose preceding text, reversed, is `before`. -/
def lowerFrom (before : List Char) : List Char → List Char
  | [] => []
  | c :: rest =>
    (if c = '\u03a3' then [lowerSigma before rest] else lowerChar c) ++
      lowerFrom (c :: before) rest

def lower (s : List Char) : List Char :=
  lowerFrom [] s

/-- `lower` on strings. -/
def lowered (s : String) : String :=
  String.ofList (lower s.toList)

end RaceSkeletons.Text
