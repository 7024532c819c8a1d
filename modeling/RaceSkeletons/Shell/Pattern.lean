/-!
# Shell patterns

Patterns of a choice: `*` stands for any text, `?` for any character, and
brackets for one character of a set. A quoted character stands for itself.
-/

namespace RaceSkeletons.Shell

/-- A set of characters: single ones and ranges. -/
structure CharSet where
  negated : Bool
  ranges : List (Char × Char)
  deriving Repr, DecidableEq

def CharSet.contains (s : CharSet) (c : Char) : Bool :=
  s.ranges.any (fun r => r.1 ≤ c && c ≤ r.2) != s.negated

/-- One piece of a pattern. -/
inductive PatternPiece where
  | exactly (c : Char)
  | anyChar
  | anyText
  | oneOf (s : CharSet)
  deriving Repr, DecidableEq

def namedClass : String → List (Char × Char)
  | "digit" => [('0', '9')]
  | "alpha" => [('a', 'z'), ('A', 'Z')]
  | "alnum" => [('0', '9'), ('a', 'z'), ('A', 'Z')]
  | "upper" => [('A', 'Z')]
  | "lower" => [('a', 'z')]
  | "space" => [(' ', ' '), ('\t', '\r')]
  | "blank" => [(' ', ' '), ('\t', '\t')]
  | "xdigit" => [('0', '9'), ('a', 'f'), ('A', 'F')]
  | "punct" => [('!', '/'), (':', '@'), ('[', '\u0060'), ('\x7b', '~')]
  | "print" => [(' ', '~')]
  | "graph" => [('!', '~')]
  | "cntrl" => [('\x00', '\x1f'), ('\x7f', '\x7f')]
  | _ => []

/-- Reads the inside of a set, up to and with its closing bracket. A bracket
at the start belongs to the set. -/
def readSetInside (first : Bool) :
    (fuel : Nat) → List Char → Option (List (Char × Char) × List Char)
  | 0, _ => none
  | _ + 1, [] => none
  | fuel + 1, c :: rest =>
    if c = ']' ∧ first = false then some ([], rest)
    else if c = '[' ∧ rest.head? = some ':' then
      let name := (rest.drop 1).takeWhile (· != ':')
      let after := ((rest.drop 1).dropWhile (· != ':')).drop 2
      (readSetInside false fuel after).map fun (ranges, final) =>
        (namedClass (String.ofList name) ++ ranges, final)
    else
      match rest with
      | '-' :: d :: more =>
        if d = ']' then
          (readSetInside false fuel rest).map fun (ranges, final) => ((c, c) :: ranges, final)
        else (readSetInside false fuel more).map fun (ranges, final) => ((c, d) :: ranges, final)
      | _ => (readSetInside false fuel rest).map fun (ranges, final) => ((c, c) :: ranges, final)

/-- Reads a set behind its opening bracket. -/
def readSet? (s : List Char) : Option (CharSet × List Char) :=
  match s with
  | '!' :: rest =>
    (readSetInside true (rest.length + 1) rest).map fun (r, final) => (⟨true, r⟩, final)
  | '^' :: rest =>
    (readSetInside true (rest.length + 1) rest).map fun (r, final) => (⟨true, r⟩, final)
  | rest => (readSetInside true (rest.length + 1) rest).map fun (r, final) => (⟨false, r⟩, final)

/-- Reads a text as a pattern. A backslash quotes the character behind it. -/
def readPattern : (fuel : Nat) → List Char → List PatternPiece
  | 0, _ => []
  | _ + 1, [] => []
  | fuel + 1, c :: rest =>
    if c = '\\' then
      match rest with
      | d :: more => .exactly d :: readPattern fuel more
      | [] => [.exactly c]
    else if c = '*' then .anyText :: readPattern fuel rest
    else if c = '?' then .anyChar :: readPattern fuel rest
    else if c = '[' then
      match readSet? rest with
      | some (s, after) => .oneOf s :: readPattern fuel after
      | none => .exactly c :: readPattern fuel rest
    else .exactly c :: readPattern fuel rest

/-- Whether a text as a whole fits a pattern. -/
def fits : List PatternPiece → List Char → Bool
  | [], s => s.isEmpty
  | .anyText :: rest, s => anySuffix rest s
  | .anyChar :: rest, s =>
    match s with
    | [] => false
    | _ :: s => fits rest s
  | .exactly c :: rest, s =>
    match s with
    | [] => false
    | d :: s => c == d && fits rest s
  | .oneOf set :: rest, s =>
    match s with
    | [] => false
    | d :: s => set.contains d && fits rest s
termination_by pieces s => (pieces.length, s.length, 0)
where
  anySuffix (pieces : List PatternPiece) : List Char → Bool
    | [] => fits pieces []
    | c :: s => fits pieces (c :: s) || anySuffix pieces s
  termination_by s => (pieces.length, s.length, 1)

end RaceSkeletons.Shell
