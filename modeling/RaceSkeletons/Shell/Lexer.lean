import RaceSkeletons.Shell.Syntax

/-!
# Tokens of a shell script

Cuts a script into words and operators. Quotes are resolved here: a word
remembers which of its parts were quoted.
-/

namespace RaceSkeletons.Shell

/-- Characters that end a word. -/
def endsWord (c : Char) : Bool :=
  c == ' ' || c == '\t' || c == '\n' || c == ';' || c == '&' || c == '|' || c == '<' ||
    c == '>' || c == '(' || c == ')'

def isNameChar (c : Char) : Bool :=
  c.isAlphanum || c == '_'

/-- Parameters whose name is one sign. -/
def isSpecialParameter (c : Char) : Bool :=
  c.isDigit || c == '#' || c == '*' || c == '@' || c == '?' || c == '$' || c == '!' || c == '-'

/-- The text up to the parenthesis that closes a level, and the rest. -/
def takeParens : (depth : Nat) → (quote : Option Char) → List Char → List Char × List Char
  | _, _, [] => ([], [])
  | depth, some q, c :: rest =>
    let (inside, after) := takeParens depth (if c = q then none else some q) rest
    (c :: inside, after)
  | depth, none, c :: rest =>
    if c = ')' then
      match depth with
      | 0 => ([], rest)
      | depth + 1 =>
        let (inside, after) := takeParens depth none rest
        (c :: inside, after)
    else
      let depth := if c = '(' then depth + 1 else depth
      let quote := if c = '\'' ∨ c = '"' then some c else none
      let (inside, after) := takeParens depth quote rest
      (c :: inside, after)

/-- The text up to a character, and what follows it. -/
def takeUntil (stop : Char) (s : List Char) : List Char × List Char :=
  (s.takeWhile (· != stop), (s.dropWhile (· != stop)).drop 1)

/-- The operators of parameters, longer ones first. -/
def parameterOperators : List String :=
  [":-", ":=", ":+", ":?", "##", "%%", "-", "=", "+", "?", "#", "%"]

/-- Reads what stands between the braces of a parameter. -/
def bracedParameter (s : List Char) : Parameter :=
  match s with
  | '#' :: c :: rest => { name := String.ofList (c :: rest), operator := "length" }
  | _ =>
    let name :=
      match s with
      | c :: _ =>
        if isSpecialParameter c && !c.isDigit then [c] else s.takeWhile isNameChar
      | [] => []
    let rest := s.drop name.length
    match parameterOperators.find? fun o => o.toList.isPrefixOf rest with
    | some o =>
      { name := String.ofList name, operator := o,
        operand := String.ofList (rest.drop o.length) }
    | none => { name := String.ofList name }

/-- What stands between the inner ones of two pairs of parentheses, given what
stands between the outer ones. -/
def innerParens? (inside : List Char) : Option (List Char) :=
  match inside with
  | '(' :: rest =>
    match takeParens 0 none rest with
    | (inner, []) => if rest.getLast? = some ')' then some inner else none
    | _ => none
  | _ => none

/-- Reads what stands behind a dollar sign. -/
def readDollar (quoted : Bool) (s : List Char) : Segment × List Char :=
  match s with
  | '(' :: rest =>
    let (inside, after) := takeParens 0 none rest
    match innerParens? inside with
    | some inner => (.arithmetic quoted (String.ofList inner), after)
    | none => (.output quoted (String.ofList inside), after)
  | '\x7b' :: rest =>
    let (inside, after) := takeUntil '\x7d' rest
    (.parameter quoted (bracedParameter inside), after)
  | c :: rest =>
    if c.isAlpha || c == '_' then
      (.parameter quoted { name := String.ofList (s.takeWhile isNameChar) }, s.dropWhile isNameChar)
    else if isSpecialParameter c then (.parameter quoted { name := String.singleton c }, rest)
    else (.literal quoted "$", s)
  | [] => (.literal quoted "$", [])

/-- Reads quoted text up to and with the character that ends it, or to the
end of the text. -/
def readQuoted (stop : Option Char) : (fuel : Nat) → List Char → Word × List Char
  | 0, s => ([], s)
  | _ + 1, [] => ([], [])
  | fuel + 1, c :: rest =>
    if some c = stop then ([], rest)
    else
      let (segment, after) :=
        if c = '\\' then
          match rest with
          | d :: more =>
            if some d = stop ∨ d = '\\' ∨ d = '$' ∨ d = '\u0060' then
              (Segment.literal true (String.singleton d), more)
            else if d = '\n' then (Segment.literal true "", more)
            else (Segment.literal true "\\", rest)
          | [] => (Segment.literal true "\\", [])
        else if c = '$' then readDollar true rest
        else if c = '\u0060' then
          let (inside, after) := takeUntil '\u0060' rest
          (Segment.output true (String.ofList inside), after)
        else (Segment.literal true (String.singleton c), rest)
      let (others, final) := readQuoted stop fuel after
      (segment :: others, final)

/-- Reads a word up to the character that ends it. -/
def readWord : (fuel : Nat) → List Char → Word × List Char
  | 0, s => ([], s)
  | _ + 1, [] => ([], [])
  | fuel + 1, c :: rest =>
    if endsWord c then ([], c :: rest)
    else
      let (segments, after) :=
        if c = '\'' then
          let (inside, after) := takeUntil '\'' rest
          ([Segment.literal true (String.ofList inside)], after)
        else if c = '"' then
          let (inside, after) := readQuoted (some '"') (rest.length + 1) rest
          (Segment.literal true "" :: inside, after)
        else if c = '\\' then
          match rest with
          | '\n' :: more => ([], more)
          | d :: more => ([Segment.literal true (String.singleton d)], more)
          | [] => ([Segment.literal true "\\"], [])
        else if c = '$' then
          let (segment, after) := readDollar false rest
          ([segment], after)
        else if c = '\u0060' then
          let (inside, after) := takeUntil '\u0060' rest
          ([Segment.output false (String.ofList inside)], after)
        else ([Segment.literal false (String.singleton c)], rest)
      let (others, final) := readWord fuel after
      (segments ++ others, final)

/-- Operators that are no redirections, longer ones first. -/
def operators : List String := [";;", "&&", "||", ";", "&", "|", "(", ")"]

/-- Redirection operators, longer ones first. -/
def redirectOperators : List String := [">>", ">&", ">|", "<<-", "<<", "<&", ">", "<"]

/-- The redirection operator at the start of a text, with its descriptor. -/
def readRedirect? (s : List Char) : Option (Nat × String × List Char) :=
  let digits := s.takeWhile Char.isDigit
  let rest := s.drop digits.length
  match redirectOperators.find? fun o => o.toList.isPrefixOf rest with
  | none => none
  | some o =>
    let standard := if o.toList.head? = some '<' then 0 else 1
    let descriptor := if digits = [] then standard else (String.ofList digits).toNat?.getD standard
    some (descriptor, o, rest.drop o.length)

def lineFeeds (s : List Char) : Nat :=
  s.count '\n'

/-- A text that stands in the lines behind a command, as its input. -/
structure Inset where
  /-- The line that ends the text. -/
  delimiter : List Char
  /-- Whether the text stands for itself. -/
  isVerbatim : Bool
  /-- Whether tabs at the start of its lines are left out. -/
  dropsTabs : Bool
  deriving Repr, DecidableEq

/-- The inset that a word announces. -/
def Inset.ofWord (dropsTabs : Bool) (w : Word) : Inset where
  delimiter := w.flatMap fun
    | .literal _ text => text.toList
    | _ => []
  isVerbatim := w.any fun
    | .literal quoted _ => quoted
    | _ => false
  dropsTabs

/-- Reads the lines of an inset up to and with the one that ends it. -/
def Inset.readLines (i : Inset) : (fuel : Nat) → List Char → List Char × List Char
  | 0, s => ([], s)
  | _ + 1, [] => ([], [])
  | fuel + 1, s =>
    let (line, after) := takeUntil '\n' s
    let line := if i.dropsTabs then line.dropWhile (· == '\t') else line
    if line = i.delimiter then ([], after)
    else
      let (others, final) := i.readLines fuel after
      (line ++ '\n' :: others, final)

/-- Reads an inset as a word. -/
def Inset.read (i : Inset) (s : List Char) : Word × List Char :=
  let (text, after) := i.readLines (s.length + 1) s
  if i.isVerbatim then ([.literal true (String.ofList text)], after)
  else ((readQuoted none (text.length + 1) text).1, after)

/-- Reads insets one after the other. -/
def readInsets : List Inset → List Char → List Word × List Char
  | [], s => ([], s)
  | i :: rest, s =>
    let (w, after) := i.read s
    let (others, final) := readInsets rest after
    (w :: others, final)

/-- The tokens of a text that starts in a line. `announced` are the insets that
the line has announced so far; the texts of all insets of the line are
answered along with the tokens. -/
def tokens : (fuel line : Nat) → (announced : List Inset) → List Char → List Token × List Word
  | 0, _, _, _ => ([], [])
  | _ + 1, _, _, [] => ([], [])
  | fuel + 1, line, announced, c :: rest =>
    let cons := fun (t : Token) (others : List Token × List Word) => (t :: others.1, others.2)
    if c = ' ' ∨ c = '\t' then tokens fuel line announced rest
    else if c = '\\' ∧ rest.head? = some '\n' then tokens fuel (line + 1) announced (rest.drop 1)
    else if c = '#' then tokens fuel line announced (rest.dropWhile (· != '\n'))
    else if c = '\n' then
      let (texts, after) := readInsets announced rest
      let used := rest.take (rest.length - after.length)
      (.operator line "\n" :: (tokens fuel (line + 1 + lineFeeds used) [] after).1, texts)
    else
      match readRedirect? (c :: rest) with
      | some (descriptor, o, after) =>
        if o = "<<" ∨ o = "<<-" then
          let after := after.dropWhile fun c => c == ' ' || c == '\t'
          let (w, after) := readWord (after.length + 1) after
          let others := tokens fuel line (announced ++ [Inset.ofWord (o = "<<-") w]) after
          let text := others.2[announced.length]?.getD []
          cons (.redirect line descriptor "<<") (cons (.word line text) others)
        else cons (.redirect line descriptor o) (tokens fuel line announced after)
      | none =>
        match operators.find? fun o => o.toList.isPrefixOf (c :: rest) with
        | some o => cons (.operator line o) (tokens fuel line announced ((c :: rest).drop o.length))
        | none =>
          let (w, after) := readWord (rest.length + 2) (c :: rest)
          let used := (c :: rest).take (rest.length + 1 - after.length)
          cons (.word line w) (tokens fuel (line + lineFeeds used) announced after)

def tokensOf (script : String) : List Token :=
  (tokens (script.length + 1) 1 [] script.toList).1

end RaceSkeletons.Shell
