import RaceSkeletons.Shell.Pattern

/-!
# Regular expressions

The expressions that searching tools understand, in the basic and in the
extended notation. A search asks whether some part of a line fits.
-/

namespace RaceSkeletons.Shell

/-- A regular expression. -/
inductive Regex where
  | empty
  | exactly (c : Char)
  | anyChar
  | oneOf (s : CharSet)
  | lineStart
  | lineEnd
  | wordEdge
  | followed (first second : Regex)
  | either (first second : Regex)
  /-- Between `least` and `most` repetitions. -/
  | repeated (least : Nat) (most : Option Nat) (body : Regex)
  deriving Repr, Inhabited

/-- The notation of expressions. -/
inductive RegexNotation where
  | basic
  | extended
  deriving Repr, DecidableEq

namespace Regex

/-- The next sign: an operator of the notation, or a character. -/
inductive Sign where
  | opening
  | close
  | bar
  | star
  | plus
  | optional
  | bounds
  | escape (c : Char)
  | char (c : Char)
  deriving Repr, DecidableEq

/-- The sign of a character that is special only with, or only without, a
backslash. -/
def signOf : Char → Option Sign
  | '(' => some .opening
  | ')' => some .close
  | '|' => some .bar
  | '+' => some .plus
  | '?' => some .optional
  | '\x7b' => some .bounds
  | _ => none

def readSign (n : RegexNotation) : List Char → Option (Sign × List Char)
  | [] => none
  | '\\' :: c :: rest =>
    match n, signOf c with
    | .basic, some s => some (s, rest)
    | _, _ => some (.escape c, rest)
  | '*' :: rest => some (.star, rest)
  | c :: rest =>
    match n, signOf c with
    | .extended, some s => some (s, rest)
    | _, _ => some (.char c, rest)

def wordSet : CharSet := ⟨false, [('0', '9'), ('a', 'z'), ('A', 'Z'), ('_', '_')]⟩

def blankSet : CharSet := ⟨false, [(' ', ' '), ('\t', '\r')]⟩

def escaped (c : Char) : Regex :=
  match c with
  | 'w' => .oneOf wordSet
  | 'W' => .oneOf { wordSet with negated := true }
  | 's' => .oneOf blankSet
  | 'S' => .oneOf { blankSet with negated := true }
  | 'b' => .wordEdge
  | '<' => .wordEdge
  | '>' => .wordEdge
  | c => .exactly c

/-- Reads the numbers between bounds, up to and with the closing brace. -/
def readBounds (n : RegexNotation) (s : List Char) : Option (Nat × Option Nat × List Char) :=
  let low := s.takeWhile Char.isDigit
  let rest := s.dropWhile Char.isDigit
  let least := (String.ofList low).toNat?.getD 0
  let (most, rest) :=
    match rest with
    | ',' :: rest =>
      ((String.ofList (rest.takeWhile Char.isDigit)).toNat?, rest.dropWhile Char.isDigit)
    | rest => (some least, rest)
  match n, rest with
  | .basic, '\\' :: '\x7d' :: rest => some (least, most, rest)
  | .extended, '\x7d' :: rest => some (least, most, rest)
  | _, _ => none

/-- Applies the repetitions that follow an expression. -/
def readRepeats (n : RegexNotation) : (fuel : Nat) → Regex → List Char → Regex × List Char
  | 0, r, s => (r, s)
  | fuel + 1, r, s =>
    match readSign n s with
    | some (.star, rest) => readRepeats n fuel (.repeated 0 none r) rest
    | some (.plus, rest) => readRepeats n fuel (.repeated 1 none r) rest
    | some (.optional, rest) => readRepeats n fuel (.repeated 0 (some 1) r) rest
    | some (.bounds, rest) =>
      match readBounds n rest with
      | some (least, most, rest) => readRepeats n fuel (.repeated least most r) rest
      | none => (r, s)
    | _ => (r, s)

mutual

def readAlternatives (n : RegexNotation) : (fuel : Nat) → List Char → Regex × List Char
  | 0, s => (.empty, s)
  | fuel + 1, s =>
    let (first, rest) := readSequence n fuel true s
    match readSign n rest with
    | some (.bar, rest) =>
      let (second, final) := readAlternatives n fuel rest
      (.either first second, final)
    | _ => (first, rest)

/-- Reads expressions one behind the other. -/
def readSequence (n : RegexNotation) : (fuel : Nat) → (atStart : Bool) → List Char →
    Regex × List Char
  | 0, _, s => (.empty, s)
  | fuel + 1, atStart, s =>
    match readSign n s with
    | none => (.empty, s)
    | some (.close, _) => (.empty, s)
    | some (.bar, _) => (.empty, s)
    | some (sign, rest) =>
      let (body, rest) :=
        match sign with
        | .opening =>
          let (inner, rest) := readAlternatives n fuel rest
          match readSign n rest with
          | some (.close, rest) => (inner, rest)
          | _ => (inner, rest)
        | .char '.' => (Regex.anyChar, rest)
        | .char '^' =>
          if atStart || n == RegexNotation.extended then (Regex.lineStart, rest)
          else (Regex.exactly '^', rest)
        | .char '$' =>
          let ends :=
            match readSign n rest with
            | none => true
            | some (.close, _) => true
            | some (.bar, _) => true
            | _ => n == RegexNotation.extended
          if ends then (Regex.lineEnd, rest) else (Regex.exactly '$', rest)
        | .char '[' =>
          match readSet? rest with
          | some (s, rest) => (Regex.oneOf s, rest)
          | none => (Regex.exactly '[', rest)
        | .char c => (Regex.exactly c, rest)
        | .escape c => (escaped c, rest)
        | .star => (Regex.exactly '*', rest)
        | .plus => (Regex.exactly '+', rest)
        | .optional => (Regex.exactly '?', rest)
        | _ => (Regex.exactly '\x7b', rest)
      let (body, rest) := readRepeats n (rest.length + 1) body rest
      let (others, final) := readSequence n fuel false rest
      (.followed body others, final)

end

def parse (n : RegexNotation) (s : String) : Regex :=
  (readAlternatives n (2 * s.length + 2) s.toList).1

/-- A place in a line: the character before it, and the text behind it. -/
structure LinePlace where
  before : Option Char
  rest : List Char

/-- Whether a word starts or ends at a place. -/
def LinePlace.isWordEdge (p : LinePlace) : Bool :=
  p.before.any wordSet.contains != p.rest.head?.any wordSet.contains

/-- The places where a match that starts at a place can end. -/
def ends : (fuel : Nat) → Regex → LinePlace → List LinePlace
  | 0, _, _ => []
  | fuel + 1, r, p =>
    match r with
    | .empty => [p]
    | .exactly c =>
      match p.rest with
      | d :: rest => if c = d then [⟨some d, rest⟩] else []
      | [] => []
    | .anyChar =>
      match p.rest with
      | d :: rest => [⟨some d, rest⟩]
      | [] => []
    | .oneOf s =>
      match p.rest with
      | d :: rest => if s.contains d then [⟨some d, rest⟩] else []
      | [] => []
    | .lineStart => if p.before.isNone then [p] else []
    | .lineEnd => if p.rest.isEmpty then [p] else []
    | .wordEdge => if p.isWordEdge then [p] else []
    | .followed a b => (ends fuel a p).flatMap (ends fuel b)
    | .either a b => ends fuel a p ++ ends fuel b p
    | .repeated 0 (some 0) _ => [p]
    | .repeated (least + 1) most a =>
      (ends fuel a p).flatMap (ends fuel (.repeated least (most.map (· - 1)) a))
    | .repeated 0 most a =>
      p :: ((ends fuel a p).filter fun q => q.rest.length < p.rest.length).flatMap
        (ends fuel (.repeated 0 (most.map (· - 1)) a))

def size : Regex → Nat
  | .followed a b => a.size + b.size + 1
  | .either a b => a.size + b.size + 1
  | .repeated least _ a => a.size + least + 1
  | _ => 1

/-- Whether some part of a line fits, given fuel for a match at each place. -/
def searchFrom (fuel : Nat) (r : Regex) (before : Option Char) (line : List Char) : Bool :=
  !(ends fuel r ⟨before, line⟩).isEmpty ||
    match line with
    | [] => false
    | c :: rest => searchFrom fuel r (some c) rest

def search (r : Regex) (line : List Char) : Bool :=
  searchFrom (r.size * (line.length + 2) + 2) r none line

end Regex

end RaceSkeletons.Shell
