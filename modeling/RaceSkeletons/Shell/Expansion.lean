import RaceSkeletons.Shell.Arithmetic
import RaceSkeletons.Shell.Lexer
import RaceSkeletons.Shell.Pattern
import RaceSkeletons.Shell.Session

/-!
# Expansion of words

Replaces parameters by their values and scripts by their output, cuts what
was not quoted into fields at its blanks, and replaces a field that is a
pattern by the names of the files that fit it.
-/

namespace RaceSkeletons.Shell

/-- A piece of an expanded word. -/
inductive Piece where
  | text (quoted : Bool) (value : String)
  /-- A field ends here. -/
  | boundary
  deriving Repr, DecidableEq

/-- How a script is run for its output. -/
abbrev Capture := String → Session → Session × String

/-- A text without the line feeds at its end. -/
def dropFinalLineFeeds (s : String) : String :=
  String.ofList (s.toList.reverse.dropWhile (· == '\n')).reverse

/-- Whether fields are cut at a character. -/
def isFieldBlank (c : Char) : Bool :=
  c == ' ' || c == '\t' || c == '\n'

/-- The pieces of a value that is cut at blanks. -/
def splitValue (value : String) : List Piece :=
  let close := fun (word : List Char) (rest : List Piece) =>
    if word = [] then rest else .text false (String.ofList word) :: rest
  let (word, pieces) :=
    value.toList.foldr
      (fun c (word, pieces) =>
        if isFieldBlank c then ([], .boundary :: close word pieces) else (c :: word, pieces))
      (([], []) : List Char × List Piece)
  close word pieces

def valuePieces (quoted split : Bool) (value : String) : List Piece :=
  if quoted || !split then [.text quoted value] else splitValue value

def piecesText (pieces : List Piece) : String :=
  String.join (pieces.map fun
    | .text _ value => value
    | .boundary => " ")

/-- The text of pieces as a pattern. A backslash stands before each quoted
character. -/
def patternText (pieces : List Piece) : List Char :=
  pieces.flatMap fun
    | .text true value => value.toList.flatMap fun c => ['\\', c]
    | .text false value => value.toList
    | .boundary => [' ']

/-- The pattern that pieces form. -/
def patternOf (pieces : List Piece) : List PatternPiece :=
  let text := patternText pieces
  readPattern (text.length + 1) text

/-- Takes off the shortest or the longest beginning that fits a pattern. -/
def dropStart (longest : Bool) (pattern : List PatternPiece) (value : List Char) : List Char :=
  let lengths := List.range (value.length + 1)
  let lengths := if longest then lengths.reverse else lengths
  match lengths.find? fun n => fits pattern (value.take n) with
  | some n => value.drop n
  | none => value

/-- Takes off the shortest or the longest end that fits a pattern. -/
def dropEnd (longest : Bool) (pattern : List PatternPiece) (value : List Char) : List Char :=
  let lengths := List.range (value.length + 1)
  let lengths := if longest then lengths else lengths.reverse
  match lengths.find? fun n => fits pattern (value.drop n) with
  | some n => value.take n
  | none => value

/-- The arguments as pieces, each a field of its own. -/
def argumentPieces (s : Session) : List Piece :=
  (s.arguments.map fun a => [Piece.text true a]).intersperse [.boundary] |>.flatten

/-- Replaces the parts of a word, with a limit on the depth of words in
operands. -/
def expandWord (capture : Capture) (split : Bool) :
    (depth : Nat) → Word → Session → List Piece × Session
  | 0, _, s => ([], s)
  | depth + 1, w, s =>
    w.foldl
      (fun (pieces, s) segment =>
        let (more, s) := expandSegment depth segment s
        (pieces ++ more, s))
      ([], s)
where
  /-- Replaces one part of a word. -/
  expandSegment (depth : Nat) (segment : Segment) (s : Session) : List Piece × Session :=
    match segment with
    | .literal quoted text => ([.text quoted text], s)
    | .output quoted script =>
      let (s, text) := capture script s
      (valuePieces quoted split (dropFinalLineFeeds text), s)
    | .arithmetic _ expression =>
      let word := (readQuoted none (expression.length + 1) expression.toList).1
      let (pieces, s) := expandWord capture false depth word s
      match Arithmetic.evalText s.parameter? (piecesText pieces) with
      | .ok n => ([.text true (toString n)], s)
      | .error fault =>
        let why := fault.describe ++ ": \"" ++ piecesText pieces ++ "\""
        ([], { s.complain 2 ("arithmetic expression: " ++ why) with control := .exited })
    | .parameter quoted use =>
      if quoted && split && use.name = "@" && use.operator = "" then (argumentPieces s, s)
      else
        let value := s.parameter? use.name
        let isUnset := value.isNone
        let isEmpty := (value.getD "") = ""
        let operand := fun (s : Session) =>
          expandWord capture false depth
            (readWord (use.operand.length + 1) (escapeBlanks use.operand.toList)).1 s
        let valueOf := fun (text : String) (s : Session) => (valuePieces quoted split text, s)
        let otherwise := fun (s : Session) =>
          let (pieces, s) := operand s
          valueOf (piecesText pieces) s
        let kept := valueOf (value.getD "") s
        let cut := fun (f : List PatternPiece → List Char → List Char) =>
          let (pieces, s) := operand s
          valueOf (String.ofList (f (patternOf pieces) (value.getD "").toList)) s
        let assigned := fun (s : Session) =>
          let (pieces, s) := operand s
          valueOf (piecesText pieces) (s.assign use.name (piecesText pieces))
        let refused := fun (s : Session) =>
          let (pieces, s) := operand s
          let why := if use.operand = "" then "parameter not set" else piecesText pieces
          ([], { s.complain 2 (use.name ++ ": " ++ why) with control := .exited })
        match use.operator with
        | ":-" => if isEmpty then otherwise s else kept
        | "-" => if isUnset then otherwise s else kept
        | ":+" => if isEmpty then ([], s) else otherwise s
        | "+" => if isUnset then ([], s) else otherwise s
        | ":=" => if isEmpty then assigned s else kept
        | "=" => if isUnset then assigned s else kept
        | ":?" => if isEmpty then refused s else kept
        | "?" => if isUnset then refused s else kept
        | "length" => valueOf (toString (value.getD "").length) s
        | "#" => cut (dropStart false)
        | "##" => cut (dropStart true)
        | "%" => cut (dropEnd false)
        | "%%" => cut (dropEnd true)
        | _ => kept
  /-- Quotes the characters that would end a word, outside of quotes. -/
  escapeBlanks (text : List Char) : List Char :=
    if text.any fun c => c == '"' || c == '\'' || c == '\\' || c == '$' then text
    else text.flatMap fun c => if endsWord c then ['\\', c] else [c]

/-- The depth to which operands are expanded. -/
def operandDepth : Nat := 16

/-- Groups pieces into fields. -/
def fieldsOf (pieces : List Piece) : List (List Piece) :=
  (pieces.splitOn .boundary).filter (· ≠ [])

/-- Whether a field has a sign of a pattern that is not quoted. -/
def isPatternField (field : List Piece) : Bool :=
  field.any fun
    | .text false value => value.toList.any fun c => c == '*' || c == '?' || c == '['
    | _ => false

/-- The files below a base that fit the names of a pattern, in the order of
their names. -/
def matchingFiles (fs : FileSystem) : (base : String) → List (List Char) → List String
  | base, [] => [base]
  | base, name :: rest =>
    let pattern := readPattern (name.length + 1) name
    let separator := if base = "" ∨ base = "/" then "" else "/"
    let names := (fs.readDir ⟨if base = "" then "." else base⟩).toOption.getD []
    let fitting := names.filterMap fun (found, _) =>
      if fits pattern found.toList && (!found.startsWith "." || name.head? == some '.') then
        some found
      else none
    (fitting.mergeSort (· ≤ ·)).flatMap fun found =>
      matchingFiles fs (base ++ separator ++ found) rest

/-- The files that fit a pattern; the text itself when there are none. -/
def fileFields (fs : FileSystem) (field : List Piece) : List String :=
  let text := patternText field
  let names := (text.splitOn '/').filter (· ≠ [])
  let found :=
    if isPatternField field then
      matchingFiles fs (if text.head? = some '/' then "/" else "") names
    else []
  if found = [] then [piecesText field] else found

/-- The fields of a word. Without arguments, `"$@"` is no field at all. -/
def expandFields (capture : Capture) (w : Word) (s : Session) : List String × Session :=
  if w = [.literal true "", .parameter true { name := "@" }] ∧ s.arguments = [] then ([], s)
  else
    let (pieces, s) := expandWord capture true operandDepth w s
    ((fieldsOf pieces).flatMap (fileFields s.fs), s)

/-- The fields of words, one after the other. -/
def expandAll (capture : Capture) (words : List Word) (s : Session) : List String × Session :=
  words.foldl
    (fun (fields, s) w =>
      let (more, s) := expandFields capture w s
      (fields ++ more, s))
    ([], s)

/-- A word as one text. -/
def expandText (capture : Capture) (w : Word) (s : Session) : String × Session :=
  let (pieces, s) := expandWord capture false operandDepth w s
  (piecesText pieces, s)

end RaceSkeletons.Shell
