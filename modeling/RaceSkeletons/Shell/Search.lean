import RaceSkeletons.Shell.Regex
import RaceSkeletons.Shell.Session

/-!
# Searching files

The tool that prints the lines which fit an expression, counts them, or only
says whether there are any.
-/

namespace RaceSkeletons.Shell

/-- How expressions are written. -/
inductive SearchMode where
  | expression (n : RegexNotation)
  | fixed
  deriving Repr, DecidableEq

/-- What is searched for, and what is printed. -/
structure Search where
  mode : SearchMode := .expression .basic
  patterns : List String := []
  files : List String := []
  quiet : Bool := false
  count : Bool := false
  inverted : Bool := false
  foldsCase : Bool := false
  numbered : Bool := false
  namesOnly : Bool := false
  wholeLine : Bool := false
  wholeWord : Bool := false
  silent : Bool := false
  /-- Whether file names are printed, if that was asked for. -/
  named : Option Bool := none

namespace Search

/-- Takes over an option of one letter. -/
def option? (s : Search) : Char → Option Search
  | 'q' => some { s with quiet := true }
  | 'c' => some { s with count := true }
  | 'v' => some { s with inverted := true }
  | 'i' => some { s with foldsCase := true }
  | 'y' => some { s with foldsCase := true }
  | 'n' => some { s with numbered := true }
  | 'l' => some { s with namesOnly := true }
  | 'x' => some { s with wholeLine := true }
  | 'w' => some { s with wholeWord := true }
  | 's' => some { s with silent := true }
  | 'h' => some { s with named := some false }
  | 'H' => some { s with named := some true }
  | 'E' => some { s with mode := .expression .extended }
  | 'G' => some { s with mode := .expression .basic }
  | 'F' => some { s with mode := .fixed }
  | 'a' => some s
  | _ => none

/-- Reads letters of options. `e` takes the rest, or the next argument, as a
pattern; the answer says whether it wants the next one. -/
def options? (s : Search) : List Char → Option (Search × Bool)
  | [] => some (s, false)
  | 'e' :: [] => some (s, true)
  | 'e' :: rest => some ({ s with patterns := s.patterns ++ [String.ofList rest] }, false)
  | c :: rest => (s.option? c).bind fun s => options? s rest

def ofArguments (s : Search) (onlyFiles : Bool) : List String → Option Search
  | [] => some s
  | arg :: rest =>
    if onlyFiles ∨ arg = "-" ∨ !arg.startsWith "-" then
      ofArguments { s with files := s.files ++ [arg] } onlyFiles rest
    else if arg = "--" then ofArguments s true rest
    else if arg.startsWith "--" then none
    else
      match options? s (arg.toList.drop 1), rest with
      | some (s, false), rest => ofArguments s onlyFiles rest
      | some (s, true), pattern :: rest =>
        ofArguments { s with patterns := s.patterns ++ [pattern] } onlyFiles rest
      | _, _ => none

/-- A search whose first operand is the pattern if no option gave one. -/
def complete? (s : Search) : Option Search :=
  match s.patterns, s.files with
  | [], [] => none
  | [], pattern :: files => some { s with patterns := [pattern], files }
  | _, _ => some s

/-- The expression for one pattern. -/
def expressionOf (s : Search) (pattern : String) : Regex :=
  let pattern := if s.foldsCase then pattern.toLower else pattern
  let body :=
    match s.mode with
    | .fixed => pattern.toList.foldr (fun c r => Regex.followed (.exactly c) r) .empty
    | .expression n => Regex.parse n pattern
  if s.wholeLine then .followed .lineStart (.followed body .lineEnd)
  else if s.wholeWord then .followed .wordEdge (.followed body .wordEdge)
  else body

/-- The expression for all patterns. A line feed in a pattern separates two. -/
def expression (s : Search) : Regex :=
  match (s.patterns.flatMap fun p => (p.splitOn "\n")).map s.expressionOf with
  | [] => .empty
  | first :: rest => rest.foldl Regex.either first

def selects (s : Search) (r : Regex) (line : String) : Bool :=
  let line := if s.foldsCase then line.toLower else line
  r.search line.toList != s.inverted

def linesOf (content : Bytes) : List String :=
  let pieces := (Utf8.decodeLossy content).splitOn "\n"
  if pieces.getLast? = some "" then pieces.dropLast else pieces

/-- What is printed for one file. -/
def report (s : Search) (r : Regex) (label : Option String) (name : String)
    (content : Bytes) : Bool × String :=
  let selected := (linesOf content).zipIdx.filter fun (line, _) => s.selects r line
  let start := (label.map (· ++ ":")).getD ""
  let text :=
    if s.quiet then ""
    else if s.namesOnly then if selected = [] then "" else name ++ "\n"
    else if s.count then start ++ toString selected.length ++ "\n"
    else
      String.join (selected.map fun (line, i) =>
        start ++ (if s.numbered then toString (i + 1) ++ ":" else "") ++ line ++ "\n")
  (!selected.isEmpty, text)

/-- Searches all files. The status is zero if a line was selected, one if
none was, and two if a file could not be read. -/
def run (search : Search) (s : Session) : Session :=
  let files := if search.files = [] then ["-"] else search.files
  let labelled := search.named.getD (decide (1 < files.length))
  let r := search.expression
  let (s, found, failed) :=
    files.foldl
      (fun (s, found, failed) file =>
        let name := if file = "-" then "(standard input)" else file
        let label := if labelled then some name else none
        match s.source file with
        | .error e =>
          let s :=
            if search.silent then s
            else s.fail 2 ("grep: " ++ file ++ ": " ++ e.reason)
          (s, found, true)
        | .ok content =>
          let (any, text) := search.report r label name content
          (s.print Session.out text, found || any, failed))
      (s, false, false)
  s.finish (if failed && !(search.quiet && found) then 2 else if found then 0 else 1)

end Search

def searchCommand (args : List String) (s : Session) : Session :=
  match (Search.ofArguments {} false args).bind Search.complete? with
  | some search => search.run s
  | none => s.fail 2 "Usage: grep [OPTION]... PATTERNS [FILE]..."

end RaceSkeletons.Shell
