import RaceSkeletons.Shell.Lexer

/-!
# The grammar of shell scripts

Reads tokens as commands. A reader answers the command and the tokens
behind it, or nothing when the tokens are no command.
-/

namespace RaceSkeletons.Shell

abbrev Parsed (α : Type) := Option (α × List Token)

/-- Words that are part of the grammar where a command may start. -/
def reservedWords : List String :=
  ["if", "then", "elif", "else", "fi", "case", "esac", "while", "until", "do", "done", "for",
   "\x7b", "\x7d", "!"]

def nextWord? : List Token → Option String
  | .word _ w :: _ => plainText? w
  | _ => none

/-- Drops the next word, which has to be the given one. -/
def expectWord (text : String) (ts : List Token) : Option (List Token) :=
  if nextWord? ts = some text then some ts.tail else none

def skipLines : List Token → List Token
  | .operator line "\n" :: rest => let _ := line; skipLines rest
  | ts => ts

/-- Drops line ends and semicolons. -/
def skipSeparators : List Token → List Token
  | .operator line "\n" :: rest => let _ := line; skipSeparators rest
  | .operator line ";" :: rest => let _ := line; skipSeparators rest
  | ts => ts

def endsList : List Token → Bool
  | [] => true
  | .operator _ ")" :: _ => true
  | .operator _ ";;" :: _ => true
  | ts =>
    match nextWord? ts with
    | some w => ["then", "elif", "else", "fi", "esac", "do", "done", "\x7d"].contains w
    | none => false

/-- The descriptor that a word names. -/
def descriptor? (w : Word) : Option Nat :=
  (plainText? w).bind String.toNat?

def readRedirection? : List Token → Parsed Redirection
  | .redirect _ fd ">&" :: .word _ w :: rest =>
    match descriptor? w with
    | some source => some (.copy fd source, rest)
    | none => if plainText? w = some "-" then some (.close fd, rest) else some (.write fd w, rest)
  | .redirect _ _ "<&" :: .word _ _ :: rest => some (.close 0, rest)
  | .redirect _ _ "<" :: .word _ w :: rest => some (.read w, rest)
  | .redirect _ _ "<<" :: .word _ w :: rest => some (.text w, rest)
  | .redirect _ fd _ :: .word _ w :: rest => some (.write fd w, rest)
  | _ => none

def readRedirections : (fuel : Nat) → List Token → List Redirection × List Token
  | 0, ts => ([], ts)
  | fuel + 1, ts =>
    match readRedirection? ts with
    | none => ([], ts)
    | some (r, rest) =>
      let (others, final) := readRedirections fuel rest
      (r :: others, final)

/-- The name and the value of an assignment. -/
def assignment? : Word → Option (String × Word)
  | w => go "" w
where
  go (name : String) : Word → Option (String × Word)
    | .literal false text :: rest =>
      if text = "=" ∧ name ≠ "" then some (name, rest)
      else
        match text.toList with
        | [c] =>
          if isNameChar c && !(name = "" && c.isDigit) then go (name.push c) rest else none
        | _ => none
    | _ => none

/-- A simple command under construction. -/
structure SimpleDraft where
  assignments : List (String × Word) := []
  words : List Word := []
  redirections : List Redirection := []

/-- Reads the words and redirections of a simple command. -/
def readSimple : (fuel : Nat) → SimpleDraft → List Token → SimpleDraft × List Token
  | 0, d, ts => (d, ts)
  | fuel + 1, d, ts =>
    match readRedirection? ts with
    | some (r, rest) => readSimple fuel { d with redirections := d.redirections ++ [r] } rest
    | none =>
      match ts with
      | .word _ w :: rest =>
        match if d.words = [] then assignment? w else none with
        | some a => readSimple fuel { d with assignments := d.assignments ++ [a] } rest
        | none => readSimple fuel { d with words := d.words ++ [w] } rest
      | _ => (d, ts)

def readWords : List Token → List Word × List Token
  | .word _ w :: rest =>
    let (ws, final) := readWords rest
    (w :: ws, final)
  | ts => ([], ts)

/-- Reads the patterns of a branch, up to and with the parenthesis. -/
def readPatterns : (fuel : Nat) → List Token → Parsed (List Word)
  | 0, _ => none
  | fuel + 1, .word _ w :: .operator _ "|" :: rest =>
    (readPatterns fuel rest).map fun (ws, final) => (w :: ws, final)
  | _ + 1, .word _ w :: .operator _ ")" :: rest => some ([w], rest)
  | _, _ => none

mutual

def readList : (fuel : Nat) → List Token → Parsed Script
  | 0, _ => none
  | fuel + 1, ts =>
    let ts := skipSeparators ts
    if endsList ts then some (.empty, ts)
    else
      match readAndOr fuel ts with
      | none => none
      | some (first, rest) =>
        let following :=
          match rest with
          | .operator _ ";" :: _ => readList fuel rest
          | .operator _ "\n" :: _ => readList fuel rest
          | .operator _ "&" :: rest => readList fuel rest
          | _ => if endsList rest then some (.empty, rest) else none
        following.map fun (others, final) =>
          match others with
          | .empty => (first, final)
          | others => (.sequence first others, final)

/-- Reads commands joined by `&&` and `||`. -/
def readAndOr : (fuel : Nat) → List Token → Parsed Script
  | 0, _ => none
  | fuel + 1, ts =>
    match readPipe fuel ts with
    | none => none
    | some (first, rest) => readAndOrRest fuel first rest

/-- Reads what follows the first command of such a chain. -/
def readAndOrRest : (fuel : Nat) → Script → List Token → Parsed Script
  | 0, _, _ => none
  | fuel + 1, first, ts =>
    match ts with
    | .operator _ "&&" :: rest =>
      match readPipe fuel (skipLines rest) with
      | none => none
      | some (second, final) => readAndOrRest fuel (.both first second) final
    | .operator _ "||" :: rest =>
      match readPipe fuel (skipLines rest) with
      | none => none
      | some (second, final) => readAndOrRest fuel (.either first second) final
    | ts => some (first, ts)

def readPipe : (fuel : Nat) → List Token → Parsed Script
  | 0, _ => none
  | fuel + 1, ts =>
    if nextWord? ts = some "!" then
      (readPipe fuel ts.tail).map fun (body, rest) => (.negated body, rest)
    else
      match readCommand fuel ts with
      | none => none
      | some (first, .operator _ "|" :: rest) =>
        (readPipe fuel (skipLines rest)).map fun (second, final) => (.pipe first second, final)
      | some (first, rest) => some (first, rest)

/-- Reads one command. -/
def readCommand : (fuel : Nat) → List Token → Parsed Script
  | 0, _ => none
  | fuel + 1, ts =>
    match ts with
    | .operator _ "(" :: rest =>
      match readList fuel rest with
      | some (body, .operator _ ")" :: rest) =>
        let (redirections, final) := readRedirections fuel rest
        some (.subshell body redirections, final)
      | _ => none
    | .word _ w :: .operator _ "(" :: .operator _ ")" :: rest =>
      match plainText? w, readCommand fuel (skipLines rest) with
      | some name, some (body, final) => some (.function name body, final)
      | _, _ => none
    | _ =>
      match nextWord? ts with
      | some "\x7b" =>
        match readList fuel ts.tail with
        | none => none
        | some (body, rest) =>
          (expectWord "\x7d" rest).map fun rest =>
            let (redirections, final) := readRedirections fuel rest
            (.group body redirections, final)
      | some "if" => readIf fuel ts.tail
      | some "case" => readCase fuel ts.tail
      | some "while" => readLoop fuel true ts.tail
      | some "until" => readLoop fuel false ts.tail
      | some "for" => readFor fuel ts.tail
      | text =>
        if text.any reservedWords.contains then none
        else
          let line := (ts.head?.map Token.line).getD 1
          let (d, rest) := readSimple (ts.length + 1) {} ts
          if d.words = [] ∧ d.assignments = [] ∧ d.redirections = [] then none
          else some (.simple line d.assignments d.words d.redirections, rest)

/-- Reads a condition with its branches; `if` has been read. -/
def readIf : (fuel : Nat) → List Token → Parsed Script
  | 0, _ => none
  | fuel + 1, ts =>
    match readList fuel ts with
    | none => none
    | some (condition, rest) =>
      match (expectWord "then" rest).bind (readList fuel) with
      | none => none
      | some (yes, rest) =>
        match nextWord? rest with
        | some "elif" =>
          (readIf fuel rest.tail).map fun (no, final) => (.branch condition yes no [], final)
        | some "else" =>
          match readList fuel rest.tail with
          | none => none
          | some (no, rest) =>
            (expectWord "fi" rest).map fun rest =>
              let (redirections, final) := readRedirections fuel rest
              (.branch condition yes no redirections, final)
        | _ =>
          (expectWord "fi" rest).map fun rest =>
            let (redirections, final) := readRedirections fuel rest
            (.branch condition yes .empty redirections, final)

/-- Reads a choice; `case` has been read. -/
def readCase : (fuel : Nat) → List Token → Parsed Script
  | 0, _ => none
  | fuel + 1, ts =>
    match ts with
    | .word _ w :: rest =>
      match (expectWord "in" (skipLines rest)).bind (readBranches fuel) with
      | none => none
      | some (branches, rest) =>
        let (redirections, final) := readRedirections fuel rest
        some (.choice w branches redirections, final)
    | _ => none

/-- Reads the branches of a choice, up to and with `esac`. -/
def readBranches : (fuel : Nat) → List Token → Parsed (List (List Word × Script))
  | 0, _ => none
  | fuel + 1, ts =>
    let ts := skipLines ts
    match expectWord "esac" ts with
    | some rest => some ([], rest)
    | none =>
      let ts :=
        match ts with
        | .operator _ "(" :: rest => rest
        | ts => ts
      match readPatterns (ts.length + 1) ts with
      | none => none
      | some (patterns, rest) =>
        match readList fuel rest with
        | none => none
        | some (body, rest) =>
          let rest :=
            match rest with
            | .operator _ ";;" :: rest => rest
            | rest => rest
          (readBranches fuel rest).map fun (others, final) => ((patterns, body) :: others, final)

/-- Reads a loop; its keyword has been read. -/
def readLoop : (fuel : Nat) → Bool → List Token → Parsed Script
  | 0, _, _ => none
  | fuel + 1, wanted, ts =>
    match readList fuel ts with
    | none => none
    | some (condition, rest) =>
      match (expectWord "do" rest).bind (readList fuel) with
      | none => none
      | some (body, rest) =>
        (expectWord "done" rest).map fun rest =>
          let (redirections, final) := readRedirections fuel rest
          (.loop wanted condition body redirections, final)

/-- Reads a loop over words; `for` has been read. -/
def readFor : (fuel : Nat) → List Token → Parsed Script
  | 0, _ => none
  | fuel + 1, ts =>
    match nextWord? ts with
    | none => none
    | some name =>
      let rest := skipLines ts.tail
      let (words, rest) :=
        match expectWord "in" rest with
        | some rest =>
          let (ws, rest) := readWords rest
          (some ws, rest)
        | none => (none, rest)
      match (expectWord "do" (skipSeparators rest)).bind (readList fuel) with
      | none => none
      | some (body, rest) =>
        (expectWord "done" rest).map fun rest =>
          let (redirections, final) := readRedirections fuel rest
          (.each name words body redirections, final)

end

/-- How a token that must not stand where it does is named in messages. -/
def Token.describe : Token → String
  | .word _ w =>
    match plainText? w with
    | some text => if reservedWords.contains text then "\"" ++ text ++ "\"" else "word"
    | none => "word"
  | .operator _ "\n" => "newline"
  | .operator _ text => "\"" ++ text ++ "\""
  | .redirect .. => "redirection"

/-- Reads a whole script, or names what is not expected in it. -/
def parseScript (script : String) : Except String Script :=
  match readList (2 * script.length + 10) (tokensOf script) with
  | some (body, []) => .ok body
  | some (_, t :: _) => .error (t.describe ++ " unexpected")
  | none => .error "end of file unexpected"

end RaceSkeletons.Shell
