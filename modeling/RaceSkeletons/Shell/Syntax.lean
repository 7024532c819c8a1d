/-!
# Shell scripts

The words and commands of the shell language that analyzer and checker
scripts are written in.
-/

namespace RaceSkeletons.Shell

/-- A use of a parameter: its name, and an operator with its operand. -/
structure Parameter where
  name : String
  operator : String := ""
  operand : String := ""
  deriving Repr, DecidableEq, Inhabited

/-- A part of a word. What is quoted is neither split nor a pattern. -/
inductive Segment where
  | literal (quoted : Bool) (text : String)
  | parameter (quoted : Bool) (use : Parameter)
  /-- The output of a script. -/
  | output (quoted : Bool) (script : String)
  /-- The value of an arithmetic expression. -/
  | arithmetic (quoted : Bool) (expression : String)
  deriving Repr, DecidableEq, Inhabited

/-- A word before it is expanded. -/
abbrev Word := List Segment

/-- Where the output or the input of a command goes or comes from. -/
inductive Redirection where
  /-- The first descriptor becomes a copy of the second one. -/
  | copy (descriptor source : Nat)
  | close (descriptor : Nat)
  | write (descriptor : Nat) (target : Word)
  | read (source : Word)
  /-- The input is a text. -/
  | text (content : Word)
  deriving Repr, DecidableEq, Inhabited

/-- A command. -/
inductive Script where
  | empty
  | simple (line : Nat) (assignments : List (String × Word)) (words : List Word)
      (redirections : List Redirection)
  | sequence (first second : Script)
  | both (first second : Script)
  | either (first second : Script)
  | negated (body : Script)
  | pipe (first second : Script)
  | group (body : Script) (redirections : List Redirection)
  | subshell (body : Script) (redirections : List Redirection)
  | branch (condition yes no : Script) (redirections : List Redirection)
  | choice (word : Word) (branches : List (List Word × Script)) (redirections : List Redirection)
  /-- Repeats the body while the condition has the wanted outcome. -/
  | loop (wanted : Bool) (condition body : Script) (redirections : List Redirection)
  | each (name : String) (words : Option (List Word)) (body : Script)
      (redirections : List Redirection)
  | function (name : String) (body : Script)
  deriving Repr, Inhabited

/-- A token of a script, with the line it stands in. -/
inductive Token where
  | word (line : Nat) (w : Word)
  | operator (line : Nat) (text : String)
  /-- A redirection operator with its descriptor. -/
  | redirect (line : Nat) (descriptor : Nat) (text : String)
  deriving Repr, DecidableEq, Inhabited

def Token.line : Token → Nat
  | .word line _ => line
  | .operator line _ => line
  | .redirect line _ _ => line

/-- The text of a word that is not quoted anywhere. -/
def plainText? : Word → Option String
  | [] => some ""
  | .literal false text :: rest => (plainText? rest).map (text ++ ·)
  | _ => none

end RaceSkeletons.Shell
