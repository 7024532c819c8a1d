import RaceSkeletons.Analyzer.External

/-!
# The syntax checker

An external program that accepts a fragment by ending with status zero, and
otherwise says what is wrong on its diagnostic output. A checker that is not
installed accepts everything.
-/

namespace RaceSkeletons

/-- What the checker says about a fragment. -/
inductive SyntaxVerdict where
  | valid
  | invalid (message : String)
  /-- The program was not found. -/
  | unavailable
  deriving Repr, DecidableEq

/-- How the checker is called. -/
structure SyntaxChecker where
  program : Path
  leadingArgs : List String := []
  limit : Duration := ⟨30, 0⟩
  deriving Repr, DecidableEq

namespace SyntaxChecker

def command (c : SyntaxChecker) (p : Path) : Command where
  program := c.program
  arguments := c.leadingArgs ++ ["-e", p.text]
  limit := c.limit

/-- The verdict of a command that ended this way. -/
def verdictOf (c : SyntaxChecker) : ToolRun → Except ToolFailure SyntaxVerdict
  | .notStarted error =>
    if error = .notFound then .ok .unavailable
    else .error (.spawn c.program.text error.message)
  | .timedOut => .error (.timeout c.limit)
  | .ended (some 0) _ _ => .ok .valid
  | .ended _ _ stderr => .ok (.invalid (diagnosticText stderr))

def check (c : SyntaxChecker) (host : Host) (fs : FileSystem) (p : Path) :
    Except ToolFailure SyntaxVerdict :=
  c.verdictOf (host fs (c.command p))

end SyntaxChecker

end RaceSkeletons
