import RaceSkeletons.Duration

/-!
# Outcomes of the analyzer

The analyzer inspects one fragment and says whether it writes to a tracked
variable. Whatever goes wrong on the way is an outcome too: a failure
belongs to its fragment and never ends a run.
-/

namespace RaceSkeletons

/-- Why an external tool gave no usable verdict. -/
inductive ToolFailure where
  | spawn (program message : String)
  /-- The tool ended with a status other than zero, or by a signal when there
  is no status. `stderr` is its trimmed diagnostic text. -/
  | nonZeroExit (code : Option Int) (stderr : String)
  | timeout (limit : Duration)
  /-- The tool ended well but reported an error in its verdict. -/
  | reported (message : String)
  /-- The tool's output was no verdict. -/
  | decode (message : String)
  deriving Repr, DecidableEq

def ToolFailure.message : ToolFailure → String
  | .spawn program message => "Failed to spawn " ++ program ++ ": " ++ message
  | .nonZeroExit code stderr =>
    if stderr ≠ "" then stderr
    else
      match code with
      | some code => "Analyzer exited with status " ++ toString code
      | none => "Analyzer terminated by signal"
  | .timeout limit => "Analyzer timed out after " ++ toString limit.millis ++ "ms"
  | .reported message => message
  | .decode message => "Failed to parse analyzer output: " ++ message

/-- The result of analyzing one fragment. -/
inductive Outcome where
  /-- A verdict. `line` is the text of the racy access, when there is one. -/
  | analyzed (hasWrite : Bool) (line : Option String)
  | failed (failure : ToolFailure)
  deriving Repr, DecidableEq

namespace Outcome

/-- The write flag of the verdict; a failure never reports a write. -/
def hasWrite : Outcome → Bool
  | .analyzed hasWrite _ => hasWrite
  | .failed _ => false

/-- The text of the racy access, if there is one. -/
def line? : Outcome → Option String
  | .analyzed _ line => line
  | .failed _ => none

/-- Why there is no verdict, if there is none. -/
def failure? : Outcome → Option ToolFailure
  | .analyzed .. => none
  | .failed failure => some failure

/-- Whether there is no verdict. -/
def isFailure : Outcome → Bool
  | .analyzed .. => false
  | .failed _ => true

end Outcome

end RaceSkeletons
