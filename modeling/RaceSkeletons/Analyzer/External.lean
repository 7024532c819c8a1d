import RaceSkeletons.Analyzer.Basic
import RaceSkeletons.Analyzer.Decode
import RaceSkeletons.Tool.Process

/-!
# The external analyzer

Runs the analyzer program once per fragment and reads its verdict. A
verdict counts only if the program ended with status zero in time and
printed a verdict document; everything else is a failure of the fragment.
-/

namespace RaceSkeletons

/-- How the analyzer program is called. -/
structure ExternalAnalyzer where
  program : Path
  /-- Arguments before the fragment. -/
  leadingArgs : List String := []
  debug : Bool := false
  limit : Duration
  deriving Repr, DecidableEq

def diagnosticText (stderr : Bytes) : String :=
  Text.trimmed (Utf8.decodeLossy stderr)

namespace ExternalAnalyzer

def command (a : ExternalAnalyzer) (p : Path) : Command where
  program := a.program
  arguments := a.leadingArgs ++ ["-i", p.text] ++ (if a.debug then ["-debug"] else [])
  limit := a.limit

/-- The outcome of a command that ended this way. -/
def outcomeOf (a : ExternalAnalyzer) : ToolRun → Outcome
  | .notStarted error => .failed (.spawn a.program.text error.message)
  | .timedOut => .failed (.timeout a.limit)
  | .ended (some 0) stdout _ => Outcome.ofOutput (Utf8.decodeLossy stdout)
  | .ended status _ stderr => .failed (.nonZeroExit status (diagnosticText stderr))

/-- The notice of a verdict document, if the command gave one. -/
def verdictOf (p : Path) : ToolRun → List Notice
  | .ended (some 0) stdout _ =>
    match Payload.parse (Utf8.decodeLossy stdout) with
    | .ok payload => [.verdict p payload.hasWrite payload.lineNumber]
    | .error _ => []
  | _ => []

/-- The notice of a failure, if the outcome is one. -/
def failureOf (p : Path) (o : Outcome) : List Notice :=
  (o.failure?.map fun failure => .analyzerFailed p failure).toList

/-- The answer for a fragment, given how the command ended. -/
def analysisOf (a : ExternalAnalyzer) (p : Path) (run : ToolRun) : Analysis where
  outcome := a.outcomeOf run
  notices := verdictOf p run ++ failureOf p (a.outcomeOf run)

def on (a : ExternalAnalyzer) (host : Host) : Analyzer where
  name := "external"
  analyze fs p := a.analysisOf p (host fs (a.command p))

end ExternalAnalyzer

end RaceSkeletons
