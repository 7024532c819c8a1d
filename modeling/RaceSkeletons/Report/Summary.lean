import RaceSkeletons.Corpus.Accounts
import RaceSkeletons.Corpus.Coverage
import RaceSkeletons.Report.Row
import RaceSkeletons.Timestamp

/-!
# Run summary

The summary holds the counters of one run. Each stage has fields of its own,
and recording a stage sets all of them: recording it again replaces what was
there, and no stage touches the fields of another.
-/

namespace RaceSkeletons

/-- The counters of one run. -/
structure RunSummary where
  startedAt : Timestamp
  root : Path
  normalized : Bool := false
  filesRenamed : Nat := 0
  filesChecked : Nat := 0
  packageUpdates : Nat := 0
  parsedSuccessfully : Nat := 0
  parseErrors : Nat := 0
  parseErrorDetails : PathMap String := .empty
  formatterAvailable : Bool := false
  subdirectories : Nat := 0
  filesDiscovered : Nat := 0
  validCases : Nat := 0
  excludedCases : List ExcludedCase := []
  casesWithPatternIssues : Nat := 0
  patternIssues : List PatternIssue := []
  combinedFragments : Nat := 0
  combinedSkipped : Nat := 0
  fragmentsAnalyzed : Nat := 0
  analyzerFailures : Nat := 0
  casesWithWrite : Nat := 0
  casesWithFailures : Nat := 0
  writeWrite : Nat := 0
  readWrite : Nat := 0
  rowsWritten : Nat := 0
  elapsedMs : Nat := 0
  deriving Repr, DecidableEq, Inhabited

/-- What a stage contributes to the summary. -/
inductive SummaryStep where
  | normalization (stats : NormalizeStats)
  | discovery (d : Discovery)
  | patterns (report : PatternReport)
  | combined (c : CombinedFile)
  | analysis (results : AnalysisResults)
  | reports (rows : List CaseRow)
  | rowsWritten (n : Nat)
  | finish (elapsed : Duration)
  deriving Repr, DecidableEq

namespace RunSummary

/-- The summary of a run that has just started. -/
def start (root : Path) (startedAt : Timestamp) : RunSummary :=
  { startedAt, root }

/-- The number of directories that are no cases. -/
def excluded (s : RunSummary) : Nat :=
  s.excludedCases.length

/-- Elapsed milliseconds are kept in 64 bits. -/
def maxElapsed : Nat := Nat.pow 2 64

/-- Records a stage. -/
def record (s : RunSummary) : SummaryStep → RunSummary
  | .normalization stats =>
    { s with
      normalized := true
      filesRenamed := stats.filesRenamed
      filesChecked := stats.totalFiles
      packageUpdates := stats.packageUpdates
      parsedSuccessfully := stats.parsedSuccess
      parseErrors := stats.parseErrors
      parseErrorDetails := stats.parseErrorDetails
      formatterAvailable := stats.checkerAvailable }
  | .discovery d =>
    { s with
      subdirectories := d.totalSubdirs
      validCases := d.cases.length
      filesDiscovered := d.fragmentCount + (d.excluded.map (·.found)).foldr (· + ·) 0
      excludedCases := d.excluded }
  | .patterns report =>
    { s with
      casesWithPatternIssues := report.issues.length
      patternIssues := report.issues }
  | .combined c =>
    { s with
      combinedFragments := c.fragments
      combinedSkipped := c.skipped.length }
  | .analysis results =>
    { s with
      fragmentsAnalyzed := results.size
      analyzerFailures := results.values.countP Outcome.isFailure }
  | .reports rows =>
    let writeWrite := rows.countP (·.kind == .writeWrite)
    { s with
      casesWithWrite := rows.countP (·.hasWrite)
      casesWithFailures := rows.countP CaseRow.isIncomplete
      writeWrite
      readWrite := rows.length - writeWrite }
  | .rowsWritten n => { s with rowsWritten := n }
  | .finish elapsed => { s with elapsedMs := elapsed.millis % maxElapsed }

end RunSummary

end RaceSkeletons
