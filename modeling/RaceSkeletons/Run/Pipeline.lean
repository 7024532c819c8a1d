import RaceSkeletons.Analyzer.External
import RaceSkeletons.Analyzer.Fanout
import RaceSkeletons.Corpus.Combine
import RaceSkeletons.Corpus.Discover
import RaceSkeletons.Corpus.Normalize
import RaceSkeletons.Report.File
import RaceSkeletons.Report.Summary

/-!
# Runs

A run takes a corpus through all stages: normalization if it is asked for,
discovery, the check for tracked variables, the combined file, the analysis
of every fragment, and the report. A run answers the changed file system,
everything that happened, and either its rows with the summary or what ended
it early.
-/

namespace RaceSkeletons

/-- What a run is asked to do. -/
structure RunRequest where
  root : Path
  combinedFile : Path
  reportFile : Path
  normalize : Bool
  deriving Repr, DecidableEq, Inhabited

/-- Everything outside a run that it depends on. -/
structure RunContext where
  settings : Settings
  analyzer : Analyzer
  /-- Runs the syntax checker. -/
  host : Host
  /-- Which of the calls under way ends next. -/
  schedule : Nat → Nat := inOrder

/-- The rows and the summary of a complete run. -/
structure RunOutcome where
  rows : List CaseRow
  summary : RunSummary
  deriving Repr, DecidableEq

/-- What a run, or a part of one, leaves behind. -/
structure Run (α : Type) where
  fs : FileSystem
  trace : Trace
  result : Except RunError α

namespace Run

variable {α β : Type}

/-- Goes on with the result of a part of a run; what has ended early stays
ended. -/
def andThen (r : Run α) (next : FileSystem → α → Run β) : Run β :=
  match r.result with
  | .error e => { fs := r.fs, trace := r.trace, result := .error e }
  | .ok a =>
    let rest := next r.fs a
    { rest with trace := r.trace ++ rest.trace }

end Run

namespace RunContext

variable (ctx : RunContext) (req : RunRequest)

def pattern : TrackedPattern :=
  ⟨ctx.settings.varPrefix⟩

def checker : SyntaxChecker where
  program := ctx.settings.formatter
  limit := ctx.settings.timeout

/-- Normalizes the corpus, if that is asked for. -/
def normalizeStage (fs : FileSystem) (summary : RunSummary) : Run RunSummary :=
  if req.normalize then
    let (changed, report) :=
      normalizeCorpus ctx.host ctx.checker fs req.root ctx.settings.extension
    { fs := changed
      trace := Trace.ofNotices (report.notices ctx.checker) ++
        [.progress (.normalized report.stats.totalFiles report.stats.parseErrors)]
      result := .ok (summary.record (.normalization report.stats)) }
  else { fs, trace := [.notice .normalizationSkipped], result := .ok summary }

def discoverStage (fs : FileSystem) (summary : RunSummary) : Run (Discovery × RunSummary) :=
  match survey fs req.root ctx.settings.extension with
  | .error e => { fs, trace := [], result := .error (.discovery e) }
  | .ok findings =>
    let d := Discovery.ofFindings findings
    { fs
      trace := Trace.ofNotices (surveyNotices req.root findings) ++
        [.progress (.discovered d.cases.length d.excluded.length)]
      result := .ok (d, summary.record (.discovery d)) }

def validateStage (fs : FileSystem) (d : Discovery) (summary : RunSummary) : Run RunSummary :=
  let report := ctx.pattern.validate d.cases
  { fs
    trace := Trace.ofNotices (ctx.pattern.validateNotices d.cases) ++
      [.progress (.validated report.casesChecked report.issues.length)]
    result := .ok (summary.record (.patterns report)) }

def combineStage (fs : FileSystem) (summary : RunSummary) : Run RunSummary :=
  let (changed, report) := writeCombined fs req.root req.combinedFile ctx.settings.extension
  { fs := changed
    trace := Trace.ofNotices report.notices
    result :=
      match report.result with
      | .error e => .error (.output req.combinedFile e)
      | .ok combined => .ok (summary.record (.combined combined)) }

/-- Analyzes the fragments of all cases. -/
def analyzeStage (fs : FileSystem) (d : Discovery) (summary : RunSummary) :
    Run (AnalysisResults × RunSummary) :=
  let (results, trace) :=
    analyzeAll ctx.settings.workers (ctx.analyzer.analyze fs) ctx.schedule
      (d.fragments.map (·.path))
  { fs, trace, result := .ok (results, summary.record (.analysis results)) }

def reportStage (fs : FileSystem) (d : Discovery) (results : AnalysisResults)
    (summary : RunSummary) : Run RunOutcome :=
  let rows := aggregate ctx.pattern d.cases results
  let (changed, written) := writeReport fs req.reportFile rows
  { fs := changed
    trace := Trace.ofNotices (reportNotices req.reportFile written) ++
      match written with
      | .ok n => [.progress (.reportWritten req.reportFile n)]
      | .error _ => []
    result := written.map fun n =>
      { rows, summary := (summary.record (.reports rows)).record (.rowsWritten n) } }

/-- All stages, one after the other. -/
def runStages (fs : FileSystem) (summary : RunSummary) : Run RunOutcome :=
  match checkRoot fs req.root with
  | .error e => { fs, trace := [], result := .error (.discovery e) }
  | .ok () =>
    (ctx.normalizeStage req fs summary).andThen fun fs summary =>
    (ctx.discoverStage req fs summary).andThen fun fs (d, summary) =>
    (ctx.validateStage fs d summary).andThen fun fs summary =>
    (ctx.combineStage req fs summary).andThen fun fs summary =>
    (ctx.analyzeStage fs d summary).andThen fun fs (results, summary) =>
    ctx.reportStage req fs d results summary

/-- The last event of a run. -/
def lastEvent : Except RunError RunOutcome → Progress
  | .ok outcome => .completed outcome.rows.length
  | .error e => .failed e.message

/-- A whole run. `startedAt` and `elapsed` are what the clock says. -/
def execute (fs : FileSystem) (startedAt : Timestamp) (elapsed : Duration) : Run RunOutcome :=
  let r := ctx.runStages req fs (RunSummary.start req.root startedAt)
  { fs := r.fs
    trace :=
      .notice (.started req.root ctx.analyzer.name) :: .progress (.started req.root) ::
        r.trace ++ [.progress (lastEvent r.result)]
    result := r.result.map fun outcome =>
      { outcome with summary := outcome.summary.record (.finish elapsed) } }

end RunContext

/-- The analyzer that settings describe, on a host. -/
def Settings.externalAnalyzer (s : Settings) (host : Host) : Analyzer :=
  ({ program := s.analyzer, leadingArgs := s.analyzerArgs, debug := s.analyzerDebug,
     limit := s.timeout } : ExternalAnalyzer).on host

end RaceSkeletons
