import RaceSkeletons.Log.Config
import RaceSkeletons.Run.Trace

/-!
# Topics of the log

Every record belongs to a topic; log filters choose records by it.
-/

namespace RaceSkeletons

def Notice.topic : Notice → String
  | .fragmentUnreadable .. => "skelcheck::corpus"
  | .noSubdirectories _ | .caseUnlistable .. | .malformedCase _ | .caseFound .. | .discovered .. =>
    "skelcheck::corpus::discovery"
  | .entryUnreadable _ | .nameTaken .. | .renamed .. | .renameFailed .. | .renamedTotal _
  | .headerAdded _ | .commentsRemoved _ | .headerFailed .. | .stripFailed .. | .checkFailed ..
  | .checkerMissing _ | .syntaxRejected .. | .normalized .. => "skelcheck::corpus::normalize"
  | .fragmentSkipped .. | .combined .. => "skelcheck::corpus::combined"
  | .covered _ | .uncovered _ => "skelcheck::validation::pattern"
  | .nothingToAnalyze => "skelcheck::analyzer::invoker"
  | .verdict .. | .analyzerFailed .. => "skelcheck::analyzer::external"
  | .reportWritten .. => "skelcheck::report::writer"
  | .started .. | .normalizationSkipped => "skelcheck::pipeline::orchestrator"
  | .programStarted _ | .arguments _ => "skelcheck"
  | .configuration _ | .commandFailed _ => "skelcheck::cli::handlers"

def Occurrence.topic : Occurrence → String
  | .notice n => n.topic
  | .progress _ => "skelcheck::progress::logging"

/-- The records of a trace that a filter shows. -/
def Trace.shown (t : Trace) (f : LogFilter) : List LogRecord :=
  (t.filter fun o => f.shows o.topic o.record.level).map Occurrence.record

end RaceSkeletons
