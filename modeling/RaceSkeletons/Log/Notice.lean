import RaceSkeletons.Analyzer.Outcome
import RaceSkeletons.Corpus.Coverage
import RaceSkeletons.Corpus.Problem
import RaceSkeletons.FileSystem.Walk
import RaceSkeletons.Log.Record
import RaceSkeletons.Settings.Display

/-!
# Notices

A notice says what a stage did or met. Stages answer notices next to their
results; how a notice reads in the log is decided here alone.
-/

namespace RaceSkeletons

/-- Something worth a record in the log. -/
inductive Notice where
  /-- A fragment of a case cannot be read. -/
  | fragmentUnreadable (path : Path) (error : FileError)
  | noSubdirectories (root : Path)
  /-- A directory cannot be listed. -/
  | caseUnlistable (dir : Path) (error : FileError)
  | malformedCase (excluded : ExcludedCase)
  | caseFound (id first second : String)
  | discovered (root : Path) (subdirs cases excluded : Nat)
  /-- A walk cannot visit an entry. -/
  | entryUnreadable (error : WalkError)
  /-- A file keeps its name because the normal one is in use. -/
  | nameTaken (source target : Path)
  | renamed (source target : Path)
  | renameFailed (path : Path) (error : FileError)
  | renamedTotal (count : Nat)
  | headerAdded (path : Path)
  | commentsRemoved (path : Path)
  | headerFailed (path : Path) (error : FileError)
  | stripFailed (path : Path) (error : FileError)
  | checkFailed (path : Path) (failure : ToolFailure)
  | checkerMissing (program : Path)
  | syntaxRejected (path : Path) (diagnostics : String)
  | normalized (total packageUpdates parseErrors : Nat)
  /-- A fragment is left out of the combined file. -/
  | fragmentSkipped (path : Path) (error : FileError)
  | combined (output : Path) (fragments skipped : Nat)
  /-- Both fragments of a case mention a tracked variable. -/
  | covered (caseId : String)
  | uncovered (issue : PatternIssue)
  | nothingToAnalyze
  | verdict (path : Path) (hasWrite : Bool) (lineNumber : Option Nat)
  | analyzerFailed (path : Path) (failure : ToolFailure)
  | reportWritten (path : Path) (rows : Nat)
  | started (root : Path) (analyzer : String)
  | normalizationSkipped
  | programStarted (version : String)
  | arguments (description : String)
  | configuration (settings : Settings)
  | commandFailed (reason : String)
  deriving Repr, DecidableEq

namespace Notice

def lineNumberText : Option Nat → String
  | none => "None"
  | some n => "Some(" ++ toString n ++ ")"

/-- A path as a field. -/
def pathValue (p : Path) : LogValue := .text p.text

def record : Notice → LogRecord
  | .fragmentUnreadable path error =>
    ⟨.warn, "Failed to read fragment", [("path", pathValue path), ("error", .text error.message)]⟩
  | .noSubdirectories root => ⟨.warn, "No subdirectories found", [("root", pathValue root)]⟩
  | .caseUnlistable dir error =>
    ⟨.warn, "Failed to list case directory",
      [("dir", pathValue dir), ("error", .text error.message)]⟩
  | .malformedCase excluded => ⟨.warn, excluded.message, []⟩
  | .caseFound id first second =>
    ⟨.debug, "Discovered case",
      [("case", .text id), ("first", .text first), ("second", .text second)]⟩
  | .discovered root subdirs cases excluded =>
    ⟨.info, "Discovery complete",
      [("root", pathValue root), ("subdirs", .number subdirs), ("cases", .number cases),
       ("excluded", .number excluded)]⟩
  | .entryUnreadable error =>
    ⟨.warn, "Failed to read directory entry", [("error", .text error.message)]⟩
  | .nameTaken source target =>
    ⟨.error, "Cannot rename, target already exists",
      [("from", pathValue source), ("to", pathValue target)]⟩
  | .renamed source target =>
    ⟨.info, "Renamed", [("from", pathValue source), ("to", pathValue target)]⟩
  | .renameFailed path error =>
    ⟨.error, "Rename failed", [("path", pathValue path), ("error", .text error.message)]⟩
  | .renamedTotal count => ⟨.info, "Total files renamed", [("renamed", .number count)]⟩
  | .headerAdded path => ⟨.debug, "Added package declaration", [("path", pathValue path)]⟩
  | .commentsRemoved path => ⟨.debug, "Removed line comments", [("path", pathValue path)]⟩
  | .headerFailed path error =>
    ⟨.warn, "Failed to update package declaration",
      [("path", pathValue path), ("error", .text error.message)]⟩
  | .stripFailed path error =>
    ⟨.warn, "Failed to strip comments", [("path", pathValue path), ("error", .text error.message)]⟩
  | .checkFailed path failure =>
    ⟨.warn, "Syntax check failed to run",
      [("path", pathValue path), ("error", .text failure.message)]⟩
  | .checkerMissing program =>
    ⟨.warn, "Syntax checker not found, skipping format checks", [("checker", pathValue program)]⟩
  | .syntaxRejected path diagnostics =>
    ⟨.error, "Parse error", [("path", pathValue path), ("diagnostics", .text diagnostics)]⟩
  | .normalized total packageUpdates parseErrors =>
    ⟨.info, "Normalization complete",
      [("total", .number total), ("package_updates", .number packageUpdates),
       ("parse_errors", .number parseErrors)]⟩
  | .fragmentSkipped path error =>
    ⟨.warn, "Skipping unreadable fragment",
      [("path", pathValue path), ("error", .text error.message)]⟩
  | .combined output fragments skipped =>
    ⟨.info, "Combined file created",
      [("output", pathValue output), ("fragments", .number fragments),
       ("skipped", .number skipped)]⟩
  | .covered caseId =>
    ⟨.debug, "Tracked pattern present in both fragments", [("case", .text caseId)]⟩
  | .uncovered issue => ⟨.warn, issue.message, []⟩
  | .nothingToAnalyze => ⟨.debug, "No fragments to analyze", []⟩
  | .verdict path hasWrite lineNumber =>
    ⟨.debug, "Analyzer verdict",
      [("path", pathValue path), ("has_write", .flag hasWrite),
       ("line_number", .text (lineNumberText lineNumber))]⟩
  | .analyzerFailed path failure =>
    ⟨.warn, "Analyzer failed", [("path", pathValue path), ("error", .text failure.message)]⟩
  | .reportWritten path rows =>
    ⟨.debug, "CSV report written", [("path", pathValue path), ("rows", .number rows)]⟩
  | .started root analyzer =>
    ⟨.info, "Starting pipeline", [("root", pathValue root), ("analyzer", .text analyzer)]⟩
  | .normalizationSkipped => ⟨.debug, "Normalization skipped", []⟩
  | .programStarted version => ⟨.debug, "skelcheck v" ++ version ++ " starting", []⟩
  | .arguments description => ⟨.debug, "Arguments: " ++ description, []⟩
  | .configuration settings => ⟨.debug, settings.text, []⟩
  | .commandFailed reason => ⟨.error, reason, []⟩

end Notice

end RaceSkeletons
