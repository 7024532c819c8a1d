import RaceSkeletons.Duration
import RaceSkeletons.Log.Record
import RaceSkeletons.Path.Basic

/-!
# Progress of a run

A run reports its progress as a sequence of events. An event says what has
been finished; the time it took is known only to whoever watches the run,
and is added when the event is logged.
-/

namespace RaceSkeletons

/-- A step of a run that has been finished. -/
inductive Progress where
  | started (root : Path)
  | normalized (files parseErrors : Nat)
  | discovered (cases excluded : Nat)
  | validated (casesChecked issues : Nat)
  | analysisStarted (fragments workers : Nat)
  /-- One fragment of `total` has its outcome; `index` counts from one. -/
  | fragmentAnalyzed (path : Path) (index total : Nat) (success : Bool)
  | analysisComplete (fragments failures : Nat)
  | reportWritten (path : Path) (rows : Nat)
  | completed (cases : Nat)
  | failed (error : String)
  deriving Repr, DecidableEq

namespace Progress

/-- A field with a time in milliseconds, if the time is known. -/
def timeField (name : String) : Option Duration → List (String × LogValue)
  | none => []
  | some d => [(name, .text (toString d.millis))]

/-- The log record of an event that took some time, if that is known. -/
def record (elapsed : Option Duration) : Progress → LogRecord
  | .started root => ⟨.info, "Starting verification", [("root", .text root.text)]⟩
  | .normalized files parseErrors =>
    if parseErrors = 0 then
      ⟨.info, "Normalization complete",
        ("files", .number files) :: timeField "duration_ms" elapsed⟩
    else
      ⟨.warn, "Normalization complete with parse errors",
        ("files", .number files) :: ("parse_errors", .number parseErrors) ::
          timeField "duration_ms" elapsed⟩
  | .discovered cases excluded =>
    ⟨.info, "Case discovery complete",
      ("cases", .number cases) :: ("excluded", .number excluded) ::
        timeField "scan_time_ms" elapsed⟩
  | .validated casesChecked issues =>
    if issues = 0 then
      ⟨.debug, "Pattern validation complete", [("cases_checked", .number casesChecked)]⟩
    else
      ⟨.warn, "Pattern validation found issues",
        [("cases_checked", .number casesChecked), ("issues", .number issues)]⟩
  | .analysisStarted fragments workers =>
    ⟨.info, "Running analyzer",
      [("fragments", .number fragments), ("workers", .number workers)]⟩
  | .fragmentAnalyzed path index total success =>
    ⟨if success then .debug else .warn,
      if success then "Fragment analyzed" else "Fragment analysis failed",
      ("path", .text path.text) ::
        ("progress", .text (toString index ++ "/" ++ toString total)) ::
        timeField "duration_ms" elapsed⟩
  | .analysisComplete fragments failures =>
    ⟨.info, "Analysis complete",
      ("fragments", .number fragments) :: ("failures", .number failures) ::
        timeField "duration_ms" elapsed⟩
  | .reportWritten path rows =>
    ⟨.info, "Report written", [("path", .text path.text), ("rows", .number rows)]⟩
  | .completed cases =>
    ⟨.info, "Verification complete",
      ("cases", .number cases) :: timeField "total_time_ms" elapsed⟩
  | .failed error => ⟨.warn, "Verification failed", [("error", .text error)]⟩

end Progress

end RaceSkeletons
