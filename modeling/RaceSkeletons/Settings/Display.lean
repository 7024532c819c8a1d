import RaceSkeletons.Render.Format
import RaceSkeletons.Settings.Basic

/-!
# The settings as an output

Every setting is shown as text, in the order of the names. Analyzer
arguments appear only when there are some.
-/

namespace RaceSkeletons.Settings

/-- The arguments of the analyzer in one text. -/
def argumentText (s : Settings) : String :=
  String.intercalate " " s.analyzerArgs

/-- The settings by name, in the order of the names. -/
def entries (s : Settings) : List (String × String) :=
  [("analyzer", s.analyzer.text)] ++
  (if s.analyzerArgs = [] then [] else [("analyzer_args", s.argumentText)]) ++
  [("analyzer_debug", toString s.analyzerDebug),
   ("analyzer_timeout_secs", toString s.timeoutSecs),
   ("extension", s.extension),
   ("formatter", s.formatter.text),
   ("log_level", s.logLevel),
   ("var_prefix", s.varPrefix),
   ("workers", toString s.workers)]

/-- The settings as a document. -/
def document (s : Settings) : Document :=
  .record (s.entries.map fun entry => (entry.1, .text entry.2))

def line (label value : String) : String :=
  "  " ++ label ++ ": " ++ value ++ "\n"

def text (s : Settings) : String :=
  "Skelcheck Configuration:\n" ++
    line "Analyzer" s.analyzer.text ++
    (if s.analyzerArgs = [] then "" else line "Analyzer Args" s.argumentText) ++
    line "Analyzer Debug" (toString s.analyzerDebug) ++
    line "Analyzer Timeout" (toString s.timeoutSecs ++ "s") ++
    line "Workers" (toString s.workers) ++
    line "Formatter" s.formatter.text ++
    line "Extension" ("." ++ s.extension) ++
    line "Tracked Prefix" s.varPrefix ++
    line "Log Level" s.logLevel

def render (s : Settings) (format : OutputFormat) : String :=
  format.render s.text s.document

end RaceSkeletons.Settings
