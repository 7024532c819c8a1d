import RaceSkeletons.Duration
import RaceSkeletons.Log.Level
import RaceSkeletons.Path.Basic
import RaceSkeletons.Settings.Environment

/-!
# Settings

What a run is configured with. Every setting has a default, the environment
may replace it, and flags may replace that. Only then are the values
checked, so a value that a flag replaces never matters.
-/

namespace RaceSkeletons

/-- The configuration of a run. -/
structure Settings where
  /-- The program that analyzes fragments. -/
  analyzer : Path := ⟨"./bin/analyzer"⟩
  /-- Arguments that come before the fragment on every call. -/
  analyzerArgs : List String := []
  analyzerDebug : Bool := false
  timeoutSecs : Nat := 120
  /-- How many analyzer calls may be under way at once. -/
  workers : Nat
  /-- The program that checks the syntax of fragments. -/
  formatter : Path := ⟨"gofmt"⟩
  /-- The extension of fragments, without its dot. -/
  extension : String := "go"
  /-- What the names of tracked variables start with. -/
  varPrefix : String := "racyVar"
  logLevel : String := "info"
  deriving Repr, DecidableEq, Inhabited

/-- What is wrong with settings. -/
inductive SettingsError where
  | noWorkers
  | noTimeout
  | timeoutTooLong
  | noAnalyzer
  | badExtension (extension : String)
  | badPrefix (varPrefix : String)
  | badLogLevel (level : String)
  deriving Repr, DecidableEq

namespace SettingsError

/-- Whether a value has the wrong form, and is not only out of range. -/
def isMalformed : SettingsError → Bool
  | .badExtension _ | .badPrefix _ => true
  | _ => false

def reason : SettingsError → String
  | .noWorkers => "Worker count must be at least 1"
  | .noTimeout => "Analyzer timeout must be at least 1 second"
  | .timeoutTooLong => "Analyzer timeout cannot exceed 1 hour"
  | .noAnalyzer => "Analyzer path must not be empty"
  | .badExtension extension => "extension: '" ++ extension ++ "' is not a bare file extension"
  | .badPrefix varPrefix => "var_prefix: '" ++ varPrefix ++ "' is not an identifier"
  | .badLogLevel level =>
    "Invalid log level: " ++ level ++ ". Valid options: trace, debug, info, warn, error"

def message (e : SettingsError) : String :=
  (if e.isMalformed then "Failed to parse " else "Configuration validation failed: ") ++ e.reason

end SettingsError

namespace Settings

/-- The longest time limit, in seconds. -/
def maxTimeoutSecs : Nat := 3600

/-- Whether a text is a file extension: not empty, without slash and dot. -/
def isBareExtension (extension : String) : Bool :=
  extension ≠ "" && !extension.toList.any fun c => c == '/' || c == '.'

def startsIdentifier (c : Char) : Bool :=
  c.isAlpha || c == '_'

/-- Whether a text is an identifier of ASCII characters. -/
def isIdentifier (s : String) : Bool :=
  match s.toList with
  | [] => false
  | c :: rest => startsIdentifier c && rest.all fun c => startsIdentifier c || c.isDigit

/-- What is wrong with the settings, if anything is. -/
def fault? (s : Settings) : Option SettingsError :=
  if s.workers = 0 then some .noWorkers
  else if s.timeoutSecs = 0 then some .noTimeout
  else if maxTimeoutSecs < s.timeoutSecs then some .timeoutTooLong
  else if s.analyzer.text = "" then some .noAnalyzer
  else if !isBareExtension s.extension then some (.badExtension s.extension)
  else if !isIdentifier s.varPrefix then some (.badPrefix s.varPrefix)
  else if (LogLevel.parse? s.logLevel).isNone then some (.badLogLevel s.logLevel)
  else none

def isValid (s : Settings) : Bool :=
  s.fault?.isNone

/-- The settings, if nothing is wrong with them. -/
def checked (s : Settings) : Except SettingsError Settings :=
  match s.fault? with
  | none => .ok s
  | some e => .error e

/-- The time limit of one call. -/
def timeout (s : Settings) : Duration :=
  ⟨s.timeoutSecs, 0⟩

def bareExtension (extension : String) : String :=
  String.ofList (extension.toList.dropWhile (· == '.'))

/-- The settings that the environment gives. `hostWorkers` is the number of
workers that suits the machine. -/
def ofEnvironment (env : Environment) (hostWorkers : Nat) : Settings :=
  { analyzer := ((env.text? "SKELCHECK_ANALYZER").map Path.mk).getD ⟨"./bin/analyzer"⟩
    analyzerDebug := env.isSet "SKELCHECK_ANALYZER_DEBUG" || env.isSet "DEBUG"
    timeoutSecs := (env.number? "SKELCHECK_ANALYZER_TIMEOUT").getD 120
    workers := (env.number? "SKELCHECK_WORKERS").getD hostWorkers
    formatter := ((env.text? "SKELCHECK_FORMATTER").map Path.mk).getD ⟨"gofmt"⟩
    extension := ((env.text? "SKELCHECK_EXTENSION").map bareExtension).getD "go"
    varPrefix := (env.text? "SKELCHECK_VAR_PREFIX").getD "racyVar"
    logLevel := Text.lowered ((env.text? "SKELCHECK_LOG_LEVEL").getD "info") }

/-- Settings given by flags; they replace those of the environment. -/
structure Flags where
  analyzer : Option Path := none
  analyzerArgs : List String := []
  workers : Option Nat := none
  timeout : Option Nat := none
  formatter : Option Path := none
  extension : Option String := none
  varPrefix : Option String := none
  debugAnalyzer : Bool := false
  deriving Repr, DecidableEq, Inhabited

/-- The settings with the given flags put over them. -/
def withFlags (s : Settings) (f : Flags) : Settings :=
  { s with
    analyzer := f.analyzer.getD s.analyzer
    analyzerArgs := if f.analyzerArgs = [] then s.analyzerArgs else f.analyzerArgs
    analyzerDebug := s.analyzerDebug || f.debugAnalyzer
    timeoutSecs := f.timeout.getD s.timeoutSecs
    workers := f.workers.getD s.workers
    formatter := f.formatter.getD s.formatter
    extension := (f.extension.map bareExtension).getD s.extension
    varPrefix := f.varPrefix.getD s.varPrefix }

/-- The settings of a run: flags over environment over defaults, checked. -/
def resolve (env : Environment) (hostWorkers : Nat) (f : Flags) : Except SettingsError Settings :=
  ((ofEnvironment env hostWorkers).withFlags f).checked

end Settings

end RaceSkeletons
