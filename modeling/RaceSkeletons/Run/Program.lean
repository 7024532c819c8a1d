import RaceSkeletons.CommandLine.Describe
import RaceSkeletons.Log.Topic
import RaceSkeletons.Report.SummaryText
import RaceSkeletons.Run.Pipeline

/-!
# The program

From arguments, environment and files to outputs, log and exit code.
Invalid settings, a root that cannot be listed and an output that cannot be
written give an exit code other than zero; problems of single fragments do
not.
-/

namespace RaceSkeletons

/-- What the program is started with. -/
structure Invocation where
  arguments : List String
  environment : Environment
  /-- The number of workers that suits the machine. -/
  hostWorkers : Nat
  host : Host
  files : FileSystem
  startedAt : Timestamp := ⟨0, 0⟩
  elapsed : Duration := {}

/-- What the program leaves behind. -/
structure ProgramResult where
  exitCode : Nat
  stdout : String := ""
  /-- What is written to the diagnostic output besides the log. -/
  stderr : String := ""
  log : List LogRecord := []
  logsAsJson : Bool := false
  files : FileSystem

/-- What a subcommand answers. -/
structure Answer where
  files : FileSystem
  trace : Trace := []
  /-- The text to print, if there is one, even when the command fails. -/
  output : Option String := none
  /-- Why the command failed, from what was attempted to what went wrong. -/
  failure : Option (List String) := none

def settingsReasons (e : SettingsError) : List String :=
  ["Invalid configuration", e.message]

/-- The reasons why a run, or a part of it, failed. -/
def runReasons (attempt : String) (e : RunError) : List String :=
  attempt :: e.message :: (e.cause?.map FileError.message).toList

namespace Program

def version : String := "0.3.0"

def verify (i : Invocation) (o : VerifyOptions) : Answer :=
  match Settings.resolve i.environment i.hostWorkers o.flags with
  | .error e => { files := i.files, failure := some (settingsReasons e) }
  | .ok settings =>
    let req : RunRequest :=
      { root := o.root, combinedFile := o.combinedFile, reportFile := o.reportFile,
        normalize := !o.skipNormalize }
    let ctx : RunContext :=
      { settings, analyzer := settings.externalAnalyzer i.host, host := i.host }
    let r := ctx.execute req i.files i.startedAt i.elapsed
    let trace := .notice (.configuration settings) :: r.trace
    match r.result with
    | .error e =>
      { files := r.fs, trace,
        failure := some (runReasons ("Failed to verify " ++ o.root.text) e) }
    | .ok outcome => { files := r.fs, trace, output := some (outcome.summary.render o.format) }

def listCorpus (i : Invocation) (o : DiscoverOptions) : Answer :=
  match Settings.resolve i.environment i.hostWorkers { extension := o.extension } with
  | .error e => { files := i.files, failure := some (settingsReasons e) }
  | .ok settings =>
    let trace := Trace.ofNotices (discoverNotices i.files o.root settings.extension)
    match discover i.files o.root settings.extension with
    | .error e =>
      { files := i.files, trace,
        failure :=
          some (runReasons ("Failed to discover cases in " ++ o.root.text) (.discovery e)) }
    | .ok d => { files := i.files, trace, output := some ((d.listing o.root).render o.format) }

/-- Shows the settings, even those that are refused. -/
def showSettings (i : Invocation) (o : ConfigOptions) : Answer :=
  let settings := Settings.ofEnvironment i.environment i.hostWorkers
  { files := i.files, output := some (settings.render o.format),
    failure := settings.fault?.map settingsReasons }

def perform (i : Invocation) : Subcommand → Answer
  | .verify o => verify i o
  | .discover o => listCorpus i o
  | .config o => showSettings i o

/-- The configuration of the log, and a complaint about a level that is
none. -/
def logConfig (env : Environment) (c : CommandLine) : LogConfig × String :=
  let base := LogConfig.ofEnvironment env
  let (level, complaint) :=
    match c.logLevel with
    | none => (base.level, "")
    | some word =>
      match LogLevel.parse? word with
      | some level => (level, "")
      | none =>
        (base.level,
          "Invalid log level '" ++ word ++ "', keeping " ++ base.level.name ++
            ". Valid levels: trace, debug, info, warn, error\n")
  ({ base with level := level.adjusted c.verbose c.quiet, useJson := base.useJson || c.logJson },
    complaint)

/-- What is printed instead of doing anything. -/
def usageText : UsageError → String
  | .version => "skelcheck " ++ version ++ "\n"
  | _ => ""

/-- Runs the program. -/
def run (i : Invocation) : ProgramResult :=
  match CommandLine.parse i.arguments with
  | .error e => { exitCode := e.exitCode, stdout := usageText e, files := i.files }
  | .ok c =>
    let (config, complaint) := logConfig i.environment c
    let a := perform i c.command
    let reason := a.failure.map reasonChain
    let trace : Trace :=
      .notice (.programStarted version) :: .notice (.arguments c.describe) :: a.trace ++
        (reason.map fun r => .notice (.commandFailed r)).toList
    { exitCode := if reason.isSome then 1 else 0
      stdout := (a.output.map (· ++ "\n")).getD ""
      stderr := complaint ++ (reason.map fun r => "Error: " ++ r ++ "\n").getD ""
      log := trace.shown (config.filter i.environment)
      logsAsJson := config.useJson
      files := a.files }

end Program

end RaceSkeletons
