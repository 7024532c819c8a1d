import RaceSkeletons.Render.Format
import RaceSkeletons.Settings.Basic

/-!
# Options of the command line

The program has three subcommands. Each understands options of its own, and
all of them, like the program itself, understand the options about logging.
-/

namespace RaceSkeletons

/-- Everything an argument can set. -/
inductive OptionId where
  | root
  | combinedFile
  | reportFile
  | analyzer
  | analyzerArg
  | workers
  | timeout
  | formatter
  | extension
  | varPrefix
  | debugAnalyzer
  | skipNormalize
  | format
  | logLevel
  | verbose
  | quiet
  | logJson
  | help
  | version
  deriving Repr, DecidableEq

/-- What stands behind an option. -/
inductive OptionValue where
  | none
  /-- A value that does not look like an option. -/
  | plain
  | any
  deriving Repr, DecidableEq

/-- How an option is written. -/
structure OptionSpec where
  id : OptionId
  long : String
  short : Option Char := none
  value : OptionValue := .none
  deriving Repr, DecidableEq

def OptionSpec.takesValue (o : OptionSpec) : Bool :=
  o.value ≠ .none

/-- Where an argument stands: before the subcommand, or behind it. -/
inductive CommandLevel where
  | program
  | verify
  | discover
  | config
  deriving Repr, DecidableEq

namespace CommandLevel

/-- Options that every level understands. -/
def commonOptions : List OptionSpec := [
  { id := .logLevel, long := "log-level", value := .plain },
  { id := .verbose, long := "verbose", short := some 'v' },
  { id := .quiet, long := "quiet", short := some 'q' },
  { id := .logJson, long := "log-json" },
  { id := .help, long := "help", short := some 'h' }]

def formatOption : OptionSpec :=
  { id := .format, long := "format", short := some 'f', value := .plain }

def extensionOption : OptionSpec :=
  { id := .extension, long := "extension", value := .plain }

/-- Options of the level alone. -/
def ownOptions : CommandLevel → List OptionSpec
  | .program => [{ id := .version, long := "version", short := some 'V' }]
  | .verify => [
      { id := .root, long := "input-dir", short := some 'i', value := .plain },
      { id := .combinedFile, long := "combined-file", short := some 'c', value := .plain },
      { id := .reportFile, long := "output-csv", short := some 'o', value := .plain },
      { id := .analyzer, long := "analyzer", value := .plain },
      { id := .analyzerArg, long := "analyzer-arg", value := .any },
      { id := .workers, long := "workers", short := some 'j', value := .plain },
      { id := .timeout, long := "timeout", value := .plain },
      { id := .formatter, long := "formatter", value := .plain },
      extensionOption,
      { id := .varPrefix, long := "var-prefix", value := .plain },
      { id := .debugAnalyzer, long := "debug-analyzer" },
      { id := .skipNormalize, long := "skip-normalize" },
      formatOption]
  | .discover => [extensionOption, formatOption]
  | .config => [formatOption]

def options (level : CommandLevel) : List OptionSpec :=
  level.ownOptions ++ commonOptions

def byLong? (level : CommandLevel) (name : String) : Option OptionSpec :=
  level.options.find? fun o => o.long = name

def byShort? (level : CommandLevel) (name : Char) : Option OptionSpec :=
  level.options.find? fun o => o.short = some name

/-- What the first argument without an option sets. -/
def positional? : CommandLevel → Option OptionId
  | .discover => some .root
  | _ => none

/-- The level that a subcommand opens. -/
def ofName? : String → Option CommandLevel
  | "verify" => some .verify
  | "discover" => some .discover
  | "config" => some .config
  | _ => none

/-- Whether a word stands for a subcommand at this level. -/
def isSubcommand (level : CommandLevel) (word : String) : Bool :=
  level = .program && (word = "help" || (ofName? word).isSome)

end CommandLevel

/-- Why a command line was not accepted, or needs no more than a text. -/
inductive UsageError where
  | missingRequired
  | unknownArgument
  /-- A value is missing, empty where it must not be, or none of the possible
  ones. -/
  | invalidValue
  | badNumber
  /-- Two arguments exclude each other, or one was given twice. -/
  | conflict
  /-- An option without value was given one. -/
  | tooManyValues
  | unknownSubcommand
  | missingSubcommand
  | help
  | version
  /-- Nothing was given at all. -/
  | helpInstead
  deriving Repr, DecidableEq

/-- The exit code of the program. -/
def UsageError.exitCode : UsageError → Nat
  | .help => 0
  | .version => 0
  | _ => 2

end RaceSkeletons
