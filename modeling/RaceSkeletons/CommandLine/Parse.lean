import RaceSkeletons.CommandLine.Scan

/-!
# Command lines

The options that a scan met are applied one after the other to a draft,
which holds what was given so far. A complete draft becomes a command line.
-/

namespace RaceSkeletons

/-- Options of a verification. -/
structure VerifyOptions where
  root : Path
  combinedFile : Path
  reportFile : Path
  flags : Settings.Flags
  skipNormalize : Bool
  format : OutputFormat
  deriving Repr, DecidableEq

/-- Options of a listing. -/
structure DiscoverOptions where
  root : Path
  extension : Option String
  format : OutputFormat
  deriving Repr, DecidableEq

/-- Options of a look at the settings. -/
structure ConfigOptions where
  format : OutputFormat
  deriving Repr, DecidableEq

/-- What the program is asked to do. -/
inductive Subcommand where
  | verify (options : VerifyOptions)
  | discover (options : DiscoverOptions)
  | config (options : ConfigOptions)
  deriving Repr, DecidableEq

/-- A command line that was accepted. -/
structure CommandLine where
  command : Subcommand
  logLevel : Option String
  verbose : Nat
  quiet : Bool
  logJson : Bool
  deriving Repr, DecidableEq

/-- What was given so far. -/
structure Draft where
  root : Option Path := none
  combinedFile : Option Path := none
  reportFile : Option Path := none
  flags : Settings.Flags := {}
  skipNormalize : Bool := false
  format : Option OutputFormat := none
  logLevel : Option String := none
  verbose : Nat := 0
  quiet : Bool := false
  logJson : Bool := false
  deriving Repr, DecidableEq

/-! ## Values -/

def readTextValue (s : String) : Except UsageError String := .ok s

/-- A path, which is not empty. -/
def readPathValue (s : String) : Except UsageError Path :=
  if s = "" then .error .invalidValue else .ok ⟨s⟩

/-- A number that fits into a machine word. -/
def readNumberValue (s : String) : Except UsageError Nat :=
  match readWord? s with
  | some n => .ok n
  | none => .error .badNumber

def readFormatValue : String → Except UsageError OutputFormat
  | "json" => .ok .json
  | "yaml" => .ok .yaml
  | "human" => .ok .human
  | _ => .error .invalidValue

/-- The value of an option that may be given once. -/
def setOnce {α : Type} (current : Option α) (value : Option String)
    (read : String → Except UsageError α) : Except UsageError (Option α) :=
  match value with
  | none => .error .invalidValue
  | some s => if current.isSome then .error .conflict else (read s).map some

/-- A flag that may be given once. -/
def raiseOnce (current : Bool) : Except UsageError Bool :=
  if current then .error .conflict else .ok true

/-- The greatest count of an option that is counted. -/
def maxCount : Nat := 255

namespace Draft

/-- The draft with one more option. -/
def apply (d : Draft) (u : OptionUse) : Except UsageError Draft :=
  match u.id with
  | .root => (setOnce d.root u.value readPathValue).map fun v => { d with root := v }
  | .combinedFile =>
    (setOnce d.combinedFile u.value readPathValue).map fun v => { d with combinedFile := v }
  | .reportFile =>
    (setOnce d.reportFile u.value readPathValue).map fun v => { d with reportFile := v }
  | .analyzer =>
    (setOnce d.flags.analyzer u.value readPathValue).map fun v =>
      { d with flags := { d.flags with analyzer := v } }
  | .analyzerArg =>
    match u.value with
    | none => .error .invalidValue
    | some s =>
      .ok { d with flags := { d.flags with analyzerArgs := d.flags.analyzerArgs ++ [s] } }
  | .workers =>
    (setOnce d.flags.workers u.value readNumberValue).map fun v =>
      { d with flags := { d.flags with workers := v } }
  | .timeout =>
    (setOnce d.flags.timeout u.value readNumberValue).map fun v =>
      { d with flags := { d.flags with timeout := v } }
  | .formatter =>
    (setOnce d.flags.formatter u.value readPathValue).map fun v =>
      { d with flags := { d.flags with formatter := v } }
  | .extension =>
    (setOnce d.flags.extension u.value readTextValue).map fun v =>
      { d with flags := { d.flags with extension := v } }
  | .varPrefix =>
    (setOnce d.flags.varPrefix u.value readTextValue).map fun v =>
      { d with flags := { d.flags with varPrefix := v } }
  | .debugAnalyzer =>
    (raiseOnce d.flags.debugAnalyzer).map fun v =>
      { d with flags := { d.flags with debugAnalyzer := v } }
  | .skipNormalize => (raiseOnce d.skipNormalize).map fun v => { d with skipNormalize := v }
  | .format => (setOnce d.format u.value readFormatValue).map fun v => { d with format := v }
  | .logLevel => (setOnce d.logLevel u.value readTextValue).map fun v => { d with logLevel := v }
  | .verbose => .ok { d with verbose := min (d.verbose + 1) maxCount }
  | .quiet => (raiseOnce d.quiet).map fun v => { d with quiet := v }
  | .logJson => (raiseOnce d.logJson).map fun v => { d with logJson := v }
  | .help => .error .help
  | .version => .error .version

def applyAll (d : Draft) : List OptionUse → Except UsageError Draft
  | [] => .ok d
  | u :: rest =>
    match d.apply u with
    | .error e => .error e
    | .ok d => applyAll d rest

/-- Whether two options exclude each other. -/
def hasConflict (d : Draft) : Bool :=
  d.quiet && d.verbose ≠ 0

/-- The draft, unless options exclude each other. -/
def checked (d : Draft) : Except UsageError Draft :=
  if d.hasConflict then .error .conflict else .ok d

def subcommand? (d : Draft) : CommandLevel → Option Subcommand
  | .program => none
  | .verify =>
    match d.root, d.combinedFile, d.reportFile with
    | some root, some combinedFile, some reportFile =>
      some (.verify
        { root, combinedFile, reportFile, flags := d.flags, skipNormalize := d.skipNormalize,
          format := d.format.getD .human })
    | _, _, _ => none
  | .discover =>
    d.root.map fun root =>
      .discover { root, extension := d.flags.extension, format := d.format.getD .human }
  | .config => some (.config { format := d.format.getD .human })

/-- A subcommand with the options about logging. Those behind the subcommand
count before those in front of it. -/
def commandLine (front behind : Draft) (command : Subcommand) : CommandLine where
  command
  logLevel := behind.logLevel.or front.logLevel
  verbose := if behind.verbose = 0 then front.verbose else behind.verbose
  quiet := behind.quiet || front.quiet
  logJson := behind.logJson || front.logJson

end Draft

namespace Scan

/-- The options whose values have been looked at when the scan ends. -/
def settled (s : Scan) : List OptionUse :=
  if s.uses.getLast?.any (·.isOpen) then s.uses.dropLast else s.uses

/-- The option whose value is still open when the scan ends. -/
def unsettled (s : Scan) : List OptionUse :=
  (s.uses.getLast?.filter (·.isOpen)).toList

end Scan

namespace CommandLine

/-- Parses the arguments behind a subcommand. -/
def parseLevel (level : CommandLevel) (arguments : List String) :
    Except UsageError (Draft × Subcommand) :=
  let s := level.scanAll arguments
  match s.ending with
  | .stopped e settles =>
    match ({} : Draft).applyAll (if settles then s.uses else s.settled) with
    | .error earlier => .error earlier
    | .ok _ => .error e
  | .subcommand .. => .error .unknownArgument
  | .finished =>
    match (({} : Draft).applyAll s.uses).bind Draft.checked with
    | .error e => .error e
    | .ok d =>
      match d.subcommand? level with
      | none => .error .missingRequired
      | some command => .ok (d, command)

/-- What the help subcommand answers: help, if what follows it names one
subcommand or none. -/
def helpTopic : List String → UsageError
  | [] => .help
  | [topic] => if CommandLevel.program.isSubcommand topic then .help else .unknownSubcommand
  | _ => .unknownSubcommand

/-- Parses what follows the options `front` in front of a subcommand; `last`
is the option whose value is still open there. -/
def parseSubcommand (front : Draft) (last : List OptionUse) (level : CommandLevel)
    (arguments : List String) : Except UsageError CommandLine :=
  match parseLevel level arguments with
  | .error e => .error e
  | .ok (behind, command) =>
    match (front.applyAll last).bind Draft.checked with
    | .error e => .error e
    | .ok front => .ok (front.commandLine behind command)

def parse (arguments : List String) : Except UsageError CommandLine :=
  let s := CommandLevel.program.scanAll arguments
  match s.ending with
  | .stopped e settles =>
    match ({} : Draft).applyAll (if settles then s.uses else s.settled) with
    | .error earlier => .error earlier
    | .ok _ => .error e
  | .finished =>
    match ({} : Draft).applyAll s.uses with
    | .error e => .error e
    | .ok _ => .error (if s.uses = [] then .helpInstead else .missingSubcommand)
  | .subcommand name rest =>
    match ({} : Draft).applyAll s.settled with
    | .error e => .error e
    | .ok front =>
      match CommandLevel.ofName? name with
      | none => .error (helpTopic rest)
      | some level => parseSubcommand front s.unsettled level rest

end CommandLine

end RaceSkeletons
