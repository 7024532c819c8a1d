import RaceSkeletons.CommandLine.Parse
import RaceSkeletons.Text.Quoted

/-!
# A command line as text

The log shows the accepted command line with every field by name, so that a
run can be repeated from its log.
-/

namespace RaceSkeletons

namespace Describe

/-- A value that may be missing. -/
def optional {α : Type} (show_ : α → String) : Option α → String
  | none => "None"
  | some a => "Some(" ++ show_ a ++ ")"

def list {α : Type} (show_ : α → String) (items : List α) : String :=
  "[" ++ String.intercalate ", " (items.map show_) ++ "]"

def fields (name : String) (members : List (String × String)) : String :=
  name ++ " \x7b " ++ String.intercalate ", " (members.map fun m => m.1 ++ ": " ++ m.2) ++ " \x7d"

/-- A path between quotes; single quotes within it are escaped too. -/
def path (p : Path) : String :=
  String.ofList ((Text.quoted p.text).toList.flatMap fun c => if c = '\'' then ['\\', c] else [c])

def format : OutputFormat → String
  | .human => "Human"
  | .json => "Json"
  | .yaml => "Yaml"

def subcommand : Subcommand → String
  | .verify o =>
    "Verify(" ++ fields "VerifyArgs" [
      ("input_dir", path o.root),
      ("combined_file", path o.combinedFile),
      ("output_csv", path o.reportFile),
      ("analyzer", optional path o.flags.analyzer),
      ("analyzer_args", list Text.quoted o.flags.analyzerArgs),
      ("workers", optional toString o.flags.workers),
      ("timeout", optional toString o.flags.timeout),
      ("formatter", optional path o.flags.formatter),
      ("extension", optional Text.quoted o.flags.extension),
      ("var_prefix", optional Text.quoted o.flags.varPrefix),
      ("debug_analyzer", toString o.flags.debugAnalyzer),
      ("skip_normalize", toString o.skipNormalize),
      ("format", format o.format)] ++ ")"
  | .discover o =>
    "Discover(" ++ fields "DiscoverArgs" [
      ("input_dir", path o.root),
      ("extension", optional Text.quoted o.extension),
      ("format", format o.format)] ++ ")"
  | .config o => "Config(" ++ fields "ConfigArgs" [("format", format o.format)] ++ ")"

end Describe

def CommandLine.describe (c : CommandLine) : String :=
  Describe.fields "CliArgs" [
    ("command", Describe.subcommand c.command),
    ("log_level", Describe.optional Text.quoted c.logLevel),
    ("verbose", toString c.verbose),
    ("quiet", toString c.quiet),
    ("log_json", toString c.logJson)]

end RaceSkeletons
