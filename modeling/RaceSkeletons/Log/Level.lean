import RaceSkeletons.Text.Blank
import RaceSkeletons.Text.Lower

/-!
# Log levels

Levels are ordered by how much they show: a log at some level shows the
records of that level and of all levels before it.
-/

namespace RaceSkeletons

/-- The weight of a log record, and the verbosity of a log. -/
inductive LogLevel where
  | error
  | warn
  | info
  | debug
  | trace
  deriving Repr, DecidableEq, Inhabited

namespace LogLevel

/-- All levels, from the quietest log to the most verbose one. -/
def all : List LogLevel :=
  [.error, .warn, .info, .debug, .trace]

/-- The place of a level among all levels. -/
def rank : LogLevel → Nat
  | .error => 0
  | .warn => 1
  | .info => 2
  | .debug => 3
  | .trace => 4

def name : LogLevel → String
  | .error => "ERROR"
  | .warn => "WARN"
  | .info => "INFO"
  | .debug => "DEBUG"
  | .trace => "TRACE"

/-- The level of the given rank; beyond the last one there is only the last
one. -/
def ofRank (n : Nat) : LogLevel :=
  all[n]?.getD .trace

/-- The level that a word names, in any case and with blanks around it. -/
def parse? (word : String) : Option LogLevel :=
  match Text.lowered (Text.trimmed word) with
  | "trace" => some .trace
  | "debug" => some .debug
  | "info" => some .info
  | "warn" => some .warn
  | "warning" => some .warn
  | "error" => some .error
  | _ => none

/-- Whether a log at this level shows a record. -/
def shows (level record : LogLevel) : Bool :=
  record.rank ≤ level.rank

/-- The level that flags make of a base level: quiet wins over everything,
and each verbose flag goes one level up. -/
def adjusted (base : LogLevel) (verbose : Nat) (quiet : Bool) : LogLevel :=
  if quiet then .error else ofRank (base.rank + verbose)

end LogLevel

end RaceSkeletons
