import RaceSkeletons.Log.Filter
import RaceSkeletons.Settings.Environment

/-!
# Configuration of the log

How much is logged, and in which form. The environment gives a level and a
form; a filter in the environment replaces the level altogether.
-/

namespace RaceSkeletons

/-- How the log is written. -/
structure LogConfig where
  level : LogLevel := .info
  useJson : Bool := false
  includeTarget : Bool := false
  /-- Whether records show where they come from. -/
  includeLocation : Bool := false
  deriving Repr, DecidableEq, Inhabited

namespace LogConfig

/-- The configuration that the environment gives. From the debug level on,
records show their topic and where they come from. -/
def ofEnvironment (env : Environment) : LogConfig :=
  let level := ((env.text? "SKELCHECK_LOG_LEVEL").bind LogLevel.parse?).getD .info
  { level
    useJson := env.text? "SKELCHECK_LOG_JSON" == some "true"
    includeTarget := level.shows .debug
    includeLocation := level.shows .debug }

def filter (c : LogConfig) (env : Environment) : LogFilter :=
  match env.text? "RUST_LOG" with
  | some directives => .parse directives
  | none => .forTopic "skelcheck" c.level

end LogConfig

end RaceSkeletons
