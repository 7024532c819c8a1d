import RaceSkeletons.Duration
import RaceSkeletons.FileSystem.Basic

/-!
# External tools

The analyzer and the syntax checker are programs of the host. A run knows
of them only how a command ended: it could not be started, it took too
long, or it ended with a status and some output. Tools read files; they do
not change them.
-/

namespace RaceSkeletons

/-- A program with its arguments and the time it may take. -/
structure Command where
  program : Path
  arguments : List String
  limit : Duration
  deriving Repr, DecidableEq

/-- How a command ended. -/
inductive ToolRun where
  | notStarted (error : FileError)
  | timedOut
  /-- The status is none when a signal ended the program. -/
  | ended (status : Option Int) (stdout stderr : Bytes)
  deriving Repr, DecidableEq

/-- What runs commands. Every behaviour of programs is a host. -/
abbrev Host := FileSystem → Command → ToolRun

end RaceSkeletons
