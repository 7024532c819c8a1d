import RaceSkeletons.Corpus.Problem

/-!
# What ends a run

Only three things end a run early: a root that cannot be listed, an output
that cannot be opened or written, and a report that cannot be written.
Everything that goes wrong with a single fragment or case becomes part of
the results instead.
-/

namespace RaceSkeletons

/-- Why a run ended early. -/
inductive RunError where
  | discovery (error : DiscoveryError)
  /-- A directory or a file for an output could not be made. -/
  | output (path : Path) (error : FileError)
  /-- The rows could not be written to the opened report. -/
  | report (path : Path) (error : FileError)
  deriving Repr, DecidableEq

namespace RunError

def message : RunError → String
  | .discovery e => e.message
  | .output path e => "Failed to write " ++ path.text ++ ": " ++ e.message
  | .report path e => "Failed to write report " ++ path.text ++ ": " ++ e.message

/-- The error of the operating system behind it, if there is one. -/
def cause? : RunError → Option FileError
  | .discovery (.unreadable _ e) => some e
  | .discovery _ => none
  | .output _ e => some e
  | .report _ e => some e

end RunError

/-- A chain of messages, from what was attempted to what went wrong. -/
def reasonChain (reasons : List String) : String :=
  String.intercalate ": " reasons

end RaceSkeletons
