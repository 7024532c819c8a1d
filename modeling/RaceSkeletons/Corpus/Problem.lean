import RaceSkeletons.FileSystem.Error
import RaceSkeletons.Path.Basic

/-!
# Problems of a corpus

A corpus whose root cannot be listed ends a run. A directory that is no case
is only left out.
-/

namespace RaceSkeletons

/-- The root of a corpus cannot be listed. -/
inductive DiscoveryError where
  | notFound (root : Path)
  | notDirectory (root : Path)
  | unreadable (root : Path) (error : FileError)
  deriving Repr, DecidableEq

def DiscoveryError.message : DiscoveryError → String
  | .notFound root => "Root directory does not exist: " ++ root.text
  | .notDirectory root => "Root path is not a directory: " ++ root.text
  | .unreadable root error =>
    "Failed to read root directory " ++ root.text ++ ": " ++ error.message

/-- A directory that does not hold exactly two fragments. -/
structure ExcludedCase where
  caseId : String
  dir : Path
  found : Nat
  extension : String
  deriving Repr, DecidableEq, Inhabited

/-- How an excluded directory reads in logs and summaries. -/
def ExcludedCase.message (e : ExcludedCase) : String :=
  "Directory " ++ e.dir.text ++ " has " ++ toString e.found ++ " ." ++ e.extension ++
    " files, expected exactly 2"

end RaceSkeletons
