import RaceSkeletons.Corpus.Fragment
import RaceSkeletons.Corpus.Problem
import RaceSkeletons.Path.Map

/-!
# What the stages found

Each stage over a corpus answers a small record of what it found or did.
-/

namespace RaceSkeletons

/-- The cases of a corpus. -/
structure Discovery where
  /-- The cases, in the order of their directories. -/
  cases : List Case := []
  /-- The directories that are no cases, in order. -/
  excluded : List ExcludedCase := []
  /-- The number of directories in the root. -/
  totalSubdirs : Nat := 0
  deriving Repr, DecidableEq, Inhabited

namespace Discovery

/-- The number of fragments of all cases. -/
def fragmentCount (d : Discovery) : Nat :=
  d.cases.length * 2

/-- The fragments of all cases, case by case, first before second. -/
def fragments (d : Discovery) : List Fragment :=
  d.cases.flatMap Case.fragments

end Discovery

/-- What normalization did. -/
structure NormalizeStats where
  filesRenamed : Nat := 0
  totalFiles : Nat := 0
  packageUpdates : Nat := 0
  parsedSuccess : Nat := 0
  parseErrors : Nat := 0
  /-- The diagnostic text for each fragment that was rejected. -/
  parseErrorDetails : PathMap String := .empty
  checkerAvailable : Bool := false
  deriving Repr, DecidableEq, Inhabited

/-- What went into a combined file. -/
structure CombinedFile where
  fragments : Nat := 0
  /-- The fragments that could not be read. -/
  skipped : List Path := []
  deriving Repr, DecidableEq, Inhabited

end RaceSkeletons
