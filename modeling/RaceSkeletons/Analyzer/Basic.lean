import RaceSkeletons.FileSystem.Basic
import RaceSkeletons.Run.Trace
import RaceSkeletons.Path.Map

/-!
# Analyzers

An analyzer answers an outcome for every fragment it is called with,
whatever happens on the way, and the notices that go with it.
-/

namespace RaceSkeletons

/-- The answer of an analyzer for one fragment. -/
structure Analysis where
  outcome : Outcome
  notices : List Notice := []
  deriving Repr, DecidableEq

/-- Something that answers an outcome for every fragment. -/
structure Analyzer where
  name : String
  analyze : FileSystem → Path → Analysis

/-- The analyzer that answers from a table, and `fallback` for a path that is
not in it. -/
def Analyzer.ofTable (name : String) (table : PathMap Outcome) (fallback : Outcome) :
    Analyzer where
  name
  analyze _ p := { outcome := (table.get? p).getD fallback }

end RaceSkeletons
