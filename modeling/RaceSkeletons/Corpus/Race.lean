import RaceSkeletons.Corpus.Fragment
import RaceSkeletons.Tracked.Pattern

/-!
# Kinds of races

A race is classified from the text of its two fragments alone. What the
analyzer says about them is reported beside the classification and never
reconciled with it.
-/

namespace RaceSkeletons

/-- The two kinds of races. -/
inductive RaceKind where
  /-- Both sides write. -/
  | writeWrite
  /-- At most one side writes. -/
  | readWrite
  deriving Repr, DecidableEq, Inhabited

def RaceKind.name : RaceKind → String
  | .writeWrite => "write-write"
  | .readWrite => "read-write"

/-- A race is write-write when both texts assign to a tracked variable. -/
def TrackedPattern.classifyTexts (p : TrackedPattern) (first second : String) : RaceKind :=
  if p.isAssigned first && p.isAssigned second then .writeWrite else .readWrite

/-- The kind of the race a case stands for. -/
def TrackedPattern.classify (p : TrackedPattern) (c : Case) : RaceKind :=
  p.classifyTexts c.first.content c.second.content

end RaceSkeletons
