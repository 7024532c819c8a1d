import RaceSkeletons.Corpus.Fragment
import RaceSkeletons.Tracked.Pattern

/-!
# Coverage of tracked variables

Every fragment of a case is expected to mention a tracked variable. A case
where one does not is reported, but it is analyzed all the same.
-/

namespace RaceSkeletons

/-- A case with fragments that mention no tracked variable. -/
structure PatternIssue where
  caseId : String
  dir : Path
  leading : String
  /-- Names of those fragments, first before second. -/
  missing : List String
  deriving Repr, DecidableEq, Inhabited

/-- How an issue reads in logs and summaries. -/
def PatternIssue.message (issue : PatternIssue) : String :=
  "In directory " ++ issue.dir.text ++ ", files missing " ++ issue.leading ++
    " pattern: " ++ String.intercalate ", " issue.missing

/-- What a check of many cases found. -/
structure PatternReport where
  casesChecked : Nat := 0
  issues : List PatternIssue := []
  deriving Repr, DecidableEq, Inhabited

namespace TrackedPattern

/-- Names of the fragments of a case that mention no tracked variable. -/
def missingIn (p : TrackedPattern) (c : Case) : List String :=
  (c.fragments.filter fun f => !p.isReferenced f.content).map (·.name)

/-- The issue of a case, if a fragment lacks a reference. -/
def issueOf? (p : TrackedPattern) (c : Case) : Option PatternIssue :=
  match p.missingIn c with
  | [] => none
  | missing => some { caseId := c.id, dir := c.dir, leading := p.leading, missing }

/-- Checks the cases one after the other. -/
def validate (p : TrackedPattern) (cases : List Case) : PatternReport :=
  { casesChecked := cases.length, issues := cases.filterMap p.issueOf? }

end TrackedPattern

end RaceSkeletons
