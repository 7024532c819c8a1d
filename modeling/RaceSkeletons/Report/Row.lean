import RaceSkeletons.Analyzer.Outcome
import RaceSkeletons.Corpus.Race
import RaceSkeletons.Path.Map

/-!
# Report rows

A row joins what is known about one case: the analyzer's outcomes for its
two fragments, their figures, and the kind of the race. A row has a fixed
sequence of cells, the columns of the report.
-/

namespace RaceSkeletons

/-- The outcomes of a run, under the paths the analyzer was given. -/
abbrev AnalysisResults := PathMap Outcome

/-- What the analyzer said about a fragment, in short. -/
inductive FragmentStatus where
  | writes
  | noWrite
  | failed
  /-- The analyzer never reported on the fragment. -/
  | notFound
  deriving Repr, DecidableEq, Inhabited

def flagText (b : Bool) : String :=
  if b then "TRUE" else "FALSE"

def FragmentStatus.text : FragmentStatus → String
  | .writes => flagText true
  | .noWrite => flagText false
  | .failed => "ERROR"
  | .notFound => "NOT_FOUND"

/-- One fragment's half of a row. -/
structure FragmentRow where
  name : String
  status : FragmentStatus
  line : String
  error : String
  hasWrite : Bool
  stats : FragmentStats
  deriving Repr, DecidableEq, Inhabited

/-- The half of a row for a fragment and its outcome, if there is one. -/
def FragmentRow.of (f : Fragment) : Option Outcome → FragmentRow
  | none =>
    { name := f.name, status := .notFound, line := "", error := "", hasWrite := false,
      stats := f.stats }
  | some (.failed failure) =>
    { name := f.name, status := .failed, line := "", error := failure.message,
      hasWrite := false, stats := f.stats }
  | some (.analyzed hasWrite line) =>
    { name := f.name, status := if hasWrite then .writes else .noWrite,
      line := line.getD "", error := "", hasWrite, stats := f.stats }

/-- Whether the fragment has no verdict. -/
def FragmentRow.isIncomplete (r : FragmentRow) : Bool :=
  r.status == .failed || r.status == .notFound

/-- The row of one case. -/
structure CaseRow where
  caseId : String
  first : FragmentRow
  second : FragmentRow
  hasWrite : Bool
  kind : RaceKind
  deriving Repr, DecidableEq, Inhabited

/-- The row of a case, given all outcomes and the kind of its race. -/
def CaseRow.of (c : Case) (results : AnalysisResults) (kind : RaceKind) : CaseRow :=
  let first := FragmentRow.of c.first (results.get? c.first.path)
  let second := FragmentRow.of c.second (results.get? c.second.path)
  { caseId := c.id, first, second, hasWrite := first.hasWrite || second.hasWrite, kind }

/-- Whether one of the two fragments has no verdict. -/
def CaseRow.isIncomplete (r : CaseRow) : Bool :=
  r.first.isIncomplete || r.second.isIncomplete

/-- The names of the columns. -/
def reportColumns : List String :=
  ["case_id",
   "file1_name", "file1_status", "file1_line", "file1_error",
   "file2_name", "file2_status", "file2_line", "file2_error",
   "has_write", "race_type",
   "file1_size", "file2_size",
   "file1_line_count", "file2_line_count",
   "file1_has_package", "file2_has_package",
   "file1_has_comments", "file2_has_comments"]

/-- The cells of a row, in the order of the columns. -/
def CaseRow.record (r : CaseRow) : List String :=
  [r.caseId,
   r.first.name, r.first.status.text, r.first.line, r.first.error,
   r.second.name, r.second.status.text, r.second.line, r.second.error,
   flagText r.hasWrite, r.kind.name,
   toString r.first.stats.size, toString r.second.stats.size,
   toString r.first.stats.lineCount, toString r.second.stats.lineCount,
   flagText r.first.stats.hasPackage, flagText r.second.stats.hasPackage,
   flagText r.first.stats.hasComments, flagText r.second.stats.hasComments]

/-- Joins cases, outcomes and kinds into rows, one per case, in order. -/
def aggregate (p : TrackedPattern) (cases : List Case) (results : AnalysisResults) :
    List CaseRow :=
  cases.map fun c => CaseRow.of c results (p.classify c)

end RaceSkeletons
