import RaceSkeletons.Corpus.Listing
import RaceSkeletons.Report.Summary

/-!
# The summary as an output

The summary is written as a document with all of its fields, or as a text
for people that leaves out what did not happen.
-/

namespace RaceSkeletons

/-- An issue as a document. -/
def PatternIssue.document (issue : PatternIssue) : Document :=
  .record [
    ("case_id", .text issue.caseId),
    ("dir", .text issue.dir.text),
    ("prefix", .text issue.leading),
    ("missing", .list (issue.missing.map .text))]

namespace RunSummary

/-- A summary as a document. -/
def document (s : RunSummary) : Document :=
  .record [
    ("started_at", .text s.startedAt.text),
    ("root", .text s.root.text),
    ("normalized", .bool s.normalized),
    ("files_renamed", .number s.filesRenamed),
    ("files_checked", .number s.filesChecked),
    ("package_updates", .number s.packageUpdates),
    ("parsed_successfully", .number s.parsedSuccessfully),
    ("parse_errors", .number s.parseErrors),
    ("parse_error_details",
      .record (s.parseErrorDetails.toList.map fun entry => (entry.1.text, .text entry.2))),
    ("formatter_available", .bool s.formatterAvailable),
    ("subdirectories", .number s.subdirectories),
    ("files_discovered", .number s.filesDiscovered),
    ("valid_cases", .number s.validCases),
    ("excluded_cases", .list (s.excludedCases.map ExcludedCase.document)),
    ("cases_with_pattern_issues", .number s.casesWithPatternIssues),
    ("pattern_issues", .list (s.patternIssues.map PatternIssue.document)),
    ("combined_fragments", .number s.combinedFragments),
    ("combined_skipped", .number s.combinedSkipped),
    ("fragments_analyzed", .number s.fragmentsAnalyzed),
    ("analyzer_failures", .number s.analyzerFailures),
    ("cases_with_write", .number s.casesWithWrite),
    ("cases_with_failures", .number s.casesWithFailures),
    ("write_write", .number s.writeWrite),
    ("read_write", .number s.readWrite),
    ("rows_written", .number s.rowsWritten),
    ("elapsed_ms", .number s.elapsedMs)]

/-! ## For people -/

/-- Whether nothing went wrong. Pattern issues are advice only. -/
def isClean (s : RunSummary) : Bool :=
  s.analyzerFailures == 0 && s.excluded == 0 && s.parseErrors == 0

def labelWidth : Nat := 18

/-- A figure with its label, as it stands behind a branch. -/
def figure (label : String) (n : Nat) : String :=
  label ++ String.ofList (List.replicate (labelWidth - label.length) ' ') ++ toString n

def table (title : String) (figures : List (String × Nat)) : String :=
  title ++ ":\n" ++ Listing.branches (figures.map fun f => figure f.1 f.2)

/-- A list of remarks under a heading; no remarks, no heading. -/
def remarks (title : String) (lines : List String) : String :=
  if lines = [] then ""
  else "\n⚠ " ++ title ++ ":\n" ++ String.join (lines.map fun line => "  - " ++ line ++ "\n")

/-- The first line and the rule below it. -/
def heading (s : RunSummary) : String :=
  (if s.isClean then "✓ Skeleton Verification Summary\n"
   else "⚠ Skeleton Verification Summary (with issues)\n") ++
    String.ofList (List.replicate 40 '━') ++ "\n\n"

/-- What normalization did, if it was asked for. -/
def normalizationText (s : RunSummary) : String :=
  if s.normalized then
    table "Normalization" [
      ("Files checked:", s.filesChecked),
      ("Files renamed:", s.filesRenamed),
      ("Package updates:", s.packageUpdates),
      ("Parsed OK:", s.parsedSuccessfully),
      ("Parse errors:", s.parseErrors)] ++
    (if s.formatterAvailable then ""
     else "   (formatter not found, syntax checks skipped)\n") ++ "\n"
  else ""

def text (s : RunSummary) : String :=
  s.heading ++ "Root:  " ++ s.root.text ++ "\n\n" ++ s.normalizationText ++
    table "Cases" [
      ("Subdirectories:", s.subdirectories),
      ("Fragments found:", s.filesDiscovered),
      ("Valid:", s.validCases),
      ("Excluded:", s.excluded),
      ("Pattern issues:", s.casesWithPatternIssues)] ++ "\n" ++
    table "Analysis" [
      ("Fragments:", s.fragmentsAnalyzed),
      ("Failures:", s.analyzerFailures),
      ("Cases with write:", s.casesWithWrite),
      ("Incomplete rows:", s.casesWithFailures),
      ("Write-write:", s.writeWrite),
      ("Read-write:", s.readWrite)] ++
    remarks "Excluded directories" (s.excludedCases.map ExcludedCase.message) ++
    remarks "Pattern issues" (s.patternIssues.map PatternIssue.message) ++
    (if s.combinedSkipped = 0 then ""
     else "\n⚠ " ++ toString s.combinedSkipped ++
       " unreadable fragment(s) left out of the combined file\n") ++
    remarks "Parse errors"
      (s.parseErrorDetails.toList.map fun entry => entry.1.text ++ ": " ++ entry.2) ++
    "\n" ++ toString s.rowsWritten ++ " rows written in " ++ toString s.elapsedMs ++ "ms\n"

def render (s : RunSummary) (format : OutputFormat) : String :=
  format.render s.text s.document

end RunSummary

end RaceSkeletons
