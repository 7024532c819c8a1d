import RaceSkeletons.FileSystem.Change
import RaceSkeletons.Log.Notice
import RaceSkeletons.Report.Csv
import RaceSkeletons.Run.Error

/-!
# The report file

Writes the rows to a file, making the directories around it. Answers the
number of rows. A file that could not be written in full stays.
-/

namespace RaceSkeletons

/-- Writes the report. -/
def writeReport (fs : FileSystem) (p : Path) (rows : List CaseRow) :
    FileSystem × Except RunError Nat :=
  match fs.makeParents p with
  | (around, .error e) => (around, .error (.output (p.parent?.getD p) e))
  | (around, .ok ()) =>
    match around.createFile p with
    | .error e => (around, .error (.output p e))
    | .ok (opened, location) =>
      match opened.fill location (csvBytes rows) with
      | (written, .error e) => (written, .error (.report p e))
      | (written, .ok ()) => (written, .ok rows.length)

/-- The notices of a report that was written, or not. -/
def reportNotices (p : Path) : Except RunError Nat → List Notice
  | .ok rows => [.reportWritten p rows]
  | .error _ => []

end RaceSkeletons
