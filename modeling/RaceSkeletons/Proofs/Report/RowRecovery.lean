import RaceSkeletons.Proofs.Report.CsvReader
import Std.Data.String.ToNat

/-!
# From records back to rows

A report is a faithful picture of the rows it was written from. Every kind
of cell has a reader of its own, and a record gives back its row
(`ofRecord?_record`). One field of a row is not a column: the write flag of
a single fragment. It is recovered from the status, because a row that was
made from an outcome never has the one without the other
(`FragmentRow.isCoherent_of`).

With the reader for files this makes the whole report lossless, whatever
stands in names, excerpts and error texts.
-/

namespace RaceSkeletons

/-! ## Cells -/

/-- The truth value of a cell. -/
def flag? (cell : String) : Option Bool :=
  if cell = "TRUE" then some true
  else if cell = "FALSE" then some false
  else none

/-- The status of a cell. -/
def FragmentStatus.ofText? (cell : String) : Option FragmentStatus :=
  if cell = "ERROR" then some .failed
  else if cell = "NOT_FOUND" then some .notFound
  else (flag? cell).map fun hasWrite => if hasWrite then .writes else .noWrite

/-- The kind of race of a cell. -/
def RaceKind.ofName? (cell : String) : Option RaceKind :=
  if cell = "write-write" then some .writeWrite
  else if cell = "read-write" then some .readWrite
  else none

theorem flag?_flagText (b : Bool) : flag? (flagText b) = some b := by
  cases b <;> decide

theorem FragmentStatus.ofText?_text (s : FragmentStatus) : ofText? s.text = some s := by
  cases s <;> decide

theorem RaceKind.ofName?_name (k : RaceKind) : ofName? k.name = some k := by
  cases k <;> decide

/-! ## Rows -/

/-- The half of a row that its eight cells stand for. -/
def FragmentRow.ofCells? (name status line error size lineCount hasPackage hasComments : String) :
    Option FragmentRow := do
  let status ← FragmentStatus.ofText? status
  let size ← size.toNat?
  let lineCount ← lineCount.toNat?
  let hasPackage ← flag? hasPackage
  let hasComments ← flag? hasComments
  return { name, status, line, error, hasWrite := status == .writes,
           stats := { size, lineCount, hasPackage, hasComments } }

/-- The row that a record stands for, if it stands for one. -/
def CaseRow.ofRecord? : List String → Option CaseRow
  | [caseId, name1, status1, line1, error1, name2, status2, line2, error2, hasWrite, kind,
      size1, size2, lineCount1, lineCount2, hasPackage1, hasPackage2, hasComments1,
      hasComments2] => do
    let first ← FragmentRow.ofCells? name1 status1 line1 error1 size1 lineCount1 hasPackage1
      hasComments1
    let second ← FragmentRow.ofCells? name2 status2 line2 error2 size2 lineCount2 hasPackage2
      hasComments2
    let hasWrite ← flag? hasWrite
    let kind ← RaceKind.ofName? kind
    return { caseId, first, second, hasWrite, kind }
  | _ => none

/-- Whether the write flag says what the status says. -/
def FragmentRow.IsCoherent (r : FragmentRow) : Prop :=
  r.hasWrite = (r.status == .writes)

theorem FragmentRow.isCoherent_of (f : Fragment) (o : Option Outcome) :
    (FragmentRow.of f o).IsCoherent := by
  cases o with
  | none => rfl
  | some o =>
      cases o with
      | analyzed hasWrite line => cases hasWrite <;> rfl
      | failed failure => rfl

theorem FragmentRow.ofCells?_cells {r : FragmentRow} (h : r.IsCoherent) :
    FragmentRow.ofCells? r.name r.status.text r.line r.error (toString r.stats.size)
        (toString r.stats.lineCount) (flagText r.stats.hasPackage)
        (flagText r.stats.hasComments) = some r := by
  obtain ⟨name, status, line, error, hasWrite, stats⟩ := r
  obtain rfl : hasWrite = (status == .writes) := h
  simp only [FragmentRow.ofCells?, FragmentStatus.ofText?_text, Nat.toString_eq_repr,
    Nat.toNat?_repr, flag?_flagText]
  rfl

theorem CaseRow.ofRecord?_record {r : CaseRow} (h1 : r.first.IsCoherent)
    (h2 : r.second.IsCoherent) : CaseRow.ofRecord? r.record = some r := by
  simp only [CaseRow.record, CaseRow.ofRecord?, FragmentRow.ofCells?_cells h1,
    FragmentRow.ofCells?_cells h2, flag?_flagText, RaceKind.ofName?_name]
  rfl

/-! ## Reports -/

/-- The records of aggregated rows give back all rows, in order. -/
theorem mapM_ofRecord?_aggregate (p : TrackedPattern) (cases : List Case)
    (results : AnalysisResults) :
    ((aggregate p cases results).map CaseRow.record).mapM CaseRow.ofRecord? =
      some (aggregate p cases results) := by
  unfold aggregate
  induction cases with
  | nil => rfl
  | cons c cases ih =>
      have hrow : CaseRow.ofRecord? (CaseRow.of c results (p.classify c)).record =
          some (CaseRow.of c results (p.classify c)) :=
        CaseRow.ofRecord?_record (FragmentRow.isCoherent_of ..) (FragmentRow.isCoherent_of ..)
      simp only [List.map_cons, List.mapM_cons, hrow, ih]
      rfl

/-- **A report is lossless.** Reading the file gives the nineteen columns and
then one record of nineteen cells for each case, in the order of the cases;
and the rows can be recovered from the records. -/
theorem csvBytes_lossless (p : TrackedPattern) (cases : List Case) (results : AnalysisResults) :
    ∃ records : List (List String),
      Csv.read (csvBytes (aggregate p cases results)) = some (reportColumns :: records)
        ∧ reportColumns.length = 19
        ∧ records.length = cases.length
        ∧ (∀ record ∈ records, record.length = 19)
        ∧ (∀ (i : Nat) (c : Case), cases[i]? = some c →
            records[i]? = some (CaseRow.of c results (p.classify c)).record)
        ∧ records.mapM CaseRow.ofRecord? = some (aggregate p cases results) := by
  refine ⟨(aggregate p cases results).map CaseRow.record, read_csvBytes _, rfl, ?_, ?_, ?_,
    mapM_ofRecord?_aggregate p cases results⟩
  · simp [aggregate]
  · intro record hrecord
    obtain ⟨row, -, rfl⟩ := List.mem_map.mp hrecord
    rfl
  · intro i c hc
    simp [aggregate, hc]

end RaceSkeletons
