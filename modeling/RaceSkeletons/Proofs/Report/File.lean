import RaceSkeletons.Proofs.FileSystem.Growth
import RaceSkeletons.Proofs.Report.CsvReader
import RaceSkeletons.Report.File

/-!
# Reading the report file back

A report that was written stands in its file: the number of rows that is
answered is right, and the path of the report leads to the bytes of all rows
(`readBytes_of_writeReport`), through whatever links it goes.
-/

namespace RaceSkeletons

variable {fs opened final : FileSystem} {p : Path} {location : Location} {rows : List CaseRow}
  {n : Nat}

/-- A report is never empty, because it names its columns. -/
theorem csvBytes_ne_nil (rows : List CaseRow) : csvBytes rows ≠ [] := by
  intro hnil
  have hread := read_csvBytes rows
  rw [hnil] at hread
  have hempty : Csv.read [] = some [] := rfl
  rw [hempty] at hread
  cases hread

theorem readBytes_of_writeReport (h : writeReport fs p rows = (final, .ok n)) :
    n = rows.length ∧ final.readBytes p = .ok (csvBytes rows) := by
  rw [writeReport] at h
  split at h
  · cases h
  · split at h
    · cases h
    · next opened location hcreate =>
        split at h
        · cases h
        · next written hfill =>
            cases h
            exact ⟨rfl, FileSystem.readBytes_of_fill (csvBytes_ne_nil rows) hcreate hfill⟩

theorem writeReport_of_missing (hparents : fs.makeParents p = (fs, .ok ()))
    (hlocate : fs.locate true p = .ok ⟨location, none⟩) (hfresh : fs.fresh.refusal? = none)
    (hfault : fs.fault? = none) (rows : List CaseRow) :
    ∃ final, writeReport fs p rows = (final, .ok rows.length) := by
  obtain ⟨opened, hcreate, hfill⟩ := FileSystem.createFile_of_missing hlocate hfresh hfault
  obtain ⟨written, hwritten, -⟩ := hfill (csvBytes rows)
  refine ⟨written, ?_⟩
  simp only [writeReport, hparents, hcreate, hwritten]

theorem writeReport_eq_ok (h : writeReport fs p rows = (final, .ok n)) :
    ∃ opened location, FileSystem.IsPut fs opened final p location (csvBytes rows) := by
  rw [writeReport] at h
  split at h
  · cases h
  · next around hparents =>
      split at h
      · cases h
      · next opened location hcreate =>
          split at h
          · cases h
          · next hfill =>
              cases h
              exact ⟨opened, location, ⟨around, hparents, hcreate⟩, hfill⟩

theorem writeReport_of_put (h : FileSystem.IsPut fs opened final p location (csvBytes rows)) :
    writeReport fs p rows = (final, .ok rows.length) := by
  obtain ⟨around, hparents, hcreate⟩ := h.opens
  simp only [writeReport, hparents, hcreate, h.fills]

end RaceSkeletons
