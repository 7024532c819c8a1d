import Mathlib
import RaceSkeletons.Proofs.Analyzer.Schedule
import RaceSkeletons.Proofs.Run.Stages

/-!
# The accounts of a run

The summary of a complete run and the report it wrote are made by different
stages from different data. They agree all the same
(`RunSummary.Balances`): every counter can be recounted in the records of
the report file, cell by cell, and nothing in the file is unaccounted for.
-/

namespace RaceSkeletons

/-! ## Cells by column -/

/-- The cell of a record in a column. -/
def cell? (column : String) (record : List String) : Option String :=
  (reportColumns.zip record).lookup column

/-- The cells of a record that hold the status of a fragment. -/
def statusCells (record : List String) : List String :=
  ["file1_status", "file2_status"].filterMap fun column => cell? column record

namespace CaseRow

variable (r : CaseRow)

theorem statusCells_record :
    statusCells r.record = [r.first.status.text, r.second.status.text] := by
  simp [statusCells, cell?, reportColumns, record, List.lookup]

theorem cell?_hasWrite : cell? "has_write" r.record = some (flagText r.hasWrite) := by
  simp [cell?, reportColumns, record, List.lookup]

theorem cell?_kind : cell? "race_type" r.record = some r.kind.name := by
  simp [cell?, reportColumns, record, List.lookup]

end CaseRow

theorem flagText_eq_true {b : Bool} : flagText b = "TRUE" ↔ b = true := by
  cases b <;> decide

theorem RaceKind.name_eq_writeWrite {k : RaceKind} : k.name = "write-write" ↔ k = .writeWrite := by
  cases k <;> decide

theorem FragmentStatus.text_eq_error {s : FragmentStatus} : s.text = "ERROR" ↔ s = .failed := by
  cases s <;> decide

theorem FragmentStatus.text_eq_notFound {s : FragmentStatus} :
    s.text = "NOT_FOUND" ↔ s = .notFound := by
  cases s <;> decide

/-! ## Rows of analyzed cases -/

/-- The status of a fragment with an outcome. -/
def Outcome.status (o : Outcome) : FragmentStatus :=
  if o.isFailure then .failed else if o.hasWrite then .writes else .noWrite

theorem FragmentRow.status_of (f : Fragment) (o : Outcome) :
    (FragmentRow.of f (some o)).status = o.status := by
  cases o with
  | analyzed hasWrite line => cases hasWrite <;> rfl
  | failed failure => rfl

theorem Outcome.status_eq_failed {o : Outcome} : o.status = .failed ↔ o.isFailure = true := by
  cases o with
  | analyzed hasWrite line => cases hasWrite <;> exact ⟨nofun, nofun⟩
  | failed failure => exact ⟨fun _ => rfl, fun _ => rfl⟩

theorem Outcome.status_ne_notFound (o : Outcome) : o.status ≠ .notFound := by
  cases o with
  | analyzed hasWrite line => cases hasWrite <;> exact nofun
  | failed failure => exact nofun

/-- A row of which both fragments have been analyzed has no verdict for one
of them exactly if one of its status cells says so. -/
theorem CaseRow.isIncomplete_iff {r : CaseRow} (hfirst : r.first.status ≠ .notFound)
    (hsecond : r.second.status ≠ .notFound) :
    r.isIncomplete = true ↔ "ERROR" ∈ statusCells r.record := by
  rw [isIncomplete, FragmentRow.isIncomplete, FragmentRow.isIncomplete,
    beq_eq_false_iff_ne.mpr hfirst, beq_eq_false_iff_ne.mpr hsecond, Bool.or_false,
    Bool.or_false, Bool.or_eq_true, beq_iff_eq, beq_iff_eq, ← FragmentStatus.text_eq_error,
    ← FragmentStatus.text_eq_error, statusCells_record, List.mem_pair, eq_comm,
    @eq_comm _ _ r.second.status.text]

/-! ## The accounts -/

/-- A summary that can be recounted in the records of its report. -/
structure RunSummary.Balances (s : RunSummary) (records : List (List String)) : Prop where
  rowsWritten : s.rowsWritten = records.length
  validCases : s.validCases = records.length
  kinds : s.writeWrite + s.readWrite = records.length
  subdirectories : s.subdirectories = s.validCases + s.excludedCases.length
  filesDiscovered :
    s.filesDiscovered = 2 * s.validCases + (s.excludedCases.map (·.found)).sum
  fragmentsAnalyzed : s.fragmentsAnalyzed = 2 * s.validCases
  /-- Every fragment of a record has been analyzed. -/
  analyzed : "NOT_FOUND" ∉ records.flatMap statusCells
  analyzerFailures : s.analyzerFailures = (records.flatMap statusCells).count "ERROR"
  casesWithFailures :
    s.casesWithFailures = records.countP fun record => "ERROR" ∈ statusCells record
  casesWithWrite :
    s.casesWithWrite = records.countP fun record => cell? "has_write" record = some "TRUE"
  writeWrite :
    s.writeWrite = records.countP fun record => cell? "race_type" record = some "write-write"

namespace RunContext

variable {ctx : RunContext} {req : RunRequest} {fs final : FileSystem} {outcome : RunOutcome}

namespace Passed

variable (run : Passed ctx req outcome final)

/-- What discovery found. -/
abbrev discovery : Discovery :=
  .ofFindings run.findings

/-- The outcome of the call for a fragment. -/
def outcomeOf (f : Fragment) : Outcome :=
  (ctx.analyzer.analyze run.analyzed f.path).outcome

theorem distinct : PathMap.DistinctKeys (run.discovery.fragments.map (·.path)) :=
  distinct_fragments run.isWellFormed run.isSurvey

theorem results_eq : run.results =
    PathMap.ofList (Fanout.answers (ctx.analyzer.analyze run.analyzed)
      (run.discovery.fragments.map (·.path))) := by
  rw [run.isAnalysis]
  exact analyzeAll_results run.distinct

theorem get?_results {f : Fragment} (h : f ∈ run.discovery.fragments) :
    run.results.get? f.path = some (run.outcomeOf f) := by
  rw [run.results_eq]
  exact Fanout.get?_answers run.distinct (List.mem_map.mpr ⟨f, h, rfl⟩)

theorem status_row {c : Case} (h : c ∈ run.discovery.cases) (kind : RaceKind) :
    (CaseRow.of c run.results kind).first.status = (run.outcomeOf c.first).status ∧
      (CaseRow.of c run.results kind).second.status = (run.outcomeOf c.second).status := by
  have hfragment : ∀ f ∈ c.fragments, run.results.get? f.path = some (run.outcomeOf f) :=
    fun f hf => run.get?_results (List.mem_flatMap.mpr ⟨c, h, hf⟩)
  have hfirst := hfragment c.first List.mem_cons_self
  have hsecond := hfragment c.second (List.mem_cons_of_mem _ List.mem_cons_self)
  rw [CaseRow.of, hfirst, hsecond, FragmentRow.status_of, FragmentRow.status_of]
  exact ⟨rfl, rfl⟩

theorem statusCells_records :
    (outcome.rows.map CaseRow.record).flatMap statusCells =
      run.discovery.fragments.map fun f => (run.outcomeOf f).status.text := by
  rw [run.rows_eq, aggregate, List.map_map, List.flatMap_map, Discovery.fragments,
    List.map_flatMap]
  refine List.flatMap_congr fun c hc => ?_
  obtain ⟨hfirst, hsecond⟩ := run.status_row hc (ctx.pattern.classify c)
  rw [Function.comp_apply, CaseRow.statusCells_record, hfirst, hsecond]
  rfl

include run in
/-- A row is incomplete exactly if it says that a fragment has no verdict. -/
theorem isIncomplete_row {r : CaseRow} (h : r ∈ outcome.rows) :
    r.isIncomplete = true ↔ "ERROR" ∈ statusCells r.record := by
  rw [run.rows_eq] at h
  obtain ⟨c, hc, rfl⟩ := List.mem_map.mp h
  obtain ⟨hfirst, hsecond⟩ := run.status_row hc (ctx.pattern.classify c)
  refine CaseRow.isIncomplete_iff ?_ ?_
  · rw [hfirst]
    exact Outcome.status_ne_notFound _
  · rw [hsecond]
    exact Outcome.status_ne_notFound _

theorem failures_results :
    run.results.values.countP Outcome.isFailure =
      ((outcome.rows.map CaseRow.record).flatMap statusCells).count "ERROR" := by
  rw [run.results_eq, Fanout.failures_answers run.distinct, run.statusCells_records, List.count,
    List.countP_map, List.countP_map]
  refine List.countP_congr fun f _ => ?_
  rw [Function.comp_apply, Function.comp_apply, beq_iff_eq, FragmentStatus.text_eq_error,
    Outcome.status_eq_failed]
  rfl

include run in
theorem balances : outcome.summary.Balances (outcome.rows.map CaseRow.record) := by
  have hlength : outcome.rows.length = run.discovery.cases.length := by
    rw [run.rows_eq, aggregate, List.length_map]
  have hwritten : run.rowsWritten = outcome.rows.length :=
    (readBytes_of_writeReport run.isReport).1
  have hsize : run.results.size = run.discovery.fragments.length := by
    rw [run.results_eq, Fanout.size_answers run.distinct, List.length_map]
  rw [run.summary_eq]
  exact {
    rowsWritten := by rw [List.length_map]; exact hwritten
    validCases := by rw [List.length_map, hlength]; rfl
    kinds := by
      rw [List.length_map]
      exact Nat.add_sub_cancel' List.countP_le_length
    subdirectories := Discovery.ofFindings_total run.findings
    filesDiscovered := by
      simp only [RunSummary.record, Discovery.fragmentCount, List.sum]
      omega
    fragmentsAnalyzed := hsize.trans (Discovery.length_fragments _)
    analyzed := by
      rw [run.statusCells_records]
      intro hmem
      obtain ⟨f, -, hf⟩ := List.mem_map.mp hmem
      exact Outcome.status_ne_notFound _ (FragmentStatus.text_eq_notFound.mp hf)
    analyzerFailures := run.failures_results
    casesWithFailures := by
      rw [List.countP_map]
      refine List.countP_congr fun r hr => ?_
      rw [run.isIncomplete_row hr, Function.comp_apply, decide_eq_true_iff]
    casesWithWrite := by
      rw [List.countP_map]
      refine List.countP_congr fun r _ => ?_
      rw [Function.comp_apply, decide_eq_true_iff, CaseRow.cell?_hasWrite, Option.some_inj,
        flagText_eq_true]
    writeWrite := by
      rw [List.countP_map]
      refine List.countP_congr fun r _ => ?_
      rw [Function.comp_apply, decide_eq_true_iff, CaseRow.cell?_kind, Option.some_inj,
        RaceKind.name_eq_writeWrite, beq_iff_eq] }

end Passed

end RunContext

/-- Time does not change the accounts. -/
theorem RunSummary.Balances.finish {s : RunSummary} {records : List (List String)}
    (h : s.Balances records) (elapsed : Duration) :
    (s.record (.finish elapsed)).Balances records :=
  { h with }

/-! ## A corpus with one case -/

/-- A corpus below `/r` with one case, whose fragments are empty. -/
def sampleFiles : FileSystem where
  entries := [⟨["r"], .dir⟩, ⟨["r", "a"], .dir⟩, ⟨["r", "a", "w.go"], .file [] .plain⟩,
    ⟨["r", "a", "x.go"], .file [] .plain⟩]
  workingDir := []

/-- A corpus below `/r` with one file. The next write fails when its file has taken three
bytes. -/
def failingFiles : FileSystem where
  entries := [⟨["r"], .dir⟩, ⟨["r", "x.go"], .file (Utf8.encode "x\n") .plain⟩,
    ⟨["c"], .file (Utf8.encode "older\n") .plain⟩,
    ⟨["s.csv"], .file (Utf8.encode "old\n") .plain⟩]
  workingDir := []
  faults := [some ⟨3, .noSpace⟩]

def sampleCase : Case :=
  ⟨"a", ⟨"/r/a"⟩, ⟨⟨"/r/a/w.go"⟩, "w.go", "", {}⟩, ⟨⟨"/r/a/x.go"⟩, "x.go", "", {}⟩⟩

/-- Two workers, and an analyzer that fails for the second fragment. -/
def sampleRun : RunContext where
  settings := { workers := 2 }
  analyzer :=
    { name := "sample"
      analyze := fun _ p =>
        if p = ⟨"/r/a/x.go"⟩ then { outcome := .failed (.decode "no verdict") }
        else { outcome := .analyzed true none } }
  host := fun _ _ => .timedOut

def sampleRequest : RunRequest where
  root := ⟨"/r"⟩
  combinedFile := ⟨"c"⟩
  reportFile := ⟨"s.csv"⟩
  normalize := false

/-- The sample request, with normalization. -/
def normalizingRequest : RunRequest :=
  { sampleRequest with normalize := true }

theorem target?_sample {p : Path} {location : Location} {node : Node}
    (h : FileSystem.IsPassable p ∧
      sampleFiles.goesDown (sampleFiles.startOf p) p.steps = true ∧
      sampleFiles.startOf p ++ p.steps = location ∧ sampleFiles.nodeAt? location = some node) :
    sampleFiles.target? p = .ok (location, node) :=
  FileSystem.target?_of_goesDown h

/-- The root of the sample and what it lists. -/
theorem root_sample : sampleFiles.target? ⟨"/r"⟩ = .ok (["r"], .dir) ∧
    sampleFiles.target? ⟨"/r/a"⟩ = .ok (["r", "a"], .dir) ∧
      sampleFiles.entryPaths ⟨"/r"⟩ = .ok [⟨"/r/a"⟩] := by
  have hroot : sampleFiles.target? ⟨"/r"⟩ = .ok (["r"], .dir) :=
    target?_sample (by decide)
  refine ⟨hroot, target?_sample (by decide), ?_⟩
  exact FileSystem.entryPaths_eq_ok_iff.mpr
    ⟨["r"], FileSystem.listDir_eq_ok_iff.mpr ⟨hroot, rfl⟩, by decide⟩

theorem survey_sample :
    ∃ findings, survey sampleFiles ⟨"/r"⟩ "go" = .ok findings ∧
      (Discovery.ofFindings findings).cases = [sampleCase] := by
  obtain ⟨hroot, hdir, hentries⟩ := root_sample
  have hfirst : sampleFiles.target? ⟨"/r/a/w.go"⟩ = .ok (["r", "a", "w.go"], .file [] .plain) :=
    target?_sample (by decide)
  have hsecond : sampleFiles.target? ⟨"/r/a/x.go"⟩ = .ok (["r", "a", "x.go"], .file [] .plain) :=
    target?_sample (by decide)
  have hchildren : sampleFiles.entryPaths ⟨"/r/a"⟩ = .ok [⟨"/r/a/w.go"⟩, ⟨"/r/a/x.go"⟩] :=
    FileSystem.entryPaths_eq_ok_iff.mpr
      ⟨["r", "a"], FileSystem.listDir_eq_ok_iff.mpr ⟨hdir, rfl⟩, by decide⟩
  have hsorted : [Path.mk "/r/a/w.go", ⟨"/r/a/x.go"⟩].mergeSort nameOrder =
      [⟨"/r/a/w.go"⟩, ⟨"/r/a/x.go"⟩] :=
    List.mergeSort_of_pairwise (by decide)
  have hextension : (Path.mk "/r/a/w.go").hasExtension "go" = true ∧
      (Path.mk "/r/a/x.go").hasExtension "go" = true := by
    decide
  have hfragments : fragmentPaths sampleFiles ⟨"/r/a"⟩ "go" =
      .ok [⟨"/r/a/w.go"⟩, ⟨"/r/a/x.go"⟩] := by
    simp [fragmentPaths_def, hchildren, Except.map, FileSystem.isFile, hfirst, hsecond,
      Node.isRegular, hextension, hsorted]
  have hload : Fragment.load sampleFiles ⟨"/r/a/w.go"⟩ = sampleCase.first ∧
      Fragment.load sampleFiles ⟨"/r/a/x.go"⟩ = sampleCase.second := by
    simp only [Fragment.load, FileSystem.readBytes, hfirst, hsecond]
    decide
  have hname : (Path.mk "/r/a").fileName = "a" := by
    decide
  refine ⟨[examine sampleFiles "go" ⟨"/r/a"⟩], ?_, ?_⟩
  · simp [survey_def, checkRoot, FileSystem.pathExists, FileSystem.isDir, hroot, hdir,
      subdirectories_def, hentries, Except.map]
  · simp [Discovery.ofFindings, examine_def, hfragments, hload, hname, Finding.case?, sampleCase]

theorem combinedPath_sample : sampleFiles.makeParents ⟨"c"⟩ = (sampleFiles, .ok ()) ∧
    sampleFiles.locate true ⟨"c"⟩ = .ok ⟨["c"], none⟩ := by
  refine ⟨sampleFiles.makeParents_of_name (by decide), ?_⟩
  exact FileSystem.locate_missing [] "c" (by decide) (by decide)
    (by decide) (by decide) rfl rfl (by decide)

/-- The combined file is written, and the report can be after it. -/
theorem combined_sample :
    ∃ around combined notices,
      writeCombined sampleFiles ⟨"/r"⟩ ⟨"c"⟩ "go" = (around, ⟨.ok combined, notices⟩) ∧
        around.makeParents ⟨"s.csv"⟩ = (around, .ok ()) ∧
          around.locate true ⟨"s.csv"⟩ = .ok ⟨["s.csv"], none⟩ ∧
            around.fresh = .plain ∧ around.faults = [] := by
  obtain ⟨hparents, hlocate⟩ := combinedPath_sample
  obtain ⟨around, combined, notices, data, hcombined, hwrite⟩ :=
    writeCombined_of_missing hparents hlocate rfl rfl ⟨"/r"⟩ "go"
  have hstart : around.startOf ⟨"s.csv"⟩ = [] := by
    rw [FileSystem.startOf, hwrite.workingDir]
    decide
  have hmissing : around.nodeAt? ["s.csv"] = none := by
    rw [hwrite.nodeAt?_of_ne (by decide)]
    decide
  have hfaults : around.faults <:+ [] := by
    obtain ⟨_, _, hput⟩ := writeCombined_eq_ok (congrArg (·.2.result) hcombined)
    rw [hcombined] at hput
    exact hput.faults
  refine ⟨around, combined, notices, hcombined, around.makeParents_of_name (by decide),
    ?_, congrArg FileSystem.Terms.fresh hwrite.terms, List.suffix_nil.mp hfaults⟩
  exact FileSystem.locate_missing [] "s.csv" (by decide) (by decide)
    (by decide) (by decide) hstart rfl hmissing

theorem execute_sample :
    ∃ outcome, (sampleRun.execute sampleRequest sampleFiles default default).result =
        .ok outcome ∧
      (outcome.rows.map CaseRow.record).flatMap statusCells = ["TRUE", "ERROR"] := by
  obtain ⟨findings, hsurvey, hcases⟩ := survey_sample
  obtain ⟨around, combined, notices, hcombined, hparents, hreportPath, hfresh, hfaults⟩ :=
    combined_sample
  obtain ⟨outcome, hresult, hrows⟩ := RunContext.execute_of_parts sampleRun sampleRequest
    default default rfl hsurvey hcombined
    (writeReport_of_missing hparents hreportPath (hfresh ▸ rfl) (FileSystem.fault?_of_nil hfaults))
  refine ⟨outcome, hresult, ?_⟩
  -- what the analyzer answers does not depend on the files
  have hanalyze : sampleRun.analyzer.analyze around = sampleRun.analyzer.analyze sampleFiles := rfl
  rw [hrows, Discovery.fragments, hcases, hanalyze]
  decide

/-! ## The summary and the report -/

/-- A run that ends well leaves a report file that can be read back, and its
records are those of the rows the run answers. The summary balances with
them, whatever the corpus, the settings, the analyzer and the order in which
its calls end. -/
theorem execute_balances (ctx : RunContext) (req : RunRequest) (fs : FileSystem)
    (startedAt : Timestamp) (elapsed : Duration) (outcome : RunOutcome) (hwf : fs.WellFormed)
    (h : (ctx.execute req fs startedAt elapsed).result = .ok outcome) :
    ∃ bytes records,
      (ctx.execute req fs startedAt elapsed).fs.readBytes req.reportFile = .ok bytes ∧
        Csv.read bytes = some (reportColumns :: records) ∧
        outcome.rows.map CaseRow.record = records ∧ outcome.summary.Balances records := by
  obtain ⟨before, ⟨run⟩, rfl⟩ := RunContext.passed_of_execute hwf h
  have hread := (readBytes_of_writeReport run.isReport).2
  exact ⟨_, _, hread, read_csvBytes before.rows, rfl, run.balances.finish elapsed⟩

/-- The accounts of the sample: one row, of which one cell is an error. -/
theorem execute_balances_sample :
    sampleFiles.WellFormed ∧
      ∃ outcome bytes records,
        (sampleRun.execute sampleRequest sampleFiles default default).result = .ok outcome ∧
          (sampleRun.execute sampleRequest sampleFiles default default).fs.readBytes ⟨"s.csv"⟩ =
            .ok bytes ∧
          Csv.read bytes = some (reportColumns :: records) ∧ outcome.summary.Balances records ∧
          records.flatMap statusCells = ["TRUE", "ERROR"] ∧
          outcome.summary.analyzerFailures = 1 := by
  have hwf : sampleFiles.WellFormed :=
    ⟨by decide, by decide, nofun⟩
  obtain ⟨outcome, hresult, hcells⟩ := execute_sample
  obtain ⟨bytes, records, hbytes, hread, hrecords, hbalances⟩ :=
    execute_balances sampleRun sampleRequest sampleFiles default default outcome hwf hresult
  rw [hrecords] at hcells
  refine ⟨hwf, outcome, bytes, records, hresult, hbytes, hread, hbalances, hcells, ?_⟩
  rw [hbalances.analyzerFailures, hcells]
  decide

end RaceSkeletons
