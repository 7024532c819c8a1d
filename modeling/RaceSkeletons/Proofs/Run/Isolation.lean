import RaceSkeletons.Proofs.Run.Events
import RaceSkeletons.Proofs.Run.Rerun

/-!
# Where the analyzer's answers go

Two runs over the same files, with whatever analyzers, hosts, numbers of
workers and orders of the calls, come to the same cases. An answer reaches the
report in the row of its own case and nowhere else, and there only the cells
that are its own and the write flag of the row (`RowsAgree`).
-/

namespace RaceSkeletons

/-! ## Normalization -/

section

variable (host host' : Host) (checker checker' : SyntaxChecker) (fs : FileSystem)

/-- The syntax checker has no part in what normalization makes of the files. -/
theorem files_normalizeEach (files : List Path) :
    (normalizeEach host checker fs files).1 = (normalizeEach host' checker' fs files).1 := by
  induction files generalizing fs with
  | nil => rfl
  | cons p rest ih =>
      have hfragment : (normalizeFragment host checker fs p).1 =
          (normalizeFragment host' checker' fs p).1 := rfl
      simp only [normalizeEach]
      rw [hfragment]
      exact ih _

theorem files_normalizeCorpus (root : Path) (extension : String) :
    (normalizeCorpus host checker fs root extension).1 =
      (normalizeCorpus host' checker' fs root extension).1 :=
  files_normalizeEach host host' checker checker' _ _

end

theorem FileSystem.fill_eq_error {fs : FileSystem} {location : Location} {data data' : Bytes}
    {e : FileError} (hdata : data' ≠ []) (h : (fs.fill location data).2 = .error e) :
    (fs.fill location data').2 = .error e := by
  rw [fill] at h ⊢
  rw [if_neg hdata]
  split at h
  · cases h
  · split at h
    · split at h
      · cases h
      · exact h
    · exact h
    · exact h

/-- Whether a report can be written does not depend on its rows. -/
theorem writeReport_eq_error {fs : FileSystem} {p : Path} {rows : List CaseRow} {e : RunError}
    (h : (writeReport fs p rows).2 = .error e) (rows' : List CaseRow) :
    (writeReport fs p rows').2 = .error e := by
  rw [writeReport] at h ⊢
  split at h
  · exact h
  · split at h
    · exact h
    · split at h
      · next opened location _ _ _ cause hfailed =>
          have hagain := FileSystem.fill_eq_error (csvBytes_ne_nil rows')
            (congrArg Prod.snd hfailed)
          cases hwritten : opened.fill location (csvBytes rows') with
          | mk written result =>
              rw [hwritten] at hagain
              obtain rfl : result = .error cause := hagain
              exact h
      · cases h

/-! ## Rows -/

/-- The row of a case whose fragments have these outcomes. -/
def CaseRow.joined (c : Case) (first second : Outcome) (kind : RaceKind) : CaseRow where
  caseId := c.id
  first := .of c.first (some first)
  second := .of c.second (some second)
  hasWrite := (FragmentRow.of c.first (some first)).hasWrite ||
    (FragmentRow.of c.second (some second)).hasWrite
  kind := kind

/-- The columns that tell a fragment's outcome. -/
def outcomeColumns (file : String) : List String :=
  [file ++ "_status", file ++ "_line", file ++ "_error"]

/-- The cells of a case's row in which two runs may differ, if they differ on
these fragments. -/
def MayDiffer (differs : Fragment → Prop) (c : Case) (column : String) : Prop :=
  (column ∈ outcomeColumns "file1" ∧ differs c.first) ∨
    (column ∈ outcomeColumns "file2" ∧ differs c.second) ∨
      (column = "has_write" ∧ (differs c.first ∨ differs c.second))

/-- The records of a case in two runs that differ on these fragments. -/
structure RowsAgree (differs : Fragment → Prop) (c : Case) (record record' : List String) :
    Prop where
  row : record ≠ record' → differs c.first ∨ differs c.second
  cells : ∀ column, cell? column record ≠ cell? column record' → MayDiffer differs c column

/-- A column has the same cell in two records that agree wherever it stands. -/
theorem lookup_zip_congr {column : String} : ∀ {columns record record' : List String},
    record.length = record'.length →
    (∀ entry ∈ columns.zip (record.zip record'), entry.1 = column → entry.2.1 = entry.2.2) →
      (columns.zip record).lookup column = (columns.zip record').lookup column
  | [], _, _, _, _ => rfl
  | _ :: _, [], [], _, _ => rfl
  | name :: columns, x :: record, y :: record', hlength, h => by
      have hrest : (columns.zip record).lookup column = (columns.zip record').lookup column :=
        lookup_zip_congr (Nat.succ.inj hlength) fun entry hentry =>
          h entry (List.mem_cons_of_mem _ hentry)
      by_cases hname : name = column
      · have hcell : x = y := h (name, x, y) List.mem_cons_self hname
        simp [List.lookup_cons, hcell, hrest]
      · have hne : (column == name) = false := beq_eq_false_iff_ne.mpr (Ne.symm hname)
        simp [List.lookup_cons, hne, hrest]

theorem FragmentRow.stats_of (f : Fragment) (o : Option Outcome) :
    (FragmentRow.of f o).stats = f.stats := by
  rcases o with _ | _ | _ <;> rfl

/-- Outcomes show in their own columns only. -/
theorem cell?_joined (c : Case) (kind : RaceKind) {o₁ o₁' o₂ o₂' : Outcome} {column : String}
    (hfirst : column ∈ outcomeColumns "file1" → o₁ = o₁')
    (hsecond : column ∈ outcomeColumns "file2" → o₂ = o₂')
    (hwrite : column = "has_write" → o₁ = o₁' ∧ o₂ = o₂') :
    cell? column (CaseRow.joined c o₁ o₂ kind).record =
      cell? column (CaseRow.joined c o₁' o₂' kind).record := by
  refine lookup_zip_congr rfl ?_
  simp only [reportColumns, CaseRow.record, CaseRow.joined, List.zip_cons_cons, List.zip_nil_right,
    List.forall_mem_cons, FragmentRow.name_of, FragmentRow.stats_of, implies_true, true_and]
  simp only [outcomeColumns, List.mem_cons, List.not_mem_nil, or_false] at hfirst hsecond
  refine ⟨?_, ?_, ?_, ?_, ?_, ?_, ?_, fun _ hnone => absurd hnone List.not_mem_nil⟩
  · rintro rfl; rw [hfirst (.inl rfl)]
  · rintro rfl; rw [hfirst (.inr (.inl rfl))]
  · rintro rfl; rw [hfirst (.inr (.inr rfl))]
  · rintro rfl; rw [hsecond (.inl rfl)]
  · rintro rfl; rw [hsecond (.inr (.inl rfl))]
  · rintro rfl; rw [hsecond (.inr (.inr rfl))]
  · rintro rfl; rw [(hwrite rfl).1, (hwrite rfl).2]

/-- The rows of a case in two runs differ only in what tells the outcomes. -/
theorem rowsAgree_joined (c : Case) (kind : RaceKind) (answer answer' : Fragment → Outcome) :
    RowsAgree (fun f => answer f ≠ answer' f) c
      (CaseRow.joined c (answer c.first) (answer c.second) kind).record
      (CaseRow.joined c (answer' c.first) (answer' c.second) kind).record where
  row hne := by
    by_contra hsame
    rw [not_or, not_not, not_not] at hsame
    exact hne (by rw [hsame.1, hsame.2])
  cells column hne := by
    by_contra hmay
    simp only [MayDiffer, not_or, not_and, not_not] at hmay
    exact hne (cell?_joined c kind hmay.1 hmay.2.1 hmay.2.2)

namespace RunContext

variable {ctx ctx' : RunContext} {req : RunRequest} {fs : FileSystem}

/-! ## Stages -/

/-- The rows of a run, or what ended it. -/
def rowsResult (ctx : RunContext) (req : RunRequest) (fs : FileSystem) :
    Except RunError (List CaseRow) :=
  match checkRoot fs req.root with
  | .error e => .error (.discovery e)
  | .ok () =>
    match survey (ctx.prepared req fs) req.root ctx.settings.extension with
    | .error e => .error (.discovery e)
    | .ok _ =>
      match (writeCombined (ctx.prepared req fs) req.root req.combinedFile
        ctx.settings.extension).2.result with
      | .error e => .error (.output req.combinedFile e)
      | .ok _ =>
        (writeReport (ctx.combinedFiles req fs) req.reportFile (ctx.reportRows req fs)).2.map
          fun _ => ctx.reportRows req fs

theorem map_result_execute (ctx : RunContext) (req : RunRequest) (fs : FileSystem)
    (startedAt : Timestamp) (elapsed : Duration) :
    (ctx.execute req fs startedAt elapsed).result.map (·.rows) = ctx.rowsResult req fs := by
  rw [result_execute, rowsResult]
  cases hroot : checkRoot fs req.root with
  | error cause => simp only [runStages, hroot, Except.map]
  | ok _ =>
      obtain ⟨s, hnormalized⟩ :=
        ctx.normalizeStage_isOk req fs (RunSummary.start req.root startedAt)
      rw [runStages_of_root hroot, Run.andThen, hnormalized, fs_normalizeStage]
      cases hsurvey : survey (ctx.prepared req fs) req.root ctx.settings.extension with
      | error cause => simp only [corpusStages, discoverStage, hsurvey, Run.andThen, Except.map]
      | ok findings =>
          obtain ⟨s', hcorpus⟩ := result_corpusStages s hsurvey
          simp only [hcorpus]
          cases hcombined : (writeCombined (ctx.prepared req fs) req.root req.combinedFile
              ctx.settings.extension).2.result with
          | error cause =>
              simp only [outputStages, combineStage, hcombined, Run.andThen, Except.map]
          | ok combined =>
              obtain ⟨summary, houtput⟩ := result_outputStages (.ofFindings findings) s' hcombined
              simp only [houtput, reportRows, found_eq hsurvey, combinedFiles]
              generalize (writeReport _ _ _).2 = written
              rcases written with e | n
              · rfl
              · rfl

/-- The runs read the same settings where they deal with files. -/
structure SharesCorpus (ctx ctx' : RunContext) : Prop where
  extension : ctx'.settings.extension = ctx.settings.extension
  varPrefix : ctx'.settings.varPrefix = ctx.settings.varPrefix

namespace SharesCorpus

variable (h : SharesCorpus ctx ctx') (req : RunRequest) (fs : FileSystem)
include h

theorem prepared : ctx'.prepared req fs = ctx.prepared req fs := by
  rw [RunContext.prepared, RunContext.prepared, h.extension]
  split
  · exact files_normalizeCorpus ..
  · rfl

theorem combinedFiles : ctx'.combinedFiles req fs = ctx.combinedFiles req fs := by
  rw [RunContext.combinedFiles, RunContext.combinedFiles, h.prepared, h.extension]

theorem found : ctx'.found req fs = ctx.found req fs := by
  rw [RunContext.found, RunContext.found, h.prepared, h.extension]

theorem pattern : ctx'.pattern = ctx.pattern := by
  rw [RunContext.pattern, RunContext.pattern, h.varPrefix]

/-- Neither run ends early where the other does not. -/
theorem rowsResult_eq_error {e : RunError} (herror : ctx.rowsResult req fs = .error e) :
    ctx'.rowsResult req fs = .error e := by
  rw [rowsResult] at herror ⊢
  rw [h.prepared, h.extension, h.combinedFiles]
  split at herror
  · exact herror
  · split at herror
    · exact herror
    · split at herror
      · exact herror
      · rw [writeReport_eq_error (error_of_map herror)]
        rfl

theorem symm : SharesCorpus ctx' ctx :=
  ⟨h.extension.symm, h.varPrefix.symm⟩

end SharesCorpus

/-! ## Answers -/

/-- What the analyzer of a run answers for a fragment. -/
def answer (ctx : RunContext) (req : RunRequest) (fs : FileSystem) (f : Fragment) : Outcome :=
  (ctx.analyzer.analyze (ctx.combinedFiles req fs) f.path).outcome

/-- The rows of a run, one for each case, made of what the analyzer answered
for the fragments of that case. -/
theorem reportRows_eq (ctx : RunContext) (req : RunRequest) (hwf : fs.WellFormed) :
    ctx.reportRows req fs = (ctx.found req fs).cases.map fun c =>
      CaseRow.joined c (ctx.answer req fs c.first) (ctx.answer req fs c.second)
        (ctx.pattern.classify c) := by
  have hd := distinct_found ctx req fs hwf
  rw [reportRows, aggregate, analyzeAll_results hd]
  refine List.map_congr_left fun c hc => ?_
  have hanswer : ∀ f ∈ c.fragments, (PathMap.ofList (Fanout.answers
      (ctx.analyzer.analyze (ctx.combinedFiles req fs))
      ((ctx.found req fs).fragments.map (·.path)))).get? f.path = some (ctx.answer req fs f) :=
    fun f hf => Fanout.get?_answers hd
      (List.mem_map.mpr ⟨f, List.mem_flatMap.mpr ⟨c, hc, hf⟩, rfl⟩)
  rw [CaseRow.of, hanswer c.first List.mem_cons_self,
    hanswer c.second (List.mem_cons_of_mem _ List.mem_cons_self)]
  rfl

/-- A complete run leaves its rows in the report file. -/
theorem report_of_execute {startedAt : Timestamp} {elapsed : Duration} {outcome : RunOutcome}
    (h : (ctx.execute req fs startedAt elapsed).result = .ok outcome) :
    outcome.rows = ctx.reportRows req fs ∧
      ∃ bytes, (ctx.execute req fs startedAt elapsed).fs.readBytes req.reportFile = .ok bytes ∧
        Csv.read bytes = some (reportColumns :: (ctx.reportRows req fs).map CaseRow.record) := by
  obtain ⟨-, -, -, hrows, n, hwritten⟩ := execute_eq_ok h
  obtain ⟨-, hread⟩ := readBytes_of_writeReport hwritten
  refine ⟨hrows, _, hread, ?_⟩
  rw [hrows]
  exact read_csvBytes _

theorem result_eq_error_iff {startedAt : Timestamp} {elapsed : Duration} {e : RunError} :
    (ctx.execute req fs startedAt elapsed).result = .error e ↔
      ctx.rowsResult req fs = .error e := by
  rw [← map_result_execute ctx req fs startedAt elapsed]
  cases (ctx.execute req fs startedAt elapsed).result with
  | error cause => simp [Except.map]
  | ok outcome => simp [Except.map]

end RunContext

/-! ## Two runs -/

/-- Answers of the analyzer stay in their own case. Of two runs over the same
files, with whatever analyzers, hosts, workers and orders of the calls, either
both end with the same error or both leave a report, with a row for each case
in the same order. The rows of a case differ only if the answers for one of its
two fragments do, and then only in the status, line and error of such a
fragment and in the write flag. -/
theorem execute_isolates (ctx ctx' : RunContext) (req : RunRequest) (fs : FileSystem)
    (startedAt startedAt' : Timestamp) (elapsed elapsed' : Duration) (hwf : fs.WellFormed)
    (hshares : RunContext.SharesCorpus ctx ctx') :
    let run := ctx.execute req fs startedAt elapsed
    let run' := ctx'.execute req fs startedAt' elapsed'
    let cases := (ctx.found req fs).cases
    (∀ e, run.result = .error e ↔ run'.result = .error e) ∧
    ∀ outcome, run.result = .ok outcome →
      ∃ outcome' bytes bytes' records records', run'.result = .ok outcome' ∧
        run.fs.readBytes req.reportFile = .ok bytes ∧
        run'.fs.readBytes req.reportFile = .ok bytes' ∧
        Csv.read bytes = some (reportColumns :: records) ∧
        Csv.read bytes' = some (reportColumns :: records') ∧
        records = outcome.rows.map CaseRow.record ∧
        records' = outcome'.rows.map CaseRow.record ∧
        records.length = cases.length ∧ records'.length = cases.length ∧
        ∀ (i : Nat) c record record', cases[i]? = some c → records[i]? = some record →
          records'[i]? = some record' →
            RowsAgree (fun f => ctx.answer req fs f ≠ ctx'.answer req fs f) c record record' := by
  intro run run' cases
  have herrors : ∀ e, run.result = .error e ↔ run'.result = .error e := by
    intro e
    rw [RunContext.result_eq_error_iff, RunContext.result_eq_error_iff]
    exact ⟨hshares.rowsResult_eq_error req fs, hshares.symm.rowsResult_eq_error req fs⟩
  refine ⟨herrors, fun outcome hresult => ?_⟩
  have hcompletes : ∃ outcome', run'.result = .ok outcome' := by
    rcases hresult' : run'.result with e | outcome'
    · exact nomatch hresult.symm.trans ((herrors e).mpr hresult')
    · exact ⟨outcome', rfl⟩
  obtain ⟨outcome', hresult'⟩ := hcompletes
  obtain ⟨hrows, bytes, hbytes, hread⟩ := RunContext.report_of_execute hresult
  obtain ⟨hrows', bytes', hbytes', hread'⟩ := RunContext.report_of_execute hresult'
  have hmap := ctx.reportRows_eq req hwf
  have hmap' := ctx'.reportRows_eq req hwf
  rw [hshares.found, hshares.pattern] at hmap'
  refine ⟨outcome', bytes, bytes', _, _, hresult', hbytes, hbytes', hread, hread', by rw [hrows],
    by rw [hrows'], by rw [hmap, List.length_map, List.length_map],
    by rw [hmap', List.length_map, List.length_map], ?_⟩
  intro i c record record' hc hrecord hrecord'
  rw [hmap, List.map_map, List.getElem?_map, hc] at hrecord
  rw [hmap', List.map_map, List.getElem?_map, hc] at hrecord'
  obtain rfl := Option.some.inj hrecord
  obtain rfl := Option.some.inj hrecord'
  exact rowsAgree_joined c (ctx.pattern.classify c) (ctx.answer req fs) (ctx'.answer req fs)

/-- Beside the sample stands a run with one worker, another order of the calls
and an analyzer that finds a write in the second fragment, where the one of the
sample fails. The second status and the error differ, the first status stays. -/
theorem execute_isolates_sample :
    let other : RunContext :=
      { sampleRun with
        settings := { workers := 1 }
        analyzer := { name := "other", analyze := fun _ _ => { outcome := .analyzed true none } }
        schedule := fun n => n + 1 }
    sampleFiles.WellFormed ∧ RunContext.SharesCorpus sampleRun other ∧
      ∃ outcome outcome' record record',
        (sampleRun.execute sampleRequest sampleFiles default default).result = .ok outcome ∧
          (other.execute sampleRequest sampleFiles default default).result = .ok outcome' ∧
          outcome.rows.map CaseRow.record = [record] ∧
          outcome'.rows.map CaseRow.record = [record'] ∧
          cell? "file1_status" record = cell? "file1_status" record' ∧
          statusCells record = ["TRUE", "ERROR"] ∧ statusCells record' = ["TRUE", "TRUE"] := by
  intro other
  have hwf : sampleFiles.WellFormed := ⟨by decide, by decide, nofun⟩
  have hshares : RunContext.SharesCorpus sampleRun other := ⟨rfl, rfl⟩
  obtain ⟨outcome, hresult, -⟩ := execute_sample
  obtain ⟨findings, hsurvey, hcases⟩ := survey_sample
  have hprepared : sampleRun.prepared sampleRequest sampleFiles = sampleFiles := by
    rw [RunContext.prepared, if_neg (by decide)]
  have hfound : (sampleRun.found sampleRequest sampleFiles).cases = [sampleCase] := by
    rw [← hcases]
    refine congrArg Discovery.cases (RunContext.found_eq ?_)
    rw [hprepared]
    exact hsurvey
  have hanswers : sampleRun.answer sampleRequest sampleFiles sampleCase.first =
        .analyzed true none ∧
      sampleRun.answer sampleRequest sampleFiles sampleCase.second =
        .failed (.decode "no verdict") := ⟨rfl, rfl⟩
  have hrows := sampleRun.reportRows_eq sampleRequest hwf
  have hrows' := other.reportRows_eq sampleRequest hwf
  rw [hfound, List.map_singleton, hanswers.1, hanswers.2] at hrows
  rw [hshares.found, hfound, List.map_singleton] at hrows'
  obtain ⟨-, hcomplete⟩ := execute_isolates sampleRun other sampleRequest sampleFiles default
    default default default hwf hshares
  obtain ⟨outcome', -, -, -, -, hresult', -, -, -, -, rfl, rfl, -, -, hagree⟩ :=
    hcomplete outcome hresult
  have hrecord := congrArg (List.map CaseRow.record)
    ((RunContext.report_of_execute hresult).1.trans hrows)
  have hrecord' := congrArg (List.map CaseRow.record)
    ((RunContext.report_of_execute hresult').1.trans hrows')
  rw [List.map_singleton] at hrecord hrecord'
  rw [hrecord, hrecord', hfound] at hagree
  have hcells := (hagree 0 _ _ _ rfl rfl rfl).cells "file1_status"
  refine ⟨hwf, hshares, outcome, outcome', _, _, hresult, hresult', hrecord, hrecord', ?_, ?_, ?_⟩
  · by_contra hne
    rcases hcells hne with ⟨-, hdiffers⟩ | ⟨hcolumn, -⟩ | ⟨hcolumn, -⟩
    · exact hdiffers rfl
    · exact absurd hcolumn (by decide)
    · exact absurd hcolumn (by decide)
  · exact CaseRow.statusCells_record _
  · exact CaseRow.statusCells_record _

end RaceSkeletons
