import RaceSkeletons.Proofs.Corpus.SameTree
import RaceSkeletons.Proofs.Run.Rerun

/-!
# A listing is a preview of a run

Listing a corpus and verifying it without normalization resolve their settings
and find their cases on their own, and show them differently: the one in its
listing, the other in the cells of a report and in a summary. They tell the same
(`Listing.Previews`), because they take the extension from the same place
(`Settings.extension_of_resolve`), discovery sees the same tree
(`FileSystem.SameTree.discover`), and what it finds goes into the rows and the
summary unchanged (`RunContext.summary_of_execute`).
-/

namespace RaceSkeletons

open FileSystem

/-! ## Settings -/

/-- A flag goes before the environment, and that before the default. Nothing
else has a part in the extension. -/
theorem Settings.extension_of_resolve {env : Environment} {hostWorkers : Nat} {flags : Flags}
    {settings : Settings} (h : resolve env hostWorkers flags = .ok settings) :
    settings.extension = (flags.extension.map bareExtension).getD
      (((env.text? "SKELCHECK_EXTENSION").map bareExtension).getD "go") := by
  rw [resolve, checked] at h
  split at h
  · obtain rfl := Except.ok.inj h
    rfl
  · cases h

/-! ## The summary -/

namespace RunContext

variable {ctx : RunContext} {req : RunRequest} {fs : FileSystem} {s : RunSummary} {d : Discovery}
  {outcome : RunOutcome} {startedAt : Timestamp} {elapsed : Duration}

/-- The stages behind discovery leave its part of the summary alone. -/
theorem summary_of_outputStages (h : (ctx.outputStages req d fs s).result = .ok outcome) :
    outcome.summary.excludedCases = s.excludedCases ∧
      outcome.summary.subdirectories = s.subdirectories := by
  rw [outputStages] at h
  obtain ⟨s₁, hcombine, hanalyze, -⟩ := Run.andThen_eq_ok h
  obtain ⟨⟨results, s₂⟩, hresults, hreport, -⟩ := Run.andThen_eq_ok hanalyze
  obtain ⟨combined, rfl⟩ := combineStage_eq_ok hcombine
  obtain rfl := congrArg Prod.snd (Except.ok.inj hresults)
  obtain ⟨n, -, hsummary, -⟩ := reportStage_eq_ok hreport
  rw [hsummary]
  exact ⟨rfl, rfl⟩

/-- The summary tells what discovery found. -/
theorem summary_of_execute (h : (ctx.execute req fs startedAt elapsed).result = .ok outcome) :
    outcome.summary.excludedCases = (ctx.found req fs).excluded ∧
      outcome.summary.subdirectories = (ctx.found req fs).totalSubdirs := by
  have hroot := checkRoot_eq_ok_iff.mpr (execute_eq_ok h).1
  rw [result_execute] at h
  cases hstages : (ctx.runStages req fs (RunSummary.start req.root startedAt)).result with
  | error e =>
      rw [hstages] at h
      cases h
  | ok before =>
      rw [hstages] at h
      obtain rfl := Except.ok.inj h
      rw [runStages_of_root hroot] at hstages
      obtain ⟨s₁, -, hcorpus, -⟩ := Run.andThen_eq_ok hstages
      rw [fs_normalizeStage] at hcorpus
      obtain ⟨⟨d, s₂⟩, hdiscover, hvalidate, -⟩ := Run.andThen_eq_ok hcorpus
      obtain ⟨-, findings, hsurvey, rfl, rfl⟩ := discoverStage_eq_ok hdiscover
      obtain ⟨s₃, hpatterns, houtput, -⟩ := Run.andThen_eq_ok hvalidate
      obtain rfl := Except.ok.inj hpatterns
      rw [found_eq hsurvey]
      exact summary_of_outputStages houtput

/-- A complete run has found something below its root. -/
theorem discover_of_execute (hnormalize : req.normalize = false)
    (h : (ctx.execute req fs startedAt elapsed).result = .ok outcome) :
    discover fs req.root ctx.settings.extension = .ok (ctx.found req fs) := by
  have hprepared : ctx.prepared req fs = fs := by
    rw [prepared, if_neg (by rw [hnormalize]; exact Bool.false_ne_true)]
  obtain ⟨-, ⟨findings, hsurvey⟩, -⟩ := execute_eq_ok h
  rw [found_eq hsurvey, discover, ← hprepared, hsurvey]
  rfl

end RunContext

/-! ## Names in a listing and in a report -/

/-- The cells of a record that hold the names of the case and its fragments. -/
def nameCells (record : List String) : List String :=
  ["case_id", "file1_name", "file2_name"].filterMap fun column => cell? column record

/-- The names of a listed case. -/
def ListedCase.names (c : ListedCase) : List String :=
  [c.id, c.first, c.second]

theorem CaseRow.nameCells_record (r : CaseRow) :
    nameCells r.record = [r.caseId, r.first.name, r.second.name] := by
  simp [nameCells, cell?, reportColumns, record, List.lookup]

/-- The rows of cases name what a listing of them names, whatever the analyzer
said. -/
theorem nameCells_aggregate (p : TrackedPattern) (cases : List Case) (results : AnalysisResults) :
    ((aggregate p cases results).map CaseRow.record).map nameCells =
      (cases.map Case.listed).map ListedCase.names := by
  rw [aggregate, List.map_map, List.map_map, List.map_map]
  refine List.map_congr_left fun c _ => ?_
  rw [Function.comp_apply, Function.comp_apply, CaseRow.nameCells_record, CaseRow.of,
    FragmentRow.name_of, FragmentRow.name_of]
  rfl

/-- A listing tells what the summary of a run and the records of its report
tell. -/
structure Listing.Previews (l : Listing) (s : RunSummary) (records : List (List String)) :
    Prop where
  cases : l.cases.map ListedCase.names = records.map nameCells
  excluded : l.excluded = s.excludedCases
  subdirectories : l.subdirectories = s.subdirectories

/-! ## The two commands -/

namespace Program

theorem verify_eq_ok {i : Invocation} {o : VerifyOptions} (h : (verify i o).failure = none) :
    ∃ settings outcome, Settings.resolve i.environment i.hostWorkers o.flags = .ok settings ∧
      (i.verification o settings).result = .ok outcome ∧
      (verify i o).files = (i.verification o settings).fs ∧
      (verify i o).output = some (outcome.summary.render o.format) := by
  simp only [verify] at h ⊢
  cases hsettings : Settings.resolve i.environment i.hostWorkers o.flags with
  | error e =>
      rw [hsettings] at h
      cases h
  | ok settings =>
      rw [hsettings] at h
      simp only at h ⊢
      cases hresult : (i.verification o settings).result with
      | error e =>
          rw [Invocation.verification] at hresult
          rw [hresult] at h
          cases h
      | ok outcome =>
          have hrun := hresult
          rw [Invocation.verification] at hrun
          rw [hrun]
          exact ⟨settings, outcome, rfl, hresult, rfl, rfl⟩

theorem listCorpus_eq_ok {i : Invocation} {o : DiscoverOptions}
    (h : (listCorpus i o).failure = none) :
    ∃ settings d,
      Settings.resolve i.environment i.hostWorkers { extension := o.extension } = .ok settings ∧
      discover i.files o.root settings.extension = .ok d ∧
      (listCorpus i o).output = some ((d.listing o.root).render o.format) := by
  simp only [listCorpus] at h ⊢
  cases hsettings : Settings.resolve i.environment i.hostWorkers { extension := o.extension } with
  | error e =>
      rw [hsettings] at h
      cases h
  | ok settings =>
      rw [hsettings] at h
      cases hfound : discover i.files o.root settings.extension with
      | error e =>
          simp only [hfound] at h
          cases h
      | ok d => exact ⟨settings, d, rfl, hfound, by simp only [hfound]⟩

end Program

/-- **A listing is a preview of a run without normalization.** If both commands
succeed on the same tree, with the same extension from the same place, the
listing names the cases and fragments that the records of the report name, in the
same order, and excludes what the summary excludes. Nothing else about the two
calls matters, and links, unreadable files and directories that are no cases may
stand in the tree. -/
theorem listCorpus_previews_verify (i j : Invocation) (o : VerifyOptions) (o' : DiscoverOptions)
    (hwf : i.files.WellFormed) (hwf' : j.files.WellFormed) (hskip : o.skipNormalize = true)
    (hroot : o'.root = o.root) (htree : i.files.SameTree j.files o.root)
    (hflag : o'.extension = o.flags.extension)
    (hvariable : o'.extension = none →
      j.environment.text? "SKELCHECK_EXTENSION" = i.environment.text? "SKELCHECK_EXTENSION")
    (hverify : (Program.verify i o).failure = none)
    (hlist : (Program.listCorpus j o').failure = none) :
    ∃ settings settings' outcome d,
      Settings.resolve i.environment i.hostWorkers o.flags = .ok settings ∧
      Settings.resolve j.environment j.hostWorkers { extension := o'.extension } = .ok settings' ∧
      (i.verification o settings).result = .ok outcome ∧
      (Program.verify i o).output = some (outcome.summary.render o.format) ∧
      discover j.files o'.root settings'.extension = .ok d ∧
      (Program.listCorpus j o').output = some ((d.listing o'.root).render o'.format) ∧
      ∃ bytes records, (Program.verify i o).files.readBytes o.reportFile = .ok bytes ∧
        Csv.read bytes = some (reportColumns :: records) ∧
        (d.listing o'.root).Previews outcome.summary records := by
  obtain ⟨settings, outcome, hsettings, hresult, hfiles, houtput⟩ := Program.verify_eq_ok hverify
  obtain ⟨settings', d, hsettings', hfound, houtput'⟩ := Program.listCorpus_eq_ok hlist
  refine ⟨settings, settings', outcome, d, hsettings, hsettings', hresult, houtput, hfound,
    houtput', ?_⟩
  have hextension : settings'.extension = settings.extension := by
    rw [Settings.extension_of_resolve hsettings, Settings.extension_of_resolve hsettings', ← hflag]
    cases hgiven : o'.extension with
    | none => rw [hvariable hgiven]
    | some extension => rfl
  rw [Invocation.verification] at hresult
  obtain ⟨hexcluded, hsubdirectories⟩ := RunContext.summary_of_execute hresult
  have hown := RunContext.discover_of_execute (by simp only [hskip, Bool.not_true]) hresult
  obtain ⟨-, -, -, hrows, n, hwritten⟩ := RunContext.execute_eq_ok hresult
  rw [hroot, hextension, htree.discover hwf hwf' hown] at hfound
  obtain rfl := Except.ok.inj hfound
  rw [hfiles, Invocation.verification]
  refine ⟨csvBytes outcome.rows, outcome.rows.map CaseRow.record,
    (readBytes_of_writeReport hwritten).2, read_csvBytes _, ?_, hexcluded.symm,
    hsubdirectories.symm⟩
  rw [hrows, RunContext.reportRows, nameCells_aggregate]
  rfl

/-- Without flags and variables the settings are the defaults. -/
theorem resolve_sample : ∀ workers ∈ [1, 2],
    Settings.resolve ⟨[]⟩ workers {} = .ok { workers } := by
  decide

/-- The sample is listed from its entries the other way round, on a machine with
more workers. -/
theorem listCorpus_previews_verify_sample :
    let i : Invocation :=
      { arguments := [], environment := ⟨[]⟩, hostWorkers := 1, host := fun _ _ => .timedOut,
        files := sampleFiles }
    let reversed : FileSystem := { sampleFiles with entries := sampleFiles.entries.reverse }
    let j : Invocation := { i with hostWorkers := 2, files := reversed }
    let o : VerifyOptions :=
      { root := ⟨"/r"⟩, combinedFile := ⟨"c"⟩, reportFile := ⟨"s.csv"⟩, flags := {},
        skipNormalize := true, format := .json }
    let o' : DiscoverOptions := { root := ⟨"/r"⟩, extension := none, format := .human }
    sampleFiles.WellFormed ∧ reversed.WellFormed ∧ sampleFiles.SameTree reversed ⟨"/r"⟩ ∧
      (Program.verify i o).failure = none ∧ (Program.listCorpus j o').failure = none ∧
      ∃ (outcome : RunOutcome) (d : Discovery) (bytes : Bytes) (records : List (List String)),
        (Program.verify i o).output = some (outcome.summary.render .json) ∧
        (Program.listCorpus j o').output = some ((d.listing ⟨"/r"⟩).render .human) ∧
        (Program.verify i o).files.readBytes ⟨"s.csv"⟩ = .ok bytes ∧
        Csv.read bytes = some (reportColumns :: records) ∧
        records.map nameCells = [["a", "w.go", "x.go"]] ∧
        (d.listing ⟨"/r"⟩).Previews outcome.summary records := by
  intro i reversed j o o'
  have hwf : sampleFiles.WellFormed := isTree_sample.wellFormed
  have hsame : sampleFiles.SameFiles reversed := ⟨List.reverse_perm _, rfl⟩
  have htree := hsame.sameTree hwf ⟨"/r"⟩
  obtain ⟨findings, hsurvey, hcases⟩ := survey_sample
  obtain ⟨around, combined, notices, hcombined, hparents, hreportPath, hfresh, hfaults⟩ :=
    combined_sample
  have hverify : (Program.verify i o).failure = none := by
    have hresolved : Settings.resolve i.environment i.hostWorkers o.flags =
        .ok { workers := 1 } := resolve_sample 1 (.head _)
    obtain ⟨outcome, hresult, -⟩ := RunContext.execute_of_parts
      { settings := { workers := 1 },
        analyzer := ({ workers := 1 } : Settings).externalAnalyzer i.host, host := i.host }
      sampleRequest i.startedAt i.elapsed rfl hsurvey hcombined
      (writeReport_of_missing hparents hreportPath (hfresh ▸ rfl) (fault?_of_nil hfaults))
    have hrun : (i.verification o { workers := 1 }).result = .ok outcome := hresult
    rw [Invocation.verification] at hrun
    rw [Program.verify, hresolved]
    simp only [hrun]
  have hfound : discover reversed ⟨"/r"⟩ "go" = .ok (.ofFindings findings) := by
    rw [hsame.discover hwf, discover, hsurvey]
    rfl
  have hresolved : Settings.resolve j.environment j.hostWorkers { extension := o'.extension } =
      .ok { workers := 2 } := resolve_sample 2 (.tail _ (.head _))
  have hlist : (Program.listCorpus j o').failure = none := by
    have hfound' : discover j.files o'.root "go" = .ok (.ofFindings findings) := hfound
    rw [Program.listCorpus, hresolved]
    simp only [hfound']
  obtain ⟨settings, settings', outcome, d, -, hsettings', hresult, houtput, hfound', houtput',
    bytes, records, hbytes, hread, hpreviews⟩ := listCorpus_previews_verify i j o o' hwf
      (hsame.wellFormed hwf) rfl rfl htree rfl (fun _ => rfl) hverify hlist
  refine ⟨hwf, hsame.wellFormed hwf, htree, hverify, hlist, outcome, d, bytes, records, houtput,
    houtput', hbytes, hread, ?_, hpreviews⟩
  obtain rfl := Except.ok.inj (hresolved.symm.trans hsettings')
  obtain rfl : Discovery.ofFindings findings = d := Except.ok.inj (hfound.symm.trans hfound')
  rw [← hpreviews.cases, Discovery.listing, hcases]
  rfl

end RaceSkeletons
